import BlockPurge.Metadata.Store
import BlockPurge.Proofs.Text.Decoding
import BlockPurge.Proofs.Volume.ReadBack

/-!
# Metadata is recorded as a whole

Recording metadata at a path is atomic. A granted request puts the text at one place and changes
nothing else, a refused one changes nothing at all, and a reader who comes by after any of the steps
finds what was there before or the new text. What a path reads as is said for paths that do not run
into the files which the steps themselves move: the temporary file while it stands, and the link
that a path without a canonical form ends at. The last theorem shows that none of this can be left
out.
-/
namespace BlockPurge.Metadata

open Volume

/-- A file holds a text that is read as metadata. -/
structure Stored (v : Volume) (path : Bytes) (content : String) (m : Metadata) : Prop where
  read : v.read path = .ok (Text.encode content)
  parsed : parse content = .ok m

theorem Stored.load {v : Volume} {path : Bytes} {content : String} {m : Metadata}
    (h : Stored v path content m) : Metadata.load v path = .ok m := by
  simp [Metadata.load, Volume.readText, h.read, Text.decode?_encode, h.parsed]

/-- Metadata that can be loaded stands in a file. -/
theorem stored_of_load {v : Volume} {path : Bytes} {m : Metadata}
    (h : Metadata.load v path = .ok m) :
    ∃ content, Stored v path content m := by
  unfold Metadata.load Volume.readText at h
  cases hr : v.read path with
  | error fault => simp [hr] at h
  | ok bytes =>
    cases hd : Text.decode? bytes with
    | none => simp [hr, hd] at h
    | some content =>
      cases hp : parse content with
      | error fault => simp [hr, hd, hp] at h
      | ok m' =>
        simp only [hr, hd, hp, Except.ok.injEq] at h
        exact ⟨content, by rw [hr, Text.decode?_eq_some_iff.mp hd], h ▸ hp⟩

/-- Recording metadata at a path is atomic. -/
structure Atomic (v : Volume) (draw : Draw) (m : Metadata) (path : Bytes) : Prop where
  /-- What a request comes to is what its steps come to. -/
  effect : (m.persist v draw path).2 = v.performAll (m.replacement v draw path).steps
  /-- A granted request changes one place, where the rename lands. -/
  granted : ∀ {w}, m.persist v draw path = (.ok (), w) →
    ∃ place mode, v.renameTarget (v.replacedPath path) = .ok place ∧
      Replaced place (Text.encode m.render) mode v w
  /-- A path with a canonical form stands for a file, which is replaced and keeps its bits. -/
  resolved : ∀ {form w}, v.canonical path = .ok form → m.persist v draw path = (.ok (), w) →
    ∃ place old mode, form = pathOf place ∧ v.entry? place = some (.file old mode) ∧
      Replaced place (Text.encode m.render) mode v w ∧ ∀ q, v.Leads path q → q = place
  /-- The path then reads as the new text, or is refused reading as it was before. -/
  readBack : ∀ {w}, m.persist v draw path = (.ok (), w) → ¬ v.Reenters path →
    ReadsNew v w path (Text.encode m.render)
  /-- A refused request leaves everything as it was. -/
  refused : ∀ {failure w}, m.persist v draw path = (.error failure, w) → w = v
  /-- After any number of steps the path reads as before or as the new text. -/
  steps : ¬ v.Reenters path →
    (∀ {temporary}, v.temporaryFor draw (v.replacedPath path) = .ok temporary →
      ¬ v.Passes path temporary) →
    ∀ n, (v.performAll ((m.replacement v draw path).steps.take n)).read path = v.read path ∨
      (v.performAll ((m.replacement v draw path).steps.take n)).read path =
        .ok (Text.encode m.render)
  /-- A path that leads to a file runs into neither of the two. -/
  clear : ∀ {q content mode}, v.Leads path q → v.entry? q = some (.file content mode) →
    ¬ v.Reenters path ∧ ∀ {temporary}, v.temporaryFor draw (v.replacedPath path) = .ok temporary →
      ¬ v.Passes path temporary

section
variable {v w : Volume} {draw : Draw} {m : Metadata} {path : Bytes}

theorem replace_of_persist_ok (h : m.persist v draw path = (.ok (), w)) :
    v.replace draw path (Text.encode m.render) = (.ok (), w) := by
  unfold persist at h
  split at h
  · rename_i hr
    cases h
    exact hr
  · cases h

theorem replace_of_persist_error {failure : Failure}
    (h : m.persist v draw path = (.error failure, w)) :
    ∃ fault, failure = .io fault ∧
      v.replace draw path (Text.encode m.render) = (.error fault, w) := by
  unfold persist at h
  split at h
  · cases h
  · rename_i hr
    cases h
    exact ⟨_, rfl, hr⟩

/-- What a reader finds before the last step, and after it. -/
theorem read_performAll_take (standing : v.Standing) {content : Bytes} (hb : ¬ v.Reenters path)
    (ht : ∀ {temporary}, v.temporaryFor draw (v.replacedPath path) = .ok temporary →
      ¬ v.Passes path temporary) (n : Nat) :
    (v.performAll ((v.replacement draw path content).steps.take n)).read path = v.read path ∨
      (v.performAll ((v.replacement draw path content).steps.take n)).read path = .ok content := by
  rcases sameBut_performAll_take v draw path content n with
      heq | ⟨temporary, htemp, hs⟩ | ⟨hv, hall⟩
  · exact .inl (by rw [heq])
  · exact .inl (hs.read_eq (ht htemp))
  · have hr : v.replace draw path content =
        (.ok (), v.performAll (v.replacement draw path content).steps) := congrArg (·, _) hv
    rw [hall]
    rcases readsNew_of_replace (fun _ => standing) hr hb with hg | ⟨hd, hw⟩ | ⟨-, hw⟩
    · exact .inr hg
    · exact .inl (hw.trans hd.symm)
    · exact .inl hw

end

/-- **Recording metadata is atomic**, on every volume and at every path, whatever is drawn. -/
theorem persist_atomic {v : Volume} (standing : v.Standing) (draw : Draw) (m : Metadata)
    (path : Bytes) : Atomic v draw m path where
  effect := by
    have hr : v.replace draw path (Text.encode m.render) =
      ((m.replacement v draw path).verdict, v.performAll (m.replacement v draw path).steps) := rfl
    unfold persist
    rw [hr]
    cases (m.replacement v draw path).verdict <;> rfl
  granted := by
    intro w h
    obtain ⟨place, ht, -, hw⟩ := replaced_of_replace (replace_of_persist_ok h)
    exact ⟨place, _, ht, hw⟩
  resolved := by
    intro form w hc h
    obtain ⟨place, old, mode, hform, hplace, hw, hloc⟩ :=
      replaced_of_canonical (fun _ => standing) hc (replace_of_persist_ok h)
    exact ⟨place, old, mode, hform, hplace, hw, fun q hl => hl.eq_of_canonical hloc⟩
  readBack := fun h hb => readsNew_of_replace (fun _ => standing) (replace_of_persist_ok h) hb
  refused := by
    intro failure w h
    obtain ⟨fault, -, hr⟩ := replace_of_persist_error h
    exact eq_of_refused hr
  steps := fun hb ht n => read_performAll_take standing hb ht n
  clear := fun hl hq => ⟨hl.not_reenters hq, fun ht => hl.not_passes hq (entry_of_temporaryFor ht)⟩

/-! ## Small volumes -/

/-- A folder `/d` with an entry by the name `m`, and perhaps more. -/
def smallWith (e : Entry) (more : List (Place × Entry)) : Volume :=
  ⟨([[100]], .folder 0o755) :: ([[100], [109]], e) :: more, [], false⟩

/-- The path `/d/m`. -/
def smallPath : Bytes := [47, 100, 47, 109]

/-- Metadata of no blocks. -/
def smallEmpty : Metadata := ⟨"nvme0", ("", ""), []⟩

/-- A link `/d/m` to a file `/d/n`. -/
def smallLinked : Volume :=
  smallWith (.link [110]) [([[100], [110]], .file [] 0o640)]

/-- Through a link metadata is recorded in the file that the link leads to, step by step. -/
theorem persist_atomic_small : smallLinked.Standing ∧
    (∃ w, smallEmpty.persist smallLinked .ofNat smallPath = (.ok (), w) ∧
      w.entry? [[100], [109]] = some (.link [110]) ∧
      w.entry? [[100], [110]] = some (.file (Text.encode smallEmpty.render) 0o640) ∧
      w.read smallPath = .ok (Text.encode smallEmpty.render)) ∧
    ∀ n, let plan := smallEmpty.replacement smallLinked .ofNat smallPath
      let u := smallLinked.performAll (plan.steps.take n)
      u.read smallPath = .ok [] ∨ u.read smallPath = .ok (Text.encode smallEmpty.render) := by
  have standing : smallLinked.Standing := standing_of_root rfl
  have atomic := persist_atomic standing .ofNat smallEmpty smallPath
  have hn : smallLinked.entry? [[100], [110]] = some (.file [] 0o640) := rfl
  have hl : smallLinked.Leads smallPath [[100], [110]] :=
    leads_of_locate (e := .file [] 0o640) rfl
  obtain ⟨hb, ht⟩ := atomic.clear hl hn
  refine ⟨standing, ⟨_, rfl, ?_⟩, fun n => atomic.steps hb ht n⟩
  have hc : smallLinked.canonical smallPath = .ok (pathOf [[100], [110]]) := rfl
  obtain ⟨place, old, mode, -, hplace, hw, hlead⟩ := atomic.resolved hc rfl
  obtain rfl := hlead _ hl
  obtain ⟨rfl, rfl⟩ := Entry.file.inj (Option.some.inj (hn.symm.trans hplace))
  refine ⟨hw.entry [[100], [109]], hw.entry [[100], [110]], ?_⟩
  rcases atomic.readBack rfl hb with hg | hd | hlong
  · exact hg
  · cases hd
  · exact absurd hlong (by decide)

/-- Metadata is recorded at a path, and the path does not read as its text afterwards. -/
def Unread (v : Volume) (m : Metadata) (path : Bytes) : Prop :=
  (m.persist v .ofNat path).1.toBool = true ∧
    ((m.persist v .ofNat path).2.read path).toOption ≠ some (Text.encode m.render)

instance (v : Volume) (m : Metadata) (path : Bytes) : Decidable (Unread v m path) :=
  inferInstanceAs (Decidable (_ ∧ _))

/-- A path that goes by `/d/m` and back to the root, more often than a walk follows links. -/
def smallRound : Bytes :=
  (List.replicate 40 [47, 100, 47, 109, 47, 46, 46]).flatten ++ smallPath

/-- A path that is longer than any that the system takes. -/
def smallLong : Bytes :=
  (List.replicate 2046 [47, 46]).flatten ++ smallPath

/-- Each of the provisos is needed: a file that may not be read, a path that comes back by the link
at its end, a path that is too long, and a link to nothing that has the name of the temporary file.
-/
theorem not_atomic_small :
    Unread (smallWith (.file [] 0o200) []) smallEmpty smallPath ∧
    Unread (smallWith (.link [47, 101]) [([[101]], .folder 0o755)]) smallEmpty smallRound ∧
    Unread (smallWith (.file [] 0o644) []) smallEmpty smallLong ∧
    let v := smallWith (.link (temporaryName "m" (.ofNat 0))) []
    let u := v.performAll ((smallEmpty.replacement v .ofNat smallPath).steps.take 1)
    (v.read smallPath).toOption = none ∧ (u.read smallPath).toOption = some [] := by
  refine ⟨by decide +kernel, by decide +kernel, by decide +kernel, ?_⟩
  decide +kernel

end BlockPurge.Metadata
