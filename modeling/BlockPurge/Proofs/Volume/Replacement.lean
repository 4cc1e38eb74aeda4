import BlockPurge.Proofs.Volume.Rooted
import BlockPurge.Volume.Replace

/-!
# Replacing a file

What a replacement does to a volume. Granted, it puts the new file at the one place where the rename
lands, and nothing else differs; refused, it leaves the volume as it was. The steps on the way there
only ever touch a place that was free, so until the last of them all that was there is as before.
-/
namespace BlockPurge.Volume

/-! ## The steps of a replacement -/

/-- The steps that make the temporary file ready. -/
def preparation (temporary : Place) (content : Bytes) (handedDown : Option Mode) : List Step :=
  .create temporary :: .fill temporary content :: (handedDown.map (.setMode temporary)).toList

/-- The permission bits that a file at a path hands down to the one that replaces it. -/
def handedDown (v : Volume) (path : Bytes) : Option Mode :=
  (v.mode path).toOption

theorem entry_of_temporaryFrom {v : Volume} {folder : Bytes} {stem : String} {draw : Draw}
    {attempts n : Nat} {place : Place}
    (h : v.temporaryFrom folder stem draw attempts n = .ok place) :
    v.entry? place = none := by
  induction attempts generalizing n with
  | zero => cases h
  | succ attempts ih =>
    rw [temporaryFrom] at h
    split at h
    · cases h
    · exact ih h
    · rename_i hl
      split at h
      · cases h
        exact entry_of_locate hl
      · cases h

theorem entry_of_temporaryFor {v : Volume} {draw : Draw} {path : Bytes} {place : Place}
    (h : v.temporaryFor draw path = .ok place) : v.entry? place = none := by
  unfold temporaryFor at h
  split at h
  · exact entry_of_temporaryFrom h
  · cases h

/-- A replacement that finds no temporary place does nothing; another prepares a free place, and
then renames it or discards it again. -/
theorem replacement_cases (v : Volume) (draw : Draw) (path content : Bytes) :
    (∃ fault, v.replacement draw path content = ⟨[], .error fault⟩) ∨
    ∃ temporary last verdict, v.temporaryFor draw (v.replacedPath path) = .ok temporary ∧
      v.entry? temporary = none ∧
      v.replacement draw path content =
        ⟨preparation temporary content (v.handedDown (v.replacedPath path)) ++ [last], verdict⟩ ∧
      ((∃ place, v.renameTarget (v.replacedPath path) = .ok place ∧
          last = .rename temporary place ∧ verdict = .ok ()) ∨
        ∃ fault, last = .discard temporary ∧ verdict = .error fault) := by
  cases ht : v.temporaryFor draw (v.replacedPath path) with
  | error fault => exact .inl ⟨fault, by simp only [replacement, ht]⟩
  | ok temporary =>
    have free := entry_of_temporaryFor ht
    right
    cases hr : v.renameTarget (v.replacedPath path) with
    | ok place =>
      refine ⟨temporary, .rename temporary place, .ok (), rfl, free, ?_,
        .inl ⟨place, rfl, rfl, rfl⟩⟩
      cases hm : v.mode (v.replacedPath path) <;>
        simp [replacement, ht, hr, preparation, handedDown, hm, Except.toOption]
    | error fault =>
      refine ⟨temporary, .discard temporary, .error fault, rfl, free, ?_, .inr ⟨fault, rfl, rfl⟩⟩
      cases hm : v.mode (v.replacedPath path) <;>
        simp [replacement, ht, hr, preparation, handedDown, hm, Except.toOption]

theorem performAll_concat (v : Volume) (steps : List Step) (last : Step) :
    v.performAll (steps ++ [last]) = (v.performAll steps).perform last := by
  simp [performAll]

/-- One volume differs from another at one place at most. -/
structure SameBut (p : Place) (v w : Volume) : Prop where
  here : w.here = v.here
  superuser : w.superuser = v.superuser
  entry : ∀ {q}, q ≠ p → w.entry? q = v.entry? q

theorem SameBut.refl (p : Place) (v : Volume) : SameBut p v v :=
  ⟨rfl, rfl, fun _ => rfl⟩

theorem SameBut.put {p : Place} {v w : Volume} (h : SameBut p v w) (hp : p ≠ []) (e : Entry) :
    SameBut p v (w.put p e) where
  here := h.here
  superuser := h.superuser
  entry hq := by rw [entry?_put w p _ e hp, if_neg hq, h.entry hq]

theorem SameBut.drop {p : Place} {v w : Volume} (h : SameBut p v w) (hp : p ≠ []) :
    SameBut p v (w.drop p) where
  here := h.here
  superuser := h.superuser
  entry hq := by rw [entry?_drop w p _ hp, if_neg hq, h.entry hq]

theorem SameBut.extends {p : Place} {v w : Volume} (h : SameBut p v w) (free : v.entry? p = none) :
    v.Extends w where
  here := h.here
  superuser := h.superuser
  entry {q e} hq := by
    rw [h.entry ?_]
    · exact hq
    · intro heq
      subst heq
      simp [free] at hq

/-- The steps that concern a place alone. -/
inductive Step.Concerns (p : Place) : Step → Prop
  | create : Concerns p (.create p)
  | fill (content : Bytes) : Concerns p (.fill p content)
  | setMode (mode : Mode) : Concerns p (.setMode p mode)
  | discard : Concerns p (.discard p)

theorem SameBut.perform {p : Place} {v w : Volume} {step : Step} (h : SameBut p v w) (hp : p ≠ [])
    (hs : step.Concerns p) : SameBut p v (w.perform step) := by
  cases hs with
  | create => exact h.put hp _
  | fill content =>
    simp only [Volume.perform]
    split
    · exact h.put hp _
    · exact h
  | setMode mode =>
    simp only [Volume.perform]
    split
    · exact h.put hp _
    · exact h
  | discard => exact h.drop hp

theorem SameBut.performAll {p : Place} {v w : Volume} {steps : List Step} (h : SameBut p v w)
    (hp : p ≠ []) (hs : ∀ step ∈ steps, step.Concerns p) : SameBut p v (w.performAll steps) := by
  induction steps generalizing w with
  | nil => exact h
  | cons step rest ih =>
    exact ih (h.perform hp (hs step List.mem_cons_self))
      fun step hm => hs step (List.mem_cons_of_mem _ hm)

theorem concerns_preparation {temporary : Place} {content : Bytes} {handedDown : Option Mode} :
    ∀ step ∈ preparation temporary content handedDown, step.Concerns temporary := by
  intro step hm
  cases handedDown with
  | none =>
    rcases by simpa [preparation] using hm with rfl | rfl
    · exact .create
    · exact .fill content
  | some mode =>
    rcases by simpa [preparation] using hm with rfl | rfl | rfl
    · exact .create
    · exact .fill content
    · exact .setMode mode

theorem ne_root_of_free {v : Volume} {p : Place} (free : v.entry? p = none) : p ≠ [] := by
  intro heq
  subst heq
  simp at free

/-- Once it is ready, the temporary file is all that has been added. -/
theorem performAll_preparation (v : Volume) {temporary : Place} (hp : temporary ≠ [])
    (content : Bytes) (handedDown : Option Mode) :
    v.performAll (preparation temporary content handedDown) =
      v.put temporary (.file content (handedDown.getD temporaryMode)) := by
  cases handedDown <;>
    simp [performAll, preparation, perform, entry?_put, hp]

/-! ## Where the rename lands -/

theorem cases_of_landing {v : Volume} {folder place : Place} {name : Name} {asFolder : Bool}
    (hn : name ≠ slashName) (h : v.landing folder name asFolder = .ok place) :
    place = folder ++ [name] ∧ asFolder = false ∧ v.LooksUp folder name ∧
      ∀ mode, v.entry? place ≠ some (.folder mode) := by
  unfold landing at h
  split at h
  · cases h
  · cases h
  · cases h
  rename_i mode hf
  split at h
  · cases h
  rename_i hs
  split at h
  · cases h
  rename_i hdots
  split at h
  · cases h
  rename_i hremoved
  split at h
  · cases h
  rename_i hlong
  split at h
  · cases h
  rename_i has
  split at h
  · cases h
  split at h
  · cases h
  rename_i hnot
  cases h
  exact ⟨rfl, by simpa using has,
    ⟨⟨mode, hf, by simpa using hs⟩, ⟨hn, not_or.mp hdots⟩, by simpa using hremoved,
      Nat.not_lt.mp hlong⟩, hnot⟩

/-- A rename lands at the last name of its path, looked up in the folder that the names before it
lead to, unless a folder stands there. -/
theorem cases_of_renameTarget {v : Volume} {path : Bytes} {place : Place}
    (h : v.renameTarget path = .ok place) :
    ∃ folder name before e, place = folder ++ [name] ∧ names path = before ++ [name] ∧
      v.walk .target (origin v.here path) before = .ok (folder, e) ∧
      v.LooksUp folder name ∧ ∀ mode, v.entry? place ≠ some (.folder mode) := by
  unfold renameTarget at h
  split at h
  · cases h
  split at h
  · cases h
  simp only at h
  split at h
  · cases h
  rename_i name hname
  split at h
  · cases h
  rename_i folder e hwalk
  split at h
  · rename_i landed hland
    cases h
    obtain ⟨before, hused⟩ := List.getLast?_eq_some_iff.mp hname
    rw [hused, List.dropLast_concat] at hwalk
    have hn : name ≠ slashName := by
      have hm : name ∈ (Path.segments path).filter fun s => !s.isEmpty := hused ▸ by simp
      simpa [slashName] using (List.mem_filter.mp hm).2
    obtain ⟨rfl, has, hl, hnot⟩ := cases_of_landing hn hland
    refine ⟨folder, name, before, e, rfl, ?_, hwalk, hl, hnot⟩
    simp only [names, has, Bool.false_eq_true, if_false]
    exact hused
  · cases h

theorem ne_root_of_renameTarget {v : Volume} {path : Bytes} {place : Place}
    (h : v.renameTarget path = .ok place) : place ≠ [] := by
  obtain ⟨folder, name, before, e, rfl, -⟩ := cases_of_renameTarget h
  simp

/-! ## What the steps come to -/

/-- A volume with a file at a place and otherwise as another one is. -/
structure Replaced (p : Place) (content : Bytes) (mode : Mode) (v w : Volume) : Prop where
  here : w.here = v.here
  superuser : w.superuser = v.superuser
  entry : ∀ q, w.entry? q = if q = p then some (.file content mode) else v.entry? q

/-- A replacement that finds a temporary place and a place to land puts its content there. -/
theorem replace_eq {v : Volume} {draw : Draw} {path : Bytes} {temporary place : Place}
    (ht : v.temporaryFor draw (v.replacedPath path) = .ok temporary)
    (hr : v.renameTarget (v.replacedPath path) = .ok place) (content : Bytes) :
    v.replace draw path content = (.ok (),
      v.put place (.file content ((v.handedDown (v.replacedPath path)).getD temporaryMode))) := by
  have free := entry_of_temporaryFor ht
  have hne := ne_root_of_free free
  have hplan : v.replacement draw path content =
      ⟨preparation temporary content (v.handedDown (v.replacedPath path)) ++
        [.rename temporary place], .ok ()⟩ := by
    cases hm : v.mode (v.replacedPath path) <;>
      simp [replacement, ht, hr, preparation, handedDown, hm, Except.toOption]
  simp only [replace, hplan]
  rw [performAll_concat, performAll_preparation v hne]
  simp only [perform, entry?_put v _ _ _ hne, if_true, drop_put, drop_of_free hne free]

/-- A granted replacement puts its content at the place where the rename lands, and would put any
other content there too. -/
theorem replace_eq_put {v w : Volume} {draw : Draw} {path content : Bytes}
    (h : v.replace draw path content = (.ok (), w)) :
    ∃ place, v.renameTarget (v.replacedPath path) = .ok place ∧ place ≠ [] ∧
      ∀ new, v.replace draw path new = (.ok (),
        v.put place (.file new ((v.handedDown (v.replacedPath path)).getD temporaryMode))) := by
  cases ht : v.temporaryFor draw (v.replacedPath path) with
  | error fault => simp [replace, replacement, ht] at h
  | ok temporary =>
    cases hr : v.renameTarget (v.replacedPath path) with
    | error fault => simp [replace, replacement, ht, hr] at h
    | ok place => exact ⟨place, rfl, ne_root_of_renameTarget hr, fun new => replace_eq ht hr new⟩

/-- What was drawn for a granted replacement makes no difference. -/
theorem eq_of_granted {v w w' : Volume} {draw draw' : Draw} {path content : Bytes}
    (h : v.replace draw path content = (.ok (), w))
    (h' : v.replace draw' path content = (.ok (), w')) : w = w' := by
  obtain ⟨place, hr, -, hall⟩ := replace_eq_put h
  obtain ⟨place', hr', -, hall'⟩ := replace_eq_put h'
  cases hr.symm.trans hr'
  exact (congrArg Prod.snd (h.symm.trans (hall content))).trans
    (congrArg Prod.snd (h'.symm.trans (hall' content))).symm

/-- A granted replacement changes nothing but the place where the rename lands. -/
theorem replaced_of_replace {v w : Volume} {draw : Draw} {path content : Bytes}
    (h : v.replace draw path content = (.ok (), w)) :
    ∃ place, v.renameTarget (v.replacedPath path) = .ok place ∧ place ≠ [] ∧
      Replaced place content ((v.handedDown (v.replacedPath path)).getD temporaryMode) v w := by
  obtain ⟨place, hplace, hp, hall⟩ := replace_eq_put h
  cases h.symm.trans (hall content)
  exact ⟨place, hplace, hp, rfl, rfl, fun q => entry?_put v place q _ hp⟩

/-- A replacement that is refused leaves the volume as it was. -/
theorem eq_of_refused {v w : Volume} {draw : Draw} {path content : Bytes} {fault : Fault}
    (h : v.replace draw path content = (.error fault, w)) : w = v := by
  rcases replacement_cases v draw path content with
      ⟨fault', hr⟩ | ⟨temporary, last, verdict, -, free, hr, hlast⟩
  · simpa [replace, hr, performAll] using (Prod.mk.inj h).2.symm
  have ht := ne_root_of_free free
  rcases hlast with ⟨place, -, -, rfl⟩ | ⟨fault', rfl, -⟩
  · simp [replace, hr] at h
  · have hw := (Prod.mk.inj h).2
    rw [hr, performAll_concat, performAll_preparation v ht] at hw
    simpa [perform, drop_of_free ht free] using hw.symm

/-- A replacement without a temporary place or without a place to land is refused, and leaves the
volume as it was. -/
theorem replace_refused {v : Volume} {draw : Draw} {path : Bytes} {fault : Fault}
    (hf : v.temporaryFor draw (v.replacedPath path) = .error fault ∨
      (∃ temporary, v.temporaryFor draw (v.replacedPath path) = .ok temporary) ∧
        v.renameTarget (v.replacedPath path) = .error fault) (content : Bytes) :
    v.replace draw path content = (.error fault, v) := by
  have hverdict : (v.replace draw path content).1 = .error fault := by
    rcases hf with ht | ⟨⟨temporary, ht⟩, hr⟩
    · simp [replace, replacement, ht]
    · simp [replace, replacement, ht, hr]
  exact Prod.ext hverdict (eq_of_refused (Prod.ext hverdict rfl))

/-- A granted replacement takes no folder away. -/
theorem folder_replace {v w : Volume} {draw : Draw} {path content : Bytes}
    (h : v.replace draw path content = (.ok (), w)) {q : Place} {mode : Mode}
    (hq : v.entry? q = some (.folder mode)) : w.entry? q = some (.folder mode) := by
  obtain ⟨place, ht, hp, hw⟩ := replaced_of_replace h
  obtain ⟨folder, name, before, e, -, -, -, -, hnot⟩ := cases_of_renameTarget ht
  rw [hw.entry, if_neg ?_]
  · exact hq
  · intro heq
    subst heq
    exact hnot mode hq

theorem here_replace {v w : Volume} {draw : Draw} {path content : Bytes}
    (h : v.replace draw path content = (.ok (), w)) : w.here = v.here := by
  obtain ⟨place, -, -, hw⟩ := replaced_of_replace h
  exact hw.here

theorem sound_replace {v w : Volume} {draw : Draw} {path content : Bytes} (sound : v.Sound)
    (h : v.replace draw path content = (.ok (), w)) : w.Sound :=
  sound.mono (here_replace h) (folder_replace h)

theorem standing_replace {v w : Volume} {draw : Draw} {path content : Bytes} (standing : v.Standing)
    (h : v.replace draw path content = (.ok (), w)) : w.Standing :=
  standing.mono (here_replace h) (folder_replace h)

/-- Before its last step a replacement has touched the temporary place alone, and one that is
refused has not touched more afterwards either. -/
theorem sameBut_performAll_take (v : Volume) (draw : Draw) (path content : Bytes) (n : Nat) :
    v.performAll ((v.replacement draw path content).steps.take n) = v ∨
      (∃ temporary, v.temporaryFor draw (v.replacedPath path) = .ok temporary ∧
        SameBut temporary v (v.performAll ((v.replacement draw path content).steps.take n))) ∨
      (v.replacement draw path content).verdict = .ok () ∧
        (v.replacement draw path content).steps.take n =
          (v.replacement draw path content).steps := by
  rcases replacement_cases v draw path content with
      ⟨fault, hr⟩ | ⟨temporary, last, verdict, htemp, free, hr, hlast⟩
  · rw [hr]
    exact .inl (by simp [performAll])
  have ht := ne_root_of_free free
  rw [hr]
  simp only
  rcases hlast with ⟨place, -, rfl, rfl⟩ | ⟨fault, rfl, rfl⟩
  · by_cases hn : n ≤ (preparation temporary content (v.handedDown (v.replacedPath path))).length
    · rw [List.take_append_of_le_length hn]
      refine .inr (.inl ⟨temporary, htemp, (SameBut.refl temporary v).performAll ht ?_⟩)
      exact fun step hm => concerns_preparation step (List.mem_of_mem_take hm)
    · exact .inr (.inr ⟨rfl, List.take_of_length_le (by simp; omega)⟩)
  · refine .inr (.inl ⟨temporary, htemp, (SameBut.refl temporary v).performAll ht ?_⟩)
    intro step hm
    rcases List.mem_append.mp (List.mem_of_mem_take hm) with hm | hm
    · exact concerns_preparation step hm
    · exact List.mem_singleton.mp hm ▸ .discard

/-- So it has not touched anything that was there. -/
theorem extends_performAll_take (v : Volume) (draw : Draw) (path content : Bytes) (n : Nat) :
    v.Extends (v.performAll ((v.replacement draw path content).steps.take n)) ∨
      (v.replacement draw path content).verdict = .ok () ∧
        (v.replacement draw path content).steps.take n =
          (v.replacement draw path content).steps := by
  rcases sameBut_performAll_take v draw path content n with heq | ⟨temporary, htemp, hs⟩ | hall
  · exact .inl (heq.symm ▸ Extends.refl v)
  · exact .inl (hs.extends (entry_of_temporaryFor htemp))
  · exact .inr hall

end BlockPurge.Volume
