import BlockPurge.Proofs.Volume.Replacement
import BlockPurge.Proofs.Volume.Settled
import BlockPurge.Proofs.Volume.Visits

/-!
# Reading what was replaced

A path reads as the new content once its file has been replaced. If the path has a canonical form,
the file at that very place is a new one and all walks go as before; otherwise the last name of the
path stands for the new file, whatever it stood for. There are two provisos. A path that could not
be read for want of a right, or for its length, is still refused in the same way; and a path must
not come back on itself, by names that lead through the link which the last of them stands for.
-/
namespace BlockPurge.Volume

/-- A path has no canonical form, and a rename to it takes the place of a link that the names before
the last lead by. -/
def Reenters (v : Volume) (path : Bytes) : Prop :=
  (∀ form, v.canonical path ≠ .ok form) ∧
    ∃ place target, v.renameTarget path = .ok place ∧ v.entry? place = some (.link target) ∧
      v.Visits (origin v.here path) (names path).dropLast place

/-! ## Where a path leads after a replacement -/

/-- A file renamed to the absolute path of a rooted place lands there. -/
theorem renameTarget_pathOf {v : Volume} {p place : Place} {name : Name}
    (hr : v.Rooted (p ++ [name])) (h : v.renameTarget (pathOf (p ++ [name])) = .ok place) :
    place = p ++ [name] := by
  obtain ⟨folder, last, before, e, rfl, hnames, hwalk, -, -⟩ := cases_of_renameTarget h
  rw [names_pathOf hr.proper] at hnames
  obtain ⟨rfl, hlast⟩ := List.append_inj' hnames rfl
  rw [origin, isAbsolute_pathOf, if_pos rfl] at hwalk
  rw [hlast, place_of_walk (fun r hq => hr.inner hq)
    (fun n hm => hr.proper n (List.mem_append_left _ hm)) hwalk]

/-- A rename lands in the folder that the names before the last one lead to. -/
theorem reaches_of_renameTarget {v : Volume} {path : Bytes} {place : Place}
    (h : v.renameTarget path = .ok place) :
    ∃ folder name before, ∃ n ≤ mostLinks, place = folder ++ [name] ∧
      names path = before ++ [name] ∧ v.Reaches (origin v.here path) before n folder ∧
      v.LooksUp folder name ∧ ∀ mode, v.entry? place ≠ some (.folder mode) := by
  obtain ⟨folder, name, before, e, hplace, hnames, hwalk, hlook, hnot⟩ := cases_of_renameTarget h
  obtain ⟨mode, hf, -⟩ := hlook.folder
  obtain rfl : e = some (.folder mode) := (entry_of_chase hwalk).symm.trans hf
  obtain ⟨n, hn, hr⟩ := reaches_of_chase hwalk
  exact ⟨folder, name, before, n, hn, hplace, hnames, hr, hlook, hnot⟩

/-- What a path leads to stands where a rename to it lands, or behind the link that stands there. -/
theorem Leads.end_cases {v : Volume} {path : Bytes} {q place : Place} (hl : v.Leads path q)
    (ht : v.renameTarget path = .ok place) :
    place = q ∨ ∃ folder name target k, place = folder ++ [name] ∧
      v.entry? place = some (.link target) ∧
      v.Reaches (origin folder target) (names target) k q := by
  obtain ⟨folder, name, before, i, -, rfl, hnames, hi, hlook, -⟩ := reaches_of_renameTarget ht
  obtain ⟨-, n, -, hr⟩ := hl
  rw [hnames] at hr
  obtain ⟨r, k, l, h₁, h₂, -⟩ := hr.split
  obtain rfl := h₁.unique hi
  cases h₂ with
  | move hm hd =>
    cases hd
    exact .inl (hlook.place_eq hm).symm
  | @follow _ _ _ target _ n _ hn hr =>
    exact .inr ⟨r, name, target, n, rfl, hn, by simpa using hr⟩

/-- A walk to another place does not come by a link to a file. -/
theorem Reaches.avoids {v : Volume} {p r f q : Place} {ns : List Name} {name : Name}
    {target content : Bytes} {mode : Mode} {n k : Nat} (h : v.Reaches p ns n r)
    (hlink : v.entry? (f ++ [name]) = some (.link target))
    (hq : v.Reaches (origin f target) (names target) k q)
    (hfile : v.entry? q = some (.file content mode)) (hlast : f ++ [name] ≠ r) (hne : q ≠ r) :
    ¬ v.Visits p ns (f ++ [name]) := by
  intro hv
  rcases h.visited hv with heq | ⟨m, hm⟩ | ⟨f', name', target', t, l, heq, hn, ht, hend⟩
  · exact hlast heq
  · simp [hlink] at hm
  · obtain ⟨rfl, -⟩ := List.append_inj' heq rfl
    obtain rfl := Entry.link.inj (Option.some.inj (hlink.symm.trans hn))
    obtain rfl := ht.unique hq
    rcases hend with heq | ⟨m, hm⟩
    · exact hne heq
    · simp [hm] at hfile

/-- A rename to a path of a file does not take a link that the path needs. -/
theorem Leads.not_reenters {v : Volume} {path old : Bytes} {q : Place} {mode : Mode}
    (hl : v.Leads path q) (hq : v.entry? q = some (.file old mode)) : ¬ v.Reenters path := by
  rintro ⟨-, place, target, ht, hlink, hv⟩
  rcases hl.end_cases ht with rfl | ⟨f, n, target', k, heq, hn, hfile⟩
  · simp [hlink] at hq
  obtain rfl := Entry.link.inj (Option.some.inj (hlink.symm.trans hn))
  obtain ⟨folder, name, before, i, -, rfl, hnames, hi, hlook, -⟩ := reaches_of_renameTarget ht
  obtain ⟨rfl, -⟩ := List.append_inj' heq rfl
  obtain ⟨fmode, hf, -⟩ := hlook.folder
  rw [hnames, List.dropLast_concat] at hv
  refine hi.avoids hlink hfile hq (by simp) ?_ hv
  rintro rfl
  simp [hf] at hq

theorem acceptable_of_renameTarget {v : Volume} {path : Bytes} {place : Place}
    (h : v.renameTarget path = .ok place) : acceptable path = .ok () := by
  have hne : path ≠ [] := by
    rintro rfl
    obtain ⟨_, _, before, _, -, hnames, -⟩ := cases_of_renameTarget h
    simp [names, Path.segments] at hnames
  unfold renameTarget at h
  split at h
  · cases h
  rename_i hzero
  split at h
  · cases h
  rename_i hlong
  exact acceptable_iff.mpr ⟨by simpa using hzero, hne, Nat.le_of_not_lt hlong⟩

/-- The folder that a rename lands in is still reached afterwards, unless it was reached by the link
that is gone. -/
theorem reaches_renamed {v w : Volume} {path content : Bytes} {place : Place} {mode : Mode}
    (hc : ∀ form, v.canonical path ≠ .ok form) (ht : v.renameTarget path = .ok place)
    (hw : Replaced place content mode v w) (hb : ¬ v.Reenters path) :
    ∃ folder name before, ∃ n ≤ mostLinks, place = folder ++ [name] ∧
      names path = before ++ [name] ∧ w.Reaches (origin w.here path) before n folder ∧
      w.LooksUp folder name := by
  obtain ⟨folder, name, before, i, hle, rfl, hnames, hi, hlook, hnot⟩ :=
    reaches_of_renameTarget ht
  obtain ⟨fmode, hf, hs⟩ := hlook.folder
  have same : ∀ q, v.Visits (origin v.here path) before q → v.Alike w q := by
    intro q hq
    refine .same ((hw.entry q).trans (if_neg ?_))
    rintro rfl
    rcases hi.visited hq with heq | ⟨m, hm⟩ | ⟨f, last, target, t, l, -, hn, -, -⟩
    · simp at heq
    · exact hnot m hm
    · exact hb ⟨hc, _, target, ht, hn, by rwa [hnames, List.dropLast_concat]⟩
  have hfolder : w.entry? folder = some (.folder fmode) := by
    rw [hw.entry, if_neg (by simp), hf]
  have hwalk' : w.walk .target (origin w.here path) before =
      .ok (folder, some (.folder fmode)) := by
    rw [hw.here, walk_alike hw.superuser same, walk, hi.chase_eq hle, ← hfolder]
    rfl
  obtain ⟨j, hj, h₁⟩ := reaches_of_chase hwalk'
  exact ⟨folder, name, before, j, hj, rfl, hnames, h₁,
    ⟨fmode, hfolder, (allows_congr hw.superuser fmode .search).trans hs⟩, hlook.plain,
    hlook.present, hlook.short⟩

/-- A path that something is renamed to leads there afterwards, unless it led there by the link that
is gone. -/
theorem leads_renamed {v w : Volume} {path content : Bytes} {place : Place} {mode : Mode}
    (hc : ∀ form, v.canonical path ≠ .ok form) (ht : v.renameTarget path = .ok place)
    (hw : Replaced place content mode v w) (hb : ¬ v.Reenters path) : w.Leads path place := by
  have hacc := acceptable_of_renameTarget ht
  obtain ⟨folder, name, before, j, hj, rfl, hnames, hway, hlook⟩ := reaches_renamed hc ht hw hb
  have hplace : w.entry? (folder ++ [name]) = some (.file content mode) := by
    rw [hw.entry, if_pos rfl]
  refine ⟨hacc, j, hj, ?_⟩
  rw [hnames, ← Nat.add_zero j]
  exact hway.append (.move (.enter hlook hplace (by simp)) (.done _))

/-! ## What is read afterwards -/

theorem Leads.read_eq {v : Volume} {path content : Bytes} {q : Place} {mode : Mode}
    (hl : v.Leads path q) (hq : v.entry? q = some (.file content mode)) :
    v.read path =
      if v.allows mode .read then .ok content else .error (.system .permissionDenied) := by
  simp [read, hl.locate_eq, hq]

theorem read_eq_of_long {v w : Volume} {path : Bytes} (h : longestPath < path.length) :
    w.read path = v.read path := by
  have hlong : acceptable path ≠ .ok () := fun ha => Nat.not_le.mpr h (acceptable_iff.mp ha).2.2
  cases ha : acceptable path with
  | error fault => simp [read, locate, ha]
  | ok done => exact absurd ha hlong

/-- The bits that a path hands down let its user read, or reading was refused already. -/
theorem read_handedDown (v : Volume) (path : Bytes) :
    v.allows ((v.handedDown path).getD temporaryMode) .read = true ∨
      v.read path = .error (.system .permissionDenied) := by
  cases hm : v.mode path with
  | error fault =>
    have hbits : temporaryMode.testBit Access.read.bit = true := by decide
    exact .inl (by simp [handedDown, hm, Except.toOption, allows, hbits])
  | ok mode =>
    have hd : v.handedDown path = some mode := by simp [handedDown, hm, Except.toOption]
    rw [hd, Option.getD_some]
    cases ha : v.allows mode .read with
    | true => exact .inl rfl
    | false =>
      right
      unfold Volume.mode at hm
      unfold read
      split at hm <;> cases hm <;> simp [*]

/-- A path reads as a new content, or is refused as it was before, for want of a right or for its
length. -/
inductive ReadsNew (v w : Volume) (path content : Bytes) : Prop
  | granted : w.read path = .ok content → ReadsNew v w path content
  | denied : v.read path = .error (.system .permissionDenied) →
      w.read path = .error (.system .permissionDenied) → ReadsNew v w path content
  | tooLong : longestPath < path.length → w.read path = v.read path → ReadsNew v w path content

/-- A rename to the canonical form of a path lands on a file, where the path leads if it leads
anywhere. -/
theorem landing_of_canonical {v : Volume} {path form : Bytes} {place : Place}
    (standing : Path.isAbsolute path = false → v.Standing) (hc : v.canonical path = .ok form)
    (ht : v.renameTarget form = .ok place) :
    ∃ old mode, form = pathOf place ∧ v.entry? place = some (.file old mode) ∧
      v.handedDown form = some mode ∧
      (v.locate .target path = .ok (place, v.entry? place) ∨
        v.locate .target path = .error (.system .permissionDenied) ∨
        longestPath < path.length) := by
  obtain ⟨q, rfl, hq, hloc⟩ := canonical_cases standing hc
  obtain ⟨folder, name, before, e, -, hnames, -, hlook, hnot⟩ := cases_of_renameTarget ht
  obtain rfl : place = q := by
    rcases List.eq_nil_or_concat q with rfl | ⟨front, last, hb⟩
    · have hn : names (pathOf []) = [] ++ [slashName] := rfl
      obtain ⟨-, heq⟩ := List.append_inj' (hn.symm.trans hnames) rfl
      exact absurd (List.singleton_inj.mp heq).symm hlook.plain.1
    · rw [List.concat_eq_append] at hb
      subst hb
      exact renameTarget_pathOf hq.rooted ht
  rcases hq.found with ⟨mode, hf⟩ | ⟨-, old, mode, hfile⟩
  · exact absurd hf (hnot mode)
  · have hd : v.handedDown (pathOf place) = some mode := by
      simp [handedDown, Volume.mode, locate_target (by simp) hfile, Except.toOption]
    exact ⟨old, mode, rfl, entry_of_locate hfile, hd, hloc⟩

/-- A path with a canonical form has a file there replaced, which keeps its bits. -/
theorem replaced_of_canonical {v w : Volume} {draw : Draw} {path content form : Bytes}
    (standing : Path.isAbsolute path = false → v.Standing) (hc : v.canonical path = .ok form)
    (h : v.replace draw path content = (.ok (), w)) :
    ∃ q old mode, form = pathOf q ∧ v.entry? q = some (.file old mode) ∧
      Replaced q content mode v w ∧
      (v.locate .target path = .ok (q, v.entry? q) ∨
        v.locate .target path = .error (.system .permissionDenied) ∨
        longestPath < path.length) := by
  obtain ⟨place, ht, hp, hw⟩ := replaced_of_replace h
  have hpath : v.replacedPath path = form := by simp [replacedPath, hc]
  rw [hpath] at ht hw
  obtain ⟨old, mode, hform, hfile, hd, hloc⟩ := landing_of_canonical standing hc ht
  rw [hd] at hw
  exact ⟨place, old, mode, hform, hfile, hw, hloc⟩

/-- Of a path that leads anywhere it is then known where. -/
theorem Leads.eq_of_canonical {v : Volume} {path : Bytes} {q place : Place} (hl : v.Leads path q)
    (hloc : v.locate .target path = .ok (place, v.entry? place) ∨
      v.locate .target path = .error (.system .permissionDenied) ∨
      longestPath < path.length) : q = place := by
  have hq := hl.locate_eq
  rcases hloc with hloc | hloc | hlong
  · exact (Prod.mk.inj (Except.ok.inj (hq.symm.trans hloc))).1
  · cases hq.symm.trans hloc
  · exact absurd (acceptable_iff.mp hl.acceptable).2.2 (Nat.not_le.mpr hlong)

/-- A volume in which a file was replaced looks the same to every walk. -/
theorem Replaced.alike {v w : Volume} {q : Place} {content old : Bytes} {mode mode' : Mode}
    (hw : Replaced q content mode' v w) (hq : v.entry? q = some (.file old mode)) (r : Place) :
    v.Alike w r := by
  by_cases hr : r = q
  · subst hr
    exact .files hq ((hw.entry r).trans (if_pos rfl))
  · exact .same ((hw.entry r).trans (if_neg hr))

/-- A file is replaced where a path leads to, and all paths lead where they did. -/
theorem readsNew_of_file {v w : Volume} {path content old : Bytes} {q : Place} {mode : Mode}
    (hq : v.entry? q = some (.file old mode)) (hw : Replaced q content mode v w)
    (hloc : v.locate .target path = .ok (q, v.entry? q) ∨
      v.locate .target path = .error (.system .permissionDenied) ∨ longestPath < path.length) :
    ReadsNew v w path content := by
  have hwq : w.entry? q = some (.file content mode) := by rw [hw.entry, if_pos rfl]
  have hloc' : w.locate .target path = (v.locate .target path).map w.found :=
    locate_alike hw.here hw.superuser fun r _ => hw.alike hq r
  rcases hloc with hv | hv | hlong
  · rw [hv, hq] at hloc'
    rw [hq] at hv
    have hm := allows_congr hw.superuser mode .read
    cases ha : v.allows mode .read with
    | true => exact .granted (by simp [read, hloc', Except.map, found, hwq, hm, ha])
    | false =>
      exact .denied (by simp [read, hv, ha]) (by simp [read, hloc', Except.map, found, hwq, hm, ha])
  · rw [hv] at hloc'
    exact .denied (by simp [read, hv]) (by simp [read, hloc', Except.map])
  · exact .tooLong hlong (read_eq_of_long hlong)

/-- A path reads as before while a place changes that its walk does not look at. -/
theorem SameBut.read_eq {p : Place} {v w : Volume} {path : Bytes} (h : SameBut p v w)
    (hp : ¬ v.Passes path p) : w.read path = v.read path :=
  read_same h.here h.superuser fun _ hq => h.entry fun heq => hp (heq ▸ hq)

/-- **A granted replacement is read back.** -/
theorem readsNew_of_replace {v w : Volume} {draw : Draw} {path content : Bytes}
    (standing : Path.isAbsolute path = false → v.Standing)
    (h : v.replace draw path content = (.ok (), w)) (hb : ¬ v.Reenters path) :
    ReadsNew v w path content := by
  cases hc : v.canonical path with
  | ok form =>
    obtain ⟨q, old, mode, -, hq, hw, hloc⟩ := replaced_of_canonical standing hc h
    exact readsNew_of_file hq hw hloc
  | error fault =>
    obtain ⟨place, ht, -, hw⟩ := replaced_of_replace h
    have hpath : v.replacedPath path = path := by simp [replacedPath, hc]
    rw [hpath] at ht hw
    have hl := leads_renamed (by simp [hc]) ht hw hb
    have hplace : w.entry? place =
        some (.file content ((v.handedDown path).getD temporaryMode)) := by
      rw [hw.entry, if_pos rfl]
    have hread := hl.read_eq hplace
    rw [allows_congr hw.superuser] at hread
    cases ha : v.allows ((v.handedDown path).getD temporaryMode) .read with
    | true => exact .granted (by simpa [ha] using hread)
    | false =>
      have hv := (read_handedDown v path).resolve_left (by simp [ha])
      exact .denied hv (by simpa [ha] using hread)

/-- A path that a file could be read at reads as the new content, whether the file itself was
replaced or a link at the end of the path. -/
theorem read_replace {v w : Volume} {draw : Draw} {path content old : Bytes} (sound : v.Sound)
    (h : v.read path = .ok old) (hr : v.replace draw path content = (.ok (), w)) :
    w.read path = .ok content := by
  obtain ⟨q, mode, hl, hq, -⟩ := read_eq_ok_iff.mp h
  rcases readsNew_of_replace (hl.standing sound) hr (hl.not_reenters hq) with hg | hd | hlong
  · exact hg
  · cases h.symm.trans hd
  · exact absurd (acceptable_iff.mp hl.acceptable).2.2 (Nat.not_le.mpr hlong)

end BlockPurge.Volume
