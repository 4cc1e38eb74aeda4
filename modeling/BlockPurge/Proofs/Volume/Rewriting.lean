import BlockPurge.Proofs.Volume.ReadBack

/-!
# Replacing a file again

The file at a path that could be read may be replaced any number of times. Each time the same place
gets the new content, with the bits that stood there: the first replacement leaves the path leading
there, and the search for its canonical form goes as before. So all that is left of several
replacements is the last one.
-/
namespace BlockPurge.Volume

/-! ## Canonical forms in volumes that look the same -/

theorem settle_alike {v w : Volume} (hh : w.here = v.here) (hs : w.superuser = v.superuser)
    (h : ∀ q, v.Alike w q) (p : Place) (ns : List Name) :
    w.settle p ns = (v.settle p ns).on w := by
  induction ns generalizing p with
  | nil => rfl
  | cons name rest ih =>
    rw [settle, settle]
    by_cases h₁ : name = slashName ∨ name = [Path.dot]
    · rw [if_pos h₁, if_pos h₁]
      exact ih p
    by_cases h₂ : name = [Path.dot, Path.dot]
    · rw [if_neg h₁, if_neg h₁, if_pos h₂, if_pos h₂]
      exact ih p.dropLast
    rw [if_neg h₁, if_neg h₁, if_neg h₂, if_neg h₂]
    have hl : w.locate .entry (pathOf (p ++ [name])) =
        (v.locate .entry (pathOf (p ++ [name]))).map w.found :=
      locate_alike hh hs fun q _ => h q
    rw [hl]
    cases hv : v.locate .entry (pathOf (p ++ [name])) with
    | error fault => cases fault <;> rfl
    | ok end? =>
      obtain ⟨q, e⟩ := end?
      have he := entry_of_locate hv
      cases e with
      | none =>
        simp only [Except.map, found, (h q).none he]
        rfl
      | some e =>
        cases e with
        | link target =>
          simp only [Except.map, found, (h q).link he]
          rfl
        | folder mode => simpa [Except.map, found, (h q).folder he, isFolder] using ih q
        | file content mode =>
          obtain ⟨content', mode', hw⟩ := (h q).file he
          by_cases hasks : asksFolder rest = true
          · simp [Except.map, found, hw, isFolder, hasks, Stop.on]
          · simpa [Except.map, found, hw, isFolder, hasks] using ih q

theorem chase_on {advance advance' : Place → List Name → Stop} {w : Volume}
    (h : ∀ p ns, advance' p ns = (advance p ns).on w) (b : Nat) (p : Place) (ns : List Name) :
    chase advance' b p ns = (chase advance b p ns).map w.found := by
  induction b generalizing p ns with
  | zero =>
    unfold chase
    rw [h]
    cases advance p ns <;> rfl
  | succ b ih =>
    unfold chase
    rw [h]
    cases advance p ns with
    | landed q e => rfl
    | failed cause => rfl
    | link f target rest => exact ih _ _

/-- The search for a canonical form does not look into files. -/
theorem canonical_alike {v w : Volume} (hh : w.here = v.here) (hs : w.superuser = v.superuser)
    (h : ∀ q, v.Alike w q) (path : Bytes) : w.canonical path = v.canonical path := by
  unfold canonical
  rw [hh, chase_on (settle_alike hh hs h)]
  cases chase v.settle mostLinks (origin v.here path) (names path) <;> rfl

/-! ## The last replacement wins -/

section
variable {v w u : Volume} {draw draw' : Draw} {path content new old : Bytes}

/-- The file that a path leads to hands its bits down, and is where the rename lands if the path has
a canonical form. -/
theorem Leads.landing {place place' : Place} {mode : Mode} (hl : v.Leads path place)
    (hplace : v.entry? place = some (.file content mode))
    (standing : Path.isAbsolute path = false → v.Standing)
    (ht : v.renameTarget (v.replacedPath path) = .ok place') :
    v.handedDown (v.replacedPath path) = some mode ∧
      (∀ form, v.canonical path = .ok form → place' = place) := by
  cases hc : v.canonical path with
  | ok form =>
    have hpath : v.replacedPath path = form := by simp [replacedPath, hc]
    rw [hpath] at ht ⊢
    obtain ⟨old, mode', -, hfile, hd, hloc⟩ := landing_of_canonical standing hc ht
    obtain rfl := hl.eq_of_canonical hloc
    obtain ⟨-, rfl⟩ := Entry.file.inj (Option.some.inj (hplace.symm.trans hfile))
    exact ⟨hd, fun _ _ => rfl⟩
  | error fault =>
    have hpath : v.replacedPath path = path := by simp [replacedPath, hc]
    have hmode : v.handedDown path = some mode := by
      simp [handedDown, Volume.mode, hl.locate_eq, hplace, Except.toOption]
    exact ⟨hpath.symm ▸ hmode, by simp⟩

/-- Where a file was replaced at a path that could be read, the path leads to the new file, and the
next one will land there. -/
theorem leads_of_replace (sound : v.Sound) (read : v.read path = .ok old)
    (h : v.replace draw path content = (.ok (), w)) :
    ∃ place mode, place ≠ [] ∧ w.Leads path place ∧
      (∀ new, v.replace draw path new = (.ok (), v.put place (.file new mode))) ∧
      ∀ {place'}, w.renameTarget (w.replacedPath path) = .ok place' → place' = place := by
  obtain ⟨q, qmode, hl, hq, -⟩ := read_eq_ok_iff.mp read
  obtain ⟨place, ht, hp, hall⟩ := replace_eq_put h
  have hput := congrArg Prod.snd (h.symm.trans (hall content))
  simp only at hput
  generalize (v.handedDown (v.replacedPath path)).getD temporaryMode = mode at hall hput
  have hw : Replaced place content mode v w := by
    subst hput
    exact ⟨rfl, rfl, fun q => entry?_put v place q _ hp⟩
  have hplace : w.entry? place = some (.file content mode) := (hw.entry place).trans (if_pos rfl)
  have sound' := sound_replace sound h
  cases hc : v.canonical path with
  | ok form =>
    have hpath : v.replacedPath path = form := by simp [replacedPath, hc]
    rw [hpath] at ht
    obtain ⟨old', mode', -, hfile, -, hloc⟩ := landing_of_canonical (hl.standing sound) hc ht
    obtain rfl := hl.eq_of_canonical hloc
    have hwl : w.Leads path q :=
      hl.alike hw.here hw.superuser (fun r _ => hw.alike hfile r) hplace
    have hcw := canonical_alike hw.here hw.superuser (hw.alike hfile) path
    refine ⟨q, mode, hp, hwl, hall, fun ht' => ?_⟩
    exact (hwl.landing hplace (hwl.standing sound') ht').2 form (hcw.trans hc)
  | error fault =>
    have hpath : v.replacedPath path = path := by simp [replacedPath, hc]
    rw [hpath] at ht
    have hb := hl.not_reenters hq
    have hwl := leads_renamed (by simp [hc]) ht hw hb
    refine ⟨place, mode, hp, hwl, hall, fun {place'} ht' => ?_⟩
    cases hcw : w.canonical path with
    | ok form => exact (hwl.landing hplace (hwl.standing sound') ht').2 form hcw
    | error fault' =>
      have hpath' : w.replacedPath path = path := by simp [replacedPath, hcw]
      rw [hpath'] at ht'
      obtain ⟨folder, name, before, j, -, rfl, hnames, hway, -⟩ :=
        reaches_renamed (by simp [hc]) ht hw hb
      obtain ⟨folder', name', before', k, -, rfl, hnames', hway', -⟩ :=
        reaches_of_renameTarget ht'
      obtain ⟨rfl, hname⟩ := List.append_inj' (hnames.symm.trans hnames') rfl
      rw [hname, hway.unique hway']

/-- **Replacing a file twice comes to replacing it once**, with what is written last. What was drawn
for the second time does not matter. -/
theorem replace_replace (sound : v.Sound) (read : v.read path = .ok old)
    (h : v.replace draw path content = (.ok (), w)) (h' : w.replace draw' path new = (.ok (), u)) :
    v.replace draw path new = (.ok (), u) := by
  obtain ⟨place, mode, hp, hl, hall, hland⟩ := leads_of_replace sound read h
  obtain ⟨place', ht, -, hall'⟩ := replace_eq_put h'
  obtain rfl := hland ht
  have hw : w = v.put place' (.file content mode) :=
    congrArg Prod.snd (h.symm.trans (hall content))
  have hplace : w.entry? place' = some (.file content mode) := by
    rw [hw, entry?_put v _ _ _ hp, if_pos rfl]
  have hu := h'.symm.trans (hall' new)
  rw [(hl.landing hplace (hl.standing (sound_replace sound h)) ht).1, Option.getD_some, hw,
    put_put] at hu
  rw [hall new, hu]

end

end BlockPurge.Volume
