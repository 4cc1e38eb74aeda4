import BlockPurge.Proofs.Volume.Rewriting

/-!
# The outline of a volume

Two volumes have the same outline if they differ in the contents of files alone. A request that
reads no file is decided by the outline: it is granted on both volumes or refused on both in the
same way. A replacement is such a request, whatever it writes, and leaves volumes of the same
outline.
-/
namespace BlockPurge

/-- What is seen of an entry that is not read. -/
def Entry.outline : Entry → Entry
  | .file _ mode => .file [] mode
  | entry => entry

namespace Volume

/-- Two volumes with the same folders and links, and with files at the same places. -/
structure SameOutline (v w : Volume) : Prop where
  here : w.here = v.here
  superuser : w.superuser = v.superuser
  entry : ∀ p, (w.entry? p).map Entry.outline = (v.entry? p).map Entry.outline

theorem SameOutline.refl (v : Volume) : v.SameOutline v :=
  ⟨rfl, rfl, fun _ => rfl⟩

section
variable {v w : Volume} (h : v.SameOutline w)
include h

/-- What stands at a place in one volume stands there in the other, files apart. -/
theorem SameOutline.cases (p : Place) :
    w.entry? p = v.entry? p ∨ ∃ content content' mode,
      v.entry? p = some (.file content mode) ∧ w.entry? p = some (.file content' mode) := by
  have he := h.entry p
  cases hv : v.entry? p with
  | none =>
    rw [hv] at he
    exact .inl (Option.map_eq_none_iff.mp he)
  | some e =>
    rw [hv] at he
    obtain ⟨f, hf, hout⟩ := Option.map_eq_some_iff.mp he
    rw [hf]
    cases e with
    | file content mode =>
      cases f with
      | file content' mode' =>
        cases hout
        exact .inr ⟨content, content', mode, rfl, rfl⟩
      | folder => cases hout
      | link => cases hout
    | folder mode =>
      cases f with
      | folder mode' =>
        cases hout
        exact .inl rfl
      | file => cases hout
      | link => cases hout
    | link target =>
      cases f with
      | link target' =>
        cases hout
        exact .inl rfl
      | file => cases hout
      | folder => cases hout

theorem SameOutline.alike (p : Place) : v.Alike w p := by
  rcases h.cases p with hs | ⟨content, content', mode, hv, hw⟩
  · exact .same hs
  · exact .files hv hw

theorem SameOutline.locate_eq (goal : Goal) (path : Bytes) :
    w.locate goal path = (v.locate goal path).map w.found :=
  locate_alike h.here h.superuser fun q _ => h.alike q

theorem SameOutline.isWritableFolder_eq (p : Place) :
    w.isWritableFolder p = v.isWritableFolder p := by
  unfold isWritableFolder
  rcases h.cases p with hs | ⟨content, content', mode, hv, hw⟩
  · simp only [hs, h.superuser, allows_congr h.superuser]
  · simp only [hv, hw]

theorem SameOutline.mode_eq (path : Bytes) : w.mode path = v.mode path := by
  unfold Volume.mode
  rw [h.locate_eq]
  cases hl : v.locate .target path with
  | error fault => rfl
  | ok end? =>
    obtain ⟨q, e⟩ := end?
    obtain rfl := entry_of_locate hl
    simp only [Except.map, found]
    rcases h.cases q with hs | ⟨content, content', mode, hv, hw⟩
    · rw [hs]
    · rw [hv, hw]

theorem SameOutline.replacedPath_eq (path : Bytes) : w.replacedPath path = v.replacedPath path := by
  unfold replacedPath
  rw [canonical_alike h.here h.superuser h.alike]

theorem SameOutline.temporaryFrom_eq (folder : Bytes) (stem : String) (draw : Draw)
    (attempts n : Nat) :
    w.temporaryFrom folder stem draw attempts n = v.temporaryFrom folder stem draw attempts n := by
  induction attempts generalizing n with
  | zero => rfl
  | succ attempts ih =>
    unfold temporaryFrom
    dsimp only
    rw [h.locate_eq]
    cases hl : v.locate .entry (Path.join folder (temporaryName stem (draw n))) with
    | error fault => rfl
    | ok end? =>
      obtain ⟨q, e⟩ := end?
      obtain rfl := entry_of_locate hl
      simp only [Except.map, found, ih, h.isWritableFolder_eq]
      rcases h.cases q with hs | ⟨content, content', mode, hv, hw⟩
      · rw [hs]
      · rw [hv, hw]

theorem SameOutline.temporaryFor_eq (draw : Draw) (path : Bytes) :
    w.temporaryFor draw path = v.temporaryFor draw path := by
  have hfolder : w.absoluteFolderOf path = v.absoluteFolderOf path := by
    simp only [absoluteFolderOf, currentPath, h.here]
  simp only [temporaryFor, hfolder, h.temporaryFrom_eq]

theorem SameOutline.landing_eq (folder : Place) (name : Name) (asFolder : Bool) :
    w.landing folder name asFolder = v.landing folder name asFolder := by
  unfold landing
  rcases h.cases folder with hs | ⟨content, content', mode, hv, hw⟩
  · rcases h.cases (folder ++ [name]) with hs' | ⟨content, content', mode, hv, hw⟩
    · simp only [hs, hs', allows_congr h.superuser, h.isWritableFolder_eq]
    · simp only [hs, hv, hw, allows_congr h.superuser, h.isWritableFolder_eq]
  · simp only [hv, hw]

theorem SameOutline.renameTarget_eq (path : Bytes) : w.renameTarget path = v.renameTarget path := by
  have hwalk : ∀ p ns, w.walk .target p ns = (v.walk .target p ns).map w.found :=
    fun p ns => walk_alike h.superuser fun q _ => h.alike q
  unfold renameTarget
  simp only [h.here, hwalk, h.landing_eq]
  cases ((Path.segments path).filter fun s => !s.isEmpty).getLast? with
  | none => rfl
  | some name =>
    cases v.walk .target (origin v.here path)
        ((Path.segments path).filter fun s => !s.isEmpty).dropLast with
    | error cause => rfl
    | ok end? => rfl

/-- A place that gets a file in either volume makes no difference to the outline. -/
theorem SameOutline.put {p : Place} (hp : p ≠ []) (content content' : Bytes) (mode : Mode) :
    (v.put p (.file content mode)).SameOutline (w.put p (.file content' mode)) where
  here := h.here
  superuser := h.superuser
  entry q := by
    rw [entry?_put _ _ _ _ hp, entry?_put _ _ _ _ hp]
    split
    · rfl
    · exact h.entry q

/-- Replacements at one path are granted on both volumes or on none, whatever they write, and leave
the same outline. -/
theorem SameOutline.replace (draw : Draw) (path content content' : Bytes) :
    (w.replace draw path content').1 = (v.replace draw path content).1 ∧
      (v.replace draw path content).2.SameOutline (w.replace draw path content').2 := by
  have hpath := h.replacedPath_eq path
  have htemporary : w.temporaryFor draw (w.replacedPath path) =
      v.temporaryFor draw (v.replacedPath path) := by
    rw [hpath, h.temporaryFor_eq]
  have htarget : w.renameTarget (w.replacedPath path) = v.renameTarget (v.replacedPath path) := by
    rw [hpath, h.renameTarget_eq]
  have hdown : w.handedDown (w.replacedPath path) = v.handedDown (v.replacedPath path) := by
    rw [hpath, handedDown, handedDown, h.mode_eq]
  cases ht : v.temporaryFor draw (v.replacedPath path) with
  | error fault =>
    rw [replace_refused (.inl ht), replace_refused (.inl (htemporary.trans ht))]
    exact ⟨rfl, h⟩
  | ok temporary =>
    cases hr : v.renameTarget (v.replacedPath path) with
    | error fault =>
      rw [replace_refused (.inr ⟨⟨temporary, ht⟩, hr⟩),
        replace_refused (.inr ⟨⟨temporary, htemporary.trans ht⟩, htarget.trans hr⟩)]
      exact ⟨rfl, h⟩
    | ok place =>
      rw [replace_eq ht hr, replace_eq (htemporary.trans ht) (htarget.trans hr), hdown]
      exact ⟨rfl, h.put (ne_root_of_renameTarget hr) _ _ _⟩

end

end Volume

end BlockPurge
