import BlockPurge.Proofs.Volume.ReadBack
import BlockPurge.Proofs.Volume.Writing

/-!
# A copy apart from its original

A write leaves its path leading to a file with the content. From then on the file at another path
can be replaced any number of times, and the copy stays as it is: the two paths led to different
files, and no replacement brings them together. What is replaced is the file of the other path, or a
link on the way to it; the way to the copy goes by neither.
-/
namespace BlockPurge.Volume

/-- A path leads to a file with a content, which the user may read if so it is required. -/
def HoldsCopy (path content : Bytes) (readable : Prop) (v : Volume) : Prop :=
  ∃ q mode, v.Leads path q ∧ v.entry? q = some (.file content mode) ∧
    (readable → v.allows mode .read = true)

/-- A path leads to a file, and another one to a copy elsewhere. -/
structure Apart (path other content : Bytes) (readable : Prop) (v : Volume) : Prop where
  sound : v.Sound
  original : ∃ q old mode, v.Leads path q ∧ v.entry? q = some (.file old mode) ∧ ¬ v.Leads other q
  copy : HoldsCopy other content readable v

section
variable {v w : Volume} {path other content : Bytes} {readable : Prop}

theorem HoldsCopy.read (h : HoldsCopy path content readable v) (hr : readable) :
    v.read path = .ok content := by
  obtain ⟨q, mode, hl, hq, ha⟩ := h
  exact read_eq_ok_iff.mpr ⟨q, mode, hl, hq, ha hr⟩

/-- A write leaves a copy, which may be read unless a file was there that might not. -/
theorem holdsCopy_of_write (h : v.write path content = .ok w) :
    HoldsCopy path content (v.read path ≠ .error (.system .permissionDenied)) w := by
  obtain ⟨q, mode, hw, hl, hold⟩ := replaced_of_write h
  refine ⟨q, mode, hl, (hw.entry q).trans (if_pos rfl), fun hr => ?_⟩
  rw [allows_congr hw.superuser]
  rcases hold with ⟨-, rfl⟩ | ⟨old, mode', hv, hq, rfl⟩
  · have hbit : newFileMode.testBit Access.read.bit = true := by decide
    simp [allows, hbit]
  · rw [allows_writtenMode]
    by_contra ha
    exact hr (by rw [hv.read_eq hq, if_neg ha])

/-- A copy of what a path reads as is apart from it if its own path did not lead to the same file.
-/
theorem apart_of_write (sound : v.Sound) (h : v.read path = .ok content)
    (hne : ∀ q, v.Leads path q → ¬ v.Leads other q) (hw : v.write other content = .ok w) :
    Apart path other content (v.read other ≠ .error (.system .permissionDenied)) w where
  sound := sound_write sound hw
  original := by
    obtain ⟨q, mode, hl, hq, -⟩ := read_eq_ok_iff.mp h
    have hk := keeps_of_write hw
    obtain ⟨place, mode', hw, ho, hold⟩ := replaced_of_write hw
    have hplace : q ≠ place := by
      rintro rfl
      rcases hold with ⟨hnone, -⟩ | ⟨old, mode'', hv, -⟩
      · simp [hq] at hnone
      · exact hne q hl hv
    refine ⟨q, content, mode, hl.keeps hk, ?_, fun hq => hplace (hq.unique ho)⟩
    rw [hw.entry, if_neg hplace, hq]
  copy := holdsCopy_of_write hw

/-- Whatever is added to a volume, the two stay apart. -/
theorem Apart.extends (h : Apart path other content readable v) (hk : v.Extends w) :
    Apart path other content readable w where
  sound := h.sound.mono hk.here hk.entry
  original := by
    obtain ⟨q, old, mode, hl, hq, hne⟩ := h.original
    obtain ⟨r, mode', ho, -, -⟩ := h.copy
    refine ⟨q, old, mode, hl.keeps hk.keeps, hk.entry hq, fun hw => hne ?_⟩
    rwa [hw.unique (ho.keeps hk.keeps)]
  copy := by
    obtain ⟨r, mode, ho, hr, ha⟩ := h.copy
    exact ⟨r, mode, ho.keeps hk.keeps, hk.entry hr,
      fun hx => (allows_congr hk.superuser mode .read).trans (ha hx)⟩

/-- A copy that stands elsewhere is still found if its way looks the same as before. -/
theorem HoldsCopy.alike {place : Place} {new : Bytes} {mode : Mode} {r : Place}
    (h : HoldsCopy other content readable v) (hw : Replaced place new mode v w)
    (ho : v.Leads other r) (hne : r ≠ place) (ha : ∀ p, v.Passes other p → v.Alike w p) :
    HoldsCopy other content readable w ∧ w.Leads other r := by
  obtain ⟨r', mode', ho', hr, hread⟩ := h
  obtain rfl := ho.unique ho'
  have hr' : w.entry? r = some (.file content mode') := by rw [hw.entry, if_neg hne, hr]
  have hl := ho.alike hw.here hw.superuser ha hr'
  have hreadable := fun hx => (allows_congr hw.superuser mode' .read).trans (hread hx)
  exact ⟨⟨r, mode', hl, hr', hreadable⟩, hl⟩

/-- When the original is replaced, the two stay apart. -/
theorem Apart.replace {draw : Draw} {new : Bytes} (h : Apart path other content readable v)
    (hr : v.replace draw path new = (.ok (), w)) : Apart path other content readable w := by
  have sound := sound_replace h.sound hr
  obtain ⟨q, old, mode, hl, hq, hne⟩ := h.original
  obtain ⟨r, copyMode, ho, hfile, -⟩ := id h.copy
  have hqr : q ≠ r := fun heq => hne (heq ▸ ho)
  -- The file itself is replaced, and all paths lead where they did.
  have onFile : ∀ {mode'}, Replaced q new mode' v w → Apart path other content readable w := by
    intro mode' hw
    obtain ⟨copy, hwo⟩ := h.copy.alike hw ho hqr.symm fun p _ => hw.alike hq p
    have hwq : w.entry? q = some (.file new mode') := (hw.entry q).trans (if_pos rfl)
    refine ⟨sound, ⟨q, new, mode', ?_, hwq, fun hx => hqr (hx.unique hwo)⟩, copy⟩
    exact hl.alike hw.here hw.superuser (fun p _ => hw.alike hq p) hwq
  cases hc : v.canonical path with
  | ok form =>
    obtain ⟨place, -, mode', -, -, hw, hloc⟩ :=
      replaced_of_canonical (hl.standing h.sound) hc hr
    obtain rfl := hl.eq_of_canonical hloc
    exact onFile hw
  | error fault =>
    obtain ⟨place, ht, -, hw⟩ := replaced_of_replace hr
    have hpath : v.replacedPath path = path := by simp [replacedPath, hc]
    rw [hpath] at ht hw
    rcases hl.end_cases ht with rfl | ⟨f, name, target, k, rfl, hlink, hbehind⟩
    · exact onFile hw
    -- A link to the file is replaced, and the way to the copy does not go by it.
    have hplace : r ≠ f ++ [name] := by
      rintro rfl
      simp [hlink] at hfile
    have halike : ∀ p, v.Passes other p → v.Alike w p := by
      intro p hp
      obtain ⟨-, n, -, hway⟩ := ho
      refine .same ((hw.entry p).trans (if_neg ?_))
      rintro rfl
      exact hway.avoids hlink hbehind hq hplace.symm hqr hp
    obtain ⟨copy, hwo⟩ := h.copy.alike hw ho hplace halike
    refine ⟨sound, ⟨f ++ [name], new, _, ?_, (hw.entry _).trans (if_pos rfl), fun hx => ?_⟩, copy⟩
    · exact leads_renamed (by simp [hc]) ht hw (hl.not_reenters hq)
    · exact hplace (hwo.unique hx)

end

end BlockPurge.Volume
