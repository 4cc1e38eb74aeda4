import BlockPurge.Backup
import BlockPurge.Proofs.Volume.Replacement
import Mathlib.Data.Nat.Bitwise

/-!
# Writing a copy beside a file

A write puts its content at one place, where a file stood or nothing, and writing the same again
changes nothing. A backup writes what was just read, so whatever place its name leads to, the path
that was copied reads as before, and a second backup is the first.
-/
namespace BlockPurge

namespace Volume

/-- The bits that a write takes from a mode, in numbers. -/
private theorem writtenMode_eq (v : Volume) (mode : Mode) :
    v.writtenMode mode =
      if v.superuser then mode
      else if mode / 2 ^ 3 % 2 = 1 then
        mode - mode / 2 ^ 11 % 2 * 2 ^ 11 - mode / 2 ^ 10 % 2 * 2 ^ 10
      else mode - mode / 2 ^ 11 % 2 * 2 ^ 11 := by
  have hbit : ∀ i, mode &&& 2 ^ i = mode / 2 ^ i % 2 * 2 ^ i := by
    intro i
    rw [Nat.and_two_pow, Nat.toNat_testBit]
  have huser : mode &&& userBit = mode / 2 ^ 11 % 2 * 2 ^ 11 := hbit 11
  have hgroup : mode &&& groupBit = mode / 2 ^ 10 % 2 * 2 ^ 10 := hbit 10
  simp only [writtenMode, huser, hgroup, Nat.testBit_eq_decide_div_mod_eq, decide_eq_true_eq]

private theorem taken_once {n once twice : Nat}
    (h : once = if n / 2 ^ 3 % 2 = 1 then
      n - n / 2 ^ 11 % 2 * 2 ^ 11 - n / 2 ^ 10 % 2 * 2 ^ 10 else n - n / 2 ^ 11 % 2 * 2 ^ 11)
    (k : twice = if once / 2 ^ 3 % 2 = 1 then
      once - once / 2 ^ 11 % 2 * 2 ^ 11 - once / 2 ^ 10 % 2 * 2 ^ 10
      else once - once / 2 ^ 11 % 2 * 2 ^ 11) : twice = once := by
  split at h <;> split at k <;> omega

/-- Writing to a file does not take its user's rights to it. -/
theorem allows_writtenMode (v : Volume) (mode : Mode) (access : Access) :
    v.allows (v.writtenMode mode) access = v.allows mode access := by
  rw [allows, allows, writtenMode_eq]
  cases v.superuser with
  | true => rfl
  | false =>
    simp only [Bool.false_or, Bool.false_eq_true, if_false, Nat.testBit_eq_decide_div_mod_eq,
      decide_eq_decide]
    cases access <;> simp only [Access.bit] <;> split <;> omega

/-- What a write takes from a mode, the next one finds taken. -/
theorem writtenMode_writtenMode (v : Volume) (mode : Mode) :
    v.writtenMode (v.writtenMode mode) = v.writtenMode mode := by
  have once := writtenMode_eq v mode
  have twice := writtenMode_eq v (v.writtenMode mode)
  cases hs : v.superuser with
  | true => rw [twice, if_pos hs]
  | false =>
    simp only [hs, Bool.false_eq_true, if_false] at once twice
    exact taken_once once twice

/-- A granted write puts a file at the place where its path is looked up: over a file that may be
written to, which keeps most of its bits, or where nothing stands. -/
theorem write_cases {v w : Volume} {path content : Bytes} (h : v.write path content = .ok w) :
    ∃ place e mode, v.locate .file path = .ok (place, e) ∧ place ≠ [] ∧
      w = v.put place (.file content mode) ∧
      (e = none ∧ mode = newFileMode ∨
        ∃ old mode', e = some (.file old mode') ∧ v.allows mode' .write = true ∧
          mode = v.writtenMode mode') := by
  unfold write at h
  split at h
  · cases h
  · rename_i place old mode hl
    split at h
    · rename_i ha
      cases h
      refine ⟨place, _, _, hl, ?_, rfl, .inr ⟨old, mode, rfl, ha, rfl⟩⟩
      rintro rfl
      cases entry_of_locate hl
    · cases h
  · cases h
  · cases h
  · rename_i place hl
    split at h
    · cases h
      exact ⟨place, _, _, hl, ne_root_of_free (entry_of_locate hl), rfl, .inl ⟨rfl, rfl⟩⟩
    · cases h

/-- A granted write changes no folder and no link. -/
theorem keeps_of_write {v w : Volume} {path content : Bytes} (h : v.write path content = .ok w) :
    v.Keeps w := by
  obtain ⟨place, e, mode, hl, hp, rfl, hold⟩ := write_cases h
  have he := entry_of_locate hl
  refine keeps_of_file rfl rfl (fun q => entry?_put v place q (.file content mode) hp) ?_
  rcases hold with ⟨rfl, -⟩ | ⟨old, mode', rfl, -⟩
  · exact .inl he
  · exact .inr ⟨old, mode', he⟩

/-- A granted write puts a file where its path leads then: a new one where nothing stood, or one
that takes the place of another. -/
theorem replaced_of_write {v w : Volume} {path content : Bytes} (h : v.write path content = .ok w) :
    ∃ place mode, Replaced place content mode v w ∧ w.Leads path place ∧
      (v.entry? place = none ∧ mode = newFileMode ∨
        ∃ old mode', v.Leads path place ∧ v.entry? place = some (.file old mode') ∧
          mode = v.writtenMode mode') := by
  have hk := keeps_of_write h
  obtain ⟨place, e, mode, hl, hp, rfl, hold⟩ := write_cases h
  have he := entry_of_locate hl
  have hw := fun q => entry?_put v place q (.file content mode) hp
  refine ⟨place, mode, ⟨rfl, rfl, hw⟩, ?_⟩
  rcases hold with ⟨rfl, rfl⟩ | ⟨old, mode', rfl, -, rfl⟩
  · refine ⟨?_, .inl ⟨he, rfl⟩⟩
    exact leads_of_locate_keeps hk (fun _ => ⟨_, (hw place).trans (if_pos rfl), by simp⟩)
      (locate_target (by simp) hl)
  · have hv := leads_of_locate (locate_target (by simp) hl)
    exact ⟨hv.keeps hk, .inr ⟨old, mode', hv, he, rfl⟩⟩

/-- Writing the same once more is granted and changes nothing. -/
theorem write_write {v w : Volume} {path content : Bytes} (h : v.write path content = .ok w) :
    w.write path content = .ok w := by
  have hk := keeps_of_write h
  obtain ⟨place, e, mode, hl, hp, rfl, hold⟩ := write_cases h
  have hfile : entry? (v.put place (.file content mode)) place = some (.file content mode) :=
    (entry?_put v place place _ hp).trans (if_pos rfl)
  have hl' := locate_keeps hk (fun _ => ⟨content, mode, hfile⟩) hl
  -- The file may be written to again, and has no bit left that a write takes.
  have again : v.allows mode .write = true ∧ v.writtenMode mode = mode := by
    rcases hold with ⟨-, rfl⟩ | ⟨old, mode', -, ha, rfl⟩
    · have hbit : newFileMode.testBit Access.write.bit = true := by decide
      have hbits : newFileMode - (newFileMode &&& userBit) = newFileMode := by decide
      have hexec : newFileMode.testBit 3 = false := by decide
      simp [allows, writtenMode, hbit, hbits, hexec]
    · exact ⟨by rw [allows_writtenMode, ha], writtenMode_writtenMode v mode'⟩
  rw [write, hl', hfile]
  have ha : (v.put place (.file content mode)).allows mode .write = true := again.1
  have hm : (v.put place (.file content mode)).writtenMode mode = mode := again.2
  simp only [ha, hm, if_true, put_put]

/-- A file that is overwritten with what it holds, or left alone by a write, reads as before. -/
theorem read_write_same {v w : Volume} {path other content : Bytes} (h : v.read path = .ok content)
    (hw : v.write other content = .ok w) : w.read path = .ok content := by
  obtain ⟨q, mode, hl, hq, hm⟩ := read_eq_ok_iff.mp h
  obtain ⟨place, mode', hr, -, hold⟩ := replaced_of_write hw
  have hk := keeps_of_write hw
  have hwq := hr.entry q
  split at hwq
  · rename_i heq
    subst heq
    rcases hold with ⟨hold, -⟩ | ⟨old, mode'', -, he, rfl⟩
    · simp [hold] at hq
    · obtain ⟨rfl, rfl⟩ := Entry.file.inj (Option.some.inj (he.symm.trans hq))
      refine read_eq_ok_iff.mpr ⟨q, _, hl.keeps hk, hwq, ?_⟩
      rw [allows_congr hr.superuser, allows_writtenMode, hm]
  · exact read_eq_ok_iff.mpr ⟨q, mode, hl.keeps hk, hwq.trans hq,
      (allows_congr hr.superuser mode .read).trans hm⟩

/-- Writing takes no folder away. -/
theorem folder_write {v w : Volume} {path content : Bytes} (h : v.write path content = .ok w)
    {q : Place} {mode : Mode} (hq : v.entry? q = some (.folder mode)) :
    w.entry? q = some (.folder mode) := by
  obtain ⟨place, mode', hr, -, hold⟩ := replaced_of_write h
  rw [hr.entry, if_neg ?_]
  · exact hq
  · intro heq
    subst heq
    simp [hq] at hold

theorem here_write {v w : Volume} {path content : Bytes} (h : v.write path content = .ok w) :
    w.here = v.here := by
  obtain ⟨place, mode, hr, -, -⟩ := replaced_of_write h
  exact hr.here

theorem sound_write {v w : Volume} {path content : Bytes} (sound : v.Sound)
    (h : v.write path content = .ok w) : w.Sound :=
  sound.mono (here_write h) (folder_write h)

theorem standing_write {v w : Volume} {path content : Bytes} (standing : v.Standing)
    (h : v.write path content = .ok w) : w.Standing :=
  standing.mono (here_write h) (folder_write h)

end Volume

namespace Backup

/-- Taking a backup of a path is writing what the path reads as. -/
theorem take_eq_ok_iff {v w : Volume} {path backup : Bytes} :
    take v path = .ok (backup, w) ↔ ∃ content, v.read path = .ok content ∧
      backup = pathFor path content ∧ v.write backup content = .ok w := by
  constructor
  · intro h
    unfold take at h
    split at h
    · cases h
    · rename_i content hr
      split at h
      · cases h
      · rename_i hw
        cases h
        exact ⟨content, hr, rfl, hw⟩
  · intro h
    obtain ⟨content, hr, rfl, hw⟩ := h
    simp only [take, hr, hw]

/-- Taking a backup of a path leaves what the path reads as. -/
theorem read_take {v w : Volume} {path backup : Bytes} (h : take v path = .ok (backup, w)) :
    w.read path = v.read path := by
  obtain ⟨content, hr, -, hw⟩ := take_eq_ok_iff.mp h
  rw [hr, Volume.read_write_same hr hw]

/-- Taking the backup once more changes nothing. -/
theorem take_take {v w : Volume} {path backup : Bytes} (h : take v path = .ok (backup, w)) :
    take w path = .ok (backup, w) := by
  have same := read_take h
  obtain ⟨content, hr, hb, hw⟩ := take_eq_ok_iff.mp h
  exact take_eq_ok_iff.mpr ⟨content, same.trans hr, hb, Volume.write_write hw⟩

theorem sound_take {v w : Volume} {path backup : Bytes} (h : take v path = .ok (backup, w))
    (sound : v.Sound) : w.Sound := by
  obtain ⟨content, -, -, hw⟩ := take_eq_ok_iff.mp h
  exact Volume.sound_write sound hw

theorem standing_take {v w : Volume} {path backup : Bytes} (h : take v path = .ok (backup, w))
    (standing : v.Standing) : w.Standing := by
  obtain ⟨content, -, -, hw⟩ := take_eq_ok_iff.mp h
  exact Volume.standing_write standing hw

end Backup

end BlockPurge
