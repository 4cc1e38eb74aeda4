import Mathlib.Data.List.Basic

/-!
# Values by key

Rows of keyed values are searched for the first value of a key. A row that drops a key has no value
for it, and one that changes the values of a key has the changed one; for every other key both have
the value that was there before.
-/
namespace BlockPurge

variable {κ α : Type} [BEq κ] [LawfulBEq κ] [DecidableEq κ]

theorem lookup_dropped (row : List (κ × α)) (key k : κ) :
    (row.filter (·.1 != key)).lookup k = if k = key then none else row.lookup k := by
  induction row with
  | nil => simp
  | cons entry rest ih =>
    obtain ⟨own, value⟩ := entry
    by_cases hk : k = own
    · subst hk
      by_cases hkey : k = key
      · simp only [hkey, if_true] at ih ⊢
        simpa using ih
      · simp [hkey]
    · have hb : (k == own) = false := beq_eq_false_iff_ne.mpr hk
      by_cases hkey : own = key
      · simpa [hkey, List.lookup_cons, hkey ▸ hb] using ih
      · simpa [hkey, List.lookup_cons, hb] using ih

theorem lookup_changed (row : List (κ × α)) (key k : κ) (change : α → α) :
    (row.map fun (own, value) => if own = key then (own, change value) else (own, value)).lookup k =
      if k = key then (row.lookup k).map change else row.lookup k := by
  induction row with
  | nil => simp
  | cons entry rest ih =>
    obtain ⟨own, value⟩ := entry
    by_cases hk : k = own
    · subst hk
      by_cases hkey : k = key
      · simp [hkey]
      · simp [hkey]
    · have hb : (k == own) = false := beq_eq_false_iff_ne.mpr hk
      by_cases hkey : own = key
      · simpa [hkey, List.lookup_cons, hkey ▸ hb] using ih
      · simpa [hkey, List.lookup_cons, hb] using ih

end BlockPurge
