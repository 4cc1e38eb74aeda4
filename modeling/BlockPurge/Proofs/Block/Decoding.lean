import BlockPurge.Proofs.Block.Literal

/-!
# Which texts are literals

`read_decodes` says of every text whether it is read as a literal: exactly if it consists of white
space, a spelling of a number that fits in a byte, and white space. A sign, white space inside, a
second mark or a character outside ASCII is found in no spelling. After the tests of the reader the
digits are handed to a reader of numbers, which takes more than literals are: a plus sign may stand
in front. What passes the tests is a number of at most two digits without a sign, so this reader
never refuses it, and gives the code that the literal is read as.
-/
namespace BlockPurge

namespace Text

/-- The byte that a text denotes for a reader of numbers in base sixteen. A plus sign may stand in
front of the digits. A text without digits is refused, and so is a number beyond a byte. -/
def toByte? (text : List Char) : Option UInt8 :=
  let digits := if text.head? = some '+' then text.tail else text
  if digits.isEmpty then none
  else (readHex? digits).bind fun n => if n ≤ 255 then some (UInt8.ofNat n) else none

/-- Digits for a number that fits in a byte are never refused. -/
theorem toByte?_hexDigits {digits : List Char} (hne : digits ≠ [])
    (h : ∀ c ∈ digits, IsHexDigit c) (hn : hexNumber digits ≤ 255) :
    toByte? digits = some (UInt8.ofNat (hexNumber digits)) := by
  have hsign : digits.head? ≠ some '+' := by
    intro hp
    exact absurd (h '+' (List.mem_of_mem_head? hp)) (by decide)
  have hread : readHex? digits = some (hexNumber digits) := readHex?_eq_some_iff.mpr ⟨h, rfl⟩
  simp [toByte?, hsign, hne, hread, hn]

end Text

namespace Literal

open Text

/-- A text spells a number, with white space around the spelling. -/
def Denotes (s : String) (n : Nat) : Prop :=
  ∃ before text behind, s.toList = before ++ text ++ behind ∧
    (∀ c ∈ before ++ behind, isBlank c = true) ∧ Spells text n

/-- What makes a text foreign to the grammar of literals, wherever it stands in the text. -/
inductive Foreign (text : List Char) : Prop where
  | sign {c : Char} : c ∈ text → c = '+' ∨ c = '-' → Foreign text
  | blank {c : Char} : c ∈ text → isBlank c = true → Foreign text
  | mark {before mark rest : List Char} : text = before ++ mark ++ rest → before ≠ [] →
      mark ∈ marks → mark ≠ [] → Foreign text
  | wide {c : Char} : c ∈ text → 128 ≤ c.toNat → Foreign text

/-! ## Spellings -/

/-- The characters of a spelling: the letter of its mark, and digits. -/
theorem Spells.mem {text : List Char} {n : Nat} (h : Spells text n) {c : Char} (hc : c ∈ text) :
    c = 'x' ∨ c = 'X' ∨ IsHexDigit c := by
  obtain ⟨mark, hm, ds, rfl, -, hds, -⟩ := h
  rcases List.mem_append.mp hc with hc | hc
  · rcases by simpa [marks] using hm with rfl | rfl | rfl
    · simp at hc
    · rcases by simpa using hc with rfl | rfl
      · exact .inr (.inr (by decide))
      · exact .inl rfl
    · rcases by simpa using hc with rfl | rfl
      · exact .inr (.inr (by decide))
      · exact .inr (.inl rfl)
  · exact .inr (.inr (hds c hc))

theorem Spells.ascii {text : List Char} {n : Nat} (h : Spells text n) {c : Char} (hc : c ∈ text) :
    c.toNat < 128 := by
  rcases h.mem hc with rfl | rfl | hd
  · decide
  · decide
  · exact hd.ascii

theorem Spells.not_blank {text : List Char} {n : Nat} (h : Spells text n) {c : Char}
    (hc : c ∈ text) : isBlank c = false := by
  rcases h.mem hc with rfl | rfl | hd
  · decide
  · decide
  · exact hd.not_blank

/-- Behind the place of a mark there are only digits. -/
theorem Spells.isHexDigit_of_mem_drop {text : List Char} {n : Nat} (h : Spells text n) {c : Char}
    (hc : c ∈ text.drop 2) : IsHexDigit c := by
  obtain ⟨mark, hm, ds, rfl, -, hds, -⟩ := h
  rcases by simpa [marks] using hm with rfl | rfl | rfl
  · exact hds c (List.mem_of_mem_drop hc)
  · exact hds c hc
  · exact hds c hc

/-- Nothing foreign is found in a spelling. -/
theorem Spells.not_foreign {text : List Char} {n : Nat} (h : Spells text n) : ¬ Foreign text := by
  intro hf
  cases hf with
  | sign hc hs =>
    rcases hs with rfl | rfl
    · exact absurd (h.mem hc) (by decide)
    · exact absurd (h.mem hc) (by decide)
  | blank hc hb => exact Bool.false_ne_true ((h.not_blank hc).symm.trans hb)
  | wide hc hw => exact absurd (h.ascii hc) (Nat.not_lt.mpr hw)
  | @mark before mark rest ht hb hm hne =>
    -- The letter of the second mark stands behind two characters or more.
    have hletter : ∃ c, (c = 'x' ∨ c = 'X') ∧ mark = ['0', c] := by
      rcases by simpa [marks] using hm with rfl | rfl | rfl
      · exact absurd rfl hne
      · exact ⟨'x', .inl rfl, rfl⟩
      · exact ⟨'X', .inr rfl, rfl⟩
    obtain ⟨c, hx, rfl⟩ := hletter
    have hc : c ∈ text.drop 2 := by
      subst ht
      cases before with
      | nil => exact absurd rfl hb
      | cons first before =>
        cases before with
        | nil => simp
        | cons second before => simp
    have hd := h.isHexDigit_of_mem_drop hc
    rcases hx with rfl | rfl
    · exact absurd hd (by decide)
    · exact absurd hd (by decide)

/-- A spelling has no white space at its ends, so trimming finds it. -/
theorem denotes_iff {s : String} {n : Nat} : Denotes s n ↔ Spells (trim s.toList) n := by
  constructor
  · intro h
    obtain ⟨before, text, behind, hs, hblank, htext⟩ := h
    obtain ⟨hbefore, hbehind⟩ := List.forall_mem_append.mp hblank
    have hbare : IsBare text := by
      constructor
      · exact fun c hc => htext.not_blank (List.mem_of_mem_head? hc)
      · exact fun c hc => htext.not_blank (List.mem_of_getLast? hc)
    rw [hs, trim_append_blank _ hbehind, trim_blank_append hbefore, trim_eq_self_iff.mpr hbare]
    exact htext
  · intro h
    obtain ⟨before, behind, hs, hblank⟩ := exists_trim s.toList
    exact ⟨before, trim s.toList, behind, hs, hblank, h⟩

/-! ## Reading -/

/-- What reading a text as a literal comes to. -/
structure Decodes (s : String) : Prop where
  /-- It is read as a number exactly if it denotes this number and the number fits in a byte. -/
  accepts : ∀ n, (∃ code, read s = .ok code ∧ code.toNat = n) ↔ Denotes s n ∧ n ≤ 255
  /-- Nothing foreign is read. -/
  foreign : Foreign (trim s.toList) → ∃ fault, read s = .error fault
  /-- Digits that pass the tests for their presence, their length in bytes and their alphabet are
  never refused by the reader of numbers, and they are read as the byte that it gives. -/
  converted : digits (trim s.toList) ≠ [] →
    byteCount (significant (digits (trim s.toList))) ≤ 2 →
    (∀ c ∈ significant (digits (trim s.toList)), IsHexDigit c) →
    ∃ code, toByte? (significant (digits (trim s.toList))) = some code ∧ read s = .ok code

theorem significant_ne_nil (ds : List Char) : significant ds ≠ [] := by
  unfold significant
  split
  · simp
  · assumption

theorem read_accepts_iff {s : String} {n : Nat} :
    (∃ code, read s = .ok code ∧ code.toNat = n) ↔ Denotes s n ∧ n ≤ 255 := by
  constructor
  · intro h
    obtain ⟨code, hread, rfl⟩ := h
    exact ⟨denotes_iff.mpr (read_eq_ok_iff.mp hread), Nat.le_of_lt_succ code.toNat_lt⟩
  · intro h
    obtain ⟨hs, hn⟩ := h
    have hcode : (UInt8.ofNat n).toNat = n := UInt8.toNat_ofNat_of_lt' (Nat.lt_succ_of_le hn)
    refine ⟨UInt8.ofNat n, read_eq_ok_iff.mpr ?_, hcode⟩
    rw [hcode]
    exact denotes_iff.mp hs

/-- The reader of numbers takes what passes the tests, and it is not given more. -/
theorem read_converted {s : String} (hne : digits (trim s.toList) ≠ [])
    (hlen : byteCount (significant (digits (trim s.toList))) ≤ 2)
    (hd : ∀ c ∈ significant (digits (trim s.toList)), IsHexDigit c) :
    ∃ code, toByte? (significant (digits (trim s.toList))) = some code ∧ read s = .ok code := by
  have hds := isHexDigit_significant_iff.mp hd
  have hn : hexNumber (digits (trim s.toList)) ≤ 255 :=
    (length_significant_le_two_iff hds).mp ((length_le_byteCount _).trans hlen)
  have hn' : hexNumber (significant (digits (trim s.toList))) ≤ 255 := by
    rwa [hexNumber_significant]
  refine ⟨_, toByte?_hexDigits (significant_ne_nil _) hd hn', ?_⟩
  rw [hexNumber_significant, read_eq_ok_iff, UInt8.toNat_ofNat_of_lt' (Nat.lt_succ_of_le hn)]
  obtain ⟨mark, hm, htext⟩ := exists_mark (trim s.toList)
  exact ⟨mark, hm, digits (trim s.toList), htext, hne, hds, rfl⟩

/-- The texts that are read as literals are those that denote a number that fits in a byte, each as
this number. -/
theorem read_decodes (s : String) : Decodes s where
  accepts _ := read_accepts_iff
  converted := read_converted
  foreign hf := by
    cases hread : read s with
    | ok code => exact absurd hf (read_eq_ok_iff.mp hread).not_foreign
    | error fault => exact ⟨fault, rfl⟩

/-- A sign that the reader of numbers would take is foreign to literals. -/
theorem read_decodes_signed :
    toByte? "+1".toList = some 1 ∧ ∃ fault, read " +1" = .error fault := by
  have hforeign : Foreign (trim " +1".toList) := .sign (c := '+') (by decide) (.inl rfl)
  exact ⟨by decide, (read_decodes " +1").foreign hforeign⟩

end Literal

end BlockPurge
