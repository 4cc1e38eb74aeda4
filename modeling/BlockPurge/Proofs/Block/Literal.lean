import BlockPurge.Block.Literal
import BlockPurge.Block.State
import BlockPurge.Proofs.Text.Hex
import BlockPurge.Proofs.Text.Lines
import Mathlib.Data.List.TakeWhile

/-!
# The grammar of state literals

A literal is an optional mark and then one or more digits of base sixteen for a number that fits in
a byte. `read_eq_ok_iff` says that nothing else is read, and that what is read is that number. The
reader counts bytes before it looks at the digits; the count is right because all digits are single
bytes, and because a number fits in a byte exactly if two digits are left behind its zeros. The
literal that a state is recorded with is read as the code of that state.
-/
namespace BlockPurge

namespace Text

theorem length_le_byteCount (s : List Char) : s.length ≤ byteCount s := by
  induction s with
  | nil => exact Nat.le_refl 0
  | cons c rest ih =>
    have hc : 0 < c.utf8Size := c.utf8Size_pos
    rw [List.length_cons, byteCount]
    omega

/-- Digits of base sixteen take a byte each. -/
theorem byteCount_of_hexDigits {s : List Char} (h : ∀ c ∈ s, IsHexDigit c) :
    byteCount s = s.length := by
  induction s with
  | nil => rfl
  | cons c rest ih =>
    obtain ⟨hc, hr⟩ := List.forall_mem_cons.mp h
    have hone : c.utf8Size = 1 := Char.utf8Size_eq_one_iff.mpr (Nat.le_of_lt_succ hc.ascii)
    rw [byteCount, hone, ih hr, List.length_cons, Nat.add_comm]

end Text

namespace Literal

open Text

/-- What may stand before the digits of a literal. -/
def marks : List (List Char) :=
  [[], ['0', 'x'], ['0', 'X']]

/-- A text is a mark and then one or more digits of base sixteen that denote a number. -/
def Spells (text : List Char) (n : Nat) : Prop :=
  ∃ mark ∈ marks, ∃ digits, text = mark ++ digits ∧ digits ≠ [] ∧ (∀ c ∈ digits, IsHexDigit c) ∧
    hexNumber digits = n

theorem exists_mark (text : List Char) : ∃ mark ∈ marks, text = mark ++ digits text := by
  unfold digits
  split
  · exact ⟨['0', 'x'], by simp [marks], rfl⟩
  · exact ⟨['0', 'X'], by simp [marks], rfl⟩
  · exact ⟨[], by simp [marks], rfl⟩

/-- Behind a mark the digits are found again: no digit is taken for a part of a mark. -/
theorem digits_append {mark ds : List Char} (hm : mark ∈ marks) (hd : ∀ c ∈ ds, IsHexDigit c) :
    digits (mark ++ ds) = ds := by
  rcases by simpa [marks] using hm with rfl | rfl | rfl
  · rw [List.nil_append]
    unfold digits
    split
    · have hx : IsHexDigit 'x' := hd 'x' (by simp)
      exact absurd hx (by decide)
    · have hx : IsHexDigit 'X' := hd 'X' (by simp)
      exact absurd hx (by decide)
    · rfl
  · rfl
  · rfl

/-! ## Digits behind their zeros -/

theorem hexNumber_significant (ds : List Char) : hexNumber (significant ds) = hexNumber ds := by
  rw [← hexNumber_dropZeros ds, significant]
  split
  · rename_i hz
    rw [hz]
    rfl
  · rfl

theorem isHexDigit_significant_iff {ds : List Char} :
    (∀ c ∈ significant ds, IsHexDigit c) ↔ ∀ c ∈ ds, IsHexDigit c := by
  have hzero : ∀ c ∈ ds.takeWhile (· = '0'), IsHexDigit c := by
    intro c hc
    have heq : c = '0' := by simpa using List.mem_takeWhile_imp hc
    exact heq ▸ by decide
  have hall : (∀ c ∈ ds, IsHexDigit c) ↔ ∀ c ∈ ds.dropWhile (· = '0'), IsHexDigit c := by
    conv_lhs => rw [← List.takeWhile_append_dropWhile (p := (· = '0')) (l := ds)]
    rw [List.forall_mem_append]
    exact and_iff_right hzero
  rw [hall, significant]
  split
  · rename_i hz
    simp [hz, show IsHexDigit '0' by decide]
  · rfl

/-- A number fits in a byte exactly if at most two digits are left behind its zeros. -/
theorem length_significant_le_two_iff {ds : List Char} (h : ∀ c ∈ ds, IsHexDigit c) :
    (significant ds).length ≤ 2 ↔ hexNumber ds ≤ 255 := by
  have hd := isHexDigit_significant_iff.mpr h
  constructor
  · intro hlen
    have hlt := hexNumber_lt hd
    rw [hexNumber_significant] at hlt
    have hpow : 16 ^ (significant ds).length ≤ 16 ^ 2 := Nat.pow_le_pow_right (by decide) hlen
    omega
  · intro hn
    rw [significant] at hd ⊢
    split at hd
    · simp
    rename_i hne
    cases hs : ds.dropWhile (· = '0') with
    | nil => exact absurd hs hne
    | cons c rest =>
      rw [hs] at hd
      have hc : c ≠ '0' := by
        have hfirst := List.head_dropWhile_not (l := ds) (· = '0') (by simp [hs])
        simpa [hs] using hfirst
      have hle : 16 ^ rest.length ≤ hexNumber (c :: rest) :=
        pow_le_hexNumber (hd c List.mem_cons_self) hc
      rw [← hs, hexNumber_dropZeros] at hle
      have hlt : rest.length < 2 := (Nat.pow_lt_pow_iff_right (a := 16) (by decide)).mp (by omega)
      exact Nat.succ_le_of_lt hlt

/-! ## What is read -/

/-- A literal is read exactly if it keeps to the grammar, as the number that it denotes. -/
theorem read_eq_ok_iff {s : String} {code : UInt8} :
    read s = .ok code ↔ Spells (trim s.toList) code.toNat := by
  simp only [read]
  generalize trim s.toList = text
  constructor
  · intro h
    split at h
    · cases h
    rename_i hsome
    split at h
    · cases h
    rename_i hshort
    split at h
    · rename_i n hread
      cases h
      obtain ⟨mark, hm, htext⟩ := exists_mark text
      obtain ⟨hd, rfl⟩ := readHex?_eq_some_iff.mp hread
      have hds := isHexDigit_significant_iff.mp hd
      have hlen : (significant (digits text)).length ≤ 2 :=
        (length_le_byteCount _).trans (Nat.not_lt.mp hshort)
      have hbyte := (length_significant_le_two_iff hds).mp hlen
      refine ⟨mark, hm, digits text, htext, by simpa using hsome, hds, ?_⟩
      rw [hexNumber_significant, UInt8.toNat_ofNat_of_lt' (Nat.lt_succ_of_le hbyte)]
    · cases h
  · intro h
    obtain ⟨mark, hm, ds, rfl, hne, hds, hn⟩ := h
    have hd := isHexDigit_significant_iff.mpr hds
    have hlen : (significant ds).length ≤ 2 :=
      (length_significant_le_two_iff hds).mpr (hn ▸ Nat.le_of_lt_succ code.toNat_lt)
    have hread : readHex? (significant ds) = some code.toNat :=
      readHex?_eq_some_iff.mpr ⟨hd, by rw [hexNumber_significant, hn]⟩
    rw [digits_append hm hds, if_neg (by simpa using hne), byteCount_of_hexDigits hd,
      if_neg (Nat.not_lt.mpr hlen), hread]
    simp

end Literal

/-! ## The canonical literal -/

namespace BlockState

theorem code_ofCode (code : UInt8) : (ofCode code).code = code := by
  unfold ofCode
  split_ifs <;> simp_all [BlockState.code]

/-- A literal is written with the two lower-case digits of its code. -/
theorem exists_literal (s : BlockState) :
    ∃ high ∈ Text.hexAlphabet, ∃ low ∈ Text.hexAlphabet,
      Text.hexNumber [high, low] = s.code.toNat ∧
      s.literal = String.ofList ['0', 'x', high, low] := by
  have hcode := s.code.toNat_lt
  have hhigh := Text.hexDigit_spec (s.code.toNat / 16) (by omega)
  have hlow := Text.hexDigit_spec (s.code.toNat % 16) (by omega)
  exact ⟨_, hhigh.1, _, hlow.1, Text.hexNumber_hexByte s.code, rfl⟩

/-- The literal of a state is one line without white space at its ends. -/
theorem literal_bare (s : BlockState) :
    Text.IsBare s.literal.toList ∧ '\n' ∉ s.literal.toList := by
  have hdigits : ∀ c ∈ Text.hexByte s.code, Text.isBlank c = false :=
    fun c hc => (Text.isHexDigit_of_mem_hexByte hc).not_blank
  have hall : ∀ c ∈ s.literal.toList, Text.isBlank c = false := by
    rw [literal, String.toList_ofList]
    exact List.forall_mem_cons.mpr ⟨by decide, List.forall_mem_cons.mpr ⟨by decide, hdigits⟩⟩
  refine ⟨⟨fun c hc => hall c (List.mem_of_mem_head? hc), ?_⟩, ?_⟩
  · exact fun c hc => hall c (List.mem_of_getLast? hc)
  · exact fun hn => absurd (hall _ hn) (by decide)

/-- The literal of a state is read as its code. -/
theorem read_literal (s : BlockState) : Literal.read s.literal = .ok s.code := by
  rw [Literal.read_eq_ok_iff, Text.trim_eq_self_iff.mpr s.literal_bare.1, literal,
    String.toList_ofList]
  exact ⟨['0', 'x'], by simp [Literal.marks], Text.hexByte s.code, rfl, by simp [Text.hexByte],
    fun _ => Text.isHexDigit_of_mem_hexByte, Text.hexNumber_hexByte s.code⟩

end BlockState

end BlockPurge
