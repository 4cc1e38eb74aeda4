import BlockPurge.Text.Utf8
import Mathlib.Tactic.SplitIfs

/-!
# Bytes of a text read back

Every text is found again in its own bytes. The bytes of one character are read from the state
between characters to the state between characters, and come to that one piece; a text is then read
character by character. There is one case for each number of bytes, and in each the ranges that the
first byte opens contain the bytes that follow it.
-/
namespace BlockPurge.Text

private theorem followers_two : ∀ n < 32, 2 ≤ n →
    followers (UInt8.ofNat (n + 0xC0)) = some [(0x80, 0xBF)] := by
  decide

private theorem followers_three : ∀ n < 16,
    followers (UInt8.ofNat (n + 0xE0)) =
      some [(if n = 0 then 0xA0 else 0x80, if n = 13 then 0x9F else 0xBF), (0x80, 0xBF)] := by
  decide

private theorem followers_four : ∀ n < 5,
    followers (UInt8.ofNat (n + 0xF0)) =
      some [(if n = 0 then 0x90 else 0x80, if n = 4 then 0x8F else 0xBF), (0x80, 0xBF),
        (0x80, 0xBF)] := by
  decide

private theorem inRange {m : Nat} {low high : UInt8} (hm : m < 64)
    (hr : low.toNat ≤ m + 0x80 ∧ m + 0x80 ≤ high.toNat) :
    low ≤ UInt8.ofNat (m + 0x80) ∧ UInt8.ofNat (m + 0x80) ≤ high := by
  rw [UInt8.le_iff_toNat_le, UInt8.le_iff_toNat_le, UInt8.toNat_ofNat', Nat.mod_eq_of_lt (by omega)]
  exact hr

private theorem inTailRange {m : Nat} (hm : m < 64) :
    (0x80 : UInt8) ≤ UInt8.ofNat (m + 0x80) ∧ UInt8.ofNat (m + 0x80) ≤ 0xBF :=
  inRange hm ⟨Nat.le_add_left _ _, Nat.add_le_add_right (Nat.le_of_lt_succ hm) 0x80⟩

/-- A code point is no surrogate. -/
private theorem char_ranges (c : Char) :
    c.toNat < 0xD800 ∨ 0xDFFF < c.toNat ∧ c.toNat < 0x110000 :=
  c.valid

theorem scan_lead {b : UInt8} {owed : List (UInt8 × UInt8)} (h : followers b = some owed)
    (hne : owed ≠ []) (rest : Bytes) : scan .none (b :: rest) = scan ⟨[b], owed⟩ rest := by
  cases owed with
  | nil => exact absurd rfl hne
  | cons range more => simp [scan, Partial.step, Partial.none, opening, h]

theorem scan_inner {held : Bytes} {range : UInt8 × UInt8} {more : List (UInt8 × UInt8)} {b : UInt8}
    (hb : range.1 ≤ b ∧ b ≤ range.2) (hne : more ≠ []) (rest : Bytes) :
    scan ⟨held, range :: more⟩ (b :: rest) = scan ⟨held ++ [b], more⟩ rest := by
  cases more with
  | nil => exact absurd rfl hne
  | cons next more => simp [scan, Partial.step, hb]

theorem scan_last {held : Bytes} {range : UInt8 × UInt8} {b : UInt8}
    (hb : range.1 ≤ b ∧ b ≤ range.2) (rest : Bytes) :
    scan ⟨held, [range]⟩ (b :: rest) = .char (assemble (held ++ [b])) :: scan .none rest := by
  simp [scan, Partial.step, hb]

/-- The bytes of a character are read as that character. -/
theorem scan_encodeChar (c : Char) (rest : Bytes) :
    scan .none (String.utf8EncodeChar c ++ rest) = .char c :: scan .none rest := by
  have hc := char_ranges c
  have hback : Char.ofNat c.toNat = c := Char.ofNat_toNat c
  have hv : c.val.toNat = c.toNat := rfl
  simp only [String.utf8EncodeChar, hv]
  generalize c.toNat = v at hc hback
  split_ifs with h1 h2 h3
  · have hf : followers (UInt8.ofNat v) = some [] := by
      have hle : UInt8.ofNat v ≤ 0x7F := by
        rw [UInt8.le_iff_toNat_le, UInt8.toNat_ofNat', Nat.mod_eq_of_lt (by omega)]
        exact h1
      simp [followers, hle]
    have ha : assemble [UInt8.ofNat v] = c := by
      simp only [assemble, List.foldl_nil, List.length_nil, leadBits]
      rw [UInt8.toNat_ofNat', Nat.mod_eq_of_lt (by omega), hback]
    simp [scan, Partial.step, Partial.none, opening, hf, ha]
  · have hf := followers_two (v / 64 % 32) (by omega) (by omega)
    simp only [List.cons_append, List.nil_append]
    rw [scan_lead hf (by simp), scan_last (inTailRange (by omega))]
    refine congrArg (Piece.char · :: scan .none rest) ?_
    simp only [List.cons_append, List.nil_append, assemble, List.foldl_cons, List.foldl_nil,
      List.length_cons, List.length_nil, leadBits, UInt8.toNat_ofNat']
    rw [← hback]
    apply congrArg Char.ofNat
    omega
  · have hf := followers_three (v / 4096 % 16) (by omega)
    simp only [List.cons_append, List.nil_append]
    rw [scan_lead hf (by simp), scan_inner (inRange (by omega) ?_) (by simp),
      scan_last (inTailRange (by omega))]
    · refine congrArg (Piece.char · :: scan .none rest) ?_
      simp only [List.cons_append, List.nil_append, assemble, List.foldl_cons, List.foldl_nil,
        List.length_cons, List.length_nil, leadBits, UInt8.toNat_ofNat']
      rw [← hback]
      apply congrArg Char.ofNat
      omega
    · simp only [apply_ite UInt8.toNat, UInt8.reduceToNat]
      split_ifs <;> omega
  · have hf := followers_four (v / 262144 % 8) (by omega)
    simp only [List.cons_append, List.nil_append]
    rw [scan_lead hf (by simp), scan_inner (inRange (by omega) ?_) (by simp),
      scan_inner (inTailRange (by omega)) (by simp),
      scan_last (inTailRange (by omega))]
    · refine congrArg (Piece.char · :: scan .none rest) ?_
      simp only [List.cons_append, List.nil_append, assemble, List.foldl_cons, List.foldl_nil,
        List.length_cons, List.length_nil, leadBits, UInt8.toNat_ofNat']
      rw [← hback]
      apply congrArg Char.ofNat
      omega
    · simp only [apply_ite UInt8.toNat, UInt8.reduceToNat]
      split_ifs <;> omega

theorem piecesOf_encode (s : String) : piecesOf (encode s) = s.toList.map .char := by
  unfold piecesOf encode
  induction s.toList with
  | nil => rfl
  | cons c rest ih => rw [List.flatMap_cons, scan_encodeChar, ih, List.map_cons]

/-- A text is found again in its bytes. -/
theorem decode?_encode (s : String) : decode? (encode s) = some s := by
  have hp : (s.toList.map Piece.char).mapM Piece.char? = some s.toList := by
    induction s.toList with
    | nil => rfl
    | cons c rest ih => simp [List.mapM_cons, ih, Piece.char?]
  simp [decode?, piecesOf_encode, hp]

theorem encode_append (s t : String) : encode (s ++ t) = encode s ++ encode t := by
  simp [encode]

/-- Texts with the same bytes are the same. -/
theorem encode_inj {s t : String} : encode s = encode t ↔ s = t := by
  constructor
  · intro h
    have hd := decode?_encode s
    rw [h, decode?_encode] at hd
    exact (Option.some.inj hd).symm
  · intro h
    rw [h]

end BlockPurge.Text
