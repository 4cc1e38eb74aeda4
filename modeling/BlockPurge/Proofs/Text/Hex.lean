import BlockPurge.Text.Blank
import BlockPurge.Text.Hex
import Mathlib.Data.List.Induction
import Mathlib.Data.Nat.Digits.Defs

/-!
# Numbers in base sixteen

The sixteen digits stand in the order of their values, and capital letters count as small ones. A
row of digits denotes a number by its positions, and a row is read as a number exactly if all of it
are digits; then the number is the one that it denotes. Zeros in front do not count, and a row
without them is as short as its number allows. The two digits that a byte is written with denote
that byte.
-/
namespace BlockPurge.Text

/-- The digits of base sixteen, each at the position of its value. -/
def hexAlphabet : List Char :=
  ['0', '1', '2', '3', '4', '5', '6', '7', '8', '9', 'a', 'b', 'c', 'd', 'e', 'f']

/-- A digit of base sixteen, in either case. -/
def IsHexDigit (c : Char) : Prop :=
  c.toLower ∈ hexAlphabet

instance : DecidablePred IsHexDigit :=
  fun c => inferInstanceAs (Decidable (c.toLower ∈ hexAlphabet))

/-- The value of a digit of base sixteen. -/
def hexDigitValue (c : Char) : Nat :=
  hexAlphabet.idxOf c.toLower

/-- The number that digits of base sixteen denote by their positions, the last one standing for
units. -/
def hexNumber (digits : List Char) : Nat :=
  Nat.ofDigits 16 (digits.map hexDigitValue).reverse

/-- What holds of the characters of ASCII can be looked up. -/
theorem forall_ascii {P : Char → Prop} (h : ∀ n < 128, P (Char.ofNat n)) {c : Char}
    (hc : c.toNat < 128) : P c := by
  have hn := h c.toNat hc
  rwa [Char.ofNat_toNat] at hn

/-- Whether a digit is read, and its value: this can be looked up for the characters of ASCII. -/
private theorem hexValue?_ascii : ∀ n < 128, hexValue? (Char.ofNat n) =
    if IsHexDigit (Char.ofNat n) then some (hexDigitValue (Char.ofNat n)) else none := by
  decide

private theorem hexAlphabet_ascii : ∀ d ∈ hexAlphabet, d.toNat < 128 := by
  simp [hexAlphabet]

theorem IsHexDigit.ascii {c : Char} (h : IsHexDigit c) : c.toNat < 128 := by
  have hd := hexAlphabet_ascii _ h
  unfold Char.toLower at hd
  split at hd
  · rename_i hc
    have hz : c.toNat ≤ 90 := hc.2
    omega
  · exact hd

theorem IsHexDigit.not_blank {c : Char} (h : IsHexDigit c) : isBlank c = false :=
  forall_ascii (P := fun c => IsHexDigit c → isBlank c = false) (by decide) h.ascii h

/-- A character is read as its value if it is a digit, and not read otherwise. -/
theorem hexValue?_eq (c : Char) :
    hexValue? c = if IsHexDigit c then some (hexDigitValue c) else none := by
  by_cases hc : c.toNat < 128
  · simpa using hexValue?_ascii c.toNat hc
  · have hd : ¬ IsHexDigit c := fun h => hc h.ascii
    have above : ∀ d : Char, d.toNat < 128 → ¬ c ≤ d := by
      intro d hd h
      have hle : c.toNat ≤ d.toNat := h
      omega
    simp [hexValue?, hd, above '9' (by decide), above 'f' (by decide), above 'F' (by decide)]

theorem hexDigitValue_lt {c : Char} (h : IsHexDigit c) : hexDigitValue c < 16 :=
  List.idxOf_lt_length_of_mem h

@[simp] theorem hexNumber_nil : hexNumber [] = 0 := rfl

theorem hexNumber_concat (digits : List Char) (c : Char) :
    hexNumber (digits ++ [c]) = hexNumber digits * 16 + hexDigitValue c := by
  simp [hexNumber, Nat.ofDigits_cons, Nat.add_comm, Nat.mul_comm]

/-- A row is read as a number exactly if all of it are digits. -/
theorem readHex?_eq_some_iff {digits : List Char} {n : Nat} :
    readHex? digits = some n ↔ (∀ c ∈ digits, IsHexDigit c) ∧ n = hexNumber digits := by
  induction digits using List.reverseRecOn generalizing n with
  | nil => simp [readHex?, eq_comm]
  | append_singleton digits c ih =>
    have hstep : readHex? (digits ++ [c]) =
        (readHex? digits).bind fun m => (hexValue? c).map (m * 16 + ·) := by
      simp [readHex?, List.foldlM_append]
    rw [hstep, Option.bind_eq_some_iff, hexNumber_concat]
    constructor
    · intro h
      obtain ⟨m, hm, hc⟩ := h
      obtain ⟨hall, rfl⟩ := ih.mp hm
      rw [hexValue?_eq] at hc
      split at hc
      · rename_i hd
        refine ⟨?_, (Option.some.inj hc).symm⟩
        intro d hmem
        rcases List.mem_append.mp hmem with hmem | hmem
        · exact hall d hmem
        · exact List.mem_singleton.mp hmem ▸ hd
      · cases hc
    · intro h
      obtain ⟨hall, rfl⟩ := h
      have hd : IsHexDigit c := hall c (by simp)
      refine ⟨hexNumber digits, ih.mpr ⟨?_, rfl⟩, ?_⟩
      · exact fun d hmem => hall d (List.mem_append_left _ hmem)
      · rw [hexValue?_eq, if_pos hd]
        rfl

/-! ## Zeros in front -/

theorem hexNumber_zero_cons (digits : List Char) :
    hexNumber ('0' :: digits) = hexNumber digits := by
  have hz : hexDigitValue '0' = 0 := by decide
  simp [hexNumber, hz, Nat.ofDigits_append]

theorem hexNumber_dropZeros (digits : List Char) :
    hexNumber (digits.dropWhile (· = '0')) = hexNumber digits := by
  induction digits with
  | nil => rfl
  | cons c rest ih =>
    by_cases hc : c = '0'
    · rw [hc, hexNumber_zero_cons]
      simpa using ih
    · simp [hc]

theorem hexDigitValue_pos {c : Char} (h : IsHexDigit c) (hc : c ≠ '0') : 0 < hexDigitValue c := by
  refine Nat.pos_of_ne_zero fun hv => hc ?_
  have hlower : c.toLower = '0' := by
    have hget := List.getElem_idxOf (List.idxOf_lt_length_of_mem h)
    have hv' : hexAlphabet.idxOf c.toLower = 0 := hv
    simp only [hv'] at hget
    exact hget.symm
  have hzero : c.toLower = '0' → c = '0' :=
    forall_ascii (P := fun c => c.toLower = '0' → c = '0') (by decide) h.ascii
  exact hzero hlower

/-- A number with a first digit other than zero has as many places as it has digits. -/
theorem pow_le_hexNumber {c : Char} {rest : List Char} (h : IsHexDigit c) (hc : c ≠ '0') :
    16 ^ rest.length ≤ hexNumber (c :: rest) := by
  have hpos := hexDigitValue_pos h hc
  have hnumber : hexNumber (c :: rest) =
      hexNumber rest + 16 ^ rest.length * hexDigitValue c := by
    simp [hexNumber, Nat.ofDigits_append]
  rw [hnumber]
  calc 16 ^ rest.length = 16 ^ rest.length * 1 := (Nat.mul_one _).symm
    _ ≤ 16 ^ rest.length * hexDigitValue c := Nat.mul_le_mul_left _ hpos
    _ ≤ hexNumber rest + 16 ^ rest.length * hexDigitValue c := Nat.le_add_left _ _

theorem hexNumber_lt {digits : List Char} (h : ∀ c ∈ digits, IsHexDigit c) :
    hexNumber digits < 16 ^ digits.length := by
  have hlt : ∀ n ∈ (digits.map hexDigitValue).reverse, n < 16 := by
    intro n hn
    obtain ⟨c, hc, rfl⟩ := List.mem_map.mp (List.mem_reverse.mp hn)
    exact hexDigitValue_lt (h c hc)
  simpa [hexNumber] using Nat.ofDigits_lt_base_pow_length (by decide) hlt

/-! ## Bytes -/

/-- The small digit that a value below sixteen is written with. -/
theorem hexDigit_spec : ∀ n < 16, hexDigit n ∈ hexAlphabet ∧ IsHexDigit (hexDigit n) ∧
    hexDigitValue (hexDigit n) = n := by
  decide

theorem isHexDigit_of_mem_hexByte {b : UInt8} {c : Char} (h : c ∈ hexByte b) : IsHexDigit c := by
  have hb := b.toNat_lt
  rcases by simpa [hexByte] using h with rfl | rfl
  · exact (hexDigit_spec (b.toNat / 16) (by omega)).2.1
  · exact (hexDigit_spec (b.toNat % 16) (by omega)).2.1

theorem hexNumber_hexByte (b : UInt8) : hexNumber (hexByte b) = b.toNat := by
  have hb := b.toNat_lt
  obtain ⟨-, -, hhigh⟩ := hexDigit_spec (b.toNat / 16) (by omega)
  obtain ⟨-, -, hlow⟩ := hexDigit_spec (b.toNat % 16) (by omega)
  have hnumber : hexNumber (hexByte b) = b.toNat % 16 + 16 * (b.toNat / 16) := by
    simp [hexNumber, hexByte, Nat.ofDigits_cons, hhigh, hlow]
  rw [hnumber, Nat.mod_add_div]

theorem mem_hexAlphabet_of_mem_hexBytes {bytes : Bytes} {c : Char}
    (h : c ∈ (hexBytes bytes).toList) : c ∈ hexAlphabet := by
  rw [hexBytes, String.toList_ofList, List.mem_flatMap] at h
  obtain ⟨b, -, hc⟩ := h
  have hb := b.toNat_lt
  rcases by simpa [hexByte] using hc with rfl | rfl
  · exact (hexDigit_spec (b.toNat / 16) (by omega)).1
  · exact (hexDigit_spec (b.toNat % 16) (by omega)).1

theorem length_hexBytes (bytes : Bytes) : (hexBytes bytes).length = 2 * bytes.length := by
  rw [← String.length_toList, hexBytes, String.toList_ofList, List.length_flatMap]
  simp [hexByte, List.map_const', Nat.mul_comm]

theorem toList_hexBytes_take (bytes : Bytes) (n : Nat) :
    (hexBytes (bytes.take n)).toList = (hexBytes bytes).toList.take (2 * n) := by
  simp only [hexBytes, String.toList_ofList]
  induction bytes generalizing n with
  | nil => simp
  | cons b rest ih =>
    cases n with
    | zero => rfl
    | succ n =>
      have htwo : 2 * (n + 1) = (hexByte b).length + 2 * n := by
        rw [Nat.mul_succ, Nat.add_comm]
        rfl
      rw [List.take_succ_cons, List.flatMap_cons, List.flatMap_cons, ih, htwo,
        List.take_length_add_append]

end BlockPurge.Text
