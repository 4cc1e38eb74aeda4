import BlockPurge.Json.Quoted
import BlockPurge.Proofs.Block.Literal

/-!
# What a string stands for

What stands between the quotation marks of a string is a row of units, each spelled in one of
several ways: a character as it is, an escape, or a code of four digits of base sixteen. A character
stands for itself; a code stands for the character of that number, and characters beyond the range
of one code take two, as UTF-16 has it. A string is read as what it stands for, however it is
spelled, and a text is written as a string that stands for it.
-/
namespace BlockPurge.Json

open Text (IsHexDigit hexNumber hexValue? readHex?)

/-! ## Spellings -/

/-- The ways to spell a unit of a string. -/
inductive Spells : List Char → StringUnit → Prop
  | plain {c : Char} : c ≠ quote → c ≠ backslash → ' ' ≤ c → Spells [c] (.char c)
  | escape {letter meant : Char} : (letter, meant) ∈ escapes →
      Spells [backslash, letter] (.char meant)
  | code {digits : List Char} : digits.length = codeDigits → (∀ d ∈ digits, IsHexDigit d) →
      Spells (backslash :: 'u' :: digits) (.code (hexNumber digits))

/-- The text between the quotation marks of a string, with its units. -/
inductive Interior : List Char → List StringUnit → Prop
  | nil : Interior [] []
  | cons {s t : List Char} {unit : StringUnit} {units : List StringUnit} :
      Spells s unit → Interior t units → Interior (s ++ t) (unit :: units)

/-- The two codes of a character that one code does not reach. -/
def halves (c : Char) : Nat × Nat :=
  (0xD800 + (c.toNat - 0x10000) / 0x400, 0xDC00 + (c.toNat - 0x10000) % 0x400)

/-- The characters that units stand for. -/
inductive Denotes : List StringUnit → List Char → Prop
  | nil : Denotes [] []
  | char (c : Char) {units : List StringUnit} {chars : List Char} :
      Denotes units chars → Denotes (.char c :: units) (c :: chars)
  | code {c : Char} {units : List StringUnit} {chars : List Char} :
      c.toNat < 0x10000 → Denotes units chars → Denotes (.code c.toNat :: units) (c :: chars)
  | pair {c : Char} {units : List StringUnit} {chars : List Char} :
      0x10000 ≤ c.toNat → Denotes units chars →
      Denotes (.code (halves c).1 :: .code (halves c).2 :: units) (c :: chars)

/-- What stands between the quotation marks of a string stands for a text. -/
def StandsFor (s : List Char) (text : String) : Prop :=
  ∃ units, Interior s units ∧ Denotes units text.toList

/-! ## Units taken one by one -/

/-- Reading on from inside a string, a unit is complete behind some characters and not before. -/
inductive Inside.Takes : Inside → List Char → List Char → StringUnit → Prop
  | last {inside : Inside} {c : Char} {rest : List Char} {unit : StringUnit} :
      inside.step c rest = .on .plain (some unit) → Takes inside [c] rest unit
  | more {inside : Inside} (next : Inside) {c : Char} {s rest : List Char} {unit : StringUnit} :
      inside.step c (s ++ rest) = .on next none → Takes next s rest unit →
      Takes inside (c :: s) rest unit

/-- Digits complete a code when none of them is missing any more. -/
theorem takes_digits {digits : List Char} {value n : Nat} (rest : List Char) (hne : digits ≠ [])
    (hread : digits.foldlM (fun n c => (hexValue? c).map (n * 16 + ·)) value = some n) :
    (Inside.code digits.length value).Takes digits rest (.code n) := by
  induction digits generalizing value with
  | nil => exact absurd rfl hne
  | cons d more ih =>
    rw [List.foldlM_cons] at hread
    obtain ⟨next, hd, hmore⟩ := Option.bind_eq_some_iff.mp hread
    obtain ⟨digit, hdigit, rfl⟩ := Option.map_eq_some_iff.mp hd
    cases more with
    | nil =>
      obtain rfl := Option.some.inj hmore
      apply Inside.Takes.last
      simp [Inside.step, hdigit]
    | cons e more =>
      refine .more _ ?_ (ih (List.cons_ne_nil e more) hmore)
      simp [Inside.step, hdigit]

theorem lookup_escapes : ∀ pair ∈ escapes, pair.1 ≠ 'u' ∧ escapes.lookup pair.1 = some pair.2 := by
  decide

theorem holdsCode_append {digits : List Char} (h : digits.length = codeDigits) (rest : List Char) :
    holdsCode (digits ++ rest) = true := by
  rw [holdsCode, ← h, List.take_left, decide_eq_true_eq]
  exact Text.length_le_byteCount digits

/-- However a unit is spelled, it is taken as a whole. -/
theorem Spells.takes {s : List Char} {unit : StringUnit} (h : Spells s unit) (rest : List Char) :
    Inside.plain.Takes s rest unit := by
  cases h with
  | @plain c hquote hback hspace =>
    apply Inside.Takes.last
    simp [Inside.step, hquote, hback, Char.not_lt.mpr hspace]
  | @escape letter meant hm =>
    obtain ⟨hu, hlook⟩ := lookup_escapes _ hm
    refine .more .escape (by simp [Inside.step, quote, backslash]) (.last ?_)
    dsimp only at hu hlook
    simp [Inside.step, hu, hlook]
  | @code digits hlen hall =>
    have hne : digits ≠ [] := by
      rintro rfl
      cases hlen
    have hread : readHex? digits = some (hexNumber digits) :=
      Text.readHex?_eq_some_iff.mpr ⟨hall, rfl⟩
    refine .more .escape (by simp [Inside.step, quote, backslash]) ?_
    refine .more (.code digits.length 0) ?_ (takes_digits rest hne hread)
    simp [Inside.step, holdsCode_append hlen, hlen]

/-! ## Reading -/

/-- A unit is put to what was read before it, and reading goes on behind it. -/
theorem readInside_takes {inside : Inside} {s rest : List Char} {unit : StringUnit}
    (h : inside.Takes s rest unit) (waiting : Option Nat) :
    readInside inside waiting (s ++ rest) =
      match pair waiting unit with
      | .error flaw => .error flaw
      | .ok (chars, waiting) =>
        match readInside .plain waiting rest with
        | .error flaw => .error flaw
        | .ok (more, after) => .ok (chars ++ more, after) := by
  induction h with
  | last hstep =>
    rw [List.singleton_append, readInside]
    generalize Inside.step _ _ _ = move at hstep ⊢
    subst hstep
    rfl
  | more _ hstep _ ih => simp only [List.cons_append, readInside, hstep, ih]

private theorem isValid_toNat (c : Char) :
    c.toNat < 0xD800 ∨ 0xDFFF < c.toNat ∧ c.toNat < 0x110000 :=
  c.valid

theorem pair_code {c : Char} (h : c.toNat < 0x10000) :
    pair none (.code c.toNat) = .ok ([c], none) := by
  have hvalid := isValid_toNat c
  have hhigh : isHigh c.toNat = false := by
    simp only [isHigh, Bool.and_eq_false_iff, decide_eq_false_iff_not]
    omega
  have hlow : isLow c.toNat = false := by
    simp only [isLow, Bool.and_eq_false_iff, decide_eq_false_iff_not]
    omega
  simp [pair, hhigh, hlow]

theorem pair_halves {c : Char} (h : 0x10000 ≤ c.toNat) :
    pair none (.code (halves c).1) = .ok ([], some (halves c).1) ∧
      pair (some (halves c).1) (.code (halves c).2) = .ok ([c], none) := by
  have hvalid := isValid_toNat c
  have hfirst : 0xD800 ≤ (halves c).1 ∧ (halves c).1 ≤ 0xDBFF := by
    unfold halves
    omega
  have hsecond : 0xDC00 ≤ (halves c).2 ∧ (halves c).2 ≤ 0xDFFF := by
    unfold halves
    omega
  have hhigh : isHigh (halves c).1 = true := by simpa [isHigh] using hfirst
  have hlow : isLow (halves c).2 = true := by simpa [isLow] using hsecond
  have hjoin : joinPair (halves c).1 (halves c).2 = c := by
    have hn : 0x10000 + ((halves c).1 - 0xD800) * 0x400 + ((halves c).2 - 0xDC00) = c.toNat := by
      simp only [halves]
      omega
    rw [joinPair, hn, Char.ofNat_toNat]
  exact ⟨by simp [pair, hhigh], by simp [pair, hlow, hjoin]⟩

/-- A string is read as the characters that its units denote. -/
theorem readInside_interior {s : List Char} {units : List StringUnit} {chars : List Char}
    (hs : Interior s units) (hd : Denotes units chars) (after : List Char) :
    readInside .plain none (s ++ quote :: after) = .ok (chars, after) := by
  induction hd generalizing s with
  | nil =>
    cases hs
    simp [readInside, Inside.step]
  | char c _ ih =>
    cases hs with
    | cons hc ht =>
      rw [List.append_assoc, readInside_takes (hc.takes _)]
      simp [pair, ih ht]
  | code hc _ ih =>
    cases hs with
    | cons hcode ht =>
      rw [List.append_assoc, readInside_takes (hcode.takes _), pair_code hc]
      simp [ih ht]
  | pair hc _ ih =>
    cases hs with
    | cons hhigh ht =>
      cases ht with
      | cons hlow ht =>
        obtain ⟨hfirst, hsecond⟩ := pair_halves hc
        rw [List.append_assoc, readInside_takes (hhigh.takes _), hfirst]
        dsimp only
        rw [List.append_assoc, readInside_takes (hlow.takes _), hsecond]
        simp [ih ht]

theorem readString_of_standsFor {s : List Char} {text : String} (h : StandsFor s text)
    (after : List Char) : readString (s ++ quote :: after) = .ok (text, after) := by
  obtain ⟨units, hs, hd⟩ := h
  simp [readString, readInside_interior hs hd]

/-! ## Writing -/

/-- A character is written as itself, or as a code if it is a control character. -/
theorem spells_writeChar (c : Char) :
    Spells (writeChar c) (.char c) ∨ c.toNat < 0x20 ∧ Spells (writeChar c) (.code c.toNat) := by
  by_cases hm : c ∈ [quote, backslash, '\x08', '\x0c', '\n', '\r', '\t']
  · have hescape : ∃ letter, writeChar c = [backslash, letter] ∧ (letter, c) ∈ escapes := by
      simp only [List.mem_cons, List.not_mem_nil, or_false] at hm
      rcases hm with rfl | rfl | rfl | rfl | rfl | rfl | rfl <;> exact ⟨_, rfl, by decide⟩
    obtain ⟨letter, hw, hl⟩ := hescape
    rw [hw]
    exact .inl (.escape hl)
  · simp only [List.mem_cons, List.not_mem_nil, or_false, not_or] at hm
    obtain ⟨hquote, hback, h8, hc, hn, hr, ht⟩ := hm
    by_cases hcontrol : c < ' '
    · have hlt : c.toNat < 0x20 := hcontrol
      have hw : writeChar c =
          backslash :: 'u' :: ('0' :: '0' :: Text.hexByte (UInt8.ofNat c.toNat)) := by
        simp [writeChar, hquote, hback, h8, hc, hn, hr, ht, hcontrol]
      have hdigits : ∀ d ∈ '0' :: '0' :: Text.hexByte (UInt8.ofNat c.toNat), IsHexDigit d := by
        intro d hd
        rcases by simpa using hd with rfl | hd
        · decide
        · exact Text.isHexDigit_of_mem_hexByte hd
      have hnumber : hexNumber ('0' :: '0' :: Text.hexByte (UInt8.ofNat c.toNat)) = c.toNat := by
        rw [Text.hexNumber_zero_cons, Text.hexNumber_zero_cons, Text.hexNumber_hexByte,
          UInt8.toNat_ofNat_of_lt' (hlt.trans (by decide))]
      have hlength : ('0' :: '0' :: Text.hexByte (UInt8.ofNat c.toNat)).length = codeDigits := rfl
      have hcode := Spells.code hlength hdigits
      rw [hnumber, ← hw] at hcode
      exact .inr ⟨hlt, hcode⟩
    · have hw : writeChar c = [c] := by
        simp [writeChar, hquote, hback, h8, hc, hn, hr, ht, hcontrol]
      rw [hw]
      exact .inl (.plain hquote hback (Char.not_lt.mp hcontrol))

theorem denotes_written (chars : List Char) :
    ∃ units, Interior (chars.flatMap writeChar) units ∧ Denotes units chars := by
  induction chars with
  | nil => exact ⟨[], .nil, .nil⟩
  | cons c rest ih =>
    obtain ⟨units, hs, hd⟩ := ih
    rw [List.flatMap_cons]
    rcases spells_writeChar c with hc | ⟨hlt, hc⟩
    · exact ⟨_, .cons hc hs, .char c hd⟩
    · exact ⟨_, .cons hc hs, .code (by omega) hd⟩

/-- What is written for a text stands for it. -/
theorem standsFor_written (text : String) : StandsFor (text.toList.flatMap writeChar) text :=
  denotes_written text.toList

end BlockPurge.Json
