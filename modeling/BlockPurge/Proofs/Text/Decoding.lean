import BlockPurge.Proofs.Text.Utf8
import Mathlib.Data.List.Forall2

/-!
# Texts read from bytes

Bytes are read as a text only if they are the bytes of that text: no two rows of bytes are read as
the same text, and none that is longer than it has to be is read at all. A first byte and the bytes
that follow it within its ranges are put together to a character whose own bytes they are; a row
without broken runs consists of such bytes, character by character. A row with broken runs has at
least the bytes of all characters that are read from it.
-/
namespace BlockPurge.Text

/-! ## The bytes of one character -/

/-- Bytes that follow a first byte within the ranges that it asks for. -/
def Follow (owed : List (UInt8 × UInt8)) (tail : Bytes) : Prop :=
  List.Forall₂ (fun range b => range.1 ≤ b ∧ b ≤ range.2) owed tail

private theorem ofNat_eq {n : Nat} {b : UInt8} (h : n = b.toNat) : UInt8.ofNat n = b := by
  rw [h, UInt8.ofNat_toNat]

private theorem toNat_val_ofNat {n : Nat} (h : n < 0xD800 ∨ 0xDFFF < n ∧ n < 0x110000) :
    (Char.ofNat n).val.toNat = n := by
  have hv : n.isValidChar := h
  rw [Char.ofNat, dif_pos hv]
  rfl

private theorem encodeChar_two {b c : UInt8} (hb : 0xC2 ≤ b.toNat ∧ b.toNat ≤ 0xDF)
    (hc : 0x80 ≤ c.toNat ∧ c.toNat ≤ 0xBF) :
    String.utf8EncodeChar (assemble [b, c]) = [b, c] := by
  simp only [assemble, List.foldl_cons, List.foldl_nil, List.length_cons, List.length_nil, leadBits]
  rw [String.utf8EncodeChar, toNat_val_ofNat (by omega)]
  rw [if_neg (by omega), if_pos (by omega), ofNat_eq (b := b) (by omega),
    ofNat_eq (b := c) (by omega)]

private theorem encodeChar_three {b c d : UInt8} (hb : 0xE0 ≤ b.toNat ∧ b.toNat ≤ 0xEF)
    (hc : 0x80 ≤ c.toNat ∧ c.toNat ≤ 0xBF) (hd : 0x80 ≤ d.toNat ∧ d.toNat ≤ 0xBF)
    (hlow : b.toNat = 0xE0 → 0xA0 ≤ c.toNat) (hhigh : b.toNat = 0xED → c.toNat ≤ 0x9F) :
    String.utf8EncodeChar (assemble [b, c, d]) = [b, c, d] := by
  simp only [assemble, List.foldl_cons, List.foldl_nil, List.length_cons, List.length_nil, leadBits]
  rw [String.utf8EncodeChar, toNat_val_ofNat (by omega)]
  rw [if_neg (by omega), if_neg (by omega), if_pos (by omega), ofNat_eq (b := b) (by omega),
    ofNat_eq (b := c) (by omega), ofNat_eq (b := d) (by omega)]

private theorem encodeChar_four {b c d e : UInt8} (hb : 0xF0 ≤ b.toNat ∧ b.toNat ≤ 0xF4)
    (hc : 0x80 ≤ c.toNat ∧ c.toNat ≤ 0xBF) (hd : 0x80 ≤ d.toNat ∧ d.toNat ≤ 0xBF)
    (he : 0x80 ≤ e.toNat ∧ e.toNat ≤ 0xBF)
    (hlow : b.toNat = 0xF0 → 0x90 ≤ c.toNat) (hhigh : b.toNat = 0xF4 → c.toNat ≤ 0x8F) :
    String.utf8EncodeChar (assemble [b, c, d, e]) = [b, c, d, e] := by
  simp only [assemble, List.foldl_cons, List.foldl_nil, List.length_cons, List.length_nil, leadBits]
  rw [String.utf8EncodeChar, toNat_val_ofNat (by omega)]
  rw [if_neg (by omega), if_neg (by omega), if_neg (by omega), ofNat_eq (b := b) (by omega),
    ofNat_eq (b := c) (by omega), ofNat_eq (b := d) (by omega), ofNat_eq (b := e) (by omega)]

/-- The bytes of a character are those that it was put together from. -/
theorem encodeChar_assemble {b : UInt8} {owed : List (UInt8 × UInt8)} {tail : Bytes}
    (h : followers b = some owed) (hfollow : Follow owed tail) :
    String.utf8EncodeChar (assemble (b :: tail)) = b :: tail := by
  have hb := b.toNat_lt
  unfold followers at h
  simp only [UInt8.le_iff_toNat_le, UInt8.lt_iff_toNat_lt, ← UInt8.toNat_inj] at h
  simp only [UInt8.reduceToNat] at h
  split_ifs at h with h1 h2 h3 h4 h5 h6 h7 h8 h9 <;> obtain rfl := Option.some.inj h
  · cases hfollow
    simp only [assemble, List.foldl_nil, List.length_nil, leadBits]
    rw [String.utf8EncodeChar, toNat_val_ofNat (by omega)]
    simp [h1]
  all_goals
    simp only [Follow, List.forall₂_cons_left_iff, List.forall₂_nil_left_iff,
      UInt8.le_iff_toNat_le, UInt8.reduceToNat] at hfollow
  · obtain ⟨c, _, hc, rfl, rfl⟩ := hfollow
    exact encodeChar_two (by omega) hc
  · obtain ⟨c, _, hc, ⟨d, _, hd, rfl, rfl⟩, rfl⟩ := hfollow
    exact encodeChar_three (by omega) (by omega) hd (by omega) (by omega)
  · obtain ⟨c, _, hc, ⟨d, _, hd, rfl, rfl⟩, rfl⟩ := hfollow
    exact encodeChar_three (by omega) (by omega) hd (by omega) (by omega)
  · obtain ⟨c, _, hc, ⟨d, _, hd, rfl, rfl⟩, rfl⟩ := hfollow
    exact encodeChar_three (by omega) hc hd (by omega) (by omega)
  all_goals
    obtain ⟨c, _, hc, ⟨d, _, hd, ⟨e, _, he, rfl, rfl⟩, rfl⟩, rfl⟩ := hfollow
  · exact encodeChar_four (by omega) (by omega) hd he (by omega) (by omega)
  · exact encodeChar_four (by omega) hc hd he (by omega) (by omega)
  · exact encodeChar_four (by omega) (by omega) hd he (by omega) (by omega)

/-! ## The characters of a row -/

/-- The characters of a row of pieces that is not broken. -/
def chars? (pieces : List Piece) : Option (List Char) :=
  pieces.mapM Piece.char?

theorem chars?_char (c : Char) (pieces : List Piece) :
    chars? (.char c :: pieces) = (chars? pieces).map (c :: ·) := by
  rw [chars?, List.mapM_cons, Piece.char?, ← chars?]
  cases chars? pieces <;> rfl

theorem chars?_broken (run : Bytes) (pieces : List Piece) :
    chars? (.broken run :: pieces) = none := by
  simp [chars?, List.mapM_cons, Piece.char?]

/-- A character that is started in a row without broken runs is completed. -/
theorem chars?_scan_owed {held : Bytes} {owed : List (UInt8 × UInt8)} (hheld : held ≠ [])
    (hne : owed ≠ []) {bytes : Bytes} {cs : List Char}
    (h : chars? (scan ⟨held, owed⟩ bytes) = some cs) :
    ∃ tail rest more, bytes = tail ++ rest ∧ Follow owed tail ∧
      cs = assemble (held ++ tail) :: more ∧ chars? (scan .none rest) = some more := by
  induction owed generalizing held bytes with
  | nil => exact absurd rfl hne
  | cons range owed ih =>
    cases bytes with
    | nil => simp [scan, hheld, chars?_broken] at h
    | cons b rest =>
      by_cases hb : range.1 ≤ b ∧ b ≤ range.2
      · cases owed with
        | nil =>
          rw [scan_last hb, chars?_char] at h
          obtain ⟨more, hmore, rfl⟩ := Option.map_eq_some_iff.mp h
          exact ⟨[b], rest, more, rfl, .cons hb .nil, rfl, hmore⟩
        | cons next owed =>
          rw [scan_inner hb (by simp)] at h
          obtain ⟨tail, rest, more, rfl, hfollow, rfl, hmore⟩ := ih (by simp) (by simp) h
          exact ⟨b :: tail, rest, more, rfl, .cons hb hfollow, by simp, hmore⟩
      · simp [scan, Partial.step, hb, chars?_broken] at h

/-- A row without broken runs starts with a character, unless it is empty. -/
theorem chars?_scan_cons {b : UInt8} {bytes : Bytes} {cs : List Char}
    (h : chars? (scan .none (b :: bytes)) = some cs) :
    ∃ c rest more, b :: bytes = String.utf8EncodeChar c ++ rest ∧ cs = c :: more ∧
      chars? (scan .none rest) = some more := by
  cases hf : followers b with
  | none => simp [scan, Partial.step, Partial.none, opening, hf, chars?_broken] at h
  | some owed =>
    by_cases hne : owed = []
    · subst hne
      have hscan : scan .none (b :: bytes) = .char (assemble [b]) :: scan .none bytes := by
        simp [scan, Partial.step, Partial.none, opening, hf]
      rw [hscan, chars?_char] at h
      obtain ⟨more, hmore, rfl⟩ := Option.map_eq_some_iff.mp h
      exact ⟨_, bytes, more, by rw [encodeChar_assemble hf .nil]; rfl, rfl, hmore⟩
    · rw [scan_lead hf hne] at h
      obtain ⟨tail, rest, more, rfl, hfollow, rfl, hmore⟩ := chars?_scan_owed (by simp) hne h
      exact ⟨_, rest, more, by rw [List.singleton_append, encodeChar_assemble hf hfollow]; rfl, rfl,
        hmore⟩

theorem flatMap_of_chars?_scan {bytes : Bytes} {cs : List Char}
    (h : chars? (scan .none bytes) = some cs) : cs.flatMap String.utf8EncodeChar = bytes := by
  induction cs generalizing bytes with
  | nil =>
    cases bytes with
    | nil => rfl
    | cons b bytes =>
      obtain ⟨c, rest, more, -, impossible, -⟩ := chars?_scan_cons h
      cases impossible
  | cons c cs ih =>
    cases bytes with
    | nil => cases h
    | cons b bytes =>
      obtain ⟨c', rest, more, hb, hcs, hmore⟩ := chars?_scan_cons h
      obtain ⟨rfl, rfl⟩ := List.cons.inj hcs
      rw [List.flatMap_cons, ih hmore, hb]

/-- Bytes are read as a text if they are the bytes of that text. -/
theorem decode?_eq_some_iff {bytes : Bytes} {s : String} :
    decode? bytes = some s ↔ encode s = bytes := by
  constructor
  · intro h
    obtain ⟨cs, hcs, rfl⟩ := Option.map_eq_some_iff.mp h
    rw [encode, String.toList_ofList]
    exact flatMap_of_chars?_scan hcs
  · rintro rfl
    exact decode?_encode s

/-! ## The characters of any row -/

/-- A character under construction holds a first byte and bytes that may follow it, and the ranges
that it owes are the ones that are left. -/
inductive Partial.Started : Partial → Prop
  | none : Started .none
  | some {b : UInt8} {met owed : List (UInt8 × UInt8)} {tail : Bytes} :
      followers b = some (met ++ owed) → Follow met tail → owed ≠ [] → Started ⟨b :: tail, owed⟩

/-- What a byte that is not inside a character completes has that byte, and what it starts holds it.
-/
theorem opening_holds (b : UInt8) : (opening b).2.Started ∧ (opening b).2.held ⊆ [b] ∧
    ∀ c, .char c ∈ (opening b).1 → String.utf8EncodeChar c ⊆ [b] := by
  unfold opening
  split
  · exact ⟨.none, by simp [Partial.none], by simp⟩
  · rename_i hf
    refine ⟨.none, by simp [Partial.none], fun c hc => ?_⟩
    obtain rfl := Piece.char.inj (List.mem_singleton.mp hc)
    rw [encodeChar_assemble hf .nil]
    exact List.Subset.refl _
  · rename_i owed hne hf
    have hmet : followers b = some ([] ++ owed) := hf
    have hstarted : Partial.Started ⟨[b], owed⟩ := .some hmet .nil hne
    exact ⟨hstarted, by simp, by simp⟩

theorem step_holds {p : Partial} (hp : p.Started) (b : UInt8) :
    (p.step b).2.Started ∧ (p.step b).2.held ⊆ p.held ++ [b] ∧
      ∀ c, .char c ∈ (p.step b).1 → String.utf8EncodeChar c ⊆ p.held ++ [b] := by
  obtain ⟨started, held, chars⟩ := opening_holds b
  have behind (held : Bytes) : [b] ⊆ held ++ [b] := List.subset_append_right _ _
  cases hp with
  | none => exact ⟨started, held, chars⟩
  | @some first met owed tail hf hfollow hne =>
    obtain ⟨range, more, rfl⟩ := List.exists_cons_of_ne_nil hne
    by_cases hb : range.1 ≤ b ∧ b ≤ range.2
    · have hmet : Follow (met ++ [range]) (tail ++ [b]) :=
        List.rel_append hfollow (.cons hb .nil)
      have hf' : followers first = Option.some (met ++ [range] ++ more) := by
        rw [hf, List.append_assoc]
        rfl
      by_cases hmore : more = []
      · subst hmore
        have hstep : Partial.step ⟨first :: tail, [range]⟩ b =
            ([.char (assemble (first :: (tail ++ [b])))], .none) := by
          simp [Partial.step, hb]
        rw [hstep]
        refine ⟨.none, by simp [Partial.none], fun c hc => ?_⟩
        obtain rfl := Piece.char.inj (List.mem_singleton.mp hc)
        rw [List.append_nil] at hf'
        rw [encodeChar_assemble hf' hmet]
        exact List.Subset.refl _
      · have hstep : Partial.step ⟨first :: tail, range :: more⟩ b =
            ([], ⟨first :: (tail ++ [b]), more⟩) := by
          simp [Partial.step, hb, hmore]
        rw [hstep]
        exact ⟨.some hf' hmet hmore, List.Subset.refl _, by simp⟩
    -- The byte does not go on with the character: that one breaks off, and the byte starts anew.
    · have hstep : Partial.step ⟨first :: tail, range :: more⟩ b =
          (.broken (first :: tail) :: (opening b).1, (opening b).2) := by
        simp [Partial.step, hb]
      rw [hstep]
      refine ⟨started, List.Subset.trans held (behind _), fun c hc => ?_⟩
      rcases List.mem_cons.mp hc with hc | hc
      · cases hc
      · exact List.Subset.trans (chars c hc) (behind _)

theorem encodeChar_subset_of_mem_scan {p : Partial} (hp : p.Started) {bytes : Bytes} {c : Char}
    (h : .char c ∈ scan p bytes) : String.utf8EncodeChar c ⊆ p.held ++ bytes := by
  induction bytes generalizing p with
  | nil =>
    rw [scan] at h
    split at h
    · cases h
    · cases List.mem_singleton.mp h
  | cons b rest ih =>
    obtain ⟨started, held, chars⟩ := step_holds hp b
    rw [List.append_cons]
    rcases List.mem_append.mp h with h | h
    · exact List.Subset.trans (chars c h) (List.subset_append_left _ _)
    · have hheld : (p.step b).2.held ⊆ p.held ++ [b] ++ rest :=
        List.Subset.trans held (List.subset_append_left _ _)
      exact List.Subset.trans (ih started h)
        (List.append_subset.mpr ⟨hheld, List.subset_append_right _ _⟩)

/-- **A character that is read from a row has its bytes from that row**, unless it stands in the
place of a broken run. -/
theorem encodeChar_subset_of_mem_decodeLossy {bytes : Bytes} {c : Char}
    (h : c ∈ (decodeLossy bytes).toList) (hc : c ≠ Char.ofNat 0xFFFD) :
    String.utf8EncodeChar c ⊆ bytes := by
  rw [decodeLossy, String.toList_ofList] at h
  obtain ⟨piece, hm, hpiece⟩ := List.mem_map.mp h
  cases piece with
  | char d =>
    obtain rfl : d = c := hpiece
    exact encodeChar_subset_of_mem_scan .none hm
  | broken run => exact absurd hpiece.symm hc

theorem decodeLossy_encode (s : String) : decodeLossy (encode s) = s := by
  rw [decodeLossy, piecesOf_encode, List.map_map]
  have hchar : (fun p : Piece => p.char?.getD (Char.ofNat 0xFFFD)) ∘ Piece.char = id := rfl
  rw [hchar, List.map_id, String.ofList_toList]

/-- A byte of ASCII among the bytes of a text is that of a character, since a character of more than
one byte has none of them. -/
theorem ofNat_mem_of_mem_encode {s : String} {b : UInt8} (hb : b.toNat < 128) (h : b ∈ encode s) :
    Char.ofNat b.toNat ∈ s.toList := by
  obtain ⟨c, hc, hm⟩ := List.mem_flatMap.mp h
  have beyond : ∀ {n}, 128 ≤ n → n < 256 → b ≠ UInt8.ofNat n := by
    rintro n hlow hhigh rfl
    rw [UInt8.toNat_ofNat_of_lt' hhigh] at hb
    omega
  have hv : c.val.toNat = c.toNat := rfl
  simp only [String.utf8EncodeChar, hv] at hm
  split_ifs at hm
  · have hlt : c.toNat < 256 := by omega
    rw [List.mem_singleton.mp hm, UInt8.toNat_ofNat_of_lt' hlt, Char.ofNat_toNat]
    exact hc
  all_goals
    simp only [List.mem_cons, List.not_mem_nil, or_false] at hm
  · rcases hm with hm | hm <;> exact absurd hm (beyond (by omega) (by omega))
  · rcases hm with hm | hm | hm <;> exact absurd hm (beyond (by omega) (by omega))
  · rcases hm with hm | hm | hm | hm <;> exact absurd hm (beyond (by omega) (by omega))

end BlockPurge.Text
