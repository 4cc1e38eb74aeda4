import BlockPurge.Proofs.Text.Hex
import BlockPurge.Text.Case
import Mathlib.Data.List.Infix

/-!
# Words searched without regard to case

A word is searched in the lower-case form of a text, and lower case is that of Unicode: a character
may come to two, a capital sigma has a form of its own at the end of a word, and the sign for Kelvin
comes to a letter of ASCII. Of the letters of ASCII only `i` and `k` come from characters outside
of it. So a word without these two is found exactly where the text has it when the capitals of ASCII
count as small letters, and nothing else is changed.
-/
namespace BlockPurge.Text

/-- A small letter of ASCII that is the small form of no character outside of ASCII. -/
def Plain (c : Char) : Prop :=
  c.isLower = true ∧ c ≠ 'i' ∧ c ≠ 'k'

instance : DecidablePred Plain :=
  fun c => inferInstanceAs (Decidable (c.isLower = true ∧ c ≠ 'i' ∧ c ≠ 'k'))

/-- A small form of a character. A capital sigma has two, one of them for the end of a word. -/
def SmallForm (c : Char) (form : List Char) : Prop :=
  form = lowerChar c ∨ c = 'Σ' ∧ form = ['ς']

/-- A text in lower case, whichever small form each capital sigma takes. -/
inductive Lowered : List Char → List Char → Prop
  | nil : Lowered [] []
  | cons {c : Char} {form rest lowered : List Char} :
      SmallForm c form → Lowered rest lowered → Lowered (c :: rest) (form ++ lowered)

theorem smallForm_lowerSigma (before after : List Char) :
    SmallForm 'Σ' [lowerSigma before after] := by
  unfold lowerSigma
  split
  · exact .inr ⟨rfl, rfl⟩
  · exact .inl (by decide +kernel)

theorem lowered_lowerBehind (before s : List Char) : Lowered s (lowerBehind before s) := by
  induction s generalizing before with
  | nil => exact .nil
  | cons c rest ih =>
    refine .cons ?_ (ih (c :: before))
    split
    · rename_i hsigma
      rw [hsigma]
      exact smallForm_lowerSigma before rest
    · exact .inl rfl

theorem lowered_lower (s : List Char) : Lowered s (lower s) :=
  lowered_lowerBehind [] s

example : lower "ΣΑΣ, ΑΣ'Α".toList = "σας, ασ'α".toList := by decide +kernel

/-! ## Small forms of one character -/

theorem Plain.toNat {c : Char} (h : Plain c) : 97 ≤ c.toNat ∧ c.toNat ≤ 122 := by
  obtain ⟨hfirst, hlast⟩ := Bool.and_eq_true_iff.mp h.1
  exact ⟨of_decide_eq_true hfirst, of_decide_eq_true hlast⟩

/-- Inside ASCII the small form of a character is that of ASCII. -/
theorem lowerChar_ascii {c : Char} (h : c.toNat < 128) : lowerChar c = [c.toLower] :=
  forall_ascii (P := fun c => lowerChar c = [c.toLower]) (by decide +kernel) h

/-- The runs of capitals start in ASCII, or lead beyond it, or consist of the sign for Kelvin. -/
private theorem capitalRuns_cases : ∀ r ∈ capitalRuns, r.last < 128 ∨ 128 ≤ r.first + r.shift ∨
    r.first = 0x212A ∧ r.last = 0x212A ∧ r.shift = -8383 := by
  decide +kernel

private theorem toNat_ofNat_cases (n : Nat) :
    (Char.ofNat n).toNat = n ∨ (Char.ofNat n).toNat = 0 := by
  by_cases h : n.isValidChar
  · left
    rw [Char.ofNat, dif_pos h]
    rfl
  · exact .inr (by simp [Char.ofNat, h])

/-- No character outside of ASCII has a plain letter in its small form. -/
theorem not_plain_of_mem_lowerChar {c d : Char} (hc : 128 ≤ c.toNat) (hd : d ∈ lowerChar c) :
    ¬ Plain d := by
  intro plain
  have hrange := plain.toNat
  unfold lowerChar at hd
  split at hd
  · rcases by simpa using hd with rfl | rfl
    · exact plain.2.1 rfl
    · exact absurd hrange.2 (by decide)
  · split at hd
    · rename_i r hr
      obtain rfl := List.mem_singleton.mp hd
      have hholds := List.find?_some hr
      simp only [CapitalRun.holds, Bool.and_eq_true, decide_eq_true_eq] at hholds
      rcases capitalRuns_cases r (List.mem_of_find?_eq_some hr) with hlast | hbeyond | ⟨hf, hl, hs⟩
      · omega
      · rcases toNat_ofNat_cases (c.toNat + r.shift).toNat with h | h
        · omega
        · omega
      · have hkelvin : c.toNat = 0x212A := by omega
        rw [hkelvin, hs] at plain
        exact plain.2.2 rfl
    · obtain rfl := List.mem_singleton.mp hd
      omega

theorem toNat_lt_of_toLower {c d : Char} (h : c.toLower = d) (hd : Plain d) : c.toNat < 128 := by
  have hrange := hd.toNat
  unfold Char.toLower at h
  split at h
  · rename_i hc
    have hz : c.toNat ≤ 90 := hc.2
    omega
  · subst h
    omega

theorem lowerChar_ne_nil (c : Char) : lowerChar c ≠ [] := by
  unfold lowerChar
  split
  · simp
  · split
    · simp
    · simp

section
variable {c d : Char} {form : List Char}

theorem SmallForm.ne_nil (h : SmallForm c form) : form ≠ [] := by
  rcases h with rfl | ⟨-, rfl⟩
  · exact lowerChar_ne_nil c
  · simp

/-- A letter that counts as a plain one has that one as its small form. -/
theorem SmallForm.eq_singleton (h : SmallForm c form) (hd : Plain d) (hc : c.toLower = d) :
    form = [d] := by
  have hascii := toNat_lt_of_toLower hc hd
  rcases h with rfl | ⟨rfl, -⟩
  · rw [lowerChar_ascii hascii, hc]
  · exact absurd hascii (by decide)

/-- Any other character has no such letter in its small form. -/
theorem SmallForm.notMem (h : SmallForm c form) (hd : Plain d) (hc : c.toLower ≠ d) :
    d ∉ form := by
  intro hm
  rcases h with rfl | ⟨-, rfl⟩
  · by_cases hascii : c.toNat < 128
    · rw [lowerChar_ascii hascii, List.mem_singleton] at hm
      exact hc hm.symm
    · exact not_plain_of_mem_lowerChar (Nat.le_of_not_lt hascii) hm hd
  · obtain rfl := List.mem_singleton.mp hm
    exact absurd hd (by decide)

end

/-! ## Words in texts -/

theorem holdsWord_iff {word s : List Char} : holdsWord word s = true ↔ word <:+: s := by
  induction s with
  | nil => simp [holdsWord]
  | cons c rest ih =>
    rw [holdsWord, Bool.or_eq_true, ih, List.isPrefixOf_iff_prefix, List.infix_cons_iff]

section
variable {s lowered : List Char}

/-- A plain word starts the lower-case form exactly if it starts the text, but for capitals. -/
theorem Lowered.prefix_iff (h : Lowered s lowered) {word : List Char} (hw : ∀ d ∈ word, Plain d) :
    word <+: lowered ↔ word <+: s.map Char.toLower := by
  induction h generalizing word with
  | nil => rfl
  | @cons c form rest lowered hform _ ih =>
    cases word with
    | nil => simp
    | cons d word =>
      obtain ⟨hd, hword⟩ := List.forall_mem_cons.mp hw
      rw [List.map_cons, List.cons_prefix_cons]
      by_cases hc : c.toLower = d
      · rw [hform.eq_singleton hd hc, List.singleton_append, List.cons_prefix_cons, ih hword]
        simp [hc]
      · obtain ⟨x, more, rfl⟩ := List.exists_cons_of_ne_nil hform.ne_nil
        have hx : d ≠ x := fun heq => hform.notMem hd hc (heq ▸ List.mem_cons_self)
        simp [List.cons_prefix_cons, hx, Ne.symm hc]

/-- No word starts where its first letter is not. -/
theorem infix_append_iff_of_notMem {d : Char} {word before behind : List Char} (h : d ∉ before) :
    d :: word <:+: before ++ behind ↔ d :: word <:+: behind := by
  induction before with
  | nil => rfl
  | cons c before ih =>
    obtain ⟨hc, hb⟩ := not_or.mp fun hm => h (List.mem_cons.mpr hm)
    rw [List.cons_append, List.infix_cons_iff, ih hb, List.cons_prefix_cons]
    simp [hc]

/-- **A plain word is in the lower-case form exactly if it is in the text**, but for capitals of
ASCII. -/
theorem Lowered.infix_iff (h : Lowered s lowered) {word : List Char} (hw : ∀ d ∈ word, Plain d) :
    word <:+: lowered ↔ word <:+: s.map Char.toLower := by
  cases word with
  | nil => simp
  | cons d word =>
    obtain ⟨hd, -⟩ := List.forall_mem_cons.mp hw
    induction h with
    | nil => rfl
    | @cons c form rest lowered hform hrest ih =>
      rw [List.map_cons, List.infix_cons_iff]
      by_cases hc : c.toLower = d
      · have hprefix := (Lowered.cons hform hrest).prefix_iff hw
        rw [hform.eq_singleton hd hc, List.singleton_append] at hprefix ⊢
        rw [List.infix_cons_iff, hprefix, ih, List.map_cons]
      -- The word does not start in this small form, so it stands wholly behind it.
      · rw [infix_append_iff_of_notMem (hform.notMem hd hc), ih, List.cons_prefix_cons]
        simp [Ne.symm hc]

end

theorem mentions_iff {word : String} (hw : ∀ d ∈ word.toList, Plain d) (line : List Char) :
    mentions word line = true ↔ word.toList <:+: line.map Char.toLower := by
  rw [mentions, holdsWord_iff, (lowered_lower line).infix_iff hw]

end BlockPurge.Text
