import BlockPurge.Json.Skip
import BlockPurge.Proofs.Json.Quoted

/-!
# Values passed over

The grammar of JSON values, over texts: words, numbers, strings, and lists and objects of values
with white space around every token. Whatever value a text starts with, it is passed over as a whole
and nothing behind it is touched, to any depth of nesting. A number has to be followed by something
that does not go on with it; every other value shows its own end.
-/
namespace BlockPurge.Json

/-! ## White space -/

/-- A text of nothing but white space. -/
def Spaces (s : List Char) : Prop :=
  ∀ c ∈ s, isSpace c = true

theorem spaces_nil : Spaces [] :=
  List.forall_mem_nil _

theorem skipSpace_append {s : List Char} (h : Spaces s) (t : List Char) :
    skipSpace (s ++ t) = skipSpace t :=
  List.dropWhile_append_of_pos h

theorem skipSpace_cons {c : Char} (h : isSpace c = false) (t : List Char) :
    skipSpace (c :: t) = c :: t :=
  List.dropWhile_cons_of_neg (by simp [h])

/-! ## The grammar -/

def Digits (s : List Char) : Prop :=
  ∀ c ∈ s, isDigit c = true

/-- The digits of a number before the point: a zero alone, or digits that start with another one. -/
inductive Whole : List Char → Prop
  | zero : Whole ['0']
  | digits {d : Char} {s : List Char} : isDigit d = true → d ≠ '0' → Digits s → Whole (d :: s)

inductive Fraction : List Char → Prop
  | none : Fraction []
  | digits {s : List Char} : s ≠ [] → Digits s → Fraction ('.' :: s)

inductive Exponent : List Char → Prop
  | none : Exponent []
  | digits {mark : Char} {sign s : List Char} : mark = 'e' ∨ mark = 'E' →
      sign ∈ [[], ['+'], ['-']] → s ≠ [] → Digits s → Exponent (mark :: (sign ++ s))

inductive Numeric : List Char → Prop
  | intro {sign whole fraction exponent : List Char} : sign = [] ∨ sign = ['-'] → Whole whole →
      Fraction fraction → Exponent exponent → Numeric (sign ++ (whole ++ (fraction ++ exponent)))

/-- The three words that are values. -/
def words : List (List Char) :=
  ["null".toList, "true".toList, "false".toList]

/-- A text between brackets or commas, taken apart: white space, a value, white space. -/
structure Item where
  before : List Char
  value : List Char
  after : List Char

def Item.text (i : Item) : List Char :=
  i.before ++ (i.value ++ i.after)

def Item.Spaced (i : Item) : Prop :=
  Spaces i.before ∧ Spaces i.after

/-- A member of an object, taken apart: its name without the quotation marks, its value, and the
white space around them, around the colon and around the member. -/
structure Member where
  before : List Char
  name : List Char
  behind : List Char
  item : Item

def Member.text (m : Member) : List Char :=
  m.before ++ (quote :: (m.name ++ (quote :: (m.behind ++ (':' :: m.item.text)))))

def Member.Spaced (m : Member) : Prop :=
  Spaces m.before ∧ Spaces m.behind ∧ m.item.Spaced

/-- Texts with commas between them. -/
def commas (texts : List (List Char)) : List Char :=
  [','].intercalate texts

/-- Texts that are JSON values, from their first character to their last. -/
inductive Value : List Char → Prop
  | word {s : List Char} : s ∈ words → Value s
  | number {s : List Char} : Numeric s → Value s
  | string {s : List Char} {units : List StringUnit} : Interior s units →
      Value (quote :: (s ++ [quote]))
  | emptyList {s : List Char} : Spaces s → Value ('[' :: (s ++ [']']))
  | list {first : Item} {rest : List Item} :
      (∀ i ∈ first :: rest, i.Spaced) → (∀ i ∈ first :: rest, Value i.value) →
      Value ('[' :: (commas ((first :: rest).map Item.text) ++ [']']))
  | emptyObject {s : List Char} : Spaces s → Value ('\x7b' :: (s ++ ['\x7d']))
  | object {first : Member} {rest : List Member} :
      (∀ m ∈ first :: rest, m.Spaced) →
      (∀ m ∈ first :: rest, ∃ units, Interior m.name units) →
      (∀ m ∈ first :: rest, Value m.item.value) →
      Value ('\x7b' :: (commas ((first :: rest).map Member.text) ++ ['\x7d']))

theorem commas_cons (first : List Char) (rest : List (List Char)) :
    commas (first :: rest) = first ++ rest.flatMap (',' :: ·) := by
  induction rest generalizing first with
  | nil => simp [commas, List.intercalate]
  | cons next rest ih =>
    have hstep : commas (first :: next :: rest) = first ++ (',' :: commas (next :: rest)) := by
      simp [commas, List.intercalate]
    rw [hstep, ih, List.flatMap_cons, List.cons_append]

theorem isDigit_ne {c d : Char} (h : isDigit c = true) (hd : isDigit d = false) : c ≠ d := by
  rintro rfl
  rw [h] at hd
  cases hd

theorem isSpace_of_isDigit {c : Char} (h : isDigit c = true) : isSpace c = false := by
  simp [isSpace, isDigit_ne h (d := ' ') rfl, isDigit_ne h (d := '\t') rfl,
    isDigit_ne h (d := '\n') rfl, isDigit_ne h (d := '\r') rfl]

theorem Whole.head {s : List Char} (h : Whole s) : ∃ c rest, s = c :: rest ∧ isDigit c = true := by
  cases h with
  | zero => exact ⟨'0', [], rfl, rfl⟩
  | digits hd _ _ => exact ⟨_, _, rfl, hd⟩

theorem Numeric.head {s : List Char} (h : Numeric s) :
    ∃ c rest, s = c :: rest ∧ (c = '-' ∨ isDigit c = true) := by
  obtain ⟨hsign, hwhole, -, -⟩ := h
  obtain ⟨c, rest, rfl, hc⟩ := hwhole.head
  rcases hsign with rfl | rfl
  · exact ⟨c, _, rfl, .inr hc⟩
  · exact ⟨'-', _, rfl, .inl rfl⟩

/-- A value starts with a character that is no white space and ends no list. -/
theorem Value.head {v : List Char} (h : Value v) :
    ∃ c rest, v = c :: rest ∧ isSpace c = false ∧ c ≠ ']' := by
  cases h with
  | word hm =>
    have hall : ∀ s ∈ words, ∃ rest, s = s.headD ' ' :: rest ∧ isSpace (s.headD ' ') = false ∧
        s.headD ' ' ≠ ']' := by simp [words, isSpace]
    obtain ⟨rest, he, hc⟩ := hall v hm
    exact ⟨_, rest, he, hc⟩
  | number hn =>
    obtain ⟨c, rest, rfl, rfl | hc⟩ := hn.head
    · exact ⟨'-', rest, rfl, rfl, by decide⟩
    · exact ⟨c, rest, rfl, isSpace_of_isDigit hc, isDigit_ne hc rfl⟩
  | string => exact ⟨quote, _, rfl, rfl, by decide⟩
  | emptyList => exact ⟨'[', _, rfl, rfl, by decide⟩
  | list => exact ⟨'[', _, rfl, rfl, by decide⟩
  | emptyObject => exact ⟨'\x7b', _, rfl, rfl, by decide⟩
  | object => exact ⟨'\x7b', _, rfl, rfl, by decide⟩

/-! ## Passing over -/

/-- Characters that a mode stays in are passed over one by one. -/
theorem skipFrom_run {P : Char → Prop} {mode : Mode} {brackets : List Bracket}
    (stays : ∀ c rest, P c → mode.step brackets c rest = .on mode brackets) {s : List Char}
    (h : ∀ c ∈ s, P c) (t : List Char) :
    skipFrom mode brackets (s ++ t) = skipFrom mode brackets t := by
  induction s with
  | nil => rfl
  | cons c rest ih =>
    obtain ⟨hc, hr⟩ := List.forall_mem_cons.mp h
    rw [List.cons_append, skipFrom, stays c _ hc]
    exact ih hr

section
variable {s t : List Char} {brackets : List Bracket}

theorem skipFrom_cons {mode : Mode} (next : Mode) (brackets' : List Bracket) {c : Char}
    (h : mode.step brackets c t = .on next brackets') :
    skipFrom mode brackets (c :: t) = skipFrom next brackets' t := by
  rw [skipFrom, h]

/-- The modes that white space leaves as they are. -/
theorem skipFrom_spaces (h : Spaces s) (mode : Mode)
    (hm : mode ∈ [.value, .firstItem, .firstName, .name, .colon] ∨
      mode = .after ∧ brackets ≠ []) :
    skipFrom mode brackets (s ++ t) = skipFrom mode brackets t := by
  refine skipFrom_run (fun c rest hc => ?_) h t
  rcases hm with hm | ⟨rfl, hb⟩
  · simp only [List.mem_cons, List.not_mem_nil, or_false] at hm
    rcases hm with rfl | rfl | rfl | rfl | rfl <;> simp [Mode.step, hc]
  · cases brackets with
    | nil => exact absurd rfl hb
    | cons bracket outer => cases bracket <;> simp [Mode.step, Mode.behind, hc]

/-! ### Numbers -/

/-- A text that does not go on with a number. -/
def Ends (t : List Char) : Prop :=
  ∀ c ∈ t.head?, isDigit c = false ∧ c ≠ '.' ∧ c ≠ 'e' ∧ c ≠ 'E'

theorem Ends.spaces (h : Spaces s) (ht : Ends t) : Ends (s ++ t) := by
  cases s with
  | nil => exact ht
  | cons c rest =>
    have hc := h c List.mem_cons_self
    rintro _ ⟨⟩
    have hspace : ∀ d, isSpace d = false → c ≠ d := by
      rintro d hd rfl
      rw [hc] at hd
      cases hd
    simp only [isSpace, Bool.or_eq_true, beq_iff_eq] at hc
    refine ⟨?_, hspace _ rfl, hspace _ rfl, hspace _ rfl⟩
    rcases hc with ((rfl | rfl) | rfl) | rfl <;> rfl

theorem skipFrom_digits {mode : Mode} (hm : mode ∈ [.whole, .fraction, .exponent])
    (h : Digits s) : skipFrom mode brackets (s ++ t) = skipFrom mode brackets t := by
  refine skipFrom_run (fun c rest hc => ?_) h t
  simp only [List.mem_cons, List.not_mem_nil, or_false] at hm
  rcases hm with rfl | rfl | rfl <;> simp [Mode.step, Mode.digit, hc]

theorem skipFrom_whole {mode : Mode} (hm : mode = .value ∨ mode = .minus) (h : Whole s) :
    ∃ next ∈ [Mode.zero, .whole], ∀ brackets t,
      skipFrom mode brackets (s ++ t) = skipFrom next brackets t := by
  cases h with
  | zero =>
    refine ⟨.zero, by simp, fun brackets t => ?_⟩
    rcases hm with rfl | rfl <;> rfl
  | @digits d s hd hzero hs =>
    refine ⟨.whole, by simp, fun brackets t => ?_⟩
    rw [List.cons_append, skipFrom_cons .whole brackets, skipFrom_digits (by simp) hs]
    rcases hm with rfl | rfl
    · simp [Mode.step, Mode.start, isSpace_of_isDigit hd, hd, hzero, isDigit_ne hd (d := quote) rfl,
        isDigit_ne hd (d := '-') rfl]
    · simp [Mode.step, Mode.digit, hd, hzero]

theorem skipFrom_fraction {mode : Mode} (hm : mode ∈ [.zero, .whole]) (h : Fraction s) :
    ∃ next ∈ [Mode.zero, .whole, .fraction], ∀ brackets t,
      skipFrom mode brackets (s ++ t) = skipFrom next brackets t := by
  simp only [List.mem_cons, List.not_mem_nil, or_false] at hm
  cases h with
  | none => exact ⟨mode, by rcases hm with rfl | rfl <;> simp, fun _ _ => rfl⟩
  | digits hne hs =>
    refine ⟨.fraction, by simp, fun brackets t => ?_⟩
    obtain ⟨d, rest, rfl⟩ := List.exists_cons_of_ne_nil hne
    obtain ⟨hd, hrest⟩ := List.forall_mem_cons.mp hs
    rw [List.cons_append, skipFrom_cons .point brackets, List.cons_append,
      skipFrom_cons .fraction brackets, skipFrom_digits (by simp) hrest]
    · simp [Mode.step, Mode.digit, hd]
    · rcases hm with rfl | rfl <;> simp [Mode.step, Mode.digit, isDigit]

theorem skipFrom_exponent {mode : Mode} (hm : mode ∈ [.zero, .whole, .fraction])
    (h : Exponent s) : ∃ next ∈ [Mode.zero, .whole, .fraction, .exponent], ∀ brackets t,
      skipFrom mode brackets (s ++ t) = skipFrom next brackets t := by
  simp only [List.mem_cons, List.not_mem_nil, or_false] at hm
  cases h with
  | none => exact ⟨mode, by rcases hm with rfl | rfl | rfl <;> simp, fun _ _ => rfl⟩
  | @digits mark sign s hmark hsign hne hs =>
    refine ⟨.exponent, by simp, fun brackets t => ?_⟩
    obtain ⟨d, rest, rfl⟩ := List.exists_cons_of_ne_nil hne
    obtain ⟨hd, hrest⟩ := List.forall_mem_cons.mp hs
    have first : ∀ next, next = Mode.power ∨ next = .powerSign →
        skipFrom next brackets (d :: (rest ++ t)) = skipFrom .exponent brackets t := by
      intro next hnext
      rw [skipFrom_cons .exponent brackets, skipFrom_digits (by simp) hrest]
      rcases hnext with rfl | rfl <;> simp [Mode.step, Mode.digit, hd]
    rw [List.cons_append, skipFrom_cons .power brackets]
    · simp only [List.mem_cons, List.not_mem_nil, or_false] at hsign
      rcases hsign with rfl | rfl | rfl
      · exact first .power (.inl rfl)
      · exact first .powerSign (.inr rfl)
      · exact first .powerSign (.inr rfl)
    · rcases hmark with rfl | rfl <;> rcases hm with rfl | rfl | rfl <;>
        simp [Mode.step, Mode.digit, isDigit]

/-- What does not go on with a number ends it. -/
theorem skipFrom_ended {mode : Mode} (hm : mode ∈ [.zero, .whole, .fraction, .exponent])
    (ht : Ends t) : skipFrom mode brackets t = skipFrom .after brackets t := by
  simp only [List.mem_cons, List.not_mem_nil, or_false] at hm
  cases t with
  | nil => rcases hm with rfl | rfl | rfl | rfl <;> rfl
  | cons c rest =>
    obtain ⟨hd, hp, he, hE⟩ := ht c rfl
    have hstep : mode.step brackets c rest = Mode.after.step brackets c rest := by
      rcases hm with rfl | rfl | rfl | rfl <;> simp [Mode.step, Mode.digit, hd, hp, he, hE]
    rw [skipFrom, skipFrom, hstep]

theorem skipFrom_numeric (h : Numeric s) (ht : Ends t) :
    skipFrom .value brackets (s ++ t) = skipFrom .after brackets t := by
  obtain ⟨hsign, hwhole, hfraction, hexponent⟩ := h
  have unsigned : ∀ mode, mode = Mode.value ∨ mode = .minus → ∀ {whole fraction exponent},
      Whole whole → Fraction fraction → Exponent exponent →
      skipFrom mode brackets (whole ++ (fraction ++ exponent) ++ t) =
        skipFrom .after brackets t := by
    intro mode hm whole fraction exponent hw hf he
    obtain ⟨next, hnext, hwhole⟩ := skipFrom_whole hm hw
    obtain ⟨next, hnext, hfraction⟩ := skipFrom_fraction hnext hf
    obtain ⟨next, hnext, hexponent⟩ := skipFrom_exponent hnext he
    rw [List.append_assoc, List.append_assoc, hwhole, hfraction, hexponent, skipFrom_ended hnext ht]
  rcases hsign with rfl | rfl
  · rw [List.nil_append]
    exact unsigned .value (.inl rfl) hwhole hfraction hexponent
  · rw [List.cons_append, List.nil_append, List.cons_append,
      skipFrom_cons .minus brackets]
    · exact unsigned .minus (.inr rfl) hwhole hfraction hexponent
    · simp [Mode.step, Mode.start, isSpace, quote]

/-! ### Words and strings -/

theorem skipFrom_word (h : s ∈ words) :
    skipFrom .value brackets (s ++ t) = skipFrom .after brackets t := by
  simp only [words, List.mem_cons, List.not_mem_nil, or_false] at h
  rcases h with rfl | rfl | rfl <;> rfl

theorem skipFrom_takes {inside : Inside} {unit : StringUnit} {isName : Bool}
    (h : inside.Takes s t unit) :
    skipFrom (.string inside isName) brackets (s ++ t) =
      skipFrom (.string .plain isName) brackets t := by
  induction h with
  | last hstep =>
    exact skipFrom_cons _ _ (by simp [Mode.step, Mode.inString, hstep])
  | @more _ next _ _ _ _ hstep _ ih =>
    rw [List.cons_append, skipFrom_cons (.string next isName) brackets, ih]
    simp [Mode.step, Mode.inString, hstep]

theorem skipFrom_interior {units : List StringUnit} {isName : Bool} (h : Interior s units) :
    skipFrom (.string .plain isName) brackets (s ++ quote :: t) =
      skipFrom (if isName then .colon else .after) brackets t := by
  induction h with
  | nil => exact skipFrom_cons _ _ (by simp [Mode.step, Mode.inString, Inside.step])
  | cons hunit _ ih => rw [List.append_assoc, skipFrom_takes (hunit.takes _), ih]

/-! ### Lists and objects -/

/-- A text that is passed over as a value, whatever is open around it. -/
def Skips (v : List Char) : Prop :=
  ∀ brackets t, Ends t → skipFrom .value brackets (v ++ t) = skipFrom .after brackets t

/-- An item is passed over, with the white space around it, where a value is due. -/
theorem skipFrom_item {i : Item} (hs : i.Spaced) (hv : Skips i.value)
    (ht : Ends t) (hb : brackets ≠ []) :
    skipFrom .value brackets (i.text ++ t) = skipFrom .after brackets t := by
  rw [Item.text, List.append_assoc, List.append_assoc, skipFrom_spaces hs.1 .value (.inl (by simp)),
    hv brackets _ (ht.spaces hs.2), skipFrom_spaces hs.2 .after (.inr ⟨rfl, hb⟩)]

theorem ends_bracket {c : Char} (hc : c ∈ [',', ']', '\x7d']) (t : List Char) : Ends (c :: t) := by
  rintro _ ⟨⟩
  simp only [List.mem_cons, List.not_mem_nil, or_false] at hc
  rcases hc with rfl | rfl | rfl <;> decide

theorem ends_more {texts : List (List Char)} {closing : Char} (hc : closing ∈ [']', '\x7d'])
    (t : List Char) : Ends (texts.flatMap (',' :: ·) ++ closing :: t) := by
  cases texts with
  | nil => exact ends_bracket (List.mem_cons_of_mem _ hc) t
  | cons text rest => exact ends_bracket (by simp) _

theorem skipFrom_openList :
    skipFrom .value brackets ('[' :: t) = skipFrom .firstItem (.list :: brackets) t :=
  skipFrom_cons _ _ (by simp [Mode.step, Mode.start, isSpace, quote, isDigit])

theorem skipFrom_openObject :
    skipFrom .value brackets ('\x7b' :: t) = skipFrom .firstName (.object :: brackets) t :=
  skipFrom_cons _ _ (by simp [Mode.step, Mode.start, isSpace, quote, isDigit])

theorem skipFrom_closeList {mode : Mode} (hm : mode = .firstItem ∨ mode = .after) :
    skipFrom mode (.list :: brackets) (']' :: t) = skipFrom .after brackets t := by
  refine skipFrom_cons _ _ ?_
  rcases hm with rfl | rfl <;> simp [Mode.step, Mode.behind, isSpace]

theorem skipFrom_closeObject {mode : Mode} (hm : mode = .firstName ∨ mode = .after) :
    skipFrom mode (.object :: brackets) ('\x7d' :: t) = skipFrom .after brackets t := by
  refine skipFrom_cons _ _ ?_
  rcases hm with rfl | rfl <;> simp [Mode.step, Mode.behind, isSpace]

/-- A comma leads on to the next value of a list, or to the next name of an object. -/
theorem skipFrom_comma (bracket : Bracket) :
    skipFrom .after (bracket :: brackets) (',' :: t) =
      skipFrom (if bracket = .list then .value else .name) (bracket :: brackets) t := by
  refine skipFrom_cons _ _ ?_
  cases bracket <;> simp [Mode.step, Mode.behind, isSpace]

/-- The items of a list behind its first one, up to the end of the list. -/
theorem skipFrom_items {items : List Item} (hs : ∀ i ∈ items, i.Spaced)
    (hv : ∀ i ∈ items, Skips i.value) :
    skipFrom .after (.list :: brackets) ((items.map Item.text).flatMap (',' :: ·) ++ ']' :: t) =
      skipFrom .after brackets t := by
  induction items with
  | nil => exact skipFrom_closeList (.inr rfl)
  | cons i rest ih =>
    obtain ⟨hsi, hsr⟩ := List.forall_mem_cons.mp hs
    obtain ⟨hvi, hvr⟩ := List.forall_mem_cons.mp hv
    rw [List.map_cons, List.flatMap_cons, List.append_assoc, List.cons_append, skipFrom_comma,
      if_pos rfl, skipFrom_item hsi hvi (ends_more (by simp) t) (List.cons_ne_nil _ _), ih hsr hvr]

/-- The first item of a list is passed over like every other. -/
theorem skipFrom_firstItem {i : Item} (hs : Spaces i.before) (hv : Value i.value) :
    skipFrom .firstItem brackets (i.text ++ t) = skipFrom .value brackets (i.text ++ t) := by
  obtain ⟨c, rest, he, hspace, hclose⟩ := hv.head
  rw [Item.text, List.append_assoc, List.append_assoc, skipFrom_spaces hs .value (.inl (by simp)),
    skipFrom_spaces hs .firstItem (.inl (by simp)), he, List.cons_append]
  simp [skipFrom, Mode.step, hspace, hclose]

/-- A member is passed over where its name is due. -/
theorem skipFrom_member {m : Member} {mode : Mode} (hm : mode = .firstName ∨ mode = .name)
    (hs : m.Spaced) (hn : ∃ units, Interior m.name units) (hv : Skips m.item.value) (ht : Ends t)
    (hb : brackets ≠ []) :
    skipFrom mode brackets (m.text ++ t) = skipFrom .after brackets t := by
  obtain ⟨hbefore, hbehind, hitem⟩ := hs
  obtain ⟨units, hname⟩ := hn
  rw [Member.text, List.append_assoc,
    skipFrom_spaces hbefore mode (.inl (by rcases hm with rfl | rfl <;> simp)), List.cons_append,
    skipFrom_cons (.string .plain true) brackets, List.append_assoc, List.cons_append,
    skipFrom_interior hname, if_pos rfl, List.append_assoc,
    skipFrom_spaces hbehind .colon (.inl (by simp)), List.cons_append,
    skipFrom_cons .value brackets, skipFrom_item hitem hv ht hb]
  · simp [Mode.step, isSpace]
  · rcases hm with rfl | rfl <;> simp [Mode.step, isSpace, quote]

theorem skipFrom_members {members : List Member} (hs : ∀ m ∈ members, m.Spaced)
    (hn : ∀ m ∈ members, ∃ units, Interior m.name units)
    (hv : ∀ m ∈ members, Skips m.item.value) :
    skipFrom .after (.object :: brackets)
        ((members.map Member.text).flatMap (',' :: ·) ++ '\x7d' :: t) =
      skipFrom .after brackets t := by
  induction members with
  | nil => exact skipFrom_closeObject (.inr rfl)
  | cons m rest ih =>
    obtain ⟨hsm, hsr⟩ := List.forall_mem_cons.mp hs
    obtain ⟨hnm, hnr⟩ := List.forall_mem_cons.mp hn
    obtain ⟨hvm, hvr⟩ := List.forall_mem_cons.mp hv
    rw [List.map_cons, List.flatMap_cons, List.append_assoc, List.cons_append, skipFrom_comma,
      if_neg (by decide),
      skipFrom_member (.inr rfl) hsm hnm hvm (ends_more (by simp) t) (List.cons_ne_nil _ _),
      ih hsr hnr hvr]

end

theorem skips_string {s : List Char} {units : List StringUnit} (hs : Interior s units) :
    Skips (quote :: (s ++ [quote])) := by
  intro brackets t _
  rw [List.cons_append, List.append_assoc, skipFrom_cons (.string .plain false) brackets,
    List.singleton_append, skipFrom_interior hs]
  · rfl
  · simp [Mode.step, Mode.start, isSpace, quote]

theorem skips_list {first : Item} {rest : List Item} (hs : ∀ i ∈ first :: rest, i.Spaced)
    (hfirst : Value first.value) (hv : ∀ i ∈ first :: rest, Skips i.value) :
    Skips ('[' :: (commas ((first :: rest).map Item.text) ++ [']'])) := by
  intro brackets t _
  obtain ⟨hsf, hsr⟩ := List.forall_mem_cons.mp hs
  obtain ⟨hvf, hvr⟩ := List.forall_mem_cons.mp hv
  rw [List.map_cons, commas_cons, List.cons_append, List.append_assoc, List.append_assoc,
    List.singleton_append, skipFrom_openList, skipFrom_firstItem hsf.1 hfirst,
    skipFrom_item hsf hvf (ends_more (by simp) t) (List.cons_ne_nil _ _), skipFrom_items hsr hvr]

theorem skips_object {first : Member} {rest : List Member}
    (hs : ∀ m ∈ first :: rest, m.Spaced)
    (hn : ∀ m ∈ first :: rest, ∃ units, Interior m.name units)
    (hv : ∀ m ∈ first :: rest, Skips m.item.value) :
    Skips ('\x7b' :: (commas ((first :: rest).map Member.text) ++ ['\x7d'])) := by
  intro brackets t _
  obtain ⟨hsf, hsr⟩ := List.forall_mem_cons.mp hs
  obtain ⟨hnf, hnr⟩ := List.forall_mem_cons.mp hn
  obtain ⟨hvf, hvr⟩ := List.forall_mem_cons.mp hv
  rw [List.map_cons, commas_cons, List.cons_append, List.append_assoc, List.append_assoc,
    List.singleton_append, skipFrom_openObject,
    skipFrom_member (.inl rfl) hsf hnf hvf (ends_more (by simp) t) (List.cons_ne_nil _ _),
    skipFrom_members hsr hnr hvr]

/-- Every value is passed over as a whole. -/
theorem Value.skips {v : List Char} (h : Value v) : Skips v := by
  -- What is open around a value is left as it is, so the depth of the nesting never counts.
  induction h with
  | word hm => exact fun brackets t _ => skipFrom_word hm
  | number hn => exact fun brackets t ht => skipFrom_numeric hn ht
  | string hs => exact skips_string hs
  | emptyList hs =>
    intro brackets t _
    rw [List.cons_append, List.append_assoc, List.singleton_append, skipFrom_openList,
      skipFrom_spaces hs .firstItem (.inl (by simp)), skipFrom_closeList (.inl rfl)]
  | list hs hv ih => exact skips_list hs (hv _ List.mem_cons_self) ih
  | emptyObject hs =>
    intro brackets t _
    rw [List.cons_append, List.append_assoc, List.singleton_append, skipFrom_openObject,
      skipFrom_spaces hs .firstName (.inl (by simp)), skipFrom_closeObject (.inl rfl)]
  | object hs hn _ ih => exact skips_object hs hn ih

/-- A value at the start of a text, with white space before it, is passed over up to what follows.
-/
theorem skipValue_append {s v t : List Char} (hs : Spaces s) (hv : Value v) (ht : Ends t) :
    skipValue (s ++ (v ++ t)) = .ok t := by
  rw [skipValue, skipFrom_spaces hs .value (.inl (by simp)), hv.skips [] t ht]
  cases t with
  | nil => rfl
  | cons c rest => rfl

end BlockPurge.Json
