import BlockPurge.Text.Blank
import BlockPurge.Text.Lines
import Mathlib.Data.List.DropRight

/-!
# Lines and trimming

The lines of a text hold no newline, and lines that are each ended by one are found again. A text is
cut into its lines in one way only. Trimming finds nothing to do in what was trimmed before. A
trimmed line does not end in a carriage return, so cutting it out of a text and trimming it again
leaves it as it is.
-/
namespace BlockPurge.Text

/-! ## Trimming -/

theorem trim_subset (s : List Char) : trim s ⊆ s := fun _ hc =>
  (List.dropWhile_sublist isBlank).mem ((List.rdropWhile_prefix isBlank _).mem hc)

private theorem trimStart_trimEnd {s : List Char} (h : trimStart s = s) :
    trimStart (trimEnd s) = trimEnd s := by
  apply List.dropWhile_eq_self_iff.mpr
  intro hl
  have hp : trimEnd s <+: s := List.rdropWhile_prefix isBlank s
  have hlen : 0 < s.length := Nat.lt_of_lt_of_le hl hp.length_le
  have hs := List.dropWhile_eq_self_iff.mp h hlen
  rwa [hp.getElem hl]

theorem trimStart_trim (s : List Char) : trimStart (trim s) = trim s :=
  trimStart_trimEnd (List.dropWhile_idempotent isBlank s)

/-- What was trimmed is trimmed. -/
theorem trim_trim (s : List Char) : trim (trim s) = trim s := by
  calc trim (trim s) = trimEnd (trim s) := congrArg trimEnd (trimStart_trim s)
    _ = trim s := List.rdropWhile_idempotent isBlank (trimStart s)

/-- A text without white space at either end. -/
def IsBare (s : List Char) : Prop :=
  (∀ c, s.head? = some c → isBlank c = false) ∧ ∀ c, s.getLast? = some c → isBlank c = false

theorem trimStart_eq_self_iff {s : List Char} :
    trimStart s = s ↔ ∀ c, s.head? = some c → isBlank c = false := by
  rw [trimStart, List.dropWhile_eq_self_iff]
  cases s <;> simp

theorem trimEnd_eq_self_iff {s : List Char} :
    trimEnd s = s ↔ ∀ c, s.getLast? = some c → isBlank c = false := by
  rw [trimEnd, List.reverse_eq_iff, trimStart_eq_self_iff, List.head?_reverse]

/-- Trimming finds nothing to do exactly in a text without white space at its ends. -/
theorem trim_eq_self_iff {s : List Char} : trim s = s ↔ IsBare s := by
  constructor
  · intro h
    have hs : trimStart s = s := by
      rw [← h]
      exact trimStart_trim s
    have he : trimEnd s = s := by
      rwa [trim, hs] at h
    exact ⟨trimStart_eq_self_iff.mp hs, trimEnd_eq_self_iff.mp he⟩
  · intro h
    rw [trim, trimStart_eq_self_iff.mpr h.1, trimEnd_eq_self_iff.mpr h.2]

/-- White space at the end of a text does not count. -/
theorem trim_concat_blank (s : List Char) {c : Char} (hc : isBlank c = true) :
    trim (s ++ [c]) = trim s := by
  have hend : ∀ t : List Char, trimEnd (t ++ [c]) = trimEnd t := by
    intro t
    simp [trimEnd, trimStart, hc]
  have hstart : trimStart (s ++ [c]) = trimStart s ++ [c] ∨
      trimStart s = [] ∧ trimStart (s ++ [c]) = [] := by
    simp only [trimStart, List.dropWhile_append]
    split
    · rename_i he
      exact .inr ⟨List.isEmpty_iff.mp he, by simp [hc]⟩
    · exact .inl rfl
  unfold trim
  rcases hstart with h | ⟨h, h'⟩
  · rw [h, hend]
  · rw [h, h']

theorem trim_append_blank (s : List Char) {behind : List Char}
    (h : ∀ c ∈ behind, isBlank c = true) : trim (s ++ behind) = trim s := by
  induction behind generalizing s with
  | nil => rw [List.append_nil]
  | cons c rest ih =>
    obtain ⟨hc, hr⟩ := List.forall_mem_cons.mp h
    rw [List.append_cons, ih _ hr, trim_concat_blank s hc]

theorem trim_blank_append {before : List Char} (h : ∀ c ∈ before, isBlank c = true)
    (s : List Char) : trim (before ++ s) = trim s := by
  rw [trim, trimStart, List.dropWhile_append_of_pos h]
  rfl

/-- Trimming takes white space from the ends and nothing else. -/
theorem exists_trim (s : List Char) :
    ∃ before behind, s = before ++ trim s ++ behind ∧ ∀ c ∈ before ++ behind, isBlank c = true := by
  refine ⟨s.takeWhile isBlank, ((trimStart s).reverse.takeWhile isBlank).reverse, ?_, ?_⟩
  · have hend : trim s ++ ((trimStart s).reverse.takeWhile isBlank).reverse = trimStart s := by
      rw [trim, trimEnd, trimStart, ← List.reverse_append, List.takeWhile_append_dropWhile,
        List.reverse_reverse]
    rw [List.append_assoc, hend]
    exact List.takeWhile_append_dropWhile.symm
  · intro c hc
    rcases List.mem_append.mp hc with hc | hc
    · exact List.mem_takeWhile_imp hc
    · exact List.mem_takeWhile_imp (List.mem_reverse.mp hc)

/-! ## Cutting into lines -/

/-- Every text is a line without a newline, or has such a line and a newline in front of another
text. -/
theorem line_cases (s : List Char) :
    '\n' ∉ s ∨ ∃ line rest, '\n' ∉ line ∧ s = line ++ '\n' :: rest := by
  by_cases h : '\n' ∈ s
  · obtain ⟨line, rest, rfl, hline⟩ := List.eq_append_cons_of_mem h
    exact .inr ⟨line, rest, hline, rfl⟩
  · exact .inl h

theorem pieces_ended {line : List Char} (h : '\n' ∉ line) (rest : List Char) :
    pieces (line ++ '\n' :: rest) = (line :: (pieces rest).1, (pieces rest).2) := by
  induction line with
  | nil =>
    rw [List.nil_append, pieces]
    obtain ⟨ended, last⟩ := pieces rest
    cases ended <;> simp
  | cons c line ih =>
    obtain ⟨hc, hl⟩ := not_or.mp fun hm => h (List.mem_cons.mpr hm)
    rw [List.cons_append, pieces, ih hl]
    simp [Ne.symm hc]

theorem pieces_flatMap {ls : List (List Char)} (h : ∀ line ∈ ls, '\n' ∉ line) :
    pieces (ls.flatMap (· ++ ['\n'])) = (ls, []) := by
  induction ls with
  | nil => rfl
  | cons line rest ih =>
    obtain ⟨hl, hr⟩ := List.forall_mem_cons.mp h
    rw [List.flatMap_cons, List.append_assoc, List.singleton_append, pieces_ended hl, ih hr]

theorem pieces_unended {line : List Char} (h : '\n' ∉ line) : pieces line = ([], line) := by
  induction line with
  | nil => rfl
  | cons c rest ih =>
    obtain ⟨hc, hr⟩ := not_or.mp fun hm => h (List.mem_cons.mpr hm)
    simp [pieces, ih hr, Ne.symm hc]

theorem pieces_join (s : List Char) : (pieces s).1.flatMap (· ++ ['\n']) ++ (pieces s).2 = s := by
  induction s with
  | nil => rfl
  | cons c rest ih =>
    rw [pieces]
    generalize pieces rest = found at ih ⊢
    obtain ⟨ended, last⟩ := found
    by_cases hc : c = '\n'
    · cases ended <;> simp [hc, ← ih]
    · cases ended <;> simp [hc, ← ih]

/-- Ending the last line of a text turns what follows the last newline into a line. -/
theorem pieces_concat_newline (s : List Char) :
    pieces (s ++ ['\n']) = ((pieces s).1 ++ [(pieces s).2], []) := by
  induction s with
  | nil => rfl
  | cons c rest ih =>
    rw [List.cons_append, pieces, ih, pieces]
    generalize pieces rest = found
    obtain ⟨ended, last⟩ := found
    by_cases hc : c = '\n'
    · cases ended <;> simp [hc]
    · cases ended <;> simp [hc]

/-- No piece of a text holds a newline. -/
theorem notMem_pieces (s : List Char) :
    (∀ line ∈ (pieces s).1, '\n' ∉ line) ∧ '\n' ∉ (pieces s).2 := by
  induction s with
  | nil => simp [pieces]
  | cons c rest ih =>
    rw [pieces]
    generalize pieces rest = found at ih ⊢
    obtain ⟨ended, last⟩ := found
    obtain ⟨he, hl⟩ := ih
    by_cases hc : c = '\n'
    · cases ended with
      | nil => simpa [hc] using hl
      | cons line more => simpa [hc] using ⟨by simpa using he, hl⟩
    · cases ended with
      | nil => simpa [hc, Ne.symm hc] using hl
      | cons line more => simpa [hc, Ne.symm hc] using ⟨by simpa using he, hl⟩

/-- No line of a text holds a newline. -/
theorem notMem_of_mem_lines {s line : List Char} (h : line ∈ lines s) : '\n' ∉ line := by
  obtain ⟨he, hl⟩ := notMem_pieces s
  rcases List.mem_append.mp h with h | h
  · obtain ⟨piece, hm, rfl⟩ := List.mem_map.mp h
    unfold dropReturn
    split
    · exact fun hn => he piece hm (List.dropLast_subset piece hn)
    · exact he piece hm
  · split at h
    · simp at h
    · have heq := List.mem_singleton.mp h
      subst heq
      exact hl

/-- Lines that are each ended by a newline are found again, but for a carriage return at their ends.
-/
theorem lines_flatMap {ls : List (List Char)} (h : ∀ line ∈ ls, '\n' ∉ line) :
    lines (ls.flatMap (· ++ ['\n'])) = ls.map dropReturn := by
  rw [lines, pieces_flatMap h]
  exact List.append_nil _

/-- A text is made of lines. Each is ended by a newline, or by a carriage return and a newline; the
last one may be ended by nothing, and is not empty then. -/
inductive CutInto : List Char → List (List Char) → Prop
  | nil : CutInto [] []
  | unended {line : List Char} : line ≠ [] → '\n' ∉ line → CutInto line [line]
  | ended {line rest : List Char} {ls : List (List Char)} :
      '\n' ∉ line → line.getLast? ≠ some '\r' → CutInto rest ls →
      CutInto (line ++ '\n' :: rest) (line :: ls)
  | returned {line rest : List Char} {ls : List (List Char)} :
      '\n' ∉ line → CutInto rest ls → CutInto (line ++ '\r' :: '\n' :: rest) (line :: ls)

theorem lines_ended {line : List Char} (h : '\n' ∉ line) (rest : List Char) :
    lines (line ++ '\n' :: rest) = dropReturn line :: lines rest := by
  rw [lines, pieces_ended h]
  rfl

theorem lines_unended {line : List Char} (h : '\n' ∉ line) (hne : line ≠ []) :
    lines line = [line] := by
  simp [lines, pieces_unended h, hne]

/-- A text is cut into its lines in one way only. -/
theorem CutInto.eq_lines {s : List Char} {ls : List (List Char)} (h : CutInto s ls) :
    ls = lines s := by
  induction h with
  | nil => rfl
  | unended hne hl => rw [lines_unended hl hne]
  | ended hl hr _ ih => rw [lines_ended hl, dropReturn, if_neg hr, ih]
  | @returned line rest ls hl _ ih =>
    have hended : '\n' ∉ line ++ ['\r'] := by simp [hl]
    rw [List.append_cons, lines_ended hended, ih]
    simp [dropReturn]

theorem cutInto_lines (s : List Char) : CutInto s (lines s) := by
  induction hn : s.length using Nat.strong_induction_on generalizing s with
  | _ n ih =>
    rcases line_cases s with hs | ⟨line, rest, hline, rfl⟩
    · cases s with
      | nil => exact .nil
      | cons c rest =>
        rw [lines_unended hs (by simp)]
        exact .unended (by simp) hs
    · have hlt : rest.length < n := by
        rw [← hn, List.length_append, List.length_cons]
        omega
      have hrest := ih rest.length hlt rest rfl
      rw [lines_ended hline, dropReturn]
      split
      · rename_i hr
        obtain ⟨front, rfl⟩ := List.getLast?_eq_some_iff.mp hr
        rw [List.dropLast_concat, List.append_assoc]
        exact .returned (fun hm => hline (List.mem_append_left _ hm)) hrest
      · rename_i hr
        exact .ended hline hr hrest

theorem cutInto_iff {s : List Char} {ls : List (List Char)} : CutInto s ls ↔ ls = lines s :=
  ⟨CutInto.eq_lines, fun h => h ▸ cutInto_lines s⟩

theorem dropReturn_of_trim {line : List Char} (h : trim line = line) : dropReturn line = line :=
  if_neg fun hr => absurd ((trim_eq_self_iff.mp h).2 '\r' hr) (by decide)

/-! ## Lines put back on one line -/

theorem toList_oneLine_cut (items : List String) (n : Nat) :
    (oneLine items (some n)).toList = (" | ".intercalate items).toList.take n := by
  rw [oneLine, cut, String.toList_ofList]

theorem oneLine_whole (items : List String) : oneLine items none = " | ".intercalate items :=
  rfl

end BlockPurge.Text
