import BlockPurge.Erase
import BlockPurge.Proofs.Text.Case
import BlockPurge.Proofs.Text.Lines

/-!
# What a summary keeps of an output

A summary has three parts. The status is the exit status in decimal, or says that a signal ended the
process. The elapsed times are all lines of standard output with the word, in the order in which
they were printed. The errors are the lines of standard error from the start, cut behind a character
if they are too long. So nothing is shown that was not printed, and what is left out is known.
-/
namespace BlockPurge

namespace Text

/-- A line has a small word in it, if capitals of ASCII count as small letters. -/
def HasWord (word line : String) : Prop :=
  word.toList <:+: line.toList.map Char.toLower

instance (word line : String) : Decidable (HasWord word line) :=
  inferInstanceAs (Decidable (word.toList <:+: line.toList.map Char.toLower))

theorem cutInto_linesOf {s : String} {ls : List (List Char)} :
    CutInto s.toList ls ↔ ls = (linesOf s).map String.toList := by
  rw [cutInto_iff, linesOf, List.map_map]
  have hmap : (lines s.toList).map (String.toList ∘ String.ofList) = lines s.toList :=
    (List.map_congr_left fun _ _ => String.toList_ofList).trans (List.map_id _)
  rw [hmap]

end Text

/-- The digits of a whole number, behind a sign if it is below zero. -/
def decimal (i : Int) : List Char :=
  (if i < 0 then ['-'] else []) ++ Nat.toDigits 10 i.natAbs

theorem toList_toString_int (i : Int) : (toString i).toList = decimal i := by
  cases i with
  | ofNat n =>
    have hsign : ¬ Int.ofNat n < 0 := Int.not_lt.mpr (Int.natCast_nonneg n)
    rw [decimal, if_neg hsign, List.nil_append]
    exact String.toList_ofList
  | negSucc n =>
    have htext : toString (Int.negSucc n) = "-" ++ Nat.repr (n + 1) := rfl
    simp [decimal, htext, Nat.repr]

theorem notMem_decimal {c : Char} (hc : c ≠ '-') (hd : c.isDigit = false) (i : Int) :
    c ∉ decimal i := by
  intro hm
  rcases List.mem_append.mp hm with hm | hm
  · split at hm
    · exact hc (List.mem_singleton.mp hm)
    · cases hm
  · have hdigit := Nat.isDigit_of_mem_toDigits (by decide) (by decide) hm
    rw [hd] at hdigit
    cases hdigit

namespace Output

theorem elapsed_plain : ∀ d ∈ "elapsed".toList, Text.Plain d := by
  simp [Text.Plain]

/-- The lines with elapsed times are all lines of standard output that have the word. -/
theorem elapsedLines_eq (o : Output) :
    o.elapsedLines = (Text.linesOf o.stdout).filter (Text.HasWord "elapsed") := by
  rw [elapsedLines, Text.linesOf, List.filter_map]
  refine congrArg _ (List.filter_congr fun line _ => ?_)
  rw [Bool.eq_iff_iff, Text.mentions_iff elapsed_plain]
  simp [Text.HasWord]

/-- No exit status reads like the word for a signal. -/
theorem exitText_eq_signal_iff (o : Output) : o.exitText = "signal" ↔ o.exit = none := by
  unfold exitText
  cases o.exit with
  | none => simp
  | some code =>
    refine ⟨fun h => ?_, fun h => by cases h⟩
    have hword : "signal".toList = decimal code :=
      (congrArg String.toList h).symm.trans (toList_toString_int code)
    have hs : 's' ∈ decimal code := hword ▸ by decide
    exact absurd hs (notMem_decimal (by decide) (by decide) code)

/-- What the summary of an output says whose streams have given lines, `shown` being what it shows
of standard error. -/
structure Summarizes (o : Output) (printed errors : List String) (shown : String) : Prop where
  /-- The streams are cut into these lines and no others. -/
  printedLines : ∀ ls, Text.CutInto o.stdout.toList ls ↔ ls = printed.map String.toList
  errorLines : ∀ ls, Text.CutInto o.stderr.toList ls ↔ ls = errors.map String.toList
  elapsed : o.elapsedLines = printed.filter (Text.HasWord "elapsed")
  /-- To have the word in lower case comes to the same, whichever small forms are taken. -/
  folded : ∀ line lowered, Text.Lowered line.toList lowered →
    ("elapsed".toList <:+: lowered ↔ Text.HasWord "elapsed" line)
  parts : o.summary = "rcode: " ++ o.exitText ++ ", out: '" ++ " | ".intercalate o.elapsedLines ++
    "', err: '" ++ shown ++ "'"
  signal : o.exitText = "signal" ↔ o.exit = none
  status : ∀ code, o.exit = some code → o.exitText.toList = decimal code
  /-- What is shown of the errors is the start of them, cut between two characters. -/
  start : ∃ hidden, " | ".intercalate errors = shown ++ hidden
  length : shown.length = min 110 (" | ".intercalate errors).length
  whole : (" | ".intercalate errors).length ≤ 110 → shown = " | ".intercalate errors

/-- **A summary neither loses nor invents lines.** -/
theorem summary_summarizes (o : Output) :
    Summarizes o (Text.linesOf o.stdout) (Text.linesOf o.stderr)
      (Text.oneLine (Text.linesOf o.stderr) (some shownErrors)) := by
  have hcut := Text.toList_oneLine_cut (Text.linesOf o.stderr) shownErrors
  constructor
  case printedLines => exact fun _ => Text.cutInto_linesOf
  case errorLines => exact fun _ => Text.cutInto_linesOf
  case elapsed => exact o.elapsedLines_eq
  case folded => exact fun _ _ lowered => lowered.infix_iff elapsed_plain
  case parts =>
    rw [← Text.oneLine_whole]
    rfl
  case signal => exact o.exitText_eq_signal_iff
  case status =>
    intro code hcode
    rw [exitText, hcode]
    exact toList_toString_int code
  case start =>
    refine ⟨String.ofList ((" | ".intercalate (Text.linesOf o.stderr)).toList.drop shownErrors), ?_⟩
    rw [← String.toList_inj, String.toList_append, hcut, String.toList_ofList,
      List.take_append_drop]
  case length =>
    rw [← String.length_toList, hcut, List.length_take, String.length_toList]
    rfl
  case whole =>
    intro hshort
    rw [← String.toList_inj, hcut]
    exact List.take_of_length_le hshort

/-- The word counts in capitals as well, part of it does not, and a carriage return belongs to the
end of its line. -/
example : (⟨some 3, "Time ELAPSED: 1\r\nelapsed\nlapsed\n", "a\r\nb"⟩ : Output).summary =
    "rcode: 3, out: 'Time ELAPSED: 1 | elapsed', err: 'a | b'" := by
  decide +kernel

end Output

end BlockPurge
