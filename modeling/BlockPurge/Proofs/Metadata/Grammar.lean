import BlockPurge.Proofs.Block.Literal
import BlockPurge.Proofs.Metadata.Format

/-!
# What is accepted as a metadata file

A text is accepted exactly if it has three header lines, names a device on the first of them, and
records nothing but state literals behind them. Its lines stand between newlines and count without
their surrounding white space, so a carriage return at a line end makes no difference. A text that
is not accepted is refused for its first fault: a missing header line counts before a missing
device, and that before the first line that is no literal.
-/
namespace BlockPurge

namespace Text

/-- What stands between the newlines of a text, and behind the last one unless nothing does. -/
def splitLines (s : List Char) : List (List Char) :=
  if (s.splitOn '\n').getLast? = some [] then (s.splitOn '\n').dropLast else s.splitOn '\n'

theorem splitOn_eq_pieces (s : List Char) : s.splitOn '\n' = (pieces s).1 ++ [(pieces s).2] := by
  induction s with
  | nil => simp [pieces]
  | cons c rest ih =>
    rw [List.splitOn_cons_eq_if_modifyHead, ih, pieces]
    obtain ⟨ended, last⟩ := pieces rest
    by_cases hc : c = '\n'
    · cases ended <;> simp [hc]
    · cases ended <;> simp [hc]

theorem trim_dropReturn (line : List Char) : trim (dropReturn line) = trim line := by
  unfold dropReturn
  split
  · rename_i hr
    obtain ⟨front, rfl⟩ := List.getLast?_eq_some_iff.mp hr
    rw [List.dropLast_concat, trim_concat_blank front (by decide)]
  · rfl

theorem map_trim_lines (s : List Char) : (lines s).map trim = (splitLines s).map trim := by
  have hended : ((pieces s).1.map dropReturn).map trim = (pieces s).1.map trim := by
    rw [List.map_map]
    exact List.map_congr_left fun line _ => trim_dropReturn line
  rw [lines, splitLines, splitOn_eq_pieces, List.getLast?_concat, List.dropLast_concat,
    List.map_append, hended]
  by_cases hl : (pieces s).2 = []
  · simp [hl]
  · simp [hl]

end Text

namespace Metadata

/-- The lines of a text without their surrounding white space. -/
def trimmedLines (content : String) : List String :=
  (Text.splitLines content.toList).map fun line => String.ofList (Text.trim line)

theorem rows_eq (content : String) : rows content = trimmedLines content := by
  have h := congrArg (List.map String.ofList) (Text.map_trim_lines content.toList)
  rw [List.map_map, List.map_map] at h
  exact h

/-- A line that is a state literal. -/
def IsLiteral (row : String) : Prop :=
  ∃ code ≤ 255, Literal.Spells row.toList code

/-- The lines of a metadata file. -/
structure WellFormed (rows : List String) : Prop where
  header : 3 ≤ rows.length
  device : rows[0]? ≠ some ""
  literals : ∀ i row, 3 ≤ i → rows[i]? = some row → IsLiteral row

/-- Metadata that holds what some lines say: the header, and one block for each line behind it, with
the line as its literal and the state that the literal denotes. -/
structure Records (rows : List String) (m : Metadata) : Prop where
  device : rows[0]? = some m.device
  reserved : rows[1]? = some m.reserved.1 ∧ rows[2]? = some m.reserved.2
  size : m.size = rows.length - 3
  block : ∀ n b, m.blocks[n]? = some b → rows[n + 3]? = some b.literal ∧
    ∃ code : UInt8, Literal.Spells b.literal.toList code.toNat ∧ b.state = .ofCode code

/-- The first fault of some lines: its line, counted from zero, and what is quoted of it. -/
inductive FirstFault (rows : List String) : Nat → String → Prop
  | header : rows.length < 3 → FirstFault rows rows.length ""
  | device : 3 ≤ rows.length → rows[0]? = some "" → FirstFault rows 0 ""
  | literal {i : Nat} {row : String} : 3 ≤ rows.length → rows[0]? ≠ some "" → 3 ≤ i →
      rows[i]? = some row → ¬ IsLiteral row →
      (∀ j row, 3 ≤ j → j < i → rows[j]? = some row → IsLiteral row) → FirstFault rows i row

theorem FirstFault.not_wellFormed {rows : List String} {line : Nat} {text : String}
    (h : FirstFault rows line text) : ¬ WellFormed rows := by
  intro hw
  cases h with
  | header hs => exact absurd hw.header (Nat.not_le.mpr hs)
  | device _ hd => exact hw.device hd
  | literal _ _ hi hr hn _ => exact hn (hw.literals _ _ hi hr)

/-- A trimmed line is read as a code exactly if it is a literal. -/
theorem isLiteral_iff_read {row : String} (h : Text.trim row.toList = row.toList) :
    IsLiteral row ↔ ∃ code, Literal.read row = .ok code := by
  constructor
  · intro hl
    obtain ⟨n, hn, hs⟩ := hl
    refine ⟨.ofNat n, Literal.read_eq_ok_iff.mpr ?_⟩
    rwa [h, UInt8.toNat_ofNat_of_lt' (Nat.lt_succ_of_le hn)]
  · intro hr
    obtain ⟨code, hr⟩ := hr
    have hs := Literal.read_eq_ok_iff.mp hr
    rw [h] at hs
    exact ⟨code.toNat, Nat.le_of_lt_succ code.toNat_lt, hs⟩

/-- Blocks are refused for the first line that is not read as a code. -/
theorem readBlocks_error {first : Nat} {literals : List String} {fault : ParseFault}
    (h : readBlocks first literals = .error fault) :
    ∃ i literal reason, literals[i]? = some literal ∧ Literal.read literal = .error reason ∧
      fault = .badLiteral (first + i) literal reason ∧
      ∀ j row, j < i → literals[j]? = some row → ∃ code, Literal.read row = .ok code := by
  induction literals generalizing first with
  | nil => cases h
  | cons literal rest ih =>
    rw [readBlocks, readBlock] at h
    cases hr : Literal.read literal with
    | error reason =>
      simp only [hr, Except.error.injEq] at h
      refine ⟨0, literal, reason, rfl, hr, h.symm, ?_⟩
      intro j row hj
      omega
    | ok code =>
      simp only [hr] at h
      split at h
      · rename_i later hl
        cases h
        obtain ⟨i, bad, reason, hi, hbad, rfl, hbefore⟩ := ih hl
        refine ⟨i + 1, bad, reason, hi, hbad, by rw [Nat.add_assoc, Nat.add_comm 1], ?_⟩
        intro j row hj hrow
        cases j with
        | zero => exact ⟨code, Option.some.inj hrow ▸ hr⟩
        | succ j => exact hbefore j row (Nat.lt_of_succ_lt_succ hj) hrow
      · cases h

/-- Accepted metadata holds what the lines of its text say. -/
theorem records_of_parse {content : String} {m : Metadata} (h : parse content = .ok m) :
    Records (rows content) m := by
  obtain ⟨hr, -, hs⟩ := parse_eq_ok_iff.mp h
  have hrow := (sound_of_parse h).rows
  rw [hr]
  refine ⟨rfl, ⟨rfl, rfl⟩, by simp [lines, size], ?_⟩
  intro n b hb
  have hm : b ∈ m.blocks := List.mem_of_getElem? hb
  obtain ⟨code, hread, hstate⟩ := hs b hm
  have htrim := (hrow b.literal (by simp only [lines, List.mem_cons, List.mem_map]; tauto)).trimmed
  refine ⟨?_, code, htrim ▸ Literal.read_eq_ok_iff.mp hread, hstate⟩
  simp [lines, hb]

theorem wellFormed_of_parse {content : String} {m : Metadata} (h : parse content = .ok m) :
    WellFormed (rows content) := by
  obtain ⟨hr, hd, hs⟩ := parse_eq_ok_iff.mp h
  refine ⟨by simp [hr, lines], by simpa [hr, lines] using hd, ?_⟩
  intro i row hi hrow
  rw [isLiteral_iff_read (isRow_of_mem_rows (List.mem_of_getElem? hrow)).trimmed]
  obtain ⟨n, rfl⟩ := Nat.exists_eq_add_of_le' hi
  rw [hr] at hrow
  simp only [lines, List.getElem?_cons_succ, List.getElem?_map, Option.map_eq_some_iff] at hrow
  obtain ⟨b, hb, rfl⟩ := hrow
  obtain ⟨code, hread, -⟩ := hs b (List.mem_of_getElem? hb)
  exact ⟨code, hread⟩

/-- A refused text is refused for its first fault. -/
theorem firstFault_of_parse {content : String} {fault : ParseFault}
    (h : parse content = .error fault) :
    ∃ line text reason, fault.failure = .parse line text reason ∧
      FirstFault (rows content) line text := by
  have htrim : ∀ row ∈ rows content, Text.trim row.toList = row.toList :=
    fun row hm => (isRow_of_mem_rows hm).trimmed
  unfold parse at h
  generalize rows content = L at h htrim
  split at h
  · rename_i device first second literals
    split at h
    · rename_i hd
      cases h
      exact ⟨0, "", _, rfl, .device (by simp) (by simp [hd])⟩
    rename_i hd
    split at h
    · rename_i bad hb
      cases h
      obtain ⟨i, literal, reason, hi, hread, rfl, hbefore⟩ := readBlocks_error hb
      refine ⟨headerLines + i, literal, reason.message, rfl, .literal (by simp) (by simpa using hd)
        (Nat.le_add_right 3 i) (by rw [headerLines, Nat.add_comm]; simpa using hi) ?_ ?_⟩
      · rw [isLiteral_iff_read (htrim literal (by simp [List.mem_of_getElem? hi]))]
        rintro ⟨code, hok⟩
        cases hread.symm.trans hok
      · intro j row hj hlt hrow
        obtain ⟨k, rfl⟩ := Nat.exists_eq_add_of_le' hj
        rw [isLiteral_iff_read (htrim row (List.mem_of_getElem? hrow))]
        exact hbefore k row (by rw [headerLines] at hlt; omega) (by simpa using hrow)
    · cases h
  · rename_i hshort
    cases h
    refine ⟨L.length, "", _, rfl, .header ?_⟩
    rcases L with _ | ⟨a, _ | ⟨b, _ | ⟨c, rest⟩⟩⟩
    · simp
    · simp
    · simp
    · exact absurd rfl (hshort a b c rest)

/-- Reading accepts exactly the texts whose lines keep to the grammar, holds what they say, and
refuses every other text for its first fault. -/
theorem parse_decides_grammar (content : String) :
    ((∃ m, parse content = .ok m) ↔ WellFormed (trimmedLines content)) ∧
    (∀ m, parse content = .ok m → Records (trimmedLines content) m) ∧
    ∀ fault, parse content = .error fault → ∃ line text reason,
      fault.failure = .parse line text reason ∧ FirstFault (trimmedLines content) line text := by
  rw [← rows_eq]
  refine ⟨⟨?_, ?_⟩, fun m => records_of_parse, fun fault => firstFault_of_parse⟩
  · intro h
    obtain ⟨m, hm⟩ := h
    exact wellFormed_of_parse hm
  · intro h
    cases hp : parse content with
    | ok m => exact ⟨m, rfl⟩
    | error fault =>
      obtain ⟨line, text, reason, -, hf⟩ := firstFault_of_parse hp
      exact absurd h hf.not_wellFormed

end Metadata

end BlockPurge
