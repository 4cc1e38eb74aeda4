import BlockPurge.Metadata.Basic
import BlockPurge.Proofs.Block.Literal
import BlockPurge.Proofs.Text.Lines

/-!
# Reading what was rendered

A text is read as some metadata exactly if its lines are the lines of that metadata, a device is
named, and every literal spells the state of its block. Since lines are read without their
surrounding white space, metadata that was read renders to a text with the same lines, and that text
is read as the same metadata. Setting a block spells it canonically, so this stays so.
-/
namespace BlockPurge

/-- A block whose literal spells its state. -/
def Block.Spelled (b : Block) : Prop :=
  ∃ code, Literal.read b.literal = .ok code ∧ b.state = .ofCode code

namespace Metadata

/-- A line as it is read from a metadata file. -/
structure IsRow (row : String) : Prop where
  trimmed : Text.trim row.toList = row.toList
  oneLine : '\n' ∉ row.toList

/-- Metadata that some text is read as. -/
structure Sound (m : Metadata) : Prop where
  device : m.device ≠ ""
  rows : ∀ row ∈ m.lines, IsRow row
  spelled : ∀ b ∈ m.blocks, b.Spelled

theorem isRow_of_mem_rows {content row : String} (h : row ∈ rows content) : IsRow row := by
  obtain ⟨line, hm, rfl⟩ := List.mem_map.mp h
  constructor
  · rw [String.toList_ofList, Text.trim_trim]
  · rw [String.toList_ofList]
    exact fun hn => Text.notMem_of_mem_lines hm (Text.trim_subset line hn)

theorem readBlock_eq_ok_iff {line : Nat} {literal : String} {b : Block} :
    readBlock line literal = .ok b ↔ b.literal = literal ∧ b.Spelled := by
  unfold readBlock Block.Spelled
  constructor
  · intro h
    split at h
    · rename_i code hr
      cases h
      exact ⟨rfl, code, hr, rfl⟩
    · cases h
  · intro h
    rcases h with ⟨rfl, code, hr, hs⟩
    simp only [hr, ← hs]

theorem readBlocks_eq_ok_iff {line : Nat} {literals : List String} {blocks : List Block} :
    readBlocks line literals = .ok blocks ↔
      blocks.map Block.literal = literals ∧ ∀ b ∈ blocks, b.Spelled := by
  induction literals generalizing line blocks with
  | nil =>
    rw [readBlocks, List.map_eq_nil_iff]
    constructor
    · intro impossible
      cases impossible
      exact ⟨rfl, by simp⟩
    · intro h
      rcases h with ⟨rfl, -⟩
      rfl
  | cons literal rest ih =>
    rw [readBlocks]
    constructor
    · intro h
      split at h
      · cases h
      rename_i block hb
      split at h
      · cases h
      rename_i more hm
      cases h
      obtain ⟨hl, hs⟩ := readBlock_eq_ok_iff.mp hb
      obtain ⟨hls, hss⟩ := ih.mp hm
      exact ⟨by rw [List.map_cons, hl, hls], List.forall_mem_cons.mpr ⟨hs, hss⟩⟩
    · intro h
      rcases h with ⟨hl, hs⟩
      obtain ⟨block, more, rfl, hb, hm⟩ := List.map_eq_cons_iff.mp hl
      obtain ⟨hsb, hsm⟩ := List.forall_mem_cons.mp hs
      rw [readBlock_eq_ok_iff.mpr ⟨hb, hsb⟩, ih.mpr ⟨hm, hsm⟩]

/-- What a text has to be in order to be read as some metadata. -/
theorem parse_eq_ok_iff {content : String} {m : Metadata} :
    parse content = .ok m ↔
      rows content = m.lines ∧ m.device ≠ "" ∧ ∀ b ∈ m.blocks, b.Spelled := by
  constructor
  · intro h
    unfold parse at h
    split at h
    · rename_i device first second literals hr
      split at h
      · cases h
      rename_i hd
      split at h
      · cases h
      rename_i blocks hb
      cases h
      obtain ⟨hl, hs⟩ := readBlocks_eq_ok_iff.mp hb
      exact ⟨by rw [hr, lines, hl], hd, hs⟩
    · cases h
  · intro h
    rcases h with ⟨hr, hd, hs⟩
    have hb : readBlocks headerLines (m.blocks.map Block.literal) = .ok m.blocks :=
      readBlocks_eq_ok_iff.mpr ⟨rfl, hs⟩
    simp only [parse, hr, lines, if_neg hd, hb]

theorem rows_of_parse {content : String} {m : Metadata} (h : parse content = .ok m) :
    rows content = m.lines :=
  (parse_eq_ok_iff.mp h).1

theorem sound_of_parse {content : String} {m : Metadata} (h : parse content = .ok m) : m.Sound := by
  obtain ⟨hr, hd, hs⟩ := parse_eq_ok_iff.mp h
  exact ⟨hd, fun row hm => isRow_of_mem_rows (hr ▸ hm), hs⟩

/-- Rows that are each ended by a newline are read again. -/
theorem rows_join {ls : List String} (h : ∀ row ∈ ls, IsRow row) :
    rows (String.join (ls.map (· ++ "\n"))) = ls := by
  have ht : (String.join (ls.map (· ++ "\n"))).toList =
      (ls.map String.toList).flatMap (· ++ ['\n']) := by
    simp [String.toList_join, List.flatMap_map]
  have hn : ∀ line ∈ ls.map String.toList, '\n' ∉ line := by
    intro line hm
    obtain ⟨row, hr, rfl⟩ := List.mem_map.mp hm
    exact (h row hr).oneLine
  rw [rows, ht, Text.lines_flatMap hn, List.map_map, List.map_map]
  conv_rhs => rw [← List.map_id ls]
  apply List.map_congr_left
  intro row hm
  have hr := (h row hm).trimmed
  change String.ofList (Text.trim (Text.dropReturn row.toList)) = row
  rw [Text.dropReturn_of_trim hr, hr, String.ofList_toList]

/-- Metadata is read again from its own rendering. -/
theorem parse_render {m : Metadata} (h : m.Sound) : parse m.render = .ok m :=
  parse_eq_ok_iff.mpr ⟨rows_join h.rows, h.device, h.spelled⟩

/-! ## Setting a block -/

/-- The metadata with a block in a state, spelled canonically. -/
def withState (m : Metadata) (index : Nat) (state : BlockState) : Metadata :=
  { m with blocks := m.blocks.set index ⟨state, state.literal⟩ }

theorem lines_withState (m : Metadata) (index : Nat) (state : BlockState) :
    (m.withState index state).lines = m.lines.set (index + headerLines) state.literal := by
  simp [lines, withState, headerLines, List.map_set]

theorem isRow_literal (state : BlockState) : IsRow state.literal where
  trimmed := Text.trim_eq_self_iff.mpr state.literal_bare.1
  oneLine := state.literal_bare.2

/-- A block may be set to any state that a code stands for. -/
theorem Sound.withState {m : Metadata} (h : m.Sound) (index : Nat) {state : BlockState}
    (hs : state = .ofCode state.code) : (m.withState index state).Sound where
  device := h.device
  rows row hm := by
    rw [lines_withState] at hm
    rcases List.mem_or_eq_of_mem_set hm with hm | rfl
    · exact h.rows row hm
    · exact isRow_literal state
  spelled b hm := by
    rcases List.mem_or_eq_of_mem_set hm with hm | rfl
    · exact h.spelled b hm
    · exact ⟨state.code, state.read_literal, hs⟩

end Metadata

end BlockPurge
