import BlockPurge.Erase
import BlockPurge.Proofs.Metadata.Format

/-!
# Recorded outcomes

The outcomes of calls are recorded for the candidates in block order. A recorded block is spelled
canonically and is no candidate any more, so recording for the first candidate leaves the others as
the candidates, and recording some answers and later some more comes to recording them all. On the
lines of the file, only the line three below the number of an answered block changes.
-/
namespace BlockPurge

/-- The state in which an answer leaves its block. -/
def Output.state (output : Output) : BlockState :=
  if output.succeeded then .erased else .failed

theorem Output.succeeded_iff {output : Output} : output.succeeded = true ↔ output.exit = some 0 :=
  beq_iff_eq

/-- An answer leaves its block in a state that is no candidate's. -/
theorem Output.not_isErasable_state (output : Output) : output.state.isErasable = false := by
  unfold state
  split <;> rfl

namespace Metadata

/-- The metadata with the outcome of a call recorded for a block. -/
def mark (m : Metadata) (index : Nat) (output : Output) : Metadata :=
  { m with blocks := m.blocks.set index ⟨output.state, output.state.literal⟩ }

/-- The metadata with outcomes recorded for several blocks. -/
def record (m : Metadata) (answers : List (Nat × Output)) : Metadata :=
  answers.foldl (fun m answer => m.mark answer.1 answer.2) m

/-- The numbers of the candidates. -/
def candidateBlocks (m : Metadata) : List Nat :=
  m.candidates.map Prod.fst

/-- The metadata after the first candidates have been answered. -/
def after (m : Metadata) (answers : List Output) : Metadata :=
  m.record (m.candidateBlocks.zip answers)

@[simp] theorem size_mark (m : Metadata) (index : Nat) (output : Output) :
    (m.mark index output).size = m.size := by
  simp [size, mark]

theorem setState_eq {m : Metadata} {index : Nat} (h : index < m.size) (output : Output) :
    m.setState index output.state = .ok (m.mark index output) :=
  if_pos h

/-! ## The candidates -/

/-- A block is a candidate if its state is one that may be erased. -/
theorem mem_candidates_iff {m : Metadata} {index : Nat} {state : BlockState} :
    (index, state) ∈ m.candidates ↔
      m.states[index]? = some state ∧ state.isErasable = true := by
  simp only [candidates, states, List.mem_filterMap, List.getElem?_map, Option.map_eq_some_iff]
  constructor
  · intro h
    rcases h with ⟨⟨block, i⟩, hm, hs⟩
    obtain ⟨he, hr⟩ := Option.ite_none_right_eq_some.mp hs
    cases hr
    exact ⟨⟨block, by simpa using List.mk_mem_zipIdx_iff_getElem?.mp hm, rfl⟩, he⟩
  · intro h
    rcases h with ⟨⟨block, hb, rfl⟩, he⟩
    exact ⟨(block, index), List.mk_mem_zipIdx_iff_getElem?.mpr hb, if_pos he⟩

/-- The candidates stand in strictly ascending order. -/
theorem candidateBlocks_ascending (m : Metadata) : m.candidateBlocks.Pairwise (· < ·) := by
  have hz : (m.blocks.zipIdx).Pairwise (·.2 < ·.2) := by
    rw [← List.pairwise_map (f := Prod.snd) (R := (· < ·)), List.zipIdx_map_snd]
    exact List.pairwise_lt_range'
  rw [candidateBlocks, candidates, List.map_filterMap, List.pairwise_filterMap]
  apply hz.imp
  intro x y hxy i hi j hj
  grind

/-- The candidates in terms of the file: lines three below their numbers that spell `0x01` or
`0x04`. -/
theorem mem_candidates_iff_rows {content : String} {m : Metadata} (h : parse content = .ok m)
    {index : Nat} {state : BlockState} :
    (index, state) ∈ m.candidates ↔ ∃ row code, (rows content)[index + headerLines]? = some row ∧
      Literal.read row = .ok code ∧ state = .ofCode code ∧ (code = 0x01 ∨ code = 0x04) := by
  have herasable : ∀ code,
      (BlockState.ofCode code).isErasable = true ↔ code = 0x01 ∨ code = 0x04 := by
    intro code
    unfold BlockState.ofCode
    split_ifs <;> simp_all [BlockState.isErasable]
  obtain ⟨hr, -, hs⟩ := parse_eq_ok_iff.mp h
  have hrow : (rows content)[index + headerLines]? = m.blocks[index]?.map Block.literal := by
    rw [hr, ← List.getElem?_map]
    rfl
  rw [mem_candidates_iff, states, List.getElem?_map, hrow]
  constructor
  · intro h
    rcases h with ⟨hb, he⟩
    obtain ⟨block, hi, rfl⟩ := Option.map_eq_some_iff.mp hb
    obtain ⟨code, hc, hstate⟩ := hs block (List.mem_of_getElem? hi)
    exact ⟨_, code, by rw [hi]; rfl, hc, hstate, (herasable code).mp (hstate ▸ he)⟩
  · intro h
    rcases h with ⟨row, code, hb, hc, rfl, he⟩
    obtain ⟨block, hi, rfl⟩ := Option.map_eq_some_iff.mp hb
    obtain ⟨code', hc', hstate⟩ := hs block (List.mem_of_getElem? hi)
    cases hc.symm.trans hc'
    exact ⟨by rw [hi, ← hstate]; rfl, (herasable code).mpr he⟩

/-- Recording an outcome for the first candidate leaves the others. -/
theorem candidates_mark {m : Metadata} {index : Nat} {state : BlockState}
    {rest : List (Nat × BlockState)} (h : m.candidates = (index, state) :: rest) (output : Output) :
    (m.mark index output).candidates = rest := by
  obtain ⟨before, entry, behind, hz, hb, he, hr⟩ := List.filterMap_eq_cons_iff.mp h
  obtain ⟨front, back, hblocks, rfl, hback⟩ := List.zipIdx_eq_append_iff.mp hz
  obtain ⟨block, later, rfl, rfl, rfl⟩ := List.zipIdx_eq_cons_iff.mp hback.symm
  have hi := (Option.ite_none_right_eq_some.mp he).2
  obtain ⟨rfl, -⟩ := Prod.mk.inj (Option.some.inj hi)
  have hset : (m.mark (0 + front.length) output).blocks =
      front ++ ⟨output.state, output.state.literal⟩ :: later := by
    simp [mark, hblocks]
  rw [candidates, hset, List.zipIdx_append, List.filterMap_append,
    List.filterMap_eq_nil_iff.mpr hb, List.zipIdx_cons]
  simpa [output.not_isErasable_state] using hr

theorem candidateBlocks_mark {m : Metadata} {index : Nat} {rest : List Nat}
    (h : m.candidateBlocks = index :: rest) (output : Output) :
    (m.mark index output).candidateBlocks = rest := by
  obtain ⟨⟨i, state⟩, more, hc, rfl, rfl⟩ := List.map_eq_cons_iff.mp h
  rw [candidateBlocks, candidates_mark hc]

theorem lt_size_of_mem_candidateBlocks {m : Metadata} {index : Nat}
    (h : index ∈ m.candidateBlocks) : index < m.size := by
  obtain ⟨⟨i, state⟩, hm, rfl⟩ := List.mem_map.mp h
  have hs := (mem_candidates_iff.mp hm).1
  obtain ⟨hi, -⟩ := List.getElem?_eq_some_iff.mp hs
  simpa [states, size] using hi

/-! ## Answers in order -/

@[simp] theorem after_nil (m : Metadata) : m.after [] = m := by
  simp [after, record]

theorem after_cons {m : Metadata} {index : Nat} {rest : List Nat}
    (h : m.candidateBlocks = index :: rest) (output : Output) (answers : List Output) :
    m.after (output :: answers) = (m.mark index output).after answers := by
  simp only [after, h, candidateBlocks_mark h, record, List.zip_cons_cons, List.foldl_cons]

theorem candidateBlocks_after (m : Metadata) (answers : List Output) :
    (m.after answers).candidateBlocks = m.candidateBlocks.drop answers.length := by
  induction answers generalizing m with
  | nil => simp
  | cons output answers ih =>
    cases h : m.candidateBlocks with
    | nil => simp [after, h, record]
    | cons index rest =>
      rw [after_cons h, ih, candidateBlocks_mark h, List.length_cons, List.drop_succ_cons]

/-- Recording answers in two goes comes to recording them in one. -/
theorem after_append (m : Metadata) (answers more : List Output) :
    m.after (answers ++ more) = (m.after answers).after more := by
  induction answers generalizing m with
  | nil => simp
  | cons output answers ih =>
    cases h : m.candidateBlocks with
    | nil => simp [after, h, record]
    | cons index rest => rw [List.cons_append, after_cons h, after_cons h, ih]

/-- One more answer is recorded for the first candidate that is left. -/
theorem after_concat {m : Metadata} {answers : List Output} {index : Nat} {rest : List Nat}
    (h : m.candidateBlocks.drop answers.length = index :: rest) (output : Output) :
    m.after (answers ++ [output]) = (m.after answers).mark index output := by
  rw [after_append, after_cons (by rw [candidateBlocks_after, h]), after_nil]

/-- What recording an outcome for a candidate preserves, recording answers in order preserves. -/
theorem after_induction {motive : Metadata → Prop} {m : Metadata} (start : motive m)
    (step : ∀ {m index output}, motive m → index ∈ m.candidateBlocks → motive (m.mark index output))
    (answers : List Output) : motive (m.after answers) := by
  induction answers generalizing m with
  | nil => simpa using start
  | cons output answers ih =>
    cases h : m.candidateBlocks with
    | nil => simpa [after, h, record] using start
    | cons index rest =>
      rw [after_cons h]
      exact ih (step start (by simp [h]))

/-! ## What stays and what changes -/

/-- Recording answers keeps the number of blocks and the lines before them. -/
theorem header_after (m : Metadata) (answers : List Output) :
    (m.after answers).size = m.size ∧ (m.after answers).device = m.device ∧
      (m.after answers).reserved = m.reserved := by
  refine after_induction (motive := fun w => w.size = m.size ∧ w.device = m.device ∧
    w.reserved = m.reserved) ⟨rfl, rfl, rfl⟩ ?_ answers
  rintro w index output ⟨hs, hd, hr⟩ -
  exact ⟨(size_mark w index output).trans hs, hd, hr⟩

/-- Recording answers leaves a block as it is, or it is an answered candidate and gets the state of
its answer. -/
theorem block_after (m : Metadata) (answers : List Output) (index : Nat) :
    (m.after answers).blocks[index]? = m.blocks[index]? ∨
    ∃ (k : Nat) (output : Output), m.candidateBlocks[k]? = some index ∧ answers[k]? = some output ∧
      (m.after answers).blocks[index]? = some ⟨output.state, output.state.literal⟩ := by
  induction answers generalizing m with
  | nil => exact .inl (by rw [after_nil])
  | cons output answers ih =>
    cases h : m.candidateBlocks with
    | nil => exact .inl (by simp [after, h, record])
    | cons first rest =>
      rw [after_cons h]
      rcases ih (m.mark first output) with hs | ⟨k, answer, hk, ha, hb⟩
      · by_cases hi : first = index
        · subst hi
          have hlt : first < m.size := lt_size_of_mem_candidateBlocks (by simp [h])
          refine .inr ⟨0, output, rfl, rfl, ?_⟩
          rw [hs]
          exact List.getElem?_set_self hlt
        · exact .inl (by rw [hs]; simp [mark, hi])
      · rw [candidateBlocks_mark h] at hk
        exact .inr ⟨k + 1, answer, hk, ha, hb⟩

/-- A candidate whose turn has not come keeps its state and its literal. -/
theorem block_after_of_le {m : Metadata} {answers : List Output} {k index : Nat}
    (hk : m.candidateBlocks[k]? = some index) (hle : answers.length ≤ k) :
    (m.after answers).blocks[index]? = m.blocks[index]? := by
  rcases block_after m answers index with he | ⟨j, output, hj, ha, -⟩
  · exact he
  · have hnodup : m.candidateBlocks.Nodup := m.candidateBlocks_ascending.imp Nat.ne_of_lt
    obtain ⟨hlt, -⟩ := List.getElem?_eq_some_iff.mp ha
    obtain ⟨hjlt, -⟩ := List.getElem?_eq_some_iff.mp hj
    have : j = k := (List.getElem?_inj hjlt hnodup).mp (hj.trans hk.symm)
    omega

theorem lines_mark (m : Metadata) (index : Nat) (output : Output) :
    (m.mark index output).lines = m.lines.set (index + headerLines) output.state.literal :=
  lines_withState m index output.state

theorem Sound.mark {m : Metadata} (h : m.Sound) (index : Nat) (output : Output) :
    (m.mark index output).Sound := by
  apply h.withState index
  unfold Output.state
  split <;> rfl

theorem Sound.after {m : Metadata} (h : m.Sound) (answers : List Output) :
    (m.after answers).Sound :=
  after_induction h (fun hs _ => hs.mark _ _) answers

/-! ## The lines of the file -/

/-- The lines of a file in which the outcomes of calls stand in place of the literals of their
blocks. -/
def recorded (rows : List String) (answers : List (Nat × Output)) : List String :=
  rows.mapIdx fun line row =>
    match answers.find? fun answer => answer.1 + headerLines = line with
    | some (_, output) => if output.exit = some 0 then "0x02" else "0x08"
    | none => row

theorem literal_state (output : Output) :
    output.state.literal = if output.exit = some 0 then "0x02" else "0x08" := by
  simp only [Output.state, Output.succeeded_iff]
  split <;> rfl

theorem recorded_cons {rows : List String} {index : Nat} {output : Output}
    {answers : List (Nat × Output)} (h : index ∉ answers.map Prod.fst) :
    recorded rows ((index, output) :: answers) =
      recorded (rows.set (index + headerLines) output.state.literal) answers := by
  apply List.ext_getElem?
  intro line
  simp only [recorded, List.getElem?_mapIdx, List.getElem?_set, List.find?_cons]
  by_cases hl : index + headerLines = line
  · have hnone : answers.find? (fun answer => answer.1 + headerLines = line) = none := by
      refine List.find?_eq_none.mpr fun answer hm he => h ?_
      have hi : answer.1 = index := by
        have := of_decide_eq_true he
        omega
      exact hi ▸ List.mem_map_of_mem hm
    by_cases hlt : line < rows.length
    · simp [hl, hlt, hnone, literal_state]
    · simp [hl, hlt]
  · simp [hl]

/-- Recording outcomes changes the lines of the answered blocks and no other. -/
theorem lines_record (m : Metadata) {answers : List (Nat × Output)}
    (h : (answers.map Prod.fst).Nodup) : (m.record answers).lines = recorded m.lines answers := by
  induction answers generalizing m with
  | nil =>
    apply List.ext_getElem?
    intro line
    simp [recorded, record]
  | cons answer answers ih =>
    obtain ⟨hn, hr⟩ := List.nodup_cons.mp h
    rw [recorded_cons hn, ← lines_mark]
    exact ih (m.mark answer.1 answer.2) hr

theorem lines_after (m : Metadata) (answers : List Output) :
    (m.after answers).lines = recorded m.lines (m.candidateBlocks.zip answers) := by
  refine lines_record m ?_
  have hnodup : m.candidateBlocks.Nodup := m.candidateBlocks_ascending.imp Nat.ne_of_lt
  rw [List.zip_eq_zip_take_min, List.map_fst_zip (by simp)]
  exact hnodup.sublist (List.take_sublist _ _)

/-! ## The text of the file -/

/-- The text of a metadata file that started with some content, after the first candidates have been
answered. Until the first outcome is recorded it stands as it was. -/
def textAfter (content : String) (m : Metadata) (answers : List Output) : String :=
  if answers.isEmpty then content else (m.after answers).render

theorem textAfter_concat (content : String) (m : Metadata) (answers : List Output)
    (output : Output) :
    textAfter content m (answers ++ [output]) = (m.after (answers ++ [output])).render := by
  simp [textAfter]

theorem textAfter_append (content : String) (m : Metadata) (answers more : List Output) :
    textAfter content m (answers ++ more) =
      textAfter (textAfter content m answers) (m.after answers) more := by
  cases more with
  | nil => simp [textAfter]
  | cons output more => simp [textAfter, after_append]

/-- The text with a file's lines trimmed, each ended by a newline, and outcomes in place of the
literals of their blocks. -/
def recordedText (content : String) (answers : List (Nat × Output)) : String :=
  String.join ((recorded (rows content) answers).map (· ++ "\n"))

theorem textAfter_eq {content : String} {m : Metadata} (h : parse content = .ok m)
    (answers : List Output) :
    textAfter content m answers =
      if answers.isEmpty then content
      else recordedText content (m.candidateBlocks.zip answers) := by
  rw [textAfter, render, lines_after, recordedText, rows_of_parse h]

/-- What a run recorded is read again as what it recorded. -/
theorem parse_textAfter {content : String} {m : Metadata} (h : parse content = .ok m)
    (answers : List Output) : parse (textAfter content m answers) = .ok (m.after answers) := by
  unfold textAfter
  split
  · rename_i hn
    rw [List.isEmpty_iff.mp hn, after_nil, h]
  · exact parse_render ((sound_of_parse h).after answers)

end Metadata

end BlockPurge
