import BlockPurge.Proofs.Metadata.Recording

/-!
# What is counted of a file

The blocks of a metadata file are counted by the codes of their states: those that were candidates
before and stand at a given code now, and those that were none before. Recording the outcome of a
call moves its block from a candidate's code to that of the outcome and no other, so of the blocks
that turn to a code there are as many as answers that leave their block at it.
-/
namespace BlockPurge.Metadata

/-- The codes of the states of the blocks, in block order. -/
def codes (m : Metadata) : List UInt8 :=
  m.states.map BlockState.code

/-- The number of blocks that had code `0x01` or `0x04` before and have a given code now. -/
def turned (before now : List UInt8) (code : UInt8) : Nat :=
  (before.zip now).countP fun block => (block.1 = 0x01 ∨ block.1 = 0x04) ∧ block.2 = code

/-- The number of blocks with a code other than `0x01` and `0x04`. -/
def bystanders (codes : List UInt8) : Nat :=
  codes.countP fun code => code ≠ 0x01 ∧ code ≠ 0x04

@[simp] theorem length_codes (m : Metadata) : m.codes.length = m.size := by
  simp [codes, states, size]

theorem codes_mark (m : Metadata) (index : Nat) (output : Output) :
    (m.mark index output).codes = m.codes.set index output.state.code := by
  simp [codes, states, mark]

/-! ## Candidates by their codes -/

/-- A candidate has one of the two codes. -/
theorem code_of_isErasable {state : BlockState} (h : state.isErasable = true) :
    state.code = 0x01 ∨ state.code = 0x04 := by
  cases state with
  | written => exact .inl rfl
  | opened => exact .inr rfl
  | erased => cases h
  | failed => cases h
  | other code => cases h

theorem isErasable_iff_code {block : Block} (h : block.Spelled) :
    block.state.isErasable = true ↔ block.state.code = 0x01 ∨ block.state.code = 0x04 := by
  refine ⟨code_of_isErasable, fun hcode => ?_⟩
  obtain ⟨code, -, hs⟩ := h
  rw [hs, BlockState.code_ofCode] at hcode
  rw [hs]
  rcases hcode with rfl | rfl
  · rfl
  · rfl

theorem code_of_mem_candidateBlocks {m : Metadata} {index : Nat} (h : index ∈ m.candidateBlocks) :
    m.codes[index]? = some 0x01 ∨ m.codes[index]? = some 0x04 := by
  obtain ⟨⟨i, state⟩, hm, rfl⟩ := List.mem_map.mp h
  obtain ⟨hs, he⟩ := mem_candidates_iff.mp hm
  rw [codes, List.getElem?_map, hs]
  exact (code_of_isErasable he).imp (congrArg some) (congrArg some)

/-- Every block is a candidate or a bystander. -/
theorem candidates_add_bystanders {m : Metadata} (h : m.Sound) :
    m.candidates.length + bystanders m.codes = m.size := by
  have hcandidates : m.candidates.length = m.blocks.countP fun block => block.state.isErasable := by
    have hsome : ∀ entry ∈ m.blocks.zipIdx,
        (if entry.1.state.isErasable then some (entry.2, entry.1.state) else none).isSome = true ↔
          entry.1.state.isErasable = true := by
      intro entry _
      split <;> simp_all
    have hblocks : m.blocks.zipIdx.map Prod.fst = m.blocks := List.zipIdx_map_fst 0 m.blocks
    rw [candidates, List.length_filterMap_eq_countP, List.countP_congr hsome]
    conv_rhs => rw [← hblocks, List.countP_map]
    rfl
  have hbystanders : bystanders m.codes =
      m.blocks.countP fun block => ¬ block.state.isErasable = true := by
    rw [bystanders, codes, states, List.map_map, List.countP_map]
    apply List.countP_congr
    intro block hm
    have herasable := isErasable_iff_code (h.spelled block hm)
    simp only [Function.comp_apply, decide_eq_true_eq, herasable, not_or]
  rw [hcandidates, hbystanders, size]
  exact (List.length_eq_countP_add_countP _).symm

/-! ## Recording an outcome -/

private theorem zip_set_right (before now : List UInt8) {index : Nat} (h : index < before.length)
    (code : UInt8) :
    before.zip (now.set index code) = (before.zip now).set index (before[index], code) := by
  apply List.ext_getElem?
  intro i
  simp only [List.zip, List.getElem?_zipWith, List.getElem?_set, List.length_zipWith]
  by_cases hi : index = i
  · subst hi
    by_cases hn : index < now.length
    · simp [h, hn]
    · simp [hn]
  · simp only [if_neg hi]

/-- Recording an outcome for a candidate turns its block. -/
theorem turned_mark {before : List UInt8} {m : Metadata} {index : Nat} {code : UInt8}
    (hm : index ∈ m.candidateBlocks)
    (hb : before[index]? = some 0x01 ∨ before[index]? = some 0x04)
    (hcode : code ≠ 0x01 ∧ code ≠ 0x04) (output : Output) :
    turned before (m.mark index output).codes code =
      turned before m.codes code + if output.state.code = code then 1 else 0 := by
  have hlt : index < before.length := by
    rcases hb with hb | hb <;> exact (List.getElem?_eq_some_iff.mp hb).1
  have hnow := lt_size_of_mem_candidateBlocks hm
  rw [← length_codes] at hnow
  have hold : ¬ m.codes[index] = code := by
    rintro rfl
    rcases code_of_mem_candidateBlocks hm with hc | hc <;>
      rw [List.getElem?_eq_getElem hnow, Option.some.injEq] at hc
    · exact hcode.1 hc
    · exact hcode.2 hc
  have hbefore : before[index] = 0x01 ∨ before[index] = 0x04 := by
    rw [List.getElem?_eq_getElem hlt, Option.some.injEq, Option.some.injEq] at hb
    exact hb
  rw [turned, codes_mark, zip_set_right before m.codes hlt,
    List.countP_set (by rw [List.length_zip]; omega), List.getElem_zip]
  simp [hold, hbefore, turned]

/-- Recording answers turns as many blocks to a code as there are answers with it. -/
theorem turned_after {before : List UInt8} {m : Metadata} {code : UInt8} {answers : List Output}
    (hb : ∀ index ∈ m.candidateBlocks, before[index]? = some 0x01 ∨ before[index]? = some 0x04)
    (hcode : code ≠ 0x01 ∧ code ≠ 0x04) (hlen : answers.length ≤ m.candidateBlocks.length) :
    turned before (m.after answers).codes code =
      turned before m.codes code + answers.countP fun output => output.state.code = code := by
  induction answers generalizing m with
  | nil => simp
  | cons output answers ih =>
    cases h : m.candidateBlocks with
    | nil => simp [h] at hlen
    | cons index rest =>
      have hrest := candidateBlocks_mark h output
      have hfirst : index ∈ m.candidateBlocks := h ▸ List.mem_cons_self
      rw [after_cons h, ih (by rw [hrest]; exact (List.forall_mem_cons.mp (h ▸ hb)).2)
        (by rw [hrest]; simpa [h] using hlen),
        turned_mark hfirst (hb index hfirst) hcode, List.countP_cons]
      simp only [decide_eq_true_eq]
      omega

/-- No block turns that nothing is recorded for. -/
theorem turned_self {codes : List UInt8} {code : UInt8} (hcode : code ≠ 0x01 ∧ code ≠ 0x04) :
    turned codes codes code = 0 := by
  rw [turned, List.zip, List.zipWith_self, List.countP_map, List.countP_eq_zero]
  intro same _ hturned
  obtain ⟨hold, hnow⟩ := of_decide_eq_true hturned
  rcases hold with hold | hold
  · exact hcode.1 (hnow.symm.trans hold)
  · exact hcode.2 (hnow.symm.trans hold)

end BlockPurge.Metadata
