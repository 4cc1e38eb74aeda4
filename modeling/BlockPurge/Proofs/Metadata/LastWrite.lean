import BlockPurge.Proofs.Metadata.Editing

/-!
# The last granted request decides

Requests to set blocks are made one after the other, and each is answered. A request is granted
exactly for a block that there is, and a refused one leaves the metadata as it was. After any
requests a block has the state and the canonical literal of the last request for it that was
granted; a block without one, the header and the number of blocks are as before. So requests with
the same last granted ones lead to the same metadata and to the same text, in whatever order they
were made.
-/
namespace BlockPurge

attribute [ext] Metadata

namespace Metadata

/-- The failure that a request for a block out of range is answered with. -/
def outOfRange (index size : Nat) : Failure :=
  .invalidInput
    ("block " ++ toString index ++ " out of range (" ++ toString size ++ " blocks)")

/-- The answer to a request and the metadata after it. A refused request leaves the metadata as it
is. -/
def request (m : Metadata) (call : Nat × BlockState) : Except Failure Unit × Metadata :=
  match m.setState call.1 call.2 with
  | .ok edited => (.ok (), edited)
  | .error fault => (.error fault, m)

/-- The answers to requests made one after the other, and the metadata after all of them. -/
def requestAll (m : Metadata) (calls : List (Nat × BlockState)) :
    List (Except Failure Unit) × Metadata :=
  calls.foldl (fun done call =>
    (done.1 ++ [(done.2.request call).1], (done.2.request call).2)) ([], m)

/-- The requests for a block that were answered with success. -/
def granted (m : Metadata) (calls : List (Nat × BlockState)) (index : Nat) :
    List (Nat × BlockState) :=
  ((calls.zip (m.requestAll calls).1).filter fun answered =>
    answered.1.1 = index ∧ answered.2 = .ok ()).map Prod.fst

/-- The state of the last granted request for a block. -/
def lastGranted (m : Metadata) (calls : List (Nat × BlockState)) (index : Nat) :
    Option BlockState :=
  (m.granted calls index).getLast?.map Prod.snd

/-! ## One request -/

theorem request_eq (m : Metadata) (call : Nat × BlockState) :
    m.request call = if call.1 < m.size then (.ok (), m.withState call.1 call.2)
      else (.error (outOfRange call.1 m.size), m) := by
  by_cases h : call.1 < m.size
  · have granted : m.setState call.1 call.2 = .ok (m.withState call.1 call.2) := if_pos h
    rw [request, granted, if_pos h]
  · have refused : m.setState call.1 call.2 = .error (outOfRange call.1 m.size) := if_neg h
    rw [request, refused, if_neg h]

theorem request_answer (m : Metadata) (call : Nat × BlockState) :
    (m.request call).1 =
      if call.1 < m.size then .ok () else .error (outOfRange call.1 m.size) := by
  rw [request_eq]
  split
  · rfl
  · rfl

/-- What a request does not touch. -/
theorem request_header (m : Metadata) (call : Nat × BlockState) :
    (m.request call).2.device = m.device ∧ (m.request call).2.reserved = m.reserved ∧
      (m.request call).2.size = m.size := by
  rw [request_eq]
  split
  · exact ⟨rfl, rfl, List.length_set⟩
  · exact ⟨rfl, rfl, rfl⟩

theorem request_block (m : Metadata) (call : Nat × BlockState) (index : Nat) :
    (m.request call).2.blocks[index]? =
      if call.1 = index ∧ call.1 < m.size then some ⟨call.2, call.2.literal⟩
      else m.blocks[index]? := by
  rw [request_eq]
  by_cases hr : call.1 < m.size
  · have hlen : call.1 < m.blocks.length := hr
    simp only [hr, if_true, and_true, withState, List.getElem?_set, hlen]
  · simp only [hr, if_false, and_false]

/-! ## Requests one after the other -/

@[simp] theorem requestAll_nil (m : Metadata) : m.requestAll [] = ([], m) := rfl

theorem requestAll_concat (m : Metadata) (calls : List (Nat × BlockState))
    (call : Nat × BlockState) :
    m.requestAll (calls ++ [call]) =
      ((m.requestAll calls).1 ++ [((m.requestAll calls).2.request call).1],
        ((m.requestAll calls).2.request call).2) := by
  simp only [requestAll, List.foldl_append, List.foldl_cons, List.foldl_nil]

theorem requestAll_header (m : Metadata) (calls : List (Nat × BlockState)) :
    (m.requestAll calls).2.device = m.device ∧ (m.requestAll calls).2.reserved = m.reserved ∧
      (m.requestAll calls).2.size = m.size := by
  induction calls using List.reverseRecOn with
  | nil => exact ⟨rfl, rfl, rfl⟩
  | append_singleton calls call ih =>
    rw [requestAll_concat]
    have hstep := (m.requestAll calls).2.request_header call
    exact ⟨hstep.1.trans ih.1, hstep.2.1.trans ih.2.1, hstep.2.2.trans ih.2.2⟩

theorem size_requestAll (m : Metadata) (calls : List (Nat × BlockState)) :
    (m.requestAll calls).2.size = m.size :=
  (requestAll_header m calls).2.2

theorem requestAll_answers (m : Metadata) (calls : List (Nat × BlockState)) :
    (m.requestAll calls).1 = calls.map fun call =>
      if call.1 < m.size then .ok () else .error (outOfRange call.1 m.size) := by
  induction calls using List.reverseRecOn with
  | nil => rfl
  | append_singleton calls call ih =>
    rw [requestAll_concat, ih, request_answer, size_requestAll, List.map_append]
    rfl

/-! ## The last granted request -/

/-- Whether a request is granted depends on its index alone. -/
theorem granted_eq (m : Metadata) (calls : List (Nat × BlockState)) (index : Nat) :
    m.granted calls index =
      calls.filter fun call => decide (call.1 = index ∧ call.1 < m.size) := by
  rw [granted, requestAll_answers]
  induction calls with
  | nil => rfl
  | cons call rest ih =>
    simp only [List.map_cons, List.zip_cons_cons, List.filter_cons]
    by_cases hi : call.1 = index
    · by_cases hr : call.1 < m.size
      · simpa [hi, hi ▸ hr] using ih
      · simpa [hi, hi ▸ hr] using ih
    · simpa [hi] using ih

theorem lastGranted_concat (m : Metadata) (calls : List (Nat × BlockState))
    (call : Nat × BlockState) (index : Nat) :
    m.lastGranted (calls ++ [call]) index =
      if call.1 = index ∧ call.1 < m.size then some call.2 else m.lastGranted calls index := by
  simp only [lastGranted, granted_eq, List.filter_append, List.filter_singleton]
  by_cases h : call.1 = index ∧ call.1 < m.size
  · rw [decide_eq_true h, if_pos h, cond_true, List.getLast?_concat, Option.map_some]
  · rw [decide_eq_false h, if_neg h, cond_false, List.append_nil]

/-- **A block is as its last granted request left it**, and as it was if there is none. -/
theorem requestAll_block (m : Metadata) (calls : List (Nat × BlockState)) (index : Nat) :
    (m.requestAll calls).2.blocks[index]? =
      match m.lastGranted calls index with
      | some state => some ⟨state, state.literal⟩
      | none => m.blocks[index]? := by
  induction calls using List.reverseRecOn with
  | nil => rfl
  | append_singleton calls call ih =>
    rw [requestAll_concat, request_block, size_requestAll, lastGranted_concat, ih]
    split
    · rfl
    · rfl

/-- Requests for different blocks may be made in any order: at most one of them is for a given
block. -/
theorem granted_perm {m : Metadata} {calls others : List (Nat × BlockState)}
    (hp : calls.Perm others) (distinct : (calls.map Prod.fst).Nodup) (index : Nat) :
    m.granted calls index = m.granted others index := by
  have hgranted : (m.granted calls index).Perm (m.granted others index) := by
    rw [granted_eq, granted_eq]
    exact hp.filter _
  have hindex : ∀ call ∈ m.granted calls index, call.1 = index := by
    intro call hc
    rw [granted_eq, List.mem_filter, decide_eq_true_iff] at hc
    exact hc.2.1
  have hnodup : ((m.granted calls index).map Prod.fst).Nodup := by
    rw [granted_eq]
    exact distinct.sublist (List.filter_sublist.map Prod.fst)
  revert hgranted hindex hnodup
  cases m.granted calls index with
  | nil => exact fun hg _ _ => hg.nil_eq
  | cons call rest =>
    cases rest with
    | nil => exact fun hg _ _ => (List.perm_singleton.mp hg.symm).symm
    | cons call' rest =>
      intro _ hindex hnodup
      have hsame : call.1 = call'.1 :=
        (hindex call (by simp)).trans (hindex call' (by simp)).symm
      simp [hsame] at hnodup

theorem lastGranted_perm {m : Metadata} {calls others : List (Nat × BlockState)}
    (hp : calls.Perm others) (distinct : (calls.map Prod.fst).Nodup) (index : Nat) :
    m.lastGranted calls index = m.lastGranted others index := by
  rw [lastGranted, lastGranted, granted_perm hp distinct]

/-! ## The metadata after all requests -/

/-- The last granted requests decide what the metadata is. -/
theorem requestAll_congr {m : Metadata} {calls others : List (Nat × BlockState)}
    (h : ∀ index, m.lastGranted calls index = m.lastGranted others index) :
    (m.requestAll calls).2 = (m.requestAll others).2 := by
  obtain ⟨hdevice, hreserved, -⟩ := requestAll_header m calls
  obtain ⟨hdevice', hreserved', -⟩ := requestAll_header m others
  apply Metadata.ext
  · rw [hdevice, hdevice']
  · rw [hreserved, hreserved']
  · apply List.ext_getElem?
    intro index
    rw [requestAll_block, requestAll_block, h index]

theorem getElem?_lines_block (m : Metadata) (index : Nat) :
    m.lines[index + headerLines]? = m.blocks[index]?.map Block.literal :=
  List.getElem?_map

/-- A line is kept unless it is that of a block with a granted request. -/
theorem requestAll_line {m : Metadata} {calls : List (Nat × BlockState)} {line : Nat}
    (h : ∀ index, line = index + headerLines → m.lastGranted calls index = none) :
    (m.requestAll calls).2.lines[line]? = m.lines[line]? := by
  obtain ⟨hdevice, hreserved, -⟩ := requestAll_header m calls
  match line with
  | 0 => exact congrArg some hdevice
  | 1 => exact congrArg some (congrArg Prod.fst hreserved)
  | 2 => exact congrArg some (congrArg Prod.snd hreserved)
  | index + 3 =>
    have hkept := requestAll_block m calls index
    rw [h index rfl] at hkept
    calc (m.requestAll calls).2.lines[index + headerLines]?
        = (m.requestAll calls).2.blocks[index]?.map Block.literal := getElem?_lines_block _ index
      _ = m.blocks[index]?.map Block.literal := by rw [hkept]
      _ = m.lines[index + headerLines]? := (getElem?_lines_block m index).symm

/-- Requests set exactly the blocks that they are granted for. -/
structure SetsGranted (m : Metadata) : Prop where
  /-- A request is granted exactly if there is the block. -/
  answers : ∀ calls, (m.requestAll calls).1 = calls.map fun call =>
    if call.1 < m.size then .ok () else .error (outOfRange call.1 m.size)
  /-- A request that is refused after others leaves the metadata as those left it. -/
  refused : ∀ calls call, m.size ≤ call.1 →
    (m.requestAll (calls ++ [call])).2 = (m.requestAll calls).2
  header : ∀ calls, (m.requestAll calls).2.device = m.device ∧
    (m.requestAll calls).2.reserved = m.reserved ∧ (m.requestAll calls).2.size = m.size
  /-- A block without a granted request keeps its state and the spelling of its literal. -/
  kept : ∀ calls index, m.lastGranted calls index = none →
    (m.requestAll calls).2.blocks[index]? = m.blocks[index]?
  /-- A block with one has the state of the last, and its code as a literal of two lower-case
  digits. -/
  set : ∀ calls index state, m.lastGranted calls index = some state →
    ∃ high ∈ Text.hexAlphabet, ∃ low ∈ Text.hexAlphabet,
      Text.hexNumber [high, low] = state.code.toNat ∧
      (m.requestAll calls).2.blocks[index]? = some ⟨state, String.ofList ['0', 'x', high, low]⟩
  /-- All lines of the text but those of blocks with a granted request are kept. -/
  lines : ∀ calls line, (∀ index, line = index + headerLines → m.lastGranted calls index = none) →
    (m.requestAll calls).2.lines[line]? = m.lines[line]?
  /-- The last granted requests decide. -/
  decided : ∀ calls others, (∀ index, m.lastGranted calls index = m.lastGranted others index) →
    (m.requestAll calls).2 = (m.requestAll others).2 ∧
      (m.requestAll calls).2.render = (m.requestAll others).2.render
  /-- The order of requests for different blocks does not matter. -/
  reordered : ∀ calls others, calls.Perm others → (calls.map Prod.fst).Nodup →
    (m.requestAll calls).2 = (m.requestAll others).2 ∧
      (m.requestAll calls).2.render = (m.requestAll others).2.render

/-- **The last granted request decides.** -/
theorem requestAll_setsGranted (m : Metadata) : SetsGranted m := by
  constructor
  case answers => exact requestAll_answers m
  case refused =>
    intro calls call hout
    rw [requestAll_concat, request_eq, size_requestAll, if_neg (Nat.not_lt.mpr hout)]
  case header => exact requestAll_header m
  case kept =>
    intro calls index hnone
    rw [requestAll_block, hnone]
  case set =>
    intro calls index state hlast
    obtain ⟨high, hhigh, low, hlow, hcode, hliteral⟩ := state.exists_literal
    refine ⟨high, hhigh, low, hlow, hcode, ?_⟩
    rw [requestAll_block, hlast, ← hliteral]
  case lines => exact fun _ _ => requestAll_line
  case decided =>
    intro calls others hlast
    have hsame := requestAll_congr hlast
    exact ⟨hsame, congrArg render hsame⟩
  case reordered =>
    intro calls others hp distinct
    have hsame := requestAll_congr fun index => lastGranted_perm (m := m) hp distinct index
    exact ⟨hsame, congrArg render hsame⟩

/-- Of three requests one is refused, the last of the two others decides, and the block that none
was for keeps its spelling. Two requests for different blocks may change places. -/
theorem requestAll_setsGranted_small : parse smallUneven = .ok smallEven ∧
    (smallEven.requestAll [(0, .erased), (7, .failed), (0, .other 0x01)]).2.blocks =
      [⟨.other 0x01, "0x01"⟩, ⟨.other 0x05, "00005"⟩] ∧
    (smallEven.requestAll [(0, .erased), (7, .failed), (0, .other 0x01)]).2.blocks[1]? =
      smallEven.blocks[1]? ∧
    (smallEven.requestAll [(0, .erased), (1, .failed)]).2 =
      (smallEven.requestAll [(1, .failed), (0, .erased)]).2 := by
  have sets := requestAll_setsGranted smallEven
  have hnone : smallEven.lastGranted [(0, .erased), (7, .failed), (0, .other 0x01)] 1 = none := rfl
  have hswap := sets.reordered [(0, .erased), (1, .failed)] [(1, .failed), (0, .erased)]
    (.swap _ _ _) (by decide)
  exact ⟨rfl, rfl, sets.kept _ 1 hnone, hswap.1⟩

end Metadata

end BlockPurge
