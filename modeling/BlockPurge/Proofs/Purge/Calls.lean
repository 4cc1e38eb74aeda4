import BlockPurge.Proofs.Purge.Erasing
import BlockPurge.Proofs.Purge.Writes

/-!
# The calls of a real run

The candidates are called for in order, each once. A call without an answer is the last one, nothing
is done to the volume after it, and no call follows a refused write. If every call is answered and
every write granted, all candidates are reported.
-/
namespace BlockPurge.Purge

/-- A failed deed among some deeds is followed by no call. -/
def StopsAtFailure (deeds : List Deed) : Prop :=
  deeds.Pairwise fun deed later => deed.Fails → later.call? = none

section
variable {job : Job} {left : List (Nat × BlockState)} {m : Metadata} {v w stored : Volume}
  {stretch : Stretch} {output : Output} {index : Nat} {writing : List Deed}

theorem calls_written {occasion : Occasion} {marked : Metadata} {verdict : Except Failure Unit}
    (hw : job.persistAt occasion marked w = (writing, verdict, stored)) :
    calls (job.erasing v index (.ok output) ++ writing) =
      [⟨job.command index, v, .ok output⟩] := by
  rw [calls_append, calls_erasing, calls_persistAt hw, List.append_nil]

theorem calls_after {occasion : Occasion} {marked : Metadata} {verdict : Except Failure Unit}
    {report : BlockReport} (hw : job.persistAt occasion marked w = (writing, verdict, stored)) :
    calls (stretch.after (job.erasing v index (.ok output) ++ writing) report).deeds =
      ⟨job.command index, v, .ok output⟩ :: calls stretch.deeds := by
  rw [Stretch.after, calls_append, calls_written hw]
  rfl

/-- The calls are made for the first candidates, in order. -/
theorem Erases.commands (h : Erases job left m v stretch) :
    (calls stretch.deeds).map Call.command =
      (left.take (calls stretch.deeds).length).map fun candidate => job.command candidate.1 := by
  induction h with
  | done => rfl
  | unanswered => simp [calls_erasing]
  | unrecorded ha hw => simp [calls_written hw]
  | recorded ha hw hr ih =>
    simp only [calls_after hw, List.map_cons, List.length_cons, List.take_succ_cons, ih]

/-- A call has the answer that the utility gives on the volume it finds. -/
theorem Erases.called (h : Erases job left m v stretch) :
    ∀ call ∈ calls stretch.deeds, call.answer = (job.utility call.before call.command).1 := by
  induction h with
  | done => simp [calls]
  | unanswered ha => simp [calls_erasing, ha]
  | unrecorded ha hw => simp [calls_written hw, ha]
  | recorded ha hw hr ih =>
    rw [calls_after hw]
    exact List.forall_mem_cons.mpr ⟨by rw [ha], ih⟩

/-- Every call is answered, or the last one alone is not and gives the run its failure. -/
theorem Erases.answered (h : Erases job left m v stretch) :
    (calls stretch.deeds).map Call.answer = (outputs (calls stretch.deeds)).map .ok ∨
    ∃ failure, stretch.result = .error failure ∧
      (calls stretch.deeds).map Call.answer =
        (outputs (calls stretch.deeds)).map .ok ++ [.error failure] := by
  induction h with
  | done => exact .inl rfl
  | unanswered => exact .inr ⟨_, rfl, by rw [calls_erasing]; rfl⟩
  | unrecorded ha hw => exact .inl (by rw [calls_written hw]; rfl)
  | recorded ha hw hr ih =>
    rcases ih with ih | ⟨failure, hf, ih⟩
    · left
      rw [calls_after hw, List.map_cons, ih]
      rfl
    · right
      refine ⟨failure, by simp [Stretch.after, hf, Except.map], ?_⟩
      rw [calls_after hw, List.map_cons, ih]
      rfl

/-- A loop that comes to its end has reports on all candidates, drawn from the answers. -/
theorem Erases.reports (h : Erases job left m v stretch) {reports : List BlockReport}
    (hr : stretch.result = .ok reports) :
    (outputs (calls stretch.deeds)).length = left.length ∧
      reports = List.zipWith Job.report left (outputs (calls stretch.deeds)) := by
  induction h generalizing reports with
  | done =>
    cases hr
    exact ⟨rfl, rfl⟩
  | unanswered => cases hr
  | unrecorded => cases hr
  | @recorded _ _ _ _ _ _ _ _ stretch ha hw _ ih =>
    cases hs : stretch.result with
    | error failure => simp [Stretch.after, hs, Except.map] at hr
    | ok later =>
      obtain ⟨hlen, rfl⟩ := ih hs
      rw [calls_after hw]
      refine ⟨congrArg (· + 1) hlen, ?_⟩
      rw [Stretch.after, hs] at hr
      exact (Except.ok.inj hr).symm

/-- A loop that comes to its end has called for all candidates. -/
theorem Erases.commands_all (h : Erases job left m v stretch) {reports : List BlockReport}
    (hr : stretch.result = .ok reports) :
    (calls stretch.deeds).map Call.command = left.map fun candidate => job.command candidate.1 := by
  have hlen := (h.reports hr).1
  have hle : left.length ≤ (calls stretch.deeds).length := by
    rw [← hlen]
    exact List.length_filterMap_le _ _
  rw [h.commands, List.take_of_length_le hle]

/-- A call without an answer leaves the volume as the utility does. -/
theorem Erases.volume_of_unanswered (h : Erases job left m v stretch) {call : Call}
    (hm : call ∈ calls stretch.deeds) {failure : Failure} (hf : call.answer = .error failure) :
    stretch.result = .error failure ∧
      stretch.volume = (job.utility call.before call.command).2 := by
  induction h with
  | done => cases hm
  | unanswered ha =>
    rw [calls_erasing] at hm
    have heq := List.mem_singleton.mp hm
    subst heq
    cases hf
    exact ⟨rfl, by rw [ha]⟩
  | unrecorded ha hw =>
    rw [calls_written hw] at hm
    have heq := List.mem_singleton.mp hm
    subst heq
    cases hf
  | recorded ha hw hr ih =>
    rw [calls_after hw] at hm
    rcases List.mem_cons.mp hm with rfl | hm
    · cases hf
    · obtain ⟨hres, hv⟩ := ih hm
      exact ⟨by simp [Stretch.after, hres, Except.map], hv⟩

/-- Nothing stops the loop but a call without an answer or a refused write. -/
theorem Erases.completes (h : Erases job left m v stretch)
    (answers : ∀ call ∈ calls stretch.deeds, ∃ output, call.answer = .ok output)
    (writes : ∀ before plan, Deed.replace before plan ∈ stretch.deeds → plan.verdict = .ok ()) :
    ∃ reports, stretch.result = .ok reports := by
  induction h with
  | done => exact ⟨[], rfl⟩
  | unanswered =>
    rw [calls_erasing] at answers
    obtain ⟨output, ⟨⟩⟩ := answers _ (List.mem_singleton_self _)
  | unrecorded ha hw =>
    obtain ⟨before, plan, fault, hv, hm⟩ := replace_mem_of_refused hw
    rw [writes before plan (List.mem_append_right _ hm)] at hv
    cases hv
  | @recorded _ _ _ _ _ _ _ _ stretch ha hw hr ih =>
    rw [calls_after hw] at answers
    obtain ⟨reports, hs⟩ := ih (List.forall_mem_cons.mp answers).2
      fun before plan hm => writes before plan (List.mem_append_right _ hm)
    exact ⟨_, by rw [Stretch.after, hs]; rfl⟩

/-- What calls and replacements keep is kept over all candidates. -/
theorem Erases.keeps {I : Volume → Prop} {reports : List BlockReport}
    (h : Erases job left m v stretch) (called : ∀ {v} command, I v → I (job.utility v command).2)
    (written : ∀ {v w draw content}, I v → v.replace draw job.settings.mpath content = (.ok (), w) →
      I w)
    (start : I v) (hok : stretch.result = .ok reports) : I stretch.volume := by
  induction h generalizing reports with
  | done => exact start
  | unanswered => cases hok
  | unrecorded => cases hok
  | @recorded candidate rest m v answered stored output writing stretch ha hw _ ih =>
    have hanswered : I answered := by
      have hc := called (job.command candidate.1) start
      rwa [ha] at hc
    have hstored : I stored := by
      rcases replace_of_persistAt hw with rfl | hr
      · exact hanswered
      · exact written hanswered hr
    cases hres : stretch.result with
    | error failure => simp [Stretch.after, hres, Except.map] at hok
    | ok rest => exact ih hstored hres

theorem stopsAtFailure_append {deeds more : List Deed} (h : StopsAtFailure deeds)
    (k : StopsAtFailure more) (hf : (∀ deed ∈ deeds, ¬ deed.Fails) ∨ calls more = []) :
    StopsAtFailure (deeds ++ more) := by
  refine List.pairwise_append.mpr ⟨h, k, ?_⟩
  intro deed hd later hl fails
  rcases hf with hf | hf
  · exact absurd fails (hf deed hd)
  · exact List.filterMap_eq_nil_iff.mp hf later hl

theorem stopsAtFailure_of_calls {deeds : List Deed} (h : calls deeds = []) : StopsAtFailure deeds :=
  List.pairwise_iff_forall_sublist.mpr fun hs _ =>
    List.filterMap_eq_nil_iff.mp h _ (hs.subset (by simp))

theorem stopsAtFailure_erasing (job : Job) (v : Volume) (index : Nat)
    (answer : Except Failure Output) : StopsAtFailure (job.erasing v index answer) := by
  obtain ⟨before, behind, hb, hd, he⟩ := erasing_eq job v index answer
  rw [he]
  refine stopsAtFailure_append (stopsAtFailure_of_calls hb.calls) ?_
    (.inl fun deed hm fails => fails.not_quiet hb hm)
  refine List.pairwise_cons.mpr ⟨fun later hl _ => ?_, stopsAtFailure_of_calls hd.calls⟩
  exact List.filterMap_eq_nil_iff.mp hd.calls later hl

theorem not_fails_erasing (output : Output) :
    ∀ deed ∈ job.erasing v index (.ok output), ¬ deed.Fails := by
  obtain ⟨before, behind, hb, hd, he⟩ := erasing_eq job v index (.ok output)
  rw [he]
  intro deed hm fails
  rcases List.mem_append.mp hm with hm | hm
  · exact fails.not_quiet hb hm
  · rcases List.mem_cons.mp hm with rfl | hm
    · cases fails
    · exact fails.not_quiet hd hm

theorem stopsAtFailure_written {occasion : Occasion} {marked : Metadata}
    {verdict : Except Failure Unit}
    (hw : job.persistAt occasion marked w = (writing, verdict, stored)) :
    StopsAtFailure (job.erasing v index (.ok output) ++ writing) :=
  stopsAtFailure_append (stopsAtFailure_erasing job v index (.ok output))
    (stopsAtFailure_of_calls (calls_persistAt hw)) (.inl (not_fails_erasing output))

/-- After a failed deed the utility is not called again. -/
theorem Erases.stopsAtFailure (h : Erases job left m v stretch) : StopsAtFailure stretch.deeds := by
  induction h with
  | done => exact .nil
  | @unanswered candidate _ _ v _ failure _ =>
    exact stopsAtFailure_erasing job v candidate.1 (.error failure)
  | unrecorded ha hw => exact stopsAtFailure_written hw
  | recorded ha hw hr ih =>
    refine stopsAtFailure_append (stopsAtFailure_written hw) ih (.inl fun deed hm => ?_)
    rcases List.mem_append.mp hm with hm | hm
    · exact not_fails_erasing _ deed hm
    · exact not_fails_of_granted hw deed hm

end

end BlockPurge.Purge
