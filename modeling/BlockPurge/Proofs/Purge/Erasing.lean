import BlockPurge.Proofs.Metadata.Recording
import BlockPurge.Proofs.Purge.Trace

/-!
# How candidates are erased

The shape of a real run over its candidates. A candidate is called for; then the run stops without
an answer, or stops at a refused write, or goes on with the outcome recorded. Every statement about
such a run is an induction over this relation.
-/
namespace BlockPurge.Purge

/-- What is done in a real run when a candidate is called for, the answer included. -/
def Job.erasing (job : Job) (v : Volume) (index : Nat) (answer : Except Failure Output) :
    List Deed :=
  let opening := job.announce index ++
    [.log .debug (Erase.note (job.command index)), .call (job.command index) v answer]
  match answer with
  | .error failure => (opening ++ job.abort index failure).map .event
  | .ok output =>
    (opening ++ job.conclude output ++ [(Job.judge index output).2.2]).map .event

/-- The report on a candidate that was called for in a real run. -/
def Job.report (candidate : Nat × BlockState) (output : Output) : BlockReport :=
  ⟨candidate.1, candidate.2, if output.succeeded then .erased else .failed, output.exit,
    output.summary⟩

/-- How a real run goes over its candidates. -/
inductive Erases (job : Job) : List (Nat × BlockState) → Metadata → Volume → Stretch → Prop
  | done (m : Metadata) (v : Volume) : Erases job [] m v ⟨[], m, v, .ok []⟩
  /-- The call has no answer. -/
  | unanswered {candidate : Nat × BlockState} {rest : List (Nat × BlockState)} {m : Metadata}
      {v answered : Volume} {failure : Failure} :
      job.utility v (job.command candidate.1) = (.error failure, answered) →
      Erases job (candidate :: rest) m v
        ⟨job.erasing v candidate.1 (.error failure), m, answered, .error failure⟩
  /-- The call is answered, and the write of the outcome is refused. -/
  | unrecorded {candidate : Nat × BlockState} {rest : List (Nat × BlockState)} {m : Metadata}
      {v answered stored : Volume} {output : Output} {writing : List Deed} {failure : Failure} :
      job.utility v (job.command candidate.1) = (.ok output, answered) →
      job.persistAt (.block candidate.1) (m.mark candidate.1 output) answered =
        (writing, .error failure, stored) →
      Erases job (candidate :: rest) m v
        ⟨job.erasing v candidate.1 (.ok output) ++ writing, m.mark candidate.1 output, stored,
          .error failure⟩
  | recorded {candidate : Nat × BlockState} {rest : List (Nat × BlockState)} {m : Metadata}
      {v answered stored : Volume} {output : Output} {writing : List Deed} {stretch : Stretch} :
      job.utility v (job.command candidate.1) = (.ok output, answered) →
      job.persistAt (.block candidate.1) (m.mark candidate.1 output) answered =
        (writing, .ok (), stored) →
      Erases job rest (m.mark candidate.1 output) stored stretch →
      Erases job (candidate :: rest) m v
        (stretch.after (job.erasing v candidate.1 (.ok output) ++ writing)
          (Job.report candidate output))

/-- A loop ends with its first write if that is refused. -/
theorem Erases.result_of_refused {job : Job} {candidate : Nat × BlockState}
    {rest : List (Nat × BlockState)} {m : Metadata} {v answered : Volume} {output : Output}
    {failure : Failure} {stretch : Stretch} (h : Erases job (candidate :: rest) m v stretch)
    (ha : job.utility v (job.command candidate.1) = (.ok output, answered))
    (hw : (job.persistAt (.block candidate.1) (m.mark candidate.1 output) answered).2.1 =
      .error failure) : stretch.result = .error failure := by
  cases h with
  | unanswered ha' => cases ha.symm.trans ha'
  | unrecorded ha' hw' =>
    cases ha.symm.trans ha'
    rw [hw'] at hw
    cases hw
    rfl
  | recorded ha' hw' =>
    cases ha.symm.trans ha'
    rw [hw'] at hw
    cases hw

private theorem attempt_real {job : Job} (real : job.settings.dryRun = false) (v : Volume)
    (index : Nat) :
    job.attempt v index =
      ([.log .debug (Erase.note (job.command index)),
        .call (job.command index) v (job.utility v (job.command index)).1],
        job.utility v (job.command index)) := by
  simp [Job.attempt, Erase.attempt, real]

private theorem judge_eq (candidate : Nat × BlockState) (output : Output) :
    Job.judge candidate.1 output = (output.state, (Job.report candidate output).outcome,
      (Job.judge candidate.1 output).2.2) := by
  unfold Job.judge Output.state Job.report
  split <;> rfl

/-- What follows an answered call, in a real run. -/
private theorem eraseEach_answered {job : Job} (real : job.settings.dryRun = false)
    {candidate : Nat × BlockState} {rest : List (Nat × BlockState)} {m : Metadata}
    {v answered : Volume} {output : Output} (hi : candidate.1 < m.size)
    (ha : job.utility v (job.command candidate.1) = (.ok output, answered)) :
    eraseEach job (candidate :: rest) m v =
      match job.persistAt (.block candidate.1) (m.mark candidate.1 output) answered with
      | (writing, .error failure, stored) =>
        ⟨job.erasing v candidate.1 (.ok output) ++ writing, m.mark candidate.1 output, stored,
          .error failure⟩
      | (writing, .ok (), stored) =>
        (eraseEach job rest (m.mark candidate.1 output) stored).after
          (job.erasing v candidate.1 (.ok output) ++ writing) (Job.report candidate output) := by
  simp only [eraseEach, attempt_real real, ha, real, Bool.false_eq_true, if_false]
  rw [judge_eq candidate output]
  simp only [Metadata.setState_eq hi]
  obtain ⟨writing, failure | ⟨⟩, stored⟩ :=
    job.persistAt (.block candidate.1) (m.mark candidate.1 output) answered
  · rfl
  · rfl

/-- Every real run over blocks of the metadata goes this way. -/
theorem erases {job : Job} (real : job.settings.dryRun = false)
    (candidates : List (Nat × BlockState)) (m : Metadata) (v : Volume)
    (h : ∀ candidate ∈ candidates, candidate.1 < m.size) :
    Erases job candidates m v (eraseEach job candidates m v) := by
  induction candidates generalizing m v with
  | nil => exact .done m v
  | cons candidate rest ih =>
    obtain ⟨hi, hr⟩ := List.forall_mem_cons.mp h
    rcases ha : job.utility v (job.command candidate.1) with ⟨failure | output, answered⟩
    · have he : eraseEach job (candidate :: rest) m v =
          ⟨job.erasing v candidate.1 (.error failure), m, answered, .error failure⟩ := by
        simp [eraseEach, attempt_real real, ha, Job.erasing]
      rw [he]
      exact .unanswered ha
    · rw [eraseEach_answered real hi ha]
      split
      · rename_i hp
        exact .unrecorded ha hp
      · rename_i hp
        exact .recorded ha hp (ih _ _ fun c hm => by rw [Metadata.size_mark]; exact hr c hm)

/-! ## The deeds about one candidate -/

theorem quiet_of_announce (job : Job) (index : Nat) :
    Quiet ((job.announce index ++
      [Event.log .debug (Erase.note (job.command index))]).map .event) := by
  simp [Quiet, Job.announce, say, Deed.call?, Deed.volumes]

theorem quiet_of_abort (job : Job) (index : Nat) (failure : Failure) :
    Quiet ((job.abort index failure).map .event) := by
  simp [Quiet, Job.abort, Deed.call?, Deed.volumes]

theorem quiet_of_conclude (job : Job) (index : Nat) (output : Output) :
    Quiet ((job.conclude output ++ [(Job.judge index output).2.2]).map .event) := by
  unfold Job.judge
  split <;> simp [Quiet, Job.conclude, say, Deed.call?, Deed.volumes]

/-- All but the call is quiet. -/
theorem erasing_eq (job : Job) (v : Volume) (index : Nat) (answer : Except Failure Output) :
    ∃ before behind, Quiet before ∧ Quiet behind ∧
      job.erasing v index answer =
        before ++ .event (.call (job.command index) v answer) :: behind := by
  refine ⟨_, match answer with
    | .error failure => (job.abort index failure).map .event
    | .ok output => (job.conclude output ++ [(Job.judge index output).2.2]).map .event,
    quiet_of_announce job index, ?_, ?_⟩
  · cases answer with
    | error failure => exact quiet_of_abort job index failure
    | ok output => exact quiet_of_conclude job index output
  · cases answer <;> simp [Job.erasing]

theorem calls_erasing (job : Job) (v : Volume) (index : Nat) (answer : Except Failure Output) :
    calls (job.erasing v index answer) = [⟨job.command index, v, answer⟩] := by
  obtain ⟨before, behind, hb, hd, he⟩ := erasing_eq job v index answer
  rw [he, calls_append, hb.calls, List.nil_append]
  exact congrArg _ hd.calls

theorem outputs_erasing_ok (job : Job) (v : Volume) (index : Nat) (output : Output) :
    outputs (calls (job.erasing v index (.ok output))) = [output] := by
  rw [calls_erasing]
  rfl

theorem outputs_erasing_error (job : Job) (v : Volume) (index : Nat) (failure : Failure) :
    outputs (calls (job.erasing v index (.error failure))) = [] := by
  rw [calls_erasing]
  rfl

theorem moments_erasing (job : Job) (v : Volume) (index : Nat) (answer : Except Failure Output)
    (given : List Output) : moments given (job.erasing v index answer) = [(given, v)] := by
  obtain ⟨before, behind, hb, hd, he⟩ := erasing_eq job v index answer
  rw [he, moments_append, hb.moments, List.nil_append, moments, hd.moments, hb.calls]
  simp [outputs, Deed.volumes]

end BlockPurge.Purge
