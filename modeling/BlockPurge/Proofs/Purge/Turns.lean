import BlockPurge.Proofs.Purge.Completion

/-!
# What is shown of a run

Once the backup is taken a run is shown turn by turn: its candidate is announced, then the answer is
told of, or the indicator is finished for want of one. If no write is refused, the answers alone say
what is shown, whatever becomes of the files meanwhile.
-/
namespace BlockPurge.Purge

/-- What some events show on the display. -/
def shownOf (events : List Event) : List Progress.Event :=
  events.filterMap Event.progress?

/-- What is shown of the writes that a run makes at a given time. -/
def Job.updates (job : Job) (time : Persistence) : List Progress.Event :=
  if job.settings.persistence = time then shownOf [updating] else []

/-- What is shown in a real run from the announcement of a candidate to that of the next one. -/
def Job.turn (job : Job) (index : Nat) : Except Failure Output → List Progress.Event
  | .error failure => shownOf (job.announce index) ++ shownOf (job.abort index failure)
  | .ok output =>
    shownOf (job.announce index) ++ shownOf (job.conclude output) ++ job.updates .perBlock

/-- What is shown in a real run of some candidates that are called for, by the answers. -/
def Job.turns (job : Job) (left : List (Nat × BlockState))
    (answers : List (Except Failure Output)) :
    List Progress.Event :=
  (left.zip answers).flatMap fun (candidate, answer) => job.turn candidate.1 answer

/-- What is shown at the end of a real run whose last turn is over. -/
def Job.ending (job : Job) (m : Metadata) : Except Failure Report → List Progress.Event
  | .error _ => []
  | .ok _ =>
    (if m.candidates.isEmpty then [] else job.updates .onCompletion) ++
      [.finish job.bar ("Purged " ++ job.device)]

theorem displayed_events (events : List Event) :
    displayed (events.map .event) = shownOf events := by
  simp only [displayed, shownOf, List.filterMap_map]
  rfl

theorem shownOf_append (events more : List Event) :
    shownOf (events ++ more) = shownOf events ++ shownOf more :=
  List.filterMap_append

theorem granted_append {deeds more : List Deed}
    (h : ∀ deed ∈ deeds ++ more, deed.isGranted = true) :
    (∀ deed ∈ deeds, deed.isGranted = true) ∧ ∀ deed ∈ more, deed.isGranted = true :=
  List.forall_mem_append.mp h

section
variable {job : Job} {left : List (Nat × BlockState)} {m : Metadata} {v stored : Volume}
  {stretch : Stretch} {writing : List Deed}

theorem displayed_unanswered (job : Job) (v : Volume) (index : Nat) (failure : Failure) :
    displayed (job.erasing v index (.error failure)) = job.turn index (.error failure) := by
  rw [Job.erasing, displayed_events, shownOf_append, shownOf_append]
  rfl

theorem displayed_answered (job : Job) (v : Volume) (index : Nat) (output : Output) :
    displayed (job.erasing v index (.ok output)) ++ job.updates .perBlock =
      job.turn index (.ok output) := by
  have hnote : shownOf [(Job.judge index output).2.2] = [] := by
    unfold Job.judge
    split <;> rfl
  rw [Job.erasing, displayed_events, shownOf_append, shownOf_append, shownOf_append, hnote,
    List.append_nil, Job.turn]
  rfl

theorem displayed_of_granted {occasion : Occasion}
    (hw : job.persistAt occasion m v = (writing, .ok (), stored)) :
    displayed writing = job.updates occasion.policy := by
  unfold Job.persistAt at hw
  unfold Job.updates
  split at hw
  · rename_i ht
    rw [if_pos ht]
    rcases persist_cases job occasion m v with ⟨-, hp⟩ | ⟨fault, -, hp⟩
    · cases hp.symm.trans hw
      rfl
    · cases hp.symm.trans hw
  · rename_i ht
    cases hw
    rw [if_neg ht]
    rfl

/-- No deed that is granted is a refused write. -/
theorem not_refused_of_granted {occasion : Occasion} {failure : Failure}
    (granted : ∀ deed ∈ writing, deed.isGranted = true) :
    job.persistAt occasion m v ≠ (writing, .error failure, stored) := by
  intro hw
  obtain ⟨before, plan, fault, hv, hm⟩ := replace_mem_of_refused hw
  cases hv.symm.trans (Deed.isGranted_replace.mp (granted _ hm))

/-- The loop is shown turn by turn. -/
theorem Erases.displayed (h : Erases job left m v stretch)
    (granted : ∀ deed ∈ stretch.deeds, deed.isGranted = true) :
    Purge.displayed stretch.deeds =
      job.turns left ((calls stretch.deeds).map Call.answer) := by
  induction h with
  | done => rfl
  | @unanswered candidate rest _ v _ failure _ =>
    rw [displayed_unanswered, calls_erasing]
    simp [Job.turns]
  | unrecorded _ hw => exact absurd hw (not_refused_of_granted (granted_append granted).2)
  | @recorded candidate rest _ v _ _ output _ stretch _ hw _ ih =>
    have hrest := ih (granted_append granted).2
    rw [calls_after hw, Stretch.after, displayed_append, displayed_append, displayed_of_granted hw,
      Occasion.policy, displayed_answered, hrest]
    rfl

theorem displayed_closing
    (hc : closing job m stretch = (writing, .ok (), stored)) :
    displayed writing = if m.candidates.isEmpty then [] else job.updates .onCompletion := by
  unfold closing at hc
  split at hc
  · rename_i he
    cases hc
    rw [if_pos he]
    rfl
  · rename_i he
    rw [if_neg he]
    exact displayed_of_granted hc

/-- A loop whose writes are all granted comes to its end, or stops at a call without an answer. -/
theorem Erases.stops (h : Erases job left m v stretch)
    (granted : ∀ deed ∈ stretch.deeds, deed.isGranted = true) {failure : Failure}
    (hres : stretch.result = .error failure) :
    (calls stretch.deeds).map Call.answer =
      (outputs (calls stretch.deeds)).map .ok ++ [.error failure] := by
  rcases h.answered with hall | ⟨other, hother, hlast⟩
  · -- All calls answered and all writes granted, the loop would have come to its end.
    have answers : ∀ call ∈ calls stretch.deeds, ∃ output, call.answer = .ok output := by
      intro call hm
      have hin : call.answer ∈ (outputs (calls stretch.deeds)).map .ok :=
        hall ▸ List.mem_map_of_mem hm
      obtain ⟨output, -, ho⟩ := List.mem_map.mp hin
      exact ⟨output, ho.symm⟩
    obtain ⟨reports, hok⟩ := h.completes answers fun before plan hm =>
      Deed.isGranted_replace.mp (granted _ hm)
    cases hres.symm.trans hok
  · cases hres.symm.trans hother
    exact hlast

end

section
variable {job : Job} {m : Metadata} {backup : Bytes} {w : Volume} {r : Run}

theorem calls_completed {stretch : Stretch} {writing : List Deed} {stored : Volume}
    (hc : closing job m stretch = (writing, .ok (), stored)) :
    calls ((opening job m m.candidates).map .event ++ (stretch.deeds ++ writing) ++
      [.event (.progress (.finish job.bar ("Purged " ++ job.device)))]) = calls stretch.deeds := by
  rw [calls_append, (quiet_finish job.bar _).calls, List.append_nil,
    (quiet_opening job m m.candidates).calls_append, calls_append, calls_closing hc,
    List.append_nil]

/-- A real run from its backup on calls where its loop does, and comes to what its loop and the
write that closes it come to. -/
theorem Proceeds.loop (h : Proceeds job m backup w r) :
    ∃ stretch, Erases job m.candidates m w stretch ∧ r.calls = Purge.calls stretch.deeds ∧
      (∀ deed ∈ stretch.deeds, deed ∈ r.deeds) ∧
      ((∃ failure, stretch.result = .error failure ∧ r.result = .error failure) ∨
        ∃ blocks writing verdict stored, stretch.result = .ok blocks ∧
          closing job m stretch = (writing, verdict, stored) ∧
          r.result = verdict.map fun _ => reportOf job m backup blocks) := by
  have quiet := quiet_opening job m m.candidates
  cases h with
  | @stopped stretch failure hloop hres =>
    exact ⟨stretch, hloop, quiet.calls_append _, fun deed hm => List.mem_append_right _ hm,
      .inl ⟨failure, hres, rfl⟩⟩
  | @unrecorded stretch blocks writing _ _ hloop hres hc =>
    refine ⟨stretch, hloop, ?_, fun deed hm => List.mem_append_right _ (List.mem_append_left _ hm),
      .inr ⟨blocks, writing, _, _, hres, hc, rfl⟩⟩
    rw [Run.calls, quiet.calls_append, calls_append, calls_closing hc, List.append_nil]
  | @completed stretch blocks writing _ hloop hres hc =>
    exact ⟨stretch, hloop, calls_completed hc, fun deed hm =>
      List.mem_append_left _ (List.mem_append_right _ (List.mem_append_left _ hm)),
      .inr ⟨blocks, writing, _, _, hres, hc, rfl⟩⟩

/-- A real run from its backup on, whose writes are all granted. -/
structure Told (job : Job) (m : Metadata) (backup : Bytes) (r : Run) : Prop where
  displayed : r.displayed = shownOf (opening job m m.candidates) ++
    job.turns m.candidates (r.calls.map Call.answer) ++ job.ending m r.result
  commands : r.calls.map Call.command =
    (m.candidates.take r.calls.length).map fun candidate => job.command candidate.1
  /-- It completes if every candidate is called for and answered; otherwise the last call is not. -/
  course : (r.calls.map Call.answer = r.answers.map .ok ∧
      r.answers.length = m.candidates.length ∧
      r.result = .ok (reportOf job m backup (List.zipWith Job.report m.candidates r.answers))) ∨
    ∃ failure, r.calls.map Call.answer = r.answers.map .ok ++ [.error failure] ∧
      r.result = .error failure

private theorem told_of_loop {stretch : Stretch} (hloop : Erases job m.candidates m w stretch)
    (granted : ∀ deed ∈ stretch.deeds, deed.isGranted = true)
    (calls : r.calls = Purge.calls stretch.deeds)
    (displayed : r.displayed = shownOf (opening job m m.candidates) ++
      Purge.displayed stretch.deeds ++ job.ending m r.result)
    (result : r.result = stretch.result.map (reportOf job m backup)) :
    Told job m backup r := by
  have answers : r.answers = outputs (Purge.calls stretch.deeds) := congrArg outputs calls
  constructor
  case displayed => rw [displayed, calls, hloop.displayed granted]
  case commands => exact calls ▸ hloop.commands
  case course =>
    rw [answers, calls, result]
    cases hres : stretch.result with
    | error failure => exact .inr ⟨failure, hloop.stops granted hres, rfl⟩
    | ok blocks =>
      obtain ⟨hlen, rfl⟩ := hloop.reports hres
      refine .inl ⟨?_, hlen, rfl⟩
      rcases hloop.answered with hall | ⟨failure, hf, -⟩
      · exact hall
      · cases hres.symm.trans hf

theorem Proceeds.told (h : Proceeds job m backup w r)
    (granted : ∀ deed ∈ r.deeds, deed.isGranted = true) : Told job m backup r := by
  have hopen := displayed_events (opening job m m.candidates)
  have quiet := quiet_opening job m m.candidates
  cases h with
  | @stopped stretch failure hloop hres =>
    refine told_of_loop hloop (granted_append granted).2 (quiet.calls_append _) ?_
      (by rw [hres]; rfl)
    rw [Run.displayed, displayed_append, hopen, Job.ending, List.append_nil]
  | unrecorded hloop hres hc =>
    have hwriting := (granted_append (granted_append granted).2).2
    rcases closing_eq_persistAt hc with ⟨-, hv⟩ | hw
    · cases hv
    · exact absurd hw (not_refused_of_granted hwriting)
  | @completed stretch blocks writing stored hloop hres hc =>
    have hmain := (granted_append (granted_append granted).1).2
    refine told_of_loop hloop (granted_append hmain).1 (calls_completed hc) ?_ (by rw [hres]; rfl)
    have hlast : displayed [.event (.progress (.finish job.bar ("Purged " ++ job.device)))] =
        [.finish job.bar ("Purged " ++ job.device)] := rfl
    rw [Run.displayed, displayed_append, displayed_append, displayed_append, hopen,
      displayed_closing hc, hlast, Job.ending]
    simp only [List.append_assoc]

theorem Logged.calls_append {before : List Deed} (h : Logged before) (r : Run) :
    Run.calls { r with deeds := before ++ r.deeds } = r.calls :=
  h.quiet.calls_append r.deeds

/-- Whatever is logged in front of a run, it is told in the same way. -/
theorem Told.behind {before : List Deed} (h : Told job m backup r) (logged : Logged before) :
    Told job m backup { r with deeds := before ++ r.deeds } := by
  have hcalls := logged.calls_append r
  have hanswers : Run.answers { r with deeds := before ++ r.deeds } = r.answers :=
    congrArg outputs hcalls
  constructor
  case displayed =>
    rw [hcalls, Run.displayed, displayed_append, logged.displayed, List.nil_append]
    exact h.displayed
  case commands =>
    rw [hcalls]
    exact h.commands
  case course =>
    rw [hcalls, hanswers]
    exact h.course

end

/-- A real run that is not refused, whose writes are all granted. -/
theorem run_told {settings : Settings} {utility : Utility} {bar : Nat} {draws : Draws}
    {v w : Volume} {m : Metadata}
    {backup : Bytes} (real : settings.dryRun = false)
    (load : Metadata.load v settings.mpath = .ok m) (valid : settings.validate = .ok ())
    (taken : Backup.take v settings.mpath = .ok (backup, w))
    (granted : ∀ deed ∈ (run settings utility bar draws v).deeds, deed.isGranted = true) :
    Told (jobFor settings utility bar draws m) m backup (run settings utility bar draws v) := by
  obtain ⟨before, r, logged, hproceeds, he⟩ := run_proceeds real load valid taken utility bar draws
  rw [he] at granted ⊢
  exact (hproceeds.told (granted_append granted).2).behind logged

end BlockPurge.Purge
