import BlockPurge.Proofs.Purge.Shape

/-!
# The life of the indicator

A run starts at most one indicator, and all that it shows by an indicator afterwards is about that
one. The indicator is finished once, at the end of all, when the run completes and when a call has
no answer. A refused write is the exception: then the run ends and leaves its indicator unfinished.
The step lemma is about the deeds for one candidate, which only ever move the indicator.
-/
namespace BlockPurge

/-- An event that moves the indicator with a number: another message, or a step forward. -/
inductive Progress.Event.Moves (id : Nat) : Progress.Event → Prop
  | message (text : String) : Moves id (.message id text)
  | advance (delta : Nat) : Moves id (.advance id delta)

namespace Purge

/-- What an event says of an indicator. A report line says nothing of one. -/
def Event.indication? : Event → Option Progress.Event
  | .progress (.line _) => none
  | .progress event => some event
  | _ => none

/-- What some deeds say of indicators, in order. -/
def indications (deeds : List Deed) : List Progress.Event :=
  deeds.filterMap fun deed => deed.event?.bind Event.indication?

/-- A write is refused among some deeds. -/
def Refused (deeds : List Deed) : Prop :=
  ∃ before plan fault, Deed.replace before plan ∈ deeds ∧ plan.verdict = .error fault

/-- What a run says of indicators, in order. -/
def Run.indications (r : Run) : List Progress.Event :=
  Purge.indications r.deeds

theorem indications_append (deeds more : List Deed) :
    indications (deeds ++ more) = indications deeds ++ indications more :=
  List.filterMap_append

theorem refused_append {deeds more : List Deed} :
    Refused (deeds ++ more) ↔ Refused deeds ∨ Refused more := by
  constructor
  · intro h
    obtain ⟨before, plan, fault, hm, hv⟩ := h
    rcases List.mem_append.mp hm with hm | hm
    · exact .inl ⟨before, plan, fault, hm, hv⟩
    · exact .inr ⟨before, plan, fault, hm, hv⟩
  · intro h
    rcases h with ⟨before, plan, fault, hm, hv⟩ | ⟨before, plan, fault, hm, hv⟩
    · exact ⟨before, plan, fault, List.mem_append_left _ hm, hv⟩
    · exact ⟨before, plan, fault, List.mem_append_right _ hm, hv⟩

theorem not_refused_events (events : List Event) : ¬ Refused (events.map .event) := by
  rintro ⟨before, plan, fault, hm, -⟩
  simp at hm

/-- Nothing is said of an indicator in the log, and no write is refused there. -/
theorem Logged.indications {deeds : List Deed} (h : Logged deeds) : indications deeds = [] := by
  refine List.filterMap_eq_nil_iff.mpr fun deed hm => ?_
  obtain ⟨level, text, rfl⟩ := h deed hm
  rfl

theorem Logged.not_refused {deeds : List Deed} (h : Logged deeds) : ¬ Refused deeds := by
  rintro ⟨before, plan, fault, hm, -⟩
  obtain ⟨level, text, heq⟩ := h _ hm
  cases heq

/-! ## Deeds that keep the indicator going -/

/-- Deeds that do no more to indicators than to move one, and have no write refused. -/
structure Steady (bar : Nat) (deeds : List Deed) : Prop where
  moves : ∀ event ∈ indications deeds, event.Moves bar
  granted : ¬ Refused deeds

theorem Steady.append {bar : Nat} {deeds more : List Deed} (h : Steady bar deeds)
    (k : Steady bar more) : Steady bar (deeds ++ more) where
  moves := by
    rw [indications_append]
    exact List.forall_mem_append.mpr ⟨h.moves, k.moves⟩
  granted := fun hr => (refused_append.mp hr).elim h.granted k.granted

theorem steady_nil (bar : Nat) : Steady bar [] :=
  ⟨by simp [indications], not_refused_events []⟩

theorem steady_events {bar : Nat} {events : List Event}
    (h : ∀ event ∈ events.filterMap Event.indication?, event.Moves bar) :
    Steady bar (events.map .event) where
  moves := by
    rw [indications, List.filterMap_map]
    exact h
  granted := not_refused_events events

theorem steady_announce (job : Job) (index : Nat) :
    Steady job.bar ((job.announce index ++
      [Event.log .debug (Erase.note (job.command index))]).map .event) := by
  apply steady_events
  simpa [Job.announce, say, Event.indication?] using Progress.Event.Moves.message _

theorem steady_conclude (job : Job) (output : Output) :
    Steady job.bar ((job.conclude output).map .event) := by
  apply steady_events
  simpa [Job.conclude, say, Event.indication?] using Progress.Event.Moves.advance _

/-- What is done about one candidate only moves the indicator, if the call is answered. -/
theorem steady_erasing (job : Job) (v : Volume) (index : Nat) (output : Output) :
    Steady job.bar (job.erasing v index (.ok output)) := by
  have hcall : Steady job.bar ([Event.call (job.command index) v (.ok output)].map .event) :=
    steady_events (by simp [Event.indication?])
  have hjudged : Steady job.bar ([(Job.judge index output).2.2].map .event) := by
    apply steady_events
    unfold Job.judge
    split <;> simp [Event.indication?]
  have h := (((steady_announce job index).append hcall).append (steady_conclude job output)).append
    hjudged
  simpa [Job.erasing] using h

/-- A call without an answer finishes the indicator. -/
theorem erasing_unanswered (job : Job) (v : Volume) (index : Nat) (failure : Failure) :
    ∃ front, Steady job.bar front ∧ job.erasing v index (.error failure) =
      front ++ [.event (.progress (.finish job.bar "Aborted"))] := by
  have hrest : Steady job.bar ([Event.call (job.command index) v (.error failure),
      .log .error ("erase of block " ++ toString index ++ " on " ++ job.device ++ " aborted: " ++
        failure.message)].map .event) :=
    steady_events (by simp [Event.indication?])
  refine ⟨_, (steady_announce job index).append hrest, ?_⟩
  simp [Job.erasing, Job.abort]

theorem steady_of_granted {job : Job} {occasion : Occasion} {m : Metadata} {v stored : Volume}
    {writing : List Deed} (h : job.persistAt occasion m v = (writing, .ok (), stored)) :
    Steady job.bar writing := by
  unfold Job.persistAt at h
  split at h
  · rcases persist_cases job occasion m v with ⟨hv, hp⟩ | ⟨fault, -, hp⟩
    · cases hp.symm.trans h
      refine ⟨by simp [indications, Deed.event?, updating, say, Event.indication?], ?_⟩
      rintro ⟨before, plan, fault, hm, hf⟩
      have heq : plan = job.rewriting occasion m v := by
        simpa using (by simpa using hm : before = v ∧ plan = _).2
      rw [heq, hv] at hf
      cases hf
    · cases hp.symm.trans h
  · cases h
    exact steady_nil job.bar

/-- A refused write moves no indicator, and ends the run with a fault of the system. -/
theorem refused_of_persistAt {job : Job} {occasion : Occasion} {m : Metadata} {v stored : Volume}
    {writing : List Deed} {failure : Failure}
    (h : job.persistAt occasion m v = (writing, .error failure, stored)) :
    indications writing = [] ∧ Refused writing ∧ ∃ fault, failure = .io fault := by
  obtain ⟨plan, fault, -, rfl, hv, rfl⟩ := writing_of_refused h
  exact ⟨by simp [indications, Deed.event?, updating, say, Event.indication?],
    ⟨v, plan, fault, by simp, hv⟩, fault, rfl⟩

/-! ## The loop and the run -/

/-- How the indicator stands after some deeds, by what these came to. -/
inductive Course {α : Type} (bar : Nat) : List Deed → Except Failure α → Prop
  /-- The deeds came to their end, and the indicator is still to be finished. -/
  | going {deeds : List Deed} (a : α) : Steady bar deeds → Course bar deeds (.ok a)
  /-- There was no answer, and the indicator has been finished. -/
  | finished {front : List Deed} (failure : Failure) : Steady bar front →
      Course bar (front ++ [.event (.progress (.finish bar "Aborted"))]) (.error failure)
  /-- A write was refused, and the indicator is left as it was. -/
  | left {front writing : List Deed} (fault : Fault) : Steady bar front →
      indications writing = [] → Refused writing →
      Course bar (front ++ writing) (.error (.io fault))

theorem Course.after {α β : Type} {bar : Nat} {front deeds : List Deed}
    {result : Except Failure α} (h : Course bar deeds result) (k : Steady bar front) (f : α → β) :
    Course bar (front ++ deeds) (result.map f) := by
  cases h with
  | going a hs => exact .going (f a) (k.append hs)
  | finished failure hs =>
    rw [← List.append_assoc]
    exact .finished failure (k.append hs)
  | left fault hs hi hr =>
    rw [← List.append_assoc]
    exact .left fault (k.append hs) hi hr

theorem Erases.course {job : Job} {left : List (Nat × BlockState)} {m : Metadata} {v : Volume}
    {stretch : Stretch} (h : Erases job left m v stretch) :
    Course job.bar stretch.deeds stretch.result := by
  induction h with
  | done => exact .going [] (steady_nil job.bar)
  | @unanswered candidate _ _ v _ failure _ =>
    obtain ⟨front, hs, he⟩ := erasing_unanswered job v candidate.1 failure
    simp only [he]
    exact .finished failure hs
  | @unrecorded candidate _ _ v _ _ output _ _ _ hw =>
    obtain ⟨hi, hr, fault, rfl⟩ := refused_of_persistAt hw
    exact .left fault (steady_erasing job v candidate.1 output) hi hr
  | @recorded candidate _ _ v _ _ output _ _ _ hw _ ih =>
    exact ih.after ((steady_erasing job v candidate.1 output).append (steady_of_granted hw)) _

theorem steady_rehearsal (job : Job) (candidates : List (Nat × BlockState)) :
    Steady job.bar ((job.rehearsal candidates).map .event) := by
  induction candidates with
  | nil => exact steady_nil job.bar
  | cons candidate rest ih =>
    have h := ((steady_announce job candidate.1).append (steady_conclude job .silent)).append ih
    simpa [rehearsal_cons, Job.rehearsing] using h

/-- In a dry run every call counts as answered, so the indicator keeps going. -/
theorem course_of_dryRun {job : Job} (dry : job.settings.dryRun = true)
    (candidates : List (Nat × BlockState)) (m : Metadata) (v : Volume) :
    Course job.bar (eraseEach job candidates m v).deeds (eraseEach job candidates m v).result := by
  rw [eraseEach_dry dry]
  exact .going _ (steady_rehearsal job candidates)

/-- The loop and the write that closes it. -/
theorem course_eraseAll (job : Job) (m : Metadata) (v : Volume) :
    Course job.bar (eraseAll job m.candidates m v).deeds
      (eraseAll job m.candidates m v).result := by
  have hloop : Course job.bar (eraseEach job m.candidates m v).deeds
      (eraseEach job m.candidates m v).result := by
    cases hd : job.settings.dryRun with
    | true => exact course_of_dryRun hd m.candidates m v
    | false => exact (erases hd m.candidates m v fun _ => mem_candidates_lt).course
  unfold eraseAll
  generalize eraseEach job m.candidates m v = stretch at hloop
  obtain ⟨deeds, now, w, failure | reports⟩ := stretch
  · exact hloop
  dsimp only
  split
  · exact hloop
  rcases hw : job.persistAt .completion now w with ⟨writing, failure | done, stored⟩
  · obtain ⟨hi, hr, fault, rfl⟩ := refused_of_persistAt hw
    cases hloop with
    | going _ hs => exact .left fault hs hi hr
  · cases hloop with
    | going _ hs => exact .going reports (hs.append (steady_of_granted hw))

/-- How a run treats the indicator that would get a number. -/
inductive Indicated (bar : Nat) (r : Run) : Prop
  /-- The run fails before there is an indicator. -/
  | unstarted (failure : Failure) : ¬ Refused r.deeds → r.result = .error failure →
      r.indications = [] → Indicated bar r
  /-- An indicator is started, moved, and finished once at the end of all. -/
  | finished (title text : String) (total : Nat) (moves : List Progress.Event) :
      ¬ Refused r.deeds → (∀ event ∈ moves, event.Moves bar) →
      r.indications = .start bar title total 0 :: moves ++ [.finish bar text] → Indicated bar r
  /-- A write is refused, and the indicator that was started and moved is never finished. -/
  | left (title : String) (total : Nat) (moves : List Progress.Event) (fault : Fault) :
      Refused r.deeds → r.result = .error (.io fault) → (∀ event ∈ moves, event.Moves bar) →
      r.indications = .start bar title total 0 :: moves → Indicated bar r

theorem indications_opening (job : Job) (m : Metadata) :
    indications ((opening job m m.candidates).map .event) =
      [.start job.bar ("Purging " ++ job.device) m.candidates.length 0] :=
  rfl

theorem purge_indicated (job : Job) (m : Metadata) (backup : Bytes) (v : Volume)
    {before : List Deed} (hb : Logged before) :
    Indicated job.bar { purge job m backup v with
      deeds := before ++ (purge job m backup v).deeds } := by
  have hcourse := course_eraseAll job m v
  have hopen := not_refused_events (opening job m m.candidates)
  have hstart := indications_opening job m
  have hfinish : ∀ text, indications [.event (.progress (.finish job.bar text))] =
      [.finish job.bar text] := fun _ => rfl
  have hend : ∀ text, ¬ Refused [.event (.progress (.finish job.bar text))] :=
    fun text => not_refused_events [.progress (.finish job.bar text)]
  rcases he : eraseAll job m.candidates m v with ⟨deeds, now, w, result⟩
  rw [he] at hcourse
  simp only [purge, he]
  cases hcourse with
  | going reports hs =>
    refine .finished ("Purging " ++ job.device) ("Purged " ++ job.device) m.candidates.length
      (indications deeds) ?_ hs.moves ?_
    · simp [refused_append, hb.not_refused, hopen, hs.granted, hend]
    · simp [Run.indications, indications_append, hb.indications, hstart, hfinish]
  | @finished front failure hs =>
    refine .finished ("Purging " ++ job.device) "Aborted" m.candidates.length (indications front)
      ?_ hs.moves ?_
    · simp [refused_append, hb.not_refused, hopen, hs.granted, hend]
    · simp [Run.indications, indications_append, hb.indications, hstart, hfinish]
  | @left front writing fault hs hi hr =>
    refine .left ("Purging " ++ job.device) m.candidates.length (indications front) fault ?_ rfl
      hs.moves ?_
    · simp [refused_append, hr]
    · simp [Run.indications, indications_append, hb.indications, hstart, hi]

/-- Every run finishes the indicator that it started, but for one that a refused write ends. -/
theorem run_indicated (settings : Settings) (utility : Utility) (bar : Nat) (draws : Draws)
    (v : Volume) :
    Indicated bar (run settings utility bar draws v) := by
  cases hs : settings.validate with
  | error failure =>
    have he : run settings utility bar draws v = ⟨[], v, .error failure⟩ := by simp [run, hs]
    rw [he]
    exact .unstarted failure (not_refused_events []) rfl rfl
  | ok done =>
    cases hl : Metadata.load v settings.mpath with
    | error failure =>
      have he : run settings utility bar draws v = ⟨[], v, .error failure⟩ := by simp [run, hs, hl]
      rw [he]
      exact .unstarted failure (not_refused_events []) rfl rfl
    | ok m =>
      rcases run_eq settings utility bar draws hl with
          ⟨before, failure, hb, he, -⟩ | ⟨before, backup, w, hb, -, -, he⟩
      · rw [he]
        exact .unstarted failure hb.not_refused rfl hb.indications
      · rw [he]
        exact purge_indicated (jobFor settings utility bar draws m) m backup w hb

/-- The small file under a name that leaves no room for the name of a temporary file, and a link to
it. -/
def smallLongVolume : Volume :=
  ⟨[([[100]], .folder 0o755), ([[100], [109]], .link (List.replicate 250 116)),
    ([[100], List.replicate 250 116], .file (Text.encode smallText) 0o644)], [], false⟩

/-- A run on it starts an indicator and never finishes it. -/
theorem not_finished_small_long :
    (∃ title total, .start 1 title total 0 ∈
      (run (smallSettings .perBlock) smallUtility 1 smallDraws smallLongVolume).indications) ∧
    ∀ text, .finish 1 text ∉
      (run (smallSettings .perBlock) smallUtility 1 smallDraws smallLongVolume).indications := by
  have he : (run (smallSettings .perBlock) smallUtility 1 smallDraws smallLongVolume).indications =
      [.start 1 "Purging /dev/nvme0" 2 0, .message 1 "Erasing block 0000 on /dev/nvme0",
        .advance 1 1] := by
    decide +kernel
  rw [he]
  exact ⟨⟨"Purging /dev/nvme0", 2, by simp⟩, by simp⟩

end Purge

end BlockPurge
