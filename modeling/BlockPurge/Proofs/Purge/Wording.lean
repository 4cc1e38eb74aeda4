import BlockPurge.Proofs.Purge.Shape
import BlockPurge.Proofs.Volume.Drawing
import Mathlib.Data.List.Forall2

/-!
# The wording of a failure

Two utilities may do the same and give the same answers, but for the failure that they give where
there is no answer; and a refused write tells the path of a temporary file, which has in it what was
drawn. A failure ends its run whatever it is, so runs with such utilities, and with whatever is
drawn, make the same calls, leave the same volume, and come to the same, but for that failure. The
exception is a failure that comes of what was drawn: every name is taken.
-/
namespace BlockPurge.Purge

/-! ## Results and calls -/

/-- Results that are the same, or failures that are worded in two ways. -/
inductive Agrees (reworded : Failure → Failure → Prop) {α : Type} :
    Except Failure α → Except Failure α → Prop
  | ok (a : α) : Agrees reworded (.ok a) (.ok a)
  | error {failure failure' : Failure} : failure = failure' ∨ reworded failure failure' →
      Agrees reworded (.error failure) (.error failure')

/-- Calls with the same command on the same volume, and with answers that agree. -/
structure Call.Agrees (reworded : Failure → Failure → Prop) (call call' : Call) : Prop where
  command : call.command = call'.command
  before : call.before = call'.before
  answer : Purge.Agrees reworded call.answer call'.answer

/-- A result is a failure of some kind. -/
def Fails {α : Type} (kind : Failure → Prop) (x : Except Failure α) : Prop :=
  ∃ failure, x = .error failure ∧ kind failure

/-- What is drawn makes no difference to a write, but for the wording of its failure, unless that is
a failure of the kind `lost`. -/
def Redraws (reworded : Failure → Failure → Prop) (lost : Failure → Prop) (draws draws' : Draws) :
    Prop :=
  ∀ occasion (m : Metadata) (v : Volume) path,
    ¬ Fails lost (m.persist v (draws occasion) path).1 →
    ¬ Fails lost (m.persist v (draws' occasion) path).1 →
    Agrees reworded (m.persist v (draws occasion) path).1 (m.persist v (draws' occasion) path).1 ∧
      (m.persist v (draws occasion) path).2 = (m.persist v (draws' occasion) path).2

/-- Utilities that do the same when they are called for a program, and whose answers agree. -/
def Rewords (reworded : Failure → Failure → Prop) (program : String) (utility utility' : Utility) :
    Prop :=
  ∀ v command, command.program = program →
    Agrees reworded (utility v command).1 (utility' v command).1 ∧
      (utility v command).2 = (utility' v command).2

section
variable {reworded : Failure → Failure → Prop} {α β : Type}

theorem Agrees.refl (x : Except Failure α) : Agrees reworded x x := by
  cases x with
  | ok a => exact .ok a
  | error failure => exact .error (.inl rfl)

theorem Agrees.eq_ok {a : α} {x : Except Failure α} (h : Agrees reworded (.ok a) x) :
    x = .ok a := by
  cases h
  rfl

theorem Agrees.eq_error {failure : Failure} {x : Except Failure α}
    (h : Agrees reworded (.error failure) x) :
    ∃ failure', x = .error failure' ∧ (failure = failure' ∨ reworded failure failure') := by
  cases h with
  | error hr => exact ⟨_, rfl, hr⟩

theorem Agrees.toBool {x y : Except Failure α} (h : Agrees reworded x y) :
    x.toBool = y.toBool := by
  cases h <;> rfl

theorem Agrees.mono {reworded' : Failure → Failure → Prop}
    (more : ∀ {failure failure'}, reworded failure failure' → reworded' failure failure')
    {x y : Except Failure α} (h : Agrees reworded x y) : Agrees reworded' x y := by
  cases h with
  | ok a => exact .ok a
  | error hr => exact .error (hr.imp_right more)

theorem Agrees.map {x y : Except Failure α} (h : Agrees reworded x y) (f : α → β) :
    Agrees reworded (x.map f) (y.map f) := by
  cases h with
  | ok a => exact .ok (f a)
  | error hr => exact .error hr

theorem Call.Agrees.refl (call : Call) : call.Agrees reworded call :=
  ⟨rfl, rfl, .refl _⟩

end

section
variable {reworded : Failure → Failure → Prop} {program : String} {utility utility' : Utility}
  {v w : Volume} {command : Command}

theorem Rewords.answered (h : Rewords reworded program utility utility')
    (hp : command.program = program) {output : Output}
    (ha : utility v command = (.ok output, w)) : utility' v command = (.ok output, w) := by
  obtain ⟨hanswer, hvolume⟩ := h v command hp
  rw [ha] at hanswer hvolume
  exact Prod.ext hanswer.eq_ok hvolume.symm

theorem Rewords.mono {reworded' : Failure → Failure → Prop}
    (h : Rewords reworded program utility utility')
    (more : ∀ {failure failure'}, reworded failure failure' → reworded' failure failure') :
    Rewords reworded' program utility utility' :=
  fun v command hp => (h v command hp).imp_left (Agrees.mono more)

theorem Rewords.unanswered (h : Rewords reworded program utility utility')
    (hp : command.program = program) {failure : Failure}
    (ha : utility v command = (.error failure, w)) :
    ∃ failure', utility' v command = (.error failure', w) ∧
      (failure = failure' ∨ reworded failure failure') := by
  obtain ⟨hanswer, hvolume⟩ := h v command hp
  rw [ha] at hanswer hvolume
  obtain ⟨failure', hu, hr⟩ := hanswer.eq_error
  exact ⟨failure', Prod.ext hu hvolume.symm, hr⟩

end

section
variable {reworded : Failure → Failure → Prop} {lost : Failure → Prop} {job : Job}
  {utility : Utility} {draws : Draws}

theorem Redraws.mono {reworded' : Failure → Failure → Prop} {draws' : Draws}
    (h : Redraws reworded lost draws draws')
    (more : ∀ {failure failure'}, reworded failure failure' → reworded' failure failure') :
    Redraws reworded' lost draws draws' :=
  fun occasion m v path kept kept' =>
    (h occasion m v path kept kept').imp_left (Agrees.mono more)

/-- The same is drawn. -/
theorem redraws_same (reworded : Failure → Failure → Prop) (lost : Failure → Prop) (draws : Draws) :
    Redraws reworded lost draws draws :=
  fun _ _ _ _ _ _ => ⟨.refl _, rfl⟩

/-- A write was refused because every name that was tried for its temporary file was taken. -/
def Crowded (failure : Failure) : Prop :=
  ∃ fault, failure = .io fault ∧ fault.Crowded

/-- A run ended because every name that was tried for a temporary file was taken. -/
def Run.Crowded (r : Run) : Prop :=
  Fails Purge.Crowded r.result

/-- Two failures are one fault that tells the paths of two temporary files. -/
inductive Redrawn : Failure → Failure → Prop
  | io {fault fault' : Fault} : fault.Redrawn fault' → Redrawn (.io fault) (.io fault')

/-- Whatever is drawn, unless every name is taken. -/
theorem redraws_of_crowded (draws draws' : Draws) : Redraws Redrawn Crowded draws draws' := by
  intro occasion m v path kept kept'
  have free : ∀ {draw : Volume.Draw}, ¬ Fails Crowded (m.persist v draw path).1 →
      ¬ v.Crowds draw path (Text.encode m.render) := by
    intro draw kept ⟨fault, hf, crowded⟩
    apply kept
    refine ⟨.io fault, ?_, fault, rfl, crowded⟩
    rcases hr : v.replace draw path (Text.encode m.render) with ⟨verdict, w⟩
    obtain rfl : verdict = .error fault := by simpa [hr] using hf
    simp only [Metadata.persist, hr]
  rcases v.replace_redrawn path (Text.encode m.render) (free kept) (free kept') with
      ⟨w, hr, hr'⟩ | ⟨fault, fault', hredrawn, hr, hr'⟩
  · simp only [Metadata.persist, hr, hr', and_true]
    exact .ok ()
  · simp only [Metadata.persist, hr, hr', and_true]
    exact .error (hredrawn.imp (congrArg _) .io)

/-- What is drawn makes no difference to a write that is due at a time, or is none. -/
theorem Redraws.written (h : Redraws reworded lost job.draws draws) {occasion : Occasion}
    {m : Metadata} {v stored stored' : Volume} {writing writing' : List Deed}
    {verdict verdict' : Except Failure Unit}
    (hw : job.persistAt occasion m v = (writing, verdict, stored))
    (hw' : Job.persistAt { job with utility := utility, draws := draws } occasion m v =
      (writing', verdict', stored'))
    (kept : ¬ Fails lost verdict) (kept' : ¬ Fails lost verdict') :
    Agrees reworded verdict verdict' ∧ stored = stored' := by
  have hp := persistAt_snd job occasion m v
  have hp' := persistAt_snd { job with utility := utility, draws := draws } occasion m v
  rw [hw] at hp
  rw [hw'] at hp'
  dsimp only at hp hp'
  split at hp
  · rename_i hdue
    rw [if_pos hdue] at hp'
    have hagrees := h occasion m v job.settings.mpath
    rw [← hp, ← hp'] at hagrees
    exact hagrees kept kept'
  · rename_i hnot
    rw [if_neg hnot] at hp'
    cases hp
    cases hp'
    exact ⟨.ok (), rfl⟩

end

/-- Deeds without calls change nothing about calls that agree. -/
theorem agrees_append {reworded : Failure → Failure → Prop} {deeds deeds' more more' : List Deed}
    (h : List.Forall₂ (Call.Agrees reworded) (calls deeds) (calls deeds'))
    (hm : calls more = []) (hm' : calls more' = []) :
    List.Forall₂ (Call.Agrees reworded) (calls (deeds ++ more)) (calls (deeds' ++ more')) := by
  rw [calls_append, calls_append, hm, hm', List.append_nil, List.append_nil]
  exact h

/-! ## The loop and the run -/

/-- Stretches of two runs that make calls that agree, leave the same, and come to results that
agree. -/
structure Stretch.Agrees (reworded : Failure → Failure → Prop) (s s' : Stretch) : Prop where
  calls : List.Forall₂ (Call.Agrees reworded) (calls s.deeds) (Purge.calls s'.deeds)
  metadata : s.metadata = s'.metadata
  volume : s.volume = s'.volume
  result : Purge.Agrees reworded s.result s'.result

structure Run.Agrees (reworded : Failure → Failure → Prop) (r r' : Run) : Prop where
  calls : List.Forall₂ (Call.Agrees reworded) r.calls r'.calls
  volume : r.volume = r'.volume
  result : Purge.Agrees reworded r.result r'.result

section
variable {reworded : Failure → Failure → Prop} {lost : Failure → Prop} {job : Job}
  {utility : Utility} {draws : Draws}

theorem fails_map_iff {α β : Type} {x : Except Failure α} {f : α → β} :
    Fails lost (x.map f) ↔ Fails lost x := by
  cases x <;> simp [Fails, Except.map]

theorem not_fails_of_after {deeds : List Deed} {report : BlockReport} {s : Stretch}
    (kept : ¬ Fails lost (s.after deeds report).result) : ¬ Fails lost s.result :=
  mt fails_map_iff.mpr kept

theorem not_fails_error {α β : Type} {failure : Failure}
    (kept : ¬ Fails lost (Except.error failure : Except Failure α)) :
    ¬ Fails lost (Except.error failure : Except Failure β) := by
  rintro ⟨_, ⟨⟩, hlost⟩
  exact kept ⟨failure, rfl, hlost⟩

theorem not_fails_ok {α : Type} (a : α) : ¬ Fails lost (Except.ok a) := by
  rintro ⟨failure, impossible, -⟩
  cases impossible

theorem Erases.agrees {left : List (Nat × BlockState)} {m : Metadata} {v : Volume}
    {stretch stretch' : Stretch} (h : Erases job left m v stretch)
    (h' : Erases { job with utility := utility, draws := draws } left m v stretch')
    (rewords : Rewords reworded job.settings.program job.utility utility)
    (redraws : Redraws reworded lost job.draws draws) (kept : ¬ Fails lost stretch.result)
    (kept' : ¬ Fails lost stretch'.result) : stretch.Agrees reworded stretch' := by
  -- A turn of one loop is the same kind of turn of the other one: the utilities answer both or
  -- neither, and a write that only one of them is refused would be lost.
  induction h generalizing stretch' with
  | done =>
    cases h'
    exact ⟨.nil, rfl, rfl, .refl _⟩
  | unanswered ha =>
    obtain ⟨failure', hu, hagrees⟩ := rewords.unanswered rfl ha
    cases h' with
    | unanswered ha' =>
      cases hu.symm.trans ha'
      refine ⟨?_, rfl, rfl, .error hagrees⟩
      rw [calls_erasing, calls_erasing]
      exact .cons ⟨rfl, rfl, .error hagrees⟩ .nil
    | unrecorded ha' => cases hu.symm.trans ha'
    | recorded ha' => cases hu.symm.trans ha'
  | unrecorded ha hw =>
    have hu := rewords.answered rfl ha
    cases h' with
    | unanswered ha' => cases hu.symm.trans ha'
    | unrecorded ha' hw' =>
      cases hu.symm.trans ha'
      obtain ⟨hverdict, hstored⟩ := redraws.written hw hw' (not_fails_error kept)
        (not_fails_error kept')
      cases hverdict with
      | error hreworded =>
        refine ⟨?_, rfl, hstored, .error hreworded⟩
        rw [calls_written hw, calls_written hw']
        exact .cons (.refl _) .nil
    | recorded ha' hw' =>
      cases hu.symm.trans ha'
      obtain ⟨hverdict, -⟩ := redraws.written hw hw' (not_fails_error kept) (not_fails_ok ())
      cases hverdict
  | recorded ha hw _ ih =>
    have hu := rewords.answered rfl ha
    cases h' with
    | unanswered ha' => cases hu.symm.trans ha'
    | unrecorded ha' hw' =>
      cases hu.symm.trans ha'
      obtain ⟨hverdict, -⟩ := redraws.written hw hw' (not_fails_ok ()) (not_fails_error kept')
      cases hverdict
    | recorded ha' hw' hrest =>
      cases hu.symm.trans ha'
      obtain ⟨-, rfl⟩ := redraws.written hw hw' (not_fails_ok ()) (not_fails_ok ())
      obtain ⟨hcalls, hmetadata, hvolume, hresult⟩ :=
        ih hrest (not_fails_of_after kept) (not_fails_of_after kept')
      refine ⟨?_, hmetadata, hvolume, hresult.map _⟩
      rw [calls_after hw, calls_after hw']
      exact .cons (.refl _) hcalls

/-- A real run goes over its candidates by the relation, and a dry run calls nothing. -/
theorem eraseEach_agrees {m : Metadata} {v : Volume}
    (rewords : Rewords reworded job.settings.program job.utility utility)
    (redraws : Redraws reworded lost job.draws draws)
    (kept : ¬ Fails lost (eraseEach job m.candidates m v).result)
    (kept' : ¬ Fails lost
      (eraseEach { job with utility := utility, draws := draws } m.candidates m v).result) :
    (eraseEach job m.candidates m v).Agrees reworded
      (eraseEach { job with utility := utility, draws := draws } m.candidates m v) := by
  cases hd : job.settings.dryRun with
  | false =>
    have hloop := erases hd m.candidates m v fun _ => mem_candidates_lt
    have hd' : ({ job with utility := utility, draws := draws } : Job).settings.dryRun = false := hd
    exact hloop.agrees (erases hd' m.candidates m v fun _ => mem_candidates_lt) rewords redraws
      kept kept'
  | true =>
    have hd' : ({ job with utility := utility, draws := draws } : Job).settings.dryRun = true := hd
    rw [eraseEach_dry hd, eraseEach_dry hd']
    refine ⟨?_, rfl, rfl, .refl _⟩
    rw [(quiet_rehearsal job _).calls,
      (quiet_rehearsal { job with utility := utility, draws := draws } _).calls]
    exact .nil

theorem eraseAll_agrees {m : Metadata} {v : Volume}
    (rewords : Rewords reworded job.settings.program job.utility utility)
    (redraws : Redraws reworded lost job.draws draws)
    (kept : ¬ Fails lost (eraseAll job m.candidates m v).result)
    (kept' : ¬ Fails lost
      (eraseAll { job with utility := utility, draws := draws } m.candidates m v).result) :
    (eraseAll job m.candidates m v).Agrees reworded
      (eraseAll { job with utility := utility, draws := draws } m.candidates m v) := by
  have hloop := eraseEach_agrees (m := m) (v := v) rewords redraws
    (fun ⟨failure, hr, hlost⟩ => kept ⟨failure, by simp only [eraseAll, hr], hlost⟩)
    (fun ⟨failure, hr, hlost⟩ => kept' ⟨failure, by simp only [eraseAll, hr], hlost⟩)
  unfold eraseAll at kept kept' ⊢
  generalize eraseEach job m.candidates m v = stretch at hloop kept ⊢
  generalize eraseEach { job with utility := utility, draws := draws } m.candidates m v = stretch'
    at hloop kept' ⊢
  obtain ⟨deeds, now, w, result⟩ := stretch
  obtain ⟨deeds', now', w', result'⟩ := stretch'
  obtain ⟨hcalls, rfl, rfl, hresult⟩ := hloop
  cases hresult with
  | error hr => exact ⟨hcalls, rfl, rfl, .error hr⟩
  | ok blocks =>
    -- Both loops came to an end, on the same volume; what is left is the write on completion.
    dsimp only at kept kept' ⊢
    split
    · exact ⟨hcalls, rfl, rfl, .ok blocks⟩
    rename_i hdue
    rw [if_neg hdue] at kept kept'
    rcases hw : job.persistAt .completion now w with ⟨writing, verdict, stored⟩
    rcases hw' : Job.persistAt { job with utility := utility, draws := draws } .completion now w
      with ⟨writing', verdict', stored'⟩
    simp only [hw, hw'] at kept kept' ⊢
    have hcalls' := agrees_append hcalls (calls_persistAt hw) (calls_persistAt hw')
    obtain ⟨hverdict, rfl⟩ := redraws.written hw hw'
      (fun ⟨failure, he, hl⟩ => kept ⟨failure, by rw [he], hl⟩)
      (fun ⟨failure, he, hl⟩ => kept' ⟨failure, by rw [he], hl⟩)
    cases hverdict with
    | ok done => exact ⟨hcalls', rfl, rfl, .ok blocks⟩
    | error hr => exact ⟨hcalls', rfl, rfl, .error hr⟩

theorem purge_agrees {m : Metadata} {backup : Bytes} {v : Volume}
    (rewords : Rewords reworded job.settings.program job.utility utility)
    (redraws : Redraws reworded lost job.draws draws)
    (kept : ¬ Fails lost (purge job m backup v).result)
    (kept' : ¬ Fails lost
      (purge { job with utility := utility, draws := draws } m backup v).result) :
    (purge job m backup v).Agrees reworded
      (purge { job with utility := utility, draws := draws } m backup v) := by
  have hall := eraseAll_agrees (m := m) (v := v) rewords redraws
  have hopen := quiet_opening job m m.candidates
  have hopen' : opening { job with utility := utility, draws := draws } m m.candidates =
    opening job m m.candidates := rfl
  unfold purge at kept kept' ⊢
  dsimp only at kept kept' ⊢
  rw [hopen']
  generalize eraseAll job m.candidates m v = stretch at hall kept ⊢
  generalize eraseAll { job with utility := utility, draws := draws } m.candidates m v = stretch'
    at hall kept' ⊢
  obtain ⟨deeds, now, w, result⟩ := stretch
  obtain ⟨deeds', now', w', result'⟩ := stretch'
  obtain ⟨hcalls, -, rfl, hresult⟩ := hall
    (fun ⟨failure, he, hl⟩ => kept ⟨failure, by cases he; rfl, hl⟩)
    (fun ⟨failure, he, hl⟩ => kept' ⟨failure, by cases he; rfl, hl⟩)
  rw [← hopen.calls_append deeds, ← hopen.calls_append deeds'] at hcalls
  cases hresult with
  | error hr => exact ⟨hcalls, rfl, .error hr⟩
  | ok blocks =>
    exact ⟨agrees_append hcalls (quiet_finish _ _).calls (quiet_finish _ _).calls, rfl, .ok _⟩

/-- Runs of utilities that differ in the wording of failures differ in nothing else, whatever is
drawn for their temporary files. -/
theorem run_agrees {settings : Settings} {utility' : Utility} {draws' : Draws} {bar : Nat}
    {v : Volume} (rewords : Rewords reworded settings.program utility utility')
    (redraws : Redraws reworded lost draws draws')
    (kept : ¬ Fails lost (run settings utility bar draws v).result)
    (kept' : ¬ Fails lost (run settings utility' bar draws' v).result) :
    (run settings utility bar draws v).Agrees reworded (run settings utility' bar draws' v) := by
  unfold run at kept kept' ⊢
  split
  · exact ⟨.nil, rfl, .refl _⟩
  rename_i hvalid
  split
  · exact ⟨.nil, rfl, .refl _⟩
  rename_i m hload
  split
  · exact ⟨.nil, rfl, .refl _⟩
  rename_i backup w hbackup
  simp only [hvalid, hload, hbackup] at kept kept'
  have hrest : (purge (jobFor settings utility bar draws m) m backup w).Agrees reworded
      (purge (jobFor settings utility' bar draws' m) m backup w) :=
    purge_agrees rewords redraws kept kept'
  exact ⟨hrest.calls, hrest.volume, hrest.result⟩

end

end BlockPurge.Purge
