import BlockPurge.Proofs.Purge.Calls
import BlockPurge.Proofs.Purge.Shape

/-!
# How runs end

A run that is refused before its first candidate has shown nothing and called nothing, and has left
the volume as it was if not even the backup was tried. From the backup on a run ends at the first
deed that fails, with the failure of that deed: what a call gave in place of an answer, or the fault
of a write. If no deed fails there is a report. No other end is possible, so a failure that is
worded like one of the library's own checks and comes after the backup is the word of the utility.
-/
namespace BlockPurge

/-- Why no metadata can be loaded from a path: nothing is read there, or something that is no text,
or a text that breaks the format. -/
inductive Metadata.Unloadable (v : Volume) (path : Bytes) : Failure → Prop
  | unread {fault : Fault} : v.read path = .error fault → Unloadable v path (.io fault)
  | noText {content : Bytes} : v.read path = .ok content → Text.decode? content = none →
      Unloadable v path (.io .notUtf8)
  | malformed {content : Bytes} {text row reason : String} {fault : ParseFault} {line : Nat} :
      v.read path = .ok content → Text.decode? content = some text →
      parse text = .error fault → fault.failure = .parse line row reason →
      Unloadable v path (.parse line row reason)

theorem Metadata.unloadable_of_load {v : Volume} {path : Bytes} {failure : Failure}
    (h : load v path = .error failure) : Unloadable v path failure := by
  unfold load Volume.readText at h
  cases hr : v.read path with
  | error fault =>
    simp only [hr, Except.error.injEq] at h
    exact h ▸ .unread hr
  | ok content =>
    cases hd : Text.decode? content with
    | none =>
      simp only [hr, hd, Except.error.injEq] at h
      exact h ▸ .noText hr hd
    | some text =>
      cases hp : parse text with
      | ok m => simp [hr, hd, hp] at h
      | error fault =>
        simp only [hr, hd, hp, Except.error.injEq] at h
        subst h
        cases fault with
        | tooFewLines found => exact .malformed hr hd hp rfl
        | noDevice => exact .malformed hr hd hp rfl
        | badLiteral line content fault => exact .malformed hr hd hp rfl

theorem Backup.io_of_take {v : Volume} {path : Bytes} {failure : Failure}
    (h : take v path = .error failure) : ∃ fault, failure = .io fault := by
  unfold take at h
  split at h
  · exact ⟨_, (Except.error.inj h).symm⟩
  · split at h
    · exact ⟨_, (Except.error.inj h).symm⟩
    · cases h

namespace Purge

theorem Settings.config_of_validate {settings : Settings} {failure : Failure}
    (h : settings.validate = .error failure) : ∃ reason, failure = .config reason := by
  unfold validate at h
  split at h
  · exact ⟨_, (Except.error.inj h).symm⟩
  · split at h
    · exact ⟨_, (Except.error.inj h).symm⟩
    · cases h

/-- How deeds end a run: nothing fails among them, or they end at the first failure. -/
inductive Ends {α : Type} : List Deed → Except Failure α → Prop
  | completed {deeds : List Deed} (a : α) : (∀ deed ∈ deeds, ¬ deed.Fails) → Ends deeds (.ok a)
  /-- The last call has no answer; after it nothing is done but tell of it. -/
  | unanswered {front behind : List Deed} (command : Command) (before : Volume)
      (failure : Failure) : (∀ deed ∈ front, ¬ deed.Fails) → Quiet behind →
      Ends (front ++ .event (.call command before (.error failure)) :: behind) (.error failure)
  /-- The last deed is a write that is refused. -/
  | unrecorded {front : List Deed} (before : Volume) (steps : List Volume.Step) (fault : Fault) :
      (∀ deed ∈ front, ¬ deed.Fails) →
      Ends (front ++ [.replace before ⟨steps, .error fault⟩]) (.error (.io fault))

theorem Quiet.not_fails {deeds : List Deed} (h : Quiet deeds) : ∀ deed ∈ deeds, ¬ deed.Fails :=
  fun _ hm fails => fails.not_quiet h hm

theorem not_fails_append {deeds more : List Deed} (h : ∀ deed ∈ deeds, ¬ deed.Fails)
    (k : ∀ deed ∈ more, ¬ deed.Fails) : ∀ deed ∈ deeds ++ more, ¬ deed.Fails :=
  List.forall_mem_append.mpr ⟨h, k⟩

/-- Deeds that do not fail make no difference to how those after them end. -/
theorem Ends.after {α β : Type} {front deeds : List Deed} {result : Except Failure α}
    (h : Ends deeds result) (hf : ∀ deed ∈ front, ¬ deed.Fails) (f : α → β) :
    Ends (front ++ deeds) (result.map f) := by
  cases h with
  | completed a hd => exact .completed (f a) (not_fails_append hf hd)
  | unanswered command before failure hd hq =>
    rw [← List.append_assoc]
    exact .unanswered command before failure (not_fails_append hf hd) hq
  | unrecorded before steps fault hd =>
    rw [← List.append_assoc]
    exact .unrecorded before steps fault (not_fails_append hf hd)

theorem Ends.not_fails {α : Type} {deeds : List Deed} {result : Except Failure α} {a : α}
    (h : Ends deeds result) (hr : result = .ok a) : ∀ deed ∈ deeds, ¬ deed.Fails := by
  cases h with
  | completed _ hd => exact hd
  | unanswered => cases hr
  | unrecorded => cases hr

/-- The last call among deeds that end without an answer is the one that has none. -/
theorem Ends.last_call {deeds : List Deed} {failure : Failure}
    (h : Ends (α := Report) deeds (.error failure)) (hio : ∀ fault, failure ≠ .io fault) :
    ∃ call, (calls deeds).getLast? = some call ∧ call.answer = .error failure := by
  cases h with
  | @unanswered front behind command before _ _ hq =>
    refine ⟨⟨command, before, .error failure⟩, ?_, rfl⟩
    have hlast : calls (.event (.call command before (.error failure)) :: behind) =
        [⟨command, before, .error failure⟩] :=
      congrArg _ hq.calls
    rw [calls_append, hlast, List.getLast?_concat]
  | unrecorded _ _ fault => exact absurd rfl (hio fault)

section
variable {job : Job} {left : List (Nat × BlockState)} {m : Metadata} {v stored : Volume}
  {stretch : Stretch} {writing : List Deed} {failure : Failure}

/-- A refused write ends what is done before it. -/
theorem ends_of_refused {α : Type} {occasion : Occasion} {front : List Deed}
    (hf : ∀ deed ∈ front, ¬ deed.Fails)
    (hw : job.persistAt occasion m v = (writing, .error failure, stored)) :
    Ends (α := α) (front ++ writing) (.error failure) := by
  obtain ⟨⟨steps, verdict⟩, fault, -, rfl, hv, rfl⟩ := writing_of_refused hw
  obtain rfl : verdict = .error fault := hv
  have hsaid : Quiet [.event updating] := by simp [Quiet, updating, say, Deed.call?, Deed.volumes]
  have hall := not_fails_append hf hsaid.not_fails
  have heq : front ++ [.event updating, .replace v ⟨steps, .error fault⟩] =
      front ++ [.event updating] ++ [.replace v ⟨steps, .error fault⟩] := by simp
  rw [heq]
  exact .unrecorded v steps fault hall

theorem Erases.ends (h : Erases job left m v stretch) : Ends stretch.deeds stretch.result := by
  induction h with
  | done => exact .completed [] (by simp)
  | @unanswered candidate _ _ v _ failure _ =>
    obtain ⟨before, behind, hb, hd, he⟩ := erasing_eq job v candidate.1 (.error failure)
    simp only [he]
    exact .unanswered _ v failure hb.not_fails hd
  | unrecorded _ hw => exact ends_of_refused (not_fails_erasing _) hw
  | recorded _ hw _ ih =>
    exact ih.after (not_fails_append (not_fails_erasing _) (not_fails_of_granted hw)) _

/-- The write that closes a run ends it as its loop has ended, or is refused. -/
theorem ends_closing {blocks : List BlockReport} {verdict : Except Failure Unit}
    (hloop : Ends stretch.deeds stretch.result) (hres : stretch.result = .ok blocks)
    (hc : closing job m stretch = (writing, verdict, stored)) {α : Type} (a : α) :
    Ends (stretch.deeds ++ writing) (verdict.map fun _ => a) := by
  have hsmooth := hloop.not_fails hres
  rcases closing_eq_persistAt hc with ⟨rfl, rfl⟩ | hw
  · exact .completed a (by simpa using hsmooth)
  · cases verdict with
    | error failure => exact ends_of_refused hsmooth hw
    | ok done => exact .completed a (not_fails_append hsmooth (not_fails_of_granted hw))

theorem Proceeds.ends {backup : Bytes} {w : Volume} {r : Run} (h : Proceeds job m backup w r) :
    Ends r.deeds r.result := by
  have hopen := (quiet_opening job m m.candidates).not_fails
  cases h with
  | stopped hloop hres =>
    have hends := hloop.ends
    rw [hres] at hends
    exact hends.after hopen fun _ => reportOf job m backup []
  | unrecorded hloop hres hc =>
    exact (ends_closing hloop.ends hres hc (reportOf job m backup [])).after hopen id
  | @completed _ blocks _ _ hloop hres hc =>
    have hends := (ends_closing hloop.ends hres hc (reportOf job m backup blocks)).after hopen id
    have hfinish := (quiet_finish job.bar ("Purged " ++ job.device)).not_fails
    exact .completed _ (not_fails_append (hends.not_fails rfl) hfinish)

end

/-! ## Runs of any kind -/

/-- A run that fails with nothing called and nothing shown. -/
structure Run.Barren (r : Run) (failure : Failure) : Prop where
  result : r.result = .error failure
  calls : r.calls = []
  displayed : r.displayed = []

/-- How a run ends, by what its settings, its file and its backup come to. -/
structure Accounts (settings : Settings) (v : Volume) (r : Run) : Prop where
  /-- Settings are refused for themselves, and nothing happens. -/
  unfit : ∀ {failure}, settings.validate = .error failure →
    (∃ reason, failure = .config reason) ∧ r.Barren failure ∧ r.volume = v
  /-- Without metadata nothing happens either. -/
  unread : settings.validate = .ok () → ∀ {failure},
    Metadata.load v settings.mpath = .error failure →
    Metadata.Unloadable v settings.mpath failure ∧ r.Barren failure ∧ r.volume = v
  /-- Without a backup nothing is called and nothing shown. -/
  uncopied : settings.validate = .ok () → ∀ {m failure},
    Metadata.load v settings.mpath = .ok m → Backup.take v settings.mpath = .error failure →
    (∃ fault, failure = .io fault) ∧ r.Barren failure
  /-- From the backup on the run ends at its first failure, with that failure, or it reports. -/
  otherwise : settings.validate = .ok () → ∀ {m taken},
    Metadata.load v settings.mpath = .ok m → Backup.take v settings.mpath = .ok taken →
    Ends r.deeds r.result
  /-- Every block that is recorded is there: an input is invalid for the utility alone. -/
  inRange : ∀ {reason}, r.result = .error (.invalidInput reason) →
    ∃ call, r.calls.getLast? = some call ∧ call.answer = .error (.invalidInput reason)
  /-- From the backup on a dry run cannot fail. -/
  rehearsed : settings.dryRun = true → settings.validate = .ok () → ∀ {m taken},
    Metadata.load v settings.mpath = .ok m → Backup.take v settings.mpath = .ok taken →
    ∃ report, r.result = .ok report

theorem Logged.barren {deeds : List Deed} (h : Logged deeds) (v : Volume) (failure : Failure) :
    Run.Barren ⟨deeds, v, .error failure⟩ failure :=
  ⟨rfl, h.quiet.calls, h.displayed⟩

section
variable {settings : Settings} {utility : Utility} {bar : Nat} {draws : Draws} {v w : Volume}
  {m : Metadata} {backup : Bytes}

/-! Before the backup there is one way to end for each thing that is needed. -/

theorem run_unfit (utility : Utility) (bar : Nat) (draws : Draws) (v : Volume) {failure : Failure}
    (refused : settings.validate = .error failure) :
    run settings utility bar draws v = ⟨[], v, .error failure⟩ := by
  simp only [run, refused]

theorem run_unread (utility : Utility) (bar : Nat) (draws : Draws)
    (valid : settings.validate = .ok ())
    {failure : Failure} (unread : Metadata.load v settings.mpath = .error failure) :
    run settings utility bar draws v = ⟨[], v, .error failure⟩ := by
  simp only [run, valid, unread]

theorem run_uncopied (utility : Utility) (bar : Nat) (draws : Draws)
    (valid : settings.validate = .ok ())
    (load : Metadata.load v settings.mpath = .ok m) {failure : Failure}
    (uncopied : Backup.take v settings.mpath = .error failure) :
    ∃ before, Logged before ∧ run settings utility bar draws v = ⟨before, v, .error failure⟩ :=
  ⟨[.event (.log .debug (Metadata.loadedNote settings.mpath m))], by simp [Logged],
    by simp only [run, valid, load, uncopied]⟩

/-- From the backup on a run ends at its first failure. -/
theorem ends_of_taken (valid : settings.validate = .ok ())
    (load : Metadata.load v settings.mpath = .ok m)
    (taken : Backup.take v settings.mpath = .ok (backup, w)) :
    Ends (run settings utility bar draws v).deeds (run settings utility bar draws v).result := by
  cases hd : settings.dryRun with
  | true =>
    obtain ⟨before, logged, he⟩ := run_dry hd load valid taken utility bar draws
    rw [he]
    exact .completed _ (logged.quiet.append (quiet_dry _ m bar _)).not_fails
  | false =>
    obtain ⟨before, r, logged, hproceeds, he⟩ := run_proceeds hd load valid taken utility bar draws
    have hends := hproceeds.ends.after logged.quiet.not_fails id
    rw [he]
    cases hr : r.result <;> rw [hr] at hends <;> exact hends

/-- An input is invalid only by what the last call of a run says. -/
theorem last_call_of_invalidInput {reason : String}
    (h : (run settings utility bar draws v).result = .error (.invalidInput reason)) :
    ∃ call, (run settings utility bar draws v).calls.getLast? = some call ∧
      call.answer = .error (.invalidInput reason) := by
  cases hs : settings.validate with
  | error failure =>
    obtain ⟨other, rfl⟩ := Settings.config_of_validate hs
    rw [run_unfit utility bar draws v hs] at h
    cases h
  | ok done =>
    cases hl : Metadata.load v settings.mpath with
    | error failure =>
      rw [run_unread utility bar draws hs hl] at h
      obtain rfl := Except.error.inj h
      cases Metadata.unloadable_of_load hl
    | ok m =>
      cases hb : Backup.take v settings.mpath with
      | error failure =>
        obtain ⟨before, -, he⟩ := run_uncopied utility bar draws hs hl hb
        obtain ⟨fault, rfl⟩ := Backup.io_of_take hb
        rw [he] at h
        cases h
      | ok taken =>
        have hends : Ends (run settings utility bar draws v).deeds
            (run settings utility bar draws v).result := ends_of_taken hs hl hb
        rw [h] at hends
        exact hends.last_call (by simp)

/-- **Every end of a run is accounted for.** -/
theorem run_accounts (settings : Settings) (utility : Utility) (bar : Nat) (draws : Draws)
    (v : Volume) :
    Accounts settings v (run settings utility bar draws v) := by
  have none : Logged [] := by simp [Logged]
  constructor
  case unfit =>
    intro failure hs
    rw [run_unfit utility bar draws v hs]
    exact ⟨Settings.config_of_validate hs, none.barren v failure, rfl⟩
  case unread =>
    intro hs failure hl
    rw [run_unread utility bar draws hs hl]
    exact ⟨Metadata.unloadable_of_load hl, none.barren v failure, rfl⟩
  case uncopied =>
    intro hs m failure hl hb
    obtain ⟨before, logged, he⟩ := run_uncopied utility bar draws hs hl hb
    rw [he]
    exact ⟨Backup.io_of_take hb, logged.barren v failure⟩
  case otherwise =>
    intro hs m taken hl hb
    exact ends_of_taken hs hl hb
  case inRange =>
    intro reason hr
    exact last_call_of_invalidInput hr
  case rehearsed =>
    intro dry hs m taken hl hb
    obtain ⟨before, -, he⟩ := run_dry dry hl hs hb utility bar draws
    exact ⟨_, by rw [he]⟩

end

end Purge

end BlockPurge
