import BlockPurge.Purge.Run

/-!
# What can be seen of a run

A run is read off its deeds: the calls of the utility with their answers, and its moments, each of
them the answers given by then and the volume as it is. A replacement has a moment before each of
its steps and one after the last, so the moments are all that a reader of the volume could come
upon. Between a call and the next deed that touches the volume nothing changes, so that time has no
moment of its own.
-/
namespace BlockPurge.Purge

/-- A call of the utility: the command, the volume it was made on, and the answer. -/
structure Call where
  command : Command
  before : Volume
  answer : Except Failure Output

/-- The output of a call that was answered. -/
def Call.output? (call : Call) : Option Output :=
  call.answer.toOption

/-- The block that a call is about, as its command names it. -/
def Call.block? (call : Call) : Option String :=
  call.command.arguments.getLast?

/-- The call that a deed is, if it is one. -/
def Deed.call? : Deed → Option Call
  | .event (.call command before answer) => some ⟨command, before, answer⟩
  | _ => none

/-- The volumes that a deed starts from or passes through. -/
def Deed.volumes : Deed → List Volume
  | .event (.call _ before _) => [before]
  | .event _ => []
  | .replace before plan =>
    (List.range (plan.steps.length + 1)).map fun n => before.performAll (plan.steps.take n)

/-- A deed that ends its run: a call without an answer, or a refused replacement. -/
inductive Deed.Fails : Deed → Prop
  | call (command : Command) (before : Volume) (failure : Failure) :
      Fails (.event (.call command before (.error failure)))
  | replace (before : Volume) (steps : List Volume.Step) (fault : Fault) :
      Fails (.replace before ⟨steps, .error fault⟩)

/-- The calls among some deeds. -/
def calls (deeds : List Deed) : List Call :=
  deeds.filterMap Deed.call?

/-- The answers that calls got, in order. -/
def outputs (calls : List Call) : List Output :=
  calls.filterMap Call.output?

/-- The moments of some deeds, the given answers standing before them. -/
def moments (given : List Output) : List Deed → List (List Output × Volume)
  | [] => []
  | deed :: rest =>
    deed.volumes.map (given, ·) ++ moments (given ++ outputs (calls [deed])) rest

/-- The calls of a run. -/
def Run.calls (r : Run) : List Call :=
  Purge.calls r.deeds

/-- The answers given in a run. -/
def Run.answers (r : Run) : List Output :=
  outputs r.calls

/-- The moments of a run, its end among them. -/
def Run.moments (r : Run) : List (List Output × Volume) :=
  Purge.moments [] r.deeds ++ [(r.answers, r.volume)]

/-- What an event shows on the display, if it shows anything. -/
def Event.progress? : Event → Option Progress.Event
  | .progress event => some event
  | _ => none

/-- What some deeds show on the display, in order. -/
def displayed (deeds : List Deed) : List Progress.Event :=
  deeds.filterMap fun deed => deed.event?.bind Event.progress?

/-- What a run shows on the display, in order. -/
def Run.displayed (r : Run) : List Progress.Event :=
  Purge.displayed r.deeds

@[simp] theorem calls_append (deeds more : List Deed) :
    calls (deeds ++ more) = calls deeds ++ calls more :=
  List.filterMap_append

@[simp] theorem outputs_append (cs more : List Call) :
    outputs (cs ++ more) = outputs cs ++ outputs more :=
  List.filterMap_append

@[simp] theorem displayed_append (deeds more : List Deed) :
    displayed (deeds ++ more) = displayed deeds ++ displayed more :=
  List.filterMap_append

theorem moments_append (given : List Output) (deeds more : List Deed) :
    moments given (deeds ++ more) =
      moments given deeds ++ moments (given ++ outputs (calls deeds)) more := by
  induction deeds generalizing given with
  | nil => simp [moments, calls, outputs]
  | cons deed rest ih =>
    have hc : calls (deed :: rest) = calls [deed] ++ calls rest := calls_append [deed] rest
    rw [List.cons_append, moments, moments, ih, hc, outputs_append, List.append_assoc,
      List.append_assoc]

theorem toBool_eq_true_iff {ε α : Type} {x : Except ε α} : x.toBool = true ↔ ∃ a, x = .ok a := by
  cases x <;> simp [Except.toBool]

/-! ## Quiet deeds -/

/-- Deeds that neither call the utility nor touch the volume. -/
def Quiet (deeds : List Deed) : Prop :=
  ∀ deed ∈ deeds, deed.call? = none ∧ deed.volumes = []

theorem Quiet.append {deeds more : List Deed} (h : Quiet deeds) (k : Quiet more) :
    Quiet (deeds ++ more) :=
  List.forall_mem_append.mpr ⟨h, k⟩

theorem Quiet.calls {deeds : List Deed} (h : Quiet deeds) : calls deeds = [] :=
  List.filterMap_eq_nil_iff.mpr fun deed hm => (h deed hm).1

theorem Quiet.moments {deeds : List Deed} (h : Quiet deeds) (given : List Output) :
    moments given deeds = [] := by
  induction deeds generalizing given with
  | nil => rfl
  | cons deed rest ih =>
    obtain ⟨⟨-, hv⟩, hr⟩ := List.forall_mem_cons.mp h
    rw [Purge.moments, hv, List.map_nil, List.nil_append]
    exact ih hr _

theorem Quiet.calls_append {deeds : List Deed} (h : Quiet deeds) (more : List Deed) :
    Purge.calls (deeds ++ more) = Purge.calls more := by
  rw [Purge.calls_append, h.calls, List.nil_append]

theorem Quiet.moments_append {deeds : List Deed} (h : Quiet deeds) (given : List Output)
    (more : List Deed) : Purge.moments given (deeds ++ more) = Purge.moments given more := by
  rw [Purge.moments_append, h.moments, h.calls, List.nil_append]
  exact congrArg (Purge.moments · more) (List.append_nil given)

theorem Deed.Fails.not_quiet {deed : Deed} (h : deed.Fails) {deeds : List Deed} (k : Quiet deeds) :
    deed ∉ deeds := by
  intro hm
  obtain ⟨hc, hv⟩ := k deed hm
  cases h with
  | call => cases hc
  | replace => simp [Deed.volumes] at hv

/-- The deeds of a run are some main ones, and quiet ones around them. -/
def Run.Around (r : Run) (main : List Deed) : Prop :=
  ∃ before behind, Quiet before ∧ Quiet behind ∧ r.deeds = before ++ main ++ behind

section
variable {r : Run} {main : List Deed}

theorem Run.Around.calls (h : r.Around main) : r.calls = Purge.calls main := by
  obtain ⟨before, behind, hb, hd, he⟩ := h
  rw [Run.calls, he, Purge.calls_append, hd.calls, List.append_nil, hb.calls_append]

theorem Run.Around.moments (h : r.Around main) :
    r.moments = Purge.moments [] main ++ [(r.answers, r.volume)] := by
  obtain ⟨before, behind, hb, hd, he⟩ := h
  rw [Run.moments, he, Purge.moments_append, hd.moments, List.append_nil, hb.moments_append]

theorem Run.Around.mem (h : r.Around main) {deed : Deed} (hm : deed ∈ main) : deed ∈ r.deeds := by
  obtain ⟨before, behind, -, -, he⟩ := h
  exact he ▸ List.mem_append_left behind (List.mem_append_right before hm)

end

end BlockPurge.Purge
