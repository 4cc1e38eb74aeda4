import BlockPurge.Proofs.Purge.Calls

/-!
# What the file holds while candidates are erased

At every moment the file holds the outcomes of the first so many answers, and their number never
goes down. If outcomes are recorded block by block, at most the last answer is missing; otherwise
none is recorded before the end. The invariant of the loop ties the file, the metadata in memory and
the candidates that are left to the answers given so far; one step of the loop keeps it.
-/
namespace BlockPurge

/-- A utility that leaves what a path reads as, whatever else it does to the volume. -/
structure Utility.Spares (utility : Utility) (path : Bytes) : Prop where
  read : ∀ v command, (utility v command).2.read path = v.read path
  sound : ∀ v command, v.Sound → (utility v command).2.Sound

/-- Of the answers given so far, those that the file holds between one candidate and the next. -/
def Persistence.recorded : Persistence → List Output → List Output
  | .perBlock, answers => answers
  | .onCompletion, _ => []

theorem Persistence.recorded_isPrefix (time : Persistence) (answers : List Output) :
    time.recorded answers <+: answers := by
  cases time with
  | perBlock => exact List.prefix_refl answers
  | onCompletion => exact List.nil_prefix

namespace Purge

/-- Things in order, over which more and more answers are held. -/
inductive Rising {α : Type} (holds : List Output → α → Prop) :
    List Output → List α → List Output → Prop
  | still (held : List Output) : Rising holds held [] held
  | next {held more last : List Output} {a : α} {rest : List α} : holds more a → held <+: more →
      Rising holds more rest last → Rising holds held (a :: rest) last

section
variable {α : Type} {holds : List Output → α → Prop}

theorem Rising.append {held more last : List Output} {front back : List α}
    (h : Rising holds held front more) (k : Rising holds more back last) :
    Rising holds held (front ++ back) last := by
  induction h with
  | still => exact k
  | next hs hp _ ih => exact .next hs hp (ih k)

theorem Rising.isPrefix {held last : List Output} {row : List α} (h : Rising holds held row last) :
    held <+: last := by
  induction h with
  | still => exact List.prefix_refl _
  | next _ hp _ ih => exact hp.trans ih

/-- Each thing holds answers between those at the start and those at the end. -/
theorem Rising.holds_of_mem {held last : List Output} {row : List α}
    (h : Rising holds held row last)
    {a : α} (hm : a ∈ row) : ∃ some, holds some a ∧ held <+: some ∧ some <+: last := by
  induction h with
  | still => cases hm
  | next hs hp hr ih =>
    rcases List.mem_cons.mp hm with rfl | hm
    · exact ⟨_, hs, hp, hr.isPrefix⟩
    · obtain ⟨some, hs', hp', hl⟩ := ih hm
      exact ⟨some, hs', hp.trans hp', hl⟩

/-- Of two things, the later one holds what the earlier one does and perhaps more. -/
theorem Rising.pairwise {held last : List Output} {row : List α} (h : Rising holds held row last) :
    row.Pairwise fun a b => ∃ some more, holds some a ∧ holds more b ∧ held <+: some ∧
      some <+: more ∧ more <+: last := by
  induction h with
  | still => exact .nil
  | next hs hp hr ih =>
    refine List.pairwise_cons.mpr ⟨fun b hb => ?_, ih.imp ?_⟩
    · obtain ⟨more, hm, hpm, hl⟩ := hr.holds_of_mem hb
      exact ⟨_, more, hs, hm, hp, hpm, hl⟩
    · rintro a b ⟨some, more, ha, hb, h1, h2, h3⟩
      exact ⟨some, more, ha, hb, hp.trans h1, h2, h3⟩

end

section
variable (path : Bytes) (content : String) (m : Metadata) (time : Persistence)

/-- A moment at which the file holds the outcomes of some of the answers given, the first ones: all
but one at least, if they are recorded block by block. -/
structure Shows (held : List Output) (moment : List Output × Volume) : Prop where
  read : moment.2.read path = .ok (Text.encode (m.textAfter content held))
  given : held <+: moment.1
  lag : time = .perBlock → moment.1.length ≤ held.length + 1

/-- The invariant of the loop: what was answered so far, the candidates that are left, the metadata
in memory, and the volume. -/
structure Pending (answers : List Output) (left : List (Nat × BlockState)) (now : Metadata)
    (v : Volume) : Prop where
  memory : now = m.after answers
  candidates : now.candidates = left
  sound : v.Sound
  read : v.read path = .ok (Text.encode (m.textAfter content (time.recorded answers)))

end

section
variable {path : Bytes} {content : String} {m : Metadata} {time : Persistence}

/-- Moments that all show the same outcomes, and one that may show more. -/
theorem rising_of_front {held more given : List Output} {front : List Volume} {stored : Volume}
    (hf : ∀ u ∈ front, Shows path content m time held (given, u))
    (hs : Shows path content m time more (given, stored)) (hp : held <+: more) :
    Rising (Shows path content m time) held (front.map (given, ·) ++ [(given, stored)]) more := by
  induction front with
  | nil => exact .next hs hp (.still more)
  | cons u rest ih =>
    obtain ⟨hu, hr⟩ := List.forall_mem_cons.mp hf
    exact .next hu (List.prefix_refl held) (ih hr)

/-- Over a write the file goes from the outcomes that it held to those that are written. -/
theorem Writes.rising {held more given : List Output} {writing : List Deed} {stored : Volume}
    {verdict : Except Failure Unit}
    (h : Writes path (Text.encode (m.textAfter content held))
      (Text.encode (m.textAfter content more)) writing verdict stored)
    (hp : held <+: more) (hg : more <+: given)
    (lag : time = .perBlock → given.length ≤ held.length + 1) :
    (verdict = .ok () → Shows path content m time more (given, stored) ∧
      Rising (Shows path content m time) held (Purge.moments given writing) more) ∧
    ∀ {failure}, verdict = .error failure → Shows path content m time held (given, stored) ∧
      Rising (Shows path content m time) held (Purge.moments given writing) held := by
  obtain ⟨front, hm, hf⟩ := h.moments given
  have shown : ∀ u ∈ front, Shows path content m time held (given, u) :=
    fun u hu => ⟨hf u hu, hp.trans hg, lag⟩
  rw [hm]
  constructor
  · intro hv
    have hs : Shows path content m time more (given, stored) :=
      ⟨(h.granted hv).2, hg, fun ht => (lag ht).trans (Nat.add_le_add_right hp.length_le 1)⟩
    exact ⟨hs, rising_of_front shown hs hp⟩
  · intro failure hv
    have hs : Shows path content m time held (given, stored) :=
      ⟨h.refused hv, hp.trans hg, lag⟩
    exact ⟨hs, rising_of_front shown hs (List.prefix_refl held)⟩

theorem Pending.shows {answers : List Output} {left : List (Nat × BlockState)} {now : Metadata}
    {v : Volume} (h : Pending path content m time answers left now v) :
    Shows path content m time (time.recorded answers) (answers, v) where
  read := h.read
  given := time.recorded_isPrefix answers
  lag := by
    intro heq
    subst heq
    exact Nat.le_succ _

end

/-! ## One step of the loop -/

section
variable {job : Job} {path : Bytes} {content : String} {m now : Metadata} {time : Persistence}
  {answers : List Output} {candidate : Nat × BlockState} {rest : List (Nat × BlockState)}
  {v stored : Volume} {output : Output} {writing : List Deed}

/-- A utility that spares the file keeps the invariant. -/
theorem Pending.spared {left : List (Nat × BlockState)} {answered : Volume} {command : Command}
    {answer : Except Failure Output} (h : Pending path content m time answers left now v)
    (spares : job.utility.Spares path) (ha : job.utility v command = (answer, answered)) :
    Pending path content m time answers left now answered where
  memory := h.memory
  candidates := h.candidates
  sound := by
    have hs := spares.sound v command h.sound
    rwa [ha] at hs
  read := by
    have hr := spares.read v command
    rw [ha, h.read] at hr
    exact hr

theorem Pending.candidateBlocks_drop {left : List (Nat × BlockState)}
    (h : Pending path content m time answers left now v) :
    m.candidateBlocks.drop answers.length = left.map Prod.fst := by
  rw [← Metadata.candidateBlocks_after, ← h.memory, ← h.candidates, Metadata.candidateBlocks]

theorem Pending.mark (h : Pending path content m time answers (candidate :: rest) now v)
    (output : Output) : now.mark candidate.1 output = m.after (answers ++ [output]) := by
  rw [Metadata.after_concat h.candidateBlocks_drop, h.memory]

/-- The invariant after an answer has been dealt with, if the file then holds what it should. -/
theorem Pending.next (h : Pending path content m time answers (candidate :: rest) now v)
    (sound : stored.Sound) (read : stored.read path =
      .ok (Text.encode (m.textAfter content (time.recorded (answers ++ [output]))))) :
    Pending path content m time (answers ++ [output]) rest (now.mark candidate.1 output)
      stored where
  memory := h.mark output
  candidates := Metadata.candidates_mark h.candidates output
  sound := sound
  read := read

variable (hpath : job.settings.mpath = path) (htime : job.settings.persistence = time)
include hpath htime

/-- A write of one outcome, or its absence where none is due. -/
private theorem Pending.writes (h : Pending path content m time answers (candidate :: rest) now v)
    {verdict : Except Failure Unit}
    (hw : job.persistAt (.block candidate.1) (now.mark candidate.1 output) v =
      (writing, verdict, stored)) :
    (time = .onCompletion ∧ writing = [] ∧ verdict = .ok () ∧ stored = v) ∨
    (time = .perBlock ∧ Writes path (Text.encode (m.textAfter content answers))
      (Text.encode (m.textAfter content (answers ++ [output]))) writing verdict stored) := by
  subst hpath htime
  unfold Job.persistAt at hw
  cases ht : job.settings.persistence with
  | onCompletion =>
    rw [if_neg (by simp [ht, Occasion.policy])] at hw
    cases hw
    exact .inl ⟨rfl, rfl, rfl, rfl⟩
  | perBlock =>
    rw [if_pos (by simp [ht, Occasion.policy])] at hw
    have read := h.read
    rw [ht] at read
    rw [Metadata.textAfter_concat, ← h.mark]
    exact .inr ⟨rfl, writes_of_persist h.sound read hw⟩

/-- After a granted write the loop goes on with one more answer. -/
theorem Pending.granted (h : Pending path content m time answers (candidate :: rest) now v)
    (hw : job.persistAt (.block candidate.1) (now.mark candidate.1 output) v =
      (writing, .ok (), stored)) :
    Pending path content m time (answers ++ [output]) rest (now.mark candidate.1 output) stored ∧
      Rising (Shows path content m time) (time.recorded answers)
        (moments (answers ++ [output]) writing) (time.recorded (answers ++ [output])) := by
  rcases h.writes hpath htime hw with ⟨rfl, rfl, -, rfl⟩ | ⟨rfl, hs⟩
  · exact ⟨h.next h.sound h.read, .still _⟩
  · obtain ⟨sound, read⟩ := hs.granted rfl
    have lag : Persistence.perBlock = .perBlock →
        (answers ++ [output]).length ≤ answers.length + 1 := fun _ => by simp
    have hr := hs.rising (List.prefix_append answers [output]) (List.prefix_refl _) lag
    exact ⟨h.next sound read, (hr.1 rfl).2⟩

/-- After a refused write the file still holds all answers but the last. -/
theorem Pending.refused (h : Pending path content m time answers (candidate :: rest) now v)
    {failure : Failure}
    (hw : job.persistAt (.block candidate.1) (now.mark candidate.1 output) v =
      (writing, .error failure, stored)) :
    time = .perBlock ∧ Shows path content m time answers (answers ++ [output], stored) ∧
      Rising (Shows path content m time) answers (moments (answers ++ [output]) writing)
        answers := by
  rcases h.writes hpath htime hw with ⟨-, -, hv, -⟩ | ⟨rfl, hs⟩
  · cases hv
  · have lag : Persistence.perBlock = .perBlock →
        (answers ++ [output]).length ≤ answers.length + 1 := fun _ => by simp
    have hr := hs.rising (List.prefix_append answers [output]) (List.prefix_refl _) lag
    exact ⟨rfl, hr.2 rfl⟩

end

/-! ## The whole loop -/

section
variable {job : Job} {path : Bytes} {content : String} {m now : Metadata} {time : Persistence}
  {answers : List Output} {left : List (Nat × BlockState)} {v : Volume} {stretch : Stretch}

/-- What the file holds over the loop, and when it ends. -/
theorem Erases.rising (h : Erases job left now v stretch) (spares : job.utility.Spares path)
    (hpath : job.settings.mpath = path) (htime : job.settings.persistence = time)
    (hp : Pending path content m time answers left now v) :
    ∃ held, Rising (Shows path content m time) (time.recorded answers)
        (moments answers stretch.deeds) held ∧
      Shows path content m time held
        (answers ++ outputs (calls stretch.deeds), stretch.volume) ∧
      (time = .onCompletion → held = []) ∧
      ∀ reports, stretch.result = .ok reports →
        held = time.recorded (answers ++ outputs (calls stretch.deeds)) ∧
        Pending path content m time (answers ++ outputs (calls stretch.deeds)) [] stretch.metadata
          stretch.volume := by
  induction h generalizing answers with
  | done now v =>
    refine ⟨time.recorded answers, .still _, ?_, ?_, ?_⟩
    · simpa [calls, outputs] using hp.shows
    · intro heq
      subst heq
      rfl
    · intro reports impossible
      cases impossible
      simpa [calls, outputs] using hp
  | unanswered ha =>
    rw [moments_erasing, outputs_erasing_error, List.append_nil]
    refine ⟨time.recorded answers, .next hp.shows (List.prefix_refl _) (.still _),
      (hp.spared spares ha).shows, ?_, ?_⟩
    · intro heq
      subst heq
      rfl
    · intro reports impossible
      cases impossible
  | unrecorded ha hw =>
    obtain ⟨rfl, shows, row⟩ := (hp.spared spares ha).refused hpath htime hw
    have hc := calls_persistAt hw
    refine ⟨answers, ?_, ?_, ?_, ?_⟩
    · rw [moments_append, moments_erasing, outputs_erasing_ok]
      exact .next hp.shows (List.prefix_refl _) row
    · rw [calls_append, hc, List.append_nil, outputs_erasing_ok]
      exact shows
    · intro impossible
      cases impossible
    · intro reports impossible
      cases impossible
  | @recorded candidate rest now v answered stored output writing stretch ha hw hr ih =>
    obtain ⟨next, row⟩ := (hp.spared spares ha).granted hpath htime hw
    have hc := calls_persistAt hw
    obtain ⟨held, hrow, shows, hnone, hok⟩ := ih next
    have hall : answers ++ outputs (calls (stretch.after
        (job.erasing v candidate.1 (.ok output) ++ writing) (Job.report candidate output)).deeds) =
        answers ++ [output] ++ outputs (calls stretch.deeds) := by
      rw [Stretch.after, calls_append, calls_append, hc, List.append_nil, outputs_append,
        outputs_erasing_ok, List.append_assoc]
    rw [hall]
    refine ⟨held, ?_, shows, hnone, fun reports ho => ?_⟩
    · rw [Stretch.after, moments_append, moments_append, moments_erasing, calls_append, hc,
        List.append_nil, outputs_erasing_ok]
      exact .append (.append (.next hp.shows (List.prefix_refl _) (.still _)) row) hrow
    · cases hres : stretch.result with
      | error failure => simp [Stretch.after, hres, Except.map] at ho
      | ok reports => exact hok reports hres

private theorem of_getElem?_singleton {α : Type} {a b : α} {k : Nat} (h : [a][k]? = some b) :
    k = 0 ∧ a = b := by
  cases k with
  | zero => exact ⟨rfl, Option.some.inj h⟩
  | succ k => cases h

/-- When a candidate is called for, the file holds what was to be recorded of the answers before. -/
theorem Erases.read_at_call (h : Erases job left now v stretch) (spares : job.utility.Spares path)
    (hpath : job.settings.mpath = path) (htime : job.settings.persistence = time)
    (hp : Pending path content m time answers left now v) {k : Nat} {call : Call}
    (hk : (calls stretch.deeds)[k]? = some call) :
    call.before.read path = .ok (Text.encode (m.textAfter content
      (time.recorded (answers ++ (outputs (calls stretch.deeds)).take k)))) := by
  induction h generalizing answers k with
  | done => simp [calls] at hk
  | unanswered =>
    rw [calls_erasing] at hk
    obtain ⟨rfl, rfl⟩ := of_getElem?_singleton hk
    simpa using hp.read
  | unrecorded ha hw =>
    rw [calls_written hw] at hk
    obtain ⟨rfl, rfl⟩ := of_getElem?_singleton hk
    simpa using hp.read
  | recorded ha hw hr ih =>
    have next := ((hp.spared spares ha).granted hpath htime hw).1
    rw [calls_after hw] at hk ⊢
    cases k with
    | zero =>
      have heq := Option.some.inj hk
      subst heq
      simpa using hp.read
    | succ k =>
      have hread := ih next hk
      rw [List.append_assoc] at hread
      exact hread

end

end Purge

end BlockPurge
