import BlockPurge.Proofs.Keyed
import BlockPurge.Proofs.Progress.Printing
import Mathlib.Data.List.Induction

/-!
# What a line display counts

Requests come in any order, for any number of indicators at once, and also for indicators that are
finished or were never started. The indicators have the numbers of their starts. One that is running
has the count it was started with and what it was advanced by since, up to the largest count,
whatever was asked of others meanwhile. Its finish shows that count, and any other finish shows none
and leaves the display as it is.
-/
namespace BlockPurge.Progress

def Request.isStart : Request → Bool
  | .start .. => true
  | _ => false

/-- The number of indicators that requests start. -/
def starts (requests : List Request) : Nat :=
  requests.countP Request.isStart

theorem starts_append (requests more : List Request) :
    starts (requests ++ more) = starts requests + starts more :=
  List.countP_append

/-- The indicator that a request is addressed to. -/
def Request.target? : Request → Option Nat
  | .start .. => none
  | .message id _ => some id
  | .advance id _ => some id
  | .finish id _ => some id
  | .line _ => none

/-- How far a request takes an indicator. -/
def Request.delta (id : Nat) : Request → Nat
  | .advance other delta => if other = id then delta else 0
  | _ => 0

/-- How far requests take an indicator altogether. -/
def advanced (id : Nat) : List Request → Nat
  | [] => 0
  | request :: rest => request.delta id + advanced id rest

/-- An indicator that requests have started and not finished, its tally at the start, and the
requests since then. -/
structure Running (history : List Request) (id : Nat) (tally : Tally) (since : List Request) :
    Prop where
  started : ∃ before title, history = before ++ .start title tally.total tally.current :: since ∧
    starts before + 1 = id
  unfinished : ∀ text, .finish id text ∉ since

/-- What a request makes of the tally of an indicator, `number` being the one that the next
indicator gets. -/
def Request.effect (id number : Nat) : Request → Option Tally → Option Tally
  | .start _ total current, tally => if id = number then some ⟨current, total⟩ else tally
  | .message _ _, tally => tally
  | .advance other delta, tally => if id = other then tally.map (·.advance delta) else tally
  | .finish other _, tally => if id = other then none else tally
  | .line _, tally => tally

namespace LineDisplay

/-- The replies to requests that are made one after the other. -/
def replies (d : LineDisplay) : List Request → List Reply
  | [] => []
  | request :: rest => (d.handle request).2 :: (d.handle request).1.replies rest

/-- The tally of an indicator that is running. -/
def tally? (d : LineDisplay) (id : Nat) : Option Tally :=
  d.running.lookup id

/-! ## One request -/

theorem started_handle (d : LineDisplay) (request : Request) :
    (d.handle request).1.started = d.started + starts [request] := by
  cases request <;> rfl

/-- **A request changes the tally of an indicator by its effect** and no other. -/
theorem tally?_handle (d : LineDisplay) (request : Request) (id : Nat) :
    (d.handle request).1.tally? id = request.effect id (d.started + 1) (d.tally? id) := by
  cases request with
  | start title total current =>
    by_cases h : id = d.started + 1
    · simp [tally?, handle, Request.effect, h]
    · simp [tally?, handle, Request.effect, h, List.lookup_cons, beq_eq_false_iff_ne.mpr h]
  | message other text => rfl
  | advance other delta => exact lookup_changed d.running other id (·.advance delta)
  | finish other text => exact lookup_dropped d.running other id
  | line text => rfl

/-- A finish of an indicator that is not running leaves the display as it is. -/
theorem handle_finish_idle {d : LineDisplay} {id : Nat} (h : d.tally? id = none) (text : String) :
    d.handle (.finish id text) = (d, ⟨none, text ++ "\n"⟩) := by
  have kept : d.running.filter (·.1 != id) = d.running := by
    rw [List.filter_eq_self]
    intro entry hm
    exact bne_comm.trans (List.lookup_eq_none_iff.mp h entry hm)
  have hl : d.running.lookup id = none := h
  simp [handle, kept, hl]

theorem reply_finish_running {d : LineDisplay} {id : Nat} {tally : Tally}
    (h : d.tally? id = some tally) (text : String) :
    (d.handle (.finish id text)).2 = ⟨none, finalLine text tally.current tally.total ++ "\n"⟩ := by
  have hl : d.running.lookup id = some tally := h
  simp [handle, hl, finalLine]

/-! ## Requests one after the other -/

theorem after_concat (d : LineDisplay) (requests : List Request) (request : Request) :
    d.after (requests ++ [request]) = ((d.after requests).handle request).1 :=
  after_append d requests [request]

theorem replies_concat (d : LineDisplay) (requests : List Request) (request : Request) :
    d.replies (requests ++ [request]) =
      d.replies requests ++ [((d.after requests).handle request).2] := by
  induction requests generalizing d with
  | nil => rfl
  | cons first rest ih =>
    rw [List.cons_append, replies, replies, ih]
    rfl

theorem print_eq_replies (d : LineDisplay) (requests : List Request) :
    d.print requests = String.join ((d.replies requests).map Reply.printed) := by
  induction requests generalizing d with
  | nil => rfl
  | cons request rest ih =>
    rw [print, replies, ih, List.map_cons, String.join_cons]

theorem started_after (d : LineDisplay) (requests : List Request) :
    (d.after requests).started = d.started + starts requests := by
  induction requests using List.reverseRecOn with
  | nil => rfl
  | append_singleton requests request ih =>
    rw [after_concat, started_handle, ih, starts, starts, starts, List.countP_append, Nat.add_assoc]

theorem started_after_fresh (requests : List Request) :
    (fresh.after requests).started = starts requests := by
  rw [started_after]
  exact Nat.zero_add _

/-- Starts hand out the numbers from one on, and no other request hands out a number. -/
theorem numbers_replies (requests : List Request) :
    (fresh.replies requests).filterMap Reply.id = List.range' 1 (starts requests) := by
  induction requests using List.reverseRecOn with
  | nil => rfl
  | append_singleton requests request ih =>
    have hnumber := started_after_fresh requests
    rw [replies_concat, List.filterMap_append, ih, starts_append]
    cases request with
    | start title total current =>
      simp [handle, hnumber, starts, Request.isStart, List.range'_concat, Nat.add_comm]
    | message id text => simp [handle, starts, Request.isStart]
    | advance id delta => simp [handle, starts, Request.isStart]
    | finish id text => simp [handle, starts, Request.isStart]
    | line text => simp [handle, starts, Request.isStart]

/-! ## The tally of an indicator -/

theorem tally?_concat (history : List Request) (request : Request) (id : Nat) :
    (fresh.after (history ++ [request])).tally? id =
      request.effect id (starts history + 1) ((fresh.after history).tally? id) := by
  rw [after_concat, tally?_handle, started_after_fresh]

end LineDisplay

theorem advanced_concat (id : Nat) (since : List Request) (request : Request) :
    advanced id (since ++ [request]) = advanced id since + request.delta id := by
  induction since with
  | nil => simp [advanced]
  | cons first rest ih => simp [advanced, ih, Nat.add_assoc]

theorem Running.concat {history since : List Request} {id : Nat} {tally : Tally}
    (h : Running history id tally since) {request : Request}
    (hr : ∀ text, request ≠ .finish id text) :
    Running (history ++ [request]) id tally (since ++ [request]) where
  started := by
    obtain ⟨before, title, rfl, hid⟩ := h.started
    exact ⟨before, title, by simp, hid⟩
  unfinished := by
    intro text hm
    rcases List.mem_append.mp hm with hm | hm
    · exact h.unfinished text hm
    · exact hr text (List.mem_singleton.mp hm).symm

/-- An indicator has the number of its start, which no later start gets. -/
theorem Running.lt_number {history since : List Request} {id : Nat} {tally : Tally}
    (h : Running history id tally since) : id < starts history + 1 := by
  obtain ⟨before, title, rfl, rfl⟩ := h.started
  simp only [starts, List.countP_append, List.countP_cons, Request.isStart, if_true]
  omega

/-- **A running indicator has the count that it was started with and what it was advanced by
since.** To cap every sum comes to the same as to cap the last one. -/
theorem Running.tally? {history since : List Request} {id : Nat} {tally : Tally}
    (h : Running history id tally since) (fits : tally.current ≤ largestCount) :
    (LineDisplay.fresh.after history).tally? id =
      some ⟨min (tally.current + advanced id since) largestCount, tally.total⟩ := by
  obtain ⟨⟨before, title, rfl, hid⟩, unfinished⟩ := h
  induction since using List.reverseRecOn with
  | nil =>
    rw [LineDisplay.tally?_concat, Request.effect, if_pos hid.symm]
    simp [advanced, fits]
  | append_singleton since request ih =>
    have hopen : ∀ text, .finish id text ∉ since :=
      fun text hm => unfinished text (List.mem_append_left _ hm)
    have running : Running (before ++ .start title tally.total tally.current :: since) id tally
        since :=
      ⟨⟨before, title, rfl, hid⟩, hopen⟩
    rw [← List.cons_append, ← List.append_assoc, LineDisplay.tally?_concat, ih hopen,
      advanced_concat]
    -- What is left is the effect of the last request on the sum that is capped already.
    cases request with
    | start other total current =>
      simp [Request.effect, Request.delta, Nat.ne_of_lt running.lt_number]
    | message other text => rfl
    | advance other delta =>
      by_cases hother : id = other
      · simp [Request.effect, Request.delta, hother, Tally.advance]
        omega
      · simp [Request.effect, Request.delta, hother, Ne.symm hother]
    | finish other text =>
      have hother : id ≠ other := by
        rintro rfl
        exact unfinished text (by simp)
      simp [Request.effect, Request.delta, hother]
    | line text => rfl

/-- What has a tally was started and is not finished. -/
theorem exists_running {history : List Request} {id : Nat} {t : Tally}
    (h : (LineDisplay.fresh.after history).tally? id = some t) :
    ∃ tally since, Running history id tally since := by
  induction history using List.reverseRecOn generalizing t with
  | nil => cases h
  | append_singleton history request ih =>
    rw [LineDisplay.tally?_concat] at h
    have onward : ∀ {t}, (LineDisplay.fresh.after history).tally? id = some t →
        (∀ text, request ≠ .finish id text) →
        ∃ tally since, Running (history ++ [request]) id tally since := by
      intro t ht hr
      obtain ⟨tally, since, running⟩ := ih ht
      exact ⟨tally, since ++ [request], running.concat hr⟩
    cases request with
    | start title total current =>
      by_cases hid : id = starts history + 1
      · exact ⟨⟨current, total⟩, [], ⟨history, title, rfl, hid.symm⟩, by simp⟩
      · rw [Request.effect, if_neg hid] at h
        exact onward h (by simp)
    | message other text => exact onward h (by simp)
    | advance other delta =>
      rw [Request.effect] at h
      split at h
      · obtain ⟨old, hold, -⟩ := Option.map_eq_some_iff.mp h
        exact onward hold (by simp)
      · exact onward h (by simp)
    | finish other text =>
      rw [Request.effect] at h
      split at h
      · cases h
      · rename_i hother
        refine onward h fun text' heq => hother ?_
        exact (Request.finish.inj heq).1.symm
    | line text => exact onward h (by simp)

/-- A request leaves the tallies of all indicators that it is not addressed to, except that a start
makes the one of the next. -/
theorem Request.effect_other {id number : Nat} (hn : id < number) {request : Request}
    (h : request.target? ≠ some id) (tally : Option Tally) :
    request.effect id number tally = tally := by
  cases request with
  | start title total current => simp [effect, Nat.ne_of_lt hn]
  | message other text => rfl
  | advance other delta =>
    have hother : id ≠ other := fun heq => h (congrArg some heq.symm)
    simp [effect, hother]
  | finish other text =>
    have hother : id ≠ other := fun heq => h (congrArg some heq.symm)
    simp [effect, hother]
  | line text => rfl

/-- What a request that is addressed to an indicator does with it does not depend on how many others
there are. -/
theorem Request.effect_number {id : Nat} {request : Request} (h : request.target? = some id)
    (number number' : Nat) (tally : Option Tally) :
    request.effect id number tally = request.effect id number' tally := by
  cases request with
  | start title total current => cases h
  | message other text => rfl
  | advance other delta => rfl
  | finish other text => rfl
  | line text => rfl

/-- The tally of an indicator that was started comes from the requests that were addressed to it. -/
theorem tally?_addressed {history : List Request} {id : Nat} (hid : id ≤ starts history)
    (since : List Request) :
    (LineDisplay.fresh.after (history ++ since)).tally? id =
      (LineDisplay.fresh.after
        (history ++ since.filter fun request => request.target? = some id)).tally? id := by
  induction since using List.reverseRecOn with
  | nil => rfl
  | append_singleton since request ih =>
    -- The two histories have different numbers of starts, but none of them is that of `id`.
    have hnumber : id < starts (history ++ since) + 1 := by
      rw [starts_append]
      omega
    rw [← List.append_assoc, LineDisplay.tally?_concat, ih, List.filter_append]
    by_cases h : request.target? = some id
    · rw [List.filter_singleton, decide_eq_true h, cond_true, ← List.append_assoc,
        LineDisplay.tally?_concat]
      exact Request.effect_number h _ _ _
    · rw [List.filter_singleton, decide_eq_false h, cond_false, List.append_nil]
      exact Request.effect_other hnumber h _

/-! ## The account of a display -/

/-- What a line display that was fresh replies to after some requests, whatever they were. -/
structure Accounts (history : List Request) : Prop where
  /-- The replies to requests are those that each gets after the ones before it, and what is printed
  is what they print. -/
  replied : ∀ request, LineDisplay.fresh.replies (history ++ [request]) =
    LineDisplay.fresh.replies history ++ [((LineDisplay.fresh.after history).handle request).2]
  printed : LineDisplay.fresh.print history =
    String.join ((LineDisplay.fresh.replies history).map Reply.printed)
  /-- The numbers handed out are those from one to the number of starts, in order. -/
  numbers : (LineDisplay.fresh.replies history).filterMap Reply.id = List.range' 1 (starts history)
  start : ∀ title total current,
    ((LineDisplay.fresh.after history).handle (.start title total current)).2 =
      ⟨some (starts history + 1), title ++ "\n"⟩
  line : ∀ text, ((LineDisplay.fresh.after history).handle (.line text)).2 = ⟨none, text ++ "\n"⟩
  message : ∀ id text, ((LineDisplay.fresh.after history).handle (.message id text)).2 = ⟨none, ""⟩
  advance : ∀ id delta,
    ((LineDisplay.fresh.after history).handle (.advance id delta)).2 = ⟨none, ""⟩
  /-- The finish of a running indicator shows the count that it was started with and what it was
  advanced by since, capped at the largest count, and its total. -/
  finishRunning : ∀ id tally since text, Running history id tally since →
    tally.current ≤ largestCount →
    ((LineDisplay.fresh.after history).handle (.finish id text)).2 =
      ⟨none, text ++ (" (" ++ toString (min (tally.current + advanced id since) largestCount) ++
        "/" ++ toString tally.total ++ ")") ++ "\n"⟩
  /-- Any other finish shows its text alone and changes nothing. -/
  finishIdle : ∀ id text, (¬ ∃ tally since, Running history id tally since) →
    (LineDisplay.fresh.after history).handle (.finish id text) =
      (LineDisplay.fresh.after history, ⟨none, text ++ "\n"⟩)
  /-- Once an indicator is started, its tally comes from the requests that are addressed to it:
  those to others, and new starts among them, can be left out. -/
  apart : ∀ id since, id ≤ starts history →
    (LineDisplay.fresh.after (history ++ since)).tally? id =
      (LineDisplay.fresh.after
        (history ++ since.filter fun request => request.target? = some id)).tally? id

/-- **A line display accounts for every indicator by itself**, whatever requests it gets. -/
theorem after_accounts (history : List Request) : Accounts history := by
  constructor
  case replied => exact LineDisplay.replies_concat _ history
  case printed => exact LineDisplay.print_eq_replies _ history
  case numbers => exact LineDisplay.numbers_replies history
  case start =>
    intro title total current
    rw [← LineDisplay.started_after_fresh]
    rfl
  case line => exact fun _ => rfl
  case message => exact fun _ _ => rfl
  case advance => exact fun _ _ => rfl
  case finishRunning =>
    intro id tally since text running fits
    exact LineDisplay.reply_finish_running (running.tally? fits) text
  case finishIdle =>
    intro id text idle
    apply LineDisplay.handle_finish_idle
    cases ht : (LineDisplay.fresh.after history).tally? id with
    | none => rfl
    | some t => exact absurd (exists_running ht) idle
  case apart => exact fun _ since hid => tally?_addressed hid since

/-- Requests for two indicators that are shown at the same time, with one that is finished twice,
one that never was, and a count that goes beyond the largest. -/
def smallRequests : List Request :=
  [.start "Left" 2 0, .start "Right" 5 0xFFFFFFFFFFFFFFFA, .advance 1 1, .advance 2 4,
    .message 2 "on", .advance 2 3, .advance 7 1, .finish 1 "Left done", .finish 1 "Left again",
    .advance 1 9, .line "-"]

/-- The one that is still running is at the largest count, and what the other was asked for since
does not show. -/
theorem after_accounts_small :
    Running smallRequests 2 ⟨0xFFFFFFFFFFFFFFFA, 5⟩ (smallRequests.drop 2) ∧
    ((LineDisplay.fresh.after smallRequests).handle (.finish 2 "Right done")).2 =
      ⟨none, "Right done (18446744073709551615/5)\n"⟩ ∧
    (¬ ∃ tally since, Running smallRequests 1 tally since) ∧
    ((LineDisplay.fresh.after smallRequests).handle (.finish 1 "Left")).2 = ⟨none, "Left\n"⟩ := by
  have accounts := after_accounts smallRequests
  have running : Running smallRequests 2 ⟨0xFFFFFFFFFFFFFFFA, 5⟩ (smallRequests.drop 2) :=
    ⟨⟨[.start "Left" 2 0], "Right", rfl, rfl⟩, by simp [smallRequests]⟩
  have idle : ¬ ∃ tally since, Running smallRequests 1 tally since := by
    rintro ⟨tally, since, ⟨before, title, hsplit, hid⟩, unfinished⟩
    cases before with
    | nil =>
      obtain rfl : smallRequests.drop 1 = since := (List.cons.inj hsplit).2
      exact unfinished "Left done" (by simp [smallRequests])
    | cons first before =>
      obtain ⟨rfl, -⟩ := List.cons.inj hsplit
      simp [starts, Request.isStart] at hid
  refine ⟨running, ?_, idle, ?_⟩
  · rw [accounts.finishRunning 2 _ _ "Right done" running (by decide)]
    rfl
  · rw [accounts.finishIdle 1 "Left" idle]
    rfl

end BlockPurge.Progress
