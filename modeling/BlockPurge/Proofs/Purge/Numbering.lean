import BlockPurge.Proofs.Purge.Shape

/-!
# The number of the indicator

A run is handed a number by which its indicator is known, and passes it on in all that it shows by
the indicator. Nothing else depends on it: with another number the same is done, to the same end.
-/
namespace BlockPurge

/-- The event, said of the indicator with another number. -/
def Progress.Event.renumber (id : Nat) : Progress.Event → Progress.Event
  | .start _ title total current => .start id title total current
  | .message _ text => .message id text
  | .advance _ delta => .advance id delta
  | .finish _ text => .finish id text
  | .line text => .line text

namespace Purge

/-- The deed, with another number for the indicator. -/
def Deed.renumber (bar : Nat) : Deed → Deed
  | .event (.progress e) => .event (.progress (e.renumber bar))
  | deed => deed

def Stretch.renumber (bar : Nat) (s : Stretch) : Stretch :=
  { s with deeds := s.deeds.map (Deed.renumber bar) }

def Run.renumber (bar : Nat) (r : Run) : Run :=
  { r with deeds := r.deeds.map (Deed.renumber bar) }

theorem calls_renumber (bar : Nat) (deeds : List Deed) :
    calls (deeds.map (Deed.renumber bar)) = calls deeds := by
  rw [calls, List.filterMap_map]
  refine congrArg (List.filterMap · deeds) (funext fun deed => ?_)
  rcases deed with (⟨_⟩ | ⟨_, _, _⟩ | ⟨_, _⟩) | ⟨_, _⟩ <;> rfl

private theorem attempt_renumber (job : Job) (bar : Nat) (v : Volume) (index : Nat) :
    ((job.attempt v index).1.map Deed.event).map (Deed.renumber bar) =
      (job.attempt v index).1.map .event := by
  simp only [Job.attempt]
  split <;> rfl

private theorem persistAt_renumber (job : Job) (bar : Nat) (occasion : Occasion) (m : Metadata)
    (v : Volume) :
    (job.persistAt occasion m v).1.map (Deed.renumber bar) = (job.persistAt occasion m v).1 := by
  unfold Job.persistAt
  split
  · unfold Job.persist
    dsimp only
    split <;> rfl
  · rfl

private theorem judge_renumber (bar index : Nat) (output : Output) :
    (Deed.event (Job.judge index output).2.2).renumber bar =
      .event (Job.judge index output).2.2 := by
  unfold Job.judge
  split <;> rfl

/-- The candidates are erased alike, whatever the number of the indicator. -/
theorem eraseEach_renumber (job : Job) (bar : Nat) (left : List (Nat × BlockState)) (m : Metadata)
    (v : Volume) :
    eraseEach { job with bar := bar } left m v = (eraseEach job left m v).renumber bar := by
  induction left generalizing m v with
  | nil => rfl
  | cons candidate rest ih =>
    -- Neither the call nor the write shows anything by the indicator, so their deeds stay as they
    -- are.
    have hcalled := attempt_renumber job bar v candidate.1
    have attempted : Job.attempt { job with bar := bar } v candidate.1 =
        job.attempt v candidate.1 := rfl
    rcases ha : job.attempt v candidate.1 with ⟨called, answer, answered⟩
    rw [ha] at hcalled attempted
    cases answer with
    | error failure =>
      simp only [eraseEach, ha, attempted, Stretch.renumber, List.map_append, hcalled]
      rfl
    | ok output =>
      have hnote := judge_renumber bar candidate.1 output
      simp only [eraseEach, ha, attempted, ih]
      generalize Job.judge candidate.1 output = judged at hnote ⊢
      split
      · simp only [Stretch.renumber, Stretch.after, List.map_append, hcalled]
        rfl
      split
      · simp only [Stretch.renumber, List.map_append, List.map_cons, hcalled, hnote]
        rfl
      rename_i marked _
      have hwriting := persistAt_renumber job bar (.block candidate.1) marked answered
      have persisted :
          Job.persistAt { job with bar := bar } (.block candidate.1) marked answered =
            job.persistAt (.block candidate.1) marked answered := rfl
      rcases hp : job.persistAt (.block candidate.1) marked answered with
        ⟨writing, failure | done, stored⟩
      · rw [hp] at hwriting persisted
        simp only [persisted, Stretch.renumber, List.map_append, List.map_cons, hcalled, hnote,
          hwriting]
        rfl
      · rw [hp] at hwriting persisted
        simp only [persisted, Stretch.renumber, Stretch.after, List.map_append, List.map_cons,
          hcalled, hnote, hwriting]
        rfl

theorem eraseAll_renumber (job : Job) (bar : Nat) (candidates : List (Nat × BlockState))
    (m : Metadata) (v : Volume) :
    eraseAll { job with bar := bar } candidates m v =
      (eraseAll job candidates m v).renumber bar := by
  unfold eraseAll
  rw [eraseEach_renumber]
  rcases eraseEach job candidates m v with ⟨deeds, now, w, failure | blocks⟩
  · rfl
  simp only [Stretch.renumber]
  split
  · rfl
  have hwriting := persistAt_renumber job bar .completion now w
  have persisted : Job.persistAt { job with bar := bar } .completion now w =
      job.persistAt .completion now w := rfl
  rcases hp : job.persistAt .completion now w with ⟨writing, failure | done, stored⟩
  · rw [hp] at hwriting persisted
    simp only [persisted, List.map_append, hwriting]
  · rw [hp] at hwriting persisted
    simp only [persisted, List.map_append, hwriting]

theorem purge_renumber (job : Job) (bar : Nat) (m : Metadata) (backup : Bytes) (v : Volume) :
    purge { job with bar := bar } m backup v = (purge job m backup v).renumber bar := by
  unfold purge
  simp only [eraseAll_renumber]
  rcases eraseAll job m.candidates m v with ⟨deeds, now, w, failure | blocks⟩
  · simp only [Stretch.renumber, Run.renumber, List.map_append]
    rfl
  · simp only [Stretch.renumber, Run.renumber, List.map_append]
    rfl

/-- Runs with different numbers for their indicators differ in nothing else. -/
theorem run_renumber (settings : Settings) (utility : Utility) (bar bar' : Nat) (draws : Draws)
    (v : Volume) : run settings utility bar' draws v =
      (run settings utility bar draws v).renumber bar' := by
  unfold run
  split
  · rfl
  split
  · rfl
  split
  · rfl
  rename_i m _ _ backup w _
  have renumbered := purge_renumber (jobFor settings utility bar draws m) bar' m backup w
  simp only [jobFor] at renumbered
  simp only [renumbered]
  rfl

theorem calls_run_renumber (bar : Nat) (r : Run) : (r.renumber bar).calls = r.calls :=
  calls_renumber bar r.deeds

end Purge

end BlockPurge
