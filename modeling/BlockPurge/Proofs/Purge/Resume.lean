import BlockPurge.Proofs.Purge.History

/-!
# Stopping and going on

A run that records block by block and is stopped by a call without an answer leaves exactly its
answers recorded, so the next run finds the candidates that are left, the one it was stopped at
first. However often that happens, the run that completes at last leaves the file that one run
without a stop leaves, and over all runs each candidate has been answered once.
-/
namespace BlockPurge.Purge

/-- The block of a call and its answer, if the call was answered. -/
def Call.settled? (call : Call) : Option (Option String × Output) :=
  call.output?.map (call.block?, ·)

/-- The blocks for which calls were answered, with the answers, in order. -/
def settled (calls : List Call) : List (Option String × Output) :=
  calls.filterMap Call.settled?

/-- A real run that records block by block, whose utility answers as given if it answers at all. -/
structure Episode.Faithful (e : Episode) (device : String) (answer : Nat → Output) : Prop where
  real : e.settings.dryRun = false
  perBlock : e.settings.persistence = .perBlock
  answers : ∀ v block output,
    (e.utility v (Erase.command e.settings.program (e.settings.deviceStart ++ device) block)).1 =
      .ok output → output = answer block

/-- Some call of the run was not answered. -/
def Episode.Stopped (e : Episode) : Prop :=
  ∃ call ∈ e.run.calls, call.output? = none

/-- The run ends well. -/
def Episode.Completed (e : Episode) : Prop :=
  ∃ report, e.run.result = .ok report

/-- The answers that some blocks get. -/
def settlement (answer : Nat → Output) (blocks : List Nat) : List (Option String × Output) :=
  blocks.map fun block => (some (toString block), answer block)

theorem outputs_eq_settled (calls : List Call) : outputs calls = (settled calls).map Prod.snd := by
  rw [outputs, settled, List.map_filterMap]
  have hone : (fun call : Call => call.output?) = fun call => call.settled?.map Prod.snd := by
    funext call
    cases h : call.output? <;> simp [Call.settled?, h]
  exact congrArg (List.filterMap · calls) hone

/-! ## One run -/

section
variable {job : Job} {content : String} {m : Metadata} {v after : Volume} {main : List Deed}
  {result : Except Failure Report} {answer : Nat → Output}

/-- The answered calls of a loop are those for its first candidates. -/
theorem Erases.settled {left : List (Nat × BlockState)} {stretch : Stretch}
    (h : Erases job left m v stretch)
    (answers : ∀ u block output,
      (job.utility u (job.command block)).1 = .ok output → output = answer block) :
    ∃ n, settled (calls stretch.deeds) = settlement answer ((left.map Prod.fst).take n) := by
  induction h with
  | done => exact ⟨0, rfl⟩
  | unanswered => exact ⟨0, by rw [calls_erasing]; rfl⟩
  | unrecorded ha hw =>
    have heq := answers _ _ _ (congrArg Prod.fst ha)
    subst heq
    exact ⟨1, by rw [calls_written hw]; rfl⟩
  | recorded ha hw hr ih =>
    have heq := answers _ _ _ (congrArg Prod.fst ha)
    subst heq
    obtain ⟨n, hn⟩ := ih
    refine ⟨n + 1, ?_⟩
    rw [calls_after hw, List.map_cons, List.take_succ_cons, settlement, List.map_cons]
    exact congrArg (List.cons _) hn

/-- So they are over a whole run. -/
theorem Goes.settled (h : Goes job m v main after result)
    (answers : ∀ u block output,
      (job.utility u (job.command block)).1 = .ok output → output = answer block) :
    ∃ n, settled (calls main) = settlement answer (m.candidateBlocks.take n) := by
  rcases h.loop with hc | ⟨_, _, _, -, hloop, hc, -⟩
  · exact ⟨0, by rw [hc]; rfl⟩
  · rw [hc]
    exact hloop.settled answers

/-- A run that is stopped or completes leaves its answers recorded, which are those for the first
candidates; a run that completes has answers for all of them. -/
theorem Episode.Faithful.run {e : Episode} (h : e.Faithful m.device answer)
    (stored : Metadata.Stored e.start e.settings.mpath content m) (sound : e.start.Sound)
    (spares : e.utility.Spares e.settings.mpath) :
    ∃ n, Purge.settled e.run.calls = settlement answer (m.candidateBlocks.take n) ∧
      (e.Stopped ∨ e.Completed → e.run.volume.read e.settings.mpath =
        .ok (Text.encode (m.textAfter content ((m.candidateBlocks.take n).map answer)))) ∧
      (e.Completed → m.candidateBlocks.take n = m.candidateBlocks) := by
  obtain ⟨main, around, hgoes⟩ := goes e.utility e.bar e.draws stored h.real
  have hcalls : e.run.calls = calls main := around.calls
  obtain ⟨n, hn⟩ := hgoes.settled h.answers
  have hans : outputs (calls main) = (m.candidateBlocks.take n).map answer := by
    rw [outputs_eq_settled, hn, settlement, List.map_map]
    rfl
  obtain ⟨held, -, shows, -, hok⟩ := hgoes.rising stored sound spares
  refine ⟨n, hcalls ▸ hn, ?_, fun ⟨report, hres⟩ => ?_⟩
  · rintro (⟨call, hm, hnone⟩ | ⟨report, hres⟩)
    · cases hf : call.answer with
      | ok output => simp [Call.output?, hf, Except.toOption] at hnone
      | error failure =>
        rw [← hans]
        exact hgoes.read_of_unanswered stored sound spares h.perBlock (hcalls ▸ hm) hf
    · obtain ⟨rfl, -⟩ := hok report hres
      rw [← hans]
      exact shows.read
  · have hlen := (hok report hres).2
    rw [hans, List.length_map, List.length_take] at hlen
    have hcount : m.candidates.length = m.candidateBlocks.length := by
      rw [Metadata.candidateBlocks, List.length_map]
    exact List.take_of_length_le (by omega)

end

/-! ## Many runs -/

section
variable {path : Bytes} {content : String} {m : Metadata} {answer : Nat → Output}

/-- What some stopped runs and a last one that completes come to. -/
structure Resumes (path : Bytes) (content : String) (m : Metadata) (answer : Nat → Output)
    (episodes : List Episode) (final : Volume) : Prop where
  /-- Over all runs each candidate is answered once, in block order. -/
  settled : episodes.flatMap (fun e => Purge.settled e.run.calls) =
    settlement answer m.candidateBlocks
  /-- The file has all answers recorded. -/
  file : final.read path =
    .ok (Text.encode (m.textAfter content (m.candidateBlocks.map answer)))

theorem Succession.resumes {episodes : List Episode} {last : Episode}
    (parsed : Metadata.parse content = .ok m)
    (h : Succession path (.ok (Text.encode content)) (episodes ++ [last]))
    (faithful : ∀ e ∈ episodes ++ [last], e.Faithful m.device answer)
    (stopped : ∀ e ∈ episodes, e.Stopped) (completed : last.Completed) :
    Resumes path content m answer (episodes ++ [last]) last.run.volume := by
  induction episodes generalizing content m with
  | nil =>
    obtain ⟨rfl, spares, sound, read, -⟩ := h
    obtain ⟨n, hsettled, hread, hall⟩ :=
      (faithful last (by simp)).run ⟨read, parsed⟩ sound spares
    rw [hall completed] at hsettled hread
    exact ⟨by simpa using hsettled, hread (.inr completed)⟩
  | cons e rest ih =>
    obtain ⟨hpath, spares, sound, read, hrest⟩ := h
    obtain ⟨hstop, hstops⟩ := List.forall_mem_cons.mp stopped
    obtain ⟨hfirst, hfaithful⟩ := List.forall_mem_cons.mp faithful
    obtain ⟨n, hsettled, hread, -⟩ := hfirst.run ⟨hpath ▸ read, parsed⟩ sound (hpath ▸ spares)
    rw [hpath] at hread
    rw [hread (.inl hstop)] at hrest
    generalize hdone : (m.candidateBlocks.take n).map answer = done at hrest
    have hdevice := (m.header_after done).2.1
    obtain ⟨hmore, hfile⟩ := ih (Metadata.parse_textAfter parsed done) hrest
      (hdevice ▸ hfaithful) hstops
    have hleft : (m.after done).candidateBlocks = m.candidateBlocks.drop n := by
      rw [Metadata.candidateBlocks_after, ← hdone, List.length_map, List.length_take]
      rcases Nat.le_total n m.candidateBlocks.length with hle | hle
      · rw [Nat.min_eq_left hle]
      · rw [Nat.min_eq_right hle, List.drop_length, List.drop_of_length_le hle]
    rw [hleft] at hmore hfile
    refine ⟨?_, ?_⟩
    · rw [List.cons_append, List.flatMap_cons, hmore, hsettled, settlement, settlement,
        ← List.map_append, List.take_append_drop, settlement]
    · rw [hfile, ← Metadata.textAfter_append, ← hdone, ← List.map_append, List.take_append_drop]

/-- Runs that are stopped, and a last one that completes, come to the same as one run without a
stop. -/
theorem resumed_eq_uninterrupted {episodes : List Episode} {last solo : Episode}
    (parsed : Metadata.parse content = .ok m)
    (together : Succession path (.ok (Text.encode content)) (episodes ++ [last]))
    (alone : Succession path (.ok (Text.encode content)) [solo])
    (faithful : ∀ e ∈ solo :: (episodes ++ [last]), e.Faithful m.device answer)
    (stopped : ∀ e ∈ episodes, e.Stopped) (completed : last.Completed)
    (whole : solo.Completed) :
    last.run.volume.read path = solo.run.volume.read path ∧
      Resumes path content m answer (episodes ++ [last]) last.run.volume ∧
      m.candidateBlocks.Pairwise (· < ·) := by
  obtain ⟨hsolo, hfaithful⟩ := List.forall_mem_cons.mp faithful
  have resumes := together.resumes parsed hfaithful stopped completed
  have once : Resumes path content m answer ([] ++ [solo]) solo.run.volume :=
    Succession.resumes parsed alone (by simpa using hsolo) (by simp) whole
  exact ⟨resumes.file.trans once.file.symm, resumes, m.candidateBlocks_ascending⟩

end

theorem Episode.completed_iff {e : Episode} : e.Completed ↔ e.run.result.toBool = true :=
  toBool_eq_true_iff.symm

/-- The run that goes on where the one on the small file was stopped. -/
def smallResumed : Episode :=
  ⟨smallSettings .perBlock, smallUtility, 1, smallDraws, smallStopped.run.volume⟩

/-- The same run from the start. -/
def smallWhole : Episode :=
  ⟨smallSettings .perBlock, smallUtility, 1, smallDraws, smallVolume⟩

/-- What both utilities of the small file answer, if they answer. -/
def smallAnswer (block : Nat) : Output :=
  ⟨if toString block = "0" then some 0 else some 1, "", ""⟩

theorem small_answers (v : Volume) {program device : String} {block : Nat} {output : Output}
    (h : (smallUtility v (Erase.command program device block)).1 = .ok output) :
    output = smallAnswer block := by
  simpa [smallUtility, smallAnswer, Erase.command, Erase.span] using h.symm

theorem small_broken_answers (v : Volume) {program device : String} {block : Nat} {output : Output}
    (h : (smallBrokenUtility v (Erase.command program device block)).1 = .ok output) :
    output = smallAnswer block := by
  by_cases hb : block.repr = "0"
  · simpa [smallBrokenUtility, smallAnswer, Erase.command, Erase.span, hb] using h.symm
  · simp [smallBrokenUtility, Erase.command, Erase.span, hb] at h

theorem small_faithful :
    ∀ e ∈ smallWhole :: ([smallStopped] ++ [smallResumed]),
      e.Faithful smallMetadata.device smallAnswer := by
  intro e he
  simp only [List.singleton_append, List.mem_cons, List.not_mem_nil, or_false] at he
  rcases he with rfl | rfl | rfl
  · exact ⟨rfl, rfl, fun v _ _ => small_answers v⟩
  · exact ⟨rfl, rfl, fun v _ _ => small_broken_answers v⟩
  · exact ⟨rfl, rfl, fun v _ _ => small_answers v⟩

/-- The small file, stopped at its second candidate and taken up again. -/
theorem resumed_eq_uninterrupted_small :
    smallResumed.run.volume.read [47, 100, 47, 109] =
      smallWhole.run.volume.read [47, 100, 47, 109] ∧
    smallStopped.run.answers.length = 1 ∧ smallResumed.run.answers.length = 1 := by
  have together : Succession [47, 100, 47, 109] (.ok (Text.encode smallText))
      ([smallStopped] ++ [smallResumed]) :=
    ⟨rfl, small_broken_spares, small_sound, small_stored.read,
      rfl, small_spares, Volume.sound_of_root (by decide +kernel), by rw [smallResumed], trivial⟩
  have alone : Succession [47, 100, 47, 109] (.ok (Text.encode smallText)) [smallWhole] :=
    ⟨rfl, small_spares, small_sound, small_stored.read, trivial⟩
  have stopped : ∀ e ∈ [smallStopped], e.Stopped := by
    unfold Episode.Stopped
    decide +kernel
  have completed : smallResumed.Completed := Episode.completed_iff.mpr (by decide +kernel)
  have whole : smallWhole.Completed := Episode.completed_iff.mpr (by decide +kernel)
  have resumed := resumed_eq_uninterrupted small_stored.parsed together alone small_faithful
    stopped completed whole
  exact ⟨resumed.1, by decide +kernel, by decide +kernel⟩

end BlockPurge.Purge
