import BlockPurge.Proofs.Purge.Interference
import BlockPurge.Proofs.Purge.Wording
import BlockPurge.Proofs.Volume.Outline

/-!
# What the answers make no difference to

Whether a block was erased or not is a matter of its line in the file and of the report. Whether a
run comes to its end is not: two utilities that answer every call and do the same to the volume,
file contents apart, both get a report or neither does. What the one run writes may differ from what
the other does, but a replacement is granted by the outline of the volume.
-/
namespace BlockPurge.Purge

open Volume

/-- The calls of two runs, one by one, leave volumes of the same outline if they find such. -/
def SameEffects (utility utility' : Utility) (row row' : List Call) : Prop :=
  ∀ pair ∈ row.zip row', pair.1.before.SameOutline pair.2.before →
    (utility pair.1.before pair.1.command).2.SameOutline (utility' pair.2.before pair.2.command).2

/-- Every call is answered. -/
def Answered (row : List Call) : Prop :=
  ∀ call ∈ row, ∃ output, call.answer = .ok output

theorem SameEffects.head {utility utility' : Utility} {call call' : Call} {row row' : List Call}
    {answer answer' : Except Failure Output} {after after' : Volume}
    (h : SameEffects utility utility' (call :: row) (call' :: row'))
    (same : call.before.SameOutline call'.before)
    (ha : utility call.before call.command = (answer, after))
    (ha' : utility' call'.before call'.command = (answer', after')) : after.SameOutline after' := by
  have houtline := h (call, call') List.mem_cons_self same
  rwa [ha, ha'] at houtline

theorem SameEffects.tail {utility utility' : Utility} {call call' : Call} {row row' : List Call}
    (h : SameEffects utility utility' (call :: row) (call' :: row')) :
    SameEffects utility utility' row row' :=
  fun pair hm => h pair (List.mem_cons_of_mem _ hm)

section
variable {reworded : Failure → Failure → Prop} {lost : Failure → Prop} {job : Job}
  {utility : Utility} {draws : Draws} {left : List (Nat × BlockState)} {m m' : Metadata}
  {v v' : Volume}

/-- On volumes of the same outline the same write has the same verdict. -/
theorem persist_sameOutline (same : v.SameOutline v') (draw : Draw) (path : Bytes)
    (m m' : Metadata) :
    (m'.persist v' draw path).1 = (m.persist v draw path).1 ∧
      (m.persist v draw path).2.SameOutline (m'.persist v' draw path).2 := by
  obtain ⟨hverdict, houtline⟩ :=
    same.replace draw path (Text.encode m.render) (Text.encode m'.render)
  rcases hr : v.replace draw path (Text.encode m.render) with ⟨_ | _, _⟩ <;>
    rcases hr' : v'.replace draw path (Text.encode m'.render) with ⟨_ | _, _⟩ <;>
    rw [hr, hr'] at hverdict houtline <;>
    cases hverdict
  · simp only [Metadata.persist, hr, hr', true_and]
    exact houtline
  · simp only [Metadata.persist, hr, hr', true_and]
    exact houtline

/-- On volumes of the same outline writes are granted or refused together, whatever is drawn. -/
theorem verdict_sameOutline (redraws : Redraws reworded lost job.draws draws) {occasion : Occasion}
    {writing writing' : List Deed} {verdict verdict' : Except Failure Unit}
    {stored stored' : Volume} (same : v.SameOutline v')
    (hw : job.persistAt occasion m v = (writing, verdict, stored))
    (hw' : Job.persistAt { job with utility := utility, draws := draws } occasion m' v' =
      (writing', verdict', stored'))
    (kept : ¬ Fails lost verdict) (kept' : ¬ Fails lost verdict') :
    verdict.toBool = verdict'.toBool ∧ stored.SameOutline stored' := by
  have hp := persistAt_snd job occasion m v
  have hp' := persistAt_snd { job with utility := utility, draws := draws } occasion m' v'
  rw [hw] at hp
  rw [hw'] at hp'
  dsimp only at hp hp'
  split at hp
  · rename_i hdue
    rw [if_pos hdue] at hp'
    obtain ⟨hverdict, houtline⟩ :=
      persist_sameOutline same (job.draws occasion) job.settings.mpath m m'
    have hagrees := redraws occasion m' v' job.settings.mpath
    rw [← hp] at hverdict houtline
    rw [hverdict, ← hp'] at hagrees
    obtain ⟨hverdicts, hvolume⟩ := hagrees kept kept'
    rw [hvolume] at houtline
    exact ⟨hverdicts.toBool, houtline⟩
  · rename_i hnot
    rw [if_neg hnot] at hp'
    cases hp
    cases hp'
    exact ⟨rfl, same⟩

theorem toBool_after (deeds : List Deed) (report : BlockReport) (stretch : Stretch) :
    (stretch.after deeds report).result.toBool = stretch.result.toBool := by
  unfold Stretch.after
  cases stretch.result <;> rfl

/-- Two loops over the same candidates come to their end together, and leave the same outline. -/
theorem Erases.sameFate {stretch stretch' : Stretch} (h : Erases job left m v stretch)
    (h' : Erases { job with utility := utility, draws := draws } left m' v' stretch')
    (redraws : Redraws reworded lost job.draws draws) (same : v.SameOutline v')
    (answered : Answered (calls stretch.deeds)) (answered' : Answered (calls stretch'.deeds))
    (effects : SameEffects job.utility utility (calls stretch.deeds) (calls stretch'.deeds))
    (kept : ¬ Fails lost stretch.result) (kept' : ¬ Fails lost stretch'.result) :
    stretch.result.toBool = stretch'.result.toBool ∧
      (stretch.result.toBool = true → stretch.volume.SameOutline stretch'.volume) := by
  induction h generalizing m' v' stretch' with
  | done =>
    cases h'
    exact ⟨rfl, fun _ => same⟩
  | unanswered =>
    rw [calls_erasing] at answered
    obtain ⟨output, ⟨⟩⟩ := answered _ (List.mem_singleton_self _)
  | unrecorded ha hw =>
    rw [calls_written hw] at effects
    cases h' with
    | unanswered =>
      rw [calls_erasing] at answered'
      obtain ⟨output, ⟨⟩⟩ := answered' _ (List.mem_singleton_self _)
    | unrecorded => exact ⟨rfl, by rintro ⟨⟩⟩
    | recorded ha' hw' =>
      rw [calls_after hw'] at effects
      have hverdict := (verdict_sameOutline redraws (effects.head same ha ha') hw hw'
        (not_fails_error kept) (not_fails_ok ())).1
      cases hverdict
  | @recorded _ _ _ _ _ _ _ _ stretch ha hw _ ih =>
    rw [calls_after hw] at answered effects
    cases h' with
    | unanswered =>
      rw [calls_erasing] at answered'
      obtain ⟨output, ⟨⟩⟩ := answered' _ (List.mem_singleton_self _)
    | unrecorded ha' hw' =>
      rw [calls_written hw'] at effects
      have hverdict := (verdict_sameOutline redraws (effects.head same ha ha') hw hw'
        (not_fails_ok ()) (not_fails_error kept')).1
      cases hverdict
    | @recorded _ _ _ _ _ _ _ _ stretch' ha' hw' hrest =>
      rw [calls_after hw'] at answered' effects
      have houtline := (verdict_sameOutline redraws (effects.head same ha ha') hw hw'
        (not_fails_ok ()) (not_fails_ok ())).2
      obtain ⟨hres, hvolume⟩ := ih hrest houtline (List.forall_mem_cons.mp answered).2
        (List.forall_mem_cons.mp answered').2 effects.tail (not_fails_of_after kept)
        (not_fails_of_after kept')
      rw [toBool_after, toBool_after]
      exact ⟨hres, hvolume⟩

/-- The write that closes a run is granted in both of two runs or in neither. -/
theorem closing_sameOutline {stretch stretch' : Stretch} {writing writing' : List Deed}
    {verdict verdict' : Except Failure Unit} {stored stored' : Volume}
    (redraws : Redraws reworded lost job.draws draws)
    (same : stretch.volume.SameOutline stretch'.volume)
    (hc : closing job m stretch = (writing, verdict, stored))
    (hc' : closing { job with utility := utility, draws := draws } m stretch' =
      (writing', verdict', stored'))
    (kept : ¬ Fails lost verdict) (kept' : ¬ Fails lost verdict') :
    verdict.toBool = verdict'.toBool := by
  unfold closing at hc hc'
  split at hc
  · rename_i he
    rw [if_pos he] at hc'
    cases hc
    cases hc'
    rfl
  · rename_i he
    rw [if_neg he] at hc'
    exact (verdict_sameOutline redraws same hc hc' kept kept').1

/-- Two real runs from one backup both have a report or neither has. -/
theorem Proceeds.sameFate {backup : Bytes} {w : Volume} {r r' : Run}
    (h : Proceeds job m backup w r)
    (h' : Proceeds { job with utility := utility, draws := draws } m backup w r')
    (redraws : Redraws reworded lost job.draws draws)
    (answered : Answered r.calls) (answered' : Answered r'.calls)
    (effects : SameEffects job.utility utility r.calls r'.calls)
    (kept : ¬ Fails lost r.result) (kept' : ¬ Fails lost r'.result) :
    r.result.toBool = r'.result.toBool := by
  obtain ⟨stretch, hloop, hcalls, -, hend⟩ := h.loop
  obtain ⟨stretch', hloop', hcalls', -, hend'⟩ := h'.loop
  rw [hcalls] at answered effects
  rw [hcalls'] at answered' effects
  have hfate := hloop.sameFate hloop' redraws (SameOutline.refl w) answered answered' effects
  rcases hend with ⟨failure, hres, hr⟩ | ⟨blocks, _, verdict, _, hres, hc, hr⟩ <;>
    rcases hend' with ⟨failure', hres', hr'⟩ | ⟨blocks', _, verdict', _, hres', hc', hr'⟩ <;>
    rw [hr] at kept <;> rw [hr'] at kept' <;> rw [hres, hres'] at hfate
  · rw [hr, hr']
    rfl
  · cases (hfate (not_fails_error kept) (not_fails_ok _)).1
  · cases (hfate (not_fails_ok _) (not_fails_error kept')).1
  · rw [fails_map_iff] at kept kept'
    have houtline := (hfate (not_fails_ok _) (not_fails_ok _)).2 rfl
    have hverdict := closing_sameOutline redraws houtline hc hc' kept kept'
    rw [hr, hr']
    cases verdict <;> cases verdict' <;> first | rfl | cases hverdict

end

/-- Runs of two utilities that answer every call and do the same to the volume, file contents apart,
both have a report or neither has, whatever is drawn. -/
theorem report_indifferent {reworded : Failure → Failure → Prop} {lost : Failure → Prop}
    {settings : Settings} {utility utility' : Utility} {bar : Nat} {draws draws' : Draws}
    {v : Volume} (redraws : Redraws reworded lost draws draws')
    (answered : Answered (run settings utility bar draws v).calls)
    (answered' : Answered (run settings utility' bar draws' v).calls)
    (effects : SameEffects utility utility' (run settings utility bar draws v).calls
      (run settings utility' bar draws' v).calls)
    (kept : ¬ Fails lost (run settings utility bar draws v).result)
    (kept' : ¬ Fails lost (run settings utility' bar draws' v).result) :
    (run settings utility bar draws v).result.toBool =
      (run settings utility' bar draws' v).result.toBool := by
  by_cases started : settings.validate = .ok () ∧ ∃ m, Metadata.load v settings.mpath = .ok m ∧
      ∃ taken, Backup.take v settings.mpath = .ok taken
  case neg =>
    obtain ⟨heq, -⟩ := run_eq_of_unstarted utility utility' bar draws draws'
      fun valid m load taken hb => started ⟨valid, m, load, taken, hb⟩
    rw [heq]
  obtain ⟨valid, m, load, ⟨backup, w⟩, taken⟩ := started
  cases hd : settings.dryRun with
  | true =>
    obtain ⟨-, -, hresult⟩ := dry_eq hd load valid taken utility utility' bar draws draws'
    rw [hresult]
  | false =>
    obtain ⟨before, r, logged, hr, he⟩ := run_proceeds hd load valid taken utility bar draws
    obtain ⟨before', r', logged', hr', he'⟩ := run_proceeds hd load valid taken utility' bar draws'
    rw [he] at answered effects kept ⊢
    rw [he'] at answered' effects kept' ⊢
    rw [logged.calls_append] at answered effects
    rw [logged'.calls_append] at answered' effects
    have hfate : r.result.toBool = r'.result.toBool :=
      hr.sameFate hr' redraws answered answered' effects kept kept'
    exact hfate

end BlockPurge.Purge
