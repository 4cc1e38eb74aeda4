import BlockPurge.Proofs.Purge.Turns

/-!
# Interference

The file is read once, before the first candidate. From then on a run goes by what it has in memory,
so two utilities that answer alike make for the same calls, the same display and the same result,
whatever they do to the volume. Every write says all that is known by then and goes where the path
leads at that time, so the last one leaves the same text in either run, for whoever may still read
the path.
-/
namespace BlockPurge

/-- A utility that leaves the current folder in its place, or removes it. -/
def Utility.Grounded (utility : Utility) : Prop :=
  ∀ v command, v.Standing → (utility v command).2.Standing

namespace Purge

open Volume

/-- The last write of a run: the volume it was made on, and what it leaves at a path. -/
structure WroteLast (r : Run) (u : Volume) (path content : Bytes) : Prop where
  /-- No call and no write comes after it. -/
  last : ∃ front plan behind, r.deeds = front ++ .replace u plan :: behind ∧ Quiet behind
  /-- It lands where the path led on that volume, and changes nothing else. -/
  landed : ∃ place mode, u.renameTarget (u.replacedPath path) = .ok place ∧
    Replaced place content mode u r.volume
  /-- The path reads as what was written, unless its user had no right to read it then either. -/
  read : ¬ u.Reenters path → r.volume.read path = .ok content ∨
    u.read path = .error (.system .permissionDenied) ∧
      r.volume.read path = .error (.system .permissionDenied)

/-- Two runs with the same settings from the same volume, however much else was done to that in the
meantime. -/
structure Unswayed (settings : Settings) (utility utility' : Utility) (v : Volume) (r r' : Run) :
    Prop where
  calls : r.calls.map (fun call => (call.command, call.answer)) =
    r'.calls.map fun call => (call.command, call.answer)
  displayed : r.displayed = r'.displayed
  result : r.result = r'.result
  /-- Real runs that report on a candidate both leave all outcomes behind. -/
  stored : settings.dryRun = false → v.Standing → utility.Grounded → utility'.Grounded →
    ∀ {m report}, Metadata.load v settings.mpath = .ok m → m.candidates ≠ [] →
    r.result = .ok report →
    r.answers = r'.answers ∧ r.answers.length = m.candidates.length ∧
    (∃ u, WroteLast r u settings.mpath (Text.encode (m.after r.answers).render)) ∧
    ∃ u, WroteLast r' u settings.mpath (Text.encode (m.after r.answers).render)

/-! ## The same answers make for the same course -/

/-- Two loops over the same candidates get the same answers, as far as these go by the command. -/
theorem Erases.answers_eq {job : Job} {utility : Utility} {draws : Draws}
    {left : List (Nat × BlockState)} {m m' : Metadata} {v v' : Volume} {stretch stretch' : Stretch}
    (h : Erases job left m v stretch)
    (h' : Erases { job with utility := utility, draws := draws } left m' v' stretch')
    (granted : ∀ deed ∈ stretch.deeds, deed.isGranted = true)
    (granted' : ∀ deed ∈ stretch'.deeds, deed.isGranted = true)
    (same : ∀ call ∈ calls stretch.deeds, ∀ call' ∈ calls stretch'.deeds,
      call.command = call'.command → call.answer = call'.answer) :
    (calls stretch.deeds).map Call.answer = (calls stretch'.deeds).map Call.answer := by
  induction h generalizing m' v' stretch' with
  | done =>
    cases h'
    rfl
  | unanswered =>
    cases h' with
    | unanswered =>
      rw [calls_erasing, calls_erasing] at same ⊢
      have hfirst := same _ (List.mem_singleton_self _) _ (List.mem_singleton_self _) rfl
      simpa using hfirst
    | unrecorded _ hw => exact absurd hw (not_refused_of_granted (granted_append granted').2)
    | recorded _ hw =>
      rw [calls_erasing, calls_after hw] at same
      cases same _ (List.mem_singleton_self _) _ List.mem_cons_self rfl
  | unrecorded _ hw => exact absurd hw (not_refused_of_granted (granted_append granted).2)
  | recorded _ hw _ ih =>
    cases h' with
    | unanswered =>
      rw [calls_erasing, calls_after hw] at same
      cases same _ List.mem_cons_self _ (List.mem_singleton_self _) rfl
    | unrecorded _ hw' => exact absurd hw' (not_refused_of_granted (granted_append granted').2)
    | recorded _ hw' hrest =>
      rw [calls_after hw, calls_after hw'] at same ⊢
      have hfirst := same _ List.mem_cons_self _ List.mem_cons_self rfl
      have hlater := ih hrest (granted_append granted).2 (granted_append granted').2
        fun call hm call' hm' => same call (List.mem_cons_of_mem _ hm) call'
          (List.mem_cons_of_mem _ hm')
      exact congrArg₂ List.cons hfirst hlater

theorem answers_eq_of_map {r r' : Run}
    (same : r.calls.map Call.answer = r'.calls.map Call.answer) : r.answers = r'.answers := by
  have hof : ∀ calls : List Call,
      outputs calls = (calls.map Call.answer).filterMap Except.toOption := by
    intro calls
    rw [List.filterMap_map]
    rfl
  rw [Run.answers, Run.answers, hof, hof, same]

/-- What is told of a run and how it ends goes by its answers. -/
theorem Told.eq_of_answers {job : Job} {utility : Utility} {draws : Draws} {m : Metadata}
    {backup : Bytes} {r r' : Run} (h : Told job m backup r)
    (h' : Told { job with utility := utility, draws := draws } m backup r')
    (same : r.calls.map Call.answer = r'.calls.map Call.answer) :
    r.calls.map (fun call => (call.command, call.answer)) =
        r'.calls.map (fun call => (call.command, call.answer)) ∧
      r.displayed = r'.displayed ∧ r.result = r'.result := by
  have hlen : r.calls.length = r'.calls.length := by simpa using congrArg List.length same
  have hcommands : r.calls.map Call.command = r'.calls.map Call.command := by
    rw [h.commands, h'.commands, hlen]
    rfl
  have houtputs := answers_eq_of_map same
  have hresult : r.result = r'.result := by
    have hsame := same
    rcases h.course with ⟨ha, -, hr⟩ | ⟨failure, ha, hr⟩ <;>
      rcases h'.course with ⟨ha', -, hr'⟩ | ⟨failure', ha', hr'⟩ <;>
      rw [ha, ha', houtputs] at hsame
    · rw [hr, hr', houtputs]
      rfl
    · simp at hsame
    · simp at hsame
    · have hlast := List.singleton_inj.mp (List.append_cancel_left hsame)
      rw [hr, hr', Except.error.inj hlast]
  refine ⟨?_, ?_, hresult⟩
  · rw [← List.zip_map', ← List.zip_map', hcommands, same]
  · rw [h.displayed, h'.displayed, same, hresult]
    rfl

/-! ## The last write -/

section
variable {job : Job} {left : List (Nat × BlockState)} {m : Metadata} {v stored : Volume}
  {stretch : Stretch} {writing : List Deed}

theorem standing_persistAt {occasion : Occasion} (standing : v.Standing)
    (hw : job.persistAt occasion m v = (writing, .ok (), stored)) : stored.Standing := by
  rcases replace_of_persistAt hw with rfl | hreplace
  · exact standing
  · exact standing_replace standing hreplace

/-- The volume stays grounded over a loop that comes to its end. -/
theorem Erases.standing (h : Erases job left m v stretch) (grounded : job.utility.Grounded)
    {blocks : List BlockReport} (hres : stretch.result = .ok blocks) (standing : v.Standing) :
    stretch.volume.Standing :=
  h.keeps (fun {v} command => grounded v command) (fun hu hw => standing_replace hu hw) standing
    hres

/-- A loop that records outcomes one by one ends with a write of them all. -/
theorem Erases.lastWrite (h : Erases job left m v stretch) (grounded : job.utility.Grounded)
    (one : job.settings.persistence = .perBlock) {blocks : List BlockReport}
    (hres : stretch.result = .ok blocks) (standing : v.Standing) (hne : left ≠ []) :
    ∃ front occasion u writing, stretch.deeds = front ++ writing ∧ u.Standing ∧
      job.persist occasion stretch.metadata u = (writing, .ok (), stretch.volume) := by
  induction h generalizing blocks with
  | done => exact absurd rfl hne
  | unanswered => cases hres
  | unrecorded => cases hres
  | @recorded candidate rest m v answered stored output writing stretch ha hw hrest ih =>
    have grounds := grounded v (job.command candidate.1) standing
    rw [ha] at grounds
    cases rest with
    | nil =>
      cases hrest
      rw [Job.persistAt, if_pos (by simp [one, Occasion.policy])] at hw
      exact ⟨job.erasing v candidate.1 (.ok output), .block candidate.1, answered, writing,
        by simp [Stretch.after], grounds, hw⟩
    | cons next more =>
      cases hr : stretch.result with
      | error failure => simp [Stretch.after, hr, Except.map] at hres
      | ok later =>
        obtain ⟨front, occasion, u, last, hd, hu, hlast⟩ :=
          ih hr (standing_persistAt grounds hw) (by simp)
        exact ⟨job.erasing v candidate.1 (.ok output) ++ writing ++ front, occasion, u, last,
          by simp [Stretch.after, hd], hu, hlast⟩

/-- In memory are all outcomes at the end of a loop, whatever the volume holds. -/
theorem Erases.metadata_eq (h : Erases job left m v stretch) (hc : m.candidates = left)
    {blocks : List BlockReport} (hres : stretch.result = .ok blocks) :
    stretch.metadata = m.after (outputs (calls stretch.deeds)) := by
  induction h generalizing blocks with
  | done => simp [calls, outputs]
  | unanswered => cases hres
  | unrecorded => cases hres
  | @recorded candidate rest m v _ _ output writing stretch ha hw _ ih =>
    cases hr : stretch.result with
    | error failure => simp [Stretch.after, hr, Except.map] at hres
    | ok later =>
      have hblocks : m.candidateBlocks = candidate.1 :: rest.map Prod.fst := by
        rw [Metadata.candidateBlocks, hc, List.map_cons]
      have hrest := ih (Metadata.candidates_mark hc output) hr
      have houtputs : outputs (calls (stretch.after (job.erasing v candidate.1 (.ok output) ++
          writing) (Job.report candidate output)).deeds) =
          output :: outputs (calls stretch.deeds) := by
        rw [calls_after hw]
        rfl
      rw [houtputs, Metadata.after_cons hblocks]
      exact hrest

/-- A granted write with nothing but quiet deeds behind it is the last one. -/
theorem wroteLast_of_persist {r : Run} {behind : List Deed} {occasion : Occasion} {u : Volume}
    (front : List Deed) (hw : job.persist occasion m u = (writing, .ok (), r.volume))
    (standing : u.Standing) (short : job.settings.mpath.length ≤ longestPath)
    (hd : r.deeds = front ++ writing ++ behind) (hq : Quiet behind) :
    WroteLast r u job.settings.mpath (Text.encode m.render) := by
  have hreplace := replace_of_persist hw
  obtain ⟨plan, rest, rfl, hrest⟩ := writing_of_persist hw
  obtain ⟨place, ht, -, hreplaced⟩ := replaced_of_replace hreplace
  constructor
  case last =>
    exact ⟨front ++ [.event updating], plan, rest ++ behind, by simp [hd], hrest.append hq⟩
  case landed => exact ⟨place, _, ht, hreplaced⟩
  case read =>
    intro hb
    rcases readsNew_of_replace (fun _ => standing) hreplace hb with hg | ⟨hu, hv⟩ | hlong
    · exact .inl hg
    · exact .inr ⟨hu, hv⟩
    · exact absurd short (Nat.not_le.mpr hlong)

/-- A run that reports on a candidate ends with a write of all outcomes. -/
theorem Proceeds.wroteLast {backup : Bytes} {w : Volume} {r : Run} {report : Report}
    (h : Proceeds job m backup w r) (hr : r.result = .ok report) (hne : m.candidates ≠ [])
    (grounded : job.utility.Grounded) (standing : w.Standing)
    (short : job.settings.mpath.length ≤ longestPath) :
    ∃ u, WroteLast r u job.settings.mpath (Text.encode (m.after r.answers).render) := by
  cases h with
  | stopped => cases hr
  | unrecorded => cases hr
  | @completed stretch blocks writing stored hloop hres hc =>
    have hquiet := quiet_finish job.bar ("Purged " ++ job.device)
    have hmetadata := hloop.metadata_eq rfl hres
    rw [Run.answers, Run.calls, calls_completed hc, ← hmetadata]
    rcases closing_cases hc with ⟨hnone | one, rfl, -, rfl⟩ | ⟨-, -, hw⟩
    · exact absurd hnone hne
    · obtain ⟨front, occasion, u, last, hd, hu, hw⟩ :=
        hloop.lastWrite grounded one hres standing hne
      exact ⟨u, wroteLast_of_persist ((opening job m m.candidates).map .event ++ front) hw hu short
        (by simp only [hd, List.append_nil, List.append_assoc]) hquiet⟩
    · have hu := hloop.standing grounded hres standing
      exact ⟨stretch.volume, wroteLast_of_persist
        ((opening job m m.candidates).map .event ++ stretch.deeds) hw hu short
        (by simp only [List.append_assoc]) hquiet⟩

/-- What is logged in front of a run makes no difference to its last write. -/
theorem WroteLast.behind {r : Run} {before : List Deed} {u : Volume} {path content : Bytes}
    (h : WroteLast r u path content) :
    WroteLast { r with deeds := before ++ r.deeds } u path content := by
  obtain ⟨front, plan, behind, hd, hq⟩ := h.last
  exact ⟨⟨before ++ front, plan, behind, by simp [hd], hq⟩, h.landed, h.read⟩

end

theorem length_of_load {v : Volume} {path : Bytes} {m : Metadata}
    (load : Metadata.load v path = .ok m) : path.length ≤ longestPath := by
  unfold Metadata.load readText at load
  cases hr : v.read path with
  | error fault => simp [hr] at load
  | ok content =>
    obtain ⟨q, mode, hl, -, -⟩ := read_eq_ok_iff.mp hr
    exact (acceptable_iff.mp hl.acceptable).2.2

/-! ## Runs of any kind -/

section
variable {settings : Settings} {v : Volume}

/-- Without metadata and its backup a run is over before its utility and what is drawn count. -/
theorem run_eq_of_unstarted (utility utility' : Utility) (bar : Nat) (draws draws' : Draws)
    (h : settings.validate = .ok () → ∀ m, Metadata.load v settings.mpath = .ok m →
      ∀ taken, Backup.take v settings.mpath ≠ .ok taken) :
    run settings utility bar draws v = run settings utility' bar draws' v ∧
      ∃ failure, (run settings utility bar draws v).result = .error failure := by
  unfold run
  cases hs : settings.validate with
  | error failure => exact ⟨rfl, failure, rfl⟩
  | ok done =>
    cases hl : Metadata.load v settings.mpath with
    | error failure => exact ⟨rfl, failure, rfl⟩
    | ok m =>
      cases hb : Backup.take v settings.mpath with
      | error failure => exact ⟨rfl, failure, rfl⟩
      | ok taken => exact absurd hb (h hs m hl taken)

/-- The utility and what is drawn make no difference to a dry run. -/
theorem dry_eq {w : Volume} {m : Metadata} {backup : Bytes} (dry : settings.dryRun = true)
    (load : Metadata.load v settings.mpath = .ok m) (valid : settings.validate = .ok ())
    (taken : Backup.take v settings.mpath = .ok (backup, w)) (utility utility' : Utility)
    (bar : Nat) (draws draws' : Draws) :
    (run settings utility bar draws v).calls = [] ∧
      (run settings utility bar draws v).displayed =
        (run settings utility' bar draws' v).displayed ∧
      (run settings utility bar draws v).result = (run settings utility' bar draws' v).result := by
  obtain ⟨before, logged, he⟩ := run_dry dry load valid taken utility bar draws
  obtain ⟨before', logged', he'⟩ := run_dry dry load valid taken utility' bar draws'
  rw [he, he']
  refine ⟨(logged.quiet.append (quiet_dry _ m bar _)).calls, ?_, rfl⟩
  rw [Run.displayed, Run.displayed, displayed_append, displayed_append, logged.displayed,
    logged'.displayed]
  rfl

variable {utility utility' : Utility} {bar : Nat} {draws draws' : Draws}

/-- The answers of two real runs are the same if they are block by block. -/
theorem answers_eq_of_taken {w : Volume} {m : Metadata} {backup : Bytes}
    (real : settings.dryRun = false) (load : Metadata.load v settings.mpath = .ok m)
    (valid : settings.validate = .ok ())
    (taken : Backup.take v settings.mpath = .ok (backup, w))
    (same : ∀ call ∈ (run settings utility bar draws v).calls,
      ∀ call' ∈ (run settings utility' bar draws' v).calls,
      call.command = call'.command → call.answer = call'.answer)
    (granted : ∀ deed ∈ (run settings utility bar draws v).deeds, deed.isGranted = true)
    (granted' : ∀ deed ∈ (run settings utility' bar draws' v).deeds, deed.isGranted = true) :
    (run settings utility bar draws v).calls.map Call.answer =
      (run settings utility' bar draws' v).calls.map Call.answer := by
  obtain ⟨before, r, logged, hr, he⟩ := run_proceeds real load valid taken utility bar draws
  obtain ⟨before', r', logged', hr', he'⟩ := run_proceeds real load valid taken utility' bar draws'
  obtain ⟨stretch, hloop, hcalls, hdeeds, -⟩ := hr.loop
  obtain ⟨stretch', hloop', hcalls', hdeeds', -⟩ := hr'.loop
  rw [he] at same granted ⊢
  rw [he'] at same granted' ⊢
  rw [logged.calls_append, logged'.calls_append, hcalls, hcalls'] at same ⊢
  exact hloop.answers_eq hloop'
    (fun deed hm => granted deed (List.mem_append_right before (hdeeds deed hm)))
    (fun deed hm => granted' deed (List.mem_append_right before' (hdeeds' deed hm))) same

/-- A real run that reports on a candidate leaves all outcomes behind. -/
theorem wroteLast_of_taken {w : Volume} {m : Metadata} {backup : Bytes} {report : Report}
    (real : settings.dryRun = false) (load : Metadata.load v settings.mpath = .ok m)
    (valid : settings.validate = .ok ())
    (taken : Backup.take v settings.mpath = .ok (backup, w)) (standing : v.Standing)
    (grounded : utility.Grounded) (hne : m.candidates ≠ [])
    (hr : (run settings utility bar draws v).result = .ok report) :
    ∃ u, WroteLast (run settings utility bar draws v) u settings.mpath
      (Text.encode (m.after (run settings utility bar draws v).answers).render) := by
  obtain ⟨before, r, logged, hproceeds, he⟩ := run_proceeds real load valid taken utility bar draws
  rw [he] at hr ⊢
  have hanswers : Run.answers { r with deeds := before ++ r.deeds } = r.answers :=
    congrArg outputs (logged.calls_append r)
  obtain ⟨u, hu⟩ := hproceeds.wroteLast hr hne grounded (Backup.standing_take taken standing)
    (length_of_load load)
  rw [hanswers]
  exact ⟨u, hu.behind⟩

/-- **A run goes by what it has loaded and by the answers it gets, and by nothing else that happens
to the volume.** -/
theorem run_unswayed
    (same : ∀ call ∈ (run settings utility bar draws v).calls,
      ∀ call' ∈ (run settings utility' bar draws' v).calls,
      call.command = call'.command → call.answer = call'.answer)
    (granted : ∀ deed ∈ (run settings utility bar draws v).deeds, deed.isGranted = true)
    (granted' : ∀ deed ∈ (run settings utility' bar draws' v).deeds, deed.isGranted = true) :
    Unswayed settings utility utility' v (run settings utility bar draws v)
      (run settings utility' bar draws' v) := by
  by_cases started : settings.validate = .ok () ∧ ∃ m, Metadata.load v settings.mpath = .ok m ∧
      ∃ taken, Backup.take v settings.mpath = .ok taken
  case neg =>
    obtain ⟨heq, failure, hf⟩ := run_eq_of_unstarted utility utility' bar draws draws'
      fun valid m load taken hb => started ⟨valid, m, load, taken, hb⟩
    refine ⟨by rw [heq], by rw [heq], by rw [heq], ?_⟩
    intro _ _ _ _ m report _ _ hr
    cases hf.symm.trans hr
  obtain ⟨valid, m, load, ⟨backup, w⟩, taken⟩ := started
  cases hd : settings.dryRun with
  | true =>
    obtain ⟨hcalls, hshown, hresult⟩ := dry_eq hd load valid taken utility utility' bar draws draws'
    obtain ⟨hcalls', -, -⟩ := dry_eq hd load valid taken utility' utility bar draws' draws
    refine ⟨by rw [hcalls, hcalls'], hshown, hresult, ?_⟩
    intro real
    cases hd.symm.trans real
  | false =>
    have hsame := answers_eq_of_taken hd load valid taken same granted granted'
    have told := run_told hd load valid taken granted
    have told' := run_told hd load valid taken granted'
    obtain ⟨hcalls, hshown, hresult⟩ := told.eq_of_answers told' hsame
    refine ⟨hcalls, hshown, hresult, ?_⟩
    intro _ standing grounded grounded' m' report load' hne hr
    cases load.symm.trans load'
    have hanswers := answers_eq_of_map hsame
    obtain ⟨u, hu⟩ := wroteLast_of_taken hd load valid taken standing grounded hne hr
    obtain ⟨u', hu'⟩ := wroteLast_of_taken hd load valid taken standing grounded' hne
      (hresult ▸ hr)
    refine ⟨hanswers, ?_, ⟨u, hu⟩, u', hanswers ▸ hu'⟩
    rcases told.course with ⟨-, hlen, -⟩ | ⟨failure, -, hf⟩
    · exact hlen
    · cases hf.symm.trans hr

end

/-- A utility that answers as the one that erases the first block alone does, and writes over the
small file at every call. -/
def smallScribblingUtility : Utility := fun v command =>
  ((smallUtility v command).1, (v.write [47, 100, 47, 109] [63]).toOption.getD v)

theorem small_grounded : smallUtility.Grounded :=
  fun _ _ => id

theorem small_scribbling_grounded : smallScribblingUtility.Grounded := by
  intro v command standing
  cases hw : v.write [47, 100, 47, 109] [63] with
  | error fault => simpa [smallScribblingUtility, hw, Except.toOption] using standing
  | ok w =>
    have hs := standing_write standing hw
    simpa [smallScribblingUtility, hw, Except.toOption] using hs

/-- The scribbling is gone after the run, and all outcomes are there. -/
theorem run_unswayed_small :
    Unswayed (smallSettings .perBlock) smallUtility smallScribblingUtility smallVolume
      (run (smallSettings .perBlock) smallUtility 1 smallDraws smallVolume)
      (run (smallSettings .perBlock) smallScribblingUtility 1 smallDraws smallVolume) ∧
    ∃ u, WroteLast (run (smallSettings .perBlock) smallScribblingUtility 1 smallDraws smallVolume) u
      [47, 100, 47, 109] (Text.encode "nvme0\n\n\n0x02\n0x5\n0x08\n") := by
  have unswayed : Unswayed (smallSettings .perBlock) smallUtility smallScribblingUtility smallVolume
      (run (smallSettings .perBlock) smallUtility 1 smallDraws smallVolume)
      (run (smallSettings .perBlock) smallScribblingUtility 1 smallDraws smallVolume) :=
    run_unswayed (by decide +kernel) (by decide +kernel) (by decide +kernel)
  refine ⟨unswayed, ?_⟩
  have completes : (run (smallSettings .perBlock) smallUtility 1 smallDraws
      smallVolume).result.toBool = true := by
    decide +kernel
  obtain ⟨report, hr⟩ := toBool_eq_true_iff.mp completes
  have load : Metadata.load smallVolume (smallSettings .perBlock).mpath = .ok smallMetadata :=
    small_stored.load
  obtain ⟨-, -, -, u, hu⟩ := unswayed.stored rfl (standing_of_root rfl) small_grounded
    small_scribbling_grounded load (by decide) hr
  have text : (smallMetadata.after
      (run (smallSettings .perBlock) smallUtility 1 smallDraws smallVolume).answers).render =
        "nvme0\n\n\n0x02\n0x5\n0x08\n" := by
    decide +kernel
  rw [text] at hu
  exact ⟨u, hu⟩

/-- A utility that answers in the same way, and takes the right to read the small file from
everybody at every call. -/
def smallClosingUtility : Utility := fun v command =>
  ((smallUtility v command).1, (v.setMode [47, 100, 47, 109] 0).toOption.getD v)

/-- What is written then cannot be read any more, although every write is granted. -/
theorem not_unswayed_small_closed :
    (∀ v command, (smallClosingUtility v command).1 = (smallUtility v command).1) ∧
    smallMetadata.candidates ≠ [] ∧ (smallSettings .perBlock).dryRun = false ∧
    Metadata.load smallVolume (smallSettings .perBlock).mpath = .ok smallMetadata ∧
    (∀ deed ∈ (run (smallSettings .perBlock) smallUtility 1 smallDraws smallVolume).deeds,
      deed.isGranted = true) ∧
    (∀ deed ∈ (run (smallSettings .perBlock) smallClosingUtility 1 smallDraws smallVolume).deeds,
      deed.isGranted = true) ∧
    (run (smallSettings .perBlock) smallUtility 1 smallDraws smallVolume).volume.read
      [47, 100, 47, 109] = .ok (Text.encode "nvme0\n\n\n0x02\n0x5\n0x08\n") ∧
    (run (smallSettings .perBlock) smallClosingUtility 1 smallDraws smallVolume).volume.read
      [47, 100, 47, 109] = .error (.system .permissionDenied) := by
  refine ⟨fun _ _ => rfl, by decide, rfl, small_stored.load, ?_, ?_, ?_, ?_⟩
  · decide +kernel
  · decide +kernel
  · decide +kernel
  · decide +kernel

end Purge

end BlockPurge
