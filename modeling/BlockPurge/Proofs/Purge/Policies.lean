import BlockPurge.Proofs.Purge.Completion
import BlockPurge.Proofs.Purge.Survival
import BlockPurge.Proofs.Volume.Rewriting

/-!
# When outcomes are recorded makes no difference in the end

Recording outcomes after every block writes the file once for each candidate, recording them at the
end writes it once. A utility that keeps off the files answers alike in both runs, so the same
outcomes are recorded, and of several writes only the last one is left. Without candidates nothing
is written at all and the file keeps its bytes, normal form or not.
-/
namespace BlockPurge

/-- A utility that keeps off the files: it answers every call, leaves the volume as it is, and does
not look at what the file at a path holds. -/
structure Utility.Detached (utility : Utility) (path : Bytes) : Prop where
  answers : ∀ v command, ∃ output, utility v command = (.ok output, v)
  blind : ∀ {v w : Volume} {draw : Volume.Draw} {content : Bytes} (command : Command),
    v.replace draw path content = (.ok (), w) → (utility w command).1 = (utility v command).1

theorem Utility.Detached.volume {utility : Utility} {path : Bytes} (h : utility.Detached path)
    (v : Volume) (command : Command) : (utility v command).2 = v := by
  obtain ⟨output, ho⟩ := h.answers v command
  rw [ho]

theorem Utility.Detached.spares {utility : Utility} {path : Bytes} (h : utility.Detached path) :
    utility.Spares path where
  read v command := by rw [h.volume]
  sound v command sound := by rwa [h.volume]

namespace Volume

/-- A volume, or one in which the file at a path has been replaced. -/
def Rewritten (path : Bytes) (v w : Volume) : Prop :=
  w = v ∨ ∃ draw content, v.replace draw path content = (.ok (), w)

/-- Whatever the file held in between, the next replacement comes to the only one. -/
theorem Rewritten.replace {draw : Draw} {path old content : Bytes} {v w u : Volume}
    (h : Rewritten path v w) (sound : v.Sound) (read : v.read path = .ok old)
    (hr : w.replace draw path content = (.ok (), u)) :
    ∃ draw', v.replace draw' path content = (.ok (), u) := by
  rcases h with rfl | ⟨draw', between, hb⟩
  · exact ⟨draw, hr⟩
  · exact ⟨draw', replace_replace sound read hb hr⟩

end Volume

namespace Purge

open Volume

section
variable {job : Job} {left : List (Nat × BlockState)} {m : Metadata} {start v : Volume}
  {old : Bytes} {stretch : Stretch} {reports : List BlockReport}

theorem rewritten_of_persistAt {occasion : Occasion} {marked : Metadata} {stored : Volume}
    {writing : List Deed} (h : Rewritten job.settings.mpath start v) (sound : start.Sound)
    (read : start.read job.settings.mpath = .ok old)
    (hw : job.persistAt occasion marked v = (writing, .ok (), stored)) :
    Rewritten job.settings.mpath start stored := by
  rcases replace_of_persistAt hw with rfl | hr
  · exact h
  · obtain ⟨draw, hone⟩ := h.replace sound read hr
    exact .inr ⟨draw, _, hone⟩

/-- A utility that keeps off the files is called on the volume that the loop started from, but for
the metadata file. -/
theorem Erases.before_rewritten (h : Erases job left m v stretch)
    (detached : job.utility.Detached job.settings.mpath) (sound : start.Sound)
    (read : start.read job.settings.mpath = .ok old)
    (hv : Rewritten job.settings.mpath start v) :
    ∀ call ∈ calls stretch.deeds, Rewritten job.settings.mpath start call.before := by
  induction h with
  | done => simp [calls]
  | unanswered => simpa [calls_erasing] using hv
  | unrecorded ha hw => simpa [calls_written hw] using hv
  | @recorded candidate rest m v answered stored output writing stretch ha hw _ ih =>
    obtain rfl : answered = v := by
      rw [← detached.volume v (job.command candidate.1), ha]
    rw [calls_after hw]
    exact List.forall_mem_cons.mpr ⟨hv, ih (rewritten_of_persistAt hv sound read hw)⟩

/-- A loop that leaves the writing to the end leaves the volume as it is. -/
theorem Erases.volume_onCompletion (h : Erases job left m v stretch)
    (detached : job.utility.Detached job.settings.mpath)
    (htime : job.settings.persistence = .onCompletion) (hok : stretch.result = .ok reports) :
    stretch.volume = v := by
  induction h generalizing reports with
  | done => rfl
  | unanswered => cases hok
  | unrecorded => cases hok
  | @recorded candidate rest m v answered stored output writing stretch ha hw _ ih =>
    obtain rfl : answered = v := by
      rw [← detached.volume v (job.command candidate.1), ha]
    obtain rfl : stored = answered := by
      rw [Job.persistAt, if_neg (by simp [htime, Occasion.policy])] at hw
      cases hw
      rfl
    cases hres : stretch.result with
    | error failure => simp [Stretch.after, hres, Except.map] at hok
    | ok rest => exact ih hres

/-- A loop that writes after every block leaves what one write of the last metadata would. -/
theorem Erases.volume_perBlock (h : Erases job left m v stretch)
    (detached : job.utility.Detached job.settings.mpath)
    (htime : job.settings.persistence = .perBlock) (sound : start.Sound)
    (read : start.read job.settings.mpath = .ok old)
    (hv : Rewritten job.settings.mpath start v) (hok : stretch.result = .ok reports) :
    left = [] ∧ stretch.volume = v ∧ stretch.metadata = m ∨
      ∃ draw, start.replace draw job.settings.mpath (Text.encode stretch.metadata.render) =
        (.ok (), stretch.volume) := by
  induction h generalizing reports with
  | done => exact .inl ⟨rfl, rfl, rfl⟩
  | unanswered => cases hok
  | unrecorded => cases hok
  | @recorded candidate rest m v answered stored output writing stretch ha hw _ ih =>
    obtain rfl : answered = v := by
      rw [← detached.volume v (job.command candidate.1), ha]
    rw [Job.persistAt, if_pos (by simp [htime, Occasion.policy])] at hw
    obtain ⟨draw, hone⟩ := hv.replace sound read (replace_of_persist hw)
    right
    cases hres : stretch.result with
    | error failure => simp [Stretch.after, hres, Except.map] at hok
    | ok later =>
      rcases ih (.inr ⟨draw, _, hone⟩) hres with ⟨-, hvol, hm⟩ | hlast
      · exact ⟨draw, by simpa only [Stretch.after, hvol, hm] using hone⟩
      · exact hlast

/-- What the file becomes over a completed run: what one write of the final metadata makes of it,
whenever outcomes are recorded. -/
theorem Goes.rewrites {after : Volume} {main : List Deed} {content : String} {report : Report}
    (h : Goes job m v main after (.ok report))
    (stored : Metadata.Stored v job.settings.mpath content m) (sound : v.Sound)
    (detached : job.utility.Detached job.settings.mpath) {backup : Bytes} {w : Volume}
    (taken : Backup.take v job.settings.mpath = .ok (backup, w)) :
    (calls main).map (fun call => (call.command, call.answer)) =
        m.candidates.map (fun candidate => (job.command candidate.1,
          (job.utility w (job.command candidate.1)).1)) ∧
      if m.candidates = [] then after = w
      else ∃ draw, w.replace draw job.settings.mpath
        (Text.encode (m.after (outputs (calls main))).render) = (.ok (), after) := by
  have hread : w.read job.settings.mpath = .ok (Text.encode content) :=
    (Backup.read_take taken).trans stored.read
  have hsound := Backup.sound_take taken sound
  cases h with
  | @completed _ w' _ stretch blocks writing htaken hloop hres hclose =>
    obtain rfl : w' = w := (Prod.mk.inj (Except.ok.inj (htaken.symm.trans taken))).2
    rw [calls_append, calls_closing hclose, List.append_nil]
    constructor
    · have hanswer : ∀ call ∈ calls stretch.deeds,
          call.answer = (job.utility w' call.command).1 := by
        intro call hm
        rw [hloop.called call hm]
        rcases hloop.before_rewritten detached hsound hread (.inl rfl) call hm with
            heq | ⟨draw, between, hb⟩
        · rw [heq]
        · exact detached.blind call.command hb
      calc (calls stretch.deeds).map (fun call => (call.command, call.answer))
          = (calls stretch.deeds).map
              (fun call => (call.command, (job.utility w' call.command).1)) :=
            List.map_congr_left fun call hm => by rw [hanswer call hm]
        _ = ((calls stretch.deeds).map Call.command).map
              (fun command => (command, (job.utility w' command).1)) := by
            rw [List.map_map]
            rfl
        _ = _ := by
            rw [hloop.commands_all hres, List.map_map]
            rfl
    · obtain ⟨_, -, -, -, hend⟩ :=
        hloop.rising detached.spares rfl rfl (pending_start stored sound taken)
      have hmemory : stretch.metadata = m.after (outputs (calls stretch.deeds)) :=
        (hend _ hres).2.memory
      rw [← hmemory]
      split
      · rename_i hnone
        rcases closing_cases hclose with ⟨-, -, -, rfl⟩ | ⟨hne, -⟩
        · rw [hnone] at hloop
          cases hloop
          rfl
        · exact absurd hnone hne
      · rename_i hsome
        rcases closing_cases hclose with ⟨hnow, -, -, rfl⟩ | ⟨-, htime, hp⟩
        · have htime := hnow.resolve_left hsome
          rcases hloop.volume_perBlock detached htime hsound hread (.inl rfl) hres with
              ⟨hnone, -⟩ | hlast
          · exact absurd hnone hsome
          · exact hlast
        · rw [hloop.volume_onCompletion detached htime hres] at hp
          exact ⟨_, replace_of_persist hp⟩

end

/-! ## Runs that record at different times -/

/-- The settings with outcomes recorded at a given time. -/
def Settings.recording (settings : Settings) (time : Persistence) : Settings :=
  { settings with persistence := time }

/-- The answers of a run, in terms of what can be seen of its calls. -/
theorem Run.answers_eq (r : Run) :
    r.answers = (r.calls.map fun call => (call.command, call.answer)).filterMap fun call =>
      call.2.toOption := by
  rw [List.filterMap_map]
  rfl

/-- Two runs on metadata that differ in nothing but when they record outcomes. -/
structure Agree (settings : Settings) (v : Volume) (content : String) (m : Metadata)
    (r r' : Run) : Prop where
  calls : r.calls.map (fun call => (call.command, call.answer)) =
    r'.calls.map (fun call => (call.command, call.answer))
  result : r.result = r'.result
  volume : r.volume = r'.volume
  /-- There is a report unless the settings or the backup are refused. -/
  completed : settings.validate = .ok () → ∀ taken, Backup.take v settings.mpath = .ok taken →
    ∃ report, r.result = .ok report
  /-- Without candidates the file keeps its bytes. -/
  idle : m.candidates = [] → r.volume.read settings.mpath = .ok (Text.encode content)

section
variable {settings : Settings} {utility : Utility} {bar bar' : Nat} {draws draws' : Draws}
  {v w : Volume} {content : String} {m : Metadata} {backup : Bytes} {time : Persistence}

/-- A run whose writes are all granted, in terms of the volume with the backup alone. -/
theorem run_recording (stored : Metadata.Stored v settings.mpath content m) (sound : v.Sound)
    (real : settings.dryRun = false) (detached : utility.Detached settings.mpath)
    (valid : settings.validate = .ok ()) (taken : Backup.take v settings.mpath = .ok (backup, w))
    (writes : ∀ deed ∈ (run (settings.recording time) utility bar draws v).deeds,
      deed.isGranted = true) :
    let r := run (settings.recording time) utility bar draws v
    let job := jobFor settings utility bar draws m
    r.calls.map (fun call => (call.command, call.answer)) =
        m.candidates.map (fun candidate => (job.command candidate.1,
          (utility w (job.command candidate.1)).1)) ∧
      r.result = .ok (reportOf job m backup (List.zipWith Job.report m.candidates r.answers)) ∧
      if m.candidates = [] then r.volume = w
      else ∃ draw, w.replace draw settings.mpath (Text.encode (m.after r.answers).render) =
        (.ok (), r.volume) := by
  intro r job
  have stored' : Metadata.Stored v (settings.recording time).mpath content m := stored
  obtain ⟨main, around, hgoes⟩ := goes utility bar draws stored' real
  have hcalls : r.calls = calls main := around.calls
  have hanswers : r.answers = outputs (calls main) := congrArg outputs hcalls
  have answered : ∀ call ∈ calls main, ∃ output, call.answer = .ok output := by
    intro call hm
    obtain ⟨output, ho⟩ := detached.answers call.before call.command
    exact ⟨output, (hgoes.called call hm).trans (congrArg Prod.fst ho)⟩
  have hresult := hgoes.completes valid taken answered fun before plan hm =>
    Deed.isGranted_replace.mp (writes _ (around.mem hm))
  rw [hresult] at hgoes
  obtain ⟨hseen, hvolume⟩ := hgoes.rewrites stored sound detached taken
  rw [hcalls, hanswers]
  exact ⟨hseen, hresult, hvolume⟩

/-- **The two times of recording agree.** With a utility that keeps off the files, and all writes
granted, the calls, the report and all files are the same. -/
theorem recording_agree (stored : Metadata.Stored v settings.mpath content m) (sound : v.Sound)
    (real : settings.dryRun = false) (detached : utility.Detached settings.mpath)
    (writes : ∀ deed ∈ (run (settings.recording .perBlock) utility bar draws v).deeds,
      deed.isGranted = true)
    (writes' : ∀ deed ∈ (run (settings.recording .onCompletion) utility bar' draws' v).deeds,
      deed.isGranted = true) :
    Agree settings v content m (run (settings.recording .perBlock) utility bar draws v)
      (run (settings.recording .onCompletion) utility bar' draws' v) := by
  have load : Metadata.load v settings.mpath = .ok m := stored.load
  cases valid : settings.validate with
  | error failure =>
    have refused : ∀ time bar draws, run (settings.recording time) utility bar draws v =
        ⟨[], v, .error failure⟩ := by
      intro time bar draws
      have hs : (settings.recording time).validate = .error failure := valid
      simp only [run, hs]
    rw [refused, refused]
    refine ⟨rfl, rfl, rfl, fun impossible => ?_, fun _ => stored.read⟩
    cases valid.symm.trans impossible
  | ok done =>
    have valid' : ∀ time, (settings.recording time).validate = .ok () := fun _ => valid
    cases htaken : Backup.take v settings.mpath with
    | error failure =>
      have refused : ∀ time bar draws, run (settings.recording time) utility bar draws v =
          ⟨[.event (.log .debug (Metadata.loadedNote settings.mpath m))], v, .error failure⟩ := by
        intro time bar draws
        have hl : Metadata.load v (settings.recording time).mpath = .ok m := load
        have hb : Backup.take v (settings.recording time).mpath = .error failure := htaken
        simp only [run, valid' time, hl, hb]
        rfl
      rw [refused, refused]
      refine ⟨rfl, rfl, rfl, fun _ taken impossible => ?_, fun _ => stored.read⟩
      cases htaken.symm.trans impossible
    | ok taken =>
      obtain ⟨backup, w⟩ := taken
      obtain ⟨hseen, hresult, hvolume⟩ :=
        run_recording stored sound real detached valid htaken writes
      obtain ⟨hseen', hresult', hvolume'⟩ :=
        run_recording stored sound real detached valid htaken writes'
      have hcalls := hseen.trans hseen'.symm
      have hanswers := (Run.answers_eq _).trans ((congrArg _ hcalls).trans (Run.answers_eq _).symm)
      constructor
      case calls => exact hcalls
      case result =>
        rw [hresult, hresult', hanswers]
        rfl
      case volume =>
        by_cases hnone : m.candidates = []
        · rw [if_pos hnone] at hvolume hvolume'
          exact hvolume.trans hvolume'.symm
        · rw [if_neg hnone] at hvolume hvolume'
          rw [hanswers] at hvolume
          obtain ⟨draw, hw⟩ := hvolume
          obtain ⟨draw', hw'⟩ := hvolume'
          exact eq_of_granted hw hw'
      case completed => exact fun _ _ _ => ⟨_, hresult⟩
      case idle =>
        intro hnone
        rw [if_pos hnone] at hvolume
        rw [hvolume]
        exact (Backup.read_take htaken).trans stored.read

end

/-! ## Small files -/

theorem small_detached (path : Bytes) : smallUtility.Detached path :=
  ⟨fun _ _ => ⟨_, rfl⟩, fun _ _ => rfl⟩

/-- A text without candidates that is not in normal form. -/
def smallIdleText : String := " nvme0\r\n\n\n0x02"

/-- The volume with a file of it. -/
def smallIdleVolume : Volume :=
  ⟨[([[100]], .folder 0o755), ([[100], [109]], .file (Text.encode smallIdleText) 0o644)], [], false⟩

/-- What that text is read as. -/
def smallIdleMetadata : Metadata :=
  ⟨"nvme0", ("", ""), [⟨.erased, "0x02"⟩]⟩

/-- Two outcomes are recorded alike, and a file without candidates is left as it is. -/
theorem recording_agree_small :
    Agree (smallSettings .perBlock) smallVolume smallText smallMetadata
      (run (smallSettings .perBlock) smallUtility 1 smallDraws smallVolume)
      (run (smallSettings .onCompletion) smallUtility 2 smallDraws smallVolume) ∧
    (run (smallSettings .onCompletion) smallUtility 2 smallDraws smallVolume).answers.length = 2 ∧
    (run (smallSettings .onCompletion) smallUtility 2 smallDraws smallVolume).volume.read
      [47, 100, 47, 109] = .ok (Text.encode smallRecorded) ∧
    Agree (smallSettings .perBlock) smallIdleVolume smallIdleText smallIdleMetadata
      (run (smallSettings .perBlock) smallUtility 1 smallDraws smallIdleVolume)
      (run (smallSettings .onCompletion) smallUtility 2 smallDraws smallIdleVolume) ∧
    (run (smallSettings .onCompletion) smallUtility 2 smallDraws smallIdleVolume).volume.read
      [47, 100, 47, 109] = .ok (Text.encode smallIdleText) := by
  have stored : Metadata.Stored smallVolume (smallSettings .perBlock).mpath smallText
      smallMetadata := small_stored
  have idleStored : Metadata.Stored smallIdleVolume (smallSettings .perBlock).mpath smallIdleText
      smallIdleMetadata := ⟨rfl, rfl⟩
  have agree : Agree (smallSettings .perBlock) smallVolume smallText smallMetadata
      (run (smallSettings .perBlock) smallUtility 1 smallDraws smallVolume)
      (run (smallSettings .onCompletion) smallUtility 2 smallDraws smallVolume) :=
    recording_agree stored small_sound rfl (small_detached _) (by decide +kernel)
      (by decide +kernel)
  have idle : Agree (smallSettings .perBlock) smallIdleVolume smallIdleText smallIdleMetadata
      (run (smallSettings .perBlock) smallUtility 1 smallDraws smallIdleVolume)
      (run (smallSettings .onCompletion) smallUtility 2 smallDraws smallIdleVolume) :=
    recording_agree idleStored (Volume.sound_of_root rfl) rfl (small_detached _)
      (by decide +kernel) (by decide +kernel)
  have recorded :
      ((run (smallSettings .onCompletion) smallUtility 2 smallDraws smallVolume).volume.read
        [47, 100, 47, 109]).toOption = some (Text.encode smallRecorded) := by
    decide +kernel
  exact ⟨agree, by decide +kernel, ok_of_toOption recorded, idle, idle.volume ▸ idle.idle rfl⟩

end Purge

end BlockPurge
