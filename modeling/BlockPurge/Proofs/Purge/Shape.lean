import BlockPurge.Proofs.Metadata.Storing
import BlockPurge.Proofs.Purge.Disk
import BlockPurge.Proofs.Volume.Writing

/-!
# The shape of a run

A run on a file that holds metadata is refused before the first candidate, or takes a backup and
goes over the candidates. A real run then stops where the loop stopped, stops at the write that
closes it, or completes. A dry run calls nothing and replaces nothing.
-/
namespace BlockPurge.Purge

/-- What stays the same over a run on some metadata. -/
def jobFor (settings : Settings) (utility : Utility) (bar : Nat) (draws : Draws) (m : Metadata) :
    Job :=
  ⟨settings, m.devicePath settings.deviceStart, utility, bar, draws⟩

/-- The write that closes a real run, if there was anything to erase. -/
def closing (job : Job) (m : Metadata) (stretch : Stretch) :
    List Deed × Except Failure Unit × Volume :=
  if m.candidates.isEmpty then ([], .ok (), stretch.volume)
  else job.persistAt .completion stretch.metadata stretch.volume

theorem closing_cases {job : Job} {m : Metadata} {stretch : Stretch} {writing : List Deed}
    {verdict : Except Failure Unit} {stored : Volume}
    (h : closing job m stretch = (writing, verdict, stored)) :
    ((m.candidates = [] ∨ job.settings.persistence = .perBlock) ∧
      writing = [] ∧ verdict = .ok () ∧ stored = stretch.volume) ∨
    (m.candidates ≠ [] ∧ job.settings.persistence = .onCompletion ∧
      job.persist .completion stretch.metadata stretch.volume = (writing, verdict, stored)) := by
  unfold closing at h
  split at h
  · rename_i he
    cases h
    exact .inl ⟨.inl (List.isEmpty_iff.mp he), rfl, rfl, rfl⟩
  rename_i he
  have hne : m.candidates ≠ [] := fun hn => he (List.isEmpty_iff.mpr hn)
  unfold Job.persistAt at h
  cases ht : job.settings.persistence with
  | perBlock =>
    rw [if_neg (by simp [ht, Occasion.policy])] at h
    cases h
    exact .inl ⟨.inr rfl, rfl, rfl, rfl⟩
  | onCompletion =>
    rw [if_pos (by simp [ht, Occasion.policy])] at h
    exact .inr ⟨hne, rfl, h⟩

theorem closing_eq_persistAt {job : Job} {m : Metadata} {stretch : Stretch} {writing : List Deed}
    {verdict : Except Failure Unit} {stored : Volume}
    (h : closing job m stretch = (writing, verdict, stored)) :
    writing = [] ∧ verdict = .ok () ∨
      job.persistAt .completion stretch.metadata stretch.volume = (writing, verdict, stored) := by
  unfold closing at h
  split at h
  · cases h
    exact .inl ⟨rfl, rfl⟩
  · exact .inr h

theorem calls_closing {job : Job} {m : Metadata} {stretch : Stretch} {writing : List Deed}
    {verdict : Except Failure Unit} {stored : Volume}
    (h : closing job m stretch = (writing, verdict, stored)) : calls writing = [] := by
  rcases closing_eq_persistAt h with ⟨rfl, -⟩ | h
  · rfl
  · exact calls_persistAt h

/-- The report of a run that completed. -/
def reportOf (job : Job) (m : Metadata) (backup : Bytes) (blocks : List BlockReport) : Report :=
  ⟨job.settings.mpath, job.device, backup, job.settings.dryRun, m.size, blocks⟩

/-- How a real run on metadata goes: its main deeds, the volume afterwards, and its result. -/
inductive Goes (job : Job) (m : Metadata) (v : Volume) :
    List Deed → Volume → Except Failure Report → Prop
  /-- The settings or the backup are refused. -/
  | refused {failure : Failure} :
      (job.settings.validate = .ok () → ∀ taken, Backup.take v job.settings.mpath ≠ .ok taken) →
      Goes job m v [] v (.error failure)
  /-- The loop stops early. -/
  | stopped {backup : Bytes} {w : Volume} {stretch : Stretch} {failure : Failure} :
      Backup.take v job.settings.mpath = .ok (backup, w) →
      Erases job m.candidates m w stretch → stretch.result = .error failure →
      Goes job m v stretch.deeds stretch.volume (.error failure)
  /-- The write at the end is refused. -/
  | unrecorded {backup : Bytes} {w stored : Volume} {stretch : Stretch}
      {blocks : List BlockReport} {writing : List Deed} {failure : Failure} :
      Backup.take v job.settings.mpath = .ok (backup, w) →
      Erases job m.candidates m w stretch → stretch.result = .ok blocks →
      closing job m stretch = (writing, .error failure, stored) →
      Goes job m v (stretch.deeds ++ writing) stored (.error failure)
  | completed {backup : Bytes} {w stored : Volume} {stretch : Stretch}
      {blocks : List BlockReport} {writing : List Deed} :
      Backup.take v job.settings.mpath = .ok (backup, w) →
      Erases job m.candidates m w stretch → stretch.result = .ok blocks →
      closing job m stretch = (writing, .ok (), stored) →
      Goes job m v (stretch.deeds ++ writing) stored (.ok (reportOf job m backup blocks))

/-- Deeds that leave a trace in the log and nowhere else. -/
def Logged (deeds : List Deed) : Prop :=
  ∀ deed ∈ deeds, ∃ level text, deed = .event (.log level text)

theorem Logged.quiet {deeds : List Deed} (h : Logged deeds) : Quiet deeds := by
  intro deed hm
  obtain ⟨level, text, rfl⟩ := h deed hm
  exact ⟨rfl, rfl⟩

theorem Logged.displayed {deeds : List Deed} (h : Logged deeds) : displayed deeds = [] := by
  refine List.filterMap_eq_nil_iff.mpr fun deed hm => ?_
  obtain ⟨level, text, rfl⟩ := h deed hm
  rfl

theorem quiet_opening (job : Job) (m : Metadata) (candidates : List (Nat × BlockState)) :
    Quiet ((opening job m candidates).map .event) := by
  simp [Quiet, opening, say, Deed.call?, Deed.volumes]

theorem quiet_finish (bar : Nat) (text : String) :
    Quiet [.event (.progress (.finish bar text))] := by
  simp [Quiet, Deed.call?, Deed.volumes]

/-! ## Dry runs -/

/-- What is done in a dry run when the turn of a candidate comes. -/
def Job.rehearsing (job : Job) (index : Nat) : List Event :=
  job.announce index ++ .log .debug (Erase.note (job.command index)) :: job.conclude Output.silent

/-- The report on a candidate in a dry run. -/
def Job.rehearsed (candidate : Nat × BlockState) : BlockReport :=
  ⟨candidate.1, candidate.2, .dryRun, some 0, Output.silent.summary⟩

/-- What is done in a dry run over some candidates. -/
def Job.rehearsal (job : Job) (candidates : List (Nat × BlockState)) : List Event :=
  candidates.flatMap fun candidate => job.rehearsing candidate.1

theorem rehearsal_cons (job : Job) (candidate : Nat × BlockState) (rest : List (Nat × BlockState)) :
    job.rehearsal (candidate :: rest) = job.rehearsing candidate.1 ++ job.rehearsal rest :=
  List.flatMap_cons

theorem eraseEach_dry {job : Job} (dry : job.settings.dryRun = true)
    (candidates : List (Nat × BlockState)) (m : Metadata) (v : Volume) :
    eraseEach job candidates m v =
      ⟨(job.rehearsal candidates).map .event, m, v, .ok (candidates.map Job.rehearsed)⟩ := by
  induction candidates with
  | nil => rfl
  | cons candidate rest ih =>
    have he : eraseEach job (candidate :: rest) m v =
        (eraseEach job rest m v).after ((job.rehearsing candidate.1).map .event)
          (Job.rehearsed candidate) := by
      simp [eraseEach, Job.attempt, Erase.attempt, dry, Output.silent, Job.rehearsing,
        Job.rehearsed]
    rw [he, ih, rehearsal_cons, List.map_append]
    rfl

/-- All that is done in a dry run can be seen from outside, and it reports on every candidate. -/
theorem purge_dry {job : Job} (dry : job.settings.dryRun = true) (m : Metadata) (backup : Bytes)
    (v : Volume) :
    purge job m backup v =
      ⟨(opening job m m.candidates ++ job.rehearsal m.candidates ++
          [Event.progress (.finish job.bar ("Purged " ++ job.device))]).map .event, v,
        .ok (reportOf job m backup (m.candidates.map Job.rehearsed))⟩ := by
  have hall : eraseAll job m.candidates m v = eraseEach job m.candidates m v := by
    unfold eraseAll
    simp only [dry, Bool.true_or, if_true]
    split <;> rfl
  rw [purge, hall, eraseEach_dry dry]
  simp [reportOf]

theorem quiet_rehearsal (job : Job) (candidates : List (Nat × BlockState)) :
    Quiet ((job.rehearsal candidates).map .event) := by
  induction candidates with
  | nil => simp [Quiet, Job.rehearsal]
  | cons candidate rest ih =>
    have hfirst : Quiet ((job.rehearsing candidate.1).map .event) := by
      simp [Quiet, Job.rehearsing, Job.announce, Job.conclude, say, Deed.call?, Deed.volumes]
    rw [rehearsal_cons, List.map_append]
    exact hfirst.append ih

theorem quiet_dry (job : Job) (m : Metadata) (bar : Nat) (text : String) :
    Quiet ((opening job m m.candidates ++ job.rehearsal m.candidates ++
      [Event.progress (.finish bar text)]).map .event) := by
  rw [List.map_append, List.map_append]
  exact ((quiet_opening job m m.candidates).append (quiet_rehearsal job m.candidates)).append
    (quiet_finish bar text)

/-- From its backup on a dry run calls nothing and replaces nothing. -/
theorem quiet_purge {job : Job} (dry : job.settings.dryRun = true) (m : Metadata) (backup : Bytes)
    (v : Volume) : Quiet (purge job m backup v).deeds ∧ (purge job m backup v).volume = v := by
  rw [purge_dry dry]
  exact ⟨quiet_dry job m job.bar _, rfl⟩

/-! ## Runs of any kind -/

/-- What a run on metadata that can be loaded comes to, by what its settings and its backup come to.
-/
theorem run_eq (settings : Settings) (utility : Utility) (bar : Nat) (draws : Draws) {v : Volume}
    {m : Metadata} (h : Metadata.load v settings.mpath = .ok m) :
    (∃ before failure, Logged before ∧
      run settings utility bar draws v = ⟨before, v, .error failure⟩ ∧
      (settings.validate = .ok () → ∀ taken, Backup.take v settings.mpath ≠ .ok taken)) ∨
    ∃ before backup w, Logged before ∧ settings.validate = .ok () ∧
      Backup.take v settings.mpath = .ok (backup, w) ∧
      run settings utility bar draws v =
        { purge (jobFor settings utility bar draws m) m backup w with
          deeds := before ++ (purge (jobFor settings utility bar draws m) m backup w).deeds } := by
  cases hs : settings.validate with
  | error failure =>
    exact .inl ⟨[], failure, by simp [Logged], by simp [run, hs], by rintro ⟨⟩⟩
  | ok done =>
    cases hb : Backup.take v settings.mpath with
    | error failure =>
      refine .inl ⟨[.event (.log .debug (Metadata.loadedNote settings.mpath m))], failure,
        by simp [Logged], by simp only [run, hs, h, hb], ?_⟩
      intro _ taken impossible
      cases impossible
    | ok taken =>
      obtain ⟨backup, w⟩ := taken
      exact .inr ⟨[.event (.log .debug (Metadata.loadedNote settings.mpath m)),
        .event (.log .info (Backup.note settings.mpath backup))], backup, w, by simp [Logged],
        rfl, rfl, by simp only [run, hs, h, hb]; rfl⟩

theorem load_of_completed {settings : Settings} {utility : Utility} {bar : Nat} {draws : Draws}
    {v : Volume}
    {report : Report} (h : (run settings utility bar draws v).result = .ok report) :
    ∃ m, Metadata.load v settings.mpath = .ok m := by
  cases hl : Metadata.load v settings.mpath with
  | ok m => exact ⟨m, rfl⟩
  | error failure => cases hs : settings.validate <;> simp [run, hs, hl] at h

/-- What a dry run comes to that is not refused. -/
theorem run_dry {settings : Settings} {v w : Volume} {m : Metadata} {backup : Bytes}
    (dry : settings.dryRun = true) (load : Metadata.load v settings.mpath = .ok m)
    (valid : settings.validate = .ok ())
    (taken : Backup.take v settings.mpath = .ok (backup, w)) (utility : Utility) (bar : Nat)
    (draws : Draws) :
    let job := jobFor settings utility bar draws m
    ∃ before, Logged before ∧ run settings utility bar draws v =
      ⟨before ++ (opening job m m.candidates ++ job.rehearsal m.candidates ++
          [Event.progress (.finish bar ("Purged " ++ job.device))]).map .event, w,
        .ok (reportOf job m backup (m.candidates.map Job.rehearsed))⟩ := by
  intro job
  rcases run_eq settings utility bar draws load with
      ⟨-, -, -, -, refused⟩ | ⟨before, backup', w', logged, -, taken', he⟩
  · exact absurd taken (refused valid _)
  · obtain ⟨rfl, rfl⟩ := Prod.mk.inj (Except.ok.inj (taken.symm.trans taken'))
    have hdry : (jobFor settings utility bar draws m).settings.dryRun = true := dry
    rw [purge_dry hdry] at he
    exact ⟨before, logged, he⟩

theorem mem_candidates_lt {m : Metadata} {candidate : Nat × BlockState}
    (h : candidate ∈ m.candidates) : candidate.1 < m.size :=
  Metadata.lt_size_of_mem_candidateBlocks (List.mem_map_of_mem h)

/-- How a real run goes on from its backup. -/
inductive Proceeds (job : Job) (m : Metadata) (backup : Bytes) (w : Volume) : Run → Prop
  /-- The loop stops early. -/
  | stopped {stretch : Stretch} {failure : Failure} :
      Erases job m.candidates m w stretch → stretch.result = .error failure →
      Proceeds job m backup w
        ⟨(opening job m m.candidates).map .event ++ stretch.deeds, stretch.volume, .error failure⟩
  /-- The write at the end is refused. -/
  | unrecorded {stretch : Stretch} {blocks : List BlockReport} {writing : List Deed}
      {failure : Failure} {stored : Volume} :
      Erases job m.candidates m w stretch → stretch.result = .ok blocks →
      closing job m stretch = (writing, .error failure, stored) →
      Proceeds job m backup w
        ⟨(opening job m m.candidates).map .event ++ (stretch.deeds ++ writing), stored,
          .error failure⟩
  | completed {stretch : Stretch} {blocks : List BlockReport} {writing : List Deed}
      {stored : Volume} :
      Erases job m.candidates m w stretch → stretch.result = .ok blocks →
      closing job m stretch = (writing, .ok (), stored) →
      Proceeds job m backup w
        ⟨(opening job m m.candidates).map .event ++ (stretch.deeds ++ writing) ++
            [.event (.progress (.finish job.bar ("Purged " ++ job.device)))],
          stored, .ok (reportOf job m backup blocks)⟩

private theorem eraseAll_real {job : Job} (real : job.settings.dryRun = false) (m : Metadata)
    (v : Volume) :
    eraseAll job m.candidates m v =
      match (eraseEach job m.candidates m v).result with
      | .error _ => eraseEach job m.candidates m v
      | .ok _ =>
        match closing job m (eraseEach job m.candidates m v) with
        | (writing, .error failure, stored) =>
          ⟨(eraseEach job m.candidates m v).deeds ++ writing,
            (eraseEach job m.candidates m v).metadata, stored, .error failure⟩
        | (writing, .ok (), stored) =>
          { eraseEach job m.candidates m v with
            deeds := (eraseEach job m.candidates m v).deeds ++ writing, volume := stored } := by
  unfold eraseAll closing
  simp only [real, Bool.false_or]
  obtain ⟨deeds, metadata, volume, failure | blocks⟩ := eraseEach job m.candidates m v
  · rfl
  · by_cases he : m.candidates.isEmpty = true
    · simp [he]
    · simp only [he]
      obtain ⟨writing, failure | done, stored⟩ := job.persistAt .completion metadata volume
      · rfl
      · rfl

theorem proceeds {job : Job} (real : job.settings.dryRun = false) (m : Metadata) (backup : Bytes)
    (w : Volume) : Proceeds job m backup w (purge job m backup w) := by
  have hloop := erases real m.candidates m w fun _ => mem_candidates_lt
  rw [purge, eraseAll_real real]
  generalize eraseEach job m.candidates m w = stretch at hloop ⊢
  cases hres : stretch.result with
  | error failure =>
    simp only [hres]
    exact .stopped hloop hres
  | ok blocks =>
    rcases hc : closing job m stretch with ⟨writing, failure | done, stored⟩
    · exact .unrecorded hloop hres hc
    · simp only [hres]
      exact .completed hloop hres hc

/-- A real run that is not refused. -/
theorem run_proceeds {settings : Settings} {v w : Volume} {m : Metadata} {backup : Bytes}
    (real : settings.dryRun = false) (load : Metadata.load v settings.mpath = .ok m)
    (valid : settings.validate = .ok ())
    (taken : Backup.take v settings.mpath = .ok (backup, w)) (utility : Utility) (bar : Nat)
    (draws : Draws) :
    ∃ before r, Logged before ∧ Proceeds (jobFor settings utility bar draws m) m backup w r ∧
      run settings utility bar draws v = { r with deeds := before ++ r.deeds } := by
  rcases run_eq settings utility bar draws load with
      ⟨-, -, -, -, refused⟩ | ⟨before, backup', w', logged, -, taken', he⟩
  · exact absurd taken (refused valid _)
  · obtain ⟨rfl, rfl⟩ := Prod.mk.inj (Except.ok.inj (taken.symm.trans taken'))
    have hreal : (jobFor settings utility bar draws m).settings.dryRun = false := real
    exact ⟨before, _, logged, proceeds hreal m backup w, he⟩

/-- Every real run on metadata that can be loaded goes this way. -/
theorem goes_of_load {settings : Settings} (utility : Utility) (bar : Nat) (draws : Draws)
    {v : Volume}
    {m : Metadata} (h : Metadata.load v settings.mpath = .ok m) (real : settings.dryRun = false) :
    ∃ main, (run settings utility bar draws v).Around main ∧
      Goes (jobFor settings utility bar draws m) m v main (run settings utility bar draws v).volume
        (run settings utility bar draws v).result := by
  have quiet : Quiet [] := by simp [Quiet]
  rcases run_eq settings utility bar draws h with
      ⟨before, failure, hq, he, hr⟩ | ⟨before, backup, w, hq, -, hb, he⟩
  · rw [he]
    exact ⟨[], ⟨before, [], hq.quiet, quiet, by simp⟩, .refused hr⟩
  generalize hjob : jobFor settings utility bar draws m = job at he ⊢
  have hreal : job.settings.dryRun = false := hjob ▸ real
  have htaken : Backup.take v job.settings.mpath = .ok (backup, w) := hjob ▸ hb
  have hopen := hq.quiet.append (quiet_opening job m m.candidates)
  have hproceeds := proceeds hreal m backup w
  rw [he]
  generalize purge job m backup w = r at hproceeds ⊢
  cases hproceeds with
  | stopped hloop hres =>
    exact ⟨_, ⟨_, [], hopen, quiet, by simp⟩, .stopped htaken hloop hres⟩
  | unrecorded hloop hres hc =>
    exact ⟨_, ⟨_, [], hopen, quiet, by simp⟩, .unrecorded htaken hloop hres hc⟩
  | completed hloop hres hc =>
    have hend := quiet_finish job.bar ("Purged " ++ job.device)
    exact ⟨_, ⟨_, _, hopen, hend, by simp⟩, .completed htaken hloop hres hc⟩

/-- So every real run on stored metadata does. -/
theorem goes {settings : Settings} (utility : Utility) (bar : Nat) (draws : Draws) {v : Volume}
    {content : String} {m : Metadata} (h : Metadata.Stored v settings.mpath content m)
    (real : settings.dryRun = false) :
    ∃ main, (run settings utility bar draws v).Around main ∧
      Goes (jobFor settings utility bar draws m) m v main (run settings utility bar draws v).volume
        (run settings utility bar draws v).result :=
  goes_of_load utility bar draws h.load real

/-! ## A small file

A folder `/d` with a file `m` that records a written block, one in a state of its own, and an open
one.
-/

/-- The text of the file, with a literal that is not spelled canonically. -/
def smallText : String := "nvme0\n\n\n0x01\n0x5\n0X4\n"

/-- What the text is read as. -/
def smallMetadata : Metadata :=
  ⟨"nvme0", ("", ""), [⟨.written, "0x01"⟩, ⟨.other 0x05, "0x5"⟩, ⟨.opened, "0X4"⟩]⟩

/-- The volume with the file. -/
def smallVolume : Volume :=
  ⟨[([[100]], .folder 0o755), ([[100], [109]], .file (Text.encode smallText) 0o644)], [], false⟩

/-- The settings of a real run on the file that records outcomes at a given time. -/
def smallSettings (time : Persistence) : Settings :=
  { Settings.default [47, 100, 47, 109] with persistence := time }

/-- Letters that count the attempts, for every write. -/
def smallDraws : Draws := fun _ => .ofNat

/-- A utility that erases the first block and fails on every other one. -/
def smallUtility : Utility := fun v command =>
  (.ok ⟨if command.arguments.getLast? = some "0" then some 0 else some 1, "", ""⟩, v)

/-- A utility that erases the first block and cannot be started for any other one. -/
def smallBrokenUtility : Utility := fun v command =>
  (if command.arguments.getLast? = some "0" then .ok ⟨some 0, "", ""⟩
    else .error (.launch command.program (.system .notFound)), v)

theorem small_spares : smallUtility.Spares [47, 100, 47, 109] :=
  ⟨fun _ _ => rfl, fun _ _ => id⟩

theorem small_broken_spares : smallBrokenUtility.Spares [47, 100, 47, 109] :=
  ⟨fun _ _ => rfl, fun _ _ => id⟩

theorem small_stored : Metadata.Stored smallVolume [47, 100, 47, 109] smallText smallMetadata :=
  ⟨rfl, rfl⟩

theorem small_sound : smallVolume.Sound := Volume.sound_of_root rfl

end BlockPurge.Purge
