import BlockPurge.Proofs.Purge.Completion
import BlockPurge.Proofs.Purge.Numbering

/-!
# What a dry run tells of the real one

A dry run takes the backup and erases nothing. It goes over the candidates that every real run from
the same volume goes over, and prints the commands that one calls for as long as nothing fails. All
that it leaves is the backup, which the real run would take all the same; so nothing comes of a dry
run before a real one, and nothing of a second dry run.
-/
namespace BlockPurge.Purge

open Volume

/-- The settings of a dry run. -/
def Settings.dry (settings : Settings) : Settings :=
  { settings with dryRun := true }

/-- The settings of a real run. -/
def Settings.real (settings : Settings) : Settings :=
  { settings with dryRun := false }

/-- The line that an event prints, if it prints one. -/
def Event.line? : Event → Option String
  | .progress (.line text) => some text
  | _ => none

/-- The lines that a run prints, in order. -/
def Run.lines (r : Run) : List String :=
  r.events.filterMap Event.line?

/-- The blocks that a report is about, with their states before the run. -/
def Report.subjects (r : Report) : List (Nat × BlockState) :=
  r.blocks.map fun block => (block.index, block.previous)

/-- The commands that the candidates of a metadata file call for, in order. -/
def commandsFor (settings : Settings) (m : Metadata) : List Command :=
  m.candidateBlocks.map (eraseCommand settings.program (settings.deviceStart ++ m.device))

/-- The lines that a dry run prints about a block and the command for it. -/
def rehearsedLines (device : String) (block : Nat) (command : Command) : List String :=
  ["Erasing: \x7b blk: " ++ fourDigits block ++ ", dev: " ++ device ++ " \x7d", command.line,
    "Result: \x7b rcode: 0, out: '', err: '' \x7d"]

/-- The volume after some dry runs, one after another. -/
def rehearse (settings : Settings) (runs : List (Utility × Nat × Draws)) (v : Volume) :
    Volume :=
  runs.foldl (fun u r => (run settings.dry r.1 r.2.1 r.2.2 u).volume) v

/-- What a dry run with some settings does, and what it leaves of a volume. -/
structure Rehearses (settings : Settings) (m : Metadata) (backup : Bytes) (v : Volume) (r : Run) :
    Prop where
  calls : r.calls = []
  result : r.result = .ok
    { mpath := settings.mpath, device := settings.deviceStart ++ m.device, backup := backup,
      dryRun := true, total := m.size, blocks := m.candidates.map Job.rehearsed }
  /-- The file reads as before. -/
  file : r.volume.read settings.mpath = v.read settings.mpath
  /-- Nothing changes but at the place that the name of the backup leads to. -/
  copy : ∃ place content mode, v.read settings.mpath = .ok content ∧
    Replaced place content mode v r.volume ∧ r.volume.Leads backup place
  /-- The commands are printed in order, each between two lines about its block. -/
  lines : r.lines = ("dry: true, mpath: " ++ Path.display settings.mpath) ::
    (m.candidateBlocks.zip (commandsFor settings m)).flatMap fun shown =>
      rehearsedLines (settings.deviceStart ++ m.device) shown.1 shown.2
  unwritten : "Updating meta file" ∉ r.lines
  /-- Any number of dry runs leaves what one leaves. -/
  repeated : ∀ runs, runs ≠ [] → rehearse settings runs v = r.volume

/-- What a dry run tells of a real run with the same settings on the same volume. -/
structure Foretells (settings : Settings) (utility : Utility) (draws : Draws) (m : Metadata)
    (d r : Run) : Prop where
  /-- The real run calls for the first of the commands. -/
  calls : r.calls.map Call.command <+: commandsFor settings m
  /-- If nothing fails, it calls for all of them and has a report. -/
  complete : (∀ call ∈ r.calls, ∃ output, call.answer = .ok output) →
    (∀ deed ∈ r.deeds, deed.isGranted = true) →
    r.calls.map Call.command = commandsFor settings m ∧ ∃ report, r.result = .ok report
  report : ∀ report, r.result = .ok report → ∃ foretold, d.result = .ok foretold ∧
    report.device = foretold.device ∧ report.backup = foretold.backup ∧
    report.total = foretold.total ∧ report.subjects = foretold.subjects
  /-- After the dry run it goes as it would have gone without. -/
  undisturbed : ∀ bar, let after := run settings.real utility bar draws d.volume
    after.calls = r.calls ∧ after.result = r.result ∧ after.volume = r.volume

/-! ## The dry run -/

theorem Logged.lines {deeds : List Deed} (h : Logged deeds) :
    (deeds.filterMap Deed.event?).filterMap Event.line? = [] := by
  rw [List.filterMap_filterMap]
  refine List.filterMap_eq_nil_iff.mpr fun deed hm => ?_
  obtain ⟨level, text, rfl⟩ := h deed hm
  rfl

theorem lines_opening (job : Job) (m : Metadata) (candidates : List (Nat × BlockState)) :
    (opening job m candidates).filterMap Event.line? =
      ["dry: " ++ toString job.settings.dryRun ++ ", mpath: " ++
        Path.display job.settings.mpath] :=
  rfl

theorem lines_rehearsal (job : Job) (candidates : List (Nat × BlockState)) :
    (job.rehearsal candidates).filterMap Event.line? = candidates.flatMap fun candidate =>
      rehearsedLines job.device candidate.1 (job.command candidate.1) := by
  induction candidates with
  | nil => rfl
  | cons candidate rest ih =>
    rw [rehearsal_cons, List.filterMap_append, ih]
    rfl

section
variable {settings : Settings} {v w : Volume} {m : Metadata} {backup : Bytes}
  (load : Metadata.load v settings.mpath = .ok m) (valid : settings.validate = .ok ())
  (taken : Backup.take v settings.mpath = .ok (backup, w))
include load valid taken

/-- A run on the volume with the backup goes as one on the volume without. -/
theorem run_on_backup (utility : Utility) (bar : Nat) (draws : Draws) :
    run settings utility bar draws w = run settings utility bar draws v := by
  have load' : Metadata.load w settings.mpath = .ok m := by
    rw [← load, Metadata.load, Metadata.load, readText, readText, Backup.read_take taken]
  simp only [run, valid, load, load', taken, Backup.take_take taken]

theorem volume_dry (utility : Utility) (bar : Nat) (draws : Draws) :
    (run settings.dry utility bar draws v).volume = w := by
  have dry : settings.dry.dryRun = true := rfl
  obtain ⟨before, -, he⟩ := run_dry dry load valid taken utility bar draws
  rw [he]

/-- Dry runs leave the backup and nothing else. -/
theorem rehearse_eq {runs : List (Utility × Nat × Draws)} (hne : runs ≠ []) :
    rehearse settings runs v = w := by
  have first := volume_dry load valid taken
  have later : ∀ utility bar draws, (run settings.dry utility bar draws w).volume = w := by
    intro utility bar draws
    have valid' : settings.dry.validate = .ok () := valid
    have load' : Metadata.load v settings.dry.mpath = .ok m := load
    rw [run_on_backup load' valid' taken, first]
  have still : ∀ runs, rehearse settings runs w = w := by
    intro runs
    induction runs with
    | nil => rfl
    | cons run more ih =>
      rw [rehearse, List.foldl_cons, later]
      exact ih
  obtain ⟨run, more, rfl⟩ := List.exists_cons_of_ne_nil hne
  rw [rehearse, List.foldl_cons, first]
  exact still more

/-- The lines that a dry run prints. -/
theorem lines_dry (utility : Utility) (bar : Nat) (draws : Draws) :
    (run settings.dry utility bar draws v).lines =
      ("dry: true, mpath: " ++ Path.display settings.mpath) ::
        (m.candidateBlocks.zip (commandsFor settings m)).flatMap fun shown =>
          rehearsedLines (settings.deviceStart ++ m.device) shown.1 shown.2 := by
  have dry : settings.dry.dryRun = true := rfl
  obtain ⟨before, logged, he⟩ := run_dry dry load valid taken utility bar draws
  have hevents : ∀ events : List Event, (events.map Deed.event).filterMap Deed.event? = events := by
    intro events
    rw [List.filterMap_map]
    exact List.filterMap_some
  have hend : ∀ text, [Event.progress (.finish bar text)].filterMap Event.line? = [] :=
    fun _ => rfl
  rw [Run.lines, Run.events, he, List.filterMap_append, List.filterMap_append, logged.lines,
    hevents, List.filterMap_append, List.filterMap_append, lines_opening, lines_rehearsal, hend,
    List.append_nil, List.nil_append, commandsFor, Metadata.candidateBlocks, List.map_map,
    List.zip_map', List.flatMap_map]
  rfl

/-- None of them says that the file is written. -/
theorem updating_notMem_lines_dry (utility : Utility) (bar : Nat) (draws : Draws) :
    "Updating meta file" ∉ (run settings.dry utility bar draws v).lines := by
  -- Every line has a character that this one lacks.
  have other : ∀ line : String, ':' ∈ line.toList ∨ '_' ∈ line.toList →
      line ≠ "Updating meta file" := by
    rintro line h rfl
    revert h
    decide
  suffices h : ∀ line ∈ (run settings.dry utility bar draws v).lines,
      ':' ∈ line.toList ∨ '_' ∈ line.toList from
    fun hm => other _ (h _ hm) rfl
  rw [lines_dry load valid taken]
  refine List.forall_mem_cons.mpr ⟨.inl (by simp), ?_⟩
  intro line hm
  obtain ⟨⟨block, command⟩, hshown, hm⟩ := List.mem_flatMap.mp hm
  obtain ⟨block', -, rfl⟩ := List.mem_map.mp (List.of_mem_zip hshown).2
  rcases List.mem_cons.mp hm with rfl | hm
  · exact .inl (by simp)
  rcases List.mem_cons.mp hm with rfl | hm
  · exact .inr (by simp [eraseCommand, Command.line, Command.words, String.intercalate_cons_cons])
  · rw [List.mem_singleton.mp hm]
    exact .inl (by simp)

/-- The dry run of settings that are not refused. -/
theorem rehearses (utility : Utility) (bar : Nat) (draws : Draws) :
    Rehearses settings m backup v (run settings.dry utility bar draws v) := by
  have dry : settings.dry.dryRun = true := rfl
  have hvolume := volume_dry load valid taken utility bar draws
  obtain ⟨before, logged, he⟩ := run_dry dry load valid taken utility bar draws
  constructor
  case calls =>
    rw [he]
    exact (logged.quiet.append (quiet_dry _ m bar _)).calls
  case result =>
    rw [he]
    rfl
  case file =>
    rw [hvolume]
    exact Backup.read_take taken
  case copy =>
    rw [hvolume]
    obtain ⟨content, hread, -, hw⟩ := Backup.take_eq_ok_iff.mp taken
    obtain ⟨place, mode, replaced, leads, -⟩ := replaced_of_write hw
    exact ⟨place, content, mode, hread, replaced, leads⟩
  case lines => exact lines_dry load valid taken utility bar draws
  case unwritten => exact updating_notMem_lines_dry load valid taken utility bar draws
  case repeated =>
    intro runs hne
    rw [hvolume]
    exact rehearse_eq load valid taken hne

end

/-! ## A real run -/

theorem subjects_rehearsed (left : List (Nat × BlockState)) :
    (left.map Job.rehearsed).map (fun block => (block.index, block.previous)) = left := by
  rw [List.map_map]
  exact List.map_id _

/-- A report on what the answers made of some blocks is about these blocks. -/
theorem subjects_zipWith {left : List (Nat × BlockState)} {answers : List Output}
    (hlen : answers.length = left.length) :
    (List.zipWith Job.report left answers).map (fun block => (block.index, block.previous)) =
      left := by
  rw [List.map_zipWith, ← List.map_uncurry_zip_eq_zipWith]
  exact List.map_fst_zip hlen.ge

section
variable {settings : Settings} {v w : Volume} {m : Metadata} {backup : Bytes}

/-- What a dry run tells of a real run of settings that are not refused. -/
theorem foretells (load : Metadata.load v settings.mpath = .ok m)
    (valid : settings.validate = .ok ())
    (taken : Backup.take v settings.mpath = .ok (backup, w)) (utility utility' : Utility)
    (bar bar' : Nat) (draws draws' : Draws) :
    Foretells settings utility' draws' m (run settings.dry utility bar draws v)
      (run settings.real utility' bar' draws' v) := by
  have load' : Metadata.load v settings.real.mpath = .ok m := load
  have valid' : settings.real.validate = .ok () := valid
  have taken' : Backup.take v settings.real.mpath = .ok (backup, w) := taken
  obtain ⟨main, around, hgoes⟩ := goes_of_load utility' bar' draws' load' rfl
  have hcommands : commandsFor settings m = m.candidates.map fun candidate =>
      (jobFor settings.real utility' bar' draws' m).command candidate.1 := by
    rw [commandsFor, Metadata.candidateBlocks, List.map_map]
    rfl
  constructor
  case calls =>
    rw [around.calls, hgoes.commands, hcommands]
    exact (List.take_prefix _ _).map _
  case complete =>
    intro answers writes
    have hresult := hgoes.completes valid' taken' (around.calls ▸ answers) fun before plan hm =>
      Deed.isGranted_replace.mp (writes _ (around.mem hm))
    refine ⟨?_, _, hresult⟩
    rw [hresult] at hgoes
    obtain ⟨-, -, -, all, -⟩ := hgoes.reported
    rw [around.calls, hcommands, all]
  case report =>
    intro report hresult
    rw [hresult] at hgoes
    obtain ⟨backup', w', htaken, -, hlen, rfl⟩ := hgoes.reported
    obtain ⟨rfl, -⟩ := Prod.mk.inj (Except.ok.inj (htaken.symm.trans taken'))
    refine ⟨_, (rehearses load valid taken utility bar draws).result, rfl, rfl, rfl, ?_⟩
    exact (subjects_zipWith hlen).trans (subjects_rehearsed m.candidates).symm
  case undisturbed =>
    intro bar''
    rw [volume_dry load valid taken, run_on_backup load' valid' taken',
      run_renumber settings.real utility' bar' bar'' draws' v]
    exact ⟨calls_run_renumber bar'' _, rfl, rfl⟩

/-- **A dry run foretells the real ones and leaves nothing but the backup.** A blank program name
has either kind of run refused. -/
theorem dryRun_foretells (load : Metadata.load v settings.mpath = .ok m)
    (taken : Backup.take v settings.mpath = .ok (backup, w)) (utility : Utility) (bar : Nat)
    (draws : Draws) :
    if Text.isBlankText settings.program then
      run settings.dry utility bar draws v = ⟨[], v, .error (.config "erase program is empty")⟩ ∧
      run settings.real utility bar draws v = ⟨[], v, .error (.config "erase program is empty")⟩
    else
      Rehearses settings m backup v (run settings.dry utility bar draws v) ∧
      ∀ utility' bar' draws', Foretells settings utility' draws' m
        (run settings.dry utility bar draws v) (run settings.real utility' bar' draws' v) := by
  have valid := validate_of_load load
  split
  · rename_i hblank
    rw [if_pos hblank] at valid
    have dry : settings.dry.validate = .error (.config "erase program is empty") := valid
    have real : settings.real.validate = .error (.config "erase program is empty") := valid
    simp only [run, dry, real, and_self]
  · rename_i hnamed
    rw [if_neg hnamed] at valid
    exact ⟨rehearses load valid taken utility bar draws,
      fun utility' bar' draws' =>
        foretells load valid taken utility utility' bar bar' draws draws'⟩

end

/-- The two commands for the small file are foretold. -/
theorem dryRun_foretells_small : ∃ backup,
    Rehearses (smallSettings .perBlock) smallMetadata backup smallVolume
      (run (smallSettings .perBlock).dry smallUtility 1 smallDraws smallVolume) ∧
    (∀ utility bar draws, Foretells (smallSettings .perBlock) utility draws smallMetadata
      (run (smallSettings .perBlock).dry smallUtility 1 smallDraws smallVolume)
      (run (smallSettings .perBlock).real utility bar draws smallVolume)) ∧
    (commandsFor (smallSettings .perBlock) smallMetadata).map Command.line =
      ["nvm_vblk line_erase /dev/nvme0 0 15 0 7 0", "nvm_vblk line_erase /dev/nvme0 0 15 0 7 2"] ∧
    (run (smallSettings .perBlock).real smallUtility 2 smallDraws
      smallVolume).calls.length = 2 := by
  have taken : (Backup.take smallVolume [47, 100, 47, 109]).toBool = true := by decide +kernel
  cases hb : Backup.take smallVolume [47, 100, 47, 109] with
  | error failure =>
    rw [hb] at taken
    cases taken
  | ok taken =>
    have load : Metadata.load smallVolume (smallSettings .perBlock).mpath = .ok smallMetadata :=
      small_stored.load
    have foretold := dryRun_foretells load hb smallUtility 1 smallDraws
    rw [if_neg (by decide)] at foretold
    exact ⟨taken.1, foretold.1, foretold.2, by decide +kernel, by decide +kernel⟩

/-- With a blank program name a dry run is refused, although there is metadata and the backup could
be taken. -/
theorem not_foretold_small_blank :
    Metadata.load smallVolume smallBlankSettings.mpath = .ok smallMetadata ∧
    (Backup.take smallVolume smallBlankSettings.mpath).toBool = true ∧
    ∀ report,
      (run smallBlankSettings.dry smallUtility 1 smallDraws smallVolume).result ≠ .ok report := by
  have refused : run smallBlankSettings.dry smallUtility 1 smallDraws smallVolume =
      ⟨[], smallVolume, .error (.config "erase program is empty")⟩ := rfl
  rw [refused]
  refine ⟨small_stored.load, by decide +kernel, ?_⟩
  intro report impossible
  cases impossible

end BlockPurge.Purge
