import BlockPurge.Proofs.Purge.Outcome

/-!
# A completed real run

A real run to which the utility answers every call, and whose writes are all granted, erases exactly
the blocks that the file records as written or open, in block order. It reports on each of them, and
leaves a file that differs from the old one in their lines alone, but for white space at the ends of
lines. A file without candidates keeps its bytes. The name of the program may be anything but blank:
with a blank one nothing is done.
-/
namespace BlockPurge.Purge

/-- Whether a deed is no refused replacement. -/
def Deed.isGranted : Deed → Bool
  | .replace _ ⟨_, .error _⟩ => false
  | _ => true

theorem Deed.isGranted_replace {before : Volume} {plan : Volume.Plan} :
    (Deed.replace before plan).isGranted = true ↔ plan.verdict = .ok () := by
  obtain ⟨steps, fault | done⟩ := plan
  · simp [isGranted]
  · simp [isGranted]

/-- The command that erases a block of the device with a given path. -/
def eraseCommand (program device : String) (block : Nat) : Command :=
  ⟨program, ["line_erase", device, "0", "15", "0", "7", toString block]⟩

/-- The report on a block that was in a given state and whose call was answered. -/
def answerReport (block : Nat) (previous : BlockState) (output : Output) : BlockReport :=
  ⟨block, previous, if output.exit = some 0 then .erased else .failed, output.exit, output.summary⟩

/-- What a completed real run on a metadata file comes to. -/
structure Completes (settings : Settings) (utility : Utility) (content : String) (m : Metadata)
    (backup : Bytes) (r : Run) : Prop where
  /-- The candidates are the blocks whose lines spell `0x01` or `0x04`. -/
  candidates : ∀ block previous, (block, previous) ∈ m.candidates ↔
    ∃ row code, (Metadata.rows content)[block + 3]? = some row ∧ Literal.read row = .ok code ∧
      previous = .ofCode code ∧ (code = 0x01 ∨ code = 0x04)
  ascending : (m.candidates.map Prod.fst).Pairwise (· < ·)
  /-- Each of them is called for once, in order, and nothing else is. -/
  calls : r.calls.map (fun call => (call.command, call.answer)) =
    List.zipWith (fun candidate output =>
      (eraseCommand settings.program (settings.deviceStart ++ m.device) candidate.1, .ok output))
      m.candidates r.answers
  answers : r.answers.length = m.candidates.length
  /-- The answers are those of the utility. -/
  given : ∀ call ∈ r.calls, call.answer = (utility call.before call.command).1
  /-- Without candidates the file keeps its bytes; otherwise the lines of the candidates change. -/
  file : r.volume.read settings.mpath = .ok (Text.encode (
    if m.candidates.isEmpty then content
    else Metadata.recordedText content ((m.candidates.map Prod.fst).zip r.answers)))
  result : r.result = .ok
    { mpath := settings.mpath, device := settings.deviceStart ++ m.device, backup := backup,
      dryRun := false, total := m.size,
      blocks := List.zipWith (fun candidate output => answerReport candidate.1 candidate.2 output)
        m.candidates r.answers }

theorem report_eq (candidate : Nat × BlockState) (output : Output) :
    Job.report candidate output = answerReport candidate.1 candidate.2 output := by
  simp only [Job.report, answerReport, Output.succeeded_iff]

/-- Settings with a file to load are valid unless the name of their program is blank. -/
theorem validate_of_load {settings : Settings} {v : Volume} {m : Metadata}
    (load : Metadata.load v settings.mpath = .ok m) :
    settings.validate = if Text.isBlankText settings.program then
      .error (.config "erase program is empty") else .ok () := by
  have hpath : settings.mpath.isEmpty = false := by
    cases hp : settings.mpath with
    | nil => cases hp ▸ load
    | cons => rfl
  simp [Settings.validate, hpath]

theorem validate_of_stored {settings : Settings} {v : Volume} {content : String} {m : Metadata}
    (stored : Metadata.Stored v settings.mpath content m) :
    settings.validate = if Text.isBlankText settings.program then
      .error (.config "erase program is empty") else .ok () :=
  validate_of_load stored.load

/-- A real run that is answered and granted everything completes, and does exactly what the recorded
states ask for, unless the name of its program is blank. -/
theorem run_completes {settings : Settings} {utility : Utility} {bar : Nat} {draws : Draws}
    {v w : Volume} {content : String} {m : Metadata} {backup : Bytes}
    (stored : Metadata.Stored v settings.mpath content m) (sound : v.Sound)
    (real : settings.dryRun = false)
    (taken : Backup.take v settings.mpath = .ok (backup, w))
    (spares : utility.Spares settings.mpath)
    (answers : ∀ call ∈ (run settings utility bar draws v).calls,
      ∃ output, call.answer = .ok output)
    (writes : ∀ deed ∈ (run settings utility bar draws v).deeds, deed.isGranted = true) :
    if Text.isBlankText settings.program then
      run settings utility bar draws v = ⟨[], v, .error (.config "erase program is empty")⟩
    else Completes settings utility content m backup (run settings utility bar draws v) := by
  have valid := validate_of_stored stored
  split
  · rename_i hblank
    rw [if_pos hblank] at valid
    simp [run, valid]
  rename_i hnamed
  rw [if_neg hnamed] at valid
  obtain ⟨main, around, hgoes⟩ := goes utility bar draws stored real
  have hcalls := around.calls
  have hanswers : (run settings utility bar draws v).answers = outputs (calls main) :=
    congrArg outputs hcalls
  have hresult := hgoes.completes valid taken (hcalls ▸ answers) fun before plan hm =>
    Deed.isGranted_replace.mp (writes _ (around.mem hm))
  obtain ⟨held, -, shows, -, hok⟩ := hgoes.rising stored sound spares
  obtain ⟨rfl, hlen⟩ := hok _ hresult
  -- No call is without an answer, so there are as many calls as candidates.
  have hall : (calls main).map Call.answer = (outputs (calls main)).map .ok := by
    rcases hgoes.answered with ha | ⟨failure, hf, -⟩
    · exact ha
    · cases hresult.symm.trans hf
  have hcommands := hgoes.commands
  have hcount : (calls main).length = m.candidates.length := by
    rw [← hlen, ← List.length_map (f := Call.answer), hall, List.length_map]
  rw [hcount, List.take_length] at hcommands
  constructor
  case candidates =>
    intro block previous
    exact Metadata.mem_candidates_iff_rows stored.parsed
  case ascending => exact m.candidateBlocks_ascending
  case calls =>
    rw [hcalls, hanswers, ← List.zip_map', hcommands, hall, List.zip_eq_zipWith, List.zipWith_map]
    rfl
  case answers => rw [hanswers, hlen]
  case given =>
    rw [hcalls]
    exact hgoes.called
  case file =>
    have hread := shows.read
    rw [Metadata.textAfter_eq stored.parsed] at hread
    have hempty : (outputs (calls main)).isEmpty = m.candidates.isEmpty := by
      rw [Bool.eq_iff_iff, List.isEmpty_iff_length_eq_zero, List.isEmpty_iff_length_eq_zero, hlen]
    rw [hanswers, ← hempty]
    exact hread
  case result =>
    have hreports : List.zipWith Job.report m.candidates (outputs (calls main)) =
        List.zipWith (fun candidate output => answerReport candidate.1 candidate.2 output)
          m.candidates (outputs (calls main)) :=
      congrArg (List.zipWith · _ _) (funext fun _ => funext fun _ => report_eq _ _)
    rw [hresult, hanswers, reportOf, hreports]
    change Except.ok (Report.mk _ _ _ settings.dryRun _ _) = _
    rw [real]
    rfl

/-- The small file is erased and failed as its utility answers, its own state left as it was
spelled. -/
theorem run_completes_small : ∃ backup,
    Completes (smallSettings .perBlock) smallUtility smallText smallMetadata backup
      (run (smallSettings .perBlock) smallUtility 1 smallDraws smallVolume) ∧
    Metadata.recordedText smallText [(0, ⟨some 0, "", ""⟩), (2, ⟨some 1, "", ""⟩)] =
      "nvme0\n\n\n0x02\n0x5\n0x08\n" := by
  have taken : (Backup.take smallVolume [47, 100, 47, 109]).toBool = true := by decide +kernel
  cases hb : Backup.take smallVolume [47, 100, 47, 109] with
  | error failure =>
    rw [hb] at taken
    cases taken
  | ok taken =>
    have answers : ∀ call ∈
        (run (smallSettings .perBlock) smallUtility 1 smallDraws smallVolume).calls,
        ∃ output, call.answer = .ok output := by
      intro call hm
      have hall : ∀ call ∈
          (run (smallSettings .perBlock) smallUtility 1 smallDraws smallVolume).calls,
          call.answer.toBool = true := by decide +kernel
      cases ha : call.answer with
      | ok output => exact ⟨output, rfl⟩
      | error failure => simpa [ha, Except.toBool] using hall call hm
    have stored : Metadata.Stored smallVolume (smallSettings .perBlock).mpath smallText
        smallMetadata := small_stored
    have completes := run_completes stored small_sound rfl hb small_spares answers
      (by decide +kernel)
    rw [if_neg (by decide)] at completes
    exact ⟨taken.1, completes, by decide +kernel⟩

/-- Settings of a real run on the small file whose program has a blank name. -/
def smallBlankSettings : Settings :=
  { smallSettings .perBlock with program := " " }

/-- With them the run is refused, although the backup, the answers and the writes are all there. -/
theorem not_completes_small_blank :
    Metadata.Stored smallVolume smallBlankSettings.mpath smallText smallMetadata ∧
    smallBlankSettings.dryRun = false ∧
    (Backup.take smallVolume smallBlankSettings.mpath).toBool = true ∧
    (∀ v command, ∃ output, smallUtility v command = (.ok output, v)) ∧
    (∀ deed ∈ (run smallBlankSettings smallUtility 1 smallDraws smallVolume).deeds,
      deed.isGranted = true) ∧
    (run smallBlankSettings smallUtility 1 smallDraws smallVolume).calls = [] ∧
    ∀ report,
      (run smallBlankSettings smallUtility 1 smallDraws smallVolume).result ≠ .ok report := by
  have refused : run smallBlankSettings smallUtility 1 smallDraws smallVolume =
      ⟨[], smallVolume, .error (.config "erase program is empty")⟩ := rfl
  rw [refused]
  refine ⟨small_stored, rfl, by decide +kernel, fun v command => ⟨_, rfl⟩, by simp, rfl, ?_⟩
  intro report impossible
  cases impossible

end BlockPurge.Purge
