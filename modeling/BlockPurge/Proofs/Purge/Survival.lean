import BlockPurge.Proofs.Purge.Shape
import BlockPurge.Proofs.Volume.Copy

/-!
# The backup survives the run

After a completed run the backup holds what the metadata file held before it. This is said of runs
whose backup is another file: where the path of the backup leads to the metadata file itself,
because one of the two is a link to the other, the write that takes the backup changes nothing, and
the first outcome that is recorded is recorded in the backup as well.
-/
namespace BlockPurge.Purge

open Volume

/-- A loop that reports on nothing had nothing to do. -/
theorem Erases.volume_of_nil {job : Job} {left : List (Nat × BlockState)} {m : Metadata}
    {v : Volume}
    {stretch : Stretch} (h : Erases job left m v stretch) (hok : stretch.result = .ok []) :
    left = [] ∧ stretch.volume = v := by
  cases h with
  | done => exact ⟨rfl, rfl⟩
  | unanswered => cases hok
  | unrecorded => cases hok
  | @recorded candidate rest _ _ _ _ _ _ stretch =>
    cases hres : stretch.result <;> simp [Stretch.after, hres, Except.map] at hok

theorem write_of_take {v w : Volume} {path backup content : Bytes} (hr : v.read path = .ok content)
    (h : Backup.take v path = .ok (backup, w)) :
    backup = Backup.pathFor path content ∧ v.write backup content = .ok w := by
  obtain ⟨content', hr', named, hw⟩ := Backup.take_eq_ok_iff.mp h
  cases hr.symm.trans hr'
  exact ⟨named, hw⟩

/-- The backup that a report names holds what the metadata file held before the run. -/
structure KeepsBackup (path content : Bytes) (before after : Volume) (report : Report) : Prop where
  named : report.backup = Backup.pathFor path content
  held : ∃ q mode, after.Leads report.backup q ∧ after.entry? q = some (.file content mode)
  /-- It can be read unless it was there before and could not be read then. -/
  read : before.read report.backup ≠ .error (.system .permissionDenied) →
    after.read report.backup = .ok content

/-- The volume of a completed real run is the one with the backup, if there was nothing to erase,
and otherwise what the calls and the replacements made of it. -/
theorem Goes.keeps {job : Job} {m : Metadata} {v after : Volume} {main : List Deed}
    {report : Report} (h : Goes job m v main after (.ok report)) :
    report.dryRun = job.settings.dryRun ∧
    ∃ w, Backup.take v job.settings.mpath = .ok (report.backup, w) ∧
      (report.blocks = [] → after = w) ∧
      ∀ {I : Volume → Prop}, (∀ {v} command, I v → I (job.utility v command).2) →
        (∀ {v w draw content}, I v → v.replace draw job.settings.mpath content = (.ok (), w) →
          I w) →
        I w → I after := by
  cases h with
  | @completed backup w stored stretch blocks writing htaken hloop hres hclose =>
    refine ⟨rfl, w, htaken, fun hnil => ?_, fun called written hw => ?_⟩
    · obtain rfl : blocks = [] := hnil
      obtain ⟨hnone, hv⟩ := hloop.volume_of_nil hres
      rcases closing_cases hclose with ⟨-, -, -, rfl⟩ | ⟨hne, -⟩
      · exact hv
      · exact absurd hnone hne
    · have hloop := hloop.keeps called written hw hres
      rcases closing_cases hclose with ⟨-, -, -, rfl⟩ | ⟨-, -, hp⟩
      · exact hloop
      · exact written hloop (replace_of_persist hp)

/-- So is that of a dry run, which erases nothing. -/
theorem run_keeps {settings : Settings} {utility : Utility} {bar : Nat} {draws : Draws} {v : Volume}
    {report : Report} (hok : (run settings utility bar draws v).result = .ok report) :
    ∃ w, Backup.take v settings.mpath = .ok (report.backup, w) ∧
      (report.dryRun = true ∨ report.blocks = [] → (run settings utility bar draws v).volume = w) ∧
      ∀ {I : Volume → Prop}, (∀ {v} command, I v → I (utility v command).2) →
        (∀ {v w draw content}, I v → v.replace draw settings.mpath content = (.ok (), w) → I w) →
        I w → I (run settings utility bar draws v).volume := by
  obtain ⟨m, hl⟩ := load_of_completed hok
  cases hd : settings.dryRun with
  | true =>
    rcases run_eq settings utility bar draws hl with
        ⟨before, failure, -, he, -⟩ | ⟨before, backup, w, -, -, hb, he⟩
    · rw [he] at hok
      cases hok
    · have hdry : (jobFor settings utility bar draws m).settings.dryRun = true := hd
      have hv := (quiet_purge hdry m backup w).2
      have hbackup : report.backup = backup := by
        rw [he, purge_dry hdry] at hok
        cases hok
        rfl
      rw [he]
      exact ⟨w, hbackup ▸ hb, fun _ => hv, fun _ _ hw => by simpa only [hv] using hw⟩
  | false =>
    obtain ⟨main, -, hgoes⟩ := goes_of_load utility bar draws hl hd
    rw [hok] at hgoes
    obtain ⟨hdry, w, htaken, hidle, hkeeps⟩ := hgoes.keeps
    have hreal : report.dryRun = false := hdry.trans hd
    exact ⟨w, htaken, fun hn => hidle (hn.resolve_left (by simp [hreal])), hkeeps⟩

/-- **The backup survives the run**, unless it was the metadata file itself that the backup was
written to. -/
theorem run_keepsBackup {settings : Settings} {utility : Utility} {bar : Nat} {draws : Draws}
    {v : Volume} {content : Bytes} {report : Report} (sound : v.Sound)
    (adds : ∀ (u : Volume) command, u.Extends (utility u command).2)
    (read : v.read settings.mpath = .ok content)
    (hok : (run settings utility bar draws v).result = .ok report)
    (apart : report.dryRun = true ∨ report.blocks = [] ∨
      ∀ q, v.Leads settings.mpath q → ¬ v.Leads report.backup q) :
    KeepsBackup settings.mpath content v (run settings utility bar draws v).volume report := by
  obtain ⟨w, htaken, hidle, hkeeps⟩ := run_keeps hok
  obtain ⟨named, hw⟩ := write_of_take read htaken
  suffices copy : HoldsCopy report.backup content
      (v.read report.backup ≠ .error (.system .permissionDenied))
      (run settings utility bar draws v).volume by
    obtain ⟨q, mode, hl, hq, -⟩ := id copy
    exact ⟨named, ⟨q, mode, hl, hq⟩, copy.read⟩
  by_cases hnone : report.dryRun = true ∨ report.blocks = []
  · rw [hidle hnone]
    exact holdsCopy_of_write hw
  · have hne := (or_assoc.mpr apart).resolve_left hnone
    exact (hkeeps (fun command h => h.extends (adds _ command)) (fun h hr => h.replace hr)
      (apart_of_write sound read hne hw)).copy

/-! ## A small file and its backup -/

/-- The name of the backup of the small file. -/
def smallBackup : Name :=
  Backup.fileName [47, 100, 47, 109] (Text.encode smallText)

theorem ok_of_toOption {ε α : Type} {x : Except ε α} {a : α}
    (h : x.toOption = some a) : x = .ok a := by
  cases x <;> simp [Except.toOption] at h
  rw [h]

/-- The backup of the small file reads as the file did, after a run that recorded two outcomes. -/
theorem run_keepsBackup_small :
    ∃ report,
      (run (smallSettings .perBlock) smallUtility 1 smallDraws smallVolume).result = .ok report ∧
      report.blocks.length = 2 ∧
      KeepsBackup [47, 100, 47, 109] (Text.encode smallText) smallVolume
        (run (smallSettings .perBlock) smallUtility 1 smallDraws smallVolume).volume report := by
  have hall :
      ((run (smallSettings .perBlock) smallUtility 1 smallDraws smallVolume).result.toOption.map
      fun report => (report.backup, report.blocks.length)) =
      some ([47, 100, 47] ++ smallBackup, 2) := by decide +kernel
  obtain ⟨report, hrun, hreport⟩ := Option.map_eq_some_iff.mp hall
  obtain ⟨hbackup, hblocks⟩ := Prod.mk.inj hreport
  have hok := ok_of_toOption hrun
  -- Nothing could be read by the path of the backup, so it did not lead to the small file.
  have hnone : (smallVolume.read ([47, 100, 47] ++ smallBackup)).toOption = none := by
    decide +kernel
  have apart : ∀ q, smallVolume.Leads (smallSettings .perBlock).mpath q →
      ¬ smallVolume.Leads report.backup q := by
    intro q hl hb
    obtain ⟨q', mode, hl', hq, ha⟩ := read_eq_ok_iff.mp small_stored.read
    obtain rfl := hl.unique hl'
    have hread := read_eq_ok_iff.mpr ⟨q, mode, hb, hq, ha⟩
    simp [← hbackup, hread, Except.toOption] at hnone
  exact ⟨report, hok, hblocks, run_keepsBackup small_sound (fun u _ => Extends.refl u) rfl hok
    (.inr (.inr apart))⟩

/-- The small file with a link to it by the name of its backup. -/
def smallLinkedBackup : Volume :=
  ⟨[([[100]], .folder 0o755), ([[100], [109]], .file (Text.encode smallText) 0o644),
    ([[100], smallBackup], .link [109])], [], false⟩

/-- The small file by the name of its backup, and a link to it. -/
def smallOwnBackup : Volume :=
  ⟨[([[100]], .folder 0o755), ([[100], [109]], .link smallBackup),
    ([[100], smallBackup], .file (Text.encode smallText) 0o644)], [], false⟩

/-- The text of the small file with both outcomes recorded. -/
def smallRecorded : String := "nvme0\n\n\n0x02\n0x5\n0x08\n"

/-- Where one of the two is a link to the other, the run ends well and what its backup held is gone.
-/
theorem not_keepsBackup_small :
    Text.encode smallRecorded ≠ Text.encode smallText ∧
    ∀ v ∈ [smallLinkedBackup, smallOwnBackup],
      v.read (smallSettings .perBlock).mpath = .ok (Text.encode smallText) ∧
      ∃ report, (run (smallSettings .perBlock) smallUtility 1 smallDraws v).result = .ok report ∧
        (run (smallSettings .perBlock) smallUtility 1 smallDraws v).volume.read report.backup =
          .ok (Text.encode smallRecorded) := by
  have hall : ∀ v ∈ [smallLinkedBackup, smallOwnBackup],
      (v.read (smallSettings .perBlock).mpath).toOption = some (Text.encode smallText) ∧
      ((run (smallSettings .perBlock) smallUtility 1 smallDraws v).result.toOption.map fun report =>
        ((run (smallSettings .perBlock) smallUtility 1 smallDraws v).volume.read
          report.backup).toOption) =
          some (some (Text.encode smallRecorded)) := by
    decide +kernel
  refine ⟨by decide +kernel, fun v hv => ?_⟩
  obtain ⟨hread, hrun⟩ := hall v hv
  obtain ⟨report, hok, hbackup⟩ := Option.map_eq_some_iff.mp hrun
  exact ⟨ok_of_toOption hread, report, ok_of_toOption hok, ok_of_toOption hbackup⟩

end BlockPurge.Purge
