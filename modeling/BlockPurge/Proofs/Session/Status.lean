import BlockPurge.Proofs.Purge.Counts
import BlockPurge.Proofs.Purge.Indifference
import BlockPurge.Session

/-!
# What a session says of its run

The exit status of a session with a command line that is understood says whether its run completed,
and nothing about the blocks: a utility that fails on every block and one that erases them all have
the same status, if they are launched and do the same to the volume, file contents apart. What
became of the blocks is in the summary, whose counts are those of the file if nobody but the run
writes it.
-/
namespace BlockPurge.Session

open Purge
open Metadata (turned bystanders)

/-! ## What a run starts from -/

/-- The configuration of a command line: none if it names no file, and otherwise that of the file,
which is loaded and is valid. -/
inductive Configured (v : Volume) (a : Arguments) : Option Config → Prop
  | none : a.config = none → Configured v a none
  | file {path : String} {c : Config} : a.config = some path →
      Config.load v (Text.encode path) = .ok c → c.validate = .ok () → Configured v a (some c)

theorem configuration_eq_ok_iff {v : Volume} {a : Arguments} {c : Option Config} :
    configuration v a = .ok c ↔ Configured v a c := by
  constructor
  · intro h
    unfold configuration at h
    split at h
    · rename_i hnone
      cases h
      exact .none hnone
    · rename_i path hpath
      split at h
      · cases h
      · rename_i hload
        split at h
        · cases h
        · rename_i hvalid
          cases h
          exact .file hpath hload hvalid
  · intro h
    cases h with
    | none hnone => simp [configuration, hnone]
    | file hpath hload hvalid => simp [configuration, hpath, hload, hvalid]

theorem invocation_eq_ok_iff {env : Environment} {v : Volume} {a : Arguments} {i : Invocation} :
    invocation env v a = .ok i ↔ ∃ c, Configured v a c ∧ Invocation.merge env v a c = .ok i := by
  simp only [← configuration_eq_ok_iff, invocation]
  cases configuration v a with
  | error fault => simp
  | ok c =>
    cases hm : Invocation.merge env v a c with
    | error fault => simp [hm]
    | ok invocation => simp [hm]

/-! ## What comes of it -/

/-- The run of a session, once it is known what is to be done. -/
def purgeOf (host : Host) (v : Volume) (i : Invocation) : Purge.Run :=
  Purge.run i.settings (host.utility i.quiet) firstBar host.draws v

section
variable {host : Host} {v : Volume} {words : List String} {a : Arguments} {i : Invocation}

theorem run_of_fault (parsed : Arguments.read words = .ok a) {fault : Fault}
    (hi : invocation host.environment v a = .error fault) :
    Session.run host v words = ⟨1, "", fault.line, [], v⟩ := by
  simp only [Session.run, parsed, start, hi]

theorem run_of_invocation (parsed : Arguments.read words = .ok a)
    (hi : invocation host.environment v a = .ok i) :
    Session.run host v words = carryOut host v i := by
  simp only [Session.run, parsed, start, hi]

theorem exit_carryOut (host : Host) (v : Volume) (i : Invocation) :
    (carryOut host v i).exit = if (purgeOf host v i).result.toBool then 0 else 1 := by
  unfold purgeOf
  cases hr : (Purge.run i.settings (host.utility i.quiet) firstBar host.draws v).result with
  | error failure =>
    simp only [carryOut, hr]
    rfl
  | ok report =>
    simp only [carryOut, hr]
    rfl

theorem exit_carryOut_eq_zero_iff :
    (carryOut host v i).exit = 0 ↔ ∃ report, (purgeOf host v i).result = .ok report := by
  rw [exit_carryOut, ← toBool_eq_true_iff]
  split <;> simp_all

/-- A session whose run completes prints its summary, unless it is quiet. -/
theorem carryOut_of_completed {report : Report} (hr : (purgeOf host v i).result = .ok report) :
    carryOut host v i =
      ⟨0, shown host.terminal i.quiet (purgeOf host v i).events ++
        (if i.quiet then "" else summary report), "", (purgeOf host v i).events,
        (purgeOf host v i).volume⟩ := by
  unfold purgeOf at hr ⊢
  simp only [carryOut, hr]

end

/-! ## The status and the summary -/

/-- Two hosts whose utilities are launched in every call and do the same to the volume, file
contents apart. What the utilities answer may differ. -/
structure Matched (host host' : Host) (v : Volume) (i : Invocation) : Prop where
  answered : Answered (purgeOf host v i).calls
  answered' : Answered (purgeOf host' v i).calls
  effects : SameEffects (host.utility i.quiet) (host'.utility i.quiet) (purgeOf host v i).calls
    (purgeOf host' v i).calls
  /-- The same is drawn for both, or neither finds every name for a temporary file taken. -/
  drawn : host'.draws = host.draws ∨ ¬ (purgeOf host v i).Crowded ∧ ¬ (purgeOf host' v i).Crowded

/-- The runs of two such hosts have a report both, or neither has. -/
theorem toBool_eq_of_matched {host host' : Host} {v : Volume} {i : Invocation}
    (matched : Matched host host' v i) :
    (purgeOf host v i).result.toBool = (purgeOf host' v i).result.toBool := by
  obtain ⟨answered, answered', effects, drawn⟩ := matched
  unfold purgeOf at answered answered' effects drawn ⊢
  rcases drawn with same | ⟨kept, kept'⟩
  · have redraws : Redraws Redrawn (fun _ => False) host.draws host'.draws := by
      rw [same]
      exact redraws_same _ _ host.draws
    exact report_indifferent redraws answered answered' effects (by simp [Fails]) (by simp [Fails])
  · exact report_indifferent (redraws_of_crowded _ _) answered answered' effects kept kept'

/-- A summary line with its counts, and the line behind it. -/
def summaryOf (device : String) (total erased failed skipped : Nat) (backup : Bytes) : String :=
  device ++ ": " ++ toString total ++ " blocks, " ++ toString erased ++ " erased, " ++
    toString failed ++ " failed, " ++ toString skipped ++ " skipped" ++ "\n" ++
    "Backup: " ++ Path.display backup ++ "\n"

theorem summary_of_tallies {report : Report} {m now : Metadata} (tallies : report.Tallies m now)
    (real : report.dryRun = false) :
    summary report = summaryOf report.device m.size (turned m.codes now.codes 0x02)
      (turned m.codes now.codes 0x08) (bystanders m.codes) report.backup := by
  simp only [summary, summaryOf, tallies.total, tallies.erased, tallies.failed, tallies.skipped,
    real, Bool.false_eq_true, if_false, String.append_empty]

/-- A session whose status and summary can be relied on. -/
structure Truthful (host : Host) (v : Volume) (words : List String) (a : Arguments) : Prop where
  /-- The status is 0 if the configuration, the invocation and the run come to something. -/
  zero : (Session.run host v words).exit = 0 ↔
    ∃ c i report, Configured v a c ∧ Invocation.merge host.environment v a c = .ok i ∧
      (Purge.run i.settings (host.utility i.quiet) firstBar host.draws v).result = .ok report
  one : (Session.run host v words).exit ≠ 0 → (Session.run host v words).exit = 1
  /-- What the utility answers makes no difference to it. -/
  indifferent : ∀ host', host'.environment = host.environment →
    (∀ i, invocation host.environment v a = .ok i → Matched host host' v i) →
    (Session.run host' v words).exit = (Session.run host v words).exit
  /-- The counts of the summary are those of the file, before the run and now. -/
  counts : ∀ i, invocation host.environment v a = .ok i → i.quiet = false →
    i.settings.dryRun = false → v.Sound →
    (host.utility i.quiet).SparesDuring i.settings.mpath (purgeOf host v i).calls →
    (Session.run host v words).exit = 0 →
    ∃ content m content' now backup w,
      Metadata.Stored v i.settings.mpath content m ∧
      Metadata.Stored (Session.run host v words).volume i.settings.mpath content' now ∧
      Backup.take v i.settings.mpath = .ok (backup, w) ∧
      (Metadata.rows content).length = m.size + 3 ∧
      (Session.run host v words).stdout =
        shown host.terminal false (Session.run host v words).events ++
          summaryOf (i.settings.deviceStart ++ m.device) m.size (turned m.codes now.codes 0x02)
            (turned m.codes now.codes 0x08) (bystanders m.codes) backup ∧
      turned m.codes now.codes 0x02 + turned m.codes now.codes 0x08 + bystanders m.codes = m.size

section
variable {host : Host} {v : Volume} {words : List String} {a : Arguments}
  (parsed : Arguments.read words = .ok a)
include parsed

theorem exit_eq_zero_iff :
    (Session.run host v words).exit = 0 ↔ ∃ i report, invocation host.environment v a = .ok i ∧
      (purgeOf host v i).result = .ok report := by
  cases hi : invocation host.environment v a with
  | error fault =>
    rw [run_of_fault parsed hi]
    simp
  | ok i =>
    rw [run_of_invocation parsed hi, exit_carryOut_eq_zero_iff]
    simp

theorem exit_eq_one (h : (Session.run host v words).exit ≠ 0) :
    (Session.run host v words).exit = 1 := by
  cases hi : invocation host.environment v a with
  | error fault => rw [run_of_fault parsed hi]
  | ok i =>
    rw [run_of_invocation parsed hi, exit_carryOut] at h ⊢
    split at h
    · exact absurd rfl h
    · rename_i hr
      exact if_neg hr

theorem exit_eq_of_matched {host' : Host} (henv : host'.environment = host.environment)
    (matched : ∀ i, invocation host.environment v a = .ok i → Matched host host' v i) :
    (Session.run host' v words).exit = (Session.run host v words).exit := by
  cases hi : invocation host.environment v a with
  | error fault => rw [run_of_fault parsed hi, run_of_fault parsed (henv ▸ hi)]
  | ok i =>
    have hsame := toBool_eq_of_matched (matched i hi)
    rw [run_of_invocation parsed hi, run_of_invocation parsed (henv ▸ hi), exit_carryOut,
      exit_carryOut, hsame]

/-- Every session with a command line that is understood is truthful. -/
theorem run_truthful : Truthful host v words a := by
  constructor
  case zero =>
    rw [exit_eq_zero_iff parsed]
    constructor
    · rintro ⟨i, report, hi, hr⟩
      obtain ⟨c, configured, merged⟩ := invocation_eq_ok_iff.mp hi
      exact ⟨c, i, report, configured, merged, hr⟩
    · rintro ⟨c, i, report, configured, merged, hr⟩
      exact ⟨i, report, invocation_eq_ok_iff.mpr ⟨c, configured, merged⟩, hr⟩
  case one => exact exit_eq_one parsed
  case indifferent =>
    intro host' henv matched
    exact exit_eq_of_matched parsed henv matched
  case counts =>
    intro i hi loud real sound spares hexit
    rw [run_of_invocation parsed hi] at hexit ⊢
    obtain ⟨report, hr⟩ := exit_carryOut_eq_zero_iff.mp hexit
    obtain ⟨content, m, content', now, stored, stored', tallies, hdevice, hdry, w, taken⟩ :=
      run_tallies sound real spares hr
    have hrows : (Metadata.rows content).length = m.size + 3 := by
      rw [Metadata.rows_of_parse stored.parsed]
      simp [Metadata.lines, Metadata.size]
    have hsum := tallies.sum
    rw [tallies.total, tallies.erased, tallies.failed, tallies.skipped] at hsum
    rw [carryOut_of_completed hr, loud, summary_of_tallies tallies hdry, hdevice]
    exact ⟨content, m, content', now, report.backup, w, stored, stored', taken, hrows, rfl, hsum⟩

end

/-! ## A small host -/

/-- The volume with the small file and with the utility, in a folder of its own. -/
def smallInstalled : Volume :=
  { smallVolume with
    entries := smallVolume.entries ++ [([[98]], .folder 0o755),
      ([[98], Text.encode Erase.defaultProgram], .file [] 0o755)] }

/-- A host whose utility erases the first block, and ends with a given status on every other one. -/
def smallHost (status : Int) : Host where
  environment := [Text.encode "PATH=/b"]
  terminal := false
  errorTerminal := false
  draws := smallDraws
  programs v image :=
    some (⟨[], [], .exited (if image.words.getLast? = some [48] then 0 else status)⟩, v)

def smallWords : List String := ["--mpath", "/d/m"]

def smallArguments : Arguments := { Arguments.empty with mpath := some "/d/m" }

def smallInvocation : Invocation := ⟨smallSettings .perBlock, false⟩

/-- The utility of such a host leaves every volume as it is. -/
theorem small_leaves (status : Int) (quiet : Bool) (v : Volume) (command : Command) :
    ((smallHost status).utility quiet v command).2 = v := by
  unfold Host.utility Launch.utility
  split
  · rfl
  · split
    · rfl
    · rfl

/-- Two small hosts whose utilities end with different statuses, one of them erasing every block,
have the same status. -/
theorem run_truthful_small :
    Arguments.read smallWords = .ok smallArguments ∧
    Truthful (smallHost 1) smallInstalled smallWords smallArguments ∧
    invocation (smallHost 1).environment smallInstalled smallArguments = .ok smallInvocation ∧
    Matched (smallHost 1) (smallHost 0) smallInstalled smallInvocation ∧
    smallInstalled.Sound ∧
    ((smallHost 1).utility false).SparesDuring [47, 100, 47, 109]
      (purgeOf (smallHost 1) smallInstalled smallInvocation).calls ∧
    (Session.run (smallHost 1) smallInstalled smallWords).exit = 0 ∧
    (Session.run (smallHost 0) smallInstalled smallWords).exit = 0 ∧
    (Session.run (smallHost 1) smallInstalled smallWords).stdout ≠
      (Session.run (smallHost 0) smallInstalled smallWords).stdout := by
  have parsed : Arguments.read smallWords = .ok smallArguments := by decide +kernel
  have truthful : Truthful (smallHost 1) smallInstalled smallWords smallArguments :=
    run_truthful parsed
  have hi : invocation (smallHost 1).environment smallInstalled smallArguments =
      .ok smallInvocation := by decide +kernel
  have matched : Matched (smallHost 1) (smallHost 0) smallInstalled smallInvocation := by
    constructor
    case answered =>
      have hall : ∀ call ∈ (purgeOf (smallHost 1) smallInstalled smallInvocation).calls,
          call.answer.toBool = true := by decide +kernel
      exact fun call hm => toBool_eq_true_iff.mp (hall call hm)
    case answered' =>
      have hall : ∀ call ∈ (purgeOf (smallHost 0) smallInstalled smallInvocation).calls,
          call.answer.toBool = true := by decide +kernel
      exact fun call hm => toBool_eq_true_iff.mp (hall call hm)
    case effects =>
      intro pair _ same
      rw [small_leaves, small_leaves]
      exact same
    case drawn => exact .inl rfl
  have hexit : (Session.run (smallHost 1) smallInstalled smallWords).exit = 0 := by decide +kernel
  refine ⟨parsed, truthful, hi, matched, Volume.sound_of_root rfl, ?_, hexit, ?_, ?_⟩
  · constructor
    · intro call _
      rw [small_leaves]
    · intro call _ sound
      rwa [small_leaves]
  · rw [truthful.indifferent (smallHost 0) rfl fun i hi' => ?_, hexit]
    cases hi.symm.trans hi'
    exact matched
  · decide +kernel

end BlockPurge.Session
