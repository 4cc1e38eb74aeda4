import BlockPurge.Proofs.Invocation.Merging
import BlockPurge.Proofs.Purge.Wording
import BlockPurge.Proofs.Session.Status
import BlockPurge.Proofs.Volume.Rooted

/-!
# Quiet sessions

Whether a session is quiet decides what it prints to standard output, and nothing else that it does.
A quiet session prints nothing, however it ends. Only the wording of one failure gives it away:
where the search path leaves no path to try for a program, the system is asked for nothing, and the
cause that the failure names is whatever the system refused before. A session that is not quiet has
been refused to treat an output as a terminal, unless both are terminals.

Two sessions that draw other names for their temporary files are told apart by these names alone,
where an error text tells one of them, unless every name that one of them tries is taken.
-/
namespace BlockPurge

/-! ## Launching -/

/-- A search path of one entry alone, which is too long to be that of a folder. Then there is no
path to try for a name. -/
def Environment.SearchesNothing (env : Environment) : Prop :=
  ∃ entry, env.searchFolders = [entry] ∧ Launch.longestEntry < entry.length

namespace Launch

theorem candidates_eq_nil {name : Bytes} {folders : List Bytes} (h : candidates name folders = []) :
    folders = [] ∨ ∃ entry, folders = [entry] ∧ longestEntry < entry.length := by
  match folders with
  | [] => exact .inl rfl
  | [entry] =>
    simp only [candidates] at h
    split at h
    · rename_i hlong
      exact .inr ⟨entry, rfl, hlong⟩
    · cases h
  | _ :: _ :: _ => cases h

/-- What the system refused before is the fault of a search that has no path to try, and otherwise
makes no difference. -/
theorem find_cases (folders : List Bytes) (v : Volume) (c : Command) :
    (∀ refused refused', find folders refused v c = find folders refused' v c) ∨
    (candidates (Text.encode c.program) folders = [] ∧
      Path.slash ∉ Text.encode c.program ∧
      ∀ refused, find folders refused v c = .error (nothingTried refused)) := by
  by_cases hname : (Text.encode c.program).isEmpty = true
  · left
    intro refused refused'
    simp [find, hname]
  by_cases hslash : Path.slash ∈ Text.encode c.program
  · left
    intro refused refused'
    simp [find, hname, hslash]
  cases hpaths : candidates (Text.encode c.program) folders with
  | nil =>
    right
    refine ⟨rfl, hslash, fun refused => ?_⟩
    simp [find, hname, hslash, hpaths, search]
  | cons path rest =>
    left
    intro refused refused'
    simp [find, hname, hslash, hpaths, search]

end Launch

/-- The failures of two sessions of a host that launch a program without a path to try for it. -/
def Host.Untried (host : Host) (program : String) (quiet quiet' : Bool)
    (failure failure' : Failure) : Prop :=
  host.environment.SearchesNothing ∧ Path.slash ∉ Text.encode program ∧
    failure = .launch program (Launch.nothingTried (host.refused quiet)) ∧
    failure' = .launch program (Launch.nothingTried (host.refused quiet'))

/-- Two such failures, or failures that tell the paths of two temporary files. -/
def Host.UntriedOrRedrawn (host : Host) (program : String) (quiet quiet' : Bool)
    (failure failure' : Failure) : Prop :=
  host.Untried program quiet quiet' failure failure' ∨ Purge.Redrawn failure failure'

/-- Quiet or not, the utility of a host does the same and answers the same, but for such failures.
-/
theorem Host.rewords (host : Host) (program : String) (quiet quiet' : Bool) :
    Purge.Rewords (host.Untried program quiet quiet') program (host.utility quiet)
      (host.utility quiet') := by
  intro v c hprogram
  unfold Host.utility Launch.utility
  split
  · exact ⟨.refl _, rfl⟩
  rcases Launch.find_cases host.environment.searchFolders v c with hsame | ⟨hnil, hslash, hfind⟩
  · rw [hsame (host.refused quiet) (host.refused quiet')]
    exact ⟨.refl _, rfl⟩
  · rw [hfind, hfind]
    refine ⟨.error (.inr ⟨?_, hprogram ▸ hslash, by rw [hprogram], by rw [hprogram]⟩), rfl⟩
    rcases Launch.candidates_eq_nil hnil with hempty | hlong
    · exact absurd hempty (List.splitOn_ne_nil _ _)
    · exact hlong

namespace Session

open Purge (run_agrees smallMetadata smallSettings smallText)

/-! ## Command lines with and without the flag -/

section
variable {env : Environment} {v : Volume} {a : Arguments}

theorem merge_quiet (c : Option Config) (quiet : Bool) :
    Invocation.merge env v { a with quiet := quiet } c =
      (Invocation.merge env v a c).map fun i =>
        { i with quiet := quiet || (c.getD Config.default).quiet } := by
  generalize hb : c.getD Config.default = b
  have hpath : Invocation.metadataPath env v { a with quiet := quiet } b =
      Invocation.metadataPath env v a b := rfl
  have hpersistence : Invocation.persistence { a with quiet := quiet } b =
      Invocation.persistence a b := rfl
  have hprogram : Invocation.program { a with quiet := quiet } b = Invocation.program a b := rfl
  rw [Invocation.merge, Invocation.merge, hb, Invocation.ofConfig, Invocation.ofConfig, hpath,
    hpersistence, hprogram]
  cases Invocation.metadataPath env v a b with
  | error fault => rfl
  | ok path =>
    cases Invocation.persistence a b with
    | error fault => rfl
    | ok p => cases Invocation.program a b <;> rfl

/-- With the flag and without it, a command line has the same fault, or comes to the same settings.
-/
theorem invocation_quiet (env : Environment) (v : Volume) (a : Arguments) (quiet : Bool) :
    (∃ fault, invocation env v a = .error fault ∧
      invocation env v { a with quiet := quiet } = .error fault) ∨
    ∃ settings loud hushed, invocation env v a = .ok ⟨settings, loud⟩ ∧
      invocation env v { a with quiet := quiet } = .ok ⟨settings, hushed⟩ := by
  have hconfiguration : configuration v { a with quiet := quiet } = configuration v a := rfl
  unfold invocation
  rw [hconfiguration]
  cases configuration v a with
  | error fault => exact .inl ⟨fault, rfl, rfl⟩
  | ok c =>
    simp only [merge_quiet c quiet]
    cases Invocation.merge env v a c with
    | error fault => exact .inl ⟨.invocation fault, rfl, rfl⟩
    | ok i => exact .inr ⟨i.settings, i.quiet, _, rfl, rfl⟩

/-- A session is asked to be quiet, by its command line or by its configuration file. -/
def Hushed (v : Volume) (a : Arguments) : Prop :=
  a.quiet = true ∨ ∃ path c, a.config = some path ∧
    Config.load v (Text.encode path) = .ok c ∧ c.quiet = true

theorem quiet_of_hushed (h : Hushed v a) {i : Invocation} (hi : invocation env v a = .ok i) :
    i.quiet = true := by
  obtain ⟨c, configured, hmerge⟩ := invocation_eq_ok_iff.mp hi
  have hquiet : i.quiet = (a.quiet || (c.getD Config.default).quiet) :=
    (Invocation.obeys_of_ok hmerge).quiet
  rw [hquiet]
  rcases h with ha | ⟨path, d, hpath, hload, hd⟩
  · rw [ha, Bool.true_or]
  · cases configured with
    | none hnone => cases hnone.symm.trans hpath
    | @file path' c hpath' hload' _ =>
      cases hpath.symm.trans hpath'
      cases hload.symm.trans hload'
      rw [Option.getD_some, hd, Bool.or_true]

end

/-! ## What a session does -/

/-- The calls that the utility receives in a session: each command, and the volume that it finds. -/
def received (s : Session) : List (Command × Volume) :=
  s.events.filterMap fun
    | .call command before _ => some (command, before)
    | _ => none

section
variable (host : Host) (v : Volume) (i : Invocation)

theorem events_carryOut :
    (carryOut host v i).events = (purgeOf host v i).events ∧
      (carryOut host v i).volume = (purgeOf host v i).volume := by
  unfold purgeOf
  cases hr : (Purge.run i.settings (host.utility i.quiet) firstBar host.draws v).result <;>
    simp [carryOut, hr]

theorem stderr_of_ok {report : Purge.Report} (hr : (purgeOf host v i).result = .ok report) :
    (carryOut host v i).stderr = "" := by
  rw [carryOut_of_completed hr]

theorem stderr_of_error {failure : Failure} (hr : (purgeOf host v i).result = .error failure) :
    (carryOut host v i).stderr = (Fault.purge i.settings.mpath failure).line := by
  unfold purgeOf at hr
  simp only [carryOut, hr]

theorem received_carryOut :
    (carryOut host v i).received =
      (purgeOf host v i).calls.map fun call => (call.command, call.before) := by
  rw [received, (events_carryOut host v i).1, Purge.Run.events, Purge.Run.calls, Purge.calls,
    List.filterMap_filterMap, List.map_filterMap]
  refine congrArg (List.filterMap · _) (funext fun deed => ?_)
  rcases deed with (⟨_⟩ | ⟨_, _, _⟩ | ⟨_, _⟩) | ⟨_, _⟩ <;> rfl

/-- Nothing is printed on a display that shows nothing. -/
theorem print_silent (requests : List Progress.Request) :
    Progress.Display.silent.print requests = "" := by
  induction requests with
  | nil => rfl
  | cons request rest ih =>
    cases request <;> simp [Progress.Display.print, Progress.Display.handle, ih]

theorem stdout_carryOut (hushed : i.quiet = true) : (carryOut host v i).stdout = "" := by
  have hshown : ∀ events, shown host.terminal i.quiet events = "" := by
    intro events
    rw [shown, display, if_pos hushed, print_silent]
  unfold carryOut
  dsimp only
  split
  · exact hshown _
  · rw [hshown, if_pos hushed, String.append_empty]

end

/-! ## With the flag and without it -/

/-- Sessions that make the same calls, leave the same volume and end with the same status. Their
error texts are the same but for an exception. -/
structure Alike (excepted : Prop) (s s' : Session) : Prop where
  received : s.received = s'.received
  volume : s.volume = s'.volume
  exit : s.exit = s'.exit
  stderr : s.stderr = s'.stderr ∨ excepted

theorem Alike.mono {excepted excepted' : Prop} {s s' : Session} (h : Alike excepted s s')
    (more : excepted → excepted') : Alike excepted' s s' :=
  ⟨h.received, h.volume, h.exit, h.stderr.imp_right more⟩

/-- Runs that agree make sessions that are alike. -/
theorem alike_carryOut {reworded : Failure → Failure → Prop} {host host' : Host} {v : Volume}
    {settings : Purge.Settings} {loud hushed : Bool}
    (h : (purgeOf host v ⟨settings, loud⟩).Agrees reworded (purgeOf host' v ⟨settings, hushed⟩)) :
    Alike (∃ failure failure', reworded failure failure' ∧
        (carryOut host v ⟨settings, loud⟩).stderr = (Fault.purge settings.mpath failure).line ∧
        (carryOut host' v ⟨settings, hushed⟩).stderr = (Fault.purge settings.mpath failure').line)
      (carryOut host v ⟨settings, loud⟩) (carryOut host' v ⟨settings, hushed⟩) := by
  obtain ⟨hcalls, hvolume, hresult⟩ := h
  constructor
  case received =>
    rw [received_carryOut, received_carryOut, ← List.forall₂_eq_eq_eq, List.forall₂_map_left_iff,
      List.forall₂_map_right_iff]
    exact hcalls.imp fun call call' h => Prod.ext h.command h.before
  case volume => rw [(events_carryOut host v _).2, (events_carryOut host' v _).2, hvolume]
  case exit => rw [exit_carryOut, exit_carryOut, hresult.toBool]
  case stderr =>
    cases hr : (purgeOf host v ⟨settings, loud⟩).result with
    | ok report =>
      rw [hr] at hresult
      rw [stderr_of_ok host v _ hr, stderr_of_ok host' v _ hresult.eq_ok]
      exact .inl rfl
    | error failure =>
      rw [hr] at hresult
      obtain ⟨failure', hr', hreworded⟩ := hresult.eq_error
      rw [stderr_of_error host v _ hr, stderr_of_error host' v _ hr']
      rcases hreworded with rfl | hreworded
      · exact .inl rfl
      · exact .inr ⟨failure, failure', hreworded, rfl, rfl⟩

theorem start_of_fault {host : Host} {v : Volume} {a : Arguments} {fault : Fault}
    (hi : invocation host.environment v a = .error fault) :
    start host v a = ⟨1, "", fault.line, [], v⟩ := by
  simp only [start, hi]

theorem start_of_invocation {host : Host} {v : Volume} {a : Arguments} {i : Invocation}
    (hi : invocation host.environment v a = .ok i) : start host v a = carryOut host v i := by
  simp only [start, hi]

/-- A session and another one with the flag set or not end with failures that differ in some way,
which may go by the program and by whether they are quiet. -/
def Reworded (differ : String → Bool → Bool → Failure → Failure → Prop) (env : Environment)
    (v : Volume) (a : Arguments) (quiet : Bool) (s s' : Session) : Prop :=
  ∃ settings loud hushed failure failure',
    invocation env v a = .ok ⟨settings, loud⟩ ∧
    invocation env v { a with quiet := quiet } = .ok ⟨settings, hushed⟩ ∧
    differ settings.program loud hushed failure failure' ∧
    s.stderr = (Fault.purge settings.mpath failure).line ∧
    s'.stderr = (Fault.purge settings.mpath failure').line

/-- The run of a session ends because every name that it tries for a temporary file is taken. -/
def Crowded (host : Host) (v : Volume) (a : Arguments) : Prop :=
  ∃ i, invocation host.environment v a = .ok i ∧ (purgeOf host v i).Crowded

section
variable {host : Host} {v : Volume} {a : Arguments}
  {differ : String → Bool → Bool → Failure → Failure → Prop} {lost : Failure → Prop}
  {draws : Purge.Draws}

theorem start_alike (quiet : Bool)
    (rewords : ∀ program loud hushed, Purge.Rewords (differ program loud hushed) program
      (host.utility loud) (host.utility hushed))
    (redraws : ∀ program loud hushed,
      Purge.Redraws (differ program loud hushed) lost host.draws draws)
    (kept : ∀ i, invocation host.environment v a = .ok i →
      ¬ Purge.Fails lost (purgeOf host v i).result)
    (kept' : ∀ i, invocation host.environment v { a with quiet := quiet } = .ok i →
      ¬ Purge.Fails lost (purgeOf { host with draws := draws } v i).result) :
    let s := start host v a
    let s' := start { host with draws := draws } v { a with quiet := quiet }
    Alike (Reworded differ host.environment v a quiet s s') s s' := by
  intro s s'
  have henv : ({ host with draws := draws } : Host).environment = host.environment := rfl
  -- A fault comes before anything is printed or launched, so the flag has no say in it.
  rcases invocation_quiet host.environment v a quiet with
      ⟨fault, hi, hi'⟩ | ⟨settings, loud, hushed, hi, hi'⟩
  · have hs : s = ⟨1, "", fault.line, [], v⟩ := start_of_fault hi
    have hs' : s' = ⟨1, "", fault.line, [], v⟩ := start_of_fault (henv ▸ hi')
    rw [hs, hs']
    exact ⟨rfl, rfl, rfl, .inl rfl⟩
  · have hs : s = carryOut host v ⟨settings, loud⟩ := start_of_invocation hi
    have hs' : s' = carryOut { host with draws := draws } v ⟨settings, hushed⟩ :=
      start_of_invocation (henv ▸ hi')
    have hagrees : (purgeOf host v ⟨settings, loud⟩).Agrees (differ settings.program loud hushed)
        (purgeOf { host with draws := draws } v ⟨settings, hushed⟩) :=
      run_agrees (rewords _ loud hushed) (redraws _ loud hushed) (kept _ hi) (kept' _ hi')
    have halike := alike_carryOut hagrees
    rw [← hs, ← hs'] at halike
    exact halike.mono fun ⟨failure, failure', hd, he, he'⟩ =>
      ⟨settings, loud, hushed, failure, failure', hi, hi', hd, he, he'⟩

end

/-- A session that does the same and comes to the same, whether it is quiet or not. -/
structure Discreet (host : Host) (v : Volume) (a : Arguments) : Prop where
  /-- If the same names are drawn, the failed launch of a program without a path to try for it is
  the one exception. -/
  flagged : ∀ quiet, let s := start host v a
    let s' := start host v { a with quiet := quiet }
    Alike (Reworded host.Untried host.environment v a quiet s s') s s'
  /-- If other names are drawn, a fault that tells one of them is the other one. -/
  redrawn : ∀ quiet draws, ¬ Crowded host v a →
    ¬ Crowded { host with draws := draws } v { a with quiet := quiet } →
    let s := start host v a
    let s' := start { host with draws := draws } v { a with quiet := quiet }
    Alike (Reworded host.UntriedOrRedrawn host.environment v a quiet s s') s s'
  stdout : Hushed v a → (start host v a).stdout = ""

theorem start_discreet (host : Host) (v : Volume) (a : Arguments) : Discreet host v a := by
  constructor
  case flagged =>
    intro quiet
    exact start_alike quiet host.rewords (fun _ _ _ => Purge.redraws_same _ (fun _ => False) _)
      (by simp [Purge.Fails]) (by simp [Purge.Fails])
  case redrawn =>
    intro quiet draws kept kept'
    refine start_alike quiet (fun program loud hushed => ?_) (fun program loud hushed => ?_)
      (fun i hi crowded => kept ⟨i, hi, crowded⟩) (fun i hi crowded => kept' ⟨i, hi, crowded⟩)
    · exact (host.rewords program loud hushed).mono .inl
    · exact (Purge.redraws_of_crowded host.draws draws).mono .inr
  case stdout =>
    intro hushed
    cases hi : invocation host.environment v a with
    | error fault => rw [start_of_fault hi]
    | ok i => rw [start_of_invocation hi, stdout_carryOut host v i (quiet_of_hushed hushed hi)]

/-! ## A search path of one long entry -/

/-- Such a host finds no more than one with no folders to look in. -/
theorem utility_of_searchesNothing {host : Host} (h : host.environment.SearchesNothing)
    (quiet : Bool) :
    host.utility quiet = Launch.utility [] (host.refused quiet) host.programs := by
  obtain ⟨entry, hfolders, hlong⟩ := h
  have hnone : ∀ name, Launch.candidates name [entry] = Launch.candidates name [] := by
    intro name
    simp only [Launch.candidates, if_pos hlong]
  funext v c
  simp only [Host.utility, hfolders, Launch.utility, Launch.find, hnone]

/-- A host whose search path is one entry of 4096 bytes. -/
def longHost : Host :=
  { smallHost 0 with
    environment := [Environment.entry (Text.encode "PATH") (List.replicate 4096 120)] }

theorem searchesNothing_long : longHost.environment.SearchesNothing := by
  refine ⟨List.replicate 4096 120, ?_, by rw [List.length_replicate]; decide⟩
  have hvalue : Environment.value? longHost.environment Environment.searchName =
      some (List.replicate 4096 120) := by rfl
  rw [Environment.searchFolders, hvalue, Option.getD_some]
  refine List.splitOn_eq_singleton fun hm => ?_
  cases List.eq_of_mem_replicate hm

theorem untried_long (quiet : Bool) :
    (purgeOf longHost smallInstalled ⟨smallSettings .perBlock, quiet⟩).result =
      .error (.launch "nvm_vblk" (Launch.nothingTried (longHost.refused quiet))) := by
  rw [purgeOf, utility_of_searchesNothing searchesNothing_long]
  cases quiet <;> decide +kernel

/-! ## A folder with a backup -/

/-- The small volume with the utility and with the backup of the small file, in a folder with given
permission bits and with another file. -/
def smallBackedUp (mode : Mode) (other : Name) : Volume where
  entries := [([[100], Text.encode "m_da849719.meta"], .file (Text.encode smallText) 0o644),
    ([[100]], .folder mode), ([[100], [109]], .file (Text.encode smallText) 0o644),
    ([[98]], .folder 0o755), ([[98], Text.encode Erase.defaultProgram], .file [] 0o755),
    ([[100], other], .file [] 0o600)]
  here := []
  superuser := false

/-- The name of the first temporary file that a small host tries. -/
def smallTemporary : Name :=
  Volume.temporaryName "m" (.ofNat 0)

/-- A small host that draws the same letters again and again. -/
def stuckHost : Host :=
  { smallHost 0 with draws := fun _ _ => .ofNat 0 }

/-- Where a file has that name the first write of such a host finds every name taken. -/
theorem crowded_stuck :
    (purgeOf stuckHost (smallBackedUp 0o755 smallTemporary)
      ⟨smallSettings .perBlock, false⟩).result = .error (.io (.located .crowded [47, 100])) := by
  let v := smallBackedUp 0o755 smallTemporary
  have load : Metadata.load v (smallSettings .perBlock).mpath = .ok smallMetadata := by
    decide +kernel
  have taken : Backup.take v (smallSettings .perBlock).mpath =
      .ok (Text.encode "/d/m_da849719.meta", v) := by decide +kernel
  have htemporary : v.temporaryFor (fun _ => .ofNat 0) (v.replacedPath [47, 100, 47, 109]) =
      .error (.located .crowded [47, 100]) := by
    have hpath : v.replacedPath [47, 100, 47, 109] = [47, 100, 47, 109] := by decide +kernel
    have hfolder : v.absoluteFolderOf [47, 100, 47, 109] = .ok [47, 100] := by decide +kernel
    have hstem : Path.stem [47, 100, 47, 109] = "m" := by decide +kernel
    have hl : v.locate .entry (Path.join [47, 100] smallTemporary) =
        .ok ([[100], smallTemporary], some (.file [] 0o600)) := by decide +kernel
    simp only [Volume.temporaryFor, hpath, hfolder, hstem]
    exact Volume.temporaryFrom_taken (fun _ => ⟨_, _, hl⟩) _ _
  have hanswer : stuckHost.utility false v (Erase.command "nvm_vblk" "/dev/nvme0" 0) =
      (.ok ⟨some 0, "", ""⟩, v) := by decide +kernel
  obtain ⟨before, r, -, hproceeds, he⟩ :=
    Purge.run_proceeds rfl load rfl taken (stuckHost.utility false) firstBar stuckHost.draws
  obtain ⟨stretch, hloop, -, -, hend⟩ := hproceeds.loop
  have hcandidates : smallMetadata.candidates = [(0, .written), (2, .opened)] := by decide
  rw [hcandidates] at hloop
  have hfirst : stretch.result = .error (.io (.located .crowded [47, 100])) :=
    hloop.result_of_refused hanswer (Purge.persistAt_refused rfl htemporary)
  rw [purgeOf, he]
  rcases hend with ⟨failure, hres, hr⟩ | ⟨_, _, _, _, hres, -, -⟩
  · cases hfirst.symm.trans hres
    exact hr
  · cases hfirst.symm.trans hres

/-- A session with the flag fails in other words than one without it where the search path leaves no
path to try, and where another name is drawn for a temporary file. Where no name is free, it fails
although the other one completes. And a flag next to a request for the version does not keep that
from being printed. -/
theorem not_discreet :
    (start longHost smallInstalled smallArguments).stderr =
      "Error: Failed to purge blocks listed in /d/m: failed to launch `nvm_vblk`: " ++
        "Inappropriate ioctl for device (os error 25): " ++
        "Inappropriate ioctl for device (os error 25)\n" ∧
    (start longHost smallInstalled { smallArguments with quiet := true }).stderr =
      "Error: Failed to purge blocks listed in /d/m: failed to launch `nvm_vblk`: " ++
        "No child processes (os error 10): No child processes (os error 10)\n" ∧
    (start longHost smallInstalled smallArguments).stderr ≠
      (start longHost smallInstalled { smallArguments with quiet := true }).stderr ∧
    (start (smallHost 0) (smallBackedUp 0o555 [120]) smallArguments).stderr =
      "Error: Failed to purge blocks listed in /d/m: Permission denied (os error 13) " ++
        "at path \"/d/.m_000000.tmp\"\n" ∧
    (start { smallHost 0 with draws := fun _ n => .ofNat (n + 1) } (smallBackedUp 0o555 [120])
        { smallArguments with quiet := true }).stderr =
      "Error: Failed to purge blocks listed in /d/m: Permission denied (os error 13) " ++
        "at path \"/d/.m_000001.tmp\"\n" ∧
    (start stuckHost (smallBackedUp 0o755 smallTemporary) smallArguments).stderr =
      "Error: Failed to purge blocks listed in /d/m: too many temporary files exist at path " ++
        "\"/d\"\n" ∧
    (start stuckHost (smallBackedUp 0o755 smallTemporary) smallArguments).exit = 1 ∧
    (start (smallHost 0) (smallBackedUp 0o755 smallTemporary)
        { smallArguments with quiet := true }).exit = 0 ∧
    (Session.run longHost smallInstalled ["-qV"]).stdout ≠ "" := by
  have hloud : invocation longHost.environment smallInstalled smallArguments =
      .ok ⟨smallSettings .perBlock, false⟩ := by decide +kernel
  have hquiet : invocation longHost.environment smallInstalled
      { smallArguments with quiet := true } = .ok ⟨smallSettings .perBlock, true⟩ := by
    decide +kernel
  have hstuck : invocation stuckHost.environment (smallBackedUp 0o755 smallTemporary)
      smallArguments = .ok ⟨smallSettings .perBlock, false⟩ := by decide +kernel
  rw [start_of_invocation hloud, start_of_invocation hquiet, start_of_invocation hstuck,
    stderr_of_error longHost smallInstalled _ (untried_long false),
    stderr_of_error longHost smallInstalled _ (untried_long true),
    stderr_of_error stuckHost _ _ crowded_stuck, exit_carryOut, crowded_stuck]
  refine ⟨?_, ?_, ?_, ?_, ?_, ?_, rfl, ?_, ?_⟩
  · decide +kernel
  · decide +kernel
  · decide +kernel
  · decide +kernel
  · decide +kernel
  · decide +kernel
  · decide +kernel
  · decide +kernel

end Session

end BlockPurge
