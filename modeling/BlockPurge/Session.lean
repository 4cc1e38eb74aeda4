import BlockPurge.Config.Written
import BlockPurge.Help
import BlockPurge.Invocation
import BlockPurge.Launch
import BlockPurge.Progress.Display
import BlockPurge.Purge.Run
import BlockPurge.Terminal

/-!
# Sessions

One call of the command, from its words to its exit status. A session is a function of the words, of
its host and of the volume: it says what is printed, what happens, and what the volume is
afterwards. The exit status is 0 if the run completed, whatever became of its blocks, 1 if it did
not, and 2 for a command line that is wrong.
-/
namespace BlockPurge

structure Host where
  environment : Environment
  /-- Whether standard output is a terminal. -/
  terminal : Bool
  /-- Whether standard error is a terminal. -/
  errorTerminal : Bool
  /-- What is drawn for the names of the temporary files of a session. -/
  draws : Purge.Draws
  programs : Launch.Programs

namespace Host

/-- What the system has last refused when a session launches its first program: to treat an output
as a terminal. Only a session that is not quiet asks for that, for standard error if standard output
is a terminal. -/
def refused (host : Host) (quiet : Bool) : Option Cause :=
  if quiet || host.terminal && host.errorTerminal then none else some .notATerminal

/-- The utility of a host: its programs, in the folders that its environment lists. -/
def utility (host : Host) (quiet : Bool) : Utility :=
  Launch.utility host.environment.searchFolders (host.refused quiet) host.programs

end Host

/-- A session: its exit status, what it printed, what happened in its run, and the volume
afterwards. What an indicator draws on a terminal is left out. -/
structure Session where
  exit : Nat
  stdout : String
  stderr : String
  events : List Purge.Event
  volume : Volume

namespace Session

inductive Fault where
  | load (path : String) (fault : Config.LoadFault)
  | config (path : String) (fault : Config.Fault)
  | invocation (fault : Invocation.Fault)
  | purge (mpath : Bytes) (failure : Failure)
  deriving DecidableEq, Repr

/-- The wording of a fault and of all that is behind it, on one line. -/
def Fault.message : Fault → String
  | .load path fault => "Failed to load config file '" ++ path ++ "': " ++ fault.message
  | .config path fault => "Invalid config file '" ++ path ++ "': " ++ fault.message
  | .invocation fault => fault.message
  | .purge mpath failure =>
    ": ".intercalate (("Failed to purge blocks listed in " ++ Path.display mpath) :: failure.chain)

def Fault.line (fault : Fault) : String :=
  "Error: " ++ fault.message ++ "\n"

/-- The configuration that the command line names, checked; none if it names none. -/
def configuration (v : Volume) (a : Arguments) : Except Fault (Option Config) :=
  match a.config with
  | none => .ok none
  | some path =>
    match Config.load v (Text.encode path) with
    | .error fault => .error (.load path fault)
    | .ok c =>
      match c.validate with
      | .error fault => .error (.config path fault)
      | .ok () => .ok (some c)

def invocation (env : Environment) (v : Volume) (a : Arguments) : Except Fault Invocation :=
  match configuration v a with
  | .error fault => .error fault
  | .ok c =>
    match Invocation.merge env v a c with
    | .error fault => .error (.invocation fault)
    | .ok invocation => .ok invocation

def summary (r : Purge.Report) : String :=
  r.device ++ ": " ++ toString r.total ++ " blocks, " ++ toString r.erased ++ " erased, " ++
    toString r.failed ++ " failed, " ++ toString r.skipped ++ " skipped" ++
    (if r.dryRun then " (dry run)" else "") ++ "\n" ++
    "Backup: " ++ Path.display r.backup ++ "\n"

def display (terminal quiet : Bool) : Progress.Display :=
  if quiet then .silent else .forOutput terminal

/-- The request that an event makes to the display, if it makes one. -/
def request? : Purge.Event → Option Progress.Request
  | .progress event => some event.request
  | _ => none

def shown (terminal quiet : Bool) (events : List Purge.Event) : String :=
  (display terminal quiet).print (events.filterMap request?)

def firstBar : Nat := 1

def carryOut (host : Host) (v : Volume) (i : Invocation) : Session :=
  let run := Purge.run i.settings (host.utility i.quiet) firstBar host.draws v
  let printed := shown host.terminal i.quiet run.events
  match run.result with
  | .error failure =>
    ⟨1, printed, (Fault.purge i.settings.mpath failure).line, run.events, run.volume⟩
  | .ok report =>
    ⟨0, printed ++ if i.quiet then "" else summary report, "", run.events, run.volume⟩

def start (host : Host) (v : Volume) (a : Arguments) : Session :=
  match invocation host.environment v a with
  | .error fault => ⟨1, "", fault.line, [], v⟩
  | .ok i => carryOut host v i

def halt (host : Host) (v : Volume) : Arguments.Halt → Session
  | .misuse misuse => ⟨2, "", Help.complaint misuse, [], v⟩
  | .help full =>
    ⟨0, (Help.text full).print (Terminal.showsStyles host.environment host.terminal), "", [], v⟩
  | .version => ⟨0, Help.version, "", [], v⟩

def run (host : Host) (v : Volume) (words : List String) : Session :=
  match Arguments.read words with
  | .error reason => halt host v reason
  | .ok a => start host v a

end Session

end BlockPurge
