import BlockPurge.Arguments
import BlockPurge.Config.Basic
import BlockPurge.Path.Expansion
import BlockPurge.Volume.Walk

/-!
# Invocations

What a command line, a configuration and the surroundings come to: the settings of a run, and
whether it reports to standard output. A value on the command line goes before one in the
configuration, and a flag counts if it is set in either. The metadata path is expanded and made
absolute here, so that a run depends on its settings and its volume alone.
-/
namespace BlockPurge

structure Invocation where
  settings : Purge.Settings
  quiet : Bool
  deriving DecidableEq, Repr

namespace Invocation

inductive Fault where
  | noPath
  | blankPath
  /-- The path as written cannot be expanded. -/
  | expansion (written : String) (fault : Path.ExpansionFault)
  /-- The expanded path cannot be made absolute. -/
  | resolution (expanded : String) (fault : BlockPurge.Fault)
  | persist (fault : Config.Fault)
  | blankProgram
  deriving DecidableEq, Repr

/-- The wording of a fault followed by that of what is behind it. -/
def Fault.chain : Fault → List String
  | .noPath => ["Metadata path must be specified either via --mpath or in config file"]
  | .blankPath => ["Metadata path must not be empty"]
  | .expansion written fault => ("Failed to expand path '" ++ written ++ "'") :: fault.chain
  | .resolution expanded fault => ["Failed to resolve path '" ++ expanded ++ "'", fault.message]
  | .persist fault => ["Invalid persist mode in config: " ++ fault.message]
  | .blankProgram => ["Erase program must not be empty"]

/-- The wording of a fault and of all that is behind it, on one line. -/
def Fault.message (fault : Fault) : String :=
  ": ".intercalate fault.chain

/-- The absolute form of a path on a volume. A relative path needs the current folder to be there.
-/
def absolute (v : Volume) (path : String) : Except BlockPurge.Fault Bytes :=
  let bytes := Text.encode path
  if bytes.isEmpty then .error .emptyPath
  else if Path.isAbsolute bytes then .ok (Path.absolute [] bytes)
  else match v.currentPath with
    | .ok here => .ok (Path.absolute here bytes)
    | .error fault => .error fault

def resolve (env : Environment) (v : Volume) (written : String) : Except Fault Bytes :=
  match Path.expand env written with
  | .error fault => .error (.expansion written fault)
  | .ok expanded =>
    match absolute v expanded with
    | .error fault => .error (.resolution expanded fault)
    | .ok path => .ok path

/-- The metadata path, absolute, that is written on the command line or else in a configuration. -/
def metadataPath (env : Environment) (v : Volume) (a : Arguments) (c : Config) :
    Except Fault Bytes :=
  match a.mpath.or c.mpath with
  | none => .error .noPath
  | some written =>
    if Text.isBlankText written then .error .blankPath else resolve env v written

/-- The persistence on the command line or else in a configuration. -/
def persistence (a : Arguments) (c : Config) : Except Fault Persistence :=
  match a.persistence with
  | some persistence => .ok persistence
  | none =>
    match c.persistence with
    | .ok persistence => .ok persistence
    | .error fault => .error (.persist fault)

def program (a : Arguments) (c : Config) : Except Fault String :=
  let program := a.program.getD c.program
  if Text.isBlankText program then .error .blankProgram else .ok program

/-- The invocation that a command line and a configuration come to. -/
def ofConfig (env : Environment) (v : Volume) (a : Arguments) (c : Config) :
    Except Fault Invocation :=
  match metadataPath env v a c with
  | .error fault => .error fault
  | .ok mpath =>
    match persistence a c with
    | .error fault => .error fault
    | .ok persistence =>
      match program a c with
      | .error fault => .error fault
      | .ok program =>
        .ok ⟨⟨mpath, a.dry || c.dry, persistence, program, a.deviceStart.getD c.deviceStart⟩,
          a.quiet || c.quiet⟩

/-- The invocation that a command line and perhaps a configuration come to. -/
def merge (env : Environment) (v : Volume) (a : Arguments) (c : Option Config) :
    Except Fault Invocation :=
  ofConfig env v a (c.getD Config.default)

end Invocation

end BlockPurge
