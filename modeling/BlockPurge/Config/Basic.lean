import BlockPurge.Purge.Settings

/-!
# Configurations

The settings that a configuration file may hold, in the order in which they are written, with the
value of each that it does not mention. A configuration is checked as a whole before it is used; the
first of its faults is reported.
-/
namespace BlockPurge

/-- The settings of a configuration file, as they are written there. -/
structure Config where
  mpath : Option String
  dry : Bool
  persist : String
  program : String
  deviceStart : String
  quiet : Bool
  deriving DecidableEq, Repr

namespace Config

def default : Config :=
  ⟨none, false, Persistence.perBlock.word, Erase.defaultProgram, Purge.defaultDeviceStart, false⟩

inductive Fault where
  | persist (word : String)
  | program
  | mpath
  deriving DecidableEq, Repr

def Fault.message : Fault → String
  | .persist word =>
    "Invalid persist mode '" ++ word ++ "'. Must be one of: " ++
      ", ".intercalate (Persistence.all.map Persistence.word)
  | .program => "program must not be empty"
  | .mpath => "mpath must not be empty"

def persistence (c : Config) : Except Fault Persistence :=
  match Persistence.ofWord? c.persist with
  | some persistence => .ok persistence
  | none => .error (.persist c.persist)

/-- Refuses a configuration with an unknown persistence, or with a blank program or path. -/
def validate (c : Config) : Except Fault Unit :=
  match c.persistence with
  | .error fault => .error fault
  | .ok _ =>
    if Text.isBlankText c.program then .error .program
    else if c.mpath.any Text.isBlankText then .error .mpath
    else .ok ()

end Config

end BlockPurge
