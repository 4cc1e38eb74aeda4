import BlockPurge.Path.Basic
import BlockPurge.Text.Shown

/-!
# Environments

The variables that a program is started with. Each entry is a name, an equals sign and a value. The
first entry that starts with a name and an equals sign gives the name its value, so an entry whose
value holds an equals sign also answers for a longer name.
-/
namespace BlockPurge

abbrev Environment := List Bytes

namespace Environment

def equals : UInt8 := 0x3D

def colon : UInt8 := 0x3A

def entry (name value : Bytes) : Bytes :=
  name ++ equals :: value

def valueIn (name entry : Bytes) : Option Bytes :=
  if (name ++ [equals]).isPrefixOf entry then some (entry.drop (name.length + 1)) else none

/-- The value of a name. The empty name and names with a zero byte have none. -/
def value? (env : Environment) (name : String) : Option Bytes :=
  let name := Text.encode name
  if name.isEmpty || name.contains 0 then none else env.findSome? (valueIn name)

inductive Fault where
  | absent
  | notUtf8 (value : Bytes)
  deriving DecidableEq, Repr

def Fault.message : Fault → String
  | .absent => "environment variable not found"
  | .notUtf8 value => "environment variable was not valid unicode: " ++ Text.shown value

def text (env : Environment) (name : String) : Except Fault String :=
  match env.value? name with
  | none => .error .absent
  | some value =>
    match Text.decode? value with
    | some text => .ok text
    | none => .error (.notUtf8 value)

def homeName : String := "HOME"

def home? (env : Environment) : Option String :=
  (env.text homeName).toOption

def searchName : String := "PATH"

def defaultSearch : String := "/bin:/usr/bin"

def searchFolders (env : Environment) : List Bytes :=
  ((env.value? searchName).getD (Text.encode defaultSearch)).splitOn colon

end Environment

end BlockPurge
