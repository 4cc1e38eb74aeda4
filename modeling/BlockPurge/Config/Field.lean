import BlockPurge.Config.Basic
import BlockPurge.Json.Typed

/-!
# Fields of a configuration

Each setting of a configuration has a name in the file, a place in the order of settings, and a
reader for its value.
-/
namespace BlockPurge.Config

inductive Field where
  | mpath
  | dry
  | persist
  | program
  | deviceStart
  | quiet
  deriving DecidableEq, Repr

namespace Field

def all : List Field :=
  [.mpath, .dry, .persist, .program, .deviceStart, .quiet]

def name : Field → String
  | .mpath => "mpath"
  | .dry => "dry"
  | .persist => "persist"
  | .program => "program"
  | .deviceStart => "device_prefix"
  | .quiet => "quiet"

def ofName? (name : String) : Option Field :=
  all.find? (·.name == name)

/-- A configuration with the field set to the value at the start of a text, and what follows it. -/
def read (field : Field) (c : Config) (s : List Char) :
    Except Json.Flaw (Config × List Char) :=
  match field with
  | .mpath => (Json.readTextOrNull s).map fun (value, rest) => ({ c with mpath := value }, rest)
  | .dry => (Json.readFlag s).map fun (value, rest) => ({ c with dry := value }, rest)
  | .persist => (Json.readText s).map fun (value, rest) => ({ c with persist := value }, rest)
  | .program => (Json.readText s).map fun (value, rest) => ({ c with program := value }, rest)
  | .deviceStart =>
    (Json.readText s).map fun (value, rest) => ({ c with deviceStart := value }, rest)
  | .quiet => (Json.readFlag s).map fun (value, rest) => ({ c with quiet := value }, rest)

def write (field : Field) (c : Config) : List Char :=
  match field with
  | .mpath =>
    match c.mpath with
    | some path => Json.writeString path
    | none => "null".toList
  | .dry => (toString c.dry).toList
  | .persist => Json.writeString c.persist
  | .program => Json.writeString c.program
  | .deviceStart => Json.writeString c.deviceStart
  | .quiet => (toString c.quiet).toList

end Field

end BlockPurge.Config
