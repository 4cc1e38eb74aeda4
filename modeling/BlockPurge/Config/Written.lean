import BlockPurge.Config.Field
import BlockPurge.Json.Skip
import BlockPurge.Volume.Access

/-!
# Written configurations

The text of a configuration, and the configuration of a text. It is written as a JSON object with
all fields in order and no white space. It is read from an object with some of the fields, in any
order and each at most once, among members of other names, which are passed over; or from a list of
the first values in order. A field that is not given has a value of its own to fall back on.
-/
namespace BlockPurge.Config

/-! ## Writing -/

def writeMember (c : Config) (field : Field) : List Char :=
  Json.writeString field.name ++ ':' :: field.write c

def render (c : Config) : String :=
  String.ofList ('\x7b' :: [','].intercalate (Field.all.map (writeMember c)) ++ ['\x7d'])

/-! ## Reading -/

/-- What a text leaves of every field until it gives it. -/
def unsaid : Config where
  mpath := none
  dry := false
  persist := Persistence.perBlock.word
  program := Erase.defaultProgram
  deviceStart := Purge.defaultDeviceStart
  quiet := false

def readItems (first : Bool) : List Field → Config → List Char →
    Except Json.Flaw (Config × List Char)
  | [], c, s =>
    match Json.skipSpace s with
    | [] => .error .ended
    | d :: rest => if d = ']' then .ok (c, rest) else .error .malformed
  | field :: fields, c, s =>
    match Json.nextItem ']' first s with
    | .error flaw => .error flaw
    | .ok (.closed rest) => .ok (c, rest)
    | .ok (.item s) =>
      match field.read c s with
      | .error flaw => .error flaw
      | .ok (c, rest) => readItems false fields c rest

def readName (s : List Char) : Except Json.Flaw (String × List Char) :=
  match s with
  | [] => .error .ended
  | c :: rest => if c = Json.quote then Json.readString rest else .error .malformed

/-- A configuration changed by a member, the fields given so far, and what follows the member. -/
def readMember (given : List Field) (c : Config) (s : List Char) :
    Except Json.Flaw (List Field × Config × List Char) :=
  match readName s with
  | .error flaw => .error flaw
  | .ok (name, s) =>
    match Field.ofName? name with
    | none =>
      match Json.afterColon s with
      | .error flaw => .error flaw
      | .ok s => (Json.skipValue s).map fun rest => (given, c, rest)
    | some field =>
      if field ∈ given then .error .mismatch
      else match Json.afterColon s with
        | .error flaw => .error flaw
        | .ok s => (field.read c s).map fun (c, rest) => (field :: given, c, rest)

/-- The members of an object, up to its end; at most `budget` of them. -/
def readMembers : (budget : Nat) → (first : Bool) → List Field → Config → List Char →
    Except Json.Flaw (Config × List Char)
  | 0, _, _, _, _ => .error .ended
  | budget + 1, first, given, c, s =>
    match Json.nextItem '\x7d' first s with
    | .error flaw => .error flaw
    | .ok (.closed rest) => .ok (c, rest)
    | .ok (.item s) =>
      match readMember given c s with
      | .error flaw => .error flaw
      | .ok (given, c, rest) => readMembers budget false given c rest

/-- The configuration at the start of a text, and what follows it. An object has no more members
than its text has characters. -/
def readValue (s : List Char) : Except Json.Flaw (Config × List Char) :=
  match Json.skipSpace s with
  | [] => .error .ended
  | c :: rest =>
    if c = '[' then readItems true Field.all unsaid rest
    else if c = '\x7b' then readMembers (rest.length + 1) true [] unsaid rest
    else .error (Json.kindFlaw c rest)

def parse (text : String) : Except Json.Flaw Config :=
  match readValue text.toList with
  | .error flaw => .error flaw
  | .ok (c, rest) =>
    match Json.finish rest with
    | .error flaw => .error flaw
    | .ok () => .ok c

/-! ## Files -/

inductive LoadFault where
  | io (fault : BlockPurge.Fault)
  | text (flaw : Json.Flaw)
  deriving DecidableEq, Repr

def LoadFault.message : LoadFault → String
  | .io fault => fault.message
  | .text flaw => flaw.message

def load (v : Volume) (path : Bytes) : Except LoadFault Config :=
  match v.readText path with
  | .error fault => .error (.io fault)
  | .ok text =>
    match parse text with
    | .error flaw => .error (.text flaw)
    | .ok c => .ok c

end BlockPurge.Config
