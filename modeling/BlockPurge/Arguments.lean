import BlockPurge.Purge.Settings

/-!
# Command lines

The options that a command line gives, and why a command line may lead to no run. Options with a
value take it behind an equals sign or as the next word; an option that waits for its value is
settled when the next option comes or the words end, and only then is its value looked at.
-/
namespace BlockPurge

structure Arguments where
  config : Option String
  mpath : Option String
  dry : Bool
  persistence : Option Persistence
  program : Option String
  deviceStart : Option String
  quiet : Bool
  deriving DecidableEq, Repr

namespace Arguments

def empty : Arguments :=
  ⟨none, none, false, none, none, none, false⟩

inductive Misuse where
  /-- A word is no option, and no value of one. -/
  | unknown
  /-- A value is missing, or is none of those that an option takes. -/
  | badValue
  | repeated
  /-- An option without a value is given one. -/
  | extraValue
  deriving DecidableEq, Repr

inductive Halt where
  | misuse (misuse : Misuse)
  /-- Help is asked for, in full or in short. -/
  | help (full : Bool)
  | version
  deriving DecidableEq, Repr

inductive Setting where
  | config
  | mpath
  | persist
  | program
  | deviceStart
  deriving DecidableEq, Repr

inductive Switch where
  | dry
  | quiet
  | help
  | version
  deriving DecidableEq, Repr

def Setting.ofName? (name : String) : Option Setting :=
  [("config", Setting.config), ("mpath", .mpath), ("persist", .persist), ("program", .program),
   ("device-prefix", .deviceStart)].lookup name

def Switch.ofName? (name : String) : Option Switch :=
  [("dry", Switch.dry), ("quiet", .quiet), ("help", .help), ("version", .version)].lookup name

def Setting.ofLetter? (letter : Char) : Option Setting :=
  [('f', Setting.config)].lookup letter

def Switch.ofLetter? (letter : Char) : Option Switch :=
  [('q', Switch.quiet), ('h', .help), ('V', .version)].lookup letter

/-! ## Words -/

inductive Word where
  /-- Two hyphens alone: no options follow. -/
  | noMore
  | long (name : String) (value : Option String)
  | letters (letters : List Char)
  | plain (text : String)
  deriving DecidableEq, Repr

/-- The parts of a text before and behind its first equals sign, if it has one. -/
def splitEquals : List Char → List Char × Option (List Char)
  | [] => ([], none)
  | c :: rest =>
    if c = '=' then ([], some rest)
    else (c :: (splitEquals rest).1, (splitEquals rest).2)

def Word.ofText (text : String) : Word :=
  match text.toList with
  | ['-', '-'] => .noMore
  | '-' :: '-' :: rest =>
    .long (String.ofList (splitEquals rest).1) ((splitEquals rest).2.map String.ofList)
  | '-' :: c :: rest => .letters (c :: rest)
  | _ => .plain text

/-! ## Reading -/

/-- How far a command line has been read: the options given, and one that is not settled, with its
value if that has come. -/
structure Reading where
  given : Arguments
  pending : Option (Setting × Option String)
  deriving DecidableEq, Repr

def has (a : Arguments) : Setting → Bool
  | .config => a.config.isSome
  | .mpath => a.mpath.isSome
  | .persist => a.persistence.isSome
  | .program => a.program.isSome
  | .deviceStart => a.deviceStart.isSome

def set (a : Arguments) (setting : Setting) (value : String) : Except Halt Arguments :=
  if a.has setting then .error (.misuse .repeated)
  else match setting with
    | .config => .ok { a with config := some value }
    | .mpath => .ok { a with mpath := some value }
    | .program => .ok { a with program := some value }
    | .deviceStart => .ok { a with deviceStart := some value }
    | .persist =>
      match Persistence.ofWord? value with
      | some persistence => .ok { a with persistence := some persistence }
      | none => .error (.misuse .badValue)

/-- The options with one more that has no value. Help is full if its long name was used. -/
def turnOn (a : Arguments) (switch : Switch) (isLong : Bool) : Except Halt Arguments :=
  match switch with
  | .dry => if a.dry then .error (.misuse .repeated) else .ok { a with dry := true }
  | .quiet => if a.quiet then .error (.misuse .repeated) else .ok { a with quiet := true }
  | .help => .error (.help isLong)
  | .version => .error .version

def Reading.settle (r : Reading) : Except Halt Arguments :=
  match r.pending with
  | none => .ok r.given
  | some (_, none) => .error (.misuse .badValue)
  | some (setting, some value) => r.given.set setting value

/-- An option with a value: with the value attached it is settled, otherwise it waits. -/
def Reading.setting (r : Reading) (setting : Setting) (attached : Option String) :
    Except Halt Reading :=
  match r.settle with
  | .error halt => .error halt
  | .ok given =>
    match attached with
    | none => .ok ⟨given, some (setting, none)⟩
    | some value =>
      match given.set setting value with
      | .error halt => .error halt
      | .ok given => .ok ⟨given, none⟩

def Reading.switch (r : Reading) (switch : Switch) (isLong : Bool) : Except Halt Reading :=
  match r.settle with
  | .error halt => .error halt
  | .ok given =>
    match given.turnOn switch isLong with
    | .error halt => .error halt
    | .ok given => .ok ⟨given, none⟩

/-- The value attached to a letter by the rest of its word, with or without an equals sign. -/
def attachedTo : List Char → Option String
  | [] => none
  | '=' :: rest => some (String.ofList rest)
  | rest => some (String.ofList rest)

/-- Letters behind one hyphen: options without a value in a row, and perhaps one with a value. -/
def Reading.letters (r : Reading) : List Char → Except Halt Reading
  | [] => .ok r
  | letter :: rest =>
    match Switch.ofLetter? letter with
    | some switch =>
      match r.switch switch false with
      | .error halt => .error halt
      | .ok r => r.letters rest
    | none =>
      match Setting.ofLetter? letter with
      | some setting => r.setting setting (attachedTo rest)
      | none => .error (.misuse .unknown)

def Reading.long (r : Reading) (name : String) (value : Option String) : Except Halt Reading :=
  match Setting.ofName? name with
  | some setting => r.setting setting value
  | none =>
    match Switch.ofName? name with
    | none => .error (.misuse .unknown)
    | some switch => if value.isSome then .error (.misuse .extraValue) else r.switch switch true

/-- A word that is no option: the value that an option waits for, or nothing known. -/
def Reading.plain (r : Reading) (text : String) : Except Halt Reading :=
  match r.pending with
  | some (setting, none) => .ok { r with pending := some (setting, some text) }
  | _ => .error (.misuse .unknown)

/-- One word, which may be the last one. Behind two hyphens no word is known. -/
def Reading.word (r : Reading) (word : Word) (isLast : Bool) : Except Halt Reading :=
  match word with
  | .noMore => if isLast then .ok r else .error (.misuse .unknown)
  | .long name value => r.long name value
  | .letters letters => r.letters letters
  | .plain text => r.plain text

def readFrom (r : Reading) : List String → Except Halt Arguments
  | [] => r.settle
  | text :: rest =>
    match r.word (Word.ofText text) rest.isEmpty with
    | .error halt => .error halt
    | .ok r => readFrom r rest

def read (words : List String) : Except Halt Arguments :=
  readFrom ⟨empty, none⟩ words

end Arguments

end BlockPurge
