import BlockPurge.Json.Basic
import BlockPurge.Text.Hex

/-!
# JSON strings

Writing a text between quotation marks, and reading it back. Inside a string a backslash opens an
escape; `\u` and four hexadecimal digits stand for a code, and two codes of a pair stand for one
character. A string is read character by character: `Inside.step` finds the units of a string, which
are characters and codes, and `pair` puts codes together. A string that is passed over needs the
first alone.
-/
namespace BlockPurge.Json

def quote : Char := '\x22'

def backslash : Char := '\x5c'

def escapes : List (Char × Char) :=
  [(quote, quote), (backslash, backslash), ('/', '/'), ('b', '\x08'), ('f', '\x0c'), ('n', '\n'),
   ('r', '\r'), ('t', '\t')]

/-! ## Writing -/

def writeChar (c : Char) : List Char :=
  if c = quote then [backslash, quote]
  else if c = backslash then [backslash, backslash]
  else if c = '\x08' then [backslash, 'b']
  else if c = '\x0c' then [backslash, 'f']
  else if c = '\n' then [backslash, 'n']
  else if c = '\r' then [backslash, 'r']
  else if c = '\t' then [backslash, 't']
  else if c < ' ' then backslash :: 'u' :: '0' :: '0' :: Text.hexByte (UInt8.ofNat c.toNat)
  else [c]

def writeString (s : String) : List Char :=
  quote :: s.toList.flatMap writeChar ++ [quote]

/-! ## Reading -/

inductive Inside where
  | plain
  | escape
  /-- Among the digits of a code: how many are missing, and the number that the others write. -/
  | code (missing value : Nat)
  deriving DecidableEq, Repr

inductive StringUnit where
  | char (c : Char)
  | code (value : Nat)
  deriving DecidableEq, Repr

inductive Inside.Move where
  | close
  /-- It leads on, and may complete a unit. -/
  | on (next : Inside) (unit : Option StringUnit)
  | refuse (flaw : Flaw)
  deriving DecidableEq, Repr

def codeDigits : Nat := 4

/-- Whether the rest of a text is long enough, in bytes, for the digits of a code. -/
def holdsCode (rest : List Char) : Bool :=
  codeDigits ≤ Text.byteCount (rest.take codeDigits)

def Inside.step (inside : Inside) (c : Char) (rest : List Char) : Inside.Move :=
  match inside with
  | .plain =>
    if c = quote then .close
    else if c = backslash then .on .escape none
    else if c < ' ' then .refuse .malformed
    else .on .plain (some (.char c))
  | .escape =>
    if c = 'u' then if holdsCode rest then .on (.code codeDigits 0) none else .refuse .ended
    else match escapes.lookup c with
      | some meant => .on .plain (some (.char meant))
      | none => .refuse .malformed
  | .code missing value =>
    match Text.hexValue? c with
    | none => .refuse .malformed
    | some digit =>
      if missing ≤ 1 then .on .plain (some (.code (value * 16 + digit)))
      else .on (.code (missing - 1) (value * 16 + digit)) none

def isHigh (n : Nat) : Bool := 0xD800 ≤ n && n ≤ 0xDBFF

def isLow (n : Nat) : Bool := 0xDC00 ≤ n && n ≤ 0xDFFF

def joinPair (high low : Nat) : Char :=
  Char.ofNat (0x10000 + (high - 0xD800) * 0x400 + (low - 0xDC00))

/-- The characters that a unit completes behind a code that waits for its second half, and the code
that waits after it. -/
def pair (waiting : Option Nat) (unit : StringUnit) : Except Flaw (List Char × Option Nat) :=
  match waiting, unit with
  | none, .char c => .ok ([c], none)
  | none, .code n =>
    if isHigh n then .ok ([], some n)
    else if isLow n then .error .malformed
    else .ok ([Char.ofNat n], none)
  | some high, .code n => if isLow n then .ok ([joinPair high n], none) else .error .malformed
  | some _, .char _ => .error .malformed

/-- The characters of a string that a reader stands inside of, and what follows the string. -/
def readInside (inside : Inside) (waiting : Option Nat) :
    List Char → Except Flaw (List Char × List Char)
  | [] => .error .ended
  | c :: rest =>
    match inside.step c rest with
    | .refuse flaw => .error flaw
    | .close => if waiting.isSome then .error .malformed else .ok ([], rest)
    | .on next none => readInside next waiting rest
    | .on next (some unit) =>
      match pair waiting unit with
      | .error flaw => .error flaw
      | .ok (chars, waiting) =>
        match readInside next waiting rest with
        | .error flaw => .error flaw
        | .ok (more, after) => .ok (chars ++ more, after)

/-- The text of a string behind its opening quotation mark, and what follows the string. -/
def readString (s : List Char) : Except Flaw (String × List Char) :=
  match readInside .plain none s with
  | .error flaw => .error flaw
  | .ok (chars, after) => .ok (String.ofList chars, after)

end BlockPurge.Json
