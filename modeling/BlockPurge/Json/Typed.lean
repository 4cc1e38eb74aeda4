import BlockPurge.Json.Number
import BlockPurge.Json.Quoted

/-!
# Values of a known kind

Readers for the kinds of values that a configuration holds: texts, texts that may be absent, and
flags. A value of another kind is looked at just far enough to tell whether its first token is
sound.
-/
namespace BlockPurge.Json

/-- The flaw of a number, behind its sign, that stands for a value of another kind. -/
def numberFlaw (s : List Char) : Flaw :=
  match readNumeral .ended s with
  | .error flaw => flaw
  | .ok (n, _) => if n.inRange then .mismatch else .malformed

def kindFlaw (c : Char) (rest : List Char) : Flaw :=
  if c = quote then
    match readString rest with
    | .error flaw => flaw
    | .ok _ => .mismatch
  else if c = '-' then numberFlaw rest
  else if isDigit c then numberFlaw (c :: rest)
  else if c = '[' ∨ c = '\x7b' then .mismatch
  else match wordRest c with
    | none => .malformed
    | some letters =>
      match afterWord letters rest with
      | .error flaw => flaw
      | .ok _ => .mismatch

def readText (s : List Char) : Except Flaw (String × List Char) :=
  match skipSpace s with
  | [] => .error .ended
  | c :: rest => if c = quote then readString rest else .error (kindFlaw c rest)

def readFlag (s : List Char) : Except Flaw (Bool × List Char) :=
  match skipSpace s with
  | [] => .error .ended
  | c :: rest =>
    if c = 't' ∨ c = 'f' then
      match afterWord ((wordRest c).getD []) rest with
      | .error flaw => .error flaw
      | .ok after => .ok (c == 't', after)
    else .error (kindFlaw c rest)

def readTextOrNull (s : List Char) : Except Flaw (Option String × List Char) :=
  match skipSpace s with
  | 'n' :: rest =>
    match afterWord ['u', 'l', 'l'] rest with
    | .error flaw => .error flaw
    | .ok after => .ok (none, after)
  | s =>
    match readText s with
    | .error flaw => .error flaw
    | .ok (text, after) => .ok (some text, after)

end BlockPurge.Json
