import BlockPurge.Json.Number
import BlockPurge.Json.Quoted

/-!
# Passing over JSON values

A value of no interest is passed over character by character, with the brackets that are open kept
on a stack, so values may be nested to any depth. The form of a value is checked as far as its
tokens and brackets go; codes in strings need not pair, and numbers may have any size.
-/
namespace BlockPurge.Json

inductive Bracket where
  | list
  | object
  deriving DecidableEq, Repr

inductive Mode where
  | value
  | firstItem
  | firstName
  | name
  | colon
  | after
  /-- Inside a word, with the letters that are missing. -/
  | word (missing : List Char)
  /-- Inside a string, which may be a name. -/
  | string (inside : Inside) (isName : Bool)
  | minus
  | zero
  | whole
  | point
  | fraction
  | power
  | powerSign
  | exponent
  deriving DecidableEq, Repr

def Mode.endsNumber : Mode → Bool
  | .zero | .whole | .fraction | .exponent => true
  | _ => false

def Mode.needsDigit : Mode → Bool
  | .minus | .point | .power | .powerSign => true
  | _ => false

inductive Mode.Move where
  | on (next : Mode) (brackets : List Bracket)
  /-- The value was complete before the character. -/
  | complete
  | refuse (flaw : Flaw)
  deriving DecidableEq, Repr

namespace Mode

def start (brackets : List Bracket) (c : Char) : Move :=
  if c = quote then .on (.string .plain false) brackets
  else if c = '-' then .on .minus brackets
  else if c = '0' then .on .zero brackets
  else if isDigit c then .on .whole brackets
  else if c = '[' then .on .firstItem (.list :: brackets)
  else if c = '\x7b' then .on .firstName (.object :: brackets)
  else match wordRest c with
    | some letters => .on (.word letters) brackets
    | none => .refuse .malformed

def behind (brackets : List Bracket) (c : Char) : Move :=
  match brackets with
  | [] => .complete
  | .list :: outer =>
    if isSpace c then .on .after brackets
    else if c = ',' then .on .value brackets
    else if c = ']' then .on .after outer
    else .refuse .malformed
  | .object :: outer =>
    if isSpace c then .on .after brackets
    else if c = ',' then .on .name brackets
    else if c = '\x7d' then .on .after outer
    else .refuse .malformed

def digit (mode : Mode) (brackets : List Bracket) (c : Char) : Move :=
  match mode with
  | .minus =>
    if c = '0' then .on .zero brackets
    else if isDigit c then .on .whole brackets
    else .refuse .malformed
  | .zero =>
    if isDigit c then .refuse .malformed
    else if c = '.' then .on .point brackets
    else if c = 'e' ∨ c = 'E' then .on .power brackets
    else behind brackets c
  | .whole =>
    if isDigit c then .on .whole brackets
    else if c = '.' then .on .point brackets
    else if c = 'e' ∨ c = 'E' then .on .power brackets
    else behind brackets c
  | .point => if isDigit c then .on .fraction brackets else .refuse .malformed
  | .fraction =>
    if isDigit c then .on .fraction brackets
    else if c = 'e' ∨ c = 'E' then .on .power brackets
    else behind brackets c
  | .power =>
    if isDigit c then .on .exponent brackets
    else if c = '+' ∨ c = '-' then .on .powerSign brackets
    else .refuse .malformed
  | .powerSign => if isDigit c then .on .exponent brackets else .refuse .malformed
  | _ => if isDigit c then .on .exponent brackets else behind brackets c

def inString (inside : Inside) (isName : Bool) (brackets : List Bracket) (c : Char)
    (rest : List Char) : Move :=
  match inside.step c rest with
  | .close => .on (if isName then .colon else .after) brackets
  | .on next _ => .on (.string next isName) brackets
  | .refuse flaw => .refuse flaw

/-- One character of a value passed over that is followed by `rest`. -/
def step (mode : Mode) (brackets : List Bracket) (c : Char) (rest : List Char) : Move :=
  match mode with
  | .value => if isSpace c then .on .value brackets else start brackets c
  | .firstItem =>
    if isSpace c then .on .firstItem brackets
    else if c = ']' then .on .after brackets.tail
    else start brackets c
  | .firstName =>
    if isSpace c then .on .firstName brackets
    else if c = '\x7d' then .on .after brackets.tail
    else if c = quote then .on (.string .plain true) brackets
    else .refuse .malformed
  | .name =>
    if isSpace c then .on .name brackets
    else if c = quote then .on (.string .plain true) brackets
    else .refuse .malformed
  | .colon =>
    if isSpace c then .on .colon brackets
    else if c = ':' then .on .value brackets
    else .refuse .malformed
  | .after => behind brackets c
  | .word [] => behind brackets c
  | .word (l :: letters) =>
    if c ≠ l then .refuse .malformed
    else if letters.isEmpty then .on .after brackets
    else .on (.word letters) brackets
  | .string inside isName => inString inside isName brackets c rest
  | _ => digit mode brackets c

def atEnd (mode : Mode) (brackets : List Bracket) : Except Flaw (List Char) :=
  if mode.needsDigit then .error .malformed
  else if (mode.endsNumber || mode == .after) && brackets.isEmpty then .ok []
  else .error .ended

end Mode

/-- What follows a value that has come to a mode with brackets open. -/
def skipFrom (mode : Mode) (brackets : List Bracket) : List Char → Except Flaw (List Char)
  | [] => mode.atEnd brackets
  | c :: rest =>
    match mode.step brackets c rest with
    | .on next brackets => skipFrom next brackets rest
    | .complete => .ok (c :: rest)
    | .refuse flaw => .error flaw

def skipValue (s : List Char) : Except Flaw (List Char) :=
  skipFrom .value [] s

end BlockPurge.Json
