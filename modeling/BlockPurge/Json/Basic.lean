/-!
# JSON texts

What every reader of a JSON text shares: the ways in which it refuses a text, the white space
between tokens, and the three words. Readers look at a text from its start, and the first flaw that
they meet is the one they report.
-/
namespace BlockPurge.Json

inductive Flaw where
  | ended
  /-- A character stands where JSON has none of its kind, or a number is out of range. -/
  | malformed
  /-- A value of another kind, or a member that was given before. -/
  | mismatch
  deriving DecidableEq, Repr

def Flaw.message : Flaw → String
  | .ended => "the text ends before its value does"
  | .malformed => "the text is not JSON"
  | .mismatch => "a value has the wrong kind or is given twice"

def isSpace (c : Char) : Bool :=
  c == ' ' || c == '\t' || c == '\n' || c == '\r'

def skipSpace (s : List Char) : List Char :=
  s.dropWhile isSpace

/-- What follows the given letters, which the text has to start with. -/
def afterWord : (letters s : List Char) → Except Flaw (List Char)
  | [], s => .ok s
  | _ :: _, [] => .error .ended
  | l :: letters, c :: rest => if c = l then afterWord letters rest else .error .malformed

def wordRest (first : Char) : Option (List Char) :=
  if first = 'n' then some ['u', 'l', 'l']
  else if first = 't' then some ['r', 'u', 'e']
  else if first = 'f' then some ['a', 'l', 's', 'e']
  else none

inductive Opening where
  | closed (rest : List Char)
  | item (s : List Char)
  deriving DecidableEq, Repr

/-- The next item inside a bracket, or the end of the bracket. Items but the first follow a comma.
-/
def nextItem (closing : Char) (first : Bool) (s : List Char) : Except Flaw Opening :=
  match skipSpace s with
  | [] => .error .ended
  | c :: rest =>
    if c = closing then .ok (.closed rest)
    else if first then .ok (.item (c :: rest))
    else if c = ',' then
      match skipSpace rest with
      | [] => .error .ended
      | d :: more => if d = closing then .error .malformed else .ok (.item (d :: more))
    else .error .malformed

def afterColon (s : List Char) : Except Flaw (List Char) :=
  match skipSpace s with
  | [] => .error .ended
  | c :: rest => if c = ':' then .ok rest else .error .malformed

def finish (s : List Char) : Except Flaw Unit :=
  if (skipSpace s).isEmpty then .ok () else .error .malformed

end BlockPurge.Json
