import BlockPurge.Text.Utf8

/-!
# Scripts

A file that starts with the mark of a script is executed by another program, its interpreter. The
first line names it behind the mark, with at most one argument behind blanks. Only the head of the
file is looked at; a first line that goes on behind it counts as far as it is seen, provided that
the name of the interpreter ends in it.
-/
namespace BlockPurge.Launch

structure Interpreter where
  path : Bytes
  argument : Option Bytes
  deriving DecidableEq, Repr

namespace Script

/-- The bytes that a script starts with: a number sign and an exclamation mark. -/
def mark : Bytes := [0x23, 0x21]

def newline : UInt8 := 0x0A

def headLength : Nat := 256

/-- The head of a file. A short file counts as followed by zero bytes. -/
def head (content : Bytes) : Bytes :=
  content.take headLength ++ List.replicate (headLength - content.length) 0

/-- Whether a byte separates the words of a first line: a space or a tab. -/
def isBlank (b : UInt8) : Bool :=
  b == 0x20 || b == 0x09

def endsName (b : UInt8) : Bool :=
  isBlank b || b == 0

def trimEnd (text : Bytes) : Bytes :=
  (text.reverse.dropWhile isBlank).reverse

/-- The first line behind the mark, without the blanks at its end. A line that does not end before
the first zero byte goes on to the end of the head, whose last byte is not used then; there has to
be a byte in it that ends the name of the interpreter. -/
def firstLine? (head : Bytes) : Option Bytes :=
  let behind := head.drop mark.length
  let line := behind.takeWhile fun b => b != newline && b != 0
  if (behind.drop line.length).head? == some newline then some (trimEnd line)
  else if (behind.dropWhile isBlank).any endsName then some (trimEnd behind.dropLast)
  else none

/-- The argument that follows the name of an interpreter, if only blanks stand between them. -/
def argument? (rest : Bytes) : Option Bytes :=
  match rest with
  | b :: _ => if isBlank b then some ((rest.dropWhile isBlank).takeWhile (· != 0)) else none
  | [] => none

def interpreterIn? (line : Bytes) : Option Interpreter :=
  let words := line.dropWhile isBlank
  let path := words.takeWhile fun b => !endsName b
  if words.isEmpty then none else some ⟨path, argument? (words.drop path.length)⟩

end Script

def isScript (content : Bytes) : Bool :=
  Script.mark.isPrefixOf content

def interpreter? (script : Bytes) : Option Interpreter :=
  (Script.firstLine? (Script.head script)).bind Script.interpreterIn?

/-- What an interpreter is called with: its path, its argument, the path of the script, and what the
script was called with. -/
def Interpreter.words (i : Interpreter) (script : Bytes) (arguments : List Bytes) : List Bytes :=
  i.path :: i.argument.toList ++ script :: arguments

end BlockPurge.Launch
