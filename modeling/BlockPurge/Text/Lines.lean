/-!
# Lines

A text is cut into lines at its newlines. A newline ends a line and opens no further one, so a text
that ends in a newline has no empty last line; a carriage return right before a newline belongs to
the line end. `oneLine` puts lines back on one line, and `cut` bounds the length of the result.
-/
namespace BlockPurge.Text

/-- The pieces of a text that a newline ends, and what follows the last newline. -/
def pieces : List Char → List (List Char) × List Char
  | [] => ([], [])
  | c :: rest =>
    match pieces rest with
    | ([], last) => if c = '\n' then ([[]], last) else ([], c :: last)
    | (piece :: more, last) =>
      if c = '\n' then ([] :: piece :: more, last) else ((c :: piece) :: more, last)

/-- A line without the carriage return that its line end may start with. -/
def dropReturn (line : List Char) : List Char :=
  if line.getLast? = some '\r' then line.dropLast else line

/-- The lines of a text. The last one keeps a final carriage return when no newline follows it. -/
def lines (s : List Char) : List (List Char) :=
  let (ended, last) := pieces s
  ended.map dropReturn ++ if last.isEmpty then [] else [last]

def linesOf (s : String) : List String :=
  (lines s.toList).map String.ofList

def cut (limit : Option Nat) (s : String) : String :=
  match limit with
  | none => s
  | some n => String.ofList (s.toList.take n)

/-- Several lines shown as one, with a bar between neighbours, cut to a number of characters. -/
def oneLine (items : List String) (limit : Option Nat) : String :=
  cut limit (" | ".intercalate items)

end BlockPurge.Text
