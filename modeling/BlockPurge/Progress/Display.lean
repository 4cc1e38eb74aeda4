import BlockPurge.Progress.Event

/-!
# Displays

A display receives requests to show progress. The line display prints plain lines: the title of an
indicator when it starts, its final text with the counts when it finishes, and every report line.
The bar display draws on a terminal that may not be there, so nothing of it reaches standard output;
it still hands out numbers. The silent display shows nothing and hands out zero.
-/
namespace BlockPurge.Progress

inductive Request where
  | start (title : String) (total current : Nat)
  | message (id : Nat) (text : String)
  | advance (id : Nat) (delta : Nat)
  | finish (id : Nat) (text : String)
  | line (text : String)
  deriving DecidableEq, Repr

def Event.request : Event → Request
  | .start _ title total current => .start title total current
  | .message id text => .message id text
  | .advance id delta => .advance id delta
  | .finish id text => .finish id text
  | .line text => .line text

def largestCount : Nat := 0xFFFFFFFFFFFFFFFF

structure Tally where
  current : Nat
  total : Nat
  deriving DecidableEq, Repr

/-- A tally that has come further, but never beyond the largest count. -/
def Tally.advance (t : Tally) (delta : Nat) : Tally :=
  { t with current := min (t.current + delta) largestCount }

def Tally.text (t : Tally) : String :=
  " (" ++ toString t.current ++ "/" ++ toString t.total ++ ")"

/-- The state of a line display: how many indicators it has started, and those not yet finished. -/
structure LineDisplay where
  started : Nat
  running : List (Nat × Tally)
  deriving DecidableEq, Repr

/-- What a request does: the number handed out, and the text printed. -/
structure Reply where
  id : Option Nat
  printed : String
  deriving DecidableEq, Repr

namespace LineDisplay

def fresh : LineDisplay := ⟨0, []⟩

/-- The display after a request, and the reply. A finish of an indicator that is not running prints
its text alone. -/
def handle (d : LineDisplay) : Request → LineDisplay × Reply
  | .start title total current =>
    let id := d.started + 1
    (⟨id, (id, ⟨current, total⟩) :: d.running⟩, ⟨some id, title ++ "\n"⟩)
  | .message _ _ => (d, ⟨none, ""⟩)
  | .advance id delta =>
    ({ d with running := d.running.map fun (other, tally) =>
        if other = id then (other, tally.advance delta) else (other, tally) }, ⟨none, ""⟩)
  | .finish id text =>
    let counts := match d.running.lookup id with
      | some tally => tally.text
      | none => ""
    ({ d with running := d.running.filter (·.1 != id) }, ⟨none, text ++ counts ++ "\n"⟩)
  | .line text => (d, ⟨none, text ++ "\n"⟩)

def print (d : LineDisplay) : List Request → String
  | [] => ""
  | request :: rest => (d.handle request).2.printed ++ (d.handle request).1.print rest

end LineDisplay

inductive Display where
  | lines (state : LineDisplay)
  /-- A bar on a terminal, with the number of indicators started. -/
  | bar (started : Nat)
  | silent
  deriving DecidableEq, Repr

namespace Display

/-- The display that a program uses whose standard output is a terminal or is not. -/
def forOutput (terminal : Bool) : Display :=
  if terminal then .bar 0 else .lines .fresh

def handle : Display → Request → Display × Reply
  | .lines state, request =>
    let (after, reply) := state.handle request
    (.lines after, reply)
  | .bar started, .start _ _ _ => (.bar (started + 1), ⟨some (started + 1), ""⟩)
  | .bar started, _ => (.bar started, ⟨none, ""⟩)
  | .silent, .start _ _ _ => (.silent, ⟨some 0, ""⟩)
  | .silent, _ => (.silent, ⟨none, ""⟩)

def print (d : Display) : List Request → String
  | [] => ""
  | request :: rest => (d.handle request).2.printed ++ (d.handle request).1.print rest

end Display

end BlockPurge.Progress
