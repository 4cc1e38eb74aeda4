/-!
# Progress events

What a run tells the people who watch it: report lines, and an indicator that counts blocks. An
indicator is known by the number that the display hands out when it starts.
-/
namespace BlockPurge.Progress

inductive Event where
  | start (id : Nat) (title : String) (total current : Nat)
  | message (id : Nat) (text : String)
  | advance (id : Nat) (delta : Nat)
  | finish (id : Nat) (text : String)
  | line (text : String)
  deriving DecidableEq, Repr

end BlockPurge.Progress
