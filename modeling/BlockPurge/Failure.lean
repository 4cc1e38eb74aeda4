import BlockPurge.Fault

/-!
# Failures

Every way in which an operation of the library fails, with its wording. A utility that erases blocks
may answer with any of them.
-/
namespace BlockPurge

inductive Failure where
  | io (fault : Fault)
  /-- A metadata file breaks its format, at a line counted from zero. -/
  | parse (line : Nat) (content reason : String)
  | launch (program : String) (fault : Fault)
  | invalidInput (reason : String)
  | config (reason : String)
  deriving DecidableEq, Repr

namespace Failure

def message : Failure → String
  | .io fault => fault.message
  | .parse line content reason =>
    "metadata parse error at line " ++ toString line ++ " (`" ++ content ++ "`): " ++ reason
  | .launch program fault => "failed to launch `" ++ program ++ "`: " ++ fault.message
  | .invalidInput reason => "invalid input: " ++ reason
  | .config reason => "configuration error: " ++ reason

/-- The wording of a failure followed by that of the fault behind it, if there is one. -/
def chain : Failure → List String
  | .launch program fault => [(launch program fault).message, fault.message]
  | failure => [failure.message]

end Failure

end BlockPurge
