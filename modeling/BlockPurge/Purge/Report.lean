import BlockPurge.Block.State
import BlockPurge.Text.Utf8

/-!
# Reports

The result of a completed run: one entry for each block that was a candidate, in block order, and
the counts drawn from them.
-/
namespace BlockPurge.Purge

inductive Outcome where
  | erased
  | failed
  | dryRun
  deriving DecidableEq, Repr

/-- The report on one candidate: its state before the run, what became of it, and the answer. -/
structure BlockReport where
  index : Nat
  previous : BlockState
  outcome : Outcome
  exit : Option Int
  summary : String
  deriving DecidableEq, Repr

structure Report where
  mpath : Bytes
  device : String
  backup : Bytes
  dryRun : Bool
  total : Nat
  blocks : List BlockReport
  deriving DecidableEq, Repr

namespace Report

def count (r : Report) (outcome : Outcome) : Nat :=
  r.blocks.countP (·.outcome = outcome)

def erased (r : Report) : Nat := r.count .erased

def failed (r : Report) : Nat := r.count .failed

def skipped (r : Report) : Nat := r.total - r.blocks.length

end Report

end BlockPurge.Purge
