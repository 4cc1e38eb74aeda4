import BlockPurge.Block.Literal
import BlockPurge.Block.State
import BlockPurge.Failure
import BlockPurge.Text.Lines

/-!
# Metadata files

A metadata file names a device on its first line, keeps two reserved lines, and records one block on
each further line as a state literal. Lines are read without their surrounding white space and are
never reordered, so block `n` stands on line `n + 3`. A literal keeps its spelling until the state
of its block is set, which writes the canonical one.
-/
namespace BlockPurge

structure Block where
  state : BlockState
  literal : String
  deriving DecidableEq, Repr

structure Metadata where
  device : String
  reserved : String × String
  blocks : List Block
  deriving DecidableEq, Repr

namespace Metadata

def headerLines : Nat := 3

inductive ParseFault where
  | tooFewLines (found : Nat)
  | noDevice
  | badLiteral (line : Nat) (content : String) (fault : Literal.Fault)
  deriving DecidableEq, Repr

def ParseFault.failure : ParseFault → Failure
  | .tooFewLines found =>
    .parse found "" ("expected at least " ++ toString headerLines ++ " header lines, found " ++
      toString found)
  | .noDevice => .parse 0 "" "missing device identifier"
  | .badLiteral line content fault => .parse line content fault.message

/-- The lines of a text as a metadata file reads them, without surrounding white space. -/
def rows (content : String) : List String :=
  (Text.lines content.toList).map fun line => String.ofList (Text.trim line)

def readBlock (line : Nat) (literal : String) : Except ParseFault Block :=
  match Literal.read literal with
  | .ok code => .ok ⟨.ofCode code, literal⟩
  | .error fault => .error (.badLiteral line literal fault)

/-- The blocks that literals record, the first literal standing on the given line. -/
def readBlocks (line : Nat) : List String → Except ParseFault (List Block)
  | [] => .ok []
  | literal :: rest =>
    match readBlock line literal with
    | .error fault => .error fault
    | .ok block =>
      match readBlocks (line + 1) rest with
      | .error fault => .error fault
      | .ok blocks => .ok (block :: blocks)

def parse (content : String) : Except ParseFault Metadata :=
  match rows content with
  | device :: first :: second :: literals =>
    if device = "" then .error .noDevice
    else match readBlocks headerLines literals with
      | .error fault => .error fault
      | .ok blocks => .ok ⟨device, (first, second), blocks⟩
  | short => .error (.tooFewLines short.length)

def lines (m : Metadata) : List String :=
  m.device :: m.reserved.1 :: m.reserved.2 :: m.blocks.map Block.literal

def render (m : Metadata) : String :=
  String.join (m.lines.map (· ++ "\n"))

def size (m : Metadata) : Nat :=
  m.blocks.length

def devicePath (m : Metadata) (start : String) : String :=
  start ++ m.device

def states (m : Metadata) : List BlockState :=
  m.blocks.map Block.state

/-- The blocks that may be erased, in block order, each with its state. -/
def candidates (m : Metadata) : List (Nat × BlockState) :=
  m.blocks.zipIdx.filterMap fun (block, index) =>
    if block.state.isErasable then some (index, block.state) else none

/-- The metadata with a block in a given state, spelled canonically. -/
def setState (m : Metadata) (index : Nat) (state : BlockState) : Except Failure Metadata :=
  if index < m.size then .ok { m with blocks := m.blocks.set index ⟨state, state.literal⟩ }
  else .error (.invalidInput
    ("block " ++ toString index ++ " out of range (" ++ toString m.size ++ " blocks)"))

end Metadata

end BlockPurge
