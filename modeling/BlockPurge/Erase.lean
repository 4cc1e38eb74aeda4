import BlockPurge.Failure
import BlockPurge.Text.Case
import BlockPurge.Text.Lines
import BlockPurge.Volume.Basic

/-!
# Erasing one block

A block is erased by an outside utility, called with a fixed command. Whatever the utility answers
is an outcome of the block: exit status 0 means erased, anything else failed. Only a call that could
not be made, or whose answer could not be had, is a failure of the run.
-/
namespace BlockPurge

structure Command where
  program : String
  arguments : List String
  deriving DecidableEq, Repr

def Command.words (c : Command) : List String :=
  c.program :: c.arguments

def Command.line (c : Command) : String :=
  " ".intercalate c.words

/-- What a finished process leaves; it has no exit status if a signal ended it. -/
structure Output where
  exit : Option Int
  stdout : String
  stderr : String
  deriving DecidableEq, Repr

namespace Output

def silent : Output := ⟨some 0, "", ""⟩

def succeeded (o : Output) : Bool :=
  o.exit == some 0

def elapsedLines (o : Output) : List String :=
  ((Text.lines o.stdout.toList).filter (Text.mentions "elapsed")).map String.ofList

/-- The number of characters of standard error that a summary shows. -/
def shownErrors : Nat := 110

def exitText (o : Output) : String :=
  match o.exit with
  | some code => toString code
  | none => "signal"

/-- The outcome on one line: exit status, elapsed times, and the start of standard error. -/
def summary (o : Output) : String :=
  "rcode: " ++ o.exitText ++ ", out: '" ++ Text.oneLine o.elapsedLines none ++ "', err: '" ++
    Text.oneLine (Text.linesOf o.stderr) (some shownErrors) ++ "'"

end Output

/-- How calls are answered: what comes back, and the volume afterwards. -/
abbrev Utility := Volume → Command → Except Failure Output × Volume

namespace Erase

def defaultProgram : String := "nvm_vblk"

/-- The channels and units over which a block spans: channels 0 to 15, units 0 to 7. -/
def span : List String := ["0", "15", "0", "7"]

def command (program device : String) (block : Nat) : Command :=
  ⟨program, "line_erase" :: device :: span ++ [toString block]⟩

def note (c : Command) : String :=
  c.program ++ " " ++ " ".intercalate c.arguments

/-- The answer to a command and the volume after it. In a dry run nothing is called and the command
counts as having succeeded silently. -/
def attempt (dryRun : Bool) (utility : Utility) (v : Volume) (c : Command) :
    Except Failure Output × Volume :=
  if dryRun then (.ok .silent, v) else utility v c

end Erase

end BlockPurge
