import BlockPurge.Erase
import BlockPurge.Text.Blank

/-!
# Settings of a run

Which metadata file a run works on, whether it is a dry run, when it records outcomes, which program
erases blocks, and what stands before the device name in a device path.
-/
namespace BlockPurge

/-- When a run records the outcomes of its erases in the metadata file. -/
inductive Persistence where
  /-- After every erased block, so that at most one outcome is unrecorded. -/
  | perBlock
  | onCompletion
  deriving DecidableEq, Repr

namespace Persistence

def word : Persistence → String
  | .perBlock => "per_block"
  | .onCompletion => "on_completion"

def all : List Persistence :=
  [.perBlock, .onCompletion]

def ofWord? (s : String) : Option Persistence :=
  all.find? (·.word == s)

end Persistence

namespace Purge

structure Settings where
  mpath : Bytes
  dryRun : Bool
  persistence : Persistence
  program : String
  deviceStart : String
  deriving DecidableEq, Repr

/-- What stands before the device name unless something else is asked for. -/
def defaultDeviceStart : String := "/dev/"

/-- The settings of a real run on a metadata file with all defaults. -/
def Settings.default (mpath : Bytes) : Settings :=
  ⟨mpath, false, .perBlock, Erase.defaultProgram, defaultDeviceStart⟩

/-- Refuses settings without a metadata path or without a program. -/
def Settings.validate (s : Settings) : Except Failure Unit :=
  if s.mpath.isEmpty then .error (.config "metadata path is empty")
  else if Text.isBlankText s.program then .error (.config "erase program is empty")
  else .ok ()

end Purge

end BlockPurge
