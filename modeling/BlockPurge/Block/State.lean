import BlockPurge.Text.Hex

/-!
# Block states

The state that a metadata file records for a block, as a code of one byte. Written and open blocks
are candidates for erasing; a purge leaves a block erased or failed; any other code is carried along
untouched.
-/
namespace BlockPurge

inductive BlockState where
  | written
  | erased
  | opened
  | failed
  | other (code : UInt8)
  deriving DecidableEq, Repr

namespace BlockState

def ofCode (code : UInt8) : BlockState :=
  if code = 0x01 then .written
  else if code = 0x02 then .erased
  else if code = 0x04 then .opened
  else if code = 0x08 then .failed
  else .other code

def code : BlockState → UInt8
  | .written => 0x01
  | .erased => 0x02
  | .opened => 0x04
  | .failed => 0x08
  | .other code => code

def isErasable : BlockState → Bool
  | .written | .opened => true
  | _ => false

/-- The literal that a state is recorded with: `0x` and two lower-case digits. -/
def literal (s : BlockState) : String :=
  String.ofList ('0' :: 'x' :: Text.hexByte s.code)

end BlockState

end BlockPurge
