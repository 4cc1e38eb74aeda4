import BlockPurge.Text.Blank
import BlockPurge.Text.Hex

/-!
# State literals

The spelling of a block state in a metadata file: an optional `0x` or `0X`, then hexadecimal digits
in either case with any number of leading zeros, for a number that fits in a byte. White space
around a literal does not count.
-/
namespace BlockPurge.Literal

/-- Why a text is no state literal. The text is kept as it was found, without white space around. -/
inductive Fault where
  | noDigits
  | tooLarge (text : String)
  | notHex (text : String)
  deriving DecidableEq, Repr

def Fault.message : Fault → String
  | .noDigits => "missing hex digits"
  | .tooLarge text => "`" ++ text ++ "` does not fit in a byte"
  | .notHex text => "`" ++ text ++ "` is not a hex literal"

/-- The digits of a literal, without the mark `0x` or `0X` that may stand before them. -/
def digits : List Char → List Char
  | '0' :: 'x' :: rest => rest
  | '0' :: 'X' :: rest => rest
  | text => text

def significant (digits : List Char) : List Char :=
  match digits.dropWhile (· = '0') with
  | [] => ['0']
  | rest => rest

/-- The code that a literal denotes. A text longer than two bytes behind its zeros is too large
whatever it holds. -/
def read (s : String) : Except Fault UInt8 :=
  let text := Text.trim s.toList
  let all := digits text
  if all.isEmpty then .error .noDigits
  else if 2 < Text.byteCount (significant all) then .error (.tooLarge (String.ofList text))
  else match Text.readHex? (significant all) with
    | some n => .ok (UInt8.ofNat n)
    | none => .error (.notHex (String.ofList text))

end BlockPurge.Literal
