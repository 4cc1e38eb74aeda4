import BlockPurge.Text.Hex
import BlockPurge.Text.Printable

/-!
# Bytes as shown

Bytes between quotation marks, in a form from which each of them can be told: characters stand for
themselves where they can be seen, and otherwise for a backslash escape; bytes that belong to no
character are shown as two hexadecimal digits in upper case.
-/
namespace BlockPurge.Text

def hexDigits (n : Nat) : List Char :=
  Nat.toDigits 16 n

/-- A character as shown. Of the quotation marks, only the one that ends the text needs a
backslash. -/
def shownChar (c : Char) : List Char :=
  if c = '\x00' then ['\x5c', '0']
  else if c = '\t' then ['\x5c', 't']
  else if c = '\r' then ['\x5c', 'r']
  else if c = '\n' then ['\x5c', 'n']
  else if c = '\x5c' ∨ c = '\x22' then ['\x5c', c]
  else if isPrintable c then [c]
  else ['\x5c', 'u', '\x7b'] ++ hexDigits c.toNat ++ ['\x7d']

def shownByte (b : UInt8) : List Char :=
  '\x5c' :: 'x' :: (hexByte b).map Char.toUpper

def shown (bytes : Bytes) : String :=
  String.ofList <| '\x22' :: (piecesOf bytes).flatMap (fun
    | .char c => shownChar c
    | .broken run => run.flatMap shownByte) ++ ['\x22']

end BlockPurge.Text
