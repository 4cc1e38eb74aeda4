/-!
# Blank characters

The white space of Unicode, and cutting it off both ends of a text. Blank texts matter twice: the
lines of a metadata file are read without their surrounding white space, and a path or a program
name that is blank is refused.
-/
namespace BlockPurge.Text

/-- The characters with the Unicode property `White_Space`, as closed ranges of code points. -/
def blankRanges : List (Nat × Nat) :=
  [(0x09, 0x0D), (0x20, 0x20), (0x85, 0x85), (0xA0, 0xA0), (0x1680, 0x1680), (0x2000, 0x200A),
   (0x2028, 0x2029), (0x202F, 0x202F), (0x205F, 0x205F), (0x3000, 0x3000)]

def isBlank (c : Char) : Bool :=
  blankRanges.any fun r => r.1 ≤ c.toNat && c.toNat ≤ r.2

def trimStart (s : List Char) : List Char :=
  s.dropWhile isBlank

def trimEnd (s : List Char) : List Char :=
  (trimStart s.reverse).reverse

def trim (s : List Char) : List Char :=
  trimEnd (trimStart s)

def isBlankText (s : String) : Bool :=
  s.toList.all isBlank

end BlockPurge.Text
