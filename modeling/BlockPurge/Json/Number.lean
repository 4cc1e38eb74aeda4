import BlockPurge.Json.Basic

/-!
# JSON numbers

A number is taken apart into its digits. Its value is never used, but a number that no double can
hold is refused where a value of another kind is asked for, so the module says when that is.
-/
namespace BlockPurge.Json

def isDigit (c : Char) : Bool :=
  '0' ≤ c && c ≤ '9'

def digitValue (c : Char) : Nat :=
  c.toNat - '0'.toNat

def readDigits (digits : List Char) : Nat :=
  digits.foldl (fun n c => n * 10 + digitValue c) 0

/-- The digits of a number without its sign: before the point, behind it, and the power of ten. -/
structure Numeral where
  whole : List Char
  fraction : List Char
  exponent : Int
  deriving DecidableEq, Repr

/-- The digits at the start of a text, at least one, and what follows them. A text that ends instead
has the flaw `ending`. -/
def someDigits (ending : Flaw) (s : List Char) : Except Flaw (List Char × List Char) :=
  match s with
  | [] => .error ending
  | c :: _ =>
    if isDigit c then .ok (s.takeWhile isDigit, s.dropWhile isDigit) else .error .malformed

def readWhole (ending : Flaw) (s : List Char) : Except Flaw (List Char × List Char) :=
  match someDigits ending s with
  | .error flaw => .error flaw
  | .ok (digits, rest) =>
    if digits.head? = some '0' ∧ digits.length ≠ 1 then .error .malformed else .ok (digits, rest)

def readFraction (ending : Flaw) (s : List Char) : Except Flaw (List Char × List Char) :=
  match s with
  | '.' :: rest => someDigits ending rest
  | _ => .ok ([], s)

def readExponent (ending : Flaw) (s : List Char) : Except Flaw (Int × List Char) :=
  match s with
  | c :: rest =>
    if c = 'e' ∨ c = 'E' then
      let (sign, digits) : Int × List Char := match rest with
        | '-' :: digits => (-1, digits)
        | '+' :: digits => (1, digits)
        | digits => (1, digits)
      match someDigits ending digits with
      | .error flaw => .error flaw
      | .ok (digits, rest) => .ok (sign * readDigits digits, rest)
    else .ok (0, s)
  | [] => .ok (0, s)

def readNumeral (ending : Flaw) (s : List Char) : Except Flaw (Numeral × List Char) :=
  match readWhole ending s with
  | .error flaw => .error flaw
  | .ok (whole, s) =>
    match readFraction ending s with
    | .error flaw => .error flaw
    | .ok (fraction, s) =>
      match readExponent ending s with
      | .error flaw => .error flaw
      | .ok (exponent, s) => .ok (⟨whole, fraction, exponent⟩, s)

/-! ## Range -/

def largestSignificand : Nat := 0xFFFFFFFFFFFFFFFF

/-- A significand with digits put behind it for as long as it stays in its range, and the digits
from the first one that would take it out. -/
def gather (significand : Nat) : List Char → Nat × List Char
  | [] => (significand, [])
  | c :: rest =>
    if significand * 10 + digitValue c ≤ largestSignificand then
      gather (significand * 10 + digitValue c) rest
    else (significand, c :: rest)

/-- A number that is not negative, rounded to 53 binary digits; a tie goes to the even neighbour. -/
def toDoubleDigits (n : Nat) : Nat :=
  let spare := n.log2 + 1 - 53
  let unit := Nat.pow 2 spare
  let low := n % unit
  let floor := n / unit
  if low * 2 > unit ∨ low * 2 = unit ∧ floor % 2 = 1 then (floor + 1) * unit else floor * unit

def largestPower : Nat := 308

def doubleLimit : Nat := Nat.pow 2 1024 - Nat.pow 2 970

/-- Whether a significand times a power of ten stays finite. Both are rounded to doubles before they
are multiplied. -/
def staysFinite (significand : Nat) (power : Int) : Bool :=
  if significand = 0 ∨ power < 0 then true
  else if largestPower < power then false
  else toDoubleDigits significand * toDoubleDigits (Nat.pow 10 power.toNat) < doubleLimit

/-- Whether a number is in the range of doubles. Digits that do not fit the significand count by
their places alone. -/
def Numeral.inRange (n : Numeral) : Bool :=
  let (whole, unread) := gather 0 n.whole
  let (significand, ignored) := gather whole n.fraction
  staysFinite significand
    (n.exponent + unread.length - ((n.fraction.length : Int) - ignored.length))

end BlockPurge.Json
