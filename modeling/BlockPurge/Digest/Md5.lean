import BlockPurge.Text.Utf8

/-!
# MD5

The message digest that names backups. A message is padded to whole blocks of 64 bytes that end in
its length in bits; each block is mixed into a state of four words in 64 steps; the digest is the
final state, least significant byte first.
-/
namespace BlockPurge.Digest

structure State where
  a : UInt32
  b : UInt32
  c : UInt32
  d : UInt32
  deriving DecidableEq, Repr

def State.initial : State :=
  ⟨0x67452301, 0xefcdab89, 0x98badcfe, 0x10325476⟩

/-- The word added in each step, the integer part of 2^32 times the absolute sine of its number. -/
def sines : List UInt32 :=
  [0xd76aa478, 0xe8c7b756, 0x242070db, 0xc1bdceee, 0xf57c0faf, 0x4787c62a, 0xa8304613, 0xfd469501,
   0x698098d8, 0x8b44f7af, 0xffff5bb1, 0x895cd7be, 0x6b901122, 0xfd987193, 0xa679438e, 0x49b40821,
   0xf61e2562, 0xc040b340, 0x265e5a51, 0xe9b6c7aa, 0xd62f105d, 0x02441453, 0xd8a1e681, 0xe7d3fbc8,
   0x21e1cde6, 0xc33707d6, 0xf4d50d87, 0x455a14ed, 0xa9e3e905, 0xfcefa3f8, 0x676f02d9, 0x8d2a4c8a,
   0xfffa3942, 0x8771f681, 0x6d9d6122, 0xfde5380c, 0xa4beea44, 0x4bdecfa9, 0xf6bb4b60, 0xbebfbc70,
   0x289b7ec6, 0xeaa127fa, 0xd4ef3085, 0x04881d05, 0xd9d4d039, 0xe6db99e5, 0x1fa27cf8, 0xc4ac5665,
   0xf4292244, 0x432aff97, 0xab9423a7, 0xfc93a039, 0x655b59c3, 0x8f0ccc92, 0xffeff47d, 0x85845dd1,
   0x6fa87e4f, 0xfe2ce6e0, 0xa3014314, 0x4e0811a1, 0xf7537e82, 0xbd3af235, 0x2ad7d2bb, 0xeb86d391]

/-- The rotation in each of the four steps that a round repeats, by round. -/
def rotations : Nat → List UInt32
  | 0 => [7, 12, 17, 22]
  | 1 => [5, 9, 14, 20]
  | 2 => [4, 11, 16, 23]
  | _ => [6, 10, 15, 21]

/-- A word rotated to the left by a number of bits between 1 and 31. -/
def rotateLeft (x by_ : UInt32) : UInt32 :=
  (x <<< by_) ||| (x >>> (32 - by_))

def mixer (round : Nat) (b c d : UInt32) : UInt32 :=
  match round with
  | 0 => (b &&& c) ||| (~~~b &&& d)
  | 1 => (d &&& b) ||| (~~~d &&& c)
  | 2 => b ^^^ c ^^^ d
  | _ => c ^^^ (b ||| ~~~d)

def wordIndex (i : Nat) : Nat :=
  match i / 16 with
  | 0 => i
  | 1 => (5 * i + 1) % 16
  | 2 => (3 * i + 5) % 16
  | _ => (7 * i) % 16

def State.step (words : List UInt32) (s : State) (i : Nat) : State :=
  let f := s.a + mixer (i / 16) s.b s.c s.d + sines.getD i 0 + words.getD (wordIndex i) 0
  let turn := (rotations (i / 16)).getD (i % 4) 1
  ⟨s.d, s.b + rotateLeft f turn, s.b, s.c⟩

def State.absorb (s : State) (words : List UInt32) : State :=
  let t := (List.range 64).foldl (State.step words) s
  ⟨s.a + t.a, s.b + t.b, s.c + t.c, s.d + t.d⟩

/-- The bytes of a number, `count` of them, least significant first. -/
def littleEndian : (count : Nat) → Nat → Bytes
  | 0, _ => []
  | count + 1, n => UInt8.ofNat (n % 256) :: littleEndian count (n / 256)

/-- The message with its padding: one bit, zeros up to 8 bytes before a block ends, and the length
of the message in bits. -/
def pad (message : Bytes) : Bytes :=
  let zeros := (119 - message.length % 64) % 64
  message ++ 0x80 :: List.replicate zeros 0 ++ littleEndian 8 (message.length * 8)

/-- The words of a byte row, four bytes each, least significant first. -/
def wordsOf : Bytes → List UInt32
  | b₀ :: b₁ :: b₂ :: b₃ :: rest =>
    (b₀.toUInt32 ||| b₁.toUInt32 <<< 8 ||| b₂.toUInt32 <<< 16 ||| b₃.toUInt32 <<< 24) ::
      wordsOf rest
  | _ => []

/-- The state after the given number of blocks, each the next 16 words. -/
def absorbAll : (blocks : Nat) → List UInt32 → State → State
  | 0, _, s => s
  | blocks + 1, words, s => absorbAll blocks (words.drop 16) (s.absorb (words.take 16))

def md5 (message : Bytes) : Bytes :=
  let words := wordsOf (pad message)
  let s := absorbAll (words.length / 16) words .initial
  [s.a, s.b, s.c, s.d].flatMap fun word => littleEndian 4 word.toNat

end BlockPurge.Digest
