/-!
# Texts as bytes

Files, paths and the output of programs are bytes; this module goes from texts to bytes in UTF-8 and
back. Bytes are read as a row of pieces, each a character or a run of bytes that no character starts
with. `decode?` refuses a row with a broken run, and `decodeLossy` puts the replacement character in
its place, so both read the same characters.
-/
namespace BlockPurge

abbrev Bytes := List UInt8

namespace Text

def encode (s : String) : Bytes :=
  s.toList.flatMap String.utf8EncodeChar

def byteCount : List Char → Nat
  | [] => 0
  | c :: rest => c.utf8Size + byteCount rest

/-- The ranges of the bytes that have to follow a first byte; none if no character starts so. -/
def followers (b : UInt8) : Option (List (UInt8 × UInt8)) :=
  if b ≤ 0x7F then some []
  else if b < 0xC2 then none
  else if b ≤ 0xDF then some [(0x80, 0xBF)]
  else if b = 0xE0 then some [(0xA0, 0xBF), (0x80, 0xBF)]
  else if b = 0xED then some [(0x80, 0x9F), (0x80, 0xBF)]
  else if b ≤ 0xEF then some [(0x80, 0xBF), (0x80, 0xBF)]
  else if b = 0xF0 then some [(0x90, 0xBF), (0x80, 0xBF), (0x80, 0xBF)]
  else if b ≤ 0xF3 then some [(0x80, 0xBF), (0x80, 0xBF), (0x80, 0xBF)]
  else if b = 0xF4 then some [(0x80, 0x8F), (0x80, 0xBF), (0x80, 0xBF)]
  else none

/-- The bits that a first byte gives to its character, by the number of bytes that follow it. -/
def leadBits (b : UInt8) : Nat → Nat
  | 0 => b.toNat
  | 1 => b.toNat % 0x20
  | 2 => b.toNat % 0x10
  | _ => b.toNat % 0x08

def assemble : Bytes → Char
  | [] => Char.ofNat 0
  | b :: rest =>
    Char.ofNat (rest.foldl (fun n x => n * 0x40 + x.toNat % 0x40) (leadBits b rest.length))

inductive Piece where
  | char (c : Char)
  /-- Bytes that start like a character, as far as they do, or one byte that no character has there.
  -/
  | broken (run : Bytes)
  deriving DecidableEq, Repr

/-- A character under construction: its bytes so far and the ranges of those that are missing. -/
structure Partial where
  held : Bytes
  owed : List (UInt8 × UInt8)
  deriving DecidableEq, Repr

def Partial.none : Partial := ⟨[], []⟩

/-- What a byte means that is not inside a character: pieces it completes, and what it starts. -/
def opening (b : UInt8) : List Piece × Partial :=
  match followers b with
  | .none => ([.broken [b]], .none)
  | some [] => ([.char (assemble [b])], .none)
  | some owed => ([], ⟨[b], owed⟩)

/-- One byte: the pieces it completes, and the character under construction after it. -/
def Partial.step (p : Partial) (b : UInt8) : List Piece × Partial :=
  match p.owed with
  | [] => opening b
  | range :: more =>
    if range.1 ≤ b ∧ b ≤ range.2 then
      if more.isEmpty then ([.char (assemble (p.held ++ [b]))], .none)
      else ([], ⟨p.held ++ [b], more⟩)
    else
      let (done, next) := opening b
      (.broken p.held :: done, next)

/-- The pieces of a byte row behind a character under construction. -/
def scan (p : Partial) : Bytes → List Piece
  | [] => if p.held.isEmpty then [] else [.broken p.held]
  | b :: rest => (p.step b).1 ++ scan (p.step b).2 rest

def piecesOf (bytes : Bytes) : List Piece :=
  scan .none bytes

def Piece.char? : Piece → Option Char
  | .char c => some c
  | .broken _ => none

def decode? (bytes : Bytes) : Option String :=
  ((piecesOf bytes).mapM Piece.char?).map String.ofList

/-- The text that bytes stand for, with the replacement character for each broken run. -/
def decodeLossy (bytes : Bytes) : String :=
  String.ofList ((piecesOf bytes).map fun p => p.char?.getD (Char.ofNat 0xFFFD))

end Text

end BlockPurge
