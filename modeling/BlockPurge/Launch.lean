import BlockPurge.Erase
import BlockPurge.Launch.Script
import BlockPurge.Volume.Walk

/-!
# Launching programs

The utility that erases blocks is a file on the volume. A program name with a slash is its path; any
other name is looked for in the folders of programs, the first file that may be executed being
taken. A script is executed by its interpreter. What a file does when it runs is not known here, so
it is a parameter.
-/
namespace BlockPurge.Launch

inductive Ending where
  | exited (code : Int)
  | killed
  deriving DecidableEq, Repr

structure Execution where
  stdout : Bytes
  stderr : Bytes
  ending : Ending
  deriving DecidableEq, Repr

def Ending.status : Ending → Option Int
  | .exited code => some (code % 256)
  | .killed => none

/-- An execution as it is seen from outside, both streams read as texts. -/
def Execution.seen (e : Execution) : Output :=
  ⟨e.ending.status, Text.decodeLossy e.stdout, Text.decodeLossy e.stderr⟩

structure Image where
  place : Place
  words : List Bytes
  deriving DecidableEq, Repr

/-- What a file does when it runs: what it leaves, and the volume afterwards. None if the system
cannot execute the file. -/
abbrev Programs := Volume → Image → Option (Execution × Volume)

def executeBits : List Nat := [0, 3, 6]

def isExecutable (v : Volume) (mode : Mode) : Bool :=
  if v.superuser then executeBits.any mode.testBit else mode.testBit Access.search.bit

/-- The place and the content of the file at a path, if it may be executed. An empty path leads to
the current folder, which may not. -/
def executable (v : Volume) (path : Bytes) : Except Fault (Place × Bytes) :=
  if path.isEmpty then .error (.system .permissionDenied)
  else match v.locate .target path with
    | .error fault => .error fault
    | .ok (place, some (.file content mode)) =>
      if isExecutable v mode then .ok (place, content) else .error (.system .permissionDenied)
    | .ok (_, some (.folder _)) => .error (.system .permissionDenied)
    | .ok (_, some (.link _)) => .error (.system .linkLoop)
    | .ok (_, none) => .error (.system .notFound)

/-- The most files in a chain in which each is the interpreter of the one before. -/
def longestChain : Nat := 6

def longestWord : Nat := 131071

/-- The file that runs if the one at a path is executed with words, and the words that it is called
with. A script hands on to its interpreter, the first word giving way to the script's path. -/
def load (v : Volume) : (chain : Nat) → (path : Bytes) → (words : List Bytes) → Except Fault Image
  | chain, path, words =>
    match executable v path, chain with
    | .error fault, _ => .error fault
    | .ok _, 0 => .error (.system .linkLoop)
    | .ok (place, content), chain + 1 =>
      if words.any fun word => longestWord < word.length then .error (.system .wordTooLong)
      else if !isScript content then .ok ⟨place, words⟩
      else match interpreter? content with
        | none => .error (.system .badFormat)
        | some i => load v chain i.path (i.words path (words.drop 1))

/-- The path of a name behind an entry of a search path. An empty entry is the current folder. -/
def behind (entry name : Bytes) : Bytes :=
  if entry.isEmpty then name else entry ++ Path.slash :: name

/-- The longest entry of a search path that is a folder, in bytes. -/
def longestEntry : Nat := 4095

/-- The paths that a name may stand for, in order. An entry of the search path that is too long
counts as an empty one, and for nothing if it is the last. -/
def candidates (name : Bytes) : List Bytes → List Bytes
  | [] => []
  | [entry] => if longestEntry < entry.length then [] else [behind entry name]
  | entry :: next :: rest =>
    behind (if longestEntry < entry.length then [] else entry) name ::
      candidates name (next :: rest)

/-- Whether a search goes on behind a fault: the file is missing in a folder, or is none to execute.
-/
def isPassable : Fault → Bool
  | .system .notFound | .system .notADirectory | .system .permissionDenied => true
  | _ => false

/-- The file that runs if the first path that allows it is executed. If none does, a file that may
not be executed counts for more than the fault of the last path. -/
def search (v : Volume) (words : List Bytes) (denied : Bool) : (last : Fault) → List Bytes →
    Except Fault Image
  | last, [] => .error (if denied then .system .permissionDenied else last)
  | _, path :: rest =>
    match load v longestChain path words with
    | .ok image => .ok image
    | .error fault =>
      if isPassable fault then
        search v words (denied || fault == .system .permissionDenied) fault rest
      else .error fault

/-- The fault of a search that has no path to try. Nothing is asked of the system then, so what it
last refused stands; if it has refused nothing, all that is known is that there is no child. -/
def nothingTried (refused : Option Cause) : Fault :=
  .system (refused.getD .noChild)

/-- The file that runs for a command, and the words that it is called with. What the system last
refused counts only for a search that has no path to try. -/
def find (folders : List Bytes) (refused : Option Cause) (v : Volume) (c : Command) :
    Except Fault Image :=
  let name := Text.encode c.program
  let words := c.words.map Text.encode
  if name.isEmpty then .error (.system .notFound)
  else if name.contains Path.slash then load v longestChain name words
  else search v words false (nothingTried refused) (candidates name folders)

def holdsZero (c : Command) : Bool :=
  c.words.any fun word => (Text.encode word).contains 0

/-- The utility whose programs are looked for in folders, after the system has last refused
something. -/
def utility (folders : List Bytes) (refused : Option Cause) (programs : Programs) : Utility :=
    fun v c =>
  if holdsZero c then (.error (.launch c.program .zeroInArgument), v)
  else match find folders refused v c with
    | .error fault => (.error (.launch c.program fault), v)
    | .ok image =>
      match programs v image with
      | none => (.error (.launch c.program (.system .badFormat)), v)
      | some (execution, after) => (.ok execution.seen, after)

end BlockPurge.Launch
