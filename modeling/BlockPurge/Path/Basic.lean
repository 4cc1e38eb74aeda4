import BlockPurge.Text.Utf8

/-!
# Paths

Paths as texts of bytes, before any file system is asked. A slash separates segments; empty segments
and single dots name nothing of their own, apart from a dot that starts a relative path. The module
gives the last component, its stem, the path before it, and the absolute form of a path.
-/
namespace BlockPurge.Path

def slash : UInt8 := 0x2F

/-- The byte that separates the extension of a file name, and that alone stands for a folder. -/
def dot : UInt8 := 0x2E

/-- The segments of a path between its slashes, empty ones included. -/
def segments (path : Bytes) : List Bytes :=
  path.splitOn slash

/-- Whether a segment names nothing: it is empty or a single dot. -/
def isIdle (segment : Bytes) : Bool :=
  segment.isEmpty || segment == [dot]

def isParent (segment : Bytes) : Bool :=
  segment == [dot, dot]

def isAbsolute (path : Bytes) : Bool :=
  path.head? == some slash

/-- The start of a path that its segments stand behind: a root slash, a dot of its own, or nothing.
-/
def anchor (path : Bytes) : Bytes :=
  if isAbsolute path then [slash]
  else if (segments path).head? == some [dot] then [dot]
  else []

def body (path : Bytes) : List Bytes :=
  segments (path.drop (anchor path).length)

/-- The components of a path behind its start: the segments that name something. -/
def components (path : Bytes) : List Bytes :=
  (body path).filter fun s => !isIdle s

/-- The name that a path ends in; none if it ends at its start or goes up. -/
def fileName? (path : Bytes) : Option Bytes :=
  match (components path).getLast? with
  | some name => if isParent name then none else some name
  | none => none

/-- What stands before the last dot of a file name. A dot at the start separates nothing. -/
def stemOf (name : Bytes) : Bytes :=
  match (name.reverse.dropWhile (· ≠ dot)).drop 1 with
  | [] => name
  | before => before.reverse

/-- The file name of a path without its extension, as a text; empty if there is no file name. -/
def stem (path : Bytes) : String :=
  match fileName? path with
  | some name => Text.decodeLossy (stemOf name)
  | none => ""

def dropIdle (segments : List Bytes) : List Bytes :=
  (segments.reverse.dropWhile isIdle).reverse

/-- The path before the last component; none if the path is empty or the root. -/
def parent? (path : Bytes) : Option Bytes :=
  match dropIdle (body path) with
  | [] => if anchor path == [dot] then some [] else none
  | used => some (anchor path ++ [slash].intercalate (dropIdle used.dropLast))

def join (folder name : Bytes) : Bytes :=
  if folder.isEmpty || folder.getLast? == some slash then folder ++ name
  else folder ++ slash :: name

def display (path : Bytes) : String :=
  Text.decodeLossy path

/-- The absolute form of a path, `here` being the current folder. Two slashes at the start stay two,
and a slash at the end stays; dots and other repeated slashes go, and steps up stay. -/
def absolute (here path : Bytes) : Bytes :=
  let start := if isAbsolute path then
      if [slash, slash].isPrefixOf path && !([slash, slash, slash].isPrefixOf path) then
        [slash, slash]
      else [slash]
    else here
  let full := (components path).foldl join start
  if path.getLast? == some slash then join full [] else full

end BlockPurge.Path
