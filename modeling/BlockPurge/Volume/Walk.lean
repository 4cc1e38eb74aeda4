import BlockPurge.Path.Basic
import BlockPurge.Volume.Basic

/-!
# Walking a path

A path leads from the root or the current folder, name by name, to a place. Links on the way are
followed, at most forty in one walk; what a link at the end counts for is up to the goal of the
walk. The place that a walk ends at need not be occupied, but the folder around it is there.
-/
namespace BlockPurge.Volume

inductive Goal where
  | entry
  /-- What stands there, or where a link there leads. -/
  | target
  /-- As before, and a file is made there if nothing stands there. -/
  | file
  deriving DecidableEq, Repr

/-- The name that stands for a slash at the end of a path, which asks for a folder. -/
def slashName : Name := []

def names (path : Bytes) : List Name :=
  let used := (Path.segments path).filter fun s => !s.isEmpty
  if path.getLast? == some Path.slash then used ++ [slashName] else used

inductive Stop where
  /-- The end of the path, and what stands there. -/
  | landed (place : Place) (entry : Option Entry)
  /-- A link in a folder, with the names that are left behind it. -/
  | link (folder : Place) (target : Bytes) (rest : List Name)
  | failed (cause : Cause)

def longestName : Nat := 255

def longestPath : Nat := 4095

def mostLinks : Nat := 40

/-- The walk from a folder over names, up to the first link that has to be followed. A path that may
make a file and ends in a slash is refused before anything of its last name is looked at, and in a
removed folder no name is found. -/
def descend (v : Volume) (goal : Goal) : Place → List Name → Stop
  | place, [] => .landed place (v.entry? place)
  | place, name :: rest =>
    match v.entry? place with
    | none => .failed .notFound
    | some (.file ..) | some (.link _) => .failed .notADirectory
    | some (.folder mode) =>
      if name = slashName then descend v goal place rest
      else if !v.allows mode .search then .failed .permissionDenied
      else if name = [Path.dot] then descend v goal place rest
      else if name = [Path.dot, Path.dot] then descend v goal place.dropLast rest
      else if goal = .file ∧ rest = [slashName] then .failed .isADirectory
      else if isRemoved place then .failed .notFound
      else if longestName < name.length then .failed .nameTooLong
      else match v.entry? (place ++ [name]) with
        | none => if rest.isEmpty then .landed (place ++ [name]) none else .failed .notFound
        | some (.link target) =>
          if rest.isEmpty ∧ goal = .entry then .landed (place ++ [name]) (some (.link target))
          else .link place target rest
        | some _ => descend v goal (place ++ [name]) rest

/-- The folder that a path starts from, `place` being the current one. -/
def origin (place : Place) (path : Bytes) : Place :=
  if Path.isAbsolute path then [] else place

/-- The end of a walk that gets as far as `advance` says and then follows a link, at most `budget`
times. -/
def chase (advance : Place → List Name → Stop) : (budget : Nat) → Place → List Name →
    Except Cause (Place × Option Entry)
  | budget, place, rest =>
    match advance place rest, budget with
    | .landed place entry, _ => .ok (place, entry)
    | .failed cause, _ => .error cause
    | .link _ _ _, 0 => .error .linkLoop
    | .link folder target rest, budget + 1 =>
      chase advance budget (origin folder target) (names target ++ rest)

def walk (v : Volume) (goal : Goal) : Place → List Name → Except Cause (Place × Option Entry) :=
  chase (v.descend goal) mostLinks

/-- Refuses a path that no request takes, whatever the volume holds. -/
def acceptable (path : Bytes) : Except Fault Unit :=
  if path.contains 0 then .error .zeroInPath
  else if path.isEmpty then .error (.system .notFound)
  else if longestPath < path.length then .error (.system .nameTooLong)
  else .ok ()

def locate (v : Volume) (goal : Goal) (path : Bytes) : Except Fault (Place × Option Entry) :=
  match acceptable path with
  | .error fault => .error fault
  | .ok () =>
    match v.walk goal (origin v.here path) (names path) with
    | .ok found => .ok found
    | .error cause => .error (.system cause)

def pathOf (p : Place) : Bytes :=
  if p.isEmpty then [Path.slash] else p.flatMap (Path.slash :: ·)

/-- The absolute path of the current folder. A removed one has none. -/
def currentPath (v : Volume) : Except Fault Bytes :=
  if isRemoved v.here then .error (.system .notFound) else .ok (pathOf v.here)

end BlockPurge.Volume
