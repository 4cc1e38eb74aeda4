import BlockPurge.Volume.Walk

/-!
# Canonical paths

The canonical form of a path is absolute and free of links, dots and repeated slashes. It is found
name by name: each name is looked up behind the canonical form of what stands before it. So it is
these forms, and not the path as given, that the system's longest path bounds; and what stands
before a dot or a step up has to be a folder, but not one that may be searched.
-/
namespace BlockPurge.Volume

/-- Whether the names behind an entry ask for a folder without naming anything in it first. -/
def asksFolder : List Name → Bool
  | [] => false
  | name :: rest =>
    if name = [Path.dot] then rest.isEmpty || asksFolder rest
    else name = slashName ∨ name = [Path.dot, Path.dot]

def isFolder : Entry → Bool
  | .folder _ => true
  | _ => false

/-- The canonical form that names lead to from a place in that form, up to the first link. -/
def settle (v : Volume) : Place → List Name → Stop
  | place, [] => .landed place (v.entry? place)
  | place, name :: rest =>
    if name = slashName ∨ name = [Path.dot] then settle v place rest
    else if name = [Path.dot, Path.dot] then settle v place.dropLast rest
    else match v.locate .entry (pathOf (place ++ [name])) with
      | .error (.system cause) => .failed cause
      | .error _ | .ok (_, none) => .failed .notFound
      | .ok (_, some (.link target)) => .link place target rest
      | .ok (next, some entry) =>
        if asksFolder rest && !isFolder entry then .failed .notADirectory else settle v next rest

/-- The canonical form of a path that leads to something. A relative path has none if the current
folder is removed. -/
def canonical (v : Volume) (path : Bytes) : Except Fault Bytes :=
  if path.contains 0 then .error .zeroInPath
  else if path.isEmpty then .error (.system .notFound)
  else if !Path.isAbsolute path && isRemoved v.here then .error (.system .notFound)
  else match chase v.settle mostLinks (origin v.here path) (names path) with
    | .ok (place, _) => .ok (pathOf place)
    | .error cause => .error (.system cause)

end BlockPurge.Volume
