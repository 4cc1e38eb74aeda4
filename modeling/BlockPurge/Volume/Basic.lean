import BlockPurge.Fault
import BlockPurge.Text.Utf8

/-!
# Volumes

A volume is a tree of folders, files and symbolic links, held flat: each entry stands at its place,
the names that lead to it from the root. Every place but the root has at most one entry. A volume
also knows the current folder, and whether its user passes over permission bits. All that stands in
it belongs to that user, apart from the root.

A folder that is removed while it is the current one stays the current one. It then stands under a
name that no path has, in the folder where it stood, so that nothing but dots leads to it and
nothing but steps up leads away.
-/
namespace BlockPurge

abbrev Name := Bytes

/-- A place in the tree: the names from the root to it, no link among them. -/
abbrev Place := List Name

abbrev Mode := Nat

inductive Entry where
  | folder (mode : Mode)
  | file (content : Bytes) (mode : Mode)
  | link (target : Bytes)
  deriving DecidableEq, Repr

structure Volume where
  entries : List (Place × Entry)
  here : Place
  superuser : Bool
  deriving DecidableEq, Repr

inductive Access where
  | read
  | write
  | search
  deriving DecidableEq, Repr

def Access.bit : Access → Nat
  | .read => 8
  | .write => 7
  | .search => 6

namespace Volume

def entry? (v : Volume) (p : Place) : Option Entry :=
  if p.isEmpty then some (.folder 0o755) else v.entries.lookup p

/-- The volume with nothing at one place; what stands below it stays. -/
def drop (v : Volume) (p : Place) : Volume :=
  { v with entries := v.entries.filter (·.1 != p) }

def put (v : Volume) (p : Place) (e : Entry) : Volume :=
  { v with entries := (p, e) :: (v.drop p).entries }

/-- The name of a removed folder. No path has it, because the empty segments of a path name nothing.
-/
def removedName : Name := []

def isRemoved (p : Place) : Bool :=
  p.getLast? == some removedName

/-- The volume without some places. If the current folder is among them, it becomes a removed one.
-/
def without (v : Volume) (gone : Place → Bool) : Volume :=
  let kept := v.entries.filter fun entry => !gone entry.1
  match gone v.here, v.entry? v.here with
  | true, some folder =>
    let away := v.here.dropLast ++ [removedName]
    { v with entries := (away, folder) :: kept, here := away }
  | _, _ => { v with entries := kept }

def dropAll (v : Volume) (p : Place) : Volume :=
  v.without p.isPrefixOf

def clear (v : Volume) (p : Place) : Volume :=
  v.without fun place => place != p && p.isPrefixOf place

def allows (v : Volume) (mode : Mode) (access : Access) : Bool :=
  v.superuser || mode.testBit access.bit

/-- Whether a place is a folder in which names may be made and removed. -/
def isWritableFolder (v : Volume) (p : Place) : Bool :=
  match v.entry? p with
  | some (.folder mode) =>
    if p.isEmpty then v.superuser else v.allows mode .write && v.allows mode .search
  | _ => false

end Volume

end BlockPurge
