import BlockPurge.Volume.Walk

/-!
# Reading and changing a volume

The requests that a program makes to a file system, by path: reading and writing whole files,
permission bits, folders, links and removal. A request that is refused changes nothing.
-/
namespace BlockPurge.Volume

def newFileMode : Mode := 0o644

def newFolderMode : Mode := 0o755

def userBit : Mode := 0o4000

/-- The bit of a file that runs in the name of its group. A folder has it to hand its group down. -/
def groupBit : Mode := 0o2000

/-- The number of modes: nine bits of permissions and three above them. -/
def modeCount : Nat := 0o10000

/-- The permission bits of a new folder in a folder with the given ones. The bit that hands the
group down is handed down with it. -/
def newFolderModeIn (mode : Mode) : Mode :=
  if mode &&& groupBit = 0 then newFolderMode else newFolderMode + groupBit

/-- The permission bits of a file after somebody has written to it. Unless it was the superuser, the
file no longer runs in the name of its user, nor in that of its group if the group may execute it.
-/
def writtenMode (v : Volume) (mode : Mode) : Mode :=
  let withoutUser := mode - (mode &&& userBit)
  if v.superuser then mode
  else if mode.testBit 3 then withoutUser - (mode &&& groupBit)
  else withoutUser

def read (v : Volume) (path : Bytes) : Except Fault Bytes :=
  match v.locate .target path with
  | .error fault => .error fault
  | .ok (_, some (.file content mode)) =>
    if v.allows mode .read then .ok content else .error (.system .permissionDenied)
  | .ok (_, some (.folder mode)) =>
    .error (.system (if v.allows mode .read then .isADirectory else .permissionDenied))
  | .ok (_, some (.link _)) => .error (.system .linkLoop)
  | .ok (_, none) => .error (.system .notFound)

def readText (v : Volume) (path : Bytes) : Except Fault String :=
  match v.read path with
  | .error fault => .error fault
  | .ok content =>
    match Text.decode? content with
    | some text => .ok text
    | none => .error .notUtf8

/-- The permission bits of the file or folder that a path leads to. -/
def mode (v : Volume) (path : Bytes) : Except Fault Mode :=
  match v.locate .target path with
  | .error fault => .error fault
  | .ok (_, some (.file _ mode)) | .ok (_, some (.folder mode)) => .ok mode
  | .ok (_, some (.link _)) => .error (.system .linkLoop)
  | .ok (_, none) => .error (.system .notFound)

/-- The volume with a content in the file that a path leads to. A file that was there keeps its
permissions; a link to nothing is followed to where the new file belongs. -/
def write (v : Volume) (path content : Bytes) : Except Fault Volume :=
  match v.locate .file path with
  | .error fault => .error fault
  | .ok (place, some (.file _ mode)) =>
    if v.allows mode .write then .ok (v.put place (.file content (v.writtenMode mode)))
    else .error (.system .permissionDenied)
  | .ok (_, some (.folder _)) => .error (.system .isADirectory)
  | .ok (_, some (.link _)) => .error (.system .linkLoop)
  | .ok (place, none) =>
    if v.isWritableFolder place.dropLast then .ok (v.put place (.file content newFileMode))
    else .error (.system .permissionDenied)

/-- The volume with permission bits on the file or folder that a path leads to. -/
def setMode (v : Volume) (path : Bytes) (mode : Mode) : Except Fault Volume :=
  match v.locate .target path with
  | .error fault => .error fault
  | .ok (place, some (.file content _)) => .ok (v.put place (.file content (mode % modeCount)))
  | .ok (place, some (.folder _)) => .ok (v.put place (.folder (mode % modeCount)))
  | .ok (_, some (.link _)) => .error (.system .linkLoop)
  | .ok (_, none) => .error (.system .notFound)

def makeLink (v : Volume) (path target : Bytes) : Except Fault Volume :=
  match acceptable target with
  | .error fault => .error fault
  | .ok () =>
    match v.locate .entry path with
    | .error fault => .error fault
    | .ok (_, some _) => .error (.system .alreadyExists)
    | .ok (place, none) =>
      if v.isWritableFolder place.dropLast then .ok (v.put place (.link target))
      else .error (.system .permissionDenied)

/-- The permission bits at a place. Links and places with nothing have none. -/
def modeAt (v : Volume) (p : Place) : Mode :=
  match v.entry? p with
  | some (.file _ mode) | some (.folder mode) => mode
  | _ => 0

/-- The volume with a folder where a walk over names ends, unless one is there. A link that leads to
no folder stands in the way. -/
def makeFolder (v : Volume) (start : Place) (way : List Name) : Except Cause Volume :=
  match v.walk .entry start way with
  | .error cause => .error cause
  | .ok (place, none) =>
    if v.isWritableFolder place.dropLast then
      .ok (v.put place (.folder (newFolderModeIn (v.modeAt place.dropLast))))
    else .error .permissionDenied
  | .ok (_, some _) =>
    match v.walk .target start way with
    | .ok (_, some (.folder _)) => .ok v
    | _ => .error .alreadyExists

/-- Makes a folder at the end of a way from a place, and the folders on it, shortest part of the way
first. What was made stays if a later one is refused. -/
def makeFoldersAlong (v : Volume) (start : Place) (way : List Name) : (lengths : List Nat) →
    Except Fault Unit × Volume
  | [] => (.ok (), v)
  | n :: more =>
    match v.makeFolder start (way.take n) with
    | .error cause => (.error (.system cause), v)
    | .ok after => makeFoldersAlong after start way more

def makeFolders (v : Volume) (path : Bytes) : Except Fault Unit × Volume :=
  match acceptable path with
  | .error fault => (.error fault, v)
  | .ok () =>
    let way := names path
    v.makeFoldersAlong (origin v.here path) way ((List.range way.length).map (· + 1))

def lastName? (path : Bytes) : Option Name :=
  ((Path.segments path).filter fun s => !s.isEmpty).getLast?

def isEmptyAt (v : Volume) (p : Place) : Bool :=
  v.entries.all fun entry => entry.1.isEmpty || entry.1.dropLast != p

/-- Whether all that stands below a place can be removed: every folder there can be listed, and
names can be removed in it unless it is empty. -/
def mayClear (v : Volume) (p : Place) : Bool :=
  v.entries.all fun entry =>
    match entry.2 with
    | .folder mode =>
      !p.isPrefixOf entry.1 ||
        v.allows mode .read && (v.isEmptyAt entry.1 || v.isWritableFolder entry.1)
    | _ => true

/-- Removes what stands at a path: a file, a link, or a folder with all below it. A folder that the
path names by dots, or by a link and a slash, is emptied and stays, and so does one that its own
folder holds on to. -/
def remove (v : Volume) (path : Bytes) : Except Fault Unit × Volume :=
  match v.locate .entry path with
  | .error fault => (.error fault, v)
  | .ok (_, none) => (.error (.system .notFound), v)
  | .ok (place, some _) =>
    if place.isEmpty then (.error (.system .busy), v)
    else if !v.mayClear place then (.error (.system .permissionDenied), v)
    else if lastName? path ≠ place.getLast? then (.error (.system .busy), v.clear place)
    else if v.isWritableFolder place.dropLast then (.ok (), v.dropAll place)
    else (.error (.system .permissionDenied), v.clear place)

/-- Everything below a place, by the names that lead there from it. -/
def below (v : Volume) (p : Place) : List (Place × Entry) :=
  v.entries.filterMap fun (place, entry) =>
    if p.isPrefixOf place && p.length < place.length then some (place.drop p.length, entry)
    else none

end BlockPurge.Volume
