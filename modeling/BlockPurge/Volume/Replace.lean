import BlockPurge.Volume.Access
import BlockPurge.Volume.Canonical

/-!
# Replacing a file as a whole

A file is replaced by preparing a temporary file beside it and renaming that over it. The temporary
file has letters in its name that are drawn at random, and drawn again while the name is taken; what
is drawn is an input here. The primitive steps are listed before any is performed, so that the
volume after each of them can be spoken of. A path that leads to something is first brought to its
canonical form: through links, the file that they lead to is replaced, and the links stay. Where the
rename is refused, the temporary file is discarded again.
-/
namespace BlockPurge.Volume

inductive Step where
  /-- A new empty file that only its user may read. -/
  | create (place : Place)
  | fill (place : Place) (content : Bytes)
  | setMode (place : Place) (mode : Mode)
  | rename (source target : Place)
  | discard (place : Place)
  deriving DecidableEq, Repr

def temporaryMode : Mode := 0o600

/-- The volume after a step. Steps that concern no file leave it as it is. -/
def perform (v : Volume) : Step → Volume
  | .create place => v.put place (.file [] temporaryMode)
  | .fill place content =>
    match v.entry? place with
    | some (.file _ mode) => v.put place (.file content mode)
    | _ => v
  | .setMode place mode =>
    match v.entry? place with
    | some (.file content _) => v.put place (.file content mode)
    | _ => v
  | .rename source target =>
    match v.entry? source with
    | some entry => (v.drop source).put target entry
    | none => v
  | .discard place => v.drop place

def performAll (v : Volume) (steps : List Step) : Volume :=
  steps.foldl perform v

/-- The steps that a request takes, and whether it is granted in the end. -/
structure Plan where
  steps : List Step
  verdict : Except Fault Unit

/-- What the names of temporary files are drawn from. -/
def alphabet : List Char :=
  "ABCDEFGHIJKLMNOPQRSTUVWXYZabcdefghijklmnopqrstuvwxyz0123456789".toList

/-- The six letters or digits that are drawn at random for the name of a temporary file. -/
structure Letters where
  row : List Char
  length_row : row.length = 6
  drawn : ∀ c ∈ row, c ∈ alphabet
  deriving DecidableEq, Repr

theorem digitChar_mem_alphabet {d : Nat} (h : d < 10) : d.digitChar ∈ alphabet := by
  have digits : (List.range 10).all (fun d => alphabet.contains d.digitChar) = true := by decide
  exact List.contains_iff_mem.mp (List.all_eq_true.mp digits d (List.mem_range.mpr h))

/-- The last six decimal digits of a number. -/
def Letters.ofNat (n : Nat) : Letters where
  row := (List.range 6).reverse.map fun k => (n / Nat.pow 10 k % 10).digitChar
  length_row := by simp
  drawn c hc := by
    obtain ⟨k, -, rfl⟩ := List.mem_map.mp hc
    exact digitChar_mem_alphabet (Nat.mod_lt _ (by decide))

/-- What is drawn at each attempt to name one temporary file. -/
abbrev Draw := Nat → Letters

/-- The name of the temporary file for a file with the given stem. -/
def temporaryName (stem : String) (letters : Letters) : Name :=
  Text.encode ("." ++ stem ++ "_" ++ String.ofList letters.row ++ ".tmp")

def temporaryAttempts : Nat := 65536

/-- A free place for a temporary file in a folder, from the `n`-th name on. A fault tells the path
that was tried, or the folder if every name was taken. -/
def temporaryFrom (v : Volume) (folder : Bytes) (stem : String) (draw : Draw) :
    (attempts n : Nat) → Except Fault Place
  | 0, _ => .error (.located .crowded folder)
  | attempts + 1, n =>
    let path := Path.join folder (temporaryName stem (draw n))
    match v.locate .entry path with
    | .error fault => .error (.located fault path)
    | .ok (_, some _) => temporaryFrom v folder stem draw attempts (n + 1)
    | .ok (place, none) =>
      if v.isWritableFolder place.dropLast then .ok place
      else .error (.located (.system .permissionDenied) path)

/-- The folder in which a path ends, as a path; the current folder if the path names none. -/
def folderOf (path : Bytes) : Bytes :=
  match Path.parent? path with
  | some [] | none => [Path.dot]
  | some folder => folder

def absoluteFolderOf (v : Volume) (path : Bytes) : Except Fault Bytes :=
  if Path.isAbsolute (folderOf path) then .ok (folderOf path)
  else match v.currentPath with
    | .ok here => .ok (Path.join here (folderOf path))
    | .error fault => .error fault

/-- A free place for the temporary file that is to replace what a path names. -/
def temporaryFor (v : Volume) (draw : Draw) (path : Bytes) : Except Fault Place :=
  match v.absoluteFolderOf path with
  | .ok folder => v.temporaryFrom folder (Path.stem path) draw temporaryAttempts 0
  | .error fault => .error fault

/-- Where a rename to a name in a folder lands, the folder being the end of a walk. -/
def landing (v : Volume) (folder : Place) (name : Name) (asFolder : Bool) : Except Cause Place :=
  match v.entry? folder with
  | none => .error .notFound
  | some (.file ..) | some (.link _) => .error .notADirectory
  | some (.folder mode) =>
    if !v.allows mode .search then .error .permissionDenied
    else if name = [Path.dot] ∨ name = [Path.dot, Path.dot] then .error .busy
    else if isRemoved folder then .error .notFound
    else if longestName < name.length then .error .nameTooLong
    else if asFolder then .error .notADirectory
    else if !v.isWritableFolder folder then .error .permissionDenied
    else match v.entry? (folder ++ [name]) with
      | some (.folder _) => .error .isADirectory
      | _ => .ok (folder ++ [name])

/-- Where a file renamed to a path lands. A link at the end of the path is replaced itself. -/
def renameTarget (v : Volume) (path : Bytes) : Except Fault Place :=
  if path.contains 0 then .error .zeroInPath
  else if longestPath < path.length then .error (.system .nameTooLong)
  else
    let used := (Path.segments path).filter fun s => !s.isEmpty
    match used.getLast? with
    | none => .error (.system (if path.isEmpty then .notFound else .busy))
    | some name =>
      match v.walk .target (origin v.here path) used.dropLast with
      | .error cause => .error (.system cause)
      | .ok (folder, _) =>
        match v.landing folder name (path.getLast? == some Path.slash) with
        | .ok place => .ok place
        | .error cause => .error (.system cause)

/-- The path whose entry is replaced on behalf of a path: its canonical form, or the path itself if
it leads to nothing. -/
def replacedPath (v : Volume) (path : Bytes) : Bytes :=
  match v.canonical path with
  | .ok canonical => canonical
  | .error _ => path

/-- The steps that give the file at a path a new content. A file that was there hands down its
permission bits. -/
def replacement (v : Volume) (draw : Draw) (path content : Bytes) : Plan :=
  let target := v.replacedPath path
  match v.temporaryFor draw target with
  | .error fault => ⟨[], .error fault⟩
  | .ok temporary =>
    let handedDown := match v.mode target with
      | .ok mode => [Step.setMode temporary mode]
      | .error _ => []
    let prepared := Step.create temporary :: Step.fill temporary content :: handedDown
    match v.renameTarget target with
    | .ok place => ⟨prepared ++ [.rename temporary place], .ok ()⟩
    | .error fault => ⟨prepared ++ [.discard temporary], .error fault⟩

/-- The volume with a new content in the file at a path, replaced as a whole. -/
def replace (v : Volume) (draw : Draw) (path content : Bytes) : Except Fault Unit × Volume :=
  let plan := v.replacement draw path content
  (plan.verdict, v.performAll plan.steps)

end BlockPurge.Volume
