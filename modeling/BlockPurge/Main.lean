import BlockPurge.Session

/-!
# The command

The outer layer of the command. It looks at the files that a command line names, asks for the
session, prints what the session prints and writes the files that the session changed. It decides
nothing. There is nothing here that executes a file, so only a dry run gets beyond its first launch.
-/
namespace BlockPurge.Main

/-- The content of a file, or what stands in its stead: a file that nobody may read, a folder, or
nothing. -/
def look (path : String) : IO (Option Entry) := do
  try
    return some (.file (← IO.FS.readBinFile path).toList Volume.newFileMode)
  catch
    | .permissionDenied .. => return some (.file [] 0)
    | .inappropriateType .. => return some (.folder Volume.newFolderMode)
    | _ => return none

def withWay (v : Volume) (place : Place) : Volume :=
  (List.range place.length).foldl (fun v n =>
    if n = 0 then v else v.put (place.take n) (.folder Volume.newFolderMode)) v

/-- The volume with the file that an absolute path leads to, steps up apart. -/
def withFile (v : Volume) (path : Bytes) : IO Volume := do
  let place := Path.components path
  match ← look (Path.display path) with
  | some entry => return (withWay v place).put place entry
  | none => return v

/-- The volume as far as a command line needs it: the current folder, the configuration and the
metadata file. -/
def survey (env : Environment) (words : List String) : IO Volume := do
  let here := Text.encode (← IO.currentDir).toString
  let place := Path.components here
  let bare := (withWay ⟨[], place, false⟩ place).put place (.folder Volume.newFolderMode)
  match Arguments.read words with
  | .error _ => return bare
  | .ok a =>
    let v ← match a.config with
      | some path => withFile bare (Path.absolute here (Text.encode path))
      | none => pure bare
    match Session.invocation env v a with
    | .error _ => return v
    | .ok i => withFile v i.settings.mpath

def commit (before after : Volume) : IO Unit :=
  for (place, entry) in after.entries do
    if before.entry? place ≠ some entry then
      if let .file content _ := entry then
        IO.FS.writeBinFile (Path.display (Volume.pathOf place)) ⟨content.toArray⟩

/-- The entries of the environment that the process was started with. -/
def environment : IO Environment := do
  try
    let content := (← IO.FS.readBinFile "/proc/self/environ").toList
    return (content.splitOn 0).filter fun entry => !entry.isEmpty
  catch _ => return []

def run (words : List String) : IO UInt32 := do
  let env ← environment
  let volume ← survey env words
  let drawn ← IO.rand 0 999999
  let host : Host :=
    { environment := env
      terminal := ← (← IO.getStdout).isTty
      errorTerminal := ← (← IO.getStderr).isTty
      draws := fun _ n => .ofNat (drawn + n)
      programs := fun _ _ => none }
  let session := Session.run host volume words
  commit volume session.volume
  IO.print session.stdout
  IO.eprint session.stderr
  return session.exit.toUInt32

end BlockPurge.Main

def main (words : List String) : IO UInt32 :=
  BlockPurge.Main.run words
