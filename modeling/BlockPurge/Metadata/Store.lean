import BlockPurge.Metadata.Basic
import BlockPurge.Volume.Replace

/-!
# Metadata on a volume

Reading a metadata file and recording it again. Recording replaces the file as a whole, so a reader
finds the old text or the new one, never a part of either.
-/
namespace BlockPurge.Metadata

def load (v : Volume) (path : Bytes) : Except Failure Metadata :=
  match v.readText path with
  | .error fault => .error (.io fault)
  | .ok text =>
    match parse text with
    | .error fault => .error fault.failure
    | .ok m => .ok m

def replacement (v : Volume) (draw : Volume.Draw) (m : Metadata) (path : Bytes) : Volume.Plan :=
  v.replacement draw path (Text.encode m.render)

def persist (v : Volume) (draw : Volume.Draw) (m : Metadata) (path : Bytes) :
    Except Failure Unit × Volume :=
  match v.replace draw path (Text.encode m.render) with
  | (.ok (), after) => (.ok (), after)
  | (.error fault, after) => (.error (.io fault), after)

def loadedNote (path : Bytes) (m : Metadata) : String :=
  "loaded " ++ Path.display path ++ ": device " ++ m.device ++ ", " ++ toString m.size ++ " blocks"

/-- What is logged when metadata has been recorded, by the path that was replaced. -/
def persistedNote (path : Bytes) (m : Metadata) : String :=
  "persisted " ++ toString m.size ++ " blocks to " ++ Path.display path

end BlockPurge.Metadata
