import BlockPurge.Digest.Md5
import BlockPurge.Failure
import BlockPurge.Text.Hex
import BlockPurge.Volume.Access

/-!
# Backups

Before anything is erased the metadata file is copied beside itself. The copy is named for its
content: the stem of the file, an underscore and the first digits of the digest, so copies of
different contents do not overwrite each other.
-/
namespace BlockPurge.Backup

/-- The digits of a content's digest that a backup is named with. -/
def contentDigest (content : Bytes) : String :=
  Text.hexBytes ((Digest.md5 content).take 4)

def fileName (path content : Bytes) : Name :=
  Text.encode (Path.stem path ++ "_" ++ contentDigest content ++ ".meta")

/-- The path of the backup of a path with a given content, in the same folder. -/
def pathFor (path content : Bytes) : Bytes :=
  match Path.parent? path with
  | some folder => Path.join folder (fileName path content)
  | none => fileName path content

/-- The volume with a backup of the file at a path, and the path of the backup. -/
def take (v : Volume) (path : Bytes) : Except Failure (Bytes × Volume) :=
  match v.read path with
  | .error fault => .error (.io fault)
  | .ok content =>
    match v.write (pathFor path content) content with
    | .error fault => .error (.io fault)
    | .ok after => .ok (pathFor path content, after)

def note (path backup : Bytes) : String :=
  "backed up " ++ Path.display path ++ " to " ++ Path.display backup

end BlockPurge.Backup
