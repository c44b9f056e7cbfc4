import Metering.Attribute.Basic
import Metering.Fault
import Metering.File.Tree

/-!
# Attribute — Save

Saving a snapshot to a file in two steps: it is written to a file beside the target first, and that file then takes
the target's name, so that a reader never sees half of a snapshot.  When the second step fails, the file beside the
target stays.
-/

namespace Metering.Snapshot

/-- The file beside the target: the target with another extension. -/
def temporaryPath (path : String) : String := Path.withExtension path "json.tmp"

/-- The contents of a snapshot's file. -/
def contents (s : Snapshot) : ByteArray := s.toJson.pretty.toUTF8

/-- The first step. -/
def writeTemporary (s : Snapshot) (path : String) (t : Tree) : Except Fault Tree :=
  (t.write (temporaryPath path) s.contents).mapError fun e =>
    .io ("write " ++ temporaryPath path ++ " failed: " ++ e.message)

/-- The second step. -/
def publish (path : String) (t : Tree) : Except Fault Tree :=
  (t.rename (temporaryPath path) path).mapError fun e =>
    .io ("rename to " ++ path ++ " failed: " ++ e.message)

/-- Both steps, and the files after them. -/
def save (s : Snapshot) (path : String) (t : Tree) : Except Fault Unit × Tree :=
  match s.writeTemporary path t with
  | .error fault => (.error fault, t)
  | .ok t =>
      match publish path t with
      | .error fault => (.error fault, t)
      | .ok t => (.ok (), t)

end Metering.Snapshot
