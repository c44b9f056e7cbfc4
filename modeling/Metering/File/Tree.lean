import Metering.File.Path
import Metering.Table

/-!
# File — Tree

The files and directories of a machine, and the directory in which a program runs.  Paths are looked up component by
component, from the root if they start with a slash and from that directory if not; `Tree.read`, `Tree.write` and
`Tree.rename` are what programs do with files.  Several paths may name one file, and a failed operation changes
nothing.

A tree has directories and regular files only.  There are no symbolic links and no hard links, so that a file is at one
place and two paths name the same file exactly when they lead to the same place; there are no devices and no
permissions either, and there is always room to write.
-/

namespace Metering

/-- Why a path cannot be used. -/
inductive FileError where
  | notFound
  | busy
  | notDirectory
  | isDirectory
  | nameTooLong
  | holdsNul
deriving DecidableEq

/-- The wording of an error, and its number if it has one. -/
def FileError.message : FileError → String
  | notFound => "No such file or directory (os error 2)"
  | busy => "Device or resource busy (os error 16)"
  | notDirectory => "Not a directory (os error 20)"
  | isDirectory => "Is a directory (os error 21)"
  | nameTooLong => "File name too long (os error 36)"
  | holdsNul => "file name contained an unexpected NUL byte"

/-- What a place in a tree holds. -/
inductive FileEntry where
  | file (contents : ByteArray)
  | directory

/-- Places are lists of names from the root on, which is a directory itself.  No place stands for another one, and no
file is at two of them. -/
structure Tree where
  entries : Table (List String) FileEntry := .empty
  /-- The place of the directory in which the program runs. -/
  here : List String := []

namespace Tree

/-- What stands at a place. -/
def entry? (t : Tree) (place : List String) : Option FileEntry :=
  if place = [] then some .directory else t.entries.get? place

/-- Sets what stands at a place. -/
def put (t : Tree) (place : List String) (entry : FileEntry) : Tree :=
  { t with entries := t.entries.insert place entry }

/-- Leaves nothing at a place. -/
def remove (t : Tree) (place : List String) : Tree :=
  { t with entries := t.entries.erase place }

/-- What stands under the directory in which the program runs, with its place from there. -/
def inside (t : Tree) : List (List String × FileEntry) :=
  (t.entries.entries.filter fun e => t.here.isPrefixOf e.1 ∧ e.1 ≠ t.here).map fun e =>
    (e.1.drop t.here.length, e.2)

/-- The most bytes that a name has. -/
def nameLimit : Nat := 255

/-- The most bytes that a path has. -/
def pathLimit : Nat := 4095

/-- What has a name in a directory. -/
def find (t : Tree) (directory : List String) (name : String) :
    Except FileError (Option FileEntry) :=
  if nameLimit < name.utf8ByteSize then .error .nameTooLong
  else .ok (t.entry? (directory ++ [name]))

/-- Goes from a directory along components, all of which must be directories.  Above the root there is the root. -/
def enter (t : Tree) : (directory : List String) → List String → Except FileError (List String)
  | directory, [] => .ok directory
  | directory, c :: rest =>
      if c = "" ∨ c = "." then enter t directory rest
      else if c = ".." then enter t directory.dropLast rest
      else
        match t.find directory c with
        | .error e => .error e
        | .ok none => .error .notFound
        | .ok (some (.file _)) => .error .notDirectory
        | .ok (some .directory) => enter t (directory ++ [c]) rest

/-- How a path ends. -/
inductive Last where
  /-- In a name; a slash may follow. -/
  | name (name : String) (slash : Bool)
  /-- In no name, but in a component that stands for the directory or the one above it, or at the root. -/
  | relative
deriving DecidableEq

/-- The directory in which a path ends, and how it ends there.  Nothing is found under an empty path. -/
def resolve (t : Tree) (path : String) : Except FileError (List String × Last) :=
  if path.contains '\x00' then .error .holdsNul
  else if pathLimit < path.utf8ByteSize then .error .nameTooLong
  else
    let components := Path.components path
    let start := if components.head? = some "" then [] else t.here
    let kept := (components.reverse.dropWhile (· = "")).reverse
    match kept.getLast? with
    | none => if path = "" then .error .notFound else .ok (start, .relative)
    | some last =>
        if last = "." ∨ last = ".." then (t.enter start kept).map fun d => (d, .relative)
        else (t.enter start kept.dropLast).map fun d =>
          (d, .name last (decide (kept.length < components.length)))

/-- The contents of the file that a path names. -/
def read (t : Tree) (path : String) : Except FileError ByteArray := do
  match ← t.resolve path with
  | (_, .relative) => .error .isDirectory
  | (directory, .name name slash) =>
      match ← t.find directory name with
      | none => .error .notFound
      | some .directory => .error .isDirectory
      | some (.file contents) => if slash then .error .notDirectory else .ok contents

/-- Sets the contents of the file that a path names, which need not exist yet.  A path with a slash at its end is
taken for that of a directory. -/
def write (t : Tree) (path : String) (contents : ByteArray) : Except FileError Tree := do
  match ← t.resolve path with
  | (_, .relative) => .error .isDirectory
  | (directory, .name name slash) =>
      if slash then .error .isDirectory
      else
        match ← t.find directory name with
        | some .directory => .error .isDirectory
        | _ => .ok (t.put (directory ++ [name]) (.file contents))

/-- Gives the file that the first path names the name of the second, in place of a file that has it. -/
def rename (t : Tree) (source target : String) : Except FileError Tree := do
  let contents ← t.read source
  let (sourceDirectory, sourceLast) ← t.resolve source
  match sourceLast, ← t.resolve target with
  | .relative, _ | _, (_, .relative) => .error .busy
  | .name sourceName _, (directory, .name name slash) =>
      let found ← t.find directory name
      if slash then .error .notDirectory
      else
        match found with
        | some .directory => .error .isDirectory
        | _ =>
            let old := sourceDirectory ++ [sourceName]
            let place := directory ++ [name]
            if old = place then .ok t
            else .ok ((t.remove old).put place (.file contents))

/-- Makes a directory at a place, and those above it. -/
def makeDirectory (t : Tree) (place : List String) : Tree :=
  (List.range place.length).foldl (fun t n => t.put (place.take (n + 1)) .directory) t

end Tree

end Metering
