import Metering.Text.Split

/-!
# File — Path

Paths as texts: their components, and the file name that a path ends with.  `.` and empty components name the
directory that they stand in.
-/

namespace Metering.Path

/-- The components of a path between its slashes, empty ones too. -/
def components (path : String) : List String :=
  (Text.pieces '/' path.toList).map String.ofList

/-- The path without the slashes, and the `.` components after them, at its end. -/
def trimmed (path : List Char) : List Char :=
  (trim path.reverse).reverse
where
  trim : List Char → List Char
    | '/' :: rest => trim rest
    | '.' :: '/' :: rest => trim rest
    | rest => rest

/-- What stands before the last dot of a file name and what after it.  A dot at the start is part of the name. -/
def splitExtension (name : List Char) : List Char × Option (List Char) :=
  let extension := (name.reverse.takeWhile (· ≠ '.')).reverse
  let size := name.length - extension.length
  if size ≤ 1 then (name, none) else (name.take (size - 1), some extension)

/-- The directory part of a path, up to the last slash, and the file name after it, if there is one. -/
def splitFileName (path : List Char) : Option (List Char × List Char) :=
  let path := trimmed path
  let name := (path.reverse.takeWhile (· ≠ '/')).reverse
  if name = [] ∨ name = ['.'] ∨ name = ['.', '.'] then none
  else some (path.take (path.length - name.length), name)

/-- The path with another extension in place of that of its file name; a path without a file name stays as it is.
The old extension is dropped from the end of the path before the name is looked at again. -/
def withExtension (path extension : String) : String :=
  let path := path.toList
  let old := ((splitFileName path).bind fun p => (splitExtension p.2).2).getD []
  let bare := path.take (path.length - old.length)
  match splitFileName bare with
  | none => String.ofList bare
  | some (directory, name) =>
      String.ofList (directory ++ (splitExtension name).1 ++ '.' :: extension.toList)

end Metering.Path
