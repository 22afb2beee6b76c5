import Deskhand.Text.Search

/-!
# Paths

The text of a path and its parts. Parts are separated by slashes; empty ones and single dots mean
nothing, except that a path that begins with a slash starts at the root.
-/

namespace Deskhand.Path

/-- The part that stands for the root. -/
def root : String := "/"

/-- Whether a path starts at the root. -/
def isAbsolute (path : String) : Bool := Text.startsWith path root

/-- Whether a path asks for a directory by a slash at its end. -/
def asksForDirectory (path : String) : Bool := Text.endsWith path root

/-- The parts of a path that mean something, without the root. -/
def names (path : String) : List String :=
  (Text.split root path).filter fun part => part ≠ "" ∧ part ≠ "."

/-- The parts of a path: the root if it starts there, then the names. A dot at the beginning of a
path that goes on is kept. -/
def parts (path : String) : List String :=
  if isAbsolute path then root :: names path
  else if (Text.split root path).head? = some "." then "." :: names path
  else names path

/-- The path of the given parts. -/
def ofParts : List String → String
  | [] => ""
  | first :: rest =>
    if first = root then root ++ "/".intercalate rest else "/".intercalate (first :: rest)

/-- The path without its last part; nothing if there is none to take away. -/
def parent? (path : String) : Option String :=
  match (parts path).reverse with
  | [] => none
  | last :: before => if last = root then none else some (ofParts before.reverse)

/-- A path below another; one that starts at the root stays as it is. -/
def join (base path : String) : String :=
  if isAbsolute path then path
  else if base = "" ∨ asksForDirectory base then base ++ path
  else base ++ "/" ++ path

/-- The last part of a path, unless it is a step up or the root. -/
def fileName? (path : String) : Option String :=
  match (parts path).getLast? with
  | some last => if last = ".." ∨ last = root ∨ last = "." then none else some last
  | none => none

/-- A file name cut at its last dot; a dot at the beginning does not count. -/
def splitName (name : String) : String × Option String :=
  let reversed := name.toList.reverse
  let extension := reversed.takeWhile (· ≠ '.')
  match reversed.dropWhile (· ≠ '.') with
  | [] => (name, none)
  | [_] => (name, none)
  | _ :: stem => (String.ofList stem.reverse, some (String.ofList extension.reverse))

/-- What follows the last dot of the file name. -/
def extension? (path : String) : Option String := (fileName? path).bind fun n => (splitName n).2

/-- The file name up to its last dot. -/
def stem? (path : String) : Option String := (fileName? path).map fun n => (splitName n).1

end Deskhand.Path
