import Deskhand.World.Path

/-!
# Files

A tree of directories and files, kept as a list of places in the order in which they came to be. A
place is the list of names that leads to it from the working directory, or from the root if it
begins with the root's name. The working directory and the root are always there.
-/

namespace Deskhand

/-- Why something could not be done to a file. -/
inductive FileFault where
  | notFound
  | alreadyExists
  | notDirectory
  | isDirectory
  | notText
  deriving DecidableEq

def FileFault.message : FileFault → String
  | notFound => "No such file or directory (os error 2)"
  | alreadyExists => "File exists (os error 17)"
  | notDirectory => "Not a directory (os error 20)"
  | isDirectory => "Is a directory (os error 21)"
  | notText => "stream did not contain valid UTF-8"

/-- What is at a place. -/
inductive Node where
  | directory
  | file (bytes : ByteArray)

namespace Node

def isDirectory : Node → Bool
  | directory => true
  | file _ => false

/-- Same kind and same bytes. -/
def same : Node → Node → Bool
  | directory, directory => true
  | file a, file b => a.data == b.data
  | _, _ => false

end Node

/-- The names that lead to something. -/
abbrev Place := List String

/-- A tree of files. -/
structure Files where
  nodes : List (Place × Node)

namespace Files

def empty : Files := ⟨[]⟩

/-- What is at a place, if anything is. -/
def node? (place : Place) (files : Files) : Option Node :=
  if place = [] ∨ place = [Path.root] then some .directory
  else (files.nodes.find? (·.1 = place)).map (·.2)

/-- Put something at a place. -/
def put (place : Place) (node : Node) (files : Files) : Files :=
  if files.nodes.any (·.1 = place) then
    ⟨files.nodes.map fun e => if e.1 = place then (place, node) else e⟩
  else ⟨files.nodes ++ [(place, node)]⟩

/-- Take away what is at a place. -/
def erase (place : Place) (files : Files) : Files := ⟨files.nodes.filter (·.1 ≠ place)⟩

/-- The place one gets to from another by names, each but the last of which leads to a directory. -/
def walk (files : Files) (start : Place) : List String → Except FileFault Place
  | [] => .ok start
  | name :: rest =>
    match files.node? start with
    | none => .error .notFound
    | some (.file _) => .error .notDirectory
    | some .directory =>
      if name = ".." then walk files start.dropLast rest else walk files (start ++ [name]) rest

/-- Where a path leads; its last name need not be there. -/
def locate (path : String) (files : Files) : Except FileFault Place :=
  if path = "" then .error .notFound
  else files.walk (if Path.isAbsolute path then [Path.root] else []) (Path.names path)

/-- What is at a path. -/
def find (path : String) (files : Files) : Except FileFault (Place × Node) := do
  let place ← files.locate path
  match files.node? place with
  | none => .error .notFound
  | some .directory => .ok (place, .directory)
  | some (.file bytes) =>
    if Path.asksForDirectory path then .error .notDirectory else .ok (place, .file bytes)

def isFile (path : String) (files : Files) : Bool :=
  match files.find path with
  | .ok (_, .file _) => true
  | _ => false

def isDirectory (path : String) (files : Files) : Bool :=
  match files.find path with
  | .ok (_, .directory) => true
  | _ => false

/-- The text of a file. -/
def read (path : String) (files : Files) : Except FileFault String :=
  match files.find path with
  | .error e => .error e
  | .ok (_, .directory) => .error .isDirectory
  | .ok (_, .file bytes) =>
    match String.fromUTF8? bytes with
    | some text => .ok text
    | none => .error .notText

/-- Make a directory where nothing is yet. -/
def makeDirectory (path : String) (files : Files) : Except FileFault Files := do
  let place ← files.locate path
  match files.node? place with
  | some _ => .error .alreadyExists
  | none => .ok (files.put place .directory)

/-- Make a directory with all those above it, given their paths from the innermost outward; what is
there already is kept. -/
def makeAll : List String → Files → Except FileFault Files
  | [], _ => .error .notFound
  | path :: above, files =>
    if path = "" then .ok files
    else
      match files.makeDirectory path with
      | .ok files => .ok files
      | .error .notFound => do
        let files ← makeAll above files
        match files.makeDirectory path with
        | .ok files => .ok files
        | .error e => if files.isDirectory path then .ok files else .error e
      | .error e => if files.isDirectory path then .ok files else .error e

/-- A path and those of the directories above it, from the innermost outward. -/
def ancestry (path : String) : List String := path :: go (Path.parts path).reverse
where
  go : List String → List String
    | [] => []
    | [_] => [""]
    | _ :: before => Path.ofParts before.reverse :: go before

/-- Make a directory with all those above it. -/
def makeDirectories (path : String) (files : Files) : Except FileFault Files :=
  makeAll (ancestry path) files

/-- Make the directory that a path stands in, if it names one. -/
def makeParent (path : String) (files : Files) : Except FileFault Files :=
  match Path.parent? path with
  | some parent => if parent = "" then .ok files else files.makeDirectories parent
  | none => .ok files

/-- Write a file, given what becomes of its old bytes. -/
def change (path : String) (f : ByteArray → ByteArray) (files : Files) :
    Except FileFault Files := do
  let place ← files.locate path
  match files.node? place with
  | some .directory => .error .isDirectory
  | some (.file bytes) =>
    if Path.asksForDirectory path then .error .isDirectory
    else .ok (files.put place (.file (f bytes)))
  | none =>
    if Path.asksForDirectory path then .error .isDirectory
    else .ok (files.put place (.file (f .empty)))

/-- Write a text to a file, in place of what it holds. -/
def write (path text : String) (files : Files) : Except FileFault Files :=
  files.change path fun _ => text.toUTF8

/-- Add a text at the end of a file. -/
def append (path text : String) (files : Files) : Except FileFault Files :=
  files.change path (· ++ text.toUTF8)

/-- Take a file away. -/
def remove (path : String) (files : Files) : Except FileFault Files := do
  match ← files.find path with
  | (_, .directory) => .error .isDirectory
  | (place, .file _) => .ok (files.erase place)

/-- The names in a directory and what they lead to. -/
def list (path : String) (files : Files) : Except FileFault (List (String × Node)) := do
  match ← files.find path with
  | (_, .file _) => .error .notDirectory
  | (place, .directory) =>
    .ok <| files.nodes.filterMap fun (p, node) =>
      match p.reverse with
      | last :: before =>
        if before.reverse = place ∧ last ≠ Path.root then some (last, node) else none
      | [] => none

end Files

end Deskhand
