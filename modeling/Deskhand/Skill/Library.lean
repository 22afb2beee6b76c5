import Deskhand.Skill.Document

/-!
# Skill libraries

Documents by name. Loading a directory takes every skill file below it under its path without the
extension, and also under the name in its header, unless that name is taken already.
-/

namespace Deskhand

/-- Documents by name. -/
structure SkillLibrary where
  skills : Entries SkillDocument

namespace SkillLibrary

def empty : SkillLibrary := ⟨[]⟩

/-- Put a document under its own name. -/
def insert (doc : SkillDocument) (library : SkillLibrary) : SkillLibrary :=
  ⟨library.skills.put doc.name doc⟩

/-- The document of a name; slashes around the name do not count. -/
def get? (name : String) (library : SkillLibrary) : Option SkillDocument :=
  library.skills.get? (Text.trimMatches '/' name)

/-- The names, in ascending order. -/
def names (library : SkillLibrary) : List String := library.skills.sorted.names

/-- Put a loaded document under its path, and before that under the name in its header if no other
document has it. -/
def insertLoaded (doc : SkillDocument) (library : SkillLibrary) : SkillLibrary :=
  let title := doc.header.name
  let library :=
    if title = "" ∨ title = doc.name ∨ library.skills.has title then library
    else library.insert { doc with name := title }
  library.insert doc

/-- The extensions of skill files. -/
def extensions : List String := ["psk", "json"]

/-- What the entries of a directory hold: the directories in it, and the skill files. -/
def sift (directory : String) : List (String × Node) → List String × List String
  | [] => ([], [])
  | (name, node) :: rest =>
    let path := Path.join directory name
    let (directories, skills) := sift directory rest
    match node with
    | .directory => (path :: directories, skills)
    | .file _ =>
      if (Path.splitName name).2.any (extensions.contains ·) then
        (directories, path :: skills)
      else (directories, skills)

/-- The parts of a path without the extension of the last one. If a dot is left of it, it is dropped,
unless it is all that there is. -/
def keyParts (below : List String) : List String :=
  match below.reverse with
  | [] => []
  | last :: before =>
    let stem := (Path.splitName last).1
    if stem = "." ∧ before ≠ [] then before.reverse else before.reverse ++ [stem]

/-- The name of a file below a directory: its path from there without the extension. -/
def keyBelow (root path : String) : String :=
  Path.ofParts (keyParts ((Path.parts path).drop (Path.parts root).length))

/-- Load skill files one after another. -/
def loadFiles (root : String) (files : Files) :
    List String → SkillLibrary → Except SkillFault SkillLibrary
  | [], library => .ok library
  | path :: rest, library =>
    match files.read path with
    | .error e => .error (.file e)
    | .ok text => do
      let doc ← SkillDocument.parse (keyBelow root path) text
      loadFiles root files rest (library.insertLoaded doc)

/-- Load the skill files of directories and of what is below them; a directory that was found last
is searched first. The fuel bounds how many directories are searched. -/
def loadPending (root : String) (files : Files) :
    Nat → List String → SkillLibrary → Except SkillFault SkillLibrary
  | 0, _, library => .ok library
  | _, [], library => .ok library
  | fuel + 1, directory :: pending, library =>
    match files.list directory with
    | .error e => .error (.file e)
    | .ok entries => do
      let (directories, skills) := sift directory entries
      let library ← loadFiles root files skills library
      loadPending root files fuel (directories.reverse ++ pending) library

/-- Load every skill file below a directory. Each directory is searched once, so there are no more
searches than places. -/
def load (root : String) (files : Files) : Except SkillFault SkillLibrary :=
  loadPending root files (files.nodes.length + 1) [root] .empty

end SkillLibrary

end Deskhand
