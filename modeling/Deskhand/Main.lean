import Deskhand.CommandLine.Execute

/-!
# The command

Reads the working directory, carries out the command line, writes back what became of the files and
prints.
-/

namespace Deskhand.CommandLine

/-- Every file and directory below the working directory. -/
def readWorkingDirectory : IO Files := do
  let base ← IO.currentDir
  let mut files := Files.empty
  for path in ← base.walkDir do
    let place := Path.names (String.ofList (path.toString.toList.drop base.toString.length))
    let node ← if ← path.isDir then pure Node.directory else Node.file <$> IO.FS.readBinFile path
    files := files.put place node
  return files

/-- Make the working directory what it is after a command. -/
def writeWorkingDirectory (before after : Files) : IO Unit := do
  for (place, node) in after.nodes do
    if !(before.node? place).any node.same then
      match node with
      | .directory => IO.FS.createDirAll (Path.ofParts place)
      | .file bytes => IO.FS.writeBinFile (Path.ofParts place) bytes
  for (place, node) in before.nodes do
    if !node.isDirectory && (after.node? place).isNone then IO.FS.removeFile (Path.ofParts place)

/-- The variables of the environment that options know. -/
def readEnvironment : IO (Entries String) := do
  let mut environment : Entries String := []
  for o in CommandName.run.options do
    if let some name := o.envName then
      if let some value ← IO.getEnv name then environment := environment.put name value
  return environment

/-- How many turns a mission may take. -/
def turnLimit : Nat := 1000000000000

/-- Carry out a command line in the working directory; the code that it ends with. -/
def runHere (words : List String) : IO UInt32 := do
  let files ← readWorkingDirectory
  let entropy ← IO.rand 0 (Word.count64 - 1)
  match execute turnLimit entropy (← readEnvironment) files words with
  | none => return 1
  | some response =>
    writeWorkingDirectory files response.files
    for line in response.out do IO.println line
    for line in response.err do IO.eprintln line
    return UInt32.ofNat response.code

end Deskhand.CommandLine

def main (words : List String) : IO UInt32 := Deskhand.CommandLine.runHere words
