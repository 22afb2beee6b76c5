import Deskhand.Json.Reader
import Deskhand.Mission.Workspace
import Deskhand.Text.Case

/-!
# File steps

Loading and saving data, listing, making and checking directories, reading, writing and deleting
files.
-/

namespace Deskhand

/-- The path that a step names: the text itself if it is direct, else what it evaluates to. -/
def pathOf (raw nameType : String) : StepM String := do
  if nameType = "direct" then return Text.trim raw
  return (← StepM.evaluate raw).display

/-- The indented JSON text of a value. -/
def jsonDocument (v : Value) : String := v.indented 0

/-- Declare a variable with the value in a file. -/
def loadData (args : Entries Value) : StepM Unit := do
  let r ← StepM.arguments [.text "data_name", .text "file_link"] args
  let text ← StepM.fromFiles (·.read (r.text "file_link"))
  match Json.read text with
  | some v => StepM.modifySymbols (·.declare (Text.trim (r.text "data_name")) v)
  | none => throw .notJson

/-- Write a value to a file. -/
def saveData (args : Entries Value) : StepM Unit := do
  let r ← StepM.arguments [.text "data_name", .text "file_link"] args
  let v ← StepM.evaluate (r.text "data_name")
  let path := r.text "file_link"
  StepM.changeFiles (·.makeParent path)
  StepM.changeFiles (·.write path (jsonDocument v))

/-- Whether a file that was changed within the last second counts as recent. -/
def keepsRecent (hours : Option Binary64) : Bool :=
  match hours with
  | none => true
  | some h => decide (0 < (h * .ofInt 3600).toInt64)

/-- Whether a file name has an extension, whatever its case. -/
def hasExtension (extension name : String) : Bool :=
  extension = "" || (Path.splitName name).2.any fun e => Text.lower e == extension

/-- List the files in a directory by name, the names in descending order if that is asked for.
Files change only during a mission, so all of them are about equally old. -/
def listDir (args : Entries Value) : StepM Unit := do
  let r ← StepM.arguments [.text "dir", .textOrEmpty "extension", .textOrEmpty "sort_by",
    .textOrEmpty "sort_order", .anyOrNull "most_recent", .text "result"] args
  let extension := Text.lower (Text.trimStartMatches '.' (Text.trim (r.text "extension")))
  let recent := keepsRecent (← StepM.numberOf (r.value "most_recent"))
  let entries ← StepM.fromFiles (·.list (r.text "dir"))
  let names := entries.filterMap fun (name, node) =>
    match node with
    | .file _ => if recent && hasExtension extension name then some name else none
    | .directory => none
  let sorted := if r.text "sort_by" = "time" then names else names.mergeSort fun a b => a ≤ b
  let ordered := if r.text "sort_order" = "max-min" then sorted.reverse else sorted
  StepM.store (r.text "result") (.list (ordered.map fun name =>
    .text (Path.join (r.text "dir") name)))

/-- Check whether a file or a directory is there. -/
def checkExistence (args : Entries Value) : StepM Unit := do
  let r ← StepM.arguments [.textOrEmpty "fntype", .text "file", .text "result"] args
  let kind := r.text "fntype"
  let path ←
    if Text.occursIn "var" kind then do pure (← StepM.evaluate (r.text "file")).display
    else pure (r.text "file")
  let files := (← get).world.files
  let there := if Text.occursIn "dir" kind then files.isDirectory path else files.isFile path
  StepM.store (r.text "result") (.bool there)

/-- Make a directory, unless it is there already. -/
def createDir (args : Entries Value) : StepM Unit := do
  let r ← StepM.arguments [.text "dir", .textOr "name_type" "direct", .textOrEmpty "result"] args
  let path ← pathOf (r.text "dir") (r.text "name_type")
  if !(← get).world.files.isDirectory path then StepM.changeFiles (·.makeDirectories path)
  StepM.store (r.text "result") (.text path)

/-- Read a file as a text or as JSON. A file that is not there leaves an empty text. -/
def readFile (args : Entries Value) : StepM Unit := do
  let r ← StepM.arguments [.text "filename", .textOr "name_type" "direct", .textOrEmpty "filetype",
    .text "datasink", .textOrEmpty "flag"] args
  let path ← pathOf (r.text "filename") (r.text "name_type")
  let flag (on : Bool) : StepM Unit := StepM.store (r.text "flag") (.bool on)
  StepM.store (r.text "datasink") (.text "")
  let files := (← get).world.files
  if !files.isFile path then flag false
  else
    let content : Except Failure Value :=
      match files.read path with
      | .error fault => .error (.file fault)
      | .ok text =>
        if r.text "filetype" = "json" then
          match Json.read text with
          | some v => .ok v
          | none => .error .notJson
        else .ok (.text text)
    match content with
    | .ok v =>
      StepM.store (r.text "datasink") v
      flag true
    | .error failure =>
      flag false
      throw failure

/-- The text that a value is written to a file as. -/
def fileContent (fileType : String) (v : Value) : String :=
  match fileType, v with
  | "json", v => jsonDocument v
  | "txt", .list items => String.join (items.map Value.display)
  | _, v => v.display

/-- Write a value to a file or add it at the end of one. -/
def writeFile (args : Entries Value) : StepM Unit := do
  let r ← StepM.arguments [.text "filename", .textOr "name_type" "direct", .textOrEmpty "filetype",
    .text "datasource", .textOrEmpty "mode", .textOrEmpty "result"] args
  let path ← pathOf (r.text "filename") (r.text "name_type")
  let v ← StepM.evaluate (r.text "datasource")
  let content := fileContent (r.text "filetype") v
  try
    StepM.changeFiles (·.makeParent path)
    if r.text "mode" = "overwrite" then StepM.changeFiles (·.write path content)
    else StepM.changeFiles (·.append path content)
  catch failure =>
    StepM.store (r.text "result") (.bool false)
    throw failure
  StepM.store (r.text "result") (.bool true)

/-- Delete a file, if it is there. -/
def deleteFile (args : Entries Value) : StepM Unit := do
  let r ← StepM.arguments [.text "filename", .textOr "name_type" "direct",
    .textOrEmpty "result"] args
  let path ← pathOf (r.text "filename") (r.text "name_type")
  if (← get).world.files.isFile path then StepM.changeFiles (·.remove path)
  StepM.store (r.text "result") (.bool true)

end Deskhand
