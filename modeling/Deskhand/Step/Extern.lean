import Deskhand.Step.Data

/-!
# External calls

Running statements in place, a program in the working directory, or an operation that is registered
from outside.
-/

namespace Deskhand

/-- The names of the variables that are passed to a program. -/
def argumentNames (v : Value) : List String := v.parsedIfStructured.textList

/-- Run a program on a file and take what it prints, as JSON if it is. -/
def callProgram (file : String) (names : List String) : StepM Value := do
  let args ← names.mapM fun name => do return (← StepM.evaluate name).display
  let program := (← read).config.externProgram
  let output ← StepM.fromFiles (runProgram program (file :: args))
  if output.status ≠ 0 then throw (.exited file output.status (Text.trim output.err))
  let out := Text.trim output.out
  return (Json.read out).getD (.text out)

/-- Run statements or a program and store the result. -/
def callExtern (args : Entries Value) : StepM Unit := do
  let r ← StepM.arguments [.text "file", .anyOrNull "args", .textOrEmpty "entity",
    .textOrEmpty "output"] args
  let file := r.text "file"
  let result ←
    if r.text "entity" = "in_line" then StepM.execute file
    else callProgram file (argumentNames (r.value "args"))
  StepM.store (r.text "output") result

/-- Run an operation that the interpreter does not know itself. -/
def runExternal (op : ExternalOp) (args : Entries Value) : StepM Unit :=
  match op with
  | .fails fault => throw (.platform fault)
  | .dryRun =>
    match (args.get? "result").bind Value.text? with
    | some name => if name = "" then return () else StepM.modifySymbols (·.set name .null)
    | none => return ()

end Deskhand
