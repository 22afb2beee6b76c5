import Deskhand.Step.Extern
import Deskhand.Step.Files
import Deskhand.Step.Keyboard
import Deskhand.Step.Pointer
import Deskhand.Step.Wait
import Deskhand.Step.Window

/-!
# Action steps

Which action a step type stands for.
-/

namespace Deskhand

/-- Do nothing but check the arguments. -/
def halt (args : Entries Value) : StepM Unit := do
  let _ ← StepM.arguments [.textOrEmpty "reason"] args

/-- The action of a step type that is built in. -/
def builtinAction? : String → Option (Entries Value → StepM Unit)
  | "Halt" => some halt
  | "Create Data" => some createData
  | "Fill Data" => some fillData
  | "Load Data" => some loadData
  | "Save Data" => some saveData
  | "List Dir" => some listDir
  | "Check Existence" => some checkExistence
  | "Text To Number" => some textToNumber
  | "Call Extern" => some callExtern
  | "Wait" => some wait
  | "Wait Until" => some waitUntil
  | "Create Dir" => some createDir
  | "Read File" => some readFile
  | "Write File" => some writeFile
  | "Delete File" => some deleteFile
  | "Extract Info" => some extractInfo
  | "Save Html" => some saveHtml
  | "Search" | "Search Anchor Info" => some search
  | "Search Word Line" => some searchWordLine
  | "Search Scroll" => some searchScroll
  | "Text Line Location Record" => some textLineLocation
  | "Calibrate Scroll" => some calibrateScroll
  | "Mouse Click" => some mouseClick
  | "Mouse Move" => some mouseMove
  | "Mouse Scroll" => some mouseScroll
  | "Key Input" => some keyInput
  | "Text Input" => some textInput
  | "Open App" | "App Open" => some openApp
  | "Get Windows Info" => some getWindowsInfo
  | "Bring Window To Front" => some bringWindowToFront
  | _ => none

/-- The action of a step type, built in or registered. -/
def action? (external : Entries ExternalOp) (kind : String) (args : Entries Value) :
    Option (StepM Unit) :=
  match builtinAction? kind with
  | some act => some (act args)
  | none => (external.get? kind).map fun op => runExternal op args

end Deskhand
