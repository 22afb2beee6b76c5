import Deskhand.Mission.Workspace

/-!
# Window steps

Opening programs, listing windows and bringing one to the front.
-/

namespace Deskhand

/-- Open a program with arguments that are given directly or stand in variables. -/
def openApp (args : Entries Value) : StepM Unit := do
  let r ← StepM.arguments [.textOrEmpty "app_type", .text "app_link", .textOr "cargs_type" "direct",
    .anyOrNull "cargs", .anyOrNull "wait", .textOrEmpty "result"] args
  let given := r.value "cargs"
  let cargs ←
    if r.text "cargs_type" = "direct" || given.isBlank then pure given.textList
    else given.textList.mapM fun name => do return (← StepM.evaluate name).display
  StepM.act (.openApp (r.text "app_link") cargs)
  StepM.pause (← StepM.secondsOf (r.value "wait"))
  StepM.store (r.text "result") (.bool true)

/-- Note in a flag that a step did not work, and fail. -/
def failWithFlag {α : Type} (flag : String) (failure : Failure) : StepM α := do
  StepM.store flag (.bool false)
  throw failure

/-- The windows that a position picks: all of them if there is none. -/
def pickWindows (windows : List Window) : Option Binary64 → Option (List Window)
  | none => some windows
  | some n =>
    let position := n.toInt64
    if position < 0 then none else (windows[position.toNat]?).map fun w => [w]

/-- Store what windows there are. -/
def getWindowsInfo (args : Entries Value) : StepM Unit := do
  let r ← StepM.arguments [.anyOrNull "nth_var", .text "results_var", .textOrEmpty "flag_var"] args
  let flag := r.text "flag_var"
  let nth ← StepM.numberOf (r.value "nth_var")
  match (← get).world.desktop.listWindows with
  | .error fault => failWithFlag flag (.platform fault)
  | .ok windows =>
    match pickWindows windows nth with
    | none => failWithFlag flag (.noWindow (nth.getD .zero))
    | some picked =>
      StepM.store (r.text "results_var") (.list (picked.map .ofWindow))
      StepM.store flag (.bool true)

/-- Bring a window to the front. -/
def bringWindowToFront (args : Entries Value) : StepM Unit := do
  let r ← StepM.arguments [.text "title_var", .textOrEmpty "flag_var"] args
  let flag := r.text "flag_var"
  let title := (← StepM.evaluate (r.text "title_var")).display
  try StepM.act (.bringToFront title)
  catch failure => failWithFlag flag failure
  StepM.store flag (.bool true)

end Deskhand
