import Deskhand.Mission.Workspace
import Deskhand.Text.Case

/-!
# Keyboard steps

Pressing keys and typing texts.
-/

namespace Deskhand

/-- The keys that a text lists, in small letters. -/
def keysIn (s : String) : List String :=
  ((Text.split "," s).map fun key => Text.lower (Text.trim key)).filter (· ≠ "")

/-- Press a key, or several keys together. -/
def keyInput (args : Entries Value) : StepM Unit := do
  let r ← StepM.arguments [.textOrEmpty "action", .text "action_value",
    .anyOrNull "wait_after"] args
  match keysIn (r.text "action_value") with
  | [] => throw .noKeys
  | [key] => StepM.act (.press key)
  | keys =>
    if keys.length ≤ maxChord then StepM.act (.hotkey keys) else throw (.tooManyKeys keys.length)
  StepM.pause (← StepM.secondsOf (r.value "wait_after"))
  StepM.record

/-- The value whose text is typed. -/
def typedValue (kind : String) (v : Value) : StepM Value :=
  if kind = "var" ∨ kind = "var name" then StepM.evaluate v.display
  else if kind = "expr" then StepM.valueOf v
  else return v

/-- The text that a value is typed as: the items of a list follow one another. -/
def typedText : Value → String
  | .list items => String.join (items.map Value.display)
  | v => v.display

/-- Type a text, and perhaps press a key after it. -/
def textInput (args : Entries Value) : StepM Unit := do
  let r ← StepM.arguments [.textOr "txt_ref_type" "direct", .any "text", .anyOrNull "speed",
    .textOrEmpty "key_after", .anyOrNull "wait_after"] args
  let v ← typedValue (r.text "txt_ref_type") (r.value "text")
  let speed ← StepM.secondsOf (r.value "speed")
  StepM.act (.typeText (typedText v) speed)
  let key := Text.trim (r.text "key_after")
  if key ≠ "" then StepM.act (.press (Text.lower key))
  StepM.pause (← StepM.secondsOf (r.value "wait_after"))
  StepM.record

end Deskhand
