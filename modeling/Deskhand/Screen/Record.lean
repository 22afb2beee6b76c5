import Deskhand.Record.Shape
import Deskhand.Screen.Geometry

/-!
# Screen records

What a reader of the screen reports: named regions of the window on top. A list of records that
stands in a variable may hold other things too; they are passed over.
-/

namespace Deskhand

/-- One region of the window on top, in the pixels of that window. -/
structure ScreenRecord where
  name : String
  kind : String
  box : Box
  text : Option String
  structured : Option Value

namespace ScreenRecord

/-- The form in which records stand in variables and documents. -/
def shape : Shape where
  name := "ScreenRecord"
  fields := [.text "name", .text "type", .required "loc" (.listOfLength 4 .int64),
    .defaulted "text" (.orNull .text) .null, .anyOrNull "txt_struct"]

/-- The record that a value denotes. -/
def ofValue? (v : Value) : Option ScreenRecord :=
  match shape.read v with
  | .error _ => none
  | .ok record =>
    match record.items "loc" with
    | [.number (.int top), .number (.int left), .number (.int bottom), .number (.int right)] =>
      some {
        name := record.text "name"
        kind := record.text "type"
        box := .ofSides top left bottom right
        text := record.text? "text"
        structured := match record.value "txt_struct" with
          | .null => none
          | v => some v }
    | _ => none

/-- The value that denotes a record. -/
def toValue (r : ScreenRecord) : Value :=
  .object ([("name", .text r.name), ("type", .text r.kind), ("loc", r.box.sides)] ++
    (r.text.map fun s => ("text", Value.text s)).toList ++
    (r.structured.map fun v => ("txt_struct", v)).toList)

/-- The records in a list. -/
def listOfValue : Value → List ScreenRecord
  | .list items => items.filterMap ofValue?
  | _ => []

/-- A list of records as a value. -/
def listToValue (records : List ScreenRecord) : Value := .list (records.map toValue)

end ScreenRecord

end Deskhand
