import Deskhand.Text.Quoted
import Deskhand.Value.Basic

/-!
# Writing values

The compact JSON text of a value, its indented text, and the text that expressions show for it.
-/

namespace Deskhand.Value

mutual

/-- The JSON text of a value without any blanks. -/
def compact : Value → String
  | .null => "null"
  | .bool true => "true"
  | .bool false => "false"
  | .number n => n.render
  | .text s => Text.jsonQuoted s
  | .list items => "[" ++ compactItems items ++ "]"
  | .object entries => "\x7b" ++ compactEntries entries ++ "\x7d"

/-- Items separated by commas. -/
def compactItems : List Value → String
  | [] => ""
  | [v] => compact v
  | v :: rest => compact v ++ "," ++ compactItems rest

/-- Entries separated by commas. -/
def compactEntries : List (String × Value) → String
  | [] => ""
  | [(name, v)] => Text.jsonQuoted name ++ ":" ++ compact v
  | (name, v) :: rest => Text.jsonQuoted name ++ ":" ++ compact v ++ "," ++ compactEntries rest

end

/-- The text of a value in expressions: a text is itself, the constants have names of their own and
all else is written as JSON. -/
def display : Value → String
  | .null => "None"
  | .bool true => "True"
  | .bool false => "False"
  | .text s => s
  | v => v.compact

/-- A new line indented by two blanks for every level. -/
def newline (level : Nat) : String := "\n" ++ String.ofList (List.replicate (2 * level) ' ')

mutual

/-- The JSON text of a value with one item or entry a line. -/
def indented (level : Nat) : Value → String
  | .list [] => "[]"
  | .list items => "[" ++ indentedItems (level + 1) items ++ newline level ++ "]"
  | .object [] => "\x7b\x7d"
  | .object entries => "\x7b" ++ indentedEntries (level + 1) entries ++ newline level ++ "\x7d"
  | v => v.compact

/-- Items on lines of their own. -/
def indentedItems (level : Nat) : List Value → String
  | [] => ""
  | [v] => newline level ++ indented level v
  | v :: rest => newline level ++ indented level v ++ "," ++ indentedItems level rest

/-- Entries on lines of their own. -/
def indentedEntries (level : Nat) : List (String × Value) → String
  | [] => ""
  | [(name, v)] => newline level ++ Text.jsonQuoted name ++ ": " ++ indented level v
  | (name, v) :: rest =>
    newline level ++ Text.jsonQuoted name ++ ": " ++ indented level v ++ "," ++
      indentedEntries level rest

end

end Deskhand.Value
