import Deskhand.Number.Notation
import Deskhand.Text.Quoted

/-!
# Tokens

The words and signs of the expression language. Words and signs that mean the same (`and` and `&&`)
are one token.
-/

namespace Deskhand.Expr

/-- A token of the expression language. -/
inductive Token where
  | int (n : Int)
  | real (x : Binary64)
  | text (s : String)
  | name (s : String)
  | yes | no | nothing
  | and | or | not | isIn | isSame
  | add | sub | mul | div | floorDiv | modulo
  | equal | notEqual | less | lessEqual | greater | greaterEqual
  | assign | addAssign | subAssign
  | openParen | closeParen | openSquare | closeSquare | openBrace | closeBrace
  | comma | colon | dot | semicolon
  deriving DecidableEq

namespace Token

/-- The token as syntax errors name it. -/
def shown : Token → String
  | int n => s!"Int({n})"
  | real x => s!"Float({NumberLayout.tree.render x})"
  | text s => s!"Str({Text.shown s})"
  | name s => s!"Ident({Text.shown s})"
  | yes => "True"
  | no => "False"
  | nothing => "None"
  | and => "And"
  | or => "Or"
  | not => "Not"
  | isIn => "In"
  | isSame => "Is"
  | add => "Add"
  | sub => "Sub"
  | mul => "Mul"
  | div => "Div"
  | floorDiv => "FloorDiv"
  | modulo => "Modulo"
  | equal => "Equal"
  | notEqual => "NotEqual"
  | less => "Less"
  | lessEqual => "LessEqual"
  | greater => "Greater"
  | greaterEqual => "GreaterEqual"
  | assign => "Assign"
  | addAssign => "AddAssign"
  | subAssign => "SubAssign"
  | openParen => "LParen"
  | closeParen => "RParen"
  | openSquare => "LSquare"
  | closeSquare => "RSquare"
  | openBrace => "LBrace"
  | closeBrace => "RBrace"
  | comma => "Comma"
  | colon => "Colon"
  | dot => "Dot"
  | semicolon => "Semicolon"

/-- The words that are tokens of their own; every other word is a name. -/
def ofWord (word : String) : Token :=
  match word with
  | "True" | "true" => yes
  | "False" | "false" => no
  | "None" | "null" => nothing
  | "and" => and
  | "or" => or
  | "not" => not
  | "in" => isIn
  | "is" => isSame
  | _ => name word

end Token

/-- A token and the byte at which it begins in the source. -/
structure Located where
  token : Token
  offset : Nat
  deriving DecidableEq

end Deskhand.Expr
