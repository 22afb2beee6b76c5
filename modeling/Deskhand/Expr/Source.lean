import Deskhand.Expr.Assign
import Deskhand.Expr.Lexer
import Deskhand.Expr.Names
import Deskhand.Expr.Parser
import Deskhand.Text.Blank

/-!
# Source texts

From the text of an expression to its tree. Quotes and spaces that word processors put in are made
plain first, and blanks at either end are dropped; the bytes that errors name are those of the text
after that.
-/

namespace Deskhand.Expr

/-- A curly quote is a straight one, a no-break or thin space is a space. -/
def plainCharacter (c : Char) : Char :=
  match c with
  | '\u2018' | '\u2019' => '\''
  | '\u201C' | '\u201D' => '"'
  | '\u00A0' | '\u2009' | '\u202F' => ' '
  | c => c

/-- The text that is read for a source. -/
def normalize (source : String) : List Char := Text.trimChars (source.toList.map plainCharacter)

/-- Read a source by one of the parsers. -/
def readWith {β : Type} (parser : Nat → List Located → Except ExprError β) (source : String) :
    Except ExprError β := do
  let cs := normalize source
  parser (byteLength cs) (← tokens cs)

/-- The expression that a text denotes. -/
def parse (source : String) : Except ExprError Expr := readWith parseExpression source

/-- The statements that a text denotes. -/
def parseStatements (source : String) : Except ExprError (List Statement) :=
  readWith parseSnippet source

/-- The target that a text denotes. -/
def readTarget (source : String) : Except ExprError Target := readWith parseTarget source

/-- The value of the expression that a text denotes. -/
def evaluate (source : String) (scope : Scope) : Except ExprError Value := do
  eval scope (← parse source)

/-- Run the statements that a text denotes: the names afterwards and the result. -/
def execute (source : String) (vars : Entries Value) : Entries Value × Except ExprError Value :=
  match parseStatements source with
  | .ok statements => run statements vars
  | .error e => (vars, .error e)

end Deskhand.Expr
