import Deskhand.Expr.Token

/-!
# Errors of the expression language

What can be wrong with an expression, when it is read and when it is evaluated, and how it is said.
-/

namespace Deskhand

namespace Expr

/-- What is wrong with the text of an expression. -/
inductive SyntaxFault where
  | badNumber (text : String)
  | unterminatedText
  | halfOperator (whole : String)
  | unexpectedCharacter (c : Char)
  | unexpectedEnd
  | unexpectedToken (t : Token)
  | expected (what : String)
  | onlyNamesCalled
  | trailingInput
  deriving DecidableEq

/-- What has the wrong kind, or too large a size, for what is done with it. -/
inductive TypeFault where
  | index (kind : String)
  | unordered (left right : String)
  | unorderedNumber
  | textMember (kind : String)
  | noMembers (kind : String)
  | repetition (kind : String) (length times : Nat)
  | operands (operation left right : String)
  | noSubscript (kind : String)
  | noSlice (kind : String)
  | arity (function : String) (least most given : Nat)
  | intLiteral (text : String)
  | intOfNothing
  | intArgument (kind : String)
  | realLiteral (text : String)
  | realArgument (kind : String)
  | emptySequence (function : String)
  | noLength (kind : String)
  | absArgument
  | roundArgument
  | notIterable (kind : String)
  | rangeTooLarge (start stop : Int)
  | textArgument (method : String)
  | joinArgument
  | getArgument
  | indexArgument
  | negation (kind : String)
  | noAttribute (kind key : String)
  | noItemAssignment (kind : String)
  deriving DecidableEq

/-- What is not where it was looked for. -/
inductive IndexFault where
  | listIndex (i : Int)
  | textIndex (i : Int)
  | key (name : String)
  | notInList
  | assignedIndex (i : Int)
  deriving DecidableEq

end Expr

/-- Why an expression or a statement has no result. -/
inductive ExprError where
  | syntaxFault (offset : Nat) (fault : Expr.SyntaxFault)
  | undefinedName (name : String)
  | type (fault : Expr.TypeFault)
  | index (fault : Expr.IndexFault)
  | divisionByZero
  | unknownFunction (name : String)
  | invalidTarget (tree : String)
  deriving DecidableEq

namespace Expr

def SyntaxFault.message : SyntaxFault → String
  | badNumber text => s!"bad number '{text}'"
  | unterminatedText => "unterminated string literal"
  | halfOperator whole => s!"expected '{whole}'"
  | unexpectedCharacter c => s!"unexpected character '{c}'"
  | unexpectedEnd => "unexpected end of expression"
  | unexpectedToken t => s!"unexpected token {t.shown}"
  | expected what => s!"expected {what}"
  | onlyNamesCalled => "only named functions can be called"
  | trailingInput => "unexpected trailing input"

def TypeFault.message : TypeFault → String
  | index kind => s!"indices must be integers, not {kind}"
  | unordered left right => s!"'<' not supported between {left} and {right}"
  | unorderedNumber => "cannot order NaN"
  | textMember kind => s!"'in <string>' requires string as left operand, not {kind}"
  | noMembers kind => s!"argument of type {kind} is not iterable"
  | repetition kind length times =>
    s!"repeating a {kind} of length {length} by {times} is too large"
  | operands operation left right =>
    s!"unsupported operand types for {operation}: {left} and {right}"
  | noSubscript kind => s!"'{kind}' object is not subscriptable"
  | noSlice kind => s!"'{kind}' object cannot be sliced"
  | arity function least most given =>
    s!"{function}() takes {least}..={most} arguments ({given} given)"
  | intLiteral text => s!"invalid literal for int(): '{text}'"
  | intOfNothing => "int() argument must not be None"
  | intArgument kind => s!"int() argument must be a string or a number, not {kind}"
  | realLiteral text => s!"could not convert string to float: '{text}'"
  | realArgument kind => s!"float() argument must be a number, not {kind}"
  | emptySequence function => s!"{function}() arg is an empty sequence"
  | noLength kind => s!"object of type '{kind}' has no len()"
  | absArgument => "bad operand type for abs()"
  | roundArgument => "round() needs a number"
  | notIterable kind => s!"'{kind}' object is not iterable"
  | rangeTooLarge start stop => s!"range({start}, {stop}) is too large"
  | textArgument method => s!"{method}() expects a string argument"
  | joinArgument => "join() expects a list"
  | getArgument => "get() expects a key"
  | indexArgument => "index() expects a value"
  | negation kind => s!"bad operand type for unary -: '{kind}'"
  | noAttribute kind key => s!"'{kind}' object has no attribute '{key}'"
  | noItemAssignment kind => s!"'{kind}' object does not support item assignment"

def IndexFault.message : IndexFault → String
  | listIndex i => s!"list index {i} out of range"
  | textIndex i => s!"string index {i} out of range"
  | key name => s!"key '{name}' not found"
  | notInList => "value is not in list"
  | assignedIndex i => s!"list assignment index {i} out of range"

end Expr

/-- The text of an error. -/
def ExprError.message : ExprError → String
  | syntaxFault offset fault => s!"Syntax error at offset {offset}: {fault.message}"
  | undefinedName name => s!"Name is not defined: {name}"
  | type fault => s!"Type error: {fault.message}"
  | index fault => s!"Index error: {fault.message}"
  | divisionByZero => "Division by zero"
  | unknownFunction name => s!"Unknown function: {name}"
  | invalidTarget tree => s!"Invalid assignment target: {tree}"

end Deskhand
