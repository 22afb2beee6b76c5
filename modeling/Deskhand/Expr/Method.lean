import Deskhand.Expr.Container
import Deskhand.Text.Blank
import Deskhand.Text.Case

/-!
# Methods

The functions that values of one kind offer.
-/

namespace Deskhand.Expr

/-- A text among the arguments. -/
def textArgument (method : String) (args : List Value) (i : Nat) : Except ExprError String :=
  match args[i]? with
  | some (.text s) => .ok s
  | _ => .error (.type (.textArgument method))

/-- The methods of texts. -/
def textMethod (s method : String) (args : List Value) : Except ExprError Value :=
  let textAt := textArgument method args
  match method with
  | "lower" => .ok (.text (Text.lower s))
  | "upper" => .ok (.text (Text.upper s))
  | "strip" => .ok (.text (Text.trim s))
  | "lstrip" => .ok (.text (Text.trimStart s))
  | "rstrip" => .ok (.text (Text.trimEnd s))
  | "isdigit" | "isnumeric" => .ok (.bool (s != "" && s.toList.all Char.isDigit))
  | "split" =>
    if args.isEmpty then .ok (.list ((Text.words s).map .text))
    else do .ok (.list ((Text.split (← textAt 0) s).map .text))
  | "startswith" => do .ok (.bool (Text.startsWith s (← textAt 0)))
  | "endswith" => do .ok (.bool (Text.endsWith s (← textAt 0)))
  | "replace" => do
    let pattern ← textAt 0
    let replacement ← textAt 1
    .ok (.text (Text.replace pattern replacement s))
  | "find" => do
    match Text.find? (← textAt 0) s with
    | some n => .ok (.int n)
    | none => .ok (.int (-1))
  | "count" => do .ok (.int (Text.count (← textAt 0) s))
  | "join" =>
    match args with
    | .list items :: _ => .ok (.text (s.intercalate (items.map Value.display)))
    | _ => .error (.type .joinArgument)
  | _ => .error (.unknownFunction s!"str.{method}")

/-- The methods of objects. -/
def objectMethod (es : Entries Value) (method : String) (args : List Value) :
    Except ExprError Value :=
  match method with
  | "get" =>
    match args with
    | [] => .error (.type .getArgument)
    | key :: rest => .ok ((es.get? key.display).getD (rest.head?.getD .null))
  | "keys" => .ok (.list (es.names.map .text))
  | "values" => .ok (.list es.values)
  | "items" => .ok (.list (es.map fun e => .list [.text e.1, e.2]))
  | "copy" => .ok (.object es)
  | _ => .error (.unknownFunction s!"dict.{method}")

/-- The methods of lists. -/
def listMethod (items : List Value) (method : String) (args : List Value) :
    Except ExprError Value :=
  match method with
  | "index" =>
    match args with
    | [] => .error (.type .indexArgument)
    | v :: _ =>
      match items.findIdx? (·.equal v) with
      | some n => .ok (.int n)
      | none => .error (.index .notInList)
  | "count" => .ok (.int (items.countP (·.equal (args.head?.getD .null))))
  | "copy" => .ok (.list items)
  | _ => .error (.unknownFunction s!"list.{method}")

/-- A method of a value. -/
def callMethod (receiver : Value) (method : String) (args : List Value) : Except ExprError Value :=
  match receiver with
  | .text s => textMethod s method args
  | .object es => objectMethod es method args
  | .list items => listMethod items method args
  | other => .error (.unknownFunction s!"{other.kindName}.{method}")

end Deskhand.Expr
