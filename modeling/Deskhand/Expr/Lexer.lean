import Deskhand.Expr.Error
import Deskhand.Number.Numeral
import Deskhand.Shorter
import Deskhand.Text.Letters

/-!
# From text to tokens

Tokens are read from left to right, each with the byte at which it begins. A line break separates
statements like a semicolon, except inside brackets.
-/

namespace Deskhand.Expr

/-- The number of bytes of a character. -/
def width (c : Char) : Nat := c.utf8Size

/-- The number of bytes of a text. -/
def byteLength : List Char → Nat
  | [] => 0
  | c :: rest => width c + byteLength rest

/-- What was read: its value, the byte after it, and the characters after it. -/
structure Lexeme (α : Type) where
  value : α
  finish : Nat
  rest : List Char

/-- The rest of a number: its characters without underscores, in reverse, and whether it is a real.
A point or an exponent may come once. -/
def numeral (acc : List Char) (real : Bool) (pos : Nat) : List Char → Lexeme (List Char × Bool)
  | [] => ⟨(acc, real), pos, []⟩
  | c :: rest =>
    if c.isDigit then numeral (c :: acc) real (pos + 1) rest
    else if c = '_' then numeral acc real (pos + 1) rest
    else if c = '.' ∧ !real then numeral ('.' :: acc) true (pos + 1) rest
    else if (c = 'e' ∨ c = 'E') ∧ 'e' ∉ acc then
      match rest with
      | '-' :: more => numeral ('-' :: 'e' :: acc) true (pos + 2) more
      | '+' :: more => numeral ('+' :: 'e' :: acc) true (pos + 2) more
      | rest => numeral ('e' :: acc) true (pos + 1) rest
    else ⟨(acc, real), pos, c :: rest⟩

/-- The rest of a word, in reverse. -/
def word (acc : List Char) (pos : Nat) : List Char → Lexeme (List Char)
  | [] => ⟨acc, pos, []⟩
  | c :: rest =>
    if Text.isAlphanumeric c ∨ c = '_' then word (c :: acc) (pos + width c) rest
    else ⟨acc, pos, c :: rest⟩

/-- The character that a backslash in front of this one stands for. -/
def unescape : Char → Char
  | 'n' => '\n'
  | 't' => '\t'
  | c => c

/-- The rest of a quoted text, in reverse; `none` if it is not closed. -/
def quotedText (quote : Char) (acc : List Char) (pos : Nat) :
    List Char → Option (Lexeme (List Char))
  | [] => none
  | c :: rest =>
    if c = quote then some ⟨acc, pos + width c, rest⟩
    else if c = '\\' then
      match rest with
      | [] => none
      | e :: more => quotedText quote (unescape e :: acc) (pos + 1 + width e) more
    else quotedText quote (c :: acc) (pos + width c) rest

theorem length_numeral (acc : List Char) (real : Bool) (pos : Nat) (cs : List Char) :
    (numeral acc real pos cs).rest.length ≤ cs.length := by
  fun_induction numeral acc real pos cs <;> simp_all <;> omega

theorem length_word (acc : List Char) (pos : Nat) (cs : List Char) :
    (word acc pos cs).rest.length ≤ cs.length := by
  fun_induction word acc pos cs <;> simp_all; omega

theorem length_quotedText {quote : Char} {acc cs : List Char} {pos : Nat}
    {l : Lexeme (List Char)} (h : quotedText quote acc pos cs = some l) :
    l.rest.length ≤ cs.length := by
  fun_induction quotedText quote acc pos cs <;> simp_all
  · subst h; simp
  · omega
  · omega

/-- The token that the characters of a number denote. -/
def ofNumeral (reversed : List Char) (real : Bool) : Except SyntaxFault Token :=
  let text := String.ofList reversed.reverse
  if real then
    match readReal? text with
    | some x => .ok (.real x)
    | none => .error (.badNumber text)
  else
    match readInt64? text with
    | some n => .ok (.int n)
    | none => .error (.badNumber text)

/-- The tokens of one character; the bracket depth after them follows from the token. -/
def sign? : Char → Option Token
  | '*' => some .mul
  | '%' => some .modulo
  | '(' => some .openParen
  | ')' => some .closeParen
  | '[' => some .openSquare
  | ']' => some .closeSquare
  | '\x7b' => some .openBrace
  | '\x7d' => some .closeBrace
  | ',' => some .comma
  | ':' => some .colon
  | '.' => some .dot
  | ';' => some .semicolon
  | _ => none

/-- The signs that a second character may lengthen: that character and the token with and without
it. -/
def longSign? : Char → Option (Char × Token × Token)
  | '+' => some ('=', .addAssign, .add)
  | '-' => some ('=', .subAssign, .sub)
  | '/' => some ('/', .floorDiv, .div)
  | '=' => some ('=', .equal, .assign)
  | '!' => some ('=', .notEqual, .not)
  | '<' => some ('=', .lessEqual, .less)
  | '>' => some ('=', .greaterEqual, .greater)
  | _ => none

/-- The signs that must be doubled. -/
def doubleSign? : Char → Option (String × Token)
  | '&' => some ("&&", .and)
  | '|' => some ("||", .or)
  | _ => none

/-- Whether a word can begin with this character. -/
def startsWord (c : Char) : Bool :=
  ('a' ≤ c && c ≤ 'z') || ('A' ≤ c && c ≤ 'Z') || c == '_'

/-- One step of reading: a token or nothing, the byte after it and the characters after it. -/
structure Scan (cs : List Char) where
  token : Option Token
  finish : Nat
  rest : NoLonger cs

/-- Read on from character `c`, which is at byte `pos` and inside `depth` brackets. -/
def scan (depth : Nat) (c : Char) (pos : Nat) (cs : List Char) : Except SyntaxFault (Scan cs) :=
  if c = ' ' ∨ c = '\t' ∨ c = '\r' then .ok ⟨none, pos + 1, .all cs⟩
  else if c = '\n' then
    .ok ⟨if 0 < depth then none else some .semicolon, pos + 1, .all cs⟩
  else if c.isDigit then
    let l := numeral [c] false (pos + 1) cs
    (ofNumeral l.value.1 l.value.2).map fun t => ⟨some t, l.finish, l.rest, length_numeral ..⟩
  else if startsWord c then
    let l := word [c] (pos + 1) cs
    .ok ⟨some (.ofWord (String.ofList l.value.reverse)), l.finish, l.rest, length_word ..⟩
  else if c = '"' ∨ c = '\'' then
    match h : quotedText c [] (pos + 1) cs with
    | some l =>
      .ok ⟨some (.text (String.ofList l.value.reverse)), l.finish, l.rest, length_quotedText h⟩
    | none => .error .unterminatedText
  else
    match sign? c, longSign? c, doubleSign? c with
    | some t, _, _ => .ok ⟨some t, pos + 1, .all cs⟩
    | _, some (second, long, short), _ =>
      match cs with
      | d :: rest =>
        if d = second then .ok ⟨some long, pos + 2, ⟨rest, Nat.le_succ _⟩⟩
        else .ok ⟨some short, pos + 1, .all _⟩
      | [] => .ok ⟨some short, pos + 1, .all _⟩
    | _, _, some (whole, t) =>
      match cs with
      | d :: rest =>
        if d = c then .ok ⟨some t, pos + 2, ⟨rest, Nat.le_succ _⟩⟩
        else .error (.halfOperator whole)
      | [] => .error (.halfOperator whole)
    | _, _, _ => .error (.unexpectedCharacter c)

/-- The bracket depth after a token. -/
def depthAfter (depth : Nat) : Option Token → Nat
  | some .openParen | some .openSquare | some .openBrace => depth + 1
  | some .closeParen | some .closeSquare | some .closeBrace => depth - 1
  | _ => depth

/-- The tokens of a text that begins at byte `pos` and inside `depth` brackets. -/
def tokensFrom (depth pos : Nat) (cs : List Char) : Except ExprError (List Located) :=
  match cs with
  | [] => .ok []
  | c :: cs =>
    match scan depth c pos cs with
    | .error fault => .error (.syntaxFault pos fault)
    | .ok s =>
      match tokensFrom (depthAfter depth s.token) s.finish s.rest.1 with
      | .error e => .error e
      | .ok more =>
        match s.token with
        | some t => .ok (⟨t, pos⟩ :: more)
        | none => .ok more
termination_by cs.length
decreasing_by exact Nat.lt_succ_of_le s.rest.2

/-- The tokens of a text. -/
def tokens (cs : List Char) : Except ExprError (List Located) := tokensFrom 0 0 cs

end Deskhand.Expr
