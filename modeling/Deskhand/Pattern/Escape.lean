import Deskhand.Number.Numeral
import Deskhand.Pattern.CharSet
import Deskhand.Pattern.Assertion
import Deskhand.Shorter
import Deskhand.Text.CodePoint

/-!
# Escapes in patterns

A backslash takes the meaning from a sign and gives one to a letter. Letters and digits without a
meaning may not be escaped.
-/

namespace Deskhand.Pattern

/-- What a backslash and what follows it denote. -/
inductive Escape where
  | literal (c : Char)
  | set (set : CharSet)
  | here (condition : Assertion)

namespace Escape

/-- The set of characters that an escape denotes; a condition is none. -/
def set? : Escape → Option CharSet
  | literal c => some (.just c)
  | set s => some s
  | here _ => none

/-- The escape that a backslash and a single character make. -/
def simple? : Char → Option Escape
  | 'd' => some (.set .digit)
  | 'D' => some (.set (.inverse .digit))
  | 'w' => some (.set .word)
  | 'W' => some (.set (.inverse .word))
  | 's' => some (.set .space)
  | 'S' => some (.set (.inverse .space))
  | 'A' => some (.here .textStart)
  | 'z' => some (.here .textEnd)
  | 'b' => some (.here .wordEdge)
  | 'B' => some (.here .noWordEdge)
  | '<' => some (.here .wordStart)
  | '>' => some (.here .wordEnd)
  | 'n' => some (.literal '\n')
  | 't' => some (.literal '\t')
  | 'r' => some (.literal '\r')
  | 'f' => some (.literal '\x0c')
  | 'v' => some (.literal '\x0b')
  | 'a' => some (.literal '\x07')
  | c => if c.toNat < 128 ∧ !c.isAlphanum then some (.literal c) else none

/-- A character by its number: in braces, or with as many digits as the width says. -/
def numbered? (width : Nat) (cs : List Char) : Option (Char × NoLonger cs) :=
  match cs with
  | '\x7b' :: rest =>
    let digits := rest.takeWhile (· ≠ '\x7d')
    if digits.length = rest.length then none
    else ((digitsIn? 16 digits).bind Text.charOf?).map fun c =>
      (c, ⟨rest.drop (digits.length + 1), by simp only [List.length_drop, List.length_cons]; omega⟩)
  | cs =>
    if cs.length < width then none
    else ((digitsIn? 16 (cs.take width)).bind Text.charOf?).map fun c =>
      (c, ⟨cs.drop width, by simp only [List.length_drop]; omega⟩)

/-- Whether a character may stand in the name of a condition. -/
def inEdgeName (c : Char) : Bool := c.isAlpha || c == '-'

/-- The condition that is named in braces behind the letter `b`. Braces in which no name begins say
how often the edge of a word is repeated, and are left. -/
def edge? (cs : List Char) : Option (Assertion × NoLonger cs) :=
  match cs with
  | '\x7b' :: rest =>
    let name := rest.takeWhile inEdgeName
    if rest = [] then none
    else if name = [] then some (.wordEdge, ⟨'\x7b' :: rest, Nat.le_refl _⟩)
    else if rest[name.length]? = some '\x7d' then
      (Assertion.named? (String.ofList name)).map fun p =>
        (p, ⟨rest.drop (name.length + 1), by simp only [List.length_drop, List.length_cons]; omega⟩)
    else none
  | cs => some (.wordEdge, ⟨cs, Nat.le_refl _⟩)

/-- Read an escape behind its backslash. -/
def read? : (cs : List Char) → Option (Escape × Shorter cs)
  | [] => none
  | 'b' :: rest => (edge? rest).map fun (p, after) => (.here p, .afterHead after)
  | c :: rest =>
    match Text.escapeWidth? c with
    | some width => (numbered? width rest).map fun (c, after) => (.literal c, .afterHead after)
    | none => (simple? c).map fun e => (e, .afterHead (.all rest))

end Escape

end Deskhand.Pattern
