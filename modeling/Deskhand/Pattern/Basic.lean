import Deskhand.Pattern.CharSet
import Deskhand.Pattern.Assertion

/-!
# Patterns

What a pattern is and where it matches. From a place in a text a pattern may lead to several places;
they are listed in the order in which they are preferred, each once, so the first place in the list
is the end of the match that counts. A pattern matches a text at the first place from which it leads
anywhere.
-/

namespace Deskhand

/-- A pattern. -/
inductive Pattern where
  | empty
  | char (set : CharSet)
  | here (condition : Assertion)
  | seq (first second : Pattern)
  /-- The first alternative is preferred. -/
  | alt (first second : Pattern)
  /-- Any number of times; as often as possible if it is greedy, else as rarely as possible. -/
  | star (greedy : Bool) (body : Pattern)

namespace Pattern

/-- The pattern once, or not at all. -/
def optional (greedy : Bool) (p : Pattern) : Pattern := if greedy then alt p empty else alt empty p

/-- The pattern `n` times. -/
def times (p : Pattern) : Nat → Pattern
  | 0 => empty
  | n + 1 => seq p (times p n)

/-- The pattern up to `n` times. -/
def upTo (greedy : Bool) (p : Pattern) : Nat → Pattern
  | 0 => empty
  | n + 1 => optional greedy (seq p (upTo greedy p n))

/-- The places a repeated pattern leads to, given where one more time leads. A time that gets
nowhere is the last one. -/
def repeated (greedy : Bool) (once : Nat → List Nat) : Nat → Nat → List Nat
  | 0, i => [i]
  | fuel + 1, i =>
    let more := (once i).flatMap fun j => if j ≤ i then [i] else repeated greedy once fuel j
    (if greedy then more ++ [i] else i :: more).eraseDups

/-- The places that a pattern leads to from a place. -/
def ends (text : Array Char) : Pattern → Nat → List Nat
  | empty, i => [i]
  | char set, i =>
    match text[i]? with
    | some c => if set.holds c then [i + 1] else []
    | none => []
  | here p, i => if p.holds text i then [i] else []
  | seq p q, i => ((ends text p i).flatMap (ends text q)).eraseDups
  | alt p q, i => (ends text p i ++ ends text q i).eraseDups
  | star greedy p, i => repeated greedy (ends text p) (text.size - i) i

/-- The first match from a place on, in a text with `left` more characters. -/
def findFrom (text : Array Char) (p : Pattern) (i : Nat) : Nat → Option (Nat × Nat)
  | 0 =>
    match ends text p i with
    | j :: _ => some (i, j)
    | [] => none
  | left + 1 =>
    match ends text p i with
    | j :: _ => some (i, j)
    | [] => findFrom text p (i + 1) left

/-- The first match from a place on. -/
def find? (text : Array Char) (i : Nat) (p : Pattern) : Option (Nat × Nat) :=
  if i ≤ text.size then findFrom text p i (text.size - i) else none

/-- All matches from a place on, from the left, none of which overlap. An empty match does not stand
right behind another match. The fuel bounds their number. -/
def matchesFrom (text : Array Char) (p : Pattern) : Nat → Nat → Option Nat → List (Nat × Nat)
  | 0, _, _ => []
  | fuel + 1, i, last =>
    let found := match p.find? text i with
      | some (a, b) => if a = b ∧ last = some b then p.find? text (i + 1) else some (a, b)
      | none => none
    match found with
    | some (a, b) => (a, b) :: matchesFrom text p fuel b (some b)
    | none => []

/-- The texts of all matches. There is at most one for each place in the text. -/
def matchesIn (s : String) (p : Pattern) : List String :=
  let text := s.toList.toArray
  (matchesFrom text p (text.size + 1) 0 none).map fun (a, b) =>
    String.ofList (s.toList.drop a |>.take (b - a))

end Pattern

end Deskhand
