import Deskhand.Text.Blank
import Deskhand.Text.Case
import Deskhand.Text.Digits
import Deskhand.Text.WordChars

/-!
# Sets of characters

What a single character of a pattern may be. Sets are built from ranges and from the digits, word
characters and blanks of all scripts; a set may be closed under changes of case.
-/

namespace Deskhand

/-- A set of characters. -/
inductive CharSet where
  | nothing
  | range (lo hi : Char)
  | digit
  | word
  | space
  | inverse (set : CharSet)
  | union (first second : CharSet)
  | meet (first second : CharSet)
  /-- The characters that differ only by case from one in the set. -/
  | anyCase (set : CharSet)
  deriving DecidableEq

namespace CharSet

/-- What a change of case makes of a character; the character itself if that is no single one. -/
def convert (change : Char → List Char) (c : Char) : Char :=
  match change c with
  | [d] => d
  | _ => c

/-- A character and those that differ from it only by case. The letter `ı` differs from all others,
although its capital is that of `i`. -/
def caseForms (c : Char) : List Char :=
  if c = 'ı' then [c]
  else
    let small := convert Text.lowerChar c
    let large := convert Text.upperChar c
    [c, small, large, convert Text.lowerChar large, convert Text.upperChar small]

/-- Whether a character is in a set. -/
def holds : CharSet → Char → Bool
  | nothing, _ => false
  | range lo hi, c => decide (lo ≤ c) && decide (c ≤ hi)
  | digit, c => Text.isDecimalDigit c
  | word, c => Text.isWordChar c
  | space, c => Text.isBlank c
  | inverse s, c => !s.holds c
  | union s t, c => s.holds c || t.holds c
  | meet s t, c => s.holds c && t.holds c
  | anyCase s, c => (caseForms c).any s.holds

/-- The set of one character. -/
def just (c : Char) : CharSet := range c c

/-- The characters of any of several sets. -/
def unionOf (sets : List CharSet) : CharSet := sets.foldr union nothing

/-- The characters of the first set that are not in the second. -/
def without (s t : CharSet) : CharSet := s.meet t.inverse

/-- The characters that are in one of two sets only. -/
def either (s t : CharSet) : CharSet := (s.without t).union (t.without s)

/-- A set, or its inverse. -/
def negatedIf (negated : Bool) (s : CharSet) : CharSet := if negated then s.inverse else s

/-- A set, or its closure under changes of case. -/
def anyCaseIf (anyCase : Bool) (s : CharSet) : CharSet := if anyCase then s.anyCase else s

/-- The letters, digits and signs of ASCII by the names of their classes. -/
def named? : String → Option CharSet
  | "alnum" => some (unionOf [range '0' '9', range 'A' 'Z', range 'a' 'z'])
  | "alpha" => some ((range 'A' 'Z').union (range 'a' 'z'))
  | "ascii" => some (range '\x00' '\x7f')
  | "blank" => some ((just '\t').union (just ' '))
  | "cntrl" => some ((range '\x00' '\x1f').union (just '\x7f'))
  | "digit" => some (range '0' '9')
  | "graph" => some (range '!' '~')
  | "lower" => some (range 'a' 'z')
  | "print" => some (range ' ' '~')
  | "punct" => some (unionOf [range '!' '/', range ':' '@', range '[' '\x60',
    range '\x7b' '~'])
  | "space" => some ((range '\t' '\r').union (just ' '))
  | "upper" => some (range 'A' 'Z')
  | "word" => some (unionOf [range '0' '9', range 'A' 'Z', just '_', range 'a' 'z'])
  | "xdigit" => some (unionOf [range '0' '9', range 'A' 'F', range 'a' 'f'])
  | _ => none

end CharSet

end Deskhand
