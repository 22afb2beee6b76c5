import Deskhand.Text.WordChars

/-!
# Conditions on places in texts

What a pattern may ask of the place between two characters without taking a character.
-/

namespace Deskhand

/-- A condition on a place in a text. -/
inductive Assertion where
  | textStart
  | textEnd
  | lineStart
  | lineEnd
  /-- A word begins or ends here. -/
  | wordEdge
  | noWordEdge
  | wordStart
  | wordEnd
  /-- No word goes on up to here. -/
  | notBehindWord
  /-- No word goes on from here. -/
  | notBeforeWord
  deriving DecidableEq

namespace Assertion

/-- Whether the character behind a place satisfies a condition. -/
def behind (text : Array Char) (i : Nat) (p : Char → Bool) : Bool := (text[i]?).any p

/-- Whether the character in front of a place satisfies a condition. -/
def before (text : Array Char) (i : Nat) (p : Char → Bool) : Bool :=
  match i with
  | 0 => false
  | j + 1 => (text[j]?).any p

/-- Whether a place of a text satisfies the condition. -/
def holds (text : Array Char) (i : Nat) (condition : Assertion) : Bool :=
  let wordBefore := before text i Text.isWordChar
  let wordBehind := behind text i Text.isWordChar
  match condition with
  | textStart => i = 0
  | textEnd => i = text.size
  | lineStart => i = 0 || before text i (· == '\n')
  | lineEnd => i = text.size || behind text i (· == '\n')
  | wordEdge => wordBefore != wordBehind
  | noWordEdge => wordBefore == wordBehind
  | wordStart => !wordBefore && wordBehind
  | wordEnd => wordBefore && !wordBehind
  | notBehindWord => !wordBefore
  | notBeforeWord => !wordBehind

/-- The condition that a name in braces stands for. -/
def named? : String → Option Assertion
  | "start" => some wordStart
  | "end" => some wordEnd
  | "start-half" => some notBehindWord
  | "end-half" => some notBeforeWord
  | _ => none

end Assertion

end Deskhand
