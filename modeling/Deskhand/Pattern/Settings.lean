import Deskhand.Shorter
import Deskhand.Text.Blank

/-!
# Settings of patterns

What a pattern means depends on settings, which it changes by letters in brackets. They hold up to
the end of the group in which they are changed.
-/

namespace Deskhand.Pattern

/-- The settings under which a part of a pattern is read. -/
structure Settings where
  /-- Letters match in either case. -/
  anyCase : Bool
  /-- `^` and `$` match at every line. -/
  lines : Bool
  /-- A dot matches the end of a line. -/
  dotAll : Bool
  /-- Repetitions are lazy unless a question mark makes them greedy. -/
  lazy : Bool
  /-- Blanks and comments mean nothing. -/
  spaced : Bool
  deriving DecidableEq

namespace Settings

def usual : Settings := ⟨false, false, false, false, false⟩

/-- Change the setting of a letter. -/
def change? (on : Bool) (letter : Char) (s : Settings) : Option Settings :=
  match letter with
  | 'i' => some { s with anyCase := on }
  | 'm' => some { s with lines := on }
  | 's' => some { s with dotAll := on }
  | 'U' => some { s with lazy := on }
  | 'x' => some { s with spaced := on }
  | 'u' => if on then some s else none
  | _ => none

/-- Read letters up to a colon, behind which a group follows, or a closing bracket. Letters behind
a minus are switched off. No letter may come twice, and something must be changed unless a group
follows. -/
def read? (seen : List Char) (s : Settings) :
    (cs : List Char) → Option (Settings × Bool × NoLonger cs)
  | [] => none
  | c :: rest =>
    if c = ':' ∨ c = ')' then
      if seen.head? = some '-' ∨ (c = ')' ∧ seen = []) then none
      else some (s, c = ':', .tail)
    else if seen.contains c then none
    else
      let changed := if c = '-' then some s else s.change? (!seen.contains '-') c
      match changed with
      | none => none
      | some s =>
        (read? (c :: seen) s rest).map fun (s, group, after) =>
          (s, group, after.afterHead)

/-- What follows a comment, which ends with its line. -/
def afterComment : (cs : List Char) → NoLonger cs
  | [] => .all []
  | '\n' :: _ => .tail
  | _ :: rest => (afterComment rest).afterHead

/-- What follows blanks and comments. -/
def afterGaps (cs : List Char) : NoLonger cs :=
  match cs with
  | [] => .all []
  | c :: rest =>
    if Text.isBlank c then (afterGaps rest).afterHead
    else if c = '#' then
      let after := afterComment rest
      ((afterGaps after.1).ofTail after.2).afterHead
    else .all (c :: rest)
termination_by cs.length
decreasing_by
  · exact Nat.lt_succ_self _
  · exact Nat.lt_succ_of_le after.2

/-- What follows that which means nothing under the settings. -/
def skip (s : Settings) (cs : List Char) : NoLonger cs := if s.spaced then afterGaps cs else .all cs

end Settings

end Deskhand.Pattern
