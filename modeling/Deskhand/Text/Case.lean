import Deskhand.Text.CaseTable

/-!
# Lower and upper case

Case conversion of whole texts. Every character is mapped by itself, some to several characters
(`ß` to `SS`); only a capital sigma looks at its surroundings, and becomes `ς` at the end of a word.
-/

namespace Deskhand.Text

/-- The single character that the runs give for code point `n`, if one of them holds it. -/
def lookupRun (runs : List CaseRun) (n : Nat) : Option Nat :=
  (runs.find? fun r => r.first ≤ n && n ≤ r.last && (n - r.first) % r.step == 0).map
    fun r => ((n : Int) + r.distance).toNat

/-- The mapping of a character outside ASCII: an expansion, else a run, else itself. -/
def mapCase (expansions : List (Nat × List Nat)) (runs : List CaseRun) (c : Char) : List Char :=
  match expansions.lookup c.toNat with
  | some codes => codes.map Char.ofNat
  | none => match lookupRun runs c.toNat with
    | some n => [Char.ofNat n]
    | none => [c]

/-- The lower case of a character by itself. -/
def lowerChar (c : Char) : List Char :=
  if c.toNat < 128 then [c.toLower] else mapCase lowerExpansions lowerRuns c

/-- The upper case of a character by itself. -/
def upperChar (c : Char) : List Char :=
  if c.toNat < 128 then [c.toUpper] else mapCase upperExpansions upperRuns c

/-- Whether the first character that casing does not look through has a case. -/
def meetsCased (cs : List Char) : Bool :=
  match cs.find? fun c => !inBounds caseIgnorableBounds c.toNat with
  | some c => inBounds casedBounds c.toNat
  | none => false

/-- Lower case with the characters already passed, nearest first: a capital sigma after a cased
character and not before one is final. -/
def lowerFrom (before : List Char) : List Char → List Char
  | [] => []
  | c :: rest =>
    (if c = 'Σ' then (if meetsCased before && !meetsCased rest then ['ς'] else ['σ'])
      else lowerChar c) ++ lowerFrom (c :: before) rest

/-- The text in lower case. -/
def lower (s : String) : String := String.ofList (lowerFrom [] s.toList)

/-- The text in upper case. -/
def upper (s : String) : String := String.ofList (s.toList.flatMap upperChar)

end Deskhand.Text
