import Deskhand.Json.Number
import Deskhand.Shorter

/-!
# Reading JSON

Reading a JSON text as a value. Every reader takes the characters still to come and returns what is
left of them, with the proof that some were used; that bounds the recursion. Lists and objects may
be nested up to a limit. What is read holds every entry that is written; as a value, a name that
occurs twice in an object keeps its first place and its last value.
-/

namespace Deskhand.Json

/-- How deeply lists and objects may be nested. -/
def depthLimit : Nat := 127

/-- Blanks between tokens. -/
def isGap (c : Char) : Bool := c == ' ' || c == '\n' || c == '\t' || c == '\r'

/-- The first character that is not a blank, and what follows it. -/
def next? : (cs : List Char) → Option (Char × Shorter cs)
  | [] => none
  | c :: rest =>
    if isGap c then
      (next? rest).map fun (d, r) => (d, ⟨r.1, Nat.lt_succ_of_lt r.2⟩)
    else some (c, ⟨rest, Nat.lt_succ_self _⟩)

/-- The character that a backslash and this letter stand for. -/
def simpleEscape? : Char → Option Char
  | '"' => some '"'
  | '\\' => some '\\'
  | '/' => some '/'
  | 'b' => some '\x08'
  | 'f' => some '\x0c'
  | 'n' => some '\n'
  | 'r' => some '\r'
  | 't' => some '\t'
  | _ => none

/-- The rest of a string after its opening quote: the characters read, in reverse after `acc`, and
what follows the closing quote. A character outside the first plane is escaped by two halves, and
neither half may stand alone. -/
def readString (acc : List Char) : List Char → Option (String × List Char)
  | '"' :: rest => some (String.ofList acc.reverse, rest)
  | '\\' :: 'u' :: a :: b :: c :: d :: rest =>
    match digitsIn? 16 [a, b, c, d] with
    | none => none
    | some n =>
      if 0xD800 ≤ n ∧ n < 0xDC00 then
        match rest with
        | '\\' :: 'u' :: a :: b :: c :: d :: rest =>
          match digitsIn? 16 [a, b, c, d] with
          | none => none
          | some m =>
            if 0xDC00 ≤ m ∧ m < 0xE000 then
              readString (Char.ofNat (0x10000 + (n - 0xD800) * 0x400 + (m - 0xDC00)) :: acc) rest
            else none
        | _ => none
      else if 0xDC00 ≤ n ∧ n < 0xE000 then none
      else readString (Char.ofNat n :: acc) rest
  | '\\' :: e :: rest =>
    match simpleEscape? e with
    | none => none
    | some c => readString (c :: acc) rest
  | c :: rest => if c.toNat < 0x20 then none else readString (c :: acc) rest
  | [] => none

theorem length_readString {acc cs rest : List Char} {s : String}
    (h : readString acc cs = some (s, rest)) : rest.length < cs.length := by
  fun_induction readString acc cs <;> simp_all <;> omega

/-- A string, its opening quote having been read. -/
def string? (cs : List Char) : Option (String × Shorter cs) :=
  match h : readString [] cs with
  | some (s, rest) => some (s, ⟨rest, length_readString h⟩)
  | none => none

/-- A number that begins with the given character. -/
def number? (c : Char) (cs : List Char) : Option (Number × Shorter (c :: cs)) :=
  match readNumber (c :: cs) with
  | some (n, rest) => if h : rest.length < (c :: cs).length then some (n, ⟨rest, h⟩) else none
  | none => none

/-- The rest of a constant's name after its first letter. -/
def word? (word cs : List Char) : Option (Shorter cs) :=
  let rest := cs.drop word.length
  if h : rest.length < cs.length then
    if word.isPrefixOf cs then some ⟨rest, h⟩ else none
  else none

mutual

/-- A value that holds at most `depth` levels of lists and objects. -/
def value? (depth : Nat) (cs : List Char) : Option (Value × Shorter cs) :=
  match next? cs with
  | none => none
  | some (c, rest) =>
    if c = '"' then (string? rest.1).map fun (s, r) => (.text s, rest.andThen r)
    else if c = 'n' then (word? "ull".toList rest.1).map fun r => (.null, rest.andThen r)
    else if c = 't' then (word? "rue".toList rest.1).map fun r => (.bool true, rest.andThen r)
    else if c = 'f' then (word? "alse".toList rest.1).map fun r => (.bool false, rest.andThen r)
    else if c = '[' then
      match depth with
      | 0 => none
      | depth + 1 =>
        match next? rest.1 with
        | some (']', r) => some (.list [], rest.andThen r)
        | _ => (items? depth rest.1).map fun (vs, r) => (.list vs, rest.andThen r)
    else if c = '\x7b' then
      match depth with
      | 0 => none
      | depth + 1 =>
        match next? rest.1 with
        | some ('\x7d', r) => some (.object [], rest.andThen r)
        | _ => (entries? depth rest.1).map fun (es, r) => (.object es, rest.andThen r)
    else
      (number? c rest.1).map fun (n, r) =>
        (.number n, ⟨r.1, Nat.lt_of_lt_of_le r.2 rest.2⟩)
termination_by (cs.length, 0)
decreasing_by all_goals exact .left _ _ rest.2

/-- The items of a list up to its end, with at least one. -/
def items? (depth : Nat) (cs : List Char) : Option (List Value × Shorter cs) :=
  match value? depth cs with
  | none => none
  | some (v, after) =>
    match next? after.1 with
    | some (']', r) => some ([v], after.andThen r)
    | some (',', r) =>
      (items? depth r.1).map fun (vs, more) => (v :: vs, after.andThen (r.andThen more))
    | _ => none
termination_by (cs.length, 1)
decreasing_by
  · exact .right _ Nat.one_pos
  · exact .left _ _ (after.andThen r).2

/-- The entries of an object up to its end, with at least one. -/
def entries? (depth : Nat) (cs : List Char) : Option (Entries Value × Shorter cs) :=
  match next? cs with
  | some ('"', opened) =>
    match string? opened.1 with
    | none => none
    | some (name, named) =>
      match next? named.1 with
      | some (':', colon) =>
        match value? depth colon.1 with
        | none => none
        | some (v, valued) =>
          let after : Shorter cs := opened.andThen (named.andThen (colon.andThen valued))
          match next? after.1 with
          | some ('\x7d', r) => some ([(name, v)], after.andThen r)
          | some (',', r) =>
            (entries? depth r.1).map fun (es, more) =>
              ((name, v) :: es, after.andThen (r.andThen more))
          | _ => none
      | _ => none
  | _ => none
termination_by (cs.length, 1)
decreasing_by
  · exact .left _ _ (opened.andThen (named.andThen colon)).2
  · exact .left _ _ (after.andThen r).2

end

/-- What is written in a JSON text, which may have blanks around it. -/
def readWritten (text : String) : Option Value :=
  match value? depthLimit text.toList with
  | some (v, rest) => if (next? rest.1).isNone then some v else none
  | none => none

mutual

/-- The value in which every name of an object occurs once. -/
def merge : Value → Value
  | .list items => .list (mergeItems items)
  | .object entries => .object (mergeEntries [] entries)
  | v => v

def mergeItems : List Value → List Value
  | [] => []
  | v :: rest => merge v :: mergeItems rest

/-- Bind the names of entries one after another. -/
def mergeEntries (bound : Entries Value) : List (String × Value) → Entries Value
  | [] => bound
  | (name, v) :: rest => mergeEntries (bound.put name (merge v)) rest

end

/-- The value that a JSON text denotes. -/
def read (text : String) : Option Value := (readWritten text).map merge

end Deskhand.Json
