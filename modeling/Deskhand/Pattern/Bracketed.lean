import Deskhand.Pattern.Escape
import Deskhand.Pattern.Settings

/-!
# Sets in square brackets

A set lists characters, ranges, escapes, named classes and further sets. Such lists may be combined
by the operations of sets, which apply from the left. Sets that are open wait on a stack.
-/

namespace Deskhand.Pattern

/-- An operation on sets. -/
inductive SetOp where
  | meet
  | without
  | either

def SetOp.apply : SetOp → CharSet → CharSet → CharSet
  | meet, s, t => s.meet t
  | without, s, t => s.without t
  | either, s, t => s.either t

/-- A set that is open: what stands left of an operation, and what was listed since. -/
structure OpenSet where
  negated : Bool
  left : Option (CharSet × SetOp)
  listed : CharSet

namespace OpenSet

def add (s : CharSet) (o : OpenSet) : OpenSet := { o with listed := o.listed.union s }

/-- The set so far. -/
def current (anyCase : Bool) (o : OpenSet) : CharSet :=
  let right := o.listed.anyCaseIf anyCase
  match o.left with
  | none => right
  | some (left, op) => op.apply left right

/-- An operation follows. -/
def combine (anyCase : Bool) (op : SetOp) (o : OpenSet) : OpenSet :=
  ⟨o.negated, some (o.current anyCase, op), .nothing⟩

/-- The set when it is closed. -/
def close (anyCase : Bool) (o : OpenSet) : CharSet :=
  (o.current anyCase).negatedIf o.negated

/-- Whether a set is negated, and what follows the sign that says so. -/
def negation (cs : List Char) : Bool × NoLonger cs :=
  match cs with
  | '^' :: _ => (true, .tail)
  | cs => (false, .all cs)

/-- Open a set behind its bracket. Dashes at its beginning stand for themselves, and so does a
closing bracket there. -/
def start (cs : List Char) : OpenSet × NoLonger cs :=
  let (negated, body) := negation cs
  let dashes := (body.1.takeWhile (· = '-')).length
  if dashes = 0 ∧ body.1.head? = some ']' then
    (⟨negated, none, .just ']'⟩, .ofTail body.2 ⟨body.1.drop 1, by simp⟩)
  else
    (⟨negated, none, if dashes = 0 then .nothing else .just '-'⟩,
      .ofTail body.2 ⟨body.1.drop dashes, by simp⟩)

end OpenSet

/-- The operation that a sign written twice stands for. -/
def operator? (c : Char) (rest : List Char) : Option SetOp :=
  if rest.head? ≠ some c then none
  else
    match c with
    | '&' => some .meet
    | '-' => some .without
    | '~' => some .either
    | _ => none

/-- A named class behind the bracket that opens it. -/
def namedClass? (anyCase : Bool) (cs : List Char) : Option (CharSet × NoLonger cs) :=
  let negated := cs[1]? == some '^'
  let skipped := if negated then 2 else 1
  let name := (cs.drop skipped).takeWhile (· ≠ ':')
  let rest := cs.drop (skipped + name.length)
  if cs.head? = some ':' ∧ rest.take 2 = [':', ']'] then
    (CharSet.named? (String.ofList name)).map fun s =>
      ((s.anyCaseIf anyCase).negatedIf negated,
        ⟨rest.drop 2, by simp only [rest, List.length_drop]; omega⟩)
  else none

/-- A character of a set, or an escape in it. -/
def unit? : (cs : List Char) → Option (Escape × Shorter cs)
  | [] => none
  | '\\' :: rest => (Escape.read? rest).map fun (e, after) => (e, .afterHead after.weaken)
  | c :: rest => some (.literal c, .afterHead (.all rest))

/-- An entry of a set: a unit, or a range between two characters. A dash in front of a closing
bracket or of another dash makes no range. -/
def entry? (s : Settings) (cs : List Char) : Option (CharSet × Shorter cs) :=
  match unit? cs with
  | none => none
  | some (first, rest) =>
    let rest := rest.andMaybe (s.skip rest.1)
    match h : rest.1 with
    | '-' :: more =>
      let next := s.skip more
      if next.1.head? = some ']' ∨ next.1.head? = some '-' then first.set?.map (·, rest)
      else
        match first, unit? next.1 with
        | .literal lo, some (.literal hi, after) =>
          if lo ≤ hi then
            some (.range lo hi, ⟨after.1, by
              have h1 := rest.2
              have h2 := next.2
              have h3 := after.2
              rw [h, List.length_cons] at h1
              omega⟩)
          else none
        | _, _ => none
    | _ => first.set?.map (·, rest)

/-- Read the entries of the set that is open innermost, and close those around it; what follows the
outermost. -/
def sets? (s : Settings) (o : OpenSet) (outer : List OpenSet) (cs : List Char) :
    Option (CharSet × NoLonger cs) :=
  let ⟨cs', h⟩ := s.skip cs
  match hcs : cs' with
  | [] => none
  | '[' :: rest =>
    match namedClass? s.anyCase rest with
    | some (named, ⟨after, h'⟩) =>
      (sets? s (o.add named) outer after).map fun (all, r) =>
        (all, r.ofTail (by rw [List.length_cons] at h; omega))
    | none =>
      let (inner, ⟨after, h'⟩) := OpenSet.start rest
      (sets? s inner (o :: outer) after).map fun (all, r) =>
        (all, r.ofTail (by rw [List.length_cons] at h; omega))
  | ']' :: rest =>
    let closed := o.close s.anyCase
    match outer with
    | [] => some (closed, ⟨rest, by rw [List.length_cons] at h; omega⟩)
    | p :: outer =>
      (sets? s (p.add closed) outer rest).map fun (all, r) =>
        (all, r.ofTail (by rw [List.length_cons] at h; omega))
  | c :: rest =>
    match operator? c rest with
    | some op =>
      (sets? s (o.combine s.anyCase op) outer rest.tail).map fun (all, r) =>
        (all, r.ofTail (by rw [List.length_cons] at h; rw [List.length_tail]; omega))
    | none =>
      match entry? s (c :: rest) with
      | none => none
      | some (set, ⟨after, h'⟩) =>
        (sets? s (o.add set) outer after).map fun (all, r) => (all, r.ofTail (by omega))
termination_by cs.length
decreasing_by
  all_goals simp_wf
  all_goals simp only [List.length_cons] at *
  all_goals omega

end Deskhand.Pattern
