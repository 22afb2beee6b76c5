import Deskhand.Pattern.Basic
import Deskhand.Pattern.Bracketed
import Deskhand.Text.Letters
import Deskhand.Text.Search

/-!
# Reading patterns

A pattern is read from the left in one pass. Groups that are open wait on a stack; each keeps the
alternatives that are complete, the items of the one that is being read, and its settings.
-/

namespace Deskhand.Pattern

/-- A group that is open: its complete alternatives and the items of the current one, both the
newest first. -/
structure Group where
  settings : Settings
  done : List Pattern
  items : List Pattern

namespace Group

def fresh (settings : Settings) : Group := ⟨settings, [], []⟩

/-- The items of the current alternative one after another. -/
def current (g : Group) : Pattern :=
  match g.items with
  | [] => .empty
  | last :: before => before.foldl (fun p item => .seq item p) last

/-- What the group matches. -/
def close (g : Group) : Pattern := g.done.foldl (fun p earlier => .alt earlier p) g.current

def add (p : Pattern) (g : Group) : Group := { g with items := p :: g.items }

/-- A bar ends an alternative. -/
def nextAlternative (g : Group) : Group := { g with done := g.current :: g.done, items := [] }

/-- Replace the last item. -/
def mapLast? (f : Pattern → Pattern) (g : Group) : Option Group :=
  match g.items with
  | [] => none
  | last :: before => some { g with items := f last :: before }

/-- A character as it stands. -/
def literal (c : Char) (g : Group) : Pattern :=
  .char ((CharSet.just c).anyCaseIf g.settings.anyCase)

/-- What an escape matches. -/
def escaped (e : Escape) (g : Group) : Pattern :=
  match e with
  | .literal c => g.literal c
  | .set s => .char s
  | .here p => .here p

/-- Any character, perhaps but the end of a line. -/
def dot (g : Group) : Pattern :=
  .char (.inverse (if g.settings.dotAll then .nothing else .just '\n'))

/-- The beginning of the text, or of a line. -/
def caret (g : Group) : Pattern := .here (if g.settings.lines then .lineStart else .textStart)

/-- The end of the text, or of a line. -/
def dollar (g : Group) : Pattern := .here (if g.settings.lines then .lineEnd else .textEnd)

/-- Whether a repetition is greedy, and what follows the question mark that may stand behind it. -/
def greedy (cs : List Char) (g : Group) : Bool × NoLonger cs :=
  match cs with
  | '?' :: _ => (g.settings.lazy, .tail)
  | rest => (!g.settings.lazy, .all rest)

end Group

/-! ## Repetitions -/

/-- How often something is repeated: at least so often, and at most, if there is a limit. -/
structure Bounds where
  least : Nat
  most : Option Nat

/-- A number of times, perhaps between blanks. -/
def times? (s : String) : Option Nat :=
  (readDigits? (Text.trim s).toList).filter (· < Word.count32)

/-- The bounds in braces behind the opening one, and what follows them. -/
def bounds? (cs : List Char) : Option (Bounds × NoLonger cs) :=
  let inside := cs.takeWhile (· ≠ '\x7d')
  let after := cs.drop (inside.length + 1)
  if inside.length = cs.length then none
  else
    let b := match Text.split "," (String.ofList inside) with
      | [n] => (times? n).map fun n => Bounds.mk n (some n)
      | [n, ""] => (times? n).map fun n => Bounds.mk n none
      | [n, m] =>
        match times? n, times? m with
        | some n, some m => if n ≤ m then some ⟨n, some m⟩ else none
        | _, _ => none
      | _ => none
    b.map (·, ⟨after, by simp [after]⟩)

/-- A pattern repeated as often as the bounds say. -/
def within (b : Bounds) (greedy : Bool) (p : Pattern) : Pattern :=
  let rest := match b.most with
    | some most => p.upTo greedy (most - b.least)
    | none => .star greedy p
  .seq (p.times b.least) rest

/-- Whether a character repeats what stands in front of it. -/
def repeats (c : Char) : Bool := c == '*' || c == '+' || c == '?' || c == '\x7b'

/-! ## Groups -/

/-- What an opening bracket and what stands behind it begin. -/
inductive Opening where
  | group (settings : Settings)
  | namedGroup (name : String)
  /-- No group: the settings of the one that is open change. -/
  | change (settings : Settings)

/-- Whether a name may stand on a group. -/
def isGroupName : List Char → Bool
  | [] => false
  | c :: rest =>
    (c == '_' || Text.isAlphanumeric c && !Text.isDecimalDigit c) &&
      rest.all fun c => Text.isAlphanumeric c || "_.[]".contains c

/-- The name of a group up to its closing mark, and what follows. -/
def groupName? (cs : List Char) : Option (String × NoLonger cs) :=
  let name := cs.takeWhile (· ≠ '>')
  if name.length < cs.length ∧ isGroupName name then
    some (String.ofList name,
      ⟨cs.drop (name.length + 1), by simp only [List.length_drop]; omega⟩)
  else none

/-- What stands behind an opening bracket before the pattern of its group. -/
def opening? (s : Settings) (cs : List Char) : Option (Opening × NoLonger cs) :=
  match cs with
  | '?' :: 'P' :: '<' :: rest =>
    (groupName? rest).map fun (name, after) =>
      (.namedGroup name, after.ofTail (by simp only [List.length_cons]; omega))
  | '?' :: '<' :: rest =>
    (groupName? rest).map fun (name, after) =>
      (.namedGroup name, after.ofTail (by simp only [List.length_cons]; omega))
  | '?' :: rest =>
    (Settings.read? [] s rest).map fun (changed, group, after) =>
      (if group then .group changed else .change changed, after.afterHead)
  | rest => some (.group s, .all rest)

/-! ## Patterns -/

/-- Read a pattern inside the groups that are open, the innermost first. No two groups have one
name. -/
def parseFrom (names : List String) (g : Group) (outer : List Group) (cs : List Char) :
    Option Pattern :=
  let ⟨cs', hcs⟩ := g.settings.skip cs
  match cs', hcs with
  | [], _ => if outer.isEmpty then some g.close else none
  | '(' :: rest, _ =>
    match opening? g.settings rest with
    | none => none
    | some (.group s, ⟨after, _⟩) => parseFrom names (.fresh s) (g :: outer) after
    | some (.namedGroup name, ⟨after, _⟩) =>
      if names.contains name then none
      else parseFrom (name :: names) (.fresh g.settings) (g :: outer) after
    | some (.change s, ⟨after, _⟩) =>
      if after.head?.any repeats then none else parseFrom names { g with settings := s } outer after
  | ')' :: rest, _ =>
    match outer with
    | o :: outer => parseFrom names (o.add g.close) outer rest
    | [] => none
  | '|' :: rest, _ => parseFrom names g.nextAlternative outer rest
  | '*' :: rest, _ =>
    let (greedy, ⟨after, _⟩) := g.greedy rest
    match g.mapLast? (.star greedy) with
    | some g => parseFrom names g outer after
    | none => none
  | '+' :: rest, _ =>
    let (greedy, ⟨after, _⟩) := g.greedy rest
    match g.mapLast? fun p => .seq p (.star greedy p) with
    | some g => parseFrom names g outer after
    | none => none
  | '?' :: rest, _ =>
    let (greedy, ⟨after, _⟩) := g.greedy rest
    match g.mapLast? (optional greedy) with
    | some g => parseFrom names g outer after
    | none => none
  | '\x7b' :: rest, _ =>
    match bounds? rest with
    | none => none
    | some (b, ⟨behind, _⟩) =>
      let (greedy, ⟨after, _⟩) := g.greedy behind
      match g.mapLast? (within b greedy) with
      | some g => parseFrom names g outer after
      | none => none
  | '[' :: rest, _ =>
    let (o, ⟨listed, _⟩) := OpenSet.start rest
    match sets? g.settings o [] listed with
    | some (set, ⟨after, _⟩) => parseFrom names (g.add (.char set)) outer after
    | none => none
  | '\\' :: rest, _ =>
    match Escape.read? rest with
    | some (e, ⟨after, _⟩) => parseFrom names (g.add (g.escaped e)) outer after
    | none => none
  | '.' :: rest, _ => parseFrom names (g.add g.dot) outer rest
  | '^' :: rest, _ => parseFrom names (g.add g.caret) outer rest
  | '$' :: rest, _ => parseFrom names (g.add g.dollar) outer rest
  | c :: rest, _ => parseFrom names (g.add (g.literal c)) outer rest
termination_by cs.length
decreasing_by
  all_goals simp only [List.length_cons] at *
  all_goals omega

/-- The pattern that a text denotes, if it is one. -/
def parse? (source : String) : Option Pattern :=
  parseFrom [] (.fresh .usual) [] source.toList

end Deskhand.Pattern
