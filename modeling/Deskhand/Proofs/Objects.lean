import Deskhand.Json.Reader
import Deskhand.Skill.Document

/-!
# Reading objects

What the reader makes of a text, without the proofs that it carries along: a value or entries, and
the characters after them (`Reads`, `ReadsEntries`). Each lemma is one step of the reader, so that a
text is read by as many steps as it has parts (`read_of_reads`).
-/

namespace Deskhand.Json

variable {depth : Nat} {cs rest after : List Char} {c : Char} {v : Value} {es : Entries Value}

/-- The first character that is not a blank, and what follows it. -/
def Sees (cs : List Char) (c : Char) (rest : List Char) : Prop :=
  ∃ r, next? cs = some (c, r) ∧ r.1 = rest

/-- Reading a value from these characters leaves the others. -/
def Reads (depth : Nat) (cs : List Char) (v : Value) (rest : List Char) : Prop :=
  ∃ r, value? depth cs = some (v, r) ∧ r.1 = rest

/-- Reading the entries of an object from these characters leaves the others. -/
def ReadsEntries (depth : Nat) (cs : List Char) (es : Entries Value) (rest : List Char) : Prop :=
  ∃ r, entries? depth cs = some (es, r) ∧ r.1 = rest

theorem string?_of_readString {s : String} (h : readString [] cs = some (s, rest)) :
    ∃ r, string? cs = some (s, r) ∧ r.1 = rest := by
  unfold string?
  split
  · next heq =>
    rw [h] at heq
    cases heq
    exact ⟨_, rfl, rfl⟩
  · next heq => rw [h] at heq; cases heq

theorem Reads.text {s : String} (h : Sees cs '"' rest)
    (hstring : readString [] rest = some (s, after)) : Reads depth cs (.text s) after := by
  obtain ⟨r, hnext, rfl⟩ := h
  obtain ⟨t, hread, rfl⟩ := string?_of_readString hstring
  refine ⟨r.andThen t, ?_, rfl⟩
  rw [value?.eq_def, hnext]
  simp only [if_true, hread, Option.map_some]

theorem Reads.nothing (h : Sees cs '\x7b' rest) (hclose : Sees rest '\x7d' after) :
    Reads (depth + 1) cs (.object []) after := by
  obtain ⟨r, hnext, rfl⟩ := h
  obtain ⟨t, hclose, rfl⟩ := hclose
  refine ⟨r.andThen t, ?_, rfl⟩
  rw [value?.eq_def, hnext]
  simp [hclose]

theorem Reads.object {inner : List Char} (h : Sees cs '\x7b' rest) (hname : Sees rest '"' inner)
    (hes : ReadsEntries depth rest es after) : Reads (depth + 1) cs (.object es) after := by
  obtain ⟨r, hnext, rfl⟩ := h
  obtain ⟨_, hquote, -⟩ := hname
  obtain ⟨t, hread, rfl⟩ := hes
  refine ⟨r.andThen t, ?_, rfl⟩
  rw [value?.eq_def, hnext]
  simp [hquote, hread]

variable {inner named colon valued : List Char} {name : String}

theorem ReadsEntries.last (h : Sees cs '"' inner) (hname : readString [] inner = some (name, named))
    (hcolon : Sees named ':' colon) (hv : Reads depth colon v valued)
    (hclose : Sees valued '\x7d' after) : ReadsEntries depth cs [(name, v)] after := by
  obtain ⟨r, hnext, rfl⟩ := h
  obtain ⟨s, hstring, rfl⟩ := string?_of_readString hname
  obtain ⟨t, hthen, rfl⟩ := hcolon
  obtain ⟨u, hvalue, rfl⟩ := hv
  obtain ⟨w, hend, rfl⟩ : Sees (r.andThen (s.andThen (t.andThen u))).1 '\x7d' after := hclose
  refine ⟨(r.andThen (s.andThen (t.andThen u))).andThen w, ?_, rfl⟩
  rw [entries?.eq_def]
  simp only [hnext, hstring, hthen, hvalue, hend]

theorem ReadsEntries.more {comma : List Char} (h : Sees cs '"' inner)
    (hname : readString [] inner = some (name, named)) (hcolon : Sees named ':' colon)
    (hv : Reads depth colon v valued) (hcomma : Sees valued ',' comma)
    (hes : ReadsEntries depth comma es after) : ReadsEntries depth cs ((name, v) :: es) after := by
  obtain ⟨r, hnext, rfl⟩ := h
  obtain ⟨s, hstring, rfl⟩ := string?_of_readString hname
  obtain ⟨t, hthen, rfl⟩ := hcolon
  obtain ⟨u, hvalue, rfl⟩ := hv
  obtain ⟨w, hend, rfl⟩ : Sees (r.andThen (s.andThen (t.andThen u))).1 ',' comma := hcomma
  obtain ⟨x, hread, rfl⟩ := hes
  refine ⟨(r.andThen (s.andThen (t.andThen u))).andThen (w.andThen x), ?_, rfl⟩
  rw [entries?.eq_def]
  simp only [hnext, hstring, hthen, hvalue, hend, hread, Option.map_some]

/-- A text is read if nothing but blanks is left after a value. -/
theorem read_of_reads {text : String} (h : Reads depthLimit text.toList v rest)
    (hend : next? rest = none) : read text = some (merge v) := by
  obtain ⟨r, hv, rfl⟩ := h
  unfold read readWritten
  rw [hv]
  dsimp only
  rw [hend]
  rfl

end Deskhand.Json
