import Deskhand.Expr.Eval
import Deskhand.Expr.Names

/-!
# What undefined names are blamed on

The one error that depends on the scope is that a name is undefined. The operations on values never
give it (`Blameless`); an expression gives it only for a name that it reads and that the scope lacks
(`eval_blames`).
-/

namespace Deskhand.Expr

variable {α β : Type} {P Q : String → Prop}

/-! ## Outcomes -/

/-- If a name is said to be undefined, it is one with the property. -/
def Blames (P : String → Prop) (x : Except ExprError α) : Prop :=
  ∀ name, x = .error (.undefinedName name) → P name

/-- No name is said to be undefined. -/
abbrev Blameless (x : Except ExprError α) : Prop := Blames (fun _ => False) x

theorem Blames.mono {x : Except ExprError α} (h : Blames P x) (hPQ : ∀ name, P name → Q name) :
    Blames Q x := fun name hx => hPQ name (h name hx)

theorem Blames.of_blameless {x : Except ExprError α} (h : Blameless x) : Blames P x :=
  h.mono fun _ => False.elim

@[simp] theorem blames_ok (a : α) : Blames P (.ok a : Except ExprError α) := nofun

@[simp] theorem blames_type (fault : TypeFault) :
    Blames P (.error (.type fault) : Except ExprError α) := nofun

@[simp] theorem blames_index (fault : IndexFault) :
    Blames P (.error (.index fault) : Except ExprError α) := nofun

@[simp] theorem blames_divisionByZero :
    Blames P (.error .divisionByZero : Except ExprError α) := nofun

@[simp] theorem blames_unknownFunction (name : String) :
    Blames P (.error (.unknownFunction name) : Except ExprError α) := nofun

@[simp] theorem blames_syntaxFault (offset : Nat) (fault : SyntaxFault) :
    Blames P (.error (.syntaxFault offset fault) : Except ExprError α) := nofun

@[simp] theorem blames_invalidTarget (tree : String) :
    Blames P (.error (.invalidTarget tree) : Except ExprError α) := nofun

/-- An error blames the same whatever the value would have been. -/
theorem Blames.error {e : ExprError} (h : Blames P (.error e : Except ExprError α)) :
    Blames P (.error e : Except ExprError β) := fun name he => h name (by cases he; rfl)

theorem Blames.bind {x : Except ExprError α} {f : α → Except ExprError β} (hx : Blames P x)
    (hf : ∀ a, Blames P (f a)) : Blames P (x >>= f) := by
  intro name h
  cases x with
  | ok a => exact hf a name h
  | error e => exact hx.error name h

theorem Blames.map {x : Except ExprError α} (hx : Blames P x) (f : α → β) :
    Blames P (x.map f) := by
  intro name h
  cases x with
  | ok a => cases h
  | error e => exact hx.error name h

theorem Blames.foldlM {f : β → α → Except ExprError β} (hf : ∀ b a, Blames P (f b a))
    (xs : List α) (b : β) : Blames P (xs.foldlM f b) := by
  induction xs generalizing b with
  | nil => exact blames_ok b
  | cons x xs ih => exact (hf b x).bind ih

theorem Blames.mapM {f : α → Except ExprError β} {xs : List α} (hf : ∀ a ∈ xs, Blames P (f a)) :
    Blames P (xs.mapM f) := by
  induction xs with
  | nil => exact blames_ok _
  | cons x xs ih =>
    rw [List.mapM_cons]
    have hxs := ih fun a ha => hf a (List.mem_cons_of_mem _ ha)
    exact (hf x List.mem_cons_self).bind fun _ => hxs.bind fun _ => blames_ok _

/-! ## Operations -/

theorem blameless_divide (a b : Value.Quantity) : Blameless (divide a b) := by
  unfold divide
  split <;> simp

theorem blameless_floorDivide (a b : Value.Quantity) : Blameless (floorDivide a b) := by
  unfold floorDivide
  split
  · split
    · exact blames_divisionByZero
    · split <;> exact blames_ok _
  · split <;> simp

theorem blameless_floorRemainder (a b : Value.Quantity) : Blameless (floorRemainder a b) := by
  unfold floorRemainder
  split
  · split <;> simp
  · dsimp only
    split <;> simp

theorem blameless_numeric (op : BinaryOp) (a b : Value.Quantity) : Blameless (numeric op a b) := by
  cases op with
  | div => exact blameless_divide a b
  | floorDiv => exact blameless_floorDivide a b
  | modulo => exact blameless_floorRemainder a b
  | add | sub | mul => exact blames_ok _

theorem blameless_repeated (v : Value) (times : Nat) (fault : TypeFault) :
    Blameless ((repeated? v times).getD (.error (.type fault))) := by
  unfold repeated?
  cases v with
  | text | list =>
    dsimp only [Option.getD_some]
    split <;> simp
  | _ => exact blames_type _

theorem blameless_operate (l : Value) (op : BinaryOp) (r : Value) :
    Blameless (operate l op r) := by
  unfold operate
  dsimp only
  split
  · exact (blameless_numeric _ _ _).map _
  · split
    case h_4 =>
      split
      · exact blameless_repeated _ _ _
      · exact blameless_repeated _ _ _
      · exact blames_type _
    all_goals simp

theorem blameless_position (v : Value) : Blameless (position v) := by
  unfold position
  split <;> simp

theorem blameless_orderOf (l r : Value) : Blameless (orderOf l r) := by
  unfold orderOf
  split
  · simp
  · next e _ => cases e <;> exact blames_type _

theorem blameless_contains (container item : Value) : Blameless (contains container item) := by
  unfold contains
  split
  · split <;> simp
  all_goals simp

theorem blameless_compareValues (l : Value) (op : CompareOp) (r : Value) :
    Blameless (compareValues l op r) := by
  cases op with
  | less | lessEqual | greater | greaterEqual => exact (blameless_orderOf l r).map _
  | isIn => exact blameless_contains r l
  | notIn => exact (blameless_contains r l).map _
  | equal | notEqual | isSame | notSame => exact blames_ok _

theorem blameless_subscriptValue (base i : Value) : Blameless (subscriptValue base i) := by
  unfold subscriptValue
  split
  · exact (blameless_position i).bind fun n => by split <;> simp
  · exact (blameless_position i).bind fun n => by dsimp only; split <;> simp
  · dsimp only
    split <;> simp
  · simp

theorem blameless_sliceValue (base : Value) (start stop : Option Int) :
    Blameless (sliceValue base start stop) := by
  unfold sliceValue
  split <;> simp

theorem blameless_attributeValue (base : Value) (key : String) :
    Blameless (attributeValue base key) := by
  unfold attributeValue
  split
  · split <;> simp
  · simp

/-! ## Functions -/

theorem blameless_oneArgument (function : String) (args : List Value) :
    Blameless (oneArgument function args) := by
  unfold oneArgument
  split <;> simp

theorem blameless_lengthOf (v : Value) : Blameless (lengthOf v) := by
  unfold lengthOf
  split <;> simp

theorem blameless_toInteger (v : Value) : Blameless (toInteger v) := by
  unfold toInteger
  split
  · dsimp only
    split <;> simp
  · simp
  · split <;> simp

theorem blameless_toReal (v : Value) : Blameless (toReal v) := by
  unfold toReal
  split <;> split <;> simp

theorem blameless_absoluteValue (v : Value) : Blameless (absoluteValue v) := by
  unfold absoluteValue
  split <;> simp

theorem blameless_negate (v : Value) : Blameless (negate v) := by
  unfold negate
  split <;> simp

theorem blameless_roundTo (args : List Value) : Blameless (roundTo args) := by
  unfold roundTo
  split
  · split
    · simp
    · simp
    · exact (blameless_position _).bind fun _ => blames_ok _
  · simp

theorem blameless_extremeFrom (want : Ordering) (best : Value) (vs : List Value) :
    Blameless (extremeFrom want best vs) := by
  induction vs generalizing best with
  | nil => exact blames_ok best
  | cons v rest ih => exact (blameless_orderOf v best).bind fun _ => ih _

theorem blameless_extreme (function : String) (want : Ordering) (args : List Value) :
    Blameless (extreme function want args) := by
  unfold extreme
  dsimp only
  split
  · exact blameless_extremeFrom _ _ _
  · simp

theorem blameless_insertSorted (v : Value) (vs : List Value) : Blameless (insertSorted v vs) := by
  induction vs with
  | nil => exact blames_ok _
  | cons w rest ih =>
    refine (blameless_orderOf v w).bind fun o => ?_
    split
    · exact ih.bind fun _ => blames_ok _
    · simp

theorem blameless_sortItems (items : List Value) : Blameless (sortItems items) := by
  refine Blames.bind (.foldlM (fun sorted v => ?_) items []) fun _ => blames_ok _
  exact blameless_insertSorted v sorted

theorem blameless_itemsOf (v : Value) : Blameless (itemsOf v) := by
  unfold itemsOf
  split <;> simp

theorem blameless_toList (v : Value) : Blameless (toList v) := by
  unfold toList
  split <;> simp

theorem blameless_integers (start stop : Int) : Blameless (integers start stop) := by
  unfold integers
  split <;> simp

theorem blameless_callFunction (function : String) (args : List Value) :
    Blameless (callFunction function args) := by
  have hone := blameless_oneArgument function args
  unfold callFunction
  dsimp only
  split
  · exact hone.bind blameless_lengthOf
  · exact hone.bind blameless_toInteger
  · exact hone.bind blameless_toReal
  · exact hone.bind fun _ => blames_ok _
  · exact hone.bind fun _ => blames_ok _
  · exact hone.bind blameless_absoluteValue
  · split
    · exact blameless_roundTo args
    · simp
  · exact blameless_extreme _ _ _
  · exact blameless_extreme _ _ _
  · refine hone.bind fun v => (blameless_itemsOf v).bind fun items => ?_
    exact .foldlM (fun total v => blameless_operate total .add v) items _
  · refine hone.bind fun v => (blameless_itemsOf v).bind fun items => ?_
    exact (blameless_sortItems items).bind fun _ => blames_ok _
  · split
    · simp
    · exact (blameless_toList _).bind fun _ => blames_ok _
    · simp
  · split
    · exact (blameless_position _).bind fun _ => blameless_integers _ _
    · refine (blameless_position _).bind fun _ => (blameless_position _).bind fun _ => ?_
      exact blameless_integers _ _
    · simp
  · split
    · exact (blameless_contains _ _).bind fun _ => blames_ok _
    · simp
  · split <;> simp
  · split <;> simp
  · split <;> simp
  · split <;> simp
  · simp

/-! ## Methods -/

theorem blameless_textArgument (method : String) (args : List Value) (i : Nat) :
    Blameless (textArgument method args i) := by
  unfold textArgument
  split <;> simp

theorem blameless_textMethod (s method : String) (args : List Value) :
    Blameless (textMethod s method args) := by
  have htext := blameless_textArgument method args
  unfold textMethod
  dsimp only
  split
  case h_8 =>
    split
    · simp
    · exact (htext 0).bind fun _ => blames_ok _
  case h_9 => exact (htext 0).bind fun _ => blames_ok _
  case h_10 => exact (htext 0).bind fun _ => blames_ok _
  case h_11 => exact (htext 0).bind fun _ => (htext 1).bind fun _ => blames_ok _
  case h_12 =>
    refine (htext 0).bind fun _ => ?_
    split <;> simp
  case h_13 => exact (htext 0).bind fun _ => blames_ok _
  case h_14 => split <;> simp
  all_goals simp

theorem blameless_objectMethod (es : Entries Value) (method : String) (args : List Value) :
    Blameless (objectMethod es method args) := by
  unfold objectMethod
  split
  · split <;> simp
  all_goals simp

theorem blameless_listMethod (items : List Value) (method : String) (args : List Value) :
    Blameless (listMethod items method args) := by
  unfold listMethod
  split
  · split
    · simp
    · split <;> simp
  all_goals simp

theorem blameless_callMethod (receiver : Value) (method : String) (args : List Value) :
    Blameless (callMethod receiver method args) := by
  unfold callMethod
  split
  · exact blameless_textMethod _ _ _
  · exact blameless_objectMethod _ _ _
  · exact blameless_listMethod _ _ _
  · simp

/-! ## Expressions -/

/-- The name is one of these and has no value. -/
def Lacks (scope : Scope) (names : List String) (name : String) : Prop :=
  name ∈ names ∧ scope name = none

theorem Blames.left {scope : Scope} {names more : List String} {x : Except ExprError α}
    (h : Blames (Lacks scope names) x) : Blames (Lacks scope (names ++ more)) x :=
  h.mono fun _ hn => ⟨List.mem_append_left _ hn.1, hn.2⟩

theorem Blames.right {scope : Scope} {names more : List String} {x : Except ExprError α}
    (h : Blames (Lacks scope more) x) : Blames (Lacks scope (names ++ more)) x :=
  h.mono fun _ hn => ⟨List.mem_append_right _ hn.1, hn.2⟩

mutual

/-- Only a name that an expression reads and that has no value is said to be undefined. -/
theorem eval_blames (scope : Scope) (e : Expr) : Blames (Lacks scope e.names) (eval scope e) := by
  cases e with
  | null | bool b | int n | real x | text s => exact blames_ok _
  | name s =>
    unfold eval
    split
    · exact blames_ok _
    · next hnone =>
      intro name h
      cases h
      exact ⟨List.mem_singleton_self s, hnone⟩
  | list items => exact (evalItems_blames scope items).bind fun _ => blames_ok _
  | dict entries => exact (evalEntries_blames scope [] entries).bind fun _ => blames_ok _
  | neg e => exact (eval_blames scope e).bind fun v => .of_blameless (blameless_negate v)
  | not e => exact (eval_blames scope e).bind fun _ => blames_ok _
  | and l r =>
    refine (eval_blames scope l).left.bind fun left => ?_
    split
    · exact (eval_blames scope r).right
    · exact blames_ok _
  | or l r =>
    refine (eval_blames scope l).left.bind fun left => ?_
    split
    · exact blames_ok _
    · exact (eval_blames scope r).right
  | binary l op r =>
    refine (eval_blames scope l).left.bind fun left => ?_
    refine (eval_blames scope r).right.bind fun right => ?_
    exact .of_blameless (blameless_operate left op right)
  | compare first rest =>
    exact (eval_blames scope first).left.bind fun left => (evalChain_blames scope left rest).right
  | conditional test body orelse =>
    refine (eval_blames scope test).left.left.bind fun v => ?_
    split
    · exact (eval_blames scope body).right.left
    · exact (eval_blames scope orelse).right
  | index base i =>
    refine (eval_blames scope base).left.bind fun container => ?_
    refine (eval_blames scope i).right.bind fun v => ?_
    exact .of_blameless (blameless_subscriptValue container v)
  | slice base start stop =>
    refine (eval_blames scope base).left.left.bind fun container => ?_
    refine (evalBound_blames scope start).right.left.bind fun first => ?_
    refine (evalBound_blames scope stop).right.bind fun last => ?_
    exact .of_blameless (blameless_sliceValue container first last)
  | attr base key =>
    exact (eval_blames scope base).bind fun v => .of_blameless (blameless_attributeValue v key)
  | call function args =>
    refine (evalItems_blames scope args).bind fun vs => ?_
    exact .of_blameless (blameless_callFunction function vs)
  | method receiver function args =>
    refine (eval_blames scope receiver).left.bind fun v => ?_
    refine (evalItems_blames scope args).right.bind fun vs => ?_
    exact .of_blameless (blameless_callMethod v function vs)

theorem evalItems_blames (scope : Scope) (items : List Expr) :
    Blames (Lacks scope (namesOfItems items)) (evalItems scope items) := by
  cases items with
  | nil => exact blames_ok _
  | cons e rest =>
    refine (eval_blames scope e).left.bind fun v => ?_
    exact (evalItems_blames scope rest).right.bind fun _ => blames_ok _

theorem evalEntries_blames (scope : Scope) (before : Entries Value)
    (entries : List (Expr × Expr)) :
    Blames (Lacks scope (namesOfEntries entries)) (evalEntries scope before entries) := by
  cases entries with
  | nil => exact blames_ok _
  | cons entry rest =>
    obtain ⟨k, e⟩ := entry
    refine (eval_blames scope k).left.left.bind fun key => ?_
    refine (eval_blames scope e).right.left.bind fun v => ?_
    exact (evalEntries_blames scope _ rest).right

theorem evalChain_blames (scope : Scope) (left : Value) (links : List (CompareOp × Expr)) :
    Blames (Lacks scope (namesOfChain links)) (evalChain scope left links) := by
  cases links with
  | nil => exact blames_ok _
  | cons link rest =>
    obtain ⟨op, e⟩ := link
    refine (eval_blames scope e).left.bind fun right => ?_
    refine Blames.bind (.of_blameless (blameless_compareValues left op right)) fun holds => ?_
    split
    · exact (evalChain_blames scope right rest).right
    · exact blames_ok _

theorem evalBound_blames (scope : Scope) (bound : Option Expr) :
    Blames (Lacks scope (namesOfBound bound)) (evalBound scope bound) := by
  cases bound with
  | none => exact blames_ok _
  | some e =>
    refine (eval_blames scope e).bind fun v => ?_
    exact Blames.bind (.of_blameless (blameless_position v)) fun _ => blames_ok _

end

end Deskhand.Expr
