import Deskhand.Proofs.Faults
import Deskhand.Symbols

/-!
# Free names are all that is read

An expression has the same value in two scopes that agree on its free names (`eval_congr`), and what
is said to be undefined is one of them (`eval_blames`). Statements read their free names and what
they have bound themselves, and binding is never undone. The symbol table binds the free names of a
source before it is run, so no source fails for want of a name.
-/

namespace Deskhand.Expr

/-! ## Expressions -/

mutual

/-- The value of an expression depends on the names that it reads. -/
theorem eval_congr {scope scope' : Scope} (e : Expr) (h : ∀ n ∈ names e, scope n = scope' n) :
    eval scope e = eval scope' e := by
  cases e with
  | null | bool b | int n | real x | text s => rfl
  | name s => simp only [eval, h s (List.mem_singleton_self s)]
  | list items => simp only [eval, evalItems_congr items h]
  | dict entries => simp only [eval, evalEntries_congr [] entries h]
  | neg e | not e | attr e key => simp only [eval, eval_congr e h]
  | and l r | or l r | binary l op r | index l r =>
    obtain ⟨hl, hr⟩ := List.forall_mem_append.1 h
    simp only [eval, eval_congr l hl, eval_congr r hr]
  | compare first rest =>
    obtain ⟨hfirst, hrest⟩ := List.forall_mem_append.1 h
    simp only [eval, eval_congr first hfirst, evalChain_congr _ rest hrest]
  | conditional test body orelse =>
    obtain ⟨h, horelse⟩ := List.forall_mem_append.1 h
    obtain ⟨htest, hbody⟩ := List.forall_mem_append.1 h
    simp only [eval, eval_congr test htest, eval_congr body hbody, eval_congr orelse horelse]
  | slice base start stop =>
    obtain ⟨h, hstop⟩ := List.forall_mem_append.1 h
    obtain ⟨hbase, hstart⟩ := List.forall_mem_append.1 h
    simp only [eval, eval_congr base hbase, evalBound_congr start hstart,
      evalBound_congr stop hstop]
  | call function args => simp only [eval, evalItems_congr args h]
  | method receiver function args =>
    obtain ⟨hreceiver, hargs⟩ := List.forall_mem_append.1 h
    simp only [eval, eval_congr receiver hreceiver, evalItems_congr args hargs]

theorem evalItems_congr {scope scope' : Scope} (items : List Expr)
    (h : ∀ n ∈ namesOfItems items, scope n = scope' n) :
    evalItems scope items = evalItems scope' items := by
  cases items with
  | nil => rfl
  | cons e rest =>
    obtain ⟨he, hrest⟩ := List.forall_mem_append.1 h
    simp only [evalItems, eval_congr e he, evalItems_congr rest hrest]

theorem evalEntries_congr {scope scope' : Scope} (before : Entries Value)
    (entries : List (Expr × Expr)) (h : ∀ n ∈ namesOfEntries entries, scope n = scope' n) :
    evalEntries scope before entries = evalEntries scope' before entries := by
  cases entries with
  | nil => rfl
  | cons entry rest =>
    obtain ⟨k, e⟩ := entry
    obtain ⟨h, hrest⟩ := List.forall_mem_append.1 h
    obtain ⟨hk, he⟩ := List.forall_mem_append.1 h
    simp only [evalEntries, eval_congr k hk, eval_congr e he,
      fun before => evalEntries_congr before rest hrest]

theorem evalChain_congr {scope scope' : Scope} (left : Value) (links : List (CompareOp × Expr))
    (h : ∀ n ∈ namesOfChain links, scope n = scope' n) :
    evalChain scope left links = evalChain scope' left links := by
  cases links with
  | nil => rfl
  | cons link rest =>
    obtain ⟨op, e⟩ := link
    obtain ⟨he, hrest⟩ := List.forall_mem_append.1 h
    simp only [evalChain, eval_congr e he, fun right => evalChain_congr right rest hrest]

theorem evalBound_congr {scope scope' : Scope} (bound : Option Expr)
    (h : ∀ n ∈ namesOfBound bound, scope n = scope' n) :
    evalBound scope bound = evalBound scope' bound := by
  cases bound with
  | none => rfl
  | some e => simp only [evalBound, eval_congr e h]

end

/-! ## Sorted names -/

theorem mem_insertName {name other : String} (sorted : List String) :
    other ∈ insertName name sorted ↔ other = name ∨ other ∈ sorted := by
  induction sorted with
  | nil => simp [insertName]
  | cons n rest ih =>
    unfold insertName
    split
    · next heq =>
      subst heq
      simp
    · split
      · exact List.mem_cons
      · simp only [List.mem_cons, ih]
        exact or_left_comm

@[simp] theorem mem_sortedNames {name : String} {names : List String} :
    name ∈ sortedNames names ↔ name ∈ names := by
  have hfold (sorted : List String) :
      name ∈ names.foldl (fun sorted name => insertName name sorted) sorted ↔
        name ∈ sorted ∨ name ∈ names := by
    induction names generalizing sorted with
    | nil => simp
    | cons n rest ih =>
      rw [List.foldl_cons, ih, mem_insertName, List.mem_cons, or_left_comm, or_assoc]
  simpa [sortedNames] using hfold []

/-! ## Assignments -/

theorem evalAccessor_blames (scope : Scope) (a : Accessor) :
    Blames (Lacks scope a.names) (evalAccessor scope a) := by
  cases a with
  | key k => exact blames_ok _
  | index e =>
    refine (eval_blames scope e).bind fun v => ?_
    split
    · exact blames_ok _
    · exact Blames.bind (.of_blameless (blameless_position _)) fun _ => blames_ok _

theorem evalPath_blames (scope : Scope) (path : List Accessor) :
    Blames (Lacks scope (path.flatMap Accessor.names)) (evalPath scope path) :=
  Blames.mapM fun a ha => (evalAccessor_blames scope a).mono fun _ hn =>
    ⟨List.mem_flatMap.2 ⟨a, ha, hn.1⟩, hn.2⟩

theorem blameless_combine (op : AssignOp) (new old : Value) : Blameless (combine op new old) := by
  cases op with
  | set => exact blames_ok _
  | add | sub => exact blameless_operate _ _ _

theorem writeAt_blameless {change : Value → Except ExprError Value}
    (hchange : ∀ v, Blameless (change v)) (path : List Step) (v : Value) (name : String) :
    (writeAt change path v).2 ≠ some (.undefinedName name) := by
  induction path generalizing v with
  | nil =>
    unfold writeAt
    split
    · simp
    · next e he =>
      intro h
      cases h
      exact hchange v name he
  | cons step rest ih =>
    cases v with
    | list items =>
      unfold writeAt
      cases step with
      | key k => simp
      | position i =>
        dsimp only
        split
        · exact ih _
        · simp
    | object es => exact ih _
    | _ => simp [writeAt]

/-- Only a name that an assignment reads and that has no value is said to be undefined. -/
theorem assign_lacks {target : Target} {op : AssignOp} {new : Value} {vars : Entries Value}
    {name : String} (e : Expr)
    (h : (assign target op new vars).2 = some (.undefinedName name)) :
    Lacks vars.get? (Statement.assign target op e).names name := by
  unfold assign at h
  split at h
  · next error hpath =>
    cases h
    exact (evalPath_blames vars.get? target.path).right name hpath
  · next path hpath =>
    split at h
    · cases h
    · next hplain =>
      have hread : ¬(target.path.isEmpty && op == .set) = true := by
        intro hempty
        simp only [Bool.and_eq_true, List.isEmpty_iff, beq_iff_eq] at hempty
        rw [hempty.1] at hpath
        cases hpath
        exact hplain ⟨rfl, hempty.2⟩
      split at h
      · next hnone =>
        cases h
        exact ⟨by simp [Statement.names, hread], hnone⟩
      · next old hold => exact absurd h (writeAt_blameless (blameless_combine op new) path old name)

/-- An assignment leaves every name bound that was. -/
theorem assign_bound {target : Target} {op : AssignOp} {new : Value} {vars : Entries Value}
    {name : String} (h : (assign target op new vars).1.get? name = none) :
    vars.get? name = none := by
  have hput {value : Value} (h : (vars.put target.name value).get? name = none) :
      vars.get? name = none := by
    by_cases hname : name = target.name
    · subst hname
      simp at h
    · rwa [Entries.get?_put_of_ne _ _ hname] at h
  unfold assign at h
  split at h
  · exact h
  · split at h
    · exact hput h
    · split at h
      · exact h
      · exact hput h

/-! ## Statements -/

theorem runFrom_blames (statements : List Statement) (last : Value) (vars : Entries Value) :
    Blames (Lacks vars.get? (statements.flatMap Statement.names))
      (runFrom last statements vars).2 := by
  induction statements generalizing last vars with
  | nil => exact blames_ok _
  | cons s rest ih =>
    rw [List.flatMap_cons]
    cases s with
    | expr e =>
      unfold runFrom
      split
      · exact (ih _ _).right
      · next error he =>
        rw [← he]
        exact Blames.left (eval_blames vars.get? e)
    | assign target op e =>
      unfold runFrom
      split
      · next error he =>
        have hlacks : Blames (Lacks vars.get? (Statement.assign target op e).names)
            (eval vars.get? e) := (eval_blames vars.get? e).left.left
        rw [← he]
        exact hlacks.left
      · next v _ =>
        split
        · next vars' hassign =>
          -- The statements after it run where every name is still bound that was.
          refine (ih .null vars').right.mono fun name hn => ⟨hn.1, ?_⟩
          have hnone : (assign target op v vars).1.get? name = none := by
            rw [hassign]
            exact hn.2
          exact assign_bound hnone
        · next vars' error hassign =>
          intro name h
          cases h
          have hlacks := assign_lacks e (congrArg Prod.snd hassign)
          exact ⟨List.mem_append_left _ hlacks.1, hlacks.2⟩

/-- What is blamed on none of the names that a scope has is blamed on no name. -/
theorem Blames.blameless_of_bound {α : Type} {scope : Scope} {names : List String}
    {x : Except ExprError α} (hx : Blames (Lacks scope names) x)
    (hbound : ∀ n ∈ names, (scope n).isSome) : Blameless x := by
  intro name h
  obtain ⟨hmem, hnone⟩ := hx name h
  simpa [hnone] using hbound name hmem

theorem blameless_eval {scope : Scope} {e : Expr} (h : ∀ n ∈ freeNames e, (scope n).isSome) :
    Blameless (eval scope e) :=
  (eval_blames scope e).blameless_of_bound fun n hn => h n (mem_sortedNames.2 hn)

theorem blameless_run {statements : List Statement} {vars : Entries Value}
    (h : ∀ n ∈ freeNamesOfAll statements, (vars.get? n).isSome) :
    Blameless (run statements vars).2 :=
  (runFrom_blames statements .null vars).blameless_of_bound fun n hn =>
    h n (mem_sortedNames.2 hn)

end Deskhand.Expr

/-! ## The symbol table -/

namespace Deskhand.SymbolTable

open Deskhand.Expr

theorem mem_missing {t : SymbolTable} {name : String} {names : List String} :
    name ∈ t.missing names ↔ name ∈ names ∧ t.get? name = none := by
  induction names with
  | nil => simp [missing]
  | cons n rest ih =>
    unfold missing
    split
    · next hhas =>
      have hn : t.get? n ≠ none := Option.isSome_iff_ne_none.1 hhas
      rw [ih, List.mem_cons]
      constructor
      · exact fun h => ⟨.inr h.1, h.2⟩
      · rintro ⟨rfl | hmem, hnone⟩
        · exact absurd hnone hn
        · exact ⟨hmem, hnone⟩
    · next hhas =>
      have hn : t.get? n = none := by simpa [Entries.has, get?] using hhas
      simp only [List.mem_cons, List.mem_filter, ih, decide_eq_true_eq]
      by_cases heq : name = n
      · subst heq
        simp [hn]
      · simp [heq]

theorem get?_foldl_null (names : List String) (vars : Entries Value) (name : String) :
    (names.foldl (fun vars name => vars.put name .null) vars).get? name =
      if name ∈ names then some .null else vars.get? name := by
  induction names generalizing vars with
  | nil => simp
  | cons n rest ih =>
    rw [List.foldl_cons, ih]
    by_cases heq : name = n
    · subst heq
      simp
    · simp [Entries.get?_put_of_ne _ _ heq, heq]

/-- The names that had no value are null now; the others keep theirs. -/
theorem get?_declareMissing (t : SymbolTable) (names : List String) (name : String) :
    (t.declareMissing names).get? name =
      if name ∈ names ∧ t.get? name = none then some .null else t.get? name :=
  (get?_foldl_null _ _ name).trans (by simp only [mem_missing]; rfl)

theorem bound_declareMissing (t : SymbolTable) {names : List String} {name : String}
    (h : name ∈ names) : ((t.declareMissing names).get? name).isSome := by
  rw [get?_declareMissing]
  cases hname : t.get? name <;> simp [h]

theorem blameless_evaluate (t : SymbolTable) (source : String) :
    Blameless (t.evaluate source).2 := by
  unfold evaluate
  split
  · next e he =>
    have hparse := blameless_parse source
    rw [he] at hparse
    exact hparse.error
  · exact blameless_eval fun _ hn => t.bound_declareMissing hn

theorem blameless_evaluateCondition (t : SymbolTable) (source : String) :
    Blameless (t.evaluateCondition source).2 := by
  have h := t.blameless_evaluate source
  unfold evaluateCondition
  split
  · next t' e he =>
    rw [he] at h
    exact h.error
  · exact blames_ok _

theorem blameless_execute (t : SymbolTable) (source : String) :
    Blameless (t.execute source).2 := by
  unfold execute
  split
  · next e he =>
    have hparse := blameless_parseStatements source
    rw [he] at hparse
    exact hparse.error
  · exact blameless_run fun _ hn => t.bound_declareMissing hn

/-- An expression reads its free names and no others, statements need theirs bound and no others,
and the table binds what a source reads, so that no source fails for an undefined name. -/
theorem freeNames_complete :
    (∀ (e : Expr) (scope scope' : Scope),
      (∀ n ∈ freeNames e, scope n = scope' n) → eval scope e = eval scope' e) ∧
    (∀ (e : Expr) (scope : Scope), (∀ n ∈ freeNames e, (scope n).isSome) →
      ∀ n, eval scope e ≠ .error (.undefinedName n)) ∧
    (∀ (statements : List Statement) (vars : Entries Value),
      (∀ n ∈ freeNamesOfAll statements, (vars.get? n).isSome) →
      ∀ n, (run statements vars).2 ≠ .error (.undefinedName n)) ∧
    ∀ (t : SymbolTable) (source n : String),
      (t.evaluate source).2 ≠ .error (.undefinedName n) ∧
      (t.evaluateCondition source).2 ≠ .error (.undefinedName n) ∧
      (t.execute source).2 ≠ .error (.undefinedName n) := by
  refine ⟨?_, ?_, ?_, ?_⟩
  · intro e scope scope' h
    exact eval_congr e fun n hn => h n (mem_sortedNames.2 hn)
  · intro e scope h n
    exact blameless_eval h n
  · intro statements vars h n
    exact blameless_run h n
  · intro t source n
    exact ⟨t.blameless_evaluate source n, t.blameless_evaluateCondition source n,
      t.blameless_execute source n⟩

/-- The expression `d[k]`. -/
def subscripted : Expr := .index (.name "d") (.name "k")

/-- The statement `d[k] += x`, which reads the three names. -/
def countUp : List Statement := [.assign ⟨"d", [.index (.name "k")]⟩ .add (.name "x")]

/-- Values for `d`, `k` and `x`. -/
def counted (x : Value) : Entries Value := [("d", .object []), ("k", .text "a"), ("x", x)]

theorem freeNames_complete_counted :
    (∀ n ∈ freeNames subscripted, (counted .null).get? n = (counted (.int 1)).get? n) ∧
    eval (counted .null).get? subscripted = eval (counted (.int 1)).get? subscripted ∧
    (∀ n ∈ freeNames subscripted, ((counted .null).get? n).isSome) ∧
    (∀ n, eval (counted .null).get? subscripted ≠ .error (.undefinedName n)) ∧
    (∀ n ∈ freeNamesOfAll countUp, ((counted (.int 1)).get? n).isSome) ∧
    ∀ n, (run countUp (counted (.int 1))).2 ≠ .error (.undefinedName n) := by
  have hagree : ∀ n ∈ freeNames subscripted,
      (counted .null).get? n = (counted (.int 1)).get? n := by
    simp [freeNames, subscripted, names, counted, Entries.get?]
  have hread : ∀ n ∈ freeNames subscripted, ((counted .null).get? n).isSome := by
    simp [freeNames, subscripted, names, counted, Entries.get?]
  have hrun : ∀ n ∈ freeNamesOfAll countUp, ((counted (.int 1)).get? n).isSome := by
    simp [freeNamesOfAll, countUp, Statement.names, Accessor.names, names, counted, Entries.get?]
  obtain ⟨hsame, heval, hruns, -⟩ := freeNames_complete
  exact ⟨hagree, hsame _ _ _ hagree, hread, heval _ _ hread, hrun, hruns _ _ hrun⟩

end Deskhand.SymbolTable
