import Mathlib
import Deskhand.Proofs.Assignment
import Deskhand.Proofs.RecoveryLayer

/-!
# What an evaluation touches

An expression changes nothing but that it binds the names it lacks (`SymbolTable.Declared`), a
condition also binds its outcome, and statements also write to the roots of their targets. Statements
that fail have run up to one of them (`Expr.run_failed`), and of what that one writes there is at most
one null, at the first place that its target lacks (`Expr.run_single_failed`).
-/

namespace Deskhand

/-! ## Statements -/

namespace Expr

/-- The name that an assignment writes to. -/
def Statement.root? : Statement → Option String
  | .expr _ => none
  | .assign target _ _ => some target.name

/-- The names that statements write to. -/
def roots (statements : List Statement) : List String := statements.filterMap Statement.root?

theorem mem_roots_of_assign {statements : List Statement} {target : Target} {op : AssignOp}
    {e : Expr} (h : .assign target op e ∈ statements) : target.name ∈ roots statements :=
  List.mem_filterMap.2 ⟨_, h, rfl⟩

/-- Names that no target begins with keep their values, also if the statements fail. -/
theorem get?_run_of_not_mem_roots {name : String} {statements : List Statement}
    (h : name ∉ roots statements) (vars : Entries Value) :
    (run statements vars).1.get? name = vars.get? name := by
  refine get?_runFrom_of_ne statements .null vars fun target op e hmem => ?_
  rintro rfl
  exact h (mem_roots_of_assign hmem)

variable {vars after : Entries Value} {error : ExprError}

/-- A failed assignment writes nothing, or a null at the first place that its target lacks. -/
theorem assign_leaves {target : Target} {op : AssignOp} {new : Value}
    (h : assign target op new vars = (after, some error)) :
    after = vars ∨ ∃ ps, target.missing? vars = some ps ∧
      (Value.object after).at? ps = some .null ∧
      ∀ qs, Value.Apart qs ps → (Value.object after).at? qs = (Value.object vars).at? qs := by
  obtain ⟨-, e, he⟩ | ⟨steps, hsteps, hbound, hwrite⟩ := assign_cases target op new vars
  · rw [he] at h
    cases h
    exact .inl rfl
  · rw [h] at hbound hwrite
    obtain ⟨hkept, hfilled⟩ := writeAt_failed (congrArg Prod.snd hwrite)
    rw [hwrite] at hkept hfilled
    cases hps : Expr.missing? steps (.object vars) with
    | none => exact .inl (Value.object.inj (hkept hps))
    | some ps =>
      obtain hhas | ⟨-, hnone⟩ := hbound
      · have hmissing : target.missing? vars = some ps := by
          simp [Target.missing?, hhas, hsteps, hps]
        exact .inr ⟨ps, hmissing, (hfilled ps hps).2⟩
      · cases hnone

/-- What one statement leaves if it fails. -/
theorem run_single_failed {s : Statement} (h : run [s] vars = (after, .error error)) :
    after = vars ∨ ∃ target op e ps, s = .assign target op e ∧ target.missing? vars = some ps ∧
      (Value.object after).at? ps = some .null ∧
      ∀ qs, Value.Apart qs ps → (Value.object after).at? qs = (Value.object vars).at? qs := by
  unfold run at h
  cases s with
  | expr e =>
    unfold runFrom at h
    split at h
    · cases h
    · cases h
      exact .inl rfl
  | assign target op e =>
    unfold runFrom at h
    split at h
    · cases h
      exact .inl rfl
    · next v _ =>
      split at h
      · cases h
      · next hassign =>
        cases h
        obtain hsame | ⟨ps, hleaves⟩ := assign_leaves hassign
        · exact .inl hsame
        · exact .inr ⟨target, op, e, ps, rfl, hleaves⟩

/-- Statements run one after the other, and the first one that fails is the last one that runs. -/
theorem runFrom_cons (last : Value) (s : Statement) (rest : List Statement) (vars : Entries Value) :
    runFrom last (s :: rest) vars =
      match run [s] vars with
      | (mid, .ok v) => runFrom v rest mid
      | (mid, .error e) => (mid, .error e) := by
  unfold run
  cases s with
  | expr e =>
    rw [runFrom, runFrom]
    cases eval vars.get? e <;> rfl
  | assign target op e =>
    rw [runFrom, runFrom]
    cases eval vars.get? e with
    | error e => rfl
    | ok v =>
      dsimp only
      rcases assign target op v vars with ⟨mid, _ | e⟩ <;> rfl

theorem runFrom_failed {statements : List Statement} {last : Value}
    (h : runFrom last statements vars = (after, .error error)) :
    ∃ before failing rest mid v, statements = before ++ failing :: rest ∧
      runFrom last before vars = (mid, .ok v) ∧ run [failing] mid = (after, .error error) := by
  induction statements generalizing last vars with
  | nil => cases h
  | cons s rest ih =>
    rw [runFrom_cons] at h
    split at h
    · next mid v hs =>
      obtain ⟨before, failing, rest, mid', v', rfl, hbefore, hfailing⟩ := ih h
      refine ⟨s :: before, failing, rest, mid', v', rfl, ?_, hfailing⟩
      rw [runFrom_cons, hs]
      exact hbefore
    · next hs =>
      cases h
      exact ⟨[], s, rest, vars, last, rfl, rfl, hs⟩

/-- Statements that fail have run up to one of them, which fails where those before it end. -/
theorem run_failed {statements : List Statement} (h : run statements vars = (after, .error error)) :
    ∃ before failing rest mid v, statements = before ++ failing :: rest ∧
      run before vars = (mid, .ok v) ∧ run [failing] mid = (after, .error error) :=
  runFrom_failed h

end Expr

/-! ## The symbol table -/

namespace SymbolTable

variable {t t' : SymbolTable} {names : List String}

/-- The table `t'` is the table `t` with those of the names that it lacks bound to null. -/
structure Declared (names : List String) (t t' : SymbolTable) : Prop where
  missionVars : t'.missionVars = t.missionVars
  kept : ∀ name v, t.get? name = some v → t'.get? name = some v
  added : ∀ name, t.get? name = none → t'.get? name = if name ∈ names then some .null else none

theorem declared_declareMissing (names : List String) (t : SymbolTable) :
    t.Declared names (t.declareMissing names) where
  missionVars := rfl
  kept name v h := by simp [get?_declareMissing, h]
  added name h := by simp [get?_declareMissing, h]

/-- The two tables differ at most in the values of the names. -/
structure ChangedOnly (names : List String) (t t' : SymbolTable) : Prop where
  missionVars : t'.missionVars = t.missionVars
  others : ∀ name, name ∉ names → t'.get? name = t.get? name

theorem changedOnly_set (name : String) (v : Value) (t : SymbolTable) :
    t.ChangedOnly [name] (t.set name v) where
  missionVars := rfl
  others _ h := get?_set_of_ne v t (List.ne_of_not_mem_cons h)

theorem changedOnly_run (statements : List Expr.Statement) (t : SymbolTable) :
    t.ChangedOnly (Expr.roots statements) { t with vars := (Expr.run statements t.vars).1 } where
  missionVars := rfl
  others _ h := Expr.get?_run_of_not_mem_roots h t.vars

theorem evaluateCondition_of_error {error : ExprError} {source : String}
    (h : t.evaluate source = (t', .error error)) :
    t.evaluateCondition source = (t', .error error) := by
  simp only [evaluateCondition, h]

theorem evaluateCondition_of_ok {v : Value} {source : String}
    (h : t.evaluate source = (t', .ok v)) :
    t.evaluateCondition source =
      (t'.set Reserved.cmpResult (.bool v.isTruthy), .ok v.isTruthy) := by
  simp only [evaluateCondition, h]
  rfl

/-- An evaluation binds the names that the source reads and the table lacks to null, and changes
nothing else; not even that if the source is no expression. A condition that is evaluated without an
error also binds its outcome. Statements also write to the roots of their targets. If one of them
fails, the names are those that the statements before it leave, but for at most a null at the first
place that its own target lacks. -/
theorem evaluation_footprint (t : SymbolTable) (source : String) :
    (∀ error, Expr.parse source = .error error →
      t.evaluate source = (t, .error error) ∧ t.evaluateCondition source = (t, .error error)) ∧
    (∀ e, Expr.parse source = .ok e →
      ∃ t', t.Declared (Expr.freeNames e) t' ∧ t.evaluate source = (t', Expr.eval t'.get? e) ∧
        (∀ error, Expr.eval t'.get? e = .error error →
          t.evaluateCondition source = (t', .error error)) ∧
        ∀ v, Expr.eval t'.get? e = .ok v →
          ∃ t'', t.evaluateCondition source = (t'', .ok v.isTruthy) ∧
            t'.ChangedOnly [Reserved.cmpResult] t'' ∧
            t''.get? Reserved.cmpResult = some (.bool v.isTruthy)) ∧
    (∀ error, Expr.parseStatements source = .error error →
      t.execute source = (t, .error error)) ∧
    ∀ statements, Expr.parseStatements source = .ok statements →
      ∃ t', t.Declared (Expr.freeNamesOfAll statements) t' ∧
        t'.ChangedOnly (Expr.roots statements) (t.execute source).1 ∧
        ∀ error after, t.execute source = (after, .error error) →
          ∃ before failing rest mid v, statements = before ++ failing :: rest ∧
            Expr.run before t'.vars = (mid.vars, .ok v) ∧
            Expr.run [failing] mid.vars = (after.vars, .error error) ∧
            mid.ChangedOnly (Expr.roots [failing]) after ∧
            (after = mid ∨ ∃ target op e ps, failing = .assign target op e ∧
              target.missing? mid.vars = some ps ∧
              (Value.object after.vars).at? ps = some .null ∧
              ∀ qs, Value.Apart qs ps →
                (Value.object after.vars).at? qs = (Value.object mid.vars).at? qs) := by
  refine ⟨?_, ?_, ?_, ?_⟩
  · intro error hparse
    have hevaluate : t.evaluate source = (t, .error error) := by simp only [evaluate, hparse]
    exact ⟨hevaluate, evaluateCondition_of_error hevaluate⟩
  · intro e hparse
    let t' := t.declareMissing (Expr.freeNames e)
    have hevaluate : t.evaluate source = (t', Expr.eval t'.get? e) := by
      simp only [evaluate, hparse, t']
    refine ⟨t', declared_declareMissing _ t, hevaluate, ?_, ?_⟩
    · intro error herror
      rw [herror] at hevaluate
      exact evaluateCondition_of_error hevaluate
    · intro v hv
      rw [hv] at hevaluate
      exact ⟨_, evaluateCondition_of_ok hevaluate, changedOnly_set _ _ t',
        get?_set_self _ t'⟩
  · intro error hparse
    simp only [execute, hparse]
  · intro statements hparse
    let t' := t.declareMissing (Expr.freeNamesOfAll statements)
    have hexecute : t.execute source =
        ({ t' with vars := (Expr.run statements t'.vars).1 }, (Expr.run statements t'.vars).2) := by
      simp only [execute, hparse, t']
    refine ⟨t', declared_declareMissing _ t, ?_, ?_⟩
    · rw [hexecute]
      exact changedOnly_run statements t'
    · intro error after hfails
      rw [hexecute] at hfails
      obtain ⟨rfl, herror⟩ := Prod.mk.inj hfails
      obtain ⟨before, failing, rest, mid, v, hsplit, hbefore, hfailing⟩ :=
        Expr.run_failed (Prod.ext rfl herror)
      have hchanged := changedOnly_run [failing] { t' with vars := mid }
      rw [hfailing] at hchanged
      refine ⟨before, failing, rest, { t' with vars := mid }, v, hsplit, hbefore, hfailing,
        hchanged, ?_⟩
      obtain hsame | hleaves := Expr.run_single_failed hfailing
      · exact .inl (congrArg (fun vars => { t' with vars }) hsame)
      · exact .inr hleaves

/-- A table with no more than an empty dictionary. -/
def drawer : SymbolTable := ⟨[("d", .object [])], ["d"]⟩

/-- What the statements `x = b; d.a.b = x; y = 2` leave of it, of which the second fails. -/
def untidy : SymbolTable := ⟨[("d", .object [("a", .null)]), ("b", .null), ("x", .null)], ["d"]⟩

theorem evaluation_footprint_drawer :
    (Expr.parse "b +" = .error (.syntaxFault 3 .unexpectedEnd) ∧
      drawer.evaluate "b +" = (drawer, .error (.syntaxFault 3 .unexpectedEnd))) ∧
    (Expr.parse "b" = .ok (.name "b") ∧ ∃ t' t'', drawer.Declared ["b"] t' ∧
      drawer.evaluate "b" = (t', .ok .null) ∧ drawer.evaluateCondition "b" = (t'', .ok false) ∧
      t''.get? Reserved.cmpResult = some (.bool false) ∧ t''.get? "d" = some (.object [])) ∧
    (Expr.parseStatements "b +" = .error (.syntaxFault 3 .unexpectedEnd) ∧
      drawer.execute "b +" = (drawer, .error (.syntaxFault 3 .unexpectedEnd))) ∧
    ∃ statements failing, ∃ mid : SymbolTable,
      Expr.parseStatements "x = b; d.a.b = x; y = 2" = .ok statements ∧
      drawer.execute "x = b; d.a.b = x; y = 2" =
        (untidy, .error (.type (.noItemAssignment "NoneType"))) ∧
      failing ∈ statements ∧ mid.ChangedOnly (Expr.roots [failing]) untidy := by
  have hfault : Expr.parse "b +" = .error (.syntaxFault 3 .unexpectedEnd) := by cbv
  have hname : Expr.parse "b" = .ok (.name "b") := by cbv
  have hbad : Expr.parseStatements "b +" = .error (.syntaxFault 3 .unexpectedEnd) := by cbv
  have hsnippet : Expr.parseStatements "x = b; d.a.b = x; y = 2" = .ok [
      .assign ⟨"x", []⟩ .set (.name "b"), .assign ⟨"d", [.key "a", .key "b"]⟩ .set (.name "x"),
      .assign ⟨"y", []⟩ .set (.int 2)] := by cbv
  have hfails : drawer.execute "x = b; d.a.b = x; y = 2" =
      (untidy, .error (.type (.noItemAssignment "NoneType"))) := by cbv
  refine ⟨⟨hfault, ((evaluation_footprint drawer "b +").1 _ hfault).1⟩, ⟨hname, ?_⟩,
    ⟨hbad, (evaluation_footprint drawer "b +").2.2.1 _ hbad⟩, ?_⟩
  · obtain ⟨t', hdeclared, hevaluate, -, hholds⟩ := (evaluation_footprint drawer "b").2.1 _ hname
    have hnull : Expr.eval t'.get? (.name "b") = .ok .null := by
      have hb : t'.get? "b" = some .null := hdeclared.added "b" rfl
      simp only [Expr.eval, hb]
    obtain ⟨t'', hcondition, hchanged, hresult⟩ := hholds _ hnull
    rw [hnull] at hevaluate
    refine ⟨t', t'', hdeclared, hevaluate, hcondition, hresult, ?_⟩
    exact (hchanged.others "d" (by decide)).trans (hdeclared.kept "d" _ rfl)
  · obtain ⟨t', -, -, hfailed⟩ := (evaluation_footprint drawer _).2.2.2 _ hsnippet
    obtain ⟨before, failing, rest, mid, v, hsplit, -, -, hchanged, -⟩ := hfailed _ _ hfails
    exact ⟨_, failing, mid, hsnippet, hfails, hsplit ▸ by simp, hchanged⟩

end SymbolTable

end Deskhand
