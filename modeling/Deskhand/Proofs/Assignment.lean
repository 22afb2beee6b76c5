import Deskhand.Proofs.Fallible
import Deskhand.Proofs.Grammar
import Deskhand.Proofs.Places

/-!
# What an assignment does

The names of a scope are seen as the entries of one object, so that an assignment writes along one
path that begins with the name. If it fails, the scope is as it was unless a key was missing on the
way (`assign_failed`). If it succeeds, what was assigned stands at the end of the path, nothing apart
from the path changes, and the target as an expression reads it (`assign_reads`). Reading and writing
disagree on one kind of subscript: a truth value writes the key of its number and reads the key of
its display text (`not_reads_back`).
-/

namespace Deskhand.Expr

variable {target : Target} {op : AssignOp} {new : Value} {vars after : Entries Value}

/-! ## Assignments as writing along steps -/

/-- The steps from the scope to the target: the key of its name, then its path. -/
def Target.steps? (target : Target) (vars : Entries Value) : Option (List Step) :=
  match evalPath vars.get? target.path with
  | .ok path => some (.key target.name :: path)
  | .error _ => none

/-- The places that the target leads through in the scope. -/
def Target.leads? (target : Target) (vars : Entries Value) : Option (List Value.Place) :=
  (target.steps? vars).bind fun steps => Expr.leads? steps (.object vars)

/-- The first place on the way to the target that is missing, the name itself apart. -/
def Target.missing? (target : Target) (vars : Entries Value) : Option (List Value.Place) :=
  if vars.has target.name then
    (target.steps? vars).bind fun steps => Expr.missing? steps (.object vars)
  else none

/-- Either the assignment stops before it writes anything, or it writes along the steps. -/
theorem assign_cases (target : Target) (op : AssignOp) (new : Value) (vars : Entries Value) :
    (target.missing? vars = none ∧ ∃ e, assign target op new vars = (vars, some e)) ∨
    ∃ steps, target.steps? vars = some steps ∧
      (vars.has target.name ∨ target.missing? vars = none ∧ (assign target op new vars).2 = none) ∧
      writeAt (combine op new) steps (.object vars) =
        (.object (assign target op new vars).1, (assign target op new vars).2) := by
  unfold assign Target.missing? Target.steps?
  cases hpath : evalPath vars.get? target.path with
  | error e => exact .inl ⟨by simp, e, rfl⟩
  | ok path =>
    cases hold : vars.get? target.name with
    | none =>
      have hhas : vars.has target.name = false := by simp [Entries.has, hold]
      by_cases hplain : path = [] ∧ op = .set
      · obtain ⟨rfl, rfl⟩ := hplain
        refine .inr ⟨[.key target.name], rfl, .inr ⟨by simp [hhas], by simp⟩, ?_⟩
        simp [writeAt, combine]
      · exact .inl ⟨by simp [hhas], .undefinedName target.name, by simp [hplain]⟩
    | some old =>
      have hhas : vars.has target.name = true := by simp [Entries.has, hold]
      refine .inr ⟨.key target.name :: path, rfl, .inl hhas, ?_⟩
      by_cases hplain : path = [] ∧ op = .set
      · obtain ⟨rfl, rfl⟩ := hplain
        simp [writeAt, combine]
      · simp [writeAt, hplain, hold]

/-! ## Failure -/

/-- A failed assignment leaves the scope as it was exactly if no key is missing on the way to its
target. The first key that is missing is null afterwards, and nothing apart from it changes. -/
theorem assign_failed {e : ExprError} (h : assign target op new vars = (after, some e)) :
    (after = vars ↔ target.missing? vars = none) ∧
    ∀ ps, target.missing? vars = some ps →
      (Value.object vars).at? ps = none ∧ (Value.object after).at? ps = some .null ∧
      ∀ qs, Value.Apart qs ps → (Value.object after).at? qs = (Value.object vars).at? qs := by
  obtain ⟨hmissing, e', he⟩ | ⟨steps, hsteps, hbound, hwrite⟩ := assign_cases target op new vars
  · rw [he] at h
    cases h
    simp [hmissing]
  · rw [h] at hbound hwrite
    obtain hhas | ⟨-, hnone⟩ := hbound
    · have hmissing : target.missing? vars = Expr.missing? steps (.object vars) := by
        simp [Target.missing?, hhas, hsteps]
      obtain ⟨hkept, hfilled⟩ := writeAt_failed (congrArg Prod.snd hwrite)
      rw [hwrite] at hkept hfilled
      rw [hmissing]
      refine ⟨⟨?_, ?_⟩, hfilled⟩
      · rintro rfl
        cases hps : Expr.missing? steps (.object after) with
        | none => rfl
        | some ps =>
          obtain ⟨hbefore, hafter, -⟩ := hfilled ps hps
          rw [hbefore] at hafter
          cases hafter
      · intro hnone
        exact Value.object.inj (hkept hnone)
    · cases hnone

/-- The target `d.a.b`. -/
def nested : Target := ⟨"d", [.key "a", .key "b"]⟩

/-- A scope where `d` has these entries. -/
def bound (es : Entries Value) : Entries Value := [("d", .object es)]

theorem assign_nested_missing : assign nested .set (.int 1) (bound []) =
    (bound [("a", .null)], some (.type (.noItemAssignment "NoneType"))) := rfl

theorem assign_failed_nested :
    (bound [("a", .null)] ≠ bound [] ∧
      (Value.object (bound [("a", .null)])).at? [.entry "d", .entry "a"] = some .null) ∧
    nested.missing? (bound [("a", .int 1)]) = none := by
  have hmissing : nested.missing? (bound []) = some [.entry "d", .entry "a"] := rfl
  obtain ⟨hkept, hfilled⟩ := assign_failed assign_nested_missing
  refine ⟨⟨?_, (hfilled _ hmissing).2.1⟩, ?_⟩
  · intro hsame
    rw [hkept.1 hsame] at hmissing
    cases hmissing
  · have hfails : assign nested .set (.int 1) (bound [("a", .int 1)]) =
        (bound [("a", .int 1)], some (.type (.noItemAssignment "int"))) := rfl
    exact (assign_failed hfails).1.1 rfl

theorem not_all_or_nothing : ¬∀ (target : Target) (op : AssignOp) (new : Value)
    (vars after : Entries Value) (e : ExprError),
    assign target op new vars = (after, some e) → after = vars := by
  intro h
  have hsame := h nested .set (.int 1) _ _ _ assign_nested_missing
  cases hsame

/-! ## Subscripts read and written -/

/-- A position is an integer or a truth value. -/
theorem position_eq_ok {v : Value} {i : Int} (h : position v = .ok i) :
    v = .int i ∨ ∃ b, v = .bool b := by
  unfold position at h
  split at h
  · next n hn =>
    cases h
    cases v with
    | number x =>
      cases x with
      | int m =>
        simp only [Value.quantity?] at hn
        split at hn
        · cases hn
          exact .inl rfl
        · cases hn
      | real x => cases hn
    | bool b => exact .inr ⟨b, rfl⟩
    | _ => cases hn
  · cases h

/-- A value that gives a step gives a key that is its display text, or a position; a position is the
display text of its value unless that is a truth value. -/
theorem step_cases {scope : Scope} {e : Expr} {x : Value} {step : Step}
    (hx : eval scope e = .ok x) (h : evalAccessor scope (.index e) = .ok step) :
    (∃ k, x = .text k ∧ step = .key k) ∨
    ∃ i, position x = .ok i ∧ step = .position i := by
  obtain ⟨y, hy, hstep⟩ := bind_eq_ok h
  rw [hx] at hy
  cases hy
  split at hstep
  · next k =>
    cases hstep
    exact .inl ⟨k, rfl, rfl⟩
  · obtain ⟨i, hi, hstep⟩ := bind_eq_ok hstep
    cases hstep
    exact .inr ⟨i, hi, rfl⟩

variable {scope : Scope} {a : Accessor} {base : Expr} {step : Step} {v c : Value}
  {p : Value.Place}

/-- An accessor reads the place that its step leads to, unless it is a truth value and the place an
entry. -/
theorem eval_of_into? (hbase : eval scope base = .ok v) (ha : evalAccessor scope a = .ok step)
    (hp : step.into? v = some p) (hc : v.child? p = some c)
    (hplain : ∀ e es b, a = .index e → v = .object es → eval scope e ≠ .ok (.bool b)) :
    eval scope (a.of base) = .ok c := by
  cases a with
  | key k =>
    cases ha
    cases v with
    | object es =>
      cases hp
      have hget : Entries.get? k es = some c := hc
      simp only [Accessor.of, eval, hbase, ok_bind, attributeValue, hget]
    | _ => cases hp
  | index e =>
    obtain ⟨x, hx, -⟩ := bind_eq_ok ha
    have hread : eval scope (Accessor.of (.index e) base) = subscriptValue v x := by
      simp only [Accessor.of, eval, hbase, hx, ok_bind]
    rw [hread]
    cases v with
    | list items =>
      obtain ⟨k, rfl, rfl⟩ | ⟨i, hi, rfl⟩ := step_cases hx ha
      · cases hp
      · obtain ⟨n, hn, rfl⟩ := Option.map_eq_some_iff.1 hp
        have hget : items[n]? = some c := hc
        simp only [subscriptValue, hi, ok_bind, hn, Option.bind_some, hget]
    | object es =>
      have hdisplay : p = .entry x.display := by
        obtain ⟨k, rfl, rfl⟩ | ⟨i, hi, rfl⟩ := step_cases hx ha
        · cases hp
          rfl
        · obtain rfl | ⟨b, rfl⟩ := position_eq_ok hi
          · cases hp
            rfl
          · exact absurd hx (hplain e es b rfl rfl)
      subst hdisplay
      have hget : Entries.get? x.display es = some c := hc
      simp only [subscriptValue, hget]
    | _ => cases step <;> cases hp

/-! ## Reading what was written -/

/-- The target is reached through subscripts that have the same values after the assignment. -/
def Target.Steady (target : Target) (vars after : Entries Value) : Prop :=
  ∀ e, .index e ∈ target.path → eval after.get? e = eval vars.get? e

/-- No subscript on the way to the target looks up a truth value in an object. -/
def Target.Plain (target : Target) (vars : Entries Value) : Prop :=
  ∀ path e rest es b, target.path = path ++ .index e :: rest →
    eval vars.get? (Target.tree ⟨target.name, path⟩) = .ok (.object es) →
    eval vars.get? e ≠ .ok (.bool b)

/-- The expression that goes along a path from another one. -/
abbrev along (path : List Accessor) (base : Expr) : Expr :=
  path.foldl (fun base a => a.of base) base

/-- After a writing along a path and further steps, the path reads what was written along the
further steps. -/
theorem eval_along {before after : Scope} {change : Value → Except ExprError Value}
    {path : List Accessor} {steps more : List Step} {base : Expr} {v w : Value}
    (hsteps : evalPath before path = .ok steps)
    (hwrite : writeAt change (steps ++ more) v = (w, none))
    (hsteady : ∀ e, .index e ∈ path → eval after e = eval before e)
    (hplain : ∀ path' e rest es b, path = path' ++ .index e :: rest →
      eval before (along path' base) = .ok (.object es) → eval before e ≠ .ok (.bool b))
    (hbefore : steps ++ more ≠ [] → eval before base = .ok v)
    (hafter : eval after base = .ok w) :
    ∃ v' w', (more ≠ [] → eval before (along path base) = .ok v') ∧
      writeAt change more v' = (w', none) ∧ eval after (along path base) = .ok w' := by
  induction path generalizing steps base v w with
  | nil =>
    cases hsteps
    exact ⟨v, w, hbefore, hwrite, hafter⟩
  | cons a path ih =>
    unfold evalPath at hsteps
    rw [List.mapM_cons] at hsteps
    obtain ⟨step, hstep, hsteps⟩ := bind_eq_ok hsteps
    obtain ⟨rest, hrest, hsteps⟩ := bind_eq_ok hsteps
    cases hsteps
    have hbase : eval before base = .ok v := hbefore (List.cons_ne_nil _ _)
    rw [List.cons_append] at hwrite
    cases hp : step.into? v with
    | none =>
      obtain ⟨e, he⟩ := writeAt_blocked hp
      rw [he] at hwrite
      cases hwrite
    | some p =>
      rw [writeAt_cons hp] at hwrite
      obtain ⟨hw, hnone⟩ := Prod.mk.inj hwrite
      generalize hc' : (writeAt change (rest ++ more) ((v.child? p).getD .null)).1 = c' at hw
      subst hw
      have hsub : ∀ e es b, a = .index e → v = .object es → eval before e ≠ .ok (.bool b) := by
        rintro e es b rfl rfl
        exact hplain [] e path es b rfl hbase
      have hstep' : evalAccessor after a = .ok step := by
        cases a with
        | key k => exact hstep
        | index e =>
          have he := hsteady e List.mem_cons_self
          simpa only [evalAccessor, he] using hstep
      refine ih hrest (Prod.ext hc' hnone) (fun e he => hsteady e (List.mem_cons_of_mem a he))
        ?_ ?_ ?_
      · intro path' e rest' es b hpath
        exact hplain (a :: path') e rest' es b (by rw [hpath, List.cons_append])
      · intro hmore
        cases hc : v.child? p with
        | some c => exact eval_of_into? hbase hstep hp hc hsub
        | none =>
          -- What is missing counts as null, and no step leads into null.
          rw [hc] at hnone
          obtain ⟨next, steps, hnext⟩ := List.exists_cons_of_ne_nil hmore
          rw [hnext] at hnone
          exact absurd hnone writeAt_null_cons
      · have hp' : step.into? (v.setChild p c') = some p := (into?_setChild step v p c').trans hp
        refine eval_of_into? hafter hstep' hp' (Value.child?_setChild_self (takes_of_into? hp)) ?_
        rintro e es b rfl hobject
        obtain ⟨es', rfl⟩ := Value.object_of_setChild hobject
        rw [hsteady e List.mem_cons_self]
        exact hsub e es' b rfl rfl

theorem evalPath_append {path more : List Accessor} {steps : List Step}
    (h : evalPath scope (path ++ more) = .ok steps) :
    ∃ first rest, evalPath scope path = .ok first ∧ evalPath scope more = .ok rest ∧
      steps = first ++ rest := by
  unfold evalPath at h ⊢
  rw [List.mapM_append] at h
  obtain ⟨first, hfirst, h⟩ := bind_eq_ok h
  obtain ⟨rest, hrest, h⟩ := bind_eq_ok h
  cases h
  exact ⟨first, rest, hfirst, hrest, rfl⟩

theorem tree_concat (name : String) (path : List Accessor) (a : Accessor) :
    Target.tree ⟨name, path ++ [a]⟩ = a.of (Target.tree ⟨name, path⟩) := by
  simp [Target.tree]

/-- Every part of the target's path reads what was written along the rest of it. -/
theorem assign_along {path more : List Accessor} (hpath : target.path = path ++ more)
    (h : assign target .set new vars = (after, none)) (hsteady : target.Steady vars after)
    (hplain : target.Plain vars) :
    ∃ rest v w, evalPath vars.get? more = .ok rest ∧
      (rest ≠ [] → eval vars.get? (Target.tree ⟨target.name, path⟩) = .ok v) ∧
      writeAt (combine .set new) rest v = (w, none) ∧
      eval after.get? (Target.tree ⟨target.name, path⟩) = .ok w := by
  obtain ⟨-, e, he⟩ | ⟨steps, hsteps, -, hwrite⟩ := assign_cases target .set new vars
  · rw [he] at h
    cases h
  · rw [h] at hwrite
    unfold Target.steps? at hsteps
    split at hsteps
    · next all hall =>
      cases hsteps
      rw [hpath] at hall
      obtain ⟨first, rest, hfirst, hrest, rfl⟩ := evalPath_append hall
      rw [writeAt_cons rfl] at hwrite
      obtain ⟨hafter, hnone⟩ := Prod.mk.inj hwrite
      have hbefore : first ++ rest ≠ [] → eval vars.get? (.name target.name) =
          .ok (((Value.object vars).child? (.entry target.name)).getD .null) := by
        intro hmore
        cases hold : vars.get? target.name with
        | some old => simp [eval, hold, Value.child?]
        | none =>
          have hnull : (Value.object vars).child? (.entry target.name) = none := hold
          obtain ⟨next, steps, hnext⟩ := List.exists_cons_of_ne_nil hmore
          rw [hnull, hnext] at hnone
          exact absurd hnone writeAt_null_cons
      have hread (c : Value) (hc : (Value.object vars).setChild (.entry target.name) c =
          .object after) : eval after.get? (.name target.name) = .ok c := by
        cases hc
        simp [eval]
      have hplain' (path' : List Accessor) (e : Expr) (rest' : List Accessor)
          (es : Entries Value) (b : Bool) (hsplit : path = path' ++ .index e :: rest') :
          eval vars.get? (along path' (.name target.name)) = .ok (.object es) →
          eval vars.get? e ≠ .ok (.bool b) :=
        hplain path' e (rest' ++ more) es b (by simp [hpath, hsplit])
      obtain ⟨v, w, hv, hw, hw'⟩ := eval_along hfirst (Prod.ext rfl hnone)
        (fun e he => hsteady e (by simp [hpath, he])) hplain' hbefore (hread _ hafter)
      exact ⟨rest, v, w, hrest, hv, hw, hw'⟩
    · cases hsteps

theorem assign_written (h : assign target .set new vars = (after, none)) :
    ∃ ps, target.leads? vars = some ps ∧ (Value.object after).at? ps = some new ∧
      ∀ qs, Value.Apart qs ps → (Value.object after).at? qs = (Value.object vars).at? qs := by
  obtain ⟨-, e, he⟩ | ⟨steps, hsteps, -, hwrite⟩ := assign_cases target .set new vars
  · rw [he] at h
    cases h
  · rw [h] at hwrite
    obtain ⟨ps, new', hleads, hnew, hwritten, hsame⟩ :=
      writeAt_written (congrArg Prod.snd hwrite)
    rw [hwrite] at hwritten hsame
    cases hnew
    exact ⟨ps, by simp [Target.leads?, hsteps, hleads], hwritten, hsame⟩

theorem eval_tree_of_assign (h : assign target .set new vars = (after, none))
    (hsteady : target.Steady vars after) (hplain : target.Plain vars) :
    eval after.get? target.tree = .ok new := by
  obtain ⟨rest, v, w, hrest, -, hw, hread⟩ :=
    assign_along (List.append_nil target.path).symm h hsteady hplain
  cases hrest
  cases hw
  exact hread

/-- Where an entry was assigned there is still an object, which has what was assigned for the display
text of the subscript. -/
theorem entry_of_assign (h : assign target .set new vars = (after, none))
    (hsteady : target.Steady vars after) (hplain : target.Plain vars) {path : List Accessor}
    {e : Expr} {es : Entries Value} (hpath : target.path = path ++ [.index e])
    (hobject : eval vars.get? (Target.tree ⟨target.name, path⟩) = .ok (.object es)) :
    ∃ x es', eval after.get? e = .ok x ∧
      eval after.get? (Target.tree ⟨target.name, path⟩) = .ok (.object es') ∧
      Entries.get? x.display es' = some new := by
  obtain ⟨rest, v, w, hrest, hv, hw, hcontainer⟩ := assign_along hpath h hsteady hplain
  obtain ⟨es', rfl⟩ : ∃ es', w = .object es' := by
    obtain ⟨step, -, hstep⟩ := bind_eq_ok hrest
    cases hstep
    have hv := hv (List.cons_ne_nil _ _)
    rw [hobject] at hv
    cases hv
    cases step <;> cases hw <;> exact ⟨_, rfl⟩
  have hread := eval_tree_of_assign h hsteady hplain
  have htree : target.tree = .index (Target.tree ⟨target.name, path⟩) e := by
    have hconcat := tree_concat target.name path (.index e)
    rw [← hpath] at hconcat
    exact hconcat
  rw [htree] at hread
  obtain ⟨container, hcontainer', hread⟩ := bind_eq_ok hread
  rw [hcontainer] at hcontainer'
  cases hcontainer'
  obtain ⟨x, hx, hread⟩ := bind_eq_ok hread
  refine ⟨x, es', hx, hcontainer, ?_⟩
  simp only [subscriptValue] at hread
  split at hread
  · next hfound =>
    cases hread
    exact hfound
  · cases hread

/-- What was assigned stands at the end of the target's path, nothing apart from the path changes,
and unless a truth value is looked up in an object the target reads what was assigned; if it is an
entry, `in` and `get` find it as well. -/
theorem assign_reads (h : assign target .set new vars = (after, none)) :
    (∃ ps, target.leads? vars = some ps ∧ (Value.object after).at? ps = some new ∧
      ∀ qs, Value.Apart qs ps → (Value.object after).at? qs = (Value.object vars).at? qs) ∧
    (target.Steady vars after → target.Plain vars →
      eval after.get? target.tree = .ok new ∧
      ∀ path e es, target.path = path ++ [.index e] →
        eval vars.get? (Target.tree ⟨target.name, path⟩) = .ok (.object es) →
        eval after.get? (.compare e [(.isIn, Target.tree ⟨target.name, path⟩)]) =
          .ok (.bool true) ∧
        eval after.get? (.method (Target.tree ⟨target.name, path⟩) "get" [e]) = .ok new) := by
  refine ⟨assign_written h, ?_⟩
  intro hsteady hplain
  refine ⟨eval_tree_of_assign h hsteady hplain, ?_⟩
  intro path e es hpath hobject
  obtain ⟨x, es', hx, hcontainer, hget⟩ := entry_of_assign h hsteady hplain hpath hobject
  constructor
  · simp [eval, evalChain, hx, hcontainer, ok_bind, compareValues, contains, Entries.has, hget]
  · simp [eval, evalItems, hx, hcontainer, ok_bind, callMethod, objectMethod, hget]

/-- The target `d[e]`. -/
def entryOf (e : Expr) : Target := ⟨"d", [.index e]⟩

/-- A scope where `d` has these entries beside the list of its rows, and `k` is a key. -/
def rowsAnd (es : Entries Value) : Entries Value :=
  [("d", .object (("rows", .list [.int 1, .int 2]) :: es)), ("k", .text "total")]

theorem assign_reads_total :
    eval (rowsAnd [("total", .int 3)]).get? (entryOf (.name "k")).tree = .ok (.int 3) ∧
    eval (rowsAnd [("total", .int 3)]).get? (.compare (.name "k") [(.isIn, .name "d")]) =
      .ok (.bool true) ∧
    eval (rowsAnd [("total", .int 3)]).get? (.method (.name "d") "get" [.name "k"]) =
      .ok (.int 3) ∧
    (Value.object (rowsAnd [("total", .int 3)])).at? [.entry "d", .entry "rows"] =
      (Value.object (rowsAnd [])).at? [.entry "d", .entry "rows"] := by
  have hassign : assign (entryOf (.name "k")) .set (.int 3) (rowsAnd []) =
      (rowsAnd [("total", .int 3)], none) := rfl
  have hsteady : (entryOf (.name "k")).Steady (rowsAnd []) (rowsAnd [("total", .int 3)]) := by
    intro e he
    obtain rfl : e = .name "k" := by simpa [entryOf] using he
    rfl
  have hplain : (entryOf (.name "k")).Plain (rowsAnd []) := by
    intro path e rest es b hpath hobject htrue
    obtain rfl : e = .name "k" := by
      cases path with
      | nil => cases hpath; rfl
      | cons a path => cases path <;> cases hpath
    cases htrue
  obtain ⟨⟨ps, hleads, -, hsame⟩, hreads⟩ := assign_reads hassign
  obtain ⟨hread, hfound⟩ := hreads hsteady hplain
  obtain ⟨hin, hget⟩ := hfound [] (.name "k") _ rfl rfl
  cases hleads
  exact ⟨hread, hin, hget, hsame _ (by simp [Value.Apart])⟩

/-- The key `True` is written as the key `1` and not found again. -/
theorem not_reads_back : ¬∀ (target : Target) (new : Value) (vars after : Entries Value),
    assign target .set new vars = (after, none) → target.Steady vars after →
    eval after.get? target.tree = .ok new := by
  intro h
  have hassign : assign (entryOf (.bool true)) .set (.int 5) (bound []) =
      (bound [("1", .int 5)], none) := rfl
  have hsteady : (entryOf (.bool true)).Steady (bound []) (bound [("1", .int 5)]) := by
    intro e he
    obtain rfl : e = .bool true := by simpa [entryOf] using he
    rfl
  have hread := h _ _ _ _ hassign hsteady
  have hlost : eval (bound [("1", .int 5)]).get? (entryOf (.bool true)).tree =
      .error (.index (.key "True")) := rfl
  rw [hlost] at hread
  cases hread

end Deskhand.Expr
