import Deskhand.Proofs.Identifiers
import Deskhand.Proofs.ListOperations

/-!
# Filling a variable again

What is no text is itself both to Create Data and to Fill Data, so a variable that was created with it
and filled with something else has it again once it is filled with it. A text is not: it is created as
it stands, but Fill Data evaluates it. Then the steps complete exactly if the values that are asked for
exist in turn, and the variable has the last of them (`createData_fillData_fillData`).
-/

namespace Deskhand

/-! ## Finding a value and binding it -/

/-- What Create Data makes of a value: itself, unless the type says that it is an expression. -/
def SymbolTable.initialOf (kind : String) (v : Value) (t : SymbolTable) :
    SymbolTable × Except ExprError Value :=
  if kind = "expr" then t.valueOf v else (t, .ok v)

theorem SymbolTable.valueOf_of_not_text {v : Value} (h : ∀ s, v ≠ .text s) (t : SymbolTable) :
    t.valueOf v = (t, .ok v) := by
  unfold valueOf
  split
  · exact absurd rfl (h _)
  · rfl

/-- A text that is an identifier stands for the value of that name. -/
theorem SymbolTable.evaluate_identifier {name : String} (h : Expr.IsIdentifier name)
    (t : SymbolTable) : (t.evaluate name).2 = .ok (t.value name) := by
  have hfree : Expr.freeNames (.name name) = [name] := rfl
  unfold evaluate
  rw [Expr.parse_identifier h]
  dsimp only
  rw [Expr.eval, get?_declareMissing, hfree]
  unfold value
  cases hname : t.get? name with
  | none => rw [if_pos ⟨List.mem_singleton_self name, rfl⟩]; rfl
  | some v => rw [if_neg (fun hnone => Option.some_ne_none v hnone.2)]; rfl

theorem SymbolTable.initialOf_of_not_text {v : Value} (h : ∀ s, v ≠ .text s) (kind : String)
    (t : SymbolTable) : t.initialOf kind v = (t, .ok v) := by
  unfold initialOf
  rw [valueOf_of_not_text h]
  exact ite_id _

/-- A value that was found is bound; without one the step fails as the search for it did. -/
def Workspace.taking (w : Workspace) (bind : Value → SymbolTable → SymbolTable) :
    SymbolTable × Except ExprError Value → Except Failure Unit × Workspace
  | (t, .ok v) => (.ok (), { w with symbols := bind v t })
  | (t, .error e) => (.error (.expression e), { w with symbols := t })

section Steps

variable {c : StepContext} {w w' : Workspace} {bind : Value → SymbolTable → SymbolTable}
  {r : SymbolTable × Except ExprError Value} {kind how name : String} {v : Value}

theorem Workspace.taking_eq_ok :
    w.taking bind r = (.ok (), w') ↔ ∃ t v, r = (t, .ok v) ∧ w' = { w with symbols := bind v t } := by
  constructor
  · intro h
    obtain ⟨t, e | v⟩ := r
    · cases h
    · exact ⟨t, v, rfl, (congrArg Prod.snd h).symm⟩
  · rintro ⟨t, v, rfl, rfl⟩
    rfl

namespace StepM

/-- What follows the search for a value is done with the value, if there is one. -/
theorem result_bind_taking {find : StepM Value} {rest : Value → StepM Unit}
    (hfind : find.result c w = (r.2.mapError .expression, { w with symbols := r.1 }))
    (hrest : ∀ t v, (rest v).result c { w with symbols := t } =
      (.ok (), { w with symbols := bind v t })) :
    (find >>= rest).result c w = w.taking bind r := by
  rw [result_bind, hfind]
  obtain ⟨t, e | v⟩ := r
  · rfl
  · exact hrest t v

end StepM

namespace CreateData

/-- The arguments of a Create Data step for one value. -/
def argsOf (kind name : String) (v : Value) : Entries Value :=
  [("data_type", .text kind), ("data_name", .text name), ("key_value", v)]

theorem result_initial : (initial ⟨kind, name, "NA", v⟩).result c w =
    ((w.symbols.initialOf kind v).2.mapError .expression,
      { w with symbols := (w.symbols.initialOf kind v).1 }) := by
  unfold initial SymbolTable.initialOf
  dsimp only
  rw [if_pos rfl]
  split
  · exact StepM.result_withSymbols c w _
  · next hkind =>
    by_cases hexpr : kind = "expr"
    · rw [if_pos hexpr, SymbolTable.valueOf_of_not_text fun s hs => hkind s hexpr hs]
      rfl
    · rw [if_neg hexpr]
      rfl

theorem result_eq (hname : Expr.IsIdentifier name) :
    (createData (argsOf kind name v)).result c w =
      w.taking (SymbolTable.declare name) (w.symbols.initialOf kind v) := by
  have hread : (read (argsOf kind name v)).result c w =
      (.ok ⟨kind, Text.trim name, "NA", v⟩, w) := rfl
  rw [hname.trim_eq] at hread
  refine (StepM.result_bind_of_ok hread).trans ?_
  dsimp only
  rw [if_neg (Expr.ne_empty_of_readTarget (Expr.readTarget_identifier hname))]
  exact StepM.result_bind_taking result_initial fun _ _ => rfl

end CreateData

namespace FillData

/-- The types of Fill Data that give the target the source's value. -/
def Assigns (how : String) : Prop :=
  how ∉ ["append", "prepend", "merge", "clear", "pop", "pop_key"]

instance (how : String) : Decidable (Assigns how) := inferInstanceAs (Decidable (_ ∉ _))

theorem run_of_assigns (hhow : Assigns how) (source : Value) (dest result : String) :
    run ⟨how, source, dest, result⟩ = assign ⟨how, source, dest, result⟩ := by
  unfold run
  dsimp only
  split
  case h_7 => rfl
  all_goals exact absurd (by decide) hhow

theorem result_assign (hname : Expr.IsIdentifier name) (hhow : Assigns how) :
    (fillData (argsOf how v name "")).result c w =
      w.taking (SymbolTable.set name) (w.symbols.valueOf v) := by
  have htarget := Expr.readTarget_identifier hname
  rw [(given_argsOf how v "" hname.trim_eq).result_eq (Expr.ne_empty_of_readTarget htarget),
    run_of_assigns hhow]
  exact StepM.result_bind_taking (StepM.result_valueOf_eq v) fun _ x =>
    StepM.result_write_name htarget x

/-- A failed assignment leaves every name that was bound as it was. -/
theorem keeps_of_assign_failed {f : Failure} (hname : Expr.IsIdentifier name) (hhow : Assigns how)
    (h : (fillData (argsOf how v name "")).result c w = (.error f, w')) :
    w.symbols.Keeps w'.symbols := by
  rw [result_assign hname hhow] at h
  rcases hvalue : w.symbols.valueOf v with ⟨t, e | x⟩
  · rw [hvalue] at h
    cases h
    exact SymbolTable.keeps_of_valueOf hvalue
  · rw [hvalue] at h
    cases h

end FillData

end Steps

/-! ## Three steps -/

/-- A variable is created, given another value and then given the first one again, and each of these
steps completes. -/
def Refills (kind how how' name : String) (v other : Value) (c : Fin 3 → StepContext)
    (w w' : Workspace) : Prop :=
  ∃ created filled,
    (createData (CreateData.argsOf kind name v)).result (c 0) w = (.ok (), created) ∧
    (fillData (FillData.argsOf how other name "")).result (c 1) created = (.ok (), filled) ∧
    (fillData (FillData.argsOf how' v name "")).result (c 2) filled = (.ok (), w')

section Refills

variable {kind how how' name : String} {v other : Value} {c : Fin 3 → StepContext}
  {w w' : Workspace}

/-- The steps complete exactly if the values exist in turn, and the variable has the last of them. -/
theorem refills_iff (hname : Expr.IsIdentifier name) (hhow : FillData.Assigns how)
    (hhow' : FillData.Assigns how') :
    Refills kind how how' name v other c w w' ↔
      ∃ t₀ first t₁ second t₂ third, w.symbols.initialOf kind v = (t₀, .ok first) ∧
        (t₀.declare name first).valueOf other = (t₁, .ok second) ∧
        (t₁.set name second).valueOf v = (t₂, .ok third) ∧
        w' = { w with symbols := t₂.set name third } := by
  unfold Refills
  simp only [CreateData.result_eq hname, FillData.result_assign hname hhow,
    FillData.result_assign hname hhow', Workspace.taking_eq_ok]
  constructor
  · rintro ⟨_, _, ⟨t₀, first, hfirst, rfl⟩, ⟨t₁, second, hsecond, rfl⟩, t₂, third, hthird, rfl⟩
    exact ⟨t₀, first, t₁, second, t₂, third, hfirst, hsecond, hthird, rfl⟩
  · rintro ⟨t₀, first, t₁, second, t₂, third, hfirst, hsecond, hthird, rfl⟩
    exact ⟨_, _, ⟨t₀, first, hfirst, rfl⟩, ⟨t₁, second, hsecond, rfl⟩, t₂, third, hthird, rfl⟩

/-- The law of creating and filling: values that are no texts come back. Whatever the values are, the
steps complete exactly if the values that the texts among them stand for exist in turn, and then the
variable has the last one. A filling that fails leaves the variable as it is. -/
theorem createData_fillData_fillData (hname : Expr.IsIdentifier name)
    (hhow : FillData.Assigns how) (hhow' : FillData.Assigns how') (kind : String)
    (v other : Value) (c : Fin 3 → StepContext) (w : Workspace) :
    ((∀ s, v ≠ .text s) → (∀ s, other ≠ .text s) →
      ∃ w', Refills kind how how' name v other c w w' ∧ w'.symbols.get? name = some v) ∧
    (∀ w', Refills kind how how' name v other c w w' ↔
      ∃ t₀ first t₁ second t₂ third, w.symbols.initialOf kind v = (t₀, .ok first) ∧
        (t₀.declare name first).valueOf other = (t₁, .ok second) ∧
        (t₁.set name second).valueOf v = (t₂, .ok third) ∧
        w' = { w with symbols := t₂.set name third }) ∧
    (∀ source i before after f,
      (fillData (FillData.argsOf how source name "")).result (c i) before = (.error f, after) →
      ∀ x, before.symbols.get? name = some x → after.symbols.get? name = some x) := by
  refine ⟨fun hv hother => ?_, fun w' => refills_iff hname hhow hhow',
    fun source i before after f hfailed => ?_⟩
  · refine ⟨_, (refills_iff hname hhow hhow').2
      ⟨_, _, _, _, _, _, SymbolTable.initialOf_of_not_text hv kind _,
        SymbolTable.valueOf_of_not_text hother _, SymbolTable.valueOf_of_not_text hv _, rfl⟩, ?_⟩
    exact SymbolTable.get?_set_self _ _
  · exact FillData.keeps_of_assign_failed hname hhow hfailed name

theorem isIdentifier_x : Expr.IsIdentifier "x" :=
  ⟨⟨'x', [], rfl, rfl, nofun⟩, Expr.ofWord_eq_name (by decide)⟩

theorem createData_fillData_fillData_list : ∃ w',
    Refills "list" "assign" "direct" "x" (.list [.int 1, .text "a"]) .null (fun i => ⟨.usual, i⟩)
      (.initially []) w' ∧
    w'.symbols.get? "x" = some (.list [.int 1, .text "a"]) :=
  (createData_fillData_fillData isIdentifier_x (by decide) (by decide) "list"
    (.list [.int 1, .text "a"]) .null (fun i => ⟨.usual, i⟩) (.initially [])).1 nofun nofun

/-- A text that is an identifier is created as it stands, but filled with the value of that name. -/
theorem not_refills_text : ¬∀ (name : String) (v other : Value), Expr.IsIdentifier name → ∃ w',
    Refills "string" "assign" "assign" name v other (fun i => ⟨.usual, i⟩) (.initially []) w' ∧
      w'.symbols.get? name = some v := by
  intro h
  have hy : Expr.IsIdentifier "y" :=
    ⟨⟨'y', [], rfl, rfl, nofun⟩, Expr.ofWord_eq_name (by decide)⟩
  obtain ⟨w', hrefills, hkept⟩ := h "x" (.text "y") (.int 1) isIdentifier_x
  obtain ⟨t₀, first, t₁, second, t₂, third, hfirst, hsecond, hthird, rfl⟩ :=
    (refills_iff isIdentifier_x (by decide) (by decide)).1 hrefills
  cases hfirst
  cases hsecond
  -- the name has no value at that time, so it stands for null
  have hnull := SymbolTable.evaluate_identifier hy
    (((Workspace.initially []).symbols.declare "x" (.text "y")).set "x" (.int 1))
  obtain rfl : third = .null := Except.ok.inj ((congrArg Prod.snd hthird).symm.trans hnull)
  rw [SymbolTable.get?_set_self] at hkept
  cases hkept

end Refills

end Deskhand
