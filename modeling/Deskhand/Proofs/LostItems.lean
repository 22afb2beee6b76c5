import Deskhand.Proofs.ListOperations

/-!
# Items that are lost

Fill Data takes an item out of its target before it writes the item to the result. So a pop that fails
leaves all that was bound as it was, unless the item is out already and the result does not take it
(`PopFailure`). Nothing is lost if no result is given, or a plain name (`failed_pop`).
-/

namespace Deskhand

open Deskhand.Expr (Target)

/-! ## Parts of a step that only read -/

/-- The variables have changed, but no name that was bound. -/
def Workspace.Looks (_ : StepContext) (w w' : Workspace) : Prop :=
  w' = { w with symbols := w'.symbols } ∧ w.symbols.Keeps w'.symbols

namespace StepM

variable {α : Type} {c : StepContext} {w : Workspace}

/-- Many looks are one, whatever comes of them. -/
theorem Made.looks {step : StepM α} (h : Made Workspace.Looks step) :
    ∃ t, w.symbols.Keeps t ∧ ((∃ e, step.result c w = (.error e, { w with symbols := t })) ∨
      ∃ a, step.result c w = (.ok a, { w with symbols := t })) := by
  suffices hlooks : Workspace.Looks c w (step.result c w).2 by
    obtain ⟨hw, hkeeps⟩ := hlooks
    refine ⟨_, hkeeps, ?_⟩
    rcases hresult : step.result c w with ⟨e | a, w'⟩ <;> rw [hresult] at hw
    · exact .inl ⟨e, congrArg _ hw⟩
    · exact .inr ⟨a, congrArg _ hw⟩
  have hmade := h c w
  generalize (step.result c w).2 = w' at hmade ⊢
  induction hmade with
  | refl => exact ⟨rfl, .refl _⟩
  | tail _ hlook ih =>
    obtain ⟨hw, hkeeps⟩ := ih
    obtain ⟨hw', hkeeps'⟩ := hlook
    refine ⟨?_, hkeeps.trans hkeeps'⟩
    rw [hw', hw]

theorem evaluate_looks (source : String) : Made Workspace.Looks (evaluate source) := by
  intro c w
  unfold evaluate
  rw [result_withSymbols]
  exact .single ⟨rfl, SymbolTable.keeps_evaluate source w.symbols⟩

theorem numberOf_looks (v : Value) : Made Workspace.Looks (numberOf v) :=
  numberOf_made_of evaluate_looks v

end StepM

/-! ## What is taken out -/

/-- An item is taken out of a list, or the value of a key out of an object. -/
inductive Taken : Value → Value → Value → Prop
  | item {items : List Value} {position : Nat} (h : position < items.length) :
    Taken (.list items) items[position] (.list (items.eraseIdx position))
  | entry (key : String) (es : Entries Value) :
    Taken (.object es) ((es.get? key).getD .null) (.object (es.swapRemove key))

theorem Taken.not_text {whole item rest : Value} (h : Taken whole item rest) (s : String) :
    whole ≠ .text s := by
  cases h <;> nofun

namespace FillData

variable {c : StepContext} {w : Workspace} {how dest result : String} {source : Value}

/-- Nothing has changed that was bound, and the step has failed, or else it has read a list or an
object and has an item of it to write. -/
def Takes (dest result : String) (c : StepContext) (w : Workspace) (step : StepM Unit) : Prop :=
  (∃ e t, step.result c w = (.error e, { w with symbols := t }) ∧ w.symbols.Keeps t) ∨
  ∃ t whole item rest, (w.symbols.evaluate dest).2 = .ok whole ∧
    (w.symbols.evaluate dest).1.Keeps t ∧ Taken whole item rest ∧
    step.result c w =
      (StepM.write dest rest >>= fun _ => StepM.store result item).result c { w with symbols := t }

/-- What a step does with the value that it reads. -/
theorem takes_of_read {k : Value → StepM Unit}
    (h : ∀ t whole, w.symbols.evaluate dest = (t, .ok whole) →
      (∃ e t', (k whole).result c { w with symbols := t } = (.error e, { w with symbols := t' }) ∧
        t.Keeps t') ∨
      ∃ t' item rest, t.Keeps t' ∧ Taken whole item rest ∧
        (k whole).result c { w with symbols := t } =
          (StepM.write dest rest >>= fun _ => StepM.store result item).result c
            { w with symbols := t' }) :
    Takes dest result c w (StepM.evaluate dest >>= k) := by
  rcases hread : w.symbols.evaluate dest with ⟨t, e | whole⟩
  · have hfails : (StepM.evaluate dest).result c w =
        (.error (.expression e), { w with symbols := t }) := by
      unfold StepM.evaluate
      rw [StepM.result_withSymbols, hread]
      rfl
    refine .inl ⟨.expression e, t, ?_, SymbolTable.keeps_of_evaluate hread⟩
    rw [StepM.result_bind, hfails]
  · have hgives : (StepM.evaluate dest).result c w = (.ok whole, { w with symbols := t }) :=
      StepM.result_withSymbols_of_ok hread
    unfold Takes
    rw [StepM.result_bind_of_ok hgives]
    obtain ⟨e, t', hrun, hkeeps'⟩ | ⟨t', item, rest, hkeeps', htaken, hrun⟩ := h t whole hread
    · exact .inl ⟨e, t', hrun, (SymbolTable.keeps_of_evaluate hread).trans hkeeps'⟩
    · refine .inr ⟨t', whole, item, rest, ?_, ?_, htaken, hrun⟩
      · rw [hread]
      · rwa [hread]

theorem popKey_takes : Takes dest result c w (popKey ⟨how, source, dest, result⟩) := by
  refine takes_of_read fun t whole _ => ?_
  cases whole with
  | object es => exact .inr ⟨t, _, _, .refl t, .entry source.display es, rfl⟩
  | _ => exact .inl ⟨.notMapping dest, t, rfl, .refl t⟩

theorem pop_takes : Takes dest result c w (pop ⟨how, source, dest, result⟩) := by
  refine takes_of_read fun t whole _ => ?_
  cases whole with
  | list items =>
    dsimp only
    by_cases hempty : items.isEmpty = true
    · rw [if_pos hempty]
      exact .inl ⟨.nothingToPop dest, t, rfl, .refl t⟩
    · rw [if_neg hempty]
      obtain ⟨t', hkeeps, ⟨e, hnumber⟩ | ⟨n, hnumber⟩⟩ := (StepM.numberOf_looks source).looks
        (c := c) (w := { w with symbols := t })
      · refine .inl ⟨e, t', ?_, hkeeps⟩
        rw [StepM.result_bind, hnumber]
      · rw [StepM.result_bind_of_ok hnumber]
        dsimp only
        cases hposition : itemPosition? ((n.map Binary64.toInt64).getD (-1)) items.length with
        | none => exact .inl ⟨_, t', rfl, hkeeps⟩
        | some position =>
          have hlt : position < items.length := (itemPosition?_eq_some.1 hposition).2
          refine .inr ⟨t', _, _, hkeeps, .item hlt, ?_⟩
          dsimp only
          rw [List.getElem?_eq_getElem hlt, Option.getD_some]
  | _ => exact .inl ⟨.notList dest, t, rfl, .refl t⟩

end FillData

/-! ## The two writes -/

namespace SymbolTable

variable {t t₀ t₁ t' : SymbolTable} {dest : String} {target : Target} {whole new : Value}
  {e : ExprError}

/-- A target that was evaluated still has its value, whatever else has been bound since. -/
theorem eval_of_evaluate (hto : Expr.readTarget dest = .ok target)
    (h : t.evaluate dest = (t₀, .ok whole)) (hkeeps : t₀.Keeps t₁) :
    Expr.eval t₁.get? target.tree = .ok whole := by
  obtain ⟨tree, htree, htarget⟩ := Expr.parse_of_readTarget hto
  obtain rfl := Expr.eq_tree_of_toTarget htarget
  unfold evaluate at h
  rw [htree] at h
  obtain ⟨rfl, hvalue⟩ := Prod.mk.inj h
  rw [← hvalue]
  refine Expr.eval_congr _ fun n hn => ?_
  have hbound := bound_declareMissing t (Expr.mem_sortedNames.2 hn)
  obtain ⟨v, hv⟩ := Option.isSome_iff_exists.1 hbound
  exact (hkeeps n v hv).trans hv.symm

/-- To write to a target that was evaluated changes nothing when it fails, unless a truth value is
looked up in an object on the way. -/
theorem keeps_of_write_failed (h : t.evaluate dest = (t₀, .ok whole)) (hkeeps : t₀.Keeps t₁)
    (htext : ∀ s, whole ≠ .text s)
    (hplain : ∀ target, Expr.readTarget dest = .ok target → target.Plain t₁.vars)
    (hwrite : t₁.write dest new = (t', .error e)) : t₁.Keeps t' := by
  unfold write at hwrite
  cases hto : Expr.readTarget dest with
  | error e' =>
    rw [hto] at hwrite
    cases hwrite
    exact .refl t₁
  | ok target =>
    rw [hto] at hwrite
    dsimp only at hwrite
    have hread := eval_of_evaluate hto h hkeeps
    obtain ⟨old, hold⟩ : ∃ old, t₁.get? target.name = some old := Expr.bound_of_read hread
    cases hsteps : Expr.evalPath t₁.get? target.path with
    | error e' =>
      -- the subscripts come first, so nothing has been written yet
      have hstops : Expr.assign target .set new t₁.vars = (t₁.vars, some e') := by
        unfold Expr.assign
        rw [show Expr.evalPath t₁.vars.get? target.path = .error e' from hsteps]
      rw [hstops] at hwrite
      cases hwrite
      exact .refl t₁
    | ok steps =>
      rw [Expr.assign_of_read hsteps (hplain target hto) hread htext hold] at hwrite
      cases hwrite

/-- A write leaves all names alone but the target's. -/
theorem get?_of_write {r : Except ExprError Unit} {name : String}
    (hwrite : t.write dest new = (t', r))
    (h : ∀ target, Expr.readTarget dest = .ok target → name ≠ target.name) :
    t'.get? name = t.get? name := by
  have hsame := get?_write_of_ne (fun target hto => (h target hto).symm) new t
  rwa [hwrite] at hsame

end SymbolTable

namespace FillData

variable {c : StepContext} {w w' : Workspace} {how dest result : String} {source : Value}
  {args : Entries Value} {e : Failure}

/-- What a pop that fails has done to the variables. -/
inductive PopFailure (dest result : String) (t : SymbolTable) : SymbolTable → Prop
  /-- Nothing has changed that was bound. -/
  | kept {t' : SymbolTable} (h : t.Keeps t') : PopFailure dest result t t'
  /-- The target was not written, for a truth value is looked up in an object on the way. -/
  | blocked {t₁ t' : SymbolTable} {target : Target} {new : Value} {e : ExprError}
      (hkeeps : t.Keeps t₁) (hto : Expr.readTarget dest = .ok target)
      (htruth : ¬target.Plain t₁.vars) (hwrite : t₁.write dest new = (t', .error e)) :
      PopFailure dest result t t'
  /-- The target lacks the item, and the result does not have it. -/
  | lost {t₁ t₂ t' : SymbolTable} {whole item rest : Value} {e : ExprError} (hkeeps : t.Keeps t₁)
      (hread : (t.evaluate dest).2 = .ok whole) (htaken : Taken whole item rest)
      (hwrite : t₁.write dest rest = (t₂, .ok ()))
      (hfilled : ∀ target, Expr.readTarget dest = .ok target → target.IsLiteral →
        t₁.Filled target rest t₂)
      (hgiven : Text.isBlankText result = false)
      (hresult : ∀ name, Expr.readTarget (Text.trim result) ≠ .ok ⟨name, []⟩)
      (hstore : t₂.write (Text.trim result) item = (t', .error e)) :
      PopFailure dest result t t'

/-- To store an item fails only if a result is given that is no plain name. -/
theorem store_failed {v : Value} (hfails : (StepM.store result v).result c w = (.error e, w')) :
    Text.isBlankText result = false ∧
    (∀ name, Expr.readTarget (Text.trim result) ≠ .ok ⟨name, []⟩) ∧
    ∃ e', w.symbols.write (Text.trim result) v = (w'.symbols, .error e') := by
  refine ⟨Bool.eq_false_iff.2 fun hblank => ?_, fun name hplain => ?_, ?_⟩
  · unfold StepM.store at hfails
    rw [if_pos hblank] at hfails
    cases hfails
  · rw [StepM.result_store hplain] at hfails
    cases hfails
  · unfold StepM.store at hfails
    split at hfails
    · cases hfails
    · rcases hwrite : w.symbols.write (Text.trim result) v with ⟨t', e' | done⟩
      · rw [StepM.result_write_failed hwrite] at hfails
        cases hfails
        exact ⟨e', rfl⟩
      · rw [StepM.result_write_ok hwrite] at hfails
        cases hfails

theorem popFailure_of_takes {step : StepM Unit} (htakes : Takes dest result c w step)
    (hfails : step.result c w = (.error e, w')) : PopFailure dest result w.symbols w'.symbols := by
  obtain ⟨e', t, hrun, hkeeps⟩ | ⟨t₁, whole, item, rest, hread, hkeeps, htaken, hrun⟩ := htakes
  · rw [hrun] at hfails
    cases hfails
    exact .kept hkeeps
  · rw [hrun] at hfails
    have hbefore := (SymbolTable.keeps_evaluate dest w.symbols).trans hkeeps
    have heval : w.symbols.evaluate dest = ((w.symbols.evaluate dest).1, .ok whole) :=
      Prod.ext rfl hread
    rcases hwrite : t₁.write dest rest with ⟨t₂, e' | done⟩
    · rw [StepM.result_bind, StepM.result_write_failed hwrite] at hfails
      cases hfails
      by_cases hplain : ∀ target, Expr.readTarget dest = .ok target → target.Plain t₁.vars
      · refine .kept (hbefore.trans ?_)
        exact SymbolTable.keeps_of_write_failed heval hkeeps htaken.not_text hplain hwrite
      · push Not at hplain
        obtain ⟨target, hto, htruth⟩ := hplain
        exact .blocked hbefore hto htruth hwrite
    · rw [StepM.result_bind_of_ok (StepM.result_write_ok hwrite)] at hfails
      obtain ⟨hgiven, hresult, e', hstore⟩ := store_failed hfails
      refine .lost hbefore hread htaken hwrite ?_ hgiven hresult hstore
      intro target hto hliteral
      obtain ⟨t', hwritten, hfilled⟩ := SymbolTable.write_read hto hliteral
        (SymbolTable.eval_of_evaluate hto heval hkeeps) htaken.not_text rest
      rw [hwrite] at hwritten
      cases hwritten
      exact hfilled

/-- A pop of an item or a key that fails leaves everything that was bound as it was, unless the target
was written before the result could not be, or could not be written for a truth value in a subscript.
Names other than those of the two targets keep their values in any case. So nothing is lost if the
subscripts of the target are literals and the result is a plain name, or not given. -/
theorem failed_pop (hhow : how = "pop" ∨ how = "pop_key")
    (hargs : Given args ⟨how, source, dest, result⟩)
    (hfails : (fillData args).result c w = (.error e, w')) :
    PopFailure dest result w.symbols w'.symbols ∧
    (∀ name v, (∀ target, Expr.readTarget dest = .ok target → name ≠ target.name) →
      (∀ target, Expr.readTarget (Text.trim result) = .ok target → name ≠ target.name) →
      w.symbols.get? name = some v → w'.symbols.get? name = some v) ∧
    ((∀ target, Expr.readTarget dest = .ok target → target.IsLiteral) →
      (Text.isBlankText result ∨ ∃ name, Expr.readTarget (Text.trim result) = .ok ⟨name, []⟩) →
      w.symbols.Keeps w'.symbols) := by
  have hfailure : PopFailure dest result w.symbols w'.symbols := by
    by_cases hgiven : dest = ""
    · subst hgiven
      rw [show (fillData args).result c w = (.error .noTarget, w) from
        (StepM.result_bind_of_ok (hargs c w)).trans rfl] at hfails
      cases hfails
      exact .kept (.refl _)
    · rw [hargs.result_eq hgiven] at hfails
      obtain rfl | rfl := hhow
      · exact popFailure_of_takes pop_takes hfails
      · exact popFailure_of_takes popKey_takes hfails
  refine ⟨hfailure, ?_, ?_⟩
  · intro name v hdest hresult hv
    cases hfailure with
    | kept h => exact h name v hv
    | blocked hkeeps _ _ hwrite =>
      exact (SymbolTable.get?_of_write hwrite hdest).trans (hkeeps name v hv)
    | lost hkeeps _ _ hwrite _ _ _ hstore =>
      rw [SymbolTable.get?_of_write hstore hresult, SymbolTable.get?_of_write hwrite hdest]
      exact hkeeps name v hv
  · intro hliteral hplace
    cases hfailure with
    | kept h => exact h
    | blocked _ hto htruth _ => exact absurd ((hliteral _ hto).plain _) htruth
    | lost _ _ _ _ _ hgiven hresult _ =>
      obtain hblank | ⟨name, hname⟩ := hplace
      · rw [hgiven] at hblank
        cases hblank
      · exact absurd hname (hresult name)

/-- A shelf with three items. -/
def shelf : Workspace :=
  .initially [("items", .list [.int 1, .int 2, .int 3]), ("kept", .int 7), ("spare", .list [])]

/-- The shelf without its last item. -/
def emptied : Workspace :=
  .initially [("items", .list [.int 1, .int 2]), ("kept", .int 7), ("spare", .list [])]

theorem given_shelf :
    Given (argsOf "pop" .null "items" "last item") ⟨"pop", .null, "items", "last item"⟩ :=
  given_argsOf _ _ _ (by cbv)

theorem readTarget_shelf : Expr.readTarget "items" = .ok ⟨"items", []⟩ := by cbv

theorem readTarget_lastItem : Expr.readTarget (Text.trim "last item") =
    .error (.syntaxFault 5 .trailingInput) := by cbv

/-- The item is off the shelf before the result turns out to be no target. -/
theorem pop_shelf : (fillData (argsOf "pop" .null "items" "last item")).result ⟨.usual, 0⟩ shelf =
    (.error (.expression (.syntaxFault 5 .trailingInput)), emptied) := by
  have hlist : Expr.eval shelf.symbols.get? (Target.tree ⟨"items", []⟩) =
      .ok (.list [.int 1, .int 2, .int 3]) := rfl
  have hindex : shelf.symbols.Indexes .null (-1) shelf.symbols := .blank rfl
  obtain ⟨index, hpop⟩ :
      ∃ index, (pop ⟨"pop", .null, "items", "last item"⟩).result ⟨.usual, 0⟩ shelf = _ :=
    result_pop readTarget_shelf (Expr.isLiteral_name _) hlist hindex (.inl (by decide))
      (List.cons_ne_nil _ _)
  have hwrite : shelf.symbols.write "items" (.list [.int 1, .int 2]) = (emptied.symbols, .ok ()) := by
    unfold SymbolTable.write
    rw [readTarget_shelf]
    rfl
  have hstore : emptied.symbols.write (Text.trim "last item") (.int 3) =
      (emptied.symbols, .error (.syntaxFault 5 .trailingInput)) := by
    unfold SymbolTable.write
    rw [readTarget_lastItem]
  refine (given_shelf.result_eq (by decide)).trans (hpop.trans ?_)
  change (StepM.write "items" (.list [.int 1, .int 2]) >>= fun _ =>
    StepM.store "last item" (.int 3)).result ⟨.usual, 0⟩ shelf = _
  rw [StepM.result_bind_of_ok (StepM.result_write_ok hwrite)]
  exact StepM.result_write_failed hstore

theorem failed_pop_shelf :
    PopFailure "items" "last item" shelf.symbols emptied.symbols ∧
    emptied.symbols.get? "kept" = some (.int 7) ∧
    ∃ e w', (fillData (argsOf "pop" .null "spare" "x")).result ⟨.usual, 0⟩ shelf = (.error e, w') ∧
      shelf.symbols.Keeps w'.symbols := by
  obtain ⟨hlost, hothers, -⟩ :=
    failed_pop (.inl rfl) given_shelf pop_shelf
  refine ⟨hlost, ?_, ?_⟩
  · refine hothers "kept" _ (fun target hto => ?_) (fun target hto => ?_) rfl
    · rw [readTarget_shelf] at hto
      cases hto
      decide
    · rw [readTarget_lastItem] at hto
      cases hto
  · have hto : Expr.readTarget "spare" = .ok ⟨"spare", []⟩ := by cbv
    have hspare : Expr.eval shelf.symbols.get? (Target.tree ⟨"spare", []⟩) = .ok (.list []) := rfl
    have htrim : Text.trim "spare" = "spare" := by cbv
    have hargs := given_argsOf "pop" .null "x" htrim
    obtain ⟨e, w', hfails, -⟩ := pop_outside (c := ⟨.usual, 0⟩) hto (Expr.isLiteral_name _)
      hspare hargs (.blank rfl) (.inl (by decide)) (by decide)
    obtain ⟨-, -, hkept⟩ := failed_pop (.inl rfl) hargs hfails
    refine ⟨e, w', hfails, hkept (fun target htarget => ?_) (.inr ⟨"x", by cbv⟩)⟩
    rw [hto] at htarget
    cases htarget
    exact Expr.isLiteral_name _

/-- An item is lost with a result that is no target. -/
theorem not_failed_pop_keeps : ¬∀ (args : Entries Value) (how dest result : String) (source : Value)
    (c : StepContext) (w w' : Workspace) (e : Failure), how = "pop" ∨ how = "pop_key" →
    Given args ⟨how, source, dest, result⟩ → (fillData args).result c w = (.error e, w') →
    w.symbols.Keeps w'.symbols := by
  intro h
  have hkeeps := h _ _ _ _ _ _ _ _ _ (.inl rfl) given_shelf pop_shelf
  have hkept := hkeeps "items" (.list [.int 1, .int 2, .int 3]) rfl
  cases hkept

end FillData

end Deskhand
