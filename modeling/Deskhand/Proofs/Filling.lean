import Deskhand.Proofs.Counting
import Deskhand.Proofs.Rereading
import Deskhand.Proofs.Stepwise

/-!
# Filling a target in place

Fill Data reads its target as an expression and writes to it as a target. Where the subscripts are
literals the two agree: what is read is where it is written (`SymbolTable.write_read`), and afterwards
the target has its new value while nothing else that was bound has changed (`SymbolTable.Filled`). A
step that ends in such a write fills its target (`FillData.Fills`).
-/

namespace Deskhand

open Deskhand.Expr (Target)

/-! ## Tables that keep what is bound -/

namespace SymbolTable

variable {t t' t'' : SymbolTable} {source : String}

/-- Every name that is bound keeps its value. -/
def Keeps (t t' : SymbolTable) : Prop := ∀ name v, t.get? name = some v → t'.get? name = some v

theorem Keeps.refl (t : SymbolTable) : t.Keeps t := fun _ _ h => h

theorem Keeps.trans (h : t.Keeps t') (h' : t'.Keeps t'') : t.Keeps t'' :=
  fun name v hv => h' name v (h name v hv)

theorem keeps_declareMissing (names : List String) (t : SymbolTable) :
    t.Keeps (t.declareMissing names) := by
  intro name v hv
  rw [get?_declareMissing, hv, if_neg (fun h => Option.some_ne_none v h.2)]

theorem keeps_evaluate (source : String) (t : SymbolTable) : t.Keeps (t.evaluate source).1 := by
  unfold evaluate
  split
  · exact .refl t
  · exact keeps_declareMissing _ t

theorem keeps_of_evaluate {r : Except ExprError Value} (h : t.evaluate source = (t', r)) :
    t.Keeps t' := by
  have hkeeps := keeps_evaluate source t
  rwa [h] at hkeeps

/-- Nothing is declared if nothing is missing. -/
theorem declareMissing_of_bound {names : List String} (h : ∀ n ∈ names, (t.get? n).isSome) :
    t.declareMissing names = t := by
  have hnone : t.missing names = [] := by
    refine List.eq_nil_iff_forall_not_mem.2 fun n hn => ?_
    obtain ⟨hmem, hmissing⟩ := mem_missing.1 hn
    have hbound := h n hmem
    rw [hmissing] at hbound
    cases hbound
  unfold declareMissing
  rw [hnone]
  rfl

/-! ## Reading a target and writing to it -/

variable {target : Target} {v new : Value}

/-- To evaluate a target with literal subscripts changes nothing if it has a value. -/
theorem evaluate_read (hsource : Expr.readTarget source = .ok target) (hliteral : target.IsLiteral)
    (h : Expr.eval t.get? target.tree = .ok v) : t.evaluate source = (t, .ok v) := by
  obtain ⟨e, he, htree⟩ := Expr.parse_of_readTarget hsource
  obtain rfl := Expr.eq_tree_of_toTarget htree
  obtain ⟨old, hold⟩ : ∃ old, t.get? target.name = some old := Expr.bound_of_read h
  have hbound : ∀ n ∈ Expr.freeNames target.tree, (t.get? n).isSome := by
    intro n hn
    rw [Expr.freeNames, Expr.mem_sortedNames, hliteral.names_tree, List.mem_singleton] at hn
    rw [hn, hold]
    rfl
  unfold evaluate
  rw [he]
  dsimp only
  rw [declareMissing_of_bound hbound, h]

end SymbolTable

/-- The target leads to the same places in both values, and nothing that is apart from them differs. -/
def Expr.Target.SameApart (target : Target) (old new : Value) : Prop :=
  ∃ steps ps, (∀ scope, Expr.evalPath scope target.path = .ok steps) ∧
    Expr.leads? steps old = some ps ∧ Expr.leads? steps new = some ps ∧
    ∀ qs, Value.Apart qs ps → new.at? qs = old.at? qs

theorem Expr.Target.SameApart.trans {target : Target} {old mid new : Value}
    (h : target.SameApart old mid) (h' : target.SameApart mid new) : target.SameApart old new := by
  obtain ⟨steps, ps, hsteps, hold, hmid, hsame⟩ := h
  obtain ⟨steps', ps', hsteps', hmid', hnew, hsame'⟩ := h'
  obtain rfl : steps = steps' := Except.ok.inj ((hsteps fun _ => none).symm.trans (hsteps' _))
  obtain rfl : ps = ps' := Option.some.inj (hmid.symm.trans hmid')
  exact ⟨steps, ps, hsteps, hold, hnew, fun qs hqs => (hsame' qs hqs).trans (hsame qs hqs)⟩

namespace SymbolTable

/-- The target has this value afterwards. All other names that were bound have the values they had,
and so has everything below the target's name that is apart from its path. -/
structure Filled (target : Target) (v : Value) (t t' : SymbolTable) : Prop where
  value : Expr.eval t'.get? target.tree = .ok v
  others : ∀ name ≠ target.name, ∀ x, t.get? name = some x → t'.get? name = some x
  inside : ∃ old new, t.get? target.name = some old ∧ t'.get? target.name = some new ∧
    target.SameApart old new

section Filled

variable {t t' t'' : SymbolTable} {source : String} {target : Target} {v new : Value}

/-- A target that has a value takes another one. -/
theorem write_read (hsource : Expr.readTarget source = .ok target) (hliteral : target.IsLiteral)
    (h : Expr.eval t.get? target.tree = .ok v) (htext : ∀ s, v ≠ .text s) (new : Value) :
    ∃ t', t.write source new = (t', .ok ()) ∧ t.Filled target new t' := by
  obtain ⟨old, hold⟩ : ∃ old, t.get? target.name = some old := Expr.bound_of_read h
  obtain ⟨steps, hsteps⟩ := Expr.exists_steps hliteral
  have hassign : Expr.assign target .set new t.vars = _ :=
    Expr.assign_of_read (hsteps _) (hliteral.plain t.vars) h htext hold
  have hwrite : (Expr.writeAt (Expr.combine .set new) steps old).2 = none := by
    have hbound := @Expr.assign_of_bound _ new _ _ _ .set (hsteps t.vars.get?) hold
    rw [hassign] at hbound
    exact (congrArg Prod.snd hbound).symm
  have hdone : (Expr.assign target .set new t.vars).2 = none := by
    rw [hassign]
  obtain ⟨ps, -, hleads, -, -, hsame⟩ := Expr.writeAt_written hwrite
  refine ⟨{ t with vars := (Expr.assign target .set new t.vars).1 }, ?_, ?_, ?_, ?_⟩
  · unfold write
    rw [hsource]
    dsimp only
    rw [hassign]
  · exact Expr.eval_tree_of_assign (Prod.ext rfl hdone)
      (hliteral.steady _ _) (hliteral.plain _)
  · intro name hname x hx
    exact (Expr.get?_assign_of_ne .set new t.vars hname).trans hx
  · refine ⟨old, _, hold, ?_, steps, ps, hsteps, hleads, (Expr.leads?_writeAt hwrite).trans hleads,
      hsame⟩
    change Entries.get? target.name (Expr.assign target .set new t.vars).1 = _
    rw [hassign]
    exact Entries.get?_put_self _ _ _

namespace Filled

theorem trans {v' : Value} (h : t.Filled target v t') (h' : t'.Filled target v' t'') :
    t.Filled target v' t'' := by
  obtain ⟨old, mid, hold, hmid, hsame⟩ := h.inside
  obtain ⟨mid', new, hmid', hnew, hsame'⟩ := h'.inside
  rw [hmid] at hmid'
  cases hmid'
  exact ⟨h'.value, fun name hname x hx => h'.others name hname x (h.others name hname x hx),
    old, new, hold, hnew, hsame.trans hsame'⟩

/-- What is bound before anything is written is there still. -/
theorem of_keeps (hkeeps : t.Keeps t') (hname : (t.get? target.name).isSome)
    (h : t'.Filled target v t'') : t.Filled target v t'' := by
  obtain ⟨old, new, hold, hnew, hsame⟩ := h.inside
  obtain ⟨x, hx⟩ := Option.isSome_iff_exists.1 hname
  have hx' := hkeeps target.name x hx
  rw [hold] at hx'
  cases hx'
  exact ⟨h.value, fun name hne x hx => h.others name hne x (hkeeps name x hx),
    old, new, hx, hnew, hsame⟩

/-- Another name may be bound along with it. -/
theorem set (hliteral : target.IsLiteral) {name : String} (hname : name ≠ target.name) (x : Value)
    (h : t.Filled target v t') : (t.set name x).Filled target v (t'.set name x) := by
  obtain ⟨old, new, hold, hnew, hsame⟩ := h.inside
  refine ⟨?_, ?_, old, new, ?_, ?_, hsame⟩
  · rw [← h.value]
    exact hliteral.eval_congr (get?_set_of_ne x t' hname.symm)
  · intro other hother y hy
    by_cases heq : other = name
    · subst heq
      rwa [get?_set_self] at hy ⊢
    · rw [get?_set_of_ne _ _ heq] at hy ⊢
      exact h.others other hother y hy
  · rw [get?_set_of_ne _ _ hname.symm, hold]
  · rw [get?_set_of_ne _ _ hname.symm, hnew]

end Filled

end Filled

end SymbolTable

/-! ## The step -/

namespace StepM

variable {c : StepContext} {w : Workspace} {t : SymbolTable} {α : Type} {a : α}

theorem result_withSymbols_of_ok {f : SymbolTable → SymbolTable × Except ExprError α}
    (h : f w.symbols = (t, .ok a)) :
    (withSymbols f).result c w = (.ok a, { w with symbols := t }) := by
  rw [result_withSymbols, h]
  rfl

theorem result_write_ok {dest : String} {v : Value} (h : w.symbols.write dest v = (t, .ok ())) :
    (write dest v).result c w = (.ok (), { w with symbols := t }) := by
  unfold write
  exact result_withSymbols_of_ok h

theorem result_write_failed {dest : String} {v : Value} {e : ExprError}
    (h : w.symbols.write dest v = (t, .error e)) :
    (write dest v).result c w = (.error (.expression e), { w with symbols := t }) := by
  unfold write
  rw [result_withSymbols, h]
  rfl

/-- A plain name takes any value. -/
theorem result_write_name {dest name : String} (hplain : Expr.readTarget dest = .ok ⟨name, []⟩)
    (v : Value) :
    (write dest v).result c w = (.ok (), { w with symbols := w.symbols.set name v }) := by
  refine result_write_ok ?_
  unfold SymbolTable.write
  rw [hplain]
  rfl

theorem result_store {result name : String}
    (hplain : Expr.readTarget (Text.trim result) = .ok ⟨name, []⟩) (v : Value) :
    (store result v).result c w = (.ok (), { w with symbols := w.symbols.set name v }) := by
  have hgiven : ¬Text.isBlankText result = true := by
    intro hblank
    rw [Text.trim_of_isBlankText hblank, Expr.readTarget_empty] at hplain
    cases hplain
  unfold store
  rw [if_neg hgiven]
  exact result_write_name hplain v

end StepM

/-- A text that is read as a target is not empty. -/
theorem Expr.ne_empty_of_readTarget {source : String} {target : Target}
    (h : Expr.readTarget source = .ok target) : source ≠ "" := by
  rintro rfl
  rw [Expr.readTarget_empty] at h
  cases h

/-- A workspace where these names are bound, before anything is done. -/
def Workspace.initially (vars : Entries Value) : Workspace where
  symbols := ⟨vars, []⟩
  recovery := ⟨.usual, .empty 1, []⟩
  world := .plain 0 .empty

namespace FillData

/-- The arguments of the step are read as these. -/
def Given (args : Entries Value) (f : FillData) : Prop :=
  ∀ c w, (FillData.read args).result c w = (.ok f, w)

/-- The arguments of a Fill Data step. -/
def argsOf (how : String) (source : Value) (dest result : String) : Entries Value :=
  [("fill_type", .text how), ("from", source), ("to", .text dest), ("result", .text result)]

theorem given_argsOf (how : String) (source : Value) {dest : String} (result : String)
    (htrim : Text.trim dest = dest) :
    Given (argsOf how source dest result) ⟨how, source, dest, result⟩ := by
  intro c w
  have hread : (FillData.read (argsOf how source dest result)).result c w =
      (.ok ⟨how, source, Text.trim dest, result⟩, w) := rfl
  rw [hread, htrim]

/-- The step succeeds, works on the variables alone and gives the target this value. Nothing else that
is bound in `t` has another value afterwards. -/
def Fills (args : Entries Value) (c : StepContext) (w : Workspace) (t : SymbolTable) (target : Target)
    (v : Value) (w' : Workspace) : Prop :=
  (fillData args).result c w = (.ok (), w') ∧ w' = { w with symbols := w'.symbols } ∧
    t.Filled target v w'.symbols

variable {c : StepContext} {w : Workspace} {t : SymbolTable} {v : Value} {dest : String}
  {target : Target}

/-- What the step does once its arguments are read. -/
def run (f : FillData) : StepM Unit :=
  match f.how with
  | "append" => f.extend true
  | "prepend" => f.extend false
  | "merge" => f.merge
  | "clear" => f.clear
  | "pop" => f.pop
  | "pop_key" => f.popKey
  | _ => f.assign

namespace Given

variable {args : Entries Value} {f : FillData}

theorem result_eq (h : Given args f) (hgiven : f.target ≠ "") :
    (fillData args).result c w = f.run.result c w := by
  refine (StepM.result_bind_of_ok (h c w)).trans ?_
  dsimp only
  exact congrArg (fun step : StepM Unit => step.result c w) (if_neg hgiven)

/-- What fills the target once the arguments are read is what the step does. -/
theorem fills {base : SymbolTable} (h : Given args f) (hto : Expr.readTarget f.target = .ok target)
    (hrun : ∃ t, f.run.result c w = (.ok (), { w with symbols := t }) ∧ base.Filled target v t) :
    ∃ w', Fills args c w base target v w' := by
  obtain ⟨t, hrun, hfilled⟩ := hrun
  refine ⟨{ w with symbols := t }, ?_, rfl, hfilled⟩
  rw [h.result_eq (Expr.ne_empty_of_readTarget hto), hrun]

end Given

/-- The target is read when the source has been evaluated. -/
theorem result_evaluate (hto : Expr.readTarget dest = .ok target) (hliteral : target.IsLiteral)
    (hread : Expr.eval w.symbols.get? target.tree = .ok v) :
    (StepM.evaluate dest).result c w = (.ok v, w) :=
  StepM.result_withSymbols_of_ok (SymbolTable.evaluate_read hto hliteral hread)

/-- What was evaluated before the target is read leaves its value. -/
theorem eval_of_keeps {t t' : SymbolTable} (hliteral : target.IsLiteral) (hkeeps : t.Keeps t')
    (h : Expr.eval t.get? target.tree = .ok v) : Expr.eval t'.get? target.tree = .ok v := by
  obtain ⟨old, hold⟩ : ∃ old, t.get? target.name = some old := Expr.bound_of_read h
  rw [← h]
  exact hliteral.eval_congr ((hkeeps _ _ hold).trans hold.symm)

/-- The target gets another value. -/
theorem result_write (hto : Expr.readTarget dest = .ok target)
    (hliteral : target.IsLiteral) (hkeeps : w.symbols.Keeps t)
    (hread : Expr.eval w.symbols.get? target.tree = .ok v) (htext : ∀ s, v ≠ .text s)
    (new : Value) :
    ∃ t', (StepM.write dest new).result c { w with symbols := t } =
        (.ok (), { w with symbols := t' }) ∧
      w.symbols.Filled target new t' := by
  obtain ⟨old, hold⟩ : ∃ old, w.symbols.get? target.name = some old := Expr.bound_of_read hread
  obtain ⟨t', hwrite, hfilled⟩ :=
    SymbolTable.write_read hto hliteral (eval_of_keeps hliteral hkeeps hread) htext new
  refine ⟨t', StepM.result_write_ok hwrite, .of_keeps hkeeps ?_ hfilled⟩
  rw [hold]
  rfl

end FillData

end Deskhand
