import Deskhand.Proofs.Filling
import Deskhand.Proofs.WholeNumbers

/-!
# Lists as targets

On a target that holds a list, Fill Data does what its types say: it puts an item behind or before the
others, puts two lists together, or takes out the item at an index and binds the result to it. Nothing
else that was bound changes, and an item that was put in is taken out again (`list_operations`).
-/

namespace Deskhand

open Deskhand.Expr (Target)

/-! ## Indices -/

theorem itemPosition?_eq_some {k : Int} {size position : Nat} :
    itemPosition? k size = some position ↔
      (position : Int) = (if k < 0 then size + k else k) ∧ position < size := by
  unfold itemPosition?
  dsimp only
  generalize (if k < 0 then (size : Int) + k else k) = i
  by_cases h : 0 ≤ i ∧ i < size
  · rw [if_pos h, Option.some.injEq]
    omega
  · rw [if_neg h]
    refine iff_of_false nofun ?_
    omega

theorem itemPosition?_isSome {k : Int} {size : Nat} :
    (itemPosition? k size).isSome ↔ -(size : Int) ≤ k ∧ k < size := by
  unfold itemPosition?
  dsimp only
  rw [Option.isSome_ite]
  split <;> omega

/-- That an index is rounded to a real number makes no difference to a list that has fewer items than
there are whole numbers which are not rounded. -/
theorem itemPosition?_ofInt {k : Int} {size : Nat} (h : k.natAbs < 2 ^ 53 ∨ size < 2 ^ 53) :
    itemPosition? (Binary64.ofInt k).toInt64 size = itemPosition? k size := by
  by_cases hk : k.natAbs < 2 ^ 53
  · rw [Binary64.toInt64_of_whole (Binary64.whole_ofInt_of_natAbs hk)
      (Binary64.isInt64_of_natAbs hk)]
  · obtain ⟨hright, hleft⟩ := Binary64.toInt64_ofInt_far (Nat.le_of_not_lt hk)
    have hsize : size < 2 ^ 53 := h.resolve_left hk
    have hout : itemPosition? k size = none := by
      rw [← Option.not_isSome_iff_eq_none, itemPosition?_isSome]
      omega
    rw [hout, ← Option.not_isSome_iff_eq_none, itemPosition?_isSome]
    rcases Int.lt_or_gt_of_ne (show k ≠ 0 by omega) with hneg | hpos
    · have := hleft hneg
      omega
    · have := hright hpos
      omega

namespace SymbolTable

/-- What a value stands for: a text is an expression, any other value is itself. -/
def valueOf (v : Value) (t : SymbolTable) : SymbolTable × Except ExprError Value :=
  match v with
  | .text source => t.evaluate source
  | v => (t, .ok v)

theorem keeps_of_valueOf {t t' : SymbolTable} {v : Value} {r : Except ExprError Value}
    (h : t.valueOf v = (t', r)) : t.Keeps t' := by
  unfold valueOf at h
  split at h
  · exact keeps_of_evaluate h
  · cases h
    exact .refl t

/-- The index that is given is `k`: as a number, as the text of a number or by an expression. It is -1
if nothing is given, or null. -/
inductive Indexes (t : SymbolTable) : Value → Int → SymbolTable → Prop
  | blank {source : Value} (h : source.isBlank) : Indexes t source (-1) t
  | number (k : Int) : Indexes t (.int k) k t
  | numeral {s : String} {k : Int} {x : Binary64} (hgiven : Text.isBlankText s = false)
      (hread : readReal? (Text.trim s) = some x)
      (hx : Binary64.Whole k x ∧ Value.IsInt64 k ∨ x = .ofInt k) : Indexes t (.text s) k t
  | expression {s : String} {k : Int} {t' : SymbolTable} (hgiven : Text.isBlankText s = false)
      (hnone : readReal? (Text.trim s) = none) (h : t.evaluate s = (t', .ok (.int k))) :
      Indexes t (.text s) k t'
  | null {s : String} {t' : SymbolTable} (hgiven : Text.isBlankText s = false)
      (hnone : readReal? (Text.trim s) = none) (h : t.evaluate s = (t', .ok .null)) :
      Indexes t (.text s) (-1) t'

/-- The text of an integer is the index that it says. -/
theorem Indexes.of_readInt64? {t : SymbolTable} {s : String} {n : Nat}
    (h : readInt64? (Text.trim s) = some (n : Int)) (hn : n < 2 ^ 53) :
    t.Indexes (.text s) n t := by
  obtain ⟨x, hread, hwhole⟩ := readReal?_of_readInt64? h hn
  have hgiven : Text.isBlankText s = false := by
    refine Bool.eq_false_iff.2 fun hblank => ?_
    have hnothing : readInt64? "" = none := rfl
    rw [Text.trim_of_isBlankText hblank, hnothing] at h
    cases h
  exact .numeral hgiven hread (.inl ⟨hwhole, Binary64.isInt64_of_natAbs (by omega)⟩)

theorem Indexes.keeps {t t' : SymbolTable} {source : Value} {k : Int} (h : t.Indexes source k t') :
    t.Keeps t' := by
  cases h with
  | blank | number | numeral => exact .refl t
  | expression _ _ h | null _ _ h => exact keeps_of_evaluate h

end SymbolTable

/-! ## Parts of the step -/

namespace StepM

variable {c : StepContext} {w : Workspace} {t : SymbolTable} {α : Type} {a : α}

theorem result_valueOf_eq (v : Value) : (valueOf v).result c w =
    ((w.symbols.valueOf v).2.mapError .expression, { w with symbols := (w.symbols.valueOf v).1 }) := by
  cases v with
  | text source => exact result_withSymbols c w (·.evaluate source)
  | _ => rfl

theorem result_valueOf {v x : Value} (h : w.symbols.valueOf v = (t, .ok x)) :
    (valueOf v).result c w = (.ok x, { w with symbols := t }) := by
  rw [result_valueOf_eq, h]
  rfl

theorem result_valueOf_text {s : String} {x : Value} (h : w.symbols.evaluate s = (t, .ok x)) :
    (valueOf (.text s)).result c w = (.ok x, { w with symbols := t }) := result_valueOf h

theorem numberOf_text {s : String} (hgiven : Text.isBlankText s = false) :
    (Value.text s).isBlank = false ∧
      ((Value.text s).text?.bind fun s => readReal? (Text.trim s)) = readReal? (Text.trim s) :=
  ⟨hgiven, Option.bind_some _ _⟩

/-- The number that is given means the same item as the index. -/
theorem result_numberOf_index {source : Value} {k : Int} (h : w.symbols.Indexes source k t) :
    ∃ n, (numberOf source).result c w = (.ok n, { w with symbols := t }) ∧
      ∀ size, k.natAbs < 2 ^ 53 ∨ size < 2 ^ 53 →
        itemPosition? ((n.map Binary64.toInt64).getD (-1)) size = itemPosition? k size := by
  have hrounded : ∀ size, k.natAbs < 2 ^ 53 ∨ size < 2 ^ 53 →
      itemPosition? (((some (Binary64.ofInt k)).map Binary64.toInt64).getD (-1)) size =
        itemPosition? k size := by
    intro size hsize
    rw [Option.map_some, Option.getD_some, itemPosition?_ofInt hsize]
  unfold numberOf
  cases h with
  | blank hblank =>
    rw [if_pos hblank]
    exact ⟨none, rfl, fun _ _ => rfl⟩
  | number => exact ⟨some (.ofInt k), rfl, hrounded⟩
  | @numeral s _ x hgiven hread hx =>
    obtain ⟨hblank, hnumber⟩ := numberOf_text hgiven
    rw [hblank, hnumber, hread]
    refine ⟨some x, rfl, ?_⟩
    obtain ⟨hwhole, hint⟩ | hx := hx
    · intro size _
      rw [Option.map_some, Option.getD_some, Binary64.toInt64_of_whole hwhole hint]
    · rw [hx]
      exact hrounded
  | @expression s _ _ hgiven hnone hvalue =>
    obtain ⟨hblank, hnumber⟩ := numberOf_text hgiven
    rw [hblank, hnumber, hnone]
    refine ⟨some (.ofInt k), ?_, hrounded⟩
    change (valueOf (.text s) >>= _).result c w = _
    rw [result_bind_of_ok (result_valueOf_text hvalue)]
    rfl
  | @null s _ hgiven hnone hvalue =>
    obtain ⟨hblank, hnumber⟩ := numberOf_text hgiven
    rw [hblank, hnumber, hnone]
    refine ⟨none, ?_, fun _ _ => rfl⟩
    change (valueOf (.text s) >>= _).result c w = _
    rw [result_bind_of_ok (result_valueOf_text hvalue)]
    rfl

end StepM

namespace FillData

variable {c : StepContext} {w : Workspace} {t : SymbolTable} {source v : Value}
  {dest result : String} {target : Target} {items : List Value}

/-- An item is put in. -/
theorem result_extend {how : String} {item : Value} (atEnd : Bool)
    (hto : Expr.readTarget dest = .ok target) (hliteral : target.IsLiteral)
    (hlist : Expr.eval w.symbols.get? target.tree = .ok (.list items))
    (hitem : w.symbols.valueOf source = (t, .ok item)) :
    ∃ t', (extend ⟨how, source, dest, result⟩ atEnd).result c w = (.ok (), { w with symbols := t' }) ∧
      w.symbols.Filled target (.list (if atEnd then items ++ [item] else item :: items)) t' := by
  have hkeeps : w.symbols.Keeps t := SymbolTable.keeps_of_valueOf hitem
  unfold extend
  rw [StepM.result_bind_of_ok (StepM.result_valueOf hitem),
    StepM.result_bind_of_ok (result_evaluate hto hliteral (eval_of_keeps hliteral hkeeps hlist))]
  exact result_write hto hliteral hkeeps hlist nofun _

/-- Two lists are put together. -/
theorem result_merge {how : String} {more : List Value} (hto : Expr.readTarget dest = .ok target)
    (hliteral : target.IsLiteral)
    (hlist : Expr.eval w.symbols.get? target.tree = .ok (.list items))
    (hmore : w.symbols.valueOf source = (t, .ok (.list more))) :
    ∃ t', (merge ⟨how, source, dest, result⟩).result c w = (.ok (), { w with symbols := t' }) ∧
      w.symbols.Filled target (.list (items ++ more)) t' := by
  have hkeeps : w.symbols.Keeps t := SymbolTable.keeps_of_valueOf hmore
  unfold merge
  rw [StepM.result_bind_of_ok (StepM.result_valueOf hmore),
    StepM.result_bind_of_ok (result_evaluate hto hliteral (eval_of_keeps hliteral hkeeps hlist))]
  exact result_write hto hliteral hkeeps hlist nofun _

section Pop

variable {how name : String} {k : Int} (hto : Expr.readTarget dest = .ok target)
  (hliteral : target.IsLiteral)
  (hlist : Expr.eval w.symbols.get? target.tree = .ok (.list items))
  (hindex : w.symbols.Indexes source k t) (hsize : k.natAbs < 2 ^ 53 ∨ items.length < 2 ^ 53)

include hto hliteral hlist hindex hsize

/-- Behind the index the step depends on the place that it means. -/
theorem result_pop (hne : items ≠ []) :
    ∃ index, (pop ⟨how, source, dest, result⟩).result c w =
      (match itemPosition? k items.length with
        | none => throw (Failure.popOutOfRange index dest)
        | some position => do
          StepM.write dest (.list (items.eraseIdx position))
          StepM.store result ((items[position]?).getD .null)).result c { w with symbols := t } := by
  obtain ⟨n, hnumber, hsame⟩ := StepM.result_numberOf_index (c := c) hindex
  refine ⟨(n.map Binary64.toInt64).getD (-1), ?_⟩
  unfold pop
  rw [StepM.result_bind_of_ok (result_evaluate hto hliteral hlist)]
  dsimp only
  rw [if_neg (by simpa using hne), StepM.result_bind_of_ok hnumber]
  cases hposition : itemPosition? k items.length <;> simp only [hsame _ hsize, hposition]

/-- The item at the index goes to the result. -/
theorem result_pop_item {position : Nat} (hposition : itemPosition? k items.length = some position)
    (hresult : Expr.readTarget (Text.trim result) = .ok ⟨name, []⟩) (hname : name ≠ target.name) :
    ∃ t', (pop ⟨how, source, dest, result⟩).result c w = (.ok (), { w with symbols := t' }) ∧
      (w.symbols.set name ((items[position]?).getD .null)).Filled target
        (.list (items.eraseIdx position)) t' := by
  have hne : items ≠ [] := by
    rintro rfl
    exact Nat.not_lt_zero _ (itemPosition?_eq_some.1 hposition).2
  obtain ⟨index, hpop⟩ := result_pop hto hliteral hlist hindex hsize hne
  obtain ⟨t', hwrite, hfilled⟩ := result_write hto hliteral hindex.keeps hlist nofun
    (.list (items.eraseIdx position))
  rw [hpop, hposition]
  dsimp only
  rw [StepM.result_bind_of_ok hwrite]
  exact ⟨_, StepM.result_store hresult _, hfilled.set hliteral hname _⟩

/-- Outside the list the step fails and changes nothing that is bound. -/
theorem result_pop_outside (hposition : itemPosition? k items.length = none) :
    ∃ e t', (pop ⟨how, source, dest, result⟩).result c w = (.error e, { w with symbols := t' }) ∧
      w.symbols.Keeps t' := by
  by_cases hne : items = []
  · subst hne
    refine ⟨.nothingToPop dest, w.symbols, ?_, .refl _⟩
    unfold pop
    rw [StepM.result_bind_of_ok (result_evaluate hto hliteral hlist)]
    rfl
  · obtain ⟨index, hpop⟩ := result_pop hto hliteral hlist hindex hsize hne
    rw [hpop, hposition]
    exact ⟨.popOutOfRange index dest, t, rfl, hindex.keeps⟩

end Pop

/-- The item at an index is what the target gives with the index as subscript. -/
theorem eval_item {scope : Expr.Scope} {base : Expr} {k : Int} {position : Nat}
    (hlist : Expr.eval scope base = .ok (.list items)) (hint : Value.IsInt64 k)
    (hposition : itemPosition? k items.length = some position) :
    Expr.eval scope (.index base (.int k)) = .ok ((items[position]?).getD .null) := by
  have hlt : position < items.length := (itemPosition?_eq_some.1 hposition).2
  have hplace : Expr.place? k items.length = some position := hposition
  have hitem : Expr.subscriptValue (.list items) (.int k) = .ok items[position] := by
    simp only [Expr.subscriptValue, Expr.position_int hint, ok_bind, hplace, Option.bind_some,
      List.getElem?_eq_getElem hlt]
  rw [Expr.eval, hlist, List.getElem?_eq_getElem hlt]
  exact hitem

section Fills

variable {args args' : Entries Value} {source' : Value} {result' name : String} {k : Int}
  (hto : Expr.readTarget dest = .ok target) (hliteral : target.IsLiteral)

include hto hliteral

section List

variable (hlist : Expr.eval w.symbols.get? target.tree = .ok (.list items))

include hlist

theorem append_fills {item : Value} (hargs : Given args ⟨"append", source, dest, result⟩)
    (hitem : w.symbols.valueOf source = (t, .ok item)) :
    ∃ w', Fills args c w w.symbols target (.list (items ++ [item])) w' :=
  hargs.fills hto (result_extend true hto hliteral hlist hitem)

theorem prepend_fills {item : Value} (hargs : Given args ⟨"prepend", source, dest, result⟩)
    (hitem : w.symbols.valueOf source = (t, .ok item)) :
    ∃ w', Fills args c w w.symbols target (.list (item :: items)) w' :=
  hargs.fills hto (result_extend false hto hliteral hlist hitem)

theorem merge_fills {more : List Value} (hargs : Given args ⟨"merge", source, dest, result⟩)
    (hmore : w.symbols.valueOf source = (t, .ok (.list more))) :
    ∃ w', Fills args c w w.symbols target (.list (items ++ more)) w' :=
  hargs.fills hto (result_merge hto hliteral hlist hmore)

theorem pop_fills {position : Nat} (hargs : Given args ⟨"pop", source, dest, result⟩)
    (hindex : w.symbols.Indexes source k t) (hsize : k.natAbs < 2 ^ 53 ∨ items.length < 2 ^ 53)
    (hposition : itemPosition? k items.length = some position)
    (hresult : Expr.readTarget (Text.trim result) = .ok ⟨name, []⟩) (hname : name ≠ target.name) :
    ∃ w', Fills args c w (w.symbols.set name ((items[position]?).getD .null)) target
      (.list (items.eraseIdx position)) w' :=
  hargs.fills hto (result_pop_item hto hliteral hlist hindex hsize hposition hresult hname)

/-- What `target[k]` gave goes to the result, and the list lacks just that item. -/
theorem pop_inside (hargs : Given args ⟨"pop", source, dest, result⟩)
    (hindex : w.symbols.Indexes source k t) (hsize : k.natAbs < 2 ^ 53 ∨ items.length < 2 ^ 53)
    (hin : -(items.length : Int) ≤ k ∧ k < items.length)
    (hresult : Expr.readTarget (Text.trim result) = .ok ⟨name, []⟩) (hname : name ≠ target.name) :
    ∃ before item after w', items = before ++ item :: after ∧
      (before.length : Int) = (if k < 0 then items.length + k else k) ∧
      Expr.eval w.symbols.get? (.index target.tree (.int k)) = .ok item ∧
      w'.symbols.get? name = some item ∧
      Fills args c w (w.symbols.set name item) target (.list (before ++ after)) w' := by
  obtain ⟨position, hposition⟩ := Option.isSome_iff_exists.1 (itemPosition?_isSome.2 hin)
  obtain ⟨hplace, hlt⟩ := itemPosition?_eq_some.1 hposition
  have hint : Value.IsInt64 k := Binary64.isInt64_of_natAbs (by omega)
  have hitem := eval_item hlist hint hposition
  obtain ⟨w', hrun, hw, hfilled⟩ :=
    pop_fills (c := c) hto hliteral hlist hargs hindex hsize hposition hresult hname
  rw [List.getElem?_eq_getElem hlt, Option.getD_some] at hitem hfilled
  rw [List.eraseIdx_eq_take_drop_succ] at hfilled
  refine ⟨items.take position, items[position], items.drop (position + 1), w', ?_, ?_, hitem, ?_,
    hrun, hw, hfilled⟩
  · rw [← List.drop_eq_getElem_cons hlt, List.take_append_drop]
  · rw [List.length_take, Nat.min_eq_left (Nat.le_of_lt hlt), hplace]
  · exact hfilled.others name hname _ (SymbolTable.get?_set_self _ _)

theorem pop_outside (hargs : Given args ⟨"pop", source, dest, result⟩)
    (hindex : w.symbols.Indexes source k t) (hsize : k.natAbs < 2 ^ 53 ∨ items.length < 2 ^ 53)
    (hout : ¬(-(items.length : Int) ≤ k ∧ k < items.length)) :
    ∃ e w', (fillData args).result c w = (.error e, w') ∧ w.symbols.Keeps w'.symbols := by
  have hposition : itemPosition? k items.length = none := by
    rwa [← Option.not_isSome_iff_eq_none, itemPosition?_isSome]
  obtain ⟨e, t', hrun, hkeeps⟩ :=
    result_pop_outside (c := c) hto hliteral hlist hindex hsize hposition
  refine ⟨e, { w with symbols := t' }, ?_, hkeeps⟩
  rw [hargs.result_eq (Expr.ne_empty_of_readTarget hto)]
  exact hrun

end List

section Undo

variable {w₁ : Workspace} {item : Value} {more : List Value} {position : Nat}
  (hargs : Given args' ⟨"pop", source', dest, result'⟩)
  (hresult : Expr.readTarget (Text.trim result') = .ok ⟨name, []⟩) (hname : name ≠ target.name)

include hargs hresult hname

/-- An item that was put into a list is taken out again. -/
theorem pop_undoes (hfills : Fills args c w w.symbols target (.list more) w₁)
    (hindex : w₁.symbols.Indexes source' k t) (hk : k.natAbs < 2 ^ 53)
    (hposition : itemPosition? k more.length = some position) (hitem : more[position]? = some item)
    (c' : StepContext) :
    ∃ w₂, Fills args' c' w₁ (w.symbols.set name item) target (.list (more.eraseIdx position)) w₂ := by
  obtain ⟨-, -, hfilled⟩ := hfills
  obtain ⟨w₂, hrun, hw, hpopped⟩ := pop_fills (c := c') hto hliteral hfilled.value hargs hindex
    (.inl hk) hposition hresult hname
  rw [hitem, Option.getD_some] at hpopped
  exact ⟨w₂, hrun, hw, (hfilled.set hliteral hname item).trans hpopped⟩

theorem pop_undoes_append (hfills : Fills args c w w.symbols target (.list (items ++ [item])) w₁)
    (hindex : w₁.symbols.Indexes source' (-1) t) (c' : StepContext) :
    ∃ w₂, Fills args' c' w₁ (w.symbols.set name item) target (.list items) w₂ := by
  have hposition : itemPosition? (-1) (items ++ [item]).length = some items.length := by
    rw [itemPosition?_eq_some, List.length_append, List.length_singleton, if_pos (by decide)]
    omega
  have hpops := pop_undoes hto hliteral hargs hresult hname hfills hindex (by decide) hposition
    List.getElem?_concat_length c'
  rwa [List.eraseIdx_append_of_length_le (Nat.le_refl _), Nat.sub_self, List.eraseIdx_cons_zero,
    List.append_nil] at hpops

theorem pop_undoes_prepend (hfills : Fills args c w w.symbols target (.list (item :: items)) w₁)
    (hindex : w₁.symbols.Indexes source' 0 t) (c' : StepContext) :
    ∃ w₂, Fills args' c' w₁ (w.symbols.set name item) target (.list items) w₂ := by
  have hposition : itemPosition? 0 (item :: items).length = some 0 := by
    rw [itemPosition?_eq_some, List.length_cons, if_neg (by decide)]
    omega
  exact pop_undoes hto hliteral hargs hresult hname hfills hindex (by decide) hposition rfl c'

end Undo

end Fills

/-- A step that succeeds ends in one workspace only. -/
theorem Fills.eq {args : Entries Value} {base : SymbolTable} {w₁ w' : Workspace}
    (h : Fills args c w base target v w') (hrun : (fillData args).result c w = (.ok (), w₁)) :
    w' = w₁ := congrArg Prod.snd (h.1.symm.trans hrun)

/-- Fill Data on a target with literal subscripts that holds a list. To append, prepend and merge
succeed. To pop the item at an index succeeds exactly if the list has such an item. Afterwards the
result is bound to what the target gave with the index as subscript, and the list lacks just that item.
An index is rounded to a real number first, which makes a difference only if both the index and the
list reach 2⁵³, and no memory holds that many items. An item is the last one after it was appended and
the first one after it was prepended: to pop it then gives it back and leaves the list as it was. -/
theorem list_operations (hto : Expr.readTarget dest = .ok target) (hliteral : target.IsLiteral)
    (hlist : Expr.eval w.symbols.get? target.tree = .ok (.list items)) (c : StepContext) :
    (∀ args source result t item, Given args ⟨"append", source, dest, result⟩ →
      w.symbols.valueOf source = (t, .ok item) →
      ∃ w', Fills args c w w.symbols target (.list (items ++ [item])) w') ∧
    (∀ args source result t item, Given args ⟨"prepend", source, dest, result⟩ →
      w.symbols.valueOf source = (t, .ok item) →
      ∃ w', Fills args c w w.symbols target (.list (item :: items)) w') ∧
    (∀ args source result t more, Given args ⟨"merge", source, dest, result⟩ →
      w.symbols.valueOf source = (t, .ok (.list more)) →
      ∃ w', Fills args c w w.symbols target (.list (items ++ more)) w') ∧
    (∀ args source result name k t, Given args ⟨"pop", source, dest, result⟩ →
      w.symbols.Indexes source k t → k.natAbs < 2 ^ 53 ∨ items.length < 2 ^ 53 →
      Expr.readTarget (Text.trim result) = .ok ⟨name, []⟩ → name ≠ target.name →
      (-(items.length : Int) ≤ k ∧ k < items.length →
        ∃ before item after w', items = before ++ item :: after ∧
          (before.length : Int) = (if k < 0 then items.length + k else k) ∧
          Expr.eval w.symbols.get? (.index target.tree (.int k)) = .ok item ∧
          w'.symbols.get? name = some item ∧
          Fills args c w (w.symbols.set name item) target (.list (before ++ after)) w') ∧
      (¬(-(items.length : Int) ≤ k ∧ k < items.length) →
        ∃ e w', (fillData args).result c w = (.error e, w') ∧ w.symbols.Keeps w'.symbols)) ∧
    (∀ args source result t item w₁ args' source' result' name t' c',
      Given args ⟨"append", source, dest, result⟩ → w.symbols.valueOf source = (t, .ok item) →
      (fillData args).result c w = (.ok (), w₁) →
      Given args' ⟨"pop", source', dest, result'⟩ → w₁.symbols.Indexes source' (-1) t' →
      Expr.readTarget (Text.trim result') = .ok ⟨name, []⟩ → name ≠ target.name →
      ∃ w₂, Fills args' c' w₁ (w.symbols.set name item) target (.list items) w₂) ∧
    (∀ args source result t item w₁ args' source' result' name t' c',
      Given args ⟨"prepend", source, dest, result⟩ → w.symbols.valueOf source = (t, .ok item) →
      (fillData args).result c w = (.ok (), w₁) →
      Given args' ⟨"pop", source', dest, result'⟩ → w₁.symbols.Indexes source' 0 t' →
      Expr.readTarget (Text.trim result') = .ok ⟨name, []⟩ → name ≠ target.name →
      ∃ w₂, Fills args' c' w₁ (w.symbols.set name item) target (.list items) w₂) := by
  refine ⟨?_, ?_, ?_, ?_, ?_, ?_⟩
  · intro args source result t item hargs hitem
    exact append_fills hto hliteral hlist hargs hitem
  · intro args source result t item hargs hitem
    exact prepend_fills hto hliteral hlist hargs hitem
  · intro args source result t more hargs hmore
    exact merge_fills hto hliteral hlist hargs hmore
  · intro args source result name k t hargs hindex hsize hresult hname
    exact ⟨fun hin => pop_inside hto hliteral hlist hargs hindex hsize hin hresult hname,
      fun hout => pop_outside hto hliteral hlist hargs hindex hsize hout⟩
  · intro args source result t item w₁ args' source' result' name t' c' hargs hitem hrun hargs'
      hindex hresult hname
    obtain ⟨w', hfills⟩ := append_fills (c := c) hto hliteral hlist hargs hitem
    obtain rfl := hfills.eq hrun
    exact pop_undoes_append hto hliteral hargs' hresult hname hfills hindex c'
  · intro args source result t item w₁ args' source' result' name t' c' hargs hitem hrun hargs'
      hindex hresult hname
    obtain ⟨w', hfills⟩ := prepend_fills (c := c) hto hliteral hlist hargs hitem
    obtain rfl := hfills.eq hrun
    exact pop_undoes_prepend hto hliteral hargs' hresult hname hfills hindex c'

/-- A cart with two items. -/
def cart : Workspace :=
  .initially [("cart", .object [("items", .list [.int 1, .int 2])])]

/-- The items of the cart. -/
def cartItems : Target := ⟨"cart", [.index (.text "items")]⟩

theorem list_operations_cart :
    (∃ w₁ w₂ w₃,
      Fills (argsOf "append" (.int 3) "cart['items']" "") ⟨.usual, 0⟩ cart cart.symbols cartItems
        (.list [.int 1, .int 2, .int 3]) w₁ ∧
      Fills (argsOf "pop" .null "cart['items']" "x") ⟨.usual, 1⟩ w₁ (cart.symbols.set "x" (.int 3))
        cartItems (.list [.int 1, .int 2]) w₂ ∧
      Fills (argsOf "merge" (.list [.int 3]) "cart['items']" "") ⟨.usual, 0⟩ cart cart.symbols
        cartItems (.list [.int 1, .int 2, .int 3]) w₃) ∧
    (∃ w₁ w₂,
      Fills (argsOf "prepend" (.int 0) "cart['items']" "") ⟨.usual, 0⟩ cart cart.symbols cartItems
        (.list [.int 0, .int 1, .int 2]) w₁ ∧
      Fills (argsOf "pop" (.text "0") "cart['items']" "x") ⟨.usual, 1⟩ w₁
        (cart.symbols.set "x" (.int 0)) cartItems (.list [.int 1, .int 2]) w₂) ∧
    (∃ w', w'.symbols.get? "x" = some (.int 1) ∧
      Fills (argsOf "pop" (.int (-2)) "cart['items']" "x") ⟨.usual, 0⟩ cart
        (cart.symbols.set "x" (.int 1)) cartItems (.list [.int 2]) w') ∧
    (∃ e w', (fillData (argsOf "pop" (.int 2) "cart['items']" "x")).result ⟨.usual, 0⟩ cart =
      (.error e, w')) := by
  have htrim : Text.trim "cart['items']" = "cart['items']" := by cbv
  have hto : Expr.readTarget "cart['items']" = .ok cartItems := by cbv
  have hliteral : cartItems.IsLiteral := by
    intro a ha
    obtain rfl := List.mem_singleton.1 ha
    exact .text "items"
  have hlist : Expr.eval cart.symbols.get? cartItems.tree = .ok (.list [.int 1, .int 2]) := rfl
  have hresult : Expr.readTarget (Text.trim "x") = .ok ⟨"x", []⟩ := by cbv
  have hname : "x" ≠ cartItems.name := by decide
  obtain ⟨happend, hprepend, hmerge, hpop, happended, hprepended⟩ :=
    list_operations hto hliteral hlist ⟨.usual, 0⟩
  refine ⟨?_, ?_, ?_, ?_⟩
  · obtain ⟨w₁, hfills⟩ := happend _ _ _ _ (.int 3) (given_argsOf "append" (.int 3) "" htrim) rfl
    obtain ⟨w₂, hpops⟩ := happended _ _ _ _ (.int 3) w₁ _ .null "x" "x" _ ⟨.usual, 1⟩
      (given_argsOf "append" (.int 3) "" htrim) rfl hfills.1 (given_argsOf "pop" .null "x" htrim)
      (.blank rfl) hresult hname
    obtain ⟨w₃, hmerges⟩ := hmerge _ _ _ _ [.int 3]
      (given_argsOf "merge" (.list [.int 3]) "" htrim) rfl
    exact ⟨w₁, w₂, w₃, hfills, hpops, hmerges⟩
  · obtain ⟨w₁, hfills⟩ := hprepend _ _ _ _ (.int 0) (given_argsOf "prepend" (.int 0) "" htrim) rfl
    obtain ⟨w₂, hpops⟩ := hprepended _ _ _ _ (.int 0) w₁ _ (.text "0") "x" "x" _ ⟨.usual, 1⟩
      (given_argsOf "prepend" (.int 0) "" htrim) rfl hfills.1
      (given_argsOf "pop" (.text "0") "x" htrim) (.of_readInt64? (n := 0) (by cbv) (by decide))
      hresult hname
    exact ⟨w₁, w₂, hfills, hpops⟩
  · obtain ⟨hin, -⟩ := hpop _ (.int (-2)) "x" "x" (-2) _ (given_argsOf "pop" (.int (-2)) "x" htrim)
      (.number (-2)) (.inl (by decide)) hresult hname
    obtain ⟨before, item, after, w', hitems, hbefore, -, hbound, hfills⟩ := hin (by decide)
    obtain rfl : before = [] := List.eq_nil_of_length_eq_zero (by simpa using hbefore)
    cases hitems
    exact ⟨w', hbound, hfills⟩
  · obtain ⟨-, hout⟩ := hpop _ (.int 2) "x" "x" 2 _ (given_argsOf "pop" (.int 2) "x" htrim)
      (.number 2) (.inl (by decide)) hresult hname
    obtain ⟨e, w', hrun, -⟩ := hout (by decide)
    exact ⟨e, w', hrun⟩

end FillData

end Deskhand
