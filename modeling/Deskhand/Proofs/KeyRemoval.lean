import Deskhand.Proofs.Callees
import Deskhand.Proofs.Filling

/-!
# Keys that are popped

Popping a key takes its entry out of an object and binds the result to its value. The other keys keep
their values but not their order: the last entry moves into the gap, so the order is kept only if the
key is absent or at most one entry stands behind it (`pop_key_removes`).
-/

namespace Deskhand

open Deskhand.Expr (Target)

/-! ## An entry that is removed -/

namespace Entries

variable {α : Type} {es before mid after : Entries α} {key : String} {v : α} {last : String × α}

/-- A name that is bound has an entry with others before and behind it. -/
theorem exists_split (h : key ∈ es.names) : ∃ before v after, es = before ++ (key, v) :: after := by
  obtain ⟨⟨_, v⟩, he, rfl⟩ := List.mem_map.1 h
  obtain ⟨before, after, hes⟩ := List.append_of_mem he
  exact ⟨before, v, after, hes⟩

theorem erase_of_notMem (h : key ∉ es.names) : es.erase key = es := by
  refine List.filter_eq_self.2 fun e he => decide_eq_true ?_
  rintro rfl
  exact h (List.mem_map_of_mem he)

/-- The names before and behind an entry are other ones. -/
theorem notMem_of_split (h : (before ++ (key, v) :: after).names.Nodup) :
    key ∉ before.names ∧ key ∉ after.names := by
  unfold names at h ⊢
  rw [List.map_append, List.map_cons, List.nodup_middle, List.nodup_cons, List.mem_append,
    not_or] at h
  exact h.1

theorem erase_split (h : (before ++ (key, v) :: after).names.Nodup) :
    (before ++ (key, v) :: after).erase key = before ++ after := by
  obtain ⟨hbefore, hafter⟩ := notMem_of_split h
  have hb : before.erase key = before := erase_of_notMem hbefore
  have ha : after.erase key = after := erase_of_notMem hafter
  unfold erase at hb ha ⊢
  rw [List.filter_append, List.filter_cons_of_neg (by simp), hb, ha]

theorem swapRemove_concat : (es ++ [last]).swapRemove key =
    if last.1 = key then es
    else if (es ++ [last]).has key then es.map fun e => if e.1 = key then last else e
    else es ++ [last] := by
  unfold swapRemove
  rw [List.reverse_concat]
  dsimp only
  rw [List.reverse_reverse]

theorem swapRemove_of_notMem (h : key ∉ es.names) : es.swapRemove key = es := by
  obtain rfl | ⟨init, last, rfl⟩ := List.eq_nil_or_concat' es
  · rfl
  · have hlast : last.1 ≠ key := by
      rintro rfl
      exact h (List.mem_map_of_mem List.mem_concat_self)
    rw [swapRemove_concat, if_neg hlast, if_neg (fun hhas => h (has_iff_mem_names.1 hhas))]

/-- The last entry leaves no gap. -/
theorem swapRemove_last : (before ++ [(key, v)]).swapRemove key = before := by
  rw [swapRemove_concat, if_pos rfl]

theorem map_replace_of_notMem (h : key ∉ es.names) :
    (es.map fun e => if e.1 = key then last else e) = es := by
  have hkept : ∀ e ∈ es, (if e.1 = key then last else e) = e := by
    refine fun e he => if_neg ?_
    rintro rfl
    exact h (List.mem_map_of_mem he)
  rw [List.map_congr_left hkept, List.map_id']

/-- The last entry moves into the gap that another one leaves. -/
theorem swapRemove_inner (h : (before ++ (key, v) :: (mid ++ [last])).names.Nodup) :
    (before ++ (key, v) :: (mid ++ [last])).swapRemove key = before ++ last :: mid := by
  obtain ⟨hbefore, hafter⟩ := notMem_of_split h
  have hmid : key ∉ mid.names := fun hmem => hafter (by
    unfold names at hmem ⊢
    rw [List.map_append]
    exact List.mem_append_left _ hmem)
  have hlast : last.1 ≠ key := by
    rintro rfl
    exact hafter (List.mem_map_of_mem List.mem_concat_self)
  have hhas : (before ++ (key, v) :: mid ++ [last]).has key := by
    rw [has_iff_mem_names]
    exact List.mem_map_of_mem (List.mem_append_left _ (List.mem_append_right _ List.mem_cons_self))
  rw [← List.cons_append, ← List.append_assoc, swapRemove_concat, if_neg hlast, if_pos hhas,
    List.map_append, List.map_cons, if_pos rfl, map_replace_of_notMem hbefore,
    map_replace_of_notMem hmid]

/-- What is left is the other entries, in some order. -/
theorem swapRemove_perm (h : es.names.Nodup) : (es.swapRemove key).Perm (es.erase key) := by
  by_cases hkey : key ∈ es.names
  · obtain ⟨before, v, after, rfl⟩ := exists_split hkey
    rw [erase_split h]
    obtain rfl | ⟨mid, last, rfl⟩ := List.eq_nil_or_concat' after
    · rw [swapRemove_last, List.append_nil]
    · rw [swapRemove_inner h]
      exact (List.perm_append_singleton last mid).symm.append_left before
  · rw [swapRemove_of_notMem hkey, erase_of_notMem hkey]

/-- The order is kept if at most one entry stands behind the removed one, and only then. -/
theorem swapRemove_eq_erase_iff (h : es.names.Nodup) :
    es.swapRemove key = es.erase key ↔
      ∀ before v after, es = before ++ (key, v) :: after → after.length ≤ 1 := by
  constructor
  · rintro hsame before v after rfl
    obtain rfl | ⟨mid, last, rfl⟩ := List.eq_nil_or_concat' after
    · exact Nat.zero_le 1
    · rw [swapRemove_inner h, erase_split h, List.append_cancel_left_eq] at hsame
      cases mid with
      | nil => exact Nat.le_refl 1
      | cons first mid =>
        -- the last entry cannot stand in the middle as well
        obtain ⟨rfl, -⟩ := List.cons.inj hsame
        have hsub : (last :: (mid ++ [last])).Sublist
            (before ++ (key, v) :: (last :: mid ++ [last])) :=
          (List.sublist_cons_self _ _).trans (List.sublist_append_right _ _)
        have hafter : ((last :: (mid ++ [last])).map Prod.fst).Nodup := h.sublist (hsub.map Prod.fst)
        exact absurd (List.mem_map_of_mem List.mem_concat_self) (List.nodup_cons.1 hafter).1
  · intro hfew
    by_cases hkey : key ∈ es.names
    · obtain ⟨before, v, after, rfl⟩ := exists_split hkey
      have hshort := hfew before v after rfl
      rw [erase_split h]
      match after, hshort with
      | [], _ => rw [swapRemove_last, List.append_nil]
      | [last], _ => exact @swapRemove_inner _ before [] key v last h
    · rw [swapRemove_of_notMem hkey, erase_of_notMem hkey]

theorem get?_erase_of_ne {other : String} (h : other ≠ key) (es : Entries α) :
    (es.erase key).get? other = es.get? other := by
  have hfilter := get?_filter (fun n => decide (n ≠ key)) other es
  rwa [if_pos (decide_eq_true h)] at hfilter

theorem get?_erase_self (key : String) (es : Entries α) : (es.erase key).get? key = none := by
  have hfilter := get?_filter (fun n => decide (n ≠ key)) key es
  rwa [if_neg (by simp)] at hfilter

end Entries

/-! ## The step -/

/-- The methods of an object show its entries in their order. -/
theorem Expr.eval_entries {scope : Expr.Scope} {base : Expr} {es : Entries Value}
    (h : Expr.eval scope base = .ok (.object es)) :
    Expr.eval scope (.method base "keys" []) = .ok (.list (es.names.map .text)) ∧
    Expr.eval scope (.method base "items" []) =
      .ok (.list (es.map fun e => .list [.text e.1, e.2])) := by
  rw [Expr.eval, Expr.eval, h]
  exact ⟨rfl, rfl⟩

namespace FillData

variable {c : StepContext} {w : Workspace} {source : Value} {dest result name : String}
  {target : Target} {es : Entries Value} {args : Entries Value}

theorem popKey_fills (hto : Expr.readTarget dest = .ok target) (hliteral : target.IsLiteral)
    (hobject : Expr.eval w.symbols.get? target.tree = .ok (.object es))
    (hargs : Given args ⟨"pop_key", source, dest, result⟩)
    (hresult : Expr.readTarget (Text.trim result) = .ok ⟨name, []⟩) (hname : name ≠ target.name) :
    ∃ w', Fills args c w (w.symbols.set name ((es.get? source.display).getD .null)) target
      (.object (es.swapRemove source.display)) w' := by
  obtain ⟨t', hwrite, hfilled⟩ := result_write (c := c) hto hliteral (.refl w.symbols) hobject nofun
    (.object (es.swapRemove source.display))
  refine hargs.fills hto ⟨t'.set name _, ?_, hfilled.set hliteral hname _⟩
  change (popKey ⟨"pop_key", source, dest, result⟩).result c w = _
  unfold popKey
  dsimp only
  rw [StepM.result_bind_of_ok (result_evaluate hto hliteral hobject)]
  dsimp only
  rw [StepM.result_bind_of_ok hwrite]
  exact StepM.result_store hresult _

/-- Popping a key of an object at a target with literal subscripts, under a plain name other than the
target's; an object has each of its keys once. The name is bound to the value of the key, or to null.
The target holds the other entries with the values they had, but the last one stands where the popped
one stood, and in that order the methods of the object show them. So the order is kept exactly if the
key is absent or at most one entry stands behind it. Nothing else that was bound changes. -/
theorem pop_key_removes (hto : Expr.readTarget dest = .ok target) (hliteral : target.IsLiteral)
    (hobject : Expr.eval w.symbols.get? target.tree = .ok (.object es)) (hdistinct : es.names.Nodup)
    (hargs : Given args ⟨"pop_key", source, dest, result⟩)
    (hresult : Expr.readTarget (Text.trim result) = .ok ⟨name, []⟩) (hname : name ≠ target.name)
    (c : StepContext) :
    ∃ w' left, left = es.swapRemove source.display ∧
      Fills args c w (w.symbols.set name ((es.get? source.display).getD .null)) target (.object left)
        w' ∧
      w'.symbols.get? name = some ((es.get? source.display).getD .null) ∧
      Expr.eval w'.symbols.get? (.method target.tree "keys" []) = .ok (.list (left.names.map .text)) ∧
      Expr.eval w'.symbols.get? (.method target.tree "items" []) =
        .ok (.list (left.map fun e => .list [.text e.1, e.2])) ∧
      left.Perm (es.erase source.display) ∧ left.get? source.display = none ∧
      (∀ other ≠ source.display, left.get? other = es.get? other) ∧
      (∀ before v mid last, es = before ++ (source.display, v) :: (mid ++ [last]) →
        left = before ++ last :: mid) ∧
      (left = es.erase source.display ↔
        ∀ before v after, es = before ++ (source.display, v) :: after → after.length ≤ 1) := by
  obtain ⟨w', hrun, hw, hfilled⟩ := popKey_fills (c := c) hto hliteral hobject hargs hresult hname
  obtain ⟨hkeys, hitems⟩ := Expr.eval_entries hfilled.value
  have hperm : (es.swapRemove source.display).Perm (es.erase source.display) :=
    Entries.swapRemove_perm hdistinct
  have herased : (es.erase source.display).names.Nodup :=
    hdistinct.sublist (List.filter_sublist.map Prod.fst)
  refine ⟨w', _, rfl, ⟨hrun, hw, hfilled⟩, ?_, hkeys, hitems, hperm, ?_, ?_, ?_,
    Entries.swapRemove_eq_erase_iff hdistinct⟩
  · exact hfilled.others name hname _ (SymbolTable.get?_set_self _ _)
  · rw [Entries.get?_of_perm herased hperm, Entries.get?_erase_self]
  · intro other hother
    rw [Entries.get?_of_perm herased hperm, Entries.get?_erase_of_ne hother]
  · rintro before v mid last rfl
    exact Entries.swapRemove_inner hdistinct

/-- Entries of three letters. -/
def abc : Entries Value := [("a", .int 1), ("b", .int 2), ("c", .int 3)]

/-- A workspace where `d` holds these entries. -/
def letters : Workspace := .initially [("d", .object abc)]

/-- The target `d`. -/
def lettersTarget : Target := ⟨"d", []⟩

theorem readTarget_letters : Expr.readTarget "d" = .ok lettersTarget := by cbv

theorem eval_letters : Expr.eval letters.symbols.get? lettersTarget.tree = .ok (.object abc) := rfl

theorem readTarget_x : Expr.readTarget (Text.trim "x") = .ok ⟨"x", []⟩ := by cbv

theorem given_popA :
    Given (argsOf "pop_key" (.text "a") "d" "x") ⟨"pop_key", .text "a", "d", "x"⟩ :=
  given_argsOf _ _ _ (by cbv)

theorem pop_key_removes_letters : ∃ w',
    Fills (argsOf "pop_key" (.text "a") "d" "x") ⟨.usual, 0⟩ letters
      (letters.symbols.set "x" (.int 1)) lettersTarget (.object [("c", .int 3), ("b", .int 2)]) w' ∧
    Expr.eval w'.symbols.get? (.method lettersTarget.tree "keys" []) =
      .ok (.list [.text "c", .text "b"]) := by
  obtain ⟨w', left, rfl, hfills, -, hkeys, -⟩ := pop_key_removes readTarget_letters
    (Expr.isLiteral_name _) eval_letters (by decide) given_popA readTarget_x (by decide) ⟨.usual, 0⟩
  exact ⟨w', hfills, hkeys⟩

/-- The last key comes first when the first one is popped. -/
theorem not_pop_key_keeps_order : ¬∀ (args : Entries Value) (source : Value)
    (dest result name : String) (target : Target) (w w' : Workspace) (c : StepContext)
    (es : Entries Value), Expr.readTarget dest = .ok target → target.IsLiteral →
      Expr.eval w.symbols.get? target.tree = .ok (.object es) → es.names.Nodup →
      Given args ⟨"pop_key", source, dest, result⟩ →
      Expr.readTarget (Text.trim result) = .ok ⟨name, []⟩ → name ≠ target.name →
      (fillData args).result c w = (.ok (), w') →
      Expr.eval w'.symbols.get? target.tree = .ok (.object (es.erase source.display)) := by
  intro h
  obtain ⟨w', hrun, -, hfilled⟩ := popKey_fills (c := ⟨.usual, 0⟩) readTarget_letters
    (Expr.isLiteral_name _) eval_letters given_popA readTarget_x (by decide)
  have hkept := h _ _ _ _ _ _ letters w' ⟨.usual, 0⟩ abc readTarget_letters
    (Expr.isLiteral_name _) eval_letters (by decide) given_popA readTarget_x (by decide) hrun
  have hsame : abc.swapRemove "a" = abc.erase "a" :=
    Value.object.inj (Except.ok.inj (hfilled.value.symm.trans hkept))
  exact absurd (congrArg Entries.names hsame) (by decide)

end FillData

end Deskhand
