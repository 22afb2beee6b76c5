import Deskhand.Proofs.Bindings
import Deskhand.Proofs.Language

/-!
# What targets need

A write binds no name on its way: to write at the end of a path, the name in front of the path and the
names in its subscripts must have a binding (`Expr.Target.needs`). A write fails for an undefined name
only if its target needs that name (`SymbolTable.write_of_undefined`). An expression binds the names
that it reads before it reads them, and a target that is evaluated as one has all bound that it needs
(`SymbolTable.bound_of_needs`).
-/

namespace Deskhand

/-! ## Texts without blanks around them -/

namespace Text

theorem dropBlanks_of_head {cs : List Char} (h : ∀ c ∈ cs.head?, isBlank c = false) :
    dropBlanks cs = cs := by
  cases cs with
  | nil => rfl
  | cons c rest => exact List.dropWhile_cons_of_neg (by simp [h c rfl])

theorem head?_dropBlanks (cs : List Char) : ∀ c ∈ (dropBlanks cs).head?, isBlank c = false := by
  induction cs with
  | nil => nofun
  | cons c rest ih =>
    unfold dropBlanks
    rw [List.dropWhile_cons]
    split
    · exact ih
    · next hc =>
      rintro d ⟨⟩
      simpa using hc

theorem dropEndBlanks_eq (cs : List Char) :
    dropEndBlanks cs = (dropBlanks cs.reverse).reverse := rfl

/-- Dropping blanks at the end leaves the character at the start alone, unless all are blanks. -/
theorem head?_dropEndBlanks {cs : List Char} {c : Char} (h : c ∈ (dropEndBlanks cs).head?) :
    c ∈ cs.head? := by
  obtain ⟨blanks, hblanks⟩ : dropBlanks cs.reverse <:+ cs.reverse := List.dropWhile_suffix _
  have hcs : cs = dropEndBlanks cs ++ blanks.reverse := by
    rw [dropEndBlanks_eq, ← List.reverse_append, hblanks, List.reverse_reverse]
  rw [hcs]
  exact List.mem_head?_append_of_mem_head? h

theorem trimChars_of_ends {cs : List Char} (hhead : ∀ c ∈ cs.head?, isBlank c = false)
    (hlast : ∀ c ∈ cs.getLast?, isBlank c = false) : trimChars cs = cs := by
  rw [← List.head?_reverse] at hlast
  rw [trimChars, dropBlanks_of_head hhead, dropEndBlanks_eq, dropBlanks_of_head hlast,
    List.reverse_reverse]

theorem trimChars_trimChars (cs : List Char) : trimChars (trimChars cs) = trimChars cs := by
  have hstart : dropBlanks (trimChars cs) = trimChars cs :=
    dropBlanks_of_head fun c hc => head?_dropBlanks cs c (head?_dropEndBlanks hc)
  have hend : dropEndBlanks (trimChars cs) = trimChars cs := by
    rw [trimChars, dropEndBlanks_eq, dropEndBlanks_eq, List.reverse_reverse]
    rw [dropBlanks_of_head (head?_dropBlanks _)]
  rw [trimChars, hstart, hend]

theorem trim_trim (s : String) : trim (trim s) = trim s := by
  simp only [trim, String.toList_ofList, trimChars_trimChars]

end Text

/-! ## What targets need -/

namespace Expr

/-- The names that must have a binding for something to be written at the end of the path; without a
path the name itself is bound. -/
def Target.needs (target : Target) : List String :=
  if target.path.isEmpty then [] else target.name :: target.path.flatMap Accessor.names

/-- The text is a target that needs the name. -/
def TargetNeeds (source name : String) : Prop :=
  ∃ target, readTarget source = .ok target ∧ name ∈ target.needs

/-- As an expression a target reads its name and the names in its subscripts. -/
theorem names_of_toTarget {e : Expr} {target : Target} (h : e.toTarget? = some target) :
    e.names = target.name :: target.path.flatMap Accessor.names := by
  fun_induction toTarget? e generalizing target with
  | case1 s =>
    cases h
    rfl
  | case2 base i ih =>
    obtain ⟨t, ht, rfl⟩ := Option.map_eq_some_iff.1 h
    simp [names, ih ht, Accessor.names]
  | case3 base key ih =>
    obtain ⟨t, ht, rfl⟩ := Option.map_eq_some_iff.1 h
    simp [names, ih ht, Accessor.names]
  | case4 => cases h

theorem Target.needs_subset {e : Expr} {target : Target} (h : e.toTarget? = some target) :
    target.needs ⊆ e.names := by
  rw [names_of_toTarget h]
  unfold needs
  split
  · exact List.nil_subset _
  · exact List.Subset.refl _

/-- A target is an expression. -/
theorem parse_of_readTarget {source : String} {target : Target}
    (h : readTarget source = .ok target) :
    ∃ e, parse source = .ok e ∧ e.toTarget? = some target := by
  unfold readTarget readWith at h
  obtain ⟨ts, hts, h⟩ := bind_eq_ok h
  obtain ⟨e, he, h⟩ := bind_eq_ok h
  refine ⟨e, ?_, asTarget_eq_ok.1 h⟩
  unfold parse readWith
  dsimp only
  rw [hts]
  exact he

theorem blameless_readTarget (source : String) : Blameless (readTarget source) :=
  blameless_readWith (fun _ _ => blameless_parseExpression.bind fun _ => blames_asTarget _) source

/-- An assignment that blames a name has changed nothing. -/
theorem assign_of_undefined {target : Target} {new : Value} {vars : Entries Value} {name : String}
    (h : (assign target .set new vars).2 = some (.undefinedName name)) :
    name ∈ target.needs ∧ vars.get? name = none ∧ (assign target .set new vars).1 = vars := by
  have hlacks : Lacks vars.get? (Statement.assign target .set .null).names name :=
    assign_lacks .null h
  refine ⟨?_, hlacks.2, ?_⟩
  · have hmem := hlacks.1
    unfold Target.needs
    simp only [Statement.names, names, List.nil_append, beq_self_eq_true, Bool.and_true] at hmem
    split
    · next hempty =>
      rw [List.isEmpty_iff.1 hempty] at hmem
      simp at hmem
    · next hpath => simpa [hpath] using hmem
  · unfold assign at h ⊢
    split
    · rfl
    · next path hpath =>
      rw [hpath] at h
      dsimp only at h
      split at h
      · cases h
      · next hplain =>
        rw [if_neg hplain]
        split at h
        · rfl
        · next old hold => exact absurd h (writeAt_blameless (blameless_combine .set new) path old name)

end Expr

namespace SymbolTable

variable {t : SymbolTable} {source name : String}

/-- A write that blames a name has changed nothing. -/
theorem write_of_undefined {v : Value} (h : (t.write source v).2 = .error (.undefinedName name)) :
    Expr.TargetNeeds source name ∧ t.get? name = none ∧ (t.write source v).1 = t := by
  unfold write at h ⊢
  split
  · next e he =>
    rw [he] at h
    cases h
    exact absurd he (Expr.blameless_readTarget source name)
  · next target htarget =>
    rw [htarget] at h
    dsimp only at h
    split at h
    · cases h
    · next vars e heq =>
      cases h
      obtain ⟨hneeds, hnone, hsame⟩ := Expr.assign_of_undefined (congrArg Prod.snd heq)
      rw [heq] at hsame
      exact ⟨⟨target, htarget, hneeds⟩, hnone, by rw [show vars = t.vars from hsame]⟩

/-- At the end of a path nothing is written as long as the name in front of it has no binding. -/
theorem write_of_unbound {v : Value} {target : Expr.Target}
    (htarget : Expr.readTarget source = .ok target) (hpath : target.path ≠ [])
    (hnone : t.get? target.name = none) :
    (t.write source v).1 = t ∧ ∃ e, (t.write source v).2 = .error e := by
  have hvars : t.vars.get? target.name = none := hnone
  unfold write
  rw [htarget]
  dsimp only
  unfold Expr.assign
  cases hsteps : Expr.evalPath t.vars.get? target.path with
  | error e => exact ⟨rfl, e, rfl⟩
  | ok path =>
    have hne : path ≠ [] := by
      obtain ⟨accessor, rest, hcons⟩ := List.exists_cons_of_ne_nil hpath
      rw [Expr.evalPath, hcons, List.mapM_cons] at hsteps
      obtain ⟨step, -, hsteps⟩ := bind_eq_ok hsteps
      obtain ⟨steps, -, hsteps⟩ := bind_eq_ok hsteps
      cases hsteps
      exact List.cons_ne_nil step steps
    dsimp only
    rw [if_neg (by simp [hne]), hvars]
    exact ⟨rfl, _, rfl⟩

/-- Evaluating an expression binds the names that it reads, to null if they are missing. -/
theorem get?_of_evaluate {e : Expr} (he : Expr.parse source = .ok e) (h : name ∈ Expr.freeNames e) :
    (t.evaluate source).1.get? name = some (t.value name) := by
  unfold evaluate value
  rw [he]
  dsimp only
  rw [get?_declareMissing]
  cases hname : t.get? name <;> simp [h]

theorem bound_of_evaluate {e : Expr} (he : Expr.parse source = .ok e) (h : name ∈ Expr.freeNames e) :
    ((t.evaluate source).1.get? name).isSome := by
  rw [get?_of_evaluate he h]
  rfl

theorem bound_of_condition {e : Expr} (he : Expr.parse source = .ok e)
    (h : name ∈ Expr.freeNames e) : ((t.evaluateCondition source).1.get? name).isSome := by
  have hbound : ((t.evaluate source).1.get? name).isSome := bound_of_evaluate he h
  unfold evaluateCondition
  split
  · next heq =>
    rw [heq] at hbound
    exact hbound
  · next v heq =>
    rw [heq] at hbound
    exact (Change.set Reserved.cmpResult (.bool v.isTruthy)).bound hbound

theorem bound_of_execute {statements : List Expr.Statement}
    (hs : Expr.parseStatements source = .ok statements) (h : name ∈ Expr.freeNamesOfAll statements) :
    ((t.execute source).1.get? name).isSome := by
  have hbound := t.bound_declareMissing h
  rw [Option.isSome_iff_ne_none] at hbound ⊢
  unfold execute
  rw [hs]
  exact fun hnone => hbound (Expr.runFrom_bound hnone)

/-- A target that is evaluated as an expression has all bound that it needs then. -/
theorem bound_of_needs (hneeds : Expr.TargetNeeds source name) :
    ((t.evaluate source).1.get? name).isSome := by
  obtain ⟨target, htarget, hmem⟩ := hneeds
  obtain ⟨e, he, hto⟩ := Expr.parse_of_readTarget htarget
  exact bound_of_evaluate he (Expr.mem_sortedNames.2 (Expr.Target.needs_subset hto hmem))

end SymbolTable
end Deskhand
