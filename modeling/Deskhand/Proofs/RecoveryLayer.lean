import Deskhand.Proofs.Bindings
import Deskhand.Recovery.Layer
import Mathlib.Data.List.Induction

/-!
# The recovery layer over any operations

Operations on a recovery, with operations on the variables between them. Beside a recovery stands the
stack of its rollback points as it would be if none were ever dropped (`Recovery.Ledger`). Two things
are kept by every operation that does not write `in_exception`:

* the flag shows whether an exception is open (`Ledger.Flagged`);
* the points of the recovery are the newest of that stack, all but those that once had a full stack of
  newer ones on them (`Ledger.Kept`).

Which exceptions are open is read off the operations: the newest of them is the last that was raised
and behind which all that were raised were also resolved (`Ledger.exceptions_eq_cons`).
-/

namespace Deskhand

/-! ## Operations that leave a name alone -/

namespace SymbolTable

namespace Operation

/-- The operation may write a name. -/
def Writes (name : String) : Operation → Prop
  | set other _ => other = name
  | declare other _ => other = name
  | evaluate _ => False
  | evaluateCondition _ => Reserved.cmpResult = name
  | execute source => ∃ statements, Expr.parseStatements source = .ok statements ∧
      ∃ target op e, Expr.Statement.assign target op e ∈ statements ∧ target.name = name
  | write source _ => ∃ target, Expr.readTarget source = .ok target ∧ target.name = name
  | restore s => name ∈ s.values.names

end Operation

end SymbolTable

namespace Expr

/-- Statements write to the names of their targets only. -/
theorem get?_runFrom_of_ne {name : String} (statements : List Statement) (last : Value)
    (vars : Entries Value)
    (h : ∀ target op e, Statement.assign target op e ∈ statements → target.name ≠ name) :
    (runFrom last statements vars).1.get? name = vars.get? name := by
  induction statements generalizing last vars with
  | nil => rfl
  | cons s rest ih =>
    have hrest : ∀ target op e, Statement.assign target op e ∈ rest → target.name ≠ name := by
      intro target op e hmem
      exact h target op e (List.mem_cons_of_mem s hmem)
    cases s with
    | expr e =>
      rw [runFrom]
      cases eval vars.get? e with
      | error e => rfl
      | ok v => exact ih v vars hrest
    | assign target op e =>
      have hne : target.name ≠ name := h target op e List.mem_cons_self
      rw [runFrom]
      cases eval vars.get? e with
      | error e => rfl
      | ok v =>
        have hassign := get?_assign_of_ne op v vars hne.symm
        dsimp only
        rcases hafter : assign target op v vars with ⟨after, _ | e⟩
        · rw [hafter] at hassign
          exact (ih .null after hrest).trans hassign
        · rw [hafter] at hassign
          exact hassign

end Expr

namespace SymbolTable

variable {t : SymbolTable} {name : String}

/-- Names that are bound are not missing. -/
theorem get?_declareMissing_of_bound (names : List String) (h : (t.get? name).isSome) :
    (t.declareMissing names).get? name = t.get? name := by
  rw [get?_declareMissing, if_neg]
  rintro ⟨-, hnone⟩
  rw [hnone] at h
  cases h

theorem Untracked.declareMissing (h : t.Untracked name) (names : List String) :
    (t.declareMissing names).Untracked name where
  bound := by
    rw [get?_declareMissing_of_bound names h.bound]
    exact h.bound
  undeclared := h.undeclared

theorem get?_evaluate_of_bound (source : String) (h : (t.get? name).isSome) :
    (t.evaluate source).1.get? name = t.get? name := by
  rw [evaluate]
  cases Expr.parse source with
  | error e => rfl
  | ok e => exact get?_declareMissing_of_bound _ h

/-- An operation leaves a name alone that it does not write. -/
theorem Operation.get?_apply (h : t.Untracked name) {op : Operation} (hop : ¬op.Writes name) :
    (op.apply t).get? name = t.get? name := by
  cases op with
  | set other v => exact get?_set_of_ne v t (Ne.symm hop)
  | declare other v => exact get?_declare_of_ne v t (Ne.symm hop)
  | evaluate source => exact get?_evaluate_of_bound source h.bound
  | evaluateCondition source =>
    have hevaluate := get?_evaluate_of_bound source h.bound
    rw [apply, SymbolTable.evaluateCondition]
    rcases hafter : t.evaluate source with ⟨after, e | v⟩
    · rw [hafter] at hevaluate
      exact hevaluate
    · rw [hafter] at hevaluate
      exact (get?_set_of_ne _ after (Ne.symm hop)).trans hevaluate
  | execute source =>
    rw [apply, SymbolTable.execute]
    cases hparse : Expr.parseStatements source with
    | error e => rfl
    | ok statements =>
      have hrun := Expr.get?_runFrom_of_ne statements .null
        (t.declareMissing (Expr.freeNamesOfAll statements)).vars
        fun target op e hmem hname => hop ⟨statements, hparse, target, op, e, hmem, hname⟩
      exact hrun.trans (get?_declareMissing_of_bound _ h.bound)
  | write source v =>
    exact get?_write_of_ne (fun target hread hname => hop ⟨target, hread, hname⟩) v t
  | restore s => exact h.get?_restore hop

theorem Operation.not_declares {op : Operation} (hop : ¬op.Writes name) : ¬op.Declares name := by
  cases op with
  | declare other v => exact hop
  | restore s => exact hop
  | _ => exact id

theorem flag_congr {t' : SymbolTable} (h : t'.get? name = t.get? name) :
    t'.flag name = t.flag name := by
  rw [flag, value, h]
  rfl

end SymbolTable

namespace Recovery

/-! ## Operations on a recovery -/

/-- An operation on a recovery, or one on the variables that go along with it. -/
inductive Operation where
  | record (address : Nat)
  | raise (e : ExceptionDescriptor)
  | rollBack
  | resolve
  | clear
  | declareMissing (names : List String)
  | symbols (op : SymbolTable.Operation)

namespace Operation

/-- An operation on the variables that may write a name. -/
def Writes (name : String) : Operation → Prop
  | symbols op => op.Writes name
  | _ => False

/-- An operation that neither opens nor closes an exception. -/
def Calm : Operation → Prop
  | raise _ | resolve | clear => False
  | _ => True

end Operation

/-- Operations that close all the exceptions that they open, and no others. -/
inductive Balanced : List Operation → Prop
  | nil : Balanced []
  | calm {op : Operation} (hop : op.Calm) : Balanced [op]
  | append {ops more : List Operation} (h : Balanced ops) (h' : Balanced more) : Balanced (ops ++ more)
  | nested {inner : List Operation} (e : ExceptionDescriptor) (h : Balanced inner) :
      Balanced (.raise e :: inner ++ [.resolve])

/-- Variables and a recovery. Beside them stand all rollback points that were put on the stack and
not taken off since, the newest first, as if none had ever been dropped, and the largest number of
them that there was at any time. -/
structure Ledger where
  symbols : SymbolTable
  recovery : Recovery
  all : List RollbackPoint
  highest : Nat

namespace Ledger

/-- A recovery with nothing in it, at the start of a mission. -/
def start (config : RecoveryConfig) : Ledger := ⟨.initial, .ofConfig config, [], 0⟩

/-- The ledger after an operation. Every point that is recorded goes on both stacks, and where the
recovery takes one off, one is taken off the other stack. -/
def apply (l : Ledger) : Operation → Ledger
  | .record address =>
    { l with
      recovery := l.recovery.record address l.symbols
      all := ⟨address, l.symbols.snapshot⟩ :: l.all
      highest := max l.highest (l.all.length + 1) }
  | .raise e =>
    { l with
      symbols := (l.recovery.raise e l.symbols).1
      recovery := (l.recovery.raise e l.symbols).2 }
  | .rollBack =>
    { l with
      symbols := (l.recovery.rollBack l.symbols).2.1
      recovery := (l.recovery.rollBack l.symbols).2.2
      all := if (l.recovery.rollBack l.symbols).1.isSome then l.all.tail else l.all }
  | .resolve =>
    { l with
      symbols := (l.recovery.resolve l.symbols).2.1
      recovery := (l.recovery.resolve l.symbols).2.2 }
  | .clear =>
    { l with
      symbols := (l.recovery.clear l.symbols).1
      recovery := (l.recovery.clear l.symbols).2 }
  | .declareMissing names => { l with symbols := l.symbols.declareMissing names }
  | .symbols op => { l with symbols := op.apply l.symbols }

/-- The ledger after operations, one after another. -/
def applyAll (ops : List Operation) (l : Ledger) : Ledger := ops.foldl apply l

/-- The ledger after operations from the start of a mission. -/
def run (config : RecoveryConfig) (ops : List Operation) : Ledger := (start config).applyAll ops

theorem applyAll_append (ops more : List Operation) (l : Ledger) :
    l.applyAll (ops ++ more) = (l.applyAll ops).applyAll more := List.foldl_append

theorem run_concat (config : RecoveryConfig) (ops : List Operation) (op : Operation) :
    run config (ops ++ [op]) = (run config ops).apply op := applyAll_append ops [op] _

/-! ## Taking a point off -/

variable {l : Ledger}

/-- A roll back takes the newest point off and restores its snapshot. -/
theorem rollBack_cons {r : Recovery} {p : RollbackPoint} {rest : List RollbackPoint}
    (h : r.pages.points = p :: rest) (t : SymbolTable) :
    ∃ pages : PageStack, pages.points = rest ∧ pages.capacity = r.pages.capacity ∧
      r.rollBack t = (some p.address, t.restore p.snapshot, { r with pages }) := by
  obtain ⟨config, ⟨points, capacity, bounded⟩, exceptions⟩ := r
  cases h
  exact ⟨⟨rest, capacity, Nat.le_of_succ_le bounded⟩, rfl, rfl, rfl⟩

/-- Without a point there is nothing to roll back. -/
theorem rollBack_nil {r : Recovery} (h : r.pages.points = []) (t : SymbolTable) :
    r.rollBack t = (none, t, r) := by
  obtain ⟨config, ⟨points, capacity, bounded⟩, exceptions⟩ := r
  cases h
  rfl

/-! ## The rollback points that are kept -/

/-- No operation changes how many points the stack keeps at most. -/
theorem capacity_apply (l : Ledger) (op : Operation) :
    (l.apply op).recovery.pages.capacity = l.recovery.pages.capacity := by
  cases op with
  | rollBack =>
    cases hpoints : l.recovery.pages.points with
    | nil => rw [apply, rollBack_nil hpoints]
    | cons p rest =>
      obtain ⟨pages, -, hcapacity, hback⟩ := rollBack_cons hpoints l.symbols
      rw [apply, hback]
      exact hcapacity
  | _ => rfl

theorem capacity_run (config : RecoveryConfig) (ops : List Operation) :
    (run config ops).recovery.pages.capacity = max config.pageStackCapacity 1 := by
  have hstart : (start config).recovery.pages.capacity = max config.pageStackCapacity 1 := rfl
  exact List.foldlRecOn (motive := fun l => l.recovery.pages.capacity = _) ops apply hstart
    fun l hl op _ => (capacity_apply l op).trans hl

/-- The number of points that were dropped: of the largest number that there was, those for which the
stack had no room. -/
def dropped (l : Ledger) : Nat := l.highest - l.recovery.pages.capacity

/-- The points of the recovery are all but those that were dropped. -/
structure Kept (l : Ledger) : Prop where
  points : l.recovery.pages.points = l.all.take (l.all.length - l.dropped)
  dropped_le : l.dropped ≤ l.all.length
  length_le : l.all.length ≤ l.highest

theorem Kept.record (h : l.Kept) (address : Nat) : (l.apply (.record address)).Kept := by
  have hpoints := h.points
  have hdropped := h.dropped_le
  have hlength := h.length_le
  unfold dropped at hpoints hdropped
  constructor
  · change ((⟨address, l.symbols.snapshot⟩ : RollbackPoint) :: l.recovery.pages.points).take
      l.recovery.pages.capacity = (⟨address, l.symbols.snapshot⟩ :: l.all).take _
    rw [hpoints, ← List.take_succ_cons, List.take_take]
    -- both sides take points off one list, so the numbers have to agree
    apply congrArg fun n => List.take n _
    simp only [dropped, apply, Recovery.record, PageStack.push, List.length_cons]
    omega
  · simp only [dropped, apply, Recovery.record, PageStack.push, List.length_cons]
    omega
  · exact Nat.le_max_right _ _

/-- The newest point that is kept is the newest of all. -/
theorem Kept.exists_older (h : l.Kept) {p : RollbackPoint} {rest : List RollbackPoint}
    (hpoints : l.recovery.pages.points = p :: rest) :
    ∃ older, l.all = p :: older ∧ l.dropped ≤ older.length ∧
      rest = older.take (older.length - l.dropped) := by
  have htake := h.points
  rw [hpoints] at htake
  cases hall : l.all with
  | nil =>
    rw [hall, List.take_nil] at htake
    cases htake
  | cons q older =>
    rw [hall, List.length_cons] at htake
    by_cases hlt : older.length < l.dropped
    · rw [Nat.sub_eq_zero_of_le hlt] at htake
      cases htake
    · have hle : l.dropped ≤ older.length := Nat.le_of_not_lt hlt
      rw [Nat.succ_sub hle, List.take_succ_cons] at htake
      injection htake with hp hrest
      exact ⟨older, by rw [hp], hle, hrest⟩

theorem Kept.rollBack (h : l.Kept) : (l.apply .rollBack).Kept := by
  cases hpoints : l.recovery.pages.points with
  | nil =>
    have hsame : l.apply .rollBack = l := by
      rw [apply, rollBack_nil hpoints]
      rfl
    rw [hsame]
    exact h
  | cons p rest =>
    obtain ⟨pages, hrest, hcapacity, hback⟩ := rollBack_cons hpoints l.symbols
    obtain ⟨older, hall, hdropped, htake⟩ := h.exists_older hpoints
    have hlength := h.length_le
    rw [hall, List.length_cons] at hlength
    have hsame : (l.apply .rollBack).dropped = l.dropped := by
      rw [dropped, capacity_apply]
      rfl
    have holder : (l.apply .rollBack).all = older := by
      rw [apply, hback, hall]
      rfl
    have hnewer : (l.apply .rollBack).recovery.pages.points = rest := by
      rw [apply, hback]
      exact hrest
    constructor
    · rw [hnewer, holder, hsame]
      exact htake
    · rw [holder, hsame]
      exact hdropped
    · rw [holder]
      exact Nat.le_of_succ_le hlength

theorem Kept.apply (h : l.Kept) (op : Operation) : (l.apply op).Kept := by
  cases op with
  | record address => exact h.record address
  | rollBack => exact h.rollBack
  | _ => exact ⟨h.points, h.dropped_le, h.length_le⟩

theorem kept_run (config : RecoveryConfig) (ops : List Operation) : (run config ops).Kept := by
  have hstart : (start config).Kept :=
    ⟨List.take_nil.symm, Nat.le_of_eq (Nat.zero_sub _), Nat.zero_le _⟩
  exact List.foldlRecOn ops Ledger.apply hstart fun _ hl op _ => hl.apply op

/-! ## The flag -/

/-- The flag shows whether an exception is open, and no snapshot tracks it. -/
structure Flagged (l : Ledger) : Prop where
  untracked : l.symbols.Untracked Reserved.inException
  points : ∀ p ∈ l.recovery.pages.points, Reserved.inException ∉ p.snapshot.values.names
  flag : l.symbols.flag Reserved.inException = !l.recovery.exceptions.isEmpty

theorem flagged_start (config : RecoveryConfig) : (start config).Flagged where
  untracked := ⟨rfl, List.not_mem_nil⟩
  points := fun _ h => absurd h List.not_mem_nil
  flag := rfl

/-- The flag stays as it is together with the exceptions. -/
theorem Flagged.of_symbols (h : l.Flagged) {t : SymbolTable}
    (ht : t.Untracked Reserved.inException)
    (hget : t.get? Reserved.inException = l.symbols.get? Reserved.inException) :
    Flagged { l with symbols := t } where
  untracked := ht
  points := h.points
  flag := (SymbolTable.flag_congr hget).trans h.flag

theorem Flagged.record (h : l.Flagged) (address : Nat) : (l.apply (.record address)).Flagged where
  untracked := h.untracked
  points := by
    intro p hp
    rcases List.mem_cons.1 (List.mem_of_mem_take hp) with rfl | hp
    · rw [SymbolTable.names_snapshot]
      exact h.untracked.undeclared
    · exact h.points p hp
  flag := h.flag

theorem Flagged.rollBack (h : l.Flagged) : (l.apply .rollBack).Flagged := by
  cases hpoints : l.recovery.pages.points with
  | nil =>
    rw [Ledger.apply, rollBack_nil hpoints]
    exact ⟨h.untracked, h.points, h.flag⟩
  | cons p rest =>
    obtain ⟨pages, hrest, -, hback⟩ := rollBack_cons hpoints l.symbols
    have hsnapshot : Reserved.inException ∉ p.snapshot.values.names := by
      apply h.points p
      rw [hpoints]
      exact List.mem_cons_self
    rw [Ledger.apply, hback]
    constructor
    · exact h.untracked.restore hsnapshot
    · intro q hq
      apply h.points q
      rw [hpoints]
      exact List.mem_cons_of_mem p (hrest ▸ hq)
    · exact (SymbolTable.flag_congr (h.untracked.get?_restore hsnapshot)).trans h.flag

theorem Flagged.raise (h : l.Flagged) (e : ExceptionDescriptor) : (l.apply (.raise e)).Flagged where
  untracked := h.untracked.quiet (l.symbols.quiet_set _ _)
  points := h.points
  flag := SymbolTable.flag_setFlag_self l.symbols true

theorem Flagged.resolve (h : l.Flagged) : (l.apply .resolve).Flagged := by
  have hflag := h.flag
  cases hleft : l.recovery.exceptions.tail with
  | nil =>
    have hresolve : l.recovery.resolve l.symbols = (l.recovery.exceptions.head?,
        l.symbols.setFlag Reserved.inException false, { l.recovery with exceptions := [] }) := by
      rw [Recovery.resolve, hleft]
      rfl
    rw [Ledger.apply, hresolve]
    exact ⟨h.untracked.quiet (l.symbols.quiet_set _ _), h.points,
      SymbolTable.flag_setFlag_self l.symbols false⟩
  | cons f rest =>
    have hresolve : l.recovery.resolve l.symbols = (l.recovery.exceptions.head?, l.symbols,
        { l.recovery with exceptions := f :: rest }) := by
      rw [Recovery.resolve, hleft]
      rfl
    have hopen : l.recovery.exceptions.isEmpty = false := by
      cases hexceptions : l.recovery.exceptions with
      | nil =>
        rw [hexceptions] at hleft
        cases hleft
      | cons e _ => rfl
    rw [hopen] at hflag
    rw [Ledger.apply, hresolve]
    exact ⟨h.untracked, h.points, hflag⟩

theorem Flagged.clear (h : l.Flagged) : (l.apply .clear).Flagged where
  untracked := h.untracked.quiet (l.symbols.quiet_set _ _)
  points := h.points
  flag := SymbolTable.flag_setFlag_self l.symbols false

/-- Every operation keeps the flag in step with the exceptions unless it writes the flag itself. -/
theorem Flagged.apply (h : l.Flagged) {op : Operation} (hop : ¬op.Writes Reserved.inException) :
    (l.apply op).Flagged := by
  cases op with
  | record address => exact h.record address
  | raise e => exact h.raise e
  | rollBack => exact h.rollBack
  | resolve => exact h.resolve
  | clear => exact h.clear
  | declareMissing names =>
    exact h.of_symbols (h.untracked.declareMissing names)
      (SymbolTable.get?_declareMissing_of_bound names h.untracked.bound)
  | symbols op =>
    apply h.of_symbols
    · exact SymbolTable.Operation.untracked_apply h.untracked
        (SymbolTable.Operation.not_declares hop)
    · exact SymbolTable.Operation.get?_apply h.untracked hop

theorem flagged_run (config : RecoveryConfig) {ops : List Operation}
    (hops : ∀ op ∈ ops, ¬op.Writes Reserved.inException) : (run config ops).Flagged :=
  List.foldlRecOn ops Ledger.apply (flagged_start config) fun _ hl op hmem =>
    hl.apply (hops op hmem)

/-! ## The open exceptions -/

theorem exceptions_resolve (l : Ledger) :
    (l.apply .resolve).recovery.exceptions = l.recovery.exceptions.tail := rfl

/-- An operation that neither opens nor closes an exception leaves them alone. -/
theorem exceptions_of_calm (l : Ledger) {op : Operation} (h : op.Calm) :
    (l.apply op).recovery.exceptions = l.recovery.exceptions := by
  cases op with
  | rollBack =>
    cases hpoints : l.recovery.pages.points with
    | nil => rw [apply, rollBack_nil hpoints]
    | cons p rest =>
      obtain ⟨pages, -, -, hback⟩ := rollBack_cons hpoints l.symbols
      rw [apply, hback]
  | raise e => exact absurd h id
  | resolve => exact absurd h id
  | clear => exact absurd h id
  | _ => rfl

/-- Operations that close what they open leave open what was. -/
theorem exceptions_of_balanced {ops : List Operation} (h : Balanced ops) (l : Ledger) :
    (l.applyAll ops).recovery.exceptions = l.recovery.exceptions := by
  induction h generalizing l with
  | nil => rfl
  | calm hop => exact exceptions_of_calm l hop
  | append _ _ ih ih' => rw [applyAll_append, ih', ih]
  | nested e _ ih =>
    rw [applyAll_append]
    change (((l.apply (.raise e)).applyAll _).apply .resolve).recovery.exceptions = _
    rw [exceptions_resolve, ih]
    rfl

/-- The newest open exception is the last that was raised and behind which whatever was raised was
also resolved; the others are those that were open before it. -/
theorem exceptions_eq_cons {config : RecoveryConfig} {ops : List Operation} {e : ExceptionDescriptor}
    {rest : List ExceptionDescriptor} :
    (run config ops).recovery.exceptions = e :: rest ↔
      ∃ before inner, ops = before ++ .raise e :: inner ∧ Balanced inner ∧
        (run config before).recovery.exceptions = rest := by
  constructor
  · -- by the length: what a resolved exception was raised upon is looked for further ahead
    intro h
    induction hn : ops.length using Nat.strongRecOn generalizing ops e rest with
    | ind n ih =>
    subst hn
    cases ops using List.reverseRecOn with
    | nil => cases h
    | append_singleton ops op =>
      rw [run_concat] at h
      have hlt : ops.length < (ops ++ [op]).length := by simp
      by_cases hop : op.Calm
      · rw [exceptions_of_calm _ hop] at h
        obtain ⟨before, inner, rfl, hinner, hbefore⟩ := ih _ hlt h rfl
        exact ⟨before, inner ++ [op], by simp, hinner.append (.calm hop), hbefore⟩
      · cases op with
        | raise f =>
          injection h with hf hrest
          exact ⟨ops, [], by rw [hf], .nil, hrest⟩
        | clear => cases h
        | resolve =>
          rw [exceptions_resolve] at h
          -- what is open now was open before the exception that is closed was raised
          cases hopen : (run config ops).recovery.exceptions with
          | nil =>
            rw [hopen] at h
            cases h
          | cons f below =>
            rw [hopen, List.tail_cons] at h
            obtain ⟨middle, inner, rfl, hinner, hmiddle⟩ := ih _ hlt hopen rfl
            have hlt' : middle.length <
                (middle ++ Operation.raise f :: inner ++ [Operation.resolve]).length := by
              simp
            obtain ⟨before, outer, rfl, houter, hbefore⟩ := ih _ hlt' (hmiddle.trans h) rfl
            exact ⟨before, outer ++ (.raise f :: inner ++ [.resolve]), by simp,
              houter.append (.nested f hinner), hbefore⟩
        | _ => exact absurd trivial hop
  · rintro ⟨before, inner, rfl, hinner, hbefore⟩
    have hraise : (run config (before ++ .raise e :: inner)) =
        ((run config before).apply (.raise e)).applyAll inner := applyAll_append before _ _
    rw [hraise, exceptions_of_balanced hinner, ← hbefore]
    rfl

/-! ## After any operations -/

/-- What holds of a recovery and its variables after operations from the start of a mission. -/
structure Accounts (config : RecoveryConfig) (ops : List Operation) (l : Ledger) : Prop where
  flag : l.symbols.flag Reserved.inException = true ↔ l.recovery.exceptions ≠ []
  /-- What `resolve` closes is the last exception that was raised and not closed since. -/
  closes : ∀ e, (l.recovery.resolve l.symbols).1 = some e ↔
    ∃ before inner, ops = before ++ .raise e :: inner ∧ Balanced inner
  /-- It leaves open what was open before that exception was raised. -/
  leaves : ∀ e before inner, ops = before ++ .raise e :: inner → Balanced inner →
    (l.recovery.resolve l.symbols).2.2.exceptions = (run config before).recovery.exceptions
  bounded : l.recovery.pages.points.length ≤ max 1 config.pageStackCapacity
  /-- Only points that once had a full stack of newer ones on them are dropped. -/
  points : l.recovery.pages.points =
    l.all.take (l.all.length - (l.highest - max 1 config.pageStackCapacity))
  /-- A roll back goes to the newest point of all, unless that was dropped. -/
  newest : ∀ p older, l.all = p :: older → l.highest - max 1 config.pageStackCapacity ≤ older.length →
    (l.recovery.rollBack l.symbols).1 = some p.address ∧
      (l.recovery.rollBack l.symbols).2.1 = l.symbols.restore p.snapshot
  /-- If nothing but dropped points were left, there is nowhere to go back to. -/
  nowhere : l.all.length ≤ l.highest - max 1 config.pageStackCapacity →
    l.recovery.rollBack l.symbols = (none, l.symbols, l.recovery)

theorem resolve_eq_some {r : Recovery} {t : SymbolTable} {e : ExceptionDescriptor} :
    (r.resolve t).1 = some e ↔ ∃ rest, r.exceptions = e :: rest := by
  rw [Recovery.resolve, List.head?_eq_some_iff]

/-- The flag, the exceptions and the points of a recovery after any operations from the start of a
mission none of which writes the flag. -/
theorem run_accounts (config : RecoveryConfig) (ops : List Operation)
    (hops : ∀ op ∈ ops, ¬op.Writes Reserved.inException) :
    (run config ops).Accounts config ops := by
  have hkept := kept_run config ops
  have hcapacity : (run config ops).recovery.pages.capacity = max 1 config.pageStackCapacity := by
    rw [capacity_run, Nat.max_comm]
  have hpoints := hkept.points
  rw [dropped, hcapacity] at hpoints
  constructor
  · rw [(flagged_run config hops).flag]
    simp
  · intro e
    rw [resolve_eq_some]
    constructor
    · rintro ⟨rest, hopen⟩
      obtain ⟨before, inner, hsplit, hinner, -⟩ := exceptions_eq_cons.1 hopen
      exact ⟨before, inner, hsplit, hinner⟩
    · rintro ⟨before, inner, hsplit, hinner⟩
      exact ⟨_, exceptions_eq_cons.2 ⟨before, inner, hsplit, hinner, rfl⟩⟩
  · intro e before inner hsplit hinner
    have hopen : (run config ops).recovery.exceptions =
        e :: (run config before).recovery.exceptions :=
      exceptions_eq_cons.2 ⟨before, inner, hsplit, hinner, rfl⟩
    exact congrArg List.tail hopen
  · rw [← hcapacity]
    exact (run config ops).recovery.pages.bounded
  · exact hpoints
  · intro p older hall hle
    rw [hall, List.length_cons, Nat.succ_sub hle, List.take_succ_cons] at hpoints
    obtain ⟨pages, -, -, hback⟩ := rollBack_cons hpoints (run config ops).symbols
    rw [hback]
    exact ⟨rfl, rfl⟩
  · intro hle
    rw [Nat.sub_eq_zero_of_le hle, List.take_zero] at hpoints
    exact rollBack_nil hpoints _

/-- Two points are recorded where there is room for one, and two exceptions are raised. -/
def crowded : List Operation :=
  [.record 3, .raise ⟨"first", .null, 4⟩, .symbols (.set "x" (.int 1)), .record 5,
    .raise ⟨"second", .null, 6⟩, .rollBack, .resolve]

theorem run_accounts_crowded :
    (∀ op ∈ crowded, ¬op.Writes Reserved.inException) ∧
    (run { RecoveryConfig.usual with pageStackCapacity := 1 } crowded).symbols.flag
      Reserved.inException = true ∧
    ((run { RecoveryConfig.usual with pageStackCapacity := 1 } crowded).recovery.rollBack
      (run { RecoveryConfig.usual with pageStackCapacity := 1 } crowded).symbols).1 = none := by
  have hops : ∀ op ∈ crowded, ¬op.Writes Reserved.inException := by
    simp [crowded, Operation.Writes, SymbolTable.Operation.Writes, Reserved.inException]
  have haccounts := run_accounts { RecoveryConfig.usual with pageStackCapacity := 1 } crowded hops
  refine ⟨hops, haccounts.flag.2 ?_, congrArg Prod.fst (haccounts.nowhere ?_)⟩
  · exact List.cons_ne_nil _ _
  · exact Nat.le_refl 1

end Ledger

end Recovery

end Deskhand
