import Deskhand.Proofs.Stepwise

/-!
# Snapshots of the mission variables

Names become mission variables one behind the other, and only a restore makes them cease to be. So
as long as nothing is restored the list begins with what it was at any earlier time (`Grows`). A
snapshot that was taken then brings back the list and the values, and leaves alone every name that
was a mission variable neither then nor now (`restore_snapshot`).
-/

namespace Deskhand

/-- Further names stand behind the ones that there were. -/
def Grows (old new : List String) : Prop := ∃ more, new = old ++ more ∧ ∀ name ∈ more, name ∉ old

namespace Grows

theorem refl (names : List String) : Grows names names := ⟨[], by simp, by simp⟩

theorem trans {a b c : List String} (h : Grows a b) (h' : Grows b c) : Grows a c := by
  obtain ⟨more, rfl, hmore⟩ := h
  obtain ⟨more', rfl, hmore'⟩ := h'
  refine ⟨more ++ more', List.append_assoc a more more', ?_⟩
  intro name hname ha
  rcases List.mem_append.1 hname with hn | hn
  · exact hmore name hn ha
  · exact hmore' name hn (List.mem_append_left more ha)

end Grows

namespace Entries

variable {α : Type}

theorem has_iff_mem_names {name : String} {es : Entries α} :
    es.has name = true ↔ name ∈ es.names := by
  induction es with
  | nil => simp [has, names]
  | cons e rest ih =>
    by_cases h : e.1 = name
    · simp [has, get?, names, h]
    · have hne : name ≠ e.1 := fun he => h he.symm
      simpa [has, get?, names, h, hne] using ih

theorem get?_filter (keep : String → Bool) (name : String) (es : Entries α) :
    Entries.get? name (es.filter fun e => keep e.1) =
      if keep name then es.get? name else none := by
  induction es with
  | nil => simp
  | cons e rest ih =>
    by_cases hkeep : keep e.1
    · by_cases h : e.1 = name
      · simp [get?, hkeep, ← h]
      · simp [get?, hkeep, h, ih]
    · by_cases h : e.1 = name
      · subst h
        simp [hkeep, ih]
      · simp [get?, hkeep, h, ih]

end Entries

/-- An assignment leaves all other names alone. -/
theorem Expr.get?_assign_of_ne {target : Expr.Target} {name : String} (op : AssignOp) (new : Value)
    (vars : Entries Value) (h : name ≠ target.name) :
    (assign target op new vars).1.get? name = vars.get? name := by
  unfold assign
  cases evalPath vars.get? target.path with
  | error e => rfl
  | ok path =>
    dsimp only
    split
    · exact Entries.get?_put_of_ne _ _ h
    · cases vars.get? target.name with
      | none => rfl
      | some old => exact Entries.get?_put_of_ne _ _ h

namespace SymbolTable

/-! ## Binding names -/

section Bind

variable {name other : String} (v : Value) (t : SymbolTable)

theorem get?_set_self : (t.set name v).get? name = some v := Entries.get?_put_self name v t.vars

theorem get?_set_of_ne (h : other ≠ name) : (t.set name v).get? other = t.get? other :=
  Entries.get?_put_of_ne v t.vars h

theorem get?_declare_self : (t.declare name v).get? name = some v :=
  Entries.get?_put_self name v t.vars

theorem get?_declare_of_ne (h : other ≠ name) : (t.declare name v).get? other = t.get? other :=
  Entries.get?_put_of_ne v t.vars h

theorem mem_missionVars_declare :
    other ∈ (t.declare name v).missionVars ↔ other = name ∨ other ∈ t.missionVars := by
  unfold declare
  dsimp only
  split
  · next hmem =>
    constructor
    · exact .inr
    · rintro (rfl | h)
      · exact hmem
      · exact h
  · rw [List.mem_append, List.mem_singleton, or_comm]

theorem flag_setFlag_self (on : Bool) : (t.setFlag name on).flag name = on := by
  unfold flag value setFlag
  rw [get?_set_self]
  rfl

theorem flag_setFlag_of_ne (h : other ≠ name) (on : Bool) :
    (t.setFlag name on).flag other = t.flag other := by
  unfold flag value setFlag
  rw [get?_set_of_ne _ _ h]

end Bind

/-- A write leaves alone all names but that of its target. -/
theorem get?_write_of_ne {source name : String}
    (h : ∀ target, Expr.readTarget source = .ok target → target.name ≠ name) (v : Value)
    (t : SymbolTable) : (t.write source v).1.get? name = t.get? name := by
  unfold write
  cases hread : Expr.readTarget source with
  | error e => rfl
  | ok target =>
    have hsame := Expr.get?_assign_of_ne .set v t.vars (h target hread).symm
    dsimp only
    rcases hassign : Expr.assign target .set v t.vars with ⟨vars, _ | e⟩
    all_goals
      rw [hassign] at hsame
      exact hsame

/-! ## Taking snapshots -/

@[simp] theorem names_snapshot (t : SymbolTable) : t.snapshot.values.names = t.missionVars := by
  simp [snapshot, Entries.names, Function.comp_def]

theorem grows_declare (name : String) (v : Value) (t : SymbolTable) :
    Grows t.missionVars (t.declare name v).missionVars := by
  by_cases h : name ∈ t.missionVars
  · simpa [declare, h] using Grows.refl t.missionVars
  · exact ⟨[name], by simp [declare, h], by simpa using h⟩

theorem missionVars_declare {name : String} {t : SymbolTable} (h : name ∈ t.missionVars)
    (v : Value) : (t.declare name v).missionVars = t.missionVars := by
  simp [declare, h]

/-! ## Restoring -/

section Restore

variable {s : Snapshot} {t : SymbolTable}

/-- Of mission variables that have grown from those of a snapshot, the later ones are forgotten. -/
theorem missionVars_dropLater (h : Grows s.values.names t.missionVars) :
    (t.dropLater s).missionVars = s.values.names := by
  obtain ⟨more, ht, hmore⟩ := h
  have hold : s.values.names.filter (fun name =>
      !decide (name ∈ t.missionVars.filter fun name => !s.values.has name)) = s.values.names := by
    refine List.filter_eq_self.2 fun name hname => ?_
    simp [Entries.has_iff_mem_names.2 hname]
  have hnew : more.filter (fun name =>
      !decide (name ∈ t.missionVars.filter fun name => !s.values.has name)) = [] := by
    refine List.filter_eq_nil_iff.2 fun name hname => ?_
    have hhas : s.values.has name = false := by
      rw [Bool.eq_false_iff, ne_eq, Entries.has_iff_mem_names]
      exact hmore name hname
    simp [hhas, ht, hname]
  calc (t.dropLater s).missionVars
      = (s.values.names ++ more).filter (fun name =>
          !decide (name ∈ t.missionVars.filter fun name => !s.values.has name)) := by
        rw [← ht]
        simp [dropLater]
    _ = s.values.names := by rw [List.filter_append, hold, hnew, List.append_nil]

theorem get?_dropLater {name : String} (h : name ∈ s.values.names ∨ name ∉ t.missionVars) :
    (t.dropLater s).get? name = t.get? name := by
  have hkept : name ∉ t.missionVars.filter fun name => !s.values.has name := by
    intro hmem
    obtain ⟨hvar, hhas⟩ := List.mem_filter.1 hmem
    rcases h with h | h
    · simp [Entries.has_iff_mem_names.2 h] at hhas
    · exact h hvar
  have hfilter := Entries.get?_filter
    (fun name => !decide (name ∈ t.missionVars.filter fun name => !s.values.has name)) name t.vars
  simp only [hkept, decide_false, Bool.not_false, if_true] at hfilter
  simpa [dropLater, get?] using hfilter

/-- Declaring names that are mission variables already leaves the list as it is. -/
theorem missionVars_foldl_declare (es : Entries Value) (h : ∀ name ∈ es.names, name ∈ t.missionVars) :
    (es.foldl (fun t e => t.declare e.1 e.2) t).missionVars = t.missionVars := by
  induction es generalizing t with
  | nil => rfl
  | cons e rest ih =>
    have he : (t.declare e.1 e.2).missionVars = t.missionVars :=
      missionVars_declare (h e.1 (by simp [Entries.names])) e.2
    have hrest : ∀ name ∈ Entries.names rest, name ∈ (t.declare e.1 e.2).missionVars := by
      intro name hname
      rw [he]
      exact h name (List.mem_cons_of_mem _ hname)
    rw [List.foldl_cons, ih hrest, he]

theorem get?_foldl_declare_of_notMem {name : String} (es : Entries Value)
    (h : name ∉ es.names) :
    (es.foldl (fun t e => t.declare e.1 e.2) t).get? name = t.get? name := by
  induction es generalizing t with
  | nil => rfl
  | cons e rest ih =>
    have hne : name ≠ e.1 := fun he => h (by simp [Entries.names, he])
    have hrest : name ∉ Entries.names rest := fun hmem => h (List.mem_cons_of_mem _ hmem)
    rw [List.foldl_cons, ih hrest]
    exact Entries.get?_put_of_ne e.2 t.vars hne

/-- The last value that is declared is the one that stays; here all values of a name are the same. -/
theorem get?_foldl_declare {name : String} (value : String → Value) (names : List String)
    (h : name ∈ names) :
    ((names.map fun name => (name, value name)).foldl (fun t e => t.declare e.1 e.2) t).get? name =
      some (value name) := by
  induction names generalizing t with
  | nil => cases h
  | cons first rest ih =>
    by_cases hrest : name ∈ rest
    · exact ih hrest
    · have hfirst : name = first := (List.mem_cons.1 h).resolve_right hrest
      have hnames : name ∉ Entries.names (rest.map fun name => (name, value name)) := by
        simpa [Entries.names, Function.comp_def] using hrest
      subst hfirst
      rw [List.map_cons, List.foldl_cons, get?_foldl_declare_of_notMem _ hnames]
      exact Entries.get?_put_self name _ t.vars

theorem missionVars_restore (h : Grows s.values.names t.missionVars) :
    (t.restore s).missionVars = s.values.names := by
  have hdrop := missionVars_dropLater h
  have hnames : ∀ name ∈ s.values.names, name ∈ (t.dropLater s).missionVars := by
    intro name hname
    rwa [hdrop]
  exact (missionVars_foldl_declare s.values hnames).trans hdrop

end Restore

/-- The mission variables are back to what they were at an earlier time, and no other name was
touched. -/
structure Restored (earlier before after : SymbolTable) : Prop where
  missionVars : after.missionVars = earlier.missionVars
  values : ∀ name ∈ earlier.missionVars, after.get? name = some (earlier.value name)
  others : ∀ name, name ∉ earlier.missionVars → name ∉ before.missionVars →
    after.get? name = before.get? name

/-- A snapshot brings back what it was taken of. -/
theorem restore_snapshot {earlier t : SymbolTable}
    (h : Grows earlier.missionVars t.missionVars) :
    Restored earlier t (t.restore earlier.snapshot) where
  missionVars := by
    rw [missionVars_restore (by rwa [names_snapshot]), names_snapshot]
  values name hname := get?_foldl_declare earlier.value earlier.missionVars hname
  others name hearlier hbefore := by
    have hnames : name ∉ earlier.snapshot.values.names := by rwa [names_snapshot]
    exact (get?_foldl_declare_of_notMem _ hnames).trans (get?_dropLater (.inr hbefore))

end SymbolTable

end Deskhand
