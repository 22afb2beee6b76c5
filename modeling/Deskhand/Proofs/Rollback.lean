import Deskhand.Proofs.Calm
import Deskhand.Proofs.Effects
import Deskhand.Proofs.Identifiers
import Deskhand.Proofs.Reach
import Deskhand.Proofs.Snapshots

/-!
# Rollback points along a run

A turn leaves the rollback points alone, or its step puts one down (`Mission.Records`), or the mission
goes back to the newest one (`Mission.RollsBack`): this is `Mission.turn_pages`. Along a run the
mission variables of every point begin the list of the next newer one, and those of the newest begin
the list of now (`Workspace.Nested`), whatever was evicted or rolled back before. So a rollback brings
back exactly the mission variables of the time at which its point was put down
(`Mission.rollBack_exact`).
-/

namespace Deskhand

open Relation (ReflTransGen)

namespace Workspace

/-! ## Going on without a rollback -/

/-- Names may have become mission variables, and the rollback points are the same. -/
structure Advances (w w' : Workspace) : Prop where
  missionVars : Grows w.symbols.missionVars w'.symbols.missionVars
  pages : w'.recovery.pages = w.recovery.pages

namespace Advances

theorem refl (w : Workspace) : w.Advances w := ⟨.refl _, rfl⟩

theorem trans {w w' w'' : Workspace} (h : w.Advances w') (h' : w'.Advances w'') : w.Advances w'' :=
  ⟨h.missionVars.trans h'.missionVars, h'.pages.trans h.pages⟩

theorem of_changes {w w' : Workspace} (h : ReflTransGen Advances w w') : w.Advances w' := by
  induction h with
  | refl => exact .refl w
  | tail _ hlast ih => exact ih.trans hlast

theorem of_quiet {t : SymbolTable} {w : Workspace} (h : w.symbols.Quiet t) :
    w.Advances { w with symbols := t } :=
  ⟨by simpa only [h.missionVars] using Grows.refl _, rfl⟩

end Advances

instance : Admits fun _ => Advances := ⟨Advances.of_quiet, fun _ => ⟨.refl _, rfl⟩⟩

instance (name : String) : AdmitsDeclare (fun _ => Advances) name :=
  ⟨fun v => ⟨SymbolTable.grows_declare name v _, rfl⟩⟩

instance : AdmitsRaise fun _ => Advances := ⟨fun _ => ⟨.refl _, rfl⟩⟩

/-! ## Nested rollback points -/

/-- The mission variables of older rollback points begin the lists of newer ones, and those of the
newest one begin the list of now. -/
def Nested (w : Workspace) : Prop :=
  (w.symbols.missionVars :: w.recovery.pages.points.map fun p => p.snapshot.values.names).Pairwise
    fun newer older => Grows older newer

namespace Nested

variable {w w' : Workspace}

theorem advances (h : w.Nested) (ha : w.Advances w') : w'.Nested := by
  obtain ⟨hhead, hpoints⟩ := List.pairwise_cons.1 h
  unfold Nested
  rw [ha.pages, List.pairwise_cons]
  exact ⟨fun older holder => (hhead older holder).trans ha.missionVars, hpoints⟩

theorem push (h : w.Nested) (hvars : Grows w.symbols.missionVars w'.symbols.missionVars)
    {address : Nat}
    (hpages : w'.recovery.pages = w.recovery.pages.push ⟨address, w'.symbols.snapshot⟩) :
    w'.Nested := by
  obtain ⟨hhead, hpoints⟩ := List.pairwise_cons.1 h
  have hall : (w'.symbols.missionVars :: w'.symbols.missionVars ::
      w.recovery.pages.points.map fun p => p.snapshot.values.names).Pairwise
        fun newer older => Grows older newer := by
    have holder : ∀ older ∈ w.recovery.pages.points.map fun p => p.snapshot.values.names,
        Grows older w'.symbols.missionVars :=
      fun older holder => (hhead older holder).trans hvars
    refine List.pairwise_cons.2 ⟨fun older hmem => ?_, List.pairwise_cons.2 ⟨holder, hpoints⟩⟩
    rcases List.mem_cons.1 hmem with rfl | hmem
    · exact .refl _
    · exact holder older hmem
  -- the oldest point may have been evicted
  have hsub : (w'.recovery.pages.points.map fun p => p.snapshot.values.names).Sublist
      (w'.symbols.missionVars :: w.recovery.pages.points.map fun p => p.snapshot.values.names) := by
    rw [hpages]
    simpa [PageStack.push, List.map_take] using List.take_sublist _ _
  exact hall.sublist (hsub.cons_cons _)

theorem grows_of_pop (h : w.Nested) {point : RollbackPoint} {rest : PageStack}
    (hpop : w.recovery.pages.pop = some (point, rest)) :
    Grows point.snapshot.values.names w.symbols.missionVars := by
  refine (List.pairwise_cons.1 h).1 _ ?_
  rw [PageStack.points_of_pop hpop]
  exact List.mem_cons_self

end Nested

end Workspace

namespace Mission

open Workspace (Advances)

/-! ## What an instruction does to the rollback points -/

/-- A rollback point was put down behind the instruction, with the variables as they are now. -/
structure Marked (m after : Mission) : Prop where
  missionVars : Grows m.symbols.missionVars after.symbols.missionVars
  pages : after.recovery.pages = m.recovery.pages.push ⟨m.index + 1, after.symbols.snapshot⟩

/-- What an instruction does to the rollback points. -/
theorem perform_pages (op : Op) (m : Mission) :
    m.work.Advances (m.perform op).2.work ∨ m.Marked (m.perform op).2 ∨ m.Ends op := by
  have h : m.Worked (fun _ => Advances) op (m.perform op).2.work :=
    perform_worked fun _ _ => inferInstance
  generalize hwork : (m.perform op).2.work = work at h
  cases h with
  | changed h => exact .inl (Advances.of_changes h)
  | recorded h =>
    have hadvances := Advances.of_changes h
    refine .inr (.inl ⟨?_, ?_⟩)
    · unfold symbols
      rw [hwork]
      exact hadvances.missionVars
    · unfold recovery symbols
      rw [hwork]
      exact congrArg (PageStack.push _) hadvances.pages
  | unwound => exact .inl ⟨.refl _, rfl⟩
  | backed h => exact .inr (.inr h)

theorem step_work {m : Mission} {i : Instruction}
    (hi : m.program.instructions[m.index]? = some i) : m.step.2.work = (m.perform i.op).2.work := by
  rw [step_snd]
  generalize hr : m.tick = r
  have h := m.ticked
  rw [hr] at h
  cases h with
  | none hnone =>
    rw [hi] at hnone
    cases hnone
  | aborted hi' hp | next hi' hp | failed tag hi' hp =>
    rw [hi] at hi'
    cases hi'
    rw [hp]

theorem step_pages (m : Mission) :
    m.work.Advances m.step.2.work ∨ m.Marked m.step.2 ∨
      ∃ i, m.program.instructions[m.index]? = some i ∧ m.Ends i.op := by
  cases hi : m.program.instructions[m.index]? with
  | none =>
    have hstep : m.step.2.work = m.work := by
      rw [step_snd]
      unfold tick
      rw [hi]
    rw [hstep]
    exact .inl (.refl _)
  | some i =>
    have hwork := step_work hi
    rcases m.perform_pages i.op with h | h | h
    · rw [hwork]
      exact .inl h
    · refine .inr (.inl ⟨?_, ?_⟩)
      · unfold symbols
        rw [hwork]
        exact h.missionVars
      · unfold recovery symbols
        rw [hwork]
        exact h.pages
    · exact .inr (.inr ⟨i, rfl, h⟩)

/-! ## Recording and going back -/

/-- The step of a turn puts down a rollback point behind itself, with the variables as they are when
the step is over. -/
def Records (m : Mission) (point : RollbackPoint) : Prop :=
  ∃ r, m.boundary = .ready r ∧ point = ⟨r.index + 1, m.turn.2.symbols.snapshot⟩ ∧
    m.turn.2.recovery.pages = r.recovery.pages.push point

/-- The mission after the site was reached again, before it goes back to a rollback point. -/
def arrived (m : Mission) : Mission :=
  let m := match m.refreshPage with
    | .ok m => m
    | .error _ => m
  m.setSymbols (m.symbols.setFlag Reserved.netConnected true)

theorem reconnect_eq (m : Mission) :
    m.reconnect = { m.arrived.rollBack.2 with
      index := m.arrived.rollBack.1.getD m.arrived.index } := rfl

theorem arrived_eq (m : Mission) :
    ∃ w, m.arrived = (m.setWorld w).setSymbols (m.symbols.setFlag Reserved.netConnected true) := by
  unfold arrived
  cases h : m.refreshPage with
  | error fault => exact ⟨m.world, rfl⟩
  | ok m' =>
    obtain ⟨w, -, rfl⟩ := refreshPage_eq h
    exact ⟨w, rfl⟩

/-- A turn of `m` takes the newest rollback point off, if there is one, and goes on from it; `b` is
the mission just before that. The recovery without a handler does so when the site is reached again,
and so does the end of a handler's block. -/
inductive RollsBack (m : Mission) : Mission → Prop
  | recovery {d : Mission} {attempts : Nat} {w : World} (hb : m.boundary = .recovering d)
    (hretry : d.world.retry (d.recovery.config.policyFor none) = (.reconnected attempts, w)) :
    RollsBack m (d.setWorld w).arrived
  | handler {r : Mission} {i : Instruction} (hb : m.boundary = .ready r)
    (hi : r.program.instructions[r.index]? = some i) (hends : r.Ends i.op) : RollsBack m r

/-- Taking commands and turning to a handler change neither the variables nor the rollback points nor
the stacks. -/
theorem boundary_same {m d : Mission} (h : m.boundary = .ready d ∨ m.boundary = .recovering d) :
    d.symbols = m.symbols ∧ d.recovery = m.recovery ∧ m.SameStacks d := by
  have hs := m.boundary_sound
  rcases h with h | h
  · rw [h] at hs
    obtain ⟨-, d', ⟨w, b, -, rfl⟩, rfl | ⟨i, -, rfl⟩⟩ := hs
    · exact ⟨rfl, rfl, rfl, rfl⟩
    · exact ⟨rfl, rfl, rfl, rfl⟩
  · rw [h] at hs
    obtain ⟨-, w, b, -, rfl⟩ := hs
    exact ⟨rfl, rfl, rfl, rfl⟩

namespace RollsBack

variable {m b : Mission}

/-- Until it goes back the mission only notes that the network is up. -/
theorem before (h : m.RollsBack b) : m.work.Advances b.work ∧ m.SameStacks b := by
  cases h with
  | @recovery d attempts w hb hretry =>
    obtain ⟨hsymbols, hrecovery, hcalls, hskills⟩ := boundary_same (.inr hb)
    obtain ⟨w', hb'⟩ := (d.setWorld w).arrived_eq
    rw [hb']
    have hvars : d.symbols.missionVars = m.symbols.missionVars := by rw [hsymbols]
    have hpages : d.recovery.pages = m.recovery.pages := by rw [hrecovery]
    refine ⟨⟨?_, hpages⟩, hcalls, hskills⟩
    change Grows m.symbols.missionVars d.symbols.missionVars
    rw [hvars]
    exact .refl _
  | handler hb hi hends =>
    obtain ⟨hsymbols, hrecovery, hcalls, hskills⟩ := boundary_same (.inl hb)
    have hvars : b.symbols.missionVars = m.symbols.missionVars := by rw [hsymbols]
    have hpages : b.recovery.pages = m.recovery.pages := by rw [hrecovery]
    refine ⟨⟨?_, hpages⟩, hcalls, hskills⟩
    change Grows m.symbols.missionVars b.symbols.missionVars
    rw [hvars]
    exact .refl _

/-- After the turn the mission is the one that has gone back, at the index of the rollback point. -/
theorem turn (h : m.RollsBack b) : ∃ other steps, m.turn.2 =
    { b.rollBack.2 with index := b.rollBack.1.getD other, stepsExecuted := steps } := by
  cases h with
  | @recovery d attempts w hb hretry =>
    refine ⟨(d.setWorld w).arrived.index, (d.setWorld w).arrived.rollBack.2.stepsExecuted, ?_⟩
    have hrecover : d.recover = (d.setWorld w).reconnect := by
      unfold recover
      simp only [hretry]
    rw [turn_eq, hb]
    exact hrecover.trans (reconnect_eq _)
  | @handler r i hb hi hends =>
    refine ⟨b.index + 1, b.rollBack.2.stepsExecuted + 1, ?_⟩
    rw [turn_of_ready hb, step_snd, tick_next hi (endException_of_ends hends)]

end RollsBack

/-- What a turn does to the rollback points. -/
theorem turn_pages (m : Mission) :
    m.work.Advances m.turn.2.work ∨
      (∃ point, m.Records point ∧ Grows m.symbols.missionVars m.turn.2.symbols.missionVars) ∨
        ∃ b, m.RollsBack b := by
  cases hb : m.boundary with
  | finished =>
    rw [turn_eq, hb]
    exact .inl (.refl _)
  | cancelled d =>
    have hs := m.boundary_sound
    rw [hb] at hs
    obtain ⟨-, w, b, -, rfl⟩ := hs
    rw [turn_eq, hb]
    exact .inl ⟨.refl _, rfl⟩
  | exhausted limit d =>
    have hs := m.boundary_sound
    rw [hb] at hs
    obtain ⟨-, w, b, -, rfl⟩ := hs
    rw [turn_eq, hb]
    exact .inl ⟨.refl _, rfl⟩
  | recovering d =>
    rcases hretry : d.world.retry (d.recovery.config.policyFor none) with ⟨attempts | attempts, w⟩
    · exact .inr (.inr ⟨_, .recovery hb hretry⟩)
    · have hs := m.boundary_sound
      rw [hb] at hs
      obtain ⟨-, w', b, -, rfl⟩ := hs
      rw [turn_eq, hb]
      refine .inl ?_
      change m.work.Advances (recover _).work
      unfold recover
      simp only [hretry]
      exact ⟨.refl _, rfl⟩
  | ready r =>
    obtain ⟨hsymbols, hrecovery, -⟩ := boundary_same (.inl hb)
    have hturn := turn_of_ready hb
    rcases r.step_pages with h | h | ⟨i, hi, hends⟩
    · refine .inl ?_
      rw [hturn]
      refine ⟨?_, h.pages.trans (congrArg Recovery.pages hrecovery)⟩
      have hvars := h.missionVars
      change Grows r.symbols.missionVars _ at hvars
      rwa [hsymbols] at hvars
    · refine .inr (.inl ⟨_, ⟨r, hb, rfl, ?_⟩, ?_⟩)
      · rw [hturn]
        exact h.pages
      · rw [hturn, ← hsymbols]
        exact h.missionVars
    · exact .inr (.inr ⟨r, .handler hb hi hends⟩)

/-! ## Along a run -/

/-- Closing an exception does no more to the variables than to take the flag back. -/
theorem resolve_symbols (t : SymbolTable) (r : Recovery) :
    (r.resolve t).2.1 = t ∨ (r.resolve t).2.1 = t.setFlag Reserved.inException false := by
  unfold Recovery.resolve
  dsimp only
  split
  · exact .inr rfl
  · exact .inl rfl

/-- Going back restores the newest snapshot and closes the newest exception. -/
theorem rollBack_symbols (b : Mission) :
    b.rollBack.2.symbols = (b.recovery.rollBack b.symbols).2.1 ∨
      b.rollBack.2.symbols =
        (b.recovery.rollBack b.symbols).2.1.setFlag Reserved.inException false :=
  resolve_symbols _ _

theorem rollBack_missionVars (b : Mission) :
    b.rollBack.2.symbols.missionVars = (b.recovery.rollBack b.symbols).2.1.missionVars := by
  rcases b.rollBack_symbols with h | h <;> rw [h]
  rfl

theorem rollBack_pages (b : Mission) :
    b.rollBack.2.recovery.pages = (b.recovery.rollBack b.symbols).2.2.pages := rfl

/-- Going back puts down no rollback point. -/
theorem mem_of_mem_rollBack {b : Mission} {point : RollbackPoint}
    (h : point ∈ b.rollBack.2.recovery.pages.points) : point ∈ b.recovery.pages.points := by
  rw [rollBack_pages] at h
  unfold Recovery.rollBack at h
  split at h
  · exact h
  · next hpop => exact (PageStack.mem_of_pop hpop).2 (.inr h)

theorem nested_rollBack {b : Mission} (h : b.work.Nested) : b.rollBack.2.work.Nested := by
  change (b.rollBack.2.symbols.missionVars ::
    b.rollBack.2.recovery.pages.points.map fun p => p.snapshot.values.names).Pairwise _
  rw [rollBack_missionVars, rollBack_pages]
  unfold Recovery.rollBack
  split
  · exact h
  · next point rest hpop =>
    have hrestore := SymbolTable.missionVars_restore (h.grows_of_pop hpop)
    have hall := (List.pairwise_cons.1 h).2
    have hpoints : b.work.recovery.pages.points = _ := PageStack.points_of_pop hpop
    rw [hpoints] at hall
    change ((b.symbols.restore point.snapshot).missionVars :: _).Pairwise _
    rw [show (b.symbols.restore point.snapshot).missionVars = _ from hrestore]
    exact hall

theorem after_nested {p : Program} {m : Mission} (hm : m.Begins p) (n : Nat) :
    (m.after n).work.Nested := by
  induction n with
  | zero =>
    obtain ⟨world, config, t, -, rfl⟩ := hm.eq_initial
    exact List.pairwise_singleton _ _
  | succ n ih =>
    rw [after_succ]
    rcases (m.after n).turn_pages with h | ⟨point, ⟨r, hb, rfl, hpages⟩, hvars⟩ | ⟨b, hb⟩
    · exact ih.advances h
    · rw [(boundary_same (.inl hb)).2.1] at hpages
      exact ih.push hvars hpages
    · obtain ⟨other, steps, hturn⟩ := hb.turn
      rw [hturn]
      exact nested_rollBack (ih.advances hb.before.1)

/-- Every rollback point was put down in an earlier turn of the run. -/
theorem exists_records {p : Program} {m : Mission} (hm : m.Begins p) (n : Nat) :
    ∀ point ∈ (m.after n).recovery.pages.points, ∃ j < n, (m.after j).Records point := by
  induction n with
  | zero =>
    obtain ⟨world, config, t, -, rfl⟩ := hm.eq_initial
    intro point hpoint
    cases hpoint
  | succ n ih =>
    intro point hpoint
    have hold : point ∈ (m.after n).recovery.pages.points →
        ∃ j < n + 1, (m.after j).Records point := by
      intro hmem
      obtain ⟨j, hj, hrecords⟩ := ih point hmem
      exact ⟨j, by omega, hrecords⟩
    rw [after_succ] at hpoint
    rcases (m.after n).turn_pages with h | ⟨newest, hrecords, -⟩ | ⟨b, hb⟩
    · rw [show (m.after n).turn.2.recovery.pages = _ from h.pages] at hpoint
      exact hold hpoint
    · obtain ⟨r, hb, -, hpages⟩ := id hrecords
      rw [hpages, (boundary_same (.inl hb)).2.1] at hpoint
      rcases List.mem_cons.1 (List.mem_of_mem_take hpoint) with rfl | hmem
      · exact ⟨n, Nat.lt_succ_self n, hrecords⟩
      · exact hold hmem
    · obtain ⟨other, steps, hturn⟩ := hb.turn
      have hpages : b.recovery.pages = (m.after n).recovery.pages := hb.before.1.pages
      rw [hturn] at hpoint
      exact hold (hpages ▸ mem_of_mem_rollBack hpoint)

theorem RollsBack.recorded {p : Program} {m : Mission} (hm : m.Begins p) {n : Nat} {b : Mission}
    (hb : (m.after n).RollsBack b) {point : RollbackPoint} {rest : PageStack}
    (hpop : b.recovery.pages.pop = some (point, rest)) : ∃ j < n, (m.after j).Records point := by
  have hpages : b.recovery.pages = (m.after n).recovery.pages := hb.before.1.pages
  apply exists_records hm n
  rw [← hpages]
  exact (PageStack.mem_of_pop hpop).2 (.inl rfl)

/-- Rollback is exact: a point that a run goes back to was put down in an earlier turn. Once its
snapshot is restored the mission variables are those of the end of that turn, and the mission goes on
with them; only `in_exception` may be taken back as well. -/
theorem rollBack_exact {p : Program} {m : Mission} (hm : m.Begins p) {n : Nat} {b : Mission}
    (hb : (m.after n).RollsBack b) {point : RollbackPoint} {rest : PageStack}
    (hpop : b.recovery.pages.pop = some (point, rest)) :
    (∃ j < n, (m.after j).Records point) ∧ ∃ restored,
      (∀ j, (m.after j).Records point →
        SymbolTable.Restored (m.after (j + 1)).symbols b.symbols restored) ∧
      ((m.after (n + 1)).symbols = restored ∨
        (m.after (n + 1)).symbols = restored.setFlag Reserved.inException false) := by
  have hnested := (after_nested hm n).advances hb.before.1
  have hrestored : (b.recovery.rollBack b.symbols).2.1 = b.symbols.restore point.snapshot := by
    unfold Recovery.rollBack
    rw [hpop]
  refine ⟨hb.recorded hm hpop, b.symbols.restore point.snapshot, ?_, ?_⟩
  · intro j hrecords
    obtain ⟨r, -, hpoint, -⟩ := hrecords
    have hsnapshot : point.snapshot = (m.after (j + 1)).symbols.snapshot := by
      rw [hpoint, after_succ]
    have hgrows := hnested.grows_of_pop hpop
    rw [hsnapshot, SymbolTable.names_snapshot] at hgrows
    rw [hsnapshot]
    exact SymbolTable.restore_snapshot hgrows
  · obtain ⟨other, steps, hturn⟩ := hb.turn
    rw [after_succ, hturn, ← hrestored]
    exact b.rollBack_symbols

end Mission

/-! ## A mission that goes back -/

theorem Duration.ofReal?_zero : ofReal? .zero = some ⟨0⟩ := by decide +kernel

namespace Expr

theorem parse_lastScreen : parse Reserved.lastScreen = .ok (.name Reserved.lastScreen) := by
  have hshape : ∀ d ∈ ['a', 's', 't', '_', 's', 'c', 'r', 'e', 'e', 'n'],
      d.isAlphanum = true ∨ d = '_' := by
    simp
  have hword : ∀ d ∈ ['a', 's', 't', '_', 's', 'c', 'r', 'e', 'e', 'n'], ContinuesWord d :=
    fun d hd => .of_ascii (hshape d hd)
  exact parse_identifier ⟨⟨'l', _, rfl, rfl, hword⟩, ofWord_of_underscore (by decide)⟩

end Expr

namespace StepM

variable {c : StepContext} {w : Workspace}

theorem result_secondsOf_null : (secondsOf .null).result c w = (.ok ⟨0⟩, w) := by
  have hnumber : (numberOr .zero .null).result c w = (.ok .zero, w) := rfl
  refine (result_bind_of_ok hnumber).trans ?_
  unfold durationOf
  rw [Duration.ofReal?_zero]
  rfl

/-- Typing a text takes no time, and puts down a rollback point. -/
theorem result_textInput {text : String} {world : World}
    (h : w.world.act (.typeText text ⟨0⟩) = .ok world) :
    (textInput [("text", .text text)]).result c w =
      (.ok (), ⟨w.symbols, w.recovery.record (c.index + 1) w.symbols, world.sleep ⟨0⟩⟩) := by
  have hargs : (arguments [.textOr "txt_ref_type" "direct", .any "text", .anyOrNull "speed",
      .textOrEmpty "key_after", .anyOrNull "wait_after"] [("text", .text text)]).result c w =
      (.ok [("txt_ref_type", .text "direct"), ("text", .text text), ("speed", .null),
        ("key_after", .text ""), ("wait_after", .null)], w) := rfl
  have hvalue : (typedValue "direct" (.text text)).result c w = (.ok (.text text), w) := rfl
  have hact : (act (.typeText text ⟨0⟩)).result c w = (.ok (), { w with world }) := by
    refine (result_bind_of_ok (result_get c w)).trans ?_
    rw [h]
    rfl
  refine (result_bind_of_ok hargs).trans ?_
  refine (result_bind_of_ok hvalue).trans ?_
  refine (result_bind_of_ok result_secondsOf_null).trans ?_
  refine (result_bind_of_ok hact).trans ?_
  exact (result_bind_of_ok result_secondsOf_null).trans rfl

theorem evaluate_lastScreen {t : SymbolTable} {v : Value} (h : t.get? Reserved.lastScreen = some v) :
    t.evaluate Reserved.lastScreen = (t, .ok v) := by
  have hfree : Expr.freeNames (.name Reserved.lastScreen) = [Reserved.lastScreen] := rfl
  have hhas : t.vars.has Reserved.lastScreen = true := by
    unfold SymbolTable.get? at h
    simp [Entries.has, h]
  have hsame : t.declareMissing [Reserved.lastScreen] = t := by
    simp [SymbolTable.declareMissing, SymbolTable.missing, hhas]
  unfold SymbolTable.evaluate
  rw [Expr.parse_lastScreen]
  dsimp only
  rw [hfree, hsame]
  simp [Expr.eval, h]

/-- The arguments of a search of the last screen that stores nothing. -/
def blindSearch : Entries Value :=
  [("screen", .text ""), ("names", .text "cart"), ("result", .text ""), ("status", .text "")]

/-- If the last screen is empty, all that the search does is to look for a fault. -/
theorem result_blindSearch (h : w.symbols.get? Reserved.lastScreen = some (.list [])) :
    (search blindSearch).result c w = (checkForFault [] "").result c w := by
  have hread : (Search.read blindSearch).result c w =
      (.ok ⟨"", .text "cart", "direct", [], "any", "", "", ""⟩, w) := rfl
  have hvalue : (evaluate Reserved.lastScreen).result c w = (.ok (.list []), w) := by
    unfold evaluate
    rw [result_withSymbols, evaluate_lastScreen h]
    rfl
  have hscreen : (screenRecords "").result c w = (.ok [], w) := (result_bind_of_ok hvalue).trans rfl
  exact (result_bind_of_ok hread).trans ((result_bind_of_ok hscreen).trans rfl)

end StepM

namespace Mission

open StepM (blindSearch)

theorem acted_of_ok {m : Mission} {kind : String} {act : StepM Unit} {work : Workspace}
    (h : act.result ⟨m.config, m.index⟩ m.work = (.ok (), work)) :
    m.acted kind act = { m with work, stepsExecuted := m.stepsExecuted + 1 } := by
  unfold acted runStep
  rw [h]
  rfl

/-- A document whose function types and then searches a screen where nothing is. It calls the function
and searches once more. -/
def typingDocument : SkillDocument where
  name := "main"
  header := .empty
  steps :=
    [⟨"step 1", 1, "Stub", [("stub_name", .text "start function"), ("func_name", .text "f")]⟩,
      ⟨"step 2", 2, "Text Input", [("text", .text "abc")]⟩, ⟨"step 3", 3, "Search", blindSearch⟩,
      ⟨"step 4", 4, "Stub", [("stub_name", .text "end function"), ("func_name", .text "f")]⟩,
      ⟨"step 5", 5, "Call Function", [("fname", .text "f"), ("output", .text "r")]⟩,
      ⟨"step 6", 6, "Search", blindSearch⟩]

/-- The program of `typingDocument`. -/
def typingProgram : Program where
  name := "main"
  skid := ""
  instructions := #[⟨⟨"main", 1, false⟩, .goto 4 none⟩,
    ⟨⟨"main", 2, false⟩, .action "Text Input" [("text", .text "abc")]⟩,
    ⟨⟨"main", 3, false⟩, .action "Search" blindSearch⟩,
    ⟨⟨"main", 4, false⟩, .stub (.endFunction "f")⟩,
    ⟨⟨"main", 5, false⟩, .callFunction "f" 1 "" "" "r"⟩,
    ⟨⟨"main", 6, false⟩, .action "Search" blindSearch⟩, ⟨⟨"main", 6, true⟩, .finish⟩]
  functions := [("f", 1)]
  skills := [("main", 0)]
  handlers := []
  documents := [⟨"main", 0, 7⟩]

theorem resolve_typingDocument : resolve typingDocument .empty = .ok typingProgram :=
  resolve_of_sorted rfl (by decide) (by decide) (by decide)

/-- Settings under which no time passes between two attempts to reach the site. -/
def promptConfig : RunConfig := { RunConfig.usual with
  recovery := { RecoveryConfig.usual with minBackOffSeconds := 0, maxBackOffSeconds := 0 } }

/-- The mission of `typingProgram` whose first pings are answered so, and all others after them. -/
def typingMission (answers : List (Option Duration)) : Mission :=
  initial typingProgram
    { World.plain 0 .empty with network := ⟨answers, some (.ofMillis 20), 0⟩ } promptConfig

theorem typingMission_begins (answers : List (Option Duration)) :
    (typingMission answers).Begins typingProgram :=
  ⟨_, promptConfig, typingMission answers, (typingMission answers).symbols, rfl, rfl⟩

/-- The rollback point that the function of `typingDocument` puts down. -/
def typingPoint : RollbackPoint := ⟨2, (typingMission []).symbols.snapshot⟩

/-- The mission before its first search. -/
def typedMission (answers : List (Option Duration)) : Mission := { typingMission answers with
  work := {
    symbols := (typingMission answers).symbols
    recovery := { (typingMission answers).recovery with
      pages := (typingMission answers).recovery.pages.push typingPoint }
    world := { (typingMission answers).world with
      desktop := { Desktop.usual with actions := [.typeText "abc" ⟨0⟩] } } }
  calls := .onto ⟨5, .null, .null, "r"⟩ .empty
  index := 2
  stepsExecuted := 3 }

theorem after_typed (answers : List (Option Duration)) :
    (typingMission answers).after 3 = typedMission answers := by
  have hb : ((typingMission answers).after 2).boundary = .ready ((typingMission answers).after 2) := rfl
  have hstep : ((typingMission answers).after 2).step = (.goOn,
      (((typingMission answers).after 2).acted "Text Input"
        (textInput [("text", .text "abc")])).goTo 2) := step_acted rfl rfl
  rw [after_succ, turn_of_ready hb, hstep, acted_of_ok (StepM.result_textInput rfl)]
  rfl

/-- A turn that executes a `blindSearch`. -/
theorem turn_blindSearch {m : Mission} (hb : m.boundary = .ready m)
    (hop : m.program.op? m.index = some (.action "Search" blindSearch))
    (hscreen : m.symbols.get? Reserved.lastScreen = some (.list [])) {work : Workspace}
    (h : (checkForFault [] "").result ⟨m.config, m.index⟩ m.work = (.ok (), work)) :
    m.turn = (.goOn, { m with work, index := m.index + 1, stepsExecuted := m.stepsExecuted + 1 }) := by
  have hstep : m.step = (.goOn, (m.acted "Search" (search blindSearch)).goTo (m.index + 1)) :=
    step_acted hop rfl
  rw [turn_of_ready hb, hstep, acted_of_ok ((StepM.result_blindSearch hscreen).trans h)]
  rfl

/-- The exception that a search raises at an index. -/
def unreached (raisedAt : Nat) : ExceptionDescriptor where
  cause := "site_unreachable"
  data := .object [("site", .text RecoveryConfig.usual.referenceSite), ("reachable", .bool false)]
  raisedAt := raisedAt

/-- The mission whose second ping is not answered, behind its first search. -/
def searchedMission : Mission := { typedMission [some .zero, none] with
  work := { (typedMission [some .zero, none]).work with
    symbols := (typedMission [some .zero, none]).symbols.setFlag Reserved.netConnected true
    world := { (typedMission [some .zero, none]).world with
      network := ⟨[none], some (.ofMillis 20), 1⟩ } }
  index := 3
  stepsExecuted := 4 }

theorem after_searched : (typingMission [some .zero, none]).after 4 = searchedMission := by
  rw [after_succ, after_typed, turn_blindSearch rfl rfl rfl rfl]
  rfl

/-- The mission whose second ping is not answered, when that was found out. -/
def raisedMission : Mission := { searchedMission with
  work := {
    symbols := ((searchedMission.symbols.declare "r" .null).setFlag Reserved.netConnected
      false).setFlag Reserved.inException true
    recovery := { searchedMission.recovery with exceptions := [unreached 5] }
    world := { searchedMission.world with network := ⟨[], some (.ofMillis 20), 2⟩ } }
  calls := .empty
  index := 6
  stepsExecuted := 6 }

theorem after_returned : (typingMission [some .zero, none]).after 5 = { searchedMission with
    work := { searchedMission.work with symbols := searchedMission.symbols.declare "r" .null }
    calls := .empty
    index := 5
    stepsExecuted := 5 } := by
  rw [after_succ, after_searched]
  rfl

theorem after_raised : (typingMission [some .zero, none]).after 6 = raisedMission := by
  rw [after_succ, after_returned, turn_blindSearch rfl rfl rfl rfl]
  rfl

/-- The mission when the site is reached again. -/
def reachedMission : Mission := (raisedMission.setWorld
  (raisedMission.world.retry (raisedMission.recovery.config.policyFor none)).2).arrived

theorem raisedMission_rollsBack :
    ((typingMission [some .zero, none]).after 6).RollsBack reachedMission := by
  rw [after_raised]
  exact .recovery rfl rfl

theorem pop_reachedMission :
    reachedMission.recovery.pages.pop = some (typingPoint, (typingMission []).recovery.pages) := rfl

theorem rollBack_exact_typing :
    (∃ j < 6, ((typingMission [some .zero, none]).after j).Records typingPoint) ∧ ∃ restored,
      (∀ j, ((typingMission [some .zero, none]).after j).Records typingPoint →
        SymbolTable.Restored ((typingMission [some .zero, none]).after (j + 1)).symbols
          reachedMission.symbols restored) ∧
      (((typingMission [some .zero, none]).after 7).symbols = restored ∨
        ((typingMission [some .zero, none]).after 7).symbols =
          restored.setFlag Reserved.inException false) :=
  rollBack_exact (typingMission_begins _) raisedMission_rollsBack pop_reachedMission

end Mission

end Deskhand
