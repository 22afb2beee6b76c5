import Deskhand.Proofs.Ending

/-!
# Recovering through a handler

An exception handler without settings of its own and with an empty block does what the recovery
without a handler does, in two steps instead of none (`Mission.bare_handler_recovers`). When the site
answers both go back to the newest rollback point; when it does not the mission fails, which the
handler notes in its first step and acts on in the second.
-/

namespace Deskhand

/-- The handler leaves every setting to the common ones. A site with no name counts as none. -/
structure HandlerArgs.Bare (args : HandlerArgs) : Prop where
  maxRetries : args.maxRetries = none
  minBackOff : args.minBackOffSeconds = none
  maxBackOff : args.maxBackOffSeconds = none
  site : args.site = none ∨ args.site = some ""

theorem RecoveryConfig.policyFor_of_bare {args : HandlerArgs} (h : args.Bare)
    (c : RecoveryConfig) : c.policyFor (some args) = c.policyFor none := by
  have hsite : args.site.filter (· ≠ "") = none := by
    rcases h.site with hnone | hempty
    · rw [hnone]
      rfl
    · rw [hempty]
      rfl
  unfold policyFor
  simp only [h.maxRetries, h.minBackOff, h.maxBackOff, hsite, Option.getD_none]

namespace Mission

open StepM (blindSearch)

/-- Whenever the site answers, the page can be reloaded. -/
def Reloads (m : Mission) : Prop :=
  ∀ attempts w, m.world.retry (m.recovery.config.policyFor none) = (.reconnected attempts, w) →
    ∃ w', w.refreshPage = .ok w'

/-- The mission at a handler that stands in for its next step. -/
def handledAt (handler : Nat) (m : Mission) : Mission :=
  { m with handling := true, index := handler }

/-- The mission when the handler is done and its block comes next. -/
def enteredBlock (handler : Nat) (m : Mission) : Mission :=
  (m.handledAt handler).counted.goTo (handler + 1)

section Handled

variable (m : Mission) (handler : Nat)

@[simp] theorem handledAt_handling : (m.handledAt handler).handling = true := rfl

@[simp] theorem handledAt_recovery : (m.handledAt handler).recovery = m.recovery := rfl

@[simp] theorem handledAt_world : (m.handledAt handler).world = m.world := rfl

@[simp] theorem enteredBlock_handling : (m.enteredBlock handler).handling = true := rfl

@[simp] theorem enteredBlock_symbols : (m.enteredBlock handler).symbols = m.symbols := rfl

end Handled

section

variable {m : Mission} {args : HandlerArgs} {handler stop : Nat}

/-- With an exception open there is always somewhere to go on from. -/
theorem exists_resumption (h : m.recovery.exceptions ≠ []) :
    ∃ index, m.rollBack.1 = some index := by
  obtain ⟨e, rest, he⟩ := List.exists_cons_of_ne_nil h
  unfold rollBack Recovery.rollBack
  cases hpop : m.recovery.pages.pop with
  | some top => exact ⟨top.1.address, rfl⟩
  | none =>
    refine ⟨e.raisedAt, ?_⟩
    simp only [Recovery.resolve, he]
    rfl

theorem arrived_of_refreshed {w' : World} (h : m.world.refreshPage = .ok w') :
    m.arrived = (m.setWorld w').setSymbols (m.symbols.setFlag Reserved.netConnected true) := by
  have hpage : m.refreshPage = .ok (m.setWorld w') := by
    unfold refreshPage
    rw [h]
    rfl
  unfold arrived
  rw [hpage]
  rfl

/-- A bare handler whose site answers does what the recovery does before it goes back. -/
theorem handleException_reconnected (hargs : args.Bare) {attempts : Nat} {w w' : World}
    (hretry : m.world.retry (m.recovery.config.policyFor none) = (.reconnected attempts, w))
    (hpage : w.refreshPage = .ok w') :
    (m.handledAt handler).handleException args stop =
      (.next (handler + 1), (m.setWorld w).arrived.handledAt handler) := by
  have harrived := arrived_of_refreshed (m := m.setWorld w) hpage
  have hpolicy := RecoveryConfig.policyFor_of_bare hargs m.recovery.config
  have hrefresh : ((m.handledAt handler).setWorld w).refreshPage =
      .ok ((m.handledAt handler).setWorld w') := by
    unfold refreshPage
    rw [show ((m.handledAt handler).setWorld w).world = w from rfl, hpage]
    rfl
  unfold handleException
  simp only [handledAt_handling, handledAt_recovery, handledAt_world, Bool.not_true,
    Bool.false_eq_true, if_false, hpolicy, hretry, hrefresh, harrived]
  rfl

/-- A bare handler whose attempts are used up notes that the mission has failed. -/
theorem handleException_exhausted (hargs : args.Bare) {attempts : Nat} {w : World}
    (hretry : m.world.retry (m.recovery.config.policyFor none) = (.exhausted attempts, w)) :
    (m.handledAt handler).handleException args stop =
      (.next (handler + 1), ((m.setWorld w).markFailed
        (unreachable (m.recovery.config.policyFor none).site attempts)).handledAt handler) := by
  have hpolicy := RecoveryConfig.policyFor_of_bare hargs m.recovery.config
  unfold handleException
  simp only [handledAt_handling, handledAt_recovery, handledAt_world, Bool.not_true,
    Bool.false_eq_true, if_false, hpolicy, hretry]
  rfl

/-- The end of the block goes back. -/
theorem endException_open (hfailed : m.symbols.flag Reserved.missionFailed = false) {index : Nat}
    (hindex : m.rollBack.1 = some index) :
    (m.enteredBlock handler).perform .endException =
      (.next index, (m.enteredBlock handler).rollBack.2) := by
  have hback : (m.enteredBlock handler).rollBack.1 = some index := hindex
  change (m.enteredBlock handler).endException = _
  unfold endException
  simp only [enteredBlock_handling, enteredBlock_symbols, Bool.not_true, Bool.false_eq_true,
    if_false, hfailed]
  rw [hback]
  rfl

/-- The end of the block leaves everything that is under way if the mission has failed. -/
theorem endException_failed (hfailed : m.symbols.flag Reserved.missionFailed = true) :
    (m.enteredBlock handler).perform .endException =
      (.next Program.sentinel, (m.enteredBlock handler).unwind) := by
  change (m.enteredBlock handler).endException = _
  unfold endException
  simp only [enteredBlock_handling, enteredBlock_symbols, Bool.not_true, Bool.false_eq_true,
    if_false, if_true, hfailed]

/-- The two ways to recover agree. From any state with an exception open in which the mission has
not failed, an exception handler without settings of its own that is directly followed by the end of
its block leads to the state to which the recovery without a handler leads, but for the two steps. -/
theorem bare_handler_recovers
    (hhandler : m.program.op? handler = some (.exceptionHandler args stop))
    (hend : m.program.op? (handler + 1) = some .endException) (hargs : args.Bare)
    (hopen : m.recovery.exceptions ≠ []) (hfailed : m.symbols.flag Reserved.missionFailed = false)
    (hreloads : m.Reloads) :
    ∃ inside, (m.handledAt handler).tick = (.ok .completed, inside) ∧
      inside.tick =
        (.ok .completed, { m.recover with stepsExecuted := m.stepsExecuted + 2 }) := by
  rcases hretry : m.world.retry (m.recovery.config.policyFor none) with ⟨attempts | attempts, w⟩
  · obtain ⟨w', hpage⟩ := hreloads attempts w hretry
    have hhandled : (m.handledAt handler).handleException args stop =
        (.next (handler + 1), (m.setWorld w).arrived.handledAt handler) :=
      handleException_reconnected hargs hretry hpage
    have hrecover : m.recover = (m.setWorld w).reconnect := by
      unfold recover
      simp only [hretry]
    rw [hrecover, reconnect_eq]
    have harrived := arrived_of_refreshed (m := m.setWorld w) hpage
    have hprogram : (m.setWorld w).arrived.program = m.program := by rw [harrived]; rfl
    have hsteps : (m.setWorld w).arrived.stepsExecuted = m.stepsExecuted := by rw [harrived]; rfl
    have hopen' : (m.setWorld w).arrived.recovery.exceptions ≠ [] := by
      rw [harrived]
      exact hopen
    have hfailed' : (m.setWorld w).arrived.symbols.flag Reserved.missionFailed = false := by
      rw [harrived]
      exact (SymbolTable.flag_setFlag_of_ne m.symbols (by decide) true).trans hfailed
    -- both go back from the state in which the site was reached
    generalize (m.setWorld w).arrived = d at hhandled hprogram hsteps hopen' hfailed' ⊢
    obtain ⟨index, hindex⟩ := exists_resumption hopen'
    refine ⟨_, tick_of_op? hhandler hhandled, ?_⟩
    have hop : (d.enteredBlock handler).program.op? (handler + 1) = some .endException :=
      (congrArg (Program.op? _) hprogram).trans hend
    refine (tick_of_op? hop (endException_open hfailed' hindex)).trans ?_
    rw [hindex, ← hsteps]
    rfl
  · have hhandled : (m.handledAt handler).handleException args stop =
        (.next (handler + 1), ((m.setWorld w).markFailed
          (unreachable (m.recovery.config.policyFor none).site attempts)).handledAt handler) :=
      handleException_exhausted hargs hretry
    refine ⟨_, tick_of_op? hhandler hhandled, ?_⟩
    generalize hd : (m.setWorld w).markFailed
      (unreachable (m.recovery.config.policyFor none).site attempts) = d at hhandled ⊢
    have hop : (d.enteredBlock handler).program.op? (handler + 1) = some .endException := by
      rw [← hd]
      exact hend
    have hfailed' : d.symbols.flag Reserved.missionFailed = true := by
      rw [← hd]
      exact SymbolTable.flag_setFlag_self _ _
    refine (tick_of_op? hop (endException_failed hfailed')).trans ?_
    unfold recover
    simp only [hretry]
    rw [← hd]
    rfl

end

/-- A document whose exceptions are waited out in an empty block. -/
def waitingDocument : SkillDocument where
  name := "main"
  header := .empty
  steps :=
    [⟨"step 1", 1, "Search", blindSearch⟩, ⟨"step 2", 2, "Exception Handler", []⟩,
      ⟨"step 3", 3, "End Exception", []⟩, ⟨"step 4", 4, "Halt", []⟩]

/-- The program of `waitingDocument`. -/
def waitingProgram : Program where
  name := "main"
  skid := ""
  instructions := #[⟨⟨"main", 1, false⟩, .action "Search" blindSearch⟩,
    ⟨⟨"main", 2, false⟩, .exceptionHandler ⟨"", .null, none, none, none, none⟩ 3⟩,
    ⟨⟨"main", 3, false⟩, .endException⟩, ⟨⟨"main", 4, false⟩, .action "Halt" []⟩,
    ⟨⟨"main", 4, true⟩, .finish⟩]
  functions := []
  skills := [("main", 0)]
  handlers := [("main", 1)]
  documents := [⟨"main", 0, 5⟩]

theorem resolve_waitingDocument : resolve waitingDocument .empty = .ok waitingProgram :=
  resolve_of_sorted rfl (by decide) (by decide) (by decide)

/-- The mission of `waitingProgram` whose search has raised an exception, and whose next pings are
answered so. -/
def waitingMission (answers : List (Option Duration)) : Mission :=
  { leapingRaised with
    program := waitingProgram
    work := { leapingRaised.work with
      world := { leapingRaised.work.world with
        network := ⟨answers, some (.ofMillis 20), 1⟩ } } }

theorem bare_handler_recovers_waiting :
    resolve waitingDocument .empty = .ok waitingProgram ∧ ∃ inside,
      ((waitingMission [none]).handledAt 1).tick = (.ok .completed, inside) ∧
        inside.tick =
          (.ok .completed, { (waitingMission [none]).recover with stepsExecuted := 3 }) := by
  have hreloads : (waitingMission [none]).Reloads := by
    intro attempts w hretry
    have hanswered : ∃ w', (waitingMission [none]).world.retry
        ((waitingMission [none]).recovery.config.policyFor none) = (.reconnected 2, w') ∧
          ∃ w'', w'.refreshPage = .ok w'' := ⟨_, rfl, _, rfl⟩
    obtain ⟨w', hw', hpage⟩ := hanswered
    rw [hw'] at hretry
    cases hretry
    exact hpage
  have hopen : (waitingMission [none]).recovery.exceptions ≠ [] := List.cons_ne_nil _ _
  exact ⟨resolve_waitingDocument,
    bare_handler_recovers rfl rfl ⟨rfl, rfl, rfl, .inl rfl⟩ hopen (by decide) hreloads⟩

end Mission

end Deskhand
