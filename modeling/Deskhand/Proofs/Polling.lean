import Deskhand.Proofs.Filling
import Mathlib.Algebra.Order.Floor.Div

/-!
# Waiting for events

A wait polls its events until they are there, the time is over or the mission is cancelled
(`Watch.Polls`). The polls are made once a second, and once more when the time is over, rounded up
to a whole millisecond (`Watch.moment`). So there is one more of them at most than there are started
seconds in the time-out, and the fuel of the loop lasts for these (`Watch.polls_pollEvents`).

What a poll evaluates may change variables, but neither the clock nor anything else in the world,
and the clock moves in naps alone. So when the polls are made does not depend on what they find.
-/

namespace Deskhand

/-! ## Naps -/

namespace Remote

variable {r : Remote} {now time t : Nat} {schedule : List Scheduled}

/-- A cancellation is not taken back. -/
theorem cancelled_go (h : r.cancelled = true) :
    (sendBefore.go time schedule r).cancelled = true := by
  induction schedule generalizing r with
  | nil => exact h
  | cons s rest ih =>
    unfold sendBefore.go
    split
    · exact h
    · exact ih (by rw [send, h, Bool.true_or])

theorem bounds_of_go (h : cancellation?.go time now schedule = some t) (hnow : now ≤ time) :
    now ≤ t ∧ t ≤ time := by
  induction schedule generalizing now with
  | nil => cases h
  | cons s rest ih =>
    unfold cancellation?.go at h
    split at h
    · cases h
    · split at h
      · cases h
        omega
      · cases h
      · have := ih h (by omega)
        omega

/-- What is due by the time of a cancellation is sent, the cancellation too. -/
theorem cancelled_of_go (h : cancellation?.go time now schedule = some t)
    (hnow : now ≤ time) (hawaiting : r.awaiting = false) :
    (sendBefore.go (t + 1) schedule r).cancelled = true := by
  induction schedule generalizing now r with
  | nil => cases h
  | cons s rest ih =>
    unfold cancellation?.go at h
    split at h
    · cases h
    · next hdue =>
      have hsent : s.due ≤ t → (sendBefore.go (t + 1) (s :: rest) r) =
          sendBefore.go (t + 1) rest (r.send s.command) := fun hle => by
        rw [sendBefore.go, hawaiting, Bool.false_or, if_neg (by simpa using hle)]
      split at h
      · next hcommand =>
        cases h
        rw [hsent (by omega), hcommand]
        exact cancelled_go (by rw [send]; exact Bool.or_true _)
      · cases h
      · next hstatus =>
        have hbounds := bounds_of_go h (by omega)
        rw [hsent (by omega)]
        exact ih h (by omega) (beq_eq_false_iff_ne.2 hstatus)

end Remote

/-- A nap lasts as long as it is meant to, unless the mission is cancelled by then. -/
theorem World.nap_cases {d : Duration} {w w' : World} {woken : Bool} (h : w.nap d = (woken, w')) :
    (woken = true ∧ w'.clock = w.clock + d.waitMillis) ∨
      (woken = false ∧ w'.clock ≤ w.clock + d.waitMillis ∧ w'.remote.cancelled = true) := by
  rw [nap] at h
  split at h
  · next hcancelled =>
    cases h
    exact .inr ⟨rfl, Nat.le_add_right _ _, hcancelled⟩
  · dsimp only at h
    have hnow := Nat.le_add_right w.clock d.waitMillis
    generalize w.clock + d.waitMillis = wake at h hnow ⊢
    split at h
    · next time htime =>
      cases h
      unfold Remote.cancellation? at htime
      split at htime
      · cases htime
      · next hawaiting =>
        exact .inr ⟨rfl, (Remote.bounds_of_go htime hnow).2,
          Remote.cancelled_of_go htime hnow (Bool.eq_false_of_not_eq_true hawaiting)⟩
    · cases h
      exact .inl ⟨rfl, rfl⟩

/-! ## Polls -/

/-- A wait for events that has been started. -/
structure Watch where
  needAll : Bool
  events : List String
  /-- The time on the clock. -/
  started : Nat
  timeOut : Duration

namespace Watch

variable (k : Watch)

/-- What a poll does: it finds out whether the events are there. -/
def check : StepM Bool := eventsHold k.needAll k.events

/-- How long the wait has lasted. -/
def elapsed (w : Workspace) : Duration := .ofMillis (w.world.clock - k.started)

/-- The nap until the next poll. -/
def nap (w : Workspace) : Duration := pollInterval.min ⟨k.timeOut.nanos - (k.elapsed w).nanos⟩

/-- When the polls are made: once a second, and when the time is over. -/
def moment (i : Nat) : Nat := k.started + min (1000 * i) k.timeOut.waitMillis

variable (c : StepContext)

/-- A poll is the last one: it does not succeed, the events are there or the time is over, or the
mission is cancelled before the next poll. -/
inductive Ends (p : Workspace) : Except Failure Bool × Workspace → Prop
  | failed {e after} (h : k.check.result c p = (.error e, after)) : Ends p (.error e, after)
  | held {after} (h : k.check.result c p = (.ok true, after)) : Ends p (.ok true, after)
  | timedOut {after} (h : k.check.result c p = (.ok false, after))
    (late : k.timeOut.nanos ≤ (k.elapsed after).nanos) : Ends p (.ok false, after)
  | cancelled {after world} (h : k.check.result c p = (.ok false, after))
    (early : (k.elapsed after).nanos < k.timeOut.nanos)
    (hnap : after.world.nap (k.nap after) = (false, world)) :
    Ends p (.ok false, { after with world })

/-- The polls from a workspace on, each with the workspace that it is made in, and how they end. -/
inductive Polls : Workspace → List Workspace → Except Failure Bool × Workspace → Prop
  | last {p outcome} (h : k.Ends c p outcome) : Polls p [p] outcome
  | again {p after world polls outcome} (h : k.check.result c p = (.ok false, after))
    (early : (k.elapsed after).nanos < k.timeOut.nanos)
    (hnap : after.world.nap (k.nap after) = (true, world))
    (rest : Polls { after with world } polls outcome) : Polls p (p :: polls) outcome

variable {k} {c} {p after : Workspace} {i : Nat} {outcome : Except Failure Bool × Workspace}
  {polls : List Workspace}

/-! ## When polls are made -/

/-- A poll works on the variables alone. -/
theorem world_of_check {r : Except Failure Bool} (h : k.check.result c p = (r, after)) :
    after.world = p.world := by
  have hmade : StepM.Made (fun _ w w' => w'.world = w.world) k.check :=
    (StepM.Made.mapM (fun event c w => by
      unfold StepM.holds
      rw [StepM.result_withSymbols]
      exact .single rfl) k.events).bind fun _ => .pure _
  have hsteps := hmade c p
  rw [h] at hsteps
  dsimp only at hsteps
  clear h
  induction hsteps with
  | refl => rfl
  | tail _ hstep ih => exact hstep.trans ih

@[simp] theorem moment_zero : k.moment 0 = k.started := by simp [moment]

theorem moment_le (i : Nat) : k.moment i ≤ k.started + k.timeOut.waitMillis :=
  Nat.add_le_add_left (Nat.min_le_right _ _) _

theorem elapsed_moment (h : p.world.clock = k.moment i) :
    (k.elapsed p).nanos = min (1000 * i) k.timeOut.waitMillis * Duration.nanosPerMilli := by
  unfold elapsed
  rw [h, moment, Nat.add_sub_cancel_left]
  rfl

section Early

variable (h : p.world.clock = k.moment i) (early : (k.elapsed p).nanos < k.timeOut.nanos)

include h early

/-- Before the time is over a poll is made after a whole number of seconds. -/
theorem seconds_of_early : i * Duration.nanosPerSecond < k.timeOut.nanos ∧
    (k.elapsed p).nanos = i * Duration.nanosPerSecond := by
  rw [elapsed_moment h] at early ⊢
  unfold Duration.waitMillis Duration.nanosPerMilli Duration.nanosPerSecond at *
  omega

theorem lt_pollLimit_of_early : i + 1 < pollLimit k.timeOut := by
  have := (seconds_of_early h early).1
  unfold pollLimit Duration.nanosPerSecond at *
  omega

/-- The nap from one poll to the next one is rounded up to a whole millisecond, which matters at the
end alone. -/
theorem moment_succ : p.world.clock + (k.nap p).waitMillis = k.moment (i + 1) := by
  obtain ⟨hlt, helapsed⟩ := seconds_of_early h early
  have hnap : (k.nap p).nanos =
      min Duration.nanosPerSecond (k.timeOut.nanos - i * Duration.nanosPerSecond) := by
    rw [← helapsed]
    rfl
  unfold Duration.waitMillis
  rw [hnap, h]
  unfold moment Duration.waitMillis Duration.nanosPerMilli Duration.nanosPerSecond at *
  omega

end Early

/-- The poll after a nap that was not cut short is made on time. -/
theorem moment_again {world : World} (hmoment : p.world.clock = k.moment i)
    (h : k.check.result c p = (.ok false, after))
    (early : (k.elapsed after).nanos < k.timeOut.nanos)
    (hnap : after.world.nap (k.nap after) = (true, world)) : world.clock = k.moment (i + 1) := by
  have hafter : after.world.clock = k.moment i := by rw [world_of_check h, hmoment]
  obtain ⟨-, hclock⟩ | ⟨hwoken, -⟩ := World.nap_cases hnap
  · rw [hclock, moment_succ hafter early]
  · cases hwoken

/-! ## The loop -/

/-- What one poll of the loop does. -/
theorem result_pollEvents (fuel : Nat) :
    (pollEvents k.needAll k.events k.started k.timeOut (fuel + 1)).result c p =
      match k.check.result c p with
      | (.error e, after) => (.error e, after)
      | (.ok true, after) => (.ok true, after)
      | (.ok false, after) =>
        if k.timeOut.nanos ≤ (k.elapsed after).nanos then (.ok false, after)
        else match after.world.nap (k.nap after) with
          | (true, world) => (pollEvents k.needAll k.events k.started k.timeOut fuel).result c
              { after with world }
          | (false, world) => (.ok false, { after with world }) := by
  have hcheck : (eventsHold k.needAll k.events).result c p = k.check.result c p := rfl
  rw [pollEvents, StepM.result_bind, hcheck]
  rcases k.check.result c p with ⟨e | _ | _, after⟩
  · rfl
  · have hget : (get : StepM Workspace).result c after = (.ok after, after) := rfl
    refine (StepM.result_bind_of_ok hget).trans ?_
    dsimp only
    split
    · next late => exact (if_pos late).symm
    · next early =>
      refine Eq.trans ?_ (if_neg early).symm
      have hnap : (StepM.withWorld (·.nap (k.nap after))).result c after =
          (.ok (after.world.nap (k.nap after)).1,
            { after with world := (after.world.nap (k.nap after)).2 }) := rfl
      refine (StepM.result_bind_of_ok hnap).trans ?_
      rcases after.world.nap (k.nap after) with ⟨_ | _, world⟩ <;> rfl
  · rfl

/-- The loop does not run out of fuel: it makes polls until one of them is the last. -/
theorem polls_pollEvents {fuel : Nat} (hmoment : p.world.clock = k.moment i)
    (hfuel : i + fuel = pollLimit k.timeOut) (hi : i < pollLimit k.timeOut) :
    ∃ polls, k.Polls c p polls
        ((pollEvents k.needAll k.events k.started k.timeOut fuel).result c p) ∧
      polls.length ≤ fuel := by
  induction fuel generalizing i p with
  | zero => omega
  | succ fuel ih =>
    have hone : [p].length ≤ fuel + 1 := Nat.le_add_left 1 fuel
    rw [result_pollEvents]
    rcases hcheck : k.check.result c p with ⟨e | _ | _, after⟩
    · exact ⟨[p], .last (.failed hcheck), hone⟩
    · have hworld := world_of_check hcheck
      dsimp only
      split
      · next late => exact ⟨[p], .last (.timedOut hcheck late), hone⟩
      · next early =>
        have early := Nat.lt_of_not_le early
        have hafter : after.world.clock = k.moment i := by rw [hworld, hmoment]
        rcases hnap : after.world.nap (k.nap after) with ⟨_ | _, world⟩
        · exact ⟨[p], .last (.cancelled hcheck early hnap), hone⟩
        · obtain ⟨polls, hpolls, hlength⟩ := ih (p := { after with world })
            (moment_again hmoment hcheck early hnap) (by omega)
            (lt_pollLimit_of_early hafter early)
          exact ⟨p :: polls, .again hcheck early hnap hpolls, Nat.succ_le_succ hlength⟩
    · exact ⟨[p], .last (.held hcheck), hone⟩

/-! ## What the polls find -/

namespace Polls

theorem moments (h : k.Polls c p polls outcome) (hmoment : p.world.clock = k.moment i) :
    ∀ j q, polls[j]? = some q → q.world.clock = k.moment (i + j) := by
  induction h generalizing i with
  | last _ =>
    intro j q hq
    cases j with
    | zero =>
      cases hq
      exact hmoment
    | succ j => cases hq
  | again hcheck early hnap _ ih =>
    intro j q hq
    cases j with
    | zero =>
      cases hq
      exact hmoment
    | succ j =>
      rw [ih (moment_again hmoment hcheck early hnap) j q hq, Nat.add_right_comm, Nat.add_assoc]

/-- The wait ends with the time-out, rounded up to a whole millisecond. -/
theorem clock_le (h : k.Polls c p polls outcome) (hmoment : p.world.clock = k.moment i) :
    outcome.2.world.clock ≤ k.started + k.timeOut.waitMillis := by
  induction h generalizing i with
  | last hend =>
    have hat : ∀ {r after}, k.check.result c _ = (r, after) → after.world.clock = k.moment i :=
      fun h => (congrArg World.clock (world_of_check h)).trans hmoment
    cases hend with
    | failed h => exact (hat h).trans_le (moment_le i)
    | held h => exact (hat h).trans_le (moment_le i)
    | timedOut h _ => exact (hat h).trans_le (moment_le i)
    | cancelled h early hnap =>
      obtain ⟨hwoken, -⟩ | ⟨-, hclock, -⟩ := World.nap_cases hnap
      · cases hwoken
      · rw [moment_succ (hat h) early] at hclock
        exact hclock.trans (moment_le _)
  | again hcheck early hnap _ ih =>
    exact ih (moment_again hmoment hcheck early hnap)

/-- The last poll decides. -/
theorem exists_last (h : k.Polls c p polls outcome) :
    ∃ q, polls.getLast? = some q ∧ k.Ends c q outcome := by
  induction h with
  | last hend => exact ⟨_, rfl, hend⟩
  | again _ _ _ _ ih =>
    obtain ⟨q, hlast, hend⟩ := ih
    exact ⟨q, by rw [List.getLast?_cons, hlast]; rfl, hend⟩

/-- No poll is made after the events were there. -/
theorem eq_last_of_held (h : k.Polls c p polls outcome) {q : Workspace} (hq : q ∈ polls)
    (hheld : k.check.result c q = (.ok true, after)) :
    polls.getLast? = some q ∧ outcome = (.ok true, after) := by
  induction h with
  | last hend =>
    cases List.mem_singleton.1 hq
    refine ⟨rfl, ?_⟩
    cases hend with
    | failed h => cases h.symm.trans hheld
    | held h => cases h.symm.trans hheld; rfl
    | timedOut h _ => cases h.symm.trans hheld
    | cancelled h _ _ => cases h.symm.trans hheld
  | again hcheck _ _ _ ih =>
    rcases List.mem_cons.1 hq with rfl | hq
    · cases hcheck.symm.trans hheld
    · obtain ⟨hlast, houtcome⟩ := ih hq
      exact ⟨by rw [List.getLast?_cons, hlast]; rfl, houtcome⟩

end Polls

/-- The polls of a wait are made on time, no more of them than there is time for, and decide how it
ends. -/
structure OnTime (k : Watch) (c : StepContext) (polls : List Workspace)
    (outcome : Except Failure Bool × Workspace) : Prop where
  count : polls.length ≤ k.timeOut.nanos ⌈/⌉ Duration.nanosPerSecond + 1
  moments : ∀ i q, polls[i]? = some q → q.world.clock = k.moment i
  ended : (k.elapsed outcome.2).nanos < k.timeOut.nanos + Duration.nanosPerMilli
  /-- The wait ends at the first poll that finds the events. -/
  held : ∀ q ∈ polls, ∀ after, k.check.result c q = (.ok true, after) →
    polls.getLast? = some q ∧ outcome = (.ok true, after)
  /-- Only a poll ends it so. -/
  received : outcome.1 = .ok true → ∃ q ∈ polls, k.check.result c q = outcome
  /-- A poll when the time is over does not find the events, unless the mission is cancelled. -/
  missed : outcome.1 = .ok false → outcome.2.world.remote.cancelled = false →
    ∃ q ∈ polls, k.timeOut.nanos ≤ (k.elapsed q).nanos ∧ k.check.result c q = outcome

theorem Polls.onTime (h : k.Polls c p polls outcome) (hmoment : p.world.clock = k.moment 0)
    (hcount : polls.length ≤ pollLimit k.timeOut) : k.OnTime c polls outcome where
  count := by
    unfold pollLimit at hcount
    rwa [Nat.ceilDiv_eq_add_pred_div, Nat.add_sub_assoc (by decide)]
  moments j q hq := by rw [h.moments hmoment j q hq, Nat.zero_add]
  ended := by
    have hclock := h.clock_le hmoment
    unfold elapsed Duration.ofMillis
    unfold Duration.waitMillis Duration.nanosPerMilli at *
    dsimp only
    omega
  held _ hq _ hheld := h.eq_last_of_held hq hheld
  received hreceived := by
    obtain ⟨q, hlast, hend⟩ := h.exists_last
    refine ⟨q, List.mem_of_getLast? hlast, ?_⟩
    cases hend with
    | held hcheck => exact hcheck
    | failed _ => cases hreceived
    | timedOut _ _ => cases hreceived
    | cancelled _ _ _ => cases hreceived
  missed hmissed hgoing := by
    obtain ⟨q, hlast, hend⟩ := h.exists_last
    refine ⟨q, List.mem_of_getLast? hlast, ?_⟩
    cases hend with
    | failed _ => cases hmissed
    | held _ => cases hmissed
    | timedOut hcheck late =>
      refine ⟨?_, hcheck⟩
      unfold elapsed at late ⊢
      rwa [world_of_check hcheck] at late
    | cancelled _ _ hnap =>
      obtain ⟨hwoken, -⟩ | ⟨-, -, hcancelled⟩ := World.nap_cases hnap
      · cases hwoken
      · cases hcancelled.symm.trans hgoing

/-- The wait that a step with these arguments starts. -/
def ofEntries (r : Entries Value) (started : Nat) (timeOut : Duration) : Watch :=
  ⟨r.text "events_relation" == "all", (r.value "events").textList, started, timeOut⟩

end Watch

section Step

open StepM Watch

variable {args r : Entries Value} {timeOut : Duration} {c : StepContext} {w start : Workspace}

/-- What the step stores once a wait has ended. -/
def storeStatus (r : Entries Value) (received : Bool) : StepM Unit := do
  store (r.text "result") (.text (waitStatus received))
  store (r.text "flag") (.bool received)

/-- The step fails as its wait does, or stores how it ended. -/
theorem result_waitUntil (hargs : (arguments waitUntilFields args).result c w = (.ok r, w))
    (htime : (secondsOf (r.value "time_out")).result c w = (.ok timeOut, start)) :
    (waitUntil args).result c w =
      match (pollEvents (r.text "events_relation" == "all") (r.value "events").textList
        start.world.clock timeOut (pollLimit timeOut)).result c start with
      | (.ok received, after) => (storeStatus r received).result c after
      | (.error e, after) => (.error e, after) := by
  have hget : (get : StepM Workspace).result c start = (.ok start, start) := rfl
  refine (result_bind_of_ok hargs).trans ((result_bind_of_ok htime).trans
    ((result_bind_of_ok hget).trans ?_))
  change (pollEvents (r.text "events_relation" == "all") (r.value "events").textList
    start.world.clock timeOut (pollLimit timeOut) >>= storeStatus r).result c start = _
  rw [result_bind]
  rcases (pollEvents _ _ _ _ _).result c start with ⟨e | received, after⟩ <;> rfl

/-- Two variables take what came of a wait. -/
theorem result_storeStatus {a b : String}
    (ha : Expr.readTarget (Text.trim (r.text "result")) = .ok ⟨a, []⟩)
    (hb : Expr.readTarget (Text.trim (r.text "flag")) = .ok ⟨b, []⟩) (received : Bool) :
    (storeStatus r received).result c w = (.ok (), { w with
      symbols := (w.symbols.set a (.text (waitStatus received))).set b (.bool received) }) := by
  unfold storeStatus
  rw [result_bind_of_ok (result_store ha _)]
  exact result_store hb _

/-- Wait Until polls its events at the start, once a second and when its time is over, and ends on
time. What fails fails the step. Where its result and its flag are different variables, the flag is
true exactly if the result says that the events were received. -/
theorem wait_until_on_time (hargs : (arguments waitUntilFields args).result c w = (.ok r, w))
    (htime : (secondsOf (r.value "time_out")).result c w = (.ok timeOut, start)) :
    ∃ polls outcome, (Watch.ofEntries r start.world.clock timeOut).Polls c start polls outcome ∧
      (Watch.ofEntries r start.world.clock timeOut).OnTime c polls outcome ∧
      (∀ e, outcome.1 = .error e → (waitUntil args).result c w = (.error e, outcome.2)) ∧
      ∀ received, outcome.1 = .ok received → ∀ a b, a ≠ b →
        Expr.readTarget (Text.trim (r.text "result")) = .ok ⟨a, []⟩ →
        Expr.readTarget (Text.trim (r.text "flag")) = .ok ⟨b, []⟩ →
        ∃ t, (waitUntil args).result c w = (.ok (), { outcome.2 with symbols := t }) ∧
          t.get? a = some (.text (waitStatus received)) ∧ t.get? b = some (.bool received) ∧
          (t.get? b = some (.bool true) ↔ t.get? a = some (.text "Completed:Event Received")) := by
  have hmoment : start.world.clock = (Watch.ofEntries r start.world.clock timeOut).moment 0 :=
    (moment_zero (k := Watch.ofEntries r start.world.clock timeOut)).symm
  have hlimit : 0 < pollLimit timeOut := by
    unfold pollLimit
    exact Nat.succ_pos _
  obtain ⟨polls, hpolls, hcount⟩ := polls_pollEvents (c := c) hmoment (Nat.zero_add _) hlimit
  have hrun := result_waitUntil hargs htime
  refine ⟨polls, _, hpolls, hpolls.onTime hmoment hcount, ?_⟩
  unfold Watch.ofEntries
  dsimp only
  generalize (pollEvents (r.text "events_relation" == "all") (r.value "events").textList
    start.world.clock timeOut (pollLimit timeOut)).result c start = outcome at hrun
  obtain ⟨ended, after⟩ := outcome
  refine ⟨fun e he => ?_, fun received hreceived a b hne ha hb => ?_⟩
  · cases he
    exact hrun
  · cases hreceived
    have hflag : ((after.symbols.set a (.text (waitStatus received))).set b
        (.bool received)).get? b = some (.bool received) := SymbolTable.get?_set_self ..
    have hresult : ((after.symbols.set a (.text (waitStatus received))).set b
        (.bool received)).get? a = some (.text (waitStatus received)) := by
      rw [SymbolTable.get?_set_of_ne _ _ hne, SymbolTable.get?_set_self]
    refine ⟨_, hrun.trans (result_storeStatus ha hb received), hresult, hflag, ?_⟩
    rw [hflag, hresult]
    cases received <;> simp [waitStatus]

/-- Two and a half seconds. -/
def halfPast : Finite64 := ⟨false, 5 * unitsPerOne / 2, by decide +kernel⟩

def halfPastArgs : Entries Value :=
  [("events", .list [.text "seen"]), ("time_out", .number (.real halfPast)), ("result", .text "r"),
    ("flag", .text "f")]

/-- The wait lasts for two and a half seconds. -/
theorem wait_until_on_time_halfPast :
    ∃ polls outcome,
      (Watch.mk false ["seen"] 0 ⟨2500000000⟩).Polls ⟨.usual, 0⟩ (.initially []) polls outcome ∧
      (Watch.mk false ["seen"] 0 ⟨2500000000⟩).OnTime ⟨.usual, 0⟩ polls outcome ∧
      ∀ received, outcome.1 = .ok received → ∃ t,
        (waitUntil halfPastArgs).result ⟨.usual, 0⟩ (.initially []) =
          (.ok (), { outcome.2 with symbols := t }) ∧
        (t.get? "f" = some (.bool true) ↔
          t.get? "r" = some (.text "Completed:Event Received")) := by
  have hargs : (arguments waitUntilFields halfPastArgs).result ⟨.usual, 0⟩ (.initially []) =
    (.ok _, .initially []) := rfl
  have hduration : Duration.ofReal? (.finite halfPast) = some ⟨2500000000⟩ := by decide +kernel
  have hnumber : (numberOr .zero (.number (.real halfPast))).result ⟨.usual, 0⟩ (.initially []) =
    (.ok (.finite halfPast), .initially []) := rfl
  have htime : (secondsOf (.number (.real halfPast))).result ⟨.usual, 0⟩ (.initially []) =
      (.ok ⟨2500000000⟩, .initially []) := by
    unfold secondsOf
    rw [result_bind_of_ok hnumber]
    unfold durationOf
    rw [hduration]
    rfl
  have hr : Expr.readTarget (Text.trim "r") = .ok ⟨"r", []⟩ := by cbv
  have hf : Expr.readTarget (Text.trim "f") = .ok ⟨"f", []⟩ := by cbv
  obtain ⟨polls, outcome, hpolls, hontime, -, hflag⟩ := wait_until_on_time hargs htime
  refine ⟨polls, outcome, hpolls, hontime, fun received hreceived => ?_⟩
  obtain ⟨t, hrun, -, -, hiff⟩ := hflag received hreceived "r" "f" (by decide) hr hf
  exact ⟨t, hrun, hiff⟩

end Step

end Deskhand
