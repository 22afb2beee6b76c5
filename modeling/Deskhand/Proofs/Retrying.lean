import Deskhand.Recovery.Retry
import Mathlib

/-!
# Trying again

Trying to reach a site again is one round after another, and a round is a wait and a ping behind it
(`RetryPolicy.round`). Pings are answered from a sequence (`Network.answer`), one answer for each; the
rounds go on until the first answer that tells that the site was reached, or until the policy allows no
more of them. So the outcome is read off the sequence, and the world afterwards is the one after as many
rounds as there were attempts (`World.retry_accounts`).
-/

namespace Deskhand

/-! ## Answers to pings -/

namespace Network

/-- The answer to the ping that comes after `k` others. -/
def answer (k : Nat) (n : Network) : Option Duration := n.answers.getD k n.otherwise

/-- The network after `k` pings. -/
def afterPings (k : Nat) (n : Network) : Network where
  answers := n.answers.drop k
  otherwise := n.otherwise
  pings := n.pings + k

theorem ping_eq (n : Network) : n.ping = ((n.answer 0).isSome, n.afterPings 1) := by
  obtain ⟨answers, otherwise, pings⟩ := n
  cases answers <;> rfl

@[simp] theorem answer_afterPings (j k : Nat) (n : Network) :
    (n.afterPings k).answer j = n.answer (k + j) := by
  simp [answer, afterPings, List.getElem?_drop]

theorem afterPings_afterPings (j k : Nat) (n : Network) :
    (n.afterPings j).afterPings k = n.afterPings (j + k) := by
  simp [afterPings, List.drop_drop, Nat.add_assoc]

end Network

/-- The first answer that tells that the site was reached is the `k`-th. -/
def FirstReached (answer : Nat → Option Duration) (k : Nat) : Prop :=
  ∃ j, k = j + 1 ∧ (answer j).isSome ∧ ∀ i < j, answer i = none

/-- Of a number of answers none tells that the site was reached, or else one of them is the first. -/
theorem unreached_or_firstReached (answer : Nat → Option Duration) (n : Nat) :
    (∀ i < n, answer i = none) ∨ ∃ k ≤ n, FirstReached answer k := by
  induction n with
  | zero => exact .inl fun i hi => absurd hi (Nat.not_lt_zero i)
  | succ n ih =>
    rcases ih with hnone | ⟨k, hk, hfirst⟩
    · cases hn : answer n with
      | none =>
        refine .inl fun i hi => ?_
        rcases Nat.lt_succ_iff_lt_or_eq.1 hi with hi | rfl
        · exact hnone i hi
        · exact hn
      | some rtt => exact .inr ⟨n + 1, Nat.le_refl _, n, rfl, by rw [hn]; rfl, hnone⟩
    · exact .inr ⟨k, Nat.le_succ_of_le hk, hfirst⟩

namespace FirstReached

variable {answer answer' : Nat → Option Duration} {j k n : Nat}

theorem unique (h : FirstReached answer j) (h' : FirstReached answer k) : j = k := by
  obtain ⟨i, rfl, hi, hbefore⟩ := h
  obtain ⟨i', rfl, hi', hbefore'⟩ := h'
  rcases Nat.lt_trichotomy i i' with hlt | rfl | hlt
  · rw [hbefore' i hlt] at hi
    cases hi
  · rfl
  · rw [hbefore i' hlt] at hi'
    cases hi'

theorem not_unreached (h : FirstReached answer k) (hk : k ≤ n) : ¬∀ i < n, answer i = none := by
  obtain ⟨j, rfl, hj, -⟩ := h
  intro hnone
  rw [hnone j hk] at hj
  cases hj

/-- Only the answers up to the first that tells so matter. -/
theorem congr (h : FirstReached answer k) (hk : k ≤ n) (heq : ∀ i < n, answer i = answer' i) :
    FirstReached answer' k := by
  obtain ⟨j, rfl, hj, hbefore⟩ := h
  refine ⟨j, rfl, ?_, ?_⟩
  · rw [← heq j hk]
    exact hj
  · intro i hi
    rw [← heq i (Nat.lt_trans hi hk)]
    exact hbefore i hi

end FirstReached

/-! ## Rounds -/

/-- A wait of no time at all takes none. -/
theorem Duration.waitMillis_of_isZero {d : Duration} (h : d.isZero) : d.waitMillis = 0 := by
  have hnanos : d.nanos = 0 := by
    rw [isZero] at h
    exact eq_of_beq h
  rw [waitMillis, hnanos, Nat.zero_add]
  exact Nat.div_eq_of_lt (by decide)

namespace RetryPolicy

/-- The wait with which a round begins. -/
def wait (p : RetryPolicy) (w : World) : Duration := (p.backOff w).1

/-- One round: a wait, and a ping behind it. -/
def round (p : RetryPolicy) (w : World) : World := ((p.backOff w).2.sleep (p.wait w)).ping.2

/-- The waits of the first rounds. -/
def waits (p : RetryPolicy) (n : Nat) (w : World) : List Duration :=
  (List.range n).map fun i => p.wait (p.round^[i] w)

section Round

variable (p : RetryPolicy) (w : World)

/-- To draw the length of a wait changes nothing but the draws. -/
theorem backOff_world : ∃ draws, (p.backOff w).2 = { w with draws } := by
  unfold backOff
  dsimp only
  split
  · exact ⟨w.draws, rfl⟩
  · generalize p.minBackOff.wholeMillis % Word.count64 = lo
    generalize p.maxBackOff.wholeMillis % Word.count64 = hi
    exact ⟨(w.draws.nat lo hi).2, rfl⟩

@[simp] theorem backOff_clock : (p.backOff w).2.clock = w.clock := by
  obtain ⟨draws, h⟩ := p.backOff_world w
  rw [h]

@[simp] theorem backOff_network : (p.backOff w).2.network = w.network := by
  obtain ⟨draws, h⟩ := p.backOff_world w
  rw [h]

@[simp] theorem passUntil_network (time : Nat) : (w.passUntil time).network = w.network := rfl

@[simp] theorem passUntil_clock (time : Nat) : (w.passUntil time).clock = time := rfl

@[simp] theorem sleep_network (d : Duration) : (w.sleep d).network = w.network := by
  rw [World.sleep]
  by_cases hzero : d.isZero
  · rw [if_pos hzero]
  · rw [if_neg hzero, passUntil_network]

@[simp] theorem sleep_clock (d : Duration) : (w.sleep d).clock = w.clock + d.waitMillis := by
  rw [World.sleep]
  by_cases hzero : d.isZero
  · rw [if_pos hzero, Duration.waitMillis_of_isZero hzero, Nat.add_zero]
  · rw [if_neg hzero, passUntil_clock]

theorem ping_reached : w.ping.1 = w.network.ping.1 := rfl

theorem ping_network : w.ping.2.network = w.network.ping.2 := rfl

@[simp] theorem ping_clock : w.ping.2.clock = w.clock := rfl

theorem ping_sleep (d : Duration) :
    (w.sleep d).ping.1 = (w.network.answer 0).isSome ∧
      (w.sleep d).ping.2.network = w.network.afterPings 1 ∧
      (w.sleep d).ping.2.clock = w.clock + d.waitMillis := by
  refine ⟨?_, ?_, ?_⟩
  · rw [ping_reached, sleep_network, Network.ping_eq]
  · rw [ping_network, sleep_network, Network.ping_eq]
  · rw [ping_clock, sleep_clock]

theorem round_network : (p.round w).network = w.network.afterPings 1 := by
  rw [round, (ping_sleep _ _).2.1, backOff_network]

theorem round_clock : (p.round w).clock = w.clock + (p.wait w).waitMillis := by
  rw [round, (ping_sleep _ _).2.2, backOff_clock]

/-- Every round pings once. -/
theorem rounds_network (n : Nat) : (p.round^[n] w).network = w.network.afterPings n := by
  induction n with
  | zero => rfl
  | succ n ih => rw [Function.iterate_succ_apply', round_network, ih, Network.afterPings_afterPings]

theorem waits_succ (n : Nat) : p.waits (n + 1) w = p.waits n w ++ [p.wait (p.round^[n] w)] := by
  rw [waits, List.range_succ, List.map_append, List.map_singleton, ← waits]

/-- Time passes in the waits alone. -/
theorem rounds_clock (n : Nat) :
    (p.round^[n] w).clock = w.clock + ((p.waits n w).map (·.waitMillis)).sum := by
  induction n with
  | zero => simp [waits]
  | succ n ih =>
    rw [Function.iterate_succ_apply', round_clock, ih, waits_succ, List.map_append, List.sum_append,
      List.map_singleton, List.sum_singleton, Nat.add_assoc]

/-- An attempt is a round, whose ping is answered by the first answer. -/
theorem attempt_succ (made left : Nat) : p.attempt made (left + 1) w =
    if (w.network.answer 0).isSome then (.reconnected (made + 1), p.round w)
    else p.attempt (made + 1) left (p.round w) := by
  have hreached := (ping_sleep (p.backOff w).2 (p.backOff w).1).1
  rw [backOff_network] at hreached
  rw [attempt, ← hreached]
  rfl

end Round

/-- The attempts come to an end with the first answer that tells that the site was reached. -/
theorem attempt_reached {p : RetryPolicy} {made left k : Nat} {w : World} (hk : k ≤ left)
    (h : FirstReached (fun j => w.network.answer j) k) :
    p.attempt made left w = (.reconnected (made + k), p.round^[k] w) := by
  obtain ⟨j, rfl, hj, hbefore⟩ := h
  induction left generalizing j made w with
  | zero => exact absurd hk (Nat.not_succ_le_zero j)
  | succ left ih =>
    rw [attempt_succ]
    cases j with
    | zero => rw [if_pos hj, Function.iterate_one]
    | succ j =>
      have hfirst : w.network.answer 0 = none := hbefore 0 (Nat.succ_pos j)
      have hshift : ∀ i, (p.round w).network.answer i = w.network.answer (i + 1) := by
        intro i
        rw [round_network, Network.answer_afterPings, Nat.add_comm]
      have hj' : ((p.round w).network.answer j).isSome := by
        rw [hshift]
        exact hj
      have hbefore' : ∀ i < j, (p.round w).network.answer i = none := by
        intro i hi
        rw [hshift]
        exact hbefore (i + 1) (Nat.succ_lt_succ hi)
      rw [hfirst, if_neg (by simp), ih j (Nat.le_of_succ_le_succ hk) hj' hbefore',
        Function.iterate_succ_apply _ (j + 1), Nat.add_right_comm, Nat.add_assoc made]

/-- If no answer tells that the site was reached, all attempts are made. -/
theorem attempt_unreached {p : RetryPolicy} {made left : Nat} {w : World}
    (h : ∀ i < left, w.network.answer i = none) :
    p.attempt made left w = (.exhausted (made + left), p.round^[left] w) := by
  induction left generalizing made w with
  | zero => rfl
  | succ left ih =>
    have hfirst : w.network.answer 0 = none := h 0 (Nat.succ_pos left)
    rw [attempt_succ, hfirst, if_neg (by simp), ih]
    · rw [Function.iterate_succ_apply, Nat.add_right_comm, Nat.add_assoc]
    · intro i hi
      rw [round_network, Network.answer_afterPings, Nat.add_comm]
      exact h (i + 1) (Nat.succ_lt_succ hi)

end RetryPolicy

/-! ## The outcome -/

/-- The number of attempts that were made. -/
def RetryOutcome.attempts : RetryOutcome → Nat
  | reconnected k => k
  | exhausted k => k

namespace World

/-- Trying again with a policy while pings are answered by a sequence. There are as many rounds as
attempts, at most as many as the policy allows, and each is one wait and one ping behind it, so that
time passes in the waits alone and the answers after those to the attempts are left. The site is
reached with the attempt whose answer is the first to tell so, if it is among those that are allowed;
otherwise all of these are made. -/
theorem retry_accounts (p : RetryPolicy) (w : World) (answer : Nat → Option Duration)
    (hanswer : ∀ i < p.maxRetries, w.network.answer i = answer i) :
    (w.retry p).1.attempts ≤ p.maxRetries ∧
    (w.retry p).2 = p.round^[(w.retry p).1.attempts] w ∧
    (w.retry p).2.network = w.network.afterPings (w.retry p).1.attempts ∧
    (w.retry p).2.clock =
      w.clock + ((p.waits (w.retry p).1.attempts w).map (·.waitMillis)).sum ∧
    (∀ k, (w.retry p).1 = .reconnected k ↔ k ≤ p.maxRetries ∧ FirstReached answer k) ∧
    ∀ k, (w.retry p).1 = .exhausted k ↔ k = p.maxRetries ∧ ∀ i < p.maxRetries, answer i = none := by
  rcases unreached_or_firstReached answer p.maxRetries with hnone | ⟨k, hk, hfirst⟩
  · have hretry : w.retry p = (.exhausted p.maxRetries, p.round^[p.maxRetries] w) := by
      have h : p.attempt 0 p.maxRetries w = _ := RetryPolicy.attempt_unreached fun i hi => by
        rw [hanswer i hi]
        exact hnone i hi
      rwa [Nat.zero_add] at h
    rw [hretry]
    refine ⟨Nat.le_refl _, rfl, p.rounds_network w _, p.rounds_clock w _, ?_, ?_⟩
    · intro k
      constructor
      · intro h
        cases h
      · rintro ⟨hk, hfirst⟩
        exact absurd hnone (hfirst.not_unreached hk)
    · intro k
      constructor
      · intro h
        cases h
        exact ⟨rfl, hnone⟩
      · rintro ⟨rfl, -⟩
        rfl
  · have hretry : w.retry p = (.reconnected k, p.round^[k] w) := by
      have hnetwork : FirstReached (fun j => w.network.answer j) k :=
        hfirst.congr hk fun i hi => (hanswer i hi).symm
      have h : p.attempt 0 p.maxRetries w = _ := RetryPolicy.attempt_reached hk hnetwork
      rwa [Nat.zero_add] at h
    rw [hretry]
    refine ⟨hk, rfl, p.rounds_network w _, p.rounds_clock w _, ?_, ?_⟩
    · intro k'
      constructor
      · intro h
        cases h
        exact ⟨hk, hfirst⟩
      · rintro ⟨-, hfirst'⟩
        rw [hfirst.unique hfirst']
    · intro k'
      constructor
      · intro h
        cases h
      · rintro ⟨-, hnone⟩
        exact absurd hnone (hfirst.not_unreached hk)

/-- Every third ping is answered. -/
def everyThird (k : Nat) : Option Duration := if k % 3 = 2 then some (.ofMillis 20) else none

/-- A world in which every third of the first pings is answered, and later ones never are. -/
def flaky : World :=
  { World.plain 0 .empty with network := ⟨(List.range 6).map everyThird, none, 0⟩ }

theorem retry_accounts_flaky :
    (∀ i < 3, flaky.network.answer i = everyThird i) ∧
    (flaky.retry ⟨3, .ofSeconds 3, .ofSeconds 2, "a site"⟩).1 = .reconnected 3 ∧
    (flaky.retry ⟨3, .ofSeconds 3, .ofSeconds 2, "a site"⟩).2.network = flaky.network.afterPings 3 ∧
    (flaky.retry ⟨2, .ofSeconds 3, .ofSeconds 2, "a site"⟩).1 = .exhausted 2 := by
  have hanswer : ∀ i < 3, flaky.network.answer i = everyThird i := by decide
  have hthree := retry_accounts ⟨3, .ofSeconds 3, .ofSeconds 2, "a site"⟩ flaky everyThird hanswer
  have htwo := retry_accounts ⟨2, .ofSeconds 3, .ofSeconds 2, "a site"⟩ flaky everyThird
    fun i hi => hanswer i (Nat.lt_succ_of_lt hi)
  have hreached := (hthree.2.2.2.2.1 3).2 ⟨Nat.le_refl 3, 2, rfl, rfl, by decide⟩
  refine ⟨hanswer, hreached, ?_, (htwo.2.2.2.2.2 2).2 ⟨rfl, by decide⟩⟩
  have hnetwork := hthree.2.2.1
  rwa [hreached] at hnetwork

end World

end Deskhand
