import Deskhand.Proofs.Retrying

/-!
# How long the waits are

A wait is drawn in whole milliseconds, of which 64 bits count. As long as the shorter bound fits them,
every wait lies between the bounds; if it does not, and less is left of it than of the longer one, all
waits are too short (`RetryPolicy.CutShort`). The longer bound holds in any case. So the time that
passes while trying again lies between as many of the shortest waits as there were attempts and the
worst case of the policy, if that fits a duration (`World.retry_backs_off`).
-/

namespace Deskhand

/-! ## Draws from a range -/

namespace Draws

theorem below_lt {span : Nat} (h : 0 < span) (tries : Nat) (d : Draws) :
    (d.below span tries).1 < span := by
  induction tries generalizing d with
  | zero => exact h
  | succ tries ih =>
    unfold below
    dsimp only
    split
    · have hword : d.next.1.toNat < Word.count64 := UInt64.toNat_lt_size _
      exact Nat.div_lt_of_lt_mul (Nat.mul_lt_mul_of_pos_right hword h)
    · exact ih d.next.2

/-- What is drawn from a range lies in it. -/
theorem nat_mem {lo hi : Nat} (h : lo < hi) (d : Draws) :
    lo ≤ (d.nat lo hi).1 ∧ (d.nat lo hi).1 < hi := by
  have hbelow : (d.below (hi - lo) patience).1 < hi - lo := below_lt (Nat.sub_pos_of_lt h) _ d
  unfold nat
  dsimp only
  omega

end Draws

/-! ## Durations in whole milliseconds -/

namespace Duration

@[simp] theorem wholeMillis_ofMillis (n : Nat) : (ofMillis n).wholeMillis = n :=
  Nat.mul_div_cancel n (by decide)

@[simp] theorem waitMillis_ofMillis (n : Nat) : (ofMillis n).waitMillis = n := by
  unfold waitMillis ofMillis nanosPerMilli
  dsimp only
  omega

/-- A second has a thousand milliseconds. -/
theorem ofSeconds_eq (n : Nat) : ofSeconds n = ofMillis (n * 1000) := by
  rw [ofSeconds, ofMillis, Nat.mul_assoc]
  rfl

theorem max_ofMillis (m n : Nat) : (ofMillis m).max (ofMillis n) = ofMillis (Nat.max m n) :=
  congrArg mk (Nat.mul_max_mul_right m n nanosPerMilli)

theorem nanos_ofMillis_le {m n : Nat} : (ofMillis m).nanos ≤ (ofMillis n).nanos ↔ m ≤ n :=
  Nat.mul_le_mul_right_iff (by decide)

/-- A number of durations in a row is as long as all of them, unless that is too long. -/
theorem times?_ofMillis (m n : Nat) : (ofMillis m).times? n =
    if (ofMillis m).nanos * n < secondsLimit * nanosPerSecond then some (ofMillis (n * m))
    else none := by
  have hnanos : (ofMillis m).nanos * n = (ofMillis (n * m)).nanos := by
    simp only [ofMillis]
    rw [Nat.mul_right_comm, Nat.mul_comm m n]
  unfold times?
  dsimp only
  rw [hnanos]

end Duration

/-! ## The waits of a policy -/

namespace RetryPolicy

/-- Of the shorter bound only a rest counts, and that is less than what counts of the longer one. -/
def CutShort (p : RetryPolicy) : Prop :=
  Word.count64 ≤ p.minBackOff.wholeMillis ∧
    p.minBackOff.wholeMillis % Word.count64 < p.maxBackOff.wholeMillis % Word.count64

instance (p : RetryPolicy) : Decidable p.CutShort := inferInstanceAs (Decidable (_ ∧ _))

/-- No wait is meant to be longer. -/
def longest (p : RetryPolicy) : Duration := p.maxBackOff.max p.minBackOff

/-- The bounds of the policy are these whole milliseconds. -/
structure Bounds (p : RetryPolicy) (lo hi : Nat) : Prop where
  min : p.minBackOff = .ofMillis lo
  max : p.maxBackOff = .ofMillis hi

namespace Bounds

variable {p : RetryPolicy} {lo hi : Nat}

theorem longest_eq (h : p.Bounds lo hi) : p.longest = .ofMillis (Nat.max hi lo) := by
  rw [longest, h.min, h.max, Duration.max_ofMillis]

theorem worstCase?_eq (h : p.Bounds lo hi) : p.worstCase? =
    if p.longest.nanos * p.maxRetries < Duration.secondsLimit * Duration.nanosPerSecond then
      some (.ofMillis (p.maxRetries * Nat.max hi lo))
    else none := by
  change p.longest.times? p.maxRetries = _
  rw [h.longest_eq, Duration.times?_ofMillis]

theorem cutShort_iff (h : p.Bounds lo hi) :
    p.CutShort ↔ Word.count64 ≤ lo ∧ lo % Word.count64 < hi % Word.count64 := by
  rw [CutShort, h.min, h.max, Duration.wholeMillis_ofMillis, Duration.wholeMillis_ofMillis]

/-- A wait is the shorter bound, or drawn between what counts of the bounds. -/
theorem wait_cases (h : p.Bounds lo hi) (w : World) :
    (hi % Word.count64 ≤ lo % Word.count64 ∧ p.wait w = .ofMillis lo) ∨
    ∃ millis, lo % Word.count64 ≤ millis ∧ millis < hi % Word.count64 ∧
      p.wait w = .ofMillis millis := by
  -- what is cut off must not be computed to see what is drawn
  have hlo : p.minBackOff.wholeMillis % Word.count64 = lo % Word.count64 := by
    rw [h.min, Duration.wholeMillis_ofMillis]
  have hhi : p.maxBackOff.wholeMillis % Word.count64 = hi % Word.count64 := by
    rw [h.max, Duration.wholeMillis_ofMillis]
  generalize lo % Word.count64 = lo' at hlo ⊢
  generalize hi % Word.count64 = hi' at hhi ⊢
  unfold wait backOff
  dsimp only
  rw [hlo, hhi]
  by_cases hle : hi' ≤ lo'
  · rw [if_pos hle]
    exact .inl ⟨hle, h.min⟩
  · rw [if_neg hle]
    obtain ⟨hleast, hmost⟩ := Draws.nat_mem (Nat.lt_of_not_le hle) w.draws
    exact .inr ⟨(w.draws.nat lo' hi').1, hleast, hmost, rfl⟩

/-- No wait is longer than the longer bound; it is as long as the shorter one exactly if not too much
is cut off that. -/
theorem exists_wait (h : p.Bounds lo hi) (w : World) :
    ∃ millis, p.wait w = .ofMillis millis ∧ millis ≤ Nat.max hi lo ∧ (lo ≤ millis ↔ ¬p.CutShort) := by
  rw [h.cutShort_iff]
  obtain ⟨hle, hwait⟩ | ⟨millis, hlo, hhi, hwait⟩ := h.wait_cases w
  · refine ⟨lo, hwait, Nat.le_max_right hi lo, iff_of_true (Nat.le_refl lo) ?_⟩
    rintro ⟨-, hlt⟩
    exact absurd hle (Nat.not_le_of_lt hlt)
  · have hmod : hi % Word.count64 ≤ hi := Nat.mod_le _ _
    refine ⟨millis, hwait, Nat.le_trans (by omega) (Nat.le_max_left hi lo), ?_⟩
    rcases Nat.lt_or_ge lo Word.count64 with hfits | hlong
    · rw [Nat.mod_eq_of_lt hfits] at hlo
      exact iff_of_true hlo fun hcut => absurd hcut.1 (Nat.not_le_of_lt hfits)
    · have hrest : hi % Word.count64 < Word.count64 := Nat.mod_lt _ (by decide)
      have hcut : Word.count64 ≤ lo ∧ lo % Word.count64 < hi % Word.count64 :=
        ⟨hlong, Nat.lt_of_le_of_lt hlo hhi⟩
      exact iff_of_false (by omega) fun hnot => hnot hcut

/-- The waits of the first rounds together. -/
theorem sum_waits (h : p.Bounds lo hi) (n : Nat) (w : World) :
    ((p.waits n w).map (·.waitMillis)).sum ≤ n * Nat.max hi lo ∧
      (¬p.CutShort → n * lo ≤ ((p.waits n w).map (·.waitMillis)).sum) := by
  induction n with
  | zero => simp [waits]
  | succ n ih =>
    obtain ⟨millis, hwait, hmax, hmin⟩ := h.exists_wait (p.round^[n] w)
    rw [waits_succ, List.map_append, List.sum_append, hwait, List.map_singleton, List.sum_singleton,
      Duration.waitMillis_ofMillis, Nat.succ_mul, Nat.succ_mul]
    refine ⟨Nat.add_le_add ih.1 hmax, fun hcut => Nat.add_le_add (ih.2 hcut) (hmin.2 hcut)⟩

end Bounds

/-- To try again is to make as many rounds as there were attempts. -/
theorem attempt_rounds (p : RetryPolicy) (left : Nat) (w : World) :
    ∃ k ≤ left, (p.attempt 0 left w).1.attempts = k ∧ (p.attempt 0 left w).2 = p.round^[k] w := by
  rcases unreached_or_firstReached (fun i => w.network.answer i) left with hnone | ⟨k, hk, hfirst⟩
  · rw [attempt_unreached hnone, Nat.zero_add]
    exact ⟨left, Nat.le_refl left, rfl, rfl⟩
  · rw [attempt_reached hk hfirst, Nat.zero_add]
    exact ⟨k, hk, rfl, rfl⟩

end RetryPolicy

/-- The bounds of a policy are given in seconds. -/
theorem RecoveryConfig.bounds_policyFor (c : RecoveryConfig) (handler : Option HandlerArgs) :
    ∃ lo hi, (c.policyFor handler).Bounds lo hi := by
  cases handler <;> exact ⟨_, _, Duration.ofSeconds_eq _, Duration.ofSeconds_eq _⟩

namespace World

/-- Trying again with the settings of a mission and of a handler. No wait is longer than the longer
bound of the policy, and none is shorter than the shorter one unless that is cut short. The time that
passes lies between as many of the shortest waits as there were attempts, unless they are cut short,
and the worst case; and there is a worst case exactly if as many of the longest waits as there may be
attempts fit a duration. -/
theorem retry_backs_off {c : RecoveryConfig} {handler : Option HandlerArgs} {p : RetryPolicy}
    (hp : c.policyFor handler = p) (w : World) :
    (∀ w' : World, (p.wait w').nanos ≤ p.longest.nanos ∧
      (p.minBackOff.nanos ≤ (p.wait w').nanos ↔ ¬p.CutShort)) ∧
    (¬p.CutShort →
      w.clock + (w.retry p).1.attempts * p.minBackOff.waitMillis ≤ (w.retry p).2.clock) ∧
    (∀ d, p.worstCase? = some d → (w.retry p).2.clock ≤ w.clock + d.waitMillis) ∧
    (p.worstCase?.isSome ↔
      p.longest.nanos * p.maxRetries < Duration.secondsLimit * Duration.nanosPerSecond) := by
  obtain ⟨lo, hi, h⟩ := c.bounds_policyFor handler
  rw [hp] at h
  obtain ⟨k, hk, hattempts, hrounds⟩ := p.attempt_rounds p.maxRetries w
  have hclock : (w.retry p).2.clock = w.clock + ((p.waits k w).map (·.waitMillis)).sum := by
    rw [retry, hrounds, p.rounds_clock w k]
  obtain ⟨hmost, hleast⟩ := h.sum_waits k w
  refine ⟨fun w' => ?_, fun hcut => ?_, fun d hd => ?_, ?_⟩
  · obtain ⟨millis, hwait, hmax, hmin⟩ := h.exists_wait w'
    rw [hwait, h.longest_eq, h.min, Duration.nanos_ofMillis_le, Duration.nanos_ofMillis_le]
    exact ⟨hmax, hmin⟩
  · rw [hclock, retry, hattempts, h.min, Duration.waitMillis_ofMillis]
    exact Nat.add_le_add_left (hleast hcut) _
  · rw [h.worstCase?_eq, Option.ite_none_right_eq_some, Option.some.injEq] at hd
    obtain ⟨-, rfl⟩ := hd
    rw [hclock, Duration.waitMillis_ofMillis]
    exact Nat.add_le_add_left (Nat.le_trans hmost (Nat.mul_le_mul_right _ hk)) _
  · rw [h.worstCase?_eq, Option.isSome_ite]

/-- Waits of three to ten seconds, three at most, are neither cut short nor too long together. -/
theorem retry_backs_off_usual :
    RecoveryConfig.usual.policyFor none = ⟨3, .ofSeconds 3, .ofSeconds 10, "example.com"⟩ ∧
    (∀ w' : World, (Duration.ofSeconds 3).nanos ≤
        (RetryPolicy.wait ⟨3, .ofSeconds 3, .ofSeconds 10, "example.com"⟩ w').nanos ∧
      (RetryPolicy.wait ⟨3, .ofSeconds 3, .ofSeconds 10, "example.com"⟩ w').nanos ≤
        (Duration.ofSeconds 10).nanos) ∧
    (flaky.retry ⟨3, .ofSeconds 3, .ofSeconds 10, "example.com"⟩).2.clock ≤ 30000 := by
  have hp : RecoveryConfig.usual.policyFor none =
      ⟨3, .ofSeconds 3, .ofSeconds 10, "example.com"⟩ := rfl
  obtain ⟨hwaits, -, hworst, -⟩ := retry_backs_off hp flaky
  refine ⟨hp, fun w' => ⟨(hwaits w').2.2 (by decide), (hwaits w').1⟩, ?_⟩
  exact hworst (.ofSeconds 30) (by decide)

/-- Settings with these fields, and the usual ones for the rest. -/
def settingsOf (fields : Entries Value) : Except ShapeFault RecoveryConfig :=
  RecoveryConfig.ofValue (.object fields)

/-- Of a shortest wait of more than half a billion years less than a second counts, and two waits of
half the longest duration are too long together. -/
theorem not_retry_backs_off :
    (¬∀ (fields : Entries Value) (c : RecoveryConfig) (w : World), settingsOf fields = .ok c →
      (c.policyFor none).minBackOff.nanos ≤ ((c.policyFor none).wait w).nanos) ∧
    ¬∀ (fields : Entries Value) (c : RecoveryConfig), settingsOf fields = .ok c →
      (c.policyFor none).worstCase?.isSome := by
  constructor
  · intro h
    let c := { RecoveryConfig.usual with minBackOffSeconds := 18446744073709552 }
    have hlong := h [("min_retry_back_off_secs", .int 18446744073709552)] c flaky rfl
    have hcut : (c.policyFor none).CutShort := by decide
    obtain ⟨lo, hi, hbounds⟩ := c.bounds_policyFor none
    obtain ⟨millis, hwait, -, hmin⟩ := hbounds.exists_wait flaky
    rw [hwait, hbounds.min, Duration.nanos_ofMillis_le] at hlong
    exact hmin.1 hlong hcut
  · intro h
    have hworst := h [("min_retry_back_off_secs", .int 9223372036854775808), ("max_retries", .int 2)]
      { RecoveryConfig.usual with minBackOffSeconds := 9223372036854775808, maxRetries := 2 } rfl
    exact absurd hworst (by decide)

end World

end Deskhand
