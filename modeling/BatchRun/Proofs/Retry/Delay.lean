import BatchRun.Retry.Policy
import Mathlib.Data.Rat.Floor
import Mathlib.Tactic.Linarith
import Mathlib.Tactic.Positivity

/-! # Delays in exact arithmetic

Computed with exact numbers, the delay after an attempt is the nominal delay of the strategy,
shifted by a share of it and cut to whole milliseconds. The share depends on the number of the
attempt and lies between the jitter downwards and 98 hundredths of the jitter upwards. So delays
stay within the jitter of the nominal ones. They exceed the limit of a policy where the limit is not
applied, which is so for fixed delays, or where a delay near the limit is shifted upwards.
-/

namespace BatchRun

/-! ## Lengths -/

namespace Duration

/-- The exact length of a duration in milliseconds. -/
def inMillis (duration : Duration) : ℚ :=
  duration.seconds.toNat * 1000 + duration.nanos.val / 1000000

@[simp] theorem inMillis_zero : zero.inMillis = 0 := by norm_num [inMillis, zero]

@[simp] theorem inMillis_ofMillis (millis : UInt64) :
    (ofMillis millis).inMillis = millis.toNat := by
  have small : millis.toNat % 1000 * 1000000 < 1000000000 := by omega
  have seconds : (millis / 1000).toNat = millis.toNat / 1000 := UInt64.toNat_div ..
  have nanos : (Fin.ofNat 1000000000 (millis.toNat % 1000 * 1000000)).val =
      millis.toNat % 1000 * 1000000 := Nat.mod_eq_of_lt small
  have split : millis.toNat / 1000 * 1000 + millis.toNat % 1000 = millis.toNat :=
    Nat.div_add_mod' ..
  simp only [inMillis, ofMillis, seconds, nanos]
  rw [← Nat.cast_inj (R := ℚ)] at split
  push_cast at split ⊢
  linarith

/-- Whole milliseconds are compared with a duration by the whole milliseconds of it. -/
theorem natCast_le_inMillis_iff {millis : ℕ} {duration : Duration} :
    (millis : ℚ) ≤ duration.inMillis ↔ millis ≤ duration.toMillis := by
  have fraction : duration.nanos.val % 1000000 < 1000000 := Nat.mod_lt _ (by decide)
  have split := Nat.div_add_mod duration.nanos.val 1000000
  rw [← Nat.cast_inj (R := ℚ)] at split
  rw [← Nat.cast_lt (α := ℚ)] at fraction
  have above : (0 : ℚ) ≤ (duration.nanos.val % 1000000 : ℕ) := Nat.cast_nonneg _
  have length : duration.inMillis =
      duration.toMillis + (duration.nanos.val % 1000000 : ℕ) / 1000000 := by
    unfold inMillis toMillis
    push_cast at split ⊢
    linarith
  push_cast at fraction
  constructor
  · intro within
    by_contra exceeds
    have next : duration.toMillis + 1 ≤ millis := by omega
    rw [← Nat.cast_le (α := ℚ)] at next
    push_cast at next
    linarith
  · intro within
    rw [← Nat.cast_le (α := ℚ)] at within
    linarith

end Duration

/-! ## Delays -/

namespace Delay

/-- The share of the range by which the delay after an attempt is shifted. -/
def swing (attempt : ℕ) : ℚ := (17 * attempt % 100 : ℕ) / 50 - 1

private theorem neg_one_le_swing (attempt : ℕ) : -1 ≤ swing attempt := by
  have positive : (0 : ℚ) ≤ (17 * attempt % 100 : ℕ) / 50 := by positivity
  unfold swing
  linarith

private theorem swing_le (attempt : ℕ) : swing attempt ≤ 49 / 50 := by
  have below : (17 * attempt % 100 : ℕ) ≤ 99 := by omega
  have cast : ((17 * attempt % 100 : ℕ) : ℚ) ≤ 99 := by exact_mod_cast below
  unfold swing
  linarith

private theorem swing_nonpos_iff (attempt : ℕ) : swing attempt ≤ 0 ↔ 17 * attempt % 100 ≤ 50 := by
  rw [← Nat.cast_le (α := ℚ)]
  unfold swing
  push_cast
  constructor <;> intro bound <;> linarith

private theorem shift_eq {jitter delay : ℚ} (nonneg : 0 ≤ delay * jitter) (attempt : ℕ) :
    shift jitter delay attempt = delay * jitter * swing attempt := by
  change (if 0 < delay * jitter then
    delay * jitter * ((17 * attempt % 100 : ℕ) / (100 : ℕ) - (1 : ℕ) / (2 : ℕ)) * (2 : ℕ)
    else 0) = _
  split
  · unfold swing
    push_cast
    ring
  · have none : delay * jitter = 0 := by linarith
    rw [none, zero_mul]

/-- The whole part of a number, as far as it fits into 64 bits. -/
theorem toNat_truncate (number : ℚ) :
    (DelayArithmetic.truncate number).toNat = min ⌊number⌋₊ (2 ^ 64 - 1) := by
  change (UInt64.ofNat (min ⌊number⌋.toNat (2 ^ 64 - 1))).toNat = _
  rw [Int.floor_toNat]
  exact UInt64.toNat_ofNat_of_lt' (by change _ < 2 ^ 64; omega)

private theorem atLeastZero_eq (number : ℚ) : atLeastZero number = max 0 number := by
  change (if 0 < number then number else 0) = _
  split
  · rw [max_eq_right (le_of_lt ‹_›)]
  · rw [max_eq_left (not_lt.1 ‹_›)]

private theorem smaller_eq (first second : ℕ) :
    smaller (first : ℚ) second = (min first second : ℕ) := by
  change (if (second : ℚ) < first then (second : ℚ) else first) = _
  rw [Nat.cast_min]
  split
  · rw [min_eq_right (le_of_lt ‹_›)]
  · rw [min_eq_left (not_lt.1 ‹_›)]

end Delay

namespace RetryPolicy

open Delay (swing)

variable {policy : RetryPolicy} {jitter : ℚ} {attempt : UInt32}

/-- The delay that the strategy asks for, in whole milliseconds. -/
def nominalMillis (policy : RetryPolicy) (attempt : UInt32) : ℕ :=
  match policy.strategy with
  | .fixed => policy.baseDelay.toMillis
  | .exponential =>
    min (policy.baseDelay.toMillis * 2 ^ min (attempt.toNat - 1) 62) policy.maxDelay.toMillis
  | .linear => min (policy.baseDelay.toMillis * attempt.toNat) policy.maxDelay.toMillis

private theorem nominal_eq (policy : RetryPolicy) (attempt : UInt32) :
    Delay.nominal (α := ℚ) policy.strategy policy.baseDelay.toMillis policy.maxDelay.toMillis
      attempt.toNat = policy.nominalMillis attempt := by
  unfold Delay.nominal nominalMillis
  cases policy.strategy with
  | fixed => rfl
  | exponential =>
    rw [← Delay.smaller_eq, Nat.cast_mul]
    rfl
  | linear =>
    rw [← Delay.smaller_eq, Nat.cast_mul]
    rfl

private theorem nominalMillis_mono (policy : RetryPolicy) {earlier later : UInt32}
    (order : earlier ≤ later) : policy.nominalMillis earlier ≤ policy.nominalMillis later := by
  have numbers : earlier.toNat ≤ later.toNat := UInt32.le_iff_toNat_le.1 order
  unfold nominalMillis
  cases policy.strategy with
  | fixed => exact le_refl _
  | exponential =>
    have exponents : min (earlier.toNat - 1) 62 ≤ min (later.toNat - 1) 62 := by omega
    have powers := Nat.pow_le_pow_right (n := 2) (by decide) exponents
    exact min_le_min_right _ (Nat.mul_le_mul_left _ powers)
  | linear => exact min_le_min_right _ (Nat.mul_le_mul_left _ numbers)

/-- Nominal delays are at most the limit, but for fixed ones that begin above it. -/
theorem nominalMillis_le
    (limited : policy.strategy = .fixed → policy.baseDelay.toMillis ≤ policy.maxDelay.toMillis)
    (attempt : UInt32) : policy.nominalMillis attempt ≤ policy.maxDelay.toMillis := by
  unfold nominalMillis
  cases kind : policy.strategy with
  | fixed => exact limited kind
  | exponential => exact min_le_right _ _
  | linear => exact min_le_right _ _

private theorem nominalMillis_le_max (policy : RetryPolicy) (attempt : UInt32) :
    policy.nominalMillis attempt ≤ max policy.baseDelay.toMillis policy.maxDelay.toMillis := by
  unfold nominalMillis
  cases policy.strategy with
  | fixed => exact le_max_left _ _
  | exponential => exact (min_le_right _ _).trans (le_max_right _ _)
  | linear => exact (min_le_right _ _).trans (le_max_right _ _)

/-- The nominal delay after it has been shifted. -/
def shiftedMillis (policy : RetryPolicy) (jitter : ℚ) (attempt : UInt32) : ℚ :=
  policy.nominalMillis attempt * (1 + jitter * swing attempt.toNat)

private theorem le_shiftedMillis (nonneg : 0 ≤ jitter) :
    policy.nominalMillis attempt * (1 - jitter) ≤ policy.shiftedMillis jitter attempt := by
  have share : jitter * -1 ≤ jitter * swing attempt.toNat :=
    mul_le_mul_of_nonneg_left (Delay.neg_one_le_swing _) nonneg
  exact mul_le_mul_of_nonneg_left (by linarith) (Nat.cast_nonneg _)

private theorem shiftedMillis_le (nonneg : 0 ≤ jitter) :
    policy.shiftedMillis jitter attempt ≤
      policy.nominalMillis attempt * (1 + 49 / 50 * jitter) := by
  have share : jitter * swing attempt.toNat ≤ jitter * (49 / 50) :=
    mul_le_mul_of_nonneg_left (Delay.swing_le _) nonneg
  exact mul_le_mul_of_nonneg_left (by linarith) (Nat.cast_nonneg _)

private theorem shiftedMillis_nonneg (nonneg : 0 ≤ jitter) (atMostOne : jitter ≤ 1) :
    0 ≤ policy.shiftedMillis jitter attempt :=
  (mul_nonneg (Nat.cast_nonneg _) (by linarith)).trans (le_shiftedMillis nonneg)

/-- The delay is the whole part of the shifted one, as far as it fits into 64 bits. -/
theorem inMillis_delayIn (nonneg : 0 ≤ jitter) (atMostOne : jitter ≤ 1) (counted : attempt ≠ 0) :
    (policy.delayIn jitter attempt).inMillis =
      (min ⌊policy.shiftedMillis jitter attempt⌋₊ (2 ^ 64 - 1) : ℕ) := by
  have number : attempt.toNat ≠ 0 := fun none => counted (UInt32.toNat_inj.1 none)
  have range : 0 ≤ (policy.nominalMillis attempt : ℚ) * jitter := by positivity
  have shifted : (policy.nominalMillis attempt : ℚ) +
      policy.nominalMillis attempt * jitter * swing attempt.toNat =
        policy.shiftedMillis jitter attempt := by
    unfold shiftedMillis
    ring
  unfold delayIn
  rw [Duration.inMillis_ofMillis, Delay.millis, if_neg number, Delay.toNat_truncate, nominal_eq,
    Delay.shift_eq range, Delay.atLeastZero_eq, shifted,
    max_eq_right (shiftedMillis_nonneg nonneg atMostOne)]

/-- There is no delay before the first attempt. -/
theorem delayIn_zero (policy : RetryPolicy) (jitter : ℚ) : policy.delayIn jitter 0 = .zero := by
  unfold delayIn Delay.millis
  rw [if_pos UInt32.toNat_zero]
  rfl

/-- Delays below `2^63` milliseconds stay within 64 bits when they are shifted. -/
theorem inMillis_delayIn_of_small (nonneg : 0 ≤ jitter) (atMostOne : jitter ≤ 1)
    (base : policy.baseDelay.toMillis < 2 ^ 63) (limit : policy.maxDelay.toMillis < 2 ^ 63)
    (counted : attempt ≠ 0) :
    (policy.delayIn jitter attempt).inMillis = ⌊policy.shiftedMillis jitter attempt⌋₊ := by
  have small : policy.nominalMillis attempt ≤ 2 ^ 63 - 1 := by
    have bound := policy.nominalMillis_le_max attempt
    omega
  have fits : policy.shiftedMillis jitter attempt ≤ (2 ^ 64 - 1 : ℕ) := by
    calc policy.shiftedMillis jitter attempt
        ≤ policy.nominalMillis attempt * (1 + 49 / 50 * jitter) := shiftedMillis_le nonneg
      _ ≤ (2 ^ 63 - 1 : ℕ) * 2 := by
          gcongr
          linarith
      _ ≤ (2 ^ 64 - 1 : ℕ) := by norm_num
  rw [inMillis_delayIn nonneg atMostOne counted, min_eq_left (Nat.floor_le_of_le fits)]

/-- The delay of a run is that of one rule, taken in doubles and with the jitter of the policy.
Computed exactly, this rule follows the strategy: the nominal delays never decrease from attempt to
attempt, and each delay is the nominal one up to the jitter, in whole milliseconds. -/
theorem delays_follow_strategy (policy : RetryPolicy) (jitter : ℚ) (nonneg : 0 ≤ jitter)
    (atMostOne : jitter ≤ 1) (base : policy.baseDelay.toMillis < 2 ^ 63)
    (limit : policy.maxDelay.toMillis < 2 ^ 63) :
    (∀ attempt, policy.delayAfter attempt = policy.delayIn policy.jitter attempt) ∧
    policy.delayIn jitter 0 = .zero ∧
    (∀ earlier later : UInt32, 1 ≤ earlier → earlier ≤ later →
      policy.nominalMillis earlier ≤ policy.nominalMillis later) ∧
    ∀ attempt : UInt32, 1 ≤ attempt →
      (⌊policy.nominalMillis attempt * (1 - jitter)⌋₊ : ℚ) ≤
        (policy.delayIn jitter attempt).inMillis ∧
      (policy.delayIn jitter attempt).inMillis ≤ policy.nominalMillis attempt * (1 + jitter) ∧
      (jitter = 0 →
        (policy.delayIn jitter attempt).inMillis = policy.nominalMillis attempt) := by
  refine ⟨fun _ => rfl, policy.delayIn_zero jitter, fun _ _ _ => policy.nominalMillis_mono, ?_⟩
  intro attempt counted
  have positive : attempt ≠ 0 := by
    rintro rfl
    contradiction
  rw [inMillis_delayIn_of_small nonneg atMostOne base limit positive]
  refine ⟨?low, ?high, ?exact⟩
  case low => exact Nat.cast_le.2 (Nat.floor_le_floor (le_shiftedMillis nonneg))
  case high =>
    calc (⌊policy.shiftedMillis jitter attempt⌋₊ : ℚ)
        ≤ policy.shiftedMillis jitter attempt :=
          Nat.floor_le (shiftedMillis_nonneg nonneg atMostOne)
      _ ≤ policy.nominalMillis attempt * (1 + 49 / 50 * jitter) := shiftedMillis_le nonneg
      _ ≤ policy.nominalMillis attempt * (1 + jitter) := by
          gcongr
          linarith
  case exact =>
    rintro rfl
    have unshifted : policy.shiftedMillis 0 attempt = policy.nominalMillis attempt := by
      simp [shiftedMillis]
    rw [unshifted, Nat.floor_natCast]

/-- Doubled from 100 milliseconds up to a second. -/
def doubling : RetryPolicy := exponential 8 (.ofMillis 100) (.ofMillis 1000)

/-- With a jitter of a tenth, the last delay is 28 milliseconds below the limit. -/
theorem delays_follow_strategy_doubling :
    (0 : ℚ) ≤ 1 / 10 ∧ (1 / 10 : ℚ) ≤ 1 ∧ doubling.baseDelay.toMillis < 2 ^ 63 ∧
      doubling.maxDelay.toMillis < 2 ^ 63 ∧ (1 : UInt32) ≤ 8 ∧
      doubling.nominalMillis 7 = 1000 ∧ doubling.nominalMillis 8 = 1000 ∧
      doubling.delayAfter 8 = doubling.delayIn doubling.jitter 8 ∧
      doubling.delayIn (1 / 10 : ℚ) 8 = .ofMillis 972 ∧
      (⌊(doubling.nominalMillis 8 : ℚ) * (1 - 1 / 10)⌋₊ : ℚ) ≤
        (doubling.delayIn (1 / 10 : ℚ) 8).inMillis ∧
      (doubling.delayIn (1 / 10 : ℚ) 8).inMillis ≤ doubling.nominalMillis 8 * (1 + 1 / 10) := by
  have nonneg : (0 : ℚ) ≤ 1 / 10 := by norm_num
  have atMostOne : (1 / 10 : ℚ) ≤ 1 := by norm_num
  have base : doubling.baseDelay.toMillis < 2 ^ 63 := by decide
  have limit : doubling.maxDelay.toMillis < 2 ^ 63 := by decide
  have counted : (1 : UInt32) ≤ 8 := by decide
  obtain ⟨runs, -, -, bounds⟩ :=
    delays_follow_strategy doubling (1 / 10) nonneg atMostOne base limit
  obtain ⟨low, high, -⟩ := bounds 8 counted
  exact ⟨nonneg, atMostOne, base, limit, counted, by decide +kernel, by decide +kernel, runs 8,
    by decide +kernel, low, high⟩

/-! ## The limit of a policy -/

/-- A delay is above the limit just in case that the shifted delay is so by a whole millisecond. -/
theorem inMillis_delayIn_le_iff (nonneg : 0 ≤ jitter) (atMostOne : jitter ≤ 1) :
    (policy.delayIn jitter attempt).inMillis ≤ policy.maxDelay.inMillis ↔
      attempt = 0 ∨ policy.shiftedMillis jitter attempt < policy.maxDelay.toMillis + 1 ∨
        2 ^ 64 - 1 ≤ policy.maxDelay.toMillis := by
  rcases eq_or_ne attempt 0 with rfl | counted
  · have least : (0 : ℚ) ≤ policy.maxDelay.inMillis := by
      exact_mod_cast Duration.natCast_le_inMillis_iff.2 (Nat.zero_le _)
    simp [delayIn_zero, least]
  · have whole : ⌊policy.shiftedMillis jitter attempt⌋₊ ≤ policy.maxDelay.toMillis ↔
        policy.shiftedMillis jitter attempt < policy.maxDelay.toMillis + 1 := by
      rw [← Nat.lt_succ_iff, Nat.floor_lt (shiftedMillis_nonneg nonneg atMostOne)]
      push_cast
      rfl
    rw [inMillis_delayIn nonneg atMostOne counted, Duration.natCast_le_inMillis_iff, min_le_iff,
      whole, or_iff_right counted]

private theorem inMillis_delayIn_le_shiftedMillis (nonneg : 0 ≤ jitter) (atMostOne : jitter ≤ 1) :
    (policy.delayIn jitter attempt).inMillis ≤ policy.shiftedMillis jitter attempt := by
  have positive : 0 ≤ policy.shiftedMillis jitter attempt :=
    shiftedMillis_nonneg nonneg atMostOne
  rcases eq_or_ne attempt 0 with rfl | counted
  · rwa [delayIn_zero, Duration.inMillis_zero]
  · rw [inMillis_delayIn nonneg atMostOne counted]
    exact (Nat.cast_le.2 (min_le_left _ _)).trans (Nat.floor_le positive)

/-- A delay that is not shifted upwards is at most the nominal one. -/
theorem shiftedMillis_le_nominalMillis (nonneg : 0 ≤ jitter)
    (lowered : jitter = 0 ∨ 17 * attempt.toNat % 100 ≤ 50) :
    policy.shiftedMillis jitter attempt ≤ policy.nominalMillis attempt := by
  have share : jitter * swing attempt.toNat ≤ 0 := by
    rcases lowered with rfl | below
    · rw [zero_mul]
    · exact mul_nonpos_of_nonneg_of_nonpos nonneg ((Delay.swing_nonpos_iff _).2 below)
  exact mul_le_of_le_one_right (Nat.cast_nonneg _) (by linarith)

/-- Computed exactly, the delay of a run is above the limit of its policy just in case that the
shifted delay is so by a whole millisecond. For growing delays, and for fixed ones up to the limit,
this is by less than the jitter, and only where the delay is shifted upwards. -/
theorem within_maxDelay_iff (policy : RetryPolicy) (jitter : ℚ) (nonneg : 0 ≤ jitter)
    (atMostOne : jitter ≤ 1) (attempt : UInt32) :
    policy.delayAfter attempt = policy.delayIn policy.jitter attempt ∧
    ((policy.delayIn jitter attempt).inMillis ≤ policy.maxDelay.inMillis ↔
      attempt = 0 ∨ policy.shiftedMillis jitter attempt < policy.maxDelay.toMillis + 1 ∨
        2 ^ 64 - 1 ≤ policy.maxDelay.toMillis) ∧
    ((policy.strategy = .fixed → policy.baseDelay.toMillis ≤ policy.maxDelay.toMillis) →
      (policy.delayIn jitter attempt).inMillis ≤
        policy.maxDelay.toMillis * (1 + 49 / 50 * jitter) ∧
      (jitter = 0 ∨ 17 * attempt.toNat % 100 ≤ 50 →
        (policy.delayIn jitter attempt).inMillis ≤ policy.maxDelay.inMillis)) := by
  refine ⟨rfl, inMillis_delayIn_le_iff nonneg atMostOne, fun limited => ?_⟩
  have nominal : (policy.nominalMillis attempt : ℚ) ≤ policy.maxDelay.toMillis :=
    Nat.cast_le.2 (nominalMillis_le limited attempt)
  constructor
  · calc (policy.delayIn jitter attempt).inMillis
        ≤ policy.shiftedMillis jitter attempt :=
          inMillis_delayIn_le_shiftedMillis nonneg atMostOne
      _ ≤ policy.nominalMillis attempt * (1 + 49 / 50 * jitter) := shiftedMillis_le nonneg
      _ ≤ policy.maxDelay.toMillis * (1 + 49 / 50 * jitter) := by gcongr
  · intro lowered
    have shifted : policy.shiftedMillis jitter attempt ≤ policy.nominalMillis attempt :=
      shiftedMillis_le_nominalMillis nonneg lowered
    exact (inMillis_delayIn_le_iff nonneg atMostOne).2 (.inr (.inl (by linarith)))

/-- The fifth delay is shifted upwards beyond the limit, the eighth one is not. -/
theorem within_maxDelay_iff_doubling :
    (0 : ℚ) ≤ 1 / 10 ∧ (1 / 10 : ℚ) ≤ 1 ∧ doubling.strategy ≠ .fixed ∧
      doubling.delayAfter 5 = doubling.delayIn doubling.jitter 5 ∧
      doubling.delayIn (1 / 10 : ℚ) 5 = .ofMillis 1070 ∧
      ¬ (doubling.delayIn (1 / 10 : ℚ) 5).inMillis ≤ doubling.maxDelay.inMillis ∧
      (doubling.delayIn (1 / 10 : ℚ) 5).inMillis ≤
        doubling.maxDelay.toMillis * (1 + 49 / 50 * (1 / 10)) ∧
      17 * (8 : UInt32).toNat % 100 ≤ 50 ∧
      (doubling.delayIn (1 / 10 : ℚ) 8).inMillis ≤ doubling.maxDelay.inMillis := by
  have nonneg : (0 : ℚ) ≤ 1 / 10 := by norm_num
  have atMostOne : (1 / 10 : ℚ) ≤ 1 := by norm_num
  have growing : doubling.strategy ≠ .fixed := by decide
  have lowered : 17 * (8 : UInt32).toNat % 100 ≤ 50 := by decide
  obtain ⟨runs, within, bounds⟩ := within_maxDelay_iff doubling (1 / 10) nonneg atMostOne 5
  obtain ⟨-, -, eighth⟩ := within_maxDelay_iff doubling (1 / 10) nonneg atMostOne 8
  refine ⟨nonneg, atMostOne, growing, runs, by decide +kernel, ?_,
    (bounds fun fixed => absurd fixed growing).1, lowered,
    (eighth fun fixed => absurd fixed growing).2 (.inr lowered)⟩
  rw [within]
  decide +kernel

end RetryPolicy

end BatchRun
