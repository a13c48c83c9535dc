import Kstrl.Base.Binary64
import Kstrl.Serve.Cycle

/-!
# The backoff between attempts

`backoff_seconds` (`kstrl/serve/serve_process.py`) in the numbers of its own format, for any base and any cap that
are no negative numbers.  The power is made an integer first, then a float, and only the product is capped.

* **`backed_iff`**: a count has a delay that is at most the cap and at least the delay of every smaller count
  exactly when it is at most 1024.
* `backoff_overflows` is the next count, at the values of the source.
* `backoffSeconds_cycle`: the delays that the cycle waits are these.
-/

namespace Kstrl

namespace Serve

namespace Backoff

open Binary64 Amount

/-- `backoff_seconds`, for a base and a cap; none for an `OverflowError`. -/
def backoffSeconds (base cap : Amount) (attempts : ℤ) : Option Amount :=
  if attempts ≤ 0 then some 0
  else do
    let factor ← toFloat? (2 ^ (attempts - 1).toNat)
    let grown ← base.mul factor
    return least grown cap

/-- A delay is returned, it is at most the cap, and no smaller count has a longer one. -/
def Backed (base cap : Amount) (attempts : ℤ) : Prop :=
  ∃ delay, backoffSeconds base cap attempts = some delay ∧ delay ≤ cap ∧
    ∀ fewer ≤ attempts, ∃ shorter, backoffSeconds base cap fewer = some shorter ∧ shorter ≤ delay

variable {base cap : Amount} {attempts : ℤ}

lemma backoffSeconds_first (h : attempts ≤ 0) : backoffSeconds base cap attempts = some 0 := if_pos h

/-- While the power is a float, the delay is the base raised as often, or the cap. -/
lemma backoffSeconds_within (hpos : 0 < attempts) (h : attempts ≤ 1024) :
    backoffSeconds base cap attempts = some (least (raised base (attempts - 1).toNat) cap) := by
  have hplace : (attempts - 1).toNat < 1024 := by omega
  rw [backoffSeconds, if_neg (by omega), toFloat?_twoPow, dif_pos hplace]
  simp only [Option.bind_eq_bind, Option.bind_some, mul_twoPow]
  rfl

lemma backoffSeconds_beyond (h : 1024 < attempts) : backoffSeconds base cap attempts = none := by
  have hplace : ¬ (attempts - 1).toNat < 1024 := by omega
  rw [backoffSeconds, if_neg (by omega), toFloat?_twoPow, dif_neg hplace]
  rfl

/-- Of two counts within the range, the smaller waits no longer. -/
lemma backoffSeconds_mono {fewer : ℤ} {shorter delay : Amount} (hle : fewer ≤ attempts) (hrange : attempts ≤ 1024)
    (hshorter : backoffSeconds base cap fewer = some shorter)
    (hdelay : backoffSeconds base cap attempts = some delay) : shorter ≤ delay := by
  by_cases hfirst : fewer ≤ 0
  · rw [backoffSeconds_first hfirst, Option.some_inj] at hshorter
    exact hshorter ▸ zero_le_amount delay
  · rw [backoffSeconds_within (by omega) (by omega), Option.some_inj] at hshorter
    rw [backoffSeconds_within (by omega) hrange, Option.some_inj] at hdelay
    rw [← hshorter, ← hdelay, le_iff, units_least, units_least]
    exact min_le_min_right _ (units_raised_mono base (by omega))

/-- Every count up to 1024 has its delay, and no other does, for every base and every cap. -/
theorem backed_iff (base cap : Amount) (attempts : ℤ) : Backed base cap attempts ↔ attempts ≤ 1024 := by
  constructor
  · rintro ⟨delay, hdelay, -⟩
    by_contra h
    rw [backoffSeconds_beyond (not_le.mp h)] at hdelay
    cases hdelay
  · intro h
    have hreturns : ∀ n ≤ attempts, ∃ delay, backoffSeconds base cap n = some delay ∧ delay ≤ cap := by
      intro n hn
      by_cases hfirst : n ≤ 0
      · exact ⟨0, backoffSeconds_first hfirst, zero_le_amount cap⟩
      · refine ⟨_, backoffSeconds_within (by omega) (by omega), ?_⟩
        rw [le_iff, units_least]
        exact min_le_right _ _
    obtain ⟨delay, hdelay, hcap⟩ := hreturns attempts le_rfl
    refine ⟨delay, hdelay, hcap, ?_⟩
    intro fewer hfewer
    obtain ⟨shorter, hshorter, -⟩ := hreturns fewer hfewer
    exact ⟨shorter, hshorter, backoffSeconds_mono hfewer h hshorter hdelay⟩

/-! ## The values of the source -/

/-- A whole number of seconds. -/
def seconds (n : ℕ) : Amount := ofSum (n * 2 ^ unitPlace)

/-- `BACKOFF_BASE_SECONDS`. -/
def backoffBaseSeconds : Amount := seconds 60

/-- `BACKOFF_CAP_SECONDS`. -/
def backoffCapSeconds : Amount := seconds 1800

/-- An item that has failed 1025 times has no delay. -/
theorem backoff_overflows :
    backoffSeconds backoffBaseSeconds backoffCapSeconds 1025 = none ∧
      ¬ Backed backoffBaseSeconds backoffCapSeconds 1025 := by
  have hnone : backoffSeconds backoffBaseSeconds backoffCapSeconds 1025 = none := backoffSeconds_beyond (by norm_num)
  refine ⟨hnone, ?_⟩
  rintro ⟨delay, hdelay, -⟩
  rw [hnone] at hdelay
  cases hdelay

/-! ## The delays the cycle waits -/

lemma seconds_exact {n : ℕ} (h : n ≤ 2 ^ 53) : round (n * 2 ^ unitPlace) = n * 2 ^ unitPlace :=
  round_of_dvd (ulp_dvd _ h)

lemma seconds_bound {n : ℕ} (h : n ≤ 2 ^ 53) : n * 2 ^ unitPlace < limit := by
  refine lt_of_le_of_lt (Nat.mul_le_mul_right _ h) ?_
  rw [twoPow_bound]
  norm_num

/-- A whole number of seconds, raised: the number of units, or infinity. -/
lemma units_raised_seconds {n : ℕ} (h : n ≤ 2 ^ 53) (k : ℕ) :
    (raised (seconds n) k).units = if n * 2 ^ unitPlace * 2 ^ k < limit then
      ((n * 2 ^ unitPlace * 2 ^ k : ℕ) : ℕ∞) else ⊤ := by
  rw [seconds, ofSum_units (seconds_exact h) (seconds_bound h), raised,
    units_ofSum (round_mul_twoPow (seconds_exact h) k)]

/-- What is waited after `k + 1` attempts is the base, doubled `k` times, or the cap. -/
lemma units_delay (k : ℕ) :
    (least (raised backoffBaseSeconds k) backoffCapSeconds).units =
      ((min (60 * 2 ^ k) 1800 * 2 ^ unitPlace : ℕ) : ℕ∞) := by
  have hcap : backoffCapSeconds.units = ((1800 * 2 ^ unitPlace : ℕ) : ℕ∞) := by
    have hzero := units_raised_seconds (n := 1800) (by norm_num) 0
    rw [raised_zero, pow_zero, mul_one, if_pos (seconds_bound (by norm_num))] at hzero
    exact hzero
  rw [units_least, hcap, backoffBaseSeconds, units_raised_seconds (by norm_num)]
  have hsplit : 60 * 2 ^ unitPlace * 2 ^ k = 60 * 2 ^ k * 2 ^ unitPlace := Nat.mul_right_comm _ _ _
  split_ifs with hfits
  · rw [hsplit, ← Nat.mul_min_mul_right]
    exact ((Nat.mono_cast (α := ℕ∞)).map_min).symm
  · have hlarge : 1800 ≤ 60 * 2 ^ k := by
      by_contra hsmall
      have hle : 60 * 2 ^ k ≤ 2 ^ 53 := (not_le.mp hsmall).le.trans (by norm_num)
      exact hfits (hsplit ▸ seconds_bound hle)
    rw [min_eq_right hlarge, min_eq_right le_top]

/-- The delays of the cycle, which are in microseconds, are these. -/
theorem backoffSeconds_cycle (attempts : ℤ) :
    (backoffSeconds backoffBaseSeconds backoffCapSeconds attempts).map units =
      (Serve.backoffSeconds attempts).map fun delay => ((delay / 1000000 * 2 ^ unitPlace : ℕ) : ℕ∞) := by
  have hmicro : ∀ k : ℕ, min (backoffBase * 2 ^ k) backoffCap / 1000000 = min (60 * 2 ^ k) 1800 := by
    intro k
    have hmin : min (backoffBase * 2 ^ k) backoffCap = min (60 * 2 ^ k) 1800 * 1000000 := by
      simp only [backoffBase, backoffCap]
      omega
    rw [hmin, Nat.mul_div_cancel _ (by norm_num)]
  rw [Serve.backoffSeconds]
  split_ifs with hfirst hlarge
  · rw [backoffSeconds_first hfirst, Option.map_some, Option.map_some, Nat.zero_div, Nat.zero_mul]
    rfl
  · rw [backoffSeconds_beyond hlarge]
    rfl
  · rw [backoffSeconds_within (not_le.mp hfirst) (not_lt.mp hlarge), Option.map_some, Option.map_some, hmicro,
      units_delay]

end Backoff

end Serve

end Kstrl
