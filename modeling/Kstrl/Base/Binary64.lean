import Mathlib.Algebra.Order.Field.Basic
import Mathlib.Algebra.Order.Ring.Rat
import Mathlib.Tactic.Linarith
import Mathlib.Tactic.Ring
import Mathlib.Data.ENat.Basic
import Mathlib.Data.ENat.Lattice

/-!
# Sums and products of floating point numbers

The finite numbers of the 64 bit format that are not negative, as multiples of `2 ^ -1074`: every one of them is a
natural number of these units, and the exact sum of two is one too.  The exact product of two is a number of
`2 ^ -1074` parts of a unit.

* **`round`** is the nearest number, a half to the even one; `round_close` is how far it goes, and `round_round`
  that it stays there.
* **`Amount`** is a number of the format or infinity, with its addition.
* **`Near`** bounds a sum by the depth of its additions, in whatever way it is grouped.
* **`mul_twoPow`**: a product with a power of two is exact, as long as it is not too large.
-/

namespace Binary64

/-- The unit in the last place of 53 bits. -/
def ulp (n : ℕ) : ℕ := 2 ^ (n.log2 - 52)

/-- The nearest number of 53 bits, a half to the even one. -/
def round (n : ℕ) : ℕ :=
  let q := n / ulp n
  let r := n % ulp n
  if 2 * r < ulp n ∨ 2 * r = ulp n ∧ q % 2 = 0 then q * ulp n else (q + 1) * ulp n

/-- The place of the unit below one. -/
@[irreducible] def unitPlace : ℕ := 1074

/-- The place of `2 ** 1024` above the unit. -/
@[irreducible] def top : ℕ := 1024 + 1074

lemma top_eq : top = 1024 + unitPlace := by simp [top, unitPlace]

/-- `2 ** 1024`. -/
def limit : ℕ := 2 ^ top

lemma limit_pos : 0 < limit := Nat.two_pow_pos _

lemma ulp_pos (n : ℕ) : 0 < ulp n := Nat.two_pow_pos _

/-- A number below `2 ^ 53` units is one of the format. -/
lemma ulp_of_small {n : ℕ} (h : n < 2 ^ 53) : ulp n = 1 := by
  have hlog : n.log2 ≤ 52 := by
    by_cases hzero : n = 0
    · simp [hzero]
    · exact Nat.le_of_lt_succ ((Nat.log2_lt hzero).mpr h)
  rw [ulp, Nat.sub_eq_zero_of_le hlog, pow_zero]

/-- Whatever has an unit larger than one has 53 bits of it. -/
lemma ulp_cases (n : ℕ) : ulp n = 1 ∨ 2 ^ 52 * ulp n ≤ n ∧ n < 2 ^ 53 * ulp n := by
  by_cases hlog : n.log2 ≤ 52
  · left
    rw [ulp, Nat.sub_eq_zero_of_le hlog, pow_zero]
  · right
    have hzero : n ≠ 0 := by
      rintro rfl
      simp at hlog
    obtain ⟨k, hk⟩ : ∃ k, n.log2 = 52 + k := ⟨n.log2 - 52, by omega⟩
    rw [ulp, hk, Nat.add_sub_cancel_left, ← pow_add, ← pow_add]
    refine ⟨hk ▸ Nat.log2_self_le hzero, ?_⟩
    have hlt := Nat.lt_log2_self (n := n)
    rw [hk] at hlt
    exact lt_of_lt_of_eq hlt (by ring)

lemma round_zero : round 0 = 0 := by decide

/-- A multiple of its unit. -/
lemma round_of_dvd {n : ℕ} (h : ulp n ∣ n) : round n = n := by
  have hmod : n % ulp n = 0 := Nat.mod_eq_zero_of_dvd h
  rw [round]
  simp only [hmod, Nat.mul_zero, ulp_pos, true_or, if_true]
  exact Nat.div_mul_cancel h

/-- Two candidates, the nearer of which is taken. -/
lemma round_cases (n : ℕ) :
    (round n = n / ulp n * ulp n ∧ 2 * (n % ulp n) ≤ ulp n) ∨
      (round n = (n / ulp n + 1) * ulp n ∧ ulp n ≤ 2 * (n % ulp n)) := by
  rw [round]
  split_ifs with h
  · left
    exact ⟨rfl, by omega⟩
  · right
    exact ⟨rfl, by omega⟩

lemma round_of_ulp_one {n : ℕ} (h : ulp n = 1) : round n = n := round_of_dvd (h ▸ one_dvd n)

/-- **How far a number is moved**: `2 ^ -53` of it at most. -/
theorem round_close (n : ℕ) : 2 ^ 53 * (round n - n) ≤ n ∧ 2 ^ 53 * (n - round n) ≤ n := by
  have hsplit := Nat.div_add_mod' n (ulp n)
  rcases ulp_cases n with hone | ⟨hlo, -⟩
  · rw [round_of_ulp_one hone]
    omega
  · rcases round_cases n with ⟨hround, hr⟩ | ⟨hround, hr⟩
    · rw [hround]
      omega
    · rw [hround, Nat.add_mul]
      have hmod := Nat.mod_lt n (ulp_pos n)
      omega

/-- Fifty-three bits at any place are a number of the format. -/
lemma ulp_dvd {c : ℕ} (k : ℕ) (h : c ≤ 2 ^ 53) : ulp (c * 2 ^ k) ∣ c * 2 ^ k := by
  rcases Nat.lt_or_eq_of_le h with hlt | rfl
  · refine Nat.dvd_trans (Nat.pow_dvd_pow 2 ?_) (Nat.dvd_mul_left _ _)
    by_cases hzero : c * 2 ^ k = 0
    · simp [hzero]
    · have hlog : (c * 2 ^ k).log2 < 53 + k := by
        rw [Nat.log2_lt hzero, pow_add]
        exact Nat.mul_lt_mul_of_pos_right hlt (Nat.two_pow_pos k)
      omega
  · rw [← pow_add, ulp, Nat.log2_two_pow]
    exact Nat.pow_dvd_pow 2 (Nat.sub_le _ _)

/-- **A rounded number stays.** -/
theorem round_round (n : ℕ) : round (round n) = round n := by
  rcases ulp_cases n with hone | ⟨-, hhi⟩
  · rw [round_of_ulp_one hone, round_of_ulp_one hone]
  · have hq : n / ulp n < 2 ^ 53 := Nat.div_lt_of_lt_mul (Nat.mul_comm _ _ ▸ hhi)
    rcases round_cases n with ⟨hround, -⟩ | ⟨hround, -⟩
    · rw [hround]
      exact round_of_dvd (ulp_dvd _ hq.le)
    · rw [hround]
      exact round_of_dvd (ulp_dvd _ hq)

/-- A number of the format has 53 bits at some place. -/
lemma exists_bits {n : ℕ} (h : round n = n) : ∃ c j, c ≤ 2 ^ 53 ∧ n = c * 2 ^ j := by
  have hsmall : n / ulp n < 2 ^ 53 := by
    rcases ulp_cases n with hone | ⟨-, hhi⟩
    · refine Nat.div_lt_of_lt_mul ?_
      rw [hone, one_mul]
      by_contra hle
      have hlog : 53 ≤ n.log2 := (Nat.le_log2 (by omega)).mpr (not_lt.mp hle)
      have hpow : (2 : ℕ) ^ 1 ≤ ulp n := Nat.pow_le_pow_right Nat.two_pos (by omega)
      omega
    · exact Nat.div_lt_of_lt_mul (Nat.mul_comm _ _ ▸ hhi)
  rcases round_cases n with ⟨hround, -⟩ | ⟨hround, -⟩
  · exact ⟨n / ulp n, n.log2 - 52, hsmall.le, h.symm.trans hround⟩
  · exact ⟨n / ulp n + 1, n.log2 - 52, hsmall, h.symm.trans hround⟩

/-- A number of the format is one at every higher place. -/
lemma ulp_dvd_mul_twoPow {n : ℕ} (h : round n = n) (k : ℕ) : ulp (n * 2 ^ k) ∣ n * 2 ^ k := by
  obtain ⟨c, j, hc, rfl⟩ := exists_bits h
  rw [mul_assoc, ← pow_add]
  exact ulp_dvd _ hc

lemma round_mul_twoPow {n : ℕ} (h : round n = n) (k : ℕ) : round (n * 2 ^ k) = n * 2 ^ k :=
  round_of_dvd (ulp_dvd_mul_twoPow h k)

/-! ## Parts of a unit -/

/-- The place to which `n` parts of a unit, of which there are `2 ^ place`, are rounded. -/
def stepPlace (place n : ℕ) : ℕ := max place (n.log2 - 52)

/-- The nearest number of units, a half to the even one. -/
def roundParts (place n : ℕ) : ℕ :=
  let q := n / 2 ^ stepPlace place n
  let r := n % 2 ^ stepPlace place n
  (if 2 * r < 2 ^ stepPlace place n ∨ 2 * r = 2 ^ stepPlace place n ∧ q % 2 = 0 then q else q + 1) *
    2 ^ (stepPlace place n - place)

/-- Whole units are rounded as such. -/
lemma roundParts_zero (n : ℕ) : roundParts 0 n = round n := by
  have hstep : 2 ^ stepPlace 0 n = ulp n := by rw [stepPlace, Nat.zero_max, ulp]
  simp only [roundParts, round, Nat.sub_zero, hstep, ite_mul]

/-- What is rounded is a number of the format. -/
lemma round_roundParts (place n : ℕ) : round (roundParts place n) = roundParts place n := by
  have hq : n / 2 ^ stepPlace place n < 2 ^ 53 := by
    refine Nat.div_lt_of_lt_mul ?_
    rw [← pow_add]
    refine Nat.lt_log2_self.trans_le (Nat.pow_le_pow_right Nat.two_pos ?_)
    have hstep : n.log2 - 52 ≤ stepPlace place n := le_max_right _ _
    omega
  refine round_of_dvd ?_
  simp only [roundParts]
  split_ifs
  · exact ulp_dvd _ hq.le
  · exact ulp_dvd _ hq

/-- Units that are a number of the format are left alone. -/
lemma roundParts_exact {n : ℕ} (h : round n = n) (place : ℕ) : roundParts place (n * 2 ^ place) = n := by
  have hdvd : 2 ^ stepPlace place (n * 2 ^ place) ∣ n * 2 ^ place := by
    rw [stepPlace]
    rcases max_choice place ((n * 2 ^ place).log2 - 52) with hmax | hmax
    · rw [hmax]
      exact Nat.dvd_mul_left _ _
    · rw [hmax]
      exact ulp_dvd_mul_twoPow h place
  have hplace : place ≤ stepPlace place (n * 2 ^ place) := le_max_left _ _
  rw [roundParts]
  simp only [Nat.mod_eq_zero_of_dvd hdvd, Nat.mul_zero, Nat.two_pow_pos, true_or, if_true]
  refine Nat.eq_of_mul_eq_mul_right (Nat.two_pow_pos place) ?_
  rw [mul_assoc, ← pow_add, Nat.sub_add_cancel hplace]
  exact Nat.div_mul_cancel hdvd

/-! ## Numbers of the format -/

/-- A number that is not negative, or infinity. -/
inductive Amount where
  | finite (units : ℕ) (exact : round units = units) (bound : units < limit)
  | infinite
deriving DecidableEq

namespace Amount

/-- The format's number for a sum: too large is infinity. -/
def ofSum (n : ℕ) : Amount :=
  if h : round n < limit then finite (round n) (round_round n) h else infinite

/-- `a + b`. -/
def add : Amount → Amount → Amount
  | finite a _ _, finite b _ _ => ofSum (a + b)
  | _, _ => infinite

instance : Zero Amount := ⟨finite 0 round_zero limit_pos⟩
instance : Add Amount := ⟨add⟩

lemma zero_def : (0 : Amount) = finite 0 round_zero limit_pos := rfl

lemma finite_add_finite {a b : ℕ} {ha hb hka hkb} : finite a ha hka + finite b hb hkb = ofSum (a + b) := rfl

lemma infinite_add (a : Amount) : infinite + a = infinite := rfl

lemma add_infinite (a : Amount) : a + infinite = infinite := by cases a <;> rfl

lemma ofSum_units {n : ℕ} (h : round n = n) (hk : n < limit) : ofSum n = finite n h hk := by
  rw [ofSum, dif_pos (h.symm ▸ hk)]
  simp only [h]

/-- Addition commutes, and nothing is an amount of zero: these two laws of addition hold. -/
instance : AddZeroClass Amount where
  zero_add a := by
    cases a with
    | finite n h hk => rw [zero_def, finite_add_finite, Nat.zero_add, ofSum_units h hk]
    | infinite => exact add_infinite 0
  add_zero a := by
    cases a with
    | finite n h hk => rw [zero_def, finite_add_finite, Nat.add_zero, ofSum_units h hk]
    | infinite => rfl

instance : AddCommMagma Amount where
  add_comm a b := by
    cases a with
    | infinite => rw [infinite_add, add_infinite]
    | finite a =>
        cases b with
        | infinite => rw [infinite_add, add_infinite]
        | finite b => rw [finite_add_finite, finite_add_finite, Nat.add_comm]

/-- The number itself, in units. -/
def units : Amount → ℕ∞
  | finite n _ _ => n
  | infinite => ⊤

/-! ## How far a sum is from the exact one -/

/-- What a rounding leaves of a number at least. -/
def low : ℚ := 1 - 1 / 2 ^ 53

/-- What a rounding makes of a number at most. -/
def high : ℚ := 1 + 1 / 2 ^ 53

lemma low_nonneg : 0 ≤ low := by norm_num [low]

lemma low_le_one : low ≤ 1 := by norm_num [low]

lemma one_le_high : 1 ≤ high := by norm_num [high]

lemma high_nonneg : 0 ≤ high := zero_le_one.trans one_le_high

/-- Within `k` roundings of an exact amount. An infinite sum of finite numbers is one that comes within `k` roundings
of the limit. -/
def Near (a : Amount) (exact : ℕ∞) (k : ℕ) : Prop :=
  match a with
  | finite n _ _ => ∃ e : ℕ, exact = e ∧ low ^ k * e ≤ n ∧ n ≤ high ^ k * e
  | infinite => ∀ e : ℕ, exact = e → limit ≤ high ^ k * e

lemma low_le_round (n : ℕ) : low * n ≤ round n := by
  have hclose := (round_close n).2
  have hcast : (2 ^ 53 : ℚ) * n ≤ n + 2 ^ 53 * round n := by
    have hnat : 2 ^ 53 * n ≤ n + 2 ^ 53 * round n := by omega
    exact_mod_cast hnat
  rw [low]
  linarith

lemma round_le_high (n : ℕ) : round n ≤ high * n := by
  have hclose := (round_close n).1
  have hcast : (2 ^ 53 : ℚ) * round n ≤ n + 2 ^ 53 * n := by
    have hnat : 2 ^ 53 * round n ≤ n + 2 ^ 53 * n := by omega
    exact_mod_cast hnat
  rw [high]
  linarith

/-- A number is itself. -/
lemma near_units (a : Amount) : Near a a.units 0 := by
  cases a with
  | finite n h hk => exact ⟨n, rfl, by simp, by simp⟩
  | infinite =>
      intro e he
      exact absurd he (ENat.natCast_ne_top e).symm

lemma high_pow_le {j k : ℕ} {d e : ℕ} (hk : j ≤ k) (he : d ≤ e) : high ^ j * d ≤ high ^ k * e :=
  mul_le_mul (pow_le_pow_right₀ one_le_high hk) (Nat.cast_le.mpr he) (Nat.cast_nonneg d)
    (pow_nonneg high_nonneg k)

lemma low_pow_le {j k : ℕ} (e : ℕ) (hk : j ≤ k) : low ^ k * e ≤ low ^ j * e :=
  mul_le_mul_of_nonneg_right (pow_le_pow_of_le_one low_nonneg low_le_one hk) (Nat.cast_nonneg e)

/-- More roundings allow more. -/
lemma Near.mono {a : Amount} {exact : ℕ∞} {j k : ℕ} (h : Near a exact j) (hle : j ≤ k) : Near a exact k := by
  cases a with
  | finite n hn hk =>
      obtain ⟨e, he, hlo, hhi⟩ := h
      exact ⟨e, he, (low_pow_le e hle).trans hlo, hhi.trans (high_pow_le hle le_rfl)⟩
  | infinite =>
      intro e he
      exact (h e he).trans (high_pow_le hle le_rfl)

/-- A finite exact sum has finite parts. -/
lemma finite_parts {x y : ℕ∞} {s : ℕ} (h : x + y = s) : ∃ e f : ℕ, x = e ∧ y = f ∧ s = e + f := by
  obtain ⟨e, f, he, hf, hs⟩ := WithTop.add_eq_coe.mp h
  exact ⟨e, f, he.symm, hf.symm, hs.symm⟩

/-- Two finite sums of one depth, added. -/
lemma near_ofSum {m n e f k : ℕ} (helo : low ^ k * e ≤ m) (hehi : m ≤ high ^ k * e) (hflo : low ^ k * f ≤ n)
    (hfhi : n ≤ high ^ k * f) : Near (ofSum (m + n)) (e + f) (k + 1) := by
  have hlow : low ^ (k + 1) * ((e + f : ℕ) : ℚ) ≤ round (m + n) := by
    refine le_trans ?_ (low_le_round (m + n))
    rw [pow_succ', mul_assoc]
    refine mul_le_mul_of_nonneg_left ?_ low_nonneg
    push_cast
    rw [mul_add]
    exact add_le_add helo hflo
  have hhigh : round (m + n) ≤ high ^ (k + 1) * ((e + f : ℕ) : ℚ) := by
    refine (round_le_high (m + n)).trans ?_
    rw [pow_succ', mul_assoc]
    refine mul_le_mul_of_nonneg_left ?_ high_nonneg
    push_cast
    rw [mul_add]
    exact add_le_add hehi hfhi
  rw [ofSum]
  split_ifs with hfits
  · exact ⟨e + f, (Nat.cast_add e f).symm, hlow, hhigh⟩
  · intro s hs
    have hsum : s = e + f := by exact_mod_cast hs.symm
    rw [hsum]
    exact (Nat.cast_le.mpr (Nat.le_of_not_lt hfits)).trans hhigh

/-- Two sums of one depth, added: one rounding more. -/
lemma Near.add_same {a b : Amount} {x y : ℕ∞} {k : ℕ} (ha : Near a x k) (hb : Near b y k) :
    Near (a + b) (x + y) (k + 1) := by
  cases a with
  | infinite =>
      intro s hs
      obtain ⟨e, f, rfl, rfl, rfl⟩ := finite_parts hs
      exact (ha e rfl).trans (high_pow_le (Nat.le_succ k) (Nat.le_add_right e f))
  | finite m hm hmk =>
      cases b with
      | infinite =>
          intro s hs
          obtain ⟨e, f, rfl, rfl, rfl⟩ := finite_parts hs
          exact (hb f rfl).trans (high_pow_le (Nat.le_succ k) (Nat.le_add_left f e))
      | finite n hn hnk =>
          obtain ⟨e, rfl, helo, hehi⟩ := ha
          obtain ⟨f, rfl, hflo, hfhi⟩ := hb
          exact near_ofSum helo hehi hflo hfhi

/-- **The rule for an addition**: one rounding more than the deeper side. -/
theorem Near.add {a b : Amount} {x y : ℕ∞} {j k : ℕ} (ha : Near a x j) (hb : Near b y k) :
    Near (a + b) (x + y) (max j k + 1) :=
  (ha.mono (Nat.le_max_left j k)).add_same (hb.mono (Nat.le_max_right j k))

/-! ## Order -/

instance : LE Amount := ⟨fun a b => a.units ≤ b.units⟩

lemma le_iff {a b : Amount} : a ≤ b ↔ a.units ≤ b.units := Iff.rfl

lemma zero_le_amount (a : Amount) : 0 ≤ a := show (0 : Amount).units ≤ a.units from zero_le

instance decidableLe (a b : Amount) : Decidable (a ≤ b) :=
  match a, b with
  | a, infinite => isTrue (show a.units ≤ ⊤ from le_top)
  | infinite, finite n _ _ => isFalse fun h => ENat.natCast_ne_top n (top_le_iff.mp h)
  | finite m _ _, finite n _ _ => decidable_of_iff (m ≤ n) (by rw [le_iff]; exact Nat.cast_le.symm)

/-- `min(a, b)`. -/
def least (a b : Amount) : Amount := if a ≤ b then a else b

lemma units_least (a b : Amount) : (least a b).units = min a.units b.units := by
  rw [least]
  split_ifs with h
  · exact (min_eq_left h).symm
  · exact (min_eq_right (le_of_not_ge h)).symm

/-! ## Products -/

/-- `float(n)` of an integer; none for an `OverflowError`. -/
def toFloat? (n : ℕ) : Option Amount :=
  if h : round (n * 2 ^ unitPlace) < limit then some (finite _ (round_round _) h) else none

/-- `a * b`; none where it is not a number. -/
def mul : Amount → Amount → Option Amount
  | finite a _ _, finite b _ _ =>
    if h : roundParts unitPlace (a * b) < limit then some (finite _ (round_roundParts _ _) h) else some infinite
  | infinite, finite 0 _ _ | finite 0 _ _, infinite => none
  | _, _ => some infinite

/-- A number raised by `k` places. -/
def raised (a : Amount) (k : ℕ) : Amount :=
  match a with
  | finite n _ _ => ofSum (n * 2 ^ k)
  | infinite => infinite

lemma units_ofSum {n : ℕ} (h : round n = n) : (ofSum n).units = if n < limit then (n : ℕ∞) else ⊤ := by
  rw [ofSum]
  simp only [h]
  split_ifs <;> rfl

lemma twoPow_bound {k : ℕ} : 2 ^ k * 2 ^ unitPlace < limit ↔ k < 1024 := by
  rw [limit, top_eq, ← pow_add, Nat.pow_lt_pow_iff_right Nat.one_lt_two, Nat.add_lt_add_iff_right]

lemma round_twoPow (k : ℕ) : round (2 ^ k) = 2 ^ k := by
  have hone := round_of_dvd (ulp_dvd k (c := 1) (by norm_num))
  rwa [one_mul] at hone

/-- A power of two is a number of the format below `2 ** 1024`, and above there is no number for it. -/
lemma toFloat?_twoPow (k : ℕ) :
    toFloat? (2 ^ k) =
      if h : k < 1024 then
        some (finite (2 ^ k * 2 ^ unitPlace) (round_mul_twoPow (round_twoPow k) _) (twoPow_bound.mpr h))
      else none := by
  rw [toFloat?]
  simp only [round_mul_twoPow (round_twoPow k), twoPow_bound]

/-- **A product with a power of two** is exact. -/
theorem mul_twoPow (a : Amount) (k : ℕ) {hexact hbound} :
    mul a (finite (2 ^ k * 2 ^ unitPlace) hexact hbound) = some (raised a k) := by
  cases a with
  | finite n hn hk =>
      have hparts : roundParts unitPlace (n * (2 ^ k * 2 ^ unitPlace)) = n * 2 ^ k := by
        rw [← mul_assoc]
        exact roundParts_exact (round_mul_twoPow hn k) unitPlace
      rw [mul, raised, ofSum]
      simp only [hparts, round_mul_twoPow hn k]
      split_ifs <;> rfl
  | infinite =>
      have hpos : 2 ^ k * 2 ^ unitPlace ≠ 0 := (Nat.mul_pos (Nat.two_pow_pos k) (Nat.two_pow_pos unitPlace)).ne'
      generalize 2 ^ k * 2 ^ unitPlace = units at *
      cases units with
      | zero => exact absurd rfl hpos
      | succ units => rfl

lemma raised_zero (a : Amount) : raised a 0 = a := by
  cases a with
  | finite n hn hk => rw [raised, pow_zero, mul_one, ofSum_units hn hk]
  | infinite => rfl

/-- More places are more. -/
lemma units_raised_mono (a : Amount) {j k : ℕ} (h : j ≤ k) : (raised a j).units ≤ (raised a k).units := by
  cases a with
  | finite n hn hk =>
      have hle : n * 2 ^ j ≤ n * 2 ^ k := Nat.mul_le_mul_left n (Nat.pow_le_pow_right Nat.two_pos h)
      simp only [raised, units_ofSum (round_mul_twoPow hn _)]
      split_ifs with hj hk
      · exact Nat.cast_le.mpr hle
      · exact le_top
      · omega
      · exact le_rfl
  | infinite => exact le_rfl

end Amount

end Binary64
