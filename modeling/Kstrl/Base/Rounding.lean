import Mathlib.Algebra.Order.Round
import Mathlib.Algebra.Order.Archimedean.Basic
import Mathlib.Data.Rat.Floor
import Mathlib.Tactic.Linarith
import Mathlib.Tactic.Ring

/-!
# Sums that are rounded at every step

A running total that is rounded each time an amount is added to it.  `Rounding` is a way to round
with a bound on how far it moves a number, and `total_close` says that the total is off by at most
that bound for each amount.

`Rounding.decimal` rounds to a number of decimal places, halves to even.
-/

/-- A way to round. -/
structure Rounding where
  round : ℚ → ℚ
  /-- how far a number is moved at most -/
  slack : ℚ
  close : ∀ x, |round x - x| ≤ slack

namespace Rounding

/-- The running total. -/
def total (r : Rounding) (start : ℚ) (amounts : List ℚ) : ℚ :=
  amounts.foldl (fun acc x => r.round (acc + x)) start

lemma total_append (r : Rounding) (start x : ℚ) (amounts : List ℚ) :
    r.total start (amounts ++ [x]) = r.round (r.total start amounts + x) := by
  rw [total, List.foldl_append]
  rfl

/-- **A total is off by at most the slack for each amount.** -/
theorem total_close (r : Rounding) (amounts : List ℚ) (start : ℚ) :
    |r.total start amounts - (start + amounts.sum)| ≤ amounts.length * r.slack := by
  induction amounts generalizing start with
  | nil => simp [total]
  | cons x rest ih =>
      have hrest := ih (r.round (start + x))
      have hstep := r.close (start + x)
      have htotal : r.total start (x :: rest) = r.total (r.round (start + x)) rest := rfl
      rw [htotal, List.sum_cons, List.length_cons]
      have hsplit : r.total (r.round (start + x)) rest - (start + (x + rest.sum))
          = (r.total (r.round (start + x)) rest - (r.round (start + x) + rest.sum))
            + (r.round (start + x) - (start + x)) := by ring
      rw [hsplit]
      calc _ ≤ _ := abs_add_le _ _
        _ ≤ rest.length * r.slack + r.slack := add_le_add hrest hstep
        _ = _ := by push_cast; ring

/-- The nearest integer, a half to the even one. -/
def halfEven (x : ℚ) : ℤ :=
  if x - ⌊x⌋ < 1 / 2 then ⌊x⌋
  else if 1 / 2 < x - ⌊x⌋ then ⌊x⌋ + 1
  else if ⌊x⌋ % 2 = 0 then ⌊x⌋ else ⌊x⌋ + 1

lemma halfEven_close (x : ℚ) : |(halfEven x : ℚ) - x| ≤ 1 / 2 := by
  have hlo := Int.floor_le x
  have hhi := Int.lt_floor_add_one x
  rw [abs_le]
  unfold halfEven
  split_ifs <;> push_cast <;> constructor <;> linarith

/-- `round(x, places)`. -/
def decimal (places : ℕ) : Rounding where
  round x := halfEven (x * 10 ^ places) / 10 ^ places
  slack := 1 / 2 / 10 ^ places
  close x := by
    have hpos : (0 : ℚ) < 10 ^ places := by positivity
    have hx : x = x * 10 ^ places / 10 ^ places := by
      rw [mul_div_assoc, div_self hpos.ne', mul_one]
    have hdiff : (halfEven (x * 10 ^ places) : ℚ) / 10 ^ places - x
        = (halfEven (x * 10 ^ places) - x * 10 ^ places) / 10 ^ places := by
      rw [sub_div, ← hx]
    rw [hdiff, abs_div, abs_of_pos hpos]
    exact div_le_div_of_nonneg_right (halfEven_close _) hpos.le

/-! ## Decimals -/

/-- A number of so many decimal places. -/
def IsDecimal (places : ℕ) (x : ℚ) : Prop := ∃ k : ℤ, x * 10 ^ places = k

lemma IsDecimal.zero (places : ℕ) : IsDecimal places 0 := ⟨0, by simp⟩

lemma IsDecimal.add {places : ℕ} {x y : ℚ} (hx : IsDecimal places x) (hy : IsDecimal places y) :
    IsDecimal places (x + y) := by
  obtain ⟨k, hk⟩ := hx
  obtain ⟨l, hl⟩ := hy
  exact ⟨k + l, by rw [add_mul, hk, hl]; push_cast; ring⟩

lemma halfEven_intCast (k : ℤ) : halfEven (k : ℚ) = k := by
  unfold halfEven
  rw [Int.floor_intCast, sub_self, if_pos (by norm_num)]

/-- A rounded number is a decimal. -/
lemma isDecimal_round (places : ℕ) (x : ℚ) : IsDecimal places ((decimal places).round x) := by
  refine ⟨halfEven (x * 10 ^ places), ?_⟩
  have hpos : (10 : ℚ) ^ places ≠ 0 := by positivity
  exact div_mul_cancel₀ _ hpos

/-- A decimal is not moved. -/
lemma IsDecimal.round_eq {places : ℕ} {x : ℚ} (hx : IsDecimal places x) :
    (decimal places).round x = x := by
  obtain ⟨k, hk⟩ := hx
  have hpos : (10 : ℚ) ^ places ≠ 0 := by positivity
  show (halfEven (x * 10 ^ places) : ℚ) / 10 ^ places = x
  rw [hk, halfEven_intCast, ← hk, mul_div_cancel_right₀ _ hpos]

end Rounding
