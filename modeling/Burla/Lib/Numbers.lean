/-
The numbers a program computes with when it uses floating point for estimates.

Machine floats are modelled by exact rationals.  What has no exact rational value
(the exponential, the square root) is a parameter: the two functions of a maths
library, with the few facts about them that hold of any sensible implementation.
Rounding to an integer is to the nearest one, and to the even one of the two when
there are two.
-/
import Mathlib.Algebra.Order.Field.Basic
import Mathlib.Algebra.Order.Floor.Ring
import Mathlib.Data.Nat.Factorial.Basic
import Mathlib.Data.Nat.Sqrt
import Mathlib.Data.Rat.Floor
import Mathlib.Tactic.Common
import Mathlib.Tactic.Linarith
import Mathlib.Tactic.Positivity

/-- The functions of a maths library, on the rationals. -/
structure MathFns where
  /-- The exponential. -/
  exp : ℚ → ℚ
  /-- The square root. -/
  sqrt : ℚ → ℚ
  exp_nonneg : ∀ x, 0 ≤ exp x
  exp_le_one : ∀ x, x ≤ 0 → exp x ≤ 1
  sqrt_nonneg : ∀ x, 0 ≤ sqrt x

/-- Rounding to the nearest integer, ties to even. -/
def roundHalfEven (x : ℚ) : ℤ :=
  let below := ⌊x⌋
  let rest := x - below
  if rest < 1 / 2 then below
  else if 1 / 2 < rest then below + 1
  else if below % 2 = 0 then below
  else below + 1

/-- Rounding to a number of decimal digits. -/
def roundTo (digits : ℕ) (x : ℚ) : ℚ := roundHalfEven (x * 10 ^ digits) / 10 ^ digits

lemma le_roundHalfEven {n : ℤ} {x : ℚ} (h : (n : ℚ) ≤ x) : n ≤ roundHalfEven x := by
  have hfloor : n ≤ ⌊x⌋ := Int.le_floor.2 h
  unfold roundHalfEven
  dsimp only
  split_ifs <;> omega

lemma roundHalfEven_le_floor_add_one (x : ℚ) : roundHalfEven x ≤ ⌊x⌋ + 1 := by
  rw [roundHalfEven]
  split_ifs <;> omega

lemma roundHalfEven_mono {x y : ℚ} (hxy : x ≤ y) : roundHalfEven x ≤ roundHalfEven y := by
  rcases (Int.floor_le_floor hxy).lt_or_eq with hlt | heq
  · exact (roundHalfEven_le_floor_add_one x).trans
      ((Int.add_one_le_of_lt hlt).trans (le_roundHalfEven (Int.floor_le y)))
  · -- Between the same two integers the rest decides.
    have hrest : x - ⌊x⌋ ≤ y - ⌊x⌋ := sub_le_sub_right hxy _
    rw [roundHalfEven, roundHalfEven, ← heq]
    by_cases hy : y - ⌊x⌋ < 1 / 2
    · rw [if_pos hy, if_pos (hrest.trans_lt hy)]
    · by_cases hx : 1 / 2 < x - ⌊x⌋
      · rw [if_neg hx.not_gt, if_pos hx, if_neg hy, if_pos (hx.trans_le hrest)]
      · rw [if_neg hy]
        split_ifs <;> omega

lemma roundTo_mono (digits : ℕ) : Monotone (roundTo digits) := by
  intro x y hxy
  have hpow : (0 : ℚ) < 10 ^ digits := by positivity
  have hround : roundHalfEven (x * 10 ^ digits) ≤ roundHalfEven (y * 10 ^ digits) :=
    roundHalfEven_mono (mul_le_mul_of_nonneg_right hxy hpow.le)
  rw [roundTo, roundTo]
  gcongr

namespace MathFns

/-- The first `n` terms of the exponential series. -/
def expSeries (x : ℚ) : ℕ → ℚ
  | 0 => 0
  | n + 1 => expSeries x n + x ^ n / n.factorial

lemma expSeries_nonneg {x : ℚ} (hx : 0 ≤ x) (n : ℕ) : 0 ≤ expSeries x n := by
  induction n with
  | zero => exact le_refl _
  | succ n ih => exact add_nonneg ih (by positivity)

lemma one_le_expSeries {x : ℚ} (hx : 0 ≤ x) (n : ℕ) : 1 ≤ expSeries x (n + 1) := by
  induction n with
  | zero => simp [expSeries]
  | succ n ih =>
    have hterm : 0 ≤ x ^ (n + 1) / ((n + 1).factorial : ℚ) := by positivity
    simp only [expSeries] at ih ⊢
    linarith

/-- Both functions to a few digits, by the exponential series and by an integer square
root; good enough to evaluate a run. -/
def series : MathFns where
  exp x := if x ≤ 0 then 1 / expSeries (-x) 12 else expSeries x 12
  sqrt x := Nat.sqrt ⌊x * 10 ^ 12⌋.toNat / 10 ^ 6
  exp_nonneg x := by
    split_ifs with h
    · exact one_div_nonneg.2 (expSeries_nonneg (by linarith) 12)
    · exact expSeries_nonneg (by linarith) 12
  exp_le_one x h := by
    rw [if_pos h]
    have hone := one_le_expSeries (x := -x) (by linarith) 11
    exact (div_le_one (by linarith)).2 hone
  sqrt_nonneg x := by positivity

end MathFns

example : roundHalfEven (5 / 2) = 2 ∧ roundHalfEven (7 / 2) = 4 ∧ roundHalfEven (-3 / 2) = -2 := by
  decide +kernel
example : roundTo 3 (MathFns.series.exp (-1 / 2)) = 607 / 1000 ∧
    roundTo 3 (MathFns.series.sqrt 2) = 1414 / 1000 := by decide +kernel
