/-
The days of the proleptic Gregorian calendar, numbered from the first of January of year one.

A date carries that its month and its day exist.

* `Calendar.Date.ordinal`: the number of a date.
* `Calendar.Date.ofOrdinal`: the date with a number.
* `Calendar.Date.ordinal_ofOrdinal`: it has that number, so that different numbers have different
  dates.
-/
import Mathlib.Algebra.GroupWithZero.Nat
import Mathlib.Data.List.Basic
import Mathlib.Tactic.Common
import Mathlib.Tactic.IntervalCases

namespace Calendar

/-! ### Years and months -/

def IsLeap (year : ℤ) : Prop := year % 4 = 0 ∧ (year % 100 ≠ 0 ∨ year % 400 = 0)

instance (year : ℤ) : Decidable (IsLeap year) := inferInstanceAs (Decidable (_ ∧ _))

def monthLengths (year : ℤ) : List ℕ :=
  [31, if IsLeap year then 29 else 28, 31, 30, 31, 30, 31, 31, 30, 31, 30, 31]

/-- How many days there are before a year. -/
def daysBeforeYear (year : ℤ) : ℤ :=
  (year - 1) * 365 + (year - 1) / 4 - (year - 1) / 100 + (year - 1) / 400

def daysInMonth (year : ℤ) (month : ℕ) : ℕ := (monthLengths year).getD (month - 1) 0

/-- How many days of the year there are before a month. -/
def daysBeforeMonth (year : ℤ) (month : ℕ) : ℕ := ((monthLengths year).take (month - 1)).sum

structure Date where
  year : ℤ
  month : ℕ
  day : ℕ
  month_mem : 1 ≤ month ∧ month ≤ 12
  day_mem : 1 ≤ day ∧ day ≤ daysInMonth year month
  deriving DecidableEq, Repr

/-- The number of a date; the first of January of year one is `1`. -/
def Date.ordinal (d : Date) : ℤ := daysBeforeYear d.year + daysBeforeMonth d.year d.month + d.day

/-- The first day of a month. -/
def Date.firstOf (year : ℤ) (month : ℕ) (h : 1 ≤ month ∧ month ≤ 12) : Date where
  year := year
  month := month
  day := 1
  month_mem := h
  day_mem := by
    obtain ⟨hlo, hhi⟩ := h
    refine ⟨le_refl 1, ?_⟩
    rw [daysInMonth, monthLengths]
    interval_cases month <;> first | decide | (split_ifs <;> decide)

/-! ### Dates of numbers -/

/-- The year of the day after so many others. -/
def yearOf (days : ℤ) : ℤ :=
  let n400 := days / 146097
  let n100 := days % 146097 / 36524
  let n4 := days % 146097 % 36524 / 1461
  let n1 := days % 146097 % 36524 % 1461 / 365
  let year := n400 * 400 + n100 * 100 + n4 * 4 + n1 + 1
  -- the last day of four years, or of four centuries
  if n1 = 4 ∨ n100 = 4 then year - 1 else year

/-- Which part a position is in, when the lengths of the parts are given, and where in it. -/
def locate : List ℕ → ℕ → ℕ × ℕ
  | [], k => (0, k)
  | l :: ls, k => if k < l then (0, k) else ((locate ls (k - l)).1 + 1, (locate ls (k - l)).2)

lemma locate_spec {ls : List ℕ} {k : ℕ} (h : k < ls.sum) :
    (locate ls k).1 < ls.length ∧ (ls.take (locate ls k).1).sum + (locate ls k).2 = k ∧
      (locate ls k).2 < ls.getD (locate ls k).1 0 := by
  induction ls generalizing k with
  | nil => exact absurd h (Nat.not_lt_zero k)
  | cons l ls ih =>
    rw [locate]
    by_cases hl : k < l
    · rw [if_pos hl]
      exact ⟨Nat.zero_lt_succ _, Nat.zero_add k, hl⟩
    · rw [if_neg hl]
      rw [List.sum_cons] at h
      obtain ⟨hlt, hsum, hday⟩ := ih (show k - l < ls.sum by omega)
      refine ⟨Nat.succ_lt_succ hlt, ?_, hday⟩
      rw [List.take_succ_cons, List.sum_cons]
      omega

lemma sum_monthLengths (year : ℤ) :
    ((monthLengths year).sum : ℤ) = 365 + if IsLeap year then 1 else 0 := by
  rw [monthLengths]
  split_ifs <;> rfl

lemma daysBeforeYear_succ (year : ℤ) :
    daysBeforeYear (year + 1) = daysBeforeYear year + (monthLengths year).sum := by
  rw [sum_monthLengths, daysBeforeYear, daysBeforeYear]
  simp only [IsLeap]
  split_ifs with h <;> omega

/-- The days before a year of so many whole cycles of 400, 100, four and one years. -/
lemma daysBeforeYear_cycles {n400 n100 n4 n1 : ℤ} (h100 : 0 ≤ n100 ∧ n100 ≤ 3)
    (h4 : 0 ≤ n4 ∧ n4 ≤ 24) (h1 : 0 ≤ n1 ∧ n1 ≤ 3) :
    daysBeforeYear (n400 * 400 + n100 * 100 + n4 * 4 + n1 + 1) =
      n400 * 146097 + n100 * 36524 + n4 * 1461 + n1 * 365 := by
  rw [daysBeforeYear, Int.add_sub_cancel]
  have hby4 : (n400 * 400 + n100 * 100 + n4 * 4 + n1) / 4 = n400 * 100 + n100 * 25 + n4 := by omega
  have hby100 : (n400 * 400 + n100 * 100 + n4 * 4 + n1) / 100 = n400 * 4 + n100 := by omega
  have hby400 : (n400 * 400 + n100 * 100 + n4 * 4 + n1) / 400 = n400 := by omega
  omega

/-- A day is in its year. -/
lemma yearOf_spec (days : ℤ) : daysBeforeYear (yearOf days) ≤ days ∧
    days < daysBeforeYear (yearOf days + 1) := by
  obtain ⟨n400, h400⟩ : ∃ n400, days / 146097 = n400 := ⟨_, rfl⟩
  obtain ⟨n100, h100⟩ : ∃ n100, days % 146097 / 36524 = n100 := ⟨_, rfl⟩
  obtain ⟨n4, h4⟩ : ∃ n4, days % 146097 % 36524 / 1461 = n4 := ⟨_, rfl⟩
  obtain ⟨n1, h1⟩ : ∃ n1, days % 146097 % 36524 % 1461 / 365 = n1 := ⟨_, rfl⟩
  have hyear : yearOf days = if n1 = 4 ∨ n100 = 4 then
      n400 * 400 + n100 * 100 + n4 * 4 + n1 + 1 - 1
      else n400 * 400 + n100 * 100 + n4 * 4 + n1 + 1 := by
    simp only [yearOf, h400, h100, h4, h1]
  by_cases hlast : n1 = 4 ∨ n100 = 4
  · rw [if_pos hlast, Int.add_sub_cancel] at hyear
    -- the year is the last one of its four, and of its century when that is the last of four
    obtain ⟨b, c, hb, hc, heq, hdays⟩ : ∃ b c : ℤ, (0 ≤ b ∧ b ≤ 3) ∧ (0 ≤ c ∧ c ≤ 24) ∧
        n400 * 400 + n100 * 100 + n4 * 4 + n1 = n400 * 400 + b * 100 + c * 4 + 3 + 1 ∧
          days = n400 * 146097 + b * 36524 + c * 1461 + 1460 := by
      by_cases hcentury : n100 = 4
      · exact ⟨3, 24, by omega, by omega, by omega, by omega⟩
      · exact ⟨n100, n4, by omega, by omega, by omega, by omega⟩
    have hleap : IsLeap (n400 * 400 + b * 100 + c * 4 + 3 + 1) := by
      refine ⟨by omega, ?_⟩
      by_cases hc24 : c = 24
      · exact .inr (by omega)
      · exact .inl (by omega)
    rw [daysBeforeYear_succ, sum_monthLengths, hyear, heq,
      daysBeforeYear_cycles hb hc (by omega), if_pos hleap]
    omega
  · rw [if_neg hlast] at hyear
    rw [daysBeforeYear_succ, sum_monthLengths, hyear,
      daysBeforeYear_cycles (by omega) (by omega) (by omega)]
    split_ifs <;> omega

/-- How many days of its year there are before a day. -/
def dayOfYear (days : ℤ) : ℕ := (days - daysBeforeYear (yearOf days)).toNat

lemma dayOfYear_lt (days : ℤ) : dayOfYear days < (monthLengths (yearOf days)).sum := by
  have hyear := yearOf_spec days
  rw [daysBeforeYear_succ] at hyear
  rw [dayOfYear]
  omega

/-- The date with a number. -/
def Date.ofOrdinal (n : ℤ) : Date :=
  let place := locate (monthLengths (yearOf (n - 1))) (dayOfYear (n - 1))
  { year := yearOf (n - 1)
    month := place.1 + 1
    day := place.2 + 1
    month_mem := by
      have hplace := (locate_spec (dayOfYear_lt (n - 1))).1
      have hlength : (monthLengths (yearOf (n - 1))).length = 12 := rfl
      exact ⟨Nat.le_add_left 1 _, by rw [hlength] at hplace; exact hplace⟩
    day_mem := ⟨Nat.le_add_left 1 _, (locate_spec (dayOfYear_lt (n - 1))).2.2⟩ }

/-- **The date with a number has that number.** -/
theorem Date.ordinal_ofOrdinal (n : ℤ) : (ofOrdinal n).ordinal = n := by
  obtain ⟨-, hsum, -⟩ := locate_spec (dayOfYear_lt (n - 1))
  have hyear := (yearOf_spec (n - 1)).1
  have hday : (dayOfYear (n - 1) : ℤ) = n - 1 - daysBeforeYear (yearOf (n - 1)) :=
    Int.toNat_of_nonneg (by omega)
  show daysBeforeYear (yearOf (n - 1)) +
    (((monthLengths (yearOf (n - 1))).take (_ + 1 - 1)).sum : ℕ) + ((_ + 1 : ℕ) : ℤ) = n
  rw [Nat.add_sub_cancel]
  omega

lemma Date.ofOrdinal_injective {m n : ℤ} (h : ofOrdinal m = ofOrdinal n) : m = n := by
  rw [← ordinal_ofOrdinal m, h, ordinal_ofOrdinal]

end Calendar
