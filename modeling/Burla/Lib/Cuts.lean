/-
Cutting an interval at borders.

The borders are numbered by the integers, each of them before the next one, and every point is
between two of them.

* `Borders.upTo`: the borders from one on that are before the end of the interval, as a loop goes
  through them.
* `Cuts.piece_eq`: what an interval has between two borders is the difference of the borders, moved
  into the interval.
* `Borders.sum_piece_upTo`: the pieces between the borders make up the interval.
-/
import Mathlib.Algebra.BigOperators.Group.List.Basic
import Mathlib.Algebra.Order.Group.Basic
import Mathlib.Algebra.Order.Sub.Basic
import Mathlib.Order.Monotone.Basic
import Mathlib.Tactic.Abel
import Mathlib.Tactic.Common

/-- Borders that go on without end in both directions, with the one that is before a point. -/
structure Borders (K : Type*) [LinearOrder K] where
  border : ℤ → K
  index : K → ℤ
  mono : ∀ {j k : ℤ}, j ≤ k → border j ≤ border k
  index_le : ∀ x, border (index x) ≤ x
  lt_next : ∀ x, x < border (index x + 1)

namespace Cuts

section Pieces

variable {K : Type*} [LinearOrder K] {a b x y : K}

/-- A border, moved into the interval. -/
def clip (a b x : K) : K := max a (min b x)

lemma clip_of_le (hab : a ≤ b) (h : x ≤ a) : clip a b x = a := by
  rw [clip, min_eq_right (h.trans hab), max_eq_left h]

lemma clip_of_ge (hab : a ≤ b) (h : b ≤ x) : clip a b x = b := by
  rw [clip, min_eq_left h, max_eq_right hab]

variable [AddCommGroup K]

/-- How much of the interval from `a` to `b` is between two borders. -/
def piece (a b x y : K) : K := max 0 (min b y - max a x)

variable [IsOrderedAddMonoid K]

lemma piece_eq_zero (h : min b y ≤ max a x) : piece a b x y = 0 :=
  max_eq_left (sub_nonpos.2 h)

lemma piece_eq_sub (h : max a x ≤ min b y) : piece a b x y = min b y - max a x :=
  max_eq_right (sub_nonneg.2 h)

/-- **A piece is the difference of its borders**, moved into the interval. -/
lemma piece_eq (hab : a ≤ b) (hxy : x ≤ y) : piece a b x y = clip a b y - clip a b x := by
  rcases le_total y a with hya | hay
  · -- the borders are before the interval
    rw [clip_of_le hab hya, clip_of_le hab (hxy.trans hya), sub_self]
    exact piece_eq_zero ((min_le_right b y).trans (hya.trans (le_max_left a x)))
  · rcases le_total b x with hbx | hxb
    · -- the borders are after the interval
      rw [clip_of_ge hab hbx, clip_of_ge hab (hbx.trans hxy), sub_self]
      exact piece_eq_zero ((min_le_left b y).trans (hbx.trans (le_max_right a x)))
    · rw [clip, clip, max_eq_right (le_min hab hay), min_eq_right hxb]
      exact piece_eq_sub (max_le (le_min hab hay) (le_min hxb hxy))

end Pieces

end Cuts

namespace Borders

open Cuts

section Order

variable {K : Type*} [LinearOrder K] (B : Borders K) {x : K} {j k : ℤ}

lemma le_index (h : B.border k ≤ x) : k ≤ B.index x := by
  by_contra hlt
  exact absurd (h.trans_lt (B.lt_next x)) (not_lt.2 (B.mono (by omega)))

/-- The borders from one on that are before the end. -/
def upTo (stop : K) (k : ℤ) : List ℤ :=
  if B.border k < stop then k :: upTo stop (k + 1) else []
termination_by (B.index stop + 1 - k).toNat
decreasing_by
  have := B.le_index (le_of_lt ‹_›)
  omega

variable {B}

lemma mem_upTo : j ∈ B.upTo x k ↔ k ≤ j ∧ B.border j < x := by
  fun_induction B.upTo x k with
  | case1 k h ih =>
    rw [List.mem_cons, ih]
    constructor
    · rintro (rfl | ⟨hle, hlt⟩)
      · exact ⟨le_refl j, h⟩
      · exact ⟨by omega, hlt⟩
    · rintro ⟨hle, hlt⟩
      rcases hle.eq_or_lt with rfl | hlt'
      · exact .inl rfl
      · exact .inr ⟨by omega, hlt⟩
  | case2 k h =>
    refine iff_of_false List.not_mem_nil fun hj => h ?_
    exact (B.mono hj.1).trans_lt hj.2

lemma nodup_upTo : (B.upTo x k).Nodup := by
  fun_induction B.upTo x k with
  | case1 k h ih =>
    refine List.nodup_cons.2 ⟨fun hmem => ?_, ih⟩
    have := (mem_upTo.1 hmem).1
    omega
  | case2 k h => exact List.nodup_nil

end Order

variable {K : Type*} [AddCommGroup K] [LinearOrder K] [IsOrderedAddMonoid K] {B : Borders K}
  {a b : K} {k : ℤ}

/-- The pieces from a border on are the rest of the interval. -/
lemma sum_piece_upTo_clip (hab : a ≤ b) :
    ((B.upTo b k).map fun j => piece a b (B.border j) (B.border (j + 1))).sum =
      b - clip a b (B.border k) := by
  fun_induction B.upTo b k with
  | case1 k h ih =>
    rw [List.map_cons, List.sum_cons, ih, piece_eq hab (B.mono (by omega))]
    abel
  | case2 k h => rw [clip_of_ge hab (not_lt.1 h), sub_self, List.map_nil, List.sum_nil]

/-- **The pieces make up the interval.** -/
theorem sum_piece_upTo (hab : a ≤ b) :
    ((B.upTo b (B.index a)).map fun j => piece a b (B.border j) (B.border (j + 1))).sum = b - a := by
  rw [sum_piece_upTo_clip hab, clip_of_le hab (B.index_le a)]

end Borders
