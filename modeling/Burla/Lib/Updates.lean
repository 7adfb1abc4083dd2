/-
The parties of a system after one of them has changed: what the others keep, and sums over
all of them.
-/
import Mathlib.Algebra.BigOperators.Group.Finset.Basic
import Mathlib.Algebra.BigOperators.Group.List.Basic
import Mathlib.Algebra.Ring.Int.Defs
import Mathlib.Data.Fintype.BigOperators
import Mathlib.Tactic.Abel

variable {ι β γ : Type*} [DecidableEq ι]

/-- What a change of one party leaves alone is the same for every party. -/
lemma apply_update_eq (field : β → γ) (f : ι → β) {i : ι} {b : β} (h : field b = field (f i))
    (j : ι) : field (Function.update f i b j) = field (f j) := by
  by_cases hj : j = i
  · subst hj
    rw [Function.update_self, h]
  · rw [Function.update_of_ne hj]

/-- A change of one party of a list changes the sum over the list by its own share. -/
lemma sum_map_update {l : List ι} (hl : l.Nodup) {i : ι} (hi : i ∈ l) (share : β → ℕ) (f : ι → β)
    (b : β) :
    (l.map fun j => share (Function.update f i b j)).sum + share (f i) =
      (l.map fun j => share (f j)).sum + share b := by
  induction l with
  | nil => cases hi
  | cons a l ih =>
    obtain ⟨ha, hl⟩ := List.nodup_cons.1 hl
    simp only [List.map_cons, List.sum_cons]
    by_cases hai : a = i
    · -- the rest of the list does not have the party
      subst hai
      have hrest : (l.map fun j => share (Function.update f a b j)) =
          l.map fun j => share (f j) :=
        List.map_congr_left fun j hj => by rw [Function.update_of_ne (ne_of_mem_of_not_mem hj ha)]
      rw [hrest, Function.update_self]
      omega
    · have hrest := ih hl ((List.mem_cons.1 hi).resolve_left (Ne.symm hai))
      rw [Function.update_of_ne hai]
      omega

variable [Fintype ι]

/-- A change of one party changes the sum by what it changes of the party's share. -/
lemma sum_update (share : ι → β → ℤ) (f : ι → β) (i : ι) (b : β) :
    ∑ j, share j (Function.update f i b j) =
      ∑ j, share j (f j) + (share i b - share i (f i)) := by
  have hdiff : ∑ j, (share j (Function.update f i b j) - share j (f j)) =
      share i b - share i (f i) := by
    rw [Finset.sum_eq_single i]
    · simp
    · intro j _ hj
      simp [Function.update_of_ne hj]
    · simp
  rw [← hdiff, Finset.sum_sub_distrib]
  abel
