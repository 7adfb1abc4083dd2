/-
Dealing items out in turns.

The items `0, 1, 2, …` go round a list of destinations, over and over, in which a destination may
stand more than once.  After any number of items each destination has had its share of every full
round, and at most its share of the one that has begun (`mul_count_le`, `count_le_mul`).
-/
import Mathlib.Data.Nat.Count
import Mathlib.Tactic.Ring

namespace RoundRobin

variable {α : Type*} (destinations : List α) {a : α} {k n : ℕ}

/-- Where item `k` goes. -/
def turn (k : ℕ) : Option α := destinations[k % destinations.length]?

variable {destinations}

lemma exists_turn (hne : destinations ≠ []) (k : ℕ) :
    ∃ a ∈ destinations, turn destinations k = some a := by
  have hlt : k % destinations.length < destinations.length :=
    Nat.mod_lt k (List.length_pos_of_ne_nil hne)
  exact ⟨_, List.getElem_mem hlt, List.getElem?_eq_getElem hlt⟩

lemma turn_of_lt (hk : k < destinations.length) : turn destinations k = destinations[k]? := by
  rw [turn, Nat.mod_eq_of_lt hk]

lemma turn_add_round (k : ℕ) :
    turn destinations (destinations.length + k) = turn destinations k := by
  rw [turn, turn, Nat.add_mod_left]

section Count

variable [DecidableEq α]

variable (destinations a) in
/-- How many of the first `n` items a destination gets. -/
def share (n : ℕ) : ℕ := Nat.count (fun k => turn destinations k = some a) n

lemma share_mono : Monotone (share destinations a) := Nat.count_monotone _

/-- The share of one round is the number of times that the destination stands in the list. -/
lemma share_length : share destinations a destinations.length = destinations.count a := by
  have hfirst : ∀ m ≤ destinations.length,
      share destinations a m = (destinations.take m).count a := by
    intro m
    induction m with
    | zero => simp [share]
    | succ m ih =>
      intro hm
      rw [share, Nat.count_succ, ← share, ih (by omega), turn_of_lt hm,
        List.take_succ_eq_append_getElem hm, List.count_append, List.count_singleton,
        List.getElem?_eq_getElem hm]
      simp only [Option.some.injEq, beq_iff_eq]
  rw [hfirst _ le_rfl, List.take_length]

lemma share_add_round (n : ℕ) :
    share destinations a (destinations.length + n) =
      destinations.count a + share destinations a n := by
  rw [share, Nat.count_add, ← share, share_length, share]
  simp only [turn_add_round]

lemma share_rounds (q : ℕ) :
    share destinations a (destinations.length * q) = q * destinations.count a := by
  induction q with
  | zero => simp [share]
  | succ q ih =>
    rw [Nat.mul_succ, Nat.add_comm, share_add_round, ih]
    ring

/-- A destination has had its share of every full round. -/
lemma mul_count_le (n : ℕ) :
    n / destinations.length * destinations.count a ≤ share destinations a n := by
  rw [← share_rounds]
  exact share_mono (Nat.mul_div_le n destinations.length)

/-- A destination has had at most its share of the round that has begun as well. -/
lemma count_le_mul (hne : destinations ≠ []) (n : ℕ) :
    share destinations a n ≤ (n / destinations.length + 1) * destinations.count a := by
  rw [← share_rounds]
  exact share_mono (Nat.lt_mul_div_succ n (List.length_pos_of_ne_nil hne)).le

end Count

end RoundRobin
