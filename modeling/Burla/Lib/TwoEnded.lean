/-
Lines that are joined at the end and left at both ends.

Who joins a line is numbered.  A line is in order (`TwoEnded.Orderly`) when those who wait stand as
they have come, everyone who has come waits or has left, once, and those who left at the front did
so as they have come.  Joining and leaving keep a line in order (`Orderly.moves`), and who leaves at
the end is the last one who has come of those who wait (`Orderly.le_getLast`).
-/
import Mathlib.Data.List.Basic
import Mathlib.Data.List.Perm.Basic
import Mathlib.Order.Basic
import Mathlib.Tactic.Common

namespace TwoEnded

/-- The end at which a line is left. -/
inductive End
  | first
  | last
  deriving DecidableEq

structure Line where
  /-- How many have joined. -/
  arrived : ℕ
  waiting : List ℕ
  /-- Who has left, and at which end. -/
  left : List (End × ℕ)

/-- Who has left at the front. -/
def firsts (left : List (End × ℕ)) : List ℕ :=
  (left.filter fun e => decide (e.1 = .first)).map Prod.snd

/-- What can happen to a line. -/
inductive Moves : Line → Line → Prop
  | stay (l : Line) : Moves l l
  | arrive (arrived : ℕ) (waiting : List ℕ) (left : List (End × ℕ)) :
      Moves ⟨arrived, waiting, left⟩ ⟨arrived + 1, waiting ++ [arrived], left⟩
  | first (arrived number : ℕ) (waiting : List ℕ) (left : List (End × ℕ)) :
      Moves ⟨arrived, number :: waiting, left⟩ ⟨arrived, waiting, left ++ [(.first, number)]⟩
  | last (arrived number : ℕ) (waiting : List ℕ) (left : List (End × ℕ)) :
      Moves ⟨arrived, waiting ++ [number], left⟩ ⟨arrived, waiting, left ++ [(.last, number)]⟩

/-- A line in order. -/
structure Orderly (l : Line) : Prop where
  sorted : l.waiting.Pairwise (· < ·)
  once : (l.waiting ++ l.left.map Prod.snd).Perm (List.range l.arrived)
  ordered : (firsts l.left).Pairwise (· < ·)
  before : ∀ m ∈ firsts l.left, ∀ n ∈ l.waiting, m < n

section Orderly

variable {l l' : Line}

lemma firsts_append (left left' : List (End × ℕ)) :
    firsts (left ++ left') = firsts left ++ firsts left' := by
  rw [firsts, List.filter_append, List.map_append, firsts, firsts]

lemma mem_of_mem_firsts {left : List (End × ℕ)} {n : ℕ} (h : n ∈ firsts left) :
    n ∈ left.map Prod.snd := by
  obtain ⟨e, he, rfl⟩ := List.mem_map.1 h
  exact List.mem_map_of_mem (List.mem_of_mem_filter he)

lemma orderly_new : Orderly ⟨0, [], []⟩ where
  sorted := .nil
  once := .nil
  ordered := .nil
  before _ hm := absurd hm List.not_mem_nil

/-- Who is in a line or has left it has come. -/
lemma Orderly.lt_arrived (h : Orderly l) {n : ℕ} (hn : n ∈ l.waiting ++ l.left.map Prod.snd) :
    n < l.arrived := List.mem_range.1 (h.once.mem_iff.1 hn)

/-- **A move** keeps a line in order. -/
lemma Orderly.moves (h : Orderly l) (hmoves : Moves l l') : Orderly l' := by
  cases hmoves with
  | stay => exact h
  | arrive arrived waiting left =>
    have hlt : ∀ n ∈ waiting, n < arrived := fun n hn => h.lt_arrived (List.mem_append_left _ hn)
    refine ⟨?_, ?_, h.ordered, ?_⟩
    · exact List.pairwise_append.2 ⟨h.sorted, List.pairwise_singleton _ _, fun m hm n hn =>
        List.mem_singleton.1 hn ▸ hlt m hm⟩
    · rw [List.range_succ, List.append_assoc]
      refine (List.Perm.append_left waiting List.perm_append_comm).trans ?_
      rw [← List.append_assoc]
      exact h.once.append_right [arrived]
    · intro m hm n hn
      rcases List.mem_append.1 hn with hn | hn
      · exact h.before m hm n hn
      · obtain rfl := List.mem_singleton.1 hn
        exact h.lt_arrived (List.mem_append_right _ (mem_of_mem_firsts hm))
  | first arrived number waiting left =>
    obtain ⟨hnumber, hsorted⟩ := List.pairwise_cons.1 h.sorted
    refine ⟨hsorted, ?_, ?_, ?_⟩
    · rw [List.map_append, ← List.append_assoc]
      exact List.perm_append_comm.trans h.once
    · rw [firsts_append]
      exact List.pairwise_append.2 ⟨h.ordered, List.pairwise_singleton _ _, fun m hm n hn =>
        List.mem_singleton.1 hn ▸ h.before m hm number List.mem_cons_self⟩
    · intro m hm n hn
      rw [firsts_append] at hm
      rcases List.mem_append.1 hm with hm | hm
      · exact h.before m hm n (List.mem_cons_of_mem _ hn)
      · obtain rfl := List.mem_singleton.1 hm
        exact hnumber n hn
  | last arrived number waiting left =>
    obtain ⟨hsorted, -, -⟩ := List.pairwise_append.1 h.sorted
    refine ⟨hsorted, ?_, ?_, ?_⟩
    · rw [List.map_append]
      refine (List.Perm.append_left waiting List.perm_append_comm).trans ?_
      rw [← List.append_assoc]
      exact h.once
    · rw [firsts_append]
      exact (List.append_nil _).symm ▸ h.ordered
    · intro m hm n hn
      rw [firsts_append] at hm
      refine h.before m ?_ n (List.mem_append_left _ hn)
      rcases List.mem_append.1 hm with hm | hm
      · exact hm
      · exact absurd hm List.not_mem_nil

/-- **The end of a line** is the last one who has come. -/
lemma Orderly.le_getLast {number : ℕ} {waiting : List ℕ} (h : Orderly l)
    (hlast : l.waiting = waiting ++ [number]) : ∀ n ∈ l.waiting, n ≤ number := by
  have hsorted := h.sorted
  rw [hlast] at hsorted ⊢
  obtain ⟨-, -, hbefore⟩ := List.pairwise_append.1 hsorted
  intro n hn
  rcases List.mem_append.1 hn with hn | hn
  · exact Nat.le_of_lt (hbefore n hn number (List.mem_singleton_self _))
  · exact Nat.le_of_eq (List.mem_singleton.1 hn)

end Orderly

end TwoEnded
