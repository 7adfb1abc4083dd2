/-
What can be reached in a graph that is cut down while it is walked.

A walk that visits a vertex takes away the edges that lead to it, and goes on with what is left.
Whatever it reaches in the graph that is left, together with what it has visited, is what was
reachable in the whole graph at first.
-/
import Mathlib.Logic.Relation
import Mathlib.Tactic.Common

namespace Reach

open Relation

variable {α : Type*} {r r' : α → α → Prop} {a b c : α} {cs : List α}

/-- The start of a path can be left out of the graph, except as its end. -/
lemma transGen_ne_iff (h : ∀ a b, r' a b ↔ r a b ∧ b ≠ c) :
    TransGen r' c b ↔ TransGen r c b ∧ b ≠ c := by
  constructor
  · intro hpath
    refine ⟨TransGen.mono (fun a b hab => ((h a b).1 hab).1) _ _ hpath, ?_⟩
    cases hpath with
    | single hedge => exact ((h _ _).1 hedge).2
    | tail _ hedge => exact ((h _ _).1 hedge).2
  · rintro ⟨hpath, hne⟩
    induction hpath with
    | single hedge => exact .single ((h _ _).2 ⟨hedge, hne⟩)
    | @tail a b _ hedge ih =>
      by_cases hac : a = c
      · rw [hac] at hedge
        exact .single ((h _ _).2 ⟨hedge, hne⟩)
      · exact (ih hac).tail ((h _ _).2 ⟨hedge, hne⟩)

/-- What one step and then a path reach. -/
lemma exists_reflTransGen_iff (hcs : ∀ b, b ∈ cs ↔ r c b) :
    (∃ a ∈ cs, ReflTransGen r a b) ↔ TransGen r c b := by
  rw [TransGen.head'_iff]
  constructor
  · rintro ⟨a, ha, hpath⟩
    exact ⟨a, (hcs a).1 ha, hpath⟩
  · rintro ⟨a, ha, hpath⟩
    exact ⟨a, (hcs a).2 ha, hpath⟩

section Cut

variable (h : ∀ a b, r' a b ↔ r a b ∧ ¬ReflTransGen r c b) (hcs : ∀ a ∈ cs, ¬ReflTransGen r c a)

include h hcs

/-- What is visited is not reached again from the rest. -/
lemma not_reflTransGen_of_cut (hb : ∃ a ∈ cs, ReflTransGen r' a b) : ¬ReflTransGen r c b := by
  obtain ⟨a, ha, hpath⟩ := hb
  cases hpath with
  | refl => exact hcs _ ha
  | tail _ hedge => exact ((h _ _).1 hedge).2

/-- **What is visited first, and what the rest reaches then, is what they all reach.** -/
lemma cut_iff : (ReflTransGen r c b ∨ ∃ a ∈ cs, ReflTransGen r' a b) ↔
    ∃ a ∈ c :: cs, ReflTransGen r a b := by
  constructor
  · rintro (hb | ⟨a, ha, hpath⟩)
    · exact ⟨c, List.mem_cons_self, hb⟩
    · exact ⟨a, List.mem_cons_of_mem c ha,
        ReflTransGen.mono (fun a b hab => ((h a b).1 hab).1) _ _ hpath⟩
  · rintro ⟨a, ha, hpath⟩
    rcases List.mem_cons.1 ha with rfl | ha
    · exact .inl hpath
    · induction hpath with
      | refl => exact .inr ⟨a, ha, .refl⟩
      | @tail x y _ hedge ih =>
        by_cases hy : ReflTransGen r c y
        · exact .inl hy
        · rcases ih with hx | ⟨a', ha', hx⟩
          · exact absurd (hx.tail hedge) hy
          · exact .inr ⟨a', ha', hx.tail ((h _ _).2 ⟨hedge, hy⟩)⟩

end Cut

end Reach
