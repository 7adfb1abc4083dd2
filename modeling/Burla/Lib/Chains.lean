/-
The longest chain that ends at an element.

A chain of a relation is a list in which each element is related to the next.  How long the chains
that lead to an element are depends on the elements related to it alone (`succ_mem_lengthsTo`), so
the longest is one longer than the longest to any of these (`isLongestTo_of_pred`).
-/
import Mathlib.Data.List.Chain
import Mathlib.Order.Bounds.Basic
import Mathlib.Tactic.Common

namespace Chains

variable {α : Type*} {r r' : α → α → Prop} {a b c : α} {n m : ℕ}

/-- How many elements the chains that lead to `c` have before it. -/
def lengthsTo (r : α → α → Prop) (c : α) : Set ℕ :=
  {n | ∃ l : List α, l.length = n ∧ List.IsChain r (l ++ [c])}

/-- The longest chain that leads to `c` has `n` elements before it. -/
def IsLongestTo (r : α → α → Prop) (c : α) (n : ℕ) : Prop := IsGreatest (lengthsTo r c) n

@[simp] lemma zero_mem_lengthsTo : 0 ∈ lengthsTo r c := ⟨[], rfl, by simp⟩

/-- A chain's element before the last. -/
lemma isChain_append_pair {l : List α} :
    List.IsChain r (l ++ [b] ++ [c]) ↔ List.IsChain r (l ++ [b]) ∧ r b c := by
  rw [List.isChain_append]
  simp

lemma succ_mem_lengthsTo : n + 1 ∈ lengthsTo r c ↔ ∃ b, r b c ∧ n ∈ lengthsTo r b := by
  constructor
  · rintro ⟨l, hlen, hchain⟩
    obtain ⟨l', b, rfl⟩ : ∃ l' b, l = l' ++ [b] := by
      rcases List.eq_nil_or_concat l with rfl | ⟨l', b, rfl⟩
      · simp at hlen
      · exact ⟨l', b, by simp⟩
    rw [isChain_append_pair] at hchain
    exact ⟨b, hchain.2, l', by simpa using hlen, hchain.1⟩
  · rintro ⟨b, hbc, l, hlen, hchain⟩
    exact ⟨l ++ [b], by simpa using hlen, isChain_append_pair.2 ⟨hchain, hbc⟩⟩

/-- Elements with the same elements before them have the same chains. -/
lemma lengthsTo_eq_of_preds (h : ∀ b, r b a ↔ r b c) : lengthsTo r a = lengthsTo r c := by
  ext n
  cases n with
  | zero => simp
  | succ n => simp only [succ_mem_lengthsTo, h]

/-- Two relations that agree on what leads to `c`, step by step, have the same chains to it. -/
lemma lengthsTo_congr {p : α → Prop} (h : ∀ a b, p b → (r' a b ↔ r a b))
    (hp : ∀ a b, p b → r a b → p a) (hc : p c) : lengthsTo r' c = lengthsTo r c := by
  ext n
  induction n generalizing c with
  | zero => simp
  | succ n ih =>
    simp only [succ_mem_lengthsTo]
    refine exists_congr fun b => ?_
    rw [h b c hc]
    exact and_congr_right fun hbc => ih (hp b c hc hbc)

lemma IsLongestTo.unique (h : IsLongestTo r c n) (h' : IsLongestTo r c m) : n = m :=
  IsGreatest.unique h h'

/-- What leads to an element has shorter chains. -/
lemma IsLongestTo.lt (hb : IsLongestTo r b m) (hc : IsLongestTo r c n) (hbc : r b c) : m < n :=
  hc.2 (succ_mem_lengthsTo.2 ⟨b, hbc, hb.1⟩)

/-- **The longest chain is one longer than the longest to an element right before the end.** -/
lemma isLongestTo_of_pred (hlt : ∀ b, r b c → ∃ m < n, IsLongestTo r b m)
    (hn : n = 0 ∨ ∃ b m, r b c ∧ IsLongestTo r b m ∧ n = m + 1) : IsLongestTo r c n := by
  constructor
  · rcases hn with rfl | ⟨b, m, hbc, hb, rfl⟩
    · exact zero_mem_lengthsTo
    · exact succ_mem_lengthsTo.2 ⟨b, hbc, hb.1⟩
  · intro k hk
    cases k with
    | zero => exact Nat.zero_le n
    | succ k =>
      obtain ⟨b, hbc, hmem⟩ := succ_mem_lengthsTo.1 hk
      obtain ⟨m, hm, hb⟩ := hlt b hbc
      exact Nat.succ_le_of_lt ((hb.2 hmem).trans_lt hm)

end Chains
