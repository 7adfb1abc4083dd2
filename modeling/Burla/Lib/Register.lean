/-
A register that a queue of writes goes to.

A write carries a new value or leaves the register as it is.  `Register.settle` is the value
that the register has once the whole queue has been applied: the last value carried, or the
one that is there.  What is read off the end of the queue does not depend on which of the
earlier writes get there, which is why a lost write may be harmless.
-/
import Mathlib.Data.List.Basic

namespace Register

variable {α β : Type*} (value : β → Option α) {ws : List β} {w : β} {c d : α}

/-- The register after the writes `ws`. -/
def settle (ws : List β) (c : α) : α :=
  ws.foldl (fun c w => (value w).getD c) c

@[simp] lemma settle_nil : settle value [] c = c := rfl

@[simp] lemma settle_cons : settle value (w :: ws) c = settle value ws ((value w).getD c) := rfl

lemma settle_concat : settle value (ws ++ [w]) c = (value w).getD (settle value ws c) := by
  rw [settle, List.foldl_append]
  rfl

variable {value}

/-- Writes that carry nothing leave the register alone. -/
lemma settle_of_silent (h : ∀ w ∈ ws, value w = none) : settle value ws c = c := by
  induction ws with
  | nil => rfl
  | cons w ws ih =>
    rw [settle_cons, h w List.mem_cons_self]
    exact ih fun w' hw' => h w' (List.mem_cons_of_mem _ hw')

/-- Behind a write that carries a value, it does not matter what was there. -/
lemma settle_congr (h : ∃ w ∈ ws, value w ≠ none) : settle value ws c = settle value ws d := by
  induction ws generalizing c d with
  | nil =>
    obtain ⟨w, hw, -⟩ := h
    exact absurd hw List.not_mem_nil
  | cons w ws ih =>
    rw [settle_cons, settle_cons]
    cases hw : value w with
    | some a => rfl
    | none =>
      refine ih ?_
      obtain ⟨w', hmem, hw'⟩ := h
      rcases List.mem_cons.1 hmem with rfl | hmem
      · exact absurd hw hw'
      · exact ⟨w', hmem, hw'⟩

/-- What holds of the register and of every value carried holds at the end. -/
lemma settle_induction {P : α → Prop} (hc : P c) (h : ∀ w ∈ ws, ∀ a, value w = some a → P a) :
    P (settle value ws c) := by
  induction ws generalizing c with
  | nil => exact hc
  | cons w ws ih =>
    rw [settle_cons]
    refine ih ?_ fun w' hw' => h w' (List.mem_cons_of_mem _ hw')
    cases hw : value w with
    | none => exact hc
    | some a => exact h w List.mem_cons_self a hw

end Register
