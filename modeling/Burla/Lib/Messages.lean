/-
Messages in flight.

A list of messages that may arrive in any order or be lost: `takeAt` takes one of them
out.  What is left and what was taken are together what was there, which is all that a
proof about a protocol needs of it.
-/
import Mathlib.Algebra.BigOperators.Group.List.Basic
import Mathlib.Data.List.Basic
import Mathlib.Tactic.Common

variable {α : Type*}

/-- Take the message at an index out, if there is one. -/
def takeAt (l : List α) (i : ℕ) : Option (α × List α) :=
  match l[i]? with
  | none => none
  | some a => some (a, l.eraseIdx i)

variable {l rest : List α} {i : ℕ} {a : α}

lemma getElem?_of_takeAt (h : takeAt l i = some (a, rest)) : l[i]? = some a := by
  unfold takeAt at h
  cases hi : l[i]? with
  | none => simp [hi] at h
  | some b =>
    obtain ⟨rfl, -⟩ : b = a ∧ l.eraseIdx i = rest := by simpa [hi] using h
    rfl

lemma takeAt_perm (h : takeAt l i = some (a, rest)) : l.Perm (a :: rest) := by
  unfold takeAt at h
  cases hi : l[i]? with
  | none => simp [hi] at h
  | some b =>
    obtain ⟨hlt, hget⟩ := List.getElem?_eq_some_iff.1 hi
    obtain ⟨rfl, rfl⟩ : b = a ∧ l.eraseIdx i = rest := by simpa [hi] using h
    exact (hget ▸ List.getElem_cons_eraseIdx_perm hlt).symm

lemma mem_of_takeAt (h : takeAt l i = some (a, rest)) : a ∈ l :=
  (takeAt_perm h).symm.subset List.mem_cons_self

/-- Every message may be taken. -/
lemma exists_takeAt_of_mem (h : a ∈ l) : ∃ i rest, takeAt l i = some (a, rest) := by
  obtain ⟨i, hi⟩ := List.mem_iff_getElem?.1 h
  exact ⟨i, l.eraseIdx i, by simp [takeAt, hi]⟩

lemma mem_of_mem_rest (h : takeAt l i = some (a, rest)) {b : α} (hb : b ∈ rest) : b ∈ l :=
  (takeAt_perm h).symm.subset (List.mem_cons_of_mem _ hb)

lemma sum_takeAt [AddCommMonoid α] (h : takeAt l i = some (a, rest)) : l.sum = a + rest.sum := by
  rw [(takeAt_perm h).sum_eq, List.sum_cons]
