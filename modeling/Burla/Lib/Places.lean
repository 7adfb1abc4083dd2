/-
What a list has at a place, after one of its entries has changed or another has come.

The cases are those of a proof that goes through the entries of the new list and knows the old
one's.
-/
import Mathlib.Data.List.Basic
import Mathlib.Tactic.Common

namespace Places

variable {α : Type*} {l : List α} {a b : α} {i j : ℕ} {f : α → α}

/-- An entry of a list with one changed. -/
lemma getElem?_set_cases (h : (l.set i a)[j]? = some b) :
    (j = i ∧ b = a) ∨ (j ≠ i ∧ l[j]? = some b) := by
  rw [List.getElem?_set] at h
  split_ifs at h with hij hlt
  · exact .inl ⟨hij.symm, (Option.some.inj h).symm⟩
  · exact .inr ⟨Ne.symm hij, h⟩

/-- An entry of a list with one more. -/
lemma getElem?_concat_cases (h : (l ++ [a])[j]? = some b) : l[j]? = some b ∨ b = a := by
  rcases Nat.lt_or_ge j l.length with hlt | hge
  · rw [List.getElem?_append_left hlt] at h
    exact .inl h
  · rw [List.getElem?_append_right hge] at h
    exact .inr (List.mem_singleton.1 (List.mem_of_getElem? h))

lemma getElem?_modify_of (h : l[j]? = some a) :
    (l.modify i f)[j]? = some (if i = j then f a else a) := by
  rw [List.getElem?_modify, h]
  split_ifs <;> rfl

/-- An entry of a list with one modified. -/
lemma getElem?_modify_cases (h : (l.modify i f)[j]? = some b) :
    ∃ a, l[j]? = some a ∧ b = if i = j then f a else a := by
  cases ha : l[j]? with
  | none =>
    rw [List.getElem?_modify, ha] at h
    split_ifs at h <;> cases h
  | some a =>
    rw [getElem?_modify_of ha] at h
    exact ⟨a, rfl, (Option.some.inj h).symm⟩

/-- A field of an entry of a list with one modified. -/
lemma bind_modify {β : Type*} {field : α → Option β} :
    ((l.modify i f)[j]?).bind field =
      if i = j then (l[j]?).bind fun a => field (f a) else (l[j]?).bind field := by
  rw [List.getElem?_modify]
  split_ifs <;> cases l[j]? <;> rfl

end Places
