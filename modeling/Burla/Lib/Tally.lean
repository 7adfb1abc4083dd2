/-
Finite tallies: dictionaries from keys to integer amounts, an absent key
standing for zero.

They are Mathlib's association lists without duplicate keys, so that key
membership (has this key been written at all?) stays separate from the amount
it carries.  The lemmas give the amount at a key and the sum of all amounts
after each operation, and nothing else is ever needed of the list underneath.
-/
import Mathlib.Algebra.BigOperators.Group.List.Basic
import Mathlib.Algebra.Ring.Int.Defs
import Mathlib.Data.List.AList
import Mathlib.Tactic.Abel
import Mathlib.Tactic.Common

/-- A dictionary of integer amounts. -/
abbrev Tally (κ : Type*) : Type _ := AList (fun _ : κ => ℤ)

namespace Tally

variable {κ : Type*} [DecidableEq κ]

/-- The amount at a key, zero when the key is absent. -/
def count (t : Tally κ) (k : κ) : ℤ := (t.lookup k).getD 0

/-- The sum of all amounts. -/
def total (t : Tally κ) : ℤ := (t.entries.map fun e => e.2).sum

/-- Add `v` to the amount at `k`; this writes the key even when `v` is zero. -/
def add (t : Tally κ) (k : κ) (v : ℤ) : Tally κ := t.insert k (t.count k + v)

/-- Take a key out, with its amount. -/
def remove (t : Tally κ) (k : κ) : Tally κ := t.erase k

/-- Add every amount of `u`. -/
def merge (t u : Tally κ) : Tally κ := u.entries.foldl (fun t e => add t e.1 e.2) t

variable (t u : Tally κ) (k k' : κ) (v : ℤ)

@[simp] lemma count_empty : count (∅ : Tally κ) k = 0 := by simp [count]

omit [DecidableEq κ] in
@[simp] lemma total_empty : total (∅ : Tally κ) = 0 := by simp [total]

lemma count_of_notMem {t : Tally κ} {k : κ} (h : k ∉ t) : t.count k = 0 := by
  simp [count, AList.lookup_eq_none.2 h]

lemma count_remove : (t.remove k).count k' = if k' = k then 0 else t.count k' := by
  by_cases h : k' = k
  · subst h
    simp [remove, count]
  · simp [remove, count, AList.lookup_erase_ne h, h]

@[simp] lemma mem_add : k' ∈ t.add k v ↔ k' = k ∨ k' ∈ t := AList.mem_insert t

lemma count_add : (t.add k v).count k' = t.count k' + if k' = k then v else 0 := by
  by_cases h : k' = k
  · subst h
    simp [add, count]
  · simp [add, count, AList.lookup_insert_ne h, h]

/-- Taking a key out takes its amount out of the sum. -/
lemma total_remove : (t.remove k).total = t.total - t.count k := by
  by_cases h : k ∈ t
  · obtain ⟨b, l₁, l₂, -, hl, hk⟩ := List.exists_of_kerase (AList.mem_keys.1 h)
    have hb : t.count k = b := by
      have hmem : b ∈ t.lookup k := AList.mem_lookup_iff.2 (by simp [hl])
      simp [count, Option.mem_def.1 hmem]
    have he : (t.remove k).entries = l₁ ++ l₂ := hk
    rw [hb, total, total, he, hl]
    simp only [List.map_append, List.map_cons, List.sum_append, List.sum_cons]
    abel
  · have he : (t.remove k).entries = t.entries := List.kerase_of_notMem_keys h
    simp [total, he, count_of_notMem h]

lemma total_add : (t.add k v).total = t.total + v := by
  have he : (t.add k v).entries = ⟨k, t.count k + v⟩ :: (t.remove k).entries := AList.entries_insert
  have hsum : (t.add k v).total = t.count k + v + (t.remove k).total := by
    simp [total, he]
  rw [hsum, total_remove]
  abel

/-- The entries of a list without duplicate keys are added key by key. -/
lemma count_foldl_add (l : List (Sigma fun _ : κ => ℤ)) (hl : l.NodupKeys) :
    (l.foldl (fun t e => add t e.1 e.2) t).count k = t.count k + (l.dlookup k).getD 0 := by
  induction l generalizing t with
  | nil => simp
  | cons e l ih =>
    obtain ⟨a, b⟩ := e
    obtain ⟨ha, hl⟩ := List.nodupKeys_cons.1 hl
    rw [List.foldl_cons, ih _ hl, count_add]
    by_cases h : k = a
    · subst h
      have hnone : l.dlookup k = none := List.dlookup_eq_none.2 ha
      simp [hnone]
    · simp [h, List.dlookup_cons_ne l ⟨a, b⟩ h]

@[simp] lemma count_merge : (t.merge u).count k = t.count k + u.count k :=
  count_foldl_add t k u.entries u.nodupKeys

end Tally
