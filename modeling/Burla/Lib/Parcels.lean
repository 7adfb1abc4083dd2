/-
Parcels: lists of items kept under ids until somebody signs for them.

When the items of a parcel have already been handed over, the parcel may stay for a while;
its items then no longer count as held.  The lemmas say how often an item is held
after each operation, so that a proof that nothing is lost is one sum for each step.
-/
import Mathlib.Data.List.AList
import Mathlib.Data.List.Count
import Mathlib.Tactic.Common

/-- Lists of items under ids. -/
abbrev Parcels (ι α : Type*) : Type _ := AList (fun _ : ι => List α)

namespace Parcels

variable {ι α : Type*} [DecidableEq ι]

/-- The items of the parcels that have not been handed over. -/
def held (p : Parcels ι α) (handedOver : List ι) : List α :=
  p.entries.flatMap fun e => if e.1 ∈ handedOver then [] else e.2

variable {p : Parcels ι α} {handedOver : List ι} {i : ι} {items : List α}

@[simp] lemma held_empty : held (∅ : Parcels ι α) handedOver = [] := rfl

/-- A parcel's entry is one of the entries, and the others are what is left without it. -/
lemma entries_of_lookup (hp : p.lookup i = some items) :
    ∃ l₁ l₂, p.entries = l₁ ++ ⟨i, items⟩ :: l₂ ∧ (p.erase i).entries = l₁ ++ l₂ ∧
      ∀ e ∈ l₁ ++ l₂, e.1 ≠ i := by
  have hmem : i ∈ p := AList.lookup_isSome.1 (by simp [hp])
  obtain ⟨b, l₁, l₂, -, hl, hk⟩ := List.exists_of_kerase (AList.mem_keys.1 hmem)
  have hb : p.lookup i = some b := AList.mem_lookup_iff.2 (by simp [hl])
  obtain rfl : items = b := by simpa [hp] using hb
  refine ⟨l₁, l₂, hl, hk, ?_⟩
  rintro e he rfl
  have hnot : e.1 ∉ (p.entries.kerase e.1).keys := List.notMem_keys_kerase e.1 p.nodupKeys
  exact hnot (hk ▸ List.mem_keys_of_mem he)

/-- An item is held when a parcel that has not been handed over has it. -/
lemma mem_held {x : α} :
    x ∈ p.held handedOver ↔ ∃ i items, p.lookup i = some items ∧ i ∉ handedOver ∧ x ∈ items := by
  simp only [held, List.mem_flatMap]
  constructor
  · rintro ⟨⟨i, items⟩, hmem, hx⟩
    split_ifs at hx with hi
    · cases hx
    · exact ⟨i, items, AList.mem_lookup_iff.2 hmem, hi, hx⟩
  · rintro ⟨i, items, hlookup, hi, hx⟩
    exact ⟨⟨i, items⟩, AList.mem_lookup_iff.1 hlookup, by simpa [hi] using hx⟩

variable [DecidableEq α]

/-- A new parcel adds its items. -/
lemma count_held_insert (items : List α) (hp : i ∉ p) (hi : i ∉ handedOver) (x : α) :
    (held (p.insert i items) handedOver).count x =
      items.count x + (p.held handedOver).count x := by
  simp only [held, AList.entries_insert_of_notMem hp, List.flatMap_cons, List.count_append, hi,
    if_false]

/-- Taking a parcel away takes its items away, unless they were handed over. -/
lemma count_held_erase (handedOver : List ι) (hp : p.lookup i = some items) (x : α) :
    (p.held handedOver).count x =
      (if i ∈ handedOver then 0 else items.count x) +
        (held (p.erase i) handedOver).count x := by
  obtain ⟨l₁, l₂, hl, hk, -⟩ := entries_of_lookup hp
  simp only [held, hl, hk, List.flatMap_append, List.flatMap_cons, List.count_append]
  split
  · simp
  · omega

/-- Handing a parcel over takes its items away. -/
lemma count_held_cons (hp : p.lookup i = some items) (hi : i ∉ handedOver) (x : α) :
    (p.held handedOver).count x = items.count x + (p.held (i :: handedOver)).count x := by
  obtain ⟨l₁, l₂, hl, -, hne⟩ := entries_of_lookup hp
  have hsame : ∀ e ∈ l₁ ++ l₂,
      (if e.1 ∈ i :: handedOver then [] else e.2) = if e.1 ∈ handedOver then [] else e.2 := by
    intro e he
    simp [hne e he]
  have hrest := List.flatMap_congr hsame
  have hboth := congrArg (List.count x) hrest
  simp only [List.flatMap_append, List.count_append] at hboth
  simp only [held, hl, List.flatMap_append, List.flatMap_cons, List.count_append, hi,
    List.mem_cons_self, if_true, if_false, List.count_nil]
  omega

end Parcels
