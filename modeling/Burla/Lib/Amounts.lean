/-
Dictionaries of amounts, an amount being of any commutative group.

* `Dict.total_addAmount`: what is added to the amount of a key is added to the sum of all.
* `Dict.sum_set`: a value that is written in the place of another one changes the sum by their
  difference.
-/
import Burla.Lib.Dict
import Mathlib.Algebra.BigOperators.Group.List.Basic
import Mathlib.Tactic.Abel

namespace Dict

variable {κ β A : Type*} [DecidableEq κ] [AddCommGroup A]

/-- The amount of a key; there is none of one that is absent. -/
def amount (d : Dict κ A) (k : κ) : A := (d.get k).getD 0

/-- `d[k] = d.get(k, 0) + x` -/
def addAmount (d : Dict κ A) (k : κ) (x : A) : Dict κ A := d.set k (d.amount k + x)

/-- The sum of the amounts. -/
def total (d : Dict κ A) : A := (d.items.map Prod.snd).sum

variable {d : Dict κ β} {f : β → A} {k k' : κ} {b c : β}

lemma sum_replaceItems {items : List (κ × β)} (hnodup : (items.map Prod.fst).Nodup)
    (h : (k, c) ∈ items) :
    ((replaceItems k b items).map fun e => f e.2).sum =
      (items.map fun e => f e.2).sum + (f b - f c) := by
  induction items with
  | nil => cases h
  | cons e items ih =>
    obtain ⟨hnot, hnodup⟩ := List.nodup_cons.1 hnodup
    rw [replaceItems, List.map_cons, ← replaceItems, List.map_cons, List.map_cons, List.sum_cons,
      List.sum_cons]
    rcases List.mem_cons.1 h with rfl | hmem
    · have hrest : replaceItems k b items = items := by
        refine (List.map_congr_left fun e he => ?_).trans (List.map_id items)
        rw [if_neg]
        · rfl
        · intro heq
          exact hnot (List.mem_map.2 ⟨e, he, heq⟩)
      rw [if_pos rfl, hrest]
      abel
    · have hne : e.1 ≠ k := by
        rintro rfl
        exact hnot (List.mem_map.2 ⟨(e.1, c), hmem, rfl⟩)
      rw [if_neg hne, ih hnodup hmem]
      abel

/-- **A value in the place of another one** changes a sum by the difference. -/
lemma sum_set (h : d.get k = some c) : ((d.set k b).items.map fun e => f e.2).sum =
    (d.items.map fun e => f e.2).sum + (f b - f c) := by
  rw [set, dif_pos (mem_keys.2 ⟨c, h⟩)]
  exact sum_replaceItems d.nodup (mem_items.2 h)

lemma sum_set_of_notMem (h : k ∉ d.keys) : ((d.set k b).items.map fun e => f e.2).sum =
    (d.items.map fun e => f e.2).sum + f b := by
  rw [set, dif_neg h, List.map_append, List.sum_append, List.map_singleton, List.sum_singleton]

omit [AddCommGroup A] in
/-- Looking the keys up, one after another, is going through the entries. -/
lemma map_get_keys : d.keys.map d.get = d.items.map fun e => some e.2 := by
  rw [keys, List.map_map]
  exact List.map_congr_left fun e he => mem_items.1 he

section Amounts

variable {d : Dict κ A} {x : A}

lemma get_addAmount :
    (d.addAmount k x).get k' = if k' = k then some (d.amount k + x) else d.get k' := get_set

lemma keys_addAmount : (d.addAmount k x).keys = if k ∈ d.keys then d.keys else d.keys ++ [k] := by
  split_ifs with h
  · exact keys_set_of_mem h
  · exact keys_set_of_notMem h

/-- **What is added to one amount is added to the sum.** -/
lemma total_addAmount : (d.addAmount k x).total = d.total + x := by
  rw [addAmount, amount, total, total]
  by_cases h : k ∈ d.keys
  · obtain ⟨a, ha⟩ := mem_keys.1 h
    rw [ha, Option.getD_some]
    refine (sum_set (f := id) ha).trans ?_
    show _ + (a + x - a) = _
    rw [add_sub_cancel_left]
    rfl
  · rw [get_eq_none.2 h, Option.getD_none, zero_add]
    exact sum_set_of_notMem (f := id) h

omit [DecidableEq κ] in
lemma total_empty : (empty : Dict κ A).total = 0 := rfl

/-- The sum is got by looking up the keys of any dictionary that has the same ones. -/
lemma sum_amount_keys {e : Dict κ β} (h : d.keys = e.keys) :
    (e.items.map fun e => d.amount e.1).sum = d.total := by
  have hkeys : e.items.map (fun e => d.amount e.1) = d.keys.map d.amount := by
    rw [h, keys, List.map_map]
    rfl
  have hvalues : d.keys.map d.amount = d.items.map Prod.snd := by
    have hget : (d.keys.map d.get).map (fun o => o.getD 0) = d.items.map Prod.snd := by
      rw [map_get_keys, List.map_map]
      rfl
    rw [← hget, List.map_map]
    rfl
  rw [hkeys, hvalues, total]

end Amounts

end Dict
