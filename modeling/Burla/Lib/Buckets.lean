/-
Dictionaries that collect: the items of a list by a key of theirs, or how many there are of each.

* `Dict.get_groupBy`: under a key are the items that have it, in their order.
* `Dict.flatMap_groupBy_perm`: all items are in the groups, each of them once.
* `Dict.getD_counts`: how many there are.
* `Dict.get_ofKeys`: a dictionary that has a value for each key of a list.
-/
import Burla.Lib.Dict
import Mathlib.Data.List.Induction
import Mathlib.Data.List.Perm.Basic

namespace Dict

variable {α κ : Type*} [DecidableEq κ]

/-- `d.setdefault(k, []).append(x)` -/
def push (d : Dict κ (List α)) (k : κ) (x : α) : Dict κ (List α) :=
  d.set k ((d.get k).getD [] ++ [x])

/-- The items of a list by their keys, in the order in which the keys come. -/
def groupBy (key : α → κ) (l : List α) : Dict κ (List α) := l.foldl (fun d x => d.push (key x) x) empty

/-- `d[k] = d.get(k, 0) + 1`, for every `k` of a list. -/
def counts (l : List κ) : Dict κ ℕ := l.foldl (fun d k => d.set k ((d.get k).getD 0 + 1)) empty

/-- `{k: f(k) for k in keys}` -/
def ofKeys {β : Type*} (f : κ → β) (keys : List κ) : Dict κ β :=
  keys.foldl (fun d k => d.set k (f k)) empty

variable {d : Dict κ (List α)} {key : α → κ} {l : List α} {k k' : κ} {x : α} {g : List α}

lemma get_push : (d.push k x).get k' = if k' = k then some ((d.get k).getD [] ++ [x]) else d.get k' :=
  get_set

lemma groupBy_concat : groupBy key (l ++ [x]) = (groupBy key l).push (key x) x := by
  rw [groupBy, List.foldl_append, List.foldl_cons, List.foldl_nil, groupBy]

/-- **Under a key are the items that have it**; without such an item the key is not there. -/
lemma get_groupBy : (groupBy key l).get k =
    if l.filter (fun x => key x = k) = [] then none else some (l.filter fun x => key x = k) := by
  induction l using List.reverseRecOn with
  | nil => rfl
  | append_singleton l x ih =>
    rw [groupBy_concat, get_push, List.filter_append]
    by_cases hk : k = key x
    · subst hk
      rw [if_pos rfl, ih, List.filter_singleton, decide_eq_true rfl, cond_true,
        if_neg (List.append_ne_nil_of_right_ne_nil _ (List.cons_ne_nil x []))]
      split_ifs with hnil
      · rw [hnil]
        rfl
      · rfl
    · rw [if_neg hk, ih, List.filter_singleton, decide_eq_false (Ne.symm hk), cond_false,
        List.append_nil]

/-- A group: it is not empty, and holds the items of its key. -/
lemma mem_groupBy : (k, g) ∈ (groupBy key l).items ↔ g ≠ [] ∧ g = l.filter fun x => key x = k := by
  rw [mem_items, get_groupBy]
  split_ifs with hnil
  · constructor
    · intro h
      cases h
    · rintro ⟨hne, rfl⟩
      exact absurd hnil hne
  · constructor
    · intro h
      obtain rfl := Option.some.inj h
      exact ⟨hnil, rfl⟩
    · rintro ⟨-, rfl⟩
      rfl

lemma flatMap_replaceItems_perm {items : List (κ × List α)} (hnodup : (items.map Prod.fst).Nodup)
    (h : (k, g) ∈ items) :
    ((replaceItems k (g ++ [x]) items).flatMap Prod.snd).Perm (items.flatMap Prod.snd ++ [x]) := by
  induction items with
  | nil => cases h
  | cons e items ih =>
    obtain ⟨hnot, hnodup⟩ := List.nodup_cons.1 hnodup
    rw [replaceItems, List.map_cons, ← replaceItems, List.flatMap_cons, List.flatMap_cons]
    rcases List.mem_cons.1 h with rfl | hmem
    · have hrest : replaceItems k (g ++ [x]) items = items := by
        refine (List.map_congr_left fun e he => ?_).trans (List.map_id items)
        rw [if_neg]
        · rfl
        · intro heq
          exact hnot (List.mem_map.2 ⟨e, he, heq⟩)
      rw [if_pos rfl, hrest, List.append_assoc, List.append_assoc]
      exact List.perm_append_comm.append_left g
    · have hne : e.1 ≠ k := by
        rintro rfl
        exact hnot (List.mem_map.2 ⟨(e.1, g), hmem, rfl⟩)
      rw [if_neg hne, List.append_assoc]
      exact (ih hnodup hmem).append_left e.2

lemma flatMap_push_perm :
    ((d.push k x).items.flatMap Prod.snd).Perm (d.items.flatMap Prod.snd ++ [x]) := by
  rw [push, set]
  split_ifs with hk
  · obtain ⟨g, hg⟩ := mem_keys.1 hk
    rw [hg]
    exact flatMap_replaceItems_perm d.nodup (mem_items.2 hg)
  · rw [get_eq_none.2 hk]
    show ((d.items ++ [(k, [] ++ [x])]).flatMap Prod.snd).Perm _
    rw [List.flatMap_append, List.flatMap_singleton, List.nil_append]

/-- **All items are in the groups**, each of them once. -/
lemma flatMap_groupBy_perm : ((groupBy key l).items.flatMap Prod.snd).Perm l := by
  induction l using List.reverseRecOn with
  | nil => exact .nil
  | append_singleton l x ih =>
    rw [groupBy_concat]
    exact flatMap_push_perm.trans (ih.append_right [x])

lemma groupBy_ne_nil (h : l ≠ []) : (groupBy key l).items ≠ [] := by
  intro hnil
  have hperm : ([] : List α).Perm l := by
    have hall : ((groupBy key l).items.flatMap Prod.snd).Perm l := flatMap_groupBy_perm
    rwa [hnil] at hall
  exact h hperm.nil_eq.symm

/-- **How many items of a list are a key.** -/
lemma getD_counts {l : List κ} : ((counts l).get k).getD 0 = (l.filter fun x => x = k).length := by
  induction l using List.reverseRecOn with
  | nil => rfl
  | append_singleton l x ih =>
    rw [counts, List.foldl_append, List.foldl_cons, List.foldl_nil, ← counts, get_set,
      List.filter_append, List.length_append, List.filter_singleton]
    by_cases hk : k = x
    · subst hk
      rw [if_pos rfl, Option.getD_some, ih, decide_eq_true rfl, cond_true, List.length_singleton]
    · rw [if_neg hk, ih, decide_eq_false (Ne.symm hk), cond_false, List.length_nil, Nat.add_zero]

section OfKeys

variable {β : Type*} {f : κ → β} {ks : List κ}

lemma ofKeys_concat : ofKeys f (ks ++ [k]) = (ofKeys f ks).set k (f k) := by
  rw [ofKeys, List.foldl_append, List.foldl_cons, List.foldl_nil, ofKeys]

/-- **Each key has its value.** -/
lemma get_ofKeys : (ofKeys f ks).get k = if k ∈ ks then some (f k) else none := by
  induction ks using List.reverseRecOn with
  | nil => rfl
  | append_singleton ks k' ih =>
    rw [ofKeys_concat, get_set, ih]
    by_cases hk : k = k'
    · subst hk
      rw [if_pos rfl, if_pos (List.mem_append_right _ List.mem_cons_self)]
    · rw [if_neg hk]
      exact if_congr (by simp [hk]) rfl rfl

lemma keys_ofKeys (h : ks.Nodup) : (ofKeys f ks).keys = ks := by
  induction ks using List.reverseRecOn with
  | nil => rfl
  | append_singleton ks k ih =>
    obtain ⟨hnodup, -, hnot⟩ := List.nodup_append.1 h
    rw [ofKeys_concat, keys_set_of_notMem, ih hnodup]
    rw [ih hnodup]
    exact fun hmem => hnot k hmem k (List.mem_singleton_self k) rfl

lemma ofKeys_congr {g : κ → β} (h : ∀ k ∈ ks, f k = g k) : ofKeys f ks = ofKeys g ks := by
  induction ks using List.reverseRecOn with
  | nil => rfl
  | append_singleton ks k ih =>
    rw [ofKeys_concat, ofKeys_concat, h k (List.mem_append_right _ List.mem_cons_self),
      ih fun k' hk' => h k' (List.mem_append_left _ hk')]

end OfKeys

end Dict
