/-
Dictionaries that are gone through in the order in which their keys came.

A dictionary is a list of entries with a proof that no key occurs twice: a value is changed in
its place, a new key comes last.  Going through the entries and looking a key up are then the
same (`Dict.mem_items`), and the rest are the lookups after each operation.
-/
import Mathlib.Data.List.Basic
import Mathlib.Data.List.Nodup
import Mathlib.Tactic.Common

/-- A dictionary in the order of its keys' arrival. -/
structure Dict (κ β : Type*) where
  items : List (κ × β)
  nodup : (items.map Prod.fst).Nodup

namespace Dict

variable {κ β : Type*}

@[ext] lemma ext {d d' : Dict κ β} (h : d.items = d'.items) : d = d' := by
  cases d
  cases d'
  simpa using h

/-- The dictionary without entries. -/
def empty : Dict κ β := ⟨[], List.nodup_nil⟩

/-- The keys. -/
def keys (d : Dict κ β) : List κ := d.items.map Prod.fst

/-- Every value is changed by a function of it. -/
def mapValues (f : β → β) (d : Dict κ β) : Dict κ β where
  items := d.items.map fun e => (e.1, f e.2)
  nodup := by simpa [List.map_map, Function.comp_def] using d.nodup

/-- The values are turned into others, of another type. -/
def map {γ : Type*} (f : β → γ) (d : Dict κ β) : Dict κ γ where
  items := d.items.map fun e => (e.1, f e.2)
  nodup := by simpa [List.map_map, Function.comp_def] using d.nodup

/-- Only the entries whose values pass. -/
def filterValues (p : β → Bool) (d : Dict κ β) : Dict κ β where
  items := d.items.filter fun e => p e.2
  nodup := (List.filter_sublist.map Prod.fst).nodup d.nodup

variable [DecidableEq κ]

/-- The value at a key. -/
def get (d : Dict κ β) (k : κ) : Option β := (d.items.find? fun e => e.1 = k).map Prod.snd

/-- The entries with another value at a key that is among them. -/
def replaceItems (k : κ) (b : β) (l : List (κ × β)) : List (κ × β) :=
  l.map fun e => if e.1 = k then (k, b) else e

lemma map_fst_replaceItems (k : κ) (b : β) (l : List (κ × β)) :
    (replaceItems k b l).map Prod.fst = l.map Prod.fst := by
  rw [replaceItems, List.map_map]
  refine List.map_congr_left fun e _ => ?_
  by_cases h : e.1 = k <;> simp [h]

/-- Write a value: in its place when the key is there, at the end when it is not. -/
def set (d : Dict κ β) (k : κ) (b : β) : Dict κ β :=
  if h : k ∈ d.keys then
    { items := replaceItems k b d.items
      nodup := by rw [map_fst_replaceItems]; exact d.nodup }
  else
    { items := d.items ++ [(k, b)]
      nodup := by
        rw [List.map_append, List.map_singleton, List.nodup_append]
        refine ⟨d.nodup, List.nodup_singleton k, ?_⟩
        rintro a ha b' hb' rfl
        obtain rfl : a = k := by simpa using hb'
        exact h ha }

/-- Take a key out, if it is there. -/
def pop (d : Dict κ β) (k : κ) : Dict κ β where
  items := d.items.filter fun e => e.1 ≠ k
  nodup := (List.filter_sublist.map Prod.fst).nodup d.nodup

/-- `dict.update`: the entries of another dictionary are written, one after another. -/
def update (d u : Dict κ β) : Dict κ β := u.items.foldl (fun d e => d.set e.1 e.2) d

variable {d : Dict κ β} {k k' : κ} {b : β}

@[simp] lemma get_empty : (empty : Dict κ β).get k = none := rfl

/-- What is gone through is what can be looked up. -/
lemma mem_items : (k, b) ∈ d.items ↔ d.get k = some b := by
  constructor
  · intro h
    unfold get
    cases hf : d.items.find? (fun e => e.1 = k) with
    | none => exact absurd (List.find?_eq_none.1 hf (k, b) h) (by simp)
    | some e =>
      have hk : e.1 = k := by simpa using List.find?_some hf
      have he : e ∈ d.items := List.mem_of_find?_eq_some hf
      have heq : e = (k, b) := List.inj_on_of_nodup_map d.nodup he h hk
      simp [heq]
  · intro h
    obtain ⟨e, he, rfl⟩ := Option.map_eq_some_iff.1 h
    have hk : e.1 = k := by simpa using List.find?_some he
    exact hk ▸ List.mem_of_find?_eq_some he

lemma get_eq_none : d.get k = none ↔ k ∉ d.keys := by
  simp only [get, keys, Option.map_eq_none_iff, List.find?_eq_none, decide_eq_true_eq,
    List.mem_map, not_exists, not_and]

lemma mem_keys : k ∈ d.keys ↔ ∃ b, d.get k = some b := by
  rw [← not_iff_not, ← get_eq_none]
  cases d.get k <;> simp

/-- Two dictionaries' values at a key agree when the same entries of that key are in them. -/
lemma get_congr {d' : Dict κ β} (h : ∀ b, (k, b) ∈ d.items ↔ (k, b) ∈ d'.items) :
    d.get k = d'.get k := by
  refine Option.ext fun b => ?_
  rw [← mem_items, ← mem_items, h]

@[simp] lemma get_set_self : (d.set k b).get k = some b := by
  rw [← mem_items]
  unfold set
  split_ifs with h
  · obtain ⟨e, he, rfl⟩ := List.mem_map.1 h
    exact List.mem_map.2 ⟨e, he, by simp⟩
  · simp

lemma get_set_of_ne (h : k' ≠ k) : (d.set k b).get k' = d.get k' := by
  refine get_congr fun c => ?_
  unfold set
  split_ifs with hk
  · simp only [replaceItems, List.mem_map]
    constructor
    · rintro ⟨e, he, heq⟩
      split_ifs at heq with hek
      · exact absurd (congrArg Prod.fst heq).symm h
      · exact heq ▸ he
    · intro he
      exact ⟨(k', c), he, by simp [h]⟩
  · simp [h]

lemma get_set : (d.set k b).get k' = if k' = k then some b else d.get k' := by
  by_cases h : k' = k
  · rw [if_pos h, h, get_set_self]
  · rw [if_neg h, get_set_of_ne h]

lemma keys_set_of_mem (h : k ∈ d.keys) : (d.set k b).keys = d.keys := by
  rw [set, dif_pos h]
  exact map_fst_replaceItems k b d.items

lemma keys_set_of_notMem (h : k ∉ d.keys) : (d.set k b).keys = d.keys ++ [k] := by
  rw [set, dif_neg h]
  exact List.map_append

lemma get_pop : (d.pop k).get k' = if k' = k then none else d.get k' := by
  by_cases h : k' = k
  · rw [if_pos h, get_eq_none]
    simp [keys, pop, h]
  · rw [if_neg h]
    refine get_congr fun b => ?_
    simp [pop, h]

lemma get_mapValues {f : β → β} : (d.mapValues f).get k = (d.get k).map f := by
  refine Option.ext fun c => ?_
  rw [← mem_items, Option.map_eq_some_iff]
  simp only [mapValues, List.mem_map, Prod.mk.injEq, ← mem_items, Prod.exists]
  constructor
  · rintro ⟨a, b, hmem, rfl, rfl⟩
    exact ⟨b, hmem, rfl⟩
  · rintro ⟨b, hmem, rfl⟩
    exact ⟨k, b, hmem, rfl, rfl⟩

lemma get_map {γ : Type*} {f : β → γ} : (d.map f).get k = (d.get k).map f := by
  refine Option.ext fun c => ?_
  rw [← mem_items, Option.map_eq_some_iff]
  simp only [map, List.mem_map, Prod.mk.injEq, ← mem_items, Prod.exists]
  constructor
  · rintro ⟨a, b, hmem, rfl, rfl⟩
    exact ⟨b, hmem, rfl⟩
  · rintro ⟨b, hmem, rfl⟩
    exact ⟨k, b, hmem, rfl, rfl⟩

lemma get_filterValues {p : β → Bool} :
    (d.filterValues p).get k = (d.get k).filter p := by
  refine Option.ext fun b => ?_
  rw [← mem_items, Option.filter_eq_some_iff, ← mem_items]
  simp [filterValues]

/-- What is picked from the entries stays, if a value is written from which the same is picked as
from the one before, or nothing if there was none. -/
lemma filterMap_set {γ : Type*} {f : κ × β → Option γ}
    (hsome : ∀ b', d.get k = some b' → f (k, b) = f (k, b'))
    (hnone : d.get k = none → f (k, b) = none) :
    (d.set k b).items.filterMap f = d.items.filterMap f := by
  rw [set]
  split
  · show (replaceItems k b d.items).filterMap f = _
    rw [replaceItems, List.filterMap_map]
    refine List.filterMap_congr fun e he => ?_
    show f (if e.1 = k then (k, b) else e) = f e
    split
    · rename_i hk
      subst hk
      exact hsome e.2 (mem_items.1 he)
    · rfl
  · rename_i hk
    show (d.items ++ [(k, b)]).filterMap f = _
    rw [List.filterMap_append, List.filterMap_cons_none (hnone (get_eq_none.2 hk)),
      List.filterMap_nil, List.append_nil]

/-- A key that is not there cannot be taken out. -/
lemma pop_of_get_eq_none (h : d.get k = none) : d.pop k = d := by
  refine ext (List.filter_eq_self.2 fun e he => decide_eq_true fun hk => ?_)
  exact get_eq_none.1 h (List.mem_map.2 ⟨e, he, hk⟩)

/-! ### What leaves a dictionary as it is -/

/-- To write what is there changes nothing. -/
lemma set_eq_self (h : d.get k = some b) : d.set k b = d := by
  have hk : k ∈ d.keys := mem_keys.2 ⟨b, h⟩
  ext1
  rw [set, dif_pos hk]
  show replaceItems k b d.items = d.items
  rw [replaceItems]
  refine (List.map_congr_left fun e he => ?_).trans (List.map_id d.items)
  split_ifs with hek
  · exact (List.inj_on_of_nodup_map d.nodup he (mem_items.2 h) hek).symm
  · rfl

lemma set_eq_self_iff : d.set k b = d ↔ d.get k = some b := by
  constructor
  · intro h
    rw [← h, get_set_self]
  · exact set_eq_self

lemma get_foldl_set_of_notMem {l : List (κ × β)} (h : k ∉ l.map Prod.fst) :
    (l.foldl (fun d e => d.set e.1 e.2) d).get k = d.get k := by
  induction l generalizing d with
  | nil => rfl
  | cons e l ih =>
    rw [List.map_cons, List.mem_cons, not_or] at h
    rw [List.foldl_cons, ih h.2, get_set_of_ne h.1]

lemma get_update_of_mem {u : Dict κ β} (h : (k, b) ∈ u.items) : (d.update u).get k = some b := by
  obtain ⟨l, hl⟩ := u
  unfold update
  induction l generalizing d with
  | nil => cases h
  | cons e l ih =>
    obtain ⟨hnot, hnodup⟩ := List.nodup_cons.1 hl
    rcases List.mem_cons.1 h with rfl | hmem
    · exact (get_foldl_set_of_notMem hnot).trans get_set_self
    · exact ih hnodup hmem

/-- To write entries that are all there changes nothing. -/
lemma update_eq_self_iff {u : Dict κ β} :
    d.update u = d ↔ ∀ e ∈ u.items, d.get e.1 = some e.2 := by
  constructor
  · intro h e he
    rw [← h]
    exact get_update_of_mem he
  · intro h
    unfold update
    generalize u.items = l at h
    induction l with
    | nil => rfl
    | cons e l ih =>
      rw [List.foldl_cons, set_eq_self (h e List.mem_cons_self)]
      exact ih fun e' he' => h e' (List.mem_cons_of_mem e he')

omit [DecidableEq κ] in
lemma mapValues_eq_self_iff {f : β → β} : d.mapValues f = d ↔ ∀ e ∈ d.items, f e.2 = e.2 := by
  rw [Dict.ext_iff]
  show d.items.map _ = d.items ↔ _
  constructor
  · intro h e he
    have hid := (List.map_inj_left (g := id)).1 (h.trans (List.map_id _).symm) e he
    exact congrArg Prod.snd hid
  · intro h
    refine (List.map_congr_left fun e he => ?_).trans (List.map_id _)
    rw [h e he]
    rfl

end Dict
