/-
Trees whose nodes have any number of children, in the order in which a search goes through them.

* `Rose.subtrees`: a node comes before what is below it, and what is below it before the next node.
* `Rose.find_eq`: the search for a node that meets a test finds the first such subtree.
* `Rose.find_eq_some_iff`: under a key that no two nodes share, the one subtree of that key.
* `Rose.labels_hang_perm`: what is hung under a node joins the labels, and none is lost.
-/
import Mathlib.Data.List.Basic
import Mathlib.Data.List.Nodup
import Mathlib.Data.List.Perm.Basic
import Mathlib.Tactic.Common

/-- A tree whose nodes carry labels. -/
inductive Rose (α : Type*) where
  | node (label : α) (children : List (Rose α))

namespace Rose

variable {α β κ : Type*}

def label : Rose α → α
  | node a _ => a

def children : Rose α → List (Rose α)
  | node _ ts => ts

@[simp] lemma label_node (a : α) (ts : List (Rose α)) : (node a ts).label = a := rfl

@[simp] lemma children_node (a : α) (ts : List (Rose α)) : (node a ts).children = ts := rfl

mutual

/-- The tree itself and what is below it. -/
def subtreesOf : Rose α → List (Rose α)
  | node a ts => node a ts :: subtrees ts

/-- The subtrees of several trees. -/
def subtrees : List (Rose α) → List (Rose α)
  | [] => []
  | t :: ts => subtreesOf t ++ subtrees ts

end

/-- The labels of the subtrees. -/
def labels (ts : List (Rose α)) : List α := (subtrees ts).map label

mutual

/-- Every label is changed by a function of it. -/
def map (f : α → β) : Rose α → Rose β
  | node a ts => node (f a) (mapAll f ts)

def mapAll (f : α → β) : List (Rose α) → List (Rose β)
  | [] => []
  | t :: ts => map f t :: mapAll f ts

end

mutual

/-- The search in a tree, for a node that meets the test. -/
def findOf (p : α → Bool) : Rose α → Option (Rose α)
  | node a ts => if p a then some (node a ts) else find p ts

/-- The search in several trees. -/
def find (p : α → Bool) : List (Rose α) → Option (Rose α)
  | [] => none
  | t :: ts => (findOf p t).or (find p ts)

end

/-- The labels of the topmost nodes are changed. -/
def relabel (f : α → α) (ts : List (Rose α)) : List (Rose α) :=
  ts.map fun t => node (f t.label) t.children

/-- Other trees come first among the children of the node at a place. -/
def hang (i : ℕ) (next ts : List (Rose α)) : List (Rose α) :=
  ts.modify i fun t => node t.label (next ++ t.children)

section

variable {a : α} {s t : Rose α} {ts us : List (Rose α)} {p : α → Bool} {f : α → α} {i : ℕ}

/-! ### Subtrees -/

@[simp] lemma subtrees_nil : subtrees ([] : List (Rose α)) = [] := rfl

@[simp] lemma labels_nil : labels ([] : List (Rose α)) = [] := rfl

lemma subtrees_cons : subtrees (t :: ts) = t :: (subtrees t.children ++ subtrees ts) := by
  cases t
  rfl

lemma labels_cons : labels (t :: ts) = t.label :: (labels t.children ++ labels ts) := by
  rw [labels, subtrees_cons, List.map_cons, List.map_append, labels, labels]

lemma subtrees_append : subtrees (ts ++ us) = subtrees ts ++ subtrees us := by
  induction ts with
  | nil => rfl
  | cons t ts ih =>
    rw [List.cons_append, subtrees_cons, subtrees_cons, ih, List.cons_append, List.append_assoc]

lemma labels_append : labels (ts ++ us) = labels ts ++ labels us := by
  rw [labels, subtrees_append, List.map_append, labels, labels]

lemma labels_flatten {tss : List (List (Rose α))} : labels tss.flatten = tss.flatMap labels := by
  induction tss with
  | nil => rfl
  | cons ts tss ih => rw [List.flatten_cons, labels_append, ih, List.flatMap_cons]

lemma labels_eq_flatMap : labels ts = ts.flatMap fun t => t.label :: labels t.children := by
  induction ts with
  | nil => rfl
  | cons t ts ih => rw [labels_cons, ih, List.flatMap_cons, List.cons_append]

mutual

lemma subtreesOf_map (g : α → β) : (t : Rose α) →
    subtreesOf (t.map g) = (subtreesOf t).map (map g)
  | node a ts => by
    rw [map, subtreesOf, subtreesOf, subtrees_mapAll g ts, List.map_cons, map]

lemma subtrees_mapAll (g : α → β) : (ts : List (Rose α)) →
    subtrees (mapAll g ts) = (subtrees ts).map (map g)
  | [] => rfl
  | t :: ts => by
    rw [mapAll, subtrees, subtrees, subtreesOf_map g t, subtrees_mapAll g ts, List.map_append]

end

lemma label_map (g : α → β) : (t.map g).label = g t.label := by
  cases t
  rfl

lemma labels_mapAll (g : α → β) : labels (mapAll g ts) = (labels ts).map g := by
  rw [labels, labels, subtrees_mapAll, List.map_map, List.map_map]
  exact List.map_congr_left fun t _ => label_map g

/-! ### The search -/

mutual

lemma findOf_eq : (t : Rose α) → findOf p t = (subtreesOf t).find? fun s => p s.label
  | node a ts => by
    rw [findOf, subtreesOf, List.find?_cons, label_node, find_eq ts]
    cases p a <;> rfl

/-- **The search finds the first subtree** whose label meets the test. -/
lemma find_eq : (ts : List (Rose α)) → find p ts = (subtrees ts).find? fun s => p s.label
  | [] => rfl
  | t :: ts => by
    rw [find, subtrees, List.find?_append, findOf_eq t, find_eq ts]

end

/-- **Under a key that no two nodes share**, the search finds the subtree of that key. -/
lemma find_eq_some_iff [DecidableEq κ] {key : α → κ} (hkey : ((labels ts).map key).Nodup) {k : κ} :
    find (fun a => key a = k) ts = some s ↔ s ∈ subtrees ts ∧ key s.label = k := by
  rw [find_eq]
  constructor
  · intro h
    have htest := List.find?_some h
    exact ⟨List.mem_of_find?_eq_some h, of_decide_eq_true htest⟩
  · rintro ⟨hs, rfl⟩
    rw [labels, List.map_map] at hkey
    cases hfind : (subtrees ts).find? fun t => decide (key t.label = key s.label) with
    | none => exact absurd (decide_eq_true rfl) (List.find?_eq_none.1 hfind s hs)
    | some t =>
      have htest := List.find?_some hfind
      have hsame : key t.label = key s.label := of_decide_eq_true htest
      exact congrArg some (List.inj_on_of_nodup_map hkey (List.mem_of_find?_eq_some hfind) hs hsame)

/-! ### Hanging -/

lemma labels_relabel {γ : Type*} {g : α → γ} (hg : ∀ a, g (f a) = g a) :
    (labels (relabel f ts)).map g = (labels ts).map g := by
  induction ts with
  | nil => rfl
  | cons t ts ih =>
    rw [relabel, List.map_cons, ← relabel, labels_cons, labels_cons, List.map_cons, List.map_cons,
      List.map_append, List.map_append, ih, label_node, children_node, hg]

/-- **Nothing is lost when trees are hung** under a node that there is. -/
lemma labels_hang_perm (hi : i < ts.length) :
    (labels (hang i us ts)).Perm (labels us ++ labels ts) := by
  induction ts generalizing i with
  | nil => cases hi
  | cons t ts ih =>
    cases i with
    | zero =>
      rw [hang, List.modify_zero_cons, labels_cons, labels_cons, label_node, children_node,
        labels_append, List.append_assoc]
      exact List.perm_middle.symm
    | succ i =>
      rw [hang, List.modify_succ_cons, ← hang, labels_cons, labels_cons]
      refine .trans (.cons _ (.append_left _ (ih (Nat.lt_of_succ_lt_succ hi)))) ?_
      refine .trans (.cons _ ?_) List.perm_middle.symm
      rw [← List.append_assoc, ← List.append_assoc]
      exact List.perm_append_comm.append_right _

end

end Rose
