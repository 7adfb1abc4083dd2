/-
Rows that name their parents among the rows.

* `Links.exists_depth`: when every parent is there and no row is below itself, every row has a
  depth: its chain of parents ends at a row without one.
* `Links.descend`: the rows that are reached from some rows, one generation after another.
* `Links.mem_descend_iff`, `Links.nodup_descend`: below a row of a forest these are the rows below
  it, each of them once.
-/
import Mathlib.Data.List.Nodup
import Mathlib.Data.List.Perm.Basic
import Mathlib.Data.Set.Finite.List
import Mathlib.Logic.Relation
import Mathlib.Order.WellFounded
import Mathlib.Tactic.Common

open Relation (TransGen ReflTransGen)

/-- Rows with different names, and the names of their parents. -/
structure Links (κ α : Type*) where
  rows : List α
  id : α → κ
  parent : α → Option κ
  nodup : (rows.map id).Nodup

namespace Links

variable {κ α : Type*} (t : Links κ α)

/-- The second row is right under the first. -/
def Under (y x : α) : Prop := y ∈ t.rows ∧ x ∈ t.rows ∧ t.parent x = some (t.id y)

/-- Every parent is there. -/
def Closed : Prop := ∀ x ∈ t.rows, ∀ p, t.parent x = some p → ∃ y ∈ t.rows, t.id y = p

/-- No row is below itself. -/
def Acyclic : Prop := ∀ x, ¬TransGen t.Under x x

/-- The chain of a row's parents ends, after so many links, at a row without a parent. -/
inductive Depth : ℕ → α → Prop
  | root {x : α} (hx : x ∈ t.rows) (hparent : t.parent x = none) : Depth 0 x
  | under {n : ℕ} {y x : α} (hunder : t.Under y x) (hy : Depth n y) : Depth (n + 1) x

section Depth

variable {t} {x y : α} {m n : ℕ}

lemma eq_of_id (hx : x ∈ t.rows) (hy : y ∈ t.rows) (h : t.id x = t.id y) : x = y :=
  List.inj_on_of_nodup_map t.nodup hx hy h

lemma nodup_rows : t.rows.Nodup := t.nodup.of_map

/-- A row is right under one row only. -/
lemma Under.eq {y' : α} (h : t.Under y x) (h' : t.Under y' x) : y = y' :=
  eq_of_id h.1 h'.1 (Option.some.inj (h.2.2.symm.trans h'.2.2))

lemma Depth.mem (h : t.Depth n x) : x ∈ t.rows := by
  cases h with
  | root hx _ => exact hx
  | under hunder _ => exact hunder.2.1

lemma Depth.unique (h : t.Depth n x) (h' : t.Depth m x) : n = m := by
  induction h generalizing m with
  | root hx hparent =>
    cases h' with
    | root _ _ => rfl
    | under hunder _ => cases hparent.symm.trans hunder.2.2
  | under hunder _ ih =>
    cases h' with
    | root _ hparent => cases hparent.symm.trans hunder.2.2
    | under hunder' hy' =>
      obtain rfl := hunder.eq hunder'
      exact congrArg (· + 1) (ih hy')

lemma Depth.of_transGen (h : TransGen t.Under y x) (hy : t.Depth n y) : ∃ m, n < m ∧ t.Depth m x := by
  induction h with
  | single hunder => exact ⟨n + 1, Nat.lt_succ_self n, .under hunder hy⟩
  | tail _ hunder ih =>
    obtain ⟨m, hlt, hm⟩ := ih
    exact ⟨m + 1, Nat.lt_succ_of_lt hlt, .under hunder hm⟩

lemma Depth.of_reflTransGen (h : ReflTransGen t.Under y x) (hy : t.Depth n y) :
    ∃ m, n ≤ m ∧ t.Depth m x := by
  rcases Relation.reflTransGen_iff_eq_or_transGen.1 h with rfl | h
  · exact ⟨n, le_refl n, hy⟩
  · obtain ⟨m, hlt, hm⟩ := hy.of_transGen h
    exact ⟨m, hlt.le, hm⟩

lemma acyclic_of_depth (h : ∀ x ∈ t.rows, ∃ n, t.Depth n x) : t.Acyclic := by
  intro x hx
  obtain ⟨z, -, hlast⟩ := Relation.TransGen.tail'_iff.1 hx
  obtain ⟨n, hn⟩ := h x hlast.2.1
  obtain ⟨m, hlt, hm⟩ := hn.of_transGen hx
  exact hlt.ne (hn.unique hm)

lemma closed_of_depth (h : ∀ x ∈ t.rows, ∃ n, t.Depth n x) : t.Closed := by
  intro x hx p hp
  obtain ⟨n, hn⟩ := h x hx
  cases hn with
  | root _ hparent => cases hparent.symm.trans hp
  | under hunder _ =>
    exact ⟨_, hunder.1, Option.some.inj (hunder.2.2.symm.trans hp)⟩

/-- No row is below itself when parents have smaller names. -/
lemma acyclic_of_lt [Preorder κ] (h : ∀ x ∈ t.rows, ∀ p, t.parent x = some p → p < t.id x) :
    t.Acyclic := by
  have hlt : ∀ y x, TransGen t.Under y x → t.id y < t.id x := by
    intro y x hpath
    induction hpath with
    | single hunder => exact h _ hunder.2.1 _ hunder.2.2
    | tail _ hunder ih => exact ih.trans (h _ hunder.2.1 _ hunder.2.2)
  exact fun x hpath => lt_irrefl _ (hlt x x hpath)

/-- There are finitely many rows, so that without a cycle every chain of parents ends. -/
lemma wellFounded_under (h : t.Acyclic) :
    WellFounded fun y x : {x // x ∈ t.rows} => t.Under y.1 x.1 := by
  have : Finite {x // x ∈ t.rows} := (List.finite_toSet t.rows).to_subtype
  have hsub : ∀ y x : {x // x ∈ t.rows}, t.Under y.1 x.1 → TransGen t.Under y.1 x.1 :=
    fun _ _ => .single
  have htrans : IsTrans {x // x ∈ t.rows} fun y x => TransGen t.Under y.1 x.1 :=
    ⟨fun _ _ _ => .trans⟩
  have hirrefl : Std.Irrefl fun y x : {x // x ∈ t.rows} => TransGen t.Under y.1 x.1 :=
    ⟨fun x => h x.1⟩
  exact Subrelation.wf (hsub _ _)
    (Finite.wellFounded_of_trans_of_irrefl fun y x : {x // x ∈ t.rows} => TransGen t.Under y.1 x.1)

/-- **In a forest every row has a depth.** -/
lemma exists_depth (hclosed : t.Closed) (hacyclic : t.Acyclic) (hx : x ∈ t.rows) :
    ∃ n, t.Depth n x := by
  have hwf := wellFounded_under hacyclic
  suffices h : ∀ x : {x // x ∈ t.rows}, ∃ n, t.Depth n x.1 from h ⟨x, hx⟩
  intro x
  induction x using hwf.induction with
  | _ x ih =>
    cases hparent : t.parent x.1 with
    | none => exact ⟨0, .root x.2 hparent⟩
    | some p =>
      obtain ⟨y, hy, rfl⟩ := hclosed x.1 x.2 p hparent
      have hunder : t.Under y x.1 := ⟨hy, x.2, hparent⟩
      obtain ⟨n, hn⟩ := ih ⟨y, hy⟩ hunder
      exact ⟨n + 1, .under hunder hn⟩

/-- There is a greatest depth. -/
lemma exists_bound (h : ∀ x ∈ t.rows, ∃ n, t.Depth n x) :
    ∃ N, ∀ n x, t.Depth n x → n ≤ N := by
  suffices hlist : ∀ l ⊆ t.rows, ∃ N, ∀ x ∈ l, ∀ n, t.Depth n x → n ≤ N by
    obtain ⟨N, hN⟩ := hlist t.rows (List.Subset.refl _)
    exact ⟨N, fun n x hn => hN x hn.mem n hn⟩
  intro l hl
  induction l with
  | nil => exact ⟨0, fun x hx => nomatch hx⟩
  | cons a l ih =>
    obtain ⟨N, hN⟩ := ih fun x hx => hl (List.mem_cons_of_mem a hx)
    obtain ⟨m, hm⟩ := h a (hl List.mem_cons_self)
    refine ⟨max N m, fun x hx n hn => ?_⟩
    rcases List.mem_cons.1 hx with rfl | hx
    · rw [hn.unique hm]
      exact le_max_right N m
    · exact (hN x hx n hn).trans (le_max_left N m)

/-- On the way down to a row every depth is passed. -/
lemma Depth.exists_between {k : ℕ} (hy : t.Depth m y) (hpath : ReflTransGen t.Under y x)
    (hx : t.Depth n x) (hmk : m ≤ k) (hkn : k ≤ n) :
    ∃ z, ReflTransGen t.Under y z ∧ t.Depth k z := by
  induction hpath generalizing n with
  | refl =>
    obtain rfl := hy.unique hx
    exact ⟨y, .refl, le_antisymm hmk hkn ▸ hy⟩
  | @tail z x hyz hunder ih =>
    obtain ⟨l, -, hz⟩ := hy.of_reflTransGen hyz
    obtain rfl := (Depth.under hunder hz).unique hx
    by_cases hk : k = l + 1
    · exact ⟨x, hyz.tail hunder, hk ▸ hx⟩
    · exact ih hz (by omega)

end Depth

/-! ### Generations -/

variable [DecidableEq κ]

/-- The rows whose parents are among the names. -/
def childrenOf (ks : List κ) : List α := t.rows.filter fun x => (t.parent x).any fun p => p ∈ ks

/-- The rows that are so many links below the rows of a list. -/
def generation : ℕ → List α → List α
  | 0, l => l
  | n + 1, l => generation n (t.childrenOf (l.map t.id))

/-- The rows of a list and those below them, for so many generations in all. -/
def descend : ℕ → List α → List α
  | 0, _ => []
  | n + 1, l => l ++ descend n (t.childrenOf (l.map t.id))

section Generations

variable {t} {x y : α} {l l' : List α} {ks ks' : List κ} {n d : ℕ}

lemma mem_childrenOf : x ∈ t.childrenOf ks ↔ x ∈ t.rows ∧ ∃ p ∈ ks, t.parent x = some p := by
  rw [childrenOf, List.mem_filter]
  cases t.parent x <;> simp

lemma mem_childrenOf_map (hl : l ⊆ t.rows) :
    x ∈ t.childrenOf (l.map t.id) ↔ ∃ y ∈ l, t.Under y x := by
  rw [mem_childrenOf]
  constructor
  · rintro ⟨hx, p, hp, hparent⟩
    obtain ⟨y, hy, rfl⟩ := List.mem_map.1 hp
    exact ⟨y, hy, hl hy, hx, hparent⟩
  · rintro ⟨y, hy, -, hx, hparent⟩
    exact ⟨hx, _, List.mem_map_of_mem hy, hparent⟩

lemma childrenOf_subset : t.childrenOf ks ⊆ t.rows := fun _ hx => (List.mem_filter.1 hx).1

lemma nodup_childrenOf : ((t.childrenOf ks).map t.id).Nodup :=
  (List.filter_sublist.map t.id).nodup t.nodup

lemma childrenOf_congr (h : ∀ k, k ∈ ks ↔ k ∈ ks') : t.childrenOf ks = t.childrenOf ks' := by
  refine List.filter_congr fun x _ => ?_
  cases t.parent x <;> simp [h]

@[simp] lemma childrenOf_nil : t.childrenOf [] = [] :=
  List.filter_eq_nil_iff.2 fun x _ => by cases t.parent x <;> simp

/-- The rows under some names or others, none of which is among both. -/
lemma childrenOf_append_perm (h : ∀ k ∈ ks, k ∉ ks') :
    (t.childrenOf (ks ++ ks')).Perm (t.childrenOf ks ++ t.childrenOf ks') := by
  unfold childrenOf
  induction t.rows with
  | nil => exact .nil
  | cons x rows ih =>
    rw [List.filter_cons, List.filter_cons, List.filter_cons]
    cases t.parent x with
    | none => simpa using ih
    | some p =>
      by_cases hp : p ∈ ks
      · simpa [hp, h p hp] using ih
      · by_cases hp' : p ∈ ks'
        · simpa [hp, hp'] using (ih.cons x).trans List.perm_middle.symm
        · simpa [hp, hp'] using ih

lemma descend_perm (h : l.Perm l') : (t.descend n l).Perm (t.descend n l') := by
  cases n with
  | zero => exact .nil
  | succ n =>
    rw [descend, descend, childrenOf_congr fun k => (h.map t.id).mem_iff]
    exact h.append_right _

@[simp] lemma descend_nil : t.descend n [] = [] := by
  induction n with
  | zero => rfl
  | succ n ih => rw [descend, List.map_nil, childrenOf_nil, ih, List.append_nil]

lemma descend_append_perm (h : ((l ++ l').map t.id).Nodup) :
    (t.descend n (l ++ l')).Perm (t.descend n l ++ t.descend n l') := by
  induction n generalizing l l' with
  | zero => exact .nil
  | succ n ih =>
    rw [List.map_append] at h
    have hchildren := childrenOf_append_perm (t := t) fun k hk hk' =>
      (List.nodup_append.1 h).2.2 k hk k hk' rfl
    have hnodup := (hchildren.map t.id).nodup_iff.1 nodup_childrenOf
    rw [descend, descend, descend, List.map_append]
    refine ((descend_perm hchildren).trans (ih hnodup)).append_left (l ++ l') |>.trans ?_
    rw [List.append_assoc, List.append_assoc]
    refine .append_left l ?_
    rw [← List.append_assoc, ← List.append_assoc]
    exact List.perm_append_comm.append_right _

/-- **Below several lists are the rows below each of them.** -/
lemma descend_flatten_perm {ls : List (List α)} (h : (ls.flatten.map t.id).Nodup) :
    (t.descend n ls.flatten).Perm (ls.flatMap (t.descend n)) := by
  induction ls with
  | nil => rw [List.flatten_nil, descend_nil, List.flatMap_nil]
  | cons l ls ih =>
    rw [List.flatten_cons] at h ⊢
    rw [List.flatMap_cons]
    refine (descend_append_perm h).trans (.append_left _ (ih ?_))
    rw [List.map_append] at h
    exact h.of_append_right

lemma mem_generation_iff_exists (hl : l ⊆ t.rows) :
    x ∈ t.generation n l ↔ ∃ y ∈ l, x ∈ t.generation n [y] := by
  induction n generalizing l with
  | zero => simp [generation]
  | succ n ih =>
    have hone : ∀ y ∈ l, x ∈ t.generation (n + 1) [y] ↔
        ∃ c, t.Under y c ∧ x ∈ t.generation n [c] := by
      intro y hy
      have hmem : ∀ c, c ∈ t.childrenOf ([y].map t.id) ↔ t.Under y c := fun c => by
        have h := mem_childrenOf_map (x := c) (l := [y]) fun z hz => by
          rw [List.mem_singleton.1 hz]
          exact hl hy
        simpa using h
      rw [generation, ih childrenOf_subset]
      simp only [hmem]
    rw [generation, ih childrenOf_subset]
    simp only [mem_childrenOf_map hl]
    constructor
    · rintro ⟨c, ⟨y, hy, hunder⟩, hx⟩
      exact ⟨y, hy, (hone y hy).2 ⟨c, hunder, hx⟩⟩
    · rintro ⟨y, hy, hx⟩
      obtain ⟨c, hunder, hx⟩ := (hone y hy).1 hx
      exact ⟨c, ⟨y, hy, hunder⟩, hx⟩

/-- A generation is empty when it is for each row. -/
lemma generation_eq_nil_iff (hl : l ⊆ t.rows) :
    t.generation n l = [] ↔ ∀ y ∈ l, t.generation n [y] = [] := by
  simp only [List.eq_nil_iff_forall_not_mem, mem_generation_iff_exists hl, not_exists, not_and]
  exact ⟨fun h y hy x => h x y hy, fun h x y hy => h y hy x⟩

lemma mem_descend : x ∈ t.descend n l ↔ ∃ k < n, x ∈ t.generation k l := by
  induction n generalizing l with
  | zero => simp [descend]
  | succ n ih =>
    rw [descend, List.mem_append, ih]
    constructor
    · rintro (hx | ⟨k, hk, hx⟩)
      · exact ⟨0, Nat.zero_lt_succ n, hx⟩
      · exact ⟨k + 1, Nat.succ_lt_succ hk, hx⟩
    · rintro ⟨k, hk, hx⟩
      cases k with
      | zero => exact .inl hx
      | succ k => exact .inr ⟨k, Nat.lt_of_succ_lt_succ hk, hx⟩

/-! ### In a forest -/

lemma depth_childrenOf (hl : ∀ y ∈ l, t.Depth d y) (hx : x ∈ t.childrenOf (l.map t.id)) :
    t.Depth (d + 1) x := by
  obtain ⟨y, hy, hunder⟩ := (mem_childrenOf_map fun y hy => (hl y hy).mem).1 hx
  exact .under hunder (hl y hy)

/-- A generation of rows of one depth: the rows below them of the depth that is due. -/
lemma mem_generation (hl : ∀ y ∈ l, t.Depth d y) :
    x ∈ t.generation n l ↔ (∃ y ∈ l, ReflTransGen t.Under y x) ∧ t.Depth (d + n) x := by
  induction n generalizing l d with
  | zero =>
    constructor
    · exact fun hx => ⟨⟨x, hx, .refl⟩, hl x hx⟩
    · rintro ⟨⟨y, hy, hpath⟩, hdepth⟩
      rcases Relation.reflTransGen_iff_eq_or_transGen.1 hpath with rfl | hpath
      · exact hy
      · obtain ⟨m, hlt, hm⟩ := (hl y hy).of_transGen hpath
        exact absurd (hdepth.unique hm) hlt.ne
  | succ n ih =>
    rw [generation, ih fun y hy => depth_childrenOf hl hy, show d + 1 + n = d + (n + 1) by omega]
    refine and_congr_left fun hdepth => ?_
    constructor
    · rintro ⟨c, hc, hpath⟩
      obtain ⟨y, hy, hunder⟩ := (mem_childrenOf_map fun y hy => (hl y hy).mem).1 hc
      exact ⟨y, hy, hpath.head hunder⟩
    · rintro ⟨y, hy, hpath⟩
      rcases Relation.ReflTransGen.cases_head hpath with rfl | ⟨c, hunder, hpath⟩
      · have := (hl y hy).unique hdepth
        omega
      · exact ⟨c, (mem_childrenOf_map fun y hy => (hl y hy).mem).2 ⟨y, hy, hunder⟩, hpath⟩

lemma le_depth_of_mem_descend (hl : ∀ y ∈ l, t.Depth d y) (hx : x ∈ t.descend n l) :
    ∃ m, d ≤ m ∧ t.Depth m x := by
  obtain ⟨k, -, hx⟩ := mem_descend.1 hx
  exact ⟨d + k, Nat.le_add_right d k, ((mem_generation hl).1 hx).2⟩

/-- **Below rows of one depth every row is reached once.** -/
lemma nodup_descend (hl : ∀ y ∈ l, t.Depth d y) (hnodup : l.Nodup) : (t.descend n l).Nodup := by
  induction n generalizing l d with
  | zero => exact List.nodup_nil
  | succ n ih =>
    have hchildren : ∀ y ∈ t.childrenOf (l.map t.id), t.Depth (d + 1) y :=
      fun y hy => depth_childrenOf hl hy
    rw [descend, List.nodup_append]
    refine ⟨hnodup, ih hchildren nodup_childrenOf.of_map, ?_⟩
    rintro x hx _ hx' rfl
    obtain ⟨m, hle, hm⟩ := le_depth_of_mem_descend hchildren hx'
    have := (hl x hx).unique hm
    omega

lemma depth_childrenOf_singleton {r : α} (hr : t.Depth d r) (hx : x ∈ t.childrenOf [t.id r]) :
    t.Depth (d + 1) x := by
  refine depth_childrenOf (l := [r]) (fun y hy => ?_) hx
  rwa [List.mem_singleton.1 hy]

/-- What is below the children of a row is below the row. -/
lemma exists_childrenOf_iff {r : α} (hr : r ∈ t.rows) :
    (∃ c ∈ t.childrenOf [t.id r], ReflTransGen t.Under c x) ↔ TransGen t.Under r x := by
  have hchild : ∀ c, c ∈ t.childrenOf [t.id r] ↔ t.Under r c := by
    intro c
    have h := mem_childrenOf_map (x := c) (l := [r]) fun y hy => by rwa [List.mem_singleton.1 hy]
    simpa using h
  rw [Relation.TransGen.head'_iff]
  exact exists_congr fun c => and_congr_left fun _ => hchild c

/-- **The rows that are reached from a row's children are those below it**, when the generations
are enough. -/
lemma mem_descend_iff {r : α} (hr : t.Depth d r) (hn : ∀ m x, t.Depth m x → m ≤ d + n) :
    x ∈ t.descend n (t.childrenOf [t.id r]) ↔ TransGen t.Under r x := by
  have hchildren : ∀ y ∈ t.childrenOf [t.id r], t.Depth (d + 1) y :=
    fun y hy => depth_childrenOf_singleton hr hy
  rw [mem_descend, ← exists_childrenOf_iff hr.mem]
  constructor
  · rintro ⟨k, -, hx⟩
    exact ((mem_generation hchildren).1 hx).1
  · rintro ⟨c, hc, hpath⟩
    obtain ⟨m, hle, hm⟩ := (hchildren c hc).of_reflTransGen hpath
    have hbound := hn m x hm
    refine ⟨m - (d + 1), by omega, (mem_generation hchildren).2 ⟨⟨c, hc, hpath⟩, ?_⟩⟩
    rwa [show d + 1 + (m - (d + 1)) = m by omega]

/-- A generation is empty when no row is as deep. -/
lemma generation_eq_nil {r : α} (hr : t.Depth d r) (hn : ∀ m x, t.Depth m x → m ≤ d + n) :
    t.generation n (t.childrenOf [t.id r]) = [] := by
  refine List.eq_nil_iff_forall_not_mem.2 fun x hx => ?_
  have hdepth := ((mem_generation fun y hy => depth_childrenOf_singleton hr hy).1 hx).2
  have := hn _ x hdepth
  omega

end Generations

end Links
