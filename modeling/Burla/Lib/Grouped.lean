/-
Reading a list in pages, where for each page it is gone through again from its beginning, in groups,
and in a group the items of one kind come first.

* `Grouped.page`: what is between two positions, and whether there is more.
* `Grouped.Aligned`: on every page, either no item is of the kind, or all before the page are.
* `Grouped.readsAll_iff`: whatever the groups are, every item is read, once, if and only if the list
  is aligned and one can see beyond a page, or there is only one.
-/
import Burla.Lib.Keyset
import Mathlib.Tactic.Common

namespace Grouped

variable {α β : Type*} (first : α → Bool)

/-! ### Groups -/

/-- In a group, the items of the kind come first. -/
def regroup (groups : List (List α)) : List α :=
  groups.flatMap fun g => g.filter first ++ g.filter fun a => !first a

/-- What is between two positions, and where to go on when there is more. -/
def page (groups : List (List α)) (skip size : ℕ) : List α × Option ℕ :=
  let l := regroup first groups
  ((l.take (skip + size)).drop skip, if skip + size < l.length then some (skip + size) else none)

section Groups

variable {first} {groups : List (List α)} {l : List α}

lemma regroup_perm : (regroup first groups).Perm groups.flatten := by
  induction groups with
  | nil => exact .nil
  | cons g groups ih => exact (List.filter_append_perm first g).append ih

lemma length_regroup : (regroup first groups).length = groups.flatten.length :=
  regroup_perm.length_eq

/-- Nothing changes its place in groups of one item. -/
lemma regroup_map_singleton : regroup first (l.map fun a => [a]) = l := by
  induction l with
  | nil => rfl
  | cons a l ih =>
    have hone : [a].filter first ++ [a].filter (fun a => !first a) = [a] := by
      cases h : first a <;> simp [h]
    rw [regroup] at ih ⊢
    rw [List.map_cons, List.flatMap_cons, ih, hone, List.singleton_append]

/-- Two parts that are each permuted. -/
lemma take_append_perm {l₁ l₂ : List α} {n : ℕ} (h₁ : l₁.Perm (l.take n))
    (h₂ : l₂.Perm (l.drop n)) : ((l₁ ++ l₂).take n).Perm (l.take n) := by
  have hlength₁ := h₁.length_eq
  have hlength₂ := h₂.length_eq
  rw [List.length_take] at hlength₁
  rw [List.length_drop] at hlength₂
  have hnil : l₂.take (n - l₁.length) = [] := by
    refine List.eq_nil_of_length_eq_zero ?_
    rw [List.length_take]
    omega
  rw [List.take_append, hnil, List.append_nil, List.take_of_length_le (by omega)]
  exact h₁

/-- In a group nothing crosses a position when only items of the kind are before it, or none after
it. -/
lemma take_group_perm {n : ℕ}
    (h : (∀ a ∈ l.take n, first a = true) ∨ ∀ a ∈ l.drop n, first a = false) :
    ((l.filter first ++ l.filter fun a => !first a).take n).Perm (l.take n) := by
  rcases h with h | h
  · have hall : (l.take n).filter first = l.take n := List.filter_eq_self.2 h
    have hnone : (l.take n).filter (fun a => !first a) = [] :=
      List.filter_eq_nil_iff.2 fun a ha => by simp [h a ha]
    have hsplit : l.filter first ++ l.filter (fun a => !first a) =
        l.take n ++ ((l.drop n).filter first ++ (l.drop n).filter fun a => !first a) := by
      conv_lhs => rw [← List.take_append_drop n l, List.filter_append, List.filter_append, hall,
        hnone, List.nil_append, List.append_assoc]
    rw [hsplit]
    exact take_append_perm (.refl _) (List.filter_append_perm first _)
  · have hall : (l.drop n).filter (fun a => !first a) = l.drop n :=
      List.filter_eq_self.2 fun a ha => by simp [h a ha]
    have hnone : (l.drop n).filter first = [] :=
      List.filter_eq_nil_iff.2 fun a ha => by simp [h a ha]
    have hsplit : l.filter first ++ l.filter (fun a => !first a) =
        ((l.take n).filter first ++ (l.take n).filter fun a => !first a) ++ l.drop n := by
      conv_lhs => rw [← List.take_append_drop n l, List.filter_append, List.filter_append, hall,
        hnone, List.append_nil, ← List.append_assoc]
    rw [hsplit]
    exact take_append_perm (List.filter_append_perm first _) (.refl _)

lemma take_regroup_perm {n : ℕ} (h : (∀ a ∈ groups.flatten.take n, first a = true) ∨
    ∀ a ∈ groups.flatten.drop n, first a = false) :
    ((regroup first groups).take n).Perm (groups.flatten.take n) := by
  induction groups generalizing n with
  | nil => rw [regroup, List.flatMap_nil, List.flatten_nil]
  | cons g groups ih =>
    have hflatten : (g ++ groups.flatten).take n = g.take n ++ groups.flatten.take (n - g.length) :=
      List.take_append
    rw [List.flatten_cons, hflatten, List.drop_append] at h
    have htake : (regroup first (g :: groups)).take n =
        (g.filter first ++ g.filter fun a => !first a).take n ++
          (regroup first groups).take (n - g.length) := by
      rw [regroup, List.flatMap_cons, List.take_append, (List.filter_append_perm first g).length_eq,
        regroup]
    rw [htake, List.flatten_cons, hflatten]
    refine (take_group_perm ?_).append (ih ?_)
    · exact h.imp (fun h a ha => h a (List.mem_append_left _ ha))
        fun h a ha => h a (List.mem_append_left _ ha)
    · exact h.imp (fun h a ha => h a (List.mem_append_right _ ha))
        fun h a ha => h a (List.mem_append_right _ ha)

end Groups

/-! ### Reading on -/

section Reading

variable (items : List α) (size hidden : ℕ)

/-- On every page, either no item is of the kind, or all before the page are. -/
def Aligned : Prop :=
  ∀ k, (∀ a ∈ items.take (k * size), first a = true) ∨
    ∀ a ∈ (items.drop (k * size)).take size, first a = false

/-- Each time, what one asks for comes in groups; hidden items are counted and not seen. -/
def IsGroups (groups : ℕ → ℕ → List (List α)) : Prop :=
  ∀ j n, (groups j n).flatten = items.take (n - hidden)

/-- One item more than the page is long is asked for. -/
def ask (groups : ℕ → ℕ → List (List α)) (j : ℕ) (c : Option ℕ) : Option (List α × Option ℕ) :=
  some (page first (groups j (c.getD 0 + size + 1)) (c.getD 0) size)

/-- Going on until there is no more gives every item once, whatever the groups are. -/
def ReadsAll : Prop :=
  ∀ groups, IsGroups items hidden groups →
    ∃ fuel l, Keyset.follow (ask first size groups) fuel 0 none = some l ∧ l.Perm items

/-- What is answered on a page. -/
def answer (groups : ℕ → ℕ → List (List α)) (j : ℕ) : List α :=
  (page first (groups j (j * size + size + 1)) (j * size) size).1

/-- What should be. -/
def block (j : ℕ) : List α := (items.drop (j * size)).take size

variable {first items size hidden} {groups : ℕ → ℕ → List (List α)}

lemma block_append_drop (j : ℕ) :
    block items size j ++ items.drop ((j + 1) * size) = items.drop (j * size) := by
  rw [block, Nat.add_mul, Nat.one_mul, ← List.drop_drop, List.take_append_drop]

lemma answer_eq (j : ℕ) : answer first size groups j =
    block (regroup first (groups j (j * size + size + 1))) size j := by
  rw [answer, page, block, List.drop_take, Nat.add_sub_cancel_left]

lemma take_add_eq (j : ℕ) :
    items.take (j * size + size) = items.take (j * size) ++ block items size j := by
  rw [block, List.take_add]

lemma getD_none : (none : Option ℕ).getD 0 = 0 * size := (Nat.zero_mul size).symm

lemma follow_of_lt (h : IsGroups items 0 groups) {j : ℕ} {c : Option ℕ} (hc : c.getD 0 = j * size)
    (hlt : j * size + size < items.length) (fuel : ℕ) :
    Keyset.follow (ask first size groups) (fuel + 1) j c =
      (Keyset.follow (ask first size groups) fuel (j + 1) (some ((j + 1) * size))).map
        (answer first size groups j ++ ·) := by
  have hlength : j * size + size < (regroup first (groups j (j * size + size + 1))).length := by
    rw [length_regroup, h, List.length_take]
    omega
  rw [Keyset.follow, ask, Option.bind_some, hc, page, if_pos hlength, Nat.add_mul, Nat.one_mul]
  rfl

lemma follow_of_le (h : IsGroups items hidden groups) {j : ℕ} {c : Option ℕ}
    (hc : c.getD 0 = j * size) (hle : items.length ≤ j * size + size ∨ 0 < hidden) (fuel : ℕ) :
    Keyset.follow (ask first size groups) (fuel + 1) j c = some (answer first size groups j) := by
  have hlength : ¬j * size + size < (regroup first (groups j (j * size + size + 1))).length := by
    rw [length_regroup, h, List.length_take]
    omega
  rw [Keyset.follow, ask, Option.bind_some, hc, page, if_neg hlength]
  rfl

lemma exists_follow (h : IsGroups items 0 groups) (hsize : 0 < size) {fuel j : ℕ} {c : Option ℕ}
    (hc : c.getD 0 = j * size) (hfuel : items.length - j * size < fuel) :
    ∃ l, Keyset.follow (ask first size groups) fuel j c = some l := by
  induction fuel generalizing j c with
  | zero => omega
  | succ fuel ih =>
    rcases Nat.lt_or_ge (j * size + size) items.length with hlt | hge
    · have hnext : (j + 1) * size = j * size + size := by rw [Nat.add_mul, Nat.one_mul]
      obtain ⟨l, hl⟩ := ih (j := j + 1) (c := some ((j + 1) * size)) rfl (by omega)
      exact ⟨answer first size groups j ++ l, by rw [follow_of_lt h hc hlt, hl, Option.map_some]⟩
    · exact ⟨_, follow_of_le h hc (.inl hge) fuel⟩

/-- When the answers are as they should be, what is left is read. -/
lemma perm_of_answers (h : IsGroups items 0 groups) {fuel j : ℕ} {c : Option ℕ} {l : List α}
    (hc : c.getD 0 = j * size)
    (hfollow : Keyset.follow (ask first size groups) fuel j c = some l)
    (hanswers : ∀ i, j ≤ i → (answer first size groups i).Perm (block items size i)) :
    l.Perm (items.drop (j * size)) := by
  induction fuel generalizing j c l with
  | zero => cases hfollow
  | succ fuel ih =>
    rcases Nat.lt_or_ge (j * size + size) items.length with hlt | hge
    · rw [follow_of_lt h hc hlt] at hfollow
      obtain ⟨rest, hrest, rfl⟩ := Option.map_eq_some_iff.1 hfollow
      rw [← block_append_drop]
      exact (hanswers j le_rfl).append (ih rfl hrest fun i hi => hanswers i (by omega))
    · rw [follow_of_le h hc (.inl hge)] at hfollow
      obtain rfl := Option.some.inj hfollow
      have hblock : block items size j = items.drop (j * size) := by
        rw [block, List.take_of_length_le]
        rw [List.length_drop]
        omega
      rw [← hblock]
      exact hanswers j le_rfl

/-- When what is left is read, and all answers but one are as they should be, this one is too. -/
lemma answer_of_perm (h : IsGroups items 0 groups) {fuel j k : ℕ} {c : Option ℕ} {l : List α}
    (hc : c.getD 0 = j * size)
    (hfollow : Keyset.follow (ask first size groups) fuel j c = some l)
    (hanswers : ∀ i, i ≠ k → (answer first size groups i).Perm (block items size i))
    (hperm : l.Perm (items.drop (j * size))) (hjk : j ≤ k) (hk : k * size < items.length) :
    (answer first size groups k).Perm (block items size k) := by
  induction fuel generalizing j c l with
  | zero => cases hfollow
  | succ fuel ih =>
    rcases Nat.lt_or_ge (j * size + size) items.length with hlt | hge
    · rw [follow_of_lt h hc hlt] at hfollow
      obtain ⟨rest, hrest, rfl⟩ := Option.map_eq_some_iff.1 hfollow
      rw [← block_append_drop] at hperm
      rcases hjk.eq_or_lt with rfl | hlt
      · have hall := perm_of_answers h rfl hrest fun i hi => hanswers i (by omega)
        exact (List.perm_append_right_iff _).1
          ((hall.symm.append_left _).trans hperm)
      · exact ih rfl hrest
          ((List.perm_append_left_iff _).1 (((hanswers j hlt.ne).symm.append_right _).trans hperm))
          hlt
    · rw [follow_of_le h hc (.inl hge)] at hfollow
      obtain rfl := Option.some.inj hfollow
      obtain rfl : j = k := by
        by_contra hne
        have hle : (j + 1) * size ≤ k * size := Nat.mul_le_mul_right _ (by omega)
        rw [Nat.add_mul, Nat.one_mul] at hle
        omega
      have hblock : block items size j = items.drop (j * size) := by
        rw [block, List.take_of_length_le]
        rw [List.length_drop]
        omega
      rwa [hblock]

/-! ### Alignment -/

/-- Nothing crosses the positions between which an answer is. -/
lemma Aligned.answer_perm (haligned : Aligned first items size) (h : IsGroups items 0 groups)
    (hsize : 0 < size) (k : ℕ) : (answer first size groups k).Perm (block items size k) := by
  have hnext : (k + 1) * size = k * size + size := by rw [Nat.add_mul, Nat.one_mul]
  have hflatten : (groups k (k * size + size + 1)).flatten = items.take (k * size + size + 1) :=
    h k _
  have hthere := haligned (k + 1)
  rw [hnext] at hthere
  have hend : (∀ a ∈ (items.take (k * size + size + 1)).take (k * size + size), first a = true) ∨
      ∀ a ∈ (items.take (k * size + size + 1)).drop (k * size + size), first a = false := by
    rw [List.take_take, Nat.min_eq_left (Nat.le_succ _), List.drop_take, Nat.add_sub_cancel_left]
    exact hthere.imp_right fun hnone a ha => hnone a (List.take_subset_take_left _ hsize ha)
  have hstart : (∀ a ∈ (items.take (k * size + size + 1)).take (k * size), first a = true) ∨
      ∀ a ∈ (items.take (k * size + size + 1)).drop (k * size), first a = false := by
    have hlength : k * size + size + 1 - k * size = size + 1 := by omega
    rw [List.take_take, Nat.min_eq_left (by omega), List.drop_take, hlength, List.take_add,
      List.drop_drop]
    refine (haligned k).imp_right fun hnone a ha => ?_
    rcases List.mem_append.1 ha with ha | ha
    · exact hnone a ha
    · -- The item beyond the page is not of the kind either, since one on the page is before it.
      rcases hthere with hall | hnone'
      · have hlt : k * size + size < items.length := by
          have hpos := List.length_pos_of_mem ha
          rw [List.length_take, List.length_drop] at hpos
          omega
        have hmem : items[k * size] ∈ (items.drop (k * size)).take size :=
          List.mem_take_iff_getElem.2 ⟨0, by rw [List.length_drop]; omega, by simp⟩
        have hmem' : items[k * size] ∈ items.take (k * size + size) :=
          List.mem_take_iff_getElem.2 ⟨k * size, by omega, rfl⟩
        exact absurd ((hall _ hmem').symm.trans (hnone _ hmem)) (by decide)
      · exact hnone' a (List.take_subset_take_left _ hsize ha)
  rw [← hflatten] at hend hstart
  have hperm := take_regroup_perm hend
  have hperm' := take_regroup_perm hstart
  rw [hflatten, List.take_take, Nat.min_eq_left (Nat.le_succ _), take_add_eq, take_add_eq,
    ← answer_eq] at hperm
  rw [hflatten, List.take_take, Nat.min_eq_left (by omega)] at hperm'
  exact (List.perm_append_left_iff _).1 ((hperm'.symm.append_right _).trans hperm)

/-- One page comes in one group, and the others in groups of one item. -/
def onePage (items : List α) (size k j n : ℕ) : List (List α) :=
  if j = k then
    (items.take n).take (k * size + size) ::
      ((items.take n).drop (k * size + size)).map fun a => [a]
  else (items.take n).map fun a => [a]

lemma isGroups_onePage (k : ℕ) : IsGroups items 0 (onePage items size k) := by
  intro j n
  rw [onePage, Nat.sub_zero]
  split_ifs
  · rw [List.flatten_cons, ← List.flatMap_def, List.flatMap_singleton', List.take_append_drop]
  · rw [← List.flatMap_def, List.flatMap_singleton']

lemma answer_onePage_of_ne {j k : ℕ} (hne : j ≠ k) :
    answer first size (onePage items size k) j = block items size j := by
  rw [answer_eq, onePage, if_neg hne, regroup_map_singleton, block, block, List.drop_take,
    List.take_take, Nat.min_eq_left (by omega)]

lemma answer_onePage_self (k : ℕ) :
    answer first size (onePage items size k) k =
      ((items.take (k * size + size)).filter first ++
        (items.take (k * size + size)).filter fun a => !first a).drop (k * size) := by
  have hperm := List.filter_append_perm first (items.take (k * size + size))
  have hgroup : regroup first (onePage items size k k (k * size + size + 1)) =
      ((items.take (k * size + size)).filter first ++
        (items.take (k * size + size)).filter fun a => !first a) ++
          (items.take (k * size + size + 1)).drop (k * size + size) := by
    have hbeyond : regroup first
        (((items.take (k * size + size + 1)).drop (k * size + size)).map fun a => [a]) =
          (items.take (k * size + size + 1)).drop (k * size + size) := regroup_map_singleton
    rw [onePage, if_pos rfl, List.take_take, Nat.min_eq_left (Nat.le_succ _), regroup,
      List.flatMap_cons, ← regroup, hbeyond]
  have hlength := hperm.length_eq
  rw [List.length_take] at hlength
  rw [answer, page, hgroup]
  generalize (items.take (k * size + size)).filter first ++
    (items.take (k * size + size)).filter (fun a => !first a) = l at hlength ⊢
  have hnil : ((items.take (k * size + size + 1)).drop (k * size + size)).take
      (k * size + size - l.length) = [] := by
    refine List.eq_nil_of_length_eq_zero ?_
    rw [List.length_take, List.length_drop, List.length_take]
    omega
  dsimp only
  rw [List.take_append, hnil, List.append_nil, List.take_of_length_le (by omega)]

/-- When a page that comes in one group is as it should be, the list is aligned there. -/
lemma aligned_of_answer {k : ℕ}
    (h : (answer first size (onePage items size k) k).Perm (block items size k)) :
    (∀ a ∈ items.take (k * size), first a = true) ∨ ∀ a ∈ block items size k, first a = false := by
  have hcount := h.countP_eq first
  have hall : ∀ l : List α, ((l.filter first).drop (k * size)).countP first =
      l.countP first - k * size := by
    intro l
    rw [List.countP_eq_length.2 fun a ha => (List.mem_filter.1 (List.mem_of_mem_drop ha)).2,
      List.length_drop, List.countP_eq_length_filter]
  have hnone : ∀ (l : List α) (n : ℕ),
      ((l.filter fun a => !first a).drop n).countP first = 0 := by
    intro l n
    rw [List.countP_eq_zero]
    intro a ha
    simpa using (List.mem_filter.1 (List.mem_of_mem_drop ha)).2
  rw [answer_onePage_self, List.drop_append, List.countP_append, hall, hnone, Nat.add_zero,
    take_add_eq, List.countP_append] at hcount
  rcases Nat.eq_zero_or_pos ((block items size k).countP first) with hzero | hpos
  · refine .inr fun a ha => ?_
    simpa using List.countP_eq_zero.1 hzero a ha
  · have hle : (items.take (k * size)).countP first ≤ (items.take (k * size)).length :=
      List.countP_le_length
    have hlength : (items.take (k * size)).length ≤ k * size := List.length_take_le _ _
    exact .inl (List.countP_eq_length.1 (by omega))

lemma ReadsAll.aligned (h : ReadsAll first items size 0) : Aligned first items size := by
  intro k
  rcases Nat.lt_or_ge (k * size) items.length with hlt | hge
  · obtain ⟨fuel, l, hfollow, hperm⟩ := h _ (isGroups_onePage k)
    refine aligned_of_answer (answer_of_perm (isGroups_onePage k) getD_none hfollow (fun i hi => ?_)
      ?_ (Nat.zero_le k) hlt)
    · rw [answer_onePage_of_ne hi]
    · rwa [Nat.zero_mul, List.drop_zero]
  · rw [List.drop_eq_nil_of_le hge, List.take_nil]
    exact .inr (List.forall_mem_nil _)

/-- With a hidden item there is one page. -/
lemma readsAll_one_iff : ReadsAll first items size 1 ↔ items.length ≤ size := by
  have hanswer : ∀ {groups}, IsGroups items 1 groups →
      (answer first size groups 0).Perm (items.take size) := by
    intro groups h
    have hflatten := h 0 (0 * size + size + 1)
    rw [Nat.zero_mul, Nat.zero_add, Nat.add_sub_cancel] at hflatten
    have hperm : (regroup first (groups 0 (size + 1))).Perm (items.take size) :=
      hflatten ▸ regroup_perm
    have hlength := hperm.length_eq
    rw [List.length_take] at hlength
    rw [answer_eq, Nat.zero_mul, Nat.zero_add, block, Nat.zero_mul, List.drop_zero,
      List.take_of_length_le (by omega)]
    exact hperm
  have hfollow : ∀ {groups}, IsGroups items 1 groups → ∀ fuel,
      Keyset.follow (ask first size groups) (fuel + 1) 0 none = some (answer first size groups 0) :=
    fun h fuel => follow_of_le h getD_none (.inr one_pos) fuel
  constructor
  · intro h
    have hgroups : IsGroups items 1 fun _ n => [items.take (n - 1)] :=
      fun _ _ => List.flatten_singleton
    obtain ⟨fuel, l, hl, hperm⟩ := h _ hgroups
    cases fuel with
    | zero => cases hl
    | succ fuel =>
      rw [hfollow hgroups] at hl
      obtain rfl := Option.some.inj hl
      have hlength := ((hanswer hgroups).symm.trans hperm).length_eq
      rw [List.length_take] at hlength
      omega
  · intro hle groups h
    refine ⟨1, _, hfollow h 0, ?_⟩
    have hperm := hanswer h
    rwa [List.take_of_length_le hle] at hperm

lemma aligned_of_length_le (hle : items.length ≤ size) : Aligned first items size := by
  rintro (_ | k)
  · rw [Nat.zero_mul, List.take_zero]
    exact .inl (List.forall_mem_nil _)
  · have hmul : size ≤ (k + 1) * size := Nat.le_mul_of_pos_left _ (Nat.succ_pos k)
    rw [List.drop_eq_nil_of_le (hle.trans hmul), List.take_nil]
    exact .inr (List.forall_mem_nil _)

/-- **Every item is read, once, just when the list is aligned, and one sees beyond a page or there
is only one.** -/
theorem readsAll_iff (hsize : 0 < size) (hhidden : hidden ≤ 1) :
    ReadsAll first items size hidden ↔
      (items.length ≤ size ∨ hidden = 0) ∧ Aligned first items size := by
  obtain rfl | rfl : hidden = 0 ∨ hidden = 1 := by omega
  · constructor
    · exact fun h => ⟨.inr rfl, h.aligned⟩
    · rintro ⟨-, haligned⟩ groups h
      obtain ⟨l, hl⟩ : ∃ l,
          Keyset.follow (ask first size groups) (items.length + 1) 0 none = some l :=
        exists_follow h hsize getD_none (by omega)
      have hperm := perm_of_answers h getD_none hl
        fun i _ => haligned.answer_perm h hsize i
      rw [Nat.zero_mul, List.drop_zero] at hperm
      exact ⟨_, l, hl, hperm⟩
  · rw [readsAll_one_iff]
    constructor
    · exact fun hle => ⟨.inl hle, aligned_of_length_le hle⟩
    · rintro ⟨hle | hzero, -⟩
      · exact hle
      · cases hzero

end Reading

end Grouped
