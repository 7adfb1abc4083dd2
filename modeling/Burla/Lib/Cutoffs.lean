/-
Reading windows of a list, the newest first.

A window holds so many items, and one goes on with the items whose time is before all of its times.

* `Cutoffs.Parted`: no window ends between two items of one time.
* `Cutoffs.readsAll_iff`: every item is read, once, if and only if the list is parted.
-/
import Burla.Lib.Keyset
import Mathlib.Data.List.Perm.Subperm
import Mathlib.Order.MinMax

namespace Cutoffs

variable {α β : Type*} [LinearOrder β]

section Reading

variable (time : α → β) (size : ℕ) (items : List α)

def newestFirst : List α := items.insertionSort fun a b => time b ≤ time a

/-- What is left at a cutoff. -/
def older : Option β → List α
  | none => items
  | some t => items.filter fun a => time a < t

/-- The times of the items, the newest first. -/
def times : List β := (items.map time).insertionSort (· ≥ ·)

/-- No window ends between two items of one time. -/
def Parted : Prop :=
  ∀ k, 0 < k → k * size < items.length →
    (times time items)[k * size - 1]? ≠ (times time items)[k * size]?

/-- A service that answers with the newest of what is left, in some order, and with the oldest time
of that when there is more. -/
structure Reads (ask : ℕ → Option β → Option (List (List α) × Option β)) : Prop where
  ask_eq : ∀ j c, ∃ window : List α,
    window.Perm ((newestFirst time (older time items c)).take size) ∧
      ask j c = some ([window],
        if size < (older time items c).length then
          (((newestFirst time (older time items c)).take size).map time).min?
        else none)

/-- Going on until there is no more gives every item once, the newest window first. -/
def ReadsAll (ask : ℕ → Option β → Option (List (List α) × Option β)) : Prop :=
  ∃ fuel windows, Keyset.follow ask fuel 0 none = some windows ∧ windows.flatten.Perm items ∧
    windows.Pairwise fun w w' => ∀ a ∈ w, ∀ b ∈ w', time b ≤ time a

end Reading

/-! ### A window -/

section Window

variable {time : α → β} {size : ℕ} {items : List α}

lemma newestFirst_perm : (newestFirst time items).Perm items := List.perm_insertionSort _ _

lemma newestFirst_sorted : (newestFirst time items).Pairwise fun a b => time b ≤ time a := by
  have htotal : Std.Total fun a b : α => time b ≤ time a := ⟨fun a b => le_total (time b) (time a)⟩
  have htrans : IsTrans α fun a b => time b ≤ time a := ⟨fun _ _ _ h h' => h'.trans h⟩
  exact List.pairwise_insertionSort _ _

/-- Sorted times are determined by the items. -/
lemma times_of_perm {l : List α} (hperm : items.Perm l)
    (hsorted : l.Pairwise fun a b => time b ≤ time a) : times time items = l.map time := by
  refine List.Perm.eq_of_pairwise (fun a b _ _ hab hba => le_antisymm hba hab)
    (List.pairwise_insertionSort (· ≥ ·) _) (List.pairwise_map.2 hsorted) ?_
  exact (List.perm_insertionSort _ _).trans (hperm.map time)

lemma times_eq : times time items = (newestFirst time items).map time :=
  times_of_perm newestFirst_perm.symm newestFirst_sorted

/-- The oldest time of a window is that of its last item, and the rest is no newer. -/
lemma exists_oldest (hsize : 0 < size) (hlt : size < items.length) {window : List α}
    (hwindow : window.Perm ((newestFirst time items).take size)) :
    ∃ t, (((newestFirst time items).take size).map time).min? = some t ∧
      (times time items)[size - 1]? = some t ∧ (∀ a ∈ window, t ≤ time a) ∧
        ∀ b ∈ (newestFirst time items).drop size, time b ≤ t := by
  have hlength : (newestFirst time items).length = items.length := newestFirst_perm.length_eq
  have hlast : size - 1 < (newestFirst time items).length := by omega
  have hsorted : (newestFirst time items).Pairwise fun a b => time b ≤ time a := newestFirst_sorted
  have hle : ∀ a ∈ window, time (newestFirst time items)[size - 1] ≤ time a := by
    intro a ha
    obtain ⟨i, hi, rfl⟩ := List.getElem_of_mem (hwindow.mem_iff.1 ha)
    rw [List.length_take] at hi
    rw [List.getElem_take]
    rcases (show i ≤ size - 1 by omega).lt_or_eq with h | rfl
    · exact List.pairwise_iff_getElem.1 hsorted i (size - 1) _ hlast h
    · exact le_rfl
  have hmem : (newestFirst time items)[size - 1] ∈ (newestFirst time items).take size :=
    List.mem_take_iff_getElem.2 ⟨size - 1, by omega, rfl⟩
  refine ⟨time (newestFirst time items)[size - 1], ?_, ?_, hle, fun b hb => ?_⟩
  · have hmin : Std.LawfulOrderMin β :=
      { min_eq_or := min_choice, le_min_iff := fun _ _ _ => le_min_iff }
    rw [List.min?_eq_some_iff]
    refine ⟨List.mem_map_of_mem hmem, fun u hu => ?_⟩
    obtain ⟨a, ha, rfl⟩ := List.mem_map.1 hu
    exact hle a (hwindow.mem_iff.2 ha)
  · rw [times_eq, List.getElem?_map, List.getElem?_eq_getElem hlast, Option.map_some]
  · obtain ⟨i, hi, rfl⟩ := List.getElem_of_mem hb
    rw [List.getElem_drop]
    rw [List.length_drop] at hi
    exact List.pairwise_iff_getElem.1 hsorted (size - 1) (size + i) hlast (by omega) (by omega)

/-- What is older than a window is what remains of the rest. -/
lemma filter_perm {t : β} {window : List α}
    (hwindow : window.Perm ((newestFirst time items).take size)) (hle : ∀ a ∈ window, t ≤ time a) :
    (items.filter fun a => time a < t).Perm
      (((newestFirst time items).drop size).filter fun a => time a < t) := by
  have hperm : (newestFirst time items).Perm items := newestFirst_perm
  have hnil : ((newestFirst time items).take size).filter (fun a => decide (time a < t)) = [] := by
    rw [List.filter_eq_nil_iff]
    intro a ha
    simpa using hle a (hwindow.mem_iff.2 ha)
  refine (hperm.symm.filter _).trans (List.Perm.of_eq ?_)
  conv_lhs => rw [← List.take_append_drop size (newestFirst time items), List.filter_append, hnil]
  rfl

lemma times_congr {l : List α} (h : items.Perm l) : times time items = times time l := by
  rw [times_of_perm (h.trans newestFirst_perm.symm) newestFirst_sorted, times_eq]

lemma Parted.congr {l : List α} (hparted : Parted time size items) (h : items.Perm l) :
    Parted time size l := by
  intro k hk hlt
  rw [← times_congr h]
  exact hparted k hk (by rwa [h.length_eq])

/-- The times of the rest are the rest of the times. -/
lemma times_drop :
    times time ((newestFirst time items).drop size) = (times time items).drop size := by
  rw [times_of_perm (.refl _) (newestFirst_sorted.drop), times_eq, List.map_drop]

/-- A list is parted when its first window ends before the time of the next item, and the rest is
parted. -/
lemma parted_iff (hsize : 0 < size) (hlt : size < items.length) {t : β}
    (ht : (times time items)[size - 1]? = some t)
    (hle : ∀ b ∈ (newestFirst time items).drop size, time b ≤ t) :
    Parted time size items ↔ (∀ b ∈ (newestFirst time items).drop size, time b < t) ∧
      Parted time size ((newestFirst time items).drop size) := by
  have hlength : (newestFirst time items).length = items.length := newestFirst_perm.length_eq
  have hnext : size < (newestFirst time items).length := by omega
  have hdrop : (newestFirst time items).drop size =
      (newestFirst time items)[size] :: (newestFirst time items).drop (size + 1) :=
    List.drop_eq_getElem_cons hnext
  have htimes : (times time items)[size]? = some (time (newestFirst time items)[size]) := by
    rw [times_eq, List.getElem?_map, List.getElem?_eq_getElem hnext, Option.map_some]
  have hshift : ∀ k, 0 < k → (times time ((newestFirst time items).drop size))[k * size - 1]? =
      (times time items)[(k + 1) * size - 1]? := by
    intro k hk
    have hmul : size ≤ k * size := Nat.le_mul_of_pos_left _ hk
    rw [times_drop, List.getElem?_drop, Nat.add_mul, Nat.one_mul]
    congr 1
    omega
  have hshift' : ∀ k, (times time ((newestFirst time items).drop size))[k * size]? =
      (times time items)[(k + 1) * size]? := by
    intro k
    rw [times_drop, List.getElem?_drop, Nat.add_mul, Nat.one_mul, Nat.add_comm]
  constructor
  · intro h
    constructor
    · -- The next item is older than the window, and the others are no newer than it.
      have hne := h 1 one_pos (by omega)
      rw [Nat.one_mul, ht, htimes] at hne
      have hhead : time (newestFirst time items)[size] < t :=
        lt_of_le_of_ne (hle _ (by rw [hdrop]; exact List.mem_cons_self))
          fun heq => hne (congrArg some heq.symm)
      have hsorted : ((newestFirst time items).drop size).Pairwise fun a b => time b ≤ time a :=
        newestFirst_sorted.drop
      rw [hdrop] at hsorted ⊢
      intro b hb
      rcases List.mem_cons.1 hb with rfl | hb
      · exact hhead
      · exact (List.rel_of_pairwise_cons hsorted hb).trans_lt hhead
    · intro k hk hk'
      rw [List.length_drop, hlength] at hk'
      rw [hshift k hk, hshift' k]
      exact h (k + 1) (Nat.succ_pos k) (by rw [Nat.add_mul, Nat.one_mul]; omega)
  · rintro ⟨hrest, hparted⟩ k hk hk'
    obtain ⟨k, rfl⟩ : ∃ m, k = m + 1 := ⟨k - 1, by omega⟩
    rcases Nat.eq_zero_or_pos k with rfl | hpos
    · rw [Nat.zero_add, Nat.one_mul, ht, htimes]
      intro heq
      exact (hrest _ (by rw [hdrop]; exact List.mem_cons_self)).ne' (Option.some.inj heq)
    · rw [← hshift k hpos, ← hshift' k]
      refine hparted k hpos ?_
      rw [Nat.add_mul, Nat.one_mul] at hk'
      rw [List.length_drop, hlength]
      omega

/-- After a cutoff one sees what is older of what one saw before. -/
lemma older_older {c : Option β} {t : β} {a : α} (ha : a ∈ older time items c) (ht : t ≤ time a) :
    older time items (some t) = (older time items c).filter fun a => time a < t := by
  cases c with
  | none => rfl
  | some u =>
    have hlt : t < u := ht.trans_lt (by simpa [older] using (List.mem_filter.1 ha).2)
    rw [older, older, List.filter_filter]
    refine List.filter_congr fun b _ => ?_
    simp only [Bool.and_eq_decide, decide_eq_decide]
    exact ⟨fun h => ⟨by simpa using h, by simpa using h.trans hlt⟩, fun h => by simpa using h.1⟩

end Window

/-! ### Reading on -/

section Reading

variable {time : α → β} {size : ℕ} {items : List α}
  {ask : ℕ → Option β → Option (List (List α) × Option β)}

namespace Reads

/-- A window that ends the reading. -/
lemma follow_of_le (h : Reads time size items ask) {c : Option β}
    (hle : (older time items c).length ≤ size) (fuel j : ℕ) :
    ∃ window : List α, window.Perm (older time items c) ∧
      Keyset.follow ask (fuel + 1) j c = some [window] := by
  obtain ⟨window, hwindow, hask⟩ := h.ask_eq j c
  refine ⟨window, ?_, ?_⟩
  · rw [List.take_of_length_le (newestFirst_perm.length_eq.trans_le hle)] at hwindow
    exact hwindow.trans newestFirst_perm
  · rw [Keyset.follow, hask, Option.bind_some, if_neg (Nat.not_lt.2 hle)]

/-- After a window that does not, one goes on at its oldest time. -/
lemma follow_of_lt (h : Reads time size items ask) (hsize : 0 < size) {c : Option β}
    (hlt : size < (older time items c).length) (fuel j : ℕ) :
    ∃ (window : List α) (t : β),
      window.Perm ((newestFirst time (older time items c)).take size) ∧
      (times time (older time items c))[size - 1]? = some t ∧ (∀ a ∈ window, t ≤ time a) ∧
      (∀ b ∈ (newestFirst time (older time items c)).drop size, time b ≤ t) ∧
      (older time items (some t)).Perm
        (((newestFirst time (older time items c)).drop size).filter fun a => time a < t) ∧
      Keyset.follow ask (fuel + 1) j c =
        (Keyset.follow ask fuel (j + 1) (some t)).map ([window] ++ ·) := by
  obtain ⟨window, hwindow, hask⟩ := h.ask_eq j c
  obtain ⟨t, hmin, ht, hle, hrest⟩ := exists_oldest hsize hlt hwindow
  refine ⟨window, t, hwindow, ht, hle, hrest, ?_, ?_⟩
  · -- An item of the window was left at the cutoff, and is no older than the next one.
    have hpos : 0 < window.length := by
      rw [hwindow.length_eq, List.length_take, newestFirst_perm.length_eq]
      omega
    have hmem : window[0] ∈ older time items c :=
      newestFirst_perm.mem_iff.1 (List.mem_of_mem_take (hwindow.mem_iff.1 (List.getElem_mem hpos)))
    rw [older_older hmem (hle _ (List.getElem_mem hpos))]
    exact filter_perm hwindow hle
  · rw [Keyset.follow, hask, Option.bind_some, if_pos hlt, hmin]

/-- However the reading goes, it gives nothing twice and nothing that is not left. -/
lemma follow_subperm (h : Reads time size items ask) (hsize : 0 < size) {fuel j : ℕ} {c : Option β}
    {windows : List (List α)} (hfollow : Keyset.follow ask fuel j c = some windows) :
    windows.flatten.Subperm (older time items c) := by
  induction fuel generalizing j c windows with
  | zero => cases hfollow
  | succ fuel ih =>
    rcases Nat.lt_or_ge size (older time items c).length with hlt | hge
    · obtain ⟨window, t, hwindow, -, -, -, hnext, heq⟩ := h.follow_of_lt hsize hlt fuel j
      rw [heq] at hfollow
      obtain ⟨rest, hrest, rfl⟩ := Option.map_eq_some_iff.1 hfollow
      have hsub : rest.flatten.Subperm ((newestFirst time (older time items c)).drop size) :=
        (ih hrest).trans (hnext.subperm.trans List.filter_sublist.subperm)
      have hall := hwindow.subperm.append hsub
      rw [List.take_append_drop] at hall
      exact hall.trans newestFirst_perm.subperm
    · obtain ⟨window, hwindow, heq⟩ := h.follow_of_le hge fuel j
      rw [heq] at hfollow
      obtain rfl := Option.some.inj hfollow
      rw [List.flatten_singleton]
      exact hwindow.subperm

/-- What is left is read when it is parted. -/
lemma follow_of_parted (h : Reads time size items ask) (hsize : 0 < size) {fuel j : ℕ}
    {c : Option β} (hfuel : (older time items c).length < fuel)
    (hparted : Parted time size (older time items c)) :
    ∃ windows, Keyset.follow ask fuel j c = some windows ∧
      windows.flatten.Perm (older time items c) ∧
      windows.Pairwise fun w w' => ∀ a ∈ w, ∀ b ∈ w', time b ≤ time a := by
  induction fuel generalizing j c with
  | zero => omega
  | succ fuel ih =>
    rcases Nat.lt_or_ge size (older time items c).length with hlt | hge
    · obtain ⟨window, t, hwindow, ht, hle, hrest, hnext, heq⟩ := h.follow_of_lt hsize hlt fuel j
      obtain ⟨hall, hparted⟩ := (parted_iff hsize hlt ht hrest).1 hparted
      rw [List.filter_eq_self.2 fun b hb => decide_eq_true (hall b hb)] at hnext
      have hlength : (older time items (some t)).length < fuel := by
        rw [hnext.length_eq, List.length_drop, newestFirst_perm.length_eq]
        omega
      obtain ⟨windows, hwindows, hperm, hordered⟩ :=
        ih (j := j + 1) hlength (hparted.congr hnext.symm)
      refine ⟨window :: windows, ?_, ?_, List.pairwise_cons.2 ⟨?_, hordered⟩⟩
      · rw [heq, hwindows]
        rfl
      · have happend := hwindow.append (hperm.trans hnext)
        rw [List.take_append_drop] at happend
        exact happend.trans newestFirst_perm
      · intro w hw a ha b hb
        have hmem : b ∈ older time items (some t) :=
          hperm.mem_iff.1 (List.mem_flatten_of_mem hw hb)
        have hb' : time b < t := by simpa using (List.mem_filter.1 hmem).2
        exact hb'.le.trans (hle a ha)
    · obtain ⟨window, hwindow, heq⟩ := h.follow_of_le hge fuel j
      exact ⟨[window], heq, by rwa [List.flatten_singleton], List.pairwise_singleton _ _⟩

/-- When what is left is read, it is parted. -/
lemma parted_of_follow (h : Reads time size items ask) (hsize : 0 < size) {fuel j : ℕ}
    {c : Option β} {windows : List (List α)}
    (hfollow : Keyset.follow ask fuel j c = some windows)
    (hperm : windows.flatten.Perm (older time items c)) :
    Parted time size (older time items c) := by
  induction fuel generalizing j c windows with
  | zero => cases hfollow
  | succ fuel ih =>
    rcases Nat.lt_or_ge size (older time items c).length with hlt | hge
    · obtain ⟨window, t, hwindow, ht, -, hrest, hnext, heq⟩ := h.follow_of_lt hsize hlt fuel j
      rw [heq] at hfollow
      obtain ⟨rest, hfollow', rfl⟩ := Option.map_eq_some_iff.1 hfollow
      have hsub := h.follow_subperm hsize hfollow'
      have hcount := hperm.length_eq
      have hwindowLength := hwindow.length_eq
      have hsubLength := hsub.length_le
      have hnextLength := hnext.length_eq
      have hfilterLength : (((newestFirst time (older time items c)).drop size).filter
          fun a => decide (time a < t)).length ≤
            ((newestFirst time (older time items c)).drop size).length := List.length_filter_le _ _
      rw [List.flatten_append, List.length_append, List.flatten_singleton] at hcount
      rw [List.length_take, newestFirst_perm.length_eq] at hwindowLength
      -- Nothing of the rest may be lost at the next cutoff.
      have hfull : ((newestFirst time (older time items c)).drop size).filter
          (fun a => decide (time a < t)) = (newestFirst time (older time items c)).drop size := by
        refine List.filter_sublist.eq_of_length_le ?_
        rw [List.length_drop, newestFirst_perm.length_eq] at hfilterLength ⊢
        omega
      rw [hfull] at hnext hnextLength
      rw [List.length_drop, newestFirst_perm.length_eq] at hnextLength
      refine (parted_iff hsize hlt ht hrest).2 ⟨fun b hb => ?_, ?_⟩
      · simpa using List.filter_eq_self.1 hfull b hb
      · exact (ih hfollow' (hsub.perm_of_length_le (by omega))).congr hnext
    · intro k hk hlt
      have hmul : size ≤ k * size := Nat.le_mul_of_pos_left _ hk
      omega

end Reads

/-- **Every item is read, once, just when no window ends between two items of one time.** -/
theorem readsAll_iff (h : Reads time size items ask) (hsize : 0 < size) :
    ReadsAll time items ask ↔ Parted time size items := by
  constructor
  · rintro ⟨fuel, windows, hfollow, hperm, -⟩
    exact h.parted_of_follow (c := none) hsize hfollow hperm
  · intro hparted
    exact ⟨items.length + 1, h.follow_of_parted (c := none) hsize (Nat.lt_succ_self _) hparted⟩

end Reading

end Cutoffs
