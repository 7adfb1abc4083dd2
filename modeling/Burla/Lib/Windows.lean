/-
Reading a list page by page from a service that sees only so much of what is left.

At each position a beginning of what is left is fetched; so many items of it are answered, with a
cursor for the last of them when more was fetched.

* `Windows.follow_iff`: the list is read if and only if, at the position of each page, what is
  fetched goes beyond the page or to the end.
* `Windows.window_isPrefix`: what is fetched when it comes in rows of several items, so many rows from
  that on in which the last item is.
-/
import Burla.Lib.Keyset
import Mathlib.Data.List.Flatten

namespace Windows

variable {α γ ρ : Type*}

/-! ### Pages -/

section Pages

variable (items : List α) (fetched : ℕ → List α) (limit : ℕ) (start : Option γ) (encode : α → γ)

/-- What to ask with for the items from a position on. -/
def cursorAt : ℕ → Option γ
  | 0 => start
  | k + 1 => items[k]?.map encode

/-- What is fetched at a position goes beyond the page, or to the end of the list. -/
def Reaches (k : ℕ) : Prop := limit < (fetched k).length ∨ fetched k = items.drop k

/-- A service that answers with pages of the list. -/
structure Reads (ask : ℕ → Option γ → Option (List α × Option γ)) : Prop where
  fetched_isPrefix : ∀ k ≤ items.length, fetched k <+: items.drop k
  ask_eq : ∀ j, ∀ k ≤ items.length, ask j (cursorAt items start encode k) =
    some ((fetched k).take limit,
      if limit < (fetched k).length then ((fetched k).take limit).getLast?.map encode else none)

variable {items fetched limit start encode} {ask : ℕ → Option γ → Option (List α × Option γ)}

namespace Reads

lemma length_fetched_le (h : Reads items fetched limit start encode ask) {k : ℕ}
    (hk : k ≤ items.length) : (fetched k).length ≤ items.length - k := by
  have hle := (h.fetched_isPrefix k hk).length_le
  rwa [List.length_drop] at hle

/-- After a page that more was fetched than one goes on with what is left. -/
lemma follow_of_lt (h : Reads items fetched limit start encode ask) (hlimit : 0 < limit) {k : ℕ}
    (hk : k ≤ items.length) (hlt : limit < (fetched k).length) (fuel j : ℕ) :
    Keyset.follow ask (fuel + 1) j (cursorAt items start encode k) =
      (Keyset.follow ask fuel (j + 1) (cursorAt items start encode (k + limit))).map
        ((items.drop k).take limit ++ ·) := by
  have hpage : (fetched k).take limit = (items.drop k).take limit := by
    obtain ⟨rest, hrest⟩ := h.fetched_isPrefix k hk
    rw [← hrest, List.take_append_of_le_length hlt.le]
  have hle := h.length_fetched_le hk
  obtain ⟨n, rfl⟩ : ∃ n, limit = n + 1 := ⟨limit - 1, by omega⟩
  -- The last item of the page stands before the position of the next one.
  have hn : k + n < items.length := by omega
  have hlast : ((items.drop k).take (n + 1)).getLast?.map encode =
      cursorAt items start encode (k + (n + 1)) := by
    rw [List.getLast?_take, if_neg (Nat.succ_ne_zero n), Nat.add_sub_cancel, List.getElem?_drop,
      List.getElem?_eq_getElem hn, Option.some_or, ← Nat.add_assoc, cursorAt,
      List.getElem?_eq_getElem hn]
  have hcursor : cursorAt items start encode (k + (n + 1)) = some (encode items[k + n]) := by
    rw [← Nat.add_assoc, cursorAt, List.getElem?_eq_getElem hn, Option.map_some]
  rw [Keyset.follow, h.ask_eq j k hk, Option.bind_some, if_pos hlt, hpage, hlast, hcursor]

/-- A page that is all that was fetched is the last one. -/
lemma follow_of_le (h : Reads items fetched limit start encode ask) {k : ℕ} (hk : k ≤ items.length)
    (hle : (fetched k).length ≤ limit) (fuel j : ℕ) :
    Keyset.follow ask (fuel + 1) j (cursorAt items start encode k) = some (fetched k) := by
  rw [Keyset.follow, h.ask_eq j k hk, Option.bind_some, if_neg (Nat.not_lt.2 hle),
    List.take_of_length_le hle]

/-- What is left is read when every page's position is one that is reached beyond. -/
lemma follow_eq_drop (h : Reads items fetched limit start encode ask) (hlimit : 0 < limit)
    {fuel k : ℕ} (j : ℕ) (hk : k ≤ items.length) (hfuel : items.length - k < fuel)
    (hreaches : ∀ m, k + m * limit < items.length → Reaches items fetched limit (k + m * limit)) :
    Keyset.follow ask fuel j (cursorAt items start encode k) = some (items.drop k) := by
  induction fuel generalizing k j with
  | zero => omega
  | succ fuel ih =>
    rcases Nat.lt_or_ge limit (fetched k).length with hlt | hge
    · have hle := h.length_fetched_le hk
      have hnext := ih (k := k + limit) (j + 1) (by omega) (by omega) fun m hm => by
        have hposition : k + limit + m * limit = k + (m + 1) * limit := by
          rw [Nat.add_mul, Nat.one_mul]
          omega
        rw [hposition] at hm ⊢
        exact hreaches (m + 1) hm
      rw [h.follow_of_lt hlimit hk hlt, hnext, Option.map_some, ← List.drop_drop,
        List.take_append_drop]
    · rw [h.follow_of_le hk hge]
      rcases hk.lt_or_eq with hlt | rfl
      · have hhere := hreaches 0 (by omega)
        rw [Nat.zero_mul, Nat.add_zero] at hhere
        rw [hhere.resolve_left (Nat.not_lt.2 hge)]
      · have hprefix := h.fetched_isPrefix _ le_rfl
        rw [List.drop_length] at hprefix ⊢
        rw [List.prefix_nil.1 hprefix]

/-- When what is left is read, every page's position is reached beyond. -/
lemma reaches_of_follow (h : Reads items fetched limit start encode ask) (hlimit : 0 < limit)
    {fuel j k : ℕ} (hk : k ≤ items.length)
    (hfollow : Keyset.follow ask fuel j (cursorAt items start encode k) = some (items.drop k))
    (m : ℕ) (hm : k + m * limit < items.length) : Reaches items fetched limit (k + m * limit) := by
  induction fuel generalizing k j m with
  | zero => cases hfollow
  | succ fuel ih =>
    rcases Nat.lt_or_ge limit (fetched k).length with hlt | hge
    · cases m with
      | zero =>
        rw [Nat.zero_mul, Nat.add_zero]
        exact .inl hlt
      | succ m =>
        have hle := h.length_fetched_le hk
        rw [h.follow_of_lt hlimit hk hlt] at hfollow
        obtain ⟨rest, hrest, hsplit⟩ := Option.map_eq_some_iff.1 hfollow
        have hposition : k + (m + 1) * limit = k + limit + m * limit := by
          rw [Nat.add_mul, Nat.one_mul]
          omega
        have hdrop : rest = items.drop (k + limit) := by
          rw [← List.drop_drop]
          exact List.append_cancel_left (hsplit.trans (List.take_append_drop limit _).symm)
        rw [hposition] at hm ⊢
        exact ih (by omega) (hrest.trans (congrArg some hdrop)) m hm
    · rw [h.follow_of_le hk hge] at hfollow
      have heq := Option.some.inj hfollow
      cases m with
      | zero =>
        rw [Nat.zero_mul, Nat.add_zero]
        exact .inr heq
      | succ m =>
        -- The last page went to the end.
        have hlength := congrArg List.length heq
        rw [List.length_drop] at hlength
        have hmul : limit ≤ (m + 1) * limit := Nat.le_mul_of_pos_left _ (Nat.succ_pos m)
        omega

/-- However the reading goes, it gives a beginning of what is left. -/
lemma follow_isPrefix (h : Reads items fetched limit start encode ask) (hlimit : 0 < limit)
    {fuel j k : ℕ} (hk : k ≤ items.length) {l : List α}
    (hfollow : Keyset.follow ask fuel j (cursorAt items start encode k) = some l) :
    l <+: items.drop k := by
  induction fuel generalizing k j l with
  | zero => cases hfollow
  | succ fuel ih =>
    rcases Nat.lt_or_ge limit (fetched k).length with hlt | hge
    · have hle := h.length_fetched_le hk
      rw [h.follow_of_lt hlimit hk hlt] at hfollow
      obtain ⟨rest, hrest, rfl⟩ := Option.map_eq_some_iff.1 hfollow
      have hprefix := ih (by omega) hrest
      rw [← List.drop_drop] at hprefix
      have happend := (List.prefix_append_right_inj ((items.drop k).take limit)).2 hprefix
      rwa [List.take_append_drop] at happend
    · rw [h.follow_of_le hk hge] at hfollow
      obtain rfl := Option.some.inj hfollow
      exact h.fetched_isPrefix k hk

end Reads

/-- **The list is read just when every page's position is reached beyond.** -/
theorem follow_iff (h : Reads items fetched limit start encode ask) (hlimit : 0 < limit) :
    (∃ fuel, Keyset.follow ask fuel 0 start = some items) ↔
      ∀ m, m * limit < items.length → Reaches items fetched limit (m * limit) := by
  constructor
  · rintro ⟨fuel, hfollow⟩ m hm
    have hreaches := h.reaches_of_follow hlimit (k := 0) (Nat.zero_le _) hfollow m
    rw [Nat.zero_add] at hreaches
    exact hreaches hm
  · intro hreaches
    refine ⟨items.length + 1, ?_⟩
    refine h.follow_eq_drop hlimit (k := 0) 0 (Nat.zero_le _) (Nat.lt_succ_self _) fun m hm => ?_
    rw [Nat.zero_add] at hm ⊢
    exact hreaches m hm

end Pages

/-! ### Rows -/

section Rows

variable (rows : List ρ) (lines : ρ → List α) (r : α → α → Prop) [DecidableRel r]
  (fromRow : α → ρ → Bool)

/-- What comes after an item, in so many rows. -/
def window (n : ℕ) (x : α) : List α :=
  (((rows.filter (fromRow x)).take n).flatMap lines).filter fun y => r x y

variable {rows lines r fromRow}

/-- An item is in a row. -/
lemma exists_row {k : ℕ} {x : α} (h : (rows.flatMap lines)[k]? = some x) :
    ∃ rows₁ row rows₂ l₁ l₂, rows = rows₁ ++ row :: rows₂ ∧ lines row = l₁ ++ x :: l₂ ∧
      (rows.flatMap lines).drop (k + 1) = l₂ ++ rows₂.flatMap lines := by
  induction rows generalizing k with
  | nil => simp at h
  | cons row rows ih =>
    rw [List.flatMap_cons] at h ⊢
    rcases Nat.lt_or_ge k (lines row).length with hlt | hge
    · rw [List.getElem?_append_left hlt, List.getElem?_eq_getElem hlt] at h
      obtain rfl := Option.some.inj h
      refine ⟨[], row, rows, (lines row).take k, (lines row).drop (k + 1), rfl, ?_, ?_⟩
      · rw [← List.drop_eq_getElem_cons hlt, List.take_append_drop]
      · rw [List.drop_append_of_le_length hlt]
    · rw [List.getElem?_append_right hge] at h
      obtain ⟨rows₁, row', rows₂, l₁, l₂, rfl, hlines, hdrop⟩ := ih h
      refine ⟨row :: rows₁, row', rows₂, l₁, l₂, rfl, hlines, ?_⟩
      rw [← hdrop, List.drop_append, List.drop_eq_nil_of_le (by omega), List.nil_append]
      congr 1
      omega

/-- **What is fetched in so many rows is a beginning of what comes after the item.** -/
lemma window_isPrefix [IsStrictOrder α r] (hsorted : (rows.flatMap lines).Pairwise r) {k n : ℕ}
    {x : α} (hx : (rows.flatMap lines)[k]? = some x)
    (hfrom : ∀ rows₁ row rows₂, rows = rows₁ ++ row :: rows₂ → x ∈ lines row →
      rows.filter (fromRow x) = row :: rows₂) :
    window rows lines r fromRow (n + 1) x <+: (rows.flatMap lines).drop (k + 1) := by
  obtain ⟨rows₁, row, rows₂, l₁, l₂, hrows, hlines, hdrop⟩ := exists_row hx
  have hmem : x ∈ lines row := by
    rw [hlines]
    exact List.mem_append_right _ List.mem_cons_self
  have hfetched : ((row :: rows₂).take (n + 1)).flatMap lines =
      l₁ ++ x :: (l₂ ++ (rows₂.take n).flatMap lines) := by
    rw [List.take_succ_cons, List.flatMap_cons, hlines, List.append_assoc, List.cons_append]
  have hpairwise : (((row :: rows₂).take (n + 1)).flatMap lines).Pairwise r := by
    refine hsorted.sublist ?_
    rw [hrows, List.flatMap_append]
    exact ((List.take_sublist _ _).flatMap lines).trans (List.sublist_append_right _ _)
  rw [window, hfrom rows₁ row rows₂ hrows hmem, hdrop]
  rw [hfetched] at hpairwise ⊢
  rw [Keyset.filter_after hpairwise, List.prefix_append_right_inj]
  exact ⟨(rows₂.drop n).flatMap lines, by rw [← List.flatMap_append, List.take_append_drop]⟩

end Rows

end Windows
