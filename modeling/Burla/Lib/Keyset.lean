/-
Pages of a sorted list, where a page is asked for by the key of the last row that one has.  A row
stands for its key.

* `Keyset.page`: the rows after a key, in order, as many as asked for, and the key to go on with
  when there are more.
* `Keyset.follow`: asking on until there is no key to go on with.
* `Keyset.NullsLast`: rows that are ordered by a value that may be missing, and by their keys where
  the values are the same.
* `Keyset.follow_map`: following what is shown of the rows.
* `Keyset.follow_eq`: when the order is total and no two rows are the same, following the keys gives
  the sorted list.
-/
import Mathlib.Data.List.Sort
import Mathlib.Order.Defs.Unbundled

namespace Keyset

variable {κ γ : Type*}

section Pages

variable (r : κ → κ → Prop) [DecidableRel r]

def sorted (rows : List κ) : List κ := rows.insertionSort fun a b => ¬r b a

/-- The rows after a key. -/
def after (rows : List κ) : Option κ → List κ
  | none => rows
  | some c => rows.filter fun a => r c a

/-- One row more than the page is long says whether there is another page. -/
def page (rows : List κ) (c : Option κ) (limit : ℕ) : List κ × Option κ :=
  let fetched := (sorted r (after r rows c)).take (limit + 1)
  (fetched.take limit, if limit < fetched.length then (fetched.take limit).getLast? else none)

end Pages

/-- Asking for page after page; each request is numbered, and an answer may be refused. -/
def follow (ask : ℕ → Option γ → Option (List κ × Option γ)) : ℕ → ℕ → Option γ → Option (List κ)
  | 0, _, _ => none
  | fuel + 1, k, c =>
    (ask k c).bind fun answer =>
      match answer.2 with
      | none => some answer.1
      | some c' => (follow ask fuel (k + 1) (some c')).map (answer.1 ++ ·)

/-! ### Values that may be missing -/

section NullsLast

variable {β κ : Type*} [LinearOrder β] [LinearOrder κ]

/-- One comes before the other, in either direction. -/
def Before (descending : Bool) (a b : β) : Prop := if descending then b < a else a < b

instance : (descending : Bool) → (a b : β) → Decidable (Before descending a b)
  | true, a, b => inferInstanceAs (Decidable (b < a))
  | false, a, b => inferInstanceAs (Decidable (a < b))

lemma before_irrefl (descending : Bool) (a : β) : ¬Before descending a a := by
  cases descending <;> exact lt_irrefl a

lemma before_trans {descending : Bool} {a b c : β} (hab : Before descending a b)
    (hbc : Before descending b c) : Before descending a c := by
  cases descending
  · exact lt_trans (α := β) hab hbc
  · exact lt_trans (α := β) hbc hab

lemma before_trichotomous (descending : Bool) (a b : β) :
    Before descending a b ∨ a = b ∨ Before descending b a := by
  cases descending
  · exact lt_trichotomy a b
  · rcases lt_trichotomy a b with h | h | h
    · exact .inr (.inr h)
    · exact .inr (.inl h)
    · exact .inl h

/-- The rows without a value come last, in both directions. -/
def NullsLast (descending : Bool) (a b : Option β × κ) : Prop :=
  match a.1, b.1 with
  | some v, some w => Before descending v w ∨ (v = w ∧ Before descending a.2 b.2)
  | some _, none => True
  | none, some _ => False
  | none, none => Before descending a.2 b.2

instance (descending : Bool) : (a b : Option β × κ) → Decidable (NullsLast descending a b)
  | (some _, _), (some _, _) => inferInstanceAs (Decidable (_ ∨ (_ ∧ _)))
  | (some _, _), (none, _) => .isTrue trivial
  | (none, _), (some _, _) => .isFalse id
  | (none, _), (none, _) => inferInstanceAs (Decidable (Before _ _ _))

lemma nullsLast_trans {descending : Bool} {a b c : Option β × κ} (hab : NullsLast descending a b)
    (hbc : NullsLast descending b c) : NullsLast descending a c := by
  rcases a with ⟨_ | v, i⟩ <;> rcases b with ⟨_ | w, j⟩ <;> rcases c with ⟨_ | u, k⟩
  · exact before_trans (β := κ) hab hbc
  · exact hbc
  · exact hab.elim
  · exact hab.elim
  · trivial
  · exact hbc.elim
  · trivial
  · rcases hab with hab | ⟨rfl, hab⟩ <;> rcases hbc with hbc | ⟨rfl, hbc⟩
    · exact .inl (before_trans hab hbc)
    · exact .inl hab
    · exact .inl hbc
    · exact .inr ⟨rfl, before_trans hab hbc⟩

instance (descending : Bool) :
    IsStrictTotalOrder (Option β × κ) (NullsLast (β := β) (κ := κ) descending) where
  irrefl := by
    rintro ⟨_ | v, i⟩ h
    · exact before_irrefl descending i h
    · rcases h with h | ⟨-, h⟩
      · exact before_irrefl descending v h
      · exact before_irrefl descending i h
  trans _ _ _ := nullsLast_trans
  trichotomous := by
    rintro ⟨_ | v, i⟩ ⟨_ | w, j⟩ hab hba
    · rcases before_trichotomous descending i j with h | rfl | h
      · exact absurd h hab
      · rfl
      · exact absurd h hba
    · exact absurd trivial hba
    · exact absurd trivial hab
    · rcases before_trichotomous descending v w with h | rfl | h
      · exact absurd (.inl h) hab
      · rcases before_trichotomous descending i j with h | rfl | h
        · exact absurd (.inr ⟨rfl, h⟩) hab
        · rfl
        · exact absurd (.inr ⟨rfl, h⟩) hba
      · exact absurd (.inl h) hba

end NullsLast

/-! ### The sorted list -/

section Sorted

variable {r : κ → κ → Prop} [DecidableRel r] {rows : List κ}

lemma sorted_perm : (sorted r rows).Perm rows := List.perm_insertionSort _ _

lemma length_sorted : (sorted r rows).length = rows.length := sorted_perm.length_eq

variable [IsStrictTotalOrder κ r]

/-- Different rows are strictly in order. -/
lemma pairwise_sorted (hrows : rows.Nodup) : (sorted r rows).Pairwise r := by
  have htotal : Std.Total fun a b : κ => ¬r b a :=
    ⟨fun a b => by
      by_contra h
      rw [not_or, not_not, not_not] at h
      exact asymm h.1 h.2⟩
  have htrans : IsTrans κ fun a b => ¬r b a := by
    refine ⟨fun a b c hab hbc hca => ?_⟩
    rcases trichotomous_of r a b with h | h | h
    · exact hbc (trans_of r hca h)
    · exact hbc (h ▸ hca)
    · exact hab h
  have hle : (sorted r rows).Pairwise fun a b => ¬r b a := List.pairwise_insertionSort _ rows
  have hne : (sorted r rows).Pairwise (· ≠ ·) := sorted_perm.nodup_iff.2 hrows
  refine (hle.and hne).imp fun {a b} h => ?_
  rcases trichotomous_of r a b with hab | hab | hab
  · exact hab
  · exact absurd hab h.2
  · exact absurd hab h.1

/-- There is one order only in which the rows are sorted. -/
lemma sorted_filter (hrows : rows.Nodup) (p : κ → Bool) :
    sorted r (rows.filter p) = (sorted r rows).filter p := by
  refine List.Perm.eq_of_pairwise (fun a b _ _ hab hba => ?_) (pairwise_sorted (hrows.filter p))
    ((pairwise_sorted hrows).sublist List.filter_sublist) ?_
  · exact absurd hba (asymm hab)
  · exact sorted_perm.trans (sorted_perm.filter p).symm

omit [IsStrictTotalOrder κ r] in
/-- What comes after a row is the rest of the list. -/
lemma filter_after [IsStrictOrder κ r] {l₁ l₂ : List κ} {a : κ} (h : (l₁ ++ a :: l₂).Pairwise r) :
    ((l₁ ++ a :: l₂).filter fun b => r a b) = l₂ := by
  obtain ⟨-, h₂, h₁⟩ := List.pairwise_append.1 h
  have hbefore : (l₁.filter fun b => decide (r a b)) = [] := by
    rw [List.filter_eq_nil_iff]
    intro b hb
    rw [decide_eq_true_eq]
    exact asymm (h₁ b hb a List.mem_cons_self)
  have hafter : (l₂.filter fun b => decide (r a b)) = l₂ := by
    rw [List.filter_eq_self]
    intro b hb
    exact decide_eq_true (List.rel_of_pairwise_cons h₂ hb)
  rw [List.filter_append, hbefore, List.nil_append,
    List.filter_cons_of_neg (by rw [decide_eq_true_eq]; exact irrefl a), hafter]

lemma sorted_after (hrows : rows.Nodup) (c : κ) :
    sorted r (after r rows (some c)) = (sorted r rows).filter fun a => r c a :=
  sorted_filter hrows _

/-- After a row that comes after `c` there are the rows that come after both. -/
lemma sorted_after_of_append (hrows : rows.Nodup) {c : Option κ} {l₁ l₂ : List κ} {a : κ}
    (h : sorted r (after r rows c) = l₁ ++ a :: l₂) : sorted r (after r rows (some a)) = l₂ := by
  rw [sorted_after hrows]
  cases c with
  | none =>
    replace h : sorted r rows = l₁ ++ a :: l₂ := h
    rw [h]
    exact filter_after (h ▸ pairwise_sorted hrows)
  | some c =>
    rw [sorted_after hrows] at h
    have hpairwise := (pairwise_sorted (r := r) hrows).sublist
      (List.filter_sublist (p := fun b => decide (r c b)))
    rw [h] at hpairwise
    have hca : r c a := by
      have hmem : a ∈ (sorted r rows).filter fun b => r c b := by
        rw [h]
        exact List.mem_append_right _ List.mem_cons_self
      exact of_decide_eq_true (List.mem_filter.1 hmem).2
    rw [← filter_after hpairwise, ← h, List.filter_filter]
    refine List.filter_congr fun b _ => ?_
    by_cases hab : r a b
    · rw [decide_eq_true hab, decide_eq_true (trans_of r hca hab)]
      rfl
    · rw [decide_eq_false hab]
      rfl

end Sorted

/-! ### Following -/

section Follow

variable {r : κ → κ → Prop} [DecidableRel r] [IsStrictTotalOrder κ r] {rows : List κ}
  {ask : ℕ → Option γ → Option (List κ × Option γ)}

/-- What there is after a key is got by following it. -/
lemma follow_after (encode : κ → γ) (limit : ℕ → ℕ) (hrows : rows.Nodup)
    (hlimit : ∀ k, 0 < limit k)
    (hask : ∀ k c, ask k (c.map encode) =
      some ((page r rows c (limit k)).1, (page r rows c (limit k)).2.map encode))
    {fuel : ℕ} (k : ℕ) (c : Option κ) (hfuel : (sorted r (after r rows c)).length < fuel) :
    follow ask fuel k (c.map encode) = some (sorted r (after r rows c)) := by
  induction fuel generalizing k c with
  | zero => exact absurd hfuel (Nat.not_lt_zero _)
  | succ fuel ih =>
    generalize hrest : sorted r (after r rows c) = rest at hfuel ⊢
    rw [follow, hask, Option.bind_some]
    simp only [page, hrest, List.take_take, List.length_take, Nat.min_eq_left (Nat.le_succ _)]
    by_cases hmore : limit k < min (limit k + 1) rest.length
    · rw [if_pos hmore]
      have hlt : limit k < rest.length := by omega
      -- The last row of the page is where the next one goes on.
      obtain ⟨l, a, hl⟩ : ∃ l a, rest.take (limit k) = l ++ [a] := by
        rcases List.eq_nil_or_concat (rest.take (limit k)) with hnil | h
        · have hlength := congrArg List.length hnil
          rw [List.length_take, List.length_nil] at hlength
          have := hlimit k
          omega
        · simpa using h
      have hsplit : rest = l ++ a :: rest.drop (limit k) := by
        rw [← List.singleton_append, ← List.append_assoc, ← hl, List.take_append_drop]
      have hnext := sorted_after_of_append hrows (hrest.trans hsplit)
      rw [hl, List.getLast?_concat, Option.map_some]
      have hfollow := ih (k + 1) (some a) (by
        rw [hnext, List.length_drop]
        have := hlimit k
        omega)
      rw [Option.map_some, hnext] at hfollow
      simp only [hfollow, Option.map_some, ← hl, List.take_append_drop]
    · rw [if_neg hmore]
      simp only [Option.map_none]
      rw [List.take_of_length_le (by omega)]

omit [DecidableRel r] [IsStrictTotalOrder κ r] in
/-- However long one is ready to go on, there is one end. -/
lemma follow_unique {m n k : ℕ} {c : Option γ} {l l' : List κ} (hm : follow ask m k c = some l)
    (hn : follow ask n k c = some l') : l = l' := by
  induction m generalizing n k c l l' with
  | zero => cases hm
  | succ m ih =>
    cases n with
    | zero => cases hn
    | succ n =>
      rw [follow] at hm hn
      obtain ⟨answer, hanswer, hm⟩ := Option.bind_eq_some_iff.1 hm
      rw [hanswer, Option.bind_some] at hn
      cases hnext : answer.2 with
      | none =>
        simp only [hnext] at hm hn
        exact Option.some.inj (hm.symm.trans hn)
      | some c' =>
        simp only [hnext] at hm hn
        obtain ⟨rest, hrest, rfl⟩ := Option.map_eq_some_iff.1 hm
        obtain ⟨rest', hrest', rfl⟩ := Option.map_eq_some_iff.1 hn
        rw [ih hrest hrest']

omit [DecidableRel r] [IsStrictTotalOrder κ r] in
/-- Following what is shown of the rows shows the rows that following gives. -/
lemma follow_map {δ : Type*} (f : κ → δ) (fuel k : ℕ) (c : Option γ) :
    follow (fun k c => (ask k c).map fun answer => (answer.1.map f, answer.2)) fuel k c =
      (follow ask fuel k c).map (List.map f) := by
  induction fuel generalizing k c with
  | zero => rfl
  | succ fuel ih =>
    rw [follow, follow]
    cases ask k c with
    | none => rfl
    | some answer =>
      obtain ⟨rows, next⟩ := answer
      cases next with
      | none => rfl
      | some c' =>
        simp only [Option.map_some, Option.bind_some, ih, Option.map_map]
        congr 1
        funext rest
        exact (List.map_append ..).symm

omit [DecidableRel r] [IsStrictTotalOrder κ r] in
/-- What holds of the rows of every page holds of what following gives. -/
lemma follow_forall {p : κ → Prop} (hp : ∀ k c answer, ask k c = some answer → ∀ a ∈ answer.1, p a)
    {fuel k : ℕ} {c : Option γ} {l : List κ} (h : follow ask fuel k c = some l) :
    ∀ a ∈ l, p a := by
  induction fuel generalizing k c l with
  | zero => cases h
  | succ fuel ih =>
    rw [follow] at h
    obtain ⟨answer, hanswer, h⟩ := Option.bind_eq_some_iff.1 h
    have hpage := hp k c answer hanswer
    cases hnext : answer.2 with
    | none =>
      simp only [hnext] at h
      obtain rfl := Option.some.inj h
      exact hpage
    | some c' =>
      simp only [hnext] at h
      obtain ⟨rest, hrest, rfl⟩ := Option.map_eq_some_iff.1 h
      exact List.forall_mem_append.2 ⟨hpage, ih hrest⟩

/-- **Following the keys from the first page gives the sorted list, and ends.** -/
theorem follow_eq (encode : κ → γ) (limit : ℕ → ℕ) (hrows : rows.Nodup)
    (hlimit : ∀ k, 0 < limit k)
    (hask : ∀ k c, ask k (c.map encode) =
      some ((page r rows c (limit k)).1, (page r rows c (limit k)).2.map encode)) :
    follow ask (rows.length + 1) 0 none = some (sorted r rows) :=
  follow_after encode limit hrows hlimit hask 0 none (by
    rw [length_sorted]
    exact Nat.lt_succ_self _)

end Follow

end Keyset
