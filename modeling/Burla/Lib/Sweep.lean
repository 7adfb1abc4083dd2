/-
Sweeping a sorted list in pages of so many rows, where a page that is full has the key of its last
row to go on with, whether or not there are more.

* `Keyset.follow_filled`: when the keys are strictly in order, following them gives the list.
* `Keyset.follow_bind`: following what is shown of the pages shows what following gives.
-/
import Burla.Lib.Keyset

namespace Keyset

variable {α κ γ δ : Type*}

section Filled

variable (r : κ → κ → Prop) [DecidableRel r] (key : α → κ)

/-- The rows whose keys come after one. -/
def afterKey (rows : List α) : Option κ → List α
  | none => rows
  | some c => rows.filter fun a => r c (key a)

/-- So many rows after a key, and the key to go on with when the page is full. -/
def filled (rows : List α) (c : Option κ) (limit : ℕ) : List α × Option κ :=
  let page := (afterKey r key rows c).take limit
  (page, if page.length = limit then page.getLast?.map key else none)

variable {r key} [IsStrictOrder κ r] {rows : List α}

lemma afterKey_append_cons {l₁ l₂ : List α} {a : α}
    (h : (l₁ ++ a :: l₂).Pairwise fun a b => r (key a) (key b)) :
    afterKey r key (l₁ ++ a :: l₂) (some (key a)) = l₂ := by
  obtain ⟨-, h₂, h₁⟩ := List.pairwise_append.1 h
  have hbefore : (l₁.filter fun b => decide (r (key a) (key b))) = [] := by
    rw [List.filter_eq_nil_iff]
    intro b hb
    rw [decide_eq_true_eq]
    exact asymm (h₁ b hb a List.mem_cons_self)
  have hafter : (l₂.filter fun b => decide (r (key a) (key b))) = l₂ := by
    rw [List.filter_eq_self]
    intro b hb
    exact decide_eq_true (List.rel_of_pairwise_cons h₂ hb)
  rw [afterKey, List.filter_append, hbefore, List.nil_append,
    List.filter_cons_of_neg (by rw [decide_eq_true_eq]; exact irrefl _), hafter]

/-- The rest of the list is got by going on. -/
lemma follow_filled_rest {ask : ℕ → Option γ → Option (List α × Option γ)} (encode : κ → γ)
    (limit : ℕ → ℕ) (hrows : rows.Pairwise fun a b => r (key a) (key b))
    (hlimit : ∀ k, 0 < limit k)
    (hask : ∀ k c, ask k (c.map encode) =
      some ((filled r key rows c (limit k)).1, (filled r key rows c (limit k)).2.map encode))
    {fuel : ℕ} (k : ℕ) (c : Option κ) {before rest : List α} (hrest : rows = before ++ rest)
    (hc : afterKey r key rows c = rest) (hfuel : rest.length < fuel) :
    follow ask fuel k (c.map encode) = some rest := by
  induction fuel generalizing k c before rest with
  | zero => exact absurd hfuel (Nat.not_lt_zero _)
  | succ fuel ih =>
    have hpos := hlimit k
    rw [follow, hask, Option.bind_some]
    simp only [filled, hc, List.length_take]
    by_cases hfull : limit k ≤ rest.length
    · rw [if_pos (Nat.min_eq_left hfull)]
      -- the last row of the page is where the next one goes on
      obtain ⟨l, a, hl⟩ : ∃ l a, rest.take (limit k) = l ++ [a] := by
        rcases List.eq_nil_or_concat (rest.take (limit k)) with hnil | h
        · have hlength := congrArg List.length hnil
          rw [List.length_take, List.length_nil] at hlength
          omega
        · simpa using h
      have hsplit : rows = (before ++ l) ++ a :: rest.drop (limit k) := by
        rw [hrest, List.append_assoc, ← List.singleton_append, ← List.append_assoc l, ← hl,
          List.take_append_drop]
      have hnext : afterKey r key rows (some (key a)) = rest.drop (limit k) := by
        rw [hsplit] at hrows ⊢
        exact afterKey_append_cons hrows
      have hlater : rows = (before ++ l ++ [a]) ++ rest.drop (limit k) := by
        rw [hsplit, List.append_assoc (before ++ l), List.singleton_append]
      have hmore := ih (k + 1) (some (key a)) hlater hnext (by rw [List.length_drop]; omega)
      rw [hl, List.getLast?_concat, Option.map_some, Option.map_some]
      rw [Option.map_some] at hmore
      simp only [hmore, Option.map_some, ← hl, List.take_append_drop]
    · rw [if_neg (by omega)]
      simp only [Option.map_none]
      rw [List.take_of_length_le (by omega)]

/-- **Following the keys gives the list, and ends.** -/
theorem follow_filled {ask : ℕ → Option γ → Option (List α × Option γ)} (encode : κ → γ)
    (limit : ℕ → ℕ) (hrows : rows.Pairwise fun a b => r (key a) (key b))
    (hlimit : ∀ k, 0 < limit k)
    (hask : ∀ k c, ask k (c.map encode) =
      some ((filled r key rows c (limit k)).1, (filled r key rows c (limit k)).2.map encode))
    {fuel : ℕ} (hfuel : rows.length < fuel) : follow ask fuel 0 none = some rows :=
  follow_filled_rest encode limit hrows hlimit hask 0 none (List.nil_append rows).symm rfl hfuel

end Filled

/-- Following what is shown of the pages shows what following gives. -/
lemma follow_bind {ask : ℕ → Option γ → Option (List α × Option γ)}
    {shown : List α → Option (List δ)} (happend : ∀ l l', shown (l ++ l') =
      (shown l).bind fun s => (shown l').map (s ++ ·)) (fuel k : ℕ) (c : Option γ) :
    follow (fun k c => (ask k c).bind fun answer => (shown answer.1).map fun s => (s, answer.2))
      fuel k c = (follow ask fuel k c).bind shown := by
  induction fuel generalizing k c with
  | zero => rfl
  | succ fuel ih =>
    rw [follow, follow]
    cases ask k c with
    | none => rfl
    | some answer =>
      obtain ⟨rows, next⟩ := answer
      simp only [Option.bind_some]
      cases hshown : shown rows with
      | none =>
        cases next with
        | none => exact hshown.symm
        | some c' =>
          cases hrest : follow ask fuel (k + 1) (some c') <;> simp [happend, hshown, hrest]
      | some s =>
        cases next with
        | none => exact hshown.symm
        | some c' =>
          simp only [Option.map_some, Option.bind_some, ih]
          cases follow ask fuel (k + 1) (some c') with
          | none => rfl
          | some rest => simp [happend, hshown]

end Keyset
