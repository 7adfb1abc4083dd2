/-
The first element of a list that has a property.

* `Firsts.findSome?_eq_some_iff`: searching a list gives what is found at the first element where
  something is.
* `Firsts.findSome?_putAll`: things that have been there already do not change what a search finds.
* `Firsts.exists_perm_cons`: any element can be made the first one.
-/
import Burla.Lib.Once
import Mathlib.Data.List.Perm.Basic

namespace Firsts

variable {α β : Type*} {p q : α → Prop} {l : List α} {a a' : α}

/-- The first element with a property. -/
def First (p : α → Prop) (l : List α) (a : α) : Prop :=
  ∃ earlier later, l = earlier ++ a :: later ∧ p a ∧ ∀ b ∈ earlier, ¬p b

lemma First.mem (h : First p l a) : a ∈ l := by
  obtain ⟨earlier, later, rfl, -, -⟩ := h
  exact List.mem_append_right _ List.mem_cons_self

lemma First.prop (h : First p l a) : p a := h.choose_spec.choose_spec.2.1

lemma exists_first (h : ∃ a ∈ l, p a) : ∃ a, First p l a := by
  induction l with
  | nil =>
    obtain ⟨a, hmem, -⟩ := h
    cases hmem
  | cons b l ih =>
    by_cases hb : p b
    · exact ⟨b, [], l, rfl, hb, fun _ hmem => by cases hmem⟩
    · obtain ⟨a, hmem, ha⟩ := h
      have htail : a ∈ l := (List.mem_cons.1 hmem).resolve_left fun heq => hb (heq ▸ ha)
      obtain ⟨c, earlier, later, rfl, hc, hearlier⟩ := ih ⟨a, htail, ha⟩
      refine ⟨c, b :: earlier, later, rfl, hc, fun x hx => ?_⟩
      rcases List.mem_cons.1 hx with rfl | hx
      · exact hb
      · exact hearlier x hx

lemma First.unique (h : First p l a) (h' : First p l a') : a = a' := by
  obtain ⟨earlier, later, rfl, ha, hearlier⟩ := h
  obtain ⟨earlier', later', heq, ha', hearlier'⟩ := h'
  rcases List.append_eq_append_iff.1 heq with ⟨xs, rfl, hxs⟩ | ⟨xs, rfl, hxs⟩
  · cases xs with
    | nil => exact (List.cons.inj hxs).1
    | cons x xs =>
      obtain ⟨rfl, -⟩ := List.cons.inj hxs
      exact absurd ha (hearlier' a (List.mem_append_right _ List.mem_cons_self))
  · cases xs with
    | nil => exact (List.cons.inj hxs).1.symm
    | cons x xs =>
      obtain ⟨rfl, -⟩ := List.cons.inj hxs
      exact absurd ha' (hearlier a' (List.mem_append_right _ List.mem_cons_self))

lemma First.congr (h : First p l a) (hpq : ∀ a ∈ l, p a ↔ q a) : First q l a := by
  obtain ⟨earlier, later, rfl, ha, hearlier⟩ := h
  exact ⟨earlier, later, rfl, (hpq a (List.mem_append_right _ List.mem_cons_self)).1 ha,
    fun b hb hq => hearlier b hb ((hpq b (List.mem_append_left _ hb)).2 hq)⟩

/-! ### Searching -/

section Search

variable {f : α → Option β} {b : β}

/-- **What a search finds** is at the first element where there is something. -/
lemma findSome?_eq_some_iff :
    l.findSome? f = some b ↔ ∃ a, First (fun a => f a ≠ none) l a ∧ f a = some b := by
  rw [List.findSome?_eq_some_iff]
  constructor
  · rintro ⟨earlier, a, later, rfl, ha, hearlier⟩
    have hne : f a ≠ none := ha ▸ Option.some_ne_none b
    exact ⟨a, ⟨earlier, later, rfl, hne, fun x hx hne => hne (hearlier x hx)⟩, ha⟩
  · rintro ⟨a, ⟨earlier, later, rfl, -, hearlier⟩, ha⟩
    exact ⟨earlier, a, later, rfl, ha, fun x hx => not_not.1 (hearlier x hx)⟩

lemma findSome?_flatMap {γ : Type*} {g : α → List γ} {f : γ → Option β} :
    (l.flatMap g).findSome? f = l.findSome? fun a => (g a).findSome? f := by
  induction l with
  | nil => rfl
  | cons a l ih =>
    rw [List.flatMap_cons, List.findSome?_append, ih, List.findSome?_cons]
    cases (g a).findSome? f with
    | none => rfl
    | some b => rfl

end Search

section Once

variable {γ : Type} [DecidableEq γ] {f : γ → Option β} {seen added : List γ}

/-- **Things that have been there already** do not change what a search finds. -/
lemma findSome?_putAll : (Once.putAll id seen added).findSome? f = (seen ++ added).findSome? f := by
  induction added generalizing seen with
  | nil => rw [List.append_nil]; rfl
  | cons c added ih =>
    rw [Once.putAll, List.foldl_cons, ← Once.putAll, ih, Once.put, List.map_id]
    split_ifs with hseen
    · rw [List.findSome?_append, List.findSome?_append, List.findSome?_cons]
      cases hfound : seen.findSome? f with
      | some b => rfl
      | none =>
        have hnone : f c = none := List.findSome?_eq_none_iff.1 hfound c hseen
        rw [hnone]
    · rw [List.append_assoc]
      rfl

end Once

/-! ### Orders -/

/-- Any element can be made the first one. -/
lemma exists_perm_cons (h : a ∈ l) : ∃ l', (a :: l').Perm l := by
  obtain ⟨earlier, later, rfl⟩ := List.append_of_mem h
  exact ⟨earlier ++ later, List.perm_middle.symm⟩

/-- And the last one. -/
lemma exists_perm_concat (h : a ∈ l) : ∃ l', (l' ++ [a]).Perm l := by
  obtain ⟨l', hperm⟩ := exists_perm_cons h
  exact ⟨l', (List.perm_append_singleton a l').trans hperm⟩

end Firsts
