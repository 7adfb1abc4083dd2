/-
Passes over a list whose steps may fail.

* `Passes.mapM_eq_ok_iff`: a pass succeeds with the results of its steps.
* `Passes.flatMap_perm`: what is collected from the results is what belongs to the items.
* `Passes.nodup_flatMap`: nothing is collected twice when the steps keep apart.
-/
import Mathlib.Data.List.Forall2
import Mathlib.Tactic.Common

namespace Passes

variable {ε α β γ : Type*} {f : α → Except ε β} {l : List α} {r : List β} {R : α → β → Prop}

/-- **A pass succeeds with the results of its steps.** -/
lemma mapM_eq_ok_iff : l.mapM f = .ok r ↔ List.Forall₂ (fun a b => f a = .ok b) l r := by
  induction l generalizing r with
  | nil =>
    rw [List.mapM_nil, List.forall₂_nil_left_iff]
    constructor
    · rintro ⟨⟩
      rfl
    · rintro rfl
      rfl
  | cons a l ih =>
    rw [List.mapM_cons, List.forall₂_cons_left_iff]
    cases ha : f a with
    | error e => simp [bind, Except.bind]
    | ok b =>
      cases hl : l.mapM f with
      | error e => simp [bind, Except.bind, ← ih, hl]
      | ok bs =>
        have hrest : ∀ u, List.Forall₂ (fun a b => f a = .ok b) l u ↔ bs = u :=
          fun u => by rw [← ih, hl, Except.ok.injEq]
        simp [bind, Except.bind, pure, Except.pure, hrest, eq_comm]

/-- Every item has a result. -/
lemma exists_forall₂_iff : (∃ r, List.Forall₂ R l r) ↔ ∀ a ∈ l, ∃ b, R a b := by
  constructor
  · rintro ⟨r, h⟩
    induction h with
    | nil => exact fun _ ha => nomatch ha
    | cons hR _ ih => exact List.forall_mem_cons.2 ⟨⟨_, hR⟩, ih⟩
  · intro h
    induction l with
    | nil => exact ⟨[], .nil⟩
    | cons a l ih =>
      obtain ⟨b, hb⟩ := h a List.mem_cons_self
      obtain ⟨r, hr⟩ := ih fun x hx => h x (List.mem_cons_of_mem a hx)
      exact ⟨b :: r, .cons hb hr⟩

/-- What the results have is what the items give. -/
lemma map_eq_map {g : β → γ} {k : α → γ} (h : List.Forall₂ R l r)
    (hstep : ∀ a ∈ l, ∀ b, R a b → g b = k a) : r.map g = l.map k := by
  induction h with
  | nil => rfl
  | cons hR _ ih =>
    rw [List.map_cons, List.map_cons, hstep _ List.mem_cons_self _ hR,
      ih fun a ha => hstep a (List.mem_cons_of_mem _ ha)]

lemma exists_of_mem_right (h : List.Forall₂ R l r) {b : β} (hb : b ∈ r) : ∃ a ∈ l, R a b := by
  induction h with
  | nil => cases hb
  | cons hR _ ih =>
    rcases List.mem_cons.1 hb with rfl | hb
    · exact ⟨_, List.mem_cons_self, hR⟩
    · obtain ⟨a, ha, hab⟩ := ih hb
      exact ⟨a, List.mem_cons_of_mem _ ha, hab⟩

lemma exists_of_mem_left (h : List.Forall₂ R l r) {a : α} (ha : a ∈ l) : ∃ b ∈ r, R a b := by
  induction h with
  | nil => cases ha
  | cons hR _ ih =>
    rcases List.mem_cons.1 ha with rfl | ha
    · exact ⟨_, List.mem_cons_self, hR⟩
    · obtain ⟨b, hb, hab⟩ := ih ha
      exact ⟨b, List.mem_cons_of_mem _ hb, hab⟩

/-- **What is collected from the results** is what belongs to the items. -/
lemma flatMap_perm {g : β → List γ} {k : α → List γ} (h : List.Forall₂ R l r)
    (hstep : ∀ a b, R a b → (g b).Perm (k a)) : (r.flatMap g).Perm (l.flatMap k) := by
  induction h with
  | nil => exact .nil
  | cons hR _ ih =>
    rw [List.flatMap_cons, List.flatMap_cons]
    exact (hstep _ _ hR).append ih

/-- Collected without repetition: by every step, and by no two steps whose items have different
keys. -/
lemma nodup_flatMap {κ : Type*} {key : α → κ} {g : β → List γ} (h : List.Forall₂ R l r)
    (hkeys : (l.map key).Nodup) (hstep : ∀ a b, R a b → (g b).Nodup)
    (happart : ∀ a a' b b' x, R a b → R a' b' → x ∈ g b → x ∈ g b' → key a = key a') :
    (r.flatMap g).Nodup := by
  induction h with
  | nil => exact List.nodup_nil
  | cons hR hrest ih =>
    obtain ⟨hnot, hkeys⟩ := List.nodup_cons.1 hkeys
    rw [List.flatMap_cons, List.nodup_append]
    refine ⟨hstep _ _ hR, ih hkeys, ?_⟩
    rintro x hx _ hx' rfl
    obtain ⟨b', hb', hx'⟩ := List.mem_flatMap.1 hx'
    obtain ⟨a', ha', hR'⟩ := exists_of_mem_right hrest hb'
    exact hnot (happart _ _ _ _ x hR hR' hx hx' ▸ List.mem_map_of_mem ha')

end Passes
