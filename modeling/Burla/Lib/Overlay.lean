/-
Trees laid over one another.

A tree says what there is at each path from its root.  Only directories have something below them
(`Overlay.Closed`).  Laid over another tree (`Overlay.lay`), a tree shows its own entries, hides
what is below those that are no directories, and leaves the rest as it is; in other words
(`Overlay.laid_lay`), an entry is hidden when it is below one that is replaced.  Trees that have
nothing but directories in common can be laid over a third one in any order
(`Overlay.foldl_lay_perm`).
-/
import Mathlib.Data.List.Perm.Basic
import Mathlib.Data.List.Infix
import Mathlib.Data.List.Pairwise
import Mathlib.Tactic.Common

namespace Overlay

variable {ν ε : Type*}

/-- What there is at each path. -/
abbrev Tree (ν ε : Type*) := List ν → Option ε

variable (dir : ε)

/-- Only directories have something below them. -/
def Closed (t : Tree ν ε) : Prop := ∀ p x, t (p ++ [x]) ≠ none → t p = some dir

/-- Something that is no directory is at a path or above it. -/
def Covered (t : Tree ν ε) (p : List ν) : Prop := ∃ r, r <+: p ∧ ∃ e, t r = some e ∧ e ≠ dir

open Classical in
/-- A tree laid over another one. -/
noncomputable def lay (s d : Tree ν ε) : Tree ν ε :=
  fun p => (s p).or (if Covered dir s p then none else d p)

/-- There is an entry in both trees, and these are not both directories. -/
def Replaced (s d : Tree ν ε) (p : List ν) : Prop :=
  s p ≠ none ∧ d p ≠ none ∧ ¬(s p = some dir ∧ d p = some dir)

/-- A tree is another one with a source laid over it. -/
structure Laid (s d t : Tree ν ε) : Prop where
  /-- What is in the source is there, -/
  source : ∀ p e, s p = some e → t p = some e
  /-- what is neither in the source nor below a replaced entry is unchanged, -/
  unchanged : ∀ p, s p = none → (∀ r, r <+: p → ¬Replaced dir s d r) → t p = d p
  /-- and what is below a replaced entry is gone. -/
  gone : ∀ p r, s p = none → r <+: p → Replaced dir s d r → t p = none

/-- Two trees have nothing but directories in common. -/
def Compatible (s t : Tree ν ε) : Prop :=
  ∀ p, s p ≠ none → t p ≠ none → s p = some dir ∧ t p = some dir

variable {dir} {s t d d' : Tree ν ε} {p r : List ν} {e : ε} {x : ν}

lemma ne_none (h : t p = some e) : t p ≠ none := by
  rw [h]
  exact Option.some_ne_none e

/-! ### Closed trees -/

/-- Above an entry there is a directory. -/
lemma Closed.of_append (h : Closed dir t) {q : List ν} (hne : q ≠ []) (hp : t (p ++ q) ≠ none) :
    t p = some dir := by
  induction q using List.reverseRecOn with
  | nil => exact absurd rfl hne
  | append_singleton q x ih =>
    rw [← List.append_assoc] at hp
    have hparent := h _ _ hp
    by_cases hq : q = []
    · rw [hq, List.append_nil] at hparent
      exact hparent
    · exact ih hq (ne_none hparent)

lemma Closed.of_prefix (h : Closed dir t) (hbelow : r <+: p) (hne : r ≠ p) (hp : t p ≠ none) :
    t r = some dir := by
  obtain ⟨q, rfl⟩ := hbelow
  refine h.of_append (q := q) ?_ hp
  rintro rfl
  exact hne (List.append_nil r).symm

/-- Nothing is below an entry that is no directory. -/
lemma Closed.eq_none (h : Closed dir t) {q : List ν} (hne : q ≠ []) (hp : t p ≠ some dir) :
    t (p ++ q) = none := by
  by_contra hq
  exact hp (h.of_append hne hq)

/-- What is below a path in a closed tree. -/
lemma Closed.below (h : Closed dir t) (p : List ν) : Closed dir fun q => t (p ++ q) := by
  intro q x hx
  refine h (p ++ q) x ?_
  rw [List.append_assoc]
  exact hx

/-! ### Laying a tree -/

lemma lay_of_some (hs : s p = some e) : lay dir s d p = some e := by
  rw [lay, hs, Option.some_or]

lemma lay_of_covered (hs : s p = none) (hcovered : Covered dir s p) : lay dir s d p = none := by
  rw [lay, hs, Option.none_or, if_pos hcovered]

lemma lay_of_not_covered (hs : s p = none) (hcovered : ¬Covered dir s p) :
    lay dir s d p = d p := by
  rw [lay, hs, Option.none_or, if_neg hcovered]

/-- Under a root that is there, the root of the other tree makes no difference. -/
lemma lay_congr (hroot : s [] ≠ none) (h : ∀ p, p ≠ [] → d p = d' p) :
    lay dir s d = lay dir s d' := by
  funext p
  cases hs : s p with
  | some e => rw [lay_of_some hs, lay_of_some hs]
  | none =>
    by_cases hcovered : Covered dir s p
    · rw [lay_of_covered hs hcovered, lay_of_covered hs hcovered]
    · rw [lay_of_not_covered hs hcovered, lay_of_not_covered hs hcovered]
      refine h p ?_
      rintro rfl
      exact hroot hs

/-- Nothing is below a root that is no directory. -/
lemma lay_of_root (hs : Closed dir s) (hroot : s [] = some e) (hne : e ≠ dir) (p : List ν) :
    lay dir s d p = if p = [] then some e else none := by
  split_ifs with hp
  · rw [hp, lay_of_some hroot]
  · have hnone : s p = none := by
      refine hs.eq_none (p := []) hp ?_
      rw [hroot]
      exact fun h => hne (Option.some.inj h)
    exact lay_of_covered hnone ⟨[], List.nil_prefix, e, hroot, hne⟩

lemma covered_cons (hroot : s [] = some dir) :
    Covered dir s (x :: p) ↔ Covered dir (fun q => s (x :: q)) p := by
  constructor
  · rintro ⟨r, hbelow, e, he, hne⟩
    cases r with
    | nil =>
      rw [hroot] at he
      exact absurd (Option.some.inj he).symm hne
    | cons y r =>
      obtain ⟨rfl, hr⟩ := List.cons_prefix_cons.1 hbelow
      exact ⟨r, hr, e, he, hne⟩
  · rintro ⟨r, hbelow, e, he, hne⟩
    exact ⟨x :: r, List.cons_prefix_cons.2 ⟨rfl, hbelow⟩, e, he, hne⟩

/-- Below a directory a tree is laid name by name. -/
lemma lay_cons (hroot : s [] = some dir) :
    lay dir s d (x :: p) = lay dir (fun q => s (x :: q)) (fun q => d (x :: q)) p := by
  rw [lay, lay, covered_cons hroot]

/-- A name that is not in the source is left alone. -/
lemma lay_cons_of_none (hs : Closed dir s) (hroot : s [] = some dir) (hx : s [x] = none) :
    lay dir s d (x :: p) = d (x :: p) := by
  have hnone : ∀ q, s (x :: q) = none := by
    intro q
    by_cases hq : q = []
    · rw [hq, hx]
    · refine hs.eq_none (p := [x]) hq ?_
      rw [hx]
      exact (Option.some_ne_none dir).symm
  refine lay_of_not_covered (hnone p) ?_
  rw [covered_cons hroot]
  rintro ⟨r, -, e, he, -⟩
  cases (hnone r).symm.trans he

/-- **What is laid over a closed tree** replaces entries, with what is below them. -/
lemma laid_lay (hd : Closed dir d) : Laid dir s d (lay dir s d) where
  source _ _ hs := lay_of_some hs
  unchanged p hs hreplaced := by
    by_cases hcovered : Covered dir s p
    · rw [lay_of_covered hs hcovered]
      obtain ⟨r, hbelow, e, he, hne⟩ := hcovered
      have hrp : r ≠ p := by
        rintro rfl
        cases hs.symm.trans he
      -- An entry would be below a directory, which is replaced.
      by_contra hp
      have hdir := hd.of_prefix hbelow hrp fun h => hp h.symm
      refine hreplaced r hbelow ⟨ne_none he, ne_none hdir, ?_⟩
      rintro ⟨h, -⟩
      exact hne (Option.some.inj (he.symm.trans h))
    · exact lay_of_not_covered hs hcovered
  gone p r hs hbelow hreplaced := by
    by_cases hcovered : Covered dir s p
    · exact lay_of_covered hs hcovered
    · rw [lay_of_not_covered hs hcovered]
      obtain ⟨hsr, hdr, hboth⟩ := hreplaced
      have hdir : s r = some dir := by
        obtain ⟨e, he⟩ := Option.ne_none_iff_exists'.1 hsr
        by_contra hne
        exact hcovered ⟨r, hbelow, e, he, fun h => hne (h ▸ he)⟩
      have hrp : r ≠ p := by
        rintro rfl
        exact hsr hs
      by_contra hp
      exact hboth ⟨hdir, hd.of_prefix hbelow hrp hp⟩

/-! ### Several trees -/

lemma Compatible.symm (h : Compatible dir s t) : Compatible dir t s :=
  fun p ht hs => (h p hs ht).symm

/-- What is only in the first of two compatible trees is not covered by the second. -/
lemma Compatible.not_covered (h : Compatible dir s t) (hs : Closed dir s) (hp : s p ≠ none)
    (ht : t p = none) : ¬Covered dir t p := by
  rintro ⟨r, hbelow, e, he, hne⟩
  have hrp : r ≠ p := by
    rintro rfl
    cases ht.symm.trans he
  have hdir := hs.of_prefix hbelow hrp hp
  have hboth := h r (ne_none hdir) (ne_none he)
  exact hne (Option.some.inj (he.symm.trans hboth.2))

/-- What is in one of two compatible trees is shown whichever comes first. -/
lemma Compatible.lay_lay_of_some (h : Compatible dir s t) (hs : Closed dir s) (hp : s p = some e) :
    lay dir t (lay dir s d) p = some e := by
  cases ht : t p with
  | some e' =>
    obtain ⟨hsdir, htdir⟩ := h p (ne_none hp) (ne_none ht)
    rw [lay_of_some htdir, ← hsdir, hp]
  | none =>
    have hcovered := h.not_covered hs (ne_none hp) ht
    rw [lay_of_not_covered ht hcovered, lay_of_some hp]

/-- **Compatible trees** can be laid in either order. -/
lemma Compatible.lay_comm (h : Compatible dir s t) (hs : Closed dir s) (ht : Closed dir t) :
    lay dir s (lay dir t d) = lay dir t (lay dir s d) := by
  funext p
  cases hsp : s p with
  | some e => rw [lay_of_some hsp, h.lay_lay_of_some hs hsp]
  | none =>
    cases htp : t p with
    | some e => rw [h.symm.lay_lay_of_some ht htp, lay_of_some htp]
    | none =>
      by_cases hscovered : Covered dir s p
      · rw [lay_of_covered hsp hscovered]
        by_cases htcovered : Covered dir t p
        · rw [lay_of_covered htp htcovered]
        · rw [lay_of_not_covered htp htcovered, lay_of_covered hsp hscovered]
      · rw [lay_of_not_covered hsp hscovered]
        by_cases htcovered : Covered dir t p
        · rw [lay_of_covered htp htcovered, lay_of_covered htp htcovered]
        · rw [lay_of_not_covered htp htcovered, lay_of_not_covered htp htcovered,
            lay_of_not_covered hsp hscovered]

/-- **Trees that have only directories in common** can be laid in any order. -/
lemma foldl_lay_perm {stages stages' : List (Tree ν ε)} (hperm : stages.Perm stages')
    (hclosed : ∀ s ∈ stages, Closed dir s) (hcompatible : stages.Pairwise (Compatible dir))
    (d : Tree ν ε) :
    stages.foldl (fun d s => lay dir s d) d = stages'.foldl (fun d s => lay dir s d) d := by
  refine hperm.foldl_eq' (fun s hs t ht d => ?_) d
  by_cases hst : s = t
  · rw [hst]
  · have hsymm : Std.Symm (Compatible (ν := ν) dir) := ⟨fun _ _ h => h.symm⟩
    have hboth := hcompatible.forall hs ht hst
    exact (hboth.lay_comm (hclosed s hs) (hclosed t ht)).symm

end Overlay
