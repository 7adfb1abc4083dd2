/-
Transition systems with labelled steps, their runs, and the invariant rules.

A step is a partial function of the state and of a label: whatever the
environment decides (which task moves next, which message is lost, what a clock
reads) is part of the label, so a run is determined by its list of labels and
can be evaluated.  The runs are indexed by a side condition `ok` on the steps
they take.  With `ok` always true they are all the runs of the system; a
conditional result is about the runs whose every step meets its condition.

The main results are

* `System.Preserved.run`: what holds in a state and is preserved by the allowed
  steps holds at the end of every allowed run;
* `System.Invariant.reachable`: the same from the initial states;
* `System.along_iff`: a property that a step keeps exactly when it meets a condition holds along
  exactly those runs whose steps all meet it;
* `System.run_of_exec_guarded`: evaluating a list of labels that all meet the condition gives
  such a run;
* `System.logged_step_eq_some`: a step of a system with a log is one of the system itself, and
  what it writes comes after what is in the log.
-/
import Mathlib.Data.List.Basic
import Mathlib.Tactic.Common

/-- A transition system: which states are initial, and where a label leads from a
state (nowhere when the step is not enabled). -/
structure System (σ α : Type*) where
  /-- The initial states. -/
  init : σ → Prop
  /-- The step function. -/
  step : σ → α → Option σ

namespace System

variable {σ α : Type*} (S : System σ α)

/-- The state that a list of labels leads to. -/
def exec : σ → List α → Option σ
  | s, [] => some s
  | s, a :: as => (S.step s a).bind fun t => exec t as

/-- A run whose steps all meet the condition `ok`, with the labels it takes. -/
inductive Run (ok : σ → α → Prop) : σ → List α → σ → Prop
  | nil {s : σ} : Run ok s [] s
  | snoc {s t u : σ} {as : List α} {a : α} :
      Run ok s as t → ok t a → S.step t a = some u → Run ok s (as ++ [a]) u

/-- The condition that every step meets. -/
def always : σ → α → Prop := fun _ _ => True

instance (s : σ) (a : α) : Decidable (always s a) := .isTrue trivial

/-- The states at the end of a run from an initial state. -/
def Reachable (ok : σ → α → Prop) (s : σ) : Prop :=
  ∃ s₀ as, S.init s₀ ∧ S.Run ok s₀ as s

variable {S} {ok : σ → α → Prop} {s t u : σ} {as : List α} {a : α}

namespace Run

lemma cons (h : S.step s a = some t) (hok : ok s a) (hr : S.Run ok t as u) :
    S.Run ok s (a :: as) u := by
  induction hr with
  | nil => simpa using Run.nil.snoc hok h
  | snoc _ hok' hstep ih => simpa using ih.snoc hok' hstep

/-- A run whose steps meet a condition meets each weaker one. -/
lemma mono {ok' : σ → α → Prop} (h : ∀ s a, ok s a → ok' s a) (hr : S.Run ok s as t) :
    S.Run ok' s as t := by
  induction hr with
  | nil => exact nil
  | snoc _ hok hstep ih => exact ih.snoc (h _ _ hok) hstep

end Run

lemma Reachable.snoc (h : S.Reachable ok s) (hok : ok s a) (hstep : S.step s a = some t) :
    S.Reachable ok t := by
  obtain ⟨s₀, as, hinit, hrun⟩ := h
  exact ⟨s₀, as ++ [a], hinit, hrun.snoc hok hstep⟩

/-- Evaluating labels goes on with a run. -/
lemma Run.exec {bs : List α} (hr : S.Run always s as t) (h : S.exec t bs = some u) :
    S.Run always s (as ++ bs) u := by
  induction bs generalizing t as with
  | nil =>
    obtain rfl : t = u := by simpa [System.exec] using h
    simpa using hr
  | cons b bs ih =>
    simp only [System.exec, Option.bind_eq_some_iff] at h
    obtain ⟨t', hstep, hrest⟩ := h
    simpa using ih (hr.snoc trivial hstep) hrest

/-- Evaluating labels goes on from a reachable state. -/
lemma Reachable.exec (h : S.Reachable always s) (hexec : S.exec s as = some t) :
    S.Reachable always t := by
  obtain ⟨s₀, bs, hinit, hrun⟩ := h
  exact ⟨s₀, bs ++ as, hinit, hrun.exec hexec⟩

/-! ### Prefixes -/

lemma Run.of_nil (hr : S.Run ok s [] t) : s = t := by
  generalize hbs : ([] : List α) = bs at hr
  cases hr with
  | nil => rfl
  | snoc _ _ _ => exact absurd hbs.symm (List.append_ne_nil_of_right_ne_nil _ (List.cons_ne_nil _ _))

/-- A run ends with its last step. -/
lemma Run.of_concat (hr : S.Run ok s (as ++ [a]) u) :
    ∃ t, S.Run ok s as t ∧ ok t a ∧ S.step t a = some u := by
  generalize hbs : as ++ [a] = bs at hr
  cases hr with
  | nil => exact absurd hbs (List.append_ne_nil_of_right_ne_nil _ (List.cons_ne_nil _ _))
  | snoc hrun hok hstep =>
    obtain ⟨rfl, hlast⟩ := List.append_inj' hbs rfl
    obtain ⟨rfl, -⟩ := List.cons.inj hlast
    exact ⟨_, hrun, hok, hstep⟩

/-- A run is determined by its labels. -/
lemma Run.unique {ok' : σ → α → Prop} (hr : S.Run ok s as t) (hr' : S.Run ok' s as u) : t = u := by
  induction hr generalizing u with
  | nil => exact hr'.of_nil
  | snoc hrun _ hstep ih =>
    obtain ⟨t', hrun', -, hstep'⟩ := hr'.of_concat
    obtain rfl := ih hrun'
    exact Option.some.inj (hstep.symm.trans hstep')

/-- **Where a property holds along a run**: if a step keeps it exactly when it meets a condition, it
holds in every state of a run exactly when all steps do. -/
lemma along_iff {P : σ → Prop} (hs : P s)
    (hstep : ∀ s a t, P s → S.step s a = some t → (P t ↔ ok s a)) (hr : S.Run always s as t) :
    (∀ bs u, bs <+: as → S.Run always s bs u → P u) ↔ S.Run ok s as t := by
  induction hr with
  | nil =>
    refine ⟨fun _ => .nil, fun _ bs u hbs hrun => ?_⟩
    obtain rfl := List.prefix_nil.1 hbs
    exact hrun.of_nil ▸ hs
  | snoc hrun htrivial hlast ih =>
    constructor
    · intro hall
      have hbefore := ih.1 fun bs u hbs => hall bs u (hbs.trans (List.prefix_append _ _))
      have hP := hall _ _ (List.prefix_append _ _) hrun
      have hP' := hall _ _ List.prefix_rfl (hrun.snoc htrivial hlast)
      exact hbefore.snoc ((hstep _ _ _ hP hlast).1 hP') hlast
    · intro hok bs v hbs hv
      obtain ⟨t, hbefore, hmeets, hlast'⟩ := hok.of_concat
      obtain rfl := hrun.unique hbefore
      have hall := ih.2 hbefore
      rcases List.prefix_concat_iff.1 hbs with rfl | hbs
      · obtain rfl := hv.unique (hrun.snoc htrivial hlast)
        exact (hstep _ _ _ (hall _ _ List.prefix_rfl hrun) hlast).2 hmeets
      · exact hall bs v hbs hv

section Guarded

variable (S ok) [∀ s a, Decidable (ok s a)]

/-- The system cut down to the steps that meet a decidable condition. -/
def guarded : System σ α where
  init := S.init
  step s a := if ok s a then S.step s a else none

variable {S ok}

lemma run_of_exec_guarded (h : (S.guarded ok).exec s as = some t) : S.Run ok s as t := by
  induction as generalizing s with
  | nil =>
    obtain rfl : s = t := by simpa [exec] using h
    exact Run.nil
  | cons a as ih =>
    simp only [exec, Option.bind_eq_some_iff] at h
    obtain ⟨s', hstep, hrest⟩ := h
    by_cases hok : ok s a
    · exact Run.cons (by simpa [guarded, hok] using hstep) hok (ih hrest)
    · simp [guarded, hok] at hstep

end Guarded

/-! ### Invariants -/

/-- A property that the allowed steps preserve. -/
def Preserved (S : System σ α) (ok : σ → α → Prop) (P : σ → Prop) : Prop :=
  ∀ s a t, P s → ok s a → S.step s a = some t → P t

/-- A property that holds initially and that the allowed steps preserve. -/
structure Invariant (S : System σ α) (ok : σ → α → Prop) (P : σ → Prop) : Prop where
  init : ∀ s, S.init s → P s
  step : S.Preserved ok P

lemma Preserved.run {P : σ → Prop} (h : S.Preserved ok P) (hs : P s) (hr : S.Run ok s as t) :
    P t := by
  induction hr with
  | nil => exact hs
  | snoc _ hok hstep ih => exact h _ _ _ ih hok hstep

lemma Invariant.reachable {P : σ → Prop} (h : S.Invariant ok P) (hr : S.Reachable ok s) :
    P s := by
  obtain ⟨s₀, as, hinit, hrun⟩ := hr
  exact h.step.run (h.init s₀ hinit) hrun

/-- An invariant may be proved while assuming another one. -/
lemma Invariant.strengthen {P Q : σ → Prop} (hP : S.Invariant ok P)
    (hinit : ∀ s, S.init s → Q s)
    (hstep : ∀ s a t, P s → Q s → ok s a → S.step s a = some t → Q t) :
    S.Invariant ok fun s => P s ∧ Q s where
  init s hs := ⟨hP.init s hs, hinit s hs⟩
  step s a t h hok hst := ⟨hP.step s a t h.1 hok hst, hstep s a t h.1 h.2 hok hst⟩

/-! ### Logs

A log is written beside the state and read by nothing; it is where a statement
about the history of a run finds what it talks about. -/

section Log

variable {β : Type*}

/-- The system with a log: each step appends what `note` says about it. -/
def logged (S : System σ α) (note : σ → α → σ → List β) : System (σ × List β) α where
  init p := S.init p.1 ∧ p.2 = []
  step p a := (S.step p.1 a).map fun t => (t, p.2 ++ note p.1 a t)

variable {note : σ → α → σ → List β}

lemma logged_step_eq_some {p q : σ × List β} :
    (S.logged note).step p a = some q ↔
      S.step p.1 a = some q.1 ∧ q.2 = p.2 ++ note p.1 a q.1 := by
  obtain ⟨t, l'⟩ := q
  simp only [logged, Option.map_eq_some_iff, Prod.mk.injEq]
  constructor
  · rintro ⟨t', ht, rfl, rfl⟩
    exact ⟨ht, rfl⟩
  · rintro ⟨ht, rfl⟩
    exact ⟨t, ht, rfl, rfl⟩

end Log

end System
