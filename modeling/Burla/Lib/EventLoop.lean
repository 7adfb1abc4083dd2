/-
Cooperative tasks over a shared state.

An event loop runs one task at a time, from one of its awaits to the next: a segment.  A segment
may change the shared state, go on as another task or none, start tasks and cancel others.  Which
task moves, and what its await returns, is part of the step's label.

An invariant is about the shared state and the tasks in any order (`EventLoop.Upheld.invariant`).
Often it is that of rely and guarantee: a property `I` of the shared state and a property `J` of
each task, such that a segment keeps `I`, leaves tasks with `J`, and does not take `J` from the
tasks it does not cancel (`EventLoop.Steady.reachable`).
-/
import Burla.Lib.Messages
import Burla.Lib.System

/-- What a segment leaves: the shared state, the tasks that go on from it, and which of the other
tasks it has cancelled. -/
structure Yielded (σ τ : Type*) where
  shared : σ
  tasks : List τ
  cancels : τ → Bool

/-- The tasks of an event loop. -/
structure EventLoop (σ τ α : Type*) where
  init : σ → List τ → Prop
  /-- The tasks that may come from outside. -/
  arrives : σ → τ → Bool
  segment : σ → τ → α → Option (Yielded σ τ)

inductive LoopEvent (τ α : Type*)
  | arrive (t : τ)
  /-- The task at an index moves. -/
  | run (i : ℕ) (a : α)

namespace EventLoop

variable {σ τ α : Type*} (L : EventLoop σ τ α)

/-- The loop as a transition system. -/
def system : System (σ × List τ) (LoopEvent τ α) where
  init s := L.init s.1 s.2
  step s
    | .arrive t => if L.arrives s.1 t = true then some (s.1, s.2 ++ [t]) else none
    | .run i a =>
      match takeAt s.2 i with
      | none => none
      | some (t, rest) =>
        (L.segment s.1 t a).map fun y =>
          (y.shared, (rest.filter fun u => !y.cancels u) ++ y.tasks)

/-- A condition on the segments, which may look at the other tasks. -/
def During (ok : σ → List τ → τ → α → Prop) (s : σ × List τ) : LoopEvent τ α → Prop
  | .arrive _ => True
  | .run i a => ∀ p ∈ takeAt s.2 i, ok s.1 p.2 p.1 a

instance (ok : σ → List τ → τ → α → Prop) [∀ s ts t a, Decidable (ok s ts t a)]
    (s : σ × List τ) : (e : LoopEvent τ α) → Decidable (During ok s e)
  | .arrive _ => .isTrue trivial
  | .run i a => inferInstanceAs (Decidable (∀ p ∈ takeAt s.2 i, ok s.1 p.2 p.1 a))

/-- `P` holds of the shared state and the tasks, in whatever order these are listed. -/
structure Upheld (ok : σ → List τ → τ → α → Prop) (P : σ → List τ → Prop) : Prop where
  perm : ∀ s ts ts', ts.Perm ts' → P s ts → P s ts'
  init : ∀ s ts, L.init s ts → P s ts
  arrive : ∀ s t ts, P s ts → L.arrives s t = true → P s (t :: ts)
  segment : ∀ s rest t a y, P s (t :: rest) → ok s rest t a → L.segment s t a = some y →
    P y.shared ((rest.filter fun u => !y.cancels u) ++ y.tasks)

/-- `I` holds of the shared state and `J` of each task, and no segment disturbs them. -/
structure Steady (ok : σ → List τ → τ → α → Prop) (I : σ → Prop) (J : σ → τ → Prop) : Prop where
  init : ∀ s ts, L.init s ts → I s ∧ ∀ t ∈ ts, J s t
  arrive : ∀ s t, I s → L.arrives s t = true → J s t
  segment : ∀ s rest t a y, I s → J s t → (∀ u ∈ rest, J s u) → ok s rest t a →
    L.segment s t a = some y →
    I y.shared ∧ (∀ u ∈ y.tasks, J y.shared u) ∧
      ∀ u ∈ rest, y.cancels u = false → J y.shared u

variable {L} {ok : σ → List τ → τ → α → Prop} {P : σ → List τ → Prop} {I : σ → Prop}
  {J : σ → τ → Prop} {s : σ × List τ}

/-- **What every segment upholds holds in every run.** -/
theorem Upheld.invariant (h : L.Upheld ok P) :
    L.system.Invariant (During ok) fun s => P s.1 s.2 where
  init s hs := h.init s.1 s.2 hs
  step := by
    rintro ⟨s, ts⟩ e ⟨s', ts'⟩ hP hok hstep
    cases e with
    | arrive t =>
      simp only [system] at hstep
      split_ifs at hstep with harr
      obtain ⟨rfl, rfl⟩ := Prod.mk.inj (Option.some.inj hstep)
      exact h.perm _ _ _ (List.perm_append_singleton t ts).symm (h.arrive s t ts hP harr)
    | run i a =>
      simp only [system] at hstep
      cases htake : takeAt ts i with
      | none => simp [htake] at hstep
      | some p =>
        obtain ⟨t, rest⟩ := p
        simp only [htake, Option.map_eq_some_iff] at hstep
        obtain ⟨y, hy, heq⟩ := hstep
        obtain ⟨rfl, rfl⟩ := Prod.mk.inj heq
        exact h.segment s rest t a y (h.perm s ts _ (takeAt_perm htake) hP)
          (hok (t, rest) htake) hy

lemma Upheld.reachable (h : L.Upheld ok P) (hs : L.system.Reachable (During ok) s) :
    P s.1 s.2 :=
  h.invariant.reachable hs

/-- What holds of every task does not depend on their order. -/
lemma Steady.upheld (h : L.Steady ok I J) : L.Upheld ok fun s ts => I s ∧ ∀ t ∈ ts, J s t where
  perm _ _ _ hperm := fun ⟨hI, hJ⟩ => ⟨hI, fun t ht => hJ t (hperm.mem_iff.2 ht)⟩
  init := h.init
  arrive s t ts := fun ⟨hI, hJ⟩ harr => by
    refine ⟨hI, fun u hu => ?_⟩
    rcases List.mem_cons.1 hu with rfl | hu
    · exact h.arrive s u hI harr
    · exact hJ u hu
  segment s rest t a y := fun ⟨hI, hJ⟩ hok hy => by
    obtain ⟨hI', hnew, hothers⟩ := h.segment s rest t a y hI (hJ t List.mem_cons_self)
      (fun u hu => hJ u (List.mem_cons_of_mem t hu)) hok hy
    refine ⟨hI', fun u hu => ?_⟩
    rcases List.mem_append.1 hu with hu | hu
    · obtain ⟨hu, hkept⟩ := List.mem_filter.1 hu
      exact hothers u hu (by simpa using hkept)
    · exact hnew u hu

/-- **What holds of the shared state and of every task, undisturbed, holds in every run.** -/
theorem Steady.reachable (h : L.Steady ok I J) (hs : L.system.Reachable (During ok) s) :
    I s.1 ∧ ∀ t ∈ s.2, J s.1 t :=
  h.upheld.reachable hs

end EventLoop
