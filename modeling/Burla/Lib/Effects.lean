/-
Programs that change a state and may raise; what has been changed before stays.

* `Effect`: such a program, with `Effect.raise` and the loop `Effect.forEach`.
* `Effect.Triple`: from a state that meets the precondition the program returns to one that meets
  the postcondition, or raises in one that meets the condition for that.
* `Effect.Triple.bind`, `Effect.Triple.forEach`: one rule for each way to put programs together.
-/
import Mathlib.Tactic.Common

/-- A program on a state, which returns a value or raises. -/
def Effect (ε σ α : Type) : Type := σ → Except ε α × σ

namespace Effect

variable {ε σ α β : Type}

instance : Monad (Effect ε σ) where
  pure a := fun s => (.ok a, s)
  bind m f := fun s =>
    match m s with
    | (.ok a, t) => f a t
    | (.error e, t) => (.error e, t)

def raise (e : ε) : Effect ε σ α := fun s => (.error e, s)

def raiseIf (b : Bool) (e : ε) : Effect ε σ Unit := if b = true then raise e else pure ()

def read : Effect ε σ σ := fun s => (.ok s, s)

def modify (f : σ → σ) : Effect ε σ Unit := fun s => (.ok (), f s)

/-- `for` over a list, with the values of the passes. -/
def forEach (f : α → Effect ε σ β) : List α → Effect ε σ (List β)
  | [] => pure []
  | a :: l => do
    let b ← f a
    let bs ← forEach f l
    pure (b :: bs)

lemma bind_of_ok {m : Effect ε σ α} {f : α → Effect ε σ β} {a : α} {s t : σ}
    (h : m s = (.ok a, t)) : (m >>= f) s = f a t := by
  show (match m s with
    | (.ok a, t) => f a t
    | (.error e, t) => (.error e, t)) = f a t
  rw [h]

@[simp] lemma pure_run {a : α} {s : σ} : (pure a : Effect ε σ α) s = (.ok a, s) := rfl

@[simp] lemma read_bind {f : σ → Effect ε σ β} {s : σ} : (read >>= f) s = f s s := rfl

@[simp] lemma modify_bind {g : σ → σ} {f : Unit → Effect ε σ β} {s : σ} :
    (modify g >>= f) s = f () (g s) := rfl

@[simp] lemma raiseIf_false_bind {e : ε} {f : Unit → Effect ε σ β} {s : σ} :
    (raiseIf false e >>= f) s = f () s := rfl

@[simp] lemma raiseIf_true_bind {e : ε} {f : Unit → Effect ε σ β} {s : σ} :
    (raiseIf true e >>= f) s = (.error e, s) := rfl

lemma bind_of_error {m : Effect ε σ α} {f : α → Effect ε σ β} {e : ε} {s t : σ}
    (h : m s = (.error e, t)) : (m >>= f) s = (.error e, t) := by
  show (match m s with
    | (.ok a, t) => f a t
    | (.error e, t) => (.error e, t)) = (.error e, t)
  rw [h]

/-- Programs that do the same from a state go on in the same way. -/
lemma bind_congr_run {m m' : Effect ε σ α} {f : α → Effect ε σ β} {s : σ} (h : m s = m' s) :
    (m >>= f) s = (m' >>= f) s := by
  show (match m s with
    | (.ok a, t) => f a t
    | (.error e, t) => (.error e, t)) =
    match m' s with
    | (.ok a, t) => f a t
    | (.error e, t) => (.error e, t)
  rw [h]

/-- A partial specification, with a condition for the states in which the program raises. -/
def Triple (P : σ → Prop) (m : Effect ε σ α) (Q : α → σ → Prop) (E : σ → Prop) : Prop :=
  ∀ s, P s →
    match m s with
    | (.ok a, t) => Q a t
    | (.error _, t) => E t

namespace Triple

variable {P W : σ → Prop} {m : Effect ε σ α} {f : α → Effect ε σ β} {Q Q' : α → σ → Prop}
  {E : σ → Prop}

lemma pure {a : α} (h : ∀ s, P s → Q a s) : Triple P (Pure.pure a : Effect ε σ α) Q E := h

lemma raise {e : ε} (h : ∀ s, P s → E s) : Triple P (Effect.raise e : Effect ε σ α) Q E := h

lemma bind {R : β → σ → Prop} (hm : Triple P m Q E) (hf : ∀ a, Triple (Q a) (f a) R E) :
    Triple P (m >>= f) R E := by
  intro s hs
  have h := hm s hs
  show match (match m s with
    | (.ok a, t) => f a t
    | (.error e, t) => (.error e, t)) with
    | (.ok b, t) => R b t
    | (.error _, t) => E t
  rcases hms : m s with ⟨_ | a, t⟩
  · rw [hms] at h
    exact h
  · rw [hms] at h
    exact hf a t h

lemma mono {E' : σ → Prop} (h : Triple W m Q' E') (hP : ∀ s, P s → W s)
    (hQ : ∀ a s, Q' a s → Q a s) (hE : ∀ s, E' s → E s) : Triple P m Q E := by
  intro s hs
  have ht := h s (hP s hs)
  rcases hms : m s with ⟨_ | a, t⟩
  · rw [hms] at ht
    exact hE t ht
  · rw [hms] at ht
    exact hQ a t ht

/-- A loop keeps an invariant that may speak about the passes to come. -/
lemma forEach {I : List α → σ → Prop} (h : ∀ a l, Triple (I (a :: l)) (f a) (fun _ => I l) E)
    (l : List α) : Triple (I l) (Effect.forEach f l) (fun _ => I []) E := by
  induction l with
  | nil => exact pure fun _ hs => hs
  | cons a l ih => exact (h a l).bind fun _ => ih.bind fun _ => pure fun _ hs => hs

/-- What holds at the end, whichever way the program ends. -/
lemma ends {R : σ → Prop} (h : Triple P m (fun _ => R) R) {s : σ} (hs : P s) : R (m s).2 := by
  have ht := h s hs
  rcases hms : m s with ⟨_ | a, t⟩ <;> rw [hms] at ht <;> exact ht

end Triple

end Effect
