/-
A store that is written through one connection, on which a transaction stays open until it is
committed or rolled back.

Who reads through the connection sees the writes of the open transaction; whoever opens the store
anew sees what was committed.  A group of writes whose commit fails leaves the transaction open
with the writes that were made, unless it is rolled back, and a later commit makes them durable.
-/
import Mathlib.Data.List.Basic
import Mathlib.Tactic.Common

/-- A store and its open transaction. -/
structure Store (τ : Type*) where
  /-- What is durable. -/
  committed : τ
  /-- What the connection sees. -/
  working : τ

namespace Store

/-- How a group of writes ends. -/
inductive Outcome
  | committed
  /-- An exception after the first `n` writes; the transaction is rolled back or stays open. -/
  | failed (n : ℕ) (rolledBack : Bool)
  deriving DecidableEq

/-- None of the writes is left behind when the group fails. -/
def Outcome.Clean : Outcome → Bool
  | committed => true
  | failed n rolledBack => n = 0 || rolledBack

variable {τ : Type*}

/-- The writes one after another. -/
def applyAll (ws : List (τ → τ)) (t : τ) : τ := ws.foldl (fun t w => w t) t

/-- The store after a group of writes. -/
def write (s : Store τ) (ws : List (τ → τ)) : Outcome → Store τ
  | .committed => ⟨applyAll ws s.working, applyAll ws s.working⟩
  | .failed n rolledBack =>
    if rolledBack = true then ⟨s.committed, s.committed⟩
    else ⟨s.committed, applyAll (ws.take n) s.working⟩

/-- The store once its connection is gone. -/
def reopen (s : Store τ) : Store τ := ⟨s.committed, s.committed⟩

variable {s : Store τ} {ws : List (τ → τ)} {o : Outcome} {P : τ → Prop}

lemma applyAll_induction {t : τ} (ht : P t) (hws : ∀ w ∈ ws, ∀ t, P t → P (w t)) :
    P (applyAll ws t) := by
  induction ws generalizing t with
  | nil => exact ht
  | cons w ws ih =>
    refine ih (hws w List.mem_cons_self t ht) fun w' hw' => ?_
    exact hws w' (List.mem_cons_of_mem w hw')

/-- **What every write preserves holds of what is durable and of what is seen.** -/
theorem write_induction (hc : P s.committed) (hw : P s.working)
    (hws : ∀ w ∈ ws, ∀ t, P t → P (w t)) :
    P (s.write ws o).committed ∧ P (s.write ws o).working := by
  cases o with
  | committed => exact ⟨applyAll_induction hw hws, applyAll_induction hw hws⟩
  | failed n rolledBack =>
    cases rolledBack with
    | true => exact ⟨hc, hc⟩
    | false => exact ⟨hc, applyAll_induction hw fun w hmem => hws w (List.mem_of_mem_take hmem)⟩

/-- A group that fails and leaves nothing behind changes nothing durable, and takes back at most
what was not. -/
lemma write_of_clean {n : ℕ} {rolledBack : Bool} (h : (Outcome.failed n rolledBack).Clean = true) :
    (s.write ws (.failed n rolledBack)).committed = s.committed ∧
      ((s.write ws (.failed n rolledBack)).working = s.working ∨
        (s.write ws (.failed n rolledBack)).working = s.committed) := by
  cases rolledBack with
  | true => exact ⟨rfl, .inr rfl⟩
  | false =>
    have hn : n = 0 := by simpa [Outcome.Clean] using h
    subst hn
    exact ⟨rfl, .inl rfl⟩

end Store
