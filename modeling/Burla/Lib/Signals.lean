/-
Changes that are announced after they have been made, to an observer who looks again when told.

A change and its announcement are two steps, and so are the announcement and its arrival; they may
be of different callers, and those of different changes may cross.  What the observer has seen is
covered when it is as things are, or an announcement is still on its way (`Signals.Covers`).  The
lemmas say what keeps it so: announced changes always do, and the others must leave alone what is
seen.  Once nothing is on its way, what has been seen is as things are (`Signals.Covers.settled`).
-/
import Mathlib.Tactic.Common

/-- How many announcements are to be made, are under way, and have arrived. -/
structure Signals where
  owed : ℕ
  sent : ℕ
  queued : ℕ
  deriving DecidableEq

namespace Signals

/-- No announcement. -/
def none : Signals := ⟨0, 0, 0⟩

/-- Something is on its way to the observer. -/
def Pending (w : Signals) : Prop := 0 < w.owed + w.sent + w.queued

/-- So many announcements are to be made. -/
def announce (w : Signals) (n : ℕ) : Signals := { w with owed := w.owed + n }

/-- One of them is made; it is sent if there is someone to send it to. -/
def publish (w : Signals) (subscribed : Bool) : Option Signals :=
  if 0 < w.owed then
    some { w with owed := w.owed - 1, sent := if subscribed then w.sent + 1 else w.sent }
  else Option.none

/-- One of those that are under way arrives. -/
def put (w : Signals) : Option Signals :=
  if 0 < w.sent then some { w with sent := w.sent - 1, queued := w.queued + 1 } else Option.none

/-- The observer takes one. -/
def take (w : Signals) : Option Signals :=
  if 0 < w.queued then some { w with queued := w.queued - 1 } else Option.none

variable {β : Type*} {w w' : Signals} {seen now now' : β} {n : ℕ}

/-- What has been seen is as things are, or an announcement is on its way. -/
def Covers (w : Signals) (seen now : β) : Prop := seen = now ∨ w.Pending

lemma covers_self (w : Signals) (now : β) : w.Covers now now := .inl rfl

/-- What is on its way stays so while more is announced. -/
lemma Pending.announce (h : w.Pending) (n : ℕ) : (w.announce n).Pending := by
  show 0 < w.owed + n + w.sent + w.queued
  rw [Pending] at h
  omega

lemma pending_announce (hn : 0 < n) : (w.announce n).Pending := by
  show 0 < w.owed + n + w.sent + w.queued
  omega

/-- What is sent to someone is on its way. -/
lemma pending_publish (hw : w.publish true = some w') : w'.Pending := by
  rw [Signals.publish] at hw
  split at hw
  · obtain rfl := Option.some.inj hw
    show 0 < w.owed - 1 + (w.sent + 1) + w.queued
    omega
  · cases hw

lemma pending_put (hw : w.put = some w') : w'.Pending := by
  rw [Signals.put] at hw
  split at hw
  · obtain rfl := Option.some.inj hw
    show 0 < w.owed + (w.sent - 1) + (w.queued + 1)
    omega
  · cases hw

/-- **What has been seen stays covered** when things stay as they are, or are announced, and no
announcement gets lost. -/
lemma Covers.of_change (h : w.Covers seen now) (hpending : w.Pending → w'.Pending)
    (hnow : now' = now ∨ w'.Pending) : w'.Covers seen now' := by
  rcases h with rfl | h
  · rcases hnow with rfl | hnow
    · exact covers_self w' now'
    · exact .inr hnow
  · exact .inr (hpending h)

/-- **When nothing is on its way, what has been seen is as things are.** -/
lemma Covers.settled (h : w.Covers seen now) (hw : w = none) : seen = now := by
  subst hw
  exact h.resolve_right (Nat.lt_irrefl 0)

end Signals
