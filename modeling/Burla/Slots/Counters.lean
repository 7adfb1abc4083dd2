/-
A node's slot counters (`SELF["target_parallelism"]`, `SELF["shed_slots_pending"]`) and the
two message handlers that move them on the head's word.
-/
import Mathlib.Data.Int.Order.Basic
import Mathlib.Tactic.Common

namespace Burla.Slots

/-- The slot counters of a node. -/
structure Counters where
  targetParallelism : ℤ
  /-- Slots given back whose workers are still running. -/
  shedSlotsPending : ℤ
  deriving DecidableEq, Repr

namespace Counters

/-- `push_state`: give back the slots of a mint epoch that is rolled back, as far as the node
has any. -/
def applyShed (c : Counters) (shed : ℤ) : Counters :=
  if shed ≠ 0 then
    let applied := min shed c.targetParallelism
    { targetParallelism := c.targetParallelism - applied
      shedSlotsPending := c.shedSlotsPending + applied }
  else c

/-- `_slot_trade_loop`: take up the slots that the head's mint controller granted. -/
def addMinted (c : Counters) (minted : ℤ) : Counters :=
  if minted ≤ 0 then c else { c with targetParallelism := c.targetParallelism + minted }

/-- A shed takes at most what it says. -/
lemma le_target_applyShed (c : Counters) (shed : ℤ) :
    c.targetParallelism - shed ≤ (c.applyShed shed).targetParallelism := by
  unfold applyShed
  split_ifs
  · dsimp only
    omega
  · omega

lemma target_addMinted (c : Counters) {minted : ℤ} (h : 0 ≤ minted) :
    (c.addMinted minted).targetParallelism = c.targetParallelism + minted := by
  unfold addMinted
  split_ifs
  · omega
  · rfl

end Counters

end Burla.Slots
