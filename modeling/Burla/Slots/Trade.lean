/-
The donor's side of a slot trade (`trade_slots` in job_endpoints.py).

A trade is answered in two parts: the checks made when the request arrives, and the grant,
decided under `dynamic_retire_lock`.  Between the two the request waits for the lock.
-/
import Mathlib.Algebra.Order.Ring.Int
import Mathlib.Data.Rat.Defs
import Mathlib.Algebra.Order.Ring.Rat
import Mathlib.Tactic.Common

namespace Burla.Slots

/-- `SLOT_TRADE_PRESSURE_COOLDOWN_SECONDS` -/
def slotTradePressureCooldownSeconds : ℚ := 30

/-- `TRADE_IDLE_GRACE_SEC` -/
def tradeIdleGraceSec : ℚ := 30

/-- A request to `trade_slots`. -/
structure TradeRequest (ι : Type*) where
  /-- Which attempt of the requester's loop it was sent by. -/
  attempt : ℕ
  requestingNode : ι
  neighbor : ι
  slotsRequested : ℤ
  tradeId : ℕ
  deriving DecidableEq, Repr

/-- What `trade_slots` answers. -/
inductive TradeAnswer
  /-- A 404: the node is not on the job. -/
  | notFound
  /-- No slots, because the node's watcher has stopped. -/
  | stopped
  | granted (slots : ℤ)
  deriving DecidableEq, Repr

/-- `slots_granted` of an answer. -/
def TradeAnswer.slots : TradeAnswer → ℤ
  | .notFound | .stopped => 0
  | .granted slots => slots

def TradeAnswer.isGrant : TradeAnswer → Bool
  | .granted _ => true
  | _ => false

/-- What a grant looks at of a worker. -/
structure TradeWorker where
  retired : Bool
  isIdle : Bool
  hasCurrentInput : Bool
  deriving DecidableEq, Repr

/-- What a grant looks at of the node beside its slots, at the time it holds the lock. -/
structure DonorView where
  now : ℚ
  lastPressureRetirementAt : ℚ
  replacementRequestId : Option ℕ
  workers : List TradeWorker
  queuedInputs : ℕ
  allInputsUploaded : Bool
  jobAssignedAt : ℚ
  deriving DecidableEq, Repr

namespace DonorView

/-- Workers that are not retired. -/
def aliveWorkers (v : DonorView) : List TradeWorker := v.workers.filter fun w => !w.retired

def recentlyPressured (v : DonorView) : Bool :=
  v.now - v.lastPressureRetirementAt < slotTradePressureCooldownSeconds

def queueDrained (v : DonorView) : Bool :=
  v.queuedInputs = 0 ∧ v.allInputsUploaded ∧ v.now - v.jobAssignedAt > tradeIdleGraceSec

/-- Idle workers, which hold no input. -/
def idleWorkers (v : DonorView) : List TradeWorker :=
  v.aliveWorkers.filter fun w => w.isIdle && !w.hasCurrentInput

/-- How many slots the node gives up: first those no live worker stands behind, then those of
idle workers. -/
def grant (v : DonorView) (targetParallelism slotsRequested : ℤ) : ℤ :=
  let unbacked := max 0 (targetParallelism - v.aliveWorkers.length)
  let granted :=
    if v.recentlyPressured ∧ v.replacementRequestId = none then min slotsRequested unbacked
    else 0
  if v.queueDrained then
    granted + min (v.idleWorkers.length : ℤ) (max 0 (slotsRequested - granted))
  else granted

lemma grant_nonneg (v : DonorView) (targetParallelism : ℤ) {slotsRequested : ℤ}
    (h : 0 ≤ slotsRequested) : 0 ≤ v.grant targetParallelism slotsRequested := by
  simp only [grant]
  split_ifs <;> omega

lemma idleWorkers_le (v : DonorView) : v.idleWorkers.length ≤ v.aliveWorkers.length :=
  List.length_filter_le _ _

/-- A node gives up no more slots than it has, or has live workers. -/
lemma grant_le_max (v : DonorView) (targetParallelism slotsRequested : ℤ) :
    v.grant targetParallelism slotsRequested ≤ max targetParallelism v.aliveWorkers.length := by
  have := v.idleWorkers_le
  simp only [grant]
  split_ifs <;> omega

end DonorView

/-! ### The endpoint -/

/-- What trading reads and writes of a node. -/
structure TradeNode (ι : Type*) where
  /-- Whether the job of the requests is the node's current job. -/
  onJob : Bool
  /-- Whether `job_watcher_stop_event` is set. -/
  stopped : Bool
  targetParallelism : ℤ
  slotTradeId : Option ℕ
  /-- The attempt whose response the loop is waiting for. -/
  attempt : Option ℕ
  /-- `slot_trades_granted`: for each requester its last trade and what it was granted. -/
  slotTradesGranted : ι → Option (ℕ × ℤ)

namespace TradeNode

variable {ι : Type*}

/-- `trade_slots` before the lock: the answer, if the request needs no grant. -/
def checkTrade (d : TradeNode ι) (q : TradeRequest ι) : Option TradeAnswer :=
  if d.onJob = false then some .notFound
  else if d.stopped then some .stopped
  else
    match d.slotTradesGranted q.requestingNode with
    | some (tradeId, slotsGranted) =>
      if tradeId = q.tradeId then some (.granted slotsGranted) else none
    | none => none

variable [DecidableEq ι]

/-- `trade_slots` under the lock: the slots given up are recorded under the trade's id. -/
def grantTrade (d : TradeNode ι) (v : DonorView) (q : TradeRequest ι) : TradeNode ι :=
  let granted := v.grant d.targetParallelism q.slotsRequested
  { d with
    targetParallelism := d.targetParallelism - granted
    slotTradesGranted :=
      Function.update d.slotTradesGranted q.requestingNode (some (q.tradeId, granted)) }

omit [DecidableEq ι] in
/-- A request is answered with slots before the lock only from the record. -/
lemma record_of_checkTrade {d : TradeNode ι} {q : TradeRequest ι} {n : ℤ}
    (h : d.checkTrade q = some (.granted n)) :
    d.slotTradesGranted q.requestingNode = some (q.tradeId, n) := by
  unfold checkTrade at h
  split_ifs at h with hjob hstopped
  · simp at h
  · simp at h
  · split at h
    · rename_i tradeId slotsGranted hrecord
      split_ifs at h with hid
      obtain rfl : slotsGranted = n := by simpa using h
      rw [hrecord, hid]
    · cases h

omit [DecidableEq ι] in
/-- A request that is let through finds no record of its trade. -/
lemma of_checkTrade_none {d : TradeNode ι} {q : TradeRequest ι} (h : d.checkTrade q = none) :
    d.onJob = true ∧ d.stopped = false ∧
      (d.slotTradesGranted q.requestingNode).map Prod.fst ≠ some q.tradeId := by
  unfold checkTrade at h
  split_ifs at h with hjob hstopped
  refine ⟨by simpa using hjob, by simpa using hstopped, ?_⟩
  split at h
  · rename_i tradeId slotsGranted hrecord
    split_ifs at h with hid
    simpa [hrecord] using hid
  · rename_i hrecord
    simp [hrecord]

omit [DecidableEq ι] in
lemma of_checkTrade_stopped {d : TradeNode ι} {q : TradeRequest ι}
    (h : d.checkTrade q = some .stopped) : d.onJob = true ∧ d.stopped = true := by
  unfold checkTrade at h
  split_ifs at h with hjob hstopped
  · simp at h
  · exact ⟨by simpa using hjob, hstopped⟩
  · split at h
    · split_ifs at h
      simp at h
    · cases h

end TradeNode

end Burla.Slots
