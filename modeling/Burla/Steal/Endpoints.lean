/-
The donor's side of input stealing (`get_inputs`, `ack_transfer` in job_endpoints.py).

A batch that a peer asks for is parked under the peer's transfer id before it is sent, and
stays there until the peer acknowledges it: dropped if it was received, queued again
otherwise.
-/
import Burla.Lib.Parcels
import Mathlib.Algebra.Order.Ring.Int

namespace Burla.Steal

/-- An input on its way to a worker. -/
structure Input where
  inputIndex : ℕ
  inputPkl : List UInt8
  deriving DecidableEq, Repr

/-- A node's inputs: the queue, next one first, and those its workers run. -/
structure NodeInputs where
  inputsQueue : List Input
  inFlight : List Input
  deriving DecidableEq, Repr

/-- What the transfer endpoints read and write of a node. -/
structure Donor where
  /-- Whether the job of the requests is the node's current job. -/
  onJob : Bool
  /-- Whether `job_watcher_stop_event` is set. -/
  stopped : Bool
  inputs : NodeInputs
  pendingTransfers : Parcels ℕ Input

/-- A request to `get_inputs`. -/
structure GetRequest where
  transferId : ℕ
  requesterQueueSize : ℤ
  requesterIdleWorkers : ℤ
  deriving DecidableEq, Repr

/-- A request to `ack_transfer`. -/
structure AckRequest where
  transferId : ℕ
  received : Bool
  deriving DecidableEq, Repr

def maxTransferBytes : ℕ := 3000000

/-- The loop of `get_inputs`, on the queue with its last input first: the items taken so far,
and what is left. -/
def takeLast (targetNum : ℕ) (items : List Input) (totalBytes : ℕ) :
    List Input → List Input × List Input
  | [] => (items, [])
  | input :: rest =>
    if items.length < targetNum then
      if totalBytes + input.inputPkl.length > maxTransferBytes ∧ items ≠ [] then
        (items, input :: rest)
      else
        takeLast targetNum (items ++ [input]) (totalBytes + input.inputPkl.length) rest
    else (items, input :: rest)

/-- The batch cut off the end of a queue, in the queue's order, and the queue that is left. -/
def cutTail (targetNum : ℕ) (inputsQueue : List Input) : List Input × List Input :=
  let p := takeLast targetNum [] 0 inputsQueue.reverse
  (p.1.reverse, p.2.reverse)

namespace Donor

/-- Whether `get_inputs` answers with a batch. -/
def serving (d : Donor) : Bool := d.onJob && !d.stopped

/-- `get_inputs`: no batch is a 404.  Which inputs `revoke_inputs_for_idle_peer` would take
from the workers is given by `revoked`. -/
def getInputs (d : Donor) (r : GetRequest) (revoked : List Input) :
    Option (List Input) × Donor :=
  if d.serving = false then (none, d)
  else
    match d.pendingTransfers.lookup r.transferId with
    | some items => (some items, d)
    | none =>
      let difference := (d.inputs.inputsQueue.length : ℤ) - r.requesterQueueSize
      let p := cutTail (max difference 1 / 2).toNat d.inputs.inputsQueue
      let requesterIsIdle := r.requesterQueueSize = 0 ∧ 0 < r.requesterIdleWorkers
      if p.1 = [] ∧ p.2 = [] ∧ requesterIsIdle then
        (some revoked,
          { d with
            inputs := { inputsQueue := p.2, inFlight := d.inputs.inFlight.diff revoked }
            pendingTransfers := d.pendingTransfers.insert r.transferId revoked })
      else
        (some p.1,
          { d with
            inputs := { d.inputs with inputsQueue := p.2 }
            pendingTransfers := d.pendingTransfers.insert r.transferId p.1 })

/-- `ack_transfer`: false is a 404. -/
def ackTransfer (d : Donor) (r : AckRequest) : Bool × Donor :=
  if d.onJob = false then (false, d)
  else
    match d.pendingTransfers.lookup r.transferId with
    | none => (true, d)
    | some items =>
      let d := { d with pendingTransfers := d.pendingTransfers.erase r.transferId }
      if r.received then (true, d)
      else
        (true,
          { d with
            inputs := { d.inputs with inputsQueue := d.inputs.inputsQueue ++ items } })

end Donor

/-! ### What one call does -/

lemma takeLast_append (targetNum : ℕ) (items queue : List Input) (totalBytes : ℕ) :
    (takeLast targetNum items totalBytes queue).1 ++ (takeLast targetNum items totalBytes queue).2
      = items ++ queue := by
  induction queue generalizing items totalBytes with
  | nil => rfl
  | cons input queue ih =>
    rw [takeLast]
    split
    · split
      · rfl
      · rw [ih, List.append_assoc, List.singleton_append]
    · rfl

/-- Cutting a batch off splits the queue. -/
lemma cutTail_append (targetNum : ℕ) (queue : List Input) :
    (cutTail targetNum queue).2 ++ (cutTail targetNum queue).1 = queue := by
  have h := congrArg List.reverse (takeLast_append targetNum [] queue.reverse 0)
  simpa [cutTail] using h

namespace Donor

/-- What a call of `get_inputs` does: refuse, serve a parked batch again, or park a batch
that it takes from the queue or from the workers. -/
inductive Got (d : Donor) (t : ℕ) : Option (List Input) × Donor → Prop
  | refused (hserving : d.serving = false) : Got d t (none, d)
  | again {items : List Input} (hparked : d.pendingTransfers.lookup t = some items) :
      Got d t (some items, d)
  | parked {items : List Input} {inputs : NodeInputs} (hserving : d.serving = true)
      (hnew : d.pendingTransfers.lookup t = none)
      (hitems : ∀ x, inputs.inputsQueue.count x + inputs.inFlight.count x + items.count x =
        d.inputs.inputsQueue.count x + d.inputs.inFlight.count x) :
      Got d t (some items,
        { d with inputs, pendingTransfers := d.pendingTransfers.insert t items })

lemma getInputs_got (d : Donor) (r : GetRequest) {revoked : List Input}
    (hrevoked : revoked.Subperm d.inputs.inFlight) :
    d.Got r.transferId (d.getInputs r revoked) := by
  unfold getInputs
  by_cases hserving : d.serving = false
  · simpa [hserving] using Got.refused hserving
  rw [if_neg hserving]
  have hserving : d.serving = true := by simpa using hserving
  cases hlookup : d.pendingTransfers.lookup r.transferId with
  | some items => exact .again hlookup
  | none =>
    have happend := cutTail_append
      (max ((d.inputs.inputsQueue.length : ℤ) - r.requesterQueueSize) 1 / 2).toNat
      d.inputs.inputsQueue
    simp only
    generalize cutTail
      (max ((d.inputs.inputsQueue.length : ℤ) - r.requesterQueueSize) 1 / 2).toNat
      d.inputs.inputsQueue = p at happend
    split
    · rename_i hidle
      refine .parked hserving hlookup fun x => ?_
      have hle := hrevoked.count_le x
      simp only [List.count_diff, hidle.2.1, ← happend, hidle.1]
      simp
      omega
    · refine .parked hserving hlookup fun x => ?_
      simp only [← happend, List.count_append]
      omega

/-- What a call of `ack_transfer` does: refuse, find nothing, or settle a parked batch. -/
inductive Acked (d : Donor) (r : AckRequest) : Bool × Donor → Prop
  | refused (hjob : d.onJob = false) : Acked d r (false, d)
  | nothing (hjob : d.onJob = true) (hlookup : d.pendingTransfers.lookup r.transferId = none) :
      Acked d r (true, d)
  | settled {items : List Input} {inputs : NodeInputs} (hjob : d.onJob = true)
      (hlookup : d.pendingTransfers.lookup r.transferId = some items)
      (hitems : ∀ x, inputs.inputsQueue.count x + inputs.inFlight.count x =
        d.inputs.inputsQueue.count x + d.inputs.inFlight.count x +
          if r.received then 0 else items.count x) :
      Acked d r (true,
        { d with inputs, pendingTransfers := d.pendingTransfers.erase r.transferId })

lemma ackTransfer_acked (d : Donor) (r : AckRequest) : d.Acked r (d.ackTransfer r) := by
  unfold ackTransfer
  by_cases hjob : d.onJob = false
  · simpa [hjob] using Acked.refused (r := r) hjob
  rw [if_neg hjob]
  have hjob : d.onJob = true := by simpa using hjob
  cases hlookup : d.pendingTransfers.lookup r.transferId with
  | none => exact .nothing hjob hlookup
  | some items =>
    cases hreceived : r.received with
    | true => exact .settled hjob hlookup fun x => by simp [hreceived]
    | false =>
      refine .settled hjob hlookup fun x => ?_
      simp only [hreceived, List.count_append, Bool.false_eq_true, if_false]
      omega

end Donor

end Burla.Steal
