/-
The nodes of one job: uploads, steals, and nodes that leave the job early
(job_endpoints.py, job_watcher.py).

Every node that is on the job takes uploads, serves `get_inputs` and `ack_transfer`, steals from a
neighbor, and runs inputs.  Its watcher leaves the job when the node has no slots any more, or its
neighbor had no inputs for too long, and `_claim_drained_job_part` finds nothing there: the stop
event is set, and some awaits later `reset_workers` has dropped the job's state.

A request is handled once or never, at any time after it was made, and its answer may be lost.
Results are told apart by the inputs they are of.
-/
import Burla.Lib.Messages
import Burla.Lib.System
import Burla.Steal.Transfer

namespace Burla.Leave

open Burla.Steal (Input Donor GetRequest AckRequest StealPhase)

variable {ν : Type*}

/-! ### The nodes -/

/-- A node, as far as the job goes. -/
structure Member where
  /-- What the transfer endpoints read and write; its inputs in flight are those of the workers
  that are not retired. -/
  donor : Donor
  /-- A retired worker has the result in hand and has yet to queue it
  (`_retire_after_dynamic_worker_failure`, the last worker's). -/
  terminal : List Input
  /-- A worker was retired with its input because its container is not running
  (`_relocate_worker_process_or_retire`). -/
  gone : List Input
  resultsQueue : List Input
  pendingResultBatch : List Input
  targetParallelism : ℤ
  /-- Where the steal loop is. -/
  phase : StealPhase

/-- A handler of `upload_inputs`. -/
structure Upload (ν : Type*) where
  node : ν
  inputs : List Input
  /-- Past its last check, in `sleep(0)`. -/
  passed : Bool
  deriving DecidableEq

/-- The nodes, what is under way between them, and what happened so far. -/
structure Fleet (ν : Type*) where
  members : ν → Member
  uploads : List (Upload ν)
  getRequests : List GetRequest
  getResponses : List (ℕ × Option (List Input))
  ackRequests : List AckRequest
  ackResponses : List (ℕ × Bool)
  /-- The neighbor that a transfer's requests go to. -/
  neighbor : ℕ → ν
  /-- How many transfer ids have been drawn. -/
  transferIds : ℕ
  /-- The job is FAILED or CANCELED. -/
  failed : Bool
  /-- The inputs of the uploads that were answered with 200. -/
  accepted : List Input
  /-- The inputs whose results the client has. -/
  delivered : List Input
  /-- The transfers whose `get_inputs` was handled. -/
  served : List ℕ
  /-- The transfers whose batch the requester has queued. -/
  landed : List ℕ

inductive FleetEvent (ν : Type*)
  /-- The job is assigned to a node. -/
  | join (n : ν) (targetParallelism : ℤ)
  | upload (n : ν) (inputs : List Input)
  /-- A handler checks the job and the queue's size. -/
  | check (i : ℕ)
  | put (i : ℕ)
  | take (n : ν)
  | finish (n : ν) (i : ℕ)
  | requeue (n : ν) (i : ℕ)
  /-- The last worker fails. -/
  | lastFails (n : ν) (i : ℕ)
  | deliver (n : ν) (i : ℕ)
  /-- A worker's container is not running. -/
  | relocate (n : ν) (i : ℕ)
  /-- Its loop ends. -/
  | drop (n : ν) (i : ℕ)
  /-- The client polls: whether it has the pending batch, and how many results fit. -/
  | poll (n : ν) (acks : Bool) (k : ℕ)
  | retarget (n : ν) (targetParallelism : ℤ)
  | steal (n neighbor : ν) (idleWorkers : ℕ)
  | serveGet (i : ℕ) (revoked : List Input)
  | getArrives (n : ν) (i : ℕ)
  | getFails (n : ν)
  | enqueue (n : ν)
  | sendAck (n : ν)
  | serveAck (i : ℕ)
  | ackArrives (n : ν) (i : ℕ)
  /-- The neighbor has finished its part of the job. -/
  | peerFinished (n : ν)
  /-- An acknowledgement does not get through in time: the job is FAILED. -/
  | giveUp (n : ν)
  /-- The watcher leaves the job; whether its neighbor had no inputs for too long. -/
  | claim (n : ν) (neighborHadNoInputs : Bool)
  /-- `reset_workers` has dropped the job's state. -/
  | reset (n : ν)
  | fail
  deriving DecidableEq

/-! ### What one node does -/

namespace Member

/-- `active_input_steal_id` -/
def activeInputStealId (m : Member) : Option ℕ :=
  match m.phase with
  | .getting t | .locking t _ | .acking t _ => some t
  | .idle | .ended => none

/-- `_claim_drained_job_part`: a retired worker counts as idle. -/
def Drained (m : Member) : Prop :=
  m.donor.inputs.inputsQueue = [] ∧ m.donor.pendingTransfers.entries = [] ∧
    m.activeInputStealId = none ∧ m.donor.inputs.inFlight = [] ∧ m.resultsQueue = [] ∧
    m.pendingResultBatch = []

instance (m : Member) : Decidable m.Drained := inferInstanceAs (Decidable (_ ∧ _))

def put (m : Member) (inputs : List Input) : Member :=
  { m with
    donor := { m.donor with
      inputs := { m.donor.inputs with
        inputsQueue := m.donor.inputs.inputsQueue ++ inputs } } }

/-- A worker's input leaves its hand. -/
def release (m : Member) (i : ℕ) : Option (Input × Member) :=
  (m.donor.inputs.finish i).map fun p => (p.1, { m with donor := { m.donor with inputs := p.2 } })

/-- `get_results`: the delivered batch, and the node with the next one. -/
def poll (m : Member) (acks : Bool) (k : ℕ) : List Input × Member :=
  let delivered := if acks = true then m.pendingResultBatch else []
  let batch := if acks = true then [] else m.pendingResultBatch
  match batch with
  | [] =>
    (delivered,
      { m with
        pendingResultBatch := m.resultsQueue.take k, resultsQueue := m.resultsQueue.drop k })
  | _ :: _ => (delivered, m)

/-- The node has left the job. -/
def left (m : Member) : Member where
  donor :=
    { onJob := false, stopped := true, inputs := ⟨[], []⟩, pendingTransfers := ∅ }
  terminal := []
  gone := []
  resultsQueue := []
  pendingResultBatch := []
  targetParallelism := m.targetParallelism
  phase := .ended

end Member

/-! ### The system -/

namespace Fleet

variable [DecidableEq ν] (s : Fleet ν)

def set (n : ν) (m : Member) : Fleet ν := { s with members := Function.update s.members n m }

def setPhase (n : ν) (phase : StealPhase) : Fleet ν := s.set n { s.members n with phase }

end Fleet

/-- The bytes that are queued. -/
def Member.sizeBytes (m : Member) : ℕ :=
  (m.donor.inputs.inputsQueue.map fun x => x.inputPkl.length).sum

section Step

variable [DecidableEq ν]

/-- One step; `limit` is `INPUTS_QUEUE_RAM_LIMIT_BYTES`. -/
def fleetStep (limit : ℕ) (s : Fleet ν) : FleetEvent ν → Option (Fleet ν)
  | .join n targetParallelism =>
    let m := s.members n
    if m.donor.onJob = false ∧ m.donor.stopped = false then
      some (s.set n { m with
        donor := { m.donor with onJob := true }, targetParallelism, phase := .idle })
    else none
  | .upload n inputs => some { s with uploads := s.uploads ++ [⟨n, inputs, false⟩] }
  | .check i =>
    match takeAt s.uploads i with
    | none => none
    | some (u, rest) =>
      if u.passed = true then none
      else if (s.members u.node).donor.onJob = false then some { s with uploads := rest }
      else if limit < (s.members u.node).sizeBytes then some s
      else some { s with uploads := rest ++ [{ u with passed := true }] }
  | .put i =>
    match takeAt s.uploads i with
    | none => none
    | some (u, rest) =>
      if u.passed = true then
        some
          { s.set u.node ((s.members u.node).put u.inputs) with
            uploads := rest, accepted := s.accepted ++ u.inputs }
      else none
  | .take n =>
    (s.members n).donor.inputs.take.map fun inputs =>
      s.set n { s.members n with donor := { (s.members n).donor with inputs } }
  | .finish n i =>
    ((s.members n).release i).map fun p =>
      s.set n { p.2 with resultsQueue := p.2.resultsQueue ++ [p.1] }
  | .requeue n i => ((s.members n).release i).map fun p => s.set n (p.2.put [p.1])
  | .lastFails n i =>
    ((s.members n).release i).map fun p =>
      s.set n { p.2 with terminal := p.1 :: p.2.terminal }
  | .deliver n i =>
    (takeAt (s.members n).terminal i).map fun p =>
      s.set n { s.members n with
        terminal := p.2, resultsQueue := (s.members n).resultsQueue ++ [p.1] }
  | .relocate n i =>
    ((s.members n).release i).map fun p => s.set n { p.2 with gone := p.1 :: p.2.gone }
  | .drop n i =>
    (takeAt (s.members n).gone i).map fun p => s.set n { s.members n with gone := p.2 }
  | .poll n acks k =>
    if (s.members n).donor.onJob = true then
      let p := (s.members n).poll acks k
      some { s.set n p.2 with delivered := s.delivered ++ p.1 }
    else none
  | .retarget n targetParallelism => some (s.set n { s.members n with targetParallelism })
  | .steal n neighbor idleWorkers =>
    let m := s.members n
    if m.phase = .idle ∧ m.donor.onJob = true ∧ 0 < m.targetParallelism then
      some
        { s.setPhase n (.getting s.transferIds) with
          transferIds := s.transferIds + 1
          neighbor := Function.update s.neighbor s.transferIds neighbor
          getRequests :=
            s.getRequests ++
              [{ transferId := s.transferIds
                 requesterQueueSize := m.donor.inputs.inputsQueue.length
                 requesterIdleWorkers := idleWorkers }] }
    else none
  | .serveGet i revoked =>
    match takeAt s.getRequests i with
    | none => none
    | some (r, rest) =>
      let n := s.neighbor r.transferId
      let m := s.members n
      if revoked.Subperm m.donor.inputs.inFlight ∧
          revoked.length ≤ r.requesterIdleWorkers.toNat then
        let p := m.donor.getInputs r revoked
        some
          { s.set n { m with donor := p.2 } with
            getRequests := rest
            getResponses := s.getResponses ++ [(r.transferId, p.1)]
            served := r.transferId :: s.served }
      else none
  | .getArrives n i =>
    match (s.members n).phase, takeAt s.getResponses i with
    | .getting t, some ((t', response), rest) =>
      if t' = t then
        let s := { s with getResponses := rest }
        match response with
        | none => some (s.setPhase n .idle)
        | some [] => some (s.setPhase n (.acking t false))
        | some items => some (s.setPhase n (.locking t items))
      else none
    | _, _ => none
  | .getFails n =>
    match (s.members n).phase with
    | .getting t => some (s.setPhase n (.acking t false))
    | _ => none
  | .enqueue n =>
    match (s.members n).phase with
    | .locking t items =>
      if 0 < (s.members n).targetParallelism then
        some
          { s.set n { (s.members n).put items with phase := .acking t true } with
            landed := t :: s.landed }
      else some (s.setPhase n (.acking t false))
    | _ => none
  | .sendAck n =>
    match (s.members n).phase with
    | .acking t received =>
      some { s with ackRequests := s.ackRequests ++ [{ transferId := t, received }] }
    | _ => none
  | .serveAck i =>
    match takeAt s.ackRequests i with
    | none => none
    | some (r, rest) =>
      let n := s.neighbor r.transferId
      let p := (s.members n).donor.ackTransfer r
      some
        { s.set n { s.members n with donor := p.2 } with
          ackRequests := rest
          ackResponses := s.ackResponses ++ [(r.transferId, p.1)] }
  | .ackArrives n i =>
    match (s.members n).phase, takeAt s.ackResponses i with
    | .acking t _, some ((t', ok), rest) =>
      if t' = t ∧ ok = true then some ({ s with ackResponses := rest }.setPhase n .idle) else none
    | _, _ => none
  | .peerFinished n =>
    match (s.members n).phase with
    | .acking t _ =>
      if (s.members (s.neighbor t)).donor.onJob = false then some (s.setPhase n .idle) else none
    | _ => none
  | .giveUp n =>
    match (s.members n).phase with
    | .acking _ _ => some { s.setPhase n .ended with failed := true }
    | _ => none
  | .claim n neighborHadNoInputs =>
    let m := s.members n
    if m.donor.onJob = true ∧ m.donor.stopped = false ∧
        (m.targetParallelism ≤ 0 ∨ neighborHadNoInputs = true) ∧ m.Drained then
      some (s.set n { m with donor := { m.donor with stopped := true }, phase := .ended })
    else none
  | .reset n =>
    if (s.members n).donor.onJob = true ∧ (s.members n).donor.stopped = true then
      some (s.set n (s.members n).left)
    else none
  | .fail => some { s with failed := true }

end Step

/-- A node that holds nothing. -/
def Member.fresh (onJob : Bool) (targetParallelism : ℤ) : Member where
  donor := { onJob, stopped := false, inputs := ⟨[], []⟩, pendingTransfers := ∅ }
  terminal := []
  gone := []
  resultsQueue := []
  pendingResultBatch := []
  targetParallelism
  phase := .idle

/-- At the start no node holds anything, and nothing was uploaded or sent. -/
structure Fleet.Fresh (s : Fleet ν) : Prop where
  members : ∀ n, ∃ onJob targetParallelism, s.members n = .fresh onJob targetParallelism
  uploads : s.uploads = []
  getRequests : s.getRequests = []
  getResponses : s.getResponses = []
  ackRequests : s.ackRequests = []
  ackResponses : s.ackResponses = []
  accepted : s.accepted = []
  served : s.served = []
  landed : s.landed = []

/-- The system of the nodes of a job.  A job that has failed is over. -/
def fleet (ν : Type*) [DecidableEq ν] (limit : ℕ) : System (Fleet ν) (FleetEvent ν) where
  init := Fleet.Fresh
  step s a := if s.failed = true then none else fleetStep limit s a

end Burla.Leave
