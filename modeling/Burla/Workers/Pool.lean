/-
The workers of a node and the inputs they run (`WorkerClient._process_inputs` and the tasks
of worker_client.py that take inputs away from it).

A step is what one task does between two of its awaits.  The tasks that take inputs away hold
`dynamic_retire_lock` over several steps; `_relocate_worker_process_or_retire` does not take
it.  Each pop is numbered, and `accounts` records what became of it: it was queued again, its
result was delivered, or it was handed over to a peer in a revoked batch.
-/
import Burla.Steal.Endpoints
import Burla.Lib.System
import Mathlib.Data.Fintype.Card

namespace Burla.Workers

open Burla.Steal (Input)

variable {ι : Type*}

/-! ### One worker -/

/-- What `call_function` raises. -/
inductive WorkerError
  /-- `WorkerFunctionError` -/
  | function (errorInfoPkl : List UInt8)
  /-- `WorkerOutOfMemoryError` -/
  | outOfMemory
  /-- The `WorkerOutOfMemoryError` that the last worker's attempt ends with. -/
  | dynamicTerminal
  /-- `WorkerProcessTerminatedError` -/
  | processTerminated
  /-- Any other exception. -/
  | other (message : String)
  deriving DecidableEq, Repr

/-- An entry of `results_queue`. -/
structure CallResult where
  inputIndex : ℕ
  result : WorkerError ⊕ List UInt8
  deriving DecidableEq, Repr

/-- A popped input. -/
structure Attempt where
  number : ℕ
  input : Input
  deriving DecidableEq, Repr

/-- Where a worker's `_process_inputs` task stands. -/
inductive Phase
  /-- In the waits before `inputs_queue.get()` returns. -/
  | waiting
  | calling (a : Attempt)
  /-- In a handler, until the error is logged. -/
  | writingError (a : Attempt) (result : CallResult) (stopAfterResult : Bool)
  /-- In `_retire_after_dynamic_worker_failure`, until the lock is free. -/
  | lockWait (a : Attempt) (error : WorkerError)
  /-- There, with the lock, until the container is deleted. -/
  | retiring (a : Attempt)
  /-- In `finish_input`, with the result to deliver, if the handlers have not returned. -/
  | finishing (a : Attempt) (result : Option (CallResult × Bool))
  | returned
  deriving DecidableEq, Repr

/-- The input that the task is working on. -/
def Phase.attempt : Phase → Option Attempt
  | .waiting | .returned => none
  | .calling a | .writingError a _ _ | .lockWait a _ | .retiring a | .finishing a _ => some a

/-- What the tasks read and write of a worker. -/
structure Worker where
  /-- Whether it is in `SELF["workers"]`. -/
  onNode : Bool
  retired : Bool
  isIdle : Bool
  throttled : Bool
  currentInput : Option Attempt
  phase : Phase
  deriving DecidableEq, Repr

namespace Worker

/-- A booted worker. -/
def fresh : Worker where
  onNode := true
  retired := false
  isIdle := true
  throttled := false
  currentInput := none
  phase := .waiting

def held (w : Worker) : Option Attempt := w.phase.attempt

def active (w : Worker) : Bool := w.onNode && !w.retired

def inFlight (w : Worker) : Bool := w.active && w.currentInput.isSome

/-- `self.current_input is None or self.retired` -/
def takenOver (w : Worker) : Bool := w.currentInput.isNone || w.retired

/-- An input is popped. -/
def pop (w : Worker) (a : Attempt) : Worker :=
  { w with isIdle := false, currentInput := some a, phase := .calling a }

/-- The exception handlers of `_process_inputs`. -/
def handle (w : Worker) (dynamicFuncRam : Bool) (a : Attempt) (error : WorkerError) : Phase :=
  let result : CallResult := { inputIndex := a.input.inputIndex, result := .inl error }
  match error with
  | .function _ => .writingError a result false
  | .outOfMemory | .dynamicTerminal | .processTerminated =>
    if w.takenOver then .finishing a none
    else if dynamicFuncRam then .lockWait a error
    else .writingError a result true
  | .other _ => if w.takenOver then .finishing a none else .writingError a result false

/-- `retired` and `is_idle` are set. -/
def retire (w : Worker) : Worker := { w with retired := true, isIdle := true }

def clear (w : Worker) : Worker := { w with currentInput := none }

def setPhase (w : Worker) (phase : Phase) : Worker := { w with phase }

/-- The loop goes on after a result. -/
def again (w : Worker) (stopAfterResult : Bool) : Worker :=
  if stopAfterResult then w.clear.setPhase .returned
  else { w.clear.setPhase .waiting with isIdle := true }

end Worker

/-! ### The node -/

/-- Who holds `dynamic_retire_lock`. -/
inductive Holder (ι : Type*)
  /-- `retire_workers_for_pressure`, from the requeue on; whether `current_input` is cleared. -/
  | pressure (victims : List ι) (cleared : Bool)
  /-- `revoke_inputs_for_idle_peer`, until its workers are killed. -/
  | revocation (batch : List Attempt)
  /-- `park_workers_for_memory`, with the workers still to park. -/
  | parking (selected : List ι)
  /-- `_retire_after_dynamic_worker_failure` -/
  | failure (i : ι)
  deriving DecidableEq, Repr

/-- What became of a popped input. -/
inductive Account
  | requeued
  | delivered
  | handedOver
  deriving DecidableEq, Repr

/-- The workers of a node with its queues. -/
structure Pool (ι : Type*) where
  dynamicFuncRam : Bool
  workers : ι → Worker
  inputsQueue : List Input
  resultsQueue : List CallResult
  numResultsReceived : ℕ
  /-- Inputs returned in revoked batches. -/
  revoked : List Input
  lock : Option (Holder ι)
  /-- How many inputs were popped. -/
  attempts : ℕ
  accounts : List (ℕ × Account)

/-- What can happen next. -/
inductive PoolEvent (ι : Type*)
  /-- An input is put on the queue by an upload or a transfer. -/
  | upload (x : Input)
  /-- The last input of the queue leaves for a peer. -/
  | giveLast
  /-- A worker has booted. -/
  | join (i : ι)
  /-- A worker without input is retired by a rollback or a trade, which cancels its task. -/
  | retireIdle (i : ι)
  /-- A CPU quota is set or lifted. -/
  | throttle (i : ι) (throttled : Bool)
  /-- The monitor finds a worker's process and container gone. -/
  | relocate (i : ι)
  | pop (i : ι)
  | callReturns (i : ι) (resultPkl : List UInt8)
  | callRaises (i : ι) (error : WorkerError)
  | errorWritten (i : ι)
  /-- `_retire_after_dynamic_worker_failure` gets the lock. -/
  | acquire (i : ι)
  | containerDeleted (i : ι)
  /-- `finish_input` is over. -/
  | finish (i : ι)
  | pressureStart (selected : List ι)
  | pressureClear
  | revokeStart (cpuSaturated : Bool) (maxInputs : ℕ) (victims : List ι)
  | parkStart (selected : List ι)
  | parkNext
  /-- The lock's holder is done; whether all its kills went through. -/
  | release (killed : Bool)
  deriving DecidableEq, Repr

namespace Pool

variable [DecidableEq ι] (s : Pool ι)

def setWorker (i : ι) (w : Worker) : Pool ι :=
  { s with workers := Function.update s.workers i w }

/-- All of some workers change. -/
def setAll (is : List ι) (f : Worker → Worker) : Pool ι :=
  { s with workers := fun i => if i ∈ is then f (s.workers i) else s.workers i }

def requeue (as : List Attempt) : Pool ι :=
  { s with
    inputsQueue := s.inputsQueue ++ as.map Attempt.input
    accounts := as.map (fun a => (a.number, .requeued)) ++ s.accounts }

def deliver (a : Attempt) (r : CallResult) : Pool ι :=
  { s with
    resultsQueue := s.resultsQueue ++ [r]
    numResultsReceived := s.numResultsReceived + 1
    accounts := (a.number, .delivered) :: s.accounts }

/-- The batch is returned to `get_inputs`. -/
def handOver (batch : List Attempt) : Pool ι :=
  { s with
    revoked := s.revoked ++ batch.map Attempt.input
    accounts := batch.map (fun a => (a.number, .handedOver)) ++ s.accounts }

def currentInputs (is : List ι) : List Attempt := is.filterMap fun i => (s.workers i).currentInput

variable [Fintype ι]

def activeWorkers : Finset ι := Finset.univ.filter fun i => (s.workers i).active

/-- The workers that `retire_workers_for_pressure` takes of those selected. -/
def pressureVictims (selected : List ι) : List ι :=
  (selected.filter fun i => (s.workers i).inFlight).take (s.activeWorkers.card - 1)

/-- The workers that `park_workers_for_memory` takes. -/
def parkVictims (selected : List ι) : List ι :=
  let runningUnthrottled := Finset.univ.filter fun i =>
    (s.workers i).inFlight ∧ (s.workers i).throttled = false ∧ (s.workers i).isIdle = false
  (selected.filter fun i => (s.workers i).inFlight && !(s.workers i).throttled).take
    (runningUnthrottled.card - 1)

/-- What `revoke_inputs_for_idle_peer` may take: parked workers, and half of the running ones
while the cores are saturated. -/
def Revocable (cpuSaturated : Bool) (maxInputs : ℕ) (victims : List ι) : Prop :=
  victims ≠ [] ∧ victims.Nodup ∧ victims.length ≤ maxInputs ∧
    (∀ i ∈ victims, (s.workers i).inFlight = true ∧
      ((s.workers i).throttled = true ∨ cpuSaturated = true)) ∧
    (victims.filter fun i => !(s.workers i).throttled).length ≤
      (Finset.univ.filter fun i => (s.workers i).inFlight ∧ (s.workers i).throttled = false).card / 2

instance (cpuSaturated : Bool) (maxInputs : ℕ) (victims : List ι) :
    Decidable (s.Revocable cpuSaturated maxInputs victims) :=
  inferInstanceAs (Decidable (_ ∧ _))

/-- `_retire_after_dynamic_worker_failure`, once it has the lock. -/
def retireAfterFailure (i : ι) (a : Attempt) (error : WorkerError) : Pool ι :=
  let w := s.workers i
  if w.currentInput = none then s.setWorker i (w.setPhase (.finishing a none))
  else if ∀ j, j ≠ i → (s.workers j).active = false then
    let error := if error = .outOfMemory then .dynamicTerminal else error
    (s.setWorker i { w with retired := true, phase := .finishing a none }).deliver a
      { inputIndex := a.input.inputIndex, result := .inl error }
  else
    { (s.setWorker i (w.retire.setPhase (.retiring a))).requeue [a] with
      lock := some (.failure i) }

/-- The end of an attempt. -/
def finish (i : ι) (a : Attempt) : Option (CallResult × Bool) → Pool ι
  | none => s.setWorker i ((s.workers i).clear.setPhase .returned)
  | some (r, stopAfterResult) =>
    if (s.workers i).retired then s.setWorker i ((s.workers i).clear.setPhase .returned)
    else (s.setWorker i ((s.workers i).again stopAfterResult)).deliver a r

/-- The holder of the lock lets it go. -/
def release (killed : Bool) : Option (Holder ι) → Option (Pool ι)
  | some (.pressure _ true) => some { s with lock := none }
  | some (.revocation batch) =>
    some { (if killed then s.handOver batch else s) with lock := none }
  | some (.parking []) => some { s with lock := none }
  | _ => none

end Pool

section System

variable [DecidableEq ι] [Fintype ι]

/-- One step. -/
def poolStep (s : Pool ι) : PoolEvent ι → Option (Pool ι)
  | .upload x => some { s with inputsQueue := s.inputsQueue ++ [x] }
  | .giveLast => some { s with inputsQueue := s.inputsQueue.dropLast }
  | .join i =>
    if (s.workers i).onNode = false ∧ (s.workers i).phase = .returned then
      some (s.setWorker i .fresh)
    else none
  | .retireIdle i =>
    if (s.workers i).active ∧ (s.workers i).phase = .waiting then
      some (s.setWorker i ((s.workers i).retire.setPhase .returned))
    else none
  | .throttle i throttled => some (s.setWorker i { s.workers i with throttled })
  | .relocate i =>
    if (s.workers i).onNode then some (s.setWorker i (s.workers i).retire) else none
  | .pop i =>
    match s.inputsQueue with
    | [] => none
    | x :: rest =>
      if (s.workers i).phase = .waiting then
        some
          { s.setWorker i ((s.workers i).pop ⟨s.attempts, x⟩) with
            inputsQueue := rest, attempts := s.attempts + 1 }
      else none
  | .callReturns i resultPkl =>
    match (s.workers i).phase with
    | .calling a =>
      some (s.setWorker i ((s.workers i).setPhase
        (.finishing a (some (⟨a.input.inputIndex, .inr resultPkl⟩, false)))))
    | _ => none
  | .callRaises i error =>
    match (s.workers i).phase with
    | .calling a =>
      some (s.setWorker i ((s.workers i).setPhase
        ((s.workers i).handle s.dynamicFuncRam a error)))
    | _ => none
  | .errorWritten i =>
    match (s.workers i).phase with
    | .writingError a result stopAfterResult =>
      some (s.setWorker i ((s.workers i).setPhase (.finishing a (some (result, stopAfterResult)))))
    | _ => none
  | .acquire i =>
    match (s.workers i).phase with
    | .lockWait a error => if s.lock = none then some (s.retireAfterFailure i a error) else none
    | _ => none
  | .containerDeleted i =>
    match (s.workers i).phase with
    | .retiring a =>
      if s.lock = some (.failure i) then
        some { s.setWorker i ((s.workers i).setPhase (.finishing a none)) with lock := none }
      else none
    | _ => none
  | .finish i =>
    match (s.workers i).phase with
    | .finishing a result => some (s.finish i a result)
    | _ => none
  | .pressureStart selected =>
    if s.lock = none ∧ selected.Nodup ∧ s.pressureVictims selected ≠ [] then
      some
        { (s.requeue (s.currentInputs (s.pressureVictims selected))).setAll
            (s.pressureVictims selected) Worker.retire with
          lock := some (.pressure (s.pressureVictims selected) false) }
    else none
  | .pressureClear =>
    match s.lock with
    | some (.pressure victims false) =>
      some { s.setAll victims Worker.clear with lock := some (.pressure victims true) }
    | _ => none
  | .revokeStart cpuSaturated maxInputs victims =>
    if s.lock = none ∧ s.Revocable cpuSaturated maxInputs victims then
      some
        { s.setAll victims (fun w => w.retire.clear) with
          lock := some (.revocation (s.currentInputs victims)) }
    else none
  | .parkStart selected =>
    if s.lock = none ∧ s.parkVictims selected ≠ [] then
      some { s with lock := some (.parking (s.parkVictims selected)) }
    else none
  | .parkNext =>
    match s.lock with
    | some (.parking (i :: rest)) =>
      some { s.setWorker i { s.workers i with throttled := true } with
        lock := some (.parking rest) }
    | _ => none
  | .release killed => s.release killed s.lock

/-- At the start of a job the workers are idle. -/
structure Pool.Fresh (s : Pool ι) : Prop where
  workers : ∀ i, s.workers i = .fresh ∨
    s.workers i = { Worker.fresh with onNode := false, phase := .returned }
  lock : s.lock = none
  numResultsReceived : s.numResultsReceived = 0
  attempts : s.attempts = 0
  accounts : s.accounts = []

/-- The system of a node's workers. -/
def pool (ι : Type*) [DecidableEq ι] [Fintype ι] : System (Pool ι) (PoolEvent ι) where
  init := Pool.Fresh
  step := poolStep

end System

end Burla.Workers
