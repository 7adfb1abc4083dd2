/-
A node over the jobs that it is given one after another (node_service).

The tasks of the node service share `SELF`.  When a job ends at the node, `REINIT_SELF` puts new
queues into it, and the tasks of the job that are still under way find those when they go on.  The
tasks are the requests' handlers, the watcher of a job with its steal loop, the workers' loops, the
monitors of a dynamic job, and the reboots; a segment is what one of them does between two of its
awaits.  A task that waits for a lock may go on at any time here.

The entries of the queues do not say which job they belong to.  The jobs that the items, the loops
and the stages of the model carry are for the statements about them.
-/
import Burla.Assign.Exchange
import Burla.Lib.Dict
import Burla.Lib.EventLoop
import Burla.Results.Node
import Burla.Steal.Endpoints

namespace Burla.Turnover

open Burla.Assign (NodeStatus)
open Burla.Results (Result dequeueResults)
open Burla.Steal (Input cutTail)

variable {κ ω : Type*}

/-! ### Data -/

/-- An input, with the job it was uploaded or stolen for. -/
structure Item (κ : Type*) where
  job : κ
  input : Input
  deriving DecidableEq

/-- An entry of a results queue, with the input that was run. -/
structure Outcome (κ : Type*) where
  item : Item κ
  result : Result
  deriving DecidableEq

/-- What the tasks read and write of a `WorkerClient`. -/
structure Worker (κ : Type*) where
  retired : Bool
  currentInput : Option (Item κ)
  /-- Whether `process_inputs_task` is not None. -/
  processInputsTask : Bool

/-- A worker that has just been made. -/
def Worker.fresh : Worker κ := ⟨false, none, false⟩

/-- `SELF`.  Queues are numbered as they are made. -/
structure Self (κ ω : Type*) where
  workers : List ω
  idleWorkers : List ω
  inputsQueue : ℕ
  resultsQueue : List (Outcome κ)
  pendingResultBatch : List (Outcome κ)
  currentJob : Option κ
  targetParallelism : ℤ
  jobWatcherStopEvent : Bool
  /-- Whether `job_watcher_task` is not None. -/
  jobWatcherTask : Bool
  booting : Bool
  running : Bool
  failed : Bool
  shuttingDown : Bool
  dynamicFuncRam : Bool
  /-- The monitors of a dynamic job. -/
  monitors : List ℕ
  /-- The job whose function `function_pkl` is. -/
  functionPkl : Option κ
  rebootContainersAfterJob : Bool
  pendingTransfers : Dict ℕ (List (Item κ))
  activeInputStealId : Bool
  reportedStatus : NodeStatus

/-- `REINIT_SELF`, with the number of the new queue. -/
def reinitSelf (queue : ℕ) : Self κ ω where
  workers := []
  idleWorkers := []
  inputsQueue := queue
  resultsQueue := []
  pendingResultBatch := []
  currentJob := none
  targetParallelism := 0
  jobWatcherStopEvent := true
  jobWatcherTask := false
  booting := false
  running := false
  failed := false
  shuttingDown := false
  dynamicFuncRam := false
  monitors := []
  functionPkl := none
  rebootContainersAfterJob := false
  pendingTransfers := .empty
  activeInputStealId := false
  reportedStatus := .booting

/-- What the tasks share. -/
structure Node (κ ω : Type*) where
  self : Self κ ω
  queues : ℕ → List (Item κ)
  worker : ω → Worker κ
  /-- The workers made so far. -/
  made : List ω
  /-- The job of the credentials file. -/
  credentials : Option κ
  /-- Whether the server takes requests. -/
  serving : Bool
  /-- How many watchers and monitors were started. -/
  taskIds : ℕ
  /-- The jobs that are FAILED or CANCELED at the head. -/
  failedJobs : List κ

/-! ### Tasks -/

/-- Where `execute` stands, from the middleware on. -/
inductive ExecuteStage (ω : Type*)
  | posted
  /-- `on_job_start` has run. -/
  | started
  /-- No worker fits; waiting for `on_job_start_task`. -/
  | refusing
  /-- The client is gone; waiting for `on_job_start_task`. -/
  | aborting
  /-- The assignment is taken back, and the head is told; whether an error there is answered. -/
  | takenBack (answered : Bool)
  /-- The credentials are written; `install_packages`. -/
  | installing (workersToAssign workersToLeaveIdle : List ω)
  /-- `load_function`, which has yet to return for `left`. -/
  | loading (workersToAssign workersToLeaveIdle left : List ω)
  deriving DecidableEq

inductive UploadStage
  | arrived
  /-- Held back by the queue's size. -/
  | waiting
  /-- Past its last check, in `sleep(0)`. -/
  | passed
  deriving DecidableEq

inductive TradeStage (ω : Type*)
  | arrived
  | killing (idleToGive : List ω) (granted : ℤ)
  deriving DecidableEq

/-- Who has called `reboot_containers`. -/
inductive Caller
  /-- `lifespan` -/
  | startup
  /-- `POST /reboot` -/
  | endpoint
  /-- A request that was answered with 500. -/
  | background
  /-- `reset_workers`, which gives up on it after a while. -/
  | jobEnd
  deriving DecidableEq

inductive RebootStage
  /-- At the endpoint. -/
  | arrived
  | scheduled
  /-- In the first push. -/
  | asking
  /-- `SELF` is new; up to the new workers. -/
  | preparing
  | starting
  /-- Waiting for `host`. -/
  | hosting
  /-- In the last push. -/
  | reporting
  deriving DecidableEq

inductive StealStage (κ : Type*)
  | head
  | sleeping
  /-- In `get_inputs` at the neighbor. -/
  | getting (job : κ)
  /-- With a batch in hand. -/
  | locking (items : List (Item κ))
  | acking
  deriving DecidableEq

inductive WatcherStage
  | watching
  /-- In `reset_workers`, up to its monitors. -/
  | resetting
  /-- Up to the workers' loops. -/
  | cancelling
  /-- The workers are reset. -/
  | cleaning
  /-- In `reinit_node`'s push. -/
  | reporting
  deriving DecidableEq

/-- Where a `_process_inputs` stands. -/
inductive LoopStage (κ : Type*)
  /-- In the waits before `inputs_queue.get()`. -/
  | top
  /-- In `get()` on a queue. -/
  | getting (queue : ℕ)
  | calling (item : Item κ)
  /-- In `_retire_after_dynamic_worker_failure`, until the lock is free. -/
  | requeuing (item : Item κ) (errorPkl : List UInt8)
  /-- In `finish_input`, with the result to deliver. -/
  | finishing (outcome : Outcome κ) (stopAfterResult : Bool)
  deriving DecidableEq

/-- Where a monitor of a dynamic job stands. -/
inductive MonitorStage (κ ω : Type*)
  /-- Between two of its ticks. -/
  | idle
  /-- In `retire_workers_for_pressure`, until the lock is free. -/
  | shedding (selected : List ω)
  /-- The inputs are queued again; up to the kills. -/
  | clearing (victims : List ω)
  /-- `_boot_readded_worker` boots a worker. -/
  | booting (w : ω) (template : Option ω)
  /-- It loads a job's function. -/
  | handing (w : ω) (template : Option ω) (job : κ)
  deriving DecidableEq

inductive Task (κ ω : Type*)
  | execute (job : κ) (stage : ExecuteStage ω)
  /-- A `load_function` whose `execute` has raised. -/
  | load (job : κ) (w : ω)
  | uploadInputs (job : κ) (inputs : List Input) (stage : UploadStage)
  | getInputs (job : κ) (transferId : ℕ) (requesterQueueSize requesterIdleWorkers : ℤ)
  /-- `get_inputs` in `revoke_inputs_for_idle_peer`. -/
  | revoking (transferId : ℕ) (items : List (Item κ))
  | ackTransfer (job : κ) (transferId : ℕ) (received : Bool)
  | tradeSlots (job : κ) (stage : TradeStage ω)
  /-- A poll; whether it acknowledges the pending batch. -/
  | getResults (job : κ) (acks : Bool)
  /-- Another request. -/
  | request
  /-- `POST /shutdown`, or the loops that shut the node down; whether it reports DELETED. -/
  | shutdown (reports : Bool)
  | reboot (caller : Caller) (stage : RebootStage)
  | inputSteal (n : ℕ) (stage : StealStage κ)
  | jobWatcher (n : ℕ) (stage : WatcherStage)
  | processInputs (w : ω) (job : κ) (stage : LoopStage κ)
  | monitor (n : ℕ) (stage : MonitorStage κ ω)
  /-- Another node, the client or the head marks a job. -/
  | markFailed (job : κ)
  deriving DecidableEq

/-- What a task finds when it moves. -/
inductive Choice (ω : Type*)
  | go
  | raises
  /-- `ClientDisconnect` -/
  | disconnects
  /-- The workers of the user's python version, and the parallelism asked for. -/
  | assigns (compatible : List ω) (parallelism : ℤ)
  | loads (w : ω)
  | begins (dynamicFuncRam dynamicFuncCpu : Bool)
  | revokes (victims : List ω)
  | grants (idle : List ω) (unbacked : ℕ)
  /-- The neighbor is asked for inputs. -/
  | asks
  /-- Its answer. -/
  | gives (inputs : List Input)
  | notFound
  | returns (isError : Bool) (resultPkl : List UInt8)
  /-- `WorkerOutOfMemoryError` or `WorkerProcessTerminatedError`. -/
  | dies (errorPkl : List UInt8)
  /-- Any other exception. -/
  | breaks (errorPkl : List UInt8)
  /-- A rollback's slot is shed. -/
  | shedsSelf
  | sheds (selected : List ω)
  | relocates (w : ω)
  | adds (w : ω) (template : Option ω)
  | ends
  /-- The stop event is seen. -/
  | stops
  /-- `_claim_drained_job_part` -/
  | leaves
  /-- The job is over, or the watcher has crashed; whether the head has it FAILED or CANCELED. -/
  | jobOver (crashed marked : Bool)
  /-- The head's answer; whether its status is DELETED or FAILED. -/
  | answered (terminal : Bool)
  | creates (ws : List ω)
  /-- `wait_for` gives up. -/
  | expires

namespace Task

def stealOf (n : ℕ) : Task κ ω → Bool
  | inputSteal m _ => m = n
  | _ => false

def monitorIn (ns : List ℕ) : Task κ ω → Bool
  | monitor n _ => n ∈ ns
  | _ => false

def loopOf [DecidableEq ω] (ws : List ω) : Task κ ω → Bool
  | processInputs w _ _ => w ∈ ws
  | _ => false

end Task

/-! ### What a segment leaves -/

/-- A segment's outcome. -/
abbrev Outturn (κ ω : Type*) := Yielded (Node κ ω) (Task κ ω)

namespace Node

variable (s : Node κ ω)

/-- The task is over. -/
def done : Outturn κ ω := ⟨s, [], fun _ => false⟩

/-- The task goes on. -/
def next (t : Task κ ω) : Outturn κ ω := ⟨s, [t], fun _ => false⟩

/-- The request is answered with 500: `handle_errors` adds a reboot. -/
def error : Outturn κ ω := s.next (.reboot .background .scheduled)

/-- The queue in `SELF`. -/
def queue : List (Item κ) := s.queues s.self.inputsQueue

def sizeBytes : ℕ := (s.queue.map fun x => x.input.inputPkl.length).sum

def setQueue (xs : List (Item κ)) : Node κ ω :=
  { s with queues := Function.update s.queues s.self.inputsQueue xs }

def put (xs : List (Item κ)) : Node κ ω := s.setQueue (s.queue ++ xs)

def deliver (r : Outcome κ) : Node κ ω :=
  { s with self := { s.self with resultsQueue := s.self.resultsQueue ++ [r] } }

/-- `REINIT_SELF` -/
def reinit : Node κ ω :=
  { s with
    self := reinitSelf (s.self.inputsQueue + 1)
    queues := Function.update s.queues (s.self.inputsQueue + 1) [] }

def markFailed (job : κ) : Node κ ω := { s with failedJobs := job :: s.failedJobs }

variable [DecidableEq ω]

def setWorkers (ws : List ω) (f : Worker κ → Worker κ) : Node κ ω :=
  { s with worker := fun w => if w ∈ ws then f (s.worker w) else s.worker w }

def retire (ws : List ω) : Node κ ω :=
  { s.setWorkers ws fun w => { w with retired := true } with
    self := { s.self with rebootContainersAfterJob := true } }

def clear (ws : List ω) : Node κ ω := s.setWorkers ws fun w => { w with currentInput := none }

/-- The inputs that workers hold. -/
def currentInputs (ws : List ω) : List (Item κ) := ws.filterMap fun w => (s.worker w).currentInput

def active (w : ω) : Bool := !(s.worker w).retired

/-- The worker's task is cancelled. -/
def cancelLoops (ws : List ω) : Node κ ω :=
  s.setWorkers ws fun w =>
    if w.processInputsTask = true then
      { retired := true, currentInput := none, processInputsTask := false }
    else w

end Node

/-! ### Segments -/

section Segments

variable [DecidableEq κ] [DecidableEq ω] (s : Node κ ω)

/-- `on_job_start` -/
def onJobStart (job : κ) : Node κ ω :=
  { s with
    self := { s.self with
      running := true
      currentJob := some job
      reportedStatus := .running } }

/-- `execute` and `handle_errors` take an assignment back. -/
def takeBack : Node κ ω :=
  { s with
    self := { s.self with
      running := false
      currentJob := none
      reportedStatus := .ready } }

/-- `workers_to_assign` -/
def workersToAssign (compatible : List ω) (parallelism : ℤ) : List ω :=
  (s.self.workers.filter fun w => w ∈ compatible).take parallelism.toNat

/-- The monitors of memory, of the CPUs, and of workers to add. -/
def monitorIds (n : ℕ) (dynamicFuncRam dynamicFuncCpu : Bool) : List ℕ :=
  (if dynamicFuncRam = true then [n + 1] else []) ++
    (if dynamicFuncCpu = true then [n + 2] else []) ++
    if dynamicFuncRam = true ∨ dynamicFuncCpu = true then [n + 3] else []

/-- The end of `execute`: the watcher is started. -/
def beginJob (job : κ) (ws idle : List ω) (dynamicFuncRam dynamicFuncCpu : Bool) : Outturn κ ω :=
  let n := s.taskIds
  let monitors := monitorIds n dynamicFuncRam dynamicFuncCpu
  { shared :=
      { s with
        self := { s.self with
          functionPkl := some job
          workers := ws
          idleWorkers := idle
          targetParallelism := ws.length
          dynamicFuncRam
          rebootContainersAfterJob := false
          monitors
          jobWatcherStopEvent := false
          jobWatcherTask := true }
        taskIds := n + 4 }
    tasks :=
      [.jobWatcher n .watching, .inputSteal n .head] ++ monitors.map fun m => .monitor m .idle
    cancels := fun _ => false }

/-- A worker's loop is started, unless it has one. -/
def startLoop (job : κ) (w : ω) : Outturn κ ω :=
  if (s.worker w).processInputsTask = true then s.done
  else
    (s.setWorkers [w] fun w => { w with processInputsTask := true }).next
      (.processInputs w job .top)

/-- `CallHookOnJobStartMiddleware` and `execute`, with the ends that `handle_errors` gives it. -/
def executeSegment (job : κ) : ExecuteStage ω → Choice ω → Option (Outturn κ ω)
  | .posted, .go =>
    if s.self.shuttingDown = true ∨ s.self.running = true ∨ s.self.booting = true then some s.done
    else some ((onJobStart s job).next (.execute job .started))
  | .started, .raises => some s.error
  | .started, .disconnects =>
    if s.self.currentJob = some job ∧ s.self.jobWatcherTask = false then
      some (s.next (.execute job .aborting))
    else some s.done
  | .started, .assigns compatible parallelism =>
    let ws := workersToAssign s compatible parallelism
    if ws = [] then some (s.next (.execute job .refusing))
    else
      some ({ s with credentials := some job }.next
        (.execute job (.installing ws (s.self.workers.filter fun w => w ∉ ws))))
  | .refusing, .go => some ((takeBack s).next (.execute job (.takenBack true)))
  | .refusing, .raises => some s.error
  | .aborting, .go => some ((takeBack s).next (.execute job (.takenBack false)))
  | .aborting, .raises => some s.done
  | .takenBack _, .go => some s.done
  | .takenBack true, .raises => some s.error
  | .takenBack false, .raises => some s.done
  | .installing ws idle, .go => some (s.next (.execute job (.loading ws idle ws)))
  | .installing _ _, .raises => some s.error
  | .loading ws idle left, .loads w =>
    if w ∈ left then
      let y := startLoop s job w
      some { y with tasks := .execute job (.loading ws idle (left.erase w)) :: y.tasks }
    else none
  | .loading _ _ left, .raises => some { s.error with
      tasks := .reboot .background .scheduled :: left.map (.load job) }
  | .loading ws idle [], .begins dynamicFuncRam dynamicFuncCpu =>
    some (beginJob s job ws idle dynamicFuncRam dynamicFuncCpu)
  | _, _ => none

/-- `upload_inputs` -/
def uploadSegment (limit : ℕ) (job : κ) (inputs : List Input) :
    UploadStage → Choice ω → Option (Outturn κ ω)
  | .arrived, .go | .waiting, .go =>
    if s.self.currentJob ≠ some job then some s.done
    else if limit < s.sizeBytes then some (s.next (.uploadInputs job inputs .waiting))
    else some (s.next (.uploadInputs job inputs .passed))
  | .arrived, .raises | .waiting, .raises => some s.error
  | .passed, .go => some (s.put (inputs.map (Item.mk job))).done
  | _, _ => none

/-- `get_inputs` with its `input_transfer_lock`, up to a revocation's kills. -/
def getInputsSegment (job : κ) (transferId : ℕ) (requesterQueueSize requesterIdleWorkers : ℤ)
    (victims : List ω) : Option (Outturn κ ω) :=
  if s.self.currentJob ≠ some job ∨ s.self.jobWatcherStopEvent = true then some s.done
  else
    match s.self.pendingTransfers.get transferId with
    | some _ => some s.done
    | none =>
      let difference := (s.queue.length : ℤ) - requesterQueueSize
      let n := (cutTail (max difference 1 / 2).toNat (s.queue.map Item.input)).1.length
      let left := s.queue.take (s.queue.length - n)
      if n = 0 ∧ left = [] ∧ requesterQueueSize = 0 ∧ 0 < requesterIdleWorkers then
        if (∀ w ∈ victims, w ∈ s.self.workers ∧ s.active w = true ∧
            (s.worker w).currentInput ≠ none) ∧ victims.length ≤ requesterIdleWorkers.toNat then
          some (((s.retire victims).clear victims).next
            (.revoking transferId (s.currentInputs victims)))
        else none
      else
        let t := s.setQueue left
        some ({ t with
          self := { t.self with
            pendingTransfers := t.self.pendingTransfers.set transferId
              (s.queue.drop (s.queue.length - n)) } }.done)

/-- `get_inputs`, once the workers of a revocation are killed. -/
def revokingSegment (transferId : ℕ) (items : List (Item κ)) : Choice ω → Option (Outturn κ ω)
  | .go =>
    some ({ s with
      self := { s.self with
        pendingTransfers := s.self.pendingTransfers.set transferId items } }.done)
  | .raises => some s.error
  | _ => none

/-- `ack_transfer` -/
def ackTransferSegment (job : κ) (transferId : ℕ) (received : Bool) : Outturn κ ω :=
  if s.self.currentJob ≠ some job then s.done
  else
    match s.self.pendingTransfers.get transferId with
    | none => s.done
    | some items =>
      let t := if received = true then s else s.put items
      { t with
        self := { t.self with pendingTransfers := t.self.pendingTransfers.pop transferId } }.done

/-- `trade_slots` -/
def tradeSegment (job : κ) : TradeStage ω → Choice ω → Option (Outturn κ ω)
  | .arrived, .grants idle unbacked =>
    if s.self.currentJob ≠ some job ∨ s.self.jobWatcherStopEvent = true then some s.done
    else if ∀ w ∈ idle, w ∈ s.self.workers ∧ s.active w = true ∧
        (s.worker w).currentInput = none then
      some (s.next (.tradeSlots job (.killing idle (unbacked + idle.length))))
    else none
  | .killing (w :: idle) granted, .go =>
    some
      { shared := (s.retire [w]).clear [w]
        tasks := [.tradeSlots job (.killing idle granted)]
        cancels := Task.loopOf [w] }
  | .killing [] granted, .go =>
    some ({ s with
      self := { s.self with
        targetParallelism := s.self.targetParallelism - granted } }.done)
  | .killing _ _, .raises => some s.error
  | _, _ => none

/-- `get_results` -/
def getResultsSegment (job : κ) (acks : Bool) : Outturn κ ω :=
  if s.self.currentJob ≠ some job then s.done
  else
    let batch := if acks = true then [] else s.self.pendingResultBatch
    match batch with
    | [] =>
      let n := (dequeueResults 0 (s.self.resultsQueue.map Outcome.result)).1.length
      { s with
        self := { s.self with
          pendingResultBatch := s.self.resultsQueue.take n
          resultsQueue := s.self.resultsQueue.drop n } }.done
    | _ :: _ => s.done

/-- `shutdown_node`, and the loops that shut the node down. -/
def shutDown (reports : Bool) : Node κ ω :=
  { s with
    self := { s.self with
      jobWatcherStopEvent := true
      shuttingDown := true
      reportedStatus :=
        if reports = true ∧ s.self.failed = false then .deleted else s.self.reportedStatus } }

/-- `reboot_containers` up to its first push. -/
def startReboot : Node κ ω :=
  { s with
    self := { s.self with jobWatcherStopEvent := true, reportedStatus := .booting } }

/-- A reboot that has raised. -/
def failReboot (caller : Caller) : Outturn κ ω :=
  let t := { s with self := { s.self with failed := true, reportedStatus := .failed } }
  if caller = .endpoint then t.error else t.done

/-- A reboot that has returned: at the start of the service, requests are taken from then on. -/
def endReboot : Outturn κ ω := { s with serving := true }.done

/-- `reboot_containers` -/
def rebootSegment (caller : Caller) : RebootStage → Choice ω → Option (Outturn κ ω)
  | .arrived, .go =>
    if s.self.booting = true then some s.done
    else some ((startReboot s).next (.reboot caller .asking))
  | .scheduled, .go => some ((startReboot s).next (.reboot caller .asking))
  | .asking, .answered terminal =>
    if terminal = true then some (endReboot s)
    else
      let t := s.reinit
      some ({ t with self := { t.self with booting := true } }.next (.reboot caller .preparing))
  | .preparing, .creates ws =>
    if ws ≠ [] ∧ ∀ w ∈ ws, w ∉ s.made then
      let t := s.setWorkers ws fun _ => .fresh
      some ({ t with made := ws ++ t.made, self := { t.self with workers := ws } }.next
        (.reboot caller .starting))
    else none
  | .starting, .go =>
    some ({ s with self := { s.self with booting := false } }.next (.reboot caller .hosting))
  | .hosting, .answered terminal =>
    if terminal = true then some (endReboot s)
    else
      some ({ s with self := { s.self with reportedStatus := .ready } }.next
        (.reboot caller .reporting))
  | .reporting, .go => some (endReboot s)
  | .asking, .raises | .preparing, .raises | .starting, .raises | .hosting, .raises
  | .reporting, .raises => some (failReboot s caller)
  | .asking, .expires | .preparing, .expires | .starting, .expires | .hosting, .expires
  | .reporting, .expires =>
    if caller = .jobEnd then
      some { s with self := { s.self with reportedStatus := .failed } }.done
    else none
  | _, _ => none

/-- `_input_steal_loop` -/
def stealSegment (n : ℕ) : StealStage κ → Choice ω → Option (Outturn κ ω)
  | .head, .go =>
    if s.self.jobWatcherStopEvent = true then some s.done
    else some (s.next (.inputSteal n .sleeping))
  | .sleeping, .go => some (s.next (.inputSteal n .head))
  | .sleeping, .asks =>
    match s.self.currentJob with
    | none => none
    | some job =>
      some ({ s with self := { s.self with activeInputStealId := true } }.next
        (.inputSteal n (.getting job)))
  | .getting _, .notFound =>
    some ({ s with self := { s.self with activeInputStealId := false } }.next
      (.inputSteal n .head))
  | .getting job, .gives inputs =>
    if inputs = [] then some (s.next (.inputSteal n .acking))
    else some (s.next (.inputSteal n (.locking (inputs.map (Item.mk job)))))
  | .getting _, .raises => some (s.next (.inputSteal n .acking))
  | .locking items, .go =>
    some ((if 0 < s.self.targetParallelism then s.put items else s).next (.inputSteal n .acking))
  | .acking, .go =>
    some ({ s with self := { s.self with activeInputStealId := false } }.next
      (.inputSteal n .head))
  | .acking, .ends => some s.done
  | _, _ => none

/-- `_claim_drained_job_part` -/
def Drained : Prop :=
  s.queue = [] ∧ s.self.pendingTransfers.items = [] ∧ s.self.activeInputStealId = false ∧
    (∀ w ∈ s.self.workers, (s.worker w).currentInput = none ∨ (s.worker w).retired = true) ∧
    s.self.resultsQueue = [] ∧ s.self.pendingResultBatch = []

instance : Decidable (Drained s) := inferInstanceAs (Decidable (_ ∧ _))

/-- `reinit_node` -/
def reinitNode : Node κ ω :=
  let ws := s.self.workers ++ s.self.idleWorkers
  let t := (s.setWorkers ws fun w => { w with retired := false }).reinit
  { t with self := { t.self with workers := ws, reportedStatus := .ready } }

/-- `_job_watcher` and `reset_workers` -/
def watcherSegment (n : ℕ) : WatcherStage → Choice ω → Option (Outturn κ ω)
  | .watching, .stops =>
    if s.self.jobWatcherStopEvent = true then some { s.done with cancels := Task.stealOf n }
    else none
  | .watching, .leaves =>
    if Drained s then
      some
        { shared := { s with self := { s.self with jobWatcherStopEvent := true } }
          tasks := [.jobWatcher n .resetting]
          cancels := Task.stealOf n }
    else none
  | .watching, .jobOver crashed marked =>
    let t := if marked = true then (s.self.currentJob.map s.markFailed).getD s else s
    some
      { shared := t
        tasks := [.jobWatcher n .resetting]
        cancels := if crashed = true then fun _ => false else Task.stealOf n }
  | .resetting, .go =>
    some
      { shared := { s with credentials := none, self := { s.self with monitors := [] } }
        tasks := [.jobWatcher n .cancelling]
        cancels := Task.monitorIn s.self.monitors }
  | .cancelling, .go =>
    let ws := s.self.workers ++ s.self.idleWorkers
    let t := s.cancelLoops ws
    some
      { shared := if s.self.rebootContainersAfterJob = true then startReboot t else t
        tasks :=
          [if s.self.rebootContainersAfterJob = true then .reboot .jobEnd .asking
            else .jobWatcher n .cleaning]
        cancels := Task.loopOf (ws.filter fun w => (s.worker w).processInputsTask) }
  | .cleaning, .go => some ((reinitNode s).next (.jobWatcher n .reporting))
  | .cleaning, .raises =>
    if s.self.shuttingDown = true ∨ s.self.failed = true then some s.done
    else some ((startReboot s).next (.reboot .jobEnd .asking))
  | .reporting, .go => some s.done
  | .reporting, .raises => some (s.next (.jobWatcher n .resetting))
  | _, _ => none

/-- `self.current_input is None or self.retired` -/
def Worker.takenOver (w : Worker κ) : Bool := w.currentInput.isNone || w.retired

/-- `_process_inputs` -/
def processInputsSegment (w : ω) (job : κ) : LoopStage κ → Choice ω → Option (Outturn κ ω)
  | .top, .go => some (s.next (.processInputs w job (.getting s.self.inputsQueue)))
  | .top, .shedsSelf => some (s.retire [w]).done
  | .getting q, .go =>
    match s.queues q with
    | [] => none
    | x :: rest =>
      some ({ s with queues := Function.update s.queues q rest }.setWorkers [w]
        (fun w => { w with currentInput := some x })
        |>.next (.processInputs w job (.calling x)))
  | .calling x, .returns isError resultPkl =>
    some (s.next (.processInputs w job
      (.finishing ⟨x, ⟨x.input.inputIndex, isError, resultPkl⟩⟩ false)))
  | .calling x, .dies errorPkl =>
    if (s.worker w).takenOver = true then some (s.clear [w]).done
    else if s.self.dynamicFuncRam = true then
      some (s.next (.processInputs w job (.requeuing x errorPkl)))
    else
      some (s.next (.processInputs w job
        (.finishing ⟨x, ⟨x.input.inputIndex, true, errorPkl⟩⟩ true)))
  | .calling x, .breaks errorPkl =>
    if (s.worker w).takenOver = true then some (s.clear [w]).done
    else
      some (s.next (.processInputs w job
        (.finishing ⟨x, ⟨x.input.inputIndex, true, errorPkl⟩⟩ false)))
  | .requeuing x errorPkl, .go =>
    if (s.worker w).currentInput = none then some s.done
    else if ∃ v ∈ s.self.workers, v ≠ w ∧ s.active v = true then
      some (((s.retire [w]).put [x]).clear [w]).done
    else some (((s.retire [w]).deliver ⟨x, ⟨x.input.inputIndex, true, errorPkl⟩⟩).clear [w]).done
  | .finishing r stopAfterResult, .go =>
    if (s.worker w).retired = true then some (s.clear [w]).done
    else if stopAfterResult = true then some ((s.clear [w]).deliver r).done
    else some (((s.clear [w]).deliver r).next (.processInputs w job .top))
  | _, _ => none

/-- The workers that `retire_workers_for_pressure` takes of those selected. -/
def shedVictims (selected : List ω) : List ω :=
  (selected.filter fun w => s.active w && (s.worker w).currentInput.isSome).take
    ((s.self.workers.filter fun w => s.active w).length - 1)

/-- `dynamic_ram_monitor_loop`, `dynamic_cpu_loop` and `dynamic_worker_readd_loop` -/
def monitorSegment (n : ℕ) : MonitorStage κ ω → Choice ω → Option (Outturn κ ω)
  | .idle, .ends => some s.done
  | .idle, .sheds selected =>
    if ∀ w ∈ selected, w ∈ s.self.workers then some (s.next (.monitor n (.shedding selected)))
    else none
  | .idle, .relocates w =>
    if w ∈ s.self.workers then some ((s.retire [w]).next (.monitor n .idle)) else none
  | .idle, .adds w template =>
    if w ∉ s.made ∧ ∀ v ∈ template, v ∈ s.self.workers ∧ (s.worker v).retired = true then
      some
        { shared := { s.setWorkers [w] (fun _ => .fresh) with made := w :: s.made }
          tasks := [.monitor n .idle, .monitor n (.booting w template)]
          cancels := fun _ => false }
    else none
  | .shedding selected, .go =>
    let victims := shedVictims s selected
    if victims = [] then some (s.next (.monitor n .idle))
    else
      some (((s.retire victims).put (s.currentInputs victims)).next
        (.monitor n (.clearing victims)))
  | .clearing victims, .go => some ((s.clear victims).next (.monitor n .idle))
  | .clearing victims, .raises => some (s.clear victims).done
  | .booting w template, .go =>
    match s.self.functionPkl with
    | none => some s.done
    | some job => some (s.next (.monitor n (.handing w template job)))
  | .booting _ _, .raises | .handing _ _ _, .raises => some s.done
  | .handing w template job, .go =>
    let y := startLoop s job w
    if ∀ v ∈ template, v ∈ s.self.workers then
      let ws := (template.elim s.self.workers s.self.workers.erase) ++ [w]
      some { y with shared := { y.shared with self := { y.shared.self with workers := ws } } }
    else some y
  | _, _ => none

/-- What a task does between two of its awaits. -/
def segment (limit : ℕ) : Task κ ω → Choice ω → Option (Outturn κ ω)
  | .execute job stage, a => executeSegment s job stage a
  | .load job w, .go => some (startLoop s job w)
  | .load _ _, .raises => some s.done
  | .uploadInputs job inputs stage, a => uploadSegment s limit job inputs stage a
  | .getInputs job transferId queueSize idleWorkers, .revokes victims =>
    getInputsSegment s job transferId queueSize idleWorkers victims
  | .revoking transferId items, a => revokingSegment s transferId items a
  | .ackTransfer job transferId received, .go =>
    some (ackTransferSegment s job transferId received)
  | .tradeSlots job stage, a => tradeSegment s job stage a
  | .getResults job acks, .go => some (getResultsSegment s job acks)
  | .request, .go => some s.done
  | .request, .raises => some s.error
  | .shutdown reports, .go => some (shutDown s reports).done
  | .reboot caller stage, a => rebootSegment s caller stage a
  | .inputSteal n stage, a => stealSegment s n stage a
  | .jobWatcher n stage, a => watcherSegment s n stage a
  | .processInputs w job stage, a => processInputsSegment s w job stage a
  | .monitor n stage, a => monitorSegment s n stage a
  | .markFailed job, .go => some (s.markFailed job).done
  | _, _ => none

end Segments

/-! ### The system -/

/-- The tasks that come from outside. -/
def Task.outside : Task κ ω → Bool
  | .execute _ .posted | .uploadInputs _ _ .arrived | .getInputs _ _ _ _ | .ackTransfer _ _ _
  | .tradeSlots _ .arrived | .getResults _ _ | .request | .shutdown _
  | .reboot .endpoint .arrived | .markFailed _ => true
  | _ => false

/-- A node service that has just been started. -/
structure Started (s : Node κ ω) (tasks : List (Task κ ω)) : Prop where
  self : s.self = reinitSelf 0
  queue : s.queues 0 = []
  worker : ∀ w, s.worker w = .fresh
  made : s.made = []
  credentials : s.credentials = none
  serving : s.serving = false
  tasks : tasks = [.reboot .startup .scheduled]

/-- The node service; `limit` is `INPUTS_QUEUE_RAM_LIMIT_BYTES`. -/
def nodeService (κ ω : Type*) [DecidableEq κ] [DecidableEq ω] (limit : ℕ) :
    EventLoop (Node κ ω) (Task κ ω) (Choice ω) where
  init := Started
  arrives s t := s.serving && t.outside
  segment s t a := segment s limit t a

end Burla.Turnover
