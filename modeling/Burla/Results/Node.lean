/-
The node's side of the results endpoint (`get_results`, `_get_result_batch`,
`_pop_pending_logs` in job_endpoints.py).

Results leave `results_queue` in batches.  A batch stays pending, and is served again to
every poll, until a poll acknowledges its id.
-/
import Mathlib.Data.List.Basic
import Mathlib.Data.Rat.Defs
import Mathlib.Tactic.Common

namespace Burla.Results

/-! ### Data -/

/-- What a worker puts on `results_queue`. -/
structure Result where
  inputIndex : ℕ
  isError : Bool
  resultPkl : List UInt8
  deriving DecidableEq, Repr

structure LogLine where
  timestamp : ℚ
  message : String
  deriving DecidableEq, Repr

structure LogDocument where
  logs : List LogLine
  timestamp : ℚ
  inputIndex : Option ℕ
  isError : Bool
  deriving DecidableEq, Repr

/-- The ids are `uuid4` values, numbered in the order they are drawn. -/
structure ResultBatch where
  id : ℕ
  results : List Result
  deriving DecidableEq, Repr

/-- What a response reports beside results and logs. -/
structure NodeStatus where
  currentParallelism : ℕ
  /-- For each worker, whether it is retired. -/
  workers : List Bool
  dynamicFuncRam : Bool
  dynamicFuncCpu : Bool
  pendingClusterShutdown : Bool
  pendingClusterRestarted : Bool
  pendingDashboardCanceled : Bool
  deriving DecidableEq, Repr

/-- What the results endpoint reads and writes of a node. -/
structure ResultsNode where
  /-- Whether the job of the requests is the node's current job. -/
  onJob : Bool
  resultsQueue : List Result
  pendingResultBatch : Option ResultBatch
  /-- How many batch ids have been drawn. -/
  batchIds : ℕ
  pendingLogs : List LogDocument
  status : NodeStatus
  deriving DecidableEq, Repr

structure ResultsResponse where
  resultBatchId : Option ℕ
  results : List Result
  currentParallelism : ℕ
  /-- The original and the current number of workers. -/
  dynamicWorkerReduction : Option (ℕ × ℕ)
  logs : List LogDocument
  clusterShutdown : Bool
  clusterRestarted : Bool
  dashboardCanceled : Bool
  deriving DecidableEq, Repr

/-! ### Logs -/

def maxPendingLogs : ℕ := 20000

def maxLogsResponseBytes : ℕ := 1000000

def maxLogDocumentsPerResultsResponse : ℕ := 500

def logsOverflowMessage : String :=
  "Logs dequeued due to high volume, see dashboard to view all logs."

/-- `_log_document_size` -/
def logDocumentSize (logDocument : LogDocument) : ℕ :=
  logDocument.logs.foldl (fun size log => size + (log.message.utf8ByteSize + 180)) 180

/-- The loop of `_pop_pending_logs`, from the documents drained so far. -/
def drainLogs (drainedLogs : List LogDocument) (totalBytes : ℕ) :
    List LogDocument → List LogDocument × List LogDocument
  | [] => (drainedLogs, [])
  | logDocument :: pending =>
    if drainedLogs.length < maxLogDocumentsPerResultsResponse then
      let documentSize := logDocumentSize logDocument
      if drainedLogs ≠ [] ∧ totalBytes + documentSize > maxLogsResponseBytes then
        (drainedLogs, logDocument :: pending)
      else drainLogs (drainedLogs ++ [logDocument]) (totalBytes + documentSize) pending
    else (drainedLogs, logDocument :: pending)

/-- `_pop_pending_logs`: the documents for a response, and those that stay. -/
def popPendingLogs (now : ℚ) (pendingLogs : List LogDocument) :
    List LogDocument × List LogDocument :=
  if pendingLogs.length = maxPendingLogs then
    let warningDocument : LogDocument :=
      { logs := [{ timestamp := now, message := logsOverflowMessage }], timestamp := now
        inputIndex := none, isError := false }
    drainLogs [warningDocument] (logDocumentSize warningDocument) pendingLogs
  else drainLogs [] 0 pendingLogs

/-! ### Results -/

def maxResultsResponseBytes : ℕ := 1000000

/-- The loop of `_get_result_batch`: the results for a batch, and those that stay queued. -/
def dequeueResults (totalBytes : ℕ) : List Result → List Result × List Result
  | [] => ([], [])
  | result :: resultsQueue =>
    if totalBytes < maxResultsResponseBytes then
      let p := dequeueResults (totalBytes + result.resultPkl.length) resultsQueue
      (result :: p.1, p.2)
    else ([], result :: resultsQueue)

namespace ResultsNode

/-- `_get_result_batch` -/
def getResultBatch (n : ResultsNode) : (Option ℕ × List Result) × ResultsNode :=
  match n.pendingResultBatch with
  | some batch => ((some batch.id, batch.results), n)
  | none =>
    match dequeueResults 0 n.resultsQueue with
    | ([], _) => ((none, []), n)
    | (results, resultsQueue) =>
      ((some n.batchIds, results),
        { n with
          resultsQueue
          pendingResultBatch := some { id := n.batchIds, results }
          batchIds := n.batchIds + 1 })

/-- The pending batch is given up when a poll acknowledges it. -/
def acknowledge (n : ResultsNode) (ackResultBatchId : Option ℕ) : ResultsNode :=
  match n.pendingResultBatch with
  | some batch =>
    if some batch.id = ackResultBatchId then { n with pendingResultBatch := none } else n
  | none => n

def dynamicWorkerReduction (status : NodeStatus) : Option (ℕ × ℕ) :=
  let originalWorkerCount := status.workers.length
  let currentWorkerCount := (status.workers.filter fun retired => !retired).length
  let jobIsDynamic := status.dynamicFuncRam || status.dynamicFuncCpu
  if jobIsDynamic ∧ currentWorkerCount < originalWorkerCount then
    some (originalWorkerCount, currentWorkerCount)
  else none

/-- `get_results`: no response is a 404. -/
def getResults (n : ResultsNode) (now : ℚ) (ackResultBatchId : Option ℕ) :
    Option ResultsResponse × ResultsNode :=
  if n.onJob = false then (none, n)
  else
    let p := (n.acknowledge ackResultBatchId).getResultBatch
    let q := popPendingLogs now p.2.pendingLogs
    (some
      { resultBatchId := p.1.1
        results := p.1.2
        currentParallelism := n.status.currentParallelism
        dynamicWorkerReduction := dynamicWorkerReduction n.status
        logs := q.1
        clusterShutdown := n.status.pendingClusterShutdown
        clusterRestarted := n.status.pendingClusterRestarted
        dashboardCanceled := n.status.pendingDashboardCanceled },
      { p.2 with pendingLogs := q.2 })

/-- A worker queues a result. -/
def putResult (n : ResultsNode) (result : Result) : ResultsNode :=
  { n with resultsQueue := n.resultsQueue ++ [result] }

/-- A worker queues a log document; a full deque drops its oldest. -/
def putLog (n : ResultsNode) (logDocument : LogDocument) : ResultsNode :=
  let pendingLogs := n.pendingLogs ++ [logDocument]
  { n with pendingLogs := pendingLogs.drop (pendingLogs.length - maxPendingLogs) }

end ResultsNode

/-! ### What one call does -/

lemma dequeueResults_append (totalBytes : ℕ) (queue : List Result) :
    (dequeueResults totalBytes queue).1 ++ (dequeueResults totalBytes queue).2 = queue := by
  induction queue generalizing totalBytes with
  | nil => rfl
  | cons result queue ih =>
    rw [dequeueResults]
    split
    · rw [List.cons_append, ih]
    · rfl

namespace ResultsNode

@[simp] lemma putLog_pendingResultBatch (n : ResultsNode) (logDocument : LogDocument) :
    (n.putLog logDocument).pendingResultBatch = n.pendingResultBatch := by
  rw [putLog]

@[simp] lemma putLog_batchIds (n : ResultsNode) (logDocument : LogDocument) :
    (n.putLog logDocument).batchIds = n.batchIds := by
  rw [putLog]

/-- What the acknowledgement on a poll does. -/
lemma acknowledge_cases (n : ResultsNode) (ackResultBatchId : Option ℕ) :
    n.acknowledge ackResultBatchId = n ∨
      ∃ batch, n.pendingResultBatch = some batch ∧ ackResultBatchId = some batch.id ∧
        n.acknowledge ackResultBatchId = { n with pendingResultBatch := none } := by
  unfold acknowledge
  cases hpending : n.pendingResultBatch with
  | none => exact .inl rfl
  | some batch =>
    by_cases hack : some batch.id = ackResultBatchId
    · exact .inr ⟨batch, rfl, hack.symm, by simp [hack]⟩
    · exact .inl (by simp [hack])

@[simp] lemma acknowledge_resultsQueue (n : ResultsNode) (ackResultBatchId : Option ℕ) :
    (n.acknowledge ackResultBatchId).resultsQueue = n.resultsQueue := by
  rcases n.acknowledge_cases ackResultBatchId with h | ⟨_, -, -, h⟩ <;> rw [h]

@[simp] lemma acknowledge_batchIds (n : ResultsNode) (ackResultBatchId : Option ℕ) :
    (n.acknowledge ackResultBatchId).batchIds = n.batchIds := by
  rcases n.acknowledge_cases ackResultBatchId with h | ⟨_, -, -, h⟩ <;> rw [h]

/-- A batch that a poll acknowledges does not stay. -/
lemma acknowledge_id {n : ResultsNode} {batch : ResultBatch}
    (hpending : n.pendingResultBatch = some batch) :
    n.acknowledge (some batch.id) = { n with pendingResultBatch := none } := by
  simp [acknowledge, hpending]

/-- What a call of `_get_result_batch` does: serve the pending batch, find nothing, or take a
new batch off the queue. -/
inductive Batched (n : ResultsNode) : (Option ℕ × List Result) × ResultsNode → Prop
  | again {batch : ResultBatch} (hpending : n.pendingResultBatch = some batch) :
      Batched n ((some batch.id, batch.results), n)
  | nothing (hpending : n.pendingResultBatch = none) : Batched n ((none, []), n)
  | taken {results rest : List Result} (hpending : n.pendingResultBatch = none)
      (hqueue : n.resultsQueue = results ++ rest) :
      Batched n ((some n.batchIds, results),
        { n with
          resultsQueue := rest
          pendingResultBatch := some { id := n.batchIds, results }
          batchIds := n.batchIds + 1 })

lemma getResultBatch_batched (n : ResultsNode) : n.Batched n.getResultBatch := by
  unfold getResultBatch
  cases hpending : n.pendingResultBatch with
  | some batch => exact .again hpending
  | none =>
    have hqueue := dequeueResults_append 0 n.resultsQueue
    generalize dequeueResults 0 n.resultsQueue = p at hqueue
    obtain ⟨results, rest⟩ := p
    cases results with
    | nil => exact .nothing hpending
    | cons result results => exact .taken hpending hqueue.symm

/-- A response on the job holds what `_get_result_batch` gives. -/
lemma getResults_eq {n : ResultsNode} (hjob : n.onJob ≠ false) (now : ℚ)
    (ackResultBatchId : Option ℕ) :
    ∃ response pendingLogs,
      n.getResults now ackResultBatchId =
        (some response,
          { (n.acknowledge ackResultBatchId).getResultBatch.2 with pendingLogs }) ∧
      response.resultBatchId = (n.acknowledge ackResultBatchId).getResultBatch.1.1 ∧
      response.results = (n.acknowledge ackResultBatchId).getResultBatch.1.2 :=
  ⟨_, _, if_neg hjob, rfl, rfl⟩

end ResultsNode

end Burla.Results
