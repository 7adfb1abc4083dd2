/-
The client's side of the results endpoint, for one node (`Node._gather_results` and the loop
of `Node.execute_job` in the client's _node.py).

One poll is under way at a time.  It carries the id of the batch that was put on the return
queue last, and that id is forgotten once a whole response to it has been read.
-/
import Burla.Results.Node

namespace Burla.Results

variable {V : Type*}

/-- `NETWORK_RETRY_ATTEMPTS` -/
def networkRetryAttempts : ℕ := 5

structure ErrorInfo (V : Type*) where
  isInfrastructureError : Bool
  exception : V

/-- What unpickling gives: for a result its value, for an error what it says about the
error; nothing when it raises. -/
structure Unpickler (V : Type*) where
  loads : List UInt8 → Option V
  loadsErrorInfo : List UInt8 → Option (ErrorInfo V)

/-- Where the client is with this node. -/
inductive Phase
  /-- Between two polls. -/
  | looping
  /-- Waiting for the response to this attempt of a poll. -/
  | gathering (attemptIndex : ℕ)
  /-- The loop has returned or raised. -/
  | ended
  deriving DecidableEq, Repr

/-- What the polling of one node reads and writes of the client. -/
structure NodeClient (V : Type*) where
  phase : Phase
  resultBatchIdToAck : Option ℕ
  /-- What this node's results have put on the return queue. -/
  returnQueue : List V
  resultCount : ℕ
  currentParallelism : ℕ
  dynamicWorkerReduction : Option (ℕ × ℕ)
  deriving DecidableEq, Repr

section

variable (u : Unpickler V) (raiseErrors : Bool)

/-- The value a result becomes on the return queue; nothing when the client raises. -/
def returnValue (result : Result) : Option V :=
  if result.isError then
    match u.loadsErrorInfo result.resultPkl with
    | none => none
    | some errorInfo =>
      if errorInfo.isInfrastructureError ∨ raiseErrors then none else some errorInfo.exception
  else u.loads result.resultPkl

namespace NodeClient

/-- `_done_node_results`: a 404 ends the loop. -/
def done (c : NodeClient V) : NodeClient V :=
  { c with phase := .ended, currentParallelism := 0, dynamicWorkerReduction := none }

/-- `_empty_node_results`: the loop goes on without a response. -/
def empty (c : NodeClient V) : NodeClient V :=
  { c with phase := .looping, dynamicWorkerReduction := none }

/-- A response has been read in full. -/
def take (c : NodeClient V) (response : ResultsResponse) : NodeClient V :=
  let c := { c with resultBatchIdToAck := none }
  if response.clusterShutdown ∨ response.clusterRestarted ∨ response.dashboardCanceled then
    { c with phase := .ended }
  else
    match response.results.mapM (returnValue u raiseErrors) with
    | none => { c with phase := .ended }
    | some returnValues =>
      { phase := .looping
        resultBatchIdToAck := response.resultBatchId
        returnQueue := c.returnQueue ++ returnValues
        resultCount := c.resultCount + returnValues.length
        currentParallelism := response.currentParallelism
        dynamicWorkerReduction := response.dynamicWorkerReduction }

/-- A response ends the loop or its results are put on the return queue. -/
lemma take_cases (c : NodeClient V) (response : ResultsResponse) :
    ((c.take u raiseErrors response).phase = .ended ∧
      (c.take u raiseErrors response).resultBatchIdToAck = none ∧
      (c.take u raiseErrors response).returnQueue = c.returnQueue) ∨
    ∃ returnValues, response.results.mapM (returnValue u raiseErrors) = some returnValues ∧
      (c.take u raiseErrors response).phase = .looping ∧
      (c.take u raiseErrors response).resultBatchIdToAck = response.resultBatchId ∧
      (c.take u raiseErrors response).returnQueue = c.returnQueue ++ returnValues := by
  simp only [take]
  split
  · exact .inl ⟨rfl, rfl, rfl⟩
  · cases hvalues : response.results.mapM (returnValue u raiseErrors) with
    | none => exact .inl ⟨rfl, rfl, rfl⟩
    | some returnValues => exact .inr ⟨returnValues, rfl, rfl, rfl, rfl⟩

end NodeClient

end

end Burla.Results
