/-
Replacement nodes: what a node asks for (`_job_watcher`, job_watcher.py), what the head makes of it
(`boot_replacement_nodes`, endpoints/nodes.py), and the record that it keeps
(`record_replacement_request`, cluster_state.py).

A node has at most one request at a time, and waits for the answer to one attempt of it; it gives
an attempt up when it takes too long or the connection breaks, and makes the next one under the
same id.  An attempt that was given up may still be on its way, and so may its answer.  Between
the check for a plan that is there and the record of a new one the head awaits nothing.  The
deficit of an attempt, and what is planned for it, are labels of the steps.
-/
import Burla.Grow.Fleet

namespace Burla.Replace

open Burla.Grow (Catalog Budget)

variable {μ γ ι : Type*}

/-- A machine of a plan. -/
structure Planned (μ : Type*) where
  machineType : μ
  targetParallelism : ℕ
  deriving DecidableEq

/-- An entry of `replacement_requests`. -/
structure ReplacementRequest (μ : Type*) where
  requestId : ℕ
  booted : List (Planned μ)
  slotsBooted : ℕ
  deriving DecidableEq

/-- The job, as far as its replacement nodes go. -/
structure Job (μ γ ι : Type*) where
  running : Bool
  grow : Bool
  gpu : Option γ
  /-- `grow_cpus_remaining` and `grow_gpus_remaining`. -/
  remaining : Budget
  replacementRequests : ι → Option (ReplacementRequest μ)

/-- A node of the job. -/
structure Node where
  targetParallelism : ℤ
  replacementRequestId : Option ℕ
  replacementRefused : Bool
  /-- It waits for the answer to its last attempt. -/
  waiting : Bool
  /-- How many attempts it has made. -/
  attempts : ℕ
  /-- What it has subtracted from its target for replacements. -/
  handedOver : ℕ
  deriving DecidableEq

/-- A node that has asked for nothing. -/
def Node.new (targetParallelism : ℤ) : Node where
  targetParallelism := targetParallelism
  replacementRequestId := none
  replacementRefused := false
  waiting := false
  attempts := 0
  handedOver := 0

/-- A request on its way to the head. -/
structure Attempt (ι : Type*) where
  requestingNode : ι
  serial : ℕ
  missingSlots : ℤ
  requestId : ℕ
  deriving DecidableEq

inductive Answer
  | booted (slotsBooted : ℕ)
  | error (status : ℕ)
  deriving DecidableEq

/-- An answer on its way back. -/
structure Response (ι : Type*) where
  node : ι
  serial : ℕ
  requestId : ℕ
  answer : Answer
  deriving DecidableEq

/-- A plan that the head has recorded. -/
structure Plan (μ ι : Type*) where
  node : ι
  requestId : ℕ
  planned : List (Planned μ)
  deriving DecidableEq

/-- `slots_booted`. -/
def slotsOf (planned : List (Planned μ)) : ℕ := (planned.map Planned.targetParallelism).sum

structure Exchange (μ γ ι : Type*) where
  job : Job μ γ ι
  /-- The budgets that the job was admitted with. -/
  budget : Budget
  jobAdmissionPaused : Bool
  nodes : ι → Node
  attempts : List (Attempt ι)
  responses : List (Response ι)
  /-- The ids that have been given out. -/
  ids : List ℕ
  /-- What the head has recorded, plan by plan. -/
  plans : List (Plan μ ι)
  /-- What `_start_nodes` has been called with. -/
  boots : List (List (Planned μ))
  /-- The last attempt of each node that the head has answered. -/
  answered : ι → ℕ

inductive Event (μ ι : Type*)
  /-- A node asks, under the id of its request or under a new one. -/
  | attempt (i : ι) (missingSlots : ℤ) (newId : ℕ)
  | loseAttempt (n : ℕ)
  | loseResponse (n : ℕ)
  /-- The head answers an attempt. -/
  | process (n : ℕ) (planned : List (Planned μ))
  /-- A node waits no longer. -/
  | giveUp (i : ι)
  /-- An answer comes to the node. -/
  | answer (n : ℕ)
  /-- The target changes for another reason. -/
  | retarget (i : ι) (slots : ℤ)
  | endJob
  /-- `pause_job_admission_if_idle`. -/
  | pause
  | resume

namespace Exchange

/-- A job that has just been admitted, and its nodes. -/
def new (grow : Bool) (gpu : Option γ) (remaining : Budget) (targetParallelism : ι → ℤ) :
    Exchange μ γ ι where
  job := ⟨true, grow, gpu, remaining, fun _ => none⟩
  budget := remaining
  jobAdmissionPaused := false
  nodes := fun i => Node.new (targetParallelism i)
  attempts := []
  responses := []
  ids := []
  plans := []
  boots := []
  answered := fun _ => 0

variable [DecidableEq γ] [DecidableEq ι] (cat : Catalog μ γ) (s : Exchange μ γ ι)

/-- A node's attempt; its id lives until an answer is seen. -/
def requestReplacementNodes (i : ι) (missingSlots : ℤ) (newId : ℕ) : Option (Exchange μ γ ι) :=
  let node := s.nodes i
  if 0 < missingSlots ∧ node.waiting = false ∧ node.replacementRefused = false ∧ newId ∉ s.ids then
    let requestId := node.replacementRequestId.getD newId
    some { s with
      nodes := Function.update s.nodes i
        { node with
          replacementRequestId := some requestId
          waiting := true
          attempts := node.attempts + 1 }
      attempts := s.attempts ++ [⟨i, node.attempts + 1, missingSlots, requestId⟩]
      ids := s.ids ++ [newId] }
  else none

/-- The head has the plan of the request. -/
def Recorded (i : ι) (requestId : ℕ) : Prop :=
  (s.job.replacementRequests i).map ReplacementRequest.requestId = some requestId

instance (i : ι) (requestId : ℕ) : Decidable (s.Recorded i requestId) :=
  inferInstanceAs (Decidable (_ = _))

/-- The head answers an attempt. -/
def respond (a : Attempt ι) (answer : Answer) : Exchange μ γ ι :=
  { s with
    responses := s.responses ++ [⟨a.requestingNode, a.serial, a.requestId, answer⟩]
    answered := Function.update s.answered a.requestingNode a.serial }

/-- `record_replacement_request`, with the call of `_start_nodes`. -/
def recordReplacementRequest (a : Attempt ι) (planned : List (Planned μ)) : Exchange μ γ ι :=
  let machineTypes := planned.map Planned.machineType
  { s with
    job := { s.job with
      remaining := s.job.remaining.spend (cat.plannedCpuCount machineTypes)
        (cat.plannedGpuCount machineTypes)
      replacementRequests := Function.update s.job.replacementRequests a.requestingNode
        (some ⟨a.requestId, planned, slotsOf planned⟩) }
    plans := s.plans ++ [⟨a.requestingNode, a.requestId, planned⟩]
    boots := s.boots ++ [planned] }

/-- The second part of `boot_replacement_nodes`, when there is no plan yet. -/
def planReplacement (a : Attempt ι) (planned : List (Planned μ)) : Option (Exchange μ γ ι) :=
  if s.job.remaining.Respects cat s.job.gpu (planned.map Planned.machineType) then
    if planned = [] then some (s.respond a (.error 409))
    else some ((s.recordReplacementRequest cat a planned).respond a (.booted (slotsOf planned)))
  else none

/-- `boot_replacement_nodes`. -/
def bootReplacementNodes (a : Attempt ι) (planned : List (Planned μ)) : Option (Exchange μ γ ι) :=
  if a.missingSlots ≤ 0 then some (s.respond a (.error 400))
  else if s.jobAdmissionPaused = true then some (s.respond a (.error 409))
  else if s.job.running = false ∨ s.job.grow = false then some (s.respond a (.error 409))
  else
    match (s.job.replacementRequests a.requestingNode).filter (·.requestId = a.requestId) with
    | some previous => some (s.respond a (.booted previous.slotsBooted))
    | none => s.planReplacement cat a planned

/-- What a node makes of the answer that it has waited for. -/
def seeAnswer (node : Node) : Answer → Node
  | .booted slotsBooted =>
    { node with
      waiting := false
      replacementRequestId := none
      targetParallelism := node.targetParallelism - slotsBooted
      handedOver := node.handedOver + slotsBooted }
  | .error 409 =>
    { node with
      waiting := false
      replacementRequestId := none
      replacementRefused := true }
  | .error _ => { node with waiting := false }

/-- An answer comes in; the node takes it when it is the one that it waits for. -/
def deliver (r : Response ι) : Exchange μ γ ι :=
  let node := s.nodes r.node
  if node.waiting = true ∧ r.serial = node.attempts then
    { s with nodes := Function.update s.nodes r.node (seeAnswer node r.answer) }
  else s

/-- One step. -/
def step : Event μ ι → Option (Exchange μ γ ι)
  | .attempt i missingSlots newId => s.requestReplacementNodes i missingSlots newId
  | .loseAttempt n => (takeAt s.attempts n).map fun e => { s with attempts := e.2 }
  | .loseResponse n => (takeAt s.responses n).map fun e => { s with responses := e.2 }
  | .process n planned =>
    (takeAt s.attempts n).bind fun e =>
      { s with attempts := e.2 }.bootReplacementNodes cat e.1 planned
  | .giveUp i =>
    if (s.nodes i).waiting = true then
      some { s with nodes := Function.update s.nodes i { s.nodes i with waiting := false } }
    else none
  | .answer n => (takeAt s.responses n).map fun e => { s with responses := e.2 }.deliver e.1
  | .retarget i slots =>
    some { s with
      nodes := Function.update s.nodes i { s.nodes i with targetParallelism := slots } }
  | .endJob => some { s with job := { s.job with running := false } }
  | .pause => if s.job.running = true then none else some { s with jobAdmissionPaused := true }
  | .resume => some { s with jobAdmissionPaused := false }

end Exchange

/-- The nodes of a job and the head. -/
def sys [DecidableEq γ] [DecidableEq ι] (cat : Catalog μ γ) :
    System (Exchange μ γ ι) (Event μ ι) where
  init s := ∃ grow gpu remaining targetParallelism,
    s = Exchange.new grow gpu remaining targetParallelism
  step := Exchange.step cat

end Burla.Replace
