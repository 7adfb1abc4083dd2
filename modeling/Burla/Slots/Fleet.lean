/-
All paths on which the slot counts of a job's nodes move: the start of the job on a node
(`execute`), slot trades, minted slots and their rollback, the recovery loop and the reclaim
of stranded inputs, and replacement nodes (the requester in `_job_watcher` against
`boot_replacement_nodes`).

A replacement is paid for when its requester reads the response: until then the slots planned
for the new nodes are still the requester's.  Nothing ties the start of such a node to that,
so each plan is numbered, and the numbers of the plans that were read are kept.
-/
import Burla.Slots.Counters
import Burla.Slots.Readd
import Burla.Slots.Trades

namespace Burla.Slots

variable {ι : Type*}

/-- How far a node is with the job. -/
inductive Stage
  /-- Not (yet) for this job. -/
  | absent
  /-- Ready or booting with so many slots; under which replacement plan, if any. -/
  | planned (slots : ℕ) (plan : Option ℕ)
  | started
  deriving DecidableEq, Repr

/-- The slots of a node that has been picked for the job and not started on it. -/
def Stage.assigned : Stage → ℕ
  | .planned slots _ => slots
  | _ => 0

/-- What the other paths read and write of a node. -/
structure FleetNode where
  mintSlotsAllowed : Bool
  shedSlotsPending : ℤ
  replacementRequestId : Option ℕ
  /-- The request whose response the watcher is waiting for. -/
  replacementAttempt : Option ℕ
  replacementRefused : Bool
  deriving DecidableEq, Repr

/-- A request to `boot_replacement_nodes`. -/
structure ReplacementRequest (ι : Type*) where
  attempt : ℕ
  requestingNode : ι
  missingSlots : ℤ
  requestId : ℕ

/-- An entry of `replacement_requests`: which nodes are booted, with how many slots. -/
structure ReplacementPlan (ι : Type*) where
  requestId : ℕ
  number : ℕ
  booted : ι → ℕ

/-- `slots_booted` -/
def ReplacementPlan.slotsBooted [Fintype ι] (p : ReplacementPlan ι) : ℤ := ∑ i, (p.booted i : ℤ)

/-- A response of `boot_replacement_nodes`: a plan, or a 409. -/
structure ReplacementResponse (ι : Type*) where
  request : ReplacementRequest ι
  plan : Option (ReplacementPlan ι)

/-- A job, its nodes, and what the head has on record about them. -/
structure Fleet (ι : Type*) where
  maxParallelism : ℕ
  nInputs : ℕ
  trades : Trades ι
  stage : ι → Stage
  nodes : ι → FleetNode
  /-- Slots the head has minted for each node and not taken back. -/
  granted : ι → ℕ
  /-- Replacement requests that have not arrived. -/
  requests : List (ReplacementRequest ι)
  /-- Every response made. -/
  responses : List (ReplacementResponse ι)
  /-- `replacement_requests` -/
  replacementRequests : ι → Option (ReplacementPlan ι)
  /-- How many attempts, request ids and plans there were. -/
  attempts : ℕ
  requestIds : ℕ
  plans : ℕ
  /-- The plans whose requester has read a response. -/
  received : List ℕ

/-- What can happen next. -/
inductive FleetEvent (ι : Type*)
  | trade (e : TradeEvent ι)
  /-- The client hands the job to a node. -/
  | start (i : ι) (compatibleWorkers : ℕ)
  /-- The head mints slots for a node; the response may be lost. -/
  | mint (i : ι) (slots : ℕ) (delivered : Bool)
  /-- The head takes minted slots back. -/
  | shed (i : ι) (slots : ℕ)
  | readd (i : ι) (v : ReaddView)
  | reclaim (i : ι) (aliveWorkers queuedInputs cpuCount : ℕ)
  | askReplacement (i : ι) (aliveWorkers : ℕ)
  | replacementFails (i : ι)
  /-- The head serves a request: it refuses, or boots nodes that cover some of it. -/
  | bootReplacement (j : ℕ) (admitted : Bool) (booted : ι → ℕ)
  | readReplacement (k : ℕ)

namespace Fleet

variable [DecidableEq ι] (s : Fleet ι)

def setNode (i : ι) (n : FleetNode) : Fleet ι := { s with nodes := Function.update s.nodes i n }

/-- `SELF["target_parallelism"]` -/
def target (i : ι) : ℤ := (s.trades.nodes i).targetParallelism

def onJob (i : ι) : Bool := (s.trades.nodes i).onJob

def setTarget (i : ι) (targetParallelism : ℤ) : Fleet ι :=
  { s with trades := s.trades.setNode i { s.trades.nodes i with targetParallelism } }

def counters (i : ι) : Counters := ⟨s.target i, (s.nodes i).shedSlotsPending⟩

def setCounters (i : ι) (c : Counters) : Fleet ι :=
  (s.setNode i { s.nodes i with shedSlotsPending := c.shedSlotsPending }).setTarget i
    c.targetParallelism

/-- `execute` -/
def start (i : ι) (targetParallelism : ℤ) : Fleet ι :=
  { s with
    stage := Function.update s.stage i .started
    trades := s.trades.setNode i
      { s.trades.nodes i with onJob := true, stopped := false, targetParallelism }
    nodes := Function.update s.nodes i
      { s.nodes i with mintSlotsAllowed := mintSlotsAllowed s.maxParallelism s.nInputs } }

/-- The watcher asks for replacements of the workers it lacks. -/
def askReplacement (i : ι) (aliveWorkers : ℕ) : Fleet ι :=
  let requestId := (s.nodes i).replacementRequestId.getD s.requestIds
  { s with
    nodes := Function.update s.nodes i
      { s.nodes i with
        replacementRequestId := some requestId, replacementAttempt := some s.attempts }
    requests :=
      { attempt := s.attempts, requestingNode := i
        missingSlots := s.target i - aliveWorkers, requestId } :: s.requests
    attempts := s.attempts + 1
    requestIds :=
      if (s.nodes i).replacementRequestId = none then s.requestIds + 1 else s.requestIds }

def respond (q : ReplacementRequest ι) (plan : Option (ReplacementPlan ι)) : Fleet ι :=
  { s with responses := { request := q, plan } :: s.responses }

/-- The head plans the nodes and records the plan. -/
def plan (q : ReplacementRequest ι) (booted : ι → ℕ) : Fleet ι :=
  let p : ReplacementPlan ι := { requestId := q.requestId, number := s.plans, booted }
  { s with
    stage := fun i => if booted i = 0 then s.stage i else .planned (booted i) (some s.plans)
    replacementRequests := Function.update s.replacementRequests q.requestingNode (some p)
    responses := { request := q, plan := some p } :: s.responses
    plans := s.plans + 1 }

variable [Fintype ι]

/-- `boot_replacement_nodes` -/
def bootReplacement (q : ReplacementRequest ι) (admitted : Bool) (booted : ι → ℕ) :
    Option (Fleet ι) :=
  let previous := (s.replacementRequests q.requestingNode).filter fun p => p.requestId = q.requestId
  if admitted = false then some (s.respond q none)
  else
    match previous with
    | some p => some (s.respond q (some p))
    | none =>
      if ∀ i, booted i = 0 then some (s.respond q none)
      else if ∀ i, booted i ≠ 0 → s.stage i = .absent then some (s.plan q booted)
      else none

/-- The watcher reads the response to its request. -/
def readReplacement (i : ι) : Option (ReplacementPlan ι) → Fleet ι
  | some p =>
    { (s.setNode i
        { s.nodes i with replacementRequestId := none, replacementAttempt := none }).setTarget i
        (s.target i - p.slotsBooted) with
      received := p.number :: s.received }
  | none =>
    s.setNode i
      { s.nodes i with
        replacementRequestId := none, replacementAttempt := none, replacementRefused := true }

end Fleet

section System

variable [DecidableEq ι] [Fintype ι]

/-- One step. -/
def fleetStep (s : Fleet ι) : FleetEvent ι → Option (Fleet ι)
  | .trade e => (tradeStep s.trades e).map fun trades => { s with trades }
  | .start i compatibleWorkers =>
    match s.stage i with
    | .planned slots _ =>
      if 0 < startTarget slots compatibleWorkers then
        some (s.start i (startTarget slots compatibleWorkers))
      else none
    | _ => none
  | .mint i slots delivered =>
    if s.onJob i ∧ (s.nodes i).mintSlotsAllowed then
      let s' := if delivered then s.setCounters i ((s.counters i).addMinted slots) else s
      some { s' with granted := Function.update s.granted i (s.granted i + slots) }
    else none
  | .shed i slots =>
    if s.onJob i ∧ slots ≤ s.granted i then
      some
        { s.setCounters i ((s.counters i).applyShed slots) with
          granted := Function.update s.granted i (s.granted i - slots) }
    else none
  | .readd i v => if s.onJob i then some (s.setTarget i (v.readdTarget (s.target i))) else none
  | .reclaim i aliveWorkers queuedInputs cpuCount =>
    if s.onJob i then
      some (s.setTarget i (reclaimTarget (s.target i) aliveWorkers queuedInputs cpuCount))
    else none
  | .askReplacement i aliveWorkers =>
    if s.onJob i ∧ (aliveWorkers : ℤ) < s.target i ∧ (s.nodes i).replacementRefused = false ∧
        (s.nodes i).replacementAttempt = none then
      some (s.askReplacement i aliveWorkers)
    else none
  | .replacementFails i => some (s.setNode i { s.nodes i with replacementAttempt := none })
  | .bootReplacement j admitted booted =>
    (takeAt s.requests j).bind fun p =>
      ({ s with requests := p.2 } : Fleet ι).bootReplacement p.1 admitted booted
  | .readReplacement k =>
    match s.responses[k]? with
    | none => none
    | some a =>
      if s.onJob a.request.requestingNode ∧
          (s.nodes a.request.requestingNode).replacementAttempt = some a.request.attempt then
        some (s.readReplacement a.request.requestingNode a.plan)
      else none

/-- At the start of a job with a limit on its parallelism, the head has handed out slots
within the limit, and no node has started. -/
structure Fleet.Fresh (s : Fleet ι) : Prop where
  limited : s.maxParallelism < s.nInputs
  trades : s.trades.Fresh
  onJob : ∀ i, s.onJob i = false
  target : ∀ i, s.target i = 0
  assigned : ∑ i, (s.stage i).assigned ≤ s.maxParallelism
  unstarted : ∀ i, s.stage i = .absent ∨ ∃ slots, s.stage i = .planned slots none
  mintSlotsAllowed : ∀ i, (s.nodes i).mintSlotsAllowed = false
  granted : ∀ i, s.granted i = 0
  received : s.received = []
  responses : s.responses = []
  replacementRequests : ∀ i, s.replacementRequests i = none

/-- The system of a job's nodes. -/
def fleet (ι : Type*) [DecidableEq ι] [Fintype ι] : System (Fleet ι) (FleetEvent ι) where
  init := Fleet.Fresh
  step := fleetStep

end System

end Burla.Slots
