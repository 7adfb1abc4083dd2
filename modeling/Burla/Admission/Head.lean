/-
The admission of a job at the head: `start_job` (endpoints/client.py), `admit_job`,
`_get_or_load_job` and `get_job_start_response` (cluster_state.py), and the history that the
admission is written to (history.py).

The job's row and those of the nodes that it reserves are written in one group, and only then the
live state is changed.  All writes to the history go through one connection; a group that raises
is not rolled back by the code.  A request that finds no answer in the history waits before it
admits its job, and others may come in between; which nodes it selects and plans is a matter of
its label.
-/
import Burla.ClusterState.Nodes
import Burla.Jobs.Record
import Burla.Lib.Messages
import Burla.Lib.System
import Burla.Lib.Transactions

namespace Burla.Admission

open Burla.Assign (NodeStatus)
open Burla.ClusterState (NodeRow NodeUpdates updateNode admitNodes)
open Burla.Jobs (JobStatus)

variable {κ ι : Type*}

/-- A node of the answer to a start request. -/
structure StartNode (ι : Type*) where
  instanceName : ι
  targetParallelism : ℕ
  deriving DecidableEq

/-- `_start_response`. -/
structure StartResponse (ι : Type*) where
  readyNodes : List (StartNode ι)
  bootingNodes : List (StartNode ι)
  deriving DecidableEq

/-- `selected_instance_names`. -/
def StartResponse.selected (r : StartResponse ι) : List ι := r.readyNodes.map StartNode.instanceName

/-- A job's row, as far as its admission goes. -/
structure JobDoc (ι : Type*) where
  status : JobStatus
  startResponse : Option (StartResponse ι)
  deriving DecidableEq

/-- The rows of the history. -/
structure Rows (κ ι : Type*) where
  jobs : Dict κ (JobDoc ι)
  nodes : Dict ι (NodeRow κ)

/-- What is remembered of a run: who was answered what, and what it changed. -/
inductive Note (κ ι : Type*)
  /-- `admit_job` has admitted the job, and the planned nodes are booted; with `NODES` before and
  after. -/
  | admitted (j : κ) (response : StartResponse ι) (now : ℚ) (before after : Dict ι (NodeRow κ))
  /-- A request gets an answer that was there; with `NODES` before and after. -/
  | replayed (j : κ) (response : StartResponse ι) (before after : Dict ι (NodeRow κ))
  /-- `admit_job` has refused the job, or raised; with `NODES` and `JOBS` before and after. -/
  | refused (j : κ) (nodes nodes' : Dict ι (NodeRow κ)) (jobs jobs' : Dict κ (JobDoc ι))

structure Head (κ ι : Type*) where
  /-- `NODES`. -/
  nodes : Dict ι (NodeRow κ)
  /-- `JOBS`. -/
  jobs : Dict κ (JobDoc ι)
  history : Store (Rows κ ι)
  paused : Bool
  now : ℚ
  /-- The requests that have found no answer yet, by their jobs. -/
  pending : List κ
  notes : List (Note κ ι)

inductive HeadEvent (κ ι : Type*)
  | tick (sec : ℚ)
  /-- `update_node`; `outcome` is that of the write to the history, if there is one. -/
  | updateNode (name : ι) (u : NodeUpdates κ) (outcome : Option Store.Outcome)
  | removeNode (name : ι)
  /-- `update_job` and the others that write to a job. -/
  | updateJob (j : κ) (status : JobStatus) (outcome : Store.Outcome)
  /-- `get_job`, `job_view`: a job is looked up. -/
  | loadJob (j : κ)
  /-- `pause_job_admission_if_idle`. -/
  | pause
  | resume
  /-- A start request comes in. -/
  | request (j : κ)
  /-- A waiting request gives up before it gets to `admit_job`. -/
  | abandon (n : ℕ)
  /-- A waiting request calls `admit_job`. -/
  | admission (n : ℕ) (response : StartResponse ι) (outcome : Store.Outcome)
  /-- The head goes down and comes up again. -/
  | restart

namespace Head

/-- Before anything. -/
def new (now : ℚ) : Head κ ι where
  nodes := Dict.empty
  jobs := Dict.empty
  history := ⟨⟨Dict.empty, Dict.empty⟩, ⟨Dict.empty, Dict.empty⟩⟩
  paused := false
  now := now
  pending := []
  notes := []

variable [DecidableEq κ] [DecidableEq ι] (s : Head κ ι)

/-- `_get_or_load_job`, which may take the job's row from the history. -/
def loadJob (j : κ) : Head κ ι :=
  match s.jobs.get j, s.history.working.jobs.get j with
  | none, some stored => { s with jobs := s.jobs.set j stored }
  | _, _ => s

/-- `INSERT INTO jobs … ON CONFLICT DO UPDATE`. -/
def upsertJob (j : κ) (doc : JobDoc ι) (rows : Rows κ ι) : Rows κ ι :=
  { rows with jobs := rows.jobs.set j doc }

/-- `INSERT INTO nodes … ON CONFLICT DO UPDATE`. -/
def upsertNode (name : ι) (row : NodeRow κ) (rows : Rows κ ι) : Rows κ ι :=
  { rows with nodes := rows.nodes.set name row }

/-- The rows of the named nodes, as writes. -/
def nodeWrites (nodes : Dict ι (NodeRow κ)) (names : List ι) : List (Rows κ ι → Rows κ ι) :=
  names.filterMap fun name => (nodes.get name).map (upsertNode name)

/-- `update_node`; a raised write leaves an entry that was there changed, and no new one. -/
def updateNode (name : ι) (u : NodeUpdates κ) (outcome : Option Store.Outcome) : Head κ ι :=
  let nodes := ClusterState.updateNode s.nodes name u
  match outcome with
  | none => { s with nodes := nodes }
  | some outcome =>
    { s with
      nodes := if outcome = .committed ∨ (s.nodes.get name).isSome = true then nodes else s.nodes
      history := s.history.write (nodeWrites nodes [name]) outcome }

/-- `update_job`: the row is changed, the nodes of an ended job are released, and both are
written. -/
def updateJob (j : κ) (status : JobStatus) (outcome : Store.Outcome) : Head κ ι :=
  match (s.loadJob j).jobs.get j with
  | none => s.loadJob j
  | some doc =>
    let nodes := if status.terminal = true then s.nodes.mapValues (NodeRow.release · j) else s.nodes
    { s.loadJob j with
      jobs := (s.loadJob j).jobs.set j { doc with status }
      nodes := nodes
      history := s.history.write
        (upsertJob j { doc with status } :: nodeWrites nodes
          (s.nodes.keys.filter fun name =>
            decide ((s.nodes.get name).bind NodeRow.reservedForJob = some j))) outcome }

/-- The rows that a head comes up with (`active_nodes`). -/
def reloaded (row : NodeRow κ) : Bool := row.status.isSome && row.status ≠ some .deleted

/-- `load_from_history`, in a new process. -/
def restart : Head κ ι :=
  { s with
    nodes := (s.history.committed.nodes.filterValues reloaded).mapValues fun row =>
      { row with lastPushAt := none }
    jobs := s.history.committed.jobs.filterValues fun doc => doc.status = .running
    history := s.history.reopen
    paused := false
    pending := [] }

/-- The first part of `start_job`: an answer that is there is given again. -/
def request (j : κ) : Head κ ι :=
  if s.paused = true then s
  else
    match ((s.loadJob j).jobs.get j).bind JobDoc.startResponse with
    | some response =>
      { s.loadJob j with
        notes := s.notes ++ [.replayed j response s.nodes (s.loadJob j).nodes] }
    | none => { s.loadJob j with pending := s.pending ++ [j] }

/-- The job is not admitted. -/
def refuse (j : κ) (t : Head κ ι) : Head κ ι :=
  { t with notes := s.notes ++ [.refused j s.nodes t.nodes s.jobs t.jobs] }

/-- `admit_job`, and what `start_job` does with its answer. -/
def admitJob (j : κ) (response : StartResponse ι) (outcome : Store.Outcome) : Head κ ι :=
  let t := s.loadJob j
  match t.jobs.get j with
  | some existing =>
    match existing.startResponse with
    | none => s.refuse j t
    | some before =>
      { s.refuse j t with
        notes := (s.refuse j t).notes ++ [.replayed j before s.nodes t.nodes] }
  | none =>
    if s.paused = true then s.refuse j t
    else
      match admitNodes s.nodes j response.selected s.now with
      | none => s.refuse j t
      | some nodes =>
        let doc : JobDoc ι := ⟨.running, some response⟩
        let t := { t with
          history := s.history.write
            (upsertJob j doc :: nodeWrites nodes response.selected) outcome }
        if outcome = .committed then
          { t with
            nodes := nodes
            jobs := t.jobs.set j doc
            notes := s.notes ++ [.admitted j response s.now s.nodes nodes] }
        else s.refuse j t

/-- One step. -/
def step : HeadEvent κ ι → Option (Head κ ι)
  | .tick sec => if 0 ≤ sec then some { s with now := s.now + sec } else none
  | .updateNode name u outcome => some (s.updateNode name u outcome)
  | .removeNode name => some { s with nodes := s.nodes.pop name }
  | .updateJob j status outcome => some (s.updateJob j status outcome)
  | .loadJob j => some (s.loadJob j)
  | .pause =>
    if s.jobs.items.any (fun e => e.2.status = .running) = true then some s
    else some { s with paused := true }
  | .resume => some { s with paused := false }
  | .request j => some (s.request j)
  | .abandon n =>
    match takeAt s.pending n with
    | none => none
    | some (_, rest) => some { s with pending := rest }
  | .admission n response outcome =>
    match takeAt s.pending n with
    | none => none
    | some (j, rest) => some { s.admitJob j response outcome with pending := rest }
  | .restart => some s.restart

end Head

/-- A head, from its first start on. -/
def sys [DecidableEq κ] [DecidableEq ι] : System (Head κ ι) (HeadEvent κ ι) where
  init s := ∃ now, s = Head.new now
  step := Head.step

end Burla.Admission
