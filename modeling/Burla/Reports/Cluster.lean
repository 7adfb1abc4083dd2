/-
The results of a job as the head counts them: what nodes push of their progress
(`update_job_progress`, cluster_state.py), the totals that `job_view` gives back, and what is left
of them when a job's row is taken from the history (`load_from_history`, `_get_or_load_job`).

A node counts the results that it has produced since it came to the job, and each push carries
that count.  A push may be lost, or be processed late.  A node leaves a job when its part is done,
or when it is gone, and the client gives a node to a job once.  The counts are in memory only: the
history keeps their total (`n_results`), which a reload takes out again.
-/
import Burla.ClusterState.Jobs
import Burla.Jobs.Completion
import Burla.Lib.Messages
import Burla.Lib.System

namespace Burla.Reports

open Burla.ClusterState (JobRow Progress updateJobProgress)
open Burla.Jobs (Job JobSpec Updates producedBy)

variable {κ ι : Type*}

/-- A job's row in the history. -/
structure Stored (κ : Type*) where
  spec : JobSpec κ
  job : Job
  startedAt : Option ℚ
  nResults : ℕ

/-- A row that comes from the history has no counts. -/
def Stored.reload (stored : Stored κ) : JobRow κ ι where
  spec := stored.spec
  job := stored.job
  startedAt := stored.startedAt
  assignedNodes := Dict.empty

/-- `_upsert_job`; the stored total never gets smaller. -/
def upsertJob [DecidableEq κ] (history : Dict κ (Stored κ)) (j : κ) (row : JobRow κ ι) :
    Dict κ (Stored κ) :=
  history.set j
    { spec := row.spec
      job := row.job
      startedAt := row.startedAt
      nResults := max (((history.get j).map Stored.nResults).getD 0) row.nResults }

/-- A node at work on a job. -/
structure Watcher (κ : Type*) where
  job : κ
  /-- `num_results_received`. -/
  numResultsReceived : ℕ
  /-- It has completed a push after its last result, to the head as it is now. -/
  told : Bool
  deriving DecidableEq

/-- The progress in a push on its way. -/
structure Push (κ ι : Type*) where
  job : κ
  node : ι
  currentNumResults : ℕ
  deriving DecidableEq

structure Cluster (κ ι : Type*) where
  /-- `JOBS`. -/
  jobs : Dict κ (JobRow κ ι)
  history : Dict κ (Stored κ)
  watchers : ι → Option (Watcher κ)
  pushes : List (Push κ ι)
  /-- The nodes that the client has given to jobs. -/
  assignments : List (κ × ι)
  /-- The results that have been produced, with their nodes. -/
  results : κ → List (ι × ℕ)

inductive Event (κ ι : Type*)
  /-- `admit_job`. -/
  | admission (j : κ) (spec : JobSpec κ) (startedAt : Option ℚ)
  /-- The client gives a node to a job. -/
  | join (i : ι) (j : κ)
  /-- A node produces the result of an input. -/
  | produce (i : ι) (k : ℕ)
  /-- The body of a push is put together. -/
  | push (i : ι)
  | lose (n : ℕ)
  /-- The head processes a push; the counts may be flushed, and the answer may be lost. -/
  | deliver (n : ℕ) (now : ℚ) (flush answered : Bool)
  /-- A node is done with its part of the job, or is gone. -/
  | leave (i : ι)
  | updateJob (j : κ) (u : Updates) (now : ℚ)
  /-- A job is looked up. -/
  | loadJob (j : κ)
  /-- A new head takes its jobs from the history. -/
  | restart

/-- What `job_view` says of a job's results. -/
structure CountView where
  totalNumResults : ℕ
  nInputs : ℕ
  deriving DecidableEq

namespace Cluster

/-- Before anything. -/
def new : Cluster κ ι where
  jobs := Dict.empty
  history := Dict.empty
  watchers := fun _ => none
  pushes := []
  assignments := []
  results := fun _ => []

variable [DecidableEq κ] [DecidableEq ι] (s : Cluster κ ι)

/-- A job's row, taken from the history if need be. -/
def row (j : κ) : Option (JobRow κ ι) := s.jobs.get j <|> (s.history.get j).map Stored.reload

/-- `_get_or_load_job`. -/
def loadJob (j : κ) : Cluster κ ι :=
  match s.row j with
  | none => s
  | some row => { s with jobs := s.jobs.set j row }

/-- `job_view`, as far as it counts. -/
def jobView (j : κ) : Option CountView :=
  (s.row j).map fun row => ⟨row.nResults, row.spec.nInputs⟩

/-- The count that the head has of a node. -/
def reported (j : κ) (i : ι) : ℕ :=
  (((s.row j).bind fun row => row.assignedNodes.get i).map Progress.currentNumResults).getD 0

/-- The node has been told that its count has arrived; if there were no results since, it has
nothing more to tell. -/
def answer (p : Push κ ι) (i : ι) : Option (Watcher κ) :=
  (s.watchers i).map fun w =>
    if i = p.node ∧ w.job = p.job ∧ w.numResultsReceived = p.currentNumResults then
      { w with told := true }
    else w

/-- `push_node_state`, of a job's progress. -/
def process (p : Push κ ι) (now : ℚ) (flush answered : Bool) : Cluster κ ι :=
  let jobs := updateJobProgress (s.loadJob p.job).jobs p.job p.node (some p.currentNumResults) now
  { s with
    jobs := jobs
    history :=
      match jobs.get p.job with
      | some row => if flush = true then upsertJob s.history p.job row else s.history
      | none => s.history
    watchers := if answered = true then s.answer p else s.watchers }

/-- `update_job`. -/
def updateJob (j : κ) (u : Updates) (now : ℚ) : Cluster κ ι :=
  match s.row j with
  | none => s
  | some row =>
    let row := { row with job := row.job.update u now }
    { s with jobs := s.jobs.set j row, history := upsertJob s.history j row }

/-- `load_from_history`, in a new process; what nodes have told the old one counts no more. -/
def restart : Cluster κ ι :=
  { s with
    jobs := (s.history.filterValues fun stored => stored.job.status = .running).map Stored.reload
    watchers := fun i => (s.watchers i).map fun w => { w with told := false } }

/-- One step. -/
def step : Event κ ι → Option (Cluster κ ι)
  | .admission j spec startedAt =>
    if (s.row j).isSome = true then none
    else
      let row : JobRow κ ι := ⟨spec, Job.new, startedAt, Dict.empty⟩
      some { s with jobs := s.jobs.set j row, history := upsertJob s.history j row }
  | .join i j =>
    if s.watchers i = none ∧ (j, i) ∉ s.assignments ∧ (s.history.get j).isSome = true then
      some { s with
        watchers := Function.update s.watchers i (some ⟨j, 0, false⟩)
        assignments := s.assignments ++ [(j, i)] }
    else none
  | .produce i k =>
    match s.watchers i with
    | none => none
    | some w =>
      some { s with
        watchers := Function.update s.watchers i
          (some { w with numResultsReceived := w.numResultsReceived + 1, told := false })
        results := Function.update s.results w.job (s.results w.job ++ [(i, k)]) }
  | .push i =>
    match s.watchers i with
    | none => none
    | some w => some { s with pushes := s.pushes ++ [⟨w.job, i, w.numResultsReceived⟩] }
  | .lose n =>
    match takeAt s.pushes n with
    | none => none
    | some (_, rest) => some { s with pushes := rest }
  | .deliver n now flush answered =>
    match takeAt s.pushes n with
    | none => none
    | some (p, rest) => some { s.process p now flush answered with pushes := rest }
  | .leave i =>
    if (s.watchers i).isSome = true then
      some { s with watchers := Function.update s.watchers i none }
    else none
  | .updateJob j u now => some (s.updateJob j u now)
  | .loadJob j => some (s.loadJob j)
  | .restart => some s.restart

end Cluster

/-- A head, its nodes and their pushes. -/
def sys [DecidableEq κ] [DecidableEq ι] : System (Cluster κ ι) (Event κ ι) where
  init s := s = Cluster.new
  step := Cluster.step

end Burla.Reports
