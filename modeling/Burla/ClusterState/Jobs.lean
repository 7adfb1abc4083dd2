/-
The job table of the head, `JOBS` (cluster_state.py): what the nodes report of a job
(`update_job_progress`), and `update_job` with the nodes that it gives back and the children that
it leaves to be canceled.

`update_job` takes the lock for each job of a cascade anew, so the children that a job drags along
are handed to the caller, who ends them one at a time.
-/
import Burla.ClusterState.Nodes
import Burla.Jobs.Record
import Mathlib.Algebra.Order.Ring.Nat

namespace Burla.ClusterState

open Burla.Assign (NodeStatus)
open Burla.Jobs (Job JobSpec JobStatus Updates)

variable {κ ι : Type*}

/-- What a node has reported of a job (`assigned_nodes`). -/
structure Progress where
  currentNumResults : ℕ
  lastPushAt : Option ℚ
  deriving DecidableEq

/-- A job's row. -/
structure JobRow (κ ι : Type*) where
  spec : JobSpec κ
  job : Job
  startedAt : Option ℚ
  assignedNodes : Dict ι Progress

namespace JobRow

variable (row : JobRow κ ι)

/-- When a node last reported anything of the job. -/
def lastPush : ℚ := ((row.assignedNodes.items.map fun e => e.2.lastPushAt.getD 0).max?).getD 0

/-- The results of all the nodes that ever reported. -/
def nResults : ℕ := (row.assignedNodes.items.map fun e => e.2.currentNumResults).sum

/-- A child that goes when its parent does (`_cancelable_child_ids`). -/
def CancelableChild (j : κ) : Prop :=
  row.spec.parentJobId = some j ∧ row.job.status = .running ∧
    ¬(row.spec.isBackgroundJob = true ∧ row.job.allInputsUploaded = true)

instance [DecidableEq κ] (j : κ) : Decidable (row.CancelableChild j) :=
  inferInstanceAs (Decidable (_ ∧ _))

end JobRow

/-- What a cascade writes to a child. -/
def parentTerminated : Updates := { Updates.ofStatus .canceled with dashboardCanceled := true }

/-- `update_job_progress`. -/
def updateJobProgress [DecidableEq κ] [DecidableEq ι] (jobs : Dict κ (JobRow κ ι)) (j : κ)
    (name : ι) (currentNumResults : Option ℕ) (now : ℚ) : Dict κ (JobRow κ ι) :=
  match jobs.get j with
  | none => jobs
  | some row =>
    let before := ((row.assignedNodes.get name).map Progress.currentNumResults).getD 0
    jobs.set j { row with
      assignedNodes := row.assignedNodes.set name
        { currentNumResults := currentNumResults.getD before
          lastPushAt := some now } }

/-- The two tables that `update_job` writes to. -/
structure Tables (κ ι : Type*) where
  nodes : Dict ι (NodeRow κ)
  jobs : Dict κ (JobRow κ ι)

/-- `update_job`, up to the release of the lock, and the children that it is to cancel then. -/
def Tables.updateJob [DecidableEq κ] (s : Tables κ ι) (j : κ) (u : Updates) (now : ℚ) :
    Tables κ ι × List κ :=
  match s.jobs.get j with
  | none => (s, [])
  | some row =>
    let job := row.job.update u now
    let jobs := s.jobs.set j { row with job }
    let nodes :=
      if job.status.terminal = true then s.nodes.mapValues (NodeRow.release · j) else s.nodes
    if row.job.EntersTerminal u ∧ (job.status = .failed ∨ job.status = .canceled) then
      (⟨nodes, jobs⟩, (jobs.items.filter fun e => e.2.CancelableChild j).map Prod.fst)
    else (⟨nodes, jobs⟩, [])

section Lemmas

variable [DecidableEq κ] {s : Tables κ ι} {j k : κ} {u : Updates} {now : ℚ}

/-- `update_job` is about one job. -/
lemma get_updateJob_of_ne (h : k ≠ j) :
    (s.updateJob j u now).1.jobs.get k = s.jobs.get k := by
  unfold Tables.updateJob
  split
  · rfl
  · simp only
    split_ifs <;> exact Dict.get_set_of_ne h

lemma get_updateJob_self {row : JobRow κ ι} (h : s.jobs.get j = some row) :
    (s.updateJob j u now).1.jobs.get j = some { row with job := row.job.update u now } := by
  unfold Tables.updateJob
  rw [h]
  simp only
  split_ifs <;> exact Dict.get_set_self

/-- The nodes' rows lose a reservation at most. -/
lemma nodes_updateJob :
    (s.updateJob j u now).1.nodes = s.nodes ∨
      (s.updateJob j u now).1.nodes = s.nodes.mapValues (NodeRow.release · j) := by
  unfold Tables.updateJob
  split
  · exact .inl rfl
  · simp only
    split_ifs
    · exact .inr rfl
    · exact .inl rfl
    · exact .inr rfl
    · exact .inl rfl

end Lemmas

end Burla.ClusterState
