/-
A job as the head records it: `update_job` and `job_view` (cluster_state.py), and what they are
called with.
-/
import Mathlib.Algebra.BigOperators.Group.Finset.Basic
import Mathlib.Data.Fintype.BigOperators
import Mathlib.Data.Rat.Defs
import Mathlib.Tactic.Common

namespace Burla.Jobs

variable {κ ι : Type*}

inductive JobStatus
  | running
  | completed
  | failed
  | canceled
  deriving DecidableEq, Repr

/-- `TERMINAL_JOB_STATUSES`. -/
def JobStatus.terminal : JobStatus → Bool
  | .running => false
  | .completed | .failed | .canceled => true

/-- What a job is started with; the client, the head and the nodes all know it. -/
structure JobSpec (κ : Type*) where
  nInputs : ℕ
  isBackgroundJob : Bool
  parentJobId : Option κ
  deriving DecidableEq, Repr

/-- What changes of a job's record. -/
structure Job where
  status : JobStatus
  endedAt : Option ℚ
  failReason : List String
  allInputsUploaded : Bool
  clientHasAllResults : Bool
  dashboardCanceled : Bool
  clusterShutdown : Bool
  clusterRestarted : Bool
  deriving DecidableEq, Repr

/-- The updates that a writer sends, with `append_fail_reason`. -/
structure Updates where
  status : Option JobStatus
  endedAt : Option ℚ
  appendFailReason : Option String
  allInputsUploaded : Bool
  clientHasAllResults : Bool
  dashboardCanceled : Bool
  clusterShutdown : Bool
  clusterRestarted : Bool
  deriving DecidableEq, Repr

/-- A job that has just been admitted. -/
def Job.new : Job where
  status := .running
  endedAt := none
  failReason := []
  allInputsUploaded := false
  clientHasAllResults := false
  dashboardCanceled := false
  clusterShutdown := false
  clusterRestarted := false

/-- No update. -/
def Updates.none : Updates where
  status := Option.none
  endedAt := Option.none
  appendFailReason := Option.none
  allInputsUploaded := false
  clientHasAllResults := false
  dashboardCanceled := false
  clusterShutdown := false
  clusterRestarted := false

/-- A status and nothing else. -/
def Updates.ofStatus (status : JobStatus) : Updates := { Updates.none with status := some status }

/-- A failure and its reason. -/
def Updates.failure (reason : String) : Updates :=
  { Updates.ofStatus .failed with appendFailReason := some reason }

namespace Job

variable (job : Job) (u : Updates) (now : ℚ)

/-- The status after an update: COMPLETED only applies while the job is RUNNING. -/
def newStatus : JobStatus :=
  match u.status with
  | none => job.status
  | some .completed => if job.status = .running then .completed else job.status
  | some status => status

/-- The update is the one that ends the job. -/
def EntersTerminal : Prop := (job.newStatus u).terminal = true ∧ job.status.terminal = false

instance : Decidable (job.EntersTerminal u) := inferInstanceAs (Decidable (_ ∧ _))

/-- `job.update(updates)`, the time at which the job ended, and the reason for it. -/
def update : Job where
  status := job.newStatus u
  endedAt :=
    let endedAt := u.endedAt <|> job.endedAt
    if job.EntersTerminal u ∧ endedAt = none then some now else endedAt
  failReason :=
    match u.appendFailReason with
    | none => job.failReason
    | some reason =>
      if reason ∈ job.failReason then job.failReason else job.failReason ++ [reason]
  allInputsUploaded := job.allInputsUploaded || u.allInputsUploaded
  clientHasAllResults := job.clientHasAllResults || u.clientHasAllResults
  dashboardCanceled := job.dashboardCanceled || u.dashboardCanceled
  clusterShutdown := job.clusterShutdown || u.clusterShutdown
  clusterRestarted := job.clusterRestarted || u.clusterRestarted

variable {job u}

/-- COMPLETED is only ever recorded for a RUNNING job that a writer has found complete. -/
lemma newStatus_eq_completed (h : job.newStatus u = .completed) :
    job.status = .completed ∨ job.status = .running ∧ u.status = some .completed := by
  unfold newStatus at h
  split at h
  · exact .inl h
  · rename_i hu
    split_ifs at h with hrunning
    · exact .inr ⟨hrunning, hu⟩
    · exact .inl h
  · rename_i status hne hu
    exact (hne h).elim

/-- The status of an ended job changes only to FAILED or CANCELED. -/
lemma newStatus_of_terminal (h : job.status.terminal = true) :
    job.newStatus u = job.status ∨
      u.status = some (job.newStatus u) ∧ u.status ≠ some .completed := by
  unfold newStatus
  split
  · exact .inl rfl
  · rw [if_neg (by rintro hr; simp [hr, JobStatus.terminal] at h)]
    exact .inl rfl
  · rename_i status hne hu
    exact .inr ⟨hu, fun hc => hne (Option.some.inj (hu.symm.trans hc))⟩

/-- The time at which an ended job has ended is only changed by a writer that brings its own. -/
lemma endedAt_update_of_terminal (h : job.status.terminal = true) (hu : u.endedAt = none) :
    (job.update u now).endedAt = job.endedAt := by
  have henters : ¬job.EntersTerminal u := fun he => by simp [he.2] at h
  simp [update, hu, henters]

/-- The time at which a job ends: the one that it has, or the clock's. -/
lemma endedAt_update_of_enters (h : job.EntersTerminal u) (hu : u.endedAt = none) :
    (job.update u now).endedAt = some (job.endedAt.getD now) := by
  cases htime : job.endedAt with
  | none => simp [update, hu, h, htime]
  | some time => simp [update, hu, htime]

end Job

/-! ### The view that nodes get -/

/-- The signals that come back with each push. -/
structure JobView where
  status : JobStatus
  allInputsUploaded : Bool
  clientHasAllResults : Bool
  dashboardCanceled : Bool
  clusterShutdown : Bool
  clusterRestarted : Bool
  totalNumResults : ℕ
  deriving DecidableEq, Repr

/-- `job_view`, of what each node has last reported. -/
def jobView [Fintype ι] (job : Job) (currentNumResults : ι → ℕ) : JobView where
  status := job.status
  allInputsUploaded := job.allInputsUploaded
  clientHasAllResults := job.clientHasAllResults
  dashboardCanceled := job.dashboardCanceled
  clusterShutdown := job.clusterShutdown
  clusterRestarted := job.clusterRestarted
  totalNumResults := ∑ i, currentNumResults i

/-- `_lifecycle_canceled`. -/
def JobView.lifecycleCanceled (view : JobView) : Bool :=
  view.clusterShutdown || view.clusterRestarted || view.dashboardCanceled ||
    view.status = .canceled

/-- What the reaper makes of a job whose nodes have gone silent. -/
def reaperVerdict (nInputs : ℕ) (isBackgroundJob : Bool) (job : Job) (nResults : ℕ) : JobStatus :=
  if job.clientHasAllResults ∨
      isBackgroundJob ∧ job.allInputsUploaded ∧ 0 < nInputs ∧ nInputs ≤ nResults then .completed
  else .failed

end Burla.Jobs
