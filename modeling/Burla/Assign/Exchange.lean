/-
What a node tells the head about itself, and what the head makes of it: `push_state`
(head_client.py), `push_node_state` (endpoints/nodes.py) and `update_node` (cluster_state.py).

A push carries the node's status as it is when the push is sent, and the fields that its
caller names.  The loop's pushes name none; the others are sent once, by the transition that
they report.
-/
import Burla.Lib.Register
import Mathlib.Tactic.Common

namespace Burla.Assign

variable {κ : Type*}

/-- The statuses of a node. -/
inductive NodeStatus
  | booting
  | ready
  | running
  | failed
  | deleted
  deriving DecidableEq

namespace NodeStatus

/-- The statuses that a running node cannot leave. -/
def terminal : NodeStatus → Bool
  | .failed | .deleted => true
  | .booting | .ready | .running => false

/-- The status after `update_node`: a terminal one is not taken back, and a failed node stays
visible as failed. -/
def update (current new : NodeStatus) : NodeStatus :=
  if current.terminal = true ∧ new.terminal = false then current
  else if new = .deleted ∧ current = .failed then current
  else new

variable {current new : NodeStatus}

lemma terminal_update (h : current.terminal = true) : (current.update new).terminal = true := by
  unfold update
  split_ifs with h₁ h₂
  · exact h
  · exact h
  · cases hnew : new.terminal with
    | true => rfl
    | false => exact absurd ⟨h, hnew⟩ h₁

lemma update_eq (current new : NodeStatus) :
    current.update new = new ∨ (current.update new).terminal = true := by
  unfold update
  split_ifs with h₁ h₂
  · exact .inr h₁.1
  · rw [h₂.2]
    exact .inr rfl
  · exact .inl rfl

lemma terminal_update_of_terminal (h : new.terminal = true) :
    (current.update new).terminal = true := by
  rcases update_eq current new with hnew | hterminal
  · rwa [hnew]
  · exact hterminal

end NodeStatus

/-! ### Pushes -/

/-- The pushes of a node, by the transition that each reports. -/
inductive Push (κ : Type*)
  /-- `_state_push_loop`. -/
  | loop
  /-- `on_job_start`, for the request `i`. -/
  | start (i : ℕ) (job : κ)
  /-- `execute`, when no worker fits the request `i`. -/
  | refused (i : ℕ)
  /-- `handle_errors`, when the client has gone before the job began. -/
  | aborted
  /-- `reinit_node`; `last` when nobody tries again should the push fail. -/
  | ended (last : Bool)
  /-- `watch_reservation`. -/
  | reservation
  /-- The first push of `reboot_containers`. -/
  | boot
  /-- The last one. -/
  | booted
  /-- A reboot that failed. -/
  | failed
  /-- A node that shuts down. -/
  | deleted
  deriving DecidableEq

namespace Push

/-- The field `current_job` of a push, where it has one. -/
def currentJob : Push κ → Option (Option κ)
  | start _ job => some (some job)
  | refused _ | aborted | ended _ | boot => some none
  | loop | reservation | booted | failed | deleted => none

/-- The field `reserved_for_job`. -/
def reservedForJob : Push κ → Option (Option κ)
  | start _ _ | aborted | ended _ | reservation => some none
  | loop | refused _ | boot | booted | failed | deleted => none

/-- The field `status`, which is read when the push is sent. -/
def status (reportedStatus : NodeStatus) : Push κ → Option NodeStatus
  | reservation => none
  | loop | start _ _ | refused _ | aborted | ended _ | boot | booted | failed | deleted =>
    some reportedStatus

/-- A push that names a job clears the reservation. -/
lemma reservedForJob_of_currentJob {p : Push κ} {job : κ} (h : p.currentJob = some (some job)) :
    p.reservedForJob = some none := by
  cases p with
  | start _ _ => rfl
  | loop | refused _ | aborted | ended _ | reservation | boot | booted | failed | deleted =>
    simp [currentJob] at h

/-- No push makes a reservation. -/
lemma getD_reservedForJob (p : Push κ) : p.reservedForJob.getD none = none := by
  cases p <;> rfl

end Push

/-! ### The head's record of the node -/

/-- The head's entry for the node. -/
structure NodeRecord (κ : Type*) where
  status : NodeStatus
  currentJob : Option κ
  reservedForJob : Option κ
  jobScopeId : Option κ

/-- The head's answer to a push. -/
structure View (κ : Type*) where
  status : NodeStatus
  reservedForJob : Option κ
  deriving DecidableEq

namespace NodeRecord

/-- `record_node_push`: the fields that a push carries are merged. -/
def recordNodePush (n : NodeRecord κ) (status : Option NodeStatus) (p : Push κ) : NodeRecord κ :=
  { n with
    status := (status.map n.status.update).getD n.status
    currentJob := p.currentJob.getD n.currentJob
    reservedForJob := p.reservedForJob.getD n.reservedForJob }

/-- `push_node_state`; `jobRunning` says whether the job that the node was booted for is running
at the head. -/
def pushNodeState (n : NodeRecord κ) (status : Option NodeStatus) (p : Push κ)
    (jobRunning : Bool) : NodeRecord κ :=
  let merged := n.recordNodePush status p
  let assignmentFinished := merged.currentJob.isNone && merged.reservedForJob.isNone
  if merged.jobScopeId.isSome ∧ merged.status.terminal = false ∧
      (jobRunning = false ∨ assignmentFinished = true) then
    { merged with status := merged.status.update .deleted }
  else merged

def view (n : NodeRecord κ) : View κ := ⟨n.status, n.reservedForJob⟩

variable {n : NodeRecord κ} {status : Option NodeStatus} {st : NodeStatus} {p : Push κ}
  {jobRunning : Bool}

lemma terminal_recordNodePush (h : n.status.terminal = true) :
    (n.recordNodePush status p).status.terminal = true := by
  cases status with
  | none => exact h
  | some st => exact NodeStatus.terminal_update h

/-- A terminal status stays terminal. -/
lemma terminal_pushNodeState (h : n.status.terminal = true) :
    (n.pushNodeState status p jobRunning).status.terminal = true := by
  simp only [pushNodeState]
  split_ifs
  · exact NodeStatus.terminal_update (terminal_recordNodePush h)
  · exact terminal_recordNodePush h

/-- The status that a push carries gets through, unless the head holds a terminal one. -/
lemma status_pushNodeState (h : status = some st) :
    (n.pushNodeState status p jobRunning).status = st ∨
      (n.pushNodeState status p jobRunning).status.terminal = true := by
  subst h
  simp only [pushNodeState]
  split_ifs
  · exact .inr (NodeStatus.terminal_update_of_terminal rfl)
  · exact NodeStatus.update_eq n.status st

@[simp] lemma currentJob_pushNodeState :
    (n.pushNodeState status p jobRunning).currentJob = p.currentJob.getD n.currentJob := by
  simp only [pushNodeState]
  split_ifs <;> rfl

@[simp] lemma reservedForJob_pushNodeState :
    (n.pushNodeState status p jobRunning).reservedForJob =
      p.reservedForJob.getD n.reservedForJob := by
  simp only [pushNodeState]
  split_ifs <;> rfl

end NodeRecord

end Burla.Assign
