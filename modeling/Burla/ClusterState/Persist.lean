/-
`update_node` and `update_job` against a history that cannot be written (cluster_state.py,
`upsert_node` and `upsert_job_and_nodes` of history.py).

Both change the rows of `NODES` and `JOBS` in their place before the history is written, and both
see by the row whether the update changes anything.  When the write raises, what has been changed
stays changed; the same update is then no change at all, and all that was to follow the first one
is left out: `admit_job`, which writes copies and puts them into the tables afterwards, has no
such gap.  The main result is `Live.writes_atomic_iff`; `Live.retry_after_failure` says what
gets lost, and `Live.cancel_lost` is a job whose child runs on.
-/
import Burla.ClusterState.Jobs

namespace Burla.ClusterState

open Burla.Assign (NodeStatus)
open Burla.Jobs (Job JobSpec JobStatus Updates)

variable {κ ι V : Type*}

/-! ### What an update leaves as it is -/

section Merge

variable {α : Type*}

lemma orElse_eq_right_iff {u x : Option α} : (u <|> x) = x ↔ ∀ a, u = some a → x = some a := by
  cases u with
  | none => simp
  | some a => simp [eq_comm]

lemma getD_eq_right_iff {u : Option α} {x : α} : u.getD x = x ↔ ∀ a, u = some a → x = a := by
  cases u with
  | none => simp
  | some a => simp [eq_comm]

lemma or_eq_left_iff {x u : Bool} : (x || u) = x ↔ (u = true → x = true) := by
  cases x <;> cases u <;> simp

end Merge

/-! ### Rows with all their fields -/

/-- A node's row, with the fields that the head only passes on. -/
structure LiveNode (κ V : Type*) where
  row : NodeRow κ
  others : Dict String V

/-- What `update_node` is called with. -/
structure LiveNodeUpdates (κ V : Type*) where
  row : NodeUpdates κ
  others : Dict String V

/-- A job's row, with the fields that the head only passes on. -/
structure LiveJob (κ ι V : Type*) where
  row : JobRow κ ι
  others : Dict String V

/-- What `update_job` is called with. -/
structure LiveJobUpdates (V : Type*) where
  job : Updates
  others : Dict String V

/-- The fields of `durable_fields` that the head only passes on. -/
def durableFields : List String := ["host", "public_ip", "private_ip", "zone"]

/-- A field of `durable_fields` is written. -/
def LiveNodeUpdates.Durable (u : LiveNodeUpdates κ V) : Prop :=
  u.row.currentJob.isSome = true ∨ u.row.reservedForJob.isSome = true ∨
    u.row.jobScopeId.isSome = true ∨ ∃ field ∈ durableFields, field ∈ u.others.keys

instance (u : LiveNodeUpdates κ V) : Decidable u.Durable := inferInstanceAs (Decidable (_ ∨ _))

namespace NodeRow

variable (row : NodeRow κ)

/-- The statuses that `update_node` does not write. -/
def Refuses (new : NodeStatus) : Prop :=
  (row.status = some .deleted ∨ row.status = some .failed) ∧ new.terminal = false ∨
    row.status = some .failed ∧ new = .deleted

instance (new : NodeStatus) : Decidable (row.Refuses new) := inferInstanceAs (Decidable (_ ∨ _))

/-- `status_changed`. -/
def StatusChanged (u : NodeUpdates κ) : Prop :=
  ∃ new ∈ u.status, ¬row.Refuses new ∧ row.status ≠ some new

instance (u : NodeUpdates κ) : Decidable (row.StatusChanged u) :=
  inferInstanceAs (Decidable (∃ new ∈ u.status, _))

/-- The row has all that an update brings. -/
structure Has (u : NodeUpdates κ) : Prop where
  status : ¬row.StatusChanged u
  startedBootingAt : ∀ t, u.startedBootingAt = some t → row.startedBootingAt = some t
  lastPushAt : ∀ t, u.lastPushAt = some t → row.lastPushAt = some t
  currentJob : ∀ job, u.currentJob = some job → row.currentJob = job
  reservedForJob : ∀ job, u.reservedForJob = some job → row.reservedForJob = job
  jobScopeId : ∀ job, u.jobScopeId = some job → row.jobScopeId = job
  gcpRegion : ∀ region, u.gcpRegion = some region → row.gcpRegion = some region
  endedAt : ∀ t, u.endedAt = some t → row.endedAt = some t
  terminalReason : ∀ reason, u.terminalReason = some reason → row.terminalReason = some reason

variable {row}

/-- The status changes exactly when one is written that is not refused, and is another one. -/
lemma newStatus_eq_iff {u : NodeUpdates κ} :
    row.newStatus u = row.status ↔ ¬row.StatusChanged u := by
  unfold newStatus StatusChanged Refuses
  cases hnew : u.status with
  | none => simp
  | some new =>
    cases hcurrent : row.status with
    | none => simp
    | some current => cases current <;> cases new <;> simp [NodeStatus.update, NodeStatus.terminal]

/-- A row that an update leaves as it is has all that the update brings. -/
lemma update_eq_self_iff {u : NodeUpdates κ} : row.update u = row ↔ row.Has u := by
  constructor
  · intro h
    exact ⟨newStatus_eq_iff.1 (congrArg NodeRow.status h),
      orElse_eq_right_iff.1 (congrArg NodeRow.startedBootingAt h),
      orElse_eq_right_iff.1 (congrArg NodeRow.lastPushAt h),
      getD_eq_right_iff.1 (congrArg NodeRow.currentJob h),
      getD_eq_right_iff.1 (congrArg NodeRow.reservedForJob h),
      getD_eq_right_iff.1 (congrArg NodeRow.jobScopeId h),
      orElse_eq_right_iff.1 (congrArg NodeRow.gcpRegion h),
      orElse_eq_right_iff.1 (congrArg NodeRow.endedAt h),
      orElse_eq_right_iff.1 (congrArg NodeRow.terminalReason h)⟩
  · intro h
    have hstatus := newStatus_eq_iff.2 h.status
    cases row
    simp only [update, mk.injEq]
    exact ⟨hstatus, orElse_eq_right_iff.2 h.startedBootingAt, orElse_eq_right_iff.2 h.lastPushAt,
      getD_eq_right_iff.2 h.currentJob, getD_eq_right_iff.2 h.reservedForJob,
      getD_eq_right_iff.2 h.jobScopeId, orElse_eq_right_iff.2 h.gcpRegion,
      orElse_eq_right_iff.2 h.endedAt, orElse_eq_right_iff.2 h.terminalReason⟩

end NodeRow

/-- The job has all that an update brings. -/
structure JobHas (job : Job) (u : Updates) : Prop where
  status : ∀ new, u.status = some new → job.status = new ∨ new = .completed ∧ job.status ≠ .running
  endedAt : ∀ t, u.endedAt = some t → job.endedAt = some t
  failReason : ∀ reason, u.appendFailReason = some reason → reason ∈ job.failReason
  allInputsUploaded : u.allInputsUploaded = true → job.allInputsUploaded = true
  clientHasAllResults : u.clientHasAllResults = true → job.clientHasAllResults = true
  dashboardCanceled : u.dashboardCanceled = true → job.dashboardCanceled = true
  clusterShutdown : u.clusterShutdown = true → job.clusterShutdown = true
  clusterRestarted : u.clusterRestarted = true → job.clusterRestarted = true

namespace JobHas

variable {job : Job} {u : Updates} {now : ℚ}

lemma newStatus_eq_iff : job.newStatus u = job.status ↔
    ∀ new, u.status = some new → job.status = new ∨ new = .completed ∧ job.status ≠ .running := by
  unfold Job.newStatus
  cases hnew : u.status with
  | none => simp
  | some new => cases hcurrent : job.status <;> cases new <;> simp

lemma failReason_iff (now : ℚ) :
    (job.update u now).failReason = job.failReason ↔
      ∀ reason, u.appendFailReason = some reason → reason ∈ job.failReason := by
  simp only [Job.update]
  cases hreason : u.appendFailReason with
  | none => simp
  | some reason =>
    simp only [Option.some.injEq, forall_eq']
    split_ifs with hmem
    · exact ⟨fun _ => hmem, fun _ => rfl⟩
    · exact ⟨fun h => absurd h (by simp), fun h => absurd h hmem⟩

/-- A job that an update leaves as it is has all that the update brings. -/
lemma update_eq_self_iff : job.update u now = job ↔ JobHas job u := by
  constructor
  · intro h
    have hstatus : job.newStatus u = job.status := congrArg Job.status h
    have henters : ¬job.EntersTerminal u := fun he => by
      rw [Job.EntersTerminal, hstatus] at he
      exact absurd he.1 (by rw [he.2]; decide)
    have hended := congrArg Job.endedAt h
    simp only [Job.update, henters, false_and, if_false] at hended
    exact ⟨newStatus_eq_iff.1 hstatus, orElse_eq_right_iff.1 hended,
      (failReason_iff now).1 (congrArg Job.failReason h),
      or_eq_left_iff.1 (congrArg Job.allInputsUploaded h),
      or_eq_left_iff.1 (congrArg Job.clientHasAllResults h),
      or_eq_left_iff.1 (congrArg Job.dashboardCanceled h),
      or_eq_left_iff.1 (congrArg Job.clusterShutdown h),
      or_eq_left_iff.1 (congrArg Job.clusterRestarted h)⟩
  · intro h
    have hstatus := newStatus_eq_iff.2 h.status
    have henters : ¬job.EntersTerminal u := fun he => by
      rw [Job.EntersTerminal, hstatus] at he
      exact absurd he.1 (by rw [he.2]; decide)
    have hended : (job.update u now).endedAt = job.endedAt := by
      simp only [Job.update, henters, false_and, if_false]
      exact orElse_eq_right_iff.2 h.endedAt
    have hreason := (failReason_iff now).2 h.failReason
    cases job
    rw [Job.update, Job.mk.injEq]
    exact ⟨hstatus, hended, hreason, or_eq_left_iff.2 h.allInputsUploaded,
      or_eq_left_iff.2 h.clientHasAllResults, or_eq_left_iff.2 h.dashboardCanceled,
      or_eq_left_iff.2 h.clusterShutdown, or_eq_left_iff.2 h.clusterRestarted⟩

end JobHas

namespace LiveNode

variable (node : LiveNode κ V) (u : LiveNodeUpdates κ V)

/-- The row of a name that the head does not know; it has its name only. -/
def new : LiveNode κ V := ⟨.new, .empty⟩

/-- `node.update(updates)`. -/
def update : LiveNode κ V := ⟨node.row.update u.row, node.others.update u.others⟩

/-- `durable_changed`. -/
def DurableChanged : Prop := node.row.StatusChanged u.row ∨ u.Durable

instance : Decidable (node.DurableChanged u) := inferInstanceAs (Decidable (_ ∨ _))

/-- The row of a node that is no longer reserved for an ended job. -/
def release [DecidableEq κ] (job : κ) : LiveNode κ V := { node with row := node.row.release job }

/-- The row has all that an update brings. -/
structure Has : Prop where
  row : node.row.Has u.row
  others : ∀ e ∈ u.others.items, node.others.get e.1 = some e.2

variable {node u}

lemma update_eq_self_iff : node.update u = node ↔ node.Has u := by
  obtain ⟨row, others⟩ := node
  rw [update, LiveNode.mk.injEq, NodeRow.update_eq_self_iff, Dict.update_eq_self_iff]
  exact ⟨fun h => ⟨h.1, h.2⟩, fun h => ⟨h.row, h.others⟩⟩

end LiveNode

namespace LiveJob

variable (job : LiveJob κ ι V) (u : LiveJobUpdates V) (now : ℚ)

/-- `job.update(updates)`, the time at which the job ended, and the reason for it. -/
def update : LiveJob κ ι V where
  row := { job.row with job := job.row.job.update u.job now }
  others := job.others.update u.others

/-- `became_failed`. -/
def BecameFailed : Prop := u.job.status = some .failed ∧ job.row.job.status ≠ .failed

instance : Decidable (job.BecameFailed u) := inferInstanceAs (Decidable (_ ∧ _))

/-- The job has all that an update brings. -/
structure Has : Prop where
  record : JobHas job.row.job u.job
  others : ∀ e ∈ u.others.items, job.others.get e.1 = some e.2

variable {job u now}

lemma update_eq_self_iff : job.update u now = job ↔ job.Has u := by
  obtain ⟨⟨spec, record, startedAt, assignedNodes⟩, others⟩ := job
  rw [update, LiveJob.mk.injEq, Dict.update_eq_self_iff, JobRow.mk.injEq, JobHas.update_eq_self_iff]
  exact ⟨fun h => ⟨h.1.2.1, h.2⟩, fun h => ⟨⟨rfl, h.record, rfl, rfl⟩, h.others⟩⟩

end LiveJob

/-! ### The two calls -/

/-- `NODES` and `JOBS`. -/
structure Live (κ ι V : Type*) where
  nodes : Dict ι (LiveNode κ V)
  jobs : Dict κ (LiveJob κ ι V)

/-- What comes of a call of `update_node`. -/
structure NodeCall (κ ι V : Type*) where
  live : Live κ ι V
  /-- The history's exception reaches the caller. -/
  raised : Bool
  /-- What the history is left with. -/
  written : Option (LiveNode κ V)
  /-- What `keep_awake.set_active` is called with. -/
  setActive : Option Bool
  /-- The event, with its `deleted`. -/
  published : Option (Bool × LiveNode κ V)

/-- What comes of a call of `update_job`, up to the calls for the children. -/
structure JobCall (κ ι V : Type*) where
  live : Live κ ι V
  /-- What the call returns. -/
  known : Bool
  raised : Bool
  /-- The job and the nodes that the history is left with, and that are published. -/
  written : Option (LiveJob κ ι V × List (ι × LiveNode κ V))
  childrenToCancel : List κ
  /-- The reasons that `ship_job_debug_logs` is called with. -/
  debugLogs : Option (List String)

namespace Live

/-- `_has_live_nodes`. -/
def hasLiveNodes (nodes : Dict ι (LiveNode κ V)) : Bool :=
  nodes.items.any fun e => e.2.row.status.any fun status => !status.terminal

section Node

variable [DecidableEq ι] (s : Live κ ι V) (name : ι) (u : LiveNodeUpdates κ V)

/-- `node.update(updates)` on the row itself, which is in `NODES` unless the name is new. -/
def mutateNode : Live κ ι V :=
  match s.nodes.get name with
  -- the dict is a fresh one, which only `NODES[instance_name] = node` puts in
  | none => s
  | some node => { s with nodes := s.nodes.set name (node.update u) }

/-- `update_node`; `raises` when a write to the history does. -/
def updateNode (raises : Bool) : NodeCall κ ι V :=
  let node := (s.nodes.get name).getD .new
  let merged := node.update u
  if node.DurableChanged u ∧ raises = true then
    { live := s.mutateNode name u
      raised := true
      written := none
      setActive := none
      published := none }
  else
    let nodes := s.nodes.set name merged
    { live := { s with nodes }
      raised := false
      written := if node.DurableChanged u then some merged else none
      setActive := if node.row.StatusChanged u.row then some (hasLiveNodes nodes) else none
      published :=
        if node.row.StatusChanged u.row ∨ "host" ∈ u.others.keys ∨ u.row.currentJob.isSome = true
        then some (merged.row.status = some .deleted, merged) else none }

variable {s name u}

/-- The two ways that a call ends. -/
lemma updateNode_cases {raises : Bool} {call : NodeCall κ ι V}
    (h : s.updateNode name u raises = call) :
    raises = true ∧ call.live = s.mutateNode name u ∧ call.setActive = none ∨
      call.live = { s with nodes := s.nodes.set name (((s.nodes.get name).getD .new).update u) } ∧
        call.setActive = if ((s.nodes.get name).getD .new).row.StatusChanged u.row then
          some (hasLiveNodes call.live.nodes) else none := by
  subst h
  unfold updateNode
  by_cases hfailed : ((s.nodes.get name).getD .new).DurableChanged u ∧ raises = true
  · exact .inl ⟨hfailed.2, by rw [if_pos hfailed], by rw [if_pos hfailed]⟩
  · exact .inr ⟨by rw [if_neg hfailed], by rw [if_neg hfailed]⟩

variable (s name u)

/-- A call whose write raises leaves the tables alone, and the next one, whether its write raises
or not, does what it would have done in its place. -/
def UpdateNodeAtomic : Prop :=
  (s.updateNode name u true).raised = true →
    (s.updateNode name u true).live = s ∧
      ∀ raises, (s.updateNode name u true).live.updateNode name u raises =
        s.updateNode name u raises

end Node

section Job

variable [DecidableEq κ] (s : Live κ ι V) (stored : κ → Option (LiveJob κ ι V)) (j : κ)
  (u : LiveJobUpdates V) (now : ℚ)

/-- `_get_or_load_job`; `stored` is what the history has. -/
def getOrLoadJob : Option (Live κ ι V × LiveJob κ ι V) :=
  match s.jobs.get j with
  | some job => some (s, job)
  | none => (stored j).map fun job => ({ s with jobs := s.jobs.set j job }, job)

/-- What is done to the job's row and to the nodes' before the history is written. -/
def mutateJob (job : LiveJob κ ι V) : Live κ ι V where
  nodes :=
    if (job.update u now).row.job.status.terminal = true then
      s.nodes.mapValues (LiveNode.release · j)
    else s.nodes
  jobs := s.jobs.set j (job.update u now)

/-- `released_nodes`. -/
def releasedNodes (job : LiveJob κ ι V) : List (ι × LiveNode κ V) :=
  if (job.update u now).row.job.status.terminal = true then
    (s.nodes.items.filter fun e => e.2.row.reservedForJob = some j).map
      fun e => (e.1, e.2.release j)
  else []

/-- `children_to_cancel`. -/
def childrenToCancel (job : LiveJob κ ι V) : List κ :=
  if job.row.job.EntersTerminal u.job ∧ ((job.update u now).row.job.status = .failed ∨
      (job.update u now).row.job.status = .canceled) then
    ((s.mutateJob j u now job).jobs.items.filter fun e => e.2.row.CancelableChild j).map Prod.fst
  else []

/-- `update_job`, at the time `now`; `raises` when the write to the history does. -/
def updateJob (raises : Bool) : JobCall κ ι V :=
  match s.getOrLoadJob stored j with
  | none =>
    { live := s
      known := false
      raised := false
      written := none
      childrenToCancel := []
      debugLogs := none }
  | some (s, job) =>
    if raises = true then
      { live := s.mutateJob j u now job
        known := true
        raised := true
        written := none
        childrenToCancel := []
        debugLogs := none }
    else
      { live := s.mutateJob j u now job
        known := true
        raised := false
        written := some (job.update u now, s.releasedNodes j u now job)
        childrenToCancel := s.childrenToCancel j u now job
        debugLogs :=
          if job.BecameFailed u then some (job.update u now).row.job.failReason else none }

/-- A call whose write raises leaves the tables alone, and the next one, at any time and whether
its write raises or not, does what it would have done in its place. -/
def UpdateJobAtomic : Prop :=
  (s.updateJob stored j u now true).raised = true →
    (s.updateJob stored j u now true).live = s ∧
      ∀ later raises, (s.updateJob stored j u now true).live.updateJob stored j u later raises =
        s.updateJob stored j u later raises

end Job

/-! ### The calls that can write are those of the tables -/

/-- The fields that the head decides by. -/
def tables (s : Live κ ι V) : Tables κ ι := ⟨s.nodes.map LiveNode.row, s.jobs.map LiveJob.row⟩

section Tables

variable {s : Live κ ι V} {stored : κ → Option (LiveJob κ ι V)} {j : κ} {job : LiveJob κ ι V}
  {now : ℚ}

variable [DecidableEq κ] {u : LiveJobUpdates V}

lemma getOrLoadJob_of_mem (hjob : s.jobs.get j = some job) :
    s.getOrLoadJob stored j = some (s, job) := by
  rw [getOrLoadJob, hjob]

end Tables

/-! ### What a failed write leaves -/

section Failed

variable {s : Live κ ι V} {stored : κ → Option (LiveJob κ ι V)}

section Node

variable [DecidableEq ι] {name : ι} {u : LiveNodeUpdates κ V}

lemma mutateNode_eq_self_iff :
    s.mutateNode name u = s ↔ ∀ node, s.nodes.get name = some node → node.Has u := by
  obtain ⟨nodes, jobs⟩ := s
  unfold mutateNode
  cases hnode : nodes.get name with
  | none => simp
  | some node =>
    simp only [hnode, Live.mk.injEq, and_true, Dict.set_eq_self_iff, Option.some.injEq, forall_eq']
    rw [eq_comm, LiveNode.update_eq_self_iff]

/-- **A call of `update_node` is undone by an exception exactly when there is nothing to undo.** -/
lemma updateNodeAtomic_iff : s.UpdateNodeAtomic name u ↔
    ∀ node, s.nodes.get name = some node → node.DurableChanged u → node.Has u := by
  by_cases hdurable : ((s.nodes.get name).getD .new).DurableChanged u
  · -- the write is tried, and raises
    have hfailed : (s.updateNode name u true).raised = true ∧
        (s.updateNode name u true).live = s.mutateNode name u := by
      rw [updateNode, if_pos ⟨hdurable, rfl⟩]
      exact ⟨rfl, rfl⟩
    unfold UpdateNodeAtomic
    rw [hfailed.2]
    constructor
    · intro h node hnode _
      exact mutateNode_eq_self_iff.1 (h hfailed.1).1 node hnode
    · intro h _
      have hself : s.mutateNode name u = s := mutateNode_eq_self_iff.2 fun node hnode =>
        h node hnode (by rwa [hnode] at hdurable)
      rw [hself]
      exact ⟨rfl, fun _ => rfl⟩
  · -- nothing is written, so that nothing raises
    constructor
    · intro _ node hnode hchanged
      rw [hnode] at hdurable
      exact absurd hchanged hdurable
    · intro _ hraised
      rw [updateNode, if_neg fun h => hdurable h.1] at hraised
      cases hraised

end Node

section Job

variable [DecidableEq κ] {j : κ} {job : LiveJob κ ι V} {u : LiveJobUpdates V} {now later : ℚ}
  {raises : Bool}

lemma release_eq_self_iff {node : LiveNode κ V} :
    node.release j = node ↔ node.row.reservedForJob ≠ some j := by
  obtain ⟨row, others⟩ := node
  rw [LiveNode.release, LiveNode.mk.injEq, NodeRow.release]
  simp only [and_true]
  split_ifs with hreserved
  · cases row
    simp_all
  · simp [hreserved]

lemma mutateJob_eq_self_iff (hjob : s.jobs.get j = some job) :
    s.mutateJob j u now job = s ↔ job.Has u ∧ (job.row.job.status.terminal = true →
      ∀ e ∈ s.nodes.items, e.2.row.reservedForJob ≠ some j) := by
  obtain ⟨nodes, jobs⟩ := s
  rw [mutateJob, Live.mk.injEq, Dict.set_eq_self_iff]
  have hset : jobs.get j = some (job.update u now) ↔ job.Has u := by
    rw [show jobs.get j = some job from hjob, Option.some.injEq, eq_comm,
      LiveJob.update_eq_self_iff]
  rw [hset, and_comm]
  refine and_congr_right fun hhas => ?_
  rw [LiveJob.update_eq_self_iff.2 hhas]
  split_ifs with hterminal
  · simp only [hterminal, forall_const, Dict.mapValues_eq_self_iff, release_eq_self_iff]
  · simp [hterminal]

/-- **A call of `update_job` is undone by an exception exactly when there is nothing to undo**, no
node to be given back included. -/
lemma updateJobAtomic_iff : s.UpdateJobAtomic stored j u now ↔
    s.jobs.get j = none ∧ stored j = none ∨
      ∃ job, s.jobs.get j = some job ∧ job.Has u ∧ (job.row.job.status.terminal = true →
        ∀ e ∈ s.nodes.items, e.2.row.reservedForJob ≠ some j) := by
  unfold UpdateJobAtomic
  cases hjob : s.jobs.get j with
  | some job =>
    have hfailed : s.updateJob stored j u now true =
        ⟨s.mutateJob j u now job, true, true, none, [], none⟩ := by
      rw [updateJob, getOrLoadJob_of_mem hjob]
      rfl
    rw [hfailed]
    simp only [forall_const, reduceCtorEq, false_and, false_or, Option.some.injEq, exists_eq_left']
    rw [← (mutateJob_eq_self_iff hjob : s.mutateJob j u now job = s ↔ _)]
    constructor
    · exact And.left
    · intro hself
      rw [hself]
      exact ⟨rfl, fun _ _ => rfl⟩
  | none =>
    cases hstored : stored j with
    | none =>
      have hfailed : (s.updateJob stored j u now true).raised = false := by
        rw [updateJob, getOrLoadJob, hjob, hstored]
        rfl
      rw [hfailed]
      simp
    | some job =>
      -- the job has come from the history, and stays
      have hfailed : s.updateJob stored j u now true =
          ⟨mutateJob { s with jobs := s.jobs.set j job } j u now job, true, true, none, [],
            none⟩ := by
        rw [updateJob, getOrLoadJob, hjob, hstored]
        rfl
      rw [hfailed]
      simp only [forall_const, reduceCtorEq, and_false, false_and, exists_false, or_self, iff_false,
        not_and]
      intro hself
      have hget := congrArg (fun t : Live κ ι V => t.jobs.get j) hself
      simp only [mutateJob, Dict.get_set_self, hjob] at hget
      cases hget

/-- The update has done its work on the status. -/
lemma newStatus_update (now : ℚ) {record : Job} {u : Updates} :
    (record.update u now).newStatus u = record.newStatus u := by
  obtain ⟨_ | new⟩ := u
  · rfl
  · cases new with
    | completed =>
      by_cases hrunning : record.status = .running <;> simp [Job.update, Job.newStatus, hrunning]
    | running => rfl
    | failed => rfl
    | canceled => rfl

lemma not_entersTerminal_update {record : Job} {u : Updates} :
    ¬(record.update u now).EntersTerminal u := by
  rintro ⟨hafter, hbefore⟩
  rw [newStatus_update now] at hafter
  cases hafter.symm.trans hbefore

/-- **What gets lost**: after a write that has raised, the same update cancels no child, gives back
no node and ships no debug logs, whatever it was to do the first time. -/
lemma retry_after_failure {retry : JobCall κ ι V}
    (hraised : (s.updateJob stored j u now true).raised = true)
    (hretry : (s.updateJob stored j u now true).live.updateJob stored j u later raises = retry) :
    retry.childrenToCancel = [] ∧ retry.debugLogs = none ∧
      ∀ job nodes, retry.written = some (job, nodes) → nodes = [] := by
  obtain ⟨t, job, hfailed⟩ : ∃ (t : Live κ ι V) (job : LiveJob κ ι V),
      (s.updateJob stored j u now true).live = t.mutateJob j u now job := by
    unfold updateJob at hraised ⊢
    split at hraised
    · cases hraised
    · rename_i t job _
      exact ⟨t, job, rfl⟩
  have hload : (t.mutateJob j u now job).getOrLoadJob stored j =
      some (t.mutateJob j u now job, job.update u now) :=
    getOrLoadJob_of_mem Dict.get_set_self
  have hchildren : (t.mutateJob j u now job).childrenToCancel j u later (job.update u now) = [] :=
    if_neg fun h => not_entersTerminal_update h.1
  have hlogs : ¬(job.update u now).BecameFailed u := by
    rintro ⟨hu, hstatus⟩
    refine hstatus ?_
    show job.row.job.newStatus u.job = .failed
    rw [Job.newStatus, hu]
  -- all that was reserved for the job has been given back the first time
  have hnodes : (t.mutateJob j u now job).releasedNodes j u later (job.update u now) = [] := by
    unfold releasedNodes
    split_ifs with hterminal
    · rw [List.map_eq_nil_iff, List.filter_eq_nil_iff]
      intro e he
      have hbefore : (job.update u now).row.job.status.terminal = true := by
        rw [show (job.update u now).row.job.status = job.row.job.newStatus u.job from rfl,
          ← newStatus_update now]
        exact hterminal
      rw [mutateJob, if_pos hbefore] at he
      obtain ⟨e', -, rfl⟩ := List.mem_map.1 he
      rw [decide_eq_true_eq]
      show (e'.2.row.release j).reservedForJob ≠ some j
      unfold NodeRow.release
      split_ifs with hreserved
      · exact nofun
      · exact hreserved
    · rfl
  rw [hfailed, updateJob, hload] at hretry
  subst hretry
  cases raises with
  | true => exact ⟨rfl, rfl, fun _ _ h => by cases h⟩
  | false =>
    refine ⟨hchildren, if_neg hlogs, fun job' nodes h => ?_⟩
    exact (congrArg Prod.snd (Option.some.inj h)).symm.trans hnodes

end Job

end Failed

/-! ### Both of them -/

/-- **The tables survive an exception of the history, and the same update does later what it was
to do, exactly where there was nothing to do in them**: a name that `NODES` does not have, or a
job that there is not; no durable field written; or a row that has all that the update brings,
and no node that is reserved for a job that has ended. -/
theorem writes_atomic_iff [DecidableEq κ] [DecidableEq ι] (s : Live κ ι V) :
    (∀ name u, s.UpdateNodeAtomic name u ↔
      ∀ node, s.nodes.get name = some node → node.DurableChanged u → node.Has u) ∧
    ∀ stored j u now, s.UpdateJobAtomic stored j u now ↔
      s.jobs.get j = none ∧ stored j = none ∨
        ∃ job, s.jobs.get j = some job ∧ job.Has u ∧ (job.row.job.status.terminal = true →
          ∀ e ∈ s.nodes.items, e.2.row.reservedForJob ≠ some j) :=
  ⟨fun _ _ => updateNodeAtomic_iff, fun _ _ _ _ => updateJobAtomic_iff⟩

section Lost

/-- A RUNNING job. -/
def running (parent : Option ℕ) : LiveJob ℕ Unit Unit where
  row := ⟨⟨1, false, parent⟩, Job.new, none, Dict.empty⟩
  others := Dict.empty

/-- The job 1 runs inside the job 0, for which the node is reserved. -/
def nested : Live ℕ Unit Unit where
  nodes := Dict.empty.set ()
    ⟨{ NodeRow.new with status := some .ready, reservedForJob := some 0 }, Dict.empty⟩
  jobs := (Dict.empty.set 0 (running none)).set 1 (running (some 0))

/-- The client cancels its job. -/
def canceled : LiveJobUpdates Unit := ⟨Updates.ofStatus .canceled, Dict.empty⟩

/-- The tables after a write that raised. -/
def afterFailure : Live ℕ Unit Unit := (nested.updateJob (fun _ => none) 0 canceled 5 true).live

/-- What has come of the job and of the node, and what is left to be canceled and to be written. -/
def outcome (call : JobCall ℕ Unit Unit) : Option JobStatus × List (Option ℕ) × List ℕ × Option ℕ :=
  ((call.live.jobs.get 0).map fun job => job.row.job.status,
    call.live.nodes.items.map fun e => e.2.row.reservedForJob, call.childrenToCancel,
    call.written.map fun p => p.2.length)

/-- **The child runs on**: the job is CANCELED and the node given back although the write has
raised, and by then the same update has no child to cancel and no node to write. -/
theorem cancel_lost :
    ¬nested.UpdateJobAtomic (fun _ => none) 0 canceled 5 ∧
      outcome (nested.updateJob (fun _ => none) 0 canceled 5 true) =
        (some .canceled, [none], [], none) ∧
      outcome (afterFailure.updateJob (fun _ => none) 0 canceled 6 false) =
        (some .canceled, [none], [], some 0) ∧
      outcome (nested.updateJob (fun _ => none) 0 canceled 6 false) =
        (some .canceled, [none], [1], some 1) := by
  refine ⟨fun h => ?_, rfl, rfl, rfl⟩
  have hstays := congrArg (fun s : Live ℕ Unit Unit => (s.jobs.get 0).map
    fun job => job.row.job.status) (h rfl).1
  exact absurd hstays (by decide)

end Lost

end Live

end Burla.ClusterState
