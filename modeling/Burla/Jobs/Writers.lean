/-
Everything that writes a job's status: the head itself (dashboard cancel, cluster restart and
shutdown, the cascade to child jobs, the reaper), the job's client and the watchers of its nodes
(job_watcher.py).

A writer decides on what it has last read and then sends its updates; between the two, and on
the way, anything can happen, and any message may get lost.  What the clocks, the queues and the
heartbeats read is part of the steps' labels.
-/
import Burla.Jobs.Record
import Burla.Lib.Messages
import Burla.Lib.System

namespace Burla.Jobs

variable {κ ι : Type*}

/-! ### Watchers -/

/-- Where the watcher of a node stands in its loop. -/
inductive WatcherPhase
  /-- The first push, which registers the node. -/
  | starting
  /-- At the top of the loop. -/
  | looping
  /-- After the job's status has been looked at. -/
  | checking
  /-- The push of a node that has nothing left to do; whether the client is gone and has left
  no result behind. -/
  | asking (abandoned : Bool)
  deriving DecidableEq, Repr

/-- A node's part in a job. -/
structure Watcher (κ : Type*) where
  job : κ
  numResultsReceived : ℕ
  /-- `SELF["all_inputs_uploaded"]`. -/
  allInputsUploaded : Bool
  /-- `SELF["job_view"]`, or the view of the last push. -/
  view : JobView
  jobFailed : Bool
  jobCanceled : Bool
  phase : WatcherPhase
  deriving DecidableEq, Repr

namespace Watcher

variable (w : Watcher κ)

/-- `apply_job_signals`. -/
def applySignals (view : JobView) : Watcher κ :=
  { w with view, allInputsUploaded := w.allInputsUploaded || view.allInputsUploaded }

/-- The status as it was last read. -/
def observe : Watcher κ :=
  { w with
    jobFailed := w.jobFailed || w.view.status = .failed
    jobCanceled := w.jobCanceled || w.view.status = .canceled
    phase := .checking }

/-- The client is gone and must not be; whether this node is the first to see it. -/
def mustFail (isBackgroundJob disconnected : Bool) : Bool :=
  disconnected && (!isBackgroundJob || !w.allInputsUploaded) && !(w.jobFailed || w.jobCanceled)

/-- What the node makes of a client that is gone. -/
def disconnect : Watcher κ :=
  if w.view.lifecycleCanceled then { w with jobCanceled := true } else { w with jobFailed := true }

/-- The node looks for its client. -/
def notice (isBackgroundJob disconnected : Bool) : Watcher κ :=
  if w.mustFail isBackgroundJob disconnected then w.disconnect else w

/-- Looking for the client changes the two flags at most. -/
lemma notice_eq (isBackgroundJob disconnected : Bool) :
    ∃ jobFailed jobCanceled,
      w.notice isBackgroundJob disconnected = { w with jobFailed, jobCanceled } := by
  unfold notice disconnect
  split_ifs
  · exact ⟨w.jobFailed, true, rfl⟩
  · exact ⟨true, w.jobCanceled, rfl⟩
  · exact ⟨w.jobFailed, w.jobCanceled, rfl⟩

/-- A client that is gone has been noticed, unless the job is a detached one. -/
lemma flagged_notice (isBackgroundJob : Bool) :
    (w.notice isBackgroundJob true).jobFailed = true ∨
      (w.notice isBackgroundJob true).jobCanceled = true ∨ isBackgroundJob = true := by
  unfold notice
  split_ifs with h
  · unfold disconnect
    split_ifs
    · exact .inr (.inl rfl)
    · exact .inl rfl
  · cases hf : w.jobFailed
    · cases hc : w.jobCanceled
      · cases isBackgroundJob
        · simp [mustFail, hf, hc] at h
        · exact .inr (.inr rfl)
      · exact .inr (.inl rfl)
    · exact .inl rfl

/-- All results are in, by the view that the last push has brought. -/
def jobCompleted (nInputs : ℕ) (abandoned : Bool) : Bool :=
  if abandoned then nInputs = w.view.totalNumResults else w.view.clientHasAllResults

/-- The status that the watcher reports when it ends. -/
def endStatus : JobStatus :=
  if w.jobFailed then .failed
  else if w.jobCanceled then .canceled
  else if w.view.status = .failed ∨ w.view.status = .canceled then w.view.status
  else .completed

end Watcher

/-! ### The state -/

/-- How a call on the client fails. -/
inductive ClientError
  | mainServiceTimeout
  /-- `ClusterRestarted`, `ClusterShutdown` or `JobCanceled`. -/
  | lifecycle
  /-- Anything else, a closed generator included. -/
  | other (message : String)
  deriving DecidableEq, Repr

structure Push (κ ι : Type*) where
  job : κ
  node : ι
  currentNumResults : ℕ

structure Response (κ ι : Type*) where
  job : κ
  node : ι
  view : JobView

/-- Who writes. -/
inductive Writer
  | user
  | lifecycle
  | cascade
  | reaper
  | client
  | node
  deriving DecidableEq, Repr

structure Write (κ : Type*) where
  writer : Writer
  job : κ
  updates : Updates
  deriving DecidableEq, Repr

/-- The head, its jobs' clients and the nodes. -/
structure Cluster (κ ι : Type*) where
  jobs : κ → Option Job
  /-- The keys of `JOBS`. -/
  jobIds : List κ
  /-- What each node has reported (`assigned_nodes`). -/
  assigned : κ → ι → ℕ
  watchers : ι → Option (Watcher κ)
  pushes : List (Push κ ι)
  responses : List (Response κ ι)
  writes : List (Write κ)
  /-- The children that were canceled with a job. -/
  cascades : List (κ × List κ)
  /-- The inputs whose results have been produced, with the node. -/
  results : κ → List (ι × ℕ)
  /-- The inputs whose results the client has. -/
  received : κ → List ℕ

inductive JobEvent (κ ι : Type*)
  | start (j : κ)
  /-- A write reaches the head. -/
  | deliver (n : ℕ) (now : ℚ)
  | drop (n : ℕ)
  /-- The head restarts: what nodes have reported is forgotten. -/
  | restart
  | cancel (j : κ)
  | clusterShutdown (j : κ) (restarted : Bool)
  /-- The reaper finds a job silent. -/
  | reap (j : κ) (endedAt : ℚ)
  /-- A node produces a result. -/
  | produce (i : ι) (k : ℕ)
  /-- The client gets a result. -/
  | receive (j : κ) (k : ℕ)
  | inputsDone (j : κ)
  | hasAllResults (j : κ)
  | clientFails (j : κ) (e : ClientError)
  /-- A signal at the client. -/
  | clientSignal (j : κ) (inputsDone : Bool)
  /-- A node takes part in a job. -/
  | join (i : ι) (j : κ)
  | push (i : ι)
  | pushArrives (n : ℕ)
  | pushLost (n : ℕ)
  /-- The push loop reads a response. -/
  | read (n : ℕ)
  | responseLost (n : ℕ)
  | observe (i : ι)
  | check (i : ι) (disconnected pendingResultsEmpty processed : Bool)
  /-- The watcher reads the response to its own push. -/
  | answer (n : ℕ)
  /-- The node ends its part early, or shuts down. -/
  | leave (i : ι)
  | raise (i : ι) (message : String)
  | ackFails (i : ι) (reason : String)

namespace Cluster

/-- No job yet. -/
def empty : Cluster κ ι where
  jobs _ := none
  jobIds := []
  assigned _ _ := 0
  watchers _ := none
  pushes := []
  responses := []
  writes := []
  cascades := []
  results _ := []
  received _ := []

variable [DecidableEq κ] [DecidableEq ι] (s : Cluster κ ι)

def send (writer : Writer) (j : κ) (updates : Updates) : Cluster κ ι :=
  { s with writes := s.writes ++ [⟨writer, j, updates⟩] }

def setWatcher (i : ι) (w : Option (Watcher κ)) : Cluster κ ι :=
  { s with watchers := Function.update s.watchers i w }

omit [DecidableEq κ] in
lemma watchers_setWatcher (i i' : ι) (w : Option (Watcher κ)) :
    (s.setWatcher i w).watchers i' = if i' = i then w else s.watchers i' :=
  Function.update_apply ..

/-- A node reports its results so far. -/
def report (i : ι) (w : Watcher κ) : Cluster κ ι :=
  { s with pushes := s.pushes ++ [⟨w.job, i, w.numResultsReceived⟩] }

/-- The watcher ends, with a last word on its job. -/
def finish (i : ι) (w : Watcher κ) (updates : Updates) : Cluster κ ι :=
  (s.setWatcher i none).send .node w.job updates

/-- `_cancelable_child_ids`. -/
def cancelableChildIds (spec : κ → JobSpec κ) (j : κ) : List κ :=
  s.jobIds.filter fun c =>
    decide ((spec c).parentJobId = some j) &&
      match s.jobs c with
      | none => false
      | some child =>
        decide (child.status = .running) && !((spec c).isBackgroundJob && child.allInputsUploaded)

/-- What the cascade writes to a child job. -/
def parentTerminated : Updates := { Updates.ofStatus .canceled with dashboardCanceled := true }

/-- `update_job`. -/
def updateJob (spec : κ → JobSpec κ) (j : κ) (updates : Updates) (now : ℚ) : Cluster κ ι :=
  match s.jobs j with
  | none => s
  | some job =>
    let job' := job.update updates now
    let s' := { s with jobs := Function.update s.jobs j (some job') }
    if job.EntersTerminal updates ∧ (job'.status = .failed ∨ job'.status = .canceled) then
      let children := s'.cancelableChildIds spec j
      { s' with
        writes := s'.writes ++ children.map fun c => ⟨.cascade, c, parentTerminated⟩
        cascades := s'.cascades ++ [(j, children)] }
    else s'

/-- A node that is the first to miss the client fails the job, unless it has been canceled. -/
def noticeClient (isBackgroundJob : Bool) (w : Watcher κ) (disconnected : Bool) : Cluster κ ι :=
  if w.mustFail isBackgroundJob disconnected ∧ (w.notice isBackgroundJob disconnected).jobFailed then
    s.send .node w.job (Updates.failure "Client DC")
  else s

/-- Whether the job is over. -/
def checkEnd (i : ι) (w : Watcher κ) (abandoned processed : Bool) : Cluster κ ι :=
  if w.allInputsUploaded ∧ processed then
    (s.setWatcher i (some { w with phase := .asking abandoned })).report i w
  else if w.jobFailed ∨ w.jobCanceled then s.finish i w (Updates.ofStatus w.endStatus)
  else s.setWatcher i (some { w with phase := .looping })

/-- The second half of a watcher's pass. -/
def check (spec : κ → JobSpec κ) (i : ι) (w : Watcher κ)
    (disconnected pendingResultsEmpty processed : Bool) : Cluster κ ι :=
  (s.noticeClient (spec w.job).isBackgroundJob w disconnected).checkEnd i
    (w.notice (spec w.job).isBackgroundJob disconnected) (disconnected && pendingResultsEmpty)
    processed

/-- The watcher goes on, or ends, with the view that its push has brought. -/
def answer (spec : κ → JobSpec κ) (i : ι) (w : Watcher κ) : Option (Cluster κ ι) :=
  match w.phase with
  | .starting => some (s.setWatcher i (some { w with phase := .looping }))
  | .asking abandoned =>
    if w.jobCompleted (spec w.job).nInputs abandoned ∨ w.jobFailed ∨ w.jobCanceled then
      some (s.finish i w (Updates.ofStatus w.endStatus))
    else some (s.setWatcher i (some { w with phase := .looping }))
  | _ => none

end Cluster

section System

variable [DecidableEq κ] [DecidableEq ι] [Fintype ι]

/-- One step.  Every input is processed at most once. -/
def jobStep (spec : κ → JobSpec κ) (s : Cluster κ ι) : JobEvent κ ι → Option (Cluster κ ι)
  | .start j =>
    if s.jobs j = none then
      some
        { s with
          jobs := Function.update s.jobs j (some Job.new)
          jobIds := s.jobIds ++ [j] }
    else none
  | .deliver n now =>
    match takeAt s.writes n with
    | none => none
    | some (w, rest) => some ({ s with writes := rest }.updateJob spec w.job w.updates now)
  | .drop n =>
    match takeAt s.writes n with
    | none => none
    | some (_, rest) => some { s with writes := rest }
  | .restart => some { s with assigned := fun _ _ => 0 }
  | .cancel j =>
    match s.jobs j with
    | none => none
    | some job =>
      if job.status.terminal then none
      else
        some (s.send .user j { Updates.ofStatus .canceled with dashboardCanceled := true })
  | .clusterShutdown j restarted =>
    match s.jobs j with
    | none => none
    | some job =>
      if job.status = .running then
        some
          (s.send .lifecycle j
            { Updates.ofStatus .canceled with
              clusterRestarted := restarted, clusterShutdown := !restarted })
      else none
  | .reap j endedAt =>
    match s.jobs j with
    | none => none
    | some job =>
      if job.status = .running then
        let verdict := reaperVerdict (spec j).nInputs (spec j).isBackgroundJob job
          (∑ i, s.assigned j i)
        let reason := if verdict = .completed then none else
          some "main_svc: job is \"running\" but no nodes working on it ???"
        some
          (s.send .reaper j
            { Updates.ofStatus verdict with
              endedAt := some endedAt, appendFailReason := reason })
      else none
  | .produce i k =>
    match s.watchers i with
    | none => none
    | some w =>
      if k < (spec w.job).nInputs ∧ k ∉ (s.results w.job).map Prod.snd then
        some
          { s.setWatcher i (some { w with numResultsReceived := w.numResultsReceived + 1 }) with
            results := Function.update s.results w.job (s.results w.job ++ [(i, k)]) }
      else none
  | .receive j k =>
    if k ∈ (s.results j).map Prod.snd ∧ k ∉ s.received j then
      some { s with received := Function.update s.received j (s.received j ++ [k]) }
    else none
  | .inputsDone j => some (s.send .client j { Updates.none with allInputsUploaded := true })
  | .hasAllResults j =>
    if (s.received j).length < (spec j).nInputs then none
    else some (s.send .client j { Updates.none with clientHasAllResults := true })
  | .clientFails j e =>
    match e with
    | .mainServiceTimeout | .lifecycle => none
    | .other message =>
      if (spec j).isBackgroundJob then none
      else some (s.send .client j (Updates.failure ("client exception: " ++ message)))
  | .clientSignal j inputsDone =>
    if (spec j).isBackgroundJob ∧ inputsDone then none
    else
      let reason :=
        if (spec j).isBackgroundJob then
          "Client canceled background job before inputs were finished uploading."
        else "Cancel signal from client."
      some (s.send .client j { Updates.ofStatus .canceled with appendFailReason := some reason })
  | .join i j =>
    match s.jobs j, s.watchers i with
    | some job, none =>
      let w : Watcher κ :=
        { job := j
          numResultsReceived := 0
          allInputsUploaded := false
          view := jobView job (s.assigned j)
          jobFailed := false
          jobCanceled := false
          phase := .starting }
      some ((s.setWatcher i (some w)).report i w)
    | _, _ => none
  | .push i => (s.watchers i).map fun w => s.report i w
  | .pushArrives n =>
    match takeAt s.pushes n with
    | none => none
    | some (p, rest) =>
      match s.jobs p.job with
      | none => some { s with pushes := rest }
      | some job =>
        let assigned := Function.update s.assigned p.job
          (Function.update (s.assigned p.job) p.node p.currentNumResults)
        some
          { s with
            pushes := rest
            assigned
            responses := s.responses ++ [⟨p.job, p.node, jobView job (assigned p.job)⟩] }
  | .pushLost n =>
    match takeAt s.pushes n with
    | none => none
    | some (_, rest) => some { s with pushes := rest }
  | .read n =>
    match takeAt s.responses n with
    | none => none
    | some (r, rest) =>
      match s.watchers r.node with
      | none => some { s with responses := rest }
      | some w =>
        some ({ s with responses := rest }.setWatcher r.node (some (w.applySignals r.view)))
  | .responseLost n =>
    match takeAt s.responses n with
    | none => none
    | some (_, rest) => some { s with responses := rest }
  | .observe i =>
    match s.watchers i with
    | none => none
    | some w => if w.phase = .looping then some (s.setWatcher i (some w.observe)) else none
  | .check i disconnected pendingResultsEmpty processed =>
    match s.watchers i with
    | none => none
    | some w =>
      if w.phase = .checking then
        some (s.check spec i w disconnected pendingResultsEmpty processed)
      else none
  | .answer n =>
    match takeAt s.responses n with
    | none => none
    | some (r, rest) =>
      match s.watchers r.node with
      | none => none
      | some w =>
        if w.job = r.job then
          { s with responses := rest }.answer spec r.node (w.applySignals r.view)
        else none
  | .leave i => (s.watchers i).map fun _ => s.setWatcher i none
  | .raise i message =>
    (s.watchers i).map fun w => s.finish i w (Updates.failure message)
  | .ackFails i reason => (s.watchers i).map fun w => s.send .node w.job (Updates.failure reason)

/-- At the start there are no jobs. -/
structure Cluster.Fresh (s : Cluster κ ι) : Prop where
  jobs : ∀ j, s.jobs j = none
  jobIds : s.jobIds = []
  assigned : ∀ j i, s.assigned j i = 0
  watchers : ∀ i, s.watchers i = none
  pushes : s.pushes = []
  responses : s.responses = []
  writes : s.writes = []
  cascades : s.cascades = []
  results : ∀ j, s.results j = []
  received : ∀ j, s.received j = []

omit [DecidableEq κ] [DecidableEq ι] [Fintype ι] in
lemma Cluster.fresh_empty : (Cluster.empty : Cluster κ ι).Fresh :=
  ⟨fun _ => rfl, rfl, fun _ _ => rfl, fun _ => rfl, rfl, rfl, rfl, rfl, fun _ => rfl, fun _ => rfl⟩

/-- The system of jobs and their writers. -/
def cluster (spec : κ → JobSpec κ) : System (Cluster κ ι) (JobEvent κ ι) where
  init := Cluster.Fresh
  step := jobStep spec

end System

end Burla.Jobs
