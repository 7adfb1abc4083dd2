/-
The node's side of a job's assignment (node_service): the middlewares before
`POST /jobs/{job_id}`, `execute`, the end of a job, reboots of the containers and the pushes
of the node's state.

Pushes are serialized by a lock, so they wait in a queue for their turn.  A push may be lost
before the head has seen it or after.  What tasks run next, what gets lost, when a job ends or
a reboot fails, and what the head does with the node meanwhile are labels of the steps.
-/
import Burla.Assign.Exchange
import Burla.Lib.System

namespace Burla.Assign

variable {κ : Type*}

/-! ### The state of a node -/

/-- Where a request for a job is. -/
inductive Stage
  /-- On its way to the node. -/
  | inFlight
  /-- Lost on its way. -/
  | dropped
  /-- The node is RUNNING for it and reads its body. -/
  | reading
  /-- Packages are installed and the function is loaded. -/
  | installing
  /-- No worker fits: `execute` waits for the push of `on_job_start`. -/
  | refusing
  /-- The client has gone: `handle_errors` waits for the push of `on_job_start`. -/
  | aborting
  /-- The refusal is pushed. -/
  | releasing
  | answered (status : ℕ)
  deriving DecidableEq

/-- Not yet known whether the node takes the job. -/
def Stage.undecided : Stage → Bool
  | .reading | .installing | .refusing => true
  | _ => false

/-- The node is at work on the request. -/
def Stage.inProgress : Stage → Bool
  | .reading | .installing | .refusing | .aborting | .releasing => true
  | _ => false

/-- A request `POST /jobs/{job}`. -/
structure Post (κ : Type*) where
  job : κ
  stage : Stage
  deriving DecidableEq

/-- What has become of the push of `on_job_start`. -/
inductive StartPush
  | pending
  | answered
  /-- Failed, but the head has it. -/
  | failed
  /-- Failed before the head had it. -/
  | lost
  deriving DecidableEq

/-- How far `reboot_containers` is. -/
inductive Reboot
  /-- The first push is out. -/
  | telling
  | booting
  /-- The last push is out. -/
  | announcing
  deriving DecidableEq

/-- The push that holds the lock, with the status that it carries and the head's answer. -/
structure Flight (κ : Type*) where
  push : Push κ
  status : Option NodeStatus
  view : Option (View κ)
  deriving DecidableEq

/-- The node service, and the head's record of it.  `watcher` is the job that a watcher runs
for, `rebootsDue` and `resetsDue` count the tasks that are about to reboot the containers and
to reset the node again. -/
structure Node (κ : Type*) where
  running : Bool
  booting : Bool
  failed : Bool
  shuttingDown : Bool
  currentJob : Option κ
  reservedForJob : Option κ
  reportedStatus : NodeStatus
  jobWatcherTask : Bool
  onJobStartTask : Option ℕ
  watcher : Option κ
  posts : ℕ → Option (Post κ)
  startPush : ℕ → StartPush
  queue : List (Push κ)
  flight : Option (Flight κ)
  reboot : Option Reboot
  rebootsDue : ℕ
  resetsDue : ℕ
  head : NodeRecord κ

namespace Node

/-- A push takes its place in the queue. -/
def enqueue (s : Node κ) (p : Push κ) : Node κ :=
  { s with queue := s.queue ++ [p] }

def setStage (s : Node κ) (i : ℕ) (job : κ) (stage : Stage) : Node κ :=
  { s with posts := Function.update s.posts i (some ⟨job, stage⟩) }

/-- `on_job_start` -/
def onJobStart (s : Node κ) (i : ℕ) (job : κ) : Node κ :=
  { s with
    running := true
    currentJob := some job
    reservedForJob := none
    reportedStatus := .running
    onJobStartTask := some i
    startPush := Function.update s.startPush i .pending }.enqueue (.start i job)

/-- `await SELF["on_job_start_task"]`: nothing while the push is out, `false` when it raises. -/
def awaitJobStart (s : Node κ) : Option Bool :=
  match s.onJobStartTask with
  | none => some false
  | some i =>
    match s.startPush i with
    | .pending => none
    | .answered => some true
    | .failed | .lost => some false

/-- `REINIT_SELF`. The requests, the pushes and the tasks that are under way go on. -/
def reinitSelf (s : Node κ) : Node κ :=
  { s with
    running := false
    booting := false
    failed := false
    shuttingDown := false
    currentJob := none
    reservedForJob := none
    reportedStatus := .booting
    jobWatcherTask := false
    onJobStartTask := none }

/-- `reinit_node` -/
def reinitNode (s : Node κ) (last : Bool) : Node κ :=
  { s.reinitSelf with watcher := none, reportedStatus := .ready }.enqueue (.ended last)

/-- `reboot_containers`, up to its first push. -/
def rebootContainers (s : Node κ) : Node κ :=
  { s with watcher := none, reportedStatus := .booting, reboot := some .telling }.enqueue .boot

/-- `reboot_containers` once the head has answered, unless the head has given the node up. -/
def bootContainers (s : Node κ) (view : View κ) : Node κ :=
  if view.status.terminal = true then { s with reboot := none }
  else
    { s.reinitSelf with
      booting := true
      reservedForJob := s.reservedForJob
      reboot := some .booting }

/-- The end of `reboot_containers` when anything in it raises, or when `reset_workers` has
waited too long for it. -/
def failBoot (s : Node κ) (timeout : Bool) : Node κ :=
  { s with
    failed := s.failed || !timeout
    reportedStatus := .failed
    reboot := none }.enqueue .failed

/-- The error handler's answer to an exception, and the reboot that follows it. -/
def serverError (s : Node κ) (i : ℕ) (job : κ) : Node κ :=
  { s.setStage i job (.answered 500) with rebootsDue := s.rebootsDue + 1 }

/-- The end of a job, where `reset_workers` reboots or resets the node. -/
def resetWorkers (s : Node κ) (reboot last : Bool) : Option (Node κ) :=
  if reboot = true then
    if s.reboot = none then some s.rebootContainers else none
  else some (s.reinitNode last)

/-- The push of `on_job_start` comes to its end. -/
def finishStart (s : Node κ) (i : ℕ) (result : StartPush) : Node κ :=
  if s.startPush i = .pending then { s with startPush := Function.update s.startPush i result }
  else s

/-- `execute` returns its refusal, or the error handler an error. -/
def finishRefusal (s : Node κ) (i status : ℕ) : Node κ :=
  match s.posts i with
  | some ⟨job, .releasing⟩ => s.setStage i job (.answered status)
  | _ => s

/-- What the sender of a push does with the answer. -/
def answered (s : Node κ) (p : Push κ) (view : View κ) : Node κ :=
  match p with
  | .loop =>
    { s with
      reservedForJob := if s.currentJob.isNone then view.reservedForJob else s.reservedForJob
      shuttingDown := s.shuttingDown || view.status = .deleted }
  | .start i _ => s.finishStart i .answered
  | .refused i => s.finishRefusal i 409
  | .boot => s.bootContainers view
  | .booted => if s.reboot = some .announcing then { s with reboot := none } else s
  | .aborted | .ended _ | .reservation | .failed | .deleted => s

/-- What the sender of a push does when it fails; `seen` says whether the head has it. -/
def pushFailed (s : Node κ) (p : Push κ) (seen : Bool) : Node κ :=
  match p with
  | .start i _ => s.finishStart i (if seen = true then .failed else .lost)
  | .refused i => { s with rebootsDue := s.rebootsDue + 1 }.finishRefusal i 500
  | .ended last => if last = true then s else { s with resetsDue := s.resetsDue + 1 }
  | .boot | .booted => s.failBoot false
  | .loop | .aborted | .reservation | .failed | .deleted => s

end Node

/-! ### Steps -/

inductive NodeEvent (κ : Type*)
  /-- A client sends a request. -/
  | post (i : ℕ) (job : κ)
  /-- A request is lost. -/
  | drop (i : ℕ)
  /-- `validate_requests` turns a request away. -/
  | unauthorized (i : ℕ) (status : ℕ)
  /-- A request reaches the middleware. -/
  | arrive (i : ℕ)
  /-- The client goes while the body is read. -/
  | disconnect (i : ℕ)
  /-- The body has been read; `fits` says whether there are workers for it. -/
  | readBody (i : ℕ) (fits : Bool)
  /-- `execute` has waited for `on_job_start`, to refuse. -/
  | refuse (i : ℕ)
  /-- `handle_errors` has waited for `on_job_start`, to take the assignment back. -/
  | abort (i : ℕ)
  /-- `execute` raises. -/
  | fail (i : ℕ)
  /-- `execute` starts the job's watcher and returns 200. -/
  | accept (i : ℕ)
  /-- The job's watcher comes to its end. -/
  | jobEnds (reboot crashed : Bool)
  /-- The node is reset once more, after a failure. -/
  | resetAgain (reboot : Bool)
  /-- The reboot after an error begins. -/
  | reboot
  /-- The containers have booted. -/
  | booted
  /-- They do not boot; `timeout` when `reset_workers` no longer waits. -/
  | bootFails (timeout : Bool)
  /-- `_state_push_loop` comes round. -/
  | loop
  /-- `watch_reservation` gives the reservation up. -/
  | reservationEnds
  /-- The node begins to shut down. -/
  | shutDown (report : Bool)
  /-- The next push takes the lock and is sent. -/
  | send
  /-- The push reaches the head. -/
  | reach (jobRunning : Bool)
  /-- Its sender reads the answer. -/
  | answer
  /-- The push fails. -/
  | lose
  /-- The head reserves the node for a job. -/
  | admitJob (job : κ)
  /-- The job that the node is reserved for is over at the head. -/
  | release
  /-- The head gives the node up: it is failed, deleted or reaped. -/
  | terminate (status : NodeStatus)

def nodeStep [DecidableEq κ] (s : Node κ) : NodeEvent κ → Option (Node κ)
  | .post i job =>
    match s.posts i with
    | none => some (s.setStage i job .inFlight)
    | some _ => none
  | .drop i =>
    match s.posts i with
    | some ⟨job, .inFlight⟩ => some (s.setStage i job .dropped)
    | _ => none
  | .unauthorized i status =>
    match s.posts i with
    | some ⟨job, .inFlight⟩ =>
      if status = 401 ∨ status = 503 then some (s.setStage i job (.answered status)) else none
    | _ => none
  | .arrive i =>
    match s.posts i with
    | some ⟨job, .inFlight⟩ =>
      if s.shuttingDown = true then some (s.setStage i job (.answered 503))
      else if s.running = true ∨ s.booting = true then some (s.setStage i job (.answered 409))
      else some ((s.onJobStart i job).setStage i job .reading)
    | _ => none
  | .disconnect i =>
    match s.posts i with
    | some ⟨job, .reading⟩ =>
      if s.currentJob = some job ∧ s.jobWatcherTask = false then some (s.setStage i job .aborting)
      else some (s.setStage i job (.answered 499))
    | _ => none
  | .readBody i fits =>
    match s.posts i with
    | some ⟨job, .reading⟩ =>
      some (s.setStage i job (if fits = true then .installing else .refusing))
    | _ => none
  | .refuse i =>
    match s.posts i with
    | some ⟨job, .refusing⟩ =>
      match s.awaitJobStart with
      | none => none
      | some false => some (s.serverError i job)
      | some true =>
        some (({ s with running := false, currentJob := none, reportedStatus := .ready }.setStage
          i job .releasing).enqueue (.refused i))
    | _ => none
  | .abort i =>
    match s.posts i with
    | some ⟨job, .aborting⟩ =>
      match s.awaitJobStart with
      | none => none
      | some false => some (s.setStage i job (.answered 500))
      | some true =>
        some (({ s with running := false, currentJob := none, reportedStatus := .ready }.setStage
          i job (.answered 499)).enqueue .aborted)
    | _ => none
  | .fail i =>
    match s.posts i with
    | some ⟨job, .reading⟩ | some ⟨job, .installing⟩ => some (s.serverError i job)
    | _ => none
  | .accept i =>
    match s.posts i with
    | some ⟨job, .installing⟩ =>
      some { s.setStage i job (.answered 200) with jobWatcherTask := true, watcher := some job }
    | _ => none
  | .jobEnds reboot crashed =>
    match s.watcher with
    | some _ => s.resetWorkers reboot crashed
    | none => none
  | .resetAgain reboot =>
    if 0 < s.resetsDue then { s with resetsDue := s.resetsDue - 1 }.resetWorkers reboot true
    else none
  | .reboot =>
    if 0 < s.rebootsDue ∧ s.reboot = none then
      some ({ s with rebootsDue := s.rebootsDue - 1 }.rebootContainers)
    else none
  | .booted =>
    if s.reboot = some .booting then
      some ({ s with
        booting := false
        reportedStatus := .ready
        reboot := some .announcing }.enqueue .booted)
    else none
  | .bootFails timeout =>
    if s.reboot = some .booting then some (s.failBoot timeout) else none
  | .loop => if s.shuttingDown = true then none else some (s.enqueue .loop)
  | .reservationEnds =>
    match s.reservedForJob with
    | some _ => some ({ s with reservedForJob := none }.enqueue .reservation)
    | none => none
  | .shutDown report =>
    if report = true ∧ s.failed = false then
      some ({ s with shuttingDown := true, reportedStatus := .deleted }.enqueue .deleted)
    else some { s with shuttingDown := true }
  | .send =>
    match s.flight, s.queue with
    | none, p :: queue =>
      some { s with queue, flight := some ⟨p, p.status s.reportedStatus, none⟩ }
    | _, _ => none
  | .reach jobRunning =>
    match s.flight with
    | some ⟨p, status, none⟩ =>
      let head := s.head.pushNodeState status p jobRunning
      some { s with head, flight := some ⟨p, status, some head.view⟩ }
    | _ => none
  | .answer =>
    match s.flight with
    | some ⟨p, _, some view⟩ => some ({ s with flight := none }.answered p view)
    | _ => none
  | .lose =>
    match s.flight with
    | some f => some ({ s with flight := none }.pushFailed f.push f.view.isSome)
    | none => none
  | .admitJob job =>
    if s.head.status = .ready ∧ s.head.currentJob = none ∧ s.head.reservedForJob = none ∧
        s.head.jobScopeId = none then
      some { s with head := { s.head with reservedForJob := some job } }
    else none
  | .release => some { s with head := { s.head with reservedForJob := none } }
  | .terminate status =>
    if status.terminal = true then
      some { s with head := { s.head with status := s.head.status.update status } }
    else none

/-- A node that boots its containers for the first time: the head has registered it, with the
job that it is booted for, and knows that it boots. -/
structure Node.Fresh (s : Node κ) : Prop where
  booting : s.booting = true
  currentJob : s.currentJob = none
  reportedStatus : s.reportedStatus = .booting
  watcher : s.watcher = none
  posts : ∀ i, s.posts i = none
  queue : s.queue = []
  flight : s.flight = none
  reboot : s.reboot = some .booting
  headStatus : s.head.status = .booting
  headCurrentJob : s.head.currentJob = none
  headReservedForJob : s.head.reservedForJob = s.reservedForJob

/-- Such a node, booted for the job `reservedForJob` if any. -/
def Node.boots (reservedForJob : Option κ) : Node κ where
  running := false
  booting := true
  failed := false
  shuttingDown := false
  currentJob := none
  reservedForJob := reservedForJob
  reportedStatus := .booting
  jobWatcherTask := false
  onJobStartTask := none
  watcher := none
  posts _ := none
  startPush _ := .pending
  queue := []
  flight := none
  reboot := some .booting
  rebootsDue := 0
  resetsDue := 0
  head := ⟨.booting, none, reservedForJob, reservedForJob⟩

lemma Node.fresh_boots (reservedForJob : Option κ) : (Node.boots reservedForJob).Fresh :=
  ⟨rfl, rfl, rfl, rfl, fun _ => rfl, rfl, rfl, rfl, rfl, rfl, rfl⟩

/-- The node service, with the head's record of it. -/
def node (κ : Type*) [DecidableEq κ] : System (Node κ) (NodeEvent κ) where
  init := Node.Fresh
  step := nodeStep

end Burla.Assign
