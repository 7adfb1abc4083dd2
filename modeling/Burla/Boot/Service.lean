/-
How a node service boots, fails, and asks for the deletion of its VM (node_service, outside local
development, with `INACTIVITY_SHUTDOWN_TIME_SEC` set).

The tasks are the runs of `reboot_containers`, the requests' handlers, the watchers of jobs with
`reset_workers`, the watches of reservations, and the loops that `lifespan` starts.  A segment is
what one of them does between two of its awaits.  Modelled is what decides whether the VM is
deleted: the status that the node reports, the flags, the job and the reservation.  The queues and
the workers are not.
-/
import Burla.Assign.Exchange
import Burla.Lib.EventLoop

namespace Burla.Boot

open Burla.Assign (NodeStatus)

variable {κ : Type*}

/-! ### Data -/

/-- `SELF`. -/
structure Self (κ : Type*) where
  currentJob : Option κ
  /-- Whether `job_watcher_task` is not None. -/
  jobWatcherTask : Bool
  booting : Bool
  running : Bool
  failed : Bool
  rebootContainersAfterJob : Bool
  reservedForJob : Option κ
  /-- The number of the watch in `watch_reservation_task`. -/
  watchReservationTask : Option ℕ
  shuttingDown : Bool
  reportedStatus : NodeStatus
  /-- Whether `host` is not None. -/
  host : Bool
  deriving DecidableEq

/-- `REINIT_SELF` -/
def reinitSelf : Self κ where
  currentJob := none
  jobWatcherTask := false
  booting := false
  running := false
  failed := false
  rebootContainersAfterJob := false
  reservedForJob := none
  watchReservationTask := none
  shuttingDown := false
  reportedStatus := .booting
  host := false

/-- What the tasks share. -/
structure Vm (κ : Type*) where
  self : Self κ
  /-- Whether the server takes requests. -/
  serving : Bool
  /-- How many watches of reservations were started. -/
  watches : ℕ
  /-- Whether the deletion of the VM has been requested. -/
  deleteRequested : Bool
  deriving DecidableEq

/-- What the head answers to a push. -/
structure View (κ : Type*) where
  status : NodeStatus
  /-- Whether `host` is not None. -/
  host : Bool
  reservedForJob : Option κ

/-! ### Tasks -/

/-- Who has called `reboot_containers`. -/
inductive Caller
  /-- `lifespan` -/
  | startup
  /-- `POST /reboot` -/
  | endpoint
  /-- A request that was answered with 500. -/
  | background
  /-- `reset_workers`; whether it was called after the watcher had crashed. -/
  | jobEnd (crashed : Bool)
  deriving DecidableEq

inductive RebootStage
  /-- At the endpoint. -/
  | arrived
  | scheduled
  /-- In the first push. -/
  | asking
  /-- `SELF` is new; up to the new workers. -/
  | preparing
  /-- In a push that asks for `host`. -/
  | hosting
  | sleeping
  /-- In the push of READY. -/
  | reporting
  /-- In the last log. -/
  | finishing
  /-- In the handler of an exception, in the push of FAILED. -/
  | marking
  | logging
  /-- In `request_self_delete`. -/
  | deleting
  deriving DecidableEq

/-- Where `execute` stands, from the middleware on. -/
inductive ExecuteStage
  | posted
  /-- `on_job_start` has run. -/
  | started
  /-- No worker fits; waiting for `on_job_start_task`. -/
  | refusing
  /-- The client is gone; waiting for `on_job_start_task`. -/
  | aborting
  /-- The assignment is taken back, and the head is told; whether an error there is answered. -/
  | takenBack (answered : Bool)
  deriving DecidableEq

inductive WatcherStage
  | watching
  /-- In `reset_workers`; whether the watcher has crashed before. -/
  | resetting (crashed : Bool)
  /-- The workers are reset. -/
  | cleaning (crashed : Bool)
  /-- In `reinit_node`'s push. -/
  | reporting (crashed : Bool)
  /-- The reboot has raised or timed out; in the push of FAILED. -/
  | givingUp (crashed : Bool)
  deriving DecidableEq

inductive PushStage
  | sleeping
  | pushing
  /-- In `_shutdown_self`. -/
  | shutting
  deriving DecidableEq

inductive WatchdogStage
  | waiting
  /-- On the way to `_shutdown_self`, and in it. -/
  | shutting
  deriving DecidableEq

inductive Task (κ : Type*)
  | reboot (caller : Caller) (stage : RebootStage)
  | watchReservation (n : ℕ) (job : κ)
  | execute (job : κ) (stage : ExecuteStage)
  | jobWatcher (stage : WatcherStage)
  /-- Another request. -/
  | request
  /-- `POST /shutdown`; whether `SHUTTING_DOWN` is set by now. -/
  | shutdown (closing : Bool)
  /-- `_state_push_loop` -/
  | pushLoop (stage : PushStage)
  /-- `shutdown_if_idle_for_too_long` -/
  | idleWatchdog (stage : WatchdogStage)
  /-- `shutdown_if_never_ready` -/
  | neverReady (stage : WatchdogStage)
  deriving DecidableEq

/-- What a task finds when it moves. -/
inductive Choice (κ : Type*)
  | go
  | raises
  /-- The client of the request is gone, and the server cancels the task. -/
  | cancelled
  | answered (view : View κ)
  /-- A deadline has passed. -/
  | expires
  /-- The node has not been used for a while; whether the head is gone. -/
  | idle (headGone : Bool)
  /-- `ClientDisconnect` -/
  | disconnects
  | refuses
  | begins
  /-- The job has lost a worker. -/
  | loses
  /-- The stop event is seen. -/
  | stops
  | jobOver

/-- A segment's outcome. -/
abbrev Outturn (κ : Type*) := Yielded (Vm κ) (Task κ)

namespace Task

/-- The watch of a reservation with a number. -/
def watchOf (n : Option ℕ) : Task κ → Bool
  | watchReservation m _ => n = some m
  | _ => false

/-- The tasks that come from outside. -/
def outside : Task κ → Bool
  | .execute _ .posted | .request | .shutdown false | .reboot .endpoint .arrived => true
  | _ => false

end Task

/-! ### Segments -/

namespace Vm

variable (s : Vm κ)

/-- The task is over. -/
def done : Outturn κ := ⟨s, [], fun _ => false⟩

/-- The task goes on. -/
def next (t : Task κ) : Outturn κ := ⟨s, [t], fun _ => false⟩

/-- The request is answered with 500: `handle_errors` adds a reboot. -/
def error : Outturn κ := s.next (.reboot .background .scheduled)

def setSelf (f : Self κ → Self κ) : Vm κ := { s with self := f s.self }

def report (status : NodeStatus) : Vm κ :=
  s.setSelf fun self => { self with reportedStatus := status }

/-- A watch of the reservation, if there is one. -/
def watch (reservation : Option κ) (cancels : Task κ → Bool) : Outturn κ where
  shared :=
    { s with
      self := { s.self with watchReservationTask := reservation.map fun _ => s.watches }
      watches := s.watches + 1 }
  tasks := reservation.toList.map (.watchReservation s.watches)
  cancels := cancels

/-! `reboot_containers` -/

/-- `reboot_containers` returns. -/
def returned : Caller → Outturn κ
  | .startup => { s with serving := true }.done
  | .endpoint | .background | .jobEnd _ => s.done

/-- `reset_workers` handles that the reboot has raised or timed out. -/
def giveUp (crashed : Bool) : Outturn κ := (s.report .failed).next (.jobWatcher (.givingUp crashed))

/-- `reboot_containers` raises.  The server does not start then. -/
def raised : Caller → Outturn κ
  | .startup => ⟨s, [], fun _ => true⟩
  | .endpoint => s.error
  | .background => s.done
  | .jobEnd crashed => s.giveUp crashed

/-- `SELF` while the containers boot. -/
def reinit : Vm κ := s.setSelf fun self =>
  { reinitSelf with booting := true, reservedForJob := self.reservedForJob }

/-- `while SELF["host"] is None` -/
def awaitHost (caller : Caller) : Outturn κ :=
  if s.self.host = true then (s.report .ready).next (.reboot caller .reporting)
  else s.next (.reboot caller .hosting)

/-- The handler of an exception begins. -/
def fail (caller : Caller) : Outturn κ :=
  (s.setSelf fun self => { self with failed := true, reportedStatus := .failed }).next
    (.reboot caller .marking)

def rebootGo (caller : Caller) : RebootStage → Option (Outturn κ)
  | .arrived =>
    if s.self.booting = true then some s.done
    else some ((s.report .booting).next (.reboot caller .asking))
  | .scheduled => some ((s.report .booting).next (.reboot caller .asking))
  | .preparing =>
    some ((s.setSelf fun self => { self with booting := false }).awaitHost caller)
  | .sleeping => some (s.awaitHost caller)
  | .finishing => some (s.returned caller)
  | .logging => some (s.next (.reboot caller .deleting))
  | .deleting => some ({ s with deleteRequested := true }.raised caller)
  | .asking | .hosting | .reporting | .marking => none

def rebootAnswered (caller : Caller) (view : View κ) : RebootStage → Option (Outturn κ)
  | .asking =>
    if view.status.terminal = true then some (s.returned caller)
    else some (s.reinit.next (.reboot caller .preparing))
  | .hosting =>
    let t := s.setSelf fun self => { self with host := view.host }
    if view.status.terminal = true then some (t.returned caller)
    else if view.host = true then some ((t.report .ready).next (.reboot caller .reporting))
    else some (t.next (.reboot caller .sleeping))
  | .reporting =>
    match s.self.reservedForJob with
    | none => some (s.next (.reboot caller .finishing))
    | some job =>
      let y := s.watch (some job) fun _ => false
      some { y with tasks := .reboot caller .finishing :: y.tasks }
  | .marking => some (s.next (.reboot caller .logging))
  | .arrived | .scheduled | .preparing | .sleeping | .finishing | .logging | .deleting => none

def rebootRaises (caller : Caller) : RebootStage → Option (Outturn κ)
  | .asking | .preparing | .hosting | .reporting => some (s.fail caller)
  | .marking | .logging | .deleting => some (s.raised caller)
  | .arrived | .scheduled | .sleeping | .finishing => none

/-- `wait_for` gives up on the reboot that it has called. -/
def rebootExpires : Caller → RebootStage → Option (Outturn κ)
  | .jobEnd _, .arrived | .jobEnd _, .scheduled => none
  | .jobEnd crashed, _ => some (s.giveUp crashed)
  | .startup, _ | .endpoint, _ | .background, _ => none

/-- `reboot_containers`, with its endpoint -/
def rebootSegment (caller : Caller) (stage : RebootStage) : Choice κ → Option (Outturn κ)
  | .go => s.rebootGo caller stage
  | .answered view => s.rebootAnswered caller view stage
  | .raises => s.rebootRaises caller stage
  | .expires => s.rebootExpires caller stage
  | .cancelled => if caller = .endpoint ∨ caller = .background then some s.done else none
  | _ => none

/-! Jobs -/

/-- The assignment is taken back. -/
def takeBack : Vm κ := s.setSelf fun self =>
  { self with running := false, currentJob := none, reportedStatus := .ready }

/-- `on_job_start`, which cancels the watch of the reservation. -/
def onJobStart (job : κ) : Outturn κ where
  shared := s.setSelf fun self =>
    { self with
      running := true, currentJob := some job, reservedForJob := none, reportedStatus := .running }
  tasks := [.execute job .started]
  cancels := Task.watchOf s.self.watchReservationTask

/-- `execute`, from the middleware on -/
def executeSegment [DecidableEq κ] (job : κ) : ExecuteStage → Choice κ → Option (Outturn κ)
  | .posted, .go =>
    if s.self.shuttingDown = true then some s.done
    else if s.self.running = true ∨ s.self.booting = true then some s.done
    else some (s.onJobStart job)
  | .started, .refuses => some (s.next (.execute job .refusing))
  | .started, .disconnects =>
    if s.self.currentJob = some job ∧ s.self.jobWatcherTask = false then
      some (s.next (.execute job .aborting))
    else some s.done
  | .started, .begins =>
    some ((s.setSelf fun self =>
      { self with rebootContainersAfterJob := false, jobWatcherTask := true }).next
        (.jobWatcher .watching))
  | .started, .raises => some s.error
  | .refusing, .answered _ => some (s.takeBack.next (.execute job (.takenBack true)))
  | .refusing, .raises => some s.error
  | .aborting, .answered _ => some (s.takeBack.next (.execute job (.takenBack false)))
  | .aborting, .raises => some s.done
  | .takenBack _, .answered _ => some s.done
  | .takenBack answered, .raises => some (if answered = true then s.error else s.done)
  | _, _ => none

/-- `reset_workers` raises: `job_watcher_logged` calls it once more. -/
def resetRaised (crashed : Bool) : Outturn κ :=
  if crashed = true then s.done else s.next (.jobWatcher (.resetting true))

/-- `reinit_node` -/
def reinitNode : Vm κ := s.setSelf fun _ => { reinitSelf with reportedStatus := .ready }

/-- `_job_watcher`, `job_watcher_logged` and `reset_workers` -/
def watcherSegment : WatcherStage → Choice κ → Option (Outturn κ)
  | .watching, .loses =>
    some ((s.setSelf fun self => { self with rebootContainersAfterJob := true }).next
      (.jobWatcher .watching))
  | .watching, .stops => some s.done
  | .watching, .jobOver => some (s.next (.jobWatcher (.resetting false)))
  | .watching, .raises => some (s.next (.jobWatcher (.resetting true)))
  | .resetting crashed, .go =>
    some (s.next
      (if s.self.rebootContainersAfterJob = true then .reboot (.jobEnd crashed) .scheduled
        else .jobWatcher (.cleaning crashed)))
  | .resetting crashed, .raises => some (s.resetRaised crashed)
  | .cleaning crashed, .go => some (s.reinitNode.next (.jobWatcher (.reporting crashed)))
  | .cleaning crashed, .raises =>
    if s.self.shuttingDown = true ∨ s.self.failed = true then some s.done
    else some (s.next (.reboot (.jobEnd crashed) .scheduled))
  | .reporting _, .answered _ | .givingUp _, .answered _ => some s.done
  | .reporting crashed, .raises | .givingUp crashed, .raises => some (s.resetRaised crashed)
  | _, _ => none

/-! The loops -/

/-- `watch_reservation` ends by itself. -/
def reservationOver [DecidableEq κ] (job : κ) : Vm κ :=
  if s.self.reservedForJob = some job then
    s.setSelf fun self => { self with reservedForJob := none }
  else s

/-- The reservation is as the head has it. -/
def syncReservation [DecidableEq κ] (reservation : Option κ) : Outturn κ :=
  if s.self.currentJob = none ∧ reservation ≠ s.self.reservedForJob then
    (s.setSelf fun self => { self with reservedForJob := reservation }).watch reservation
      (Task.watchOf s.self.watchReservationTask)
  else s.done

/-- `_state_push_loop` after a push -/
def pushAnswered [DecidableEq κ] (view : View κ) : Outturn κ :=
  let y := (s.setSelf fun self => { self with host := view.host }).syncReservation
    view.reservedForJob
  if view.status = .deleted then
    { y with
      shared := y.shared.setSelf fun self => { self with shuttingDown := true }
      tasks := .pushLoop .shutting :: y.tasks }
  else { y with tasks := .pushLoop .sleeping :: y.tasks }

/-- `_state_push_loop` -/
def pushSegment [DecidableEq κ] : PushStage → Choice κ → Option (Outturn κ)
  | .sleeping, .go =>
    some (s.next (.pushLoop (if s.self.shuttingDown = true then .sleeping else .pushing)))
  | .pushing, .answered view => some (s.pushAnswered view)
  | .pushing, .raises => some (s.next (.pushLoop .sleeping))
  -- the push has failed as well, and the head counts as gone by now
  | .pushing, .expires =>
    some ((s.setSelf fun self => { self with shuttingDown := true }).next (.pushLoop .shutting))
  | .shutting, .go => some ({ s with deleteRequested := true }.next (.pushLoop .sleeping))
  | _, _ => none

/-- A FAILED node keeps its status. -/
def reportDeleted : Vm κ := if s.self.failed = true then s else s.report .deleted

/-- A watchdog shuts the node down. -/
def shutDown : Vm κ := (s.setSelf fun self => { self with shuttingDown := true }).reportDeleted

/-- `shutdown_if_idle_for_too_long` -/
def idleSegment : WatchdogStage → Choice κ → Option (Outturn κ)
  | .waiting, .idle headGone =>
    if (headGone = true ∨ s.self.currentJob = none ∧ s.self.reservedForJob = none) ∧
        s.self.booting = false then
      some (s.shutDown.next (.idleWatchdog .shutting))
    else none
  | .shutting, .go => some { s with deleteRequested := true }.done
  | _, _ => none

/-- `shutdown_if_never_ready` -/
def neverReadySegment : WatchdogStage → Choice κ → Option (Outturn κ)
  | .waiting, .go =>
    if s.self.reportedStatus = .ready ∨ s.self.reportedStatus = .running ∨
        s.self.shuttingDown = true then some s.done
    else some (s.next (.neverReady .waiting))
  | .waiting, .expires => some (s.shutDown.next (.neverReady .shutting))
  | .shutting, .go => some { s with deleteRequested := true }.done
  | _, _ => none

/-- `shutdown_node` -/
def shutdownSegment (closing : Bool) : Outturn κ :=
  if closing = true then s.reportDeleted.done
  else (s.setSelf fun self => { self with shuttingDown := true }).next (.shutdown true)

/-- What a task does between two of its awaits. -/
def segment [DecidableEq κ] : Task κ → Choice κ → Option (Outturn κ)
  | .reboot caller stage, a => s.rebootSegment caller stage a
  | .watchReservation _ job, .go => some (s.reservationOver job).done
  | .execute job stage, a => s.executeSegment job stage a
  | .jobWatcher stage, a => s.watcherSegment stage a
  | .request, .go => some s.done
  | .request, .raises => some s.error
  | .shutdown closing, .go => some (s.shutdownSegment closing)
  | .pushLoop stage, a => s.pushSegment stage a
  | .idleWatchdog stage, a => s.idleSegment stage a
  | .neverReady stage, a => s.neverReadySegment stage a
  | _, _ => none

end Vm

/-! ### The system -/

/-- A node service that has just been started, with `RESERVED_FOR_JOB`. -/
structure Started (s : Vm κ) (tasks : List (Task κ)) : Prop where
  self : ∃ reservedForJob, s.self = { reinitSelf with reservedForJob }
  serving : s.serving = false
  watches : s.watches = 0
  deleteRequested : s.deleteRequested = false
  tasks : tasks = [.idleWatchdog .waiting, .neverReady .waiting, .pushLoop .sleeping,
    .reboot .startup .scheduled]

def nodeService (κ : Type*) [DecidableEq κ] : EventLoop (Vm κ) (Task κ) (Choice κ) where
  init := Started
  arrives s t := s.serving && t.outside
  segment s t a := s.segment t a

end Burla.Boot
