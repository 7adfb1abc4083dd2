/-
The worker containers of a node, and the runs of `reboot_containers` that boot them (node_service).

Every run puts a new state into `SELF`, kills the containers of all the workers that it finds, and
boots its own workers.  A segment is what a run, or the boot of a worker, does between two of its
awaits; what the container runtime does in between is part of the segment.  The runtime itself does
not fail: a container runs from its start until it is killed, and the boot of a worker ends with a
connection unless its container is gone.

The workers are numbered as their `WorkerClient`s are made; a container has the number of its
worker.  The containers that run when the service starts are those of a service before.
-/
import Burla.Boot.Service

namespace Burla.Boot.Containers

open Burla.Assign (NodeStatus)

variable {ι : Type*}

/-! ### Data -/

/-- What the runs share. -/
structure Node (ι : Type*) where
  currentContainerConfig : List ι
  workers : List ℕ
  booting : Bool
  /-- Whether `host` is not None. -/
  host : Bool
  reportedStatus : NodeStatus
  /-- Whether the server takes requests. -/
  serving : Bool
  /-- The images of the workers made so far. -/
  made : List ι
  /-- The workers whose containers run. -/
  running : List ℕ
  /-- The workers that have been connected to. -/
  connected : List ℕ
  deriving DecidableEq

/-- Where a run of `reboot_containers` stands. -/
inductive Stage (ι : Type*)
  /-- At the endpoint. -/
  | arrived
  | scheduled
  /-- In the first push. -/
  | asking
  /-- `SELF` is new; in `refresh_authorized_users`. -/
  | refreshing
  /-- In `docker.containers.list`. -/
  | listing
  /-- The containers that it has found and not killed yet. -/
  | killing (left : List ℕ)
  /-- The images that are still to be pulled, and the workers made. -/
  | pulling (images : List ι) (workers : List ℕ)
  /-- The workers whose containers are being started, those that are being connected to, and those
  that wait for the first one. -/
  | booting (workers starting connecting later : List ℕ)
  /-- In the calibration of the swap. -/
  | calibrating
  /-- In a push that asks for `host`. -/
  | hosting
  | sleeping
  /-- In the push of READY. -/
  | reporting
  /-- In the last log. -/
  | finishing
  /-- In the handler of an exception, in the push of FAILED. -/
  | marking
  | logging
  /-- In `request_self_delete`. -/
  | deleting
  deriving DecidableEq

inductive Task (ι : Type*)
  | reboot (caller : Caller) (newContainerConfig : List ι) (stage : Stage ι)
  /-- A `boot` that a failed `gather` has left; whether its container has been started. -/
  | boot (w : ℕ) (started : Bool)
  /-- `_state_push_loop`, in a push. -/
  | pushLoop
  deriving DecidableEq

/-- What a task finds when it moves. -/
inductive Choice
  | go
  | raises
  /-- The client of the request is gone, and the server cancels the run. -/
  | cancelled
  /-- `wait_for` gives up. -/
  | expires
  /-- The head's answer: whether its status is DELETED or FAILED, and whether it has a `host`. -/
  | answered (terminal host : Bool)
  /-- The boot of a worker moves. -/
  | boots (w : ℕ)

/-- A segment's outcome. -/
abbrev Outturn (ι : Type*) := Yielded (Node ι) (Task ι)

/-- The runs that come from outside: at the endpoint, of a request that was answered with 500, and
at the end of a job. -/
def Task.outside : Task ι → Bool
  | .reboot .endpoint _ .arrived | .reboot .background [] .scheduled
  | .reboot (.jobEnd _) [] .scheduled => true
  | _ => false

/-! ### Segments -/

namespace Node

variable (s : Node ι)

/-- The task is over. -/
def done : Outturn ι := ⟨s, [], fun _ => false⟩

/-- The task goes on. -/
def next (t : Task ι) : Outturn ι := ⟨s, [t], fun _ => false⟩

def report (status : NodeStatus) : Node ι := { s with reportedStatus := status }

/-- `reboot_containers` returns. -/
def returned : Caller → Outturn ι
  | .startup => { s with serving := true }.done
  | .endpoint | .background | .jobEnd _ => s.done

/-- `reboot_containers` raises: the server does not start, `handle_errors` adds a reboot, or
`reset_workers` reports FAILED. -/
def raised : Caller → Outturn ι
  | .startup => ⟨s, [], fun _ => true⟩
  | .endpoint => s.next (.reboot .background [] .scheduled)
  | .background => s.done
  | .jobEnd _ => (s.report .failed).done

/-- `SELF` while the containers boot. -/
def reinit (newContainerConfig : List ι) : Node ι :=
  { s with
    currentContainerConfig :=
      match newContainerConfig with
      | [] => s.currentContainerConfig
      | _ :: _ => newContainerConfig
    workers := []
    booting := true
    host := false
    reportedStatus := .booting }

/-- `WorkerClient(image)`, `n` times -/
def makeWorkers (n : ℕ) (image : ι) : Node ι :=
  { s with made := s.made ++ List.replicate n image }

/-- The workers that are made next. -/
def newWorkers (n : ℕ) : List ℕ := List.range' s.made.length n

def start (w : ℕ) : Node ι := { s with running := w :: s.running }

def connect (w : ℕ) : Node ι := { s with connected := w :: s.connected }

def kill (w : ℕ) : Node ι := { s with running := s.running.filter fun v => v ≠ w }

section Reboot

variable (caller : Caller) (newContainerConfig : List ι)

/-- The run goes on. -/
def goOn (stage : Stage ι) : Outturn ι := s.next (.reboot caller newContainerConfig stage)

/-- The handler of an exception begins. -/
def fail : Outturn ι := (s.report .failed).goOn caller newContainerConfig .marking

/-- `while SELF["host"] is None` -/
def awaitHost : Outturn ι :=
  if s.host = true then (s.report .ready).goOn caller newContainerConfig .reporting
  else s.goOn caller newContainerConfig .hosting

/-- A worker's `boot` moves, of those that the run waits for. -/
def bootSegment (workers starting connecting later : List ℕ) (w : ℕ) : Option (Outturn ι) :=
  if w ∈ starting then
    some ((s.start w).goOn caller newContainerConfig
      (.booting workers (starting.erase w) (w :: connecting) later))
  else if w ∈ connecting then
    if w ∈ s.running then
      some ((s.connect w).goOn caller newContainerConfig
        (.booting workers starting (connecting.erase w) later))
    else
      -- the run fails, and the other boots go on by themselves
      some
        { s.fail caller newContainerConfig with
          tasks := .reboot caller newContainerConfig .marking ::
            (starting.map (.boot · false) ++ (connecting.erase w).map (.boot · true)) }
  else none

/-- The boots that the run has waited for have returned: it boots the others, or proves the
isolation of the workers, for which their processes have to be there. -/
def bootedSegment (workers later : List ℕ) : Outturn ι :=
  match later with
  | [] =>
    if ∀ w ∈ workers, w ∈ s.running then s.goOn caller newContainerConfig .calibrating
    else s.fail caller newContainerConfig
  | _ :: _ => s.goOn caller newContainerConfig (.booting workers later [] [])

/-- `SELF["workers"] = workers`, and the boot of the first one -/
def setWorkersSegment (workers : List ℕ) : Outturn ι :=
  let t := { s with workers }
  match workers with
  | [] => t.fail caller newContainerConfig
  | w :: later => t.goOn caller newContainerConfig (.booting workers [w] [] later)

/-- `reboot_containers`, with its endpoint; `n` is the number of workers for each image. -/
def stageSegment (n : ℕ) : Stage ι → Choice → Option (Outturn ι)
  | .arrived, .go =>
    if s.booting = true then some s.done
    else some ((s.report .booting).goOn caller newContainerConfig .asking)
  | .scheduled, .go => some ((s.report .booting).goOn caller newContainerConfig .asking)
  | .asking, .answered terminal _ =>
    if terminal = true then some (s.returned caller)
    else some ((s.reinit newContainerConfig).goOn caller newContainerConfig .refreshing)
  | .refreshing, .go => some (s.goOn caller newContainerConfig .listing)
  | .listing, .go => some (s.goOn caller newContainerConfig (.killing s.running))
  | .killing (w :: left), .go =>
    some ((s.kill w).goOn caller newContainerConfig (.killing left))
  | .killing [], .go =>
    some (s.goOn caller newContainerConfig (.pulling s.currentContainerConfig []))
  | .pulling (image :: images) workers, .go =>
    some ((s.makeWorkers n image).goOn caller newContainerConfig
      (.pulling images (workers ++ s.newWorkers n)))
  | .pulling [] workers, .go => some (s.setWorkersSegment caller newContainerConfig workers)
  | .booting workers starting connecting later, .boots w =>
    s.bootSegment caller newContainerConfig workers starting connecting later w
  | .booting workers [] [] later, .go =>
    some (s.bootedSegment caller newContainerConfig workers later)
  | .calibrating, .go =>
    some ({ s with booting := false }.awaitHost caller newContainerConfig)
  | .hosting, .answered terminal host =>
    let t := { s with host }
    if terminal = true then some (t.returned caller)
    else if host = true then
      some ((t.report .ready).goOn caller newContainerConfig .reporting)
    else some (t.goOn caller newContainerConfig .sleeping)
  | .sleeping, .go => some (s.awaitHost caller newContainerConfig)
  | .reporting, .answered _ _ => some (s.goOn caller newContainerConfig .finishing)
  | .finishing, .go => some (s.returned caller)
  | .marking, .answered _ _ => some (s.goOn caller newContainerConfig .logging)
  | .logging, .go => some (s.goOn caller newContainerConfig .deleting)
  | .deleting, .go => some (s.raised caller)
  | .asking, .raises | .refreshing, .raises | .booting _ [] [] [], .raises | .hosting, .raises
  | .reporting, .raises => some (s.fail caller newContainerConfig)
  | .marking, .raises | .logging, .raises | .deleting, .raises => some (s.raised caller)
  | _, _ => none

/-- `wait_for` gives up on the run that it has called. -/
def expireSegment : Caller → Stage ι → Option (Outturn ι)
  | .jobEnd _, .arrived | .jobEnd _, .scheduled => none
  | .jobEnd _, _ => some (s.report .failed).done
  | .startup, _ | .endpoint, _ | .background, _ => none

end Reboot

/-- What a task does between two of its awaits. -/
def segment (n : ℕ) : Task ι → Choice → Option (Outturn ι)
  | .reboot caller _ _, .cancelled =>
    if caller = .endpoint ∨ caller = .background then some s.done else none
  | .reboot caller _ stage, .expires => s.expireSegment caller stage
  | .reboot caller newContainerConfig stage, a =>
    s.stageSegment caller newContainerConfig n stage a
  | .boot w false, .go => some ((s.start w).next (.boot w true))
  | .boot w true, .go => some (if w ∈ s.running then s.connect w else s).done
  | .pushLoop, .answered _ host => some ({ s with host }.next .pushLoop)
  | _, _ => none

end Node

/-! ### The system -/

/-- A node service that has just been started, with the images of `CONTAINERS`. -/
structure Started (s : Node ι) (tasks : List (Task ι)) : Prop where
  workers : s.workers = []
  booting : s.booting = false
  reportedStatus : s.reportedStatus = .booting
  serving : s.serving = false
  running : ∀ w ∈ s.running, w < s.made.length
  connected : s.connected = []
  tasks : ∃ containers, tasks = [.pushLoop, .reboot .startup containers .scheduled]

/-- The node's containers; `n` is `INSTANCE_N_CPUS`, or `NUM_GPUS` where there are some. -/
def nodeContainers (ι : Type*) (n : ℕ) : EventLoop (Node ι) (Task ι) Choice where
  init := Started
  arrives s t := s.serving && t.outside
  segment s t a := s.segment n t a

end Burla.Boot.Containers
