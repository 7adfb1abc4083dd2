/-
A node and the head's row of it, as far as reservations go: `admit_job`, `update_job` and
`push_node_state` at the head (cluster_state.py, endpoints/nodes.py), and at the node
`on_job_start`, the ends of an assignment, `watch_reservation`, `reboot_containers` and
`_state_push_loop` (node_service).

Only the pushes say what the node has become of.  They are sent one at a time, and one that its
sender has given up on may be processed late, after others.  None of those that clear a
reservation says whose: the jobs that the notes of the model carry are for the statements about
them.
-/
import Burla.ClusterState.Nodes
import Burla.Jobs.Record
import Burla.Lib.Messages
import Burla.Lib.System

namespace Burla.Reserve

open Burla.Assign (NodeStatus View)
open Burla.ClusterState (NodeRow StateFields)
open Burla.Jobs (JobStatus)

variable {κ : Type*}

/-! ### Pushes -/

/-- The pushes of a node, with the job on whose behalf they are sent. -/
inductive Note (κ : Type*)
  /-- `_state_push_loop`. -/
  | loop
  /-- `on_job_start`. -/
  | start (job : κ)
  /-- `execute`, when no worker fits. -/
  | refused (job : κ)
  /-- `handle_errors`, when the client has gone. -/
  | aborted (job : κ)
  /-- `reinit_node`. -/
  | ended (job : κ)
  /-- `watch_reservation`. -/
  | gaveUp (job : κ)
  /-- `reboot_containers`, whatever job it ends. -/
  | boot (job : Option κ)
  /-- The last push of a boot. -/
  | booted
  | failed
  | deleted
  deriving DecidableEq

namespace Note

/-- The job that a push is about. -/
def owner : Note κ → Option κ
  | start job | refused job | aborted job | ended job | gaveUp job => some job
  | boot job => job
  | loop | booted | failed | deleted => none

/-- The push writes nothing but a status. -/
def quiet : Note κ → Bool
  | loop | booted | failed | deleted => true
  | start _ | refused _ | aborted _ | ended _ | gaveUp _ | boot _ => false

/-- The status that a push carries, read when it is sent. -/
def status (reportedStatus : NodeStatus) : Note κ → Option NodeStatus
  | gaveUp _ => none
  | loop | start _ | refused _ | aborted _ | ended _ | boot _ | booted | failed | deleted =>
    some reportedStatus

/-- What a push writes. -/
def fields (status : Option NodeStatus) : Note κ → StateFields κ
  | start job => { status, currentJob := some (some job), reservedForJob := some none }
  | aborted _ | ended _ => { status, currentJob := some none, reservedForJob := some none }
  | refused _ | boot _ => { status, currentJob := some none }
  | gaveUp _ => { status, reservedForJob := some none }
  | loop | booted | failed | deleted => { status }

end Note

/-- The push that holds the lock, with the status it carries and the head's answer. -/
structure Flight (κ : Type*) where
  note : Note κ
  status : Option NodeStatus
  view : Option (View κ)
  deriving DecidableEq

/-! ### The state -/

/-- The head's jobs and its row of the node, and the node.  `overJobs` are the jobs whose assignment
to the node has ended, or whose reservation the node has given up. -/
structure Site (κ : Type*) where
  jobs : κ → Option JobStatus
  row : NodeRow κ
  now : ℚ
  running : Bool
  booting : Bool
  failed : Bool
  shuttingDown : Bool
  currentJob : Option κ
  reservedForJob : Option κ
  reportedStatus : NodeStatus
  queue : List (Note κ)
  flight : Option (Flight κ)
  /-- Pushes that their sender has given up on, and that the head has not seen. -/
  late : List (Note κ × Option NodeStatus)
  overJobs : List κ

namespace Site

variable (s : Site κ)

def enqueue (n : Note κ) : Site κ := { s with queue := s.queue ++ [n] }

/-- A job's part at the node is over. -/
def done (jobs : List κ) : Site κ := { s with overJobs := s.overJobs ++ jobs }

/-- `push_node_state`: the head takes up what a push brings. -/
def record (n : Note κ) (status : Option NodeStatus) : Site κ :=
  { s with row := s.row.update { (n.fields status).updates with lastPushAt := some s.now } }

/-- `on_job_start` -/
def onJobStart (job : κ) : Site κ :=
  { s with
    running := true
    currentJob := some job
    reservedForJob := none
    reportedStatus := .running }.enqueue (.start job)

/-- `execute` and `handle_errors` take an assignment back. -/
def rollback (job : κ) (n : Note κ) : Site κ :=
  ({ s with
    running := false
    currentJob := none
    reportedStatus := .ready }.enqueue n).done [job]

/-- `reinit_node` -/
def reinitNode (job : κ) : Site κ :=
  ({ s with
    running := false
    booting := false
    failed := false
    shuttingDown := false
    currentJob := none
    reservedForJob := none
    reportedStatus := .ready }.enqueue (.ended job)).done [job]

/-- `reboot_containers`, up to its first push. -/
def rebootContainers : Site κ :=
  ({ s with reportedStatus := .booting }.enqueue (.boot s.currentJob)).done s.currentJob.toList

/-- `reboot_containers` once the head has answered, unless the head has given the node up. -/
def bootContainers (view : View κ) : Site κ :=
  if view.status.terminal = true then s
  else
    { s with
      running := false
      booting := true
      failed := false
      shuttingDown := false
      currentJob := none
      reportedStatus := .booting }.done s.currentJob.toList

/-- A boot that has failed. -/
def failBoot : Site κ := { s with failed := true, reportedStatus := .failed }.enqueue .failed

/-- `_state_push_loop` takes up the head's answer. -/
def follow (view : View κ) : Site κ :=
  { s with
    reservedForJob := if s.currentJob.isNone then view.reservedForJob else s.reservedForJob
    shuttingDown := s.shuttingDown || view.status = .deleted }

/-- What the sender of a push does with the answer. -/
def answered (n : Note κ) (view : View κ) : Site κ :=
  match n with
  | .loop => s.follow view
  | .boot _ => s.bootContainers view
  | .start _ | .refused _ | .aborted _ | .ended _ | .gaveUp _ | .booted | .failed | .deleted => s

/-- What the sender of a push does when it fails. -/
def pushFailed (n : Note κ) : Site κ :=
  match n with
  | .boot _ | .booted => s.failBoot
  | .loop | .start _ | .refused _ | .aborted _ | .ended _ | .gaveUp _ | .failed | .deleted => s

end Site

/-! ### Steps -/

inductive SiteEvent (κ : Type*)
  | tick (sec : ℚ)
  /-- A job is admitted; whether the node is among those selected for it. -/
  | admitJob (job : κ) (selected : Bool)
  /-- `update_job` ends a job and releases its nodes. -/
  | endJob (job : κ) (status : JobStatus)
  /-- The head gives the node up. -/
  | terminate (status : NodeStatus)
  /-- `POST /jobs/{job}` reaches the middleware. -/
  | post (job : κ)
  /-- No worker fits. -/
  | refuse
  /-- The client has gone before the job began. -/
  | abort
  /-- The job is over at the node. -/
  | finish
  | reboot
  /-- The containers have booted. -/
  | booted
  /-- They do not boot. -/
  | bootFails
  | loop
  /-- `watch_reservation` gives the reservation up. -/
  | giveUp
  | shutDown (report : Bool)
  /-- The next push takes the lock and is sent. -/
  | send
  /-- The push reaches the head. -/
  | reach
  /-- Its sender reads the answer. -/
  | answer
  /-- Its sender gives up on it. -/
  | lose
  /-- A push that was given up on reaches the head after all. -/
  | arrive (n : ℕ)
  /-- It never does. -/
  | drop (n : ℕ)

namespace Site

variable (s : Site κ)

/-- The pushes that the head has not seen. -/
def underway : List (Note κ) :=
  s.queue ++ (s.flight.toList.filter fun f => f.view.isNone).map Flight.note ++ s.late.map Prod.fst

/-- The reservation in an answer that the push loop has not read. -/
def told : Option κ :=
  match s.flight with
  | some ⟨.loop, _, some view⟩ => view.reservedForJob
  | _ => none

/-- `await SELF["on_job_start_task"]` has returned: the push of the job's start is through. -/
def Started [DecidableEq κ] (job : κ) : Prop :=
  Note.start job ∉ s.queue ∧ ∀ f ∈ s.flight, f.note ≠ .start job

instance [DecidableEq κ] (job : κ) : Decidable (s.Started job) :=
  inferInstanceAs (Decidable (_ ∧ ∀ f ∈ s.flight, _))

variable [DecidableEq κ]

def step (s : Site κ) : SiteEvent κ → Option (Site κ)
  | .tick sec => if 0 ≤ sec then some { s with now := s.now + sec } else none
  | .admitJob job selected =>
    match s.jobs job with
    | some _ => none
    | none =>
      let jobs := Function.update s.jobs job (some .running)
      if selected = true then
        if s.row.Free s.now then
          some { s with jobs, row := { s.row with reservedForJob := some job } }
        else none
      else some { s with jobs }
  | .endJob job status =>
    match s.jobs job with
    | none => none
    | some before =>
      if status.terminal = true then
        let after := if status = .completed ∧ before ≠ .running then before else status
        some { s with
          jobs := Function.update s.jobs job (some after)
          row := s.row.release job }
      else none
  | .terminate status =>
    if status.terminal = true then some { s with row := s.row.update { status := some status } }
    else none
  | .post job =>
    if s.shuttingDown = true ∨ s.running = true ∨ s.booting = true then none
    else some (s.onJobStart job)
  | .refuse =>
    match s.currentJob with
    | none => none
    | some job => if s.Started job then some (s.rollback job (.refused job)) else none
  | .abort =>
    match s.currentJob with
    | none => none
    | some job => if s.Started job then some (s.rollback job (.aborted job)) else none
  | .finish =>
    match s.currentJob with
    | none => none
    | some job => some (s.reinitNode job)
  | .reboot => some s.rebootContainers
  | .booted =>
    if s.booting = true then
      some ({ s with booting := false, reportedStatus := .ready }.enqueue .booted)
    else none
  | .bootFails => if s.booting = true then some s.failBoot else none
  | .loop => if s.shuttingDown = true then none else some (s.enqueue .loop)
  | .giveUp =>
    match s.reservedForJob with
    | none => none
    | some job => some (({ s with reservedForJob := none }.enqueue (.gaveUp job)).done [job])
  | .shutDown report =>
    if report = true ∧ s.failed = false then
      some ({ s with shuttingDown := true, reportedStatus := .deleted }.enqueue .deleted)
    else some { s with shuttingDown := true }
  | .send =>
    match s.flight, s.queue with
    | none, n :: queue =>
      some { s with queue, flight := some ⟨n, n.status s.reportedStatus, none⟩ }
    | _, _ => none
  | .reach =>
    match s.flight with
    | some ⟨n, status, none⟩ =>
      let t := s.record n status
      some { t with
        flight := some ⟨n, status, some ⟨t.row.status.getD .booting, t.row.reservedForJob⟩⟩ }
    | _ => none
  | .answer =>
    match s.flight with
    | some ⟨n, _, some view⟩ => some ({ s with flight := none }.answered n view)
    | _ => none
  | .lose =>
    match s.flight with
    | some ⟨n, status, none⟩ =>
      some ({ s with flight := none, late := s.late ++ [(n, status)] }.pushFailed n)
    | some ⟨n, _, some _⟩ => some ({ s with flight := none }.pushFailed n)
    | none => none
  | .arrive n =>
    match takeAt s.late n with
    | none => none
    | some ((note, status), late) => some ({ s with late }.record note status)
  | .drop n =>
    match takeAt s.late n with
    | none => none
    | some (_, late) => some { s with late }

/-- A node that boots its containers for the first time, with or without a reservation for a
RUNNING job. -/
structure Fresh (s : Site κ) : Prop where
  booting : s.booting = true
  currentJob : s.currentJob = none
  queue : s.queue = []
  flight : s.flight = none
  late : s.late = []
  overJobs : s.overJobs = []
  rowCurrentJob : s.row.currentJob = none
  rowReservedForJob : s.row.reservedForJob = s.reservedForJob
  known : ∀ job, s.reservedForJob = some job → s.jobs job = some .running

end Site

/-- The node, with the head's row of it. -/
def site (κ : Type*) [DecidableEq κ] : System (Site κ) (SiteEvent κ) where
  init := Site.Fresh
  step := Site.step

end Burla.Reserve
