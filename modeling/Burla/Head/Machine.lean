/-
The local head of a machine: `_acquire_head_for_job` and `_release_head_for_job` (`__init__.py`),
`running_head_url`, `_run_local_head`, `release_head`, `_stop_recorded_head` and
`run_local_head_for_dashboard` (`_local_head.py`), with `pause_job_admission_if_idle` and
`admit_job` of the head (`cluster_state.py`).

The calls that look for a head share `head.json`, `dashboard.owner` and `lifecycle.lock`, and
only some of them take the lock.  A step is what a call does between two accesses to what it
shares with the others, so the calls of any number of processes interleave as they do on the
machine.  Whether a head answers in time, which port a new head gets, and when a head starts to
serve or exits by itself are labels.

A url stands for its port.  Processes are numbered as they are started, and no number is used
again.  The frpc process of a head is left out, except that its restart writes `head.json` back.
-/
import Burla.Lib.System

namespace Burla.Head

/-! ### Heads -/

/-- `head.json` -/
structure HeadState where
  url : ℕ
  headPid : Option ℕ
  deriving DecidableEq

/-- `_recorded_head_pid` -/
def recordedPid (file : Option HeadState) : Option ℕ := file.bind HeadState.headPid

/-- `_clear_process_state` -/
def HeadState.clear (f : HeadState) (pid : ℕ) : HeadState :=
  if f.headPid = some pid then { f with headPid := none } else f

inductive Health
  | booting
  | serving
  | gone
  deriving DecidableEq

/-- A process of `main_service`, with its jobs that are RUNNING. -/
structure Service where
  port : ℕ
  health : Health
  runningJobs : List ℕ
  admissionPaused : Bool
  shutDown : Bool

namespace Service

/-- It answers at the url. -/
def At (v : Service) (url : ℕ) : Prop := v.port = url ∧ v.health = .serving

instance (v : Service) (url : ℕ) : Decidable (v.At url) := inferInstanceAs (Decidable (_ ∧ _))

/-- The port of a process that is alive. -/
def alivePort (v : Service) : Option ℕ := if v.health = .gone then none else some v.port

end Service

/-! ### Calls -/

/-- What calls `_run_local_head`. A dashboard remembers the head that was recorded when it
started, and what it found in `dashboard.owner`. -/
inductive Caller
  | job
  | lookup
  | dashboard (initial previous : Option ℕ)
  deriving DecidableEq

/-- `_HeadHandle`. A handle is owned when it has the pid of its head. -/
structure Handle where
  url : ℕ
  pid : Option ℕ
  deriving DecidableEq

/-- What calls `_stop_recorded_head`: `release_head`, or a dashboard, which may have to write
`dashboard.owner` afterwards. -/
inductive Stopper
  | job
  | dashboard (restore : Option (Option ℕ))
  deriving DecidableEq

/-- Where a call is. -/
inductive Phase
  | idle
  /-- `running_head_url` has read `head.json`. -/
  | probing (c : Caller) (read : Option HeadState)
  /-- `_run_local_head` -/
  | looking (c : Caller)
  | found (c : Caller) (read : Option HeadState)
  /-- No head has answered: the recorded one is to be terminated. -/
  | replacing (c : Caller) (read : Option HeadState)
  | vacant (c : Caller)
  /-- The new head runs and is to be recorded. -/
  | spawned (c : Caller) (file : HeadState)
  | waiting (c : Caller) (file : HeadState)
  /-- A head has answered, and frpc is to be restarted. -/
  | answered (c : Caller) (file : HeadState)
  | returned (c : Caller) (url : ℕ)
  /-- The job has its handle; it may have frpc to restart. -/
  | running (h : Handle) (respawn : Option HeadState)
  /-- `release_head` is about to shut the cluster down. -/
  | releasing (h : Handle) (pid : ℕ)
  | attached (pid url : ℕ) (initial previous : Option ℕ)
  /-- The dashboard is about to stop its head. -/
  | leaving (pid : ℕ)
  /-- `_stop_recorded_head` -/
  | stopping (pid : ℕ) (w : Stopper)
  | doomed (pid : ℕ) (w : Stopper)
  | terminated (pid : ℕ) (w : Stopper)
  | clearing (pid : ℕ) (read : HeadState) (w : Stopper)
  /-- The job has released its handle. -/
  | ended (pid : Option ℕ)
  | left
  /-- The process has died, or the call has failed before it had a handle. -/
  | failed (before : Phase)
  deriving DecidableEq

namespace Phase

/-- The caller of `_run_local_head`, or of `running_head_url` before it. -/
def caller : Phase → Option Caller
  | .probing c _ | .looking c | .found c _ | .replacing c _ | .vacant c | .spawned c _
  | .waiting c _ | .answered c _ | .returned c _ => some c
  | _ => none

/-- The call goes on. -/
def active : Phase → Bool
  | .idle | .ended _ | .left | .failed _ => false
  | _ => true

end Phase

/-- The machine: the heads by their pids, the calls, `head.json`, `dashboard.owner` and the
holder of `lifecycle.lock`. -/
structure Machine where
  services : List Service
  procs : List Phase
  file : Option HeadState
  owner : Option ℕ
  lock : Option ℕ

/-- A file without what this one has written. -/
def unlinked (file : Option ℕ) (n : ℕ) : Option ℕ := if file = some n then none else file

namespace Machine

def put (s : Machine) (i : ℕ) (ph : Phase) : Machine := { s with procs := s.procs.set i ph }

/-- `_head_matches`, for a head that answers in time. -/
def headMatches (s : Machine) (url : ℕ) : Prop := ∃ v ∈ s.services, v.At url

instance (s : Machine) (url : ℕ) : Decidable (s.headMatches url) :=
  inferInstanceAs (Decidable (∃ v ∈ s.services, v.At url))

/-- The head process with this pid is alive and has, or is to have, this port. -/
def alivePort (s : Machine) (pid : ℕ) : Option ℕ := s.services[pid]?.bind Service.alivePort

/-- A request to the head that answers at the url. -/
def request (s : Machine) (url : ℕ) (f : Service → Service) : Machine :=
  { s with services := s.services.map fun v => if v.At url then f v else v }

/-- `_terminate_pid` -/
def terminatePid (s : Machine) (pid : Option ℕ) : Machine :=
  match pid with
  | none => s
  | some p => { s with services := s.services.modify p fun v => { v with health := .gone } }

/-! ### `running_head_url` and `_run_local_head` -/

/-- `running_head_url` reads `head.json`. -/
def runningHeadUrl (s : Machine) (i : ℕ) (c : Caller) : Option Machine :=
  if s.procs[i]? = some .idle then some (s.put i (.probing c s.file)) else none

/-- What a call does once the head it has read about has answered. -/
def afterAnswer (respawn : Bool) (f : HeadState) : Phase → Option Phase
  | .probing .job _ => some (.running ⟨f.url, none⟩ (if respawn then some f else none))
  | .probing .lookup _ => some (if respawn then .answered .lookup f else .left)
  | .found c _ => some (if respawn then .answered c f else .returned c f.url)
  | .waiting c _ => some (.answered c f)
  | _ => none

/-- The record of the head that a call asks. -/
def asks : Phase → Option HeadState
  | .probing _ read | .found _ read => read
  | .waiting _ f => some f
  | _ => none

/-- What a call does when no head has answered. -/
def afterSilence : Phase → Option Phase
  | .probing c _ => some (.looking c)
  | .found c read => some (.replacing c read)
  | _ => none

/-- The call asks whether the head that it has read about answers. -/
def answer (s : Machine) (i : ℕ) (ok respawn : Bool) : Option Machine :=
  s.procs[i]?.bind fun ph =>
    if ok = true then
      (asks ph).bind fun f =>
        if s.headMatches f.url then (afterAnswer respawn f ph).map (s.put i) else none
    else (afterSilence ph).map (s.put i)

/-- `_run_local_head` reads `head.json`. -/
def read (s : Machine) (i : ℕ) : Option Machine :=
  match s.procs[i]? with
  | some (.looking c) => some (s.put i (.found c s.file))
  | _ => none

/-- `_spawn_head` -/
def spawn (s : Machine) (i port : ℕ) : Option Machine :=
  match s.procs[i]? with
  | some (.vacant c) =>
    let v : Service := ⟨port, .booting, [], false, false⟩
    some ({ s with services := s.services ++ [v] }.put i
      (.spawned c ⟨port, some s.services.length⟩))
  | _ => none

/-- The new head is written to `head.json`. -/
def record (s : Machine) (i : ℕ) : Option Machine :=
  match s.procs[i]? with
  | some (.spawned c f) => some ({ s with file := some f }.put i (.waiting c f))
  | _ => none

/-- `_respawn_frpc` writes back what the call knows of `head.json`. -/
def respawnFrpc (s : Machine) (i : ℕ) : Option Machine :=
  match s.procs[i]? with
  | some (.answered c f) =>
    -- only `_run_local_head` has something left to do
    some ({ s with file := some f }.put i (.returned c f.url))
  | some (.running h (some f)) => some ({ s with file := some f }.put i (.running h none))
  | _ => none

/-- `start_local_head_for_job` reads the pid of the head; a dashboard attaches. -/
def claim (s : Machine) (i : ℕ) : Option Machine :=
  match s.procs[i]? with
  | some (.returned .job url) =>
    (recordedPid s.file).map fun pid => s.put i (.running ⟨url, some pid⟩ none)
  | some (.returned .lookup _) => some (s.put i .left)
  | some (.returned (.dashboard initial previous) url) =>
    if s.lock = none then
      (recordedPid s.file).map fun pid =>
        { s with owner := some pid }.put i (.attached pid url initial previous)
    else none
  | _ => none

/-! ### Jobs -/

/-- A second job of a process goes to the head that the first one is pinned to. -/
def joinPinned (s : Machine) (i k : ℕ) : Option Machine :=
  match s.procs[i]?, s.procs[k]? with
  | some .idle, some (.running h _) => some (s.put i (.running ⟨h.url, none⟩ none))
  | _, _ => none

/-- `admit_job` -/
def admitJob (s : Machine) (i : ℕ) : Option Machine :=
  match s.procs[i]? with
  | some (.running h _) =>
    if ∃ v ∈ s.services, v.At h.url ∧ v.admissionPaused = false then
      some (s.request h.url fun v => { v with runningJobs := i :: v.runningJobs })
    else none
  | _ => none

/-- The job is no longer RUNNING on any head. -/
def completeJob (s : Machine) (i : ℕ) : Machine :=
  { s with services := s.services.map fun v => { v with runningJobs := v.runningJobs.erase i } }

/-- `release_head`, up to the requests. -/
def release (s : Machine) (i : ℕ) : Option Machine :=
  match s.procs[i]? with
  | some (.running ⟨_, none⟩ none) => some (s.put i (.ended none))
  | some (.running ⟨url, some pid⟩ none) =>
    if s.lock = none then
      if s.owner = some pid ∨ recordedPid s.file ≠ some pid then some (s.put i (.ended (some pid)))
      else some ({ s with lock := some i }.put i (.releasing ⟨url, some pid⟩ pid))
    else none
  | _ => none

/-- `_shutdown_cluster_via_head`; the request may get lost. -/
def shutdown (s : Machine) (i : ℕ) (landed : Bool) : Option Machine :=
  match s.procs[i]? with
  | some (.releasing h pid) =>
    let t := s.put i (.stopping pid .job)
    some (if landed = true then
      t.request h.url fun v => { v with runningJobs := [], shutDown := true } else t)
  | _ => none

/-! ### `_stop_recorded_head` -/

/-- The end of `_stop_recorded_head` and of the section that called it. -/
def finish (s : Machine) (i pid : ℕ) : Stopper → Machine
  | .job => { s with lock := none }.put i (.ended (some pid))
  | .dashboard none => { s with lock := none }.put i .left
  | .dashboard (some previous) => { s with lock := none, owner := previous }.put i .left

/-- It does nothing when another head is recorded. -/
def stopRecordedHead (s : Machine) (i : ℕ) : Option Machine :=
  match s.procs[i]? with
  | some (.stopping pid w) =>
    some (if recordedPid s.file = some pid then s.put i (.doomed pid w) else s.finish i pid w)
  | _ => none

/-- A head is terminated, by `_stop_recorded_head` or before another one is started. -/
def terminate (s : Machine) (i : ℕ) : Option Machine :=
  match s.procs[i]? with
  | some (.replacing c read) => some ((s.terminatePid (recordedPid read)).put i (.vacant c))
  | some (.doomed pid w) => some ((s.terminatePid (some pid)).put i (.terminated pid w))
  | _ => none

/-- `_clear_process_state` reads `head.json`. -/
def clear (s : Machine) (i : ℕ) : Option Machine :=
  match s.procs[i]?, s.file with
  | some (.terminated pid w), some f => some (s.put i (.clearing pid f w))
  | _, _ => none

/-- It writes it without the pid. -/
def write (s : Machine) (i : ℕ) : Option Machine :=
  match s.procs[i]? with
  | some (.clearing pid f w) => some ({ s with file := some (f.clear pid) }.finish i pid w)
  | _ => none

/-! ### Dashboards -/

/-- The first locked section of `run_local_head_for_dashboard`. -/
def openDashboard (s : Machine) (i : ℕ) : Option Machine :=
  if s.procs[i]? = some .idle ∧ s.lock = none then
    let initial := recordedPid s.file
    some ({ s with owner := initial.or s.owner }.put i (.looking (.dashboard initial s.owner)))
  else none

/-- An interrupt or an exception before the dashboard is attached, or an exception after it. The
head is stopped only when it is not the one that was there before. -/
def abandon (s : Machine) (i : ℕ) (pid initial previous : Option ℕ) : Option Machine :=
  if s.lock = none then
    match pid with
    | none => some ({ s with owner := previous }.put i .left)
    | some p =>
      if some p = initial then some ({ s with owner := previous }.put i .left)
      else some ({ s with lock := some i }.put i (.stopping p (.dashboard (some previous))))
  else none

/-- The head that a dashboard may have to stop when it fails, with what it remembers. -/
def failing (file : Option HeadState) : Phase → Option (Option ℕ × Option ℕ × Option ℕ)
  | .attached pid _ initial previous => some (some pid, initial, previous)
  | ph =>
    match ph.caller with
    | some (.dashboard initial previous) => some (recordedPid file, initial, previous)
    | _ => none

def fail (s : Machine) (i : ℕ) : Option Machine :=
  s.procs[i]?.bind fun ph =>
    (failing s.file ph).bind fun ⟨pid, initial, previous⟩ => s.abandon i pid initial previous

/-- What comes of `_pause_job_admission`. -/
inductive Pause
  | paused
  | refused
  | lost (resumed : Bool)

/-- Ctrl-C in an attached dashboard. -/
def interrupt (s : Machine) (i : ℕ) (outcome : Pause) : Option Machine :=
  match s.procs[i]?, outcome with
  | some (.attached pid url _ _), .paused =>
    if ∃ v ∈ s.services, v.At url ∧ v.runningJobs = [] then
      some ((s.request url fun v => { v with admissionPaused := true }).put i (.leaving pid))
    else none
  | some (.attached _ url _ _), .refused =>
    if ∃ v ∈ s.services, v.At url ∧ v.runningJobs ≠ [] then some (s.put i .left) else none
  | some (.attached _ url _ _), .lost resumed =>
    let t := s.put i .left
    some (if resumed = true then t.request url fun v => { v with admissionPaused := false } else t)
  | _, _ => none

/-- The dashboard sees that its head has exited. -/
def headExited (s : Machine) (i : ℕ) : Option Machine :=
  match s.procs[i]? with
  | some (.attached pid _ _ _) =>
    if s.alivePort pid = none then some (s.put i (.leaving pid)) else none
  | _ => none

/-- The last locked section of `run_local_head_for_dashboard`. -/
def leave (s : Machine) (i : ℕ) : Option Machine :=
  match s.procs[i]? with
  | some (.leaving pid) =>
    if s.lock = none then
      some ({ s with
        lock := some i
        owner := unlinked s.owner pid }.put i
          (.stopping pid (.dashboard none)))
    else none
  | _ => none

/-! ### Steps -/

/-- A head binds its port, which no other head has. -/
def serve (s : Machine) (pid : ℕ) : Option Machine :=
  match s.services[pid]? with
  | some v =>
    if v.health = .booting ∧ ¬ s.headMatches v.port then
      some { s with services := s.services.modify pid fun v => { v with health := .serving } }
    else none
  | none => none

/-- A process dies, and the lock that it holds is free; or a call raises an exception before it
has a handle. -/
def die (s : Machine) (i : ℕ) : Option Machine :=
  s.procs[i]?.bind fun ph =>
    if ph.active = true then
      some ({ s with lock := unlinked s.lock i }.put i (.failed ph))
    else none

end Machine

inductive MachineEvent
  | serve (pid : ℕ)
  /-- A head exits by itself. -/
  | exit (pid : ℕ)
  | startJob (i : ℕ)
  | lookUp (i : ℕ)
  | openDashboard (i : ℕ)
  | answer (i : ℕ) (ok respawn : Bool)
  | read (i : ℕ)
  | terminate (i : ℕ)
  | spawn (i port : ℕ)
  | record (i : ℕ)
  | respawnFrpc (i : ℕ)
  | claim (i : ℕ)
  | joinPinned (i k : ℕ)
  | admitJob (i : ℕ)
  | completeJob (i : ℕ)
  | release (i : ℕ)
  | shutdown (i : ℕ) (landed : Bool)
  | stopRecordedHead (i : ℕ)
  | clear (i : ℕ)
  | write (i : ℕ)
  | fail (i : ℕ)
  | interrupt (i : ℕ) (outcome : Machine.Pause)
  | headExited (i : ℕ)
  | leave (i : ℕ)
  | die (i : ℕ)

def machineStep (s : Machine) : MachineEvent → Option Machine
  | .serve pid => s.serve pid
  | .exit pid => some (s.terminatePid (some pid))
  | .startJob i => s.runningHeadUrl i .job
  | .lookUp i => s.runningHeadUrl i .lookup
  | .openDashboard i => s.openDashboard i
  | .answer i ok respawn => s.answer i ok respawn
  | .read i => s.read i
  | .terminate i => s.terminate i
  | .spawn i port => s.spawn i port
  | .record i => s.record i
  | .respawnFrpc i => s.respawnFrpc i
  | .claim i => s.claim i
  | .joinPinned i k => s.joinPinned i k
  | .admitJob i => s.admitJob i
  | .completeJob i => some (s.completeJob i)
  | .release i => s.release i
  | .shutdown i landed => s.shutdown i landed
  | .stopRecordedHead i => s.stopRecordedHead i
  | .clear i => s.clear i
  | .write i => s.write i
  | .fail i => s.fail i
  | .interrupt i outcome => s.interrupt i outcome
  | .headExited i => s.headExited i
  | .leave i => s.leave i
  | .die i => s.die i

/-- A machine with any number of calls to come, on which no head has run yet. -/
def machine : System Machine MachineEvent where
  init s := s.services = [] ∧ (∀ ph ∈ s.procs, ph = .idle) ∧ s.file = none ∧ s.owner = none ∧
    s.lock = none
  step := machineStep

end Burla.Head
