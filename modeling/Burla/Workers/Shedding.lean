/-
Shedding on a node whose memory is short (`dynamic_ram_monitor_loop`, `retire_workers_for_pressure`
and `park_workers_for_memory` in worker_client.py), beside the tasks of the workers and those who
park and un-park them.

The workers are those of `Burla.Workers.Pool`.  Of a task that waits for an input it is kept where
it waits: with a parked worker on the node it goes on to `inputs_queue.get()` only when there is
none any more.
-/
import Burla.Workers.Pool
import Mathlib.Data.Rat.Lemmas

namespace Burla.Workers

variable {ι : Type*}

/-! ### The selection -/

/-- What is read of a running worker. -/
structure Reading (ι : Type*) where
  worker : ι
  rssBytes : ℕ
  networkBound : Bool
  elapsedSeconds : ℚ

/-- `_kill_instead_of_park` -/
def killInsteadOfPark (swapBytesPerSec : Option ℚ) (r : Reading ι) : Bool :=
  match swapBytesPerSec with
  | none => false
  | some rate => r.networkBound || r.elapsedSeconds < 2 * r.rssBytes / rate

/-- What a shed depends on besides the workers. -/
structure Pressure where
  swapBytesPerSec : Option ℚ
  reclaimInFlight : Bool
  bytesToFree : ℕ
  minShedCount : ℕ

/-- Workers to be killed, and workers to be parked. -/
structure Selection (ι : Type*) where
  kills : List ι
  parks : List ι
  deriving DecidableEq

/-- A worker is added to one of the lists, or to none while a reclaim is in flight. -/
def Selection.add (p : Pressure) (selection : Selection ι) (r : Reading ι) :
    Option (Selection ι) :=
  if killInsteadOfPark p.swapBytesPerSec r then
    some { selection with kills := selection.kills ++ [r.worker] }
  else if p.reclaimInFlight then none
  else some { selection with parks := selection.parks ++ [r.worker] }

/-- The loop that selects, until enough is shed. -/
def selectLoop (p : Pressure) : List (Reading ι) → Selection ι → ℕ → Selection ι
  | [], selection, _ => selection
  | r :: rs, selection, selectedRssBytes =>
    match selection.add p r with
    | none => selectLoop p rs selection selectedRssBytes
    | some selection =>
      if p.bytesToFree ≤ selectedRssBytes + r.rssBytes ∧
          p.minShedCount ≤ selection.kills.length + selection.parks.length then selection
      else selectLoop p rs selection (selectedRssBytes + r.rssBytes)

/-- The workers to shed of those that run, the largest left out. -/
def select (p : Pressure) (running : List (Reading ι)) : Selection ι :=
  selectLoop p running.dropLast ⟨[], []⟩ 0

/-! ### The node -/

/-- Where a task that has no input waits. -/
inductive Rest
  /-- In `_unthrottle_one_parked_worker`, for the lock. -/
  | handoff
  /-- In `while _parked_workers_exist()`. -/
  | polling
  /-- For the results to leave, or in `inputs_queue.get()`. -/
  | free
  deriving DecidableEq, Repr

/-- Where the shed stands. -/
inductive Monitor (ι : Type*)
  /-- Both lists are selected. -/
  | selected (selection : Selection ι)
  /-- In `retire_workers_for_pressure`, with the lock. -/
  | killing (parks : List ι)
  /-- It has returned. -/
  | killed (parks : List ι)
  /-- In `park_workers_for_memory`, with the lock. -/
  | parking
  /-- Both have returned. -/
  | returned
  deriving DecidableEq

/-- `_unthrottle_one_parked_worker` with the lock, for a worker that hands its capacity on or for
the recovery loop. -/
inductive Unparking (ι : Type*)
  | lifting (handing : Option ι) (parked : ι)
  | logging (handing : Option ι)
  deriving DecidableEq

structure Node (ι : Type*) where
  pool : Pool ι
  rest : ι → Rest
  unparking : Option (Unparking ι)
  monitor : Monitor ι

/-! ### Workers that run or are free -/

/-- The attempt goes on, or its result is about to be delivered. -/
def Phase.serving : Phase → Bool
  | .calling _ => true
  | .writingError _ _ stopAfterResult | .finishing _ (some (_, stopAfterResult)) => !stopAfterResult
  | _ => false

/-- A worker that may run: neither retired nor parked. -/
def Worker.unparked (w : Worker) : Bool := w.active && !w.throttled

namespace Node

/-- A worker that runs an input. -/
def runs (s : Node ι) (i : ι) : Bool :=
  (s.pool.workers i).unparked && (s.pool.workers i).phase.serving

/-- A worker that is free to take one. -/
def isFree (s : Node ι) (i : ι) : Bool :=
  (s.pool.workers i).unparked && decide ((s.pool.workers i).phase = .waiting ∧ s.rest i = .free)

/-- A worker that runs an input or is free to take one. -/
def available (s : Node ι) (i : ι) : Bool := s.runs i || s.isFree i

end Node

/-! ### Steps -/

inductive NodeEvent (ι : Type*)
  /-- A step of another task. -/
  | task (e : PoolEvent ι)
  /-- A worker that has come to wait behind parked ones gets the lock, and finds one that can be
  resumed or none. -/
  | handoff (i : ι) (resumed : Option ι)
  /-- So does the recovery loop. -/
  | recover (parked : ι)
  /-- The CPU quota is lifted. -/
  | lifted
  /-- The lock is let go. -/
  | resumed
  /-- `_parked_workers_exist()` is asked again. -/
  | poll (i : ι)
  /-- `retire_workers_for_pressure` is called, and gets the lock. -/
  | kill
  | killCleared
  /-- It returns. -/
  | killDone
  /-- `park_workers_for_memory` is called, and gets the lock. -/
  | park
  /-- The next worker is throttled. -/
  | parkNext
  /-- It returns. -/
  | parkDone

/-- The steps of the tasks that neither shed nor set a CPU quota. -/
def PoolEvent.byTask : PoolEvent ι → Bool
  | .throttle _ _ | .pressureStart _ | .pressureClear | .parkStart _ | .parkNext => false
  | _ => true

/-- The steps that take `dynamic_retire_lock`. -/
def PoolEvent.locks : PoolEvent ι → Bool
  | .acquire _ | .revokeStart _ _ _ => true
  | _ => false

namespace Node

/-- Whether the shed has the lock. -/
def shedHolds (s : Node ι) : Bool :=
  match s.monitor with
  | .killing _ | .parking => true
  | _ => false

def setRest [DecidableEq ι] (s : Node ι) (i : ι) (r : Rest) : Node ι :=
  { s with rest := Function.update s.rest i r }

variable [DecidableEq ι] [Fintype ι] (s : Node ι)

/-- `_parked_workers_exist` -/
def parkedWorkersExist : Bool :=
  decide (∃ i, (s.pool.workers i).active = true ∧ (s.pool.workers i).throttled = true)

/-- The top of the loop of `_process_inputs`. -/
def loopTop (i : ι) : Node ι :=
  s.setRest i (if s.parkedWorkersExist then .handoff else .free)

/-- A step of another task. -/
def taskStep (s : Node ι) (e : PoolEvent ι) : Option (Node ι) :=
  if e.byTask = false ∨ (e.locks = true ∧ s.unparking ≠ none) then none
  else
    match e with
    | .release killed =>
      if s.shedHolds then none
      else (poolStep s.pool (.release killed)).map fun pool => { s with pool }
    | .pop i =>
      if s.rest i = .free then (poolStep s.pool (.pop i)).map fun pool => { s with pool } else none
    | .finish i => (poolStep s.pool (.finish i)).map fun pool => { s with pool }.loopTop i
    | .join i => (poolStep s.pool (.join i)).map fun pool => { s with pool }.loopTop i
    | e => (poolStep s.pool e).map fun pool => { s with pool }

/-- A parked worker to resume is found. -/
def unparkStart (handing : Option ι) (parked : ι) : Option (Node ι) :=
  if s.pool.lock = none ∧ s.unparking = none ∧ (s.pool.workers parked).active = true ∧
      (s.pool.workers parked).throttled = true then
    some { s with unparking := some (.lifting handing parked) }
  else none

/-- The beginning of `retire_workers_for_pressure` and of `park_workers_for_memory`: with the lock,
those of the selected workers are taken that can be, when there are any. -/
def shedStart (selected taken : List ι) (e : PoolEvent ι) (holding done : Monitor ι) :
    Option (Node ι) :=
  if selected = [] then some { s with monitor := done }
  else if s.pool.lock = none ∧ s.unparking = none then
    if taken = [] then some { s with monitor := done }
    else (poolStep s.pool e).map fun pool => { s with pool, monitor := holding }
  else none

/-- One step. -/
def step (s : Node ι) : NodeEvent ι → Option (Node ι)
  | .task e => s.taskStep e
  | .handoff i resumed =>
    if (s.pool.workers i).phase = .waiting ∧ s.rest i = .handoff then
      match resumed with
      | none =>
        if s.pool.lock = none ∧ s.unparking = none then some (s.setRest i .polling) else none
      | some parked => s.unparkStart (some i) parked
    else none
  | .recover parked => s.unparkStart none parked
  | .lifted =>
    match s.unparking with
    | some (.lifting handing parked) =>
      (poolStep s.pool (.throttle parked false)).map fun pool =>
        { s with pool, unparking := some (.logging handing) }
    | _ => none
  | .resumed =>
    match s.unparking with
    | some (.logging none) => some { s with unparking := none }
    | some (.logging (some i)) =>
      -- the task may have been cancelled in the meantime
      if (s.pool.workers i).phase = .waiting ∧ s.rest i = .handoff then
        some ({ s with unparking := none }.setRest i .polling)
      else some { s with unparking := none }
    | _ => none
  | .poll i =>
    if s.rest i = .polling ∧ s.parkedWorkersExist = false then some (s.setRest i .free) else none
  | .kill =>
    match s.monitor with
    | .selected ⟨kills, parks⟩ =>
      s.shedStart kills (s.pool.pressureVictims kills) (.pressureStart kills) (.killing parks)
        (.killed parks)
    | _ => none
  | .killCleared => (poolStep s.pool .pressureClear).map fun pool => { s with pool }
  | .killDone =>
    match s.monitor with
    | .killing parks =>
      (poolStep s.pool (.release true)).map fun pool => { s with pool, monitor := .killed parks }
    | _ => none
  | .park =>
    match s.monitor with
    | .killed parks =>
      s.shedStart parks (s.pool.parkVictims parks) (.parkStart parks) .parking .returned
    | _ => none
  | .parkNext => (poolStep s.pool .parkNext).map fun pool => { s with pool }
  | .parkDone =>
    match s.monitor with
    | .parking =>
      (poolStep s.pool (.release true)).map fun pool => { s with pool, monitor := .returned }
    | _ => none

/-- A shed begins: two workers run, or more, and of these it is selected. -/
structure Begins (s : Node ι) : Prop where
  selected : ∃ p running, s.monitor = .selected (select p running) ∧ 2 ≤ running.length ∧
    running.Pairwise (fun r r' => r.rssBytes ≤ r'.rssBytes) ∧
    (running.map Reading.worker).Nodup ∧ ∀ r ∈ running, s.runs r.worker = true
  /-- The lock may be taken, but not by the shed. -/
  lock : ∀ workers, s.pool.lock ≠ some (.parking workers) ∧
    ∀ cleared, s.pool.lock ≠ some (.pressure workers cleared)

end Node

/-- A shed, beside everything that goes on during it. -/
def shedding (ι : Type*) [DecidableEq ι] [Fintype ι] : System (Node ι) (NodeEvent ι) where
  init := Node.Begins
  step := Node.step

end Burla.Workers
