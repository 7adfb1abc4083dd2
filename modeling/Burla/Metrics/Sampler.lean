/-
Resource metrics, from a node's counters to the head's table (`_node_sample`, `_task_sample`,
`_take_samples` and `resource_metrics_loop` in resource_metrics.py, `add_resource_metrics` in
history.py).

A sample has what the counters have grown by since the last round.  A node keeps its samples until a
post is answered, and posts them again after a failure; the head may then have them already, and one
that was given up may still arrive.

The main result is `Burla.Metrics.Pipeline.counted_once`: in every run the head's rows of the node,
with the samples that wait for it, are the samples that were taken, each once; so that what they
say was sent, received, read and written is what the counters have grown by.
-/
import Burla.History.Import
import Burla.Lib.Dict
import Burla.Lib.Messages
import Burla.Lib.Once
import Burla.Lib.System

namespace Burla.Metrics

open Burla.History (Sample Store)

/-! ### Samples -/

/-- `_node_counters` -/
structure NodeCounters where
  totalCpuSeconds : ℚ
  busyCpuSeconds : ℚ
  memoryBytes : ℤ
  memoryTotalBytes : ℤ
  networkRxBytes : ℤ
  networkTxBytes : ℤ
  diskReadBytes : ℤ
  diskWriteBytes : ℤ
  deriving DecidableEq

/-- `_worker_counters` -/
structure WorkerCounters where
  cpuUsageUsec : ℤ
  memoryBytes : ℤ
  networkRxBytes : ℤ
  networkTxBytes : ℤ
  diskReadBytes : ℤ
  diskWriteBytes : ℤ
  deriving DecidableEq

/-- `_gpu_readings` has one for each GPU. -/
structure GpuReading where
  gpuPercent : ℚ
  memoryUsedBytes : ℤ
  memoryTotalBytes : ℤ

/-- `_worker_snapshot` -/
structure WorkerSnapshot where
  containerId : String
  workerId : String
  jobId : Option String
  inputIndex : Option ℤ
  gpuIndex : Option ℕ
  throttled : Bool
  memoryThrottled : Bool
  counters : WorkerCounters

/-- A sample, as it is posted. -/
structure Measured where
  timestamp : ℚ
  durationSec : ℚ
  scope : String
  jobId : Option String
  inputIndex : Option ℤ
  workerId : String
  throttled : Option ℤ
  memoryThrottled : Option ℤ
  cpuSeconds : ℚ
  cpuPercent : ℚ
  memoryBytes : ℤ
  memoryPercent : ℚ
  networkRxBytes : ℤ
  networkTxBytes : ℤ
  diskReadBytes : ℤ
  diskWriteBytes : ℤ
  gpuPercent : Option ℚ
  gpuMemoryBytes : Option ℤ
  gpuMemoryPercent : Option ℚ
  deriving DecidableEq

/-- `x / y`, which raises when `y` is zero. -/
def divide (x y : ℚ) : Option ℚ := if y = 0 then none else some (x / y)

/-- `_node_gpu_fields` -/
def nodeGpuFields (readings : List GpuReading) : Option (Option ℚ × Option ℤ × Option ℚ) :=
  if readings = [] then some (none, none, none)
  else do
    let used := (readings.map GpuReading.memoryUsedBytes).sum
    let total := (readings.map GpuReading.memoryTotalBytes).sum
    let percent ← divide (readings.map GpuReading.gpuPercent).sum readings.length
    let memoryPercent ← divide (100 * used) total
    some (some percent, some used, some memoryPercent)

/-- `_node_sample` -/
def nodeSample (current previous : NodeCounters) (sampledAt durationSec : ℚ)
    (jobId : Option String) (readings : List GpuReading) : Option Measured := do
  let cpuSeconds := current.busyCpuSeconds - previous.busyCpuSeconds
  let totalCpuSeconds := current.totalCpuSeconds - previous.totalCpuSeconds
  let cpuPercent ← divide (100 * cpuSeconds) totalCpuSeconds
  let memoryPercent ← divide (100 * current.memoryBytes) current.memoryTotalBytes
  let (gpuPercent, gpuMemoryBytes, gpuMemoryPercent) ← nodeGpuFields readings
  some {
    timestamp := sampledAt
    durationSec
    scope := "node"
    jobId
    inputIndex := none
    workerId := ""
    throttled := none
    memoryThrottled := none
    cpuSeconds
    cpuPercent
    memoryBytes := current.memoryBytes
    memoryPercent
    networkRxBytes := max 0 (current.networkRxBytes - previous.networkRxBytes)
    networkTxBytes := max 0 (current.networkTxBytes - previous.networkTxBytes)
    diskReadBytes := max 0 (current.diskReadBytes - previous.diskReadBytes)
    diskWriteBytes := max 0 (current.diskWriteBytes - previous.diskWriteBytes)
    gpuPercent
    gpuMemoryBytes
    gpuMemoryPercent }

/-- The GPU of a worker, which must be there if there are any. -/
def workerGpu (gpuIndex : Option ℕ) (readings : List GpuReading) : Option (Option GpuReading) :=
  match gpuIndex with
  | none => some none
  | some i => if readings = [] then some none else readings[i]?.map some

def workerGpuMemory : Option GpuReading → Option (Option ℚ)
  | none => some none
  | some gpu => (divide (100 * gpu.memoryUsedBytes) gpu.memoryTotalBytes).map some

/-- `_task_sample`, on a node with so many CPUs. -/
def taskSample (cpus : ℕ) (snapshot : WorkerSnapshot) (previous : WorkerCounters)
    (sampledAt durationSec : ℚ) (nodeMemoryBytes : ℤ) (readings : List GpuReading) :
    Option Measured := do
  let current := snapshot.counters
  let gpu ← workerGpu snapshot.gpuIndex readings
  let cpuSeconds : ℚ := (current.cpuUsageUsec - previous.cpuUsageUsec) / 1000000
  let cpuPercent ← divide (100 * cpuSeconds) (durationSec * cpus)
  let memoryPercent ← divide (100 * current.memoryBytes) nodeMemoryBytes
  let gpuMemoryPercent ← workerGpuMemory gpu
  some {
    timestamp := sampledAt
    durationSec
    scope := "task"
    jobId := snapshot.jobId
    inputIndex := snapshot.inputIndex
    workerId := snapshot.workerId
    throttled := some (if snapshot.throttled then 1 else 0)
    memoryThrottled := some (if snapshot.memoryThrottled then 1 else 0)
    cpuSeconds
    cpuPercent
    memoryBytes := current.memoryBytes
    memoryPercent
    networkRxBytes := current.networkRxBytes - previous.networkRxBytes
    networkTxBytes := current.networkTxBytes - previous.networkTxBytes
    diskReadBytes := current.diskReadBytes - previous.diskReadBytes
    diskWriteBytes := current.diskWriteBytes - previous.diskWriteBytes
    gpuPercent := gpu.map GpuReading.gpuPercent
    gpuMemoryBytes := gpu.map GpuReading.memoryUsedBytes
    gpuMemoryPercent }

/-- What is read in one round. -/
structure Round where
  sampledAt : ℚ
  sampledMonotonic : ℚ
  counters : NodeCounters
  readings : List GpuReading
  /-- `SELF["current_job"]` -/
  jobId : Option String
  /-- Of the workers whose files could be read. -/
  snapshots : List WorkerSnapshot
  workerSampledAt : ℚ

/-- What one round leaves for the next. -/
structure Previous where
  node : NodeCounters
  nodeAt : ℚ
  workers : Dict String (ℚ × WorkerCounters)

namespace Round

variable (r : Round) (cpus : ℕ) (previous : Previous)

/-- The sample of a worker that runs an input, and was there in the last round. -/
def workerSamples (snapshot : WorkerSnapshot) : Option (List Measured) :=
  match previous.workers.get snapshot.containerId, snapshot.inputIndex with
  | some (previousAt, counters), some _ =>
    (taskSample cpus snapshot counters r.sampledAt (r.workerSampledAt - previousAt)
      r.counters.memoryTotalBytes r.readings).map fun m => [m]
  | _, _ => some []

/-- `_take_samples` -/
def takeSamples : Option (List Measured × Previous) := do
  let node ← nodeSample r.counters previous.node r.sampledAt (r.sampledMonotonic - previous.nodeAt)
    r.jobId r.readings
  let tasks ← r.snapshots.mapM (r.workerSamples cpus previous)
  let workers : Dict String (ℚ × WorkerCounters) := r.snapshots.foldl
    (fun d snapshot => d.set snapshot.containerId (r.workerSampledAt, snapshot.counters)) .empty
  some (node :: tasks.flatten, ⟨r.counters, r.sampledMonotonic, workers⟩)

end Round

/-! ### The head's table -/

/-- The row of a sample. -/
def Measured.row (instanceName : String) (m : Measured) : Sample where
  timestamp := m.timestamp
  durationSec := m.durationSec
  instanceName := instanceName
  scope := m.scope
  jobId := m.jobId
  inputIndex := m.inputIndex
  workerId := m.workerId
  cpuSeconds := m.cpuSeconds
  cpuPercent := m.cpuPercent
  memoryBytes := m.memoryBytes
  memoryPercent := m.memoryPercent
  networkRxBytes := m.networkRxBytes
  networkTxBytes := m.networkTxBytes
  diskReadBytes := m.diskReadBytes
  diskWriteBytes := m.diskWriteBytes
  gpuPercent := m.gpuPercent
  gpuMemoryBytes := m.gpuMemoryBytes
  gpuMemoryPercent := m.gpuMemoryPercent
  throttled := m.throttled
  memoryThrottled := m.memoryThrottled

/-- `INSERT OR IGNORE`, with the index `idx_resource_metrics_sample`. -/
def insertOrIgnore (rows : List (ℕ × Sample)) (m : Sample) : List (ℕ × Sample) :=
  if m.key ∈ rows.map (fun r => r.2.key) then rows
  else rows ++ [(History.Store.nextId (rows.map Prod.fst), m)]

/-- `add_resource_metrics`, on the rows of `resource_metrics`. -/
def addResourceMetrics (rows : List (ℕ × Sample)) (instanceName : String)
    (samples : List Measured) : List (ℕ × Sample) :=
  (samples.map (Measured.row instanceName)).foldl insertOrIgnore rows

/-! ### The loop -/

inductive LoopPhase
  | sampling
  /-- A post has not been answered; `arrived` is whether the head has it. -/
  | posting (arrived : Bool)
  /-- A round has raised. -/
  | dead
  deriving DecidableEq

/-- A node's loop and the head's table, with what has been read and taken. -/
structure Pipeline where
  previous : Previous
  /-- `pending_samples` -/
  pending : List Measured
  lastFlushAt : ℚ
  phase : LoopPhase
  /-- Posts that the node has given up, and the head has not got. -/
  late : List (List Measured)
  /-- `resource_metrics` -/
  table : List (ℕ × Sample)
  /-- The counters that were read so far, the newest first. -/
  readings : List NodeCounters
  /-- The samples that were taken so far. -/
  taken : List Measured

inductive LoopEvent
  /-- A round, and the time after it. -/
  | round (r : Round) (now : ℚ)
  /-- The post arrives. -/
  | arrive
  /-- The post is answered. -/
  | answer (now : ℚ)
  /-- The post fails, before it arrives or after. -/
  | fail (now : ℚ)
  /-- A post arrives that the node has given up. -/
  | arriveLate (i : ℕ)
  /-- Another node's samples arrive. -/
  | other (instanceName : String) (samples : List Measured)

namespace Pipeline

/-- `BATCH_INTERVAL_SEC` -/
def batchIntervalSec : ℚ := 5

/-- `BATCH_MAX_ROWS` -/
def batchMaxRows : ℕ := 5000

/-- `should_flush` -/
def shouldFlush (pending : List Measured) (lastFlushAt now : ℚ) : Prop :=
  batchIntervalSec ≤ now - lastFlushAt ∨ batchMaxRows ≤ pending.length

instance (pending : List Measured) (lastFlushAt now : ℚ) :
    Decidable (shouldFlush pending lastFlushAt now) :=
  inferInstanceAs (Decidable (_ ∨ _))

variable (name : String) (cpus : ℕ) (s : Pipeline)

/-- A round of the loop, up to the post. -/
def round (r : Round) (now : ℚ) : Pipeline :=
  match r.takeSamples cpus s.previous with
  | none => { s with phase := .dead }
  | some (samples, previous) =>
    let pending := s.pending ++ samples
    { s with
      previous, pending
      phase := if shouldFlush pending s.lastFlushAt now then .posting false else .sampling
      readings := r.counters :: s.readings
      taken := s.taken ++ samples }

def step : LoopEvent → Option Pipeline
  | .round r now => if s.phase = .sampling then some (s.round cpus r now) else none
  | .arrive =>
    if s.phase = .posting false then
      some { s with phase := .posting true, table := addResourceMetrics s.table name s.pending }
    else none
  | .answer now =>
    if s.phase = .posting true then
      some { s with phase := .sampling, pending := [], lastFlushAt := now }
    else none
  | .fail now =>
    match s.phase with
    | .posting arrived =>
      some { s with
        phase := .sampling
        late := if arrived then s.late else s.late ++ [s.pending]
        lastFlushAt := now }
    | _ => none
  | .arriveLate i =>
    (takeAt s.late i).map fun (samples, late) =>
      { s with late, table := addResourceMetrics s.table name samples }
  | .other instanceName samples =>
    if instanceName = name then none
    else some { s with table := addResourceMetrics s.table instanceName samples }

/-- The head has no rows of the node when its loop starts, and its index is unique. -/
def sys : System Pipeline LoopEvent where
  init s :=
    (∀ r ∈ s.table, r.2.instanceName ≠ name) ∧ s.pending = [] ∧ s.phase = .sampling ∧
      s.late = [] ∧ s.taken = [] ∧ s.readings = [s.previous.node] ∧
      (s.table.map fun r => r.2.key).Nodup
  step s := s.step name cpus

/-- The clock goes on from round to round, and workers have names of their own. -/
def inOrder (s : Pipeline) : LoopEvent → Prop
  | .round r _ => (∀ m ∈ s.taken, m.timestamp < r.sampledAt) ∧
      (r.snapshots.map WorkerSnapshot.workerId).Nodup
  | _ => True

instance (e : LoopEvent) : Decidable (inOrder s e) := by
  cases e <;> unfold inOrder <;> infer_instance

/-- The node's rows. -/
def rowsOf : List Sample := (s.table.map Prod.snd).filter fun r => r.instanceName = name

/-- The samples that the head does not have yet. -/
def waiting : List Measured := s.pending.filter fun m => m.row name ∉ s.table.map Prod.snd

end Pipeline

/-! ### Counters -/

/-- The counters whose growth a node's samples have. -/
inductive Counter
  | networkRx
  | networkTx
  | diskRead
  | diskWrite

namespace Counter

def ofNode : Counter → NodeCounters → ℤ
  | networkRx => NodeCounters.networkRxBytes
  | networkTx => NodeCounters.networkTxBytes
  | diskRead => NodeCounters.diskReadBytes
  | diskWrite => NodeCounters.diskWriteBytes

def ofSample : Counter → Sample → ℤ
  | networkRx => Sample.networkRxBytes
  | networkTx => Sample.networkTxBytes
  | diskRead => Sample.diskReadBytes
  | diskWrite => Sample.diskWriteBytes

/-- What the node's own samples have of it. -/
def total (c : Counter) (rows : List Sample) : ℤ :=
  ((rows.filter fun r => r.scope = "node").map c.ofSample).sum

end Counter

/-- What a counter has grown by, from its readings, the newest first; a fall counts nothing. -/
def growth : List ℤ → ℤ
  | x :: y :: l => max 0 (x - y) + growth (y :: l)
  | _ => 0

/-- **A counter that does not fall** has grown by the difference of its last and first readings. -/
lemma growth_eq_sub {l : List ℤ} {x y : ℤ} (h : (x :: l).Pairwise (· ≥ ·))
    (hlast : (x :: l).getLast? = some y) : growth (x :: l) = x - y := by
  induction l generalizing x with
  | nil =>
    obtain rfl : x = y := Option.some.inj hlast
    rw [growth, sub_self]
    rintro _ _ _ ⟨⟩
  | cons z l ih =>
    obtain ⟨hx, hl⟩ := List.pairwise_cons.1 h
    have hz : z ≤ x := hx z List.mem_cons_self
    rw [List.getLast?_cons_cons] at hlast
    rw [growth, ih hl hlast]
    omega

section Total

variable {c : Counter} {rows rows' : List Sample} {m : Sample}

lemma Counter.total_append : c.total (rows ++ rows') = c.total rows + c.total rows' := by
  rw [total, List.filter_append, List.map_append, List.sum_append]
  rfl

lemma Counter.total_perm (h : rows.Perm rows') : c.total rows = c.total rows' :=
  ((h.filter _).map _).sum_eq

lemma Counter.total_cons : c.total (m :: rows) =
    (if m.scope = "node" then c.ofSample m else 0) + c.total rows := by
  rw [total, List.filter_cons]
  by_cases hm : m.scope = "node"
  · rw [if_pos (decide_eq_true hm), if_pos hm, List.map_cons, List.sum_cons]
    rfl
  · rw [if_neg (by simpa using hm), if_neg hm, zero_add]
    rfl

/-- Samples of workers have nothing of a node's counters. -/
lemma Counter.total_of_forall (h : ∀ r ∈ rows, r.scope ≠ "node") : c.total rows = 0 := by
  rw [total, List.filter_eq_nil_iff.2 fun r hr => by simpa using h r hr]
  rfl

end Total

/-! ### What a round takes -/

/-- What tells the samples of a node apart. -/
def Measured.key (m : Measured) : ℚ × String × String := (m.timestamp, m.scope, m.workerId)

section Take

variable {r : Round} {cpus : ℕ} {previous previous' : Previous} {samples : List Measured}

lemma workerSamples_spec {snapshot : WorkerSnapshot}
    (h : r.workerSamples cpus previous snapshot = some samples) :
    samples = [] ∨ ∃ m, samples = [m] ∧ m.timestamp = r.sampledAt ∧ m.scope = "task" ∧
      m.workerId = snapshot.workerId := by
  rw [Round.workerSamples] at h
  split at h
  · obtain ⟨m, hm, rfl⟩ := Option.map_eq_some_iff.1 h
    refine .inr ⟨m, rfl, ?_⟩
    simp only [taskSample, Option.bind_eq_bind, Option.bind_eq_some_iff] at hm
    obtain ⟨gpu, -, cpuPercent, -, memoryPercent, -, gpuMemoryPercent, -, hm⟩ := hm
    obtain rfl := Option.some.inj hm
    exact ⟨rfl, rfl, rfl⟩
  · exact .inl (Option.some.inj h).symm

/-- The samples of the workers, in their order, of some of them. -/
lemma tasks_spec {snapshots : List WorkerSnapshot} {tasks : List (List Measured)}
    (h : snapshots.mapM (r.workerSamples cpus previous) = some tasks) :
    (∀ m ∈ tasks.flatten, m.timestamp = r.sampledAt ∧ m.scope = "task") ∧
      (tasks.flatten.map Measured.workerId).Sublist (snapshots.map WorkerSnapshot.workerId) := by
  induction snapshots generalizing tasks with
  | nil =>
    obtain rfl : tasks = [] := (Option.some.inj h).symm
    exact ⟨fun m hm => absurd hm List.not_mem_nil, .slnil⟩
  | cons snapshot snapshots ih =>
    simp only [List.mapM_cons, Option.bind_eq_bind, Option.bind_eq_some_iff, Option.pure_def,
      Option.some.injEq] at h
    obtain ⟨one, hone, rest, hrest, rfl⟩ := h
    obtain ⟨hforall, hsublist⟩ := ih hrest
    rw [List.flatten_cons, List.map_append, List.map_cons]
    rcases workerSamples_spec hone with rfl | ⟨m, rfl, htime, hscope, hworker⟩
    · exact ⟨hforall, hsublist.cons _⟩
    · refine ⟨fun m' hm' => ?_, ?_⟩
      · rcases List.mem_cons.1 hm' with rfl | hm'
        · exact ⟨htime, hscope⟩
        · exact hforall m' hm'
      · rw [List.map_singleton, hworker]
        exact hsublist.cons_cons _

/-- **What a round takes**: a sample of the node, with what its counters have grown by, and samples
of workers. -/
lemma takeSamples_spec (name : String)
    (h : r.takeSamples cpus previous = some (samples, previous')) :
    previous'.node = r.counters ∧ ∃ node tasks, samples = node :: tasks ∧
      (node.timestamp = r.sampledAt ∧ node.scope = "node") ∧
      (∀ c : Counter, c.ofSample (node.row name) =
        max 0 (c.ofNode r.counters - c.ofNode previous.node)) ∧
      (∀ m ∈ tasks, m.timestamp = r.sampledAt ∧ m.scope = "task") ∧
      (tasks.map Measured.workerId).Sublist (r.snapshots.map WorkerSnapshot.workerId) := by
  simp only [Round.takeSamples, Option.bind_eq_bind, Option.bind_eq_some_iff] at h
  obtain ⟨node, hnode, tasks, htasks, h⟩ := h
  obtain ⟨rfl, rfl⟩ := Prod.mk.inj (Option.some.inj h)
  simp only [nodeSample, Option.bind_eq_bind, Option.bind_eq_some_iff] at hnode
  obtain ⟨cpuPercent, -, memoryPercent, -, gpu, -, hnode⟩ := hnode
  obtain rfl := Option.some.inj hnode
  obtain ⟨hforall, hsublist⟩ := tasks_spec htasks
  refine ⟨rfl, _, _, rfl, ⟨rfl, rfl⟩, fun c => ?_, hforall, hsublist⟩
  cases c <;> rfl

end Take

/-! ### What the table has -/

section Table

variable {rows : List (ℕ × Sample)} {name : String} {samples : List Measured} {m : Measured}
  {r : Sample}

lemma map_snd_addResourceMetrics : (addResourceMetrics rows name samples).map Prod.snd =
    Once.putAll Sample.key (rows.map Prod.snd) (samples.map (Measured.row name)) := by
  rw [addResourceMetrics]
  generalize samples.map (Measured.row name) = new
  induction new generalizing rows with
  | nil => rfl
  | cons m new ih =>
    rw [List.foldl_cons, ih, Once.putAll, Once.putAll, List.foldl_cons]
    congr 1
    rw [insertOrIgnore, Once.put, List.map_map]
    split
    · rename_i hold
      exact (if_pos hold).symm
    · rename_i hnew
      rw [List.map_append]
      exact (if_neg hnew).symm

lemma nodup_addResourceMetrics (h : (rows.map fun r => r.2.key).Nodup) :
    ((addResourceMetrics rows name samples).map fun r => r.2.key).Nodup := by
  have hkeys : ∀ l : List (ℕ × Sample),
      l.map (fun r => r.2.key) = (l.map Prod.snd).map Sample.key := by
    intro l
    rw [List.map_map]
    rfl
  rw [hkeys] at h ⊢
  rw [map_snd_addResourceMetrics]
  exact Once.nodup_putAll h

/-- Rows stay, and each new one is of a sample that was posted. -/
lemma mem_addResourceMetrics (h : r ∈ (addResourceMetrics rows name samples).map Prod.snd) :
    r ∈ rows.map Prod.snd ∨ ∃ m ∈ samples, m.row name = r := by
  rw [map_snd_addResourceMetrics, Once.mem_putAll] at h
  rcases h with h | ⟨-, h⟩
  · exact .inl h
  · exact .inr (List.mem_map.1 (List.mem_of_find?_eq_some h))

lemma mem_addResourceMetrics_of_mem (h : r ∈ rows.map Prod.snd) :
    r ∈ (addResourceMetrics rows name samples).map Prod.snd := by
  rw [map_snd_addResourceMetrics, Once.mem_putAll]
  exact .inl h

/-- Each posted sample has a row of its key afterwards. -/
lemma exists_row (h : m ∈ samples) :
    ∃ r ∈ (addResourceMetrics rows name samples).map Prod.snd, r.key = (m.row name).key := by
  rw [map_snd_addResourceMetrics]
  have hname : (m.row name).key ∈ (samples.map (Measured.row name)).map Sample.key :=
    List.mem_map_of_mem (List.mem_map_of_mem h)
  exact List.mem_map.1 (Once.mem_names_putAll.2 (.inr hname))

end Table

/-! ### Along a run -/

namespace Pipeline

variable {name : String} {cpus : ℕ} {s t : Pipeline} {e : LoopEvent}

/-- The head has the node's samples, but for some that are pending, and nothing else of it. -/
structure Counted (name : String) (s : Pipeline) : Prop where
  takenKeys : (s.taken.map Measured.key).Nodup
  tableKeys : (s.table.map fun r => r.2.key).Nodup
  own : ∀ r ∈ s.table.map Prod.snd, r.instanceName = name → ∃ m ∈ s.taken, m.row name = r
  kept : ∀ m ∈ s.taken, m ∈ s.pending ∨ m.row name ∈ s.table.map Prod.snd
  pending : s.pending.Sublist s.taken
  late : ∀ batch ∈ s.late, batch ⊆ s.taken
  arrived : s.phase = .posting true → ∀ m ∈ s.pending, m.row name ∈ s.table.map Prod.snd
  latest : s.readings.head? = some s.previous.node
  counted : ∀ c : Counter,
    c.total (s.taken.map (Measured.row name)) = growth (s.readings.map c.ofNode)

/-- The keys of taken samples are different, also as rows. -/
lemma Counted.eq_of_key (h : s.Counted name) {m m' : Measured} (hm : m ∈ s.taken)
    (hm' : m' ∈ s.taken) (hkey : (m.row name).key = (m'.row name).key) : m = m' :=
  List.inj_on_of_nodup_map h.takenKeys hm hm' (Prod.mk.inj hkey).2

/-- A post of taken samples: afterwards they are all there, and of the node there is still nothing
else. -/
lemma Counted.add (h : s.Counted name) {samples : List Measured} (hsamples : samples ⊆ s.taken) :
    (∀ r ∈ (addResourceMetrics s.table name samples).map Prod.snd, r.instanceName = name →
      ∃ m ∈ s.taken, m.row name = r) ∧
    ∀ m ∈ samples, m.row name ∈ (addResourceMetrics s.table name samples).map Prod.snd := by
  have hown : ∀ r ∈ (addResourceMetrics s.table name samples).map Prod.snd,
      r.instanceName = name → ∃ m ∈ s.taken, m.row name = r := by
    intro r hr hname
    rcases mem_addResourceMetrics hr with hold | ⟨m, hm, rfl⟩
    · exact h.own r hold hname
    · exact ⟨m, hsamples hm, rfl⟩
  refine ⟨hown, fun m hm => ?_⟩
  obtain ⟨r, hr, hkey⟩ : ∃ r ∈ (addResourceMetrics s.table name samples).map Prod.snd,
      r.key = (m.row name).key := exists_row hm
  obtain ⟨m', hm', rfl⟩ := hown r hr (Prod.mk.inj hkey).1
  rwa [h.eq_of_key (hsamples hm) hm' hkey.symm]

/-- What a round takes is new, and counts what the counters have grown by. -/
lemma Counted.take (h : s.Counted name) {r : Round} {now : ℚ} {samples : List Measured}
    {previous : Previous} (htake : r.takeSamples cpus s.previous = some (samples, previous))
    (hok : s.inOrder (.round r now)) :
    ((s.taken ++ samples).map Measured.key).Nodup ∧ previous.node = r.counters ∧
      ∀ c : Counter, c.total ((s.taken ++ samples).map (Measured.row name)) =
        growth ((r.counters :: s.readings).map c.ofNode) := by
  obtain ⟨hnode, node, tasks, rfl, ⟨htime, hscope⟩, hcount, htasks, hsublist⟩ :=
    takeSamples_spec name htake
  obtain ⟨hlater, hworkers⟩ := hok
  refine ⟨?_, hnode, fun c => ?_⟩
  · rw [List.map_append, List.map_cons]
    refine h.takenKeys.append (List.nodup_cons.2 ⟨?_, ?_⟩) ?_
    · -- the node's sample and those of workers differ in their scope
      rintro hmem
      obtain ⟨m, hm, hkey⟩ := List.mem_map.1 hmem
      have hsame : m.scope = node.scope := (Prod.mk.inj (Prod.mk.inj hkey).2).1
      rw [(htasks m hm).2, hscope] at hsame
      exact absurd hsame (by decide)
    · refine List.Nodup.of_map (fun k : ℚ × String × String => k.2.2) ?_
      rw [List.map_map]
      exact hsublist.nodup hworkers
    · -- those of the round are later than all before
      intro k hk hnew
      obtain ⟨m, hm, rfl⟩ := List.mem_map.1 hk
      have hround : m.key.1 = r.sampledAt := by
        rcases List.mem_cons.1 hnew with hnew | hnew
        · rw [hnew]
          exact htime
        · obtain ⟨m', hm', hkey⟩ := List.mem_map.1 hnew
          rw [← hkey]
          exact (htasks m' hm').1
      exact absurd (hlater m hm) (not_lt_of_ge hround.ge)
  · have hnone : c.total (tasks.map (Measured.row name)) = 0 := by
      refine Counter.total_of_forall fun row hrow => ?_
      obtain ⟨m, hm, rfl⟩ := List.mem_map.1 hrow
      show m.scope ≠ "node"
      rw [(htasks m hm).2]
      decide
    rw [List.map_append, Counter.total_append, List.map_cons, Counter.total_cons, hnone,
      if_pos (show (node.row name).scope = "node" from hscope), hcount, h.counted, add_zero]
    obtain ⟨readings, hreadings⟩ := List.head?_eq_some_iff.1 h.latest
    have hgrowth : growth ((r.counters :: s.readings).map c.ofNode) =
        max 0 (c.ofNode r.counters - c.ofNode s.previous.node) +
          growth (s.readings.map c.ofNode) := by
      rw [hreadings]
      rfl
    rw [hgrowth, add_comm]

/-- Another post than the node's, or one of its own again, changes nothing but the table. -/
lemma Counted.of_table (h : s.Counted name) (hphase : t.phase ≠ .posting true ∨ t.phase = s.phase)
    (htaken : t.taken = s.taken) (hreadings : t.readings = s.readings)
    (hprevious : t.previous = s.previous) (hpending : t.pending = s.pending)
    (hlate : t.late ⊆ s.late) (hkeys : (t.table.map fun r => r.2.key).Nodup)
    (hown : ∀ r ∈ t.table.map Prod.snd, r.instanceName = name → ∃ m ∈ s.taken, m.row name = r)
    (hold : s.table.map Prod.snd ⊆ t.table.map Prod.snd) : t.Counted name where
  takenKeys := htaken ▸ h.takenKeys
  tableKeys := hkeys
  own := htaken ▸ hown
  kept m hm := by
    rw [hpending]
    exact (h.kept m (htaken ▸ hm)).imp_right fun hm => hold hm
  pending := by
    rw [hpending, htaken]
    exact h.pending
  late batch hbatch := htaken ▸ h.late batch (hlate hbatch)
  arrived ht m hm := by
    rcases hphase with hne | heq
    · exact absurd ht hne
    · exact hold (h.arrived (heq ▸ ht) m (hpending ▸ hm))
  latest := by
    rw [hreadings, hprevious]
    exact h.latest
  counted := by
    rw [hreadings, htaken]
    exact h.counted

lemma Counted.step (h : s.Counted name) (hok : s.inOrder e) (hstep : s.step name cpus e = some t) :
    t.Counted name := by
  cases e with
  | round r now =>
    simp only [Pipeline.step] at hstep
    split at hstep
    · obtain rfl := Option.some.inj hstep
      rw [round]
      split
      · exact h.of_table (.inl nofun) rfl rfl rfl rfl (List.Subset.refl _) h.tableKeys h.own
          (List.Subset.refl _)
      · rename_i samples previous htake
        obtain ⟨hkeys, hnode, hcounted⟩ := h.take htake hok
        have hsubset : s.taken ⊆ s.taken ++ samples := List.subset_append_left _ _
        exact {
          takenKeys := hkeys
          tableKeys := h.tableKeys
          own := fun r hr hname =>
            (h.own r hr hname).imp fun m hm => ⟨hsubset hm.1, hm.2⟩
          kept := fun m hm => by
            rcases List.mem_append.1 hm with hm | hm
            · exact (h.kept m hm).imp_left fun hm => List.mem_append_left _ hm
            · exact .inl (List.mem_append_right _ hm)
          pending := h.pending.append (.refl _)
          late := fun batch hbatch => List.Subset.trans (h.late batch hbatch) hsubset
          arrived := fun hphase => by
            dsimp only at hphase
            split at hphase <;> cases hphase
          latest := congrArg some hnode.symm
          counted := hcounted }
    · cases hstep
  | arrive =>
    simp only [Pipeline.step] at hstep
    split at hstep
    · obtain rfl := Option.some.inj hstep
      obtain ⟨hown, hadded⟩ := h.add h.pending.subset
      exact { h with
        tableKeys := nodup_addResourceMetrics h.tableKeys
        own := hown
        kept := fun m hm => (h.kept m hm).imp_right mem_addResourceMetrics_of_mem
        arrived := fun _ => hadded }
    · cases hstep
  | answer now =>
    simp only [Pipeline.step] at hstep
    split at hstep
    · rename_i hphase
      obtain rfl := Option.some.inj hstep
      exact { h with
        kept := fun m hm => .inr ((h.kept m hm).elim (h.arrived hphase m) id)
        pending := List.nil_sublist _
        arrived := fun _ m hm => absurd hm List.not_mem_nil }
    · cases hstep
  | fail now =>
    simp only [Pipeline.step] at hstep
    split at hstep
    · obtain rfl := Option.some.inj hstep
      refine { h with late := fun batch hbatch => ?_, arrived := nofun }
      dsimp only at hbatch
      split at hbatch
      · exact h.late batch hbatch
      · rcases List.mem_append.1 hbatch with hbatch | hbatch
        · exact h.late batch hbatch
        · obtain rfl := List.mem_singleton.1 hbatch
          exact h.pending.subset
    · cases hstep
  | arriveLate i =>
    obtain ⟨⟨samples, late⟩, htake, rfl⟩ := Option.map_eq_some_iff.1 hstep
    exact h.of_table (.inr rfl) rfl rfl rfl rfl (fun _ => mem_of_mem_rest htake)
      (nodup_addResourceMetrics h.tableKeys) (h.add (h.late _ (mem_of_takeAt htake))).1
      (fun _ => mem_addResourceMetrics_of_mem)
  | other instanceName samples =>
    simp only [Pipeline.step] at hstep
    split at hstep
    · cases hstep
    · rename_i hother
      obtain rfl := Option.some.inj hstep
      refine h.of_table (.inr rfl) rfl rfl rfl rfl (List.Subset.refl _)
        (nodup_addResourceMetrics h.tableKeys) (fun r hr hname => ?_)
        (fun _ => mem_addResourceMetrics_of_mem)
      rcases mem_addResourceMetrics hr with hold | ⟨m, -, rfl⟩
      · exact h.own r hold hname
      · exact absurd hname hother

lemma counted_invariant : (sys name cpus).Invariant inOrder (Counted name) where
  init := by
    rintro s ⟨hnone, hpending, hphase, hlate, htaken, hreadings, hkeys⟩
    refine ⟨?_, hkeys, fun r hr hname => ?_, fun m hm => ?_, ?_, fun batch hbatch => ?_,
      fun hposting => ?_, ?_, fun c => ?_⟩
    · rw [htaken]
      exact List.nodup_nil
    · obtain ⟨row, hrow, rfl⟩ := List.mem_map.1 hr
      exact absurd hname (hnone row hrow)
    · rw [htaken] at hm
      cases hm
    · rw [hpending]
      exact List.nil_sublist _
    · rw [hlate] at hbatch
      cases hbatch
    · rw [hphase] at hposting
      cases hposting
    · rw [hreadings]
      rfl
    · rw [htaken, hreadings]
      rfl
  step _ _ _ h hok hstep := h.step hok hstep

/-- The node's rows, with the samples that wait, are what was taken. -/
lemma Counted.perm (h : s.Counted name) :
    (s.rowsOf name ++ (s.waiting name).map (Measured.row name)).Perm
      (s.taken.map (Measured.row name)) := by
  have hinj : ∀ m ∈ s.taken, ∀ m' ∈ s.taken, m.row name = m'.row name → m = m' :=
    fun m hm m' hm' hrow => h.eq_of_key hm hm' (congrArg Sample.key hrow)
  have htaken : (s.taken.map (Measured.row name)).Nodup :=
    h.takenKeys.of_map.map_on hinj
  have hrows : (s.rowsOf name).Nodup := by
    refine List.Nodup.filter _ (List.Nodup.of_map Sample.key ?_)
    rw [List.map_map]
    exact h.tableKeys
  have hwaiting : ((s.waiting name).map (Measured.row name)).Nodup :=
    htaken.sublist ((List.filter_sublist.trans h.pending).map _)
  have happend : (s.rowsOf name ++ (s.waiting name).map (Measured.row name)).Nodup := by
    refine hrows.append hwaiting fun r hr hnew => ?_
    obtain ⟨m, hm, rfl⟩ := List.mem_map.1 hnew
    exact absurd (List.mem_filter.1 hr).1 (of_decide_eq_true (List.mem_filter.1 hm).2)
  refine (List.perm_ext_iff_of_nodup happend htaken).2 fun r => ?_
  rw [List.mem_append, List.mem_map]
  constructor
  · rintro (hr | ⟨m, hm, rfl⟩)
    · obtain ⟨hr, hname⟩ := List.mem_filter.1 hr
      exact List.mem_map.2 (h.own r hr (of_decide_eq_true hname))
    · exact List.mem_map_of_mem (h.pending.subset (List.mem_filter.1 hm).1)
  · intro hr
    obtain ⟨m, hm, rfl⟩ := List.mem_map.1 hr
    by_cases htable : m.row name ∈ s.table.map Prod.snd
    · exact .inl (List.mem_filter.2 ⟨htable, decide_eq_true rfl⟩)
    · have hpending := (h.kept m hm).resolve_right htable
      exact .inr ⟨m, List.mem_filter.2 ⟨hpending, decide_eq_true htable⟩, rfl⟩

/-- **Samples count once**: in every run, whatever is posted again or arrives late, the head's rows
of the node, with the samples that it does not have yet, are the samples that were taken, each once.
Their counts add up to what the node's counters have grown by, which is the difference of the last
and first readings for one that has not fallen. -/
theorem counted_once (hr : (sys name cpus).Reachable inOrder s) :
    (s.rowsOf name ++ (s.waiting name).map (Measured.row name)).Perm
      (s.taken.map (Measured.row name)) ∧
    ∀ c : Counter,
      c.total (s.rowsOf name) + c.total ((s.waiting name).map (Measured.row name)) =
        growth (s.readings.map c.ofNode) ∧
      ((s.readings.map c.ofNode).Pairwise (· ≥ ·) → ∀ first, s.readings.getLast? = some first →
        c.total (s.rowsOf name) + c.total ((s.waiting name).map (Measured.row name)) =
          c.ofNode s.previous.node - c.ofNode first) := by
  have h := counted_invariant.reachable hr
  have htotal : ∀ c : Counter,
      c.total (s.rowsOf name) + c.total ((s.waiting name).map (Measured.row name)) =
        growth (s.readings.map c.ofNode) := fun c => by
    rw [← Counter.total_append, Counter.total_perm h.perm, h.counted]
  refine ⟨h.perm, fun c => ⟨htotal c, fun hfalls first hfirst => ?_⟩⟩
  obtain ⟨readings, hreadings⟩ := List.head?_eq_some_iff.1 h.latest
  rw [htotal, hreadings]
  rw [hreadings] at hfalls hfirst
  refine growth_eq_sub hfalls ?_
  rw [← List.map_cons, List.getLast?_map, hfirst]
  rfl

/-! ### Posts that fail -/

section Example

def countersAt (rx read : ℤ) (cpu : ℚ) : NodeCounters := ⟨2 * cpu, cpu, 1, 2, rx, 0, read, 0⟩

/-- One worker, at its input 7 from the second round on. -/
def roundAt (t : ℚ) (rx read : ℤ) (cpu : ℚ) (inputIndex : Option ℤ) : Round :=
  ⟨t, t, countersAt rx read cpu, [], some "j",
    [⟨"c", "w", some "j", inputIndex, none, false, false, ⟨0, 1, rx, 0, 0, 0⟩⟩], t⟩

def begun : Pipeline :=
  ⟨⟨countersAt 100 0 1, 0, .empty⟩, [], 0, .sampling, [], [], [countersAt 100 0 1], []⟩

/-- The first post fails and arrives late, the answer to the second is lost, and the disk counter
falls once. -/
def retries : List LoopEvent :=
  [.round (roundAt 1 110 40 2 none) 6, .fail 7, .round (roundAt 8 130 50 3 (some 7)) 13, .arrive,
    .arriveLate 0, .fail 14, .round (roundAt 15 130 10 4 (some 7)) 20, .arrive, .answer 21,
    .round (roundAt 22 175 30 5 (some 7)) 23]

theorem counted_once_retries : ∃ s, (sys "n" 4).Reachable inOrder s ∧
    (s.rowsOf "n" ++ (s.waiting "n").map (Measured.row "n")).Perm
      (s.taken.map (Measured.row "n")) ∧
    (s.rowsOf "n").length = 5 ∧ Counter.networkRx.total (s.rowsOf "n") = 30 ∧
    (s.waiting "n").length = 2 ∧
    Counter.diskRead.total ((s.waiting "n").map (Measured.row "n")) = 20 := by
  have hrun : (sys "n" 4).Run inOrder begun retries
      ((((sys "n" 4).guarded inOrder).exec begun retries).get (by decide +kernel)) :=
    System.run_of_exec_guarded (Option.some_get _).symm
  have hinit : (sys "n" 4).init begun :=
    ⟨fun r hr => absurd hr List.not_mem_nil, rfl, rfl, rfl, rfl, rfl, List.nodup_nil⟩
  have hreachable := counted_once ⟨begun, retries, hinit, hrun⟩
  exact ⟨_, ⟨begun, retries, hinit, hrun⟩, hreachable.1, by decide +kernel, by decide +kernel,
    by decide +kernel, by decide +kernel⟩

end Example

end Pipeline

end Burla.Metrics
