/-
The import of a history snapshot into a new head (`import_snapshot` and
`_validate_attached_snapshot` in history.py, `_import_history_snapshot` in cluster_lifecycle.py).

Each statement may fail, and then everything is rolled back.  The rows of a SELECT come in the
order of their table; by an index they would come call by call, which no view of a call's rows
tells apart.

The main result is `Burla.History.history_kept_iff`: an import that succeeds keeps the history of
the jobs that have ended exactly when the snapshot has no call events of theirs, since
`call_events` is validated and required to be empty, but not copied.
-/
import Burla.History.Calls

namespace Burla.History

/-! ### Databases -/

/-- `_IMPORT_TABLES` -/
inductive ImportTable
  | jobs
  | jobLogs
  | nodes
  | nodeLogs
  | resourceMetrics
  | callEvents
  | debugLogs
  | clusterConfig
  | historyImports
  deriving DecidableEq

namespace ImportTable

def name : ImportTable → String
  | jobs => "jobs"
  | jobLogs => "job_logs"
  | nodes => "nodes"
  | nodeLogs => "node_logs"
  | resourceMetrics => "resource_metrics"
  | callEvents => "call_events"
  | debugLogs => "debug_logs"
  | clusterConfig => "cluster_config"
  | historyImports => "history_imports"

def all : List ImportTable :=
  [jobs, jobLogs, nodes, nodeLogs, resourceMetrics, callEvents, debugLogs, clusterConfig,
    historyImports]

/-- `_EMPTY_IMPORT_TABLES` -/
def empty : List ImportTable := all.filter fun table => table ≠ clusterConfig

end ImportTable

/-- A row of `PRAGMA table_info`. -/
structure ColumnInfo where
  name : String
  type : String
  notNull : Bool
  default : Option String
  primaryKey : ℕ
  deriving DecidableEq

/-- A database file: its rows, its columns, and what `PRAGMA integrity_check` says. -/
structure Database where
  store : Store
  tableInfo : ImportTable → List ColumnInfo
  integrity : List String

inductive ImportError
  | notEmpty (tables : List ImportTable)
  | integrity (rows : List String)
  | incompatible (table : ImportTable)
  | unique (table : ImportTable)
  /-- The deployed head has no configuration, or no node in it. -/
  | config (message : String)
  /-- A statement has failed. -/
  | failed (message : String)
  deriving DecidableEq

def ImportError.message : ImportError → String
  | notEmpty tables =>
    "history can only be imported into an empty head; found rows in " ++
      ", ".intercalate (tables.map ImportTable.name)
  | integrity rows =>
    "history snapshot integrity check failed: " ++ ", ".intercalate rows
  | incompatible table => "history snapshot has an incompatible " ++ table.name ++ " schema"
  | unique table => "UNIQUE constraint failed: " ++ table.name
  | config message => message
  | failed message => message

/-- `status IN (…)`, with `_ENDED_JOB_STATUSES`. -/
def JobRow.ended (j : JobRow) : Bool := j.status.any (· ∈ ["COMPLETED", "FAILED", "CANCELED"])

/-- `status IN (…)`, with `_ENDED_NODE_STATUSES`. -/
def NodeRow.ended (n : NodeRow) : Bool := n.status.any (· ∈ ["DELETED", "FAILED"])

/-- The columns of `idx_resource_metrics_sample`. -/
def Sample.key (m : Sample) : String × ℚ × String × String :=
  (m.instanceName, m.timestamp, m.scope, m.workerId)

namespace Store

variable (s : Store)

/-- Whether a table has a row. -/
def hasRows : ImportTable → Bool
  | .jobs => !s.jobs.isEmpty
  | .jobLogs => !s.jobLogs.isEmpty
  | .nodes => !s.nodes.isEmpty
  | .nodeLogs => !s.nodeLogs.isEmpty
  | .resourceMetrics => !s.resourceMetrics.isEmpty
  | .callEvents => !s.callEvents.isEmpty
  | .debugLogs => !s.debugLogs.isEmpty
  | .clusterConfig => s.clusterConfig.isSome
  | .historyImports => !s.historyImports.isEmpty

/-- `SELECT job_id FROM jobs` -/
def jobIds : List String := s.jobs.map JobRow.jobId

/-- `SELECT instance_name FROM nodes` -/
def nodeNames : List String := s.nodes.map NodeRow.instanceName

/-! ### The statements -/

/-- The next id that a table gives out. -/
def nextId (ids : List ℕ) : ℕ := ids.foldr max 0 + 1

def insertJobs (snapshot : Store) : Except ImportError Store :=
  let jobs := s.jobs ++ snapshot.jobs.filter JobRow.ended
  if h : (jobs.map JobRow.jobId).Nodup then .ok { s with jobs := jobs, jobs_key := h }
  else .error (.unique .jobs)

def insertJobLogs (snapshot : Store) : Store :=
  let rows := snapshot.jobLogs.filter fun l => l.jobId.any (· ∈ s.jobIds)
  { s with jobLogs := s.jobLogs ++
      rows.mapIdx fun i l => { l with id := nextId (s.jobLogs.map JobLogRow.id) + i } }

def insertNodes (snapshot : Store) : Except ImportError Store :=
  let nodes := s.nodes ++ snapshot.nodes.filter NodeRow.ended
  if h : (nodes.map NodeRow.instanceName).Nodup then .ok { s with nodes := nodes, nodes_key := h }
  else .error (.unique .nodes)

def insertNodeLogs (snapshot : Store) : Store :=
  let rows := snapshot.nodeLogs.filter fun l => l.instanceName.any (· ∈ s.nodeNames)
  { s with nodeLogs := s.nodeLogs ++
      rows.mapIdx fun i l => { l with id := nextId (s.nodeLogs.map NodeLogRow.id) + i } }

/-- The samples of the jobs, and the nodes' own samples. -/
def takesSample (m : Sample) : Bool :=
  m.jobId.any (· ∈ s.jobIds) || (m.scope = "node" && m.instanceName ∈ s.nodeNames)

def insertMetrics (snapshot : Store) : Except ImportError Store :=
  let rows := (snapshot.resourceMetrics.map Prod.snd).filter s.takesSample
  let metrics := s.resourceMetrics ++
    rows.mapIdx fun i m => (nextId (s.resourceMetrics.map Prod.fst) + i, m)
  if (metrics.map fun m => m.2.key).Nodup then .ok { s with resourceMetrics := metrics }
  else .error (.unique .resourceMetrics)

def upsertConfig (config : Option ClusterConfig) : Store :=
  { s with clusterConfig := config.or s.clusterConfig }

def insertImport (digest : String) (now : ℚ) : Store :=
  { s with historyImports := s.historyImports ++ [(digest, now)] }

end Store

/-- `_validate_attached_snapshot` -/
def validateAttachedSnapshot (target snapshot : Database) : Except ImportError Unit :=
  if snapshot.integrity ≠ ["ok"] then .error (.integrity snapshot.integrity)
  else
    match ImportTable.all.find? fun table => snapshot.tableInfo table ≠ target.tableInfo table with
    | some table => .error (.incompatible table)
    | none => .ok ()

/-- The statement of this number may fail. -/
def statement {α : Type} (fault : ℕ → Option String) (n : ℕ) (result : Except ImportError α) :
    Except ImportError α :=
  match fault n with
  | some message => .error (.failed message)
  | none => result

/-- What is done between the ATTACH and the commit. -/
def copySnapshot (target snapshot : Database) (digest : String) (config : Option ClusterConfig)
    (now : ℚ) (fault : ℕ → Option String) : Except ImportError Store := do
  statement fault 0 (validateAttachedSnapshot target snapshot)
  let s ← statement fault 1 (target.store.insertJobs snapshot.store)
  let s ← statement fault 2 (.ok (s.insertJobLogs snapshot.store))
  let s ← statement fault 3 (s.insertNodes snapshot.store)
  let s ← statement fault 4 (.ok (s.insertNodeLogs snapshot.store))
  let s ← statement fault 5 (s.insertMetrics snapshot.store)
  let s ← statement fault 6 (.ok (s.upsertConfig config))
  statement fault 7 (.ok (s.insertImport digest now))

/-- `import_snapshot` -/
def importSnapshot (target snapshot : Database) (digest : String) (config : Option ClusterConfig)
    (now : ℚ) (fault : ℕ → Option String) : Database × Except ImportError Bool :=
  if digest ∈ target.store.historyImports.map Prod.fst then (target, .ok false)
  else
    let nonempty := ImportTable.empty.filter target.store.hasRows
    if nonempty ≠ [] then (target, .error (.notEmpty nonempty))
    else
      match copySnapshot target snapshot digest config now fault with
      | .ok s => ({ target with store := s }, .ok true)
      -- Everything is rolled back.
      | .error e => (target, .error e)

/-- The snapshot's configuration with the bucket of the deployed head, and on AWS its region. -/
def deployedConfig (onAws : Bool) (deployed : Option ClusterConfig) (config : ClusterConfig) :
    Except ImportError ClusterConfig :=
  match deployed with
  | none => .error (.config "'NoneType' object has no attribute 'get'")
  | some deployed =>
    let config := { config with gcsBucketName := deployed.gcsBucketName }
    if onAws then
      match deployed.nodes with
      | [] => .error (.config "list index out of range")
      | node :: _ =>
        .ok { config with
          nodes := config.nodes.map fun spec => { spec with gcpRegion := node.gcpRegion } }
    else .ok config

/-- `_import_history_snapshot` -/
def importHistorySnapshot (onAws : Bool) (target snapshot : Database) (digest : String) (now : ℚ)
    (fault : ℕ → Option String) : Database × Except ImportError Bool :=
  match snapshot.store.clusterConfig with
  | none => importSnapshot target snapshot digest none now fault
  | some config =>
    match deployedConfig onAws target.store.clusterConfig config with
    | .error e => (target, .error e)
    | .ok config => importSnapshot target snapshot digest (some config) now fault

/-! ### The claim and the condition -/

/-- A log row but for its id. -/
def JobLogRow.content (l : JobLogRow) : JobLogRow := { l with id := 0 }

namespace Store

variable (s : Store)

/-- The logs of a call, or the notices of the job. -/
def jobLogsOf (jobId : String) (index : Option ℤ) : List JobLogRow :=
  s.jobLogs.filter fun l => l.jobId = some jobId ∧ l.inputIndex = index

def jobSamples (jobId : String) : List Sample :=
  (s.resourceMetrics.map Prod.snd).filter fun m => m.jobId = some jobId

def jobEvents (jobId : String) : List CallEventRow :=
  s.callEvents.filter fun e => e.jobId = jobId

end Store

/-- What has been imported of the snapshot has the history that it had there. -/
structure KeepsJobs (snapshot s : Store) : Prop where
  jobs : s.jobs = snapshot.jobs.filter JobRow.ended
  logs : ∀ j ∈ s.jobs, ∀ index, (s.jobLogsOf j.jobId index).map JobLogRow.content =
    (snapshot.jobLogsOf j.jobId index).map JobLogRow.content
  metrics : ∀ j ∈ s.jobs, s.jobSamples j.jobId = snapshot.jobSamples j.jobId
  events : ∀ j ∈ s.jobs, s.jobEvents j.jobId = snapshot.jobEvents j.jobId
  summaries : ∀ j ∈ s.jobs, ∀ (job : CallsJob), job.jobId = j.jobId → ∀ sort now index,
    s.callSummary job sort now index = snapshot.callSummary job sort now index ∧
      (s.callSummary job sort now index).apiStatus job now =
        (snapshot.callSummary job sort now index).apiStatus job now

/-- Every row is of a job or a node that has ended in the snapshot. -/
structure NothingLive (snapshot s : Store) : Prop where
  jobs : ∀ j ∈ s.jobs, j ∈ snapshot.jobs ∧ j.ended = true
  logs : ∀ l ∈ s.jobLogs, ∃ j ∈ snapshot.jobs, j.ended = true ∧ l.jobId = some j.jobId
  nodes : ∀ n ∈ s.nodes, n ∈ snapshot.nodes ∧ n.ended = true
  nodeLogs : ∀ l ∈ s.nodeLogs, ∃ n ∈ snapshot.nodes, n.ended = true ∧
    l.instanceName = some n.instanceName
  metrics : ∀ m ∈ s.resourceMetrics,
    (∃ j ∈ snapshot.jobs, j.ended = true ∧ m.2.jobId = some j.jobId) ∨
      (m.2.scope = "node" ∧
        ∃ n ∈ snapshot.nodes, n.ended = true ∧ m.2.instanceName = n.instanceName)
  events : ∀ e ∈ s.callEvents, ∃ j ∈ snapshot.jobs, j.ended = true ∧ e.jobId = j.jobId

/-- The import keeps the jobs' history and takes nothing that is live; where it fails instead, the
head is as it was; and importing the snapshot again changes nothing. -/
structure HistoryKept (onAws : Bool) (target snapshot result : Database) (digest : String) :
    Prop where
  keeps : KeepsJobs snapshot.store result.store
  nothingLive : NothingLive snapshot.store result.store
  failing : ∀ now fault e, (importHistorySnapshot onAws target snapshot digest now fault).2 =
    .error e → (importHistorySnapshot onAws target snapshot digest now fault).1 = target
  again : ∀ now fault, (importHistorySnapshot onAws result snapshot digest now fault).1 = result

/-- No job that has ended has call events. -/
def Store.NoEndedEvents (snapshot : Store) : Prop :=
  ∀ e ∈ snapshot.callEvents, ∀ j ∈ snapshot.jobs, j.ended = true → e.jobId ≠ j.jobId

/-! ### What an import does -/

section Import

variable {onAws : Bool} {target snapshot : Database} {digest : String} {now : ℚ}
  {fault : ℕ → Option String} {config : Option ClusterConfig}

lemma statement_eq_ok {α : Type} {n : ℕ} {result : Except ImportError α} {a : α}
    (h : statement fault n result = .ok a) : result = .ok a := by
  unfold statement at h
  split at h
  · cases h
  · exact h

lemma bind_eq_ok {α β : Type} {x : Except ImportError α} {f : α → Except ImportError β} {b : β}
    (h : x >>= f = .ok b) : ∃ a, x = .ok a ∧ f a = .ok b := by
  cases x with
  | error e => cases h
  | ok a => exact ⟨a, rfl, h⟩

lemma map_mapIdx_of {α β γ : Type} {f : ℕ → α → β} {g : β → γ} {g' : α → γ}
    (h : ∀ i a, g (f i a) = g' a) (l : List α) : (l.mapIdx f).map g = l.map g' := by
  refine List.ext_getElem (by simp) fun i hi hi' => ?_
  simp [h]

/-- The store after the statements, but for the ids and the times. -/
structure Copied (target snapshot s : Store) (digest : String) : Prop where
  jobs : s.jobs = target.jobs ++ snapshot.jobs.filter JobRow.ended
  jobLogs : s.jobLogs.map JobLogRow.content = target.jobLogs.map JobLogRow.content ++
    (snapshot.jobLogs.filter fun l => l.jobId.any (· ∈ s.jobIds)).map JobLogRow.content
  nodes : s.nodes = target.nodes ++ snapshot.nodes.filter NodeRow.ended
  nodeLogs : s.nodeLogs.map NodeLogRow.instanceName = target.nodeLogs.map NodeLogRow.instanceName ++
    (snapshot.nodeLogs.filter fun l => l.instanceName.any (· ∈ s.nodeNames)).map
      NodeLogRow.instanceName
  metrics : s.resourceMetrics.map Prod.snd = target.resourceMetrics.map Prod.snd ++
    (snapshot.resourceMetrics.map Prod.snd).filter s.takesSample
  callEvents : s.callEvents = target.callEvents
  imported : digest ∈ s.historyImports.map Prod.fst

lemma insertJobs_eq_ok {s t u : Store} (h : s.insertJobs t = .ok u) :
    ∃ hkey, u = { s with jobs := s.jobs ++ t.jobs.filter JobRow.ended, jobs_key := hkey } := by
  unfold Store.insertJobs at h
  dsimp only at h
  split at h
  · exact ⟨_, (Except.ok.inj h).symm⟩
  · cases h

lemma insertNodes_eq_ok {s t u : Store} (h : s.insertNodes t = .ok u) :
    ∃ hkey, u = { s with nodes := s.nodes ++ t.nodes.filter NodeRow.ended, nodes_key := hkey } := by
  unfold Store.insertNodes at h
  dsimp only at h
  split at h
  · exact ⟨_, (Except.ok.inj h).symm⟩
  · cases h

lemma insertMetrics_eq_ok {s t u : Store} (h : s.insertMetrics t = .ok u) :
    ∃ id, u = { s with resourceMetrics := s.resourceMetrics ++
      ((t.resourceMetrics.map Prod.snd).filter s.takesSample).mapIdx fun i m => (id + i, m) } := by
  unfold Store.insertMetrics at h
  dsimp only at h
  split at h
  · exact ⟨_, (Except.ok.inj h).symm⟩
  · cases h

/-- **Every table but `call_events` gets its rows.** -/
lemma copied {s : Store} (h : copySnapshot target snapshot digest config now fault = .ok s) :
    Copied target.store snapshot.store s digest := by
  obtain ⟨-, -, h⟩ := bind_eq_ok h
  obtain ⟨s₁, h₁, h⟩ := bind_eq_ok h
  obtain ⟨s₂, h₂, h⟩ := bind_eq_ok h
  obtain ⟨s₃, h₃, h⟩ := bind_eq_ok h
  obtain ⟨s₄, h₄, h⟩ := bind_eq_ok h
  obtain ⟨s₅, h₅, h⟩ := bind_eq_ok h
  obtain ⟨s₆, h₆, h⟩ := bind_eq_ok h
  obtain ⟨hjobs, rfl⟩ := insertJobs_eq_ok (statement_eq_ok h₁)
  obtain rfl := Except.ok.inj (statement_eq_ok h₂)
  obtain ⟨hnodes, rfl⟩ := insertNodes_eq_ok (statement_eq_ok h₃)
  obtain rfl := Except.ok.inj (statement_eq_ok h₄)
  obtain ⟨id, rfl⟩ := insertMetrics_eq_ok (statement_eq_ok h₅)
  obtain rfl := Except.ok.inj (statement_eq_ok h₆)
  obtain rfl := Except.ok.inj (statement_eq_ok h)
  constructor
  · rfl
  · refine List.map_append.trans (congrArg _ ?_)
    apply map_mapIdx_of
    exact fun _ _ => rfl
  · rfl
  · refine List.map_append.trans (congrArg _ ?_)
    apply map_mapIdx_of
    exact fun _ _ => rfl
  · refine List.map_append.trans (congrArg _ (Eq.trans ?_ (List.map_id _)))
    apply map_mapIdx_of
    exact fun _ _ => rfl
  · rfl
  · simp [Store.insertImport]

/-- What `import_snapshot` can do: the snapshot has been imported before, or it fails and leaves
the head as it is, or the tables are empty and it copies. -/
lemma importSnapshot_cases (target snapshot : Database) (digest : String)
    (config : Option ClusterConfig) (now : ℚ) (fault : ℕ → Option String) :
    (digest ∈ target.store.historyImports.map Prod.fst ∧
        importSnapshot target snapshot digest config now fault = (target, .ok false)) ∨
      (∃ e, importSnapshot target snapshot digest config now fault = (target, .error e)) ∨
      ((∀ table ∈ ImportTable.empty, target.store.hasRows table = false) ∧
        ∃ s, Copied target.store snapshot.store s digest ∧
          importSnapshot target snapshot digest config now fault =
            ({ target with store := s }, .ok true)) := by
  rw [importSnapshot]
  by_cases halready : digest ∈ target.store.historyImports.map Prod.fst
  · exact .inl ⟨halready, if_pos halready⟩
  rw [if_neg halready]
  dsimp only
  by_cases hempty : ImportTable.empty.filter target.store.hasRows = []
  · rw [if_neg (not_not.2 hempty)]
    cases hcopy : copySnapshot target snapshot digest config now fault with
    | error e => exact .inr (.inl ⟨e, rfl⟩)
    | ok s =>
      refine .inr (.inr ⟨fun table htable => ?_, s, copied hcopy, rfl⟩)
      simpa using List.filter_eq_nil_iff.1 hempty table htable
  · exact .inr (.inl ⟨_, if_pos hempty⟩)

/-- The configuration is prepared first, which may fail. -/
lemma importHistorySnapshot_cases (onAws : Bool) (target snapshot : Database) (digest : String)
    (now : ℚ) (fault : ℕ → Option String) :
    (∃ e, importHistorySnapshot onAws target snapshot digest now fault = (target, .error e)) ∨
      ∃ config, importHistorySnapshot onAws target snapshot digest now fault =
        importSnapshot target snapshot digest config now fault := by
  rw [importHistorySnapshot]
  split
  · exact .inr ⟨none, rfl⟩
  · split
    · exact .inl ⟨_, rfl⟩
    · exact .inr ⟨_, rfl⟩

lemma import_ok {result : Database}
    (h : importHistorySnapshot onAws target snapshot digest now fault = (result, .ok true)) :
    (∀ table ∈ ImportTable.empty, target.store.hasRows table = false) ∧
      Copied target.store snapshot.store result.store digest := by
  rcases importHistorySnapshot_cases onAws target snapshot digest now fault with
    ⟨e, he⟩ | ⟨config, hconfig⟩
  · rw [he] at h
    cases h
  · rcases importSnapshot_cases target snapshot digest config now fault with
      ⟨-, heq⟩ | ⟨e, heq⟩ | ⟨hempty, s, hs, heq⟩
    · rw [hconfig, heq] at h
      cases h
    · rw [hconfig, heq] at h
      cases h
    · rw [hconfig, heq] at h
      cases h
      exact ⟨hempty, hs⟩

/-- **An import that fails leaves the head as it is.** -/
lemma import_error {e : ImportError}
    (h : (importHistorySnapshot onAws target snapshot digest now fault).2 = .error e) :
    (importHistorySnapshot onAws target snapshot digest now fault).1 = target := by
  rcases importHistorySnapshot_cases onAws target snapshot digest now fault with
    ⟨e', he⟩ | ⟨config, hconfig⟩
  · rw [he]
  · rcases importSnapshot_cases target snapshot digest config now fault with
      ⟨-, heq⟩ | ⟨e', heq⟩ | ⟨-, s, -, heq⟩
    · rw [hconfig, heq]
    · rw [hconfig, heq]
    · rw [hconfig, heq] at h
      cases h

/-- **A snapshot that has been imported is not imported again.** -/
lemma import_again (h : digest ∈ target.store.historyImports.map Prod.fst) :
    (importHistorySnapshot onAws target snapshot digest now fault).1 = target := by
  rcases importHistorySnapshot_cases onAws target snapshot digest now fault with
    ⟨e, he⟩ | ⟨config, hconfig⟩
  · rw [he]
  · rw [hconfig, importSnapshot, if_pos h]

/-! ### What is kept -/

variable {s : Store}

/-- A call's summary reads of its logs all but their ids. -/
lemma summary_content {events : List CallEventRow} {logs logs' : List JobLogRow}
    {samples : List Sample} {isRunning : Bool} {index : ℤ} {fromEvents : Bool}
    (h : logs.map JobLogRow.content = logs'.map JobLogRow.content) :
    summary events logs samples isRunning now index fromEvents =
      summary events logs' samples isRunning now index fromEvents := by
  have hcontent : ∀ l : List JobLogRow,
      summary events l samples isRunning now index fromEvents =
        summary events (l.map JobLogRow.content) samples isRunning now index fromEvents := by
    intro l
    have htimes : (l.map JobLogRow.content).map JobLogRow.timestamp = l.map JobLogRow.timestamp := by
      rw [List.map_map]
      rfl
    have herrors : (l.map JobLogRow.content).any JobLogRow.realInputError =
        l.any JobLogRow.realInputError := by
      rw [List.any_map]
      rfl
    cases fromEvents <;>
      simp only [summary, eventSummary, sampleSummary, firstLogged, lastLogged, htimes, herrors,
        List.isEmpty_map]
  rw [hcontent logs, h, ← hcontent]

lemma filter_filter_of_imp {α : Type} {l : List α} {p q : α → Bool} (h : ∀ a, p a → q a) :
    (l.filter q).filter p = l.filter p := by
  rw [List.filter_filter]
  refine List.filter_congr fun a _ => ?_
  cases hp : p a with
  | false => rfl
  | true => rw [h a hp]; rfl

/-- What the tables have after an import into empty ones. -/
structure Taken (snapshot s : Store) : Prop where
  jobs : s.jobs = snapshot.jobs.filter JobRow.ended
  jobLogs : s.jobLogs.map JobLogRow.content =
    (snapshot.jobLogs.filter fun l => l.jobId.any (· ∈ s.jobIds)).map JobLogRow.content
  nodes : s.nodes = snapshot.nodes.filter NodeRow.ended
  nodeLogs : s.nodeLogs.map NodeLogRow.instanceName =
    (snapshot.nodeLogs.filter fun l => l.instanceName.any (· ∈ s.nodeNames)).map
      NodeLogRow.instanceName
  metrics : s.resourceMetrics.map Prod.snd =
    (snapshot.resourceMetrics.map Prod.snd).filter s.takesSample
  callEvents : s.callEvents = []

lemma Copied.taken {target snapshot : Store} (h : Copied target snapshot s digest)
    (hempty : ∀ table ∈ ImportTable.empty, target.hasRows table = false) : Taken snapshot s := by
  obtain ⟨hjobs, hjobLogs, hnodes, hnodeLogs, hmetrics, hevents, -⟩ :
      target.jobs = [] ∧ target.jobLogs = [] ∧ target.nodes = [] ∧ target.nodeLogs = [] ∧
        target.resourceMetrics = [] ∧ target.callEvents = [] ∧ target.debugLogs = [] ∧
          target.historyImports = [] := by
    simpa [ImportTable.empty, ImportTable.all, Store.hasRows] using hempty
  constructor
  · rw [h.jobs, hjobs, List.nil_append]
  · rw [h.jobLogs, hjobLogs, List.map_nil, List.nil_append]
  · rw [h.nodes, hnodes, List.nil_append]
  · rw [h.nodeLogs, hnodeLogs, List.map_nil, List.nil_append]
  · rw [h.metrics, hmetrics, List.map_nil, List.nil_append]
  · rw [h.callEvents, hevents]

namespace Taken

variable {snapshot : Store} {j : JobRow}

lemma mem_jobIds (hj : j ∈ s.jobs) : j.jobId ∈ s.jobIds := List.mem_map_of_mem hj

/-- An id of an imported job or node is that of one that has ended. -/
lemma ended_of_mem_jobIds (h : Taken snapshot s) {id : String} (hid : id ∈ s.jobIds) :
    ∃ j ∈ snapshot.jobs, j.ended = true ∧ id = j.jobId := by
  obtain ⟨j, hj, rfl⟩ := List.mem_map.1 hid
  rw [h.jobs] at hj
  obtain ⟨hmem, hended⟩ := List.mem_filter.1 hj
  exact ⟨j, hmem, hended, rfl⟩

lemma ended_of_mem_nodeNames (h : Taken snapshot s) {name : String} (hname : name ∈ s.nodeNames) :
    ∃ n ∈ snapshot.nodes, n.ended = true ∧ name = n.instanceName := by
  obtain ⟨n, hn, rfl⟩ := List.mem_map.1 hname
  rw [h.nodes] at hn
  obtain ⟨hmem, hended⟩ := List.mem_filter.1 hn
  exact ⟨n, hmem, hended, rfl⟩

/-- **The rows that are taken are those of jobs and nodes that have ended.** -/
lemma nothingLive (h : Taken snapshot s) : NothingLive snapshot s where
  jobs j hj := by
    rw [h.jobs] at hj
    exact List.mem_filter.1 hj
  logs l hl := by
    have hmem : l.content ∈ s.jobLogs.map JobLogRow.content := List.mem_map_of_mem hl
    rw [h.jobLogs] at hmem
    obtain ⟨l', hl', heq⟩ := List.mem_map.1 hmem
    obtain ⟨id, hid, hin⟩ := (Option.any_eq_true _ _).1 (List.mem_filter.1 hl').2
    obtain ⟨j, hj, hended, rfl⟩ := h.ended_of_mem_jobIds (of_decide_eq_true hin)
    have hjob : l'.content.jobId = l.content.jobId := by rw [heq]
    exact ⟨j, hj, hended, hjob.symm.trans hid⟩
  nodes n hn := by
    rw [h.nodes] at hn
    exact List.mem_filter.1 hn
  nodeLogs l hl := by
    have hmem : l.instanceName ∈ s.nodeLogs.map NodeLogRow.instanceName := List.mem_map_of_mem hl
    rw [h.nodeLogs] at hmem
    obtain ⟨l', hl', heq⟩ := List.mem_map.1 hmem
    obtain ⟨name, hname, hin⟩ := (Option.any_eq_true _ _).1 (List.mem_filter.1 hl').2
    obtain ⟨n, hn, hended, rfl⟩ := h.ended_of_mem_nodeNames (of_decide_eq_true hin)
    exact ⟨n, hn, hended, heq.symm.trans hname⟩
  metrics m hm := by
    have hmem : m.2 ∈ s.resourceMetrics.map Prod.snd := List.mem_map_of_mem hm
    rw [h.metrics] at hmem
    rcases Bool.or_eq_true_iff.1 (List.mem_filter.1 hmem).2 with hjob | hnode
    · obtain ⟨id, hid, hin⟩ := (Option.any_eq_true _ _).1 hjob
      obtain ⟨j, hj, hended, rfl⟩ := h.ended_of_mem_jobIds (of_decide_eq_true hin)
      exact .inl ⟨j, hj, hended, hid⟩
    · obtain ⟨hscope, hin⟩ := Bool.and_eq_true_iff.1 hnode
      obtain ⟨n, hn, hended, hname⟩ := h.ended_of_mem_nodeNames (of_decide_eq_true hin)
      exact .inr ⟨of_decide_eq_true hscope, n, hn, hended, hname⟩
  events e he := by
    rw [h.callEvents] at he
    cases he

/-- The logs of an imported job. -/
lemma logs (h : Taken snapshot s) (hj : j ∈ s.jobs) (index : Option ℤ) :
    (s.jobLogsOf j.jobId index).map JobLogRow.content =
      (snapshot.jobLogsOf j.jobId index).map JobLogRow.content := by
  have hfilter : ∀ l : List JobLogRow,
      (l.filter fun l => l.jobId = some j.jobId ∧ l.inputIndex = index).map JobLogRow.content =
        (l.map JobLogRow.content).filter fun l => l.jobId = some j.jobId ∧ l.inputIndex = index := by
    intro l
    rw [List.filter_map]
    rfl
  rw [Store.jobLogsOf, hfilter, h.jobLogs, ← hfilter, filter_filter_of_imp]
  · rfl
  · intro l hl
    rw [(of_decide_eq_true hl).1]
    exact decide_eq_true (mem_jobIds hj)

/-- The samples of an imported job. -/
lemma samples (h : Taken snapshot s) (hj : j ∈ s.jobs) {p : Sample → Bool}
    (hp : ∀ m, p m → m.jobId = some j.jobId) :
    (s.resourceMetrics.map Prod.snd).filter p = (snapshot.resourceMetrics.map Prod.snd).filter p := by
  rw [h.metrics, filter_filter_of_imp]
  intro m hm
  rw [Store.takesSample, hp m hm]
  exact Bool.or_eq_true_iff.2 (.inl (decide_eq_true (mem_jobIds hj)))

lemma events_eq_nil (hevents : snapshot.NoEndedEvents) (h : Taken snapshot s) (hj : j ∈ s.jobs) :
    ∀ e ∈ snapshot.callEvents, e.jobId ≠ j.jobId := by
  intro e he
  rw [h.jobs] at hj
  obtain ⟨hmem, hended⟩ := List.mem_filter.1 hj
  exact hevents e he j hmem hended

/-- **Without events of theirs, the jobs keep their history.** -/
lemma keepsJobs (h : Taken snapshot s) (hevents : snapshot.NoEndedEvents) : KeepsJobs snapshot s where
  jobs := h.jobs
  logs _ hj := h.logs hj
  metrics _ hj := h.samples hj fun _ => of_decide_eq_true
  events j hj := by
    rw [Store.jobEvents, h.callEvents, List.filter_nil, eq_comm, Store.jobEvents,
      List.filter_eq_nil_iff]
    intro e he
    rw [decide_eq_true_eq]
    exact events_eq_nil hevents h hj e he
  summaries j hj job hjob sort now index := by
    have hnone := events_eq_nil hevents h hj
    have heventsOf : s.eventsOf j.jobId index = snapshot.eventsOf j.jobId index := by
      rw [Store.eventsOf, h.callEvents, List.filter_nil, eq_comm, Store.eventsOf,
        List.filter_eq_nil_iff]
      intro e he hboth
      exact hnone e he (of_decide_eq_true hboth).1
    have hfrom : s.summarizesEvents j.jobId sort = snapshot.summarizesEvents j.jobId sort := by
      have hany : (snapshot.callEvents.any fun e => decide (e.jobId = j.jobId)) = false := by
        rw [List.any_eq_false]
        intro e he
        rw [decide_eq_true_eq]
        exact hnone e he
      rw [Store.summarizesEvents, Store.summarizesEvents, h.callEvents, hany, List.any_nil]
    have hsamples : s.samplesOf j.jobId index = snapshot.samplesOf j.jobId index :=
      h.samples hj fun _ hm => (of_decide_eq_true hm).1
    have hsummary : s.callSummary job sort now index = snapshot.callSummary job sort now index := by
      rw [Store.callSummary, Store.callSummary, hjob, heventsOf, hfrom, hsamples]
      exact summary_content (h.logs hj (some index))
    exact ⟨hsummary, by rw [hsummary]⟩

/-- Events of a job that has ended are lost. -/
lemma noEndedEvents (h : Taken snapshot s) (hkeeps : KeepsJobs snapshot s) :
    snapshot.NoEndedEvents := by
  intro e he j hj hended heq
  have hmem : j ∈ s.jobs := by
    rw [h.jobs]
    exact List.mem_filter.2 ⟨hj, hended⟩
  have hevents := hkeeps.events j hmem
  rw [Store.jobEvents, h.callEvents, List.filter_nil, eq_comm, Store.jobEvents,
    List.filter_eq_nil_iff] at hevents
  exact hevents e he (decide_eq_true heq)

end Taken

end Import

/-! ### Two snapshots -/

/-- A head without history. -/
def newHead : Database where
  store := .empty
  tableInfo _ := []
  integrity := ["ok"]

/-- A job of one input that has ended, one that runs, and a log line of each. -/
def oldSnapshot : Database where
  store :=
    { Store.empty with
      jobs := [⟨"a", some 1, some "COMPLETED", none, none, some 1, some 1, none, some 9, none⟩,
        ⟨"b", some 1, some "RUNNING", none, none, some 1, some 0, none, none, none⟩]
      jobLogs := [⟨7, some "a", some 0, some 0, some 5, some ""⟩,
        ⟨8, some "b", some 0, some 0, some 6, some ""⟩]
      jobs_key := by decide }
  tableInfo _ := []
  integrity := ["ok"]

/-- The job's call has an event. -/
def eventSnapshot : Database :=
  { oldSnapshot with
    store := { oldSnapshot.store with
      callEvents := [⟨"a", 0, "w", some 2, some 7⟩]
      events_key := List.nodup_singleton _ } }

end Burla.History
