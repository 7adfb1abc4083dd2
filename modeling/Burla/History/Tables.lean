/-
The tables of the history store (`_SCHEMA` in history.py), and what SQLite's expressions mean over
columns that may be NULL.

A row has the columns that the schema gives it; those that may be NULL are options.  Real numbers
are rational here.  Texts are compared by code points, as SQLite's BINARY collation does, and
LOWER, UPPER and LIKE fold the case of ASCII letters only.
-/
import Mathlib.Data.Rat.Defs
import Mathlib.Algebra.Order.Ring.Rat
import Mathlib.Data.List.Infix
import Mathlib.Data.List.Dedup
import Mathlib.Data.String.Basic
import Mathlib.Data.Sum.Order

namespace Burla.History

/-! ### Expressions -/

namespace Sql

/-- Values that are compared: numbers come before texts. -/
abbrev Value := ℚ ⊕ₗ String

def num (q : ℚ) : Value := Sum.inlₗ q

def text (s : String) : Value := Sum.inrₗ s

def lower (s : String) : String := s.map Char.toLower

def upper (s : String) : String := s.map Char.toUpper

/-- `s LIKE '%part%'`, for a part without wildcards. -/
def contains (s part : String) : Bool := decide ((lower part).toList <:+: (lower s).toList)

/-- `AND` -/
def and : Option Bool → Option Bool → Option Bool
  | some false, _ | _, some false => some false
  | some true, some true => some true
  | _, _ => none

/-- `OR` -/
def or : Option Bool → Option Bool → Option Bool
  | some true, _ | _, some true => some true
  | some false, some false => some false
  | _, _ => none

/-- A comparison with NULL is NULL. -/
def compare {α : Type} (test : α → α → Bool) : Option α → Option α → Option Bool := Option.map₂ test

/-- `MIN` over the rows of a group. -/
def minOf {α : Type} [Min α] (values : List (Option α)) : Option α := (values.filterMap id).min?

/-- `MAX` over the rows of a group. -/
def maxOf {α : Type} [Max α] (values : List (Option α)) : Option α := (values.filterMap id).max?

section Logic

variable {p q : Option Bool}

lemma and_eq_true : and p q = some true ↔ p = some true ∧ q = some true := by
  rcases p with _ | _ | _ <;> rcases q with _ | _ | _ <;> simp [and]

lemma or_eq_true : or p q = some true ↔ p = some true ∨ q = some true := by
  rcases p with _ | _ | _ <;> rcases q with _ | _ | _ <;> simp [or]

lemma compare_eq_true {α : Type} {test : α → α → Bool} {a b : Option α} :
    compare test a b = some true ↔ ∃ x y, a = some x ∧ b = some y ∧ test x y = true := by
  cases a <;> cases b <;> simp [compare]

end Logic

end Sql

/-! ### Tables -/

/-- `jobs` -/
structure JobRow where
  jobId : String
  startedAt : Option ℚ
  status : Option String
  user : Option String
  functionName : Option String
  nInputs : Option ℤ
  nResults : Option ℤ
  data : Option String
  endedAt : Option ℚ
  parentJobId : Option String
  deriving DecidableEq

/-- `job_logs` -/
structure JobLogRow where
  id : ℕ
  jobId : Option String
  inputIndex : Option ℤ
  isError : Option ℤ
  timestamp : Option ℚ
  logs : Option String
  deriving DecidableEq

/-- A node's `data`: what queries extract from its JSON, and the rest of it. -/
structure NodeData where
  currentJob : Option String
  reservedForJob : Option String
  rest : String
  deriving DecidableEq

/-- `nodes` -/
structure NodeRow where
  instanceName : String
  status : Option String
  machineType : Option String
  gcpRegion : Option String
  spot : Option ℤ
  startedBootingAt : Option ℚ
  endedAt : Option ℚ
  data : NodeData
  deriving DecidableEq

/-- `node_logs` -/
structure NodeLogRow where
  id : ℕ
  instanceName : Option String
  ts : Option ℚ
  msg : Option String
  deriving DecidableEq

/-- The columns of `resource_metrics` but its id. -/
structure Sample where
  timestamp : ℚ
  durationSec : ℚ
  instanceName : String
  scope : String
  jobId : Option String
  inputIndex : Option ℤ
  workerId : String
  cpuSeconds : ℚ
  cpuPercent : ℚ
  memoryBytes : ℤ
  memoryPercent : ℚ
  networkRxBytes : ℤ
  networkTxBytes : ℤ
  diskReadBytes : ℤ
  diskWriteBytes : ℤ
  gpuPercent : Option ℚ
  gpuMemoryBytes : Option ℤ
  gpuMemoryPercent : Option ℚ
  throttled : Option ℤ
  memoryThrottled : Option ℤ
  deriving DecidableEq

/-- `call_events` -/
structure CallEventRow where
  jobId : String
  inputIndex : ℤ
  attempt : String
  startedAt : Option ℚ
  endedAt : Option ℚ
  deriving DecidableEq

/-- A node's specification in the configuration: its region, and the rest of it. -/
structure NodeSpec where
  gcpRegion : String
  rest : String
  deriving DecidableEq

/-- The JSON of `cluster_config`: what an import changes of it, and the rest. -/
structure ClusterConfig where
  gcsBucketName : Option String
  nodes : List NodeSpec
  rest : String
  deriving DecidableEq

def CallEventRow.key (e : CallEventRow) : String × ℤ × String := (e.jobId, e.inputIndex, e.attempt)

/-- The store, with the primary keys of its tables.  The rows of `resource_metrics` and `debug_logs`
have their ids with them, and `cluster_config` has one row at most. -/
structure Store where
  jobs : List JobRow
  jobLogs : List JobLogRow
  nodes : List NodeRow
  nodeLogs : List NodeLogRow
  resourceMetrics : List (ℕ × Sample)
  callEvents : List CallEventRow
  debugLogs : List ℕ
  clusterConfig : Option ClusterConfig
  historyImports : List (String × ℚ)
  jobs_key : (jobs.map JobRow.jobId).Nodup
  nodes_key : (nodes.map NodeRow.instanceName).Nodup
  events_key : (callEvents.map CallEventRow.key).Nodup

namespace Store

/-- A store without rows. -/
def empty : Store where
  jobs := []
  jobLogs := []
  nodes := []
  nodeLogs := []
  resourceMetrics := []
  callEvents := []
  debugLogs := []
  clusterConfig := none
  historyImports := []
  jobs_key := List.nodup_nil
  nodes_key := List.nodup_nil
  events_key := List.nodup_nil

variable (s : Store)

/-- The rows of `call_events` of a call. -/
def eventsOf (jobId : String) (index : ℤ) : List CallEventRow :=
  s.callEvents.filter fun e => e.jobId = jobId ∧ e.inputIndex = index

/-- The rows of `job_logs` of a call. -/
def logsOf (jobId : String) (index : ℤ) : List JobLogRow :=
  s.jobLogs.filter fun l => l.jobId = some jobId ∧ l.inputIndex = some index

/-- The samples of a call. -/
def samplesOf (jobId : String) (index : ℤ) : List Sample :=
  (s.resourceMetrics.map Prod.snd).filter fun m =>
    m.jobId = some jobId ∧ m.scope = "task" ∧ m.inputIndex = some index

end Store

end Burla.History
