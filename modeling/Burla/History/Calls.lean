/-
The summaries of a job's calls (`_CALLS_BASE_CTE`, `_EVENT_SUMMARY_CTE`, `_SAMPLE_SUMMARY_CTE`,
`_CALLS_FILTERS`, `_CALL_STATUS_SQL` and `TASK_SUMMARY_SORT_COLUMNS` in history.py).

There is a summary for every index below the job's number of inputs.  It comes from the call's
events and logs, or, for a job without events and for the orders by a peak, from its samples too.
The current time is read by the duration of an attempt that has not ended and by the status of a
call without events, and only while the job runs (`summary_now`, `apiStatus_now`).
-/
import Burla.History.Tables

namespace Burla.History

open Sql

/-- What is asked about a job: its record says how many inputs it has and how it is. -/
structure CallsJob where
  jobId : String
  inputCount : ℤ
  isRunning : Bool
  isCanceled : Bool

/-- A row of `summarized`, with the peaks. -/
structure CallSummary where
  inputIndex : ℤ
  started : Option ℚ
  duration : Option ℚ
  attempts : Option ℕ
  peakCpus : Option ℚ
  peakMem : Option ℤ
  failed : Bool
  hasLogs : Bool
  hasEvents : Bool
  openAttempts : ℕ
  lastActive : Option ℚ
  deriving DecidableEq

/-- `_REAL_INPUT_ERROR_FILTER` -/
def JobLogRow.realInputError (l : JobLogRow) : Bool :=
  l.isError = some 1 ∧ ∃ logs, l.logs = some logs ∧
    contains logs "Worker container stopped unexpectedly" = false ∧
    contains logs
      "Worker process ended unexpectedly while the container was still healthy" = false

section Summaries

variable (events : List CallEventRow) (logs : List JobLogRow) (samples : List Sample)

/-! ### `events`, `logged` and `sampled` -/

def eventStarted : Option ℚ := minOf (events.map CallEventRow.startedAt)

def eventEnded : Option ℚ := maxOf (events.map CallEventRow.endedAt)

/-- `COUNT(*) - COUNT(ended_at)` -/
def openAttempts : ℕ := (events.filter fun e => e.endedAt.isNone).length

/-- `COUNT(*)`, for a call that has a row. -/
def eventAttempts : Option ℕ := if events = [] then none else some events.length

def firstLogged : Option ℚ := minOf (logs.map JobLogRow.timestamp)

def lastLogged : Option ℚ := maxOf (logs.map JobLogRow.timestamp)

def firstSeen : Option ℚ := minOf (samples.map fun m => some m.timestamp)

def lastSeen : Option ℚ := maxOf (samples.map fun m => some m.timestamp)

/-- `MAX(timestamp) - MIN(timestamp) + 1` -/
def sampledDuration : Option ℚ :=
  Option.map₂ (fun last first => last - first + 1) (lastSeen samples) (firstSeen samples)

/-- `COUNT(DISTINCT worker_id)`, for a call that has a sample. -/
def sampledAttempts : Option ℕ :=
  if samples = [] then none else some (samples.map Sample.workerId).dedup.length

/-- `MAX(cpu_seconds / duration_sec)`; a division by zero is NULL. -/
def peakCpus : Option ℚ :=
  maxOf (samples.map fun m => if m.durationSec = 0 then none else some (m.cpuSeconds / m.durationSec))

def peakMem : Option ℤ := maxOf (samples.map fun m => some m.memoryBytes)

/-! ### `summarized` -/

variable (isRunning : Bool) (now : ℚ) (index : ℤ)

/-- The duration that the events give. -/
def eventDuration : Option ℚ :=
  if (eventEnded events).isSome then
    Option.map₂ (fun ended started => ended - started) (eventEnded events) (eventStarted events)
  else if 0 < openAttempts events ∧ isRunning = true then
    (eventStarted events).map fun started => now - started
  else none

/-- `_EVENT_SUMMARY_CTE` -/
def eventSummary : CallSummary where
  inputIndex := index
  started := (eventStarted events).or (firstLogged logs)
  duration := eventDuration events isRunning now
  attempts := eventAttempts events
  peakCpus := peakCpus samples
  peakMem := peakMem samples
  failed := logs.any JobLogRow.realInputError
  hasLogs := !logs.isEmpty
  hasEvents := !events.isEmpty
  openAttempts := openAttempts events
  lastActive := lastLogged logs

/-- `_SAMPLE_SUMMARY_CTE` -/
def sampleSummary : CallSummary where
  inputIndex := index
  started :=
    (eventStarted events).or <| (Option.map₂ min (firstSeen samples) (firstLogged logs)).or <|
      (firstSeen samples).or (firstLogged logs)
  duration :=
    if (eventEnded events).isSome ∨ (0 < openAttempts events ∧ isRunning = true) then
      eventDuration events isRunning now
    else sampledDuration samples
  attempts := (eventAttempts events).or (sampledAttempts samples)
  peakCpus := peakCpus samples
  peakMem := peakMem samples
  failed := logs.any JobLogRow.realInputError
  hasLogs := !logs.isEmpty
  hasEvents := !events.isEmpty
  openAttempts := openAttempts events
  lastActive :=
    (Option.map₂ max (lastSeen samples) (lastLogged logs)).or <|
      (lastSeen samples).or (lastLogged logs)

/-- Either of the two queries. -/
def summary (fromEvents : Bool) : CallSummary :=
  if fromEvents then eventSummary events logs samples isRunning now index
  else sampleSummary events logs samples isRunning now index

end Summaries

/-! ### The status of a call -/

inductive ApiStatus
  | failed
  | running
  | pending
  | canceled
  | notRun
  | unknown
  | succeeded
  deriving DecidableEq

def ApiStatus.text : ApiStatus → String
  | failed => "failed"
  | running => "running"
  | pending => "pending"
  | canceled => "canceled"
  | notRun => "not_run"
  | unknown => "unknown"
  | succeeded => "succeeded"

/-- `_CALL_STATUS_SQL` -/
def CallSummary.apiStatus (c : CallSummary) (job : CallsJob) (now : ℚ) : ApiStatus :=
  if c.failed then .failed
  else if c.hasEvents ∧ job.isRunning ∧ 0 < c.openAttempts then .running
  else if c.hasEvents = false ∧ job.isRunning ∧ ∃ t, c.lastActive = some t ∧ now - t < 15 then
    .running
  else if c.started.isSome ∧ job.isCanceled then .canceled
  else if c.started.isSome then .succeeded
  else if job.isRunning then .pending
  else if job.isCanceled then .notRun
  else .unknown

/-! ### The sort columns -/

inductive CallSort
  | index
  | started
  | ended
  | duration
  | attempts
  | status
  | peakCpus
  | peakMem
  deriving DecidableEq

/-- The order of `CASE api_status`. -/
def ApiStatus.rank : ApiStatus → ℚ
  | failed => 0
  | running => 1
  | pending => 2
  | canceled => 3
  | notRun => 4
  | unknown => 5
  | succeeded => 6

/-- `TASK_SUMMARY_SORT_COLUMNS` -/
def CallSummary.sortValue (c : CallSummary) (job : CallsJob) (now : ℚ) : CallSort → Option Value
  | .index => some (num c.inputIndex)
  | .started => c.started.map num
  | .ended => Option.map₂ (fun started duration => num (started + duration)) c.started c.duration
  | .duration => c.duration.map num
  | .attempts => c.attempts.map fun n => num n
  | .status => some (num (c.apiStatus job now).rank)
  | .peakCpus => c.peakCpus.map num
  | .peakMem => c.peakMem.map fun n => num n

/-! ### The rows of the listing -/

/-- The query of `list_calls`. -/
structure CallsQuery where
  inputIndex : Option ℤ
  status : Option String
  failedOnly : Bool
  logsOnly : Bool
  hasMetrics : Bool
  sort : CallSort
  descending : Bool

/-- The events query is taken when the job has events, but for a peak's order. -/
def Store.summarizesEvents (s : Store) (jobId : String) (sort : CallSort) : Bool :=
  (s.callEvents.any fun e => e.jobId = jobId) && sort ≠ .peakCpus && sort ≠ .peakMem

/-- The summary of a call. -/
def Store.callSummary (s : Store) (job : CallsJob) (sort : CallSort) (now : ℚ) (index : ℤ) :
    CallSummary :=
  summary (s.eventsOf job.jobId index) (s.logsOf job.jobId index) (s.samplesOf job.jobId index)
    job.isRunning now index (s.summarizesEvents job.jobId sort)

/-- `_CALLS_FILTERS`, and the selection by `api_status`. -/
def Store.callMatches (s : Store) (job : CallsJob) (q : CallsQuery) (now : ℚ) (c : CallSummary) :
    Bool :=
  (!q.failedOnly || c.failed) && (!q.logsOnly || c.hasLogs) &&
    (!q.hasMetrics || !(s.samplesOf job.jobId c.inputIndex).isEmpty) &&
    q.inputIndex.all (· = c.inputIndex) && q.status.all (· = (c.apiStatus job now).text)

/-- `all_calls` -/
def CallsJob.allCalls (job : CallsJob) : List ℤ := (List.range job.inputCount.toNat).map (↑)

/-- The calls that match. -/
def Store.selectedCalls (s : Store) (job : CallsJob) (q : CallsQuery) (now : ℚ) :
    List CallSummary :=
  (job.allCalls.map (s.callSummary job q.sort now)).filter (s.callMatches job q now)

/-! ### What the current time is for -/

section Now

variable {events : List CallEventRow} {logs : List JobLogRow} {samples : List Sample}
  {index : ℤ} {fromEvents : Bool} {c : CallSummary} {job : CallsJob} {now now' : ℚ} {sort : CallSort}

/-- The duration is all of a summary that the current time can change. -/
lemma summary_now (isRunning : Bool) :
    { summary events logs samples isRunning now index fromEvents with duration := none } =
      { summary events logs samples isRunning now' index fromEvents with duration := none } := by
  cases fromEvents <;> rfl

/-- Nothing of it is changed once the job has ended. -/
lemma summary_ended :
    summary events logs samples false now index fromEvents =
      summary events logs samples false now' index fromEvents := by
  have hduration : eventDuration events false now = eventDuration events false now' := by
    simp [eventDuration]
  cases fromEvents <;> simp [summary, eventSummary, sampleSummary, hduration]

lemma apiStatus_now (h : job.isRunning = false ∨ c.hasEvents = true) :
    c.apiStatus job now = c.apiStatus job now' := by
  rcases h with h | h <;> simp [CallSummary.apiStatus, h]

end Now

end Burla.History
