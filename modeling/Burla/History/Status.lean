/-
The status of a call (`job_task_summaries` in history.py; `_call_dto`, `_call_summary_page` and
`list_calls` in management.py).

The query gives a call a status, by which rows are selected and counted; Python gives one to the
row, and the response another one from that and the status of the job.  `status_shown` says that
a row is shown with the status that the query gives it.  But which query there is depends on the
sort column: with samples in it, or without.

The main result is `Burla.History.oneStatus_iff`: the status of a call is one notion if and only if
no sample of a call says another start or another activity than its events and logs say, or the job
has no events.
-/
import Burla.History.Pages

namespace Burla.History

open Sql

/-! ### What is shown of a call -/

/-- What `_job_or_404` gives of a job, for its calls. -/
structure JobView where
  jobId : String
  status : String
  inputCount : ℤ

/-- The job as `job_task_summaries` is asked about it. -/
def JobView.callsJob (job : JobView) : CallsJob where
  jobId := job.jobId
  inputCount := job.inputCount
  isRunning := job.status = "running" ∨ job.status = "pending"
  isCanceled := job.status = "canceled"

inductive TaskStatus
  | failed
  | running
  | done
  deriving DecidableEq

/-- An item of `tasks` in `job_task_summaries`. -/
structure Task where
  index : ℤ
  startedAt : Option ℚ
  durationSec : Option ℚ
  attempts : Option ℕ
  peakCpus : Option ℚ
  peakMemBytes : Option ℤ
  hasLogs : Bool
  hasError : Bool
  status : TaskStatus

namespace CallSummary

variable (c : CallSummary) (job : CallsJob) (now : ℚ)

def taskStatus : TaskStatus :=
  if c.failed then .failed
  else if c.hasEvents then
    if job.isRunning ∧ 0 < c.openAttempts then .running else .done
  else if job.isRunning ∧ ∃ t, c.lastActive = some t ∧ now - t < 15 then .running
  else .done

def task : Task where
  index := c.inputIndex
  startedAt := c.started
  durationSec := c.duration.map (roundTo 3)
  attempts := c.attempts
  peakCpus := c.peakCpus.map (roundTo 3)
  peakMemBytes := c.peakMem
  hasLogs := c.hasLogs
  hasError := c.failed
  status := c.taskStatus job now

end CallSummary

structure CallDto where
  inputIndex : ℤ
  status : String
  attemptCount : Option ℕ
  startedAt : Option ℚ
  endedAt : Option ℚ
  durationSeconds : Option ℚ
  hasLogs : Bool
  hasError : Bool
  hasMetrics : Bool
  peakCpuCores : Option ℚ
  peakMemoryBytes : Option ℤ
  deriving DecidableEq

/-- The status that `_call_dto` shows. -/
def Task.shownStatus (task : Task) (jobStatus : String) : String :=
  if task.status = .failed then "failed"
  else if task.status = .running then "running"
  else if task.startedAt.isSome then
    if jobStatus = "canceled" then "canceled" else "succeeded"
  else if jobStatus = "running" ∨ jobStatus = "pending" then "pending"
  else if jobStatus = "canceled" then "not_run"
  else "unknown"

/-- `_call_dto` -/
def callDto (task : Task) (jobStatus : String) : CallDto :=
  let status := task.shownStatus jobStatus
  let endedAt :=
    if status ≠ "running" then
      Option.map₂ (fun started duration => started + duration) task.startedAt task.durationSec
    else none
  { inputIndex := task.index
    status := status
    attemptCount := task.attempts
    startedAt := task.startedAt.map iso
    endedAt := endedAt.map iso
    durationSeconds := task.durationSec
    hasLogs := task.hasLogs
    hasError := task.hasError
    hasMetrics := task.peakCpus.isSome || task.peakMemBytes.isSome
    peakCpuCores := task.peakCpus
    peakMemoryBytes := task.peakMemBytes }

/-- A row of the listing, as it is shown. -/
def JobView.shown (job : JobView) (now : ℚ) (c : CallSummary) : CallDto :=
  callDto (c.task job.callsJob now) job.status

/-! ### Counts -/

structure FilterCounts where
  all : ℕ
  running : ℕ
  failed : ℕ
  hasLogs : ℕ
  deriving DecidableEq

namespace Store

variable (s : Store) (job : CallsJob) (q : CallsQuery) (now : ℚ)

def hasEvents (jobId : String) : Bool := s.callEvents.any fun e => e.jobId = jobId

/-- `_CALLS_FILTERS` -/
def callFilters (c : CallSummary) : Bool :=
  (!q.failedOnly || c.failed) && (!q.logsOnly || c.hasLogs) &&
    (!q.hasMetrics || !(s.samplesOf job.jobId c.inputIndex).isEmpty) &&
    q.inputIndex.all (· = c.inputIndex)

/-- The summary of a call by either query. -/
def summaryBy (fromEvents : Bool) (index : ℤ) : CallSummary :=
  summary (s.eventsOf job.jobId index) (s.logsOf job.jobId index) (s.samplesOf job.jobId index)
    job.isRunning now index fromEvents

/-- `flagged` -/
def flagged (fromEvents : Bool) : List CallSummary :=
  (job.allCalls.map (s.summaryBy job now fromEvents)).filter (s.callFilters job q)

/-- `filter_counts`: the sort column is not looked at. -/
def filterCounts : FilterCounts :=
  let counted := s.flagged job q now (s.hasEvents job.jobId)
  { all := counted.length
    running := counted.countP fun c => c.apiStatus job now = .running
    failed := counted.countP fun c => c.apiStatus job now = .failed
    hasLogs := counted.countP fun c =>
      c.hasLogs && q.status.all (· = (c.apiStatus job now).text) }

/-- `_COUNT_QUERY` -/
def countQuery : ℕ :=
  job.allCalls.countP fun index =>
    (!q.failedOnly || (s.logsOf job.jobId index).any JobLogRow.realInputError) &&
      (!q.logsOnly || !(s.logsOf job.jobId index).isEmpty) &&
      (!q.hasMetrics || !(s.samplesOf job.jobId index).isEmpty) &&
      q.inputIndex.all (· = index)

def totalCount : ℤ :=
  match q.status with
  | some status =>
    (s.flagged job q now (s.summarizesEvents job.jobId q.sort)).countP fun c =>
      status = (c.apiStatus job now).text
  | none =>
    if q.failedOnly ∨ q.logsOnly ∨ q.hasMetrics ∨ q.inputIndex.isSome then s.countQuery job q
    else job.inputCount

end Store

/-! ### The response -/

structure CallsResponse where
  items : List CallDto
  nextCursor : Option (Cursor ℤ)
  hasMore : Bool
  totalCount : ℤ
  filterCounts : FilterCounts

/-- `statuses` -/
def callStatuses : List String :=
  ["pending", "running", "succeeded", "failed", "canceled", "not_run", "unknown"]

section Response

variable (s : Store) (fingerprint : ListRequest → String) (now : ℚ) (limits : ℕ → ℤ) (job : JobView)

/-- `list_calls` with all that it responds. -/
def listCallsResponse (limit : ℤ) (q : CallsQuery) (cursor : Option (Cursor ℤ)) :
    Except ManagementError CallsResponse :=
  if q.status.any fun status => status ≠ "" ∧ status ∉ callStatuses then
    .error ⟨422, "INVALID_ARGUMENT", "Invalid call status."⟩
  else
    (listCalls s fingerprint now limit job.callsJob q cursor).map fun page =>
      { items := page.items.map fun x => job.shown now x.row
        nextCursor := page.nextCursor
        hasMore := page.hasMore
        totalCount := s.totalCount job.callsJob q now
        filterCounts := s.filterCounts job.callsJob q now }

/-- These are the calls on all the pages. -/
def Gives (q : CallsQuery) (items : List CallDto) : Prop :=
  ∃ fuel, Keyset.follow (fun k cursor =>
    (listCallsResponse s fingerprint now job (limits k) q cursor).toOption.map
      fun a => (a.items, a.nextCursor)) fuel 0 none = some items

/-- The status of a call is one notion, at an instant. -/
structure OneStatus : Prop where
  /-- Every filter set has its calls, each once. -/
  ends : ∀ q : CallsQuery, (∀ status ∈ q.status, status = "" ∨ status ∈ callStatuses) →
    ∃ items, Gives s fingerprint now limits job q items ∧ (items.map CallDto.inputIndex).Nodup
  /-- A filter by a status gives the calls that are shown with it. -/
  filtered : ∀ (q : CallsQuery) status items all,
    Gives s fingerprint now limits job { q with status := some status } items →
    Gives s fingerprint now limits job { q with status := none } all →
    ∀ dto, dto ∈ items ↔ dto ∈ all ∧ dto.status = status
  totalCount : ∀ q items limit cursor response, Gives s fingerprint now limits job q items →
    listCallsResponse s fingerprint now job limit q cursor = .ok response →
    response.totalCount = items.length
  filterCounts : ∀ (q : CallsQuery) all running failed logged limit cursor response,
    Gives s fingerprint now limits job { q with status := none } all →
    Gives s fingerprint now limits job { q with status := some "running" } running →
    Gives s fingerprint now limits job { q with status := some "failed" } failed →
    Gives s fingerprint now limits job { q with logsOnly := true } logged →
    listCallsResponse s fingerprint now job limit q cursor = .ok response →
    response.filterCounts = ⟨all.length, running.length, failed.length, logged.length⟩
  /-- Whatever the calls are sorted by. -/
  sort : ∀ q q' items items', Gives s fingerprint now limits job q items →
    Gives s fingerprint now limits job q' items' →
    ∀ dto ∈ items, ∀ dto' ∈ items', dto.inputIndex = dto'.inputIndex →
      dto.status = dto'.status ∧ dto.startedAt = dto'.startedAt

end Response

/-- The samples of a call do not say that it started earlier than the logs say, unless an event says
when, nor that a running call without events is active when the logs do not say so. -/
def SamplesAgree (events : List CallEventRow) (logs : List JobLogRow) (samples : List Sample)
    (isRunning : Bool) (now : ℚ) : Prop :=
  ∀ first last, firstSeen samples = some first → lastSeen samples = some last →
    (eventStarted events = none → ∃ t, firstLogged logs = some t ∧ iso t ≤ iso first) ∧
      (events = [] → isRunning = true → logs.any JobLogRow.realInputError = false →
        now - last < 15 → ∃ t, lastLogged logs = some t ∧ now - t < 15)

/-- The number of calls is one, and either query would do. -/
def Store.EitherQuery (s : Store) (job : CallsJob) (now : ℚ) : Prop :=
  0 ≤ job.inputCount ∧ (s.hasEvents job.jobId = true → ∀ index ∈ job.allCalls,
    SamplesAgree (s.eventsOf job.jobId index) (s.logsOf job.jobId index)
      (s.samplesOf job.jobId index) job.isRunning now)

/-! ### Rows -/

section Rows

variable {s : Store} {job : JobView} {now : ℚ} {q : CallsQuery}

/-- The status of a call that neither has failed nor runs. -/
def restStatus (job : CallsJob) (started : Option ℚ) : ApiStatus :=
  if started.isSome ∧ job.isCanceled then .canceled
  else if started.isSome then .succeeded
  else if job.isRunning then .pending
  else if job.isCanceled then .notRun
  else .unknown

/-- What the query's status has from the events and the traces, Python's has too. -/
lemma apiStatus_of_taskStatus (c : CallSummary) (job : CallsJob) :
    c.apiStatus job now =
      match c.taskStatus job now with
      | .failed => .failed
      | .running => .running
      | .done => restStatus job c.started := by
  rw [CallSummary.apiStatus, CallSummary.taskStatus]
  cases c.failed with
  | true => rfl
  | false =>
    cases c.hasEvents with
    | true =>
      by_cases hopen : job.isRunning = true ∧ 0 < c.openAttempts
      · simp [hopen]
      · simp [hopen, restStatus]
    | false =>
      by_cases hactive : job.isRunning = true ∧ ∃ t, c.lastActive = some t ∧ now - t < 15
      · simp only [Bool.false_eq_true, false_and, if_false, true_and, if_pos hactive]
      · simp only [Bool.false_eq_true, false_and, if_false, true_and, if_neg hactive, restStatus]

lemma shownStatus_eq (task : Task) :
    task.shownStatus job.status =
      ApiStatus.text
        (match task.status with
        | .failed => .failed
        | .running => .running
        | .done => restStatus job.callsJob task.startedAt) := by
  obtain ⟨index, startedAt, durationSec, attempts, peakCpus, peakMem, hasLogs, hasError, status⟩ :=
    task
  cases status with
  | failed => rfl
  | running => rfl
  | done =>
    cases startedAt with
    | none =>
      simp only [Task.shownStatus, restStatus, JobView.callsJob, reduceCtorEq, if_false,
        Option.isSome_none, Bool.false_eq_true, false_and, decide_eq_true_eq]
      split_ifs <;> rfl
    | some t =>
      simp only [Task.shownStatus, restStatus, JobView.callsJob, reduceCtorEq, if_false,
        Option.isSome_some, true_and, if_true, decide_eq_true_eq]
      split_ifs <;> rfl

/-- **A row is shown with the status that the query gives it.** -/
lemma status_shown (c : CallSummary) :
    (job.shown now c).status = (c.apiStatus job.callsJob now).text := by
  rw [apiStatus_of_taskStatus]
  exact shownStatus_eq _

lemma text_injective : Function.Injective ApiStatus.text := by
  intro a b h
  cases a <;> cases b <;> first | rfl | exact absurd h (by decide)

/-! ### Either query -/

/-- What is shown, counted and selected of a call, whichever query its summary comes from. -/
structure Alike (job : CallsJob) (now : ℚ) (c c' : CallSummary) : Prop where
  inputIndex : c.inputIndex = c'.inputIndex
  failed : c.failed = c'.failed
  hasLogs : c.hasLogs = c'.hasLogs
  apiStatus : c.apiStatus job now = c'.apiStatus job now
  started : c.started.map iso = c'.started.map iso

/-- A call's logs or samples are new enough to take it to run. -/
def CallSummary.Active (c : CallSummary) (now : ℚ) : Prop :=
  ∃ t, c.lastActive = some t ∧ now - t < 15

lemma apiStatus_eq_running {c : CallSummary} {job : CallsJob} (hfailed : c.failed = false)
    (hevents : c.hasEvents = false) (hrunning : job.isRunning = true) :
    c.apiStatus job now = .running ↔ c.Active now := by
  simp only [CallSummary.apiStatus, hfailed, hevents, hrunning, Bool.false_eq_true, false_and,
    if_false, true_and, if_true]
  constructor
  · intro h
    by_contra hactive
    simp only [CallSummary.Active] at hactive
    rw [if_neg hactive] at h
    split_ifs at h
  · exact fun h => if_pos h

lemma apiStatus_congr {c c' : CallSummary} {job : CallsJob} (hfailed : c.failed = c'.failed)
    (hevents : c.hasEvents = c'.hasEvents) (hopen : c.openAttempts = c'.openAttempts)
    (hstarted : c.started.isSome = c'.started.isSome)
    (hactive : c'.hasEvents = false → job.isRunning = true → c'.failed = false →
      (c.Active now ↔ c'.Active now)) :
    c.apiStatus job now = c'.apiStatus job now := by
  simp only [CallSummary.apiStatus, hfailed, hevents, hopen, hstarted]
  by_cases h : c'.failed = false ∧ c'.hasEvents = false ∧ job.isRunning = true
  · have hiff := hactive h.2.1 h.2.2 h.1
    simp only [CallSummary.Active] at hiff
    simp only [hiff]
  · simp only [not_and_or, Bool.not_eq_false, Bool.not_eq_true] at h
    rcases h with h | h | h <;> simp [h]

section Alike

variable {events : List CallEventRow} {logs : List JobLogRow} {samples : List Sample} {index : ℤ}
  {job : CallsJob}

lemma exists_seen (h : samples ≠ []) :
    ∃ first last, firstSeen samples = some first ∧ lastSeen samples = some last := by
  have hvalues : (samples.map fun m => some m.timestamp).filterMap id =
      samples.map Sample.timestamp := by
    rw [List.filterMap_map]
    exact congrFun (List.filterMap_eq_map (f := Sample.timestamp)) samples
  have hne : samples.map Sample.timestamp ≠ [] := by simpa using h
  obtain ⟨first, hfirst⟩ := Option.isSome_iff_exists.1 (List.isSome_min?_of_ne_nil hne)
  obtain ⟨last, hlast⟩ := Option.isSome_iff_exists.1 (List.isSome_max?_of_ne_nil hne)
  exact ⟨first, last, by rw [firstSeen, minOf, hvalues, hfirst],
    by rw [lastSeen, maxOf, hvalues, hlast]⟩

lemma iso_min {first t : ℚ} : iso (min first t) = iso t ↔ iso t ≤ iso first := by
  have hmono : Monotone iso := roundTo_mono 6
  constructor
  · intro h
    rw [← h]
    exact hmono (min_le_left first t)
  · intro h
    rcases le_total first t with hle | hle
    · rw [min_eq_left hle]
      exact le_antisymm (hmono hle) h
    · rw [min_eq_right hle]

lemma started_alike (index : ℤ) (h : SamplesAgree events logs samples job.isRunning now) :
    (eventSummary events logs samples job.isRunning now index).started.map iso =
      (sampleSummary events logs samples job.isRunning now index).started.map iso := by
  simp only [eventSummary, sampleSummary]
  cases hstarted : eventStarted events with
  | some t => simp only [Option.some_or]
  | none =>
    by_cases hnil : samples = []
    · subst hnil
      have hfirst : firstSeen [] = none := rfl
      simp only [hfirst, Option.map₂_none_left, Option.none_or]
    · obtain ⟨first, last, hfirst, hlast⟩ := exists_seen hnil
      obtain ⟨t, hlogged, hle⟩ := (h first last hfirst hlast).1 hstarted
      simp only [hfirst, hlogged, Option.map₂_some_some, Option.some_or, Option.none_or,
        Option.map_some, iso_min.2 hle]

/-- The samples make a call active when the last of them does. -/
lemma active_sampleSummary {last : ℚ} (hlast : lastSeen samples = some last) :
    (sampleSummary events logs samples job.isRunning now index).Active now ↔
      now - last < 15 ∨ ∃ t, lastLogged logs = some t ∧ now - t < 15 := by
  simp only [CallSummary.Active, sampleSummary, hlast]
  cases lastLogged logs with
  | none => simp
  | some t =>
    simp only [Option.map₂_some_some, Option.some_or, Option.some.injEq, exists_eq_left']
    rcases le_total last t with hle | hle
    · rw [max_eq_right hle]
      exact ⟨.inr, fun h => h.elim (fun h => by linarith) id⟩
    · rw [max_eq_left hle]
      exact ⟨.inl, fun h => h.elim id fun h => by linarith⟩

/-- **Either query gives the call alike when its samples agree, and only then.** -/
lemma alike_iff :
    Alike job now (summary events logs samples job.isRunning now index true)
        (summary events logs samples job.isRunning now index false) ↔
      SamplesAgree events logs samples job.isRunning now := by
  simp only [summary, if_true, Bool.false_eq_true, if_false]
  constructor
  · intro h first last hfirst hlast
    constructor
    · intro hstarted
      have hiso := h.started
      simp only [eventSummary, sampleSummary, hstarted, hfirst, Option.none_or] at hiso
      cases hlogged : firstLogged logs with
      | none => simp [hlogged] at hiso
      | some t =>
        refine ⟨t, rfl, iso_min.1 ?_⟩
        simpa [hlogged] using hiso.symm
    · intro hevents hrunning hfailed hnew
      have hactive : (sampleSummary events logs samples job.isRunning now index).Active now :=
        (active_sampleSummary hlast).2 (.inl hnew)
      subst hevents
      have hstatus := (apiStatus_eq_running hfailed rfl hrunning).2 hactive
      rw [← h.apiStatus] at hstatus
      exact (apiStatus_eq_running hfailed rfl hrunning).1 hstatus
  · intro h
    have hstarted := started_alike index h
    refine ⟨rfl, rfl, rfl, apiStatus_congr rfl rfl rfl ?_ ?_, hstarted⟩
    · simpa using congrArg Option.isSome hstarted
    · intro hevents hrunning hfailed
      by_cases hnil : samples = []
      · -- Without samples the logs alone are looked at.
        subst hnil
        have hlast : lastSeen [] = none := rfl
        simp only [CallSummary.Active, eventSummary, sampleSummary, hlast, Option.map₂_none_left,
          Option.none_or]
      · obtain ⟨first, last, hfirst, hlast⟩ := exists_seen hnil
        have hactive := (h first last hfirst hlast).2 (by simpa [sampleSummary] using hevents)
          hrunning hfailed
        rw [active_sampleSummary hlast]
        exact ⟨.inr, fun hor => hor.elim hactive id⟩

end Alike

lemma Alike.symm {job : CallsJob} {c c' : CallSummary} (h : Alike job now c c') :
    Alike job now c' c :=
  ⟨h.inputIndex.symm, h.failed.symm, h.hasLogs.symm, h.apiStatus.symm, h.started.symm⟩

lemma Alike.shown {c c' : CallSummary} (h : Alike job.callsJob now c c') :
    (job.shown now c).status = (job.shown now c').status ∧
      (job.shown now c).startedAt = (job.shown now c').startedAt := by
  rw [status_shown, status_shown, h.apiStatus]
  exact ⟨rfl, h.started⟩

lemma Alike.callFilters {job : CallsJob} {c c' : CallSummary} (h : Alike job now c c') :
    s.callFilters job q c = s.callFilters job q c' := by
  rw [Store.callFilters, Store.callFilters, h.failed, h.hasLogs, h.inputIndex]

end Rows

/-! ### Counts -/

section Counts

variable {s : Store} {job : CallsJob} {now : ℚ} {q : CallsQuery} {fromEvents fromEvents' : Bool}

lemma hasEvents_of_summarizesEvents {jobId : String} {sort : CallSort}
    (h : s.summarizesEvents jobId sort = true) : s.hasEvents jobId = true := by
  rw [Store.summarizesEvents, Bool.and_eq_true, Bool.and_eq_true] at h
  exact h.1.1

/-- The queries that are made for a job are alike. -/
lemma Store.EitherQuery.alike (h : s.EitherQuery job now)
    (hevents : fromEvents = true → s.hasEvents job.jobId = true)
    (hevents' : fromEvents' = true → s.hasEvents job.jobId = true) {index : ℤ}
    (hindex : index ∈ job.allCalls) :
    Alike job now (s.summaryBy job now fromEvents index)
      (s.summaryBy job now fromEvents' index) := by
  have heither : s.hasEvents job.jobId = true →
      Alike job now (s.summaryBy job now true index) (s.summaryBy job now false index) :=
    fun hjob => alike_iff.2 (h.2 hjob index hindex)
  cases fromEvents <;> cases fromEvents'
  · exact ⟨rfl, rfl, rfl, rfl, rfl⟩
  · exact (heither (hevents' rfl)).symm
  · exact heither (hevents rfl)
  · exact ⟨rfl, rfl, rfl, rfl, rfl⟩

/-- A count over the one query is the count over the other. -/
lemma countP_flagged (h : s.EitherQuery job now)
    (hevents : fromEvents = true → s.hasEvents job.jobId = true)
    (hevents' : fromEvents' = true → s.hasEvents job.jobId = true) {p : CallSummary → Bool}
    (hp : ∀ c c', Alike job now c c' → p c = p c') :
    (s.flagged job q now fromEvents).countP p = (s.flagged job q now fromEvents').countP p := by
  rw [Store.flagged, Store.flagged, List.countP_filter, List.countP_filter, List.countP_map,
    List.countP_map]
  refine List.countP_congr fun index hindex => ?_
  have halike := h.alike hevents hevents' hindex
  simp only [Function.comp_apply, hp _ _ halike, halike.callFilters]

lemma selectedCalls_eq :
    s.selectedCalls job q now =
      (s.flagged job q now (s.summarizesEvents job.jobId q.sort)).filter fun c =>
        q.status.all (· = (c.apiStatus job now).text) := by
  rw [Store.flagged, List.filter_filter]
  refine List.filter_congr fun c _ => ?_
  exact Bool.and_comm ..

lemma length_selectedCalls :
    (s.selectedCalls job q now).length =
      (s.flagged job q now (s.summarizesEvents job.jobId q.sort)).countP fun c =>
        q.status.all (· = (c.apiStatus job now).text) := by
  rw [selectedCalls_eq, List.countP_eq_length_filter]

lemma totalCount_eq (h : 0 ≤ job.inputCount) :
    s.totalCount job q now = (s.selectedCalls job q now).length := by
  rw [length_selectedCalls, Store.totalCount]
  cases hstatus : q.status with
  | some status => simp only [Option.all_some]
  | none =>
    simp only [Option.all_none, List.countP_true]
    rw [Store.flagged, ← List.countP_eq_length_filter, List.countP_map]
    split_ifs with hfiltered
    · rw [Nat.cast_inj, Store.countQuery]
      refine List.countP_congr fun index _ => ?_
      cases s.summarizesEvents job.jobId q.sort <;> rfl
    · simp only [not_or, Bool.not_eq_true, Option.isSome_eq_false_iff, Option.isNone_iff_eq_none]
        at hfiltered
      obtain ⟨hfailed, hlogs, hmetrics, hindex⟩ := hfiltered
      have hall : job.allCalls.countP
          (s.callFilters job q ∘ s.summaryBy job now (s.summarizesEvents job.jobId q.sort)) =
          job.allCalls.length := by
        rw [List.countP_eq_length]
        intro index _
        simp [Store.callFilters, hfailed, hlogs, hmetrics, hindex]
      rw [hall, CallsJob.allCalls, List.length_map, List.length_range, Int.toNat_of_nonneg h]

lemma filterCounts_eq (h : s.EitherQuery job now) :
    s.filterCounts job q now =
      { all := (s.selectedCalls job { q with status := none } now).length
        running := (s.selectedCalls job { q with status := some "running" } now).length
        failed := (s.selectedCalls job { q with status := some "failed" } now).length
        hasLogs := (s.selectedCalls job { q with logsOnly := true } now).length } := by
  have hcount : ∀ p : CallSummary → Bool, (∀ c c', Alike job now c c' → p c = p c') →
      (s.flagged job q now (s.hasEvents job.jobId)).countP p =
        (s.flagged job q now (s.summarizesEvents job.jobId q.sort)).countP p :=
    fun p hp => countP_flagged h id hasEvents_of_summarizesEvents hp
  simp only [Store.filterCounts, length_selectedCalls, Option.all_none, Option.all_some]
  rw [← List.countP_true, hcount _ fun _ _ _ => rfl, hcount _ fun c c' hc => by rw [hc.apiStatus],
    hcount _ fun c c' hc => by rw [hc.apiStatus],
    hcount _ fun c c' hc => by rw [hc.hasLogs, hc.apiStatus]]
  rw [FilterCounts.mk.injEq]
  refine ⟨rfl, ?_, ?_, ?_⟩
  · refine List.countP_congr fun c _ => ?_
    simp only [decide_eq_true_eq]
    exact ⟨fun hc => (congrArg ApiStatus.text hc).symm, fun hc => text_injective hc.symm⟩
  · refine List.countP_congr fun c _ => ?_
    simp only [decide_eq_true_eq]
    exact ⟨fun hc => (congrArg ApiStatus.text hc).symm, fun hc => text_injective hc.symm⟩
  · rw [Store.flagged, Store.flagged, List.countP_filter, List.countP_filter]
    refine List.countP_congr fun c _ => ?_
    simp only [Store.callFilters, Bool.and_eq_true, Bool.or_eq_true, Bool.not_eq_true',
      Bool.true_eq_false, false_or]
    constructor
    · rintro ⟨⟨hlogs, hstatus⟩, ⟨⟨hfailed, -⟩, hmetrics⟩, hindex⟩
      exact ⟨hstatus, ⟨⟨hfailed, hlogs⟩, hmetrics⟩, hindex⟩
    · rintro ⟨hstatus, ⟨⟨hfailed, hlogs⟩, hmetrics⟩, hindex⟩
      exact ⟨⟨hlogs, hstatus⟩, ⟨⟨hfailed, .inr hlogs⟩, hmetrics⟩, hindex⟩

end Counts

/-! ### The pages -/

section Given

variable {s : Store} {fingerprint : ListRequest → String} {now : ℚ} {limits : ℕ → ℤ} {job : JobView}
  {q : CallsQuery}

/-- A status that is not refused. -/
def CallsQuery.Valid (q : CallsQuery) : Prop :=
  ∀ status ∈ q.status, status = "" ∨ status ∈ callStatuses

lemma listCallsResponse_of_valid (h : q.Valid) (limit : ℤ) (cursor : Option (Cursor ℤ)) :
    listCallsResponse s fingerprint now job limit q cursor =
      (listCalls s fingerprint now limit job.callsJob q cursor).map fun page =>
        { items := page.items.map fun x => job.shown now x.row
          nextCursor := page.nextCursor
          hasMore := page.hasMore
          totalCount := s.totalCount job.callsJob q now
          filterCounts := s.filterCounts job.callsJob q now } := by
  have hvalid : ¬(q.status.any fun status => status ≠ "" ∧ status ∉ callStatuses) = true := by
    rw [Option.any_eq_true]
    rintro ⟨status, hstatus, hnot⟩
    rw [decide_eq_true_eq] at hnot
    exact (h status hstatus).elim hnot.1 hnot.2
  rw [listCallsResponse, if_neg hvalid]

lemma valid_of_gives {items : List CallDto} (h : Gives s fingerprint now limits job q items) :
    q.Valid := by
  intro status hstatus
  by_contra hnot
  rw [not_or] at hnot
  obtain ⟨fuel, hfollow⟩ := h
  have hrefused : ∀ limit cursor,
      (listCallsResponse s fingerprint now job limit q cursor).toOption = none := by
    intro limit cursor
    have hany : (q.status.any fun status => status ≠ "" ∧ status ∉ callStatuses) = true :=
      (Option.any_eq_true _ _).2 ⟨status, hstatus, decide_eq_true hnot⟩
    rw [listCallsResponse, if_pos hany]
    rfl
  cases fuel with
  | zero => cases hfollow
  | succ fuel =>
    rw [Keyset.follow, hrefused] at hfollow
    cases hfollow

/-- **Following the cursors shows the calls that match.** -/
lemma exists_gives (limits : ℕ → ℤ) (h : q.Valid) :
    ∃ items, Gives s fingerprint now limits job q items ∧
      items.Perm ((s.selectedCalls job.callsJob q now).map (job.shown now)) := by
  have hask : ∀ k cursor,
      ((listCallsResponse s fingerprint now job (limits k) q cursor).toOption.map
        fun a => (a.items, a.nextCursor)) =
      (listCalls s fingerprint now (limits k) job.callsJob q cursor).toOption.map
        fun a => (a.items.map fun x => job.shown now x.row, a.nextCursor) := by
    intro k cursor
    rw [listCallsResponse_of_valid h]
    cases listCalls s fingerprint now (limits k) job.callsJob q cursor <;> rfl
  obtain ⟨fuel, items, hfollow, hperm⟩ :=
    follow_shown _ _ q.descending limits (callRows_nodup job.callsJob q) hask
  refine ⟨items, ⟨fuel, hfollow⟩, hperm.trans (List.Perm.of_eq ?_)⟩
  rw [Store.callRows, List.map_map]
  rfl

lemma Gives.perm {items : List CallDto} (h : Gives s fingerprint now limits job q items) :
    items.Perm ((s.selectedCalls job.callsJob q now).map (job.shown now)) := by
  have hgiven : ∃ items', Gives s fingerprint now limits job q items' ∧
      items'.Perm ((s.selectedCalls job.callsJob q now).map (job.shown now)) :=
    exists_gives limits (valid_of_gives h)
  obtain ⟨items', ⟨fuel', hfollow'⟩, hperm⟩ := hgiven
  obtain ⟨fuel, hfollow⟩ := h
  obtain rfl := Keyset.follow_unique hfollow hfollow'
  exact hperm

lemma Gives.length_eq {items : List CallDto} (h : Gives s fingerprint now limits job q items) :
    items.length = (s.selectedCalls job.callsJob q now).length := by
  rw [h.perm.length_eq, List.length_map]

lemma Gives.mem_iff {items : List CallDto} (h : Gives s fingerprint now limits job q items)
    {dto : CallDto} :
    dto ∈ items ↔ ∃ c ∈ s.selectedCalls job.callsJob q now, job.shown now c = dto := by
  rw [h.perm.mem_iff, List.mem_map]

/-- A call that is listed. -/
lemma mem_selectedCalls {job : CallsJob} {c : CallSummary} :
    c ∈ s.selectedCalls job q now ↔ ∃ index ∈ job.allCalls,
      c = s.summaryBy job now (s.summarizesEvents job.jobId q.sort) index ∧
        s.callMatches job q now c = true := by
  rw [Store.selectedCalls, List.mem_filter, List.mem_map]
  constructor
  · rintro ⟨⟨index, hindex, rfl⟩, hmatches⟩
    exact ⟨index, hindex, rfl, hmatches⟩
  · rintro ⟨index, hindex, rfl, hmatches⟩
    exact ⟨⟨index, hindex, rfl⟩, hmatches⟩

/-- The selection by a status. -/
lemma mem_selectedCalls_status {job : CallsJob} {c : CallSummary} {status : String} :
    c ∈ s.selectedCalls job { q with status := some status } now ↔
      c ∈ s.selectedCalls job { q with status := none } now ∧
        status = (c.apiStatus job now).text := by
  simp only [selectedCalls_eq, List.mem_filter, Option.all_some, Option.all_none, and_true,
    decide_eq_true_eq]
  exact Iff.rfl

lemma exists_response (h : q.Valid) :
    ∃ response, listCallsResponse s fingerprint now job 1 q none = .ok response := by
  rw [listCallsResponse_of_valid h]
  exact ⟨_, rfl⟩

lemma totalCount_response {limit : ℤ} {cursor : Option (Cursor ℤ)} {response : CallsResponse}
    (h : listCallsResponse s fingerprint now job limit q cursor = .ok response) :
    response.totalCount = s.totalCount job.callsJob q now ∧
      response.filterCounts = s.filterCounts job.callsJob q now := by
  rw [listCallsResponse] at h
  split_ifs at h
  cases hpage : listCalls s fingerprint now limit job.callsJob q cursor with
  | error e =>
    rw [hpage] at h
    cases h
  | ok page =>
    rw [hpage] at h
    obtain rfl := Except.ok.inj h
    exact ⟨rfl, rfl⟩

/-! ### The condition -/

/-- All the calls, sorted by this. -/
def allSorted (sort : CallSort) : CallsQuery := ⟨none, none, false, false, false, sort, false⟩

lemma mem_selectedCalls_allSorted {job : CallsJob} {sort : CallSort} {fromEvents : Bool}
    (hquery : s.summarizesEvents job.jobId sort = fromEvents) {index : ℤ}
    (h : index ∈ job.allCalls) :
    s.summaryBy job now fromEvents index ∈ s.selectedCalls job (allSorted sort) now := by
  subst hquery
  exact mem_selectedCalls.2 ⟨index, h, rfl, rfl⟩

/-- The condition is necessary: the orders by the index and by a peak take different queries. -/
lemma eitherQuery_of_oneStatus (h : OneStatus s fingerprint now limits job) :
    s.EitherQuery job.callsJob now := by
  constructor
  · obtain ⟨items, hitems, -⟩ := h.ends (allSorted .index) nofun
    obtain ⟨response, hresponse⟩ := exists_response (valid_of_gives hitems)
    have htotal := h.totalCount _ _ _ _ _ hitems hresponse
    have hcount : response.totalCount = job.callsJob.inputCount := (totalCount_response hresponse).1
    omega
  · intro hevents index hindex
    obtain ⟨items, hitems, -⟩ := h.ends (allSorted .index) nofun
    obtain ⟨items', hitems', -⟩ := h.ends (allSorted .peakCpus) nofun
    have hindexed : s.summarizesEvents job.callsJob.jobId .index = true := by
      rw [Store.hasEvents] at hevents
      simp [Store.summarizesEvents, hevents]
    have hpeak : s.summarizesEvents job.callsJob.jobId .peakCpus = false := by
      simp [Store.summarizesEvents]
    obtain ⟨hstatus, hstarted⟩ := h.sort _ _ _ _ hitems hitems'
      _ (hitems.mem_iff.2 ⟨_, mem_selectedCalls_allSorted hindexed hindex, rfl⟩)
      _ (hitems'.mem_iff.2 ⟨_, mem_selectedCalls_allSorted hpeak hindex, rfl⟩) rfl
    rw [status_shown, status_shown] at hstatus
    exact alike_iff.1 ⟨rfl, rfl, rfl, text_injective hstatus, hstarted⟩

/-- **The status of a call is one notion just when either query would do.** -/
theorem oneStatus_iff :
    OneStatus s fingerprint now limits job ↔ s.EitherQuery job.callsJob now := by
  refine ⟨eitherQuery_of_oneStatus, fun h => ?_⟩
  constructor
  case ends =>
    intro q hvalid
    obtain ⟨items, hitems, hperm⟩ := exists_gives limits hvalid
    refine ⟨items, hitems, (hperm.map _).nodup_iff.2 ?_⟩
    have hrows : ((s.callRows job.callsJob q now).map Listed.key).Nodup := callRows_nodup _ q
    rw [Store.callRows, List.map_map] at hrows
    rw [List.map_map]
    exact hrows
  case filtered =>
    intro q status items all hitems hall dto
    rw [hitems.mem_iff, hall.mem_iff]
    constructor
    · rintro ⟨c, hc, rfl⟩
      obtain ⟨hc, hstatus⟩ := mem_selectedCalls_status.1 hc
      exact ⟨⟨c, hc, rfl⟩, (status_shown c).trans hstatus.symm⟩
    · rintro ⟨⟨c, hc, rfl⟩, hstatus⟩
      exact ⟨c, mem_selectedCalls_status.2 ⟨hc, hstatus.symm.trans (status_shown c)⟩, rfl⟩
  case totalCount =>
    intro q items limit cursor response hitems hresponse
    rw [(totalCount_response hresponse).1, totalCount_eq h.1, hitems.length_eq]
  case filterCounts =>
    intro q all running failed logged limit cursor response hall hrunning hfailed hlogged hresponse
    rw [(totalCount_response hresponse).2, filterCounts_eq h, hall.length_eq, hrunning.length_eq,
      hfailed.length_eq, hlogged.length_eq]
  case sort =>
    intro q q' items items' hitems hitems' dto hdto dto' hdto' hindex
    obtain ⟨c, hc, rfl⟩ := hitems.mem_iff.1 hdto
    obtain ⟨c', hc', rfl⟩ := hitems'.mem_iff.1 hdto'
    obtain ⟨index, hmem, rfl, -⟩ := mem_selectedCalls.1 hc
    obtain ⟨index', -, rfl, -⟩ := mem_selectedCalls.1 hc'
    obtain rfl : index = index' :=
      (callSummary_inputIndex job.callsJob q.sort index).symm.trans
        (hindex.trans (callSummary_inputIndex job.callsJob q'.sort index'))
    exact (h.alike hasEvents_of_summarizesEvents hasEvents_of_summarizesEvents hmem).shown

end Given

/-- A job that has ended: its first call has an event, and of its second there is a sample only. -/
def sampledCall : Store :=
  { Store.empty with
    callEvents := [⟨"j", 0, "a", some 100, some 110⟩]
    events_key := by decide
    resourceMetrics := [(1, ⟨105, 5, "n", "task", some "j", some 1, "w", 1, 20, 1000, 1, 0, 0, 0, 0,
      none, none, none, none, none⟩)] }

/-- By the index the second call has neither started nor a status, and by the peak it has
succeeded. -/
theorem two_statuses :
    ¬∀ (s : Store) (fingerprint : ListRequest → String) (now : ℚ) (limits : ℕ → ℤ) (job : JobView),
      OneStatus s fingerprint now limits job := by
  intro h
  obtain ⟨-, heither⟩ := eitherQuery_of_oneStatus
    (h sampledCall (fun _ => "") 200 (fun _ => 100) ⟨"j", "completed", 2⟩)
  obtain ⟨hstarted, -⟩ := heither rfl 1 (by decide) 105 105 (by decide +kernel) (by decide +kernel)
  obtain ⟨t, hlogged, -⟩ := hstarted (by decide +kernel)
  exact Option.some_ne_none t hlogged.symm

end Burla.History
