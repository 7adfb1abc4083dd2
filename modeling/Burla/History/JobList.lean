/-
What the list of jobs shows (`_job_dto`, `_job_or_404` and `list_jobs` in management.py; `get_job`
in history.py; `_get_or_load_job` and `get_job` in cluster_state.py).

The list is filtered by the stored status, and a job is shown with a status that is derived from
its stored and its live record, its results and its errors.

The main result is `Burla.History.listAgrees_iff`: the filter and what is shown agree if and only if
of every job the derived status is stored, as far as one can ask for it.
-/
import Burla.History.Pages

namespace Burla.History

open Sql

/-! ### Jobs -/

/-- An entry of a dict is absent, null, or a value. -/
abbrev Entry (α : Type) : Type := Option (Option α)

/-- What `_job_dto` reads of a job's dict.  The statuses that are written are ASCII. -/
structure JobDict where
  status : Entry String
  nInputs : Entry ℤ
  raiseErrors : Entry Bool
  user : Entry String
  functionName : Entry String
  parentJobId : Entry String
  startedAt : Entry ℚ
  endedAt : Entry ℚ

namespace JobDict

def empty : JobDict := ⟨none, none, none, none, none, none, none, none⟩

/-- `{**d, **e}` -/
def merge (d e : JobDict) : JobDict where
  status := e.status.or d.status
  nInputs := e.nInputs.or d.nInputs
  raiseErrors := e.raiseErrors.or d.raiseErrors
  user := e.user.or d.user
  functionName := e.functionName.or d.functionName
  parentJobId := e.parentJobId.or d.parentJobId
  startedAt := e.startedAt.or d.startedAt
  endedAt := e.endedAt.or d.endedAt

variable (d : JobDict)

/-- `str(job.get("status") or "unknown").lower()` -/
def lowerStatus : String :=
  match d.status.join with
  | some status => if status = "" then "unknown" else lower status
  | none => "unknown"

/-- `int(job.get("n_inputs") or 0)` -/
def inputCount : ℤ := d.nInputs.join.getD 0

/-- The status that `_job_dto` shows. -/
def shownStatus (resultCount : ℤ) (failedCount : ℕ) : String :=
  let udfErrorsIgnored := d.raiseErrors = some (some false)
  if d.lowerStatus ≠ "canceled" ∧ d.inputCount ≠ 0 ∧ d.inputCount ≤ resultCount then
    if failedCount ≠ 0 ∧ ¬udfErrorsIgnored then "failed" else "completed"
  else d.lowerStatus

end JobDict

/-- A job in `JOBS`, with the `current_num_results` of the nodes that are assigned to it. -/
structure LiveJob where
  dict : JobDict
  assignedNodes : List ℤ

def LiveJob.nResults (j : LiveJob) : ℤ := j.assignedNodes.foldl (· + ·) 0

/-- The stored jobs, with what the JSON of their rows says, and the live ones. -/
structure JobTables where
  history : Store
  data : String → JobDict
  live : String → Option LiveJob

structure JobDto where
  jobId : String
  status : String
  user : Option String
  functionName : Option String
  parentJobId : Option String
  nestedJobCount : ℕ
  inputCount : ℤ
  resultCount : ℤ
  successCount : ℤ
  failedCount : ℕ
  remainingCount : ℤ
  startedAt : Option ℚ
  endedAt : Option ℚ
  durationSeconds : Option ℚ
  deriving DecidableEq

/-- `statuses` that one can ask for. -/
def jobStatuses : List String := ["running", "completed", "failed", "canceled"]

namespace JobTables

variable (t : JobTables) (now : ℚ) (jobId : String)

def storedRow : Option JobRow := t.history.jobs.find? fun r => r.jobId = jobId

/-- A row's dict and its results. -/
def ofRow (r : JobRow) : JobDict × ℤ := (t.data r.jobId, r.nResults.getD 0)

/-- `history.get_job`, and `management_job`. -/
def stored : Option (JobDict × ℤ) := (t.storedRow jobId).map t.ofRow

/-- `_get_or_load_job`: a job that is loaded stays as it is stored, without nodes. -/
def getOrLoadJob : Option LiveJob :=
  (t.live jobId).or ((t.stored jobId).map fun e => { dict := e.1, assignedNodes := [] })

/-- `cluster_state.get_job` -/
def getJob : Option (JobDict × ℤ) := (t.getOrLoadJob jobId).map fun j => (j.dict, j.nResults)

/-- `job_child_count` -/
def jobChildCount : ℕ := t.history.jobs.countP fun r => r.parentJobId = some jobId

/-- `_job_dto` -/
def jobDto (raw : JobDict × ℤ) : JobDto :=
  let live := t.getJob jobId
  let stored := t.stored jobId
  let job := (((stored.map Prod.fst).getD .empty).merge raw.1).merge
    ((live.map Prod.fst).getD .empty)
  let resultCount :=
    max (max ((stored.map Prod.snd).getD 0) ((live.map Prod.snd).getD 0)) raw.2
  let failedCount := t.history.failedCount jobId
  { jobId := jobId
    status := job.shownStatus resultCount failedCount
    user := job.user.getD (some "Unknown")
    functionName := job.functionName.getD (some "Unknown")
    parentJobId := job.parentJobId.join
    nestedJobCount := t.jobChildCount jobId
    inputCount := job.inputCount
    resultCount := resultCount
    successCount := max 0 (resultCount - failedCount)
    failedCount := failedCount
    remainingCount := max 0 (job.inputCount - resultCount)
    startedAt := job.startedAt.join
    endedAt := job.endedAt.join
    durationSeconds := job.startedAt.join.map fun startedAt =>
      max 0 (((job.endedAt.join.filter (· ≠ 0)).getD now) - startedAt) }

/-- `_job_or_404` -/
def jobOr404 : Option JobDto :=
  ((t.getJob jobId).or (t.stored jobId)).map (t.jobDto now jobId)

end JobTables

/-! ### The list -/

structure JobsResponse where
  items : List JobDto
  nextCursor : Option (Cursor String)
  hasMore : Bool
  totalCount : ℕ

section List

variable (t : JobTables) (fingerprint : ListRequest → String) (now : ℚ) (limits : ℕ → ℤ)

/-- `list_jobs` with all that it responds. -/
def listJobsResponse (limit : ℤ) (q : JobsQuery) (cursor : Option (Cursor String)) :
    Except ManagementError JobsResponse :=
  if q.status.any fun status => status ≠ "" ∧ status ∉ jobStatuses then
    .error ⟨422, "INVALID_ARGUMENT", "Invalid job status."⟩
  else
    (listJobs t.history fingerprint now limit q cursor).map fun page =>
      { items := page.items.map fun x => t.jobDto now x.row.jobId (t.ofRow x.row)
        nextCursor := page.nextCursor
        hasMore := page.hasMore
        totalCount := (t.history.jobs.filter fun r => r.matchesQuery q).length }

/-- `list_jobs(status=s)`, in this order. -/
def byStatus (status : String) (sort : JobSort) (descending : Bool) : JobsQuery :=
  ⟨some status, none, none, none, none, none, sort, descending⟩

/-- These are the jobs on all the pages. -/
def JobsGiven (q : JobsQuery) (items : List JobDto) : Prop :=
  ∃ fuel, Keyset.follow (fun k cursor =>
    (listJobsResponse t fingerprint now (limits k) q cursor).toOption.map
      fun a => (a.items, a.nextCursor)) fuel 0 none = some items

/-- A top-level job that would be shown with a status. -/
def WouldShow (jobId status : String) : Prop :=
  ∃ dto, t.jobOr404 now jobId = some dto ∧ dto.parentJobId = none ∧ dto.status = status

/-- The filter by a status and what is shown agree. -/
structure ListAgrees : Prop where
  ends : ∀ status ∈ jobStatuses, ∀ sort descending,
    ∃ items, JobsGiven t fingerprint now limits (byStatus status sort descending) items ∧
      (items.map JobDto.jobId).Nodup
  shown : ∀ status ∈ jobStatuses, ∀ sort descending items,
    JobsGiven t fingerprint now limits (byStatus status sort descending) items →
      ∀ dto ∈ items, dto.status = status
  returned : ∀ status ∈ jobStatuses, ∀ sort descending items,
    JobsGiven t fingerprint now limits (byStatus status sort descending) items →
      ∀ jobId, WouldShow t now jobId status → jobId ∈ items.map JobDto.jobId
  totalCount : ∀ status ∈ jobStatuses, ∀ sort descending limit cursor response,
    listJobsResponse t fingerprint now limit (byStatus status sort descending) cursor =
        .ok response →
      ∃ jobIds : List String, jobIds.Nodup ∧ response.totalCount = jobIds.length ∧
        ∀ jobId, jobId ∈ jobIds ↔ WouldShow t now jobId status

end List

/-! ### The condition -/

namespace JobTables

variable (t : JobTables) (jobId status : String)

/-- What is known of a job: the live entries, and else the stored ones. -/
def record : JobDict :=
  (((t.stored jobId).map Prod.fst).getD .empty).merge (((t.getJob jobId).map Prod.fst).getD .empty)

/-- The results that are known of. -/
def results : ℤ :=
  max (((t.stored jobId).map Prod.snd).getD 0) (((t.getJob jobId).map Prod.snd).getD 0)

/-- The results are all in, and the job was not canceled. -/
def Finished : Prop :=
  (t.record jobId).lowerStatus ≠ "canceled" ∧ (t.record jobId).inputCount ≠ 0 ∧
    (t.record jobId).inputCount ≤ t.results jobId

/-- An input has failed, and its error is not a result. -/
def Failing : Prop :=
  t.history.failedCount jobId ≠ 0 ∧ (t.record jobId).raiseErrors ≠ some (some false)

/-- There is a row without a parent, with this status. -/
def StoredAs : Prop :=
  ∃ r ∈ t.history.jobs, r.jobId = jobId ∧ r.parentJobId = none ∧ r.status.map lower = some status

/-- The job is stored or live, and has no parent. -/
def TopLevel : Prop :=
  ((t.storedRow jobId).isSome ∨ (t.live jobId).isSome) ∧ (t.record jobId).parentJobId.join = none

/-- What one can ask for is stored: once the results are all in how the job came out, and before
that the status that the live record has. -/
structure Recorded : Prop where
  finished : ∀ jobId, t.Finished jobId → ∀ status ∈ jobStatuses,
    (t.StoredAs jobId status ↔ t.TopLevel jobId ∧
      ((status = "failed" ∧ t.Failing jobId) ∨ (status = "completed" ∧ ¬t.Failing jobId)))
  unfinished : ∀ jobId, ¬t.Finished jobId → ∀ status ∈ jobStatuses,
    (t.StoredAs jobId status ↔ t.TopLevel jobId ∧ (t.record jobId).lowerStatus = status)

end JobTables

/-! ### What is shown of a job -/

lemma merge_self (d : JobDict) : d.merge d = d := by
  simp only [JobDict.merge, Option.or_self]

lemma merge_merge_self (d e : JobDict) : (d.merge e).merge e = d.merge e := by
  simp only [JobDict.merge, ← Option.or_assoc, Option.or_self]

section Shown

variable {t : JobTables} {now : ℚ} {jobId status : String}

lemma storedRow_of_mem {r : JobRow} (h : r ∈ t.history.jobs) : t.storedRow r.jobId = some r := by
  have hsome : (t.storedRow r.jobId).isSome :=
    List.find?_isSome.2 ⟨r, h, decide_eq_true rfl⟩
  obtain ⟨r', hr'⟩ := Option.isSome_iff_exists.1 hsome
  have hid : r'.jobId = r.jobId := by
    rw [JobTables.storedRow] at hr'
    simpa using List.find?_some hr'
  rw [hr', List.inj_on_of_nodup_map t.history.jobs_key (List.mem_of_find?_eq_some hr') h hid]

lemma stored_of_mem {r : JobRow} (h : r ∈ t.history.jobs) :
    t.stored r.jobId = some (t.ofRow r) := by
  rw [JobTables.stored, storedRow_of_mem h, Option.map_some]

/-- A job is shown alike in the list and by itself. -/
lemma jobDto_eq (now : ℚ) {raw : JobDict × ℤ}
    (h : t.getJob jobId = some raw ∨ t.stored jobId = some raw) :
    (t.jobDto now jobId raw).status =
        (t.record jobId).shownStatus (t.results jobId) (t.history.failedCount jobId) ∧
      (t.jobDto now jobId raw).parentJobId = (t.record jobId).parentJobId.join := by
  have hrecord : ((((t.stored jobId).map Prod.fst).getD .empty).merge raw.1).merge
      (((t.getJob jobId).map Prod.fst).getD .empty) = t.record jobId := by
    rw [JobTables.record]
    rcases h with h | h
    · rw [h, Option.map_some, Option.getD_some, merge_merge_self]
    · rw [h, Option.map_some, Option.getD_some, merge_self]
  have hresults : max (max (((t.stored jobId).map Prod.snd).getD 0)
      (((t.getJob jobId).map Prod.snd).getD 0)) raw.2 = t.results jobId := by
    rw [JobTables.results]
    rcases h with h | h
    · rw [h, Option.map_some, Option.getD_some, max_assoc, max_self]
    · rw [h, Option.map_some, Option.getD_some, max_right_comm, max_self]
  simp only [JobTables.jobDto, hrecord, hresults, and_self]

lemma isSome_getJob : (t.getJob jobId).isSome ↔
    (t.storedRow jobId).isSome ∨ (t.live jobId).isSome := by
  rw [JobTables.getJob, JobTables.getOrLoadJob, JobTables.stored]
  cases t.live jobId <;> cases t.storedRow jobId <;> simp

/-- A job that is stored is loaded. -/
lemma getJob_or_stored : (t.getJob jobId).or (t.stored jobId) = t.getJob jobId := by
  rw [JobTables.getJob, JobTables.getOrLoadJob]
  cases t.live jobId <;> cases t.stored jobId <;> rfl

lemma wouldShow_iff (now : ℚ) : WouldShow t now jobId status ↔ t.TopLevel jobId ∧
    (t.record jobId).shownStatus (t.results jobId) (t.history.failedCount jobId) = status := by
  rw [WouldShow, JobTables.TopLevel, ← isSome_getJob]
  constructor
  · rintro ⟨dto, hdto, hparent, hstatus⟩
    rw [JobTables.jobOr404, getJob_or_stored] at hdto
    obtain ⟨raw, hraw, rfl⟩ := Option.map_eq_some_iff.1 hdto
    obtain ⟨hstatus', hparent'⟩ := jobDto_eq now (.inl hraw)
    exact ⟨⟨Option.isSome_of_eq_some hraw, hparent'.symm.trans hparent⟩,
      hstatus'.symm.trans hstatus⟩
  · rintro ⟨⟨hknown, hparent⟩, hstatus⟩
    obtain ⟨raw, hraw⟩ := Option.isSome_iff_exists.1 hknown
    obtain ⟨hstatus', hparent'⟩ := jobDto_eq now (.inl hraw)
    refine ⟨t.jobDto now jobId raw, ?_, hparent'.trans hparent, hstatus'.trans hstatus⟩
    rw [JobTables.jobOr404, getJob_or_stored, hraw, Option.map_some]

/-- The derived status, once the results are all in and before. -/
lemma shownStatus_record :
    (t.Finished jobId →
      ((t.record jobId).shownStatus (t.results jobId) (t.history.failedCount jobId) = status ↔
        (status = "failed" ∧ t.Failing jobId) ∨ (status = "completed" ∧ ¬t.Failing jobId))) ∧
    (¬t.Finished jobId →
      ((t.record jobId).shownStatus (t.results jobId) (t.history.failedCount jobId) = status ↔
        (t.record jobId).lowerStatus = status)) := by
  constructor
  · intro hfinished
    by_cases hfailing : t.Failing jobId
    · have hshown : (t.record jobId).shownStatus (t.results jobId)
          (t.history.failedCount jobId) = "failed" := (if_pos hfinished).trans (if_pos hfailing)
      simp [hshown, hfailing, eq_comm]
    · have hshown : (t.record jobId).shownStatus (t.results jobId)
          (t.history.failedCount jobId) = "completed" := (if_pos hfinished).trans (if_neg hfailing)
      simp [hshown, hfailing, eq_comm]
  · intro hunfinished
    have hshown : (t.record jobId).shownStatus (t.results jobId) (t.history.failedCount jobId) =
        (t.record jobId).lowerStatus := if_neg hunfinished
    rw [hshown]

/-- **What one can ask for is stored of a job just when it is stored as it would be shown.** -/
lemma recorded_iff (now : ℚ) : t.Recorded ↔ ∀ jobId, ∀ status ∈ jobStatuses,
    (t.StoredAs jobId status ↔ WouldShow t now jobId status) := by
  constructor
  · intro h jobId status hstatus
    rw [wouldShow_iff now]
    by_cases hfinished : t.Finished jobId
    · rw [shownStatus_record.1 hfinished]
      exact h.finished jobId hfinished status hstatus
    · rw [shownStatus_record.2 hfinished]
      exact h.unfinished jobId hfinished status hstatus
  · intro h
    constructor
    · intro jobId hfinished status hstatus
      rw [← shownStatus_record.1 hfinished, ← wouldShow_iff now]
      exact h jobId status hstatus
    · intro jobId hunfinished status hstatus
      rw [← shownStatus_record.2 hunfinished, ← wouldShow_iff now]
      exact h jobId status hstatus

end Shown

/-! ### The pages -/

section Given

variable {t : JobTables} {fingerprint : ListRequest → String} {now : ℚ} {limits : ℕ → ℤ}
  {status : String} {sort : JobSort} {descending : Bool}

lemma matchesQuery_byStatus {r : JobRow} : r.matchesQuery (byStatus status sort descending) = true ↔
    r.parentJobId = none ∧ r.status.map lower = some status := by
  simp only [JobRow.matchesQuery, Sql.asked, Bool.and_eq_true, decide_eq_true_eq]
  simp only [byStatus, Option.all_none, and_true, Option.all_some]
  cases hcolumn : r.status.map lower <;> simp

lemma listJobsResponse_of_mem (h : status ∈ jobStatuses) (limit : ℤ)
    (cursor : Option (Cursor String)) :
    listJobsResponse t fingerprint now limit (byStatus status sort descending) cursor =
      (listJobs t.history fingerprint now limit (byStatus status sort descending) cursor).map
        fun page =>
          { items := page.items.map fun x => t.jobDto now x.row.jobId (t.ofRow x.row)
            nextCursor := page.nextCursor
            hasMore := page.hasMore
            totalCount := (t.history.jobs.filter fun r =>
              r.matchesQuery (byStatus status sort descending)).length } := by
  rw [listJobsResponse, if_neg]
  simp [byStatus, h]

/-- **Following the cursors shows the rows that match.** -/
lemma exists_jobsGiven (limits : ℕ → ℤ) (h : status ∈ jobStatuses) (sort : JobSort)
    (descending : Bool) :
    ∃ items, JobsGiven t fingerprint now limits (byStatus status sort descending) items ∧
      items.Perm ((t.history.jobs.filter fun r =>
        r.matchesQuery (byStatus status sort descending)).map
          fun r => t.jobDto now r.jobId (t.ofRow r)) := by
  have hask : ∀ k cursor,
      ((listJobsResponse t fingerprint now (limits k) (byStatus status sort descending)
        cursor).toOption.map fun a => (a.items, a.nextCursor)) =
      (listJobs t.history fingerprint now (limits k) (byStatus status sort descending)
        cursor).toOption.map fun a =>
          (a.items.map fun x => t.jobDto now x.row.jobId (t.ofRow x.row), a.nextCursor) := by
    intro k cursor
    rw [listJobsResponse_of_mem h]
    cases listJobs t.history fingerprint now (limits k) (byStatus status sort descending) cursor <;>
      rfl
  obtain ⟨fuel, items, hfollow, hperm⟩ :=
    follow_shown _ _ descending limits (jobRows_nodup (byStatus status sort descending)) hask
  refine ⟨items, ⟨fuel, hfollow⟩, hperm.trans (List.Perm.of_eq ?_)⟩
  rw [Store.jobRows, List.map_map]
  rfl

lemma JobsGiven.perm {items : List JobDto} (h : status ∈ jobStatuses)
    (hitems : JobsGiven t fingerprint now limits (byStatus status sort descending) items) :
    items.Perm ((t.history.jobs.filter fun r =>
      r.matchesQuery (byStatus status sort descending)).map
        fun r => t.jobDto now r.jobId (t.ofRow r)) := by
  obtain ⟨items', ⟨fuel', hfollow'⟩, hperm⟩ := exists_jobsGiven (t := t) limits h sort descending
  obtain ⟨fuel, hfollow⟩ := hitems
  obtain rfl := Keyset.follow_unique hfollow hfollow'
  exact hperm

/-- The ids of the rows that match. -/
def matchingIds (t : JobTables) (status : String) (sort : JobSort) (descending : Bool) :
    List String :=
  (t.history.jobs.filter fun r => r.matchesQuery (byStatus status sort descending)).map
    JobRow.jobId

lemma nodup_matchingIds : (matchingIds t status sort descending).Nodup :=
  t.history.jobs_key.sublist (List.filter_sublist.map JobRow.jobId)

lemma mem_matchingIds (sort : JobSort) (descending : Bool) {jobId : String} :
    jobId ∈ matchingIds t status sort descending ↔ t.StoredAs jobId status := by
  rw [matchingIds, List.mem_map]
  constructor
  · rintro ⟨r, hr, rfl⟩
    obtain ⟨hmem, hmatches⟩ := List.mem_filter.1 hr
    exact ⟨r, hmem, rfl, matchesQuery_byStatus.1 hmatches⟩
  · rintro ⟨r, hmem, rfl, hmatches⟩
    exact ⟨r, List.mem_filter.2 ⟨hmem, matchesQuery_byStatus.2 hmatches⟩, rfl⟩

/-- The jobs that are returned are those that are stored with the status. -/
lemma JobsGiven.jobIds_perm {items : List JobDto} (h : status ∈ jobStatuses)
    (hitems : JobsGiven t fingerprint now limits (byStatus status sort descending) items) :
    (items.map JobDto.jobId).Perm (matchingIds t status sort descending) := by
  have hperm := (hitems.perm h).map JobDto.jobId
  rwa [List.map_map] at hperm

lemma totalCount_listJobsResponse {limit : ℤ} {cursor : Option (Cursor String)}
    {response : JobsResponse} (h : status ∈ jobStatuses)
    (hresponse : listJobsResponse t fingerprint now limit (byStatus status sort descending) cursor =
      .ok response) :
    response.totalCount = (matchingIds t status sort descending).length := by
  rw [listJobsResponse_of_mem h] at hresponse
  generalize listJobs t.history fingerprint now limit (byStatus status sort descending) cursor =
    page at hresponse
  cases page with
  | error e => cases hresponse
  | ok page =>
    obtain rfl := Except.ok.inj hresponse
    rw [matchingIds, List.length_map]

/-- The condition is necessary: what is returned and what would be shown are as many, and so the
same. -/
lemma recorded_of_listAgrees (h : ListAgrees t fingerprint now limits) : t.Recorded := by
  refine (recorded_iff now).2 fun jobId status hstatus => ?_
  obtain ⟨items, hitems, -⟩ := h.ends status hstatus .startedAt false
  obtain ⟨response, hresponse⟩ : ∃ response, listJobsResponse t fingerprint now 1
      (byStatus status .startedAt false) none = .ok response := by
    rw [listJobsResponse_of_mem hstatus]
    exact ⟨_, rfl⟩
  obtain ⟨jobIds, hnodup, htotal, hshown⟩ := h.totalCount _ hstatus _ _ _ _ _ hresponse
  have hreturned : jobIds ⊆ matchingIds t status .startedAt false := fun id hid =>
    (hitems.jobIds_perm hstatus).mem_iff.1
      (h.returned status hstatus _ _ _ hitems id ((hshown id).1 hid))
  have hsame : jobIds.Perm (matchingIds t status .startedAt false) := by
    refine (List.subperm_of_subset hnodup hreturned).perm_of_length_le ?_
    rw [← htotal, totalCount_listJobsResponse hstatus hresponse]
  rw [← mem_matchingIds .startedAt false, ← hsame.mem_iff, hshown]

end Given

/-- A job that runs by its record. -/
def runningDict : JobDict :=
  { JobDict.empty with
    status := some (some "RUNNING")
    nInputs := some (some 1)
    raiseErrors := some (some true) }

/-- The only result of the job was stored, and then the head died. -/
def deadHead : JobTables where
  history :=
    { Store.empty with
      jobs := [⟨"j", some 100, some "RUNNING", none, none, some 1, some 1, none, none, none⟩]
      jobs_key := List.nodup_singleton _ }
  data := fun _ => runningDict
  live := fun _ => none

end Burla.History
