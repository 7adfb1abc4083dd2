/-
The listings of the management interface (`list_jobs`, `list_nodes`, `list_calls`,
`_encode_cursor` and `_decode_cursor` in management.py, `management_jobs_page`,
`management_nodes_page` and `job_task_summaries` in history.py).

A page is asked for with the sort value and the key of the last row that one has, and the
conditions on these are the same in the three queries (`pageWhere`).  The text of a cursor stands
for the record in it, and a row for what is shown of it.

The main result is `Burla.History.pages_lossless`: following the cursors gives the sorted list of
the rows that match, each once, and ends, as long as the time that passes between the requests
changes neither whether a row matches nor what it is sorted by.  `listing_of_no_moment` is a
filter by a call's status for which it does.
-/
import Burla.History.Calls
import Burla.Lib.Keyset
import Burla.Lib.Numbers

namespace Burla.History

open Sql

/-! ### Cursors -/

/-- A row of `filtered`: what it is sorted by, and its primary key. -/
structure Listed (κ ρ : Type) where
  value : Option Value
  key : κ
  row : ρ
  deriving DecidableEq

section Page

variable {κ ρ : Type}

def Listed.sortKey (x : Listed κ ρ) : Option Value × κ := (x.value, x.key)

/-- `_cursor_key` -/
def Listed.cursorKey (x : Listed κ ρ) : ℕ × Option Value × κ :=
  (if x.value.isNone then 1 else 0, x.value, x.key)

/-- What `_encode_cursor` writes down. -/
structure Cursor (κ : Type) where
  v : ℕ
  resource : String
  query : String
  direction : String
  key : ℕ × Option Value × κ

structure ManagementError where
  status : ℕ
  code : String
  message : String
  deriving DecidableEq

/-- `_iso`: the time that the text says, in whole microseconds. -/
def iso (timestamp : ℚ) : ℚ := roundTo 6 timestamp

/-- The parts of a request that a cursor is for. -/
structure Request where
  resource : String
  fingerprint : String
  order : String

variable (request : Request)

/-- `_encode_cursor` -/
def encodeCursor (key : ℕ × Option Value × κ) : Cursor κ where
  v := 1
  resource := request.resource
  query := request.fingerprint
  direction := request.order
  key := key

/-- `_decode_cursor` -/
def decodeCursor :
    Option (Cursor κ) → Except ManagementError (Option (ℕ × Option Value × κ))
  | none => .ok none
  | some c =>
    if c.v = 1 ∧ c.resource = request.resource ∧ c.query = request.fingerprint ∧
        c.direction = request.order then .ok (some c.key)
    else .error ⟨422, "INVALID_CURSOR", "Cursor does not match this query."⟩

structure Response (κ ρ : Type) where
  items : List (Listed κ ρ)
  nextCursor : Option (Cursor κ)
  hasMore : Bool

variable [LinearOrder κ] (descending : Bool)

/-- `comparator` -/
def comparator {β : Type} [LinearOrder β] (a b : β) : Bool := if descending then a < b else b < a

/-- `page_where`: the row comes after the cursor's. -/
def pageWhere (after : ℕ × Option Value × κ) (x : Listed κ ρ) : Option Bool :=
  let isNull := if x.value.isNone then 1 else 0
  Sql.or (some (after.1 < isNull)) <|
    Sql.and (some (isNull = after.1)) <|
      Sql.or
        (Sql.and (some (after.1 = 0)) <|
          Sql.or (Sql.compare (comparator descending) x.value after.2.1) <|
            Sql.and (Sql.compare (fun v w => v = w) x.value after.2.1)
              (some (comparator descending x.key after.2.2)))
        (Sql.and (some (after.1 = 1)) (some (comparator descending x.key after.2.2)))

/-- `ORDER BY sort_value … NULLS LAST`, and by the key in the same direction. -/
def orderBy (rows : List (Listed κ ρ)) : List (Listed κ ρ) :=
  rows.insertionSort fun x y => ¬Keyset.NullsLast descending y.sortKey x.sortKey

/-- The rows of a page's query. -/
def fetchPage (rows : List (Listed κ ρ)) (after : Option (ℕ × Option Value × κ)) (limit : ℕ) :
    List (Listed κ ρ) :=
  let selected :=
    match after with
    | none => rows
    | some after => rows.filter fun x => pageWhere descending after x = some true
  (orderBy descending selected).take limit

/-- A listing: one row more than the page is long is asked for. -/
def listPage (fetch : Option (ℕ × Option Value × κ) → ℕ → List (Listed κ ρ)) (limit : ℤ)
    (cursor : Option (Cursor κ)) : Except ManagementError (Response κ ρ) :=
  (decodeCursor request cursor).map fun after =>
    let limit := (min (max 1 limit) 1000).toNat
    let result := fetch after (limit + 1)
    let page := result.take limit
    { items := page
      nextCursor :=
        if limit < result.length then
          page.getLast?.map fun x => encodeCursor request x.cursorKey
        else none
      hasMore := limit < result.length }

end Page

/-! ### Jobs -/

inductive JobSort
  | startedAt
  | endedAt
  | duration
  | status
  | inputCount
  | resultCount
  | failedCount
  deriving DecidableEq

/-- The query of `list_jobs`; its times have been parsed. -/
structure JobsQuery where
  status : Option String
  user : Option String
  functionName : Option String
  parentJobId : Option String
  startedAfter : Option ℚ
  startedBefore : Option ℚ
  sort : JobSort
  descending : Bool

/-- The condition holds when it is asked for: a column that is NULL meets none. -/
def Sql.asked {α β : Type} (test : α → β → Bool) (column : Option α) (wanted : Option β) : Bool :=
  wanted.all fun b => column.any fun a => test a b

namespace JobRow

def matchesQuery (j : JobRow) (q : JobsQuery) : Bool :=
  j.parentJobId = q.parentJobId && Sql.asked (fun a b => a = b) (j.status.map lower) q.status &&
    Sql.asked (fun a b => a = b) j.user q.user &&
    Sql.asked (fun a b => a = b) j.functionName q.functionName &&
    Sql.asked (fun a b => b ≤ a) j.startedAt q.startedAfter &&
    Sql.asked (fun a b => a ≤ b) j.startedAt q.startedBefore

end JobRow

namespace Store

variable (s : Store)

/-- `failed_count` -/
def failedCount (jobId : String) : ℕ :=
  ((s.jobLogs.filter fun l => l.jobId = some jobId ∧ l.inputIndex.isSome ∧
    l.realInputError).map JobLogRow.inputIndex).dedup.length

/-- `sort_expressions` -/
def jobSortValue (now : ℚ) (j : JobRow) : JobSort → Option Value
  | .startedAt => j.startedAt.map num
  | .endedAt => j.endedAt.map num
  | .duration => j.startedAt.map fun started => num (j.endedAt.getD now - started)
  | .status => j.status.map fun status => text (lower status)
  | .inputCount => j.nInputs.map fun n => num n
  | .resultCount => j.nResults.map fun n => num n
  | .failedCount => some (num (s.failedCount j.jobId))

def jobRows (q : JobsQuery) (now : ℚ) : List (Listed String JobRow) :=
  (s.jobs.filter fun j => j.matchesQuery q).map fun j => ⟨s.jobSortValue now j q.sort, j.jobId, j⟩

/-- `management_jobs_page` -/
def managementJobsPage (q : JobsQuery) (now : ℚ) :
    Option (ℕ × Option Value × String) → ℕ → List (Listed String JobRow) :=
  fetchPage q.descending (s.jobRows q now)

end Store

/-! ### Nodes -/

inductive NodeSort
  | startedAt
  | endedAt
  | status
  | machineType
  deriving DecidableEq

inductive NodeFilter
  | active
  | all
  | only (status : String)

/-- The query of `list_nodes`; its times have been parsed. -/
structure NodesQuery where
  status : NodeFilter
  region : Option String
  jobId : Option String
  startedAfter : Option ℚ
  endedAfter : Option ℚ
  sort : NodeSort
  descending : Bool

namespace NodeRow

def matchesStatus (n : NodeRow) : NodeFilter → Bool
  | .active => n.status.any fun status => upper status ∈ ["BOOTING", "READY", "RUNNING"]
  | .all => true
  | .only wanted => n.status.any fun status => lower status = wanted

def matchesQuery (n : NodeRow) (q : NodesQuery) : Bool :=
  n.matchesStatus q.status && Sql.asked (fun a b => a = b) n.gcpRegion q.region &&
    q.jobId.all (fun jobId =>
      n.data.currentJob = some jobId || n.data.reservedForJob = some jobId) &&
    Sql.asked (fun a b => b ≤ a) n.startedBootingAt q.startedAfter &&
    Sql.asked (fun a b => b ≤ a) n.endedAt q.endedAfter

/-- `sort_expressions` -/
def sortValue (n : NodeRow) : NodeSort → Option Value
  | .startedAt => n.startedBootingAt.map num
  | .endedAt => n.endedAt.map num
  | .status => n.status.map fun status => text (lower status)
  | .machineType => n.machineType.map text

end NodeRow

namespace Store

variable (s : Store)

def nodeRows (q : NodesQuery) : List (Listed String NodeRow) :=
  (s.nodes.filter fun n => n.matchesQuery q).map fun n => ⟨n.sortValue q.sort, n.instanceName, n⟩

/-- `management_nodes_page` -/
def managementNodesPage (q : NodesQuery) :
    Option (ℕ × Option Value × String) → ℕ → List (Listed String NodeRow) :=
  fetchPage q.descending (s.nodeRows q)

/-! ### Calls -/

def callRows (job : CallsJob) (q : CallsQuery) (now : ℚ) : List (Listed ℤ CallSummary) :=
  (s.selectedCalls job q now).map fun c => ⟨c.sortValue job now q.sort, c.inputIndex, c⟩

/-- `job_task_summaries` -/
def jobTaskSummaries (job : CallsJob) (q : CallsQuery) (now : ℚ) :
    Option (ℕ × Option Value × ℤ) → ℕ → List (Listed ℤ CallSummary) :=
  fetchPage q.descending (s.callRows job q now)

end Store

/-! ### Listings -/

inductive ListRequest
  | jobs (q : JobsQuery)
  | nodes (q : NodesQuery)
  | calls (job : CallsJob) (q : CallsQuery)

def order (descending : Bool) : String := if descending then "desc" else "asc"

section Listings

variable (s : Store) (fingerprint : ListRequest → String) (now : ℚ) (limit : ℤ)

/-- `list_jobs` -/
def listJobs (q : JobsQuery) : Option (Cursor String) →
    Except ManagementError (Response String JobRow) :=
  listPage ⟨"jobs", fingerprint (.jobs q), order q.descending⟩ (s.managementJobsPage q now) limit

/-- `list_nodes` -/
def listNodes (q : NodesQuery) : Option (Cursor String) →
    Except ManagementError (Response String NodeRow) :=
  listPage ⟨"nodes", fingerprint (.nodes q), order q.descending⟩ (s.managementNodesPage q) limit

/-- `list_calls` -/
def listCalls (job : CallsJob) (q : CallsQuery) : Option (Cursor ℤ) →
    Except ManagementError (Response ℤ CallSummary) :=
  listPage ⟨"calls:" ++ job.jobId, fingerprint (.calls job q), order q.descending⟩
    (s.jobTaskSummaries job q now) limit

end Listings

/-! ### The claim and the condition -/

/-- What following the cursors gives: the sort values and keys of the rows.  The requests are
numbered. -/
def following {κ ρ : Type}
    (ask : ℕ → Option (Cursor κ) → Except ManagementError (Response κ ρ)) (fuel : ℕ) :
    Option (List (Option Value × κ)) :=
  Keyset.follow
    (fun k cursor => (ask k cursor).toOption.map fun a => (a.items.map Listed.sortKey, a.nextCursor))
    fuel 0 none

/-- Following the cursors ends, with all the rows in order, each once. -/
def GivesAll {κ ρ : Type} [LinearOrder κ]
    (ask : ℕ → Option (Cursor κ) → Except ManagementError (Response κ ρ))
    (rows : List (Listed κ ρ)) (descending : Bool) : Prop :=
  ∃ fuel keys, following ask fuel = some keys ∧ keys.Perm (rows.map Listed.sortKey) ∧
    keys.Pairwise (Keyset.NullsLast descending)

namespace ListRequest

variable (s : Store) (fingerprint : ListRequest → String) (times : ℕ → ℚ) (limits : ℕ → ℤ) (now : ℚ)

/-- The requests at these times, with these limits, give the rows that there are at `now`. -/
def Lossless : ListRequest → Prop
  | jobs q =>
    GivesAll (fun k => listJobs s fingerprint (times k) (limits k) q) (s.jobRows q now) q.descending
  | nodes q => GivesAll (fun k => listNodes s fingerprint (limits k) q) (s.nodeRows q) q.descending
  | calls job q =>
    GivesAll (fun k => listCalls s fingerprint (times k) (limits k) job q) (s.callRows job q now)
      q.descending

/-- The rows that match and what they are sorted by are the same at each request. -/
def Steady : ListRequest → Prop
  | jobs q =>
    ∀ k, (s.jobRows q (times k)).map Listed.sortKey = (s.jobRows q now).map Listed.sortKey
  | nodes _ => True
  | calls job q =>
    ∀ k, (s.callRows job q (times k)).map Listed.sortKey = (s.callRows job q now).map Listed.sortKey

/-- Neither the filter nor the sort column reads the current time. -/
def Untimed : ListRequest → Prop
  | jobs q => q.sort ≠ .duration
  | nodes _ => True
  | calls job q =>
    job.isRunning = false ∨
      (q.status = none ∧ q.sort ≠ .ended ∧ q.sort ≠ .duration ∧ q.sort ≠ .status)

end ListRequest

/-! ### One listing -/

section Page

variable {κ ρ : Type} [LinearOrder κ] {rows : List (Listed κ ρ)} {descending : Bool}

/-- The key of a cursor, with the rank of the value. -/
def keyOf (c : Option Value × κ) : ℕ × Option Value × κ := (if c.1.isNone then 1 else 0, c.1, c.2)

lemma comparator_eq_true {β : Type} [LinearOrder β] {a b : β} :
    comparator descending a b = true ↔ Keyset.Before descending b a := by
  cases descending <;> simp [comparator, Keyset.Before]

/-- **The condition on the rows of a page is that they come after the cursor's.** -/
lemma pageWhere_eq_true {c : Option Value × κ} {x : Listed κ ρ} :
    pageWhere descending (keyOf c) x = some true ↔ Keyset.NullsLast descending c x.sortKey := by
  obtain ⟨value, key⟩ := c
  obtain ⟨value', key', row⟩ := x
  cases value with
  | none =>
    cases value' with
    | none =>
      simp [pageWhere, keyOf, Keyset.NullsLast, Listed.sortKey, Sql.or_eq_true, Sql.and_eq_true,
        comparator_eq_true]
    | some w =>
      simp [pageWhere, keyOf, Keyset.NullsLast, Listed.sortKey, Sql.or_eq_true, Sql.and_eq_true]
  | some v =>
    cases value' with
    | none =>
      simp [pageWhere, keyOf, Keyset.NullsLast, Listed.sortKey, Sql.or_eq_true, Sql.and_eq_true]
    | some w =>
      simp [pageWhere, keyOf, Keyset.NullsLast, Listed.sortKey, Sql.or_eq_true, Sql.and_eq_true,
        Sql.compare_eq_true, comparator_eq_true, eq_comm (a := w)]

lemma orderBy_map (rows : List (Listed κ ρ)) :
    (orderBy descending rows).map Listed.sortKey =
      Keyset.sorted (Keyset.NullsLast descending) (rows.map Listed.sortKey) :=
  List.map_insertionSort _ _ _ _ fun _ _ _ _ => Iff.rfl

lemma fetchPage_map (c : Option (Option Value × κ)) (n : ℕ) :
    (fetchPage descending rows (c.map keyOf) n).map Listed.sortKey =
      (Keyset.sorted (Keyset.NullsLast descending)
        (Keyset.after (Keyset.NullsLast descending) (rows.map Listed.sortKey) c)).take n := by
  cases c with
  | none => rw [Option.map_none, fetchPage, List.map_take, orderBy_map, Keyset.after]
  | some c =>
    have hfilter : (rows.filter fun x => pageWhere descending (keyOf c) x = some true) =
        rows.filter ((fun key => decide (Keyset.NullsLast descending c key)) ∘ Listed.sortKey) := by
      refine List.filter_congr fun x _ => ?_
      simp only [pageWhere_eq_true, Function.comp_apply]
    rw [Option.map_some, fetchPage, List.map_take, orderBy_map, hfilter, Keyset.after,
      List.filter_map]

variable (request : Request)

omit [LinearOrder κ] in
lemma decodeCursor_encodeCursor (c : Option (Option Value × κ)) :
    decodeCursor request (c.map fun c => encodeCursor request (keyOf c)) =
      .ok (c.map keyOf) := by
  cases c with
  | none => rfl
  | some c => exact if_pos ⟨rfl, rfl, rfl, rfl⟩

/-- An answer is a page, and the cursor in it is the key of its last row. -/
lemma listPage_eq (limit : ℤ) (c : Option (Option Value × κ)) :
    ((listPage request (fetchPage descending rows) limit
        (c.map fun c => encodeCursor request (keyOf c))).toOption.map fun a =>
          (a.items.map Listed.sortKey, a.nextCursor)) =
      some ((Keyset.page (Keyset.NullsLast descending) (rows.map Listed.sortKey) c
          (min (max 1 limit) 1000).toNat).1,
        ((Keyset.page (Keyset.NullsLast descending) (rows.map Listed.sortKey) c
          (min (max 1 limit) 1000).toNat).2).map fun c => encodeCursor request (keyOf c)) := by
  simp only [listPage, decodeCursor_encodeCursor, Except.map, Except.toOption, Option.map_some,
    Keyset.page, ← fetchPage_map, List.length_map, ← List.map_take, List.getLast?_map]
  congr 2
  split_ifs
  · rw [Option.map_map]
    rfl
  · rfl

/-- **A listing gives all its rows.** -/
lemma givesAll (rowsAt : ℚ → List (Listed κ ρ)) (times : ℕ → ℚ) (limits : ℕ → ℤ) (now : ℚ)
    (hrows : ((rowsAt now).map Listed.key).Nodup)
    (hsteady : ∀ k, (rowsAt (times k)).map Listed.sortKey = (rowsAt now).map Listed.sortKey) :
    GivesAll (fun k => listPage request (fetchPage descending (rowsAt (times k))) (limits k))
      (rowsAt now) descending := by
  have hkeys : ((rowsAt now).map Listed.sortKey).Nodup := by
    refine List.Nodup.of_map Prod.snd ?_
    rw [List.map_map]
    exact hrows
  refine ⟨_, _, Keyset.follow_eq (r := Keyset.NullsLast descending)
    (fun c => encodeCursor request (keyOf c)) (fun k => (min (max 1 (limits k)) 1000).toNat) hkeys
    (fun k => ?_) fun k c => ?_, Keyset.sorted_perm, Keyset.pairwise_sorted hkeys⟩
  · omega
  · rw [← hsteady k]
    exact listPage_eq request (limits k) c

lemma mem_of_mem_fetchPage {after : Option (ℕ × Option Value × κ)} {n : ℕ} {x : Listed κ ρ}
    (hx : x ∈ fetchPage descending rows after n) : x ∈ rows := by
  cases after with
  | none => exact (List.perm_insertionSort _ _).mem_iff.1 (List.mem_of_mem_take hx)
  | some after =>
    exact (List.mem_filter.1 ((List.perm_insertionSort _ _).mem_iff.1 (List.mem_of_mem_take hx))).1

/-- The pages that the answers hold. -/
def pagesOf (ask : ℕ → Option (Cursor κ) → Except ManagementError (Response κ ρ)) (k : ℕ)
    (cursor : Option (Cursor κ)) : Option (List (Listed κ ρ) × Option (Cursor κ)) :=
  (ask k cursor).toOption.map fun a => (a.items, a.nextCursor)

omit [LinearOrder κ] in
lemma following_eq (ask : ℕ → Option (Cursor κ) → Except ManagementError (Response κ ρ))
    (fuel : ℕ) :
    following ask fuel =
      (Keyset.follow (pagesOf ask) fuel 0 none).map (List.map Listed.sortKey) := by
  rw [← Keyset.follow_map, following]
  simp only [pagesOf, Option.map_map]
  rfl

/-- **Following the cursors gives the rows themselves, each once.** -/
lemma follow_rows (descending : Bool) (limits : ℕ → ℤ) (hrows : (rows.map Listed.key).Nodup) :
    ∃ fuel l, Keyset.follow
        (pagesOf fun k => listPage request (fetchPage descending rows) (limits k)) fuel 0 none =
          some l ∧ l.Perm rows := by
  have hgives : GivesAll (fun k => listPage request (fetchPage descending rows) (limits k)) rows
      descending :=
    givesAll request (fun _ => rows) (fun _ => 0) limits 0 hrows fun _ => rfl
  obtain ⟨fuel, keys, hfollow, hperm, -⟩ := hgives
  rw [following_eq] at hfollow
  obtain ⟨l, hl, rfl⟩ := Option.map_eq_some_iff.1 hfollow
  refine ⟨fuel, l, hl, ?_⟩
  have hsubset : l ⊆ rows := by
    refine Keyset.follow_forall (fun k cursor answer hanswer a ha => ?_) hl
    obtain ⟨response, hresponse, rfl⟩ := Option.map_eq_some_iff.1 hanswer
    simp only [listPage] at hresponse
    cases hafter : decodeCursor request cursor with
    | error e =>
      rw [hafter] at hresponse
      cases hresponse
    | ok after =>
      rw [hafter] at hresponse
      obtain rfl := Option.some.inj hresponse
      exact mem_of_mem_fetchPage (List.mem_of_mem_take ha)
  -- The sort key tells the rows apart.
  have hkeys : (l.map Listed.sortKey).Nodup := by
    refine hperm.nodup_iff.2 (List.Nodup.of_map Prod.snd ?_)
    rw [List.map_map]
    exact hrows
  have hlength : rows.length = l.length := by
    have := hperm.length_eq
    rw [List.length_map, List.length_map] at this
    exact this.symm
  exact (List.subperm_of_subset (List.Nodup.of_map _ hkeys) hsubset).perm_of_length_le hlength.le

/-- **What is shown of a listing's rows is shown of each once, when the answers differ from the
listing's in that only.** -/
lemma follow_shown {δ : Type} (f : Listed κ ρ → δ) (descending : Bool) (limits : ℕ → ℤ)
    (hrows : (rows.map Listed.key).Nodup)
    {ask : ℕ → Option (Cursor κ) → Option (List δ × Option (Cursor κ))}
    (hask : ∀ k cursor, ask k cursor =
      (listPage request (fetchPage descending rows) (limits k) cursor).toOption.map
        fun a => (a.items.map f, a.nextCursor)) :
    ∃ fuel items, Keyset.follow ask fuel 0 none = some items ∧ items.Perm (rows.map f) := by
  obtain ⟨fuel, l, hfollow, hperm⟩ := follow_rows request descending limits hrows
  refine ⟨fuel, l.map f, ?_, hperm.map f⟩
  have heq : ask = fun k cursor =>
      (pagesOf (fun k => listPage request (fetchPage descending rows) (limits k)) k cursor).map
        fun answer => (answer.1.map f, answer.2) := by
    funext k cursor
    rw [hask, pagesOf, Option.map_map]
    rfl
  rw [heq, Keyset.follow_map, hfollow]
  rfl

end Page

/-! ### The three listings -/

section Listings

variable {s : Store} {fingerprint : ListRequest → String} {times : ℕ → ℚ} {limits : ℕ → ℤ}
  {now : ℚ}

lemma jobRows_nodup (q : JobsQuery) : ((s.jobRows q now).map Listed.key).Nodup := by
  rw [Store.jobRows, List.map_map]
  exact s.jobs_key.sublist (List.filter_sublist.map JobRow.jobId)

lemma nodeRows_nodup (q : NodesQuery) : ((s.nodeRows q).map Listed.key).Nodup := by
  rw [Store.nodeRows, List.map_map]
  exact s.nodes_key.sublist (List.filter_sublist.map NodeRow.instanceName)

lemma callSummary_inputIndex (job : CallsJob) (sort : CallSort) (index : ℤ) :
    (s.callSummary job sort now index).inputIndex = index := by
  rw [Store.callSummary, summary]
  split_ifs <;> rfl

lemma callRows_nodup (job : CallsJob) (q : CallsQuery) :
    ((s.callRows job q now).map Listed.key).Nodup := by
  have hcalls : (job.allCalls.map (s.callSummary job q.sort now)).map CallSummary.inputIndex =
      job.allCalls := by
    rw [List.map_map]
    exact (List.map_congr_left fun i _ => callSummary_inputIndex job q.sort i).trans (List.map_id _)
  rw [Store.callRows, List.map_map]
  refine List.Nodup.sublist (List.filter_sublist.map CallSummary.inputIndex) ?_
  rw [hcalls]
  exact List.nodup_range.map Nat.cast_injective

namespace ListRequest

variable {req : ListRequest}

/-- A call's match and sort value, when neither reads the current time. -/
lemma Untimed.call {job : CallsJob} {q : CallsQuery} (h : (calls job q).Untimed) (now now' : ℚ)
    (i : ℤ) :
    s.callMatches job q now (s.callSummary job q.sort now i) =
        s.callMatches job q now' (s.callSummary job q.sort now' i) ∧
      (s.callSummary job q.sort now i).sortValue job now q.sort =
        (s.callSummary job q.sort now' i).sortValue job now' q.sort := by
  rcases h with hended | ⟨hstatus, hsort⟩
  · have hsummary : s.callSummary job q.sort now i = s.callSummary job q.sort now' i := by
      rw [Store.callSummary, Store.callSummary, hended]
      exact summary_ended
    have hapi : ∀ c : CallSummary, c.apiStatus job now = c.apiStatus job now' :=
      fun _ => apiStatus_now (.inl hended)
    rw [hsummary]
    constructor
    · simp only [Store.callMatches, hapi]
    · cases q.sort <;> simp only [CallSummary.sortValue, hapi]
  · have hsummary : { s.callSummary job q.sort now i with duration := none } =
        { s.callSummary job q.sort now' i with duration := none } := summary_now _
    generalize s.callSummary job q.sort now i = c at hsummary ⊢
    generalize s.callSummary job q.sort now' i = c' at hsummary ⊢
    obtain ⟨index, started, duration, attempts, cpus, mem, failed, hasLogs, hasEvents,
      open_, last⟩ := c
    obtain ⟨index', started', duration', attempts', cpus', mem', failed', hasLogs', hasEvents',
      open_', last'⟩ := c'
    simp only [CallSummary.mk.injEq, true_and] at hsummary
    obtain ⟨rfl, rfl, rfl, rfl, rfl, rfl, rfl, rfl, rfl, rfl⟩ := hsummary
    constructor
    · simp only [Store.callMatches, hstatus, Option.all_none]
    · obtain ⟨hended, hduration, hstatus'⟩ := hsort
      generalize q.sort = sort at hended hduration hstatus' ⊢
      cases sort with
      | ended => exact absurd rfl hended
      | duration => exact absurd rfl hduration
      | status => exact absurd rfl hstatus'
      | _ => rfl

/-- **A filter and a sort column that do not read the current time give the same rows.** -/
lemma Untimed.steady (h : req.Untimed) : req.Steady s times now := by
  cases req with
  | jobs q =>
    intro k
    have hvalue : ∀ j, s.jobSortValue (times k) j q.sort = s.jobSortValue now j q.sort := by
      intro j
      simp only [Untimed] at h
      generalize q.sort = sort at h ⊢
      cases sort with
      | duration => exact absurd rfl h
      | _ => rfl
    simp only [Store.jobRows, hvalue]
  | nodes q => trivial
  | calls job q =>
    intro k
    have hkey : ∀ t, (s.callRows job q t).map Listed.sortKey =
        (job.allCalls.filter fun i => s.callMatches job q t (s.callSummary job q.sort t i)).map
          fun i => ((s.callSummary job q.sort t i).sortValue job t q.sort, i) := by
      intro t
      rw [Store.callRows, Store.selectedCalls, List.filter_map, List.map_map, List.map_map]
      refine List.map_congr_left fun i _ => ?_
      exact congrArg (Prod.mk _) (callSummary_inputIndex job q.sort i)
    rw [hkey, hkey]
    have hcall : ∀ i, _ := fun i => h.call (s := s) (times k) now i
    simp only [(hcall _).1, (hcall _).2]

end ListRequest

/-- **Following the cursors of a listing gives the rows that match, in order, each once, and ends,
while the time that passes between the requests does not change them.** -/
theorem pages_lossless {req : ListRequest} (h : req.Steady s times now) :
    req.Lossless s fingerprint times limits now := by
  cases req with
  | jobs q => exact givesAll _ (s.jobRows q) times limits now (jobRows_nodup q) h
  | nodes q =>
    exact givesAll _ (fun _ => s.nodeRows q) times limits now (nodeRows_nodup q) fun _ => rfl
  | calls job q => exact givesAll _ (s.callRows job q) times limits now (callRows_nodup job q) h

end Listings

/-- Three jobs: two have started at the same time, and one has not started. -/
def someJobs : Store :=
  { Store.empty with
    jobs := [⟨"a", none, some "RUNNING", none, none, some 1, some 0, none, none, none⟩,
      ⟨"b", some 5, some "COMPLETED", none, none, some 1, some 1, none, some 6, none⟩,
      ⟨"c", some 5, some "FAILED", none, none, some 2, some 1, none, some 7, none⟩]
    jobs_key := by decide }

/-- Their listing by the time of the start, a row a page. -/
theorem pages_lossless_someJobs :
    (ListRequest.jobs ⟨none, none, none, none, none, none, .startedAt, true⟩).Lossless someJobs
      (fun _ => "") (fun k => 10 + k) (fun _ => 1) 10 :=
  pages_lossless (ListRequest.Untimed.steady nofun)

/-! ### Calls that have succeeded -/

/-- A running job of four calls without events, each with a log line. -/
def tracedCalls : Store :=
  { Store.empty with
    jobLogs := [⟨1, some "j", some 0, some 0, some 100, some ""⟩,
      ⟨2, some "j", some 1, some 0, some 0, some ""⟩,
      ⟨3, some "j", some 2, some 0, some 100, some ""⟩,
      ⟨4, some "j", some 3, some 0, some 0, some ""⟩] }

def tracedJob : CallsJob := ⟨"j", 4, true, false⟩

def succeededCalls : CallsQuery := ⟨none, some "succeeded", false, false, false, .index, false⟩

/-- The second request comes when no call is taken to run any more. -/
def requestTime (k : ℕ) : ℚ := if k = 0 then 101 else 120

/-- Calls 1, 2 and 3 are listed, a call a page. -/
lemma following_succeededCalls :
    following (fun k => listCalls tracedCalls (fun _ => "") (requestTime k) 1 tracedJob
      succeededCalls) 3 = some [(some (num 1), 1), (some (num 2), 2), (some (num 3), 3)] := by
  decide +kernel

/-- They are the calls that have succeeded neither at the first request nor at the others. -/
theorem listing_of_no_moment :
    ¬(ListRequest.calls tracedJob succeededCalls).Lossless tracedCalls (fun _ => "") requestTime
        (fun _ => 1) (requestTime 0) ∧
      ∀ k, 0 < k → ¬(ListRequest.calls tracedJob succeededCalls).Lossless tracedCalls (fun _ => "")
        requestTime (fun _ => 1) (requestTime k) := by
  have hkeys : ∀ now, (ListRequest.calls tracedJob succeededCalls).Lossless tracedCalls
      (fun _ => "") requestTime (fun _ => 1) now →
      (tracedCalls.callRows tracedJob succeededCalls now).length = 3 := by
    rintro now ⟨fuel, keys, hfollowing, hperm, -⟩
    obtain rfl := Keyset.follow_unique hfollowing following_succeededCalls
    rw [← List.length_map (f := Listed.sortKey), ← hperm.length_eq]
    rfl
  constructor
  · intro h
    exact absurd (hkeys _ h) (by decide +kernel)
  · intro k hk h
    have htime : requestTime k = 120 := if_neg hk.ne'
    rw [htime] at h
    exact absurd (hkeys _ h) (by decide +kernel)

end Burla.History
