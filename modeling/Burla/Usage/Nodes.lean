/-
The hours of the nodes of a month (endpoints/usage.py): by days and groups
(`build_nodes_daily_hours`), and by nodes, page by page (`nodes_month_nodes`), over the ended nodes
that the history has (`nodes_ended_after` in history.py).

Times are rational numbers of seconds since 1970, and hours are not rounded.  A date stands for its
text `YYYY-MM-DD`.  Signing in is left out.
-/
import Burla.Files.ContentRange
import Burla.Lib.Amounts
import Burla.Lib.Buckets
import Burla.Lib.Calendar
import Burla.Lib.Cuts
import Burla.Scaling.Catalog
import Mathlib.Data.List.Lex
import Mathlib.Data.List.Sort
import Mathlib.Data.Rat.Floor
import Mathlib.Tactic.Linarith

namespace Burla.Usage

open Burla.Files (Text int)
open Burla.Scaling (machineTypeCpuCount PlanError)
open Calendar (Date)

/-! ### Times -/

/-- What the endpoints raise. -/
inductive Raised
  /-- `HTTPException` -/
  | http (status : ℕ) (detail : Text)
  /-- `ValueError`: a year that is not between 1 and 9999. -/
  | year
  /-- `ValueError`: not as many values to unpack as there are names. -/
  | unpack
  | keyError (key : Text)
  deriving DecidableEq, Repr

def secondsPerDay : ℚ := 86400

/-- The midnights, as numbers of seconds since that of the first of January 1970. -/
def days : Borders ℚ where
  border k := secondsPerDay * k
  index t := ⌊t / secondsPerDay⌋
  mono h := by
    have : ((_ : ℤ) : ℚ) ≤ _ := Int.cast_le.2 h
    rw [secondsPerDay]
    linarith
  index_le t := by
    have := Int.floor_le (t / secondsPerDay)
    rw [secondsPerDay] at *
    linarith
  lt_next t := by
    have := Int.lt_floor_add_one (t / secondsPerDay)
    rw [secondsPerDay] at *
    push_cast
    linarith

/-- The number of the first of January 1970. -/
def epochOrdinal : ℤ := 719163

/-- `_date_key`, of a midnight -/
def dateKey (day : ℤ) : Date := .ofOrdinal (day + epochOrdinal)

/-- `datetime.fromtimestamp(value, tz=timezone.utc)` -/
def fromTimestamp (value : ℚ) : Except Raised ℚ :=
  if -62135596800 ≤ value ∧ value < 253402300800 then .ok value else .error .year

/-- `_as_utc_datetime`: a value that is too large for seconds is one of milliseconds. -/
def asUtcDatetime (ts : ℚ) : Except Raised ℚ :=
  fromTimestamp (if 2000000000000 < ts then ts / 1000 else ts)

/-- `_to_epoch_ms`, of a `datetime` -/
def toEpochMs (time : ℚ) : ℤ := if 0 ≤ time then ⌊time * 1000⌋ else ⌈time * 1000⌉

/-! ### Months -/

structure Month where
  year : ℤ
  month : ℕ
  month_mem : 1 ≤ month ∧ month ≤ 12
  deriving Repr

instance : DecidableEq Month
  | ⟨y, m, _⟩, ⟨y', m', _⟩ =>
    decidable_of_iff (y = y' ∧ m = m') (by rw [Month.mk.injEq])

/-- `datetime(year, month, 1, tzinfo=timezone.utc)` -/
def datetime (year month : ℤ) : Except Raised Month :=
  if h : (1 ≤ year ∧ year ≤ 9999) ∧ 1 ≤ month ∧ month ≤ 12 then
    .ok ⟨year, month.toNat, by omega⟩
  else .error .year

/-- The midnight with which a month begins. -/
def Month.firstDay (m : Month) : ℤ := (Date.firstOf m.year m.month m.month_mem).ordinal - epochOrdinal

def Month.start (m : Month) : ℚ := days.border m.firstDay

/-- `_parse_yyyy_mm` -/
def parseYyyyMm (value : Text) : Except Raised Month :=
  let badRequest : Except Raised Month := .error (.http 400 "Month must be YYYY-MM".toList)
  match value.splitOn '-' with
  | [year, month] =>
    match int year, int month with
    | some year, some month =>
      match datetime year month with
      | .ok m => .ok m
      | .error _ => badRequest
    | _, _ => badRequest
  | _ => badRequest

/-- `_month_start` -/
def monthStart (now : ℚ) : Month :=
  let date := dateKey (days.index now)
  ⟨date.year, date.month, date.month_mem⟩

/-- `_add_months(dt, 1)` -/
def addMonth (m : Month) : Except Raised Month :=
  if m.month + 1 > 12 then datetime (m.year + 1) (m.month + 1 - 12) else datetime m.year (m.month + 1)

/-- `_parse_yyyy_mm(month) if month else _month_start(now)` -/
def monthOf (month : Option Text) (now : ℚ) : Except Raised Month :=
  match month with
  | none | some [] => .ok (monthStart now)
  | some value => parseYyyyMm value

/-! ### Nodes -/

/-- What the history has of a node. -/
structure Node where
  instanceName : Text
  machineType : Option Text
  gcpRegion : Option Text
  spot : Option Bool
  startedAt : Option ℚ
  startedBootingAt : Option ℚ
  endedAt : Option ℚ
  deriving DecidableEq, Repr

/-- The table `nodes`; a node is stored under its name. -/
structure NodesTable where
  rows : List Node
  nodup : (rows.map Node.instanceName).Nodup

/-- `nodes_ended_after` -/
def NodesTable.nodesEndedAfter (t : NodesTable) (cutoffSec : ℚ) : List Node :=
  (t.rows.filter fun d => d.endedAt.any fun ended => cutoffSec ≤ ended).insertionSort fun a b =>
    b.endedAt.getD 0 ≤ a.endedAt.getD 0

/-- `data.get("started_at") or data.get("started_booting_at")` -/
def Node.startedRaw (d : Node) : Option ℚ := (d.startedAt.filter (· ≠ 0)).or d.startedBootingAt

/-- From when to when a node ran. -/
def Node.period (d : Node) : Except Raised (Option (ℚ × ℚ)) :=
  match d.endedAt, d.startedRaw with
  | some endedRaw, some startedRaw => do
    let startDt ← asUtcDatetime startedRaw
    let endDt ← asUtcDatetime endedRaw
    .ok (if endDt ≤ startDt then none else some (startDt, endDt))
  | _, _ => .ok none

/-- What of a period is in a month. -/
def window (monthStart monthEnd : ℚ) (period : ℚ × ℚ) : Option (ℚ × ℚ) :=
  let windowStart := max period.1 monthStart
  let windowEnd := min period.2 monthEnd
  if windowEnd ≤ windowStart then none else some (windowStart, windowEnd)

/-- A text that is there and not empty. -/
def given (text : Option Text) : Option Text := text.filter (· ≠ [])

def Node.isSpot (d : Node) : Bool := d.spot.getD false

/-- `_cpu_hour_multiplier` -/
def cpuHourMultiplier (machineType : Option Text) : Except Raised ℕ :=
  match machineTypeCpuCount (machineType.getD []) with
  | .ok cpus => .ok cpus
  | .error (.keyError key) => .error (.keyError key)
  | .error _ => .error .unpack

/-- `_quantize_hours`, without the rounding -/
def quantizeHours (hours : ℚ) : ℚ := if hours ≤ 0 then 0 else hours

/-! ### Hours by days -/

/-- `f"{machine_type}|{gcp_region}|{1 if spot_bool else 0}"` -/
def groupKeyOf (machineType gcpRegion : Text) (spot : Bool) : Text :=
  machineType ++ '|' :: (gcpRegion ++ '|' :: if spot then ['1'] else ['0'])

/-- `text.split(sep, maxsplit)` -/
def splitAtMost (sep : Char) : ℕ → Text → List Text
  | 0, text => [text]
  | n + 1, text =>
    match text.dropWhile (· ≠ sep) with
    | [] => [text]
    | _ :: rest => text.takeWhile (· ≠ sep) :: splitAtMost sep n rest

/-- The hours of the groups of each day, and their compute hours. -/
structure Buckets where
  hours : Dict Date (Dict Text ℚ)
  compute : Dict Date (Dict Text ℚ)

/-- No hours yet of any of the days. -/
def emptyDays (dayKeys : List Date) : Dict Date (Dict Text ℚ) := .ofKeys (fun _ => .empty) dayKeys

/-- What is added to a group of a day that there is. -/
def addHours (buckets : Dict Date (Dict Text ℚ)) (dayLabel : Date) (groupKey : Text) (hours : ℚ) :
    Dict Date (Dict Text ℚ) :=
  match buckets.get dayLabel with
  | some groups => buckets.set dayLabel (groups.addAmount groupKey hours)
  | none => buckets

/-- What of a window is in a day. -/
def addSegment (window : ℚ × ℚ) (groupKey : Text) (mult : ℕ) (b : Buckets) (day : ℤ) : Buckets :=
  let segStart := max window.1 (days.border day)
  let segEnd := min window.2 (days.border (day + 1))
  if segStart < segEnd then
    let rawHours := (segEnd - segStart) / 3600
    { hours := addHours b.hours (dateKey day) groupKey rawHours
      compute := addHours b.compute (dateKey day) groupKey (rawHours * mult) }
  else b

/-- The loop over the days of a window. -/
def addWindow (window : ℚ × ℚ) (groupKey : Text) (mult : ℕ) (b : Buckets) : Buckets :=
  (days.upTo window.2 (days.index window.1)).foldl (addSegment window groupKey mult) b

def addNode (monthStart monthEnd : ℚ) (b : Buckets) (d : Node) : Except Raised Buckets := do
  match ← d.period with
  | none => .ok b
  | some period =>
    match given d.machineType, given d.gcpRegion with
    | some machineType, some gcpRegion =>
      match window monthStart monthEnd period with
      | none => .ok b
      | some window => do
        let mult ← cpuHourMultiplier machineType
        .ok (addWindow window (groupKeyOf machineType gcpRegion d.isSpot) mult b)
    | _, _ => .ok b

structure GroupHours where
  machineType : Text
  gcpRegion : Text
  spot : Bool
  totalNodeHours : ℚ
  totalComputeHours : ℚ
  deriving DecidableEq, Repr

structure DayHours where
  date : Date
  totalNodeHours : ℚ
  totalComputeHours : ℚ
  groups : List GroupHours
  deriving DecidableEq, Repr

structure DailyHours where
  month : Month
  days : List DayHours
  totalNodeHours : ℚ
  totalComputeHours : ℚ
  scanned : ℕ
  deriving DecidableEq, Repr

/-- A group of a day, with its hours; a group without hours is left out. -/
def groupOut (computeGroups : Dict Text ℚ) (e : Text × ℚ) :
    Except Raised (Option (ℚ × ℚ × GroupHours)) :=
  match splitAtMost '|' 2 e.1 with
  | [machineType, gcpRegion, spotInt] =>
    if e.2 ≤ 0 then .ok none
    else
      let rawCompute := computeGroups.amount e.1
      .ok (some (e.2, rawCompute, ⟨machineType, gcpRegion, spotInt = ['1'], quantizeHours e.2,
        quantizeHours rawCompute⟩))
  | _ => .error .unpack

/-- A day, with the sums of what its groups have. -/
def dayOut (b : Buckets) (dayLabel : Date) : Except Raised (ℚ × ℚ × DayHours) := do
  let computeGroups := (b.compute.get dayLabel).getD .empty
  let groups ← (((b.hours.get dayLabel).getD .empty).items.mapM (groupOut computeGroups))
  let out := groups.reduceOption
  let raw := (out.map Prod.fst).sum
  let rawCompute := (out.map fun e => e.2.1).sum
  .ok (raw, rawCompute, ⟨dayLabel, quantizeHours raw, quantizeHours rawCompute,
    (out.map fun e => e.2.2).insertionSort fun a b => b.totalNodeHours ≤ a.totalNodeHours⟩)

/-- `build_nodes_daily_hours` -/
def buildNodesDailyHours (t : NodesTable) (month : Option Text) (now : ℚ) :
    Except Raised DailyHours := do
  let monthDt ← monthOf month now
  let monthEnd ← addMonth monthDt
  let dayKeys := (days.upTo monthEnd.start monthDt.firstDay).map dateKey
  let endedNodes := t.nodesEndedAfter monthDt.start
  let buckets ← endedNodes.foldlM (addNode monthDt.start monthEnd.start)
    ⟨emptyDays dayKeys, emptyDays dayKeys⟩
  let daysOut ← dayKeys.mapM (dayOut buckets)
  .ok ⟨monthDt, daysOut.map fun e => e.2.2, quantizeHours (daysOut.map Prod.fst).sum,
    quantizeHours (daysOut.map fun e => e.2.1).sum, endedNodes.length⟩

/-! ### Hours by nodes -/

structure NodeHours where
  id : Text
  machineType : Option Text
  gcpRegion : Option Text
  spot : Bool
  startedAtMs : ℤ
  endedAtMs : ℤ
  durationHours : ℚ
  durationComputeHours : ℚ
  deriving DecidableEq, Repr

structure NodesPage where
  month : Month
  nodes : List NodeHours
  nextCursor : Option (ℚ × Text)
  limit : ℕ
  returned : ℕ
  deriving DecidableEq, Repr

/-- `(float(d.get("ended_at") or 0), str(d.get("instance_name") or ""))` -/
def Node.sortKey (d : Node) : ℚ × Text := (d.endedAt.getD 0, d.instanceName)

/-- The order of the pairs of a number and a text. -/
def KeyLt (a b : ℚ × Text) : Prop := a.1 < b.1 ∨ a.1 = b.1 ∧ a.2 < b.2

instance (a b : ℚ × Text) : Decidable (KeyLt a b) := inferInstanceAs (Decidable (_ ∨ _))

/-- A node with its hours in the month, if it has any. -/
def nodeOut (monthStart monthEnd : ℚ) (d : Node) : Except Raised (Option NodeHours) := do
  match ← d.period with
  | none => .ok none
  | some period =>
    match window monthStart monthEnd period with
    | none => .ok none
    | some window => do
      let durationHoursRaw := (window.2 - window.1) / 3600
      if durationHoursRaw ≤ 0 then .ok none
      else
        let mult ← cpuHourMultiplier d.machineType
        .ok (some ⟨d.instanceName, d.machineType, d.gcpRegion, d.isSpot, toEpochMs window.1,
          toEpochMs window.2, quantizeHours durationHoursRaw, quantizeHours (durationHoursRaw * mult)⟩)

/-- The nodes after a cursor, when both parts of it are given. -/
def afterCursor (endedNodes : List Node) (cursorEndedAt : Option ℚ) (cursorId : Option Text) :
    List Node :=
  match cursorEndedAt, cursorId with
  | some endedAt, some id => endedNodes.filter fun d => KeyLt d.sortKey (endedAt, id)
  | _, _ => endedNodes

/-- `nodes_month_nodes` -/
def nodesMonthNodes (t : NodesTable) (month : Option Text) (now : ℚ) (limit : ℤ)
    (cursorEndedAt : Option ℚ) (cursorId : Option Text) : Except Raised NodesPage := do
  let limit := (max 1 (min limit 5000)).toNat
  let monthDt ← monthOf month now
  let monthEnd ← addMonth monthDt
  let sorted := (t.nodesEndedAfter monthDt.start).insertionSort fun a b =>
    ¬KeyLt a.sortKey b.sortKey
  let page := (afterCursor sorted cursorEndedAt cursorId).take limit
  let nodesOut ← page.mapM (nodeOut monthDt.start monthEnd.start)
  let nextCursor := if page.length = limit then
    page.getLast?.bind fun last => last.endedAt.map fun ended => (ended, last.instanceName) else none
  .ok ⟨monthDt, nodesOut.reduceOption, nextCursor, limit, nodesOut.reduceOption.length⟩

end Burla.Usage
