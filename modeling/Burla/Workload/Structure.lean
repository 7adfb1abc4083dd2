/-
The tree of a workload (`_ancestors`, `_job_dto`, `_job_or_404`, `_stage_to_nodes`,
`_structure_nodes`, `_workload_groups`, `_find_group` and `job_tree` in management.py;
`jobs_with_parents` in history.py).

A job that is called from inside another one names it as its parent.  The jobs inside one job are
grouped by their functions, one stage after another, and what is inside a group's jobs is below it;
a later stage is hung under a group of the stage before.
-/
import Burla.Files.ContentRange
import Burla.Lib.Buckets
import Burla.Lib.Links
import Burla.Lib.Rose
import Mathlib.Algebra.Order.Ring.Rat
import Mathlib.Data.List.Lex
import Mathlib.Data.List.Sort

namespace Burla.Workload

open Burla.Files (Text decimal)

/-- A value as `json_extract` gives it: null, a number or a text. -/
abbrev Extracted : Type := Option (ℚ ⊕ Text)

/-- A row of `jobs` with what is read of its `data`.  The live entry of a job, if it has one, has
the same name, parent and function. -/
structure StoredJob (κ : Type*) where
  jobId : κ
  parentJobId : Option κ
  functionName : Option Text
  status : Option Text
  nInputs : Option ℤ
  nResults : Option ℤ
  startedAt : Option ℚ
  funcCpu : Extracted
  funcRam : Extracted
  funcGpu : Extracted
  maxParallelism : Option ℤ
  parentCallIndex : Option ℤ
  parentCallDepth : Option ℤ

/-- A job as `jobs_with_parents` returns it. -/
structure Job (κ : Type*) where
  jobId : κ
  parentJobId : Option κ
  functionName : Text
  status : Text
  nInputs : ℤ
  nResults : ℤ
  funcCpu : Extracted
  funcRam : Extracted
  funcGpu : Extracted
  maxParallelism : Option ℤ
  parentCallIndex : Option ℤ
  parentCallDepth : Option ℤ

/-- A text, or the other one when it is null or empty. -/
def textOr (default : Text) : Option Text → Text
  | none | some [] => default
  | some text => text

/-- The statuses that are written are ASCII. -/
def StoredJob.read {κ : Type*} (row : StoredJob κ) : Job κ where
  jobId := row.jobId
  parentJobId := row.parentJobId
  functionName := textOr "Unknown".toList row.functionName
  status := (textOr "unknown".toList row.status).map Char.toLower
  nInputs := row.nInputs.getD 0
  nResults := row.nResults.getD 0
  funcCpu := row.funcCpu
  funcRam := row.funcRam
  funcGpu := row.funcGpu
  maxParallelism := row.maxParallelism
  parentCallIndex := row.parentCallIndex
  parentCallDepth := row.parentCallDepth

/-- What keeps a call from returning. -/
inductive Stop
  /-- `.get` of a job that is `None`. -/
  | attributeError
  /-- The calls are nested too deeply. -/
  | recursionError
  /-- A loop has not come to its end. -/
  | unfinished
  /-- There is no such job. -/
  | notFound
  deriving DecidableEq

/-- A group of jobs as the tree shows it. -/
structure Group (κ : Type*) where
  functionName : Text
  jobCount : ℕ
  groupPath : Text
  chained : Bool
  jobId : Option κ
  containsCurrent : Bool
  statusCounts : Dict Text ℕ
  inputCount : ℤ
  resultCount : ℤ
  cpuPerCall : Extracted
  ramPerCall : Extracted
  gpuPerCall : Extracted
  runningParallelism : ℤ

/-- A group with its jobs. -/
structure Node (κ : Type*) extends Group κ where
  memberJobs : List (Job κ)

/-- `values.pop() if len(values) == 1 else "mixed"`, for the set of some values. -/
def shared (values : List Extracted) : Extracted :=
  match values.dedup with
  | [value] => value
  | _ => some (.inr "mixed".toList)

/-- The position of a group within its workload's tree. -/
def pathOf (pre : Text) (stageIndex : ℕ) (functionName : Text) : Text :=
  pre ++ '/' :: (decimal stageIndex ++ ':' :: functionName)

section

variable {κ : Type*} [DecidableEq κ]

/-- The group of the jobs of one function in a stage. -/
def groupOf (currentJobId : κ) (groupPath functionName : Text) (jobs : List (Job κ)) : Node κ where
  functionName := functionName
  jobCount := jobs.length
  groupPath := groupPath
  chained := false
  jobId :=
    match jobs with
    | [job] => some job.jobId
    | _ => none
  containsCurrent := jobs.any fun job => job.jobId = currentJobId
  statusCounts := Dict.counts (jobs.map Job.status)
  inputCount := (jobs.map Job.nInputs).sum
  resultCount := (jobs.map Job.nResults).sum
  cpuPerCall := shared (jobs.map Job.funcCpu)
  ramPerCall := shared (jobs.map Job.funcRam)
  gpuPerCall := shared (jobs.map Job.funcGpu)
  runningParallelism :=
    ((jobs.filter fun job => job.status = "running".toList).map fun job =>
      job.maxParallelism.getD 0).sum
  memberJobs := jobs

end

/-- The place of the first of the greatest (`max`). -/
def placeOfMax {α : Type*} (less : α → α → Prop) [DecidableRel less] : List α → ℕ
  | [] => 0
  | a :: l => (l.zipIdx 1).foldl (fun best e => if less best.1 e.1 then e else best) (a, 0) |>.2

/-- The order in which the largest group is looked for. -/
def Smaller {κ : Type*} (a b : Rose (Node κ)) : Prop :=
  a.label.jobCount < b.label.jobCount ∨
    a.label.jobCount = b.label.jobCount ∧ a.label.functionName < b.label.functionName

instance {κ : Type*} : DecidableRel (Smaller (κ := κ)) :=
  fun a b => inferInstanceAs (Decidable (a.label.jobCount < b.label.jobCount ∨
    a.label.jobCount = b.label.jobCount ∧ a.label.functionName < b.label.functionName))

/-- A group that began after the previous stage. -/
def Node.chain {κ : Type*} (node : Node κ) : Node κ := { node with chained := true }

/-- Each later stage under the largest group of the one before, and before what is there. -/
def chainStages {κ : Type*} : List (List (Rose (Node κ))) → List (Rose (Node κ))
  | [] => []
  | [nodes] => nodes
  | nodes :: later =>
    Rose.hang (placeOfMax Smaller nodes) (Rose.relabel Node.chain (chainStages later)) nodes

/-! ### The table -/

/-- The table of jobs, with its primary key. -/
structure Table (κ : Type*) where
  rows : List (StoredJob κ)
  nodup : (rows.map StoredJob.jobId).Nodup

/-- The order of `ORDER BY started_at`. -/
def StartsBy {κ : Type*} (a b : StoredJob κ) : Prop :=
  match a.startedAt, b.startedAt with
  | none, _ => True
  | some _, none => False
  | some x, some y => x ≤ y

instance {κ : Type*} : DecidableRel (StartsBy (κ := κ)) := fun a b => by
  unfold StartsBy
  split <;> infer_instance

namespace Table

variable {κ : Type*} [LinearOrder κ] (t : Table κ)

/-- The jobs and their parents. -/
def links : Links κ (Job κ) where
  rows := t.rows.map StoredJob.read
  id := Job.jobId
  parent := Job.parentJobId
  nodup := by
    rw [List.map_map]
    exact t.nodup

/-- `cluster_state.get_job`; a job that is not live is loaded from the table. -/
def getJob (jobId : κ) : Option (StoredJob κ) := t.rows.find? fun row => row.jobId = jobId

/-- The parts of a list, 500 at a time. -/
def chunks (ids : List κ) : List (List κ) :=
  (List.range ((ids.length + 499) / 500)).map fun i => (ids.drop (500 * i)).take 500

/-- `jobs_with_parents` -/
def jobsWithParents (parentIds : List κ) : List (Job κ) :=
  (chunks parentIds).flatMap fun chunk =>
    ((t.rows.filter fun row => row.parentJobId.any fun p => p ∈ chunk).insertionSort StartsBy).map
      StoredJob.read

/-- The loop of `_ancestors`, with a bound on its rounds. -/
def ancestorsLoop : ℕ → List (κ × Option Text) → Option κ → Except Stop (List (κ × Option Text))
  | _, chain, none => .ok chain
  | 0, _, some _ => .error .unfinished
  | n + 1, chain, some current =>
    match t.getJob current with
    | none => .error .attributeError
    | some job => ancestorsLoop n (chain ++ [(current, job.functionName)]) job.parentJobId

/-- `_ancestors`: the enclosing jobs, outermost first. -/
def ancestors (rounds : ℕ) (parentJobId : Option κ) : Except Stop (List (κ × Option Text)) :=
  (t.ancestorsLoop rounds [] parentJobId).map List.reverse

/-- What the tree needs of a job as it is shown. -/
structure JobDto (κ : Type*) where
  jobId : κ
  functionName : Option Text
  parentJobId : Option κ
  ancestors : List (κ × Option Text)

/-- `_job_or_404` -/
def jobOr404 (rounds : ℕ) (jobId : κ) : Except Stop (JobDto κ) :=
  match t.getJob jobId with
  | none => .error .notFound
  | some job =>
    (t.ancestors rounds job.parentJobId).map fun ancestors =>
      ⟨jobId, job.functionName, job.parentJobId, ancestors⟩

/-! ### The nodes -/

/-- The order of the jobs in a stage. -/
def CalledBy (a b : Job κ) : Prop :=
  a.parentCallIndex.getD 0 < b.parentCallIndex.getD 0 ∨
    a.parentCallIndex.getD 0 = b.parentCallIndex.getD 0 ∧ a.jobId ≤ b.jobId

instance : DecidableRel (CalledBy (κ := κ)) :=
  fun a b => inferInstanceAs (Decidable (a.parentCallIndex.getD 0 < b.parentCallIndex.getD 0 ∨
    a.parentCallIndex.getD 0 = b.parentCallIndex.getD 0 ∧ a.jobId ≤ b.jobId))

/-- `by_function` -/
def byFunction (stageJobs : List (Job κ)) : Dict Text (List (Job κ)) :=
  Dict.groupBy Job.functionName (stageJobs.insertionSort CalledBy)

/-- `_stage_to_nodes`; `inside` is the call of `_structure_nodes` for what is inside a group. -/
def stageToNodes (inside : List (Job κ) → Text → Except Stop (List (Rose (Node κ))))
    (currentJobId : κ) (pre : Text) (stageIndex : ℕ) (stageJobs : List (Job κ)) :
    Except Stop (List (Rose (Node κ))) :=
  (byFunction stageJobs).items.mapM fun (functionName, jobs) => do
    let groupPath := pathOf pre stageIndex functionName
    let children ← inside (t.jobsWithParents (jobs.map Job.jobId)) groupPath
    pure (.node (groupOf currentJobId groupPath functionName jobs) children)

/-- The jobs of each depth, by the depths. -/
def stages (jobs : List (Job κ)) : List (List (Job κ)) :=
  ((Dict.groupBy (fun job => job.parentCallDepth.getD 0) jobs).items.insertionSort fun a b =>
    a.1 ≤ b.1).map Prod.snd

/-- `_structure_nodes`, with a bound on the depth of its calls. -/
def structureNodes (currentJobId : κ) :
    ℕ → List (Job κ) → Text → Except Stop (List (Rose (Node κ)))
  | 0, _, _ => .error .recursionError
  | n + 1, jobs, pre =>
    if jobs.isEmpty then .ok []
    else do
      let stageNodes ← (stages jobs).zipIdx.mapM fun (stage, index) =>
        t.stageToNodes (structureNodes currentJobId n) currentJobId pre index stage
      pure (chainStages stageNodes)

/-- `_workload_groups` -/
def workloadGroups (rounds calls : ℕ) (jobId : κ) :
    Except Stop (JobDto κ × List (Rose (Node κ))) := do
  let current ← t.jobOr404 rounds jobId
  let root ←
    match current.ancestors with
    | [] => pure current
    | outermost :: _ => t.jobOr404 rounds outermost.1
  let groups ← t.structureNodes jobId calls (t.jobsWithParents [root.jobId]) []
  pure (root, groups)

end Table

/-- `_drop_member_jobs` -/
def dropMemberJobs {κ : Type*} (nodes : List (Rose (Node κ))) : List (Rose (Group κ)) :=
  Rose.mapAll Node.toGroup nodes

/-- `_find_group` -/
def findGroup {κ : Type*} (nodes : List (Rose (Node κ))) (groupPath : Text) :
    Option (Rose (Node κ)) :=
  Rose.find (fun node => node.groupPath = groupPath) nodes

/-- `job_tree` -/
def Table.jobTree {κ : Type*} [LinearOrder κ] (t : Table κ) (rounds calls : ℕ) (jobId : κ) :
    Except Stop (Table.JobDto κ × List (Rose (Group κ))) :=
  (t.workloadGroups rounds calls jobId).map fun (root, groups) => (root, dropMemberJobs groups)

end Burla.Workload
