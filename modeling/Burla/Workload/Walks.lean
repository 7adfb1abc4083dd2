/-
The walks along the links between jobs (`_ancestors`, `_watched_row_id`, `_watched_row_ids` and
`_structure_nodes` in management.py; `_cancelable_child_ids` and `update_job` in cluster_state.py),
on the jobs that any sequence of `start_job` requests (client.py) has stored.

A request's parent is stored as it is sent, so that it may be missing, or below the job itself.

The main result is `Table.viewsEnd_startJobs_iff`: the views of the jobs all end if and only if
every chain of parents comes to a job without one, and within as many links as the calls may be
nested.
-/
import Burla.ClusterState.Cascade
import Burla.Workload.Partition

namespace Burla.Workload

-- One proof for every test of whether a key is among others.
local instance lawfulBEq_key {κ : Type*} [LinearOrder κ] : LawfulBEq κ := inferInstance

namespace Table

open Burla.ClusterState (Tables)
open Burla.Jobs (Updates)
open Relation (TransGen ReflTransGen)

variable {κ : Type*} [LinearOrder κ]

/-- The loop of `_watched_row_id`, with a bound on its rounds. -/
def watchedRowId (t : Table κ) (parentJobId : Option κ) : ℕ → κ → Except Stop (Option κ)
  | 0, _ => .error .unfinished
  | n + 1, current =>
    match t.getJob current with
    | none => .ok none
    | some job =>
      if job.parentJobId = parentJobId then .ok (some current)
      else
        match job.parentJobId with
        | none => .ok none
        | some parent => t.watchedRowId parentJobId n parent

/-- `_watched_row_ids` -/
def watchedRowIds (t : Table κ) (rounds : ℕ) (jobIds : List κ) (parentJobId : Option κ) :
    Except Stop (List κ) :=
  jobIds.foldlM (fun rows jobId => (t.watchedRowId parentJobId rounds jobId).map fun
    | none => rows
    | some rowId => if rowId ∈ rows then rows else rows ++ [rowId]) []

def empty : Table κ := ⟨[], List.nodup_nil⟩

/-- What a `start_job` request stores; a job that is there already is left as it is. -/
def startJob (t : Table κ) (row : StoredJob κ) : Table κ :=
  if h : row.jobId ∈ t.rows.map StoredJob.jobId then t
  else
    { rows := t.rows ++ [row]
      nodup := by
        rw [List.map_append, List.map_singleton, List.nodup_append]
        refine ⟨t.nodup, List.nodup_singleton _, ?_⟩
        rintro a ha b hb rfl
        exact h (List.mem_singleton.1 hb ▸ ha) }

/-- What a sequence of requests stores. -/
def startJobs (requests : List (StoredJob κ)) : Table κ := requests.foldl startJob empty

/-- The live jobs have the parents that are stored of them. -/
def Live (t : Table κ) (s : Tables κ String) : Prop :=
  ∀ k row, s.jobs.get k = some row →
    ∃ job ∈ t.links.rows, job.jobId = k ∧ job.parentJobId = row.spec.parentJobId

/-- **The views of the jobs end**, and none of them with an exception, when calls may be nested so
deeply. -/
structure ViewsEnd (t : Table κ) (calls : ℕ) : Prop where
  /-- A job as the lists show it, with its ancestors. -/
  shown : ∀ row ∈ t.rows, ∃ rounds dto, t.jobOr404 rounds row.jobId = .ok dto
  /-- The rows that are refreshed when jobs change. -/
  watched : ∀ jobIds parentJobId, ∃ rounds rowIds,
    t.watchedRowIds rounds jobIds parentJobId = .ok rowIds
  /-- The tree of a workload. -/
  tree : ∀ row ∈ t.rows, ∃ rounds tree, t.jobTree rounds calls row.jobId = .ok tree
  /-- The children that a dead job takes along, whatever has become of the jobs by then. -/
  canceled : ∀ (s : Tables κ String) now j (u : Updates), t.Live s → (s.jobs.get j).isSome →
    u.status = some .failed ∨ u.status = some .canceled → ∃ s', s.cascade now calls j u = some s'

/-! ### More rounds -/

section Rounds

variable {t : Table κ} {m n calls : ℕ} {k : κ} {p : Option κ} {chain up : List (κ × Option Files.Text)}

lemma ancestorsLoop_mono (h : t.ancestorsLoop n chain p = .ok up) (hle : n ≤ m) :
    t.ancestorsLoop m chain p = .ok up := by
  induction n generalizing m chain p with
  | zero =>
    cases p with
    | none => cases m <;> exact h
    | some current => cases h
  | succ n ih =>
    obtain ⟨m, rfl⟩ : ∃ m', m = m' + 1 := ⟨m - 1, by omega⟩
    cases p with
    | none => exact h
    | some current =>
      rw [ancestorsLoop] at h ⊢
      cases hget : t.getJob current with
      | none =>
        rw [hget] at h
        cases h
      | some job =>
        rw [hget] at h
        exact ih h (by omega)

lemma jobOr404_mono {dto : JobDto κ} (h : t.jobOr404 n k = .ok dto) (hle : n ≤ m) :
    t.jobOr404 m k = .ok dto := by
  rw [jobOr404] at h ⊢
  cases hget : t.getJob k with
  | none =>
    rw [hget] at h
    cases h
  | some job =>
    rw [hget] at h
    dsimp only [ancestors] at h ⊢
    cases hloop : t.ancestorsLoop n [] job.parentJobId with
    | error e =>
      rw [hloop] at h
      cases h
    | ok up =>
      rw [hloop] at h
      rw [ancestorsLoop_mono hloop hle]
      exact h

lemma workloadGroups_mono {groups : JobDto κ × List (Rose (Node κ))}
    (h : t.workloadGroups n calls k = .ok groups) (hle : n ≤ m) :
    t.workloadGroups m calls k = .ok groups := by
  rw [workloadGroups] at h ⊢
  cases hcurrent : t.jobOr404 n k with
  | error e =>
    rw [hcurrent] at h
    cases h
  | ok current =>
    rw [hcurrent] at h
    rw [jobOr404_mono hcurrent hle]
    simp only [bind, Except.bind] at h ⊢
    cases hancestors : current.ancestors with
    | nil =>
      rw [hancestors] at h
      exact h
    | cons outermost rest =>
      rw [hancestors] at h
      dsimp only at h ⊢
      cases hroot : t.jobOr404 n outermost.1 with
      | error e =>
        rw [hroot] at h
        cases h
      | ok root =>
        rw [hroot] at h
        rw [jobOr404_mono hroot hle]
        exact h

/-- A walk that ends has come to a job without a parent. -/
lemma exists_depth_of_ancestorsLoop {job : Job κ} (hjob : job ∈ t.links.rows)
    (h : t.ancestorsLoop n chain job.parentJobId = .ok up) : ∃ d, t.links.Depth d job := by
  induction n generalizing job chain with
  | zero =>
    cases hparent : job.parentJobId with
    | none => exact ⟨0, .root hjob hparent⟩
    | some p =>
      rw [hparent] at h
      cases h
  | succ n ih =>
    cases hparent : job.parentJobId with
    | none => exact ⟨0, .root hjob hparent⟩
    | some p =>
      rw [hparent, ancestorsLoop] at h
      cases hget : t.getJob p with
      | none =>
        rw [hget] at h
        cases h
      | some row =>
        rw [hget] at h
        obtain ⟨hrow, rfl⟩ := getJob_eq_some_iff.1 hget
        have hparentRow : row.read ∈ t.links.rows := List.mem_map_of_mem hrow
        obtain ⟨d, hd⟩ := ih hparentRow h
        exact ⟨d + 1, .under ⟨hparentRow, hjob, hparent⟩ hd⟩

end Rounds

/-! ### Walks in a forest -/

section Forest

variable {t : Table κ} {calls d n : ℕ} {job : Job κ} {parentJobId : Option κ}

lemma exists_watchedRowId (h : t.links.Depth d job) (hlt : d < n) :
    ∃ row, t.watchedRowId parentJobId n job.jobId = .ok row := by
  induction h generalizing n with
  | @root x hx hparent =>
    obtain ⟨n, rfl⟩ : ∃ m, n = m + 1 := ⟨n - 1, by omega⟩
    obtain ⟨row, hget, hread⟩ := exists_getJob hx
    have hnone : row.parentJobId = none := (congrArg Job.parentJobId hread).trans hparent
    rw [watchedRowId, hget]
    dsimp only
    split_ifs
    · exact ⟨_, rfl⟩
    · rw [hnone]
      exact ⟨_, rfl⟩
  | @under d y x hunder hy ih =>
    obtain ⟨n, rfl⟩ : ∃ m, n = m + 1 := ⟨n - 1, by omega⟩
    obtain ⟨row, hget, hread⟩ := exists_getJob hunder.2.1
    have hsome : row.parentJobId = some y.jobId := (congrArg Job.parentJobId hread).trans hunder.2.2
    rw [watchedRowId, hget]
    dsimp only
    split_ifs
    · exact ⟨_, rfl⟩
    · rw [hsome]
      exact ih (by omega)

lemma exists_watchedRowIds (h : ∀ job ∈ t.links.rows, ∃ d < calls, t.links.Depth d job)
    (jobIds : List κ) : ∃ rowIds, t.watchedRowIds (calls + 1) jobIds parentJobId = .ok rowIds := by
  have hone : ∀ jobId, ∃ row, t.watchedRowId parentJobId (calls + 1) jobId = .ok row := by
    intro jobId
    cases hget : t.getJob jobId with
    | none =>
      rw [watchedRowId, hget]
      exact ⟨none, rfl⟩
    | some row =>
      obtain ⟨hrow, rfl⟩ := getJob_eq_some_iff.1 hget
      obtain ⟨d, hlt, hd⟩ := h row.read (List.mem_map_of_mem hrow)
      exact exists_watchedRowId hd (by omega)
  have hrun : ∀ rows : List κ, ∃ rowIds, jobIds.foldlM (fun rows jobId =>
      (t.watchedRowId parentJobId (calls + 1) jobId).map fun
        | none => rows
        | some rowId => if rowId ∈ rows then rows else rows ++ [rowId]) rows = .ok rowIds := by
    induction jobIds with
    | nil => exact fun rows => ⟨rows, rfl⟩
    | cons jobId jobIds ih =>
      intro rows
      obtain ⟨row, hrow⟩ := hone jobId
      rw [List.foldlM_cons, hrow]
      exact ih _
  exact hrun []

/-- The tree of a job's workload, when the calls may be nested as deeply as the jobs are. -/
lemma exists_jobTree (h : ∀ job ∈ t.links.rows, ∃ d < calls, t.links.Depth d job)
    (hjob : job ∈ t.links.rows) : ∃ rounds tree, t.jobTree rounds calls job.jobId = .ok tree := by
  obtain ⟨d, hlt, hd⟩ := h job hjob
  obtain ⟨n, rfl⟩ : ∃ n, calls = n + 1 := ⟨calls - 1, by omega⟩
  obtain ⟨root, hroot, hparent, -, dto, -, hworkload⟩ := exists_outermost hd
  have hids : [root.jobId].Nodup := List.nodup_singleton _
  have hempty : t.links.generation n (t.jobsWithParents [root.jobId]) = [] := by
    rw [generation_eq_nil_congr (jobsWithParents_perm hids) (jobsWithParents_subset hids)]
    refine Links.generation_eq_nil (.root hroot hparent) fun m job hm => ?_
    obtain ⟨d', hlt', hd'⟩ := h job hm.mem
    have := hm.unique hd'
    omega
  obtain ⟨nodes, hnodes⟩ : ∃ nodes, t.structureNodes job.jobId (n + 1)
      (t.jobsWithParents [root.jobId]) [] = .ok nodes :=
    (structureNodes_ok_iff (nodup_jobsWithParents hids) (jobsWithParents_subset hids)).2 hempty
  refine ⟨d, (dto, dropMemberJobs nodes), ?_⟩
  rw [jobTree, hworkload d (le_refl d), hnodes]
  rfl

/-- The jobs that a dead one takes along are below it. -/
lemma shallow_of_depth {s : Tables κ String} (hlive : t.Live s)
    (h : ∀ job ∈ t.links.rows, ∃ d < calls, t.links.Depth d job) (hd : t.links.Depth d job)
    (hn : calls ≤ d + n) : s.Shallow n job.jobId := by
  induction n generalizing d job with
  | zero =>
    obtain ⟨d', hlt, hd'⟩ := h job hd.mem
    have := hd.unique hd'
    omega
  | succ n ih =>
    intro k hk
    obtain ⟨row, hrow, hchild⟩ := hk
    obtain ⟨child, hmem, rfl, hparent⟩ := hlive k row hrow
    exact ih (.under ⟨hd.mem, hmem, hparent.trans hchild.1⟩ hd) (by omega)

/-- **In a forest that is not too deep the views end.** -/
lemma viewsEnd_of_depth (h : ∀ job ∈ t.links.rows, ∃ d < calls, t.links.Depth d job) :
    t.ViewsEnd calls where
  shown row hrow := by
    obtain ⟨d, -, hd⟩ := h row.read (List.mem_map_of_mem hrow)
    obtain ⟨up, hloop, -⟩ := exists_ancestorsLoop_eq hd
    have hget : t.getJob row.jobId = some row := getJob_eq_some_iff.2 ⟨hrow, rfl⟩
    have hup : t.ancestorsLoop d [] row.parentJobId = .ok up := hloop d [] (le_refl d)
    refine ⟨d, ⟨row.jobId, row.functionName, row.parentJobId, up.reverse⟩, ?_⟩
    rw [jobOr404, hget]
    dsimp only
    rw [ancestors, hup]
    rfl
  watched jobIds _ := ⟨calls + 1, exists_watchedRowIds h jobIds⟩
  tree row hrow :=
    have hjob : row.read ∈ t.links.rows := List.mem_map_of_mem hrow
    exists_jobTree h hjob
  canceled s now j u hlive hj hu := by
    obtain ⟨row, hrow⟩ := Option.isSome_iff_exists.1 hj
    obtain ⟨job, hjob, rfl, -⟩ := hlive j row hrow
    obtain ⟨d, -, hd⟩ := h job hjob
    obtain ⟨s', hs', -⟩ : ∃ s', Tables.cascade now calls s job.jobId u = some s' ∧
        ∀ k l, s'.Child k l → s.Child k l :=
      Tables.exists_cascade hu (shallow_of_depth hlive h hd (Nat.le_add_left calls d))
    exact ⟨s', hs'⟩

end Forest

/-! ### What the views need -/

section Needed

variable {t : Table κ} {calls d : ℕ} {job : Job κ}

lemma exists_depth_of_shown (h : t.ViewsEnd calls) (hjob : job ∈ t.links.rows) :
    ∃ d, t.links.Depth d job := by
  obtain ⟨row, hrow, rfl⟩ := List.mem_map.1 hjob
  obtain ⟨rounds, dto, hdto⟩ := h.shown row hrow
  have hget : t.getJob row.jobId = some row := getJob_eq_some_iff.2 ⟨hrow, rfl⟩
  rw [jobOr404, hget] at hdto
  dsimp only [ancestors] at hdto
  cases hloop : t.ancestorsLoop rounds [] row.parentJobId with
  | error e =>
    rw [hloop] at hdto
    cases hdto
  | ok up => exact exists_depth_of_ancestorsLoop hjob hloop

/-- A tree is built by as many nested calls as its jobs are deep. -/
lemma depth_lt_of_tree (hd : t.links.Depth d job) {rounds : ℕ}
    {tree : JobDto κ × List (Rose (Group κ))} (h : t.jobTree rounds calls job.jobId = .ok tree) :
    d < calls := by
  obtain ⟨root, hroot, hparent, hpath, dto, -, hworkload⟩ := exists_outermost hd
  have hids : [root.jobId].Nodup := List.nodup_singleton _
  have hdepth : t.links.Depth 0 root := .root hroot hparent
  obtain ⟨nodes, hnodes⟩ : ∃ nodes,
      t.structureNodes job.jobId calls (t.jobsWithParents [root.jobId]) [] = .ok nodes := by
    rw [jobTree] at h
    cases hgroups : t.workloadGroups rounds calls job.jobId with
    | error e =>
      rw [hgroups] at h
      cases h
    | ok groups =>
      have hmore := workloadGroups_mono hgroups (le_max_left rounds d)
      rw [hworkload _ (le_max_right rounds d)] at hmore
      cases hnodes : t.structureNodes job.jobId calls (t.jobsWithParents [root.jobId]) [] with
      | error e =>
        rw [hnodes] at hmore
        cases hmore
      | ok nodes => exact ⟨nodes, rfl⟩
  cases calls with
  | zero => cases hnodes
  | succ n =>
    by_contra hdeep
    -- a job on the way down that the calls do not reach any more
    obtain ⟨z, hz, hdepthz⟩ := hdepth.exists_between hpath hd (Nat.zero_le (n + 1)) (by omega)
    have hempty := (structureNodes_ok_iff (nodup_jobsWithParents hids)
      (jobsWithParents_subset hids)).1 ⟨nodes, hnodes⟩
    rw [generation_eq_nil_congr (jobsWithParents_perm hids) (jobsWithParents_subset hids)] at hempty
    have hmem : z ∈ t.links.generation n (t.links.childrenOf [t.links.id root]) := by
      refine (Links.mem_generation fun y hy => Links.depth_childrenOf_singleton hdepth hy).2
        ⟨(Links.exists_childrenOf_iff hroot).2 ?_, ?_⟩
      · rcases Relation.reflTransGen_iff_eq_or_transGen.1 hz with rfl | hz
        · exact absurd (hdepth.unique hdepthz) (by omega)
        · exact hz
      · rwa [show 0 + 1 + n = n + 1 by omega]
    have hnil : t.links.generation n (t.links.childrenOf [t.links.id root]) = [] := hempty
    rw [hnil] at hmem
    cases hmem

/-- **The views end if and only if the jobs are a forest that is not too deep.** -/
lemma viewsEnd_iff : t.ViewsEnd calls ↔ ∀ job ∈ t.links.rows, ∃ d < calls, t.links.Depth d job := by
  constructor
  · intro h job hjob
    obtain ⟨d, hd⟩ := exists_depth_of_shown h hjob
    obtain ⟨row, hrow, rfl⟩ := List.mem_map.1 hjob
    obtain ⟨rounds, tree, htree⟩ := h.tree row hrow
    exact ⟨d, depth_lt_of_tree hd htree, hd⟩
  · exact viewsEnd_of_depth

/-- Where calls may be nested without a bound, only a parent that is missing and a job below itself
keep a view from ending. -/
theorem exists_viewsEnd_iff :
    (∃ calls, t.ViewsEnd calls) ↔ t.links.Closed ∧ t.links.Acyclic := by
  constructor
  · rintro ⟨calls, h⟩
    have hdepth : ∀ job ∈ t.links.rows, ∃ d, t.links.Depth d job := fun _ => exists_depth_of_shown h
    exact ⟨Links.closed_of_depth hdepth, Links.acyclic_of_depth hdepth⟩
  · rintro ⟨hclosed, hacyclic⟩
    have hdepth : ∀ job ∈ t.links.rows, ∃ d, t.links.Depth d job :=
      fun _ => Links.exists_depth hclosed hacyclic
    obtain ⟨N, hN⟩ := Links.exists_bound hdepth
    refine ⟨N + 1, viewsEnd_of_depth fun job hjob => ?_⟩
    obtain ⟨d, hd⟩ := hdepth job hjob
    exact ⟨d, Nat.lt_succ_of_le (hN d job hd), hd⟩

end Needed

/-! ### Any sequence of requests -/

section Requests

/-- A job whose parent does not exist, and one that names itself. -/
def orphan : StoredJob ℕ := called 1 (some 0) ['f'] none

def selfish : StoredJob ℕ := called 1 (some 1) ['f'] none

/-- `_ancestors` raises for the one, and does not end for the other. -/
lemma ancestors_orphan (rounds : ℕ) :
    (startJobs [orphan]).jobOr404 (rounds + 1) 1 = .error .attributeError := rfl

lemma ancestors_selfish (rounds : ℕ) :
    (startJobs [selfish]).jobOr404 rounds 1 = .error .unfinished := by
  have hloop : ∀ chain, (startJobs [selfish]).ancestorsLoop rounds chain (some 1) =
      .error .unfinished := by
    induction rounds with
    | zero => exact fun _ => rfl
    | succ n ih =>
      intro chain
      have hget : (startJobs [selfish]).getJob 1 = some selfish := rfl
      rw [ancestorsLoop, hget]
      exact ih _
  show ((startJobs [selfish]).ancestors rounds (some 1)).map _ = _
  rw [ancestors, hloop]
  rfl

end Requests

end Table

end Burla.Workload
