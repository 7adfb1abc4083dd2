/-
The tree of a workload is a partition of the jobs below its outermost job.

When the parent links form a forest, the walk to the outermost job ends there, and the calls for the
groups end with the deepest jobs.

The main result is `Table.workload_partition`.
-/
import Burla.Workload.Built
import Mathlib.Algebra.GroupWithZero.Nat

namespace Burla.Workload

open Burla.Files (Text decimal)
open Relation (TransGen ReflTransGen)

namespace Table

variable {κ : Type*} [LinearOrder κ] {t : Table κ}

/-! ### The outermost job -/

section Outermost

variable {job : Job κ} {d : ℕ} {k : κ}

lemma getJob_eq_some_iff {row : StoredJob κ} :
    t.getJob k = some row ↔ row ∈ t.rows ∧ row.jobId = k := by
  rw [getJob]
  constructor
  · intro h
    have htest := List.find?_some h
    exact ⟨List.mem_of_find?_eq_some h, of_decide_eq_true htest⟩
  · rintro ⟨hrow, rfl⟩
    cases hfind : t.rows.find? fun row' => decide (row'.jobId = row.jobId) with
    | none => exact absurd (decide_eq_true rfl) (List.find?_eq_none.1 hfind row hrow)
    | some row' =>
      have htest := List.find?_some hfind
      exact congrArg some (List.inj_on_of_nodup_map t.nodup (List.mem_of_find?_eq_some hfind) hrow
        (of_decide_eq_true htest))

lemma exists_getJob (h : job ∈ t.links.rows) :
    ∃ row, t.getJob job.jobId = some row ∧ row.read = job := by
  obtain ⟨row, hrow, rfl⟩ := List.mem_map.1 h
  exact ⟨row, getJob_eq_some_iff.2 ⟨hrow, rfl⟩, rfl⟩

/-- **The walk to the outermost job** ends within as many rounds as the job is deep. -/
lemma exists_ancestorsLoop_eq (h : t.links.Depth d job) :
    ∃ up, (∀ rounds chain, d ≤ rounds →
        t.ancestorsLoop rounds chain job.parentJobId = .ok (chain ++ up)) ∧
      ∃ root ∈ t.links.rows, root.parentJobId = none ∧ ReflTransGen t.links.Under root job ∧
        (up = [] ∧ root = job ∨ ∃ name, up.getLast? = some (root.jobId, name)) := by
  induction h with
  | @root x hx hparent =>
    have hnone : x.parentJobId = none := hparent
    refine ⟨[], fun rounds chain _ => ?_, x, hx, hparent, .refl, .inl ⟨rfl, rfl⟩⟩
    rw [hnone, List.append_nil]
    cases rounds <;> rfl
  | @under n y x hunder hy ih =>
    obtain ⟨row, hget, hread⟩ := exists_getJob hunder.1
    obtain ⟨up, hloop, root, hroot, hparent, hpath, hlast⟩ := ih
    have hsome : x.parentJobId = some y.jobId := hunder.2.2
    have hrow : row.parentJobId = y.parentJobId := by rw [← hread]; rfl
    refine ⟨(y.jobId, row.functionName) :: up, ?_, root, hroot, hparent, hpath.tail hunder, .inr ?_⟩
    · intro rounds chain hle
      obtain ⟨rounds, rfl⟩ : ∃ m, rounds = m + 1 := ⟨rounds - 1, by omega⟩
      rw [hsome, ancestorsLoop, hget]
      dsimp only
      rw [hrow, hloop rounds _ (by omega), List.append_assoc, List.singleton_append]
    · rcases hlast with ⟨rfl, rfl⟩ | ⟨name, hlast⟩
      · exact ⟨_, rfl⟩
      · refine ⟨name, ?_⟩
        rw [List.getLast?_cons, hlast]
        rfl

/-- The outermost job is shown without ancestors. -/
lemma jobOr404_root {root : Job κ} (hroot : root ∈ t.links.rows) (hparent : root.parentJobId = none) :
    ∃ dto : JobDto κ, dto.jobId = root.jobId ∧ dto.ancestors = [] ∧
      ∀ rounds, t.jobOr404 rounds root.jobId = .ok dto := by
  obtain ⟨row, hget, hread⟩ := exists_getJob hroot
  have hrow : row.parentJobId = none := by
    rw [← hparent, ← hread]
    rfl
  refine ⟨⟨root.jobId, row.functionName, none, []⟩, rfl, rfl, fun rounds => ?_⟩
  rw [jobOr404, hget]
  dsimp only
  rw [ancestors, hrow]
  cases rounds <;> rfl

/-- **The tree of a workload is built from its outermost job.** -/
lemma exists_outermost (h : t.links.Depth d job) :
    ∃ root ∈ t.links.rows, root.parentJobId = none ∧ ReflTransGen t.links.Under root job ∧
      ∃ dto : JobDto κ, dto.jobId = root.jobId ∧ ∀ rounds, d ≤ rounds → ∀ calls,
        t.workloadGroups rounds calls job.jobId =
          (t.structureNodes job.jobId calls (t.jobsWithParents [root.jobId]) []).map (dto, ·) := by
  obtain ⟨up, hloop, root, hroot, hparent, hpath, hlast⟩ := exists_ancestorsLoop_eq h
  obtain ⟨dto, hdto, hancestors, hjob⟩ := jobOr404_root hroot hparent
  refine ⟨root, hroot, hparent, hpath, dto, hdto, fun rounds hle calls => ?_⟩
  have hgroups : ∀ k : κ, (do
      let groups ← t.structureNodes k calls (t.jobsWithParents [dto.jobId]) []
      pure (dto, groups) : Except Stop (JobDto κ × List (Rose (Node κ)))) =
        (t.structureNodes k calls (t.jobsWithParents [root.jobId]) []).map (dto, ·) := by
    intro k
    rw [hdto]
    cases t.structureNodes k calls (t.jobsWithParents [root.jobId]) [] <;> rfl
  rw [← hgroups]
  rcases hlast with ⟨-, rfl⟩ | ⟨name, hlast⟩
  · rw [workloadGroups, hjob]
    simp only [bind, Except.bind, pure, Except.pure, hancestors]
  · obtain ⟨row, hget, hread⟩ := exists_getJob h.mem
    have hrow : row.parentJobId = job.parentJobId := by rw [← hread]; rfl
    obtain ⟨front, rfl⟩ : ∃ front, up = front ++ [(root.jobId, name)] :=
      List.getLast?_eq_some_iff.1 hlast
    have hcurrent : t.jobOr404 rounds job.jobId =
        .ok ⟨job.jobId, row.functionName, row.parentJobId,
          (root.jobId, name) :: front.reverse⟩ := by
      rw [jobOr404, hget]
      dsimp only
      rw [ancestors, hrow, hloop rounds [] hle, List.nil_append]
      show Except.ok _ = _
      rw [List.reverse_append, List.reverse_singleton, List.singleton_append]
    rw [workloadGroups, hcurrent]
    show t.jobOr404 rounds root.jobId >>= _ = _
    rw [hjob]
    rfl

end Outermost

/-! ### The partition -/

section Below

variable {current : κ} {root : Job κ} {node : Node κ} {nodes : List (Rose (Node κ))}

open Classical in
/-- The jobs below a job. -/
noncomputable def below (t : Table κ) (root : Job κ) : List (Job κ) :=
  t.links.rows.filter fun job => TransGen t.links.Under root job

omit [LinearOrder κ] in
lemma mem_below {job : Job κ} : job ∈ t.below root ↔ TransGen t.links.Under root job := by
  classical
  rw [below, List.mem_filter, decide_eq_true_eq]
  constructor
  · exact And.right
  · intro h
    obtain ⟨_, -, hlast⟩ := Relation.TransGen.tail'_iff.1 h
    exact ⟨hlast.2.1, h⟩

omit [LinearOrder κ] in
lemma nodup_below : ((t.below root).map Job.jobId).Nodup := by
  classical
  exact (List.filter_sublist.map Job.jobId).nodup t.links.nodup

/-- What the groups of a workload show, of the jobs below its outermost job. -/
structure Shows (t : Table κ) (root : Job κ) (current : κ) (nodes : List (Rose (Node κ))) :
    Prop where
  /-- Every job below the root is a member of one group. -/
  members : ((Rose.labels nodes).flatMap Node.memberJobs).Perm (t.below root)
  jobCount : ((Rose.labels (dropMemberJobs nodes)).map Group.jobCount).sum = (t.below root).length
  statusCounts : ∀ status, ((Rose.labels (dropMemberJobs nodes)).map fun group =>
    (group.statusCounts.get status).getD 0).sum =
      ((t.below root).filter fun job => job.status = status).length
  inputCount : ((Rose.labels (dropMemberJobs nodes)).map Group.inputCount).sum =
    ((t.below root).map Job.nInputs).sum
  resultCount : ((Rose.labels (dropMemberJobs nodes)).map Group.resultCount).sum =
    ((t.below root).map Job.nResults).sum
  /-- No path is that of two groups. -/
  paths : ((Rose.labels (dropMemberJobs nodes)).map Group.groupPath).Nodup
  /-- A group is found under its path. -/
  found : ∀ path node, findGroup nodes path = some node ↔
    node ∈ Rose.subtrees nodes ∧ node.label.groupPath = path
  /-- The group that the requested job is a member of is marked. -/
  marked : ∀ node ∈ Rose.labels nodes,
    node.containsCurrent = true ↔ current ∈ node.memberJobs.map Job.jobId
  /-- There is one such group, and none when the job is the root. -/
  marks : ((Rose.labels (dropMemberJobs nodes)).filter Group.containsCurrent).length =
    if current = root.jobId then 0 else 1

omit [LinearOrder κ] in
lemma labels_dropMemberJobs :
    Rose.labels (dropMemberJobs nodes) = (Rose.labels nodes).map Node.toGroup :=
  Rose.labels_mapAll _

/-- What a group shows is what its members are. -/
lemma wellMade_toGroup (h : node.WellMade current) :
    node.jobCount = node.memberJobs.length ∧
      (∀ status, (node.statusCounts.get status).getD 0 =
        (node.memberJobs.filter fun job => job.status = status).length) ∧
      node.inputCount = (node.memberJobs.map Job.nInputs).sum ∧
      node.resultCount = (node.memberJobs.map Job.nResults).sum ∧
      (node.containsCurrent = true ↔ current ∈ node.memberJobs.map Job.jobId) := by
  have hgroup : node.made = groupOf current node.groupPath node.functionName node.memberJobs := h
  have hcounts : node.statusCounts = Dict.counts (node.memberJobs.map Job.status) :=
    congrArg (fun made : Node κ => made.statusCounts) hgroup
  have hcurrent : node.containsCurrent = node.memberJobs.any fun job => job.jobId = current :=
    congrArg (fun made : Node κ => made.containsCurrent) hgroup
  refine ⟨congrArg (fun made : Node κ => made.jobCount) hgroup, fun status => ?_,
    congrArg (fun made : Node κ => made.inputCount) hgroup,
    congrArg (fun made : Node κ => made.resultCount) hgroup, ?_⟩
  · rw [hcounts, Dict.getD_counts, List.filter_map, List.length_map]
    rfl
  · simp [hcurrent]

omit [LinearOrder κ] in
/-- A sum over the groups is one over their members. -/
lemma sum_members {l : List (Node κ)} {f : Node κ → ℤ} {g : Job κ → ℤ}
    (h : ∀ node ∈ l, f node = (node.memberJobs.map g).sum) :
    (l.map f).sum = ((l.flatMap Node.memberJobs).map g).sum := by
  induction l with
  | nil => rfl
  | cons node l ih =>
    rw [List.map_cons, List.sum_cons, List.flatMap_cons, List.map_append, List.sum_append,
      h node List.mem_cons_self, ih fun node hnode => h node (List.mem_cons_of_mem _ hnode)]

/-- Of groups without a common member one has the job, if it is a member at all. -/
lemma length_filter_of_nodup {l : List (Node κ)}
    (h : ∀ node ∈ l, node.containsCurrent = true ↔ current ∈ node.memberJobs.map Job.jobId)
    (hnodup : ((l.flatMap Node.memberJobs).map Job.jobId).Nodup) :
    (l.filter fun node => node.containsCurrent).length =
      if current ∈ (l.flatMap Node.memberJobs).map Job.jobId then 1 else 0 := by
  induction l with
  | nil => rfl
  | cons node l ih =>
    rw [List.flatMap_cons, List.map_append] at hnodup ⊢
    have hrest := ih (fun node hnode => h node (List.mem_cons_of_mem _ hnode)) hnodup.of_append_right
    by_cases hmem : current ∈ node.memberJobs.map Job.jobId
    · have hnot : current ∉ (l.flatMap Node.memberJobs).map Job.jobId := fun hmem' =>
        (List.nodup_append.1 hnodup).2.2 current hmem current hmem' rfl
      rw [List.filter_cons, if_pos ((h node List.mem_cons_self).2 hmem), List.length_cons, hrest,
        if_neg hnot, if_pos (List.mem_append_left _ hmem)]
    · have hmark : ¬node.containsCurrent = true := fun hmark =>
        hmem ((h node List.mem_cons_self).1 hmark)
      rw [List.filter_cons, if_neg hmark, hrest]
      simp only [List.mem_append, hmem, false_or]

/-- The groups of the jobs below the root show what they should. -/
lemma shows_of_built {job : Job κ} {n : ℕ}
    (hbuilt : Built t current n (t.jobsWithParents [root.jobId]) nodes)
    (hbelow : (t.links.descend n (t.jobsWithParents [root.jobId])).Perm (t.below root))
    (hacyclic : t.links.Acyclic) (hjob : job.jobId = current)
    (hpath : ReflTransGen t.links.Under root job) : t.Shows root current nodes := by
  have hmembers := hbuilt.members.trans hbelow
  have hshown := fun node hnode => wellMade_toGroup (hbuilt.groups node hnode)
  have hsum : ∀ {f : Group κ → ℤ} {g : Job κ → ℤ},
      (∀ node ∈ Rose.labels nodes, f node.toGroup = (node.memberJobs.map g).sum) →
        ((Rose.labels (dropMemberJobs nodes)).map f).sum = ((t.below root).map g).sum := by
    intro f g h
    rw [labels_dropMemberJobs, List.map_map]
    exact (sum_members h).trans (hmembers.map g).sum_eq
  refine ⟨hmembers, ?_, fun status => ?_, hsum fun node hnode => (hshown node hnode).2.2.1,
    hsum fun node hnode => (hshown node hnode).2.2.2.1, ?_, ?_,
    fun node hnode => (hshown node hnode).2.2.2.2, ?_⟩
  · rw [labels_dropMemberJobs, List.map_map, ← hmembers.length_eq, List.length_flatMap]
    exact congrArg List.sum (List.map_congr_left fun node hnode => (hshown node hnode).1)
  · rw [labels_dropMemberJobs, List.map_map, ← (hmembers.filter _).length_eq, List.filter_flatMap,
      List.length_flatMap]
    exact congrArg List.sum (List.map_congr_left fun node hnode => (hshown node hnode).2.1 status)
  · rw [labels_dropMemberJobs, List.map_map]
    exact hbuilt.paths
  · exact fun path node => Rose.find_eq_some_iff hbuilt.paths
  · have hnodup : (((Rose.labels nodes).flatMap Node.memberJobs).map Job.jobId).Nodup :=
      (hmembers.map Job.jobId).nodup_iff.2 nodup_below
    rw [labels_dropMemberJobs, List.filter_map, List.length_map]
    refine (length_filter_of_nodup (fun node hnode => (hshown node hnode).2.2.2.2) hnodup).trans ?_
    have hmem : current ∈ ((Rose.labels nodes).flatMap Node.memberJobs).map Job.jobId ↔
        ¬current = root.jobId := by
      rw [(hmembers.map Job.jobId).mem_iff, ← hjob]
      rcases Relation.reflTransGen_iff_eq_or_transGen.1 hpath with rfl | hpath
      · simp only [not_true_eq_false, iff_false]
        intro h
        obtain ⟨job', hjob', heq⟩ := List.mem_map.1 h
        have hunder := mem_below.1 hjob'
        obtain ⟨_, -, hlast⟩ := Relation.TransGen.tail'_iff.1 hunder
        obtain ⟨_, hfirst, -⟩ := Relation.TransGen.head'_iff.1 hunder
        exact hacyclic _ (Links.eq_of_id hlast.2.1 hfirst.1 heq ▸ hunder)
      · refine ⟨fun _ heq => ?_, fun _ => List.mem_map_of_mem (mem_below.2 hpath)⟩
        obtain ⟨_, -, hlast⟩ := Relation.TransGen.tail'_iff.1 hpath
        obtain ⟨_, hfirst, -⟩ := Relation.TransGen.head'_iff.1 hpath
        exact hacyclic root (Links.eq_of_id hlast.2.1 hfirst.1 heq ▸ hpath)
    by_cases hroot : current = root.jobId
    · rw [if_neg fun h => hmem.1 h hroot, if_pos hroot]
    · rw [if_pos (hmem.2 hroot), if_neg hroot]

end Below

section Workload

variable {current : κ} {root : Job κ}

omit [LinearOrder κ] in
lemma plain_of_names
    (hnames : ∀ row ∈ t.rows, ∀ name, row.functionName = some name → '/' ∉ name) : t.Plain := by
  intro job hjob
  obtain ⟨row, hrow, rfl⟩ := List.mem_map.1 hjob
  show '/' ∉ textOr _ row.functionName
  have hname := hnames row hrow
  cases hfunction : row.functionName with
  | none => decide
  | some name =>
    cases name with
    | nil => decide
    | cons c name => exact hname _ hfunction

/-- The generations below the outermost job. -/
lemma descend_perm_below {n : ℕ} (hroot : t.links.Depth 0 root)
    (hn : ∀ m job, t.links.Depth m job → m ≤ n) :
    (t.links.descend n (t.jobsWithParents [root.jobId])).Perm (t.below root) := by
  refine (Links.descend_perm (jobsWithParents_perm (List.nodup_singleton _))).trans ?_
  have hdescend : (t.links.descend n (t.links.childrenOf [t.links.id root])).Nodup :=
    Links.nodup_descend (fun job hjob => Links.depth_childrenOf_singleton hroot hjob)
      Links.nodup_childrenOf.of_map
  refine (List.perm_ext_iff_of_nodup hdescend nodup_below.of_map).2 fun job => ?_
  rw [mem_below]
  exact Links.mem_descend_iff hroot fun m job hm => by simpa using hn m job hm

/-- **The tree of a workload is a partition.**  In a table whose parent links form a forest, the tree
for a job is that of its outermost job: every job below that one is a member of one group, and the
groups' counts sum up; no two groups have the same path, so that each is found under its own; and
the group of the job itself is marked, if it is not the root. -/
theorem workload_partition (t : Table κ) (hclosed : t.links.Closed) (hacyclic : t.links.Acyclic)
    (hnames : ∀ row ∈ t.rows, ∀ name, row.functionName = some name → '/' ∉ name)
    (hcurrent : current ∈ t.rows.map StoredJob.jobId) :
    ∃ root ∈ t.links.rows, root.parentJobId = none ∧
      (∃ job ∈ t.links.rows, job.jobId = current ∧ ReflTransGen t.links.Under root job) ∧
      ∃ (dto : JobDto κ) (nodes : List (Rose (Node κ))) (N : ℕ), dto.jobId = root.jobId ∧
        t.Shows root current nodes ∧ ∀ rounds calls, N ≤ rounds → N ≤ calls →
          t.workloadGroups rounds calls current = .ok (dto, nodes) ∧
            t.jobTree rounds calls current = .ok (dto, dropMemberJobs nodes) := by
  obtain ⟨row, hrow, rfl⟩ := List.mem_map.1 hcurrent
  have hjob : row.read ∈ t.links.rows := List.mem_map_of_mem hrow
  obtain ⟨N, hN⟩ := Links.exists_bound fun job hjob => Links.exists_depth hclosed hacyclic hjob
  obtain ⟨d, hd⟩ := Links.exists_depth hclosed hacyclic hjob
  obtain ⟨root, hroot, hparent, hpath, dto, hdto, hworkload⟩ := exists_outermost hd
  have hdepth : t.links.Depth 0 root := .root hroot hparent
  have hids : [root.jobId].Nodup := List.nodup_singleton _
  -- the calls are deep enough for the deepest job
  have hempty : t.links.generation N (t.jobsWithParents [root.jobId]) = [] := by
    rw [generation_eq_nil_congr (jobsWithParents_perm hids) (jobsWithParents_subset hids)]
    exact Links.generation_eq_nil hdepth fun m job hm => by simpa using hN m job hm
  obtain ⟨nodes, hnodes⟩ : ∃ nodes, t.structureNodes row.jobId (N + 1)
      (t.jobsWithParents [root.jobId]) [] = .ok nodes :=
    (structureNodes_ok_iff (nodup_jobsWithParents hids) (jobsWithParents_subset hids)).2 hempty
  have hbuilt := (builds_structureNodes (plain_of_names hnames) _ _ _ (nodup_jobsWithParents hids)
    (jobsWithParents_subset hids) hnodes).1
  have hbelow := descend_perm_below hdepth fun m job hm => (hN m job hm).trans (Nat.le_succ N)
  refine ⟨root, hroot, hparent, ⟨row.read, hjob, rfl, hpath⟩, dto, nodes, N + 1, hdto,
    shows_of_built hbuilt hbelow hacyclic rfl hpath, fun rounds calls hrounds hcalls => ?_⟩
  have hgroups : t.workloadGroups rounds calls row.jobId = .ok (dto, nodes) := by
    have hle := hN d _ hd
    have hwork : t.workloadGroups rounds calls row.jobId =
        (t.structureNodes row.jobId calls (t.jobsWithParents [root.jobId]) []).map (dto, ·) :=
      hworkload rounds (by omega) calls
    rw [hwork, structureNodes_mono hnodes hcalls]
    rfl
  refine ⟨hgroups, ?_⟩
  rw [jobTree, hgroups]
  rfl

/-- A job that completed, of a function and at a depth. -/
def called (jobId : ℕ) (parentJobId : Option ℕ) (functionName : Text) (depth : Option ℤ) :
    StoredJob ℕ where
  jobId := jobId
  parentJobId := parentJobId
  functionName := some functionName
  status := some "COMPLETED".toList
  nInputs := some 2
  nResults := some 2
  startedAt := none
  funcCpu := some (.inl 1)
  funcRam := none
  funcGpu := none
  maxParallelism := none
  parentCallIndex := none
  parentCallDepth := depth

/-- Inside the job 0 are two calls of `f` and later one of `g`; inside one of the first is `h`. -/
def nestedCalls : Table ℕ where
  rows := [called 0 none ['m'] none, called 3 (some 0) ['g'] (some 1), called 1 (some 0) ['f'] none,
    called 2 (some 0) ['f'] (some 0), called 4 (some 2) ['h'] none]
  nodup := by decide

theorem workload_partition_nestedCalls :
    ∃ root ∈ nestedCalls.links.rows, root.parentJobId = none ∧
      (∃ job ∈ nestedCalls.links.rows, job.jobId = 4 ∧
        ReflTransGen nestedCalls.links.Under root job) ∧
      ∃ (dto : JobDto ℕ) (nodes : List (Rose (Node ℕ))) (N : ℕ), dto.jobId = root.jobId ∧
        nestedCalls.Shows root 4 nodes ∧ ∀ rounds calls, N ≤ rounds → N ≤ calls →
          nestedCalls.workloadGroups rounds calls 4 = .ok (dto, nodes) ∧
            nestedCalls.jobTree rounds calls 4 = .ok (dto, dropMemberJobs nodes) := by
  have hparents : ∀ job ∈ nestedCalls.links.rows, job.parentJobId.all fun p =>
      decide (p < job.jobId) && nestedCalls.links.rows.any fun row => row.jobId = p := by decide
  refine workload_partition nestedCalls ?_ ?_ ?_ (by decide)
  · intro job hjob p hp
    have hparent : job.parentJobId = some p := hp
    have h := hparents job hjob
    rw [hparent, Option.all_some, Bool.and_eq_true, List.any_eq_true] at h
    obtain ⟨row, hrow, hid⟩ := h.2
    exact ⟨row, hrow, of_decide_eq_true hid⟩
  · refine Links.acyclic_of_lt fun job hjob p hp => ?_
    have hparent : job.parentJobId = some p := hp
    have h := hparents job hjob
    rw [hparent, Option.all_some, Bool.and_eq_true] at h
    exact of_decide_eq_true h.1
  · have hnames : ∀ row ∈ nestedCalls.rows, row.functionName.all fun name => '/' ∉ name := by decide
    intro row hrow name hname
    have h := hnames row hrow
    rw [hname] at h
    exact of_decide_eq_true h

/-- The later stage is hung under the group of `f`, before what is inside it. -/
example : ((nestedCalls.jobTree 5 5 4).toOption.map fun tree =>
    (Rose.labels tree.2).map fun group => (group.groupPath, group.containsCurrent)) =
      some [("/0:f".toList, false), ("/1:g".toList, false), ("/0:f/0:h".toList, true)] := by
  decide +kernel

end Workload

end Table

end Burla.Workload
