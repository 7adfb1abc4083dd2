/-
What a call of `_structure_nodes` builds.

It returns groups whose members are its jobs and all below them, each of them once; a group's path
begins with that of the group it is in, and goes on with its stage and its function.  Stages are
hung under one another when the groups have their paths, so that nothing changes of them but their
place.

* `builds_structureNodes`: the members, the groups and the paths of what is returned.
* `structureNodes_ok_iff`: how deep the calls are.
-/
import Burla.Lib.Passes
import Burla.Workload.Structure

namespace Burla.Workload

open Burla.Files (Text decimal)
open Relation (TransGen ReflTransGen)

/-! ### The largest group -/

section Largest

variable {α : Type*} {less : α → α → Prop} [DecidableRel less] {l : List α}

lemma foldl_best_mem {l : List (α × ℕ)} {best : α × ℕ} :
    l.foldl (fun best e => if less best.1 e.1 then e else best) best ∈ best :: l := by
  induction l generalizing best with
  | nil => exact List.mem_cons_self
  | cons e l ih =>
    rw [List.foldl_cons]
    split_ifs
    · exact List.mem_cons_of_mem best ih
    · have hbest : l.foldl (fun best e => if less best.1 e.1 then e else best) best ∈ best :: l := ih
      rcases List.mem_cons.1 hbest with h | h
      · rw [h]
        exact List.mem_cons_self
      · exact List.mem_cons_of_mem best (List.mem_cons_of_mem e h)

lemma placeOfMax_lt (h : l ≠ []) : placeOfMax less l < l.length := by
  cases l with
  | nil => exact absurd rfl h
  | cons a l =>
    rw [placeOfMax, List.length_cons]
    have hmem : (l.zipIdx 1).foldl (fun best e => if less best.1 e.1 then e else best) (a, 0) ∈
        (a, 0) :: l.zipIdx 1 := foldl_best_mem
    rcases List.mem_cons.1 hmem with hbest | hbest
    · rw [hbest]
      exact Nat.zero_lt_succ _
    · have := List.snd_lt_of_mem_zipIdx hbest
      omega

end Largest

section Chain

variable {κ γ : Type*} {stages : List (List (Rose (Node κ)))}

/-- **The groups of a chain are those of its stages**, up to the mark of the later ones. -/
lemma labels_chainStages_perm {g : Node κ → γ} (hg : ∀ node, g node.chain = g node)
    (hstages : ∀ nodes ∈ stages, nodes ≠ []) :
    ((Rose.labels (chainStages stages)).map g).Perm
      ((stages.flatMap Rose.labels).map g) := by
  induction stages with
  | nil => exact .nil
  | cons nodes later ih =>
    have hlater := ih fun nodes h => hstages nodes (List.mem_cons_of_mem _ h)
    cases later with
    | nil => rw [chainStages, List.flatMap_singleton]
    | cons next rest =>
      have hplace : placeOfMax Smaller nodes < nodes.length :=
        placeOfMax_lt (hstages nodes List.mem_cons_self)
      rw [chainStages, List.flatMap_cons, List.map_append]
      · refine ((Rose.labels_hang_perm hplace).map g).trans ?_
        rw [List.map_append, Rose.labels_relabel hg]
        exact (hlater.append_right _).trans List.perm_append_comm
      · exact List.cons_ne_nil next rest

end Chain

/-! ### The query -/

section Query

variable {κ : Type*} [LinearOrder κ] {t : Table κ} {ids : List κ}

omit [LinearOrder κ] in
lemma flatten_take_drop {l : List κ} {n : ℕ} :
    ((List.range n).map fun i => (l.drop (500 * i)).take 500).flatten = l.take (500 * n) := by
  induction n with
  | zero => rw [List.range_zero, List.map_nil, List.flatten_nil, Nat.mul_zero, List.take_zero]
  | succ n ih =>
    rw [List.range_succ, List.map_append, List.map_singleton, List.flatten_append, ih,
      List.flatten_singleton, Nat.mul_succ, List.take_add]

omit [LinearOrder κ] in
lemma flatten_chunks : (Table.chunks ids).flatten = ids := by
  rw [Table.chunks, flatten_take_drop]
  exact List.take_of_length_le (by omega)

lemma childrenOf_flatten_perm {chunks : List (List κ)} (h : chunks.flatten.Nodup) :
    (t.links.childrenOf chunks.flatten).Perm (chunks.flatMap t.links.childrenOf) := by
  induction chunks with
  | nil => rw [List.flatten_nil, Links.childrenOf_nil, List.flatMap_nil]
  | cons chunk chunks ih =>
    rw [List.flatten_cons] at h ⊢
    rw [List.flatMap_cons]
    exact (Links.childrenOf_append_perm fun k hk hk' =>
      (List.nodup_append.1 h).2.2 k hk k hk' rfl).trans (.append_left _ (ih h.of_append_right))

/-- **The query returns the jobs whose parents are asked for**, each of them once. -/
lemma jobsWithParents_perm (h : ids.Nodup) :
    (t.jobsWithParents ids).Perm (t.links.childrenOf ids) := by
  have hchunk : ∀ chunk : List κ,
      (((t.rows.filter fun row => row.parentJobId.any fun p => p ∈ chunk).insertionSort
        StartsBy).map StoredJob.read).Perm (t.links.childrenOf chunk) := by
    intro chunk
    refine ((List.perm_insertionSort _ _).map _).trans (.of_eq ?_)
    rw [Links.childrenOf]
    show _ = (t.rows.map StoredJob.read).filter _
    rw [List.filter_map]
    rfl
  rw [← show (Table.chunks ids).flatten = ids from flatten_chunks] at h
  refine .trans ?_ ((childrenOf_flatten_perm h).symm.trans (.of_eq (by rw [flatten_chunks])))
  exact .flatMap_left _ fun chunk _ => hchunk chunk

end Query

/-! ### Paths -/

section Paths

variable {pre p q a b r : Text} {i j : ℕ} {name name' : Text}

/-- A path is another one, or goes on from it. -/
def Within (p q : Text) : Prop := q = p ∨ ∃ rest, q = p ++ '/' :: rest

lemma takeWhile_of_within (ha : '/' ∉ a) (h : Within (pre ++ '/' :: a) (pre ++ '/' :: b)) :
    b.takeWhile (· ≠ '/') = a := by
  have hall : ∀ c ∈ a, decide (c ≠ '/') = true := fun c hc => decide_eq_true fun heq => ha (heq ▸ hc)
  rcases h with heq | ⟨rest, heq⟩
  · obtain rfl : b = a := by simpa using heq
    exact List.takeWhile_eq_self_iff.2 hall
  · obtain rfl : b = a ++ '/' :: rest := by simpa using heq
    rw [List.takeWhile_append_of_pos hall]
    simp

/-- **Two segments after the same path, with a path within both, are the same.** -/
lemma eq_of_within (ha : '/' ∉ a) (hb : '/' ∉ b) (h : Within (pre ++ '/' :: a) q)
    (h' : Within (pre ++ '/' :: b) q) : a = b := by
  obtain ⟨rest, rfl⟩ : ∃ rest, q = pre ++ '/' :: rest := by
    rcases h with rfl | ⟨rest, rfl⟩
    · exact ⟨a, rfl⟩
    · exact ⟨a ++ '/' :: rest, by simp⟩
  exact (takeWhile_of_within ha h).symm.trans (takeWhile_of_within hb h')

lemma notMem_decimal {c : Char} (hc : c.isDigit = false) : c ∉ decimal i := fun h =>
  Bool.false_ne_true (hc.symm.trans (Burla.Files.isDigit_of_mem_decimal h))

lemma decimal_injective (h : decimal i = decimal j) : i = j := by
  have hread := congrArg Burla.Files.int h
  rw [Burla.Files.int_decimal, Burla.Files.int_decimal] at hread
  exact Int.ofNat_inj.1 (Option.some.inj hread)

/-- A stage and a function are read back from the segment that they are written in. -/
lemma segment_injective (h : decimal i ++ ':' :: name = decimal j ++ ':' :: name') :
    i = j ∧ name = name' := by
  have htake : ∀ (k : ℕ) (text : Text),
      (decimal k ++ ':' :: text).takeWhile (· ≠ ':') = decimal k := by
    intro k text
    rw [List.takeWhile_append_of_pos]
    · simp
    · exact fun c hc => decide_eq_true fun heq => notMem_decimal rfl (heq ▸ hc)
  have hsame : decimal i = decimal j := by rw [← htake i name, h, htake]
  rw [hsame] at h
  exact ⟨decimal_injective hsame, by simpa using h⟩

lemma notMem_segment (h : '/' ∉ name) : '/' ∉ decimal i ++ ':' :: name := by
  simp [notMem_decimal (i := i) (c := '/') rfl, h]

/-- **Paths keep the groups apart**: within the paths of two groups there is a common one only when
their stages and functions are the same. -/
lemma pathOf_injective (hname : '/' ∉ name) (hname' : '/' ∉ name') (h : Within (pathOf pre i name) q)
    (h' : Within (pathOf pre j name') q) : i = j ∧ name = name' :=
  segment_injective (eq_of_within (notMem_segment hname) (notMem_segment hname') h h')

end Paths

/-! ### The stages and their groups -/

section Stages

variable {κ : Type*} [LinearOrder κ] {jobs stage g : List (Job κ)} {name : Text}

omit [LinearOrder κ] in
lemma flatten_stages_perm : (Table.stages jobs).flatten.Perm jobs := by
  rw [Table.stages, ← List.flatMap_def]
  exact ((List.perm_insertionSort _ _).flatMap_right Prod.snd).trans Dict.flatMap_groupBy_perm

omit [LinearOrder κ] in
lemma ne_nil_of_mem_stages (h : stage ∈ Table.stages jobs) : stage ≠ [] := by
  obtain ⟨e, he, rfl⟩ := List.mem_map.1 h
  exact (Dict.mem_groupBy.1 ((List.perm_insertionSort _ _).mem_iff.1 he)).1

omit [LinearOrder κ] in
lemma subset_of_mem_stages (h : stage ∈ Table.stages jobs) : stage ⊆ jobs := fun _ hjob =>
  flatten_stages_perm.mem_iff.1 (List.mem_flatten.2 ⟨stage, h, hjob⟩)

lemma flatMap_byFunction_perm : ((Table.byFunction stage).items.flatMap Prod.snd).Perm stage :=
  Dict.flatMap_groupBy_perm.trans (List.perm_insertionSort _ _)

lemma functionName_of_mem (h : (name, g) ∈ (Table.byFunction stage).items) {job : Job κ}
    (hjob : job ∈ g) : job.functionName = name := by
  obtain ⟨-, rfl⟩ := Dict.mem_groupBy.1 h
  have htest := (List.mem_filter.1 hjob).2
  exact of_decide_eq_true htest

lemma subset_of_mem_byFunction (h : (name, g) ∈ (Table.byFunction stage).items) : g ⊆ stage :=
  fun _ hjob => flatMap_byFunction_perm.mem_iff.1 (List.mem_flatMap.2 ⟨(name, g), h, hjob⟩)

/-- A function's name that is among the groups' is that of a job. -/
lemma exists_job_of_mem_byFunction (h : (name, g) ∈ (Table.byFunction stage).items) :
    ∃ job ∈ stage, job.functionName = name := by
  obtain ⟨job, hjob⟩ := List.exists_mem_of_ne_nil g (Dict.mem_groupBy.1 h).1
  exact ⟨job, subset_of_mem_byFunction h hjob, functionName_of_mem h hjob⟩

end Stages

/-! ### What a call builds -/

section Built

variable {κ : Type*} [LinearOrder κ]

/-- The group as it is made, whether it has been hung under another one or not. -/
def Node.made (node : Node κ) : Node κ := { node with chained := false }

/-- The group shows what its members are. -/
def Node.WellMade (current : κ) (node : Node κ) : Prop :=
  node.made = groupOf current node.groupPath node.functionName node.memberJobs

/-- The groups are those of some jobs and of those below them. -/
structure Built (t : Table κ) (current : κ) (n : ℕ) (jobs : List (Job κ))
    (nodes : List (Rose (Node κ))) : Prop where
  members : ((Rose.labels nodes).flatMap Node.memberJobs).Perm (t.links.descend n jobs)
  groups : ∀ node ∈ Rose.labels nodes, node.WellMade current
  paths : ((Rose.labels nodes).map fun node => node.groupPath).Nodup

/-- All paths go on from a path. -/
def GoOn (pre : Text) (nodes : List (Rose (Node κ))) : Prop :=
  ∀ node ∈ Rose.labels nodes, ∃ rest, node.groupPath = pre ++ '/' :: rest

/-- All paths are within those of a stage. -/
def InStage (pre : Text) (stageIndex : ℕ) (nodes : List (Rose (Node κ))) : Prop :=
  ∀ node ∈ Rose.labels nodes, ∃ name : Text, '/' ∉ name ∧
    Within (pathOf pre stageIndex name) node.groupPath

/-- No function has the separator in its name. -/
def Table.Plain (t : Table κ) : Prop := ∀ job ∈ t.links.rows, '/' ∉ job.functionName

/-- What is asked of the call for what is inside a group. -/
def Builds (t : Table κ) (current : κ) (n : ℕ)
    (inside : List (Job κ) → Text → Except Stop (List (Rose (Node κ)))) : Prop :=
  ∀ jobs pre nodes, (jobs.map Job.jobId).Nodup → jobs ⊆ t.links.rows →
    inside jobs pre = .ok nodes → Built t current n jobs nodes ∧ GoOn pre nodes

section Group

variable {t : Table κ} {current : κ} {n i : ℕ} {pre path name : Text} {jobs g : List (Job κ)}
  {inside : List (Job κ) → Text → Except Stop (List (Rose (Node κ)))}
  {children nodes : List (Rose (Node κ))}

lemma jobsWithParents_subset {ids : List κ} (h : ids.Nodup) :
    t.jobsWithParents ids ⊆ t.links.rows := fun _ hjob =>
  Links.childrenOf_subset ((jobsWithParents_perm h).mem_iff.1 hjob)

lemma nodup_jobsWithParents {ids : List κ} (h : ids.Nodup) :
    ((t.jobsWithParents ids).map Job.jobId).Nodup := by
  have hchildren : ((t.links.childrenOf ids).map t.links.id).Nodup := Links.nodup_childrenOf
  exact ((jobsWithParents_perm h).map Job.jobId).nodup_iff.2 hchildren

/-- A group with what is inside its jobs. -/
lemma built_group (hinside : Builds t current n inside) (hnodup : (g.map Job.jobId).Nodup)
    (hchildren : inside (t.jobsWithParents (g.map Job.jobId)) path = .ok children) :
    Built t current (n + 1) g [.node (groupOf current path name g) children] ∧
      ∀ node ∈ Rose.labels [.node (groupOf current path name g) children],
        Within path node.groupPath := by
  obtain ⟨hbuilt, hpaths⟩ := hinside _ _ _ (nodup_jobsWithParents hnodup)
    (jobsWithParents_subset hnodup) hchildren
  have hlabels : Rose.labels [.node (groupOf current path name g) children] =
      groupOf current path name g :: Rose.labels children := by
    rw [Rose.labels_cons, Rose.labels_nil, List.append_nil]
    rfl
  rw [hlabels]
  refine ⟨⟨?_, ?_, ?_⟩, ?_⟩
  · rw [hlabels, List.flatMap_cons, Links.descend]
    exact (hbuilt.members.trans (Links.descend_perm (jobsWithParents_perm hnodup))).append_left g
  · intro node hnode
    rw [hlabels] at hnode
    rcases List.mem_cons.1 hnode with rfl | hnode
    · rfl
    · exact hbuilt.groups node hnode
  · rw [hlabels, List.map_cons, List.nodup_cons]
    refine ⟨?_, hbuilt.paths⟩
    -- what is inside goes on from the group's path
    intro hmem
    obtain ⟨node, hnode, heq⟩ := List.mem_map.1 hmem
    obtain ⟨rest, hrest⟩ := hpaths node hnode
    have hsame : path = path ++ '/' :: rest := heq.symm.trans hrest
    simp at hsame
  · intro node hnode
    rcases List.mem_cons.1 hnode with rfl | hnode
    · exact .inl rfl
    · exact .inr (hpaths node hnode)

/-- What a stage's group is made of. -/
def Makes (t : Table κ) (current : κ) (pre : Text) (i : ℕ)
    (inside : List (Job κ) → Text → Except Stop (List (Rose (Node κ))))
    (e : Text × List (Job κ)) (node : Rose (Node κ)) : Prop :=
  ∃ children, inside (t.jobsWithParents (e.2.map Job.jobId)) (pathOf pre i e.1) = .ok children ∧
    node = .node (groupOf current (pathOf pre i e.1) e.1 e.2) children

lemma stageToNodes_eq_ok : t.stageToNodes inside current pre i jobs = .ok nodes ↔
    List.Forall₂ (Makes t current pre i inside) (Table.byFunction jobs).items nodes := by
  have hstep : ∀ (functionName : Text) (jobs : List (Job κ)) (node : Rose (Node κ)),
      (do
        let groupPath := pathOf pre i functionName
        let children ← inside (t.jobsWithParents (jobs.map Job.jobId)) groupPath
        pure (Rose.node (groupOf current groupPath functionName jobs) children)) = .ok node ↔
        Makes t current pre i inside (functionName, jobs) node := by
    intro functionName jobs node
    rw [Makes]
    cases hinside : inside (t.jobsWithParents (jobs.map Job.jobId)) (pathOf pre i functionName) with
    | error e => simp [hinside, bind, Except.bind]
    | ok children => simp [hinside, bind, Except.bind, pure, Except.pure, eq_comm]
  rw [Table.stageToNodes, Passes.mapM_eq_ok_iff]
  constructor
  · exact List.Forall₂.imp fun e node h => (hstep e.1 e.2 node).1 h
  · exact List.Forall₂.imp fun e node h => (hstep e.1 e.2 node).2 h

omit [LinearOrder κ] in
/-- The parts of a list whose members are grouped have different members. -/
lemma nodup_of_mem {ls : List (List (Job κ))} (h : (ls.flatten.map Job.jobId).Nodup)
    (hg : g ∈ ls) : (g.map Job.jobId).Nodup :=
  ((List.sublist_flatten_of_mem hg).map Job.jobId).nodup h

/-- **A stage**: the groups are those of its jobs, and all paths are within its own. -/
lemma built_stage (hinside : Builds t current n inside) (hplain : t.Plain)
    (hnodup : (jobs.map Job.jobId).Nodup) (hjobs : jobs ⊆ t.links.rows)
    (h : t.stageToNodes inside current pre i jobs = .ok nodes) :
    Built t current (n + 1) jobs nodes ∧ InStage pre i nodes := by
  rw [stageToNodes_eq_ok] at h
  have hperm : ((Table.byFunction jobs).items.map Prod.snd).flatten.Perm jobs :=
    flatMap_byFunction_perm
  have hflat : (((Table.byFunction jobs).items.map Prod.snd).flatten.map Job.jobId).Nodup :=
    (hperm.map Job.jobId).nodup_iff.2 hnodup
  have hgroup : ∀ e ∈ (Table.byFunction jobs).items, ∀ node, Makes t current pre i inside e node →
      Built t current (n + 1) e.2 [node] ∧
        ∀ g ∈ Rose.labels [node], Within (pathOf pre i e.1) g.groupPath := by
    rintro ⟨name, g⟩ he node ⟨children, hchildren, rfl⟩
    exact built_group hinside (nodup_of_mem hflat (List.mem_map.2 ⟨_, he, rfl⟩)) hchildren
  have hname : ∀ e ∈ (Table.byFunction jobs).items, '/' ∉ e.1 := by
    rintro ⟨name, g⟩ he
    obtain ⟨job, hjob, rfl⟩ := exists_job_of_mem_byFunction he
    exact hplain job (hjobs hjob)
  -- the steps with their items
  have hsteps : List.Forall₂ (fun e node => e ∈ (Table.byFunction jobs).items ∧
      Makes t current pre i inside e node) (Table.byFunction jobs).items nodes :=
    (List.forall₂_and_left (p := (· ∈ (Table.byFunction jobs).items)) _ _).2 ⟨fun _ => id, h⟩
  have hlabels : Rose.labels nodes = nodes.flatMap fun node => Rose.labels [node] := by
    rw [Rose.labels_eq_flatMap]
    refine List.flatMap_congr fun node _ => ?_
    rw [Rose.labels_cons, Rose.labels_nil, List.append_nil]
  refine ⟨⟨?_, ?_, ?_⟩, ?_⟩
  · have hmembers : ((Rose.labels nodes).flatMap Node.memberJobs).Perm
        ((Table.byFunction jobs).items.flatMap fun e => t.links.descend (n + 1) e.2) := by
      rw [hlabels, List.flatMap_assoc]
      exact Passes.flatMap_perm hsteps fun e node ⟨he, hmakes⟩ => (hgroup e he node hmakes).1.members
    refine hmembers.trans (.trans (.of_eq ?_)
      ((Links.descend_flatten_perm hflat).symm.trans (Links.descend_perm hperm)))
    rw [List.flatMap_map]
  · intro g hg
    rw [hlabels] at hg
    obtain ⟨node, hnode, hg⟩ := List.mem_flatMap.1 hg
    obtain ⟨e, -, he, hmakes⟩ := Passes.exists_of_mem_right hsteps hnode
    exact (hgroup e he node hmakes).1.groups g hg
  · rw [hlabels, List.map_flatMap]
    refine Passes.nodup_flatMap hsteps (Table.byFunction jobs).nodup
      (fun e node ⟨he, hmakes⟩ => (hgroup e he node hmakes).1.paths) ?_
    rintro e e' node node' path ⟨he, hmakes⟩ ⟨he', hmakes'⟩ hpath hpath'
    obtain ⟨g, hg, rfl⟩ := List.mem_map.1 hpath
    obtain ⟨g', hg', heq⟩ := List.mem_map.1 hpath'
    have hwithin := (hgroup e he node hmakes).2 g hg
    have hwithin' := (hgroup e' he' node' hmakes').2 g' hg'
    rw [heq] at hwithin'
    exact (pathOf_injective (hname e he) (hname e' he') hwithin hwithin').2
  · intro g hg
    rw [hlabels] at hg
    obtain ⟨node, hnode, hg⟩ := List.mem_flatMap.1 hg
    obtain ⟨e, -, he, hmakes⟩ := Passes.exists_of_mem_right hsteps hnode
    exact ⟨e.1, hname e he, (hgroup e he node hmakes).2 g hg⟩

end Group

section Call

variable {t : Table κ} {current : κ} {n : ℕ} {pre : Text} {jobs : List (Job κ)}
  {nodes nodes' : List (Rose (Node κ))}

omit [LinearOrder κ] in
lemma exists_of_made_perm
    (h : ((Rose.labels nodes).map Node.made).Perm ((Rose.labels nodes').map Node.made))
    {node : Node κ} (hnode : node ∈ Rose.labels nodes) :
    ∃ node' ∈ Rose.labels nodes', node'.made = node.made :=
  List.mem_map.1 (h.mem_iff.1 (List.mem_map_of_mem hnode))

/-- Only the mark of a group depends on where it has been hung. -/
lemma Built.of_made_perm (hbuilt : Built t current n jobs nodes')
    (h : ((Rose.labels nodes).map Node.made).Perm ((Rose.labels nodes').map Node.made)) :
    Built t current n jobs nodes where
  members := by
    have hmembers := h.flatMap_right Node.memberJobs
    rw [List.flatMap_map, List.flatMap_map] at hmembers
    exact hmembers.trans hbuilt.members
  groups node hnode := by
    obtain ⟨node', hnode', hmade⟩ := exists_of_made_perm h hnode
    have hwell := hbuilt.groups node' hnode'
    unfold Node.WellMade at hwell ⊢
    have hsame : groupOf current node'.made.groupPath node'.made.functionName node'.made.memberJobs =
        groupOf current node.made.groupPath node.made.functionName node.made.memberJobs := by
      rw [hmade]
    rw [← hmade, hwell]
    exact hsame
  paths := by
    have hpaths := h.map fun node => node.groupPath
    rw [List.map_map, List.map_map] at hpaths
    exact hpaths.nodup_iff.2 hbuilt.paths

omit [LinearOrder κ] in
lemma GoOn.of_made_perm (hpaths : GoOn pre nodes')
    (h : ((Rose.labels nodes).map Node.made).Perm ((Rose.labels nodes').map Node.made)) :
    GoOn pre nodes := by
  intro node hnode
  obtain ⟨node', hnode', hmade⟩ := exists_of_made_perm h hnode
  obtain ⟨rest, hrest⟩ := hpaths node' hnode'
  have hsame : node'.made.groupPath = node.made.groupPath := by rw [hmade]
  exact ⟨rest, hsame.symm.trans hrest⟩

lemma structureNodes_eq_ok : t.structureNodes current (n + 1) jobs pre = .ok nodes ↔
    (jobs = [] ∧ nodes = []) ∨ (jobs ≠ [] ∧ ∃ stageNodes,
      List.Forall₂ (fun e nodes => t.stageToNodes (t.structureNodes current n) current pre e.2 e.1 =
        .ok nodes) (Table.stages jobs).zipIdx stageNodes ∧ nodes = chainStages stageNodes) := by
  cases jobs with
  | nil => simp [Table.structureNodes, eq_comm]
  | cons job jobs =>
    have hstages := fun r => Passes.mapM_eq_ok_iff (r := r)
      (f := fun e : List (Job κ) × ℕ =>
        t.stageToNodes (t.structureNodes current n) current pre e.2 e.1)
      (l := (Table.stages (job :: jobs)).zipIdx)
    rw [Table.structureNodes, List.isEmpty_cons, if_neg Bool.false_ne_true]
    simp only [← hstages]
    cases (Table.stages (job :: jobs)).zipIdx.mapM fun e =>
        t.stageToNodes (t.structureNodes current n) current pre e.2 e.1 with
    | error e => simp [bind, Except.bind]
    | ok stageNodes => simp [bind, Except.bind, pure, Except.pure, eq_comm]

/-- All stages, before they are hung under one another. -/
lemma built_stages (hinside : Builds t current n (t.structureNodes current n)) (hplain : t.Plain)
    (hnodup : (jobs.map Job.jobId).Nodup) (hjobs : jobs ⊆ t.links.rows)
    {stageNodes : List (List (Rose (Node κ)))}
    (h : List.Forall₂ (fun e nodes =>
      t.stageToNodes (t.structureNodes current n) current pre e.2 e.1 = .ok nodes)
        (Table.stages jobs).zipIdx stageNodes) :
    Built t current (n + 1) jobs stageNodes.flatten ∧ GoOn pre stageNodes.flatten := by
  have hflat : ((Table.stages jobs).flatten.map Job.jobId).Nodup :=
    (flatten_stages_perm.map Job.jobId).nodup_iff.2 hnodup
  have hmem : ∀ e ∈ (Table.stages jobs).zipIdx, e.1 ∈ Table.stages jobs :=
    fun e he => List.fst_mem_of_mem_zipIdx he
  have hstage : ∀ e ∈ (Table.stages jobs).zipIdx, ∀ nodes,
      t.stageToNodes (t.structureNodes current n) current pre e.2 e.1 = .ok nodes →
        Built t current (n + 1) e.1 nodes ∧ InStage pre e.2 nodes := fun e he nodes hok =>
    built_stage hinside hplain (nodup_of_mem hflat (hmem e he))
      (List.Subset.trans (subset_of_mem_stages (hmem e he)) hjobs) hok
  have hsteps := (List.forall₂_and_left (p := (· ∈ (Table.stages jobs).zipIdx)) _ _).2
    ⟨fun _ => id, h⟩
  refine ⟨⟨?_, ?_, ?_⟩, ?_⟩
  · rw [Rose.labels_flatten, List.flatMap_assoc]
    refine (Passes.flatMap_perm hsteps fun e nodes ⟨he, hok⟩ => (hstage e he nodes hok).1.members).trans
      (.trans (.of_eq ?_)
        ((Links.descend_flatten_perm hflat).symm.trans (Links.descend_perm flatten_stages_perm)))
    rw [← List.flatMap_map (f := Prod.fst) (g := t.links.descend (n + 1)), List.zipIdx_map_fst]
  · intro g hg
    rw [Rose.labels_flatten] at hg
    obtain ⟨nodes, hnodes, hg⟩ := List.mem_flatMap.1 hg
    obtain ⟨e, -, he, hok⟩ := Passes.exists_of_mem_right hsteps hnodes
    exact (hstage e he nodes hok).1.groups g hg
  · have hkeys : ((Table.stages jobs).zipIdx.map Prod.snd).Nodup := by
      rw [List.zipIdx_map_snd]
      exact List.nodup_range'
    rw [Rose.labels_flatten, List.map_flatMap]
    refine Passes.nodup_flatMap hsteps hkeys
      (fun e nodes ⟨he, hok⟩ => (hstage e he nodes hok).1.paths) ?_
    rintro e e' nodes nodes' path ⟨he, hok⟩ ⟨he', hok'⟩ hpath hpath'
    obtain ⟨g, hg, rfl⟩ := List.mem_map.1 hpath
    obtain ⟨g', hg', heq⟩ := List.mem_map.1 hpath'
    obtain ⟨name, hname, hwithin⟩ := (hstage e he nodes hok).2 g hg
    obtain ⟨name', hname', hwithin'⟩ := (hstage e' he' nodes' hok').2 g' hg'
    rw [heq] at hwithin'
    exact (pathOf_injective hname hname' hwithin hwithin').1
  · intro g hg
    rw [Rose.labels_flatten] at hg
    obtain ⟨nodes, hnodes, hg⟩ := List.mem_flatMap.1 hg
    obtain ⟨e, -, he, hok⟩ := Passes.exists_of_mem_right hsteps hnodes
    obtain ⟨name, -, hwithin⟩ := (hstage e he nodes hok).2 g hg
    rcases hwithin with heq | ⟨rest, heq⟩
    · exact ⟨_, heq⟩
    · rw [heq, pathOf]
      exact ⟨_, List.append_assoc _ _ _⟩

lemma stageToNodes_ne_nil
    {inside : List (Job κ) → Text → Except Stop (List (Rose (Node κ)))} {i : ℕ} (hjobs : jobs ≠ [])
    (h : t.stageToNodes inside current pre i jobs = .ok nodes) : nodes ≠ [] := by
  rw [stageToNodes_eq_ok] at h
  rintro rfl
  have hsorted : jobs.insertionSort Table.CalledBy ≠ [] := by
    intro hnil
    exact hjobs ((List.perm_insertionSort _ _).symm.trans (.of_eq hnil)).eq_nil
  exact Dict.groupBy_ne_nil hsorted (List.forall₂_nil_right_iff.1 h)

/-- **A call builds the groups of its jobs** and of all below them. -/
lemma builds_structureNodes (hplain : t.Plain) : Builds t current n (t.structureNodes current n) := by
  induction n with
  | zero =>
    intro jobs pre nodes _ _ h
    cases h
  | succ n ih =>
    intro jobs pre nodes hnodup hjobs h
    rcases structureNodes_eq_ok.1 h with ⟨rfl, rfl⟩ | ⟨-, stageNodes, hstages, rfl⟩
    · refine ⟨⟨?_, (fun _ h => nomatch h), List.nodup_nil⟩, (fun _ h => nomatch h)⟩
      rw [Links.descend_nil]
      exact .nil
    · obtain ⟨hbuilt, hpaths⟩ := built_stages ih hplain hnodup hjobs hstages
      have hperm : ((Rose.labels (chainStages stageNodes)).map Node.made).Perm
          ((Rose.labels stageNodes.flatten).map Node.made) := by
        rw [Rose.labels_flatten]
        refine labels_chainStages_perm (fun _ => rfl) fun nodes hnodes => ?_
        have hsteps := (List.forall₂_and_left (p := (· ∈ (Table.stages jobs).zipIdx)) _ _).2
          ⟨fun _ => id, hstages⟩
        obtain ⟨e, -, he, hok⟩ := Passes.exists_of_mem_right hsteps hnodes
        exact stageToNodes_ne_nil (ne_nil_of_mem_stages (List.fst_mem_of_mem_zipIdx he)) hok
      exact ⟨hbuilt.of_made_perm hperm, hpaths.of_made_perm hperm⟩

/-- A deeper bound changes nothing. -/
lemma structureNodes_mono {m : ℕ} (h : t.structureNodes current n jobs pre = .ok nodes)
    (hle : n ≤ m) : t.structureNodes current m jobs pre = .ok nodes := by
  induction n generalizing m jobs pre nodes with
  | zero => cases h
  | succ n ih =>
    obtain ⟨m, rfl⟩ : ∃ m', m = m' + 1 := ⟨m - 1, by omega⟩
    rcases structureNodes_eq_ok.1 h with hnil | ⟨hjobs, stageNodes, hstages, rfl⟩
    · exact structureNodes_eq_ok.2 (.inl hnil)
    · refine structureNodes_eq_ok.2 (.inr ⟨hjobs, stageNodes, hstages.imp fun e nodes hok => ?_, rfl⟩)
      refine stageToNodes_eq_ok.2 ((stageToNodes_eq_ok.1 hok).imp fun g node hmakes => ?_)
      obtain ⟨children, hchildren, hnode⟩ := hmakes
      exact ⟨children, ih hchildren (by omega), hnode⟩

/-- A generation, in another order. -/
lemma generation_eq_nil_congr {jobs' : List (Job κ)} (h : jobs.Perm jobs') (hjobs : jobs ⊆ t.links.rows) :
    t.links.generation n jobs = [] ↔ t.links.generation n jobs' = [] := by
  rw [Links.generation_eq_nil_iff hjobs,
    Links.generation_eq_nil_iff fun _ hjob => hjobs (h.mem_iff.2 hjob)]
  exact forall_congr' fun job => by rw [h.mem_iff]

/-- A call for no jobs returns, and one for some needs the groups of all stages. -/
lemma structureNodes_returns_iff : (∃ nodes, t.structureNodes current (n + 1) jobs pre = .ok nodes) ↔
    jobs = [] ∨ ∀ e ∈ (Table.stages jobs).zipIdx, ∀ g ∈ (Table.byFunction e.1).items,
      ∃ children, t.structureNodes current n (t.jobsWithParents (g.2.map Job.jobId))
        (pathOf pre e.2 g.1) = .ok children := by
  have hstage : ∀ e : List (Job κ) × ℕ,
      (∃ nodes, t.stageToNodes (t.structureNodes current n) current pre e.2 e.1 = .ok nodes) ↔
        ∀ g ∈ (Table.byFunction e.1).items, ∃ children,
          t.structureNodes current n (t.jobsWithParents (g.2.map Job.jobId)) (pathOf pre e.2 g.1) =
            .ok children := by
    intro e
    simp only [stageToNodes_eq_ok, Passes.exists_forall₂_iff]
    refine forall₂_congr fun g _ => ⟨?_, ?_⟩
    · rintro ⟨node, children, hchildren, -⟩
      exact ⟨children, hchildren⟩
    · rintro ⟨children, hchildren⟩
      exact ⟨_, children, hchildren, rfl⟩
  have hstages : (∀ e ∈ (Table.stages jobs).zipIdx, ∀ g ∈ (Table.byFunction e.1).items,
      ∃ children, t.structureNodes current n (t.jobsWithParents (g.2.map Job.jobId))
        (pathOf pre e.2 g.1) = .ok children) ↔ ∃ stageNodes,
      List.Forall₂ (fun e nodes => t.stageToNodes (t.structureNodes current n) current pre e.2 e.1 =
        .ok nodes) (Table.stages jobs).zipIdx stageNodes := by
    rw [Passes.exists_forall₂_iff]
    exact forall₂_congr fun e _ => (hstage e).symm
  rw [hstages]
  constructor
  · rintro ⟨nodes, h⟩
    rcases structureNodes_eq_ok.1 h with ⟨hnil, -⟩ | ⟨-, stageNodes, hstages, -⟩
    · exact .inl hnil
    · exact .inr ⟨stageNodes, hstages⟩
  · rintro (rfl | ⟨stageNodes, hstages⟩)
    · exact ⟨[], structureNodes_eq_ok.2 (.inl ⟨rfl, rfl⟩)⟩
    · by_cases hnil : jobs = []
      · exact ⟨[], structureNodes_eq_ok.2 (.inl ⟨hnil, rfl⟩)⟩
      · exact ⟨_, structureNodes_eq_ok.2 (.inr ⟨hnil, stageNodes, hstages, rfl⟩)⟩

/-- Every job is in a group of a stage. -/
lemma exists_group_of_mem {job : Job κ} (hjob : job ∈ jobs) : ∃ e ∈ (Table.stages jobs).zipIdx,
    ∃ g ∈ (Table.byFunction e.1).items, job ∈ g.2 := by
  obtain ⟨stage, hstage, hjob⟩ := List.mem_flatten.1 (flatten_stages_perm.mem_iff.2 hjob)
  rw [← List.zipIdx_map_fst 0 (Table.stages jobs)] at hstage
  obtain ⟨e, he, rfl⟩ := List.mem_map.1 hstage
  obtain ⟨g, hg, hjob⟩ := List.mem_flatMap.1 (flatMap_byFunction_perm.mem_iff.2 hjob)
  exact ⟨e, he, g, hg, hjob⟩

/-- **A call returns when its depth is enough** for the jobs below its own. -/
lemma structureNodes_ok_iff (hnodup : (jobs.map Job.jobId).Nodup) (hjobs : jobs ⊆ t.links.rows) :
    (∃ nodes, t.structureNodes current (n + 1) jobs pre = .ok nodes) ↔
      t.links.generation n jobs = [] := by
  induction n generalizing jobs pre with
  | zero =>
    rw [structureNodes_returns_iff]
    constructor
    · rintro (hnil | h)
      · exact hnil
      · refine List.eq_nil_iff_forall_not_mem.2 fun job hjob => ?_
        obtain ⟨e, he, g, hg, -⟩ := exists_group_of_mem hjob
        obtain ⟨children, hchildren⟩ := h e he g hg
        cases hchildren
    · exact .inl
  | succ n ih =>
    have hgroup : ∀ e ∈ (Table.stages jobs).zipIdx, ∀ g ∈ (Table.byFunction e.1).items,
        (g.2.map Job.jobId).Nodup ∧ g.2 ⊆ jobs := by
      intro e he g hg
      have hsub := subset_of_mem_stages (List.fst_mem_of_mem_zipIdx he)
      refine ⟨?_, List.Subset.trans (subset_of_mem_byFunction hg) hsub⟩
      have hstage := nodup_of_mem ((flatten_stages_perm.map Job.jobId).nodup_iff.2 hnodup)
        (List.fst_mem_of_mem_zipIdx he)
      have hgroups : ((((Table.byFunction e.1).items.map Prod.snd).flatten).map Job.jobId).Nodup :=
        (flatMap_byFunction_perm.map Job.jobId).nodup_iff.2 hstage
      exact nodup_of_mem hgroups (List.mem_map.2 ⟨g, hg, rfl⟩)
    have hinside : ∀ e ∈ (Table.stages jobs).zipIdx, ∀ g ∈ (Table.byFunction e.1).items,
        (∃ children, t.structureNodes current (n + 1) (t.jobsWithParents (g.2.map Job.jobId))
          (pathOf pre e.2 g.1) = .ok children) ↔ t.links.generation (n + 1) g.2 = [] := by
      intro e he g hg
      have hids := (hgroup e he g hg).1
      rw [ih (nodup_jobsWithParents hids) (jobsWithParents_subset hids),
        generation_eq_nil_congr (jobsWithParents_perm hids) (jobsWithParents_subset hids)]
      rfl
    rw [structureNodes_returns_iff, Links.generation_eq_nil_iff hjobs]
    constructor
    · rintro (rfl | h)
      · exact fun _ hjob => nomatch hjob
      · intro job hjob
        obtain ⟨e, he, g, hg, hmem⟩ := exists_group_of_mem hjob
        have hnil := (hinside e he g hg).1 (h e he g hg)
        exact (Links.generation_eq_nil_iff
          (List.Subset.trans (hgroup e he g hg).2 hjobs)).1 hnil job hmem
    · intro h
      refine .inr fun e he g hg => (hinside e he g hg).2 ?_
      exact (Links.generation_eq_nil_iff (List.Subset.trans (hgroup e he g hg).2 hjobs)).2
        fun job hjob => h job ((hgroup e he g hg).2 hjob)

end Call

end Built

end Burla.Workload
