/-
`update_job` with all that it drags along: a job that fails or is canceled takes the jobs with it
that run inside it, and those theirs.

The call takes the children of the job one after another and calls itself for each of them, on the
tables as they are by then.  What it has ended is no child of anything any more, so that the jobs
that it ends are, in the end, those that could be reached at first, each of them once
(`Tables.EndsAll`).  The depth of the calls is at most the number of RUNNING jobs.

The main result is `Tables.cascade_exact`.
-/
import Burla.ClusterState.Jobs
import Burla.Lib.Reach
import Mathlib.Data.List.Perm.Subperm

namespace Burla.ClusterState

open Burla.Jobs (Job JobSpec JobStatus Updates)
open Relation (TransGen ReflTransGen)

variable {κ ι : Type*} [DecidableEq κ]

namespace Tables

/-- `update_job`, with a bound on the depth of its calls; `now k` is the time at which the clock is
read for the job `k`. -/
def cascade (now : κ → ℚ) : ℕ → Tables κ ι → κ → Updates → Option (Tables κ ι)
  | 0, _, _, _ => none
  | n + 1, s, j, u =>
    (s.updateJob j u (now j)).2.foldlM (fun t child => cascade now n t child parentTerminated)
      (s.updateJob j u (now j)).1

/-- `running_job_ids`. -/
def runningJobIds (s : Tables κ ι) : List κ :=
  (s.jobs.items.filter fun e => e.2.job.status = .running).map Prod.fst

/-- The job `l` goes when the job `k` does. -/
def Child (s : Tables κ ι) (k l : κ) : Prop :=
  ∃ row, s.jobs.get l = some row ∧ row.CancelableChild k

/-- What a cascade does to the row of a job. -/
def endChild (now : κ → ℚ) (k : κ) (row : JobRow κ ι) : JobRow κ ι :=
  { row with job := row.job.update parentTerminated (now k) }

/-! ### One job -/

section One

variable {s : Tables κ ι} {j k : κ} {u : Updates} {c : ℚ} {row : JobRow κ ι}

lemma mem_runningJobIds : k ∈ s.runningJobIds ↔
    ∃ row, s.jobs.get k = some row ∧ row.job.status = .running := by
  simp only [runningJobIds, List.mem_map, List.mem_filter, decide_eq_true_eq, Prod.exists,
    exists_and_right, exists_eq_right, Dict.mem_items]

omit [DecidableEq κ] in
lemma nodup_runningJobIds : s.runningJobIds.Nodup :=
  (List.filter_sublist.map Prod.fst).nodup s.jobs.nodup

lemma Child.running (h : s.Child j k) : k ∈ s.runningJobIds := by
  obtain ⟨row, hrow, hchild⟩ := h
  exact mem_runningJobIds.2 ⟨row, hrow, hchild.2.1⟩

/-- A job is the child of one job only. -/
lemma Child.eq {j' : κ} (h : s.Child j k) (h' : s.Child j' k) : j = j' := by
  obtain ⟨row, hrow, hchild⟩ := h
  obtain ⟨row', hrow', hchild'⟩ := h'
  obtain rfl : row = row' := Option.some.inj (hrow.symm.trans hrow')
  exact Option.some.inj (hchild.1.symm.trans hchild'.1)

omit [DecidableEq κ] in
lemma newStatus_of_dead (job : Job) (hu : u.status = some .failed ∨ u.status = some .canceled) :
    job.newStatus u = .failed ∨ job.newStatus u = .canceled := by
  unfold Job.newStatus
  rcases hu with hu | hu
  · rw [hu]
    exact .inl rfl
  · rw [hu]
    exact .inr rfl

variable (hrow : s.jobs.get j = some row) (hrunning : row.job.status = .running)
  (hu : u.status = some .failed ∨ u.status = some .canceled)

include hrow hrunning hu

/-- **A RUNNING job that fails or is canceled**: its reservations are given back, and its children
are left to be canceled. -/
lemma updateJob_eq : s.updateJob j u c =
    (⟨s.nodes.mapValues (NodeRow.release · j),
      s.jobs.set j { row with job := row.job.update u c }⟩,
      ((s.jobs.set j { row with job := row.job.update u c }).items.filter
        fun e => e.2.CancelableChild j).map Prod.fst) := by
  have hstatus : (row.job.update u c).status = .failed ∨
      (row.job.update u c).status = .canceled := newStatus_of_dead _ hu
  have hterminal : (row.job.update u c).status.terminal = true := by
    rcases hstatus with h | h <;> rw [h] <;> rfl
  have henters : row.job.EntersTerminal u := ⟨hterminal, by rw [hrunning]; rfl⟩
  unfold updateJob
  rw [hrow]
  simp only [if_pos hterminal, if_pos (And.intro henters hstatus)]

lemma mem_children : k ∈ (s.updateJob j u c).2 ↔ (s.updateJob j u c).1.Child j k := by
  rw [updateJob_eq hrow hrunning hu]
  simp only [Child, List.mem_map, List.mem_filter, decide_eq_true_eq, Prod.exists,
    exists_and_right, exists_eq_right, Dict.mem_items]

lemma nodup_children : (s.updateJob j u c).2.Nodup := by
  rw [updateJob_eq hrow hrunning hu]
  exact (List.filter_sublist.map Prod.fst).nodup (Dict.nodup _)

omit hrunning in
/-- The job itself is no child of anything now. -/
lemma child_updateJob_iff {k l : κ} :
    (s.updateJob j u c).1.Child k l ↔ s.Child k l ∧ l ≠ j := by
  unfold Child
  by_cases hl : l = j
  · rw [hl, get_updateJob_self hrow]
    constructor
    · rintro ⟨row', hrow', hchild⟩
      obtain rfl := Option.some.inj hrow'
      have hstatus : (row.job.update u c).status = .running := hchild.2.1
      rcases newStatus_of_dead row.job hu with h | h
      · exact absurd (h.symm.trans hstatus) (by decide)
      · exact absurd (h.symm.trans hstatus) (by decide)
    · exact fun h => absurd rfl h.2
  · rw [get_updateJob_of_ne hl]
    exact ⟨fun h => ⟨h, hl⟩, And.left⟩

end One

/-! ### What is ended -/

variable [DecidableEq ι]

/-- Of two tables, the second is the first with the jobs in `A` canceled by a cascade, and their
reservations given back. -/
structure EndsAll (now : κ → ℚ) (A : κ → Prop) (s t : Tables κ ι) : Prop where
  ended : ∀ k, A k → ∃ row, s.jobs.get k = some row ∧ t.jobs.get k = some (endChild now k row)
  others : ∀ k, ¬A k → t.jobs.get k = s.jobs.get k
  released : ∀ name row k, s.nodes.get name = some row → row.reservedForJob = some k → A k →
    t.nodes.get name = some { row with reservedForJob := none }
  kept : ∀ name, (∀ row k, s.nodes.get name = some row → row.reservedForJob = some k → ¬A k) →
    t.nodes.get name = s.nodes.get name

namespace EndsAll

variable {now : κ → ℚ} {A B : κ → Prop} {r s t : Tables κ ι} {k l : κ}

lemma refl : EndsAll now (fun _ => False) s s where
  ended _ h := h.elim
  others _ _ := rfl
  released _ _ _ _ _ h := h.elim
  kept _ _ := rfl

lemma congr (h : EndsAll now A s t) (heq : ∀ k, A k ↔ B k) : EndsAll now B s t := by
  obtain rfl : A = B := funext fun k => propext (heq k)
  exact h

/-- One lot after another, with none in both. -/
lemma trans (h : EndsAll now A r s) (h' : EndsAll now B s t) (hAB : ∀ k, B k → ¬A k) :
    EndsAll now (fun k => A k ∨ B k) r t where
  ended k hk := by
    by_cases hA : A k
    · obtain ⟨row, hrow, hended⟩ := h.ended k hA
      exact ⟨row, hrow, by rw [h'.others k fun hB => hAB k hB hA, hended]⟩
    · obtain ⟨row, hrow, hended⟩ := h'.ended k (hk.resolve_left hA)
      exact ⟨row, by rw [← h.others k hA, hrow], hended⟩
  others k hk := by
    rw [h'.others k fun hB => hk (.inr hB), h.others k fun hA => hk (.inl hA)]
  released name row k hrow hreserved hk := by
    by_cases hA : A k
    · have hfree := h.released name row k hrow hreserved hA
      rw [h'.kept name, hfree]
      intro row' k' hrow' hreserved'
      rw [hfree] at hrow'
      rw [← Option.some.inj hrow'] at hreserved'
      cases hreserved'
    · have hsame : s.nodes.get name = r.nodes.get name := by
        refine h.kept name fun row' k' hrow' hreserved' => ?_
        obtain rfl : row = row' := Option.some.inj (hrow.symm.trans hrow')
        obtain rfl : k = k' := Option.some.inj (hreserved.symm.trans hreserved')
        exact hA
      exact h'.released name row k (hsame.trans hrow) hreserved (hk.resolve_left hA)
  kept name hname := by
    have hsame := h.kept name fun row k hrow hreserved hA => hname row k hrow hreserved (.inl hA)
    rw [h'.kept name, hsame]
    intro row k hrow hreserved hB
    exact hname row k (hsame ▸ hrow) hreserved (.inr hB)

/-- What is ended runs no more, and the rest is as it was. -/
lemma child_iff (h : EndsAll now A s t) : t.Child k l ↔ s.Child k l ∧ ¬A l := by
  unfold Child
  by_cases hA : A l
  · obtain ⟨row, hrow, hended⟩ := h.ended l hA
    rw [hended]
    constructor
    · rintro ⟨row', hrow', hchild⟩
      obtain rfl := Option.some.inj hrow'
      cases hchild.2.1
    · exact fun hboth => absurd hA hboth.2
  · rw [h.others l hA]
    exact ⟨fun hchild => ⟨hchild, hA⟩, And.left⟩

lemma length_runningJobIds (h : EndsAll now A s t) :
    t.runningJobIds.length ≤ s.runningJobIds.length := by
  refine (List.subperm_of_subset nodup_runningJobIds fun k hk => ?_).length_le
  obtain ⟨row, hrow, hrunning⟩ := mem_runningJobIds.1 hk
  by_cases hA : A k
  · obtain ⟨row', -, hended⟩ := h.ended k hA
    obtain rfl := Option.some.inj (hrow.symm.trans hended)
    cases hrunning
  · exact mem_runningJobIds.2 ⟨row, h.others k hA ▸ hrow, hrunning⟩

end EndsAll

/-! ### The cascade -/

section Cascade

variable {now : κ → ℚ} {s t : Tables κ ι} {j k : κ} {u : Updates} {row : JobRow κ ι} {n : ℕ}

omit [DecidableEq ι] in
/-- One job less is RUNNING. -/
lemma length_runningJobIds_updateJob (hrow : s.jobs.get j = some row)
    (hrunning : row.job.status = .running)
    (hu : u.status = some .failed ∨ u.status = some .canceled) {c : ℚ} :
    (s.updateJob j u c).1.runningJobIds.length < s.runningJobIds.length := by
  have hnot : j ∉ (s.updateJob j u c).1.runningJobIds := by
    intro hj
    obtain ⟨row', hrow', hrunning'⟩ := mem_runningJobIds.1 hj
    rw [get_updateJob_self hrow] at hrow'
    obtain rfl := Option.some.inj hrow'
    have hstatus : row.job.newStatus u = .running := hrunning'
    rcases newStatus_of_dead row.job hu with h | h
    · exact absurd (h.symm.trans hstatus) (by decide)
    · exact absurd (h.symm.trans hstatus) (by decide)
  have hsub : j :: (s.updateJob j u c).1.runningJobIds ⊆ s.runningJobIds := by
    intro k hk
    rcases List.mem_cons.1 hk with rfl | hk'
    · exact mem_runningJobIds.2 ⟨row, hrow, hrunning⟩
    · have hne : k ≠ j := fun heq => hnot (heq ▸ hk')
      obtain ⟨row', hrow', hrunning'⟩ := mem_runningJobIds.1 hk'
      rw [get_updateJob_of_ne hne] at hrow'
      exact mem_runningJobIds.2 ⟨row', hrow', hrunning'⟩
  have hnodup : (j :: (s.updateJob j u c).1.runningJobIds).Nodup :=
    List.nodup_cons.2 ⟨hnot, nodup_runningJobIds⟩
  exact (List.subperm_of_subset hnodup hsub).length_le

/-- A RUNNING job that is canceled by a cascade, before its children are. -/
lemma endsAll_updateJob (hrow : s.jobs.get j = some row) (hrunning : row.job.status = .running) :
    EndsAll now (fun k => k = j) s (s.updateJob j parentTerminated (now j)).1 := by
  have heq := updateJob_eq (u := parentTerminated) (c := now j) hrow hrunning (.inr rfl)
  refine ⟨?_, ?_, ?_, ?_⟩
  · rintro k rfl
    exact ⟨row, hrow, get_updateJob_self hrow⟩
  · intro k hk
    exact get_updateJob_of_ne hk
  · rintro name node k hnode hreserved rfl
    rw [heq]
    show (s.nodes.mapValues _).get name = _
    rw [Dict.get_mapValues, hnode, Option.map_some, NodeRow.release, if_pos hreserved]
  · intro name hname
    rw [heq]
    show (s.nodes.mapValues _).get name = _
    rw [Dict.get_mapValues]
    cases hnode : s.nodes.get name with
    | none => rfl
    | some node =>
      rw [Option.map_some, NodeRow.release, if_neg fun hreserved => hname node j hnode hreserved rfl]

/-- **The children one after another**, when a call for one of them ends it and what it drags
along. -/
lemma endsAll_children {call : Tables κ ι → κ → Option (Tables κ ι)} {bound : ℕ}
    (hcall : ∀ s c row, s.jobs.get c = some row → row.job.status = .running →
      s.runningJobIds.length < bound →
        ∃ t, call s c = some t ∧ EndsAll now (ReflTransGen s.Child c) s t)
    {cs : List κ} (hnodup : cs.Nodup) (hcs : ∀ c ∈ cs, s.Child j c) (hj : j ∉ s.runningJobIds)
    (hbound : s.runningJobIds.length < bound) :
    ∃ t, cs.foldlM call s = some t ∧
      EndsAll now (fun k => ∃ c ∈ cs, ReflTransGen s.Child c k) s t := by
  induction cs generalizing s with
  | nil => exact ⟨s, rfl, EndsAll.refl.congr fun k => by simp⟩
  | cons c cs ih =>
    obtain ⟨hc, hrest⟩ := List.nodup_cons.1 hnodup
    have hchild := hcs c List.mem_cons_self
    obtain ⟨row, hrow, hcancelable⟩ := hchild
    obtain ⟨s', hs', hends⟩ := hcall s c row hrow hcancelable.2.1 hbound
    -- another child is not below this one: its parent is the job, which runs no more
    have hapart : ∀ c' ∈ cs, ¬ReflTransGen s.Child c c' := by
      intro c' hc' hpath
      rcases Relation.ReflTransGen.cases_tail hpath with heq | ⟨p, hp, hedge⟩
      · exact hc (heq ▸ hc')
      · obtain rfl : p = j := hedge.eq (hcs c' (List.mem_cons_of_mem c hc'))
        rcases Relation.ReflTransGen.cases_tail hp with heq | ⟨q, -, hlast⟩
        · exact hj (heq ▸ mem_runningJobIds.2 ⟨row, hrow, hcancelable.2.1⟩)
        · exact hj hlast.running
    have hcut : ∀ a b, s'.Child a b ↔ s.Child a b ∧ ¬ReflTransGen s.Child c b :=
      fun a b => hends.child_iff
    obtain ⟨t, ht, hends'⟩ := ih hrest (s := s')
      (fun c' hc' => (hcut j c').2 ⟨hcs c' (List.mem_cons_of_mem c hc'), hapart c' hc'⟩)
      (fun hmem => by
        obtain ⟨row', hrow', hrunning'⟩ := mem_runningJobIds.1 hmem
        by_cases hbelow : ReflTransGen s.Child c j
        · obtain ⟨row₀, -, hended⟩ := hends.ended j hbelow
          obtain rfl := Option.some.inj (hrow'.symm.trans hended)
          cases hrunning'
        · exact hj (mem_runningJobIds.2 ⟨row', hends.others j hbelow ▸ hrow', hrunning'⟩))
      (hends.length_runningJobIds.trans_lt hbound)
    refine ⟨t, ?_, (hends.trans hends' ?_).congr fun k => Reach.cut_iff hcut hapart⟩
    · rw [List.foldlM_cons, hs']
      exact ht
    · exact fun k hk => Reach.not_reflTransGen_of_cut hcut hapart hk

/-- What a call leaves to the calls for the children. -/
lemma exists_children (hn : s.runningJobIds.length < n + 1) (hrow : s.jobs.get j = some row)
    (hrunning : row.job.status = .running)
    (hu : u.status = some .failed ∨ u.status = some .canceled)
    (ih : ∀ (s : Tables κ ι) (c : κ) (row : JobRow κ ι), s.jobs.get c = some row →
      row.job.status = .running → s.runningJobIds.length < n →
        ∃ t, cascade now n s c parentTerminated = some t ∧
          EndsAll now (ReflTransGen s.Child c) s t) :
    ∃ t, cascade now (n + 1) s j u = some t ∧
      EndsAll now (fun k => TransGen s.Child j k ∧ k ≠ j) (s.updateJob j u (now j)).1 t := by
  have hless := length_runningJobIds_updateJob hrow hrunning hu (c := now j)
  obtain ⟨t, ht, hends⟩ := endsAll_children (j := j) ih
    (nodup_children hrow hrunning hu (c := now j))
    (fun c hc => (mem_children hrow hrunning hu).1 hc)
    (fun hmem => by
      obtain ⟨row', hrow', hrunning'⟩ := mem_runningJobIds.1 hmem
      rw [get_updateJob_self hrow] at hrow'
      obtain rfl := Option.some.inj hrow'
      have hstatus : row.job.newStatus u = .running := hrunning'
      rcases newStatus_of_dead row.job hu with h | h
      · exact absurd (h.symm.trans hstatus) (by decide)
      · exact absurd (h.symm.trans hstatus) (by decide))
    (by omega)
  refine ⟨t, ht, hends.congr fun k => ?_⟩
  rw [Reach.exists_reflTransGen_iff fun c => mem_children hrow hrunning hu]
  exact Reach.transGen_ne_iff fun a b => child_updateJob_iff hrow hu

/-- **A child and all below it are ended.** -/
lemma cascade_child (hn : s.runningJobIds.length < n) (hrow : s.jobs.get j = some row)
    (hrunning : row.job.status = .running) :
    ∃ t, cascade now n s j parentTerminated = some t ∧
      EndsAll now (ReflTransGen s.Child j) s t := by
  induction n generalizing s j row with
  | zero => omega
  | succ n ih =>
    obtain ⟨t, ht, hends⟩ := exists_children hn hrow hrunning (u := parentTerminated) (.inr rfl)
      fun s c row hrow hrunning hlen => ih hlen hrow hrunning
    refine ⟨t, ht, ((endsAll_updateJob hrow hrunning).trans hends fun k hk => hk.2).congr ?_⟩
    intro k
    rw [Relation.reflTransGen_iff_eq_or_transGen]
    constructor
    · rintro (hk | ⟨hk, -⟩)
      · exact .inl hk
      · exact .inr hk
    · rintro (hk | hk)
      · exact .inl hk
      · by_cases hkj : k = j
        · exact .inl hkj
        · exact .inr ⟨hk, hkj⟩

omit [DecidableEq ι] in
/-- A deeper bound changes nothing. -/
lemma cascade_mono {m : ℕ} (h : cascade now n s j u = some t) (hle : n ≤ m) :
    cascade now m s j u = some t := by
  induction n generalizing s j u t m with
  | zero => cases h
  | succ n ih =>
    obtain ⟨m, rfl⟩ : ∃ m', m = m' + 1 := ⟨m - 1, by omega⟩
    have hchildren : ∀ (cs : List κ) (s t : Tables κ ι),
        cs.foldlM (fun t child => cascade now n t child parentTerminated) s = some t →
          cs.foldlM (fun t child => cascade now m t child parentTerminated) s = some t := by
      intro cs
      induction cs with
      | nil => exact fun _ _ hs => hs
      | cons c cs ihcs =>
        intro s t hs
        rw [List.foldlM_cons] at hs ⊢
        obtain ⟨s', hs', hrest⟩ := Option.bind_eq_some_iff.1 hs
        rw [ih hs' (by omega)]
        exact ihcs s' t hrest
    exact hchildren _ _ _ h

end Cascade

/-- The job gets a status that it did not have. -/
def BecomesCanceled (s t : Tables κ ι) (k : κ) : Prop :=
  ∃ row row', s.jobs.get k = some row ∧ t.jobs.get k = some row' ∧
    row.job.status ≠ .canceled ∧ row'.job.status = .canceled

/-- What a call of `update_job` makes of the tables, for a job that was RUNNING. -/
structure Cascades (now : κ → ℚ) (j : κ) (u : Updates) (s t : Tables κ ι) : Prop where
  /-- The job itself gets the update. -/
  root : ∀ row, s.jobs.get j = some row →
    t.jobs.get j = some { row with job := row.job.update u (now j) }
  /-- Of the others, those become CANCELED that are reached. -/
  canceled : ∀ k, k ≠ j → (BecomesCanceled s t k ↔ TransGen s.Child j k)
  /-- They were RUNNING; they are flagged, and have ended at one time. -/
  flagged : ∀ k, k ≠ j → TransGen s.Child j k → ∃ row row', s.jobs.get k = some row ∧
    row.job.status = .running ∧ t.jobs.get k = some row' ∧ row'.job.dashboardCanceled = true ∧
      row'.job.endedAt = some (row.job.endedAt.getD (now k)) ∧
      row' = { row with job := row.job.update parentTerminated (now k) }
  /-- No other job changes. -/
  others : ∀ k, k ≠ j → ¬TransGen s.Child j k → t.jobs.get k = s.jobs.get k
  /-- The nodes that were reserved for an ended job are given back. -/
  released : ∀ name row k, s.nodes.get name = some row → row.reservedForJob = some k →
    k = j ∨ TransGen s.Child j k → t.nodes.get name = some { row with reservedForJob := none }
  /-- No other reservation changes. -/
  kept : ∀ name, (∀ row k, s.nodes.get name = some row → row.reservedForJob = some k →
    ¬(k = j ∨ TransGen s.Child j k)) → t.nodes.get name = s.nodes.get name

section Exact

variable {now : κ → ℚ} {s t : Tables κ ι} {j k : κ} {u : Updates} {row : JobRow κ ι}

omit [DecidableEq ι] in
lemma running_of_transGen (h : TransGen s.Child j k) :
    ∃ row, s.jobs.get k = some row ∧ row.job.status = .running := by
  cases h with
  | single hedge => exact mem_runningJobIds.1 hedge.running
  | tail _ hedge => exact mem_runningJobIds.1 hedge.running

lemma cascades_of_endsAll (hrow : s.jobs.get j = some row) (hrunning : row.job.status = .running)
    (hu : u.status = some .failed ∨ u.status = some .canceled)
    (h : EndsAll now (fun k => TransGen s.Child j k ∧ k ≠ j) (s.updateJob j u (now j)).1 t) :
    Cascades now j u s t := by
  have hothers : ∀ k, k ≠ j → (s.updateJob j u (now j)).1.jobs.get k = s.jobs.get k :=
    fun k hk => get_updateJob_of_ne hk
  have hended : ∀ k, k ≠ j → TransGen s.Child j k → ∃ row, s.jobs.get k = some row ∧
      row.job.status = .running ∧ t.jobs.get k = some (endChild now k row) := by
    intro k hk hpath
    obtain ⟨row, hrow, hend⟩ := h.ended k ⟨hpath, hk⟩
    rw [hothers k hk] at hrow
    obtain ⟨row', hrow', hrunning'⟩ := running_of_transGen hpath
    obtain rfl : row = row' := Option.some.inj (hrow.symm.trans hrow')
    exact ⟨row, hrow, hrunning', hend⟩
  have hsame : ∀ k, k ≠ j → ¬TransGen s.Child j k → t.jobs.get k = s.jobs.get k := by
    intro k hk hpath
    rw [h.others k fun hboth => hpath hboth.1, hothers k hk]
  have hnodes : (s.updateJob j u (now j)).1.nodes = s.nodes.mapValues (NodeRow.release · j) := by
    rw [updateJob_eq hrow hrunning hu]
  refine ⟨?_, ?_, ?_, hsame, ?_, ?_⟩
  · intro row' hrow'
    rw [h.others j fun hboth => hboth.2 rfl]
    exact get_updateJob_self hrow'
  · intro k hk
    constructor
    · rintro ⟨row₁, row₂, hrow₁, hrow₂, hbefore, hafter⟩
      by_contra hpath
      rw [hsame k hk hpath, hrow₁] at hrow₂
      exact hbefore (Option.some.inj hrow₂ ▸ hafter)
    · intro hpath
      obtain ⟨row', hrow', hrunning', hend⟩ := hended k hk hpath
      exact ⟨row', _, hrow', hend, by rw [hrunning']; decide, rfl⟩
  · intro k hk hpath
    obtain ⟨row', hrow', hrunning', hend⟩ := hended k hk hpath
    refine ⟨row', _, hrow', hrunning', hend, ?_, ?_, rfl⟩
    · exact Bool.or_true _
    · exact Job.endedAt_update_of_enters (now k) ⟨rfl, by rw [hrunning']; rfl⟩ rfl
  · intro name node k hnode hreserved hk
    by_cases hkj : k = j
    · have hfree : (s.updateJob j u (now j)).1.nodes.get name =
          some { node with reservedForJob := none } := by
        rw [hnodes, Dict.get_mapValues, hnode, Option.map_some, NodeRow.release,
          if_pos (hkj ▸ hreserved)]
      rw [h.kept name, hfree]
      intro node' k' hnode' hreserved'
      rw [hfree] at hnode'
      rw [← Option.some.inj hnode'] at hreserved'
      cases hreserved'
    · have hstays : (s.updateJob j u (now j)).1.nodes.get name = some node := by
        rw [hnodes, Dict.get_mapValues, hnode, Option.map_some, NodeRow.release, if_neg]
        exact fun heq => hkj (Option.some.inj (hreserved.symm.trans heq))
      exact h.released name node k hstays hreserved ⟨hk.resolve_left hkj, hkj⟩
  · intro name hname
    have hstays : (s.updateJob j u (now j)).1.nodes.get name = s.nodes.get name := by
      rw [hnodes, Dict.get_mapValues]
      cases hnode : s.nodes.get name with
      | none => rfl
      | some node =>
        rw [Option.map_some, NodeRow.release, if_neg fun heq => hname node j hnode heq (.inl rfl)]
    rw [h.kept name, hstays]
    intro node k hnode hreserved hk
    exact hname node k (hstays ▸ hnode) hreserved (.inr hk.1)

/-- **A RUNNING job that fails or is canceled takes along the jobs that can be reached from it,
and no others**: the call comes to its end, at a depth of at most one more than the RUNNING jobs,
whatever the parents of the jobs are. -/
theorem cascade_exact (now : κ → ℚ) (hrow : s.jobs.get j = some row)
    (hrunning : row.job.status = .running)
    (hu : u.status = some .failed ∨ u.status = some .canceled) :
    ∃ t, (∀ n, s.runningJobIds.length < n → cascade now n s j u = some t) ∧
      Cascades now j u s t := by
  obtain ⟨t, ht, hends⟩ : ∃ t, cascade now (s.runningJobIds.length + 1) s j u = some t ∧
      EndsAll now (fun k => TransGen s.Child j k ∧ k ≠ j) (s.updateJob j u (now j)).1 t :=
    exists_children (Nat.lt_succ_self _) hrow hrunning hu
      fun s c row hrow hrunning hlen => cascade_child hlen hrow hrunning
  exact ⟨t, fun n hn => cascade_mono ht hn, cascades_of_endsAll hrow hrunning hu hends⟩

end Exact

/-! ### How deep the calls are -/

section Depth

variable {now : κ → ℚ} {s t : Tables κ ι} {j k l : κ} {u : Updates} {c : ℚ} {n : ℕ}

/-- No chain of so many children begins at the job. -/
def Shallow (s : Tables κ ι) : ℕ → κ → Prop
  | 0, _ => False
  | n + 1, j => ∀ k, s.Child j k → Shallow s n k

omit [DecidableEq ι] in
lemma Shallow.of_child (hsub : ∀ k l, t.Child k l → s.Child k l) (h : s.Shallow n j) :
    t.Shallow n j := by
  induction n generalizing j with
  | zero => exact h.elim
  | succ n ih => exact fun k hk => ih (h k (hsub j k hk))

omit [DecidableEq ι] in
/-- An update that ends a job makes no children. -/
lemma child_of_child_updateJob (hu : u.status = some .failed ∨ u.status = some .canceled)
    (h : (s.updateJob j u c).1.Child k l) : s.Child k l := by
  cases hrow : s.jobs.get j with
  | none =>
    have hsame : s.updateJob j u c = (s, []) := by
      unfold updateJob
      rw [hrow]
    rwa [hsame] at h
  | some row => exact ((child_updateJob_iff hrow hu).1 h).1

omit [DecidableEq ι] in
lemma child_of_mem_updateJob (h : k ∈ (s.updateJob j u c).2) : (s.updateJob j u c).1.Child j k := by
  unfold updateJob at h ⊢
  cases hrow : s.jobs.get j with
  | none =>
    rw [hrow] at h
    cases h
  | some row =>
    rw [hrow] at h
    dsimp only at h ⊢
    split_ifs at h ⊢ with _ henters
    all_goals first
      | cases h
      | (obtain ⟨e, he, rfl⟩ := List.mem_map.1 h
         obtain ⟨hmem, hchild⟩ := List.mem_filter.1 he
         exact ⟨e.2, Dict.mem_items.1 hmem, of_decide_eq_true hchild⟩)

omit [DecidableEq ι] in
/-- **The calls are nested no deeper than the children are**, whatever their statuses. -/
lemma exists_cascade (hu : u.status = some .failed ∨ u.status = some .canceled)
    (h : s.Shallow n j) :
    ∃ t, cascade now n s j u = some t ∧ ∀ k l, t.Child k l → s.Child k l := by
  induction n generalizing s j u with
  | zero => exact h.elim
  | succ n ih =>
    have hchildren : ∀ (cs : List κ) (r : Tables κ ι), (∀ k l, r.Child k l → s.Child k l) →
        (∀ c ∈ cs, s.Shallow n c) →
          ∃ t, cs.foldlM (fun t child => cascade now n t child parentTerminated) r = some t ∧
            ∀ k l, t.Child k l → s.Child k l := by
      intro cs
      induction cs with
      | nil => exact fun r hr _ => ⟨r, rfl, hr⟩
      | cons c cs ihcs =>
        intro r hr hcs
        obtain ⟨r', hr', hsub⟩ := ih (s := r) (j := c) (u := parentTerminated) (.inr rfl)
          ((hcs c List.mem_cons_self).of_child hr)
        obtain ⟨t, ht, hchild⟩ := ihcs r' (fun k l hkl => hr k l (hsub k l hkl))
          fun c' hc' => hcs c' (List.mem_cons_of_mem c hc')
        refine ⟨t, ?_, hchild⟩
        rw [List.foldlM_cons, hr']
        exact ht
    exact hchildren _ _ (fun k l => child_of_child_updateJob hu)
      fun c hc => h c (child_of_child_updateJob hu (child_of_mem_updateJob hc))

end Depth

/-! ### Jobs in a circle -/

section Cycle

/-- A RUNNING job with a parent. -/
def inside (parent : ℕ) (detached : Bool) : JobRow ℕ Unit where
  spec := ⟨1, detached, some parent⟩
  job := { Job.new with allInputsUploaded := detached }
  startedAt := none
  assignedNodes := Dict.empty

/-- The jobs 0 and 1 are each other's parents; 2 is its own; 3 is detached, and inside 1. -/
def cycle : Tables ℕ Unit where
  nodes := Dict.empty.set () { NodeRow.new with reservedForJob := some 1 }
  jobs := (((Dict.empty.set 0 (inside 1 false)).set 1 (inside 0 false)).set 2 (inside 2 false)).set 3
    (inside 1 true)

theorem cascade_exact_cycle : ∃ t,
    (∀ n, cycle.runningJobIds.length < n →
      cycle.cascade (fun _ => 0) n 0 (.ofStatus .failed) = some t) ∧
      Cascades (fun _ => 0) 0 (.ofStatus .failed) cycle t :=
  cascade_exact (fun _ => 0) (show cycle.jobs.get 0 = some (inside 1 false) from rfl) rfl (.inl rfl)

/-- 1 goes with 0 and gives its node back; 2 and 3 stay. -/
example : (cycle.cascade (fun _ => 0) 5 0 (.ofStatus .failed)).map (fun t =>
    (t.jobs.items.map fun e => e.2.job.status,
      (t.nodes.get ()).bind NodeRow.reservedForJob)) =
    some ([.failed, .canceled, .running, .running], none) := by decide +kernel

end Cycle

end Tables

end Burla.ClusterState
