/-
The head's total of a job's results is right when everybody has told it all.

Of a node that has left the job the head has the whole count, and so it has of one that has
completed a push after its last result (`Tallied`).  The counts of the nodes then add up to the
number of results.  A node that leaves with a result untold, a push that is processed after a
later one, and a reload when a node has left, spoil it.

The main result is `Cluster.counted_of_kept`.
-/
import Burla.Reports.Cluster

namespace Burla.Reports

open Burla.ClusterState (JobRow Progress updateJobProgress)
open Burla.Jobs (Job JobSpec Updates producedBy)

variable {κ ι : Type*} [DecidableEq κ] [DecidableEq ι]

/-! ### The claim and the condition -/

namespace Cluster

variable (s : Cluster κ ι) (j : κ)

/-- Once every input's result has been produced once, and all the nodes at work on the job have
told the head all they have, it knows that there are as many results as inputs. -/
def Counted : Prop :=
  ∀ stored, s.history.get j = some stored →
    ((s.results j).map Prod.snd).Perm (List.range stored.spec.nInputs) →
    (∀ i w, s.watchers i = some w → w.job = j → w.told = true) →
      s.jobView j = some ⟨stored.spec.nInputs, stored.spec.nInputs⟩

/-- No push of the job is processed after a later one of its node; no node leaves the job before
the head has its whole count; and when a new head comes up, all the nodes that have produced
results of the job are at work on it still. -/
def Kept : Event κ ι → Prop
  | .deliver n _ _ _ => ∀ e ∈ takeAt s.pushes n, e.1.job = j →
      s.reported j e.1.node ≤ e.1.currentNumResults
  | .leave i => ∀ w ∈ s.watchers i, w.job = j → s.reported j i = w.numResultsReceived
  | .restart => ∀ p ∈ s.results j, (s.watchers p.1).map Watcher.job = some j
  | _ => True

instance : (a : Event κ ι) → Decidable (s.Kept j a)
  | .deliver n _ _ _ => inferInstanceAs (Decidable (∀ e ∈ takeAt s.pushes n, _ → _))
  | .leave i => inferInstanceAs (Decidable (∀ w ∈ s.watchers i, _ → _))
  | .restart => inferInstanceAs (Decidable (∀ p ∈ s.results j, _))
  | .admission .. | .join .. | .produce .. | .push _ | .lose _ | .updateJob .. | .loadJob _ =>
    .isTrue trivial

end Cluster

/-! ### Counts that add up -/

section Sums

variable {results : List (ι × ℕ)} {i i' : ι} {k : ℕ}

omit [DecidableEq κ] in
lemma producedBy_append :
    producedBy (results ++ [(i, k)]) i' = producedBy results i' + if i = i' then 1 else 0 := by
  simp [producedBy, List.countP_append, List.countP_cons]

omit [DecidableEq κ] in
lemma producedBy_eq_zero (h : ∀ p ∈ results, p.1 ≠ i) : producedBy results i = 0 :=
  List.countP_eq_zero.2 fun p hp => by simpa using h p hp

omit [DecidableEq κ] in
/-- Every result is that of a node in a list of all. -/
lemma sum_producedBy_of_nodup {l : List ι} (hl : l.Nodup) (hmem : ∀ p ∈ results, p.1 ∈ l) :
    (l.map (producedBy results)).sum = results.length := by
  rw [← List.sum_toFinset _ hl]
  induction results with
  | nil => simp [producedBy]
  | cons p results ih =>
    have hcons : ∀ i, producedBy (p :: results) i =
        producedBy results i + if p.1 = i then 1 else 0 := by
      intro i
      simp [producedBy, List.countP_cons]
    have hp : p.1 ∈ l.toFinset := List.mem_toFinset.2 (hmem p List.mem_cons_self)
    simp only [hcons, Finset.sum_add_distrib, Finset.sum_ite_eq, if_pos hp, List.length_cons]
    rw [ih fun q hq => hmem q (List.mem_cons_of_mem p hq)]

omit [DecidableEq κ] in
/-- Counts that are each right add up to all the results. -/
lemma sum_items {d : Dict ι Progress}
    (h : ∀ i, ((d.get i).map Progress.currentNumResults).getD 0 = producedBy results i) :
    (d.items.map fun e => e.2.currentNumResults).sum = results.length := by
  have hitems : d.items.map (fun e => e.2.currentNumResults) = d.keys.map (producedBy results) := by
    rw [Dict.keys, List.map_map]
    refine List.map_congr_left fun e he => ?_
    have hget : d.get e.1 = some e.2 := Dict.mem_items.1 he
    show e.2.currentNumResults = producedBy results e.1
    rw [← h e.1, hget]
    rfl
  rw [hitems]
  refine sum_producedBy_of_nodup d.nodup fun p hp => ?_
  by_contra hkey
  -- a node without an entry has produced nothing
  have hzero : producedBy results p.1 = 0 := by
    rw [← h p.1, Dict.get_eq_none.2 hkey]
    rfl
  have hpos : 0 < producedBy results p.1 := List.countP_pos_iff.2 ⟨p, hp, by simp⟩
  omega

end Sums

/-! ### The rows -/

namespace Cluster

variable {s t : Cluster κ ι} {j j' : κ} {i : ι} {row : JobRow κ ι} {p : Push κ ι} {now : ℚ}
  {flush answered : Bool}

omit [DecidableEq ι] in
lemma isSome_row_of_history (h : (s.history.get j).isSome = true) : (s.row j).isSome = true := by
  unfold row
  cases s.jobs.get j with
  | some _ => rfl
  | none => simpa using h

omit [DecidableEq ι] in
/-- Where a row is written, in a state with that row and the history's rows elsewhere. -/
lemma row_of_set (hjobs : t.jobs = s.jobs.set j' row)
    (hhistory : ∀ k, k ≠ j' → t.history.get k = s.history.get k) :
    t.row j = if j = j' then some row else s.row j := by
  unfold Cluster.row
  rw [hjobs, Dict.get_set]
  by_cases h : j = j'
  · rw [if_pos h, if_pos h]
    rfl
  · rw [if_neg h, if_neg h, hhistory j h]

omit [DecidableEq ι] in
lemma row_loadJob : (s.loadJob j').row j = s.row j := by
  unfold loadJob
  cases hrow : s.row j' with
  | none => rfl
  | some row =>
    have hset : Cluster.row { s with jobs := s.jobs.set j' row } j =
        if j = j' then some row else s.row j := row_of_set rfl fun _ _ => rfl
    rw [hset]
    split_ifs with h
    · rw [h, hrow]
    · rfl

omit [DecidableEq ι] in
lemma jobs_loadJob : (s.loadJob j).jobs.get j = s.row j := by
  unfold loadJob
  cases hrow : s.row j with
  | none =>
    unfold row at hrow
    cases hget : s.jobs.get j with
    | none => rfl
    | some row =>
      rw [hget] at hrow
      cases hrow
  | some row => exact Dict.get_set_self

lemma reported_eq (h : s.row j = some row) :
    s.reported j i = ((row.assignedNodes.get i).map Progress.currentNumResults).getD 0 := by
  rw [reported, h]
  rfl

lemma reported_congr (h : (t.row j).map JobRow.assignedNodes = (s.row j).map JobRow.assignedNodes) :
    t.reported j i = s.reported j i := by
  have hbind : ∀ o : Option (JobRow κ ι),
      (o.bind fun row => row.assignedNodes.get i) =
        (o.map JobRow.assignedNodes).bind fun d => d.get i := by
    intro o
    cases o <;> rfl
  rw [reported, reported, hbind, hbind, h]

omit [DecidableEq ι] in
lemma history_upsertJob_of_ne (h : j ≠ j') :
    (upsertJob s.history j' row).get j = s.history.get j := Dict.get_set_of_ne h

omit [DecidableEq ι] in
lemma spec_upsertJob_self :
    ((upsertJob s.history j row).get j).map Stored.spec = some row.spec := by
  rw [upsertJob, Dict.get_set_self]
  rfl

/-- What a push writes to the row of its job. -/
def record (p : Push κ ι) (now : ℚ) (row : JobRow κ ι) : JobRow κ ι :=
  { row with
    assignedNodes := row.assignedNodes.set p.node
      { currentNumResults := p.currentNumResults
        lastPushAt := some now } }

lemma get_updateJobProgress {jobs : Dict κ (JobRow κ ι)} :
    (updateJobProgress jobs p.job p.node (some p.currentNumResults) now).get j =
      if j = p.job then (jobs.get j).map (record p now) else jobs.get j := by
  unfold updateJobProgress
  cases hget : jobs.get p.job with
  | none =>
    split_ifs with h
    · rw [h, hget]
      rfl
    · rfl
  | some row =>
    simp only [Dict.get_set]
    split_ifs with h
    · rw [h, hget]
      rfl
    · rfl

omit [DecidableEq ι] in
lemma jobs_loadJob_of_ne (h : j ≠ j') : (s.loadJob j').jobs.get j = s.jobs.get j := by
  unfold loadJob
  cases s.row j' with
  | none => rfl
  | some row => exact Dict.get_set_of_ne h

variable (s j p now flush answered) in
lemma history_process : (s.process p now flush answered).history.get j = s.history.get j ∨
    j = p.job ∧ ∃ row, s.row j = some row ∧
      ((s.process p now flush answered).history.get j).map Stored.spec = some row.spec := by
  have hown : (updateJobProgress (s.loadJob p.job).jobs p.job p.node (some p.currentNumResults)
      now).get p.job = (s.row p.job).map (record p now) := by
    rw [get_updateJobProgress, if_pos rfl, jobs_loadJob]
  simp only [process, hown]
  cases hrow : s.row p.job with
  | none => exact .inl rfl
  | some row =>
    cases flush with
    | false => exact .inl rfl
    | true =>
      by_cases h : j = p.job
      · rw [h]
        exact .inr ⟨rfl, row, hrow, spec_upsertJob_self⟩
      · exact .inl (history_upsertJob_of_ne h)

/-- **A push writes to its own job's row and to no other.** -/
lemma row_process : (s.process p now flush answered).row j =
    if j = p.job then (s.row j).map (record p now) else s.row j := by
  have hjobs : (s.process p now flush answered).jobs.get j =
      if j = p.job then (s.row j).map (record p now) else s.jobs.get j := by
    show (updateJobProgress (s.loadJob p.job).jobs p.job p.node _ now).get j = _
    rw [get_updateJobProgress]
    split_ifs with h
    · rw [h, jobs_loadJob]
    · exact jobs_loadJob_of_ne h
  rw [row, hjobs]
  split_ifs with h
  · cases hrow : s.row j with
    | some row => rfl
    | none =>
      -- no row, and so none in the history either
      have hnone : s.history.get j = none := by
        by_contra hsome
        have := isSome_row_of_history (Option.isSome_iff_ne_none.2 hsome)
        rw [hrow] at this
        cases this
      rcases history_process s j p now flush answered with heq | ⟨-, row, hrow', -⟩
      · rw [heq, hnone]
        rfl
      · rw [hrow] at hrow'
        cases hrow'
  · rcases history_process s j p now flush answered with heq | ⟨heq, -⟩
    · rw [heq]
      rfl
    · exact absurd heq h

lemma reported_process (hrow : (s.row p.job).isSome = true) :
    (s.process p now flush answered).reported p.job i =
      if i = p.node then p.currentNumResults else s.reported p.job i := by
  obtain ⟨row, hrow⟩ := Option.isSome_iff_exists.1 hrow
  have hrow' : (s.process p now flush answered).row p.job = some (record p now row) := by
    rw [row_process, if_pos rfl, hrow]
    rfl
  rw [reported_eq hrow', reported_eq hrow, record, Dict.get_set]
  split_ifs
  · rfl
  · rfl

lemma reported_process_of_ne (h : j ≠ p.job) :
    (s.process p now flush answered).reported j i = s.reported j i :=
  reported_congr (by rw [row_process, if_neg h])

/-- A watcher after a push: it may have been told. -/
lemma watchers_process {w : Watcher κ}
    (h : (s.process p now flush answered).watchers i = some w) :
    ∃ w₀, s.watchers i = some w₀ ∧ w.job = w₀.job ∧
      w.numResultsReceived = w₀.numResultsReceived ∧
      (w.told = true → w₀.told = true ∨
        i = p.node ∧ w₀.job = p.job ∧ w₀.numResultsReceived = p.currentNumResults) := by
  cases answered with
  | false => exact ⟨w, h, rfl, rfl, .inl⟩
  | true =>
    obtain ⟨w₀, hw₀, hw⟩ := Option.map_eq_some_iff.1 h
    refine ⟨w₀, hw₀, ?_⟩
    split_ifs at hw with htold
    · rw [← hw]
      exact ⟨rfl, rfl, fun _ => .inr htold⟩
    · rw [← hw]
      exact ⟨rfl, rfl, .inl⟩

lemma job_watchers_process :
    ((s.process p now flush answered).watchers i).map Watcher.job =
      (s.watchers i).map Watcher.job := by
  cases answered with
  | false => rfl
  | true =>
    show ((s.watchers i).map _).map Watcher.job = _
    rw [Option.map_map]
    congr 1
    funext w
    simp only [Function.comp]
    split_ifs <;> rfl

omit [DecidableEq ι] in
/-- A new head takes the rows as the history has them. -/
lemma row_restart : s.restart.row j = (s.history.get j).map Stored.reload := by
  show (((s.history.filterValues _).map Stored.reload).get j <|>
    (s.history.get j).map Stored.reload) = _
  rw [Dict.get_map, Dict.get_filterValues]
  cases s.history.get j with
  | none => rfl
  | some stored =>
    by_cases hrunning : stored.job.status = .running
    · simp [Option.filter, hrunning]
    · simp [Option.filter, hrunning]

lemma reported_restart : s.restart.reported j i = 0 := by
  rw [reported, row_restart]
  cases s.history.get j <;> rfl

end Cluster

/-! ### The invariant -/

/-- The head has all the counts of those that have left, or have told it. -/
structure Tallied (j : κ) (s : Cluster κ ι) : Prop where
  /-- The history has the job's row when the head does. -/
  agree : ∀ row, s.row j = some row → (s.history.get j).map Stored.spec = some row.spec
  counts : ∀ i w, s.watchers i = some w → w.job = j →
    w.numResultsReceived = producedBy (s.results j) i
  gone : ∀ i, (s.watchers i).map Watcher.job ≠ some j →
    s.reported j i = producedBy (s.results j) i
  told : ∀ i w, s.watchers i = some w → w.job = j → w.told = true →
    s.reported j i = producedBy (s.results j) i
  pushes : ∀ p ∈ s.pushes, p.job = j →
    p.currentNumResults ≤ producedBy (s.results j) p.node ∧ (s.history.get j).isSome = true
  /-- The nodes at work on the job were given to it. -/
  assigned : ∀ i, (s.watchers i).map Watcher.job = some j →
    (j, i) ∈ s.assignments ∧ (s.history.get j).isSome = true
  produced : ∀ i, (j, i) ∉ s.assignments → producedBy (s.results j) i = 0

namespace Tallied

open Cluster

variable {s t : Cluster κ ι} {j : κ} {i : ι}

lemma of_new : Tallied j (Cluster.new : Cluster κ ι) := by
  have hrow : (Cluster.new : Cluster κ ι).row j = none := rfl
  have hwatchers : ∀ i, (Cluster.new : Cluster κ ι).watchers i = none := fun _ => rfl
  refine ⟨?_, ?_, ?_, ?_, ?_, ?_, fun _ _ => List.countP_nil⟩
  · intro row h
    rw [hrow] at h
    cases h
  · intro i w h
    rw [hwatchers] at h
    cases h
  · intro i _
    rw [reported, hrow]
    exact List.countP_nil.symm
  · intro i w h
    rw [hwatchers] at h
    cases h
  · intro p hp
    cases hp
  · intro i h
    rw [hwatchers] at h
    cases h

/-- A change of the rows that leaves the counts alone. -/
lemma of_rows (h : Tallied j s)
    (hagree : ∀ row, t.row j = some row → (t.history.get j).map Stored.spec = some row.spec)
    (hreported : ∀ i, t.reported j i = s.reported j i)
    (hhistory : (s.history.get j).isSome = true → (t.history.get j).isSome = true)
    (hwatchers : t.watchers = s.watchers) (hpushes : ∀ p ∈ t.pushes, p ∈ s.pushes)
    (hassignments : t.assignments = s.assignments) (hresults : t.results = s.results) :
    Tallied j t where
  agree := hagree
  counts i w := by
    rw [hwatchers, hresults]
    exact h.counts i w
  gone i := by
    rw [hwatchers, hresults, hreported]
    exact h.gone i
  told i w := by
    rw [hwatchers, hresults, hreported]
    exact h.told i w
  pushes p hp hj := by
    obtain ⟨hle, hsome⟩ := h.pushes p (hpushes p hp) hj
    rw [hresults]
    exact ⟨hle, hhistory hsome⟩
  assigned i := by
    rw [hwatchers, hassignments]
    exact fun hi => ⟨(h.assigned i hi).1, hhistory (h.assigned i hi).2⟩
  produced i := by
    rw [hassignments, hresults]
    exact h.produced i

/-- A row is written that has the counts of the one before. -/
lemma setRow (h : Tallied j s) {j' : κ} {row : JobRow κ ι}
    (hcounts : j = j' → ∀ i, ((row.assignedNodes.get i).map Progress.currentNumResults).getD 0 =
      s.reported j i) :
    Tallied j { s with jobs := s.jobs.set j' row, history := upsertJob s.history j' row } := by
  have hrow : Cluster.row { s with
      jobs := s.jobs.set j' row, history := upsertJob s.history j' row } j =
      if j = j' then some row else s.row j :=
    row_of_set rfl fun k hk => history_upsertJob_of_ne hk
  by_cases hj : j = j'
  · subst hj
    rw [if_pos rfl] at hrow
    refine h.of_rows ?_ ?_ ?_ rfl (fun _ hp => hp) rfl rfl
    · intro row' hrow'
      rw [hrow] at hrow'
      rw [← Option.some.inj hrow']
      exact spec_upsertJob_self
    · intro i
      rw [reported_eq hrow, hcounts rfl]
    · intro _
      show ((upsertJob s.history j row).get j).isSome = true
      rw [upsertJob, Dict.get_set_self]
      rfl
  · rw [if_neg hj] at hrow
    have hhistory : (upsertJob s.history j' row).get j = s.history.get j :=
      history_upsertJob_of_ne hj
    refine h.of_rows ?_ ?_ ?_ rfl (fun _ hp => hp) rfl rfl
    · intro row' hrow'
      show ((upsertJob s.history j' row).get j).map Stored.spec = _
      rw [hhistory]
      exact h.agree row' (hrow ▸ hrow')
    · exact fun i => reported_congr (by rw [hrow])
    · intro hsome
      show ((upsertJob s.history j' row).get j).isSome = true
      rwa [hhistory]

lemma loadJob (h : Tallied j s) (j' : κ) : Tallied j (s.loadJob j') := by
  have hframe : (s.loadJob j').history = s.history ∧ (s.loadJob j').watchers = s.watchers ∧
      (s.loadJob j').pushes = s.pushes ∧ (s.loadJob j').assignments = s.assignments ∧
      (s.loadJob j').results = s.results := by
    unfold Cluster.loadJob
    cases s.row j' <;> exact ⟨rfl, rfl, rfl, rfl, rfl⟩
  obtain ⟨hhistory, hwatchers, hpushes, hassignments, hresults⟩ := hframe
  refine h.of_rows ?_ (fun i => reported_congr (by rw [row_loadJob])) ?_ hwatchers ?_ hassignments
    hresults
  · rw [row_loadJob, hhistory]
    exact h.agree
  · rw [hhistory]
    exact id
  · rw [hpushes]
    exact fun _ hp => hp

lemma updateJob (h : Tallied j s) (j' : κ) (u : Updates) (now : ℚ) :
    Tallied j (s.updateJob j' u now) := by
  unfold Cluster.updateJob
  cases hrow : s.row j' with
  | none => exact h
  | some row =>
    refine h.setRow ?_
    rintro rfl i
    rw [reported_eq hrow]

/-- **A push of the job's that is not late.** -/
lemma process (h : Tallied j s) {p : Push κ ι} (hp : p ∈ s.pushes) (now : ℚ)
    (flush answered : Bool) (hlate : p.job = j → s.reported j p.node ≤ p.currentNumResults) :
    Tallied j (s.process p now flush answered) := by
  have hrows : ∀ row, (s.process p now flush answered).row j = some row →
      ((s.process p now flush answered).history.get j).map Stored.spec = some row.spec := by
    intro row hrow
    obtain ⟨row₀, hrow₀, hspec⟩ : ∃ row₀, s.row j = some row₀ ∧ row₀.spec = row.spec := by
      rw [row_process] at hrow
      split_ifs at hrow
      · obtain ⟨row₀, hrow₀, rfl⟩ := Option.map_eq_some_iff.1 hrow
        exact ⟨row₀, hrow₀, rfl⟩
      · exact ⟨row, hrow, rfl⟩
    rw [← hspec]
    rcases history_process s j p now flush answered with heq | ⟨-, row₁, hrow₁, heq⟩
    · rw [heq]
      exact h.agree row₀ hrow₀
    · obtain rfl : row₁ = row₀ := Option.some.inj (hrow₁.symm.trans hrow₀)
      exact heq
  have hsome : (s.history.get j).isSome = true →
      ((s.process p now flush answered).history.get j).isSome = true := by
    intro hj
    rcases history_process s j p now flush answered with heq | ⟨-, row, -, heq⟩
    · rwa [heq]
    · obtain ⟨stored, hstored, -⟩ := Option.map_eq_some_iff.1 heq
      rw [hstored]
      rfl
  -- of the node whose push this is, the head gets the count that it has, or a later one
  have hreported : p.job = j → ∀ i, (s.process p now flush answered).reported j i =
      if i = p.node then p.currentNumResults else s.reported j i := by
    rintro rfl i
    exact reported_process (isSome_row_of_history (h.pushes p hp rfl).2)
  have hright : ∀ i, s.reported j i = producedBy (s.results j) i →
      (s.process p now flush answered).reported j i = producedBy (s.results j) i := by
    intro i hi
    by_cases hj : p.job = j
    · rw [hreported hj]
      split_ifs with hnode
      · have hle := (h.pushes p hp hj).1
        have hge := hlate hj
        rw [← hnode] at hle hge
        omega
      · exact hi
    · rw [reported_process_of_ne (Ne.symm hj), hi]
  refine ⟨hrows, ?_, ?_, ?_, ?_, ?_, h.produced⟩
  · intro i w hw hj
    obtain ⟨w₀, hw₀, hjob, hnum, -⟩ := watchers_process hw
    rw [hnum]
    exact h.counts i w₀ hw₀ (hjob ▸ hj)
  · intro i hi
    rw [job_watchers_process] at hi
    exact hright i (h.gone i hi)
  · intro i w hw hj htold
    obtain ⟨w₀, hw₀, hjob, -, htold₀⟩ := watchers_process hw
    rw [hjob] at hj
    rcases htold₀ htold with htold₀ | ⟨hnode, hpush, hcount⟩
    · exact hright i (h.told i w₀ hw₀ hj htold₀)
    · rw [hreported (hpush.symm.trans hj), if_pos hnode, ← hcount]
      exact h.counts i w₀ hw₀ hj
  · intro q hq hj
    obtain ⟨hle, hhistory⟩ := h.pushes q hq hj
    exact ⟨hle, hsome hhistory⟩
  · intro i hi
    rw [job_watchers_process] at hi
    obtain ⟨hmem, hhistory⟩ := h.assigned i hi
    exact ⟨hmem, hsome hhistory⟩

/-- A result of the job's, or of another's. -/
lemma produce (h : Tallied j s) {w : Watcher κ} (hw : s.watchers i = some w)
    (hframe : t.jobs = s.jobs ∧ t.history = s.history ∧ t.pushes = s.pushes ∧
      t.assignments = s.assignments)
    (hat : t.watchers i =
      some { w with numResultsReceived := w.numResultsReceived + 1, told := false })
    (hne : ∀ i', i' ≠ i → t.watchers i' = s.watchers i')
    (hresults : ∀ i', producedBy (t.results j) i' =
      producedBy (s.results j) i' + if w.job = j ∧ i = i' then 1 else 0) : Tallied j t := by
  obtain ⟨hjobs, hhistory, hpushes, hassignments⟩ := hframe
  have hrow : t.row j = s.row j := by rw [row, row, hjobs, hhistory]
  have hreported : ∀ i', t.reported j i' = s.reported j i' :=
    fun i' => reported_congr (by rw [hrow])
  have hat_job : ∀ i', (t.watchers i').map Watcher.job = (s.watchers i').map Watcher.job := by
    intro i'
    by_cases hi : i' = i
    · rw [hi, hat, hw]
      rfl
    · rw [hne i' hi]
  -- a node that is not at work on the job has produced nothing just now
  have hother : ∀ i', (s.watchers i').map Watcher.job ≠ some j → ¬(w.job = j ∧ i = i') := by
    rintro i' hi' ⟨rfl, rfl⟩
    rw [hw] at hi'
    exact hi' rfl
  refine ⟨?_, ?_, ?_, ?_, ?_, ?_, ?_⟩
  · rw [hrow, hhistory]
    exact h.agree
  · intro i' w' hw' hj
    rw [hresults]
    by_cases hi : i' = i
    · subst hi
      rw [hat] at hw'
      obtain rfl := Option.some.inj hw'
      have hcount := h.counts i' w hw hj
      rw [if_pos ⟨hj, rfl⟩]
      show w.numResultsReceived + 1 = _
      omega
    · rw [hne i' hi] at hw'
      rw [if_neg fun hboth => hi hboth.2.symm]
      exact h.counts i' w' hw' hj
  · intro i' hi'
    rw [hat_job] at hi'
    rw [hreported, hresults, if_neg (hother i' hi')]
    exact h.gone i' hi'
  · intro i' w' hw' hj htold
    by_cases hi : i' = i
    · subst hi
      rw [hat] at hw'
      obtain rfl := Option.some.inj hw'
      cases htold
    · rw [hne i' hi] at hw'
      rw [hreported, hresults, if_neg fun hboth => hi hboth.2.symm]
      exact h.told i' w' hw' hj htold
  · intro p hp hj
    rw [hpushes] at hp
    obtain ⟨hle, hsome⟩ := h.pushes p hp hj
    rw [hresults, hhistory]
    exact ⟨by omega, hsome⟩
  · intro i' hi'
    rw [hat_job] at hi'
    rw [hassignments, hhistory]
    exact h.assigned i' hi'
  · intro i' hi'
    rw [hassignments] at hi'
    have hnot : ¬(w.job = j ∧ i = i') := by
      rintro ⟨rfl, rfl⟩
      exact hi' (h.assigned i (by rw [hw]; rfl)).1
    rw [hresults, if_neg hnot]
    exact h.produced i' hi'

/-- A node comes to its job with nothing produced. -/
lemma join (h : Tallied j s) {j' : κ} (hidle : s.watchers i = none)
    (hnew : (j', i) ∉ s.assignments) (hsome : (s.history.get j').isSome = true)
    (hframe : t.jobs = s.jobs ∧ t.history = s.history ∧ t.pushes = s.pushes ∧
      t.results = s.results) (hassignments : t.assignments = s.assignments ++ [(j', i)])
    (hat : t.watchers i = some ⟨j', 0, false⟩)
    (hne : ∀ i', i' ≠ i → t.watchers i' = s.watchers i') : Tallied j t := by
  obtain ⟨hjobs, hhistory, hpushes, hresults⟩ := hframe
  have hrow : t.row j = s.row j := by rw [row, row, hjobs, hhistory]
  have hreported : ∀ i', t.reported j i' = s.reported j i' :=
    fun i' => reported_congr (by rw [hrow])
  refine ⟨?_, ?_, ?_, ?_, ?_, ?_, ?_⟩
  · rw [hrow, hhistory]
    exact h.agree
  · intro i' w hw hj
    rw [hresults]
    by_cases hi : i' = i
    · subst hi
      rw [hat] at hw
      obtain rfl := Option.some.inj hw
      obtain rfl : j' = j := hj
      exact (h.produced i' hnew).symm
    · rw [hne i' hi] at hw
      exact h.counts i' w hw hj
  · intro i' hi'
    rw [hreported, hresults]
    by_cases hi : i' = i
    · subst hi
      exact h.gone i' (by rw [hidle]; simp)
    · rw [hne i' hi] at hi'
      exact h.gone i' hi'
  · intro i' w hw hj htold
    by_cases hi : i' = i
    · subst hi
      rw [hat] at hw
      obtain rfl := Option.some.inj hw
      cases htold
    · rw [hne i' hi] at hw
      rw [hreported, hresults]
      exact h.told i' w hw hj htold
  · rw [hpushes, hresults, hhistory]
    exact h.pushes
  · intro i' hi'
    rw [hassignments, hhistory]
    by_cases hi : i' = i
    · subst hi
      rw [hat] at hi'
      obtain rfl : j' = j := Option.some.inj hi'
      exact ⟨List.mem_append_right _ (List.mem_singleton.2 rfl), hsome⟩
    · rw [hne i' hi] at hi'
      obtain ⟨hmem, hsome'⟩ := h.assigned i' hi'
      exact ⟨List.mem_append_left _ hmem, hsome'⟩
  · intro i' hi'
    rw [hassignments] at hi'
    rw [hresults]
    exact h.produced i' fun hmem => hi' (List.mem_append_left _ hmem)

/-- A node leaves its job, of which the head has its whole count. -/
lemma leave (h : Tallied j s)
    (htold : ∀ w, s.watchers i = some w → w.job = j → s.reported j i = w.numResultsReceived)
    (hframe : t.jobs = s.jobs ∧ t.history = s.history ∧ t.pushes = s.pushes ∧
      t.assignments = s.assignments ∧ t.results = s.results)
    (hat : t.watchers i = none) (hne : ∀ i', i' ≠ i → t.watchers i' = s.watchers i') :
    Tallied j t := by
  obtain ⟨hjobs, hhistory, hpushes, hassignments, hresults⟩ := hframe
  have hrow : t.row j = s.row j := by rw [row, row, hjobs, hhistory]
  have hreported : ∀ i', t.reported j i' = s.reported j i' :=
    fun i' => reported_congr (by rw [hrow])
  have hstays : ∀ i' w, t.watchers i' = some w → s.watchers i' = some w := by
    intro i' w hw
    by_cases hi : i' = i
    · rw [hi, hat] at hw
      cases hw
    · rwa [hne i' hi] at hw
  refine ⟨?_, ?_, ?_, ?_, ?_, ?_, ?_⟩
  · rw [hrow, hhistory]
    exact h.agree
  · rw [hresults]
    exact fun i' w hw => h.counts i' w (hstays i' w hw)
  · intro i' hi'
    rw [hreported, hresults]
    by_cases hi : i' = i
    · subst hi
      by_cases hon : (s.watchers i').map Watcher.job = some j
      · obtain ⟨w, hw, hj⟩ := Option.map_eq_some_iff.1 hon
        exact (htold w hw hj).trans (h.counts i' w hw hj)
      · exact h.gone i' hon
    · rw [hne i' hi] at hi'
      exact h.gone i' hi'
  · intro i' w hw
    rw [hreported, hresults]
    exact h.told i' w (hstays i' w hw)
  · rw [hpushes, hresults, hhistory]
    exact h.pushes
  · intro i' hi'
    obtain ⟨w, hw, hj⟩ := Option.map_eq_some_iff.1 hi'
    rw [hassignments, hhistory]
    exact h.assigned i' (by rw [hstays i' w hw, ← hj]; rfl)
  · rw [hassignments, hresults]
    exact h.produced

/-- **A new head, while all who have produced anything are at work still.** -/
lemma restart (h : Tallied j s)
    (hstay : ∀ p ∈ s.results j, (s.watchers p.1).map Watcher.job = some j) :
    Tallied j s.restart := by
  have hjobs : ∀ i, (s.restart.watchers i).map Watcher.job = (s.watchers i).map Watcher.job := by
    intro i
    show ((s.watchers i).map _).map Watcher.job = _
    rw [Option.map_map]
    rfl
  refine ⟨?_, ?_, ?_, ?_, h.pushes, ?_, h.produced⟩
  · intro row hrow
    rw [row_restart] at hrow
    obtain ⟨stored, hstored, rfl⟩ := Option.map_eq_some_iff.1 hrow
    show (s.history.get j).map Stored.spec = _
    rw [hstored]
    rfl
  · intro i w hw hj
    obtain ⟨w₀, hw₀, rfl⟩ := Option.map_eq_some_iff.1 hw
    exact h.counts i w₀ hw₀ hj
  · intro i hi
    rw [hjobs] at hi
    rw [reported_restart]
    refine (producedBy_eq_zero fun p hp heq => hi ?_).symm
    rw [← heq]
    exact hstay p hp
  · intro i w hw hj htold
    obtain ⟨w₀, hw₀, rfl⟩ := Option.map_eq_some_iff.1 hw
    cases htold
  · intro i hi
    rw [hjobs] at hi
    exact h.assigned i hi

/-- **No step that is kept spoils a count.** -/
theorem step {a : Event κ ι} (h : Tallied j s) (hkept : s.Kept j a) (hstep : s.step a = some t) :
    Tallied j t := by
  cases a with
  | admission j' spec startedAt =>
    simp only [Cluster.step] at hstep
    split_ifs at hstep with hrow
    cases hstep
    refine h.setRow ?_
    rintro rfl i
    have hnone : s.row j = none := by simpa using hrow
    rw [reported, hnone]
    rfl
  | join i j' =>
    simp only [Cluster.step] at hstep
    split_ifs at hstep with hjoin
    cases hstep
    exact h.join hjoin.1 hjoin.2.1 hjoin.2.2 ⟨rfl, rfl, rfl, rfl⟩ rfl (Function.update_self _ _ _)
      fun _ hi => Function.update_of_ne hi _ _
  | produce i k =>
    simp only [Cluster.step] at hstep
    cases hw : s.watchers i with
    | none =>
      rw [hw] at hstep
      cases hstep
    | some w =>
      rw [hw] at hstep
      cases hstep
      refine h.produce hw ⟨rfl, rfl, rfl, rfl⟩ (Function.update_self _ _ _)
        (fun _ hi => Function.update_of_ne hi _ _) fun i' => ?_
      by_cases hj : w.job = j
      · subst hj
        show producedBy (Function.update s.results w.job _ w.job) i' = _
        rw [Function.update_self, producedBy_append]
        simp
      · show producedBy (Function.update s.results w.job _ j) i' = _
        rw [Function.update_of_ne (Ne.symm hj), if_neg fun hboth => hj hboth.1]
        rfl
  | push i =>
    simp only [Cluster.step] at hstep
    cases hw : s.watchers i with
    | none =>
      rw [hw] at hstep
      cases hstep
    | some w =>
      rw [hw] at hstep
      cases hstep
      refine ⟨h.agree, h.counts, h.gone, h.told, ?_, h.assigned, h.produced⟩
      intro p hp hj
      rcases List.mem_append.1 hp with hp | hp
      · exact h.pushes p hp hj
      · obtain rfl := List.mem_singleton.1 hp
        exact ⟨(h.counts i w hw hj).le, (h.assigned i (by rw [hw, ← hj]; rfl)).2⟩
  | lose n =>
    simp only [Cluster.step] at hstep
    cases htake : takeAt s.pushes n with
    | none =>
      rw [htake] at hstep
      cases hstep
    | some e =>
      rw [htake] at hstep
      cases hstep
      exact h.of_rows h.agree (fun _ => rfl) id rfl (fun _ hp => mem_of_mem_rest htake hp) rfl rfl
  | deliver n now flush answered =>
    simp only [Cluster.step] at hstep
    cases htake : takeAt s.pushes n with
    | none =>
      rw [htake] at hstep
      cases hstep
    | some e =>
      obtain ⟨p, rest⟩ := e
      rw [htake] at hstep
      cases hstep
      have hprocess := h.process (mem_of_takeAt htake) now flush answered
        fun hj => by
          rw [← hj]
          exact hj ▸ hkept (p, rest) htake hj
      exact hprocess.of_rows hprocess.agree (fun _ => rfl) id rfl
        (fun _ hp => mem_of_mem_rest htake hp) rfl rfl
  | leave i =>
    simp only [Cluster.step] at hstep
    split_ifs at hstep
    cases hstep
    exact h.leave (fun w hw hj => hkept w hw hj) ⟨rfl, rfl, rfl, rfl, rfl⟩
      (Function.update_self _ _ _) fun _ hi => Function.update_of_ne hi _ _
  | updateJob j' u now =>
    cases hstep
    exact h.updateJob j' u now
  | loadJob j' =>
    cases hstep
    exact h.loadJob j'
  | restart =>
    cases hstep
    exact h.restart hkept

/-- What adds up. -/
lemma counted (h : Tallied j s) : s.Counted j := by
  intro stored hstored hproduced htold
  have hright : ∀ i, s.reported j i = producedBy (s.results j) i := by
    intro i
    by_cases hi : (s.watchers i).map Watcher.job = some j
    · obtain ⟨w, hw, hj⟩ := Option.map_eq_some_iff.1 hi
      exact h.told i w hw hj (htold i w hw hj)
    · exact h.gone i hi
  obtain ⟨row, hrow⟩ := Option.isSome_iff_exists.1
    (isSome_row_of_history (s := s) (j := j) (by rw [hstored]; rfl))
  have hspec : stored.spec = row.spec := by
    have := h.agree row hrow
    rw [hstored] at this
    exact Option.some.inj this
  have htotal : row.nResults = (s.results j).length :=
    sum_items fun i => by rw [← hright i, reported_eq hrow]
  have hlength : (s.results j).length = stored.spec.nInputs := by
    have := hproduced.length_eq
    rwa [List.length_map, List.length_range] at this
  rw [jobView, hrow, Option.map_some, htotal, hlength, ← hspec]

end Tallied

namespace Cluster

variable {s : Cluster κ ι} {j : κ}

variable (κ ι) in
lemma invariant_tallied (j : κ) :
    (sys (κ := κ) (ι := ι)).Invariant (fun s a => s.Kept j a) (Tallied j) where
  init s hs := by
    obtain rfl : s = Cluster.new := hs
    exact Tallied.of_new
  step _ _ _ h hkept hstep := h.step hkept hstep

end Cluster

/-! ### Runs -/

section Runs

/-- Two inputs. -/
def twoInputs : JobSpec Unit := ⟨2, true, none⟩

/-- The first node produces a result, tells the head, and leaves. -/
def firstLeaves : List (Event Unit Bool) :=
  [.admission () twoInputs none, .join true (), .join false (), .produce true 0, .push true,
    .deliver 0 0 true true, .leave true]

/-- The second node produces the other result, and tells the head. -/
def secondTells : List (Event Unit Bool) := [.produce false 1, .push false, .deliver 0 1 false true]

/-- Nothing else happens. -/
def quietJob : Cluster Unit Bool :=
  (((sys (κ := Unit) (ι := Bool)).guarded fun s a => s.Kept () a).exec Cluster.new
    (firstLeaves ++ secondTells)).get (by decide +kernel)

/-- A new head comes up in between. -/
def restartedJob : Cluster Unit Bool :=
  (((sys (κ := Unit) (ι := Bool)).guarded System.always).exec Cluster.new
    (firstLeaves ++ .restart :: secondTells)).get (by decide +kernel)

end Runs

end Burla.Reports
