/-
A job is admitted at most once, and everybody who asks again gets the first answer.

The history holds the rows of the admitted jobs, in what is committed and in what the connection
sees (`Recorded`), and so a request that finds no answer there is the first one; this is what an
admission that fails half way spoils, because its job's row stays behind.

The main result is `Head.honest_of_clean`.
-/
import Burla.Admission.Head

namespace Burla.Admission

open Burla.ClusterState (NodeRow admitNodes reserve get_reserve)
open Burla.Jobs (JobStatus)

variable {κ ι : Type*}

/-! ### The claim and the condition -/

/-- The job of an admission. -/
def Note.admittedJob : Note κ ι → Option κ
  | admitted j .. => some j
  | replayed .. | refused .. => none

/-- The job has been admitted, and answered so. -/
def Admitted (notes : List (Note κ ι)) (j : κ) (response : StartResponse ι) : Prop :=
  ∃ now before after, Note.admitted j response now before after ∈ notes

/-- What the notes of a run are to say. -/
structure Honest [DecidableEq ι] (notes : List (Note κ ι)) : Prop where
  /-- A job is admitted at most once. -/
  once : (notes.filterMap Note.admittedJob).Nodup
  /-- Who asks again gets the answer of the admission, and changes no node. -/
  replays : ∀ j response before after, Note.replayed j response before after ∈ notes →
    Admitted notes j response ∧ after = before
  /-- The selected nodes were free, and are reserved for the job. -/
  reserved : ∀ j response now before after, Note.admitted j response now before after ∈ notes →
    ∀ name ∈ response.selected, ∃ row, before.get name = some row ∧ row.Free now ∧
      after.get name = some { row with reservedForJob := some j }
  /-- A refusal changes nothing. -/
  untouched : ∀ j nodes nodes' jobs jobs', Note.refused j nodes nodes' jobs jobs' ∈ notes →
    nodes' = nodes ∧ jobs' = jobs

namespace Head

/-- An admission whose write to the history fails leaves no row behind. -/
def Clean (_ : Head κ ι) : HeadEvent κ ι → Prop
  | .admission _ _ outcome => outcome.Clean = true
  | _ => True

instance (s : Head κ ι) : (a : HeadEvent κ ι) → Decidable (s.Clean a)
  | .admission _ _ outcome => inferInstanceAs (Decidable (outcome.Clean = true))
  | .tick _ | .updateNode .. | .removeNode _ | .updateJob .. | .loadJob _ | .pause | .resume
  | .request _ | .abandon _ | .restart => .isTrue trivial

end Head

/-! ### The invariant -/

section Notes

variable {notes notes' : List (Note κ ι)} {j : κ} {response : StartResponse ι}

lemma Admitted.append (h : Admitted notes j response) : Admitted (notes ++ notes') j response := by
  obtain ⟨now, before, after, hmem⟩ := h
  exact ⟨now, before, after, List.mem_append_left _ hmem⟩

/-- Notes that admit nobody. -/
lemma admitted_append_iff (h : ∀ n ∈ notes', n.admittedJob = none) :
    Admitted (notes ++ notes') j response ↔ Admitted notes j response := by
  refine ⟨fun ⟨now, before, after, hmem⟩ => ?_, Admitted.append⟩
  rcases List.mem_append.1 hmem with hmem | hmem
  · exact ⟨now, before, after, hmem⟩
  · cases h _ hmem

/-- The row is that of an admitted job. -/
def Known (notes : List (Note κ ι)) (j : κ) (doc : JobDoc ι) : Prop :=
  ∃ response, doc.startResponse = some response ∧ Admitted notes j response

end Notes

variable [DecidableEq κ]

/-- The rows of the jobs are those of the admitted ones. -/
structure Recorded (notes : List (Note κ ι)) (jobs : Dict κ (JobDoc ι)) : Prop where
  known : ∀ j doc, jobs.get j = some doc → Known notes j doc
  there : ∀ j response, Admitted notes j response → (jobs.get j).isSome = true

/-- The invariant. -/
structure Ledger [DecidableEq ι] (s : Head κ ι) : Prop where
  honest : Honest s.notes
  live : ∀ j doc, s.jobs.get j = some doc → Known s.notes j doc
  committed : Recorded s.notes s.history.committed.jobs
  working : Recorded s.notes s.history.working.jobs
  /-- A waiting request is for a job that is live or has not been admitted. -/
  waiting : ∀ j ∈ s.pending, s.jobs.get j = none → ∀ response, ¬Admitted s.notes j response

section Records

variable {notes notes' : List (Note κ ι)} {jobs : Dict κ (JobDoc ι)} {j : κ} {doc : JobDoc ι}

lemma Recorded.set (h : Recorded notes jobs) (hdoc : Known notes j doc) :
    Recorded notes (jobs.set j doc) where
  known j' doc' hget := by
    rw [Dict.get_set] at hget
    split_ifs at hget with heq
    · rw [heq, ← Option.some.inj hget]
      exact hdoc
    · exact h.known j' doc' hget
  there j' response hadmitted := by
    rw [Dict.get_set]
    split_ifs
    · rfl
    · exact h.there j' response hadmitted

/-- What has not been admitted has no row. -/
lemma Recorded.get_eq_none (h : Recorded notes jobs)
    (hj : ∀ response, ¬Admitted notes j response) : jobs.get j = none := by
  cases hget : jobs.get j with
  | none => rfl
  | some doc =>
    obtain ⟨response, -, hadmitted⟩ := h.known j doc hget
    exact absurd hadmitted (hj response)

/-- Further notes, that admit nobody. -/
lemma Recorded.append (h : Recorded notes jobs) (hno : ∀ n ∈ notes', n.admittedJob = none) :
    Recorded (notes ++ notes') jobs where
  known j doc hget := by
    obtain ⟨response, hresponse, hadmitted⟩ := h.known j doc hget
    exact ⟨response, hresponse, hadmitted.append⟩
  there j response hadmitted := h.there j response ((admitted_append_iff hno).1 hadmitted)

omit [DecidableEq κ] in
/-- The writes of nodes' rows leave the jobs' rows alone. -/
lemma jobs_nodeWrites [DecidableEq ι] {nodes : Dict ι (NodeRow κ)} {names : List ι} :
    ∀ w ∈ Head.nodeWrites nodes names, ∀ rows : Rows κ ι, (w rows).jobs = rows.jobs := by
  intro w hw rows
  obtain ⟨name, -, hname⟩ := List.mem_filterMap.1 hw
  obtain ⟨row, -, rfl⟩ := Option.map_eq_some_iff.1 hname
  rfl

lemma recorded_write {history : Store (Rows κ ι)} {ws : List (Rows κ ι → Rows κ ι)}
    {o : Store.Outcome} (hc : Recorded notes history.committed.jobs)
    (hw : Recorded notes history.working.jobs)
    (hws : ∀ w ∈ ws, ∀ rows : Rows κ ι, Recorded notes rows.jobs → Recorded notes (w rows).jobs) :
    Recorded notes (history.write ws o).committed.jobs ∧
      Recorded notes (history.write ws o).working.jobs :=
  Store.write_induction (P := fun rows : Rows κ ι => Recorded notes rows.jobs) hc hw hws

end Records

namespace Ledger

variable {s : Head κ ι} {j : κ}

/-! ### Looking a job up -/

lemma loadJob_eq_of_live (h : s.jobs.get j ≠ none) : s.loadJob j = s := by
  unfold Head.loadJob
  split
  · rename_i hnone _
    exact absurd hnone h
  · rfl

lemma loadJob_eq_of_not_stored (h : s.history.working.jobs.get j = none) : s.loadJob j = s := by
  unfold Head.loadJob
  split
  · rename_i stored _ hstored
    rw [h] at hstored
    cases hstored
  · rfl

/-- Loading a job changes the live jobs only. -/
lemma loadJob_frame : (s.loadJob j).nodes = s.nodes ∧ (s.loadJob j).history = s.history ∧
    (s.loadJob j).pending = s.pending ∧ (s.loadJob j).notes = s.notes := by
  unfold Head.loadJob
  split <;> exact ⟨rfl, rfl, rfl, rfl⟩

/-- A job that is in the history is live once it has been looked up. -/
lemma isSome_loadJob (h : (s.history.working.jobs.get j).isSome = true) :
    ((s.loadJob j).jobs.get j).isSome = true := by
  unfold Head.loadJob
  split
  · rw [Dict.get_set_self]
    rfl
  · rename_i hcases
    obtain ⟨stored, hstored⟩ := Option.isSome_iff_exists.1 h
    cases hlive : s.jobs.get j with
    | none => exact absurd hstored (hcases stored hlive)
    | some doc => rfl

/-! ### The steps -/

variable [DecidableEq ι]

/-- A change that leaves the jobs, the history, the waiting requests and the notes alone. -/
lemma of_eq {t : Head κ ι} (h : Ledger s) (hjobs : t.jobs = s.jobs)
    (hhistory : t.history = s.history) (hpending : t.pending = s.pending)
    (hnotes : t.notes = s.notes) : Ledger t := by
  obtain ⟨honest, live, committed, working, waiting⟩ := h
  refine ⟨?_, ?_, ?_, ?_, ?_⟩
  · rwa [hnotes]
  · rwa [hnotes, hjobs]
  · rwa [hnotes, hhistory]
  · rwa [hnotes, hhistory]
  · rwa [hnotes, hjobs, hpending]

/-- Fewer requests wait. -/
lemma of_rest (h : Ledger s) {n : ℕ} {rest : List κ} (htake : takeAt s.pending n = some (j, rest)) :
    Ledger { s with pending := rest } where
  honest := h.honest
  live := h.live
  committed := h.committed
  working := h.working
  waiting j' hj' := h.waiting j' (mem_of_mem_rest htake hj')

lemma loadJob (h : Ledger s) (j : κ) : Ledger (s.loadJob j) := by
  obtain ⟨-, hhistory, hpending, hnotes⟩ := loadJob_frame (s := s) (j := j)
  have hjobs : ∀ j' doc, (s.loadJob j).jobs.get j' = some doc →
      s.jobs.get j' = some doc ∨ s.history.working.jobs.get j' = some doc := by
    intro j' doc hget
    unfold Head.loadJob at hget
    split at hget
    · rename_i stored _ hstored
      rw [Dict.get_set] at hget
      split_ifs at hget with heq
      · right
        rw [heq, hstored, hget]
      · exact .inl hget
    · exact .inl hget
  have hmono : ∀ j', (s.loadJob j).jobs.get j' = none → s.jobs.get j' = none := by
    intro j' hnone
    unfold Head.loadJob at hnone
    split at hnone
    · rw [Dict.get_set] at hnone
      split_ifs at hnone
      exact hnone
    · exact hnone
  refine ⟨hnotes ▸ h.honest, ?_, ?_, ?_, ?_⟩
  · intro j' doc hget
    rw [hnotes]
    rcases hjobs j' doc hget with hlive | hstored
    · exact h.live j' doc hlive
    · exact h.working.known j' doc hstored
  · rw [hnotes, hhistory]
    exact h.committed
  · rw [hnotes, hhistory]
    exact h.working
  · rw [hnotes, hpending]
    exact fun j' hj' hnone => h.waiting j' hj' (hmono j' hnone)

/-- Whatever is written of nodes, and of jobs that are known. -/
lemma of_write {t : Head κ ι} (h : Ledger s) {ws : List (Rows κ ι → Rows κ ι)} {o : Store.Outcome}
    (hhistory : t.history = s.history.write ws o) (hnotes : t.notes = s.notes)
    (hpending : t.pending = s.pending)
    (hlive : ∀ j doc, t.jobs.get j = some doc → Known s.notes j doc)
    (hmono : ∀ j, t.jobs.get j = none → s.jobs.get j = none)
    (hws : ∀ w ∈ ws, ∀ rows : Rows κ ι,
      Recorded s.notes rows.jobs → Recorded s.notes (w rows).jobs) : Ledger t := by
  obtain ⟨hc, hw⟩ := recorded_write (o := o) h.committed h.working hws
  refine ⟨hnotes ▸ h.honest, ?_, ?_, ?_, ?_⟩
  · rwa [hnotes]
  · rwa [hnotes, hhistory]
  · rwa [hnotes, hhistory]
  · rw [hnotes, hpending]
    exact fun j hj hnone => h.waiting j hj (hmono j hnone)

lemma recorded_nodeWrites {notes : List (Note κ ι)} {nodes : Dict ι (NodeRow κ)} {names : List ι} :
    ∀ w ∈ Head.nodeWrites nodes names, ∀ rows : Rows κ ι,
      Recorded notes rows.jobs → Recorded notes (w rows).jobs := by
  intro w hw rows hrows
  rwa [jobs_nodeWrites w hw rows]

lemma updateNode (h : Ledger s) (name : ι) (u : ClusterState.NodeUpdates κ)
    (outcome : Option Store.Outcome) : Ledger (s.updateNode name u outcome) := by
  cases outcome with
  | none => exact h.of_eq rfl rfl rfl rfl
  | some outcome => exact h.of_write rfl rfl rfl h.live (fun _ hnone => hnone) recorded_nodeWrites

lemma updateJob (h : Ledger s) (j : κ) (status : JobStatus) (outcome : Store.Outcome) :
    Ledger (s.updateJob j status outcome) := by
  unfold Head.updateJob
  have hload := h.loadJob j
  obtain ⟨-, hhistory, hpending, hnotes⟩ := loadJob_frame (s := s) (j := j)
  cases hget : (s.loadJob j).jobs.get j with
  | none => exact hload
  | some doc =>
    have hdoc : Known (s.loadJob j).notes j { doc with status } := hload.live j doc hget
    refine hload.of_write (by rw [hhistory]) rfl rfl ?_ ?_ ?_
    · intro j' doc' hget'
      simp only [Dict.get_set] at hget'
      split_ifs at hget' with heq
      · rw [heq, ← Option.some.inj hget']
        exact hdoc
      · exact hload.live j' doc' hget'
    · intro j' hnone
      simp only [Dict.get_set] at hnone
      split_ifs at hnone
      exact hnone
    · intro w hw rows hrows
      rcases List.mem_cons.1 hw with rfl | hw
      · exact hrows.set hdoc
      · exact recorded_nodeWrites w hw rows hrows

lemma restart (h : Ledger s) : Ledger s.restart where
  honest := h.honest
  live j doc hget := by
    rw [Head.restart, Dict.get_filterValues] at hget
    exact h.committed.known j doc (Option.filter_eq_some_iff.1 hget).1
  committed := h.committed
  working := h.committed
  waiting _ hj := by cases hj

/-! ### Answers and refusals -/

/-- Notes that admit nobody and say what is so. -/
lemma append {t : Head κ ι} (h : Ledger s) (more : List (Note κ ι))
    (hno : ∀ n ∈ more, n.admittedJob = none)
    (hreplays : ∀ j response before after, Note.replayed j response before after ∈ more →
      Admitted s.notes j response ∧ after = before)
    (huntouched : ∀ j nodes nodes' jobs jobs', Note.refused j nodes nodes' jobs jobs' ∈ more →
      nodes' = nodes ∧ jobs' = jobs)
    (hjobs : t.jobs = s.jobs) (hhistory : t.history = s.history)
    (hnotes : t.notes = s.notes ++ more) (hwaiting : ∀ j ∈ t.pending, j ∈ s.pending) : Ledger t := by
  refine ⟨?_, ?_, ?_, ?_, ?_⟩
  · rw [hnotes]
    refine ⟨?_, ?_, ?_, ?_⟩
    · rw [List.filterMap_append, List.filterMap_eq_nil_iff.2 hno, List.append_nil]
      exact h.honest.once
    · intro j response before after hmem
      rcases List.mem_append.1 hmem with hmem | hmem
      · obtain ⟨hadmitted, heq⟩ := h.honest.replays j response before after hmem
        exact ⟨hadmitted.append, heq⟩
      · obtain ⟨hadmitted, heq⟩ := hreplays j response before after hmem
        exact ⟨hadmitted.append, heq⟩
    · intro j response now before after hmem
      rcases List.mem_append.1 hmem with hmem | hmem
      · exact h.honest.reserved j response now before after hmem
      · cases hno _ hmem
    · intro j nodes nodes' jobs jobs' hmem
      rcases List.mem_append.1 hmem with hmem | hmem
      · exact h.honest.untouched j nodes nodes' jobs jobs' hmem
      · exact huntouched j nodes nodes' jobs jobs' hmem
  · intro j doc hget
    rw [hjobs] at hget
    obtain ⟨response, hresponse, hadmitted⟩ := h.live j doc hget
    rw [hnotes]
    exact ⟨response, hresponse, hadmitted.append⟩
  · rw [hnotes, hhistory]
    exact h.committed.append hno
  · rw [hnotes, hhistory]
    exact h.working.append hno
  · intro j hj hnone response hadmitted
    rw [hnotes, admitted_append_iff hno] at hadmitted
    exact h.waiting j (hwaiting j hj) (hjobs ▸ hnone) response hadmitted

/-- **A request gets the answer that is there, or is the first one for its job.** -/
lemma request (h : Ledger s) (j : κ) : Ledger (s.request j) := by
  unfold Head.request
  have hload := h.loadJob j
  obtain ⟨hnodes, hhistory, hpending, hnotes⟩ := loadJob_frame (s := s) (j := j)
  by_cases hpaused : s.paused = true
  · rw [if_pos hpaused]
    exact h
  · rw [if_neg hpaused]
    cases hresponse : ((s.loadJob j).jobs.get j).bind JobDoc.startResponse with
    | some response =>
      obtain ⟨doc, hget, hdoc⟩ := Option.bind_eq_some_iff.1 hresponse
      obtain ⟨response', hresponse', hadmitted⟩ := hload.live j doc hget
      obtain rfl : response' = response := Option.some.inj (hresponse'.symm.trans hdoc)
      refine hload.append [.replayed j response' s.nodes (s.loadJob j).nodes] ?_ ?_ ?_ rfl
        rfl (by rw [hnotes]) (fun _ hj => hj)
      · intro n hn
        obtain rfl := List.mem_singleton.1 hn
        rfl
      · intro j₁ response₁ before after hmem
        obtain ⟨rfl, rfl, rfl, rfl⟩ := by simpa using hmem
        exact ⟨hadmitted, hnodes⟩
      · intro j₁ nodes nodes' jobs jobs' hmem
        simp at hmem
    | none =>
      refine ⟨hload.honest, hload.live, hload.committed, hload.working, ?_⟩
      intro j' hj' hnone response hadmitted
      rcases List.mem_append.1 hj' with hj' | hj'
      · exact hload.waiting j' (hpending ▸ hj') hnone response hadmitted
      · -- an admitted job's row is in the history, and looking it up has made it live
        rw [List.mem_singleton.1 hj'] at hnone hadmitted
        have hthere := hload.working.there j response hadmitted
        rw [hhistory] at hthere
        have hlive := isSome_loadJob hthere
        rw [hnone] at hlive
        cases hlive

/-- A refusal, of a job whose row was where it is. -/
lemma refuse (h : Ledger s) (j : κ) : Ledger (s.refuse j s) := by
  refine h.append [.refused j s.nodes s.nodes s.jobs s.jobs] ?_ ?_ ?_ rfl rfl rfl
    (fun _ hj => hj)
  · intro n hn
    obtain rfl := List.mem_singleton.1 hn
    rfl
  · intro j' response before after hmem
    simp at hmem
  · intro j' nodes nodes' jobs jobs' hmem
    obtain ⟨rfl, rfl, rfl, rfl, rfl⟩ := by simpa using hmem
    exact ⟨rfl, rfl⟩

/-- The nodes that `admit_job` has reserved were free. -/
lemma reserved_of_admitNodes {nodes nodes' : Dict ι (NodeRow κ)} {names : List ι} {now : ℚ}
    (h : admitNodes nodes j names now = some nodes') :
    ∀ name ∈ names, ∃ row, nodes.get name = some row ∧ row.Free now ∧
      nodes'.get name = some { row with reservedForJob := some j } := by
  unfold admitNodes at h
  split_ifs at h with hfree
  cases h
  intro name hname
  obtain ⟨row, hrow, hfreeRow⟩ := hfree name hname
  refine ⟨row, hrow, hfreeRow, ?_⟩
  rw [get_reserve j names hrow, if_pos hname]

omit [DecidableEq κ] in
/-- The rows of an admission are those of the job and of its nodes. -/
lemma jobs_applyAll_nodeWrites {nodes : Dict ι (NodeRow κ)} {names : List ι} {rows : Rows κ ι} :
    (Store.applyAll (Head.nodeWrites nodes names) rows).jobs = rows.jobs :=
  Store.applyAll_induction (P := fun rows' : Rows κ ι => rows'.jobs = rows.jobs) rfl
    fun w hw rows' hrows' => (jobs_nodeWrites w hw rows').trans hrows'

/-- **The first admission of a job.** -/
lemma admitted {nodes : Dict ι (NodeRow κ)} {response : StartResponse ι} (h : Ledger s)
    (hfresh : ∀ response', ¬Admitted s.notes j response')
    (hnodes : admitNodes s.nodes j response.selected s.now = some nodes)
    (history : Store (Rows κ ι))
    (hhistory : history = s.history.write
      (Head.upsertJob j ⟨.running, some response⟩ :: Head.nodeWrites nodes response.selected)
      .committed) :
    Ledger { s with
      history := history
      nodes := nodes
      jobs := s.jobs.set j ⟨.running, some response⟩
      notes := s.notes ++ [.admitted j response s.now s.nodes nodes] } := by
  have hnew : Admitted (s.notes ++ [.admitted j response s.now s.nodes nodes]) j response :=
    ⟨s.now, s.nodes, nodes, List.mem_append_right _ (List.mem_singleton.2 rfl)⟩
  have hknown : ∀ j' doc, Known s.notes j' doc →
      Known (s.notes ++ [.admitted j response s.now s.nodes nodes]) j' doc := by
    rintro j' doc ⟨response', hresponse', hadmitted⟩
    exact ⟨response', hresponse', hadmitted.append⟩
  have holds : ∀ j' response',
      Admitted (s.notes ++ [.admitted j response s.now s.nodes nodes]) j' response' →
        j' = j ∨ Admitted s.notes j' response' := by
    rintro j' response' ⟨now, before, after, hmem⟩
    rcases List.mem_append.1 hmem with hmem | hmem
    · exact .inr ⟨now, before, after, hmem⟩
    · obtain ⟨rfl, -⟩ := by simpa using hmem
      exact .inl rfl
  have hrecorded : ∀ jobs : Dict κ (JobDoc ι), Recorded s.notes jobs →
      Recorded (s.notes ++ [.admitted j response s.now s.nodes nodes])
        (jobs.set j ⟨.running, some response⟩) := by
    intro jobs hjobs
    refine ⟨fun j' doc hget => ?_, fun j' response' hadmitted => ?_⟩
    · rw [Dict.get_set] at hget
      split_ifs at hget with heq
      · rw [heq, ← Option.some.inj hget]
        exact ⟨response, rfl, hnew⟩
      · exact hknown j' doc (hjobs.known j' doc hget)
    · rw [Dict.get_set]
      split_ifs with heq
      · rfl
      · exact hjobs.there j' response' ((holds j' response' hadmitted).resolve_left heq)
  have hwritten : history.committed.jobs = s.history.working.jobs.set j ⟨.running, some response⟩ ∧
      history.working.jobs = s.history.working.jobs.set j ⟨.running, some response⟩ := by
    rw [hhistory]
    exact ⟨jobs_applyAll_nodeWrites, jobs_applyAll_nodeWrites⟩
  refine ⟨⟨?_, ?_, ?_, ?_⟩, ?_, ?_, ?_, ?_⟩
  · -- no earlier admission is of this job
    rw [List.filterMap_append, List.nodup_append]
    refine ⟨h.honest.once, by simp [Note.admittedJob], ?_⟩
    rintro j' hj' j'' hj'' rfl
    obtain rfl : j' = j := by simpa [Note.admittedJob] using hj''
    obtain ⟨n, hn, hjob⟩ := List.mem_filterMap.1 hj'
    cases n with
    | admitted j₁ response₁ now before after =>
      obtain rfl : j₁ = j' := by simpa [Note.admittedJob] using hjob
      exact hfresh response₁ ⟨now, before, after, hn⟩
    | replayed _ _ _ _ => cases hjob
    | refused _ _ _ _ _ => cases hjob
  · intro j' response' before after hmem
    have hmem' : Note.replayed j' response' before after ∈ s.notes := by simpa using hmem
    obtain ⟨hadmitted, heq⟩ := h.honest.replays j' response' before after hmem'
    exact ⟨hadmitted.append, heq⟩
  · intro j' response' now before after hmem
    rcases List.mem_append.1 hmem with hmem | hmem
    · exact h.honest.reserved j' response' now before after hmem
    · obtain ⟨rfl, rfl, rfl, rfl, rfl⟩ := by simpa using hmem
      exact reserved_of_admitNodes hnodes
  · intro j' n n' jobs jobs' hmem
    have hmem' : Note.refused j' n n' jobs jobs' ∈ s.notes := by simpa using hmem
    exact h.honest.untouched j' n n' jobs jobs' hmem'
  · intro j' doc hget
    rw [Dict.get_set] at hget
    split_ifs at hget with heq
    · rw [heq, ← Option.some.inj hget]
      exact ⟨response, rfl, hnew⟩
    · exact hknown j' doc (h.live j' doc hget)
  · rw [hwritten.1]
    exact hrecorded _ h.working
  · rw [hwritten.2]
    exact hrecorded _ h.working
  · intro j' hj' hnone response' hadmitted
    rw [Dict.get_set] at hnone
    split_ifs at hnone with heq
    exact h.waiting j' hj' hnone response' ((holds j' response' hadmitted).resolve_left heq)

/-- A write that fails and leaves nothing behind. -/
lemma of_clean (h : Ledger s) {ws : List (Rows κ ι → Rows κ ι)} {outcome : Store.Outcome}
    (hfailed : outcome ≠ .committed) (hclean : outcome.Clean = true) :
    Ledger { s with history := s.history.write ws outcome } := by
  cases outcome with
  | committed => exact absurd rfl hfailed
  | failed n rolledBack =>
    obtain ⟨hcommitted, hworking⟩ := Store.write_of_clean hclean
    refine ⟨h.honest, h.live, ?_, ?_, h.waiting⟩
    · rw [hcommitted]
      exact h.committed
    · rcases hworking with hworking | hworking <;> rw [hworking]
      · exact h.working
      · exact h.committed

/-- **An admission, or a refusal, of a job whose request has waited.** -/
lemma admitJob (h : Ledger s) (hwait : j ∈ s.pending) (response : StartResponse ι)
    {outcome : Store.Outcome} (hclean : outcome.Clean = true) :
    Ledger (s.admitJob j response outcome) := by
  -- nothing is loaded: the job is live, or it has never been admitted
  have hload : s.loadJob j = s := by
    by_cases hlive : s.jobs.get j = none
    · exact loadJob_eq_of_not_stored (h.working.get_eq_none (h.waiting j hwait hlive))
    · exact loadJob_eq_of_live hlive
  unfold Head.admitJob
  simp only [hload]
  cases hget : s.jobs.get j with
  | some existing =>
    obtain ⟨before, hbefore, hadmitted⟩ := h.live j existing hget
    simp only [hbefore]
    refine (h.refuse j).append [.replayed j before s.nodes s.nodes] ?_ ?_ ?_ rfl rfl rfl
      (fun _ hj => hj)
    · intro n hn
      obtain rfl := List.mem_singleton.1 hn
      rfl
    · intro j' response' before' after hmem
      obtain ⟨rfl, rfl, rfl, rfl⟩ := by simpa using hmem
      exact ⟨hadmitted.append, rfl⟩
    · intro j' nodes nodes' jobs jobs' hmem
      simp at hmem
  | none =>
    by_cases hpaused : s.paused = true
    · simp only [if_pos hpaused]
      exact h.refuse j
    · simp only [if_neg hpaused]
      cases hnodes : admitNodes s.nodes j response.selected s.now with
      | none => exact h.refuse j
      | some nodes =>
        by_cases hcommitted : outcome = .committed
        · subst hcommitted
          exact h.admitted (h.waiting j hwait hget) hnodes _ rfl
        · simp only [if_neg hcommitted]
          exact (h.of_clean hcommitted hclean).refuse j

lemma pending_admitJob {response : StartResponse ι} {outcome : Store.Outcome} :
    (s.admitJob j response outcome).pending = s.pending := by
  have hpending : (s.loadJob j).pending = s.pending := loadJob_frame.2.2.1
  simp only [Head.admitJob]
  cases (s.loadJob j).jobs.get j with
  | some existing =>
    cases hbefore : existing.startResponse with
    | none =>
      simp only [hbefore]
      exact hpending
    | some before =>
      simp only [hbefore]
      exact hpending
  | none =>
    by_cases hpaused : s.paused = true
    · simp only [if_pos hpaused]
      exact hpending
    · simp only [if_neg hpaused]
      cases admitNodes s.nodes j response.selected s.now with
      | none => exact hpending
      | some nodes =>
        by_cases hcommitted : outcome = .committed
        · simpa only [if_pos hcommitted] using hpending
        · simp only [if_neg hcommitted]
          exact hpending

/-- **No step makes the notes say anything else.** -/
theorem step {t : Head κ ι} {a : HeadEvent κ ι} (h : Ledger s) (hclean : s.Clean a)
    (hstep : s.step a = some t) : Ledger t := by
  cases a with
  | tick sec =>
    simp only [Head.step] at hstep
    split_ifs at hstep
    cases hstep
    exact h.of_eq rfl rfl rfl rfl
  | updateNode name u outcome =>
    cases hstep
    exact h.updateNode name u outcome
  | removeNode name =>
    cases hstep
    exact h.of_eq rfl rfl rfl rfl
  | updateJob j status outcome =>
    cases hstep
    exact h.updateJob j status outcome
  | loadJob j =>
    cases hstep
    exact h.loadJob j
  | pause =>
    simp only [Head.step] at hstep
    split_ifs at hstep
    · cases hstep
      exact h
    · cases hstep
      exact h.of_eq rfl rfl rfl rfl
  | resume =>
    cases hstep
    exact h.of_eq rfl rfl rfl rfl
  | request j =>
    cases hstep
    exact h.request j
  | abandon n =>
    simp only [Head.step] at hstep
    split at hstep
    · cases hstep
    · rename_i htake
      cases hstep
      exact h.of_rest htake
  | admission n response outcome =>
    simp only [Head.step] at hstep
    split at hstep
    · cases hstep
    · rename_i j rest htake
      cases hstep
      have hnext := h.admitJob (mem_of_takeAt htake) response hclean
      refine ⟨hnext.honest, hnext.live, hnext.committed, hnext.working, ?_⟩
      intro j' hj' hnone
      refine hnext.waiting j' ?_ hnone
      rw [pending_admitJob]
      exact mem_of_mem_rest htake hj'
  | restart =>
    cases hstep
    exact h.restart

end Ledger

namespace Head

variable [DecidableEq ι] {s : Head κ ι}

variable (κ ι) in
lemma invariant_ledger : (sys (κ := κ) (ι := ι)).Invariant Clean Ledger where
  init s hs := by
    obtain ⟨now, rfl⟩ := hs
    refine ⟨⟨List.nodup_nil, nofun, nofun, nofun⟩, nofun, ⟨nofun, ?_⟩, ⟨nofun, ?_⟩, nofun⟩
    · rintro j response ⟨_, _, _, hmem⟩
      cases hmem
    · rintro j response ⟨_, _, _, hmem⟩
      cases hmem
  step _ _ _ h hclean hstep := h.step hclean hstep

/-- **A job is admitted at most once, with nodes that were free and are reserved for it; who asks
again gets the same answer and changes no node; and a refusal changes nothing,** in every run in
which no failed admission leaves its job's row behind. -/
theorem honest_of_clean (hr : (sys (κ := κ) (ι := ι)).Reachable Clean s) : Honest s.notes :=
  ((invariant_ledger κ ι).reachable hr).honest

end Head

/-! ### Runs -/

section Runs

/-- The job and the answer of a replay. -/
def Note.replay : Note κ ι → Option (κ × StartResponse ι)
  | replayed j response .. => some (j, response)
  | admitted .. | refused .. => none

/-- A node that is READY and fresh. -/
def readyNode : List (HeadEvent Unit ℕ) :=
  [.updateNode 0 { status := some .ready, lastPushAt := some 0 } (some .committed)]

/-- An answer that reserves the node. -/
def onNode : StartResponse ℕ := ⟨[⟨0, 4⟩], [⟨1, 4⟩]⟩

/-- Two requests for one job, a restart, and a third one. -/
def askedThrice : Head Unit ℕ :=
  (((sys (κ := Unit) (ι := ℕ)).guarded Head.Clean).exec (Head.new 0)
    (readyNode ++ [.request (), .request (), .admission 0 onNode .committed,
      .admission 0 onNode .committed, .restart, .request ()])).get (by decide +kernel)

theorem honest_of_clean_askedThrice : Honest askedThrice.notes :=
  Head.honest_of_clean
    ⟨Head.new 0, _, ⟨0, rfl⟩, System.run_of_exec_guarded (Option.some_get _).symm⟩

/-- An admission fails when it is committed, and the client asks again. -/
def askedAfterFailure : Head Unit ℕ :=
  (((sys (κ := Unit) (ι := ℕ)).guarded System.always).exec (Head.new 0)
    (readyNode ++ [.request (), .admission 0 onNode (.failed 2 false), .request ()])).get
    (by decide +kernel)

/-- The client is answered that the node is the job's; the job has never been admitted, and the
node is not reserved. -/
theorem phantom_is_answered : ∃ s : Head Unit ℕ,
    (sys (κ := Unit) (ι := ℕ)).Reachable System.always s ∧ ¬Honest s.notes ∧
      (s.nodes.get 0).bind ClusterState.NodeRow.reservedForJob = none := by
  refine ⟨askedAfterFailure,
    ⟨Head.new 0, _, ⟨0, rfl⟩, System.run_of_exec_guarded (Option.some_get _).symm⟩, ?_,
    by decide +kernel⟩
  intro h
  have hnone : askedAfterFailure.notes.filterMap Note.admittedJob = [] := by decide +kernel
  have hreplay : (askedAfterFailure.notes.filterMap Note.replay) = [((), onNode)] := by
    decide +kernel
  have hmem : ((), onNode) ∈ askedAfterFailure.notes.filterMap Note.replay := by
    rw [hreplay]
    exact List.mem_singleton.2 rfl
  obtain ⟨n, hn, hreplayed⟩ := List.mem_filterMap.1 hmem
  cases n with
  | replayed j response before after =>
    obtain ⟨-, rfl⟩ := Prod.mk.inj (Option.some.inj hreplayed)
    obtain ⟨⟨now, before', after', hadmitted⟩, -⟩ := h.replays j _ before after hn
    have := List.filterMap_eq_nil_iff.1 hnone _ hadmitted
    cases this
  | admitted _ _ _ _ _ => cases hreplayed
  | refused _ _ _ _ _ => cases hreplayed

end Runs

end Burla.Admission
