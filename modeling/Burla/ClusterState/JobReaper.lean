/-
The job reaper: `job_reaper_loop` (cluster_state.py), beside everything else that writes the
head's tables.

The verdicts of a pass are found under the lock and applied after it, one `update_job` each,
children included.  The loop does not wait meanwhile, so no endpoint runs; other threads do (a
restart of the cluster, which cancels the jobs; a boot).

The main results are

* `JobHead.reaper_ends_dead`: a job that the reaper ends is RUNNING, and no live node tied to it
  has been heard within the reaper's silence, in every run whose passes find the jobs of heard
  nodes reported and in which nobody else ends a job that is in the reaper's hands;
* `JobHead.wronged_of_not_fair`: a step that breaks this condition leaves a job in the reaper's
  hands that it must not end.
-/
import Burla.ClusterState.Jobs
import Burla.Lib.System
import Mathlib.Tactic.Linarith

namespace Burla.ClusterState

open Burla.Assign (NodeStatus)
open Burla.Jobs (Job JobSpec JobStatus Updates reaperVerdict)

variable {κ ι : Type*}

/-- `REAPER_JOB_SILENCE_SEC`. -/
def reaperJobSilenceSec : ℚ := 150

/-! ### The rule -/

section Rule

variable [DecidableEq κ]

/-- A RUNNING node works on the job and is fresh. -/
def FreshNodeOnJob (nodes : Dict ι (NodeRow κ)) (j : κ) (now : ℚ) : Prop :=
  ∃ e ∈ nodes.items, e.2.status = some .running ∧ e.2.currentJob = some j ∧ e.2.Fresh now

instance (nodes : Dict ι (NodeRow κ)) (j : κ) (now : ℚ) : Decidable (FreshNodeOnJob nodes j now) :=
  inferInstanceAs (Decidable (∃ e ∈ nodes.items, _))

/-- `dead`: nothing has been reported of the job for long, and no fresh node works on it. -/
def Silent (nodes : Dict ι (NodeRow κ)) (j : κ) (row : JobRow κ ι) (now : ℚ) : Prop :=
  now - row.lastPush > reaperJobSilenceSec ∧ ¬FreshNodeOnJob nodes j now

instance (nodes : Dict ι (NodeRow κ)) (j : κ) (row : JobRow κ ι) (now : ℚ) :
    Decidable (Silent nodes j row now) :=
  inferInstanceAs (Decidable (_ ∧ _))

/-- A job that the reaper looks at: RUNNING, and for long enough. -/
def JobRow.Judged (row : JobRow κ ι) (now : ℚ) : Prop :=
  row.job.status = .running ∧ ¬now - row.startedAt.getD now < reaperJobSilenceSec

instance (row : JobRow κ ι) (now : ℚ) : Decidable (row.Judged now) :=
  inferInstanceAs (Decidable (_ ∧ _))

/-- What becomes of a silent job. -/
def JobRow.verdict (row : JobRow κ ι) : JobStatus :=
  reaperVerdict row.spec.nInputs row.spec.isBackgroundJob row.job row.nResults

/-- The verdicts of a pass. -/
def verdicts (s : Tables κ ι) (now : ℚ) : List (κ × JobStatus) :=
  (s.jobs.items.filter fun e =>
    decide (e.2.Judged now) && decide (Silent s.nodes e.1 e.2 now)).map fun e => (e.1, e.2.verdict)

/-- What the reaper writes of a job; `endedAt` is the time of the job's last sample, if there is
one. -/
def verdictUpdates (status : JobStatus) (endedAt : ℚ) : Updates :=
  { Updates.ofStatus status with
    endedAt := some endedAt
    appendFailReason :=
      if status = .completed then none
      else some "main_svc: job is \"running\" but no nodes working on it ???" }

end Rule

/-! ### The head -/

/-- Where `job_reaper_loop` stands. -/
inductive JudgePhase (κ : Type*)
  | asleep
  /-- The verdicts still to be applied; the children of the last one come first. -/
  | judging (now : ℚ) (children : List κ) (rest : List (κ × JobStatus))

/-- The jobs that the reaper has still to end. -/
def JudgePhase.inHand : JudgePhase κ → List κ
  | asleep => []
  | judging _ _ rest => rest.map Prod.fst

/-- The child to be canceled next is not itself waiting for its end. -/
def JudgePhase.Apart : JudgePhase κ → Prop
  | judging _ (c :: _) rest => c ∉ rest.map Prod.fst
  | judging _ [] _ | asleep => True

instance [DecidableEq κ] : (phase : JudgePhase κ) → Decidable phase.Apart
  | .judging _ (c :: _) rest => inferInstanceAs (Decidable (c ∉ rest.map Prod.fst))
  | .judging _ [] _ => .isTrue trivial
  | .asleep => .isTrue trivial

/-- The reaper goes on, or back to sleep. -/
def JudgePhase.resume (now : ℚ) : List κ → List (κ × JobStatus) → JudgePhase κ
  | [], [] => asleep
  | children, rest => judging now children rest

@[simp] lemma JudgePhase.inHand_resume (now : ℚ) (children : List κ)
    (rest : List (κ × JobStatus)) :
    (JudgePhase.resume now children rest).inHand = rest.map Prod.fst := by
  cases children <;> cases rest <;> rfl

/-- The head, as far as the job reaper goes. -/
structure JobHead (κ ι : Type*) where
  tables : Tables κ ι
  now : ℚ
  loopStartedAt : ℚ
  /-- The children that other writers have yet to cancel. -/
  cascades : List κ
  reaper : JudgePhase κ

/-- A push: the fields of the row, and what it reports of a job. -/
structure NodePush (κ : Type*) where
  status : Option NodeStatus := none
  currentJob : Option (Option κ) := none
  reservedForJob : Option (Option κ) := none
  progress : Option (κ × Option ℕ) := none

inductive JobHeadEvent (κ ι : Type*)
  | tick (sec : ℚ)
  /-- `push_node_state`. -/
  | push (name : ι) (body : NodePush κ)
  /-- `admit_job`. -/
  | admitJob (j : κ) (spec : JobSpec κ) (names : List ι)
  /-- `patch_job_doc`, `stop_job`: an endpoint writes to a job. -/
  | patch (j : κ) (u : Updates)
  /-- A thread does: the cluster is restarted. -/
  | lifecycle (j : κ)
  /-- One of the children that these writers have to cancel. -/
  | cascade (n : ℕ)
  /-- `Node.start`, for a job. -/
  | start (name : ι) (j : Option κ)
  /-- A node is FAILED or DELETED. -/
  | lose (name : ι) (status : NodeStatus)
  /-- The reaper's sleep is over. -/
  | wake
  /-- The reaper's next write; `sample` is the time of the job's last sample. -/
  | judge (sample : Option ℚ)

namespace JobHead

variable [DecidableEq κ] [DecidableEq ι]

/-- A writer ends a job and has its children to cancel then. -/
def write (s : JobHead κ ι) (j : κ) (u : Updates) : JobHead κ ι :=
  { s with
    tables := (s.tables.updateJob j u s.now).1
    cascades := s.cascades ++ (s.tables.updateJob j u s.now).2 }

/-- The start of a pass. -/
def wake (s : JobHead κ ι) : JobHead κ ι :=
  if s.now - s.loopStartedAt < reaperJobSilenceSec then s
  else { s with reaper := .resume s.now [] (verdicts s.tables s.now) }

/-- The row of a job that has just been admitted. -/
def newJob (spec : JobSpec κ) (now : ℚ) : JobRow κ ι where
  spec := spec
  job := Job.new
  startedAt := some now
  assignedNodes := Dict.empty

/-- One step of the head. -/
def step (s : JobHead κ ι) : JobHeadEvent κ ι → Option (JobHead κ ι)
  | .tick sec => if 0 ≤ sec then some { s with now := s.now + sec } else none
  | .push name body =>
    match s.reaper with
    | .judging .. => none
    | .asleep =>
      let nodes := recordNodePush s.tables.nodes name
        { status := body.status
          currentJob := body.currentJob
          reservedForJob := body.reservedForJob } s.now
      let jobs :=
        match body.progress with
        | none => s.tables.jobs
        | some (j, n) => updateJobProgress s.tables.jobs j name n s.now
      some { s with tables := ⟨nodes, jobs⟩ }
  | .admitJob j spec names =>
    match s.reaper with
    | .judging .. => none
    | .asleep =>
      if j ∈ s.tables.jobs.keys then none
      else
        (admitNodes s.tables.nodes j names s.now).map fun nodes =>
          { s with tables := ⟨nodes, s.tables.jobs.set j (newJob spec s.now)⟩ }
  | .patch j u =>
    match s.reaper with
    | .judging .. => none
    | .asleep => some (s.write j u)
  | .lifecycle j => some (s.write j (Updates.ofStatus .canceled))
  | .cascade n =>
    match s.cascades[n]? with
    | none => none
    | some c => some ({ s with cascades := s.cascades.eraseIdx n }.write c parentTerminated)
  | .start name j =>
    if name ∈ s.tables.nodes.keys then none
    else
      some { s with
        tables :=
          { s.tables with
            nodes := updateNode s.tables.nodes name
              { status := some .booting
                currentJob := some none
                reservedForJob := some j
                jobScopeId := some j } } }
  | .lose name status =>
    if status.terminal = true then
      some { s with
        tables := { s.tables with nodes := updateNode s.tables.nodes name { status := some status } } }
    else none
  | .wake =>
    match s.reaper with
    | .judging .. => none
    | .asleep => some s.wake
  | .judge sample =>
    match s.reaper with
    | .asleep => none
    | .judging now (c :: children) rest =>
      -- what a failed parent drags along
      some { s with
        tables := (s.tables.updateJob c parentTerminated s.now).1
        reaper := .resume now ((s.tables.updateJob c parentTerminated s.now).2 ++ children) rest }
    | .judging now [] ((j, status) :: rest) =>
      let u := verdictUpdates status (sample.getD now)
      some { s with
        tables := (s.tables.updateJob j u s.now).1
        reaper := .resume now (s.tables.updateJob j u s.now).2 rest }
    | .judging _ [] [] => none

end JobHead

/-- The head from the start of the reaper's loop on. -/
def jobHeadSystem [DecidableEq κ] [DecidableEq ι] : System (JobHead κ ι) (JobHeadEvent κ ι) where
  init s := s.reaper = .asleep
  step := JobHead.step

/-! ### What a pass must not end -/

namespace NodeRow

variable (row : NodeRow κ) (j : κ) (now : ℚ)

/-- The node works on the job, or boots or waits for it. -/
def TiedTo : Prop :=
  (row.status = some .booting ∨ row.status = some .ready ∨ row.status = some .running) ∧
      row.currentJob = some j ∨
    (row.status = some .booting ∨ row.status = some .ready) ∧ row.reservedForJob = some j

/-- The node has been heard within the reaper's silence. -/
def Heard : Prop := ∃ t ∈ row.lastPushAt, now - t ≤ reaperJobSilenceSec

instance [DecidableEq κ] : Decidable (row.TiedTo j) := inferInstanceAs (Decidable (_ ∨ _))

instance : Decidable (row.Heard now) := inferInstanceAs (Decidable (∃ t ∈ row.lastPushAt, _))

end NodeRow

/-- A live node that has been heard is tied to the job. -/
def Attended (nodes : Dict ι (NodeRow κ)) (j : κ) (now : ℚ) : Prop :=
  ∃ e ∈ nodes.items, e.2.TiedTo j ∧ e.2.Heard now

instance [DecidableEq κ] (nodes : Dict ι (NodeRow κ)) (j : κ) (now : ℚ) :
    Decidable (Attended nodes j now) :=
  inferInstanceAs (Decidable (∃ e ∈ nodes.items, _))

namespace JobHead

/-- The job that the reaper ends in a step. -/
def ends (s : JobHead κ ι) : JobHeadEvent κ ι → Option κ
  | .judge _ =>
    match s.reaper with
    | .judging _ [] ((j, _) :: _) => some j
    | _ => none
  | _ => none

variable [DecidableEq κ]

/-- A pass finds every attended job reported or worked on by a fresh node; and as long as the
reaper has a job in hand, no other thread ends it, and it does not fall with another one. -/
def Fair (s : JobHead κ ι) : JobHeadEvent κ ι → Prop
  | .wake => ¬s.now - s.loopStartedAt < reaperJobSilenceSec →
      ∀ e ∈ s.tables.jobs.items, e.2.Judged s.now →
        Attended s.tables.nodes e.1 s.now → ¬Silent s.tables.nodes e.1 e.2 s.now
  | .lifecycle j => j ∉ s.reaper.inHand
  | .cascade n => ∀ c ∈ s.cascades[n]?, c ∉ s.reaper.inHand
  | .judge _ => s.reaper.Apart
  | _ => True

instance (s : JobHead κ ι) (e : JobHeadEvent κ ι) : Decidable (s.Fair e) :=
  match e with
  | .wake =>
    inferInstanceAs (Decidable (¬_ → ∀ e ∈ s.tables.jobs.items, e.2.Judged s.now →
      Attended s.tables.nodes e.1 s.now → ¬Silent s.tables.nodes e.1 e.2 s.now))
  | .lifecycle j => inferInstanceAs (Decidable (j ∉ s.reaper.inHand))
  | .cascade n => inferInstanceAs (Decidable (∀ c ∈ s.cascades[n]?, c ∉ s.reaper.inHand))
  | .judge _ => inferInstanceAs (Decidable s.reaper.Apart)
  | .tick _ | .push .. | .admitJob .. | .patch .. | .start .. | .lose .. => .isTrue trivial

end JobHead

/-! ### Attention -/

section Attention

variable {nodes nodes' : Dict ι (NodeRow κ)} {row : NodeRow κ} {j : κ} {now now' : ℚ}

/-- A job that no node attends to stays so while rows lose what ties them to jobs. -/
lemma unattended_of_rows (h : ¬Attended nodes j now) (hnow : now ≤ now')
    (hrows : ∀ e' ∈ nodes'.items, e'.2.TiedTo j → e'.2.Heard now' →
      ∃ e ∈ nodes.items, e.2.TiedTo j ∧ e.2.lastPushAt = e'.2.lastPushAt) :
    ¬Attended nodes' j now' := by
  rintro ⟨e', he', htied, hheard⟩
  obtain ⟨e, he, htied', hpush⟩ := hrows e' he' htied hheard
  obtain ⟨t, ht, hle⟩ := hheard
  exact h ⟨e, he, htied', t, by rw [hpush]; exact ht, by linarith⟩

lemma tiedTo_of_release [DecidableEq κ] {k : κ} (h : (row.release k).TiedTo j) : row.TiedTo j := by
  unfold NodeRow.release at h
  split_ifs at h
  · rcases h with h | ⟨-, h⟩
    · exact .inl h
    · cases h
  · exact h

/-- Giving back reservations ties no node to a job. -/
lemma unattended_release [DecidableEq κ] {k : κ} (h : ¬Attended nodes j now) :
    ¬Attended (nodes.mapValues (NodeRow.release · k)) j now := by
  refine unattended_of_rows h le_rfl fun e' he' htied _ => ?_
  obtain ⟨e, he, rfl⟩ := List.mem_map.1 he'
  exact ⟨e, he, tiedTo_of_release htied, by simp⟩

/-- A new node has not been heard yet. -/
lemma unattended_start [DecidableEq ι] {name : ι} {u : NodeUpdates κ} (h : ¬Attended nodes j now)
    (hnew : name ∉ nodes.keys) (hu : u.lastPushAt = none) :
    ¬Attended (updateNode nodes name u) j now := by
  refine unattended_of_rows h le_rfl fun e' he' htied hheard => ?_
  have hget := Dict.mem_items.1 he'
  rw [get_updateNode] at hget
  split_ifs at hget
  · obtain ⟨t, ht, -⟩ := hheard
    rw [Dict.get_eq_none.2 hnew] at hget
    rw [← Option.some.inj hget] at ht
    simp [NodeRow.update, NodeRow.new, hu] at ht
  · exact ⟨e', Dict.mem_items.2 hget, htied, rfl⟩

/-- A node that is lost attends to no job. -/
lemma unattended_lose [DecidableEq ι] {name : ι} {status : NodeStatus} (h : ¬Attended nodes j now)
    (hend : status.terminal = true) :
    ¬Attended (updateNode nodes name { status := some status }) j now := by
  refine unattended_of_rows h le_rfl fun e' he' htied _ => ?_
  have hget := Dict.mem_items.1 he'
  rw [get_updateNode] at hget
  split_ifs at hget
  · exfalso
    rw [← Option.some.inj hget] at htied
    obtain ⟨st, hst, hterminal⟩ : ∃ st,
        (((nodes.get name).getD NodeRow.new).update { status := some status }).status = some st ∧
          st.terminal = true :=
      NodeRow.terminal_newStatus rfl hend
    unfold NodeRow.TiedTo at htied
    rw [hst] at htied
    rcases htied with ⟨h | h | h, -⟩ | ⟨h | h, -⟩ <;>
      · rw [Option.some.inj h] at hterminal
        exact absurd hterminal (by decide)
  · exact ⟨e', Dict.mem_items.2 hget, htied, rfl⟩

end Attention

namespace JobHead

variable {s t : JobHead κ ι} {e : JobHeadEvent κ ι} {j k : κ} [DecidableEq κ]

/-! ### The reaper's hands -/

/-- A job that the reaper may end. -/
def Endable (s : JobHead κ ι) (j : κ) : Prop :=
  (∃ row, s.tables.jobs.get j = some row ∧ row.job.status = .running) ∧
    ¬Attended s.tables.nodes j s.now

/-- The reaper has jobs in hand that it may end, each once. -/
structure Hand (s : JobHead κ ι) : Prop where
  endable : ∀ j ∈ s.reaper.inHand, s.Endable j
  nodup : s.reaper.inHand.Nodup

lemma hand_of_asleep (h : s.reaper = .asleep) : s.Hand :=
  ⟨by simp [h, JudgePhase.inHand], by simp [h, JudgePhase.inHand]⟩

/-- Ending one job leaves every other one as it is. -/
lemma Endable.updateJob {tables : Tables κ ι} {u : Updates} (h : s.Endable j) (hne : j ≠ k)
    (htables : tables = (s.tables.updateJob k u s.now).1) : Endable { s with tables } j := by
  obtain ⟨⟨row, hrow, hrunning⟩, hattended⟩ := h
  subst htables
  refine ⟨⟨row, (get_updateJob_of_ne hne).trans hrow, hrunning⟩, ?_⟩
  have hnodes : (s.tables.updateJob k u s.now).1.nodes = s.tables.nodes ∨
      (s.tables.updateJob k u s.now).1.nodes = s.tables.nodes.mapValues (NodeRow.release · k) :=
    nodes_updateJob
  show ¬Attended (s.tables.updateJob k u s.now).1.nodes j s.now
  rcases hnodes with hn | hn
  · rw [hn]
    exact hattended
  · rw [hn]
    exact unattended_release hattended

/-- A pass finds RUNNING jobs that are silent, and by the condition no node attends to those. -/
lemma hand_wake (hok : s.Fair (.wake : JobHeadEvent κ ι)) (hasleep : s.reaper = .asleep) :
    s.wake.Hand := by
  unfold wake
  split_ifs with hgrace
  · exact hand_of_asleep hasleep
  · have hhand : (JudgePhase.resume s.now [] (verdicts s.tables s.now)).inHand =
        (s.tables.jobs.items.filter fun e =>
          decide (e.2.Judged s.now) &&
            decide (Silent s.tables.nodes e.1 e.2 s.now)).map Prod.fst := by
      rw [JudgePhase.inHand_resume, verdicts, List.map_map]
      rfl
    constructor
    · rintro j hj
      rw [hhand, List.mem_map] at hj
      obtain ⟨e, he, rfl⟩ := hj
      obtain ⟨hmem, hjudged, hsilent⟩ : e ∈ s.tables.jobs.items ∧ e.2.Judged s.now ∧
          Silent s.tables.nodes e.1 e.2 s.now := by
        simpa [List.mem_filter] using he
      exact ⟨⟨e.2, Dict.mem_items.1 hmem, hjudged.1⟩,
        fun hattended => hok hgrace e hmem hjudged hattended hsilent⟩
    · rw [hhand]
      exact (List.filter_sublist.map Prod.fst).nodup s.tables.jobs.nodup

/-- The reaper has written of one job, and the others are still in its hands. -/
lemma Hand.judge {tables : Tables κ ι} {u : Updates} {rest : List (κ × JobStatus)}
    {reaper : JudgePhase κ} (h : s.Hand) (hsub : (rest.map Prod.fst).Sublist s.reaper.inHand)
    (hk : k ∉ rest.map Prod.fst) (htables : tables = (s.tables.updateJob k u s.now).1)
    (hhand : reaper.inHand = rest.map Prod.fst) : Hand { s with tables, reaper } where
  endable j hj := by
    have hj : j ∈ rest.map Prod.fst := hhand ▸ hj
    have hne : j ≠ k := by
      rintro rfl
      exact hk hj
    exact (h.endable j (hsub.subset hj)).updateJob hne htables
  nodup := by
    show reaper.inHand.Nodup
    rw [hhand]
    exact hsub.nodup h.nodup

/-- Another writer ends a job that is not in the reaper's hands. -/
lemma Hand.write {u : Updates} (h : s.Hand) (hk : k ∉ s.reaper.inHand) : (s.write k u).Hand where
  endable j hj := by
    have hne : j ≠ k := by
      rintro rfl
      exact hk hj
    exact (h.endable j hj).updateJob hne rfl
  nodup := h.nodup

variable [DecidableEq ι]

/-- What a step does to the reaper's hands, under the condition. -/
lemma Hand.step (h : s.Hand) (hok : s.Fair e) (hstep : s.step e = some t) : t.Hand := by
  cases e with
  | tick sec =>
    simp only [JobHead.step, Option.ite_none_right_eq_some, Option.some.injEq] at hstep
    obtain ⟨hsec, rfl⟩ := hstep
    refine ⟨fun j hj => ⟨(h.endable j hj).1, ?_⟩, h.nodup⟩
    have hnow : s.now ≤ s.now + sec := by linarith
    exact unattended_of_rows (h.endable j hj).2 hnow fun e he htied _ => ⟨e, he, htied, rfl⟩
  | push name body =>
    simp only [JobHead.step] at hstep
    split at hstep
    · cases hstep
    · rename_i hasleep
      obtain rfl := Option.some.inj hstep
      exact hand_of_asleep hasleep
  | admitJob j spec names =>
    simp only [JobHead.step] at hstep
    split at hstep
    · cases hstep
    · rename_i hasleep
      rw [Option.ite_none_left_eq_some, Option.map_eq_some_iff] at hstep
      obtain ⟨-, nodes, -, rfl⟩ := hstep
      exact hand_of_asleep hasleep
  | patch j u =>
    simp only [JobHead.step] at hstep
    split at hstep
    · cases hstep
    · rename_i hasleep
      obtain rfl := Option.some.inj hstep
      exact hand_of_asleep hasleep
  | lifecycle j =>
    obtain rfl := Option.some.inj hstep
    exact h.write hok
  | cascade n =>
    simp only [JobHead.step] at hstep
    split at hstep
    · cases hstep
    · rename_i c hc
      obtain rfl := Option.some.inj hstep
      have hrest : Hand { s with cascades := s.cascades.eraseIdx n } := ⟨h.endable, h.nodup⟩
      exact hrest.write (hok c hc)
  | start name j =>
    simp only [JobHead.step, Option.ite_none_left_eq_some, Option.some.injEq] at hstep
    obtain ⟨hnew, rfl⟩ := hstep
    exact ⟨fun k hk => ⟨(h.endable k hk).1, unattended_start (h.endable k hk).2 hnew rfl⟩, h.nodup⟩
  | lose name status =>
    simp only [JobHead.step, Option.ite_none_right_eq_some, Option.some.injEq] at hstep
    obtain ⟨hend, rfl⟩ := hstep
    exact ⟨fun k hk => ⟨(h.endable k hk).1, unattended_lose (h.endable k hk).2 hend⟩, h.nodup⟩
  | wake =>
    simp only [JobHead.step] at hstep
    split at hstep
    · cases hstep
    · rename_i hasleep
      obtain rfl := Option.some.inj hstep
      exact hand_wake hok hasleep
  | judge sample =>
    simp only [JobHead.step] at hstep
    split at hstep
    · cases hstep
    · rename_i now c children rest hphase
      obtain rfl := Option.some.inj hstep
      have hc : c ∉ rest.map Prod.fst := by
        simpa [Fair, hphase, JudgePhase.Apart] using hok
      refine h.judge ?_ hc rfl (JudgePhase.inHand_resume ..)
      rw [hphase]
      exact List.Sublist.refl _
    · rename_i now j status rest hphase
      obtain rfl := Option.some.inj hstep
      have hnodup : (j :: rest.map Prod.fst).Nodup := by
        simpa [hphase, JudgePhase.inHand] using h.nodup
      refine h.judge ?_ (List.nodup_cons.1 hnodup).1 rfl (JudgePhase.inHand_resume ..)
      rw [hphase]
      exact List.sublist_cons_self ..
    · cases hstep

/-- **The reaper's hands hold endable jobs only**, in every run that meets the condition. -/
lemma hand_invariant : (jobHeadSystem (κ := κ) (ι := ι)).Invariant Fair Hand where
  init _ hs := hand_of_asleep hs
  step _ _ _ h hok hstep := h.step hok hstep

omit [DecidableEq κ] [DecidableEq ι] in
lemma mem_inHand_of_ends (h : s.ends e = some j) : j ∈ s.reaper.inHand := by
  unfold ends at h
  split at h
  · split at h
    · rename_i hphase
      obtain rfl := Option.some.inj h
      simp [hphase, JudgePhase.inHand]
    · cases h
  · cases h

/-- **The job reaper ends dead jobs only**: a job that it marks FAILED or COMPLETED is RUNNING at
that moment, and no live node tied to it has been heard within the reaper's silence, in every run
in which each pass finds the jobs of heard nodes reported, or worked on by a fresh node, and in
which a job in the reaper's hands is ended by no other thread and with no other job. -/
theorem reaper_ends_dead (hr : jobHeadSystem.Reachable Fair s) (h : s.ends e = some j) :
    (∃ row, s.tables.jobs.get j = some row ∧ row.job.status = .running) ∧
      ¬Attended s.tables.nodes j s.now :=
  (hand_invariant.reachable hr).endable j (mem_inHand_of_ends h)

/-! ### The condition is exact -/

omit [DecidableEq ι] in
/-- A canceled job must not be ended again. -/
lemma not_endable_canceled {u : Updates} (hu : u.status = some .canceled)
    (htables : t.tables = (s.tables.updateJob j u s.now).1) : ¬t.Endable j := by
  rintro ⟨⟨row, hrow, hrunning⟩, -⟩
  rw [htables] at hrow
  cases hget : s.tables.jobs.get j with
  | none =>
    have hsame : (s.tables.updateJob j u s.now).1 = s.tables := by simp [Tables.updateJob, hget]
    rw [hsame, hget] at hrow
    cases hrow
  | some before =>
    rw [get_updateJob_self hget] at hrow
    obtain rfl := Option.some.inj hrow
    have hstatus : (before.job.update u s.now).status = .canceled := by
      simp [Job.update, Job.newStatus, hu]
    rw [hstatus] at hrunning
    cases hrunning

/-- A step that breaks the condition leaves a job in the reaper's hands that it must not end. -/
theorem wronged_of_not_fair (hstep : s.step e = some t) (h : ¬s.Fair e) :
    ∃ j ∈ t.reaper.inHand, ¬t.Endable j := by
  cases e with
  | lifecycle j =>
    obtain rfl := Option.some.inj hstep
    exact ⟨j, not_not.1 h, not_endable_canceled rfl rfl⟩
  | cascade n =>
    obtain ⟨c, hc, hhand⟩ : ∃ c, s.cascades[n]? = some c ∧ c ∈ s.reaper.inHand := by
      by_contra hnone
      exact h fun c hc hhand => hnone ⟨c, hc, hhand⟩
    simp only [JobHead.step, hc] at hstep
    obtain rfl := Option.some.inj hstep
    refine ⟨c, hhand, ?_⟩
    exact not_endable_canceled (s := { s with cascades := s.cascades.eraseIdx n }) rfl rfl
  | wake =>
    have hfound : ¬s.now - s.loopStartedAt < reaperJobSilenceSec ∧ ∃ e ∈ s.tables.jobs.items,
        e.2.Judged s.now ∧ Attended s.tables.nodes e.1 s.now ∧
          Silent s.tables.nodes e.1 e.2 s.now := by
      by_contra hnone
      exact h fun hgrace e he hjudged hattended hsilent =>
        hnone ⟨hgrace, e, he, hjudged, hattended, hsilent⟩
    obtain ⟨hgrace, e, he, hjudged, hattended, hsilent⟩ := hfound
    simp only [JobHead.step] at hstep
    split at hstep
    · cases hstep
    · obtain rfl := Option.some.inj hstep
      have hwake : s.wake = { s with reaper := .resume s.now [] (verdicts s.tables s.now) } :=
        if_neg hgrace
      rw [hwake]
      refine ⟨e.1, ?_, fun hend => hend.2 hattended⟩
      rw [JudgePhase.inHand_resume, verdicts, List.map_map, List.mem_map]
      exact ⟨e, List.mem_filter.2 ⟨he, by simp [hjudged, hsilent]⟩, rfl⟩
  | judge sample =>
    simp only [JobHead.step] at hstep
    split at hstep
    · cases hstep
    · rename_i now c children rest hphase
      obtain rfl := Option.some.inj hstep
      have hc : c ∈ rest.map Prod.fst := by
        by_contra hc
        exact h (by simpa [Fair, hphase, JudgePhase.Apart] using hc)
      refine ⟨c, ?_, not_endable_canceled rfl rfl⟩
      rw [JudgePhase.inHand_resume]
      exact hc
    · rename_i hphase
      exact absurd (by simp [Fair, hphase, JudgePhase.Apart]) h
    · cases hstep
  | _ => exact absurd trivial h

/-! ### A job whose node boots for long -/

/-- A head without jobs and nodes, long after its start. -/
def quietHead : JobHead ℕ ℕ where
  tables := ⟨Dict.empty, Dict.empty⟩
  now := 1000
  loopStartedAt := 0
  cascades := []
  reaper := .asleep

/-- A job without inputs of its own to tell and without a parent. -/
def plainSpec : JobSpec ℕ where
  nInputs := 10
  isBackgroundJob := false
  parentJobId := none

/-- The job's only node has reported, and then has not been heard for five minutes. -/
def abandoned : JobHead ℕ ℕ :=
  ((jobHeadSystem.guarded Fair).exec quietHead
    [.admitJob 0 plainSpec [], .start 7 (some 0),
      .push 7 { status := some .running, currentJob := some (some 0), progress := some (0, some 3) },
      .tick 300, .wake]).get (by decide +kernel)

/-- The job's only node is booting, and reports so, three minutes after the job's start. -/
def stillBooting : JobHead ℕ ℕ :=
  ((jobHeadSystem.guarded System.always).exec quietHead
    [.admitJob 0 plainSpec [], .start 7 (some 0), .tick 180, .push 7 { status := some .booting },
      .wake]).get (by decide +kernel)

theorem reaper_ends_dead_abandoned :
    abandoned.ends (.judge none) = some 0 ∧ ¬Attended abandoned.tables.nodes 0 abandoned.now := by
  have hrun : jobHeadSystem.Run Fair quietHead
      [.admitJob 0 plainSpec [], .start 7 (some 0),
        .push 7 { status := some .running, currentJob := some (some 0), progress := some (0, some 3) },
        .tick 300, .wake] abandoned :=
    System.run_of_exec_guarded (Option.some_get _).symm
  have hends : abandoned.ends (.judge none) = some 0 := by decide +kernel
  exact ⟨hends, (reaper_ends_dead ⟨quietHead, _, rfl, hrun⟩ hends).2⟩

/-- A job is ended while the node that boots for it reports every second. -/
theorem reaper_ends_attended :
    ¬∀ (s : JobHead ℕ ℕ) (e : JobHeadEvent ℕ ℕ) (j : ℕ), jobHeadSystem.Reachable System.always s →
      s.ends e = some j →
        (∃ row, s.tables.jobs.get j = some row ∧ row.job.status = .running) ∧
          ¬Attended s.tables.nodes j s.now := by
  intro h
  have hrun : jobHeadSystem.Run System.always quietHead
      [.admitJob 0 plainSpec [], .start 7 (some 0), .tick 180, .push 7 { status := some .booting },
        .wake] stillBooting :=
    System.run_of_exec_guarded (Option.some_get _).symm
  have hends : stillBooting.ends (.judge none) = some 0 := by decide +kernel
  have hattended : Attended stillBooting.tables.nodes 0 stillBooting.now := by decide +kernel
  exact (h stillBooting (.judge none) 0 ⟨quietHead, _, rfl, hrun⟩ hends).2 hattended

end JobHead

end Burla.ClusterState
