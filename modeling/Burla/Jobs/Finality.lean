/-
How final a job's end is.

FAILED and CANCELED always apply, whatever is recorded already (`update_job`), and the client and
the nodes report them by what they have last read: `canceled_then_failed` is a job that is
canceled first and FAILED in the end.  What does hold (`stays_ended`): the job stays ended, it
is not COMPLETED after a failure or a cancellation, its children are not canceled again, the head
itself decides on no job that it has found ended, and only a reaper that had decided before the
end changes the time of it.
-/
import Burla.Jobs.Writers

namespace Burla.Jobs

variable {κ ι : Type*}

/-- CANCELED is recorded, or COMPLETED after the client has all results. -/
def Job.Final (job : Job) : Prop :=
  job.status = .canceled ∨ job.status = .completed ∧ job.clientHasAllResults = true

lemma Job.Final.terminal {job : Job} (h : job.Final) : job.status.terminal = true := by
  rcases h with h | ⟨h, -⟩ <;> rw [h] <;> rfl

/-! ### What is written -/

/-- No writer takes a job back to RUNNING, and only the reaper knows when a job has ended. -/
structure Write.Fair (w : Write κ) : Prop where
  status : w.updates.status ≠ some .running
  endedAt : w.updates.endedAt ≠ none → w.writer = .reaper

/-- The head writes about jobs that it has found running. -/
def Write.Decided (s : Cluster κ ι) (w : Write κ) : Prop :=
  w.writer = .client ∨ w.writer = .node ∨
    ∃ job, s.jobs w.job = some job ∧ job.status = .running

section Steps

variable {spec : κ → JobSpec κ} {s t : Cluster κ ι} {j : κ} {job : Job} {w : Write κ}

lemma JobStatus.running_of_not_terminal {status : JobStatus} (h : ¬status.terminal = true) :
    status = .running := by
  cases status <;> simp_all [JobStatus.terminal]

lemma Watcher.endStatus_ne_running (w : Watcher κ) : w.endStatus ≠ .running := by
  unfold Watcher.endStatus
  split_ifs with hf hc hv
  · simp
  · simp
  · rcases hv with hv | hv <;> simp [hv]
  · simp

/-- A write that is sent is the only new one. -/
lemma mem_writes_send {writer : Writer} {u : Updates} (hw : w ∈ (s.send writer j u).writes) :
    w ∈ s.writes ∨ w = ⟨writer, j, u⟩ := by
  rcases List.mem_append.1 hw with hw | hw
  · exact .inl hw
  · exact .inr (List.mem_singleton.1 hw)

/-- What a step that is no write to the head does: the records stay, and what is sent is fair and
decided on what is there. -/
structure Quiet (s t : Cluster κ ι) : Prop where
  jobs : ∀ j job, s.jobs j = some job → t.jobs j = some job
  cascades : t.cascades = s.cascades
  writes : ∀ w ∈ t.writes, w ∈ s.writes ∨ w.Fair ∧ w.Decided s

namespace Quiet

lemma of_same (hjobs : t.jobs = s.jobs) (hcascades : t.cascades = s.cascades)
    (hwrites : t.writes ⊆ s.writes) : Quiet s t where
  jobs _ _ hj := hjobs ▸ hj
  cascades := hcascades
  writes _ hw := .inl (hwrites hw)

lemma send {writer : Writer} {u : Updates} (hstatus : u.status ≠ some .running)
    (hendedAt : u.endedAt ≠ none → writer = .reaper)
    (hdecided : writer = .client ∨ writer = .node ∨
      ∃ job, s.jobs j = some job ∧ job.status = .running) : Quiet s (s.send writer j u) where
  jobs _ _ hj := hj
  cascades := rfl
  writes _ hw := by
    rcases mem_writes_send hw with hw | rfl
    · exact .inl hw
    · exact .inr ⟨⟨hstatus, hendedAt⟩, hdecided⟩

/-- What a node sends. -/
lemma node {u : Updates} (hstatus : u.status ≠ some .running) (hendedAt : u.endedAt = none) :
    Quiet s (s.send .node j u) :=
  .send hstatus (fun h => absurd hendedAt h) (.inr (.inl rfl))

/-- What a client sends. -/
lemma client {u : Updates} (hstatus : u.status ≠ some .running) (hendedAt : u.endedAt = none) :
    Quiet s (s.send .client j u) :=
  .send hstatus (fun h => absurd hendedAt h) (.inl rfl)

/-- What the head sends about a job that it has found running. -/
lemma head {writer : Writer} {u : Updates} (hj : s.jobs j = some job)
    (hrunning : job.status = .running) (hstatus : u.status ≠ some .running)
    (hendedAt : u.endedAt ≠ none → writer = .reaper) : Quiet s (s.send writer j u) :=
  .send hstatus hendedAt (.inr (.inr ⟨job, hj, hrunning⟩))

lemma trans {s' : Cluster κ ι} (h : Quiet s s') (hjobs : s'.jobs = s.jobs) (h' : Quiet s' t) :
    Quiet s t where
  jobs j job hj := h'.jobs j job (h.jobs j job hj)
  cascades := h'.cascades.trans h.cascades
  writes w hw := by
    rcases h'.writes w hw with hw | ⟨hfair, hdecided⟩
    · exact h.writes w hw
    · rw [Write.Decided, hjobs] at hdecided
      exact .inr ⟨hfair, hdecided⟩

variable [DecidableEq ι] {i : ι} {w : Watcher κ}

/-- A watcher's last word. -/
lemma finish {u : Updates} (hstatus : u.status ≠ some .running) (hendedAt : u.endedAt = none) :
    Quiet s (s.finish i w u) := by
  have hnode : Quiet (s.setWatcher i none) (s.finish i w u) := .node hstatus hendedAt
  exact ⟨hnode.jobs, hnode.cascades, hnode.writes⟩

lemma checkEnd (abandoned processed : Bool) : Quiet s (s.checkEnd i w abandoned processed) := by
  unfold Cluster.checkEnd
  split_ifs
  · exact .of_same rfl rfl (List.Subset.refl _)
  · exact .finish (by simpa [Updates.ofStatus] using w.endStatus_ne_running) rfl
  · exact .of_same rfl rfl (List.Subset.refl _)

lemma check (disconnected pendingResultsEmpty processed : Bool) :
    Quiet s (s.check spec i w disconnected pendingResultsEmpty processed) := by
  have hnotice : Quiet s (s.noticeClient (spec w.job).isBackgroundJob w disconnected) := by
    unfold Cluster.noticeClient
    split_ifs
    · exact .node (by simp [Updates.failure, Updates.ofStatus]) rfl
    · exact .of_same rfl rfl (List.Subset.refl _)
  refine hnotice.trans ?_ (.checkEnd _ _)
  unfold Cluster.noticeClient
  split_ifs <;> rfl

lemma answer (h : s.answer spec i w = some t) : Quiet s t := by
  unfold Cluster.answer at h
  split at h
  · obtain rfl := Option.some.inj h
    exact .of_same rfl rfl (List.Subset.refl _)
  · split_ifs at h
    · obtain rfl := Option.some.inj h
      exact .finish (by simpa [Updates.ofStatus] using w.endStatus_ne_running) rfl
    · obtain rfl := Option.some.inj h
      exact .of_same rfl rfl (List.Subset.refl _)
  · cases h

end Quiet

/-- What a step can do: a write reaches the head, or the records stay. -/
lemma jobStep_cases [DecidableEq κ] [DecidableEq ι] [Fintype ι] {e : JobEvent κ ι}
    (hstep : jobStep spec s e = some t) :
    (∃ n now w rest, e = .deliver n now ∧ takeAt s.writes n = some (w, rest) ∧
      t = { s with writes := rest }.updateJob spec w.job w.updates now) ∨
    (∀ n now, e ≠ .deliver n now) ∧ Quiet s t := by
  cases e with
  | deliver n now =>
    simp only [jobStep] at hstep
    split at hstep
    · cases hstep
    · rename_i w rest htake
      exact .inl ⟨n, now, w, rest, rfl, htake, (Option.some.inj hstep).symm⟩
  | start j =>
    simp only [jobStep, Option.ite_none_right_eq_some, Option.some.injEq] at hstep
    obtain ⟨hnone, rfl⟩ := hstep
    refine .inr ⟨by simp, fun j' job hj => ?_, rfl, fun w hw => .inl hw⟩
    have hne : j' ≠ j := by
      rintro rfl
      simp [hnone] at hj
    show Function.update s.jobs j _ j' = some job
    rw [Function.update_of_ne hne, hj]
  | drop n =>
    simp only [jobStep] at hstep
    split at hstep
    · cases hstep
    · rename_i w rest htake
      obtain rfl := Option.some.inj hstep
      exact .inr ⟨by simp, .of_same rfl rfl fun w hw => mem_of_mem_rest htake hw⟩
  | restart =>
    obtain rfl := Option.some.inj hstep
    exact .inr ⟨by simp, .of_same rfl rfl (List.Subset.refl _)⟩
  | cancel j =>
    simp only [jobStep] at hstep
    split at hstep
    · cases hstep
    · rename_i job hj
      simp only [Option.ite_none_left_eq_some, Option.some.injEq] at hstep
      obtain ⟨hterminal, rfl⟩ := hstep
      refine .inr ⟨by simp, .head hj (JobStatus.running_of_not_terminal hterminal) ?_ ?_⟩
      · simp [Updates.ofStatus]
      · simp [Updates.ofStatus, Updates.none]
  | clusterShutdown j restarted =>
    simp only [jobStep] at hstep
    split at hstep
    · cases hstep
    · rename_i job hj
      simp only [Option.ite_none_right_eq_some, Option.some.injEq] at hstep
      obtain ⟨hrunning, rfl⟩ := hstep
      refine .inr ⟨by simp, .head hj hrunning ?_ ?_⟩
      · simp [Updates.ofStatus]
      · simp [Updates.ofStatus, Updates.none]
  | reap j endedAt =>
    simp only [jobStep] at hstep
    split at hstep
    · cases hstep
    · rename_i job hj
      simp only [Option.ite_none_right_eq_some, Option.some.injEq] at hstep
      obtain ⟨hrunning, rfl⟩ := hstep
      refine .inr ⟨by simp, .head hj hrunning ?_ fun _ => rfl⟩
      simp only [Updates.ofStatus, reaperVerdict]
      split_ifs <;> simp
  | produce i k =>
    simp only [jobStep] at hstep
    split at hstep
    · cases hstep
    · simp only [Option.ite_none_right_eq_some, Option.some.injEq] at hstep
      obtain ⟨-, rfl⟩ := hstep
      exact .inr ⟨by simp, .of_same rfl rfl (List.Subset.refl _)⟩
  | receive j k =>
    simp only [jobStep, Option.ite_none_right_eq_some, Option.some.injEq] at hstep
    obtain ⟨-, rfl⟩ := hstep
    exact .inr ⟨by simp, .of_same rfl rfl (List.Subset.refl _)⟩
  | inputsDone j =>
    obtain rfl := Option.some.inj hstep
    exact .inr ⟨by simp, .client (by simp [Updates.none]) rfl⟩
  | hasAllResults j =>
    simp only [jobStep, Option.ite_none_left_eq_some, Option.some.injEq] at hstep
    obtain ⟨-, rfl⟩ := hstep
    exact .inr ⟨by simp, .client (by simp [Updates.none]) rfl⟩
  | clientFails j e =>
    cases e with
    | mainServiceTimeout | lifecycle => cases hstep
    | other message =>
      simp only [jobStep, Option.ite_none_left_eq_some, Option.some.injEq] at hstep
      obtain ⟨-, rfl⟩ := hstep
      exact .inr ⟨by simp, .client (by simp [Updates.failure, Updates.ofStatus]) rfl⟩
  | clientSignal j inputsDone =>
    simp only [jobStep, Option.ite_none_left_eq_some, Option.some.injEq] at hstep
    obtain ⟨-, rfl⟩ := hstep
    exact .inr ⟨by simp, .client (by simp [Updates.ofStatus]) rfl⟩
  | join i j =>
    simp only [jobStep] at hstep
    split at hstep
    · obtain rfl := Option.some.inj hstep
      exact .inr ⟨by simp, .of_same rfl rfl (List.Subset.refl _)⟩
    · cases hstep
  | push i =>
    obtain ⟨w, -, rfl⟩ := Option.map_eq_some_iff.1 hstep
    exact .inr ⟨by simp, .of_same rfl rfl (List.Subset.refl _)⟩
  | pushArrives n =>
    simp only [jobStep] at hstep
    split at hstep
    · cases hstep
    · split at hstep <;> obtain rfl := Option.some.inj hstep
      · exact .inr ⟨by simp, .of_same rfl rfl (List.Subset.refl _)⟩
      · exact .inr ⟨by simp, .of_same rfl rfl (List.Subset.refl _)⟩
  | pushLost n | responseLost n =>
    simp only [jobStep] at hstep
    split at hstep
    · cases hstep
    · obtain rfl := Option.some.inj hstep
      exact .inr ⟨by simp, .of_same rfl rfl (List.Subset.refl _)⟩
  | read n =>
    simp only [jobStep] at hstep
    split at hstep
    · cases hstep
    · split at hstep <;> obtain rfl := Option.some.inj hstep
      · exact .inr ⟨by simp, .of_same rfl rfl (List.Subset.refl _)⟩
      · exact .inr ⟨by simp, .of_same rfl rfl (List.Subset.refl _)⟩
  | observe i =>
    simp only [jobStep] at hstep
    split at hstep
    · cases hstep
    · simp only [Option.ite_none_right_eq_some, Option.some.injEq] at hstep
      obtain ⟨-, rfl⟩ := hstep
      exact .inr ⟨by simp, .of_same rfl rfl (List.Subset.refl _)⟩
  | check i disconnected pendingResultsEmpty processed =>
    simp only [jobStep] at hstep
    split at hstep
    · cases hstep
    · simp only [Option.ite_none_right_eq_some, Option.some.injEq] at hstep
      obtain ⟨-, rfl⟩ := hstep
      exact .inr ⟨by simp, .check disconnected pendingResultsEmpty processed⟩
  | answer n =>
    simp only [jobStep] at hstep
    split at hstep
    · cases hstep
    · split at hstep
      · cases hstep
      · simp only [Option.ite_none_right_eq_some] at hstep
        have hquiet := Quiet.answer hstep.2
        exact .inr ⟨by simp, hquiet.jobs, hquiet.cascades, hquiet.writes⟩
  | leave i =>
    obtain ⟨w, -, rfl⟩ := Option.map_eq_some_iff.1 hstep
    exact .inr ⟨by simp, .of_same rfl rfl (List.Subset.refl _)⟩
  | raise i message =>
    obtain ⟨w, -, rfl⟩ := Option.map_eq_some_iff.1 hstep
    exact .inr ⟨by simp, .finish (by simp [Updates.failure, Updates.ofStatus]) rfl⟩
  | ackFails i reason =>
    obtain ⟨w, -, rfl⟩ := Option.map_eq_some_iff.1 hstep
    exact .inr ⟨by simp, .node (by simp [Updates.failure, Updates.ofStatus]) rfl⟩

end Steps

/-! ### Writes that reach the head -/

section Update

variable [DecidableEq κ] {spec : κ → JobSpec κ} {s : Cluster κ ι} {j j' : κ} {job : Job}
  {u : Updates} {now : ℚ}

lemma updateJob_jobs_self (hj : s.jobs j = some job) :
    (s.updateJob spec j u now).jobs j = some (job.update u now) := by
  unfold Cluster.updateJob
  rw [hj]
  simp only
  split_ifs <;> exact Function.update_self ..

lemma updateJob_jobs_of_ne (hne : j' ≠ j) : (s.updateJob spec j u now).jobs j' = s.jobs j' := by
  unfold Cluster.updateJob
  cases s.jobs j with
  | none => rfl
  | some job =>
    simp only
    split_ifs <;> exact Function.update_of_ne hne _ _

/-- Only the end of a job is followed by a cascade, to children that run. -/
lemma updateJob_cascade (spec : κ → JobSpec κ) (s : Cluster κ ι) (j : κ) (u : Updates) (now : ℚ) :
    ((s.updateJob spec j u now).cascades = s.cascades ∧
      (s.updateJob spec j u now).writes = s.writes) ∨
    ∃ job children, s.jobs j = some job ∧ job.status.terminal = false ∧
      (s.updateJob spec j u now).cascades = s.cascades ++ [(j, children)] ∧
      (s.updateJob spec j u now).writes =
        s.writes ++ children.map (fun c => ⟨.cascade, c, Cluster.parentTerminated⟩) ∧
      ∀ c ∈ children, ∃ child, (s.updateJob spec j u now).jobs c = some child ∧
        child.status = .running := by
  unfold Cluster.updateJob
  cases hj : s.jobs j with
  | none => exact .inl ⟨rfl, rfl⟩
  | some job =>
    simp only
    split_ifs with hends
    · refine .inr ⟨job, _, rfl, hends.1.2, rfl, rfl, fun c hc => ?_⟩
      have hcancelable := (List.mem_filter.1 hc).2
      simp only [Bool.and_eq_true] at hcancelable
      obtain ⟨-, hchild⟩ := hcancelable
      split at hchild
      · simp at hchild
      · rename_i child hjobs
        rw [Bool.and_eq_true, decide_eq_true_eq] at hchild
        exact ⟨child, hjobs, hchild.1⟩
    · exact .inl ⟨rfl, rfl⟩

end Update

/-! ### After the end -/

/-- The write that a step brings to the head. -/
def delivered (s : Cluster κ ι) : JobEvent κ ι → Cluster κ ι → List (Write κ)
  | .deliver n _, _ => s.writes[n]?.toList
  | _, _ => []

/-- A write that was on its way already in state `s`, or that a client or a node sends. -/
def Write.Late (s : Cluster κ ι) (w : Write κ) : Prop :=
  w ∈ s.writes ∨ w.writer = .client ∨ w.writer = .node

/-- What stays of a job that had ended in state `s`, after the writes `new`. -/
structure StaysEnded [DecidableEq κ] (j : κ) (job : Job) (s t : Cluster κ ι) (job' : Job)
    (new : List (Write κ)) : Prop where
  record : t.jobs j = some job'
  terminal : job'.status.terminal = true
  uncompleted : job.status ≠ .completed → job'.status ≠ .completed
  status : job'.status = job.status ∨ ∃ w ∈ new, w.job = j ∧ w.Late s ∧
    w.updates.status = some job'.status ∧ (job'.status = .failed ∨ job'.status = .canceled)
  endedAt : job'.endedAt = job.endedAt ∨ ∃ w ∈ new, w.job = j ∧ w.writer = .reaper ∧ w ∈ s.writes
  cascades : (t.cascades.filter fun c => c.1 = j) = s.cascades.filter fun c => c.1 = j

section Main

variable [DecidableEq κ] [DecidableEq ι] [Fintype ι] {spec : κ → JobSpec κ} {s : Cluster κ ι}
  {t t' : Cluster κ ι} {e : JobEvent κ ι} {j : κ} {job job' : Job} {new : List (Write κ)}

/-- Everything that is written is fair. -/
lemma fair_step (h : ∀ w ∈ t.writes, w.Fair) (hstep : jobStep spec t e = some t') :
    ∀ w ∈ t'.writes, w.Fair := by
  rcases jobStep_cases hstep with ⟨n, now, w, rest, -, htake, rfl⟩ | ⟨-, hquiet⟩
  · intro w' hw'
    rcases updateJob_cascade spec { t with writes := rest } w.job w.updates now with
      ⟨-, hwrites⟩ | ⟨_, children, -, -, -, hwrites, -⟩
    · rw [hwrites] at hw'
      exact h w' (mem_of_mem_rest htake hw')
    · rw [hwrites] at hw'
      rcases List.mem_append.1 hw' with hw' | hw'
      · exact h w' (mem_of_mem_rest htake hw')
      · obtain ⟨c, -, rfl⟩ := List.mem_map.1 hw'
        constructor
        · simp [Cluster.parentTerminated, Updates.ofStatus]
        · simp [Cluster.parentTerminated, Updates.ofStatus, Updates.none]
  · intro w hw
    rcases hquiet.writes w hw with hw | ⟨hfair, -⟩
    · exact h w hw
    · exact hfair

omit [DecidableEq κ] [DecidableEq ι] [Fintype ι] in
lemma delivered_of_ne (he : ∀ n now, e ≠ .deliver n now) : delivered t e t' = [] := by
  cases e with
  | deliver n now => exact absurd rfl (he n now)
  | _ => rfl

omit [DecidableEq ι] [Fintype ι] in
/-- A write about the job that has ended reaches the head. -/
lemma StaysEnded.deliver (h : StaysEnded j job s t job' new) {w : Write κ}
    (spec : κ → JobSpec κ) (rest : List (Write κ)) (now : ℚ) (hw : w.Fair)
    (hlate : w.job = j → w.Late s) :
    ∃ job'', StaysEnded j job s ({ t with writes := rest }.updateJob spec w.job w.updates now) job''
      (new ++ [w]) := by
  have hold : ∀ w' ∈ new, w' ∈ new ++ [w] := fun w' hw' => List.mem_append_left _ hw'
  have hself : w ∈ new ++ [w] := List.mem_append_right _ (List.mem_singleton_self w)
  have hstatus : job'.status = job.status ∨ ∃ w' ∈ new ++ [w], w'.job = j ∧ w'.Late s ∧
      w'.updates.status = some job'.status ∧ (job'.status = .failed ∨ job'.status = .canceled) :=
    h.status.imp_right fun ⟨w', hw', hrest⟩ => ⟨w', hold w' hw', hrest⟩
  have hendedAt : job'.endedAt = job.endedAt ∨ ∃ w' ∈ new ++ [w], w'.job = j ∧
      w'.writer = .reaper ∧ w' ∈ s.writes :=
    h.endedAt.imp_right fun ⟨w', hw', hrest⟩ => ⟨w', hold w' hw', hrest⟩
  by_cases hwj : w.job = j
  · subst hwj
    have hrecord : ({ t with writes := rest } : Cluster κ ι).jobs w.job = some job' := h.record
    refine ⟨job'.update w.updates now, updateJob_jobs_self hrecord, ?_, ?_, ?_, ?_, ?_⟩
    · rcases Job.newStatus_of_terminal (u := w.updates) h.terminal with hsame | ⟨hnew, -⟩
      · show (job'.newStatus w.updates).terminal = true
        rw [hsame]
        exact h.terminal
      · cases hns : job'.newStatus w.updates with
        | running => exact absurd (hns ▸ hnew) hw.status
        | completed | failed | canceled => simp [Job.update, hns, JobStatus.terminal]
    · intro hjob
      rcases Job.newStatus_of_terminal (u := w.updates) h.terminal with hsame | ⟨hnew, hne⟩
      · show job'.newStatus w.updates ≠ .completed
        rw [hsame]
        exact h.uncompleted hjob
      · exact fun hc => hne (hnew.trans (congrArg some hc))
    · rcases Job.newStatus_of_terminal (u := w.updates) h.terminal with hsame | ⟨hnew, hne⟩
      · show job'.newStatus w.updates = job.status ∨ _
        rw [Job.update, hsame]
        exact hstatus
      · refine .inr ⟨w, hself, rfl, hlate rfl, hnew, ?_⟩
        show job'.newStatus w.updates = .failed ∨ job'.newStatus w.updates = .canceled
        cases hns : job'.newStatus w.updates with
        | running => exact absurd (hns ▸ hnew) hw.status
        | completed => exact absurd (hns ▸ hnew) hne
        | failed => exact .inl rfl
        | canceled => exact .inr rfl
    · by_cases hnone : w.updates.endedAt = none
      · rw [Job.endedAt_update_of_terminal now h.terminal hnone]
        exact hendedAt
      · -- only the reaper brings a time, and it had decided before the end
        have hreaper := hw.endedAt hnone
        refine .inr ⟨w, hself, rfl, hreaper, ?_⟩
        rcases hlate rfl with hmem | hwriter | hwriter
        · exact hmem
        · simp [hreaper] at hwriter
        · simp [hreaper] at hwriter
    · rcases updateJob_cascade spec { t with writes := rest } w.job w.updates now with
        ⟨hcascades, -⟩ | ⟨job₀, _, hjob₀, hrunning, -⟩
      · rw [hcascades]
        exact h.cascades
      · obtain rfl : job' = job₀ := Option.some.inj (hrecord.symm.trans hjob₀)
        simp [h.terminal] at hrunning
  · refine ⟨job', ?_, h.terminal, h.uncompleted, hstatus, hendedAt, ?_⟩
    · rw [updateJob_jobs_of_ne (Ne.symm hwj)]
      exact h.record
    · rcases updateJob_cascade spec { t with writes := rest } w.job w.updates now with
        ⟨hcascades, -⟩ | ⟨_, children, -, -, hcascades, -⟩
      · rw [hcascades]
        exact h.cascades
      · rw [hcascades, List.filter_append, h.cascades]
        simp [hwj]

/-- One more step after the end. -/
lemma StaysEnded.step (h : StaysEnded j job s t job' new)
    (hfair : ∀ w ∈ t.writes, w.Fair) (hlate : ∀ w ∈ t.writes, w.job = j → w.Late s)
    (hstep : jobStep spec t e = some t') :
    (∃ job'', StaysEnded j job s t' job'' (new ++ delivered t e t')) ∧
      ∀ w ∈ t'.writes, w.job = j → w.Late s := by
  rcases jobStep_cases hstep with ⟨n, now, w, rest, rfl, htake, rfl⟩ | ⟨he, hquiet⟩
  · have hmem := mem_of_takeAt htake
    obtain ⟨job'', hends⟩ := h.deliver spec rest now (hfair w hmem) (hlate w hmem)
    refine ⟨⟨job'', by simpa [delivered, getElem?_of_takeAt htake] using hends⟩, ?_⟩
    intro w' hw' hj'
    rcases updateJob_cascade spec { t with writes := rest } w.job w.updates now with
      ⟨-, hwrites⟩ | ⟨_, children, -, -, -, hwrites, hchildren⟩
    · rw [hwrites] at hw'
      exact hlate w' (mem_of_mem_rest htake hw') hj'
    · rw [hwrites] at hw'
      rcases List.mem_append.1 hw' with hw' | hw'
      · exact hlate w' (mem_of_mem_rest htake hw') hj'
      · -- the job is no running child
        obtain ⟨c, hc, rfl⟩ := List.mem_map.1 hw'
        obtain ⟨child, hchild, hrunning⟩ := hchildren c hc
        obtain rfl : c = j := hj'
        obtain rfl : job'' = child := Option.some.inj (hends.record.symm.trans hchild)
        exact absurd hends.terminal (by simp [hrunning, JobStatus.terminal])
  · rw [delivered_of_ne he, List.append_nil]
    refine ⟨⟨job', hquiet.jobs j job' h.record, h.terminal, h.uncompleted, h.status, h.endedAt, ?_⟩,
      fun w hw hj => ?_⟩
    · rw [hquiet.cascades]
      exact h.cascades
    · rcases hquiet.writes w hw with hw | ⟨-, hclient | hnode | ⟨job₀, hjob₀, hrunning⟩⟩
      · exact hlate w hw hj
      · exact .inr (.inl hclient)
      · exact .inr (.inr hnode)
      · subst hj
        obtain rfl : job' = job₀ := Option.some.inj (h.record.symm.trans hjob₀)
        exact absurd h.terminal (by simp [hrunning, JobStatus.terminal])

/-- The system with the log of the writes that have reached the head. -/
def writing (spec : κ → JobSpec κ) : System (Cluster κ ι × List (Write κ)) (JobEvent κ ι) :=
  (cluster spec).logged delivered

/-- **How final a job's end is**: once CANCELED is recorded, or COMPLETED after the client has
all results, the job stays ended; its status changes only to FAILED or CANCELED, and only by the
word of its client, of a node, or of a writer on the head that had decided before the end; the
time of the end changes only by a reaper that had; and no more children are canceled with it. -/
theorem stays_ended {p q : Cluster κ ι × List (Write κ)} {as : List (JobEvent κ ι)}
    (hp : (writing spec).Reachable System.always p) (h : (writing spec).Run System.always p as q)
    (hj : p.1.jobs j = some job) (hfinal : job.Final) :
    ∃ job' new, q.2 = p.2 ++ new ∧ StaysEnded j job p.1 q.1 job' new := by
  have hfair : (writing spec).Invariant System.always
      fun p : Cluster κ ι × List (Write κ) => ∀ w ∈ p.1.writes, w.Fair := by
    constructor
    · rintro p ⟨hfresh, -⟩
      simp [hfresh.writes]
    · intro p e q hp _ hstep
      exact fair_step hp (System.logged_step_eq_some.1 hstep).1
  have hends : (writing spec).Preserved System.always fun q : Cluster κ ι × List (Write κ) =>
      (∀ w ∈ q.1.writes, w.Fair) ∧ (∀ w ∈ q.1.writes, w.job = j → w.Late p.1) ∧
        ∃ job' new, q.2 = p.2 ++ new ∧ StaysEnded j job p.1 q.1 job' new := by
    rintro q e q' ⟨hfairq, hlate, job', new, hnew, hstays⟩ _ hstep
    obtain ⟨hstep, hlog⟩ := System.logged_step_eq_some.1 hstep
    obtain ⟨⟨job'', hstays'⟩, hlate'⟩ := hstays.step hfairq hlate hstep
    refine ⟨fair_step hfairq hstep, hlate', job'', new ++ delivered q.1 e q'.1, ?_, hstays'⟩
    rw [hlog, hnew, List.append_assoc]
  have hstart : StaysEnded j job p.1 p.1 job [] :=
    ⟨hj, hfinal.terminal, id, .inl rfl, .inl rfl, rfl⟩
  exact (hends.run ⟨hfair.reachable hp, fun w hw _ => .inl hw, job, [], by simp, hstart⟩ h).2.2

end Main

/-! ### A job that is canceled and fails -/

/-- One job with one input. -/
def oneJob : Unit → JobSpec Unit := fun _ => ⟨1, false, none⟩

/-- The user cancels the job from the dashboard. -/
def canceled : Cluster Unit Unit × List (Write Unit) :=
  (((writing oneJob).guarded System.always).exec (.empty, [])
    [.start (), .join () (), .cancel (), .deliver 0 7]).get (by decide +kernel)

/-- The client, which finds its node gone, reports a failure. -/
def canceledThenFailed : Cluster Unit Unit × List (Write Unit) :=
  (((writing oneJob).guarded System.always).exec canceled
    [.clientFails () (.other "node disconnected"), .deliver 0 8]).get (by decide +kernel)

lemma reachable_canceled : (writing oneJob).Reachable System.always canceled := by
  have hrun : (writing oneJob).Run System.always (.empty, [])
      [.start (), .join () (), .cancel (), .deliver 0 7] canceled :=
    System.run_of_exec_guarded (Option.some_get _).symm
  exact ⟨(.empty, []), _, ⟨Cluster.fresh_empty, rfl⟩, hrun⟩

lemma run_canceledThenFailed : (writing oneJob).Run System.always canceled
    [.clientFails () (.other "node disconnected"), .deliver 0 8] canceledThenFailed :=
  System.run_of_exec_guarded (Option.some_get _).symm

/-- The job's record once it is canceled. -/
def canceledJob : Job := (canceled.1.jobs ()).get (by decide +kernel)

theorem stays_ended_canceledThenFailed :
    (∃ job' new, canceledThenFailed.2 = canceled.2 ++ new ∧
      StaysEnded () canceledJob canceled.1 canceledThenFailed.1 job' new) ∧
      (canceledThenFailed.1.jobs ()).map Job.endedAt = some (some 7) := by
  refine ⟨?_, by decide +kernel⟩
  exact stays_ended reachable_canceled run_canceledThenFailed (Option.some_get _).symm
    (.inl (by decide +kernel))

theorem canceled_then_failed :
    ¬ ∀ (spec : Unit → JobSpec Unit) (p q : Cluster Unit Unit × List (Write Unit))
      (as : List (JobEvent Unit Unit)) (j : Unit) (job : Job),
      (writing spec).Reachable System.always p → (writing spec).Run System.always p as q →
      p.1.jobs j = some job → job.Final →
      ∃ job', q.1.jobs j = some job' ∧ job'.status = job.status ∧ job'.endedAt = job.endedAt ∧
        (q.1.cascades.filter fun c => c.1 = j) = p.1.cascades.filter fun c => c.1 = j := by
  intro h
  obtain ⟨job', hjob', hstatus, -⟩ := h oneJob canceled canceledThenFailed _ () canceledJob
    reachable_canceled run_canceledThenFailed (Option.some_get _).symm (.inl (by decide +kernel))
  have hfailed : (canceledThenFailed.1.jobs ()).map Job.status = some .failed := by decide +kernel
  have hcanceled : canceledJob.status = .canceled := by decide +kernel
  rw [hjob', Option.map_some, hstatus, hcanceled] at hfailed
  cases hfailed

end Burla.Jobs
