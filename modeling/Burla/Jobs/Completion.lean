/-
COMPLETED is sound: whoever writes it, all results have been produced by then, and unless the
job is a detached one the client has them all.

Three writers conclude it from what they see: a node whose client has its results, a node whose
client is gone, and the reaper.  What they see is never more than what is there: the counts that
nodes report are those of results that they have produced, late or lost reports only say less,
and the client sets its flag when it has as many results as the job has inputs.  So the invariant
is that everything on the way, and everything recorded, is true of the results by now.
-/
import Burla.Jobs.Writers
import Mathlib.Algebra.Order.BigOperators.Group.Finset
import Mathlib.Data.Finset.Card

namespace Burla.Jobs

variable {κ ι : Type*}

/-! ### What has been produced -/

section Results

variable [DecidableEq ι] {results results' : List (ι × ℕ)} {received received' : List ℕ}

/-- How many results a node has produced. -/
def producedBy (results : List (ι × ℕ)) (i : ι) : ℕ := results.countP fun p => p.1 = i

/-- Every result is some node's. -/
lemma sum_producedBy [Fintype ι] (results : List (ι × ℕ)) :
    ∑ i, producedBy results i = results.length := by
  induction results with
  | nil => simp [producedBy]
  | cons p results ih =>
    have hcons : ∀ i, producedBy (p :: results) i =
        producedBy results i + if p.1 = i then 1 else 0 := by
      intro i
      simp [producedBy, List.countP_cons]
    simp only [hcons, Finset.sum_add_distrib, ih, Finset.sum_ite_eq, Finset.mem_univ, if_true,
      List.length_cons]

lemma producedBy_le (h : results <+: results') (i : ι) :
    producedBy results i ≤ producedBy results' i := h.sublist.countP_le

omit [DecidableEq ι] in
/-- As many different inputs as the job has are all of them. -/
lemma mem_of_length_le {l : List ℕ} {n : ℕ} (hnodup : l.Nodup) (hlt : ∀ k ∈ l, k < n)
    (hlen : n ≤ l.length) : ∀ k < n, k ∈ l := by
  intro k hk
  have hsub : l.toFinset ⊆ Finset.range n := by
    intro a ha
    exact Finset.mem_range.2 (hlt a (List.mem_toFinset.1 ha))
  have heq : l.toFinset = Finset.range n := by
    refine Finset.eq_of_subset_of_card_le hsub ?_
    rw [Finset.card_range, List.toFinset_card_of_nodup hnodup]
    exact hlen
  have hmem : k ∈ l.toFinset := heq ▸ Finset.mem_range.2 hk
  exact List.mem_toFinset.1 hmem

/-- All results have been produced. -/
def AllProduced (nInputs : ℕ) (results : List (ι × ℕ)) : Prop :=
  ∀ k < nInputs, k ∈ results.map Prod.snd

/-- The client has all results. -/
def AllReceived (nInputs : ℕ) (received : List ℕ) : Prop := ∀ k < nInputs, k ∈ received

/-- A job that may be called COMPLETED. -/
def Complete (spec : JobSpec κ) (results : List (ι × ℕ)) (received : List ℕ) : Prop :=
  AllProduced spec.nInputs results ∧
    (spec.isBackgroundJob = false → AllReceived spec.nInputs received)

omit [DecidableEq ι] in
lemma AllReceived.mono {nInputs : ℕ} (h : AllReceived nInputs received)
    (hsub : received <+: received') : AllReceived nInputs received' :=
  fun k hk => hsub.subset (h k hk)

omit [DecidableEq ι] in
lemma Complete.mono {spec : JobSpec κ} (h : Complete spec results received)
    (hresults : results <+: results') (hreceived : received <+: received') :
    Complete spec results' received' :=
  ⟨fun k hk => (hresults.map Prod.snd).subset (h.1 k hk), fun hb => (h.2 hb).mono hreceived⟩

end Results

/-! ### True statements about a job -/

section Good

variable [DecidableEq ι] {spec : JobSpec κ} {results results' : List (ι × ℕ)}
  {received received' : List ℕ}

/-- A view says no more than there is. -/
def JobView.Good (spec : JobSpec κ) (results : List (ι × ℕ)) (received : List ℕ)
    (view : JobView) : Prop :=
  view.totalNumResults ≤ results.length ∧
    (view.clientHasAllResults = true → AllReceived spec.nInputs received)

/-- A writer that concludes COMPLETED is right, and so is the client that has all results. -/
def Updates.Good (spec : JobSpec κ) (results : List (ι × ℕ)) (received : List ℕ)
    (u : Updates) : Prop :=
  (u.status = some .completed → Complete spec results received) ∧
    (u.clientHasAllResults = true → AllReceived spec.nInputs received)

/-- The record is right. -/
def Job.Good (spec : JobSpec κ) (results : List (ι × ℕ)) (received : List ℕ) (job : Job) : Prop :=
  (job.status = .completed → Complete spec results received) ∧
    (job.clientHasAllResults = true → AllReceived spec.nInputs received)

/-- A watcher counts results that its node has produced, and waits for the other nodes' without
a client only if the job is detached. -/
def Watcher.Good (spec : JobSpec κ) (results : List (ι × ℕ)) (i : ι) (w : Watcher κ) : Prop :=
  w.numResultsReceived ≤ producedBy results i ∧
    (w.phase = .asking true → w.jobFailed = true ∨ w.jobCanceled = true ∨
      spec.isBackgroundJob = true)

omit [DecidableEq ι] in
lemma JobView.Good.mono {view : JobView} (h : view.Good spec results received)
    (hresults : results <+: results') (hreceived : received <+: received') :
    view.Good spec results' received' :=
  ⟨h.1.trans hresults.length_le, fun hv => (h.2 hv).mono hreceived⟩

omit [DecidableEq ι] in
lemma Updates.Good.mono {u : Updates} (h : u.Good spec results received)
    (hresults : results <+: results') (hreceived : received <+: received') :
    u.Good spec results' received' :=
  ⟨fun hu => (h.1 hu).mono hresults hreceived, fun hu => (h.2 hu).mono hreceived⟩

omit [DecidableEq ι] in
lemma Job.Good.mono {job : Job} (h : job.Good spec results received)
    (hresults : results <+: results') (hreceived : received <+: received') :
    job.Good spec results' received' :=
  ⟨fun hj => (h.1 hj).mono hresults hreceived, fun hj => (h.2 hj).mono hreceived⟩

lemma Watcher.Good.mono {w : Watcher κ} {i : ι} (h : w.Good spec results i)
    (hresults : results <+: results') : w.Good spec results' i :=
  ⟨h.1.trans (producedBy_le hresults i), h.2⟩

omit [DecidableEq ι] in
/-- What a writer says that concludes nothing. -/
lemma Updates.good_of_ne {u : Updates} (hstatus : u.status ≠ some .completed)
    (hall : u.clientHasAllResults = false) : u.Good spec results received :=
  ⟨fun h => absurd h hstatus, fun h => by simp [hall] at h⟩

omit [DecidableEq ι] in
/-- A record stays right under updates that are. -/
lemma Job.Good.update {job : Job} {u : Updates} (h : job.Good spec results received)
    (hu : u.Good spec results received) (now : ℚ) :
    (job.update u now).Good spec results received := by
  constructor
  · intro hstatus
    rcases Job.newStatus_eq_completed hstatus with hold | ⟨-, hnew⟩
    · exact h.1 hold
    · exact hu.1 hnew
  · intro hall
    rcases (Bool.or_eq_true _ _).mp hall with hold | hnew
    · exact h.2 hold
    · exact hu.2 hnew

end Good

/-! ### The invariant -/

/-- Everything recorded and everything on the way is true by now. -/
structure Sound [DecidableEq ι] (spec : κ → JobSpec κ) (s : Cluster κ ι) : Prop where
  once : ∀ j, ((s.results j).map Prod.snd).Nodup
  inputs : ∀ j, ∀ k ∈ (s.results j).map Prod.snd, k < (spec j).nInputs
  receivedOnce : ∀ j, (s.received j).Nodup
  produced : ∀ j, ∀ k ∈ s.received j, k ∈ (s.results j).map Prod.snd
  assigned : ∀ j i, s.assigned j i ≤ producedBy (s.results j) i
  pushes : ∀ p ∈ s.pushes, p.currentNumResults ≤ producedBy (s.results p.job) p.node
  watchers : ∀ i w, s.watchers i = some w → w.Good (spec w.job) (s.results w.job) i
  responses : ∀ r ∈ s.responses, r.view.Good (spec r.job) (s.results r.job) (s.received r.job)
  writes : ∀ w ∈ s.writes, w.updates.Good (spec w.job) (s.results w.job) (s.received w.job)
  jobs : ∀ j job, s.jobs j = some job → job.Good (spec j) (s.results j) (s.received j)

namespace Sound

variable [DecidableEq ι] {spec : κ → JobSpec κ} {s t : Cluster κ ι} {i : ι} {j : κ}
  {w : Watcher κ} {job : Job}

lemma of_fresh (h : s.Fresh) : Sound spec s where
  once j := by simp [h.results]
  inputs j := by simp [h.results]
  receivedOnce j := by simp [h.received]
  produced j := by simp [h.received]
  assigned j i := by simp [h.assigned]
  pushes := by simp [h.pushes]
  watchers i w hw := by simp [h.watchers] at hw
  responses := by simp [h.responses]
  writes := by simp [h.writes]
  jobs j job hj := by simp [h.jobs] at hj

/-- A writer sends something true. -/
lemma send (h : Sound spec s) {writer : Writer} {u : Updates}
    (hu : u.Good (spec j) (s.results j) (s.received j)) : Sound spec (s.send writer j u) :=
  { h with
    writes := by
      intro w hw
      rcases List.mem_append.1 hw with hw | hw
      · exact h.writes w hw
      · obtain rfl := List.mem_singleton.1 hw
        exact hu }

lemma setWatcher (h : Sound spec s) {o : Option (Watcher κ)}
    (ho : ∀ w ∈ o, w.Good (spec w.job) (s.results w.job) i) : Sound spec (s.setWatcher i o) :=
  { h with
    watchers := by
      intro i' w hw
      rw [Cluster.watchers_setWatcher] at hw
      split_ifs at hw with hi
      · subst hi
        exact ho w hw
      · exact h.watchers i' w hw }

/-- A watcher that concludes nothing ends. -/
lemma finish (h : Sound spec s) {u : Updates}
    (hu : u.Good (spec w.job) (s.results w.job) (s.received w.job)) :
    Sound spec (s.finish i w u) := by
  have hremoved : Sound spec (s.setWatcher i none) := h.setWatcher (by simp)
  exact hremoved.send hu

lemma report (h : Sound spec s)
    (hw : w.numResultsReceived ≤ producedBy (s.results w.job) i) : Sound spec (s.report i w) :=
  { h with
    pushes := by
      intro p hp
      rcases List.mem_append.1 hp with hp | hp
      · exact h.pushes p hp
      · obtain rfl := List.mem_singleton.1 hp
        exact hw }

/-- More results. -/
lemma grow (h : Sound spec s) {results : κ → List (ι × ℕ)} {received : κ → List ℕ}
    (hresults : ∀ j, s.results j <+: results j) (hreceived : ∀ j, s.received j <+: received j)
    (honce : ∀ j, ((results j).map Prod.snd).Nodup)
    (hinputs : ∀ j, ∀ k ∈ (results j).map Prod.snd, k < (spec j).nInputs)
    (hreceivedOnce : ∀ j, (received j).Nodup)
    (hproduced : ∀ j, ∀ k ∈ received j, k ∈ (results j).map Prod.snd) :
    Sound spec { s with results, received } where
  once := honce
  inputs := hinputs
  receivedOnce := hreceivedOnce
  produced := hproduced
  assigned j i := (h.assigned j i).trans (producedBy_le (hresults j) i)
  pushes p hp := (h.pushes p hp).trans (producedBy_le (hresults p.job) p.node)
  watchers i w hw := (h.watchers i w hw).mono (hresults w.job)
  responses r hr := (h.responses r hr).mono (hresults r.job) (hreceived r.job)
  writes w hw := (h.writes w hw).mono (hresults w.job) (hreceived w.job)
  jobs j job hj := (h.jobs j job hj).mono (hresults j) (hreceived j)

/-- A job whose results have all been counted is complete, if nobody waits for them. -/
lemma allProduced (h : Sound spec s) (hlen : (spec j).nInputs ≤ (s.results j).length) :
    AllProduced (spec j).nInputs (s.results j) :=
  mem_of_length_le (h.once j) (h.inputs j) (by simpa using hlen)

/-- A job whose client has all results is complete. -/
lemma complete_of_received (h : Sound spec s)
    (hreceived : AllReceived (spec j).nInputs (s.received j)) :
    Complete (spec j) (s.results j) (s.received j) :=
  ⟨fun k hk => h.produced j k (hreceived k hk), fun _ => hreceived⟩

section Counts

variable [Fintype ι]

/-- What nodes have reported is no more than there is. -/
lemma sum_assigned_le (h : Sound spec s) (j : κ) :
    ∑ i, s.assigned j i ≤ (s.results j).length := by
  rw [← sum_producedBy]
  exact Finset.sum_le_sum fun i _ => h.assigned j i

lemma jobView_good (h : Sound spec s) (hj : s.jobs j = some job) :
    (jobView job (s.assigned j)).Good (spec j) (s.results j) (s.received j) :=
  ⟨h.sum_assigned_le j, (h.jobs j job hj).2⟩

/-- The reaper's verdict. -/
lemma reap (h : Sound spec s) (hj : s.jobs j = some job)
    (hverdict : reaperVerdict (spec j).nInputs (spec j).isBackgroundJob job
      (∑ i, s.assigned j i) = .completed) : Complete (spec j) (s.results j) (s.received j) := by
  unfold reaperVerdict at hverdict
  split_ifs at hverdict with hcond
  rcases hcond with hall | ⟨hbackground, -, -, hle⟩
  · exact h.complete_of_received ((h.jobs j job hj).2 hall)
  · exact ⟨h.allProduced (hle.trans (h.sum_assigned_le j)), fun hb => by simp [hbackground] at hb⟩

end Counts

variable [DecidableEq κ]

/-- The head applies updates. -/
lemma updateJob (h : Sound spec s) {u : Updates}
    (hu : u.Good (spec j) (s.results j) (s.received j)) (now : ℚ) :
    Sound spec (s.updateJob spec j u now) := by
  unfold Cluster.updateJob
  cases hj : s.jobs j with
  | none => exact h
  | some job =>
    have hjobs : Sound spec { s with jobs := Function.update s.jobs j (some (job.update u now)) } :=
      { h with
        jobs := by
          intro j' job' hj'
          by_cases hjj : j' = j
          · subst hjj
            simp only [Function.update_self, Option.some.injEq] at hj'
            subst hj'
            exact (h.jobs j' job hj).update hu now
          · simp only [Function.update_of_ne hjj] at hj'
            exact h.jobs j' job' hj' }
    simp only
    split_ifs
    · exact { hjobs with
        writes := by
          intro w hw
          rcases List.mem_append.1 hw with hw | hw
          · exact h.writes w hw
          · obtain ⟨c, -, rfl⟩ := List.mem_map.1 hw
            exact Updates.good_of_ne (by simp [Cluster.parentTerminated, Updates.ofStatus]) rfl }
    · exact hjobs

end Sound

/-! ### The watchers' steps -/

section Watchers

variable [DecidableEq ι] {spec : κ → JobSpec κ} {s t : Cluster κ ι} {i : ι} {w : Watcher κ}

omit [DecidableEq ι] in
/-- A status other than COMPLETED concludes nothing. -/
lemma good_ofStatus {spec : JobSpec κ} {results : List (ι × ℕ)} {received : List ℕ}
    {status : JobStatus} (h : status ≠ .completed) :
    (Updates.ofStatus status).Good spec results received :=
  Updates.good_of_ne (by simpa [Updates.ofStatus] using h) rfl

omit [DecidableEq ι] in
lemma good_failure {spec : JobSpec κ} {results : List (ι × ℕ)} {received : List ℕ}
    (reason : String) : (Updates.failure reason).Good spec results received :=
  Updates.good_of_ne (by simp [Updates.failure, Updates.ofStatus]) rfl

omit [DecidableEq ι] in
/-- A watcher that has read of a failure or a cancellation reports no completion. -/
lemma Watcher.endStatus_ne (h : w.jobFailed = true ∨ w.jobCanceled = true) :
    w.endStatus ≠ .completed := by
  unfold Watcher.endStatus
  split_ifs with hf hc hv
  · simp
  · simp
  · rcases hv with hv | hv <;> simp [hv]
  · rcases h with h | h <;> contradiction

lemma Sound.noticeClient (h : Sound spec s) (isBackgroundJob disconnected : Bool) :
    Sound spec (s.noticeClient isBackgroundJob w disconnected) := by
  unfold Cluster.noticeClient
  split_ifs
  · exact h.send (good_failure _)
  · exact h

omit [DecidableEq ι] in
lemma results_noticeClient (isBackgroundJob disconnected : Bool) :
    (s.noticeClient isBackgroundJob w disconnected).results = s.results := by
  unfold Cluster.noticeClient
  split_ifs <;> rfl

lemma Sound.checkEnd (h : Sound spec s) {abandoned : Bool} (processed : Bool)
    (hcount : w.numResultsReceived ≤ producedBy (s.results w.job) i)
    (hflags : abandoned = true → w.jobFailed = true ∨ w.jobCanceled = true ∨
      (spec w.job).isBackgroundJob = true) :
    Sound spec (s.checkEnd i w abandoned processed) := by
  unfold Cluster.checkEnd
  split_ifs with hask hend
  · refine Sound.report (h.setWatcher ?_) hcount
    rintro w' ⟨⟩
    exact ⟨hcount, fun hphase => hflags (WatcherPhase.asking.inj hphase)⟩
  · exact h.finish (good_ofStatus (Watcher.endStatus_ne hend))
  · refine h.setWatcher ?_
    rintro w' ⟨⟩
    exact ⟨hcount, by simp⟩

lemma Sound.check (h : Sound spec s) (hw : s.watchers i = some w)
    (disconnected pendingResultsEmpty processed : Bool) :
    Sound spec (s.check spec i w disconnected pendingResultsEmpty processed) := by
  have hcount := (h.watchers i w hw).1
  have hflags := w.flagged_notice (spec w.job).isBackgroundJob
  refine (h.noticeClient _ _).checkEnd processed ?_ ?_
  · rw [results_noticeClient]
    obtain ⟨jobFailed, jobCanceled, hnotice⟩ := w.notice_eq (spec w.job).isBackgroundJob disconnected
    rwa [hnotice]
  · intro habandoned
    obtain ⟨rfl, -⟩ : disconnected = true ∧ pendingResultsEmpty = true := by
      simpa using habandoned
    obtain ⟨jobFailed, jobCanceled, hnotice⟩ := w.notice_eq (spec w.job).isBackgroundJob true
    rw [hnotice] at hflags ⊢
    exact hflags

/-- The watcher reads the view that its own push has brought, and concludes from it. -/
lemma Sound.answer (h : Sound spec s) (hw : w.Good (spec w.job) (s.results w.job) i)
    (hview : w.view.Good (spec w.job) (s.results w.job) (s.received w.job))
    (ht : s.answer spec i w = some t) : Sound spec t := by
  unfold Cluster.answer at ht
  cases hphase : w.phase with
  | starting =>
    simp only [hphase, Option.some.injEq] at ht
    subst ht
    refine h.setWatcher ?_
    rintro w' ⟨⟩
    exact ⟨hw.1, by simp⟩
  | looping | checking => simp [hphase] at ht
  | asking abandoned =>
    simp only [hphase] at ht
    split_ifs at ht with hend
    · obtain rfl := Option.some.inj ht
      refine h.finish ⟨fun hstatus => ?_, by simp [Updates.ofStatus, Updates.none]⟩
      have hcompleted : w.endStatus = .completed := Option.some.inj hstatus
      have hflags : w.jobFailed = false ∧ w.jobCanceled = false := by
        constructor <;> by_contra hflag
        · exact Watcher.endStatus_ne (.inl (by simpa using hflag)) hcompleted
        · exact Watcher.endStatus_ne (.inr (by simpa using hflag)) hcompleted
      have hdone : w.jobCompleted (spec w.job).nInputs abandoned = true := by
        simpa [hflags] using hend
      cases abandoned with
      | false => exact h.complete_of_received (hview.2 hdone)
      | true =>
        -- nobody waits for the results of a detached job
        have hbackground : (spec w.job).isBackgroundJob = true := by
          simpa [hflags] using hw.2 hphase
        have htotal : (spec w.job).nInputs = w.view.totalNumResults := by
          simpa [Watcher.jobCompleted] using hdone
        exact ⟨h.allProduced (htotal ▸ hview.1), fun hb => by simp [hbackground] at hb⟩
    · obtain rfl := Option.some.inj ht
      refine h.setWatcher ?_
      rintro w' ⟨⟩
      exact ⟨hw.1, by simp⟩

end Watchers

/-! ### Results -/

section Results

variable [DecidableEq κ] [DecidableEq ι] {spec : κ → JobSpec κ} {s : Cluster κ ι} {i : ι} {j : κ}
  {w : Watcher κ} {k : ℕ}

/-- A node produces a result that nobody has produced. -/
lemma Sound.produce (h : Sound spec s) (hw : s.watchers i = some w)
    (hk : k < (spec w.job).nInputs) (hnew : k ∉ (s.results w.job).map Prod.snd) :
    Sound spec
      { s.setWatcher i (some { w with numResultsReceived := w.numResultsReceived + 1 }) with
        results := Function.update s.results w.job (s.results w.job ++ [(i, k)]) } := by
  set results := Function.update s.results w.job (s.results w.job ++ [(i, k)]) with hresults
  have hself : results w.job = s.results w.job ++ [(i, k)] := by
    rw [hresults, Function.update_self]
  have hother : ∀ j, j ≠ w.job → results j = s.results j := fun j hj => by
    rw [hresults, Function.update_of_ne hj]
  have hold : ∀ j, s.results j <+: results j := by
    intro j
    by_cases hj : j = w.job
    · subst hj
      rw [hself]
      exact List.prefix_append _ _
    · rw [hother j hj]
  have hgrown : Sound spec { s with results, received := s.received } := by
    refine h.grow hold (fun j => List.prefix_refl _) (fun j => ?_) (fun j => ?_) h.receivedOnce ?_
    · by_cases hj : j = w.job
      · subst hj
        rw [hself, List.map_append, List.map_singleton]
        rw [← List.concat_eq_append]
        exact (h.once w.job).concat hnew
      · rw [hother j hj]
        exact h.once j
    · by_cases hj : j = w.job
      · subst hj
        rw [hself, List.map_append, List.map_singleton]
        intro a ha
        rcases List.mem_append.1 ha with ha | ha
        · exact h.inputs w.job a ha
        · rwa [List.mem_singleton.1 ha]
      · rw [hother j hj]
        exact h.inputs j
    · exact fun j a ha => ((hold j).map Prod.snd).subset (h.produced j a ha)
  have hgood := h.watchers i w hw
  have hset : Sound spec
      (({ s with results, received := s.received } : Cluster κ ι).setWatcher i
        (some { w with numResultsReceived := w.numResultsReceived + 1 })) := by
    refine hgrown.setWatcher ?_
    rintro w' ⟨⟩
    refine ⟨?_, hgood.2⟩
    show w.numResultsReceived + 1 ≤ producedBy (results w.job) i
    rw [hself, producedBy, List.countP_append]
    have hone : List.countP (fun p : ι × ℕ => decide (p.1 = i)) [(i, k)] = 1 := by simp
    rw [hone]
    exact Nat.succ_le_succ hgood.1
  exact hset

/-- The client gets a result that it does not have. -/
lemma Sound.receive (h : Sound spec s) (hproduced : k ∈ (s.results j).map Prod.snd)
    (hnew : k ∉ s.received j) :
    Sound spec { s with received := Function.update s.received j (s.received j ++ [k]) } := by
  set received := Function.update s.received j (s.received j ++ [k]) with hreceived
  have hself : received j = s.received j ++ [k] := by rw [hreceived, Function.update_self]
  have hother : ∀ j', j' ≠ j → received j' = s.received j' := fun j' hj => by
    rw [hreceived, Function.update_of_ne hj]
  refine h.grow (fun j => List.prefix_refl _) (fun j' => ?_) h.once h.inputs (fun j' => ?_)
    fun j' => ?_
  · by_cases hj : j' = j
    · subst hj
      rw [hself]
      exact List.prefix_append _ _
    · rw [hother j' hj]
  · by_cases hj : j' = j
    · subst hj
      rw [hself]
      rw [← List.concat_eq_append]
      exact (h.receivedOnce j').concat hnew
    · rw [hother j' hj]
      exact h.receivedOnce j'
  · by_cases hj : j' = j
    · subst hj
      rw [hself]
      intro a ha
      rcases List.mem_append.1 ha with ha | ha
      · exact h.produced j' a ha
      · rwa [List.mem_singleton.1 ha]
    · rw [hother j' hj]
      exact h.produced j'

/-- A report arrives, however late. -/
lemma Sound.pushArrives [Fintype ι] (h : Sound spec s) {p : Push κ ι} {job : Job}
    (hj : s.jobs p.job = some job)
    (hp : p.currentNumResults ≤ producedBy (s.results p.job) p.node) :
    Sound spec
      { s with
        assigned := Function.update s.assigned p.job
          (Function.update (s.assigned p.job) p.node p.currentNumResults)
        responses := s.responses ++ [⟨p.job, p.node, jobView job
          (Function.update s.assigned p.job
            (Function.update (s.assigned p.job) p.node p.currentNumResults) p.job)⟩] } := by
  set assigned := Function.update s.assigned p.job
    (Function.update (s.assigned p.job) p.node p.currentNumResults) with hassigned
  have hreported : Sound spec { s with assigned } :=
    { h with
      assigned := by
        intro j i
        show assigned j i ≤ producedBy (s.results j) i
        rw [hassigned]
        by_cases hjp : j = p.job
        · subst hjp
          rw [Function.update_self, Function.update_apply]
          split_ifs with hi
          · rwa [hi]
          · exact h.assigned p.job i
        · rw [Function.update_of_ne hjp]
          exact h.assigned j i }
  exact { hreported with
    responses := by
      intro r hr
      rcases List.mem_append.1 hr with hr | hr
      · exact h.responses r hr
      · obtain rfl := List.mem_singleton.1 hr
        exact hreported.jobView_good hj }

end Results

/-! ### Every step -/

section Main

variable [DecidableEq κ] [DecidableEq ι] [Fintype ι] {spec : κ → JobSpec κ} {s t : Cluster κ ι}
  {e : JobEvent κ ι}

lemma Sound.step (h : Sound spec s) (hstep : jobStep spec s e = some t) : Sound spec t := by
  cases e with
  | start j =>
    simp only [jobStep, Option.ite_none_right_eq_some, Option.some.injEq] at hstep
    obtain ⟨-, rfl⟩ := hstep
    exact { h with
      jobs := by
        intro j' job hj
        by_cases hjj : j' = j
        · subst hjj
          simp only [Function.update_self, Option.some.injEq] at hj
          subst hj
          exact ⟨by simp [Job.new], by simp [Job.new]⟩
        · simp only [Function.update_of_ne hjj] at hj
          exact h.jobs j' job hj }
  | deliver n now =>
    simp only [jobStep] at hstep
    split at hstep
    · cases hstep
    · rename_i w rest htake
      obtain rfl := Option.some.inj hstep
      have hrest : Sound spec { s with writes := rest } :=
        { h with writes := fun w' hw' => h.writes w' (mem_of_mem_rest htake hw') }
      exact hrest.updateJob (h.writes w (mem_of_takeAt htake)) now
  | drop n =>
    simp only [jobStep] at hstep
    split at hstep
    · cases hstep
    · rename_i w rest htake
      obtain rfl := Option.some.inj hstep
      exact { h with writes := fun w' hw' => h.writes w' (mem_of_mem_rest htake hw') }
  | restart =>
    obtain rfl := Option.some.inj hstep
    exact { h with assigned := fun _ _ => Nat.zero_le _ }
  | cancel j =>
    simp only [jobStep] at hstep
    split at hstep
    · cases hstep
    · simp only [Option.ite_none_left_eq_some, Option.some.injEq] at hstep
      obtain ⟨-, rfl⟩ := hstep
      exact h.send (Updates.good_of_ne (by simp [Updates.ofStatus]) rfl)
  | clusterShutdown j restarted =>
    simp only [jobStep] at hstep
    split at hstep
    · cases hstep
    · simp only [Option.ite_none_right_eq_some, Option.some.injEq] at hstep
      obtain ⟨-, rfl⟩ := hstep
      exact h.send (Updates.good_of_ne (by simp [Updates.ofStatus]) rfl)
  | reap j endedAt =>
    simp only [jobStep] at hstep
    split at hstep
    · cases hstep
    · rename_i job hj
      simp only [Option.ite_none_right_eq_some, Option.some.injEq] at hstep
      obtain ⟨-, rfl⟩ := hstep
      exact h.send ⟨fun hstatus => h.reap hj (Option.some.inj hstatus), fun hall => by cases hall⟩
  | produce i k =>
    simp only [jobStep] at hstep
    split at hstep
    · cases hstep
    · rename_i w hw
      simp only [Option.ite_none_right_eq_some, Option.some.injEq] at hstep
      obtain ⟨⟨hk, hnew⟩, rfl⟩ := hstep
      exact h.produce hw hk hnew
  | receive j k =>
    simp only [jobStep, Option.ite_none_right_eq_some, Option.some.injEq] at hstep
    obtain ⟨⟨hproduced, hnew⟩, rfl⟩ := hstep
    exact h.receive hproduced hnew
  | inputsDone j =>
    obtain rfl := Option.some.inj hstep
    exact h.send (Updates.good_of_ne (by simp [Updates.none]) rfl)
  | hasAllResults j =>
    simp only [jobStep, Option.ite_none_left_eq_some, Option.some.injEq] at hstep
    obtain ⟨hlen, rfl⟩ := hstep
    refine h.send ⟨by simp [Updates.none], fun _ => ?_⟩
    exact mem_of_length_le (h.receivedOnce j) (fun k hk => h.inputs j k (h.produced j k hk))
      (not_lt.1 hlen)
  | clientFails j e =>
    cases e with
    | mainServiceTimeout | lifecycle => cases hstep
    | other message =>
      simp only [jobStep, Option.ite_none_left_eq_some, Option.some.injEq] at hstep
      obtain ⟨-, rfl⟩ := hstep
      exact h.send (good_failure _)
  | clientSignal j inputsDone =>
    simp only [jobStep, Option.ite_none_left_eq_some, Option.some.injEq] at hstep
    obtain ⟨-, rfl⟩ := hstep
    exact h.send (Updates.good_of_ne (by simp [Updates.ofStatus]) rfl)
  | join i j =>
    simp only [jobStep] at hstep
    split at hstep
    · obtain rfl := Option.some.inj hstep
      refine Sound.report (h.setWatcher ?_) (Nat.zero_le _)
      rintro w ⟨⟩
      exact ⟨Nat.zero_le _, by simp⟩
    · cases hstep
  | push i =>
    obtain ⟨w, hw, rfl⟩ := Option.map_eq_some_iff.1 hstep
    exact h.report (h.watchers i w hw).1
  | pushArrives n =>
    simp only [jobStep] at hstep
    split at hstep
    · cases hstep
    · rename_i p rest htake
      have hrest : Sound spec { s with pushes := rest } :=
        { h with pushes := fun p' hp' => h.pushes p' (mem_of_mem_rest htake hp') }
      split at hstep
      · obtain rfl := Option.some.inj hstep
        exact hrest
      · rename_i job hj
        obtain rfl := Option.some.inj hstep
        exact hrest.pushArrives hj (h.pushes p (mem_of_takeAt htake))
  | pushLost n =>
    simp only [jobStep] at hstep
    split at hstep
    · cases hstep
    · rename_i p rest htake
      obtain rfl := Option.some.inj hstep
      exact { h with pushes := fun p' hp' => h.pushes p' (mem_of_mem_rest htake hp') }
  | read n =>
    simp only [jobStep] at hstep
    split at hstep
    · cases hstep
    · rename_i r rest htake
      have hrest : Sound spec { s with responses := rest } :=
        { h with responses := fun r' hr' => h.responses r' (mem_of_mem_rest htake hr') }
      split at hstep
      · obtain rfl := Option.some.inj hstep
        exact hrest
      · rename_i w hw
        obtain rfl := Option.some.inj hstep
        refine hrest.setWatcher ?_
        rintro w' ⟨⟩
        exact h.watchers r.node w hw
  | responseLost n =>
    simp only [jobStep] at hstep
    split at hstep
    · cases hstep
    · rename_i r rest htake
      obtain rfl := Option.some.inj hstep
      exact { h with responses := fun r' hr' => h.responses r' (mem_of_mem_rest htake hr') }
  | observe i =>
    simp only [jobStep] at hstep
    split at hstep
    · cases hstep
    · rename_i w hw
      simp only [Option.ite_none_right_eq_some, Option.some.injEq] at hstep
      obtain ⟨-, rfl⟩ := hstep
      refine h.setWatcher ?_
      rintro w' ⟨⟩
      exact ⟨(h.watchers i w hw).1, by simp [Watcher.observe]⟩
  | check i disconnected pendingResultsEmpty processed =>
    simp only [jobStep] at hstep
    split at hstep
    · cases hstep
    · rename_i w hw
      simp only [Option.ite_none_right_eq_some, Option.some.injEq] at hstep
      obtain ⟨-, rfl⟩ := hstep
      exact h.check hw disconnected pendingResultsEmpty processed
  | answer n =>
    simp only [jobStep] at hstep
    split at hstep
    · cases hstep
    · rename_i r rest htake
      split at hstep
      · cases hstep
      · rename_i w hw
        simp only [Option.ite_none_right_eq_some] at hstep
        obtain ⟨hjob, hanswer⟩ := hstep
        have hrest : Sound spec { s with responses := rest } :=
          { h with responses := fun r' hr' => h.responses r' (mem_of_mem_rest htake hr') }
        have hsignals : (w.applySignals r.view).Good (spec w.job) (s.results w.job) r.node :=
          h.watchers r.node w hw
        refine hrest.answer hsignals ?_ hanswer
        have hview := h.responses r (mem_of_takeAt htake)
        rw [← hjob] at hview
        exact hview
  | leave i =>
    obtain ⟨w, -, rfl⟩ := Option.map_eq_some_iff.1 hstep
    exact h.setWatcher (by simp)
  | raise i message =>
    obtain ⟨w, -, rfl⟩ := Option.map_eq_some_iff.1 hstep
    exact h.finish (good_failure _)
  | ackFails i reason =>
    obtain ⟨w, -, rfl⟩ := Option.map_eq_some_iff.1 hstep
    exact h.send (good_failure _)

end Main

/-! ### A detached job -/

/-- A detached job with two inputs. -/
def twoInputs : Unit → JobSpec Unit := fun _ => ⟨2, true, none⟩

/-- Two nodes produce a result each, then the client detaches; the second node's report is late,
and the first one finds the job complete. -/
def detachedRun : List (JobEvent Unit Bool) :=
  [.start (), .join true (), .join false (), .pushArrives 0, .pushArrives 0, .answer 0, .answer 0,
    .produce true 0, .produce false 1, .inputsDone (), .deliver 0 5, .push true, .push false,
    .pushArrives 0, .read 0, .observe true, .check true true true true, .pushArrives 0,
    .pushArrives 0, .responseLost 0, .answer 0, .deliver 0 9]

def detached : Cluster Unit Bool :=
  (((cluster twoInputs).guarded System.always).exec .empty detachedRun).get (by decide +kernel)

/-- Its record at the end. -/
def detachedJob : Job := (detached.jobs ()).get (by decide +kernel)

end Burla.Jobs
