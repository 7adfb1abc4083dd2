/-
The head's record of a node against what the node knows of itself.

The loop's pushes repeat the status only, so the head hears of `current_job` and of a cleared
reservation from the push of the transition alone.  As long as nothing is lost, what the queue
of pushes will leave at the head is what the node has; a push that is lost is made up for when
a later one is on its way, when the failure makes the node reboot or reset once more, or when
it fails the node.  Nobody makes up for the push of `on_job_start` once the job is accepted or
its assignment is taken back, for the push of an assignment taken back, nor for the last push
of a job's end.

The main results are

* `Node.agrees_of_conveyed`: when no such push is lost, an exchange of the loop that ends with no
  transition under way leaves the head and the node with the same;
* `Node.start_push_lost_job_unknown`: after a lost push of `on_job_start` the head does not learn of
  the job from any exchange.
-/
import Burla.Assign.Node

namespace Burla.Assign

open Register

variable {κ : Type*}

namespace Node

/-! ### What the head will have heard -/

/-- The pushes that the head has not seen yet. -/
def outstanding (s : Node κ) : List (Push κ) :=
  match s.flight with
  | some ⟨p, _, none⟩ => p :: s.queue
  | _ => s.queue

/-- Once the pushes have reached it, the head has what the node has. -/
structure Told (s : Node κ) : Prop where
  currentJob : settle Push.currentJob s.outstanding s.head.currentJob = s.currentJob
  reservedForJob : s.currentJob ≠ none → (∀ p ∈ s.outstanding, p.currentJob = none) →
    s.head.reservedForJob = none

/-- The node's last assignment is one that the head was not told of, and is still undecided. -/
def Unheard (s : Node κ) : Prop :=
  ∃ i post, s.onJobStartTask = some i ∧ s.startPush i = .lost ∧ s.posts i = some post ∧
    post.stage.undecided = true

/-- Something is still to happen after which the head is told again, or need not be. -/
inductive Excused (s : Node κ) : Prop
  | terminal (h : s.head.status.terminal = true)
  | telling (h : s.reboot = some .telling)
  | failed (hfailed : s.failed = true) (hstatus : s.reportedStatus = .failed)
    (hreboot : s.reboot = none)
  | rebootDue (h : 0 < s.rebootsDue)
  | resetDue (h : 0 < s.resetsDue)
  | unheard (h : s.Unheard)

/-- Losing this push is made up for. -/
def Recovers (s : Node κ) : Push κ → Prop
  | .start i _ => s.onJobStartTask = some i ∧ s.startPush i = .pending ∧
      ∃ post ∈ s.posts i, post.stage.undecided = true
  | .aborted => False
  | .ended last => last = false
  | .loop | .refused _ | .reservation | .boot | .booted | .failed | .deleted => True

/-- Every transition is conveyed to the head.  A push is lost before the head has it only where
that is made up for; an assignment whose first push was lost is neither accepted nor taken
back; and a reboot does not overtake the push of an assignment that came meanwhile. -/
def Conveyed (s : Node κ) : NodeEvent κ → Prop
  | .lose => ∀ f ∈ s.flight, f.view = none →
      (∃ p ∈ s.queue, p.currentJob ≠ none) ∨ s.Recovers f.push
  | .accept i | .disconnect i => s.onJobStartTask = some i → s.startPush i ≠ .lost
  | .answer => ∀ f ∈ s.flight, f.push = .boot → ∀ view ∈ f.view, view.status.terminal = false →
      ∀ p ∈ s.queue, ∀ job ∈ p.currentJob, job = none
  | _ => True

instance [DecidableEq κ] (s : Node κ) (p : Push κ) : Decidable (s.Recovers p) :=
  match p with
  | .start i _ => inferInstanceAs (Decidable (_ ∧ _ ∧ ∃ post ∈ s.posts i, _))
  | .aborted => .isFalse id
  | .ended last => inferInstanceAs (Decidable (last = false))
  | .loop | .refused _ | .reservation | .boot | .booted | .failed | .deleted => .isTrue trivial

instance [DecidableEq κ] (s : Node κ) (e : NodeEvent κ) : Decidable (s.Conveyed e) :=
  match e with
  | .lose => inferInstanceAs (Decidable (∀ f ∈ s.flight, f.view = none →
      (∃ p ∈ s.queue, p.currentJob ≠ none) ∨ s.Recovers f.push))
  | .accept i | .disconnect i =>
    inferInstanceAs (Decidable (s.onJobStartTask = some i → s.startPush i ≠ .lost))
  | .answer => inferInstanceAs (Decidable (∀ f ∈ s.flight, f.push = .boot → ∀ view ∈ f.view,
      view.status.terminal = false → ∀ p ∈ s.queue, ∀ job ∈ p.currentJob, job = none))
  | .post _ _ | .drop _ | .unauthorized _ _ | .arrive _ | .readBody _ _ | .refuse _ | .abort _
  | .fail _ | .jobEnds _ _ | .resetAgain _ | .reboot | .booted | .bootFails _ | .loop
  | .reservationEnds | .shutDown _ | .send | .reach _ | .admitJob _ | .release | .terminate _ =>
    .isTrue trivial

/-! ### The invariant -/

/-- What the head has after a push that it has answered. -/
structure Shows (head : NodeRecord κ) (f : Flight κ) (view : View κ) : Prop where
  currentJob : ∀ job, f.push.currentJob = some job → head.currentJob = job
  status : ∀ st, f.status = some st → head.status = st ∨ head.status.terminal = true
  terminal : view.status.terminal = true → head.status.terminal = true

structure Sound (s : Node κ) : Prop where
  unreserved : s.currentJob ≠ none → s.reservedForJob = none
  told : s.Excused ∨ s.Told
  /-- A status that the loop's push does not carry yet is reported by another push. -/
  reported : ∀ f, s.flight = some f → f.push = .loop →
    f.status = some s.reportedStatus ∨ ∃ p ∈ s.queue, p ≠ .loop
  shows : ∀ f view, s.flight = some f → f.view = some view → Shows s.head f view

variable {s t : Node κ} {p : Push κ} {i : ℕ} {job : κ} {stage : Stage}

lemma Fresh.sound (h : s.Fresh) : Sound s where
  unreserved hjob := absurd h.currentJob hjob
  told := by
    refine .inr ⟨?_, fun hjob => absurd h.currentJob hjob⟩
    simp only [outstanding, h.flight, h.queue, settle_nil]
    rw [h.headCurrentJob, h.currentJob]
  reported f hf := by simp [h.flight] at hf
  shows f _ hf := by simp [h.flight] at hf

lemma Excused.mono (h : s.Excused) (hhead : t.head = s.head) (hreboot : t.reboot = s.reboot)
    (hstatus : t.reportedStatus = s.reportedStatus) (hfailed : t.failed = s.failed)
    (hreboots : s.rebootsDue ≤ t.rebootsDue) (hresets : s.resetsDue ≤ t.resetsDue)
    (hunheard : s.Unheard → t.Unheard ∨ 0 < t.rebootsDue) : t.Excused := by
  cases h with
  | terminal h => exact .terminal (by rwa [hhead])
  | telling h => exact .telling (by rwa [hreboot])
  | failed h h' h'' => exact .failed (by rwa [hfailed]) (by rwa [hstatus]) (by rwa [hreboot])
  | rebootDue h => exact .rebootDue (Nat.lt_of_lt_of_le h hreboots)
  | resetDue h => exact .resetDue (Nat.lt_of_lt_of_le h hresets)
  | unheard h => exact (hunheard h).elim .unheard .rebootDue

lemma Told.of_eq (h : s.Told) (hout : t.outstanding = s.outstanding) (hhead : t.head = s.head)
    (hjob : t.currentJob = s.currentJob) : t.Told := by
  refine ⟨?_, ?_⟩
  · rw [hout, hhead, hjob]
    exact h.currentJob
  · rw [hout, hhead, hjob]
    exact h.reservedForJob

/-- Nothing changes of what the node and the head say of the assignment, except a reservation
that a node without a job has heard of. -/
structure Still (s t : Node κ) : Prop where
  currentJob : t.currentJob = s.currentJob
  reservedForJob : t.currentJob ≠ none → t.reservedForJob = s.reservedForJob
  reportedStatus : t.reportedStatus = s.reportedStatus
  failed : t.failed = s.failed
  queue : t.queue = s.queue
  flight : t.flight = s.flight
  reboot : t.reboot = s.reboot
  head : t.head = s.head
  rebootsDue : s.rebootsDue ≤ t.rebootsDue
  resetsDue : s.resetsDue ≤ t.resetsDue
  unheard : s.Unheard → t.Unheard ∨ 0 < t.rebootsDue

lemma Still.outstanding (h : Still s t) : t.outstanding = s.outstanding := by
  rw [Node.outstanding, Node.outstanding, h.flight, h.queue]

lemma Sound.still (h : Sound s) (hst : Still s t) : Sound t where
  unreserved hjob := by
    rw [hst.reservedForJob hjob]
    exact h.unreserved (hst.currentJob ▸ hjob)
  told := h.told.imp
    (fun hexcused => hexcused.mono hst.head hst.reboot hst.reportedStatus hst.failed
      hst.rebootsDue hst.resetsDue hst.unheard)
    (fun htold => htold.of_eq hst.outstanding hst.head hst.currentJob)
  reported := by
    rw [hst.flight, hst.queue, hst.reportedStatus]
    exact h.reported
  shows := by
    rw [hst.flight, hst.head]
    exact h.shows

/-- A request that goes on: only an undecided one of the node's last assignment matters. -/
lemma still_setStage
    (h : ∀ post, s.posts i = some post → s.onJobStartTask = some i → s.startPush i = .lost →
      post.stage.undecided = true → stage.undecided = true) :
    Still s (s.setStage i job stage) := by
  refine ⟨rfl, fun _ => rfl, rfl, rfl, rfl, rfl, rfl, rfl, Nat.le_refl _, Nat.le_refl _, ?_⟩
  rintro ⟨i', post, htask, hlost, hpost, hundecided⟩
  refine .inl ?_
  by_cases hi : i' = i
  · subst hi
    exact ⟨i', ⟨job, stage⟩, htask, hlost, Function.update_self .., h post hpost htask hlost
      hundecided⟩
  · exact ⟨i', post, htask, hlost, (Function.update_of_ne hi ..).trans hpost, hundecided⟩

/-- A request that is answered with an error that reboots the node. -/
lemma still_serverError : Still s (s.serverError i job) :=
  ⟨rfl, fun _ => rfl, rfl, rfl, rfl, rfl, rfl, rfl, Nat.le_succ _, Nat.le_refl _,
    fun _ => .inr (Nat.succ_pos _)⟩

lemma still_finishStart {result : StartPush} : Still s (s.finishStart i result) := by
  unfold finishStart
  split_ifs with hpending
  · refine ⟨rfl, fun _ => rfl, rfl, rfl, rfl, rfl, rfl, rfl, Nat.le_refl _, Nat.le_refl _, ?_⟩
    rintro ⟨i', post, htask, hlost, hpost⟩
    have hi : i' ≠ i := by
      rintro rfl
      rw [hpending] at hlost
      simp at hlost
    exact .inl ⟨i', post, htask, (Function.update_of_ne hi ..).trans hlost, hpost⟩
  · exact ⟨rfl, fun _ => rfl, rfl, rfl, rfl, rfl, rfl, rfl, Nat.le_refl _, Nat.le_refl _, .inl⟩

lemma still_finishRefusal {status : ℕ} : Still s (s.finishRefusal i status) := by
  unfold finishRefusal
  split
  · next job hpost =>
    refine still_setStage fun post hpost' _ _ hundecided => ?_
    obtain rfl : post = ⟨job, .releasing⟩ := Option.some.inj (hpost'.symm.trans hpost)
    exact absurd hundecided (by simp [Stage.undecided])
  · exact ⟨rfl, fun _ => rfl, rfl, rfl, rfl, rfl, rfl, rfl, Nat.le_refl _, Nat.le_refl _, .inl⟩

/-! ### Pushes that join the queue -/

lemma outstanding_concat (hflight : t.flight = s.flight) (hqueue : t.queue = s.queue ++ [p]) :
    t.outstanding = s.outstanding ++ [p] := by
  rw [outstanding, outstanding, hflight, hqueue]
  rcases s.flight with _ | ⟨p', status, _ | view⟩ <;> rfl

/-- The push of a transition tells the head of the node's job. -/
lemma told_of_carried (hout : t.outstanding = s.outstanding ++ [p])
    (hp : p.currentJob = some t.currentJob) : t.Told := by
  refine ⟨?_, fun _ hsilent => ?_⟩
  · rw [hout, settle_concat, hp]
    rfl
  · have hmem : p ∈ t.outstanding := by
      rw [hout]
      exact List.mem_append_right _ (List.mem_singleton_self p)
    rw [hsilent p hmem] at hp
    simp at hp

/-- A push that does not name a job changes nothing of what the head will have heard. -/
lemma Told.enqueue (h : s.Told) (hout : t.outstanding = s.outstanding ++ [p])
    (hhead : t.head = s.head) (hjob : t.currentJob = s.currentJob) (hp : p.currentJob = none) :
    t.Told := by
  refine ⟨?_, fun hne hsilent => ?_⟩
  · rw [hout, settle_concat, hp, hhead, hjob]
    exact h.currentJob
  · rw [hhead]
    refine h.reservedForJob (hjob ▸ hne) fun q hq => hsilent q ?_
    rw [hout]
    exact List.mem_append_left _ hq

/-- A transition that puts its push into the queue. -/
lemma Sound.enqueue (h : Sound s) (hflight : t.flight = s.flight)
    (hqueue : t.queue = s.queue ++ [p]) (hhead : t.head = s.head)
    (hp : p ≠ .loop ∨ t.reportedStatus = s.reportedStatus)
    (hunreserved : t.currentJob ≠ none → t.reservedForJob = none)
    (htold : t.Excused ∨ t.Told) : Sound t where
  unreserved := hunreserved
  told := htold
  reported f hf hloop := by
    rw [hqueue]
    rcases hp with hp | hstatus
    · exact .inr ⟨p, List.mem_append_right _ (List.mem_singleton_self p), hp⟩
    · rw [hstatus]
      refine (h.reported f (hflight ▸ hf) hloop).imp_right ?_
      rintro ⟨q, hq, hne⟩
      exact ⟨q, List.mem_append_left _ hq, hne⟩
  shows f view hf hview := by
    rw [hhead]
    exact h.shows f view (hflight ▸ hf) hview

/-- Nothing needs to be known of what the head will have heard where there is an excuse. -/
lemma sound_of_excused (hflight : t.flight = none)
    (hunreserved : t.currentJob ≠ none → t.reservedForJob = none) (hexcused : t.Excused) :
    Sound t where
  unreserved := hunreserved
  told := .inl hexcused
  reported f hf := by simp [hflight] at hf
  shows f _ hf := by simp [hflight] at hf

/-! ### The transitions of the node -/

lemma Sound.onJobStart (h : Sound s) : Sound ((s.onJobStart i job).setStage i job .reading) := by
  have hstart : Sound (s.onJobStart i job) :=
    h.enqueue (p := .start i job) rfl rfl rfl (.inl (by simp)) (fun _ => rfl)
      (.inr (told_of_carried (s := s) (p := .start i job) (outstanding_concat rfl rfl) rfl))
  refine hstart.still (still_setStage fun post _ _ hlost _ => ?_)
  have hpending : (s.onJobStart i job).startPush i = .pending := Function.update_self ..
  rw [hpending] at hlost
  simp at hlost

lemma Sound.reinitNode (h : Sound s) (last : Bool) (resetsDue : ℕ) :
    Sound ({ s with resetsDue }.reinitNode last) :=
  h.enqueue (p := .ended last) rfl rfl rfl (.inl (by simp)) (fun hjob => absurd rfl hjob)
    (.inr (told_of_carried (s := s) (p := .ended last) (outstanding_concat rfl rfl) rfl))

lemma Sound.rebootContainers (h : Sound s) (rebootsDue resetsDue : ℕ) :
    Sound ({ s with rebootsDue, resetsDue }.rebootContainers) :=
  h.enqueue (p := .boot) rfl rfl rfl (.inl (by simp)) h.unreserved (.inl (.telling rfl))

lemma Sound.resetWorkers (h : Sound s) {reboot last : Bool} (resetsDue : ℕ)
    (hreset : { s with resetsDue }.resetWorkers reboot last = some t) : Sound t := by
  unfold Node.resetWorkers at hreset
  split_ifs at hreset
  · obtain rfl := Option.some.inj hreset
    exact h.rebootContainers s.rebootsDue resetsDue
  · obtain rfl := Option.some.inj hreset
    exact h.reinitNode last resetsDue

/-- While the containers boot there is nothing that the end of the boot would be an excuse
for. -/
lemma Excused.of_booting (h : s.Excused) (hreboot : s.reboot = some .booting)
    (hhead : t.head = s.head)
    (hreboots : t.rebootsDue = s.rebootsDue) (hresets : t.resetsDue = s.resetsDue)
    (hunheard : s.Unheard → t.Unheard) : t.Excused := by
  cases h with
  | terminal h => exact .terminal (by rwa [hhead])
  | telling h => simp [hreboot] at h
  | failed _ _ h => simp [hreboot] at h
  | rebootDue h => exact .rebootDue (by rwa [hreboots])
  | resetDue h => exact .resetDue (by rwa [hresets])
  | unheard h => exact .unheard (hunheard h)

lemma excused_failBoot : (s.failBoot false).Excused :=
  .failed (Bool.or_true _) rfl rfl

lemma Sound.failBoot (h : Sound s) (hreboot : s.reboot = some .booting) (timeout : Bool) :
    Sound (s.failBoot timeout) :=
  h.enqueue (p := .failed) rfl rfl rfl (.inl (by simp)) h.unreserved
    (h.told.imp (fun hexcused => hexcused.of_booting hreboot rfl rfl rfl id)
      (fun htold => htold.enqueue (outstanding_concat rfl rfl) rfl rfl rfl))

lemma Sound.booted (h : Sound s) (hreboot : s.reboot = some .booting) :
    Sound ({ s with
      booting := false
      reportedStatus := .ready
      reboot := some .announcing }.enqueue .booted) :=
  h.enqueue (p := .booted) rfl rfl rfl (.inl (by simp)) h.unreserved
    (h.told.imp (fun hexcused => hexcused.of_booting hreboot rfl rfl rfl id)
      (fun htold => htold.enqueue (outstanding_concat rfl rfl) rfl rfl rfl))

/-! ### The exchange with the head -/

lemma Sound.send (h : Sound s) (hflight : s.flight = none) {queue : List (Push κ)}
    (hqueue : s.queue = p :: queue) :
    Sound { s with queue, flight := some ⟨p, p.status s.reportedStatus, none⟩ } where
  unreserved := h.unreserved
  told := by
    have hout : outstanding { s with queue, flight := some ⟨p, p.status s.reportedStatus, none⟩ } =
        s.outstanding := by
      simp only [outstanding, hflight, hqueue]
    exact h.told.imp (fun hexcused => hexcused.mono rfl rfl rfl rfl (Nat.le_refl _)
      (Nat.le_refl _) .inl) (fun htold => htold.of_eq hout rfl rfl)
  reported f hf hloop := by
    obtain rfl := Option.some.inj hf
    obtain rfl : p = .loop := hloop
    exact .inl rfl
  shows f view hf hview := by
    obtain rfl := Option.some.inj hf
    simp at hview

/-- A push that gets to the head takes its place there. -/
lemma Sound.reach (h : Sound s) {status : Option NodeStatus} {jobRunning : Bool}
    (hflight : s.flight = some ⟨p, status, none⟩) :
    Sound { s with
      head := s.head.pushNodeState status p jobRunning
      flight := some ⟨p, status, some (s.head.pushNodeState status p jobRunning).view⟩ } where
  unreserved := h.unreserved
  told := by
    have hout : s.outstanding = p :: s.queue := by
      simp only [outstanding, hflight]
    rcases h.told with hexcused | htold
    · refine .inl ?_
      cases hexcused with
      | terminal h => exact .terminal (NodeRecord.terminal_pushNodeState h)
      | telling h => exact .telling h
      | failed h h' h'' => exact .failed h h' h''
      | rebootDue h => exact .rebootDue h
      | resetDue h => exact .resetDue h
      | unheard h => exact .unheard h
    · have hcurrent := htold.currentJob
      rw [hout, settle_cons] at hcurrent
      refine .inr ⟨?_, fun hjob hsilent => ?_⟩
      · show settle Push.currentJob s.queue (s.head.pushNodeState status p jobRunning).currentJob = _
        rw [NodeRecord.currentJob_pushNodeState]
        exact hcurrent
      · show (s.head.pushNodeState status p jobRunning).reservedForJob = none
        rw [NodeRecord.reservedForJob_pushNodeState]
        have hcurrent : p.currentJob.getD s.head.currentJob = s.currentJob :=
          (settle_of_silent hsilent).symm.trans hcurrent
        cases hp : p.currentJob with
        | none =>
          have hnone : s.head.reservedForJob = none := by
            refine htold.reservedForJob hjob fun q hq => ?_
            rw [hout] at hq
            rcases List.mem_cons.1 hq with rfl | hq
            · exact hp
            · exact hsilent q hq
          rw [hnone]
          exact p.getD_reservedForJob
        | some job =>
          -- the head hears of a job, from the push of its start
          rw [hp] at hcurrent
          obtain rfl : job = s.currentJob := hcurrent
          obtain ⟨job, hsome⟩ := Option.ne_none_iff_exists'.1 hjob
          rw [hsome] at hp
          rw [Push.reservedForJob_of_currentJob hp]
          rfl
  reported f hf hloop := by
    obtain rfl := Option.some.inj hf
    exact h.reported ⟨p, status, none⟩ hflight hloop
  shows f view hf hview := by
    obtain rfl := Option.some.inj hf
    obtain rfl := Option.some.inj hview
    refine ⟨fun job hjob => ?_, fun st hst => ?_, id⟩
    · have hjob : p.currentJob = some job := hjob
      show (s.head.pushNodeState status p jobRunning).currentJob = job
      rw [NodeRecord.currentJob_pushNodeState, hjob]
      rfl
    · exact NodeRecord.status_pushNodeState hst

/-- The head reserves the node, or releases it. -/
lemma Sound.reserve (h : Sound s) (reservedForJob : Option κ)
    (hfree : s.Told → s.currentJob ≠ none → (∀ p ∈ s.outstanding, p.currentJob = none) →
      reservedForJob = none) :
    Sound { s with head := { s.head with reservedForJob } } where
  unreserved := h.unreserved
  told := by
    rcases h.told with hexcused | htold
    · refine .inl ?_
      cases hexcused with
      | terminal h => exact .terminal h
      | telling h => exact .telling h
      | failed h h' h'' => exact .failed h h' h''
      | rebootDue h => exact .rebootDue h
      | resetDue h => exact .resetDue h
      | unheard h => exact .unheard h
    · exact .inr ⟨htold.currentJob, hfree htold⟩
  reported := h.reported
  shows f view hf hview := by
    have hshows := h.shows f view hf hview
    exact ⟨hshows.currentJob, hshows.status, hshows.terminal⟩

/-- The lock is free once the head has answered. -/
lemma Sound.land (h : Sound s) {f : Flight κ} {view : View κ} (hflight : s.flight = some f)
    (hview : f.view = some view) : Sound { s with flight := none } where
  unreserved := h.unreserved
  told := by
    have hout : outstanding { s with flight := none } = s.outstanding := by
      obtain ⟨p, status, _ | _⟩ := f
      · simp at hview
      · simp only [outstanding, hflight]
    exact h.told.imp (fun hexcused => hexcused.mono rfl rfl rfl rfl (Nat.le_refl _)
      (Nat.le_refl _) .inl) (fun htold => htold.of_eq hout rfl rfl)
  reported f hf := by simp at hf
  shows f _ hf := by simp at hf

/-- A push that is lost is not missed when it names no job, or when a later one does. -/
lemma Sound.drop (h : Sound s) {f : Flight κ} (hflight : s.flight = some f) (hview : f.view = none)
    (hp : f.push.currentJob = none ∨ ∃ q ∈ s.queue, q.currentJob ≠ none) :
    Sound { s with flight := none } where
  unreserved := h.unreserved
  told := by
    have hout : s.outstanding = f.push :: s.queue := by
      obtain ⟨p, status, view⟩ := f
      obtain rfl : view = none := hview
      simp only [outstanding, hflight]
    refine h.told.imp (fun hexcused => hexcused.mono rfl rfl rfl rfl (Nat.le_refl _)
      (Nat.le_refl _) .inl) (fun htold => ?_)
    have hcurrent := htold.currentJob
    rw [hout, settle_cons] at hcurrent
    refine ⟨?_, fun hjob hsilent => ?_⟩
    · show settle Push.currentJob s.queue s.head.currentJob = s.currentJob
      rcases hp with hp | hlater
      · rw [hp] at hcurrent
        exact hcurrent
      · exact (settle_congr hlater).trans hcurrent
    · rcases hp with hp | ⟨q, hq, hne⟩
      · refine htold.reservedForJob hjob fun q hq => ?_
        rw [hout] at hq
        rcases List.mem_cons.1 hq with rfl | hq
        · exact hp
        · exact hsilent q hq
      · exact absurd (hsilent q hq) hne
  reported f hf := by simp at hf
  shows f _ hf := by simp at hf

/-- A reboot that the head has heard of: the node has no job any more, and neither has the
head. -/
lemma Sound.bootContainers (h : Sound s) {status : Option NodeStatus} {view : View κ}
    (hflight : s.flight = some ⟨.boot, status, some view⟩)
    (hqueue : view.status.terminal = false →
      ∀ p ∈ s.queue, ∀ job ∈ p.currentJob, job = none) :
    Sound ({ s with flight := none }.bootContainers view) := by
  have hshows := h.shows _ view hflight rfl
  unfold Node.bootContainers
  split_ifs with hterminal
  · exact sound_of_excused rfl h.unreserved (.terminal (hshows.terminal hterminal))
  · refine ⟨fun hjob => absurd rfl hjob, .inr ⟨?_, fun hjob => absurd rfl hjob⟩,
      fun f hf => by simp [reinitSelf] at hf, fun f _ hf => by simp [reinitSelf] at hf⟩
    show settle Push.currentJob s.queue s.head.currentJob = none
    exact settle_induction (P := (· = none)) (hshows.currentJob none rfl)
      (hqueue (by simpa using hterminal))

lemma Sound.answered (h : Sound s) {status : Option NodeStatus} {view : View κ}
    (hflight : s.flight = some ⟨p, status, some view⟩)
    (hboot : p = .boot → view.status.terminal = false →
      ∀ q ∈ s.queue, ∀ job ∈ q.currentJob, job = none) :
    Sound ({ s with flight := none }.answered p view) := by
  have hland := h.land hflight rfl
  cases p with
  | loop =>
    refine hland.still ⟨rfl, fun hjob => ?_, rfl, rfl, rfl, rfl, rfl, rfl, Nat.le_refl _,
      Nat.le_refl _, .inl⟩
    have hjob : s.currentJob ≠ none := hjob
    exact if_neg (by simpa using hjob)
  | start i job => exact hland.still still_finishStart
  | refused i => exact hland.still still_finishRefusal
  | boot => exact h.bootContainers hflight (hboot rfl)
  | booted =>
    simp only [Node.answered]
    split_ifs with hreboot
    · refine ⟨hland.unreserved, ?_, hland.reported, hland.shows⟩
      refine hland.told.imp (fun hexcused => ?_) (fun htold => htold.of_eq rfl rfl rfl)
      cases hexcused with
      | terminal h => exact .terminal h
      | telling h => simp [hreboot] at h
      | failed _ _ h => simp [hreboot] at h
      | rebootDue h => exact .rebootDue h
      | resetDue h => exact .resetDue h
      | unheard h => exact .unheard h
    · exact hland
  | aborted | ended _ | reservation | failed | deleted => exact hland

/-- A push that fails: the head has it, or it is made up for. -/
lemma Sound.pushFailed (h : Sound s) {f : Flight κ} (hflight : s.flight = some f)
    (hlost : f.view = none → (∃ q ∈ s.queue, q.currentJob ≠ none) ∨ s.Recovers f.push) :
    Sound ({ s with flight := none }.pushFailed f.push f.view.isSome) := by
  by_cases hrest : f.view = none → f.push.currentJob = none ∨ ∃ q ∈ s.queue, q.currentJob ≠ none
  · have hcleared : Sound { s with flight := none } := by
      cases hview : f.view with
      | none => exact h.drop hflight hview (hrest hview)
      | some view => exact h.land hflight hview
    cases f.push with
    | start i job => exact hcleared.still still_finishStart
    | refused i =>
      have hdue : Sound { s with flight := none, rebootsDue := s.rebootsDue + 1 } :=
        hcleared.still ⟨rfl, fun _ => rfl, rfl, rfl, rfl, rfl, rfl, rfl, Nat.le_succ _,
          Nat.le_refl _, fun _ => .inr (Nat.succ_pos _)⟩
      exact hdue.still still_finishRefusal
    | ended last =>
      simp only [Node.pushFailed]
      split_ifs
      · exact hcleared
      · exact hcleared.still ⟨rfl, fun _ => rfl, rfl, rfl, rfl, rfl, rfl, rfl, Nat.le_refl _,
          Nat.le_succ _, .inl⟩
    | boot | booted =>
      exact hcleared.enqueue (p := .failed) rfl rfl rfl (.inl (by simp)) h.unreserved
        (.inl excused_failBoot)
    | loop | aborted | reservation | failed | deleted => exact hcleared
  · -- the head has not seen what no later push tells it
    simp only [not_forall, not_or, not_exists, not_and, not_not] at hrest
    obtain ⟨hview, hne, hlast⟩ := hrest
    have hrecovers : s.Recovers f.push := by
      refine (hlost hview).resolve_left ?_
      rintro ⟨q, hq, hcarries⟩
      exact hcarries (hlast q hq)
    rw [hview]
    cases hp : f.push with
    | start i job =>
      rw [hp] at hrecovers
      obtain ⟨htask, hpending, post, hpost, hundecided⟩ := hrecovers
      have hfinish : ({ s with flight := none }.finishStart i .lost) =
          { s with
            flight := none
            startPush := Function.update s.startPush i .lost } := if_pos hpending
      show Sound ({ s with flight := none }.finishStart i .lost)
      rw [hfinish]
      exact sound_of_excused rfl h.unreserved
        (.unheard ⟨i, post, htask, Function.update_self .., hpost, hundecided⟩)
    | refused i =>
      have hdue : Sound { s with flight := none, rebootsDue := s.rebootsDue + 1 } :=
        sound_of_excused rfl h.unreserved (.rebootDue (Nat.succ_pos _))
      exact hdue.still still_finishRefusal
    | aborted =>
      rw [hp] at hrecovers
      exact absurd hrecovers id
    | ended last =>
      rw [hp] at hrecovers
      obtain rfl : last = false := hrecovers
      exact sound_of_excused rfl h.unreserved (.resetDue (Nat.succ_pos _))
    | boot =>
      exact sound_of_excused rfl h.unreserved excused_failBoot
    | loop | reservation | booted | failed | deleted =>
      rw [hp] at hne
      simp [Push.currentJob] at hne

/-! ### Every run -/

/-- A request that has a stage of its own, and gets another. -/
lemma Sound.setStage (h : Sound s) {post : Post κ} (hpost : s.posts i = some post)
    (hstage : s.onJobStartTask = some i → s.startPush i = .lost → post.stage.undecided = true →
      stage.undecided = true) : Sound (s.setStage i job stage) := by
  refine h.still (still_setStage fun post' hpost' htask hlost hundecided => ?_)
  obtain rfl : post = post' := Option.some.inj (hpost.symm.trans hpost')
  exact hstage htask hlost hundecided

variable [DecidableEq κ] {e : NodeEvent κ}

lemma Sound.step (h : Sound s) (hok : s.Conveyed e) (hstep : nodeStep s e = some t) : Sound t := by
  cases e with
  | post i job =>
    simp only [nodeStep] at hstep
    split at hstep
    · next hpost =>
      obtain rfl := Option.some.inj hstep
      exact h.still (still_setStage fun post hpost' => by simp [hpost] at hpost')
    · simp at hstep
  | drop i =>
    simp only [nodeStep] at hstep
    split at hstep
    · next job hpost =>
      obtain rfl := Option.some.inj hstep
      exact h.setStage hpost fun _ _ hundecided => by simp [Stage.undecided] at hundecided
    · simp at hstep
  | unauthorized i status =>
    simp only [nodeStep] at hstep
    split at hstep
    · next job hpost =>
      split_ifs at hstep
      obtain rfl := Option.some.inj hstep
      exact h.setStage hpost fun _ _ hundecided => by simp [Stage.undecided] at hundecided
    · simp at hstep
  | arrive i =>
    simp only [nodeStep] at hstep
    split at hstep
    · next job hpost =>
      split_ifs at hstep
      · obtain rfl := Option.some.inj hstep
        exact h.setStage hpost fun _ _ hundecided => by simp [Stage.undecided] at hundecided
      · obtain rfl := Option.some.inj hstep
        exact h.setStage hpost fun _ _ hundecided => by simp [Stage.undecided] at hundecided
      · obtain rfl := Option.some.inj hstep
        exact h.onJobStart
    · simp at hstep
  | disconnect i =>
    -- the assignment's first push was not lost, so nothing depends on how it goes on
    simp only [nodeStep] at hstep
    split at hstep
    · next job hpost =>
      split_ifs at hstep
      · obtain rfl := Option.some.inj hstep
        exact h.setStage hpost fun htask hlost => absurd hlost (hok htask)
      · obtain rfl := Option.some.inj hstep
        exact h.setStage hpost fun htask hlost => absurd hlost (hok htask)
    · simp at hstep
  | readBody i fits =>
    simp only [nodeStep] at hstep
    split at hstep
    · next job hpost =>
      obtain rfl := Option.some.inj hstep
      refine h.setStage hpost fun _ _ _ => ?_
      cases fits <;> rfl
    · simp at hstep
  | refuse i =>
    simp only [nodeStep] at hstep
    split at hstep
    · next job hpost =>
      split at hstep
      · simp at hstep
      · obtain rfl := Option.some.inj hstep
        exact h.still still_serverError
      · obtain rfl := Option.some.inj hstep
        exact h.enqueue (p := .refused i) rfl rfl rfl (.inl (by simp))
          (fun hjob => absurd rfl hjob)
          (.inr (told_of_carried (s := s) (p := .refused i) (outstanding_concat rfl rfl) rfl))
    · simp at hstep
  | abort i =>
    simp only [nodeStep] at hstep
    split at hstep
    · next job hpost =>
      split at hstep
      · simp at hstep
      · obtain rfl := Option.some.inj hstep
        exact h.setStage hpost fun _ _ hundecided => by simp [Stage.undecided] at hundecided
      · obtain rfl := Option.some.inj hstep
        exact h.enqueue (p := .aborted) rfl rfl rfl (.inl (by simp))
          (fun hjob => absurd rfl hjob)
          (.inr (told_of_carried (s := s) (p := .aborted) (outstanding_concat rfl rfl) rfl))
    · simp at hstep
  | fail i =>
    simp only [nodeStep] at hstep
    split at hstep
    · obtain rfl := Option.some.inj hstep
      exact h.still still_serverError
    · obtain rfl := Option.some.inj hstep
      exact h.still still_serverError
    · simp at hstep
  | accept i =>
    simp only [nodeStep] at hstep
    split at hstep
    · next job hpost =>
      obtain rfl := Option.some.inj hstep
      have hset : Sound (s.setStage i job (.answered 200)) :=
        h.setStage hpost fun htask hlost => absurd hlost (hok htask)
      exact hset.still ⟨rfl, fun _ => rfl, rfl, rfl, rfl, rfl, rfl, rfl, Nat.le_refl _,
        Nat.le_refl _, .inl⟩
    · simp at hstep
  | jobEnds reboot crashed =>
    simp only [nodeStep] at hstep
    split at hstep
    · exact h.resetWorkers s.resetsDue hstep
    · simp at hstep
  | resetAgain reboot =>
    simp only [nodeStep] at hstep
    split_ifs at hstep
    exact h.resetWorkers (s.resetsDue - 1) hstep
  | reboot =>
    simp only [nodeStep] at hstep
    split_ifs at hstep
    obtain rfl := Option.some.inj hstep
    exact h.rebootContainers (s.rebootsDue - 1) s.resetsDue
  | booted =>
    simp only [nodeStep] at hstep
    split_ifs at hstep with hreboot
    obtain rfl := Option.some.inj hstep
    exact h.booted hreboot
  | bootFails timeout =>
    simp only [nodeStep] at hstep
    split_ifs at hstep with hreboot
    obtain rfl := Option.some.inj hstep
    exact h.failBoot hreboot timeout
  | loop =>
    simp only [nodeStep] at hstep
    split_ifs at hstep
    obtain rfl := Option.some.inj hstep
    exact h.enqueue (p := .loop) rfl rfl rfl (.inr rfl) h.unreserved
      (h.told.imp (fun hexcused => hexcused.mono rfl rfl rfl rfl (Nat.le_refl _) (Nat.le_refl _)
        .inl) (fun htold => htold.enqueue (outstanding_concat rfl rfl) rfl rfl rfl))
  | reservationEnds =>
    simp only [nodeStep] at hstep
    split at hstep
    · obtain rfl := Option.some.inj hstep
      exact h.enqueue (p := .reservation) rfl rfl rfl (.inl (by simp)) (fun _ => rfl)
        (h.told.imp (fun hexcused => hexcused.mono rfl rfl rfl rfl (Nat.le_refl _)
          (Nat.le_refl _) .inl) (fun htold => htold.enqueue (outstanding_concat rfl rfl) rfl rfl rfl))
    · simp at hstep
  | shutDown report =>
    simp only [nodeStep] at hstep
    split_ifs at hstep with hreport
    · obtain rfl := Option.some.inj hstep
      refine h.enqueue (p := .deleted) rfl rfl rfl (.inl (by simp)) h.unreserved
        (h.told.imp (fun hexcused => ?_)
          (fun htold => htold.enqueue (outstanding_concat rfl rfl) rfl rfl rfl))
      cases hexcused with
      | terminal h => exact .terminal h
      | telling h => exact .telling h
      | failed hfailed => simp [hreport.2] at hfailed
      | rebootDue h => exact .rebootDue h
      | resetDue h => exact .resetDue h
      | unheard h => exact .unheard h
    · obtain rfl := Option.some.inj hstep
      exact h.still ⟨rfl, fun _ => rfl, rfl, rfl, rfl, rfl, rfl, rfl, Nat.le_refl _,
        Nat.le_refl _, .inl⟩
  | send =>
    simp only [nodeStep] at hstep
    split at hstep
    · next hflight hqueue =>
      obtain rfl := Option.some.inj hstep
      exact h.send hflight hqueue
    · simp at hstep
  | reach jobRunning =>
    simp only [nodeStep] at hstep
    split at hstep
    · next hflight =>
      obtain rfl := Option.some.inj hstep
      exact h.reach hflight
    · simp at hstep
  | answer =>
    simp only [nodeStep] at hstep
    split at hstep
    · next p status view hflight =>
      obtain rfl := Option.some.inj hstep
      exact h.answered hflight fun hp hterminal => hok _ hflight hp view rfl hterminal
    · simp at hstep
  | lose =>
    simp only [nodeStep] at hstep
    split at hstep
    · next f hflight =>
      obtain rfl := Option.some.inj hstep
      exact h.pushFailed hflight (hok f hflight)
    · simp at hstep
  | admitJob job =>
    simp only [nodeStep] at hstep
    split_ifs at hstep with hfree
    obtain rfl := Option.some.inj hstep
    refine h.reserve _ fun htold hjob hsilent => ?_
    -- the head reserves no node that it knows to have a job
    have hcurrent : s.head.currentJob = s.currentJob :=
      (settle_of_silent hsilent).symm.trans htold.currentJob
    exact absurd (hcurrent.symm.trans hfree.2.1) hjob
  | release =>
    simp only [nodeStep] at hstep
    obtain rfl := Option.some.inj hstep
    exact h.reserve none fun _ _ _ => rfl
  | terminate status =>
    simp only [nodeStep] at hstep
    split_ifs at hstep with hterminal
    obtain rfl := Option.some.inj hstep
    have hhead : (s.head.status.update status).terminal = true :=
      NodeStatus.terminal_update_of_terminal hterminal
    refine ⟨h.unreserved, .inl (.terminal hhead), h.reported, fun f view hf hview => ?_⟩
    have hshows := h.shows f view hf hview
    exact ⟨hshows.currentJob, fun _ _ => .inr hhead, fun _ => hhead⟩

lemma sound_invariant : (node κ).Invariant Conveyed Sound where
  init _ h := h.sound
  step _ _ _ h hok hstep := Sound.step h hok hstep

/-- No transition is under way: no request is being handled, no reboot or reset is running or
due, no push waits, and the answer that is read shows the reservation that the head holds. -/
structure Quiet (s : Node κ) : Prop where
  posts : ∀ i post, s.posts i = some post → post.stage.inProgress = false
  reboot : s.reboot = none
  rebootsDue : s.rebootsDue = 0
  resetsDue : s.resetsDue = 0
  queue : s.queue = []
  reservation : ∀ f view, s.flight = some f → f.view = some view →
    view.reservedForJob = s.head.reservedForJob

/-- The head's record says of the node what the node says of itself. -/
structure Agrees (s : Node κ) : Prop where
  status : s.head.status = s.reportedStatus
  currentJob : s.head.currentJob = s.currentJob
  reservedForJob : s.head.reservedForJob = s.reservedForJob

omit [DecidableEq κ] in
lemma Stage.inProgress_of_undecided {stage : Stage} (h : stage.undecided = true) :
    stage.inProgress = true := by
  cases stage <;> simp_all [Stage.undecided, Stage.inProgress]

omit [DecidableEq κ] in
/-- In a quiet node the only excuse that is left is the head's. -/
lemma Excused.quiet (h : s.Excused) (hquiet : s.Quiet)
    (hfailed : s.reportedStatus = .failed → s.head.status.terminal = true) :
    s.head.status.terminal = true := by
  cases h with
  | terminal h => exact h
  | telling h => simp [hquiet.reboot] at h
  | failed _ hstatus => exact hfailed hstatus
  | rebootDue h => simp [hquiet.rebootsDue] at h
  | resetDue h => simp [hquiet.resetsDue] at h
  | unheard h =>
    obtain ⟨i, post, -, -, hpost, hundecided⟩ := h
    have hprogress := Stage.inProgress_of_undecided hundecided
    simp [hquiet.posts i post hpost] at hprogress

/-- An exchange of the loop that is completed now, with no transition under way, leaves the
head and the node with the same, unless the head has given the node up. -/
def AgreesAfterExchange (s : Node κ) : Prop :=
  ∀ f t, s.flight = some f → f.push = .loop → s.Quiet → nodeStep s .answer = some t →
    t.head.status.terminal = true ∨ t.Agrees

/-- **What the head knows of a node.** When every transition is conveyed to the head, the head
and the node have the same status, job and reservation after every exchange of the loop that is
completed with no transition under way. -/
theorem agrees_of_conveyed (hreachable : (node κ).Reachable Conveyed s) :
    s.AgreesAfterExchange := by
  intro f t hflight hloop hquiet hanswer
  have hsound := sound_invariant.reachable hreachable
  obtain ⟨p, status, _ | view⟩ := f
  · simp [nodeStep, hflight] at hanswer
  obtain rfl : p = .loop := hloop
  simp only [nodeStep, hflight, Option.some.injEq] at hanswer
  subst hanswer
  have hshows := hsound.shows _ view hflight rfl
  have hstatus : s.head.status = s.reportedStatus ∨ s.head.status.terminal = true := by
    refine hshows.status _ ((hsound.reported _ hflight rfl).resolve_right ?_)
    rintro ⟨p, hp, -⟩
    simp [hquiet.queue] at hp
  rcases hstatus with hstatus | hterminal
  · rcases hsound.told with hexcused | htold
    · refine .inl (hexcused.quiet hquiet fun hfailed => ?_)
      rw [hstatus, hfailed]
      rfl
    · have hout : s.outstanding = [] := by
        simp only [outstanding, hflight, hquiet.queue]
      have hcurrent : s.head.currentJob = s.currentJob := by
        have hsettled := htold.currentJob
        rwa [hout, settle_nil] at hsettled
      refine .inr ⟨hstatus, hcurrent, ?_⟩
      show s.head.reservedForJob =
        if s.currentJob.isNone then view.reservedForJob else s.reservedForJob
      cases hjob : s.currentJob with
      | none => exact (hquiet.reservation _ view hflight rfl).symm
      | some job =>
        have hne : s.currentJob ≠ none := by simp [hjob]
        rw [htold.reservedForJob hne (by simp [hout])]
        exact (hsound.unreserved hne).symm
  · exact .inl hterminal

/-- A node that has taken the only request that it got, and does nothing else. -/
lemma quiet_of_taken {s : Node ℕ} (hpost : s.posts 0 = some ⟨7, .answered 200⟩)
    (hposts : ∀ i, s.posts (i + 1) = none) (hreboot : s.reboot = none) (hreboots : s.rebootsDue = 0)
    (hresets : s.resetsDue = 0) (hqueue : s.queue = [])
    (hflight : s.flight =
      some ⟨.loop, some .running, some ⟨.running, s.head.reservedForJob⟩⟩) : s.Quiet where
  posts i post hi := by
    cases i with
    | zero =>
      obtain rfl := Option.some.inj (hpost.symm.trans hi)
      rfl
    | succ i => simp [hposts i] at hi
  reboot := hreboot
  rebootsDue := hreboots
  resetsDue := hresets
  queue := hqueue
  reservation f view hf hview := by
    obtain rfl := Option.some.inj (hflight.symm.trans hf)
    obtain rfl := Option.some.inj hview
    rfl

/-- A node boots, takes the job 7 and tells the head, and its loop comes round. -/
def heardEvents : List (NodeEvent ℕ) :=
  [.booted, .send, .reach true, .answer, .post 0 7, .arrive 0, .send, .reach true, .answer,
    .readBody 0 true, .accept 0, .loop, .send, .reach true]

def heard : Node ℕ :=
  (((node ℕ).guarded Conveyed).exec (boots none) heardEvents).get (by decide +kernel)

theorem agrees_of_conveyed_heard :
    heard.AgreesAfterExchange ∧ heard.Quiet ∧ (nodeStep heard .answer).isSome = true ∧
      heard.currentJob = some 7 := by
  have hrun : (node ℕ).Run Conveyed (boots none) heardEvents heard :=
    System.run_of_exec_guarded (Option.some_get _).symm
  refine ⟨agrees_of_conveyed ⟨_, _, fresh_boots none, hrun⟩, ?_, by decide +kernel,
    by decide +kernel⟩
  exact quiet_of_taken (by decide +kernel) (fun _ => rfl) (by decide +kernel) (by decide +kernel)
    (by decide +kernel) (by decide +kernel) (by decide +kernel)

/-- A node that was booted for the job 7 takes it, and the push that says so is lost. -/
def unheardEvents : List (NodeEvent ℕ) :=
  [.booted, .send, .reach true, .answer, .post 0 7, .arrive 0, .send, .lose,
    .readBody 0 true, .accept 0, .loop, .send, .reach true]

def unheard : Node ℕ :=
  (((node ℕ).guarded System.always).exec (boots (some 7)) unheardEvents).get (by decide +kernel)

theorem start_push_lost_job_unknown :
    ¬ ∀ s : Node ℕ, (node ℕ).Reachable System.always s → s.AgreesAfterExchange := by
  intro h
  have hrun : (node ℕ).Run System.always (boots (some 7)) unheardEvents unheard :=
    System.run_of_exec_guarded (Option.some_get _).symm
  have hquiet : unheard.Quiet :=
    quiet_of_taken (by decide +kernel) (fun _ => rfl) (by decide +kernel) (by decide +kernel)
      (by decide +kernel) (by decide +kernel) (by decide +kernel)
  have hagrees := h unheard ⟨_, _, fresh_boots (some 7), hrun⟩
    ⟨.loop, some .running, some ⟨.running, some 7⟩⟩ _ (by decide +kernel) rfl hquiet
    (Option.some_get (by decide +kernel)).symm
  rcases hagrees with hterminal | hagrees
  · revert hterminal
    decide +kernel
  · have hjob := hagrees.currentJob
    revert hjob
    decide +kernel

end Node

end Burla.Assign
