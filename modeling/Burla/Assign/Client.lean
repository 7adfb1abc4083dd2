/-
The client's side of a job's assignment (`Node._assign_job` in _node.py), together with the node
that it assigns the job to.

A request or its response may be lost at any time: the client then sees a network error, or a
gateway status where the relay gives up, whatever the node makes of the request.  The client
sends again.  A node that has accepted the first request is RUNNING and refuses the second one
like any other, and the client takes the refusal for the node's last word.

The main results are

* `Assignment.polls_of_answered`: when a job is accepted only for a client that still waits and
  no answer is lost while the job's watcher runs, a client whose job has been accepted polls, or
  is about to read that it was accepted;
* `Assignment.lost_response_removes_node`: otherwise the client may remove the node that runs its
  job.
-/
import Burla.Assign.Node

namespace Burla.Assign

variable {κ : Type*}

/-! ### The client -/

/-- `_assign_job`, between its requests. -/
inductive ClientPhase
  /-- About to send a request. -/
  | sending
  /-- Waiting for the answer to the request `i`. -/
  | waiting (i : ℕ)
  /-- `state = "RUNNING"`: the job is assigned, and the results are polled next. -/
  | polling
  /-- `state = "FAILED"`, while the node is reported to the head. -/
  | failing
  /-- `state = "REMOVED"` -/
  | removed
  /-- `UnauthorizedError` -/
  | raised
  deriving DecidableEq

/-- The client, with the failed attempts of the present call of
`_run_network_request_with_retries` and all gateway errors. -/
structure Client where
  phase : ClientPhase
  networkAttempts : ℕ
  gatewayAttempts : ℕ

def maxRetries : ℕ := 2

def assignGatewayRetryAttempts : ℕ := 5

namespace Client

/-- `_AssignmentGatewayError` -/
def gatewayError (c : Client) : Client :=
  if c.gatewayAttempts + 1 < assignGatewayRetryAttempts then
    ⟨.sending, 0, c.gatewayAttempts + 1⟩
  else { c with phase := .removed, gatewayAttempts := c.gatewayAttempts + 1 }

/-- A network error; `silent` says whether the node has not replied for too long. -/
def networkError (c : Client) (silent : Bool) : Client :=
  if c.networkAttempts + 1 < maxRetries then
    { c with phase := .sending, networkAttempts := c.networkAttempts + 1 }
  else if silent = true then { c with phase := .failing }
  else { c with phase := .sending, networkAttempts := 0 }

/-- The answer to a request. -/
def read (c : Client) (status : ℕ) : Client :=
  if status = 200 then { c with phase := .polling }
  else if status = 401 then { c with phase := .raised }
  else if status = 502 ∨ status = 504 then c.gatewayError
  else { c with phase := .removed }

end Client

/-! ### Client and node -/

/-- A client that assigns a job to a node. -/
structure Assignment (κ : Type*) where
  node : Node κ
  client : Client

inductive AssignmentEvent (κ : Type*)
  /-- The node, the head and other clients go on. -/
  | node (e : NodeEvent κ)
  /-- The client sends a request. -/
  | send (i : ℕ)
  /-- The client reads the answer. -/
  | read
  /-- The request or the answer is lost. -/
  | networkError (silent : Bool)
  /-- The relay answers in place of the node. -/
  | gateway (status : ℕ)
  /-- The head has been told that the node failed. -/
  | reported

namespace Assignment

variable [DecidableEq κ]

/-- The steps of the client that assigns `job`. Nobody else sends requests for its job. -/
def step (job : κ) (s : Assignment κ) : AssignmentEvent κ → Option (Assignment κ)
  | .node (.post i other) =>
    if other = job then none
    else (nodeStep s.node (.post i other)).map fun node => { s with node }
  | .node e => (nodeStep s.node e).map fun node => { s with node }
  | .send i =>
    if s.client.phase = .sending then
      (nodeStep s.node (.post i job)).map fun node =>
        { node, client := { s.client with phase := .waiting i } }
    else none
  | .read =>
    match s.client.phase with
    | .waiting i =>
      match s.node.posts i with
      | some ⟨_, .answered status⟩ => some { s with client := s.client.read status }
      | _ => none
    | _ => none
  | .networkError silent =>
    match s.client.phase with
    | .waiting _ => some { s with client := s.client.networkError silent }
    | _ => none
  | .gateway status =>
    match s.client.phase with
    | .waiting _ =>
      if status = 502 ∨ status = 504 then some { s with client := s.client.gatewayError } else none
    | _ => none
  | .reported =>
    if s.client.phase = .failing then some { s with client := { s.client with phase := .removed } }
    else none

/-- A client that is about to assign its job, and a node that boots. -/
structure Fresh (s : Assignment κ) : Prop where
  node : s.node.Fresh
  client : s.client = ⟨.sending, 0, 0⟩

end Assignment

/-- A client that assigns `job` to a node. -/
def assignment [DecidableEq κ] (job : κ) : System (Assignment κ) (AssignmentEvent κ) where
  init := Assignment.Fresh
  step := Assignment.step job

/-! ### What happens to requests -/

namespace Node

variable {s t : Node κ} {i i' : ℕ} {job job' : κ} {stage : Stage} {status : ℕ}

lemma posts_setStage_of_ne (h : s.posts i' ≠ s.posts i) :
    (s.setStage i' job stage).posts i = s.posts i := by
  refine Function.update_of_ne ?_ ..
  rintro rfl
  exact h rfl

lemma posts_finishRefusal (h : s.posts i = some ⟨job, .answered status⟩) {st : ℕ} :
    (s.finishRefusal i' st).posts i = s.posts i := by
  unfold finishRefusal
  split
  · next hpost => exact posts_setStage_of_ne (by simp [hpost, h])
  · rfl

lemma posts_finishStart {result : StartPush} : (s.finishStart i' result).posts = s.posts := by
  unfold finishStart
  split_ifs <;> rfl

lemma posts_resetWorkers {reboot last : Bool} (h : s.resetWorkers reboot last = some t) :
    t.posts = s.posts := by
  unfold resetWorkers at h
  split_ifs at h <;> cases h <;> rfl

lemma watcher_resetWorkers {reboot last : Bool} (h : s.resetWorkers reboot last = some t) :
    t.watcher = none := by
  unfold resetWorkers at h
  split_ifs at h <;> cases h <;> rfl

lemma posts_answered (h : s.posts i = some ⟨job, .answered status⟩) {p : Push κ} {view : View κ} :
    (s.answered p view).posts i = s.posts i := by
  cases p with
  | start i' _ => exact congrFun posts_finishStart i
  | refused i' => exact posts_finishRefusal h
  | boot =>
    simp only [answered, bootContainers]
    split_ifs <;> rfl
  | booted =>
    simp only [answered]
    split_ifs <;> rfl
  | loop | aborted | ended _ | reservation | failed | deleted => rfl

lemma posts_pushFailed (h : s.posts i = some ⟨job, .answered status⟩) {p : Push κ} {seen : Bool} :
    (s.pushFailed p seen).posts i = s.posts i := by
  cases p with
  | start i' _ => exact congrFun posts_finishStart i
  | refused i' => exact posts_finishRefusal (s := { s with rebootsDue := s.rebootsDue + 1 }) h
  | ended last =>
    simp only [pushFailed]
    split_ifs <;> rfl
  | loop | aborted | reservation | boot | booted | failed | deleted => rfl

variable [DecidableEq κ] {e : NodeEvent κ}

/-- What has been answered stays answered. -/
lemma posts_nodeStep (hstep : nodeStep s e = some t)
    (h : s.posts i = some ⟨job, .answered status⟩) :
    t.posts i = some ⟨job, .answered status⟩ := by
  rw [← h]
  cases e with
  | post i' other =>
    simp only [nodeStep] at hstep
    split at hstep
    · next hpost =>
      obtain rfl := Option.some.inj hstep
      exact posts_setStage_of_ne (by simp [hpost, h])
    · simp at hstep
  | drop i' | readBody i' fits =>
    simp only [nodeStep] at hstep
    split at hstep
    · next hpost =>
      obtain rfl := Option.some.inj hstep
      exact posts_setStage_of_ne (by simp [hpost, h])
    · simp at hstep
  | unauthorized i' status =>
    simp only [nodeStep] at hstep
    split at hstep
    · next hpost =>
      split_ifs at hstep
      obtain rfl := Option.some.inj hstep
      exact posts_setStage_of_ne (by simp [hpost, h])
    · simp at hstep
  | arrive i' =>
    simp only [nodeStep] at hstep
    split at hstep
    · next other hpost =>
      split_ifs at hstep
      · obtain rfl := Option.some.inj hstep
        exact posts_setStage_of_ne (by simp [hpost, h])
      · obtain rfl := Option.some.inj hstep
        exact posts_setStage_of_ne (by simp [hpost, h])
      · obtain rfl := Option.some.inj hstep
        exact posts_setStage_of_ne (s := s.onJobStart i' other)
          (by simp [onJobStart, enqueue, hpost, h])
    · simp at hstep
  | disconnect i' =>
    simp only [nodeStep] at hstep
    split at hstep
    · next hpost =>
      split_ifs at hstep
      · obtain rfl := Option.some.inj hstep
        exact posts_setStage_of_ne (by simp [hpost, h])
      · obtain rfl := Option.some.inj hstep
        exact posts_setStage_of_ne (by simp [hpost, h])
    · simp at hstep
  | refuse i' =>
    simp only [nodeStep] at hstep
    split at hstep
    · next hpost =>
      split at hstep
      · simp at hstep
      · obtain rfl := Option.some.inj hstep
        exact posts_setStage_of_ne (by simp [hpost, h])
      · obtain rfl := Option.some.inj hstep
        exact posts_setStage_of_ne
          (s := { s with running := false, currentJob := none, reportedStatus := .ready })
          (by simp [hpost, h])
    · simp at hstep
  | abort i' =>
    simp only [nodeStep] at hstep
    split at hstep
    · next hpost =>
      split at hstep
      · simp at hstep
      · obtain rfl := Option.some.inj hstep
        exact posts_setStage_of_ne (by simp [hpost, h])
      · obtain rfl := Option.some.inj hstep
        exact posts_setStage_of_ne
          (s := { s with running := false, currentJob := none, reportedStatus := .ready })
          (by simp [hpost, h])
    · simp at hstep
  | fail i' =>
    simp only [nodeStep] at hstep
    split at hstep
    · next hpost =>
      obtain rfl := Option.some.inj hstep
      exact posts_setStage_of_ne (by simp [hpost, h])
    · next hpost =>
      obtain rfl := Option.some.inj hstep
      exact posts_setStage_of_ne (by simp [hpost, h])
    · simp at hstep
  | accept i' =>
    simp only [nodeStep] at hstep
    split at hstep
    · next hpost =>
      obtain rfl := Option.some.inj hstep
      exact posts_setStage_of_ne (by simp [hpost, h])
    · simp at hstep
  | jobEnds reboot crashed =>
    simp only [nodeStep] at hstep
    split at hstep
    · rw [posts_resetWorkers hstep]
    · simp at hstep
  | resetAgain reboot =>
    simp only [nodeStep] at hstep
    split_ifs at hstep
    rw [posts_resetWorkers hstep]
  | answer =>
    simp only [nodeStep] at hstep
    split at hstep
    · obtain rfl := Option.some.inj hstep
      exact posts_answered (s := { s with flight := none }) h
    · simp at hstep
  | lose =>
    simp only [nodeStep] at hstep
    split at hstep
    · obtain rfl := Option.some.inj hstep
      exact posts_pushFailed (s := { s with flight := none }) h
    · simp at hstep
  | reservationEnds | send | reach _ =>
    simp only [nodeStep] at hstep
    split at hstep
    · obtain rfl := Option.some.inj hstep
      rfl
    · simp at hstep
  | shutDown report =>
    simp only [nodeStep] at hstep
    split_ifs at hstep <;> cases hstep <;> rfl
  | reboot | booted | bootFails _ | loop | admitJob _ | terminate _ =>
    simp only [nodeStep] at hstep
    split_ifs at hstep
    obtain rfl := Option.some.inj hstep
    rfl
  | release =>
    obtain rfl := Option.some.inj hstep
    rfl

/-- A watcher is started by an accepted request only. -/
lemma watcher_nodeStep (hstep : nodeStep s e = some t) (h : t.watcher = some job) :
    s.watcher = some job ∨
      ∃ i, e = .accept i ∧ s.posts i = some ⟨job, .installing⟩ ∧
        t.posts i = some ⟨job, .answered 200⟩ := by
  cases e with
  | accept i =>
    simp only [nodeStep] at hstep
    split at hstep
    · next job' hpost =>
      obtain rfl := Option.some.inj hstep
      obtain rfl : job' = job := Option.some.inj h
      exact .inr ⟨i, rfl, hpost, Function.update_self ..⟩
    · simp at hstep
  | jobEnds reboot crashed =>
    simp only [nodeStep] at hstep
    split at hstep
    · rw [watcher_resetWorkers hstep] at h
      simp at h
    · simp at hstep
  | resetAgain reboot =>
    simp only [nodeStep] at hstep
    split_ifs at hstep
    rw [watcher_resetWorkers hstep] at h
    simp at h
  | reboot =>
    simp only [nodeStep] at hstep
    split_ifs at hstep
    obtain rfl := Option.some.inj hstep
    simp [rebootContainers, enqueue] at h
  | answer =>
    simp only [nodeStep] at hstep
    split at hstep
    · next p _ _ _ =>
      obtain rfl := Option.some.inj hstep
      refine .inl ?_
      rw [← h]
      cases p <;> simp only [answered, finishStart, finishRefusal, bootContainers] <;>
        repeat' split
      all_goals rfl
    · simp at hstep
  | lose =>
    simp only [nodeStep] at hstep
    split at hstep
    · next f _ =>
      obtain rfl := Option.some.inj hstep
      refine .inl ?_
      rw [← h]
      cases f.push <;> simp only [pushFailed, finishStart, finishRefusal] <;> repeat' split
      all_goals rfl
    · simp at hstep
  | post _ _ | drop _ | unauthorized _ _ | arrive _ | disconnect _ | readBody _ _ | refuse _
  | abort _ | fail _ | booted | bootFails _ | loop | reservationEnds | shutDown _ | send | reach _
  | admitJob _ | release | terminate _ =>
    refine .inl ?_
    rw [← h]
    simp only [nodeStep] at hstep
    repeat' split at hstep
    all_goals first
      | (obtain rfl := Option.some.inj hstep; rfl)
      | simp at hstep

end Node

/-! ### Accepted jobs -/

namespace Assignment

variable [DecidableEq κ] {job : κ} {s t : Assignment κ} {e : AssignmentEvent κ}

/-- A client whose job the node has accepted does not remove the node: it polls, or it reads
next that the job was accepted and then polls. -/
def Polls (job : κ) (s : Assignment κ) : Prop :=
  s.node.watcher = some job → s.client.phase ≠ .removed ∧
    (s.client.phase = .polling ∨
      ∃ t, s.step job .read = some t ∧ t.client.phase = .polling)

/-- The client gets the answer of a request that is accepted: the node accepts requests that
the client waits for (or goes on with a job that it polls already), and no answer is lost while
the job's watcher runs. -/
def Answered (job : κ) (s : Assignment κ) : AssignmentEvent κ → Prop
  | .node (.accept i) => ∀ post ∈ s.node.posts i, post.job = job →
      s.client.phase = .waiting i ∨ s.client.phase = .polling
  | .networkError _ | .gateway _ => s.node.watcher ≠ some job
  | _ => True

instance (s : Assignment κ) (e : AssignmentEvent κ) : Decidable (s.Answered job e) :=
  match e with
  | .node (.accept i) => inferInstanceAs (Decidable (∀ post ∈ s.node.posts i, post.job = job →
      s.client.phase = .waiting i ∨ s.client.phase = .polling))
  | .networkError _ | .gateway _ => inferInstanceAs (Decidable (s.node.watcher ≠ some job))
  | .node (.post _ _) | .node (.drop _) | .node (.unauthorized _ _) | .node (.arrive _)
  | .node (.disconnect _) | .node (.readBody _ _) | .node (.refuse _) | .node (.abort _)
  | .node (.fail _) | .node (.jobEnds _ _) | .node (.resetAgain _) | .node .reboot
  | .node .booted | .node (.bootFails _) | .node .loop | .node .reservationEnds
  | .node (.shutDown _) | .node .send | .node (.reach _) | .node .answer | .node .lose
  | .node (.admitJob _) | .node .release | .node (.terminate _) | .send _ | .read | .reported =>
    .isTrue trivial

/-- Where a client is whose job has been accepted. -/
def Heard (job : κ) (s : Assignment κ) : Prop :=
  s.node.watcher = some job → s.client.phase = .polling ∨
    ∃ i, s.client.phase = .waiting i ∧ s.node.posts i = some ⟨job, .answered 200⟩

/-- The node goes on. -/
lemma Heard.node (h : Heard job s) {e : NodeEvent κ} {node : Node κ}
    (hstep : nodeStep s.node e = some node) (hok : s.Answered job (.node e)) :
    Heard job { s with node } := by
  intro hwatcher
  rcases Node.watcher_nodeStep hstep hwatcher with hwatcher | ⟨i, rfl, hpost, hanswered⟩
  · rcases h hwatcher with hpolling | ⟨i, hwaiting, hpost⟩
    · exact .inl hpolling
    · exact .inr ⟨i, hwaiting, Node.posts_nodeStep hstep hpost⟩
  · rcases hok _ hpost rfl with hwaiting | hpolling
    · exact .inr ⟨i, hwaiting, hanswered⟩
    · exact .inl hpolling

lemma Heard.step (h : Heard job s) (hok : s.Answered job e) (hstep : s.step job e = some t) :
    Heard job t := by
  cases e with
  | node e =>
    have hnode : ∃ node, nodeStep s.node e = some node ∧ t = { s with node } := by
      cases e with
      | post i other =>
        simp only [Assignment.step] at hstep
        split_ifs at hstep
        obtain ⟨node, hnode, rfl⟩ := Option.map_eq_some_iff.1 hstep
        exact ⟨node, hnode, rfl⟩
      | release =>
        obtain rfl := Option.some.inj hstep
        exact ⟨_, rfl, rfl⟩
      | _ =>
        obtain ⟨node, hnode, rfl⟩ := Option.map_eq_some_iff.1 hstep
        exact ⟨node, hnode, rfl⟩
    obtain ⟨node, hnode, rfl⟩ := hnode
    exact h.node hnode hok
  | send i =>
    simp only [Assignment.step] at hstep
    split_ifs at hstep with hsending
    obtain ⟨node, hnode, rfl⟩ := Option.map_eq_some_iff.1 hstep
    intro hwatcher
    -- the client would not send again if its job had been accepted
    rcases Node.watcher_nodeStep hnode hwatcher with hwatcher | ⟨_, he, -⟩
    · rcases h hwatcher with hpolling | ⟨i, hwaiting, -⟩
      · simp [hsending] at hpolling
      · simp [hsending] at hwaiting
    · simp at he
  | read =>
    simp only [Assignment.step] at hstep
    split at hstep
    · next i hphase =>
      split at hstep
      · next status hpost =>
        obtain rfl := Option.some.inj hstep
        intro hwatcher
        rcases h hwatcher with hpolling | ⟨i', hwaiting, hanswered⟩
        · simp [hphase] at hpolling
        · obtain rfl : i = i' := by simpa [hphase] using hwaiting
          obtain ⟨-, rfl⟩ : _ = job ∧ status = 200 := by simpa [hpost] using hanswered
          exact .inl rfl
      · simp at hstep
    · simp at hstep
  | networkError silent =>
    simp only [Assignment.step] at hstep
    split at hstep
    · obtain rfl := Option.some.inj hstep
      exact fun hwatcher => absurd hwatcher hok
    · simp at hstep
  | gateway status =>
    simp only [Assignment.step] at hstep
    split at hstep
    · split_ifs at hstep
      obtain rfl := Option.some.inj hstep
      exact fun hwatcher => absurd hwatcher hok
    · simp at hstep
  | reported =>
    simp only [Assignment.step] at hstep
    split_ifs at hstep with hfailing
    obtain rfl := Option.some.inj hstep
    intro hwatcher
    rcases h hwatcher with hpolling | ⟨i, hwaiting, -⟩
    · simp [hfailing] at hpolling
    · simp [hfailing] at hwaiting

lemma heard_invariant : (assignment job).Invariant (Answered job) (Heard job) where
  init s h hwatcher := by
    rw [h.node.watcher] at hwatcher
    simp at hwatcher
  step _ _ _ h hok hstep := Heard.step h hok hstep

lemma Heard.polls (h : Heard job s) : s.Polls job := by
  intro hwatcher
  rcases h hwatcher with hpolling | ⟨i, hwaiting, hanswered⟩
  · exact ⟨by simp [hpolling], .inl hpolling⟩
  · refine ⟨by simp [hwaiting], .inr ⟨{ s with client := s.client.read 200 }, ?_, rfl⟩⟩
    simp [Assignment.step, hwaiting, hanswered]

/-- **An accepted job is polled.** When the client gets the answer of every request that is
accepted, a client whose job the node has accepted does not remove the node and goes on to poll
its results. -/
theorem polls_of_answered (hreachable : (assignment job).Reachable (Answered job) s) :
    s.Polls job :=
  (heard_invariant.reachable hreachable).polls

/-- A client that assigns its job to a node that boots. -/
def starts : Assignment ℕ := ⟨.boots none, ⟨.sending, 0, 0⟩⟩

lemma fresh_starts : starts.Fresh := ⟨Node.fresh_boots none, rfl⟩

/-- The node boots, and accepts the job 7. -/
def acceptedEvents : List (AssignmentEvent ℕ) :=
  [.node .booted, .send 0, .node (.arrive 0), .node (.readBody 0 true), .node (.accept 0)]

def accepted : Assignment ℕ :=
  (((assignment 7).guarded (Answered 7)).exec starts acceptedEvents).get (by decide +kernel)

theorem polls_of_answered_accepted :
    accepted.Polls 7 ∧ accepted.node.watcher = some 7 ∧ accepted.client.phase = .waiting 0 := by
  have hrun : (assignment 7).Run (Answered 7) starts acceptedEvents accepted :=
    System.run_of_exec_guarded (Option.some_get _).symm
  exact ⟨polls_of_answered ⟨_, _, fresh_starts, hrun⟩, by decide +kernel, by decide +kernel⟩

/-- The response is lost, the client sends again, and reads that the node is running. -/
def removedEvents : List (AssignmentEvent ℕ) :=
  acceptedEvents ++ [.networkError false, .send 1, .node (.arrive 1), .read]

def removed : Assignment ℕ :=
  (((assignment 7).guarded System.always).exec starts removedEvents).get (by decide +kernel)

theorem lost_response_removes_node :
    ¬ ∀ s : Assignment ℕ, (assignment 7).Reachable System.always s → s.Polls 7 := by
  intro h
  have hrun : (assignment 7).Run System.always starts removedEvents removed :=
    System.run_of_exec_guarded (Option.some_get _).symm
  have hpolls := h removed ⟨_, _, fresh_starts, hrun⟩ (by decide +kernel)
  exact hpolls.1 (by decide +kernel)

end Assignment

end Burla.Assign
