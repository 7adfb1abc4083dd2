/-
Delivery of results from a node to the client.

`Delivery` is the node, the client's polling of it, and the network between them.  The
network keeps every request that was ever sent and every response that was ever made: the
node may serve a request at any time, late, again or never, and the client may read any
response to the attempt it is waiting for.  So messages are lost, delayed, reordered and
sent again in every way there is.

The invariant `Tracked` says where the pending batch stands.  A batch that the client has
not taken is acknowledged by no request, and a batch that it has taken is the one that its
next polls acknowledge; so a response to the current attempt never holds a batch a second
time, however late the requests before it are served.  The result is
`delivered_in_order`.
-/
import Burla.Lib.System
import Burla.Results.Client

namespace Burla.Results

variable {V : Type*}

/-! ### The system -/

/-- A poll attempt on its way to the node. -/
structure PollRequest where
  attempt : ℕ
  ackResultBatchId : Option ℕ
  deriving DecidableEq, Repr

/-- What the node answered to an attempt. -/
structure PollResponse where
  attempt : ℕ
  response : Option ResultsResponse
  deriving DecidableEq, Repr

/-- The node, the client, the network, and what happened so far to batches and results. -/
structure Delivery (V : Type*) where
  node : ResultsNode
  client : NodeClient V
  /-- Every attempt sent. -/
  requests : List PollRequest
  /-- Every response made. -/
  responses : List PollResponse
  /-- How many attempts have been made; the last one is the current one. -/
  attempts : ℕ
  /-- Results in the order they left `results_queue`. -/
  dequeued : List Result
  /-- Batches in the order the node cleared them. -/
  cleared : List ResultBatch
  /-- Batches in the order the client put them on the return queue. -/
  consumed : List ResultBatch

/-- What can happen next. -/
inductive DeliveryEvent
  | putResult (result : Result)
  | putLog (logDocument : LogDocument)
  | report (status : NodeStatus)
  /-- The node's current job becomes another one. -/
  | endJob
  /-- The client starts a poll. -/
  | poll
  /-- An attempt fails or times out, and there are attempts left. -/
  | retry
  /-- The last attempt fails or times out. -/
  | giveUp
  /-- The node serves an attempt. -/
  | serve (now : ℚ) (i : ℕ)
  /-- The client reads a response to the current attempt. -/
  | receive (i : ℕ)
  /-- A response to the current attempt starts to arrive and breaks off. -/
  | breakOff (i : ℕ)
  /-- The client leaves its loop for any other reason. -/
  | stop
  deriving DecidableEq, Repr

/-- What left the queue between two states of the node. -/
def leftQueue (n n' : ResultsNode) : List Result :=
  n.resultsQueue.take (n.resultsQueue.length - n'.resultsQueue.length)

/-- What was pending in the first of two states of the node and is not in the second. -/
def clearedBatch (n n' : ResultsNode) : List ResultBatch :=
  if n'.pendingResultBatch = n.pendingResultBatch then [] else n.pendingResultBatch.toList

namespace Delivery

/-- The client sends an attempt. -/
def send (s : Delivery V) (attemptIndex : ℕ) : Delivery V :=
  { s with
    client := { s.client with phase := .gathering attemptIndex }
    requests := { attempt := s.attempts, ackResultBatchId := s.client.resultBatchIdToAck }
      :: s.requests
    attempts := s.attempts + 1 }

/-- The node serves an attempt. -/
def serve (s : Delivery V) (now : ℚ) (request : PollRequest) : Delivery V :=
  let p := s.node.getResults now request.ackResultBatchId
  { s with
    node := p.2
    responses := { attempt := request.attempt, response := p.1 } :: s.responses
    dequeued := s.dequeued ++ leftQueue s.node p.2
    cleared := s.cleared ++ clearedBatch s.node p.2 }

/-- The batch of a response counts as consumed when its results reach the return queue. -/
def receive (u : Unpickler V) (raiseErrors : Bool) (s : Delivery V) :
    Option ResultsResponse → Delivery V
  | none => { s with client := s.client.done }
  | some response =>
    let client := s.client.take u raiseErrors response
    { s with
      client
      consumed :=
        if client.phase = .looping then
          s.consumed ++ (response.resultBatchId.map fun id =>
            ({ id, results := response.results } : ResultBatch)).toList
        else s.consumed }

end Delivery

/-- One step. -/
def deliveryStep (u : Unpickler V) (raiseErrors : Bool) (s : Delivery V) :
    DeliveryEvent → Option (Delivery V)
  | .putResult result => some { s with node := s.node.putResult result }
  | .putLog logDocument => some { s with node := s.node.putLog logDocument }
  | .report status => some { s with node := { s.node with status } }
  | .endJob => some { s with node := { s.node with onJob := false } }
  | .poll => if s.client.phase = .looping then some (s.send 0) else none
  | .retry =>
    match s.client.phase with
    | .gathering attemptIndex =>
      if attemptIndex + 1 < networkRetryAttempts then some (s.send (attemptIndex + 1)) else none
    | _ => none
  | .giveUp =>
    match s.client.phase with
    | .gathering attemptIndex =>
      if attemptIndex + 1 = networkRetryAttempts then some { s with client := s.client.empty }
      else none
    | _ => none
  | .serve now i => s.requests[i]?.map (s.serve now)
  | .receive i =>
    match s.client.phase, s.responses[i]? with
    | .gathering _, some r =>
      if r.attempt + 1 = s.attempts then some (s.receive u raiseErrors r.response) else none
    | _, _ => none
  | .breakOff i =>
    match s.client.phase, s.responses[i]? with
    | .gathering _, some r =>
      if r.attempt + 1 = s.attempts then some { s with client := s.client.empty } else none
    | _, _ => none
  | .stop => some { s with client := { s.client with phase := .ended } }

/-- At the start nothing is queued, pending or sent. -/
structure Delivery.Fresh (s : Delivery V) : Prop where
  resultsQueue : s.node.resultsQueue = []
  pending : s.node.pendingResultBatch = none
  phase : s.client.phase = .looping
  toAck : s.client.resultBatchIdToAck = none
  returnQueue : s.client.returnQueue = []
  requests : s.requests = []
  responses : s.responses = []
  dequeued : s.dequeued = []
  cleared : s.cleared = []
  consumed : s.consumed = []

/-- The system of a node, its client and the network. -/
def delivery (u : Unpickler V) (raiseErrors : Bool) : System (Delivery V) DeliveryEvent where
  init := Delivery.Fresh
  step := deliveryStep u raiseErrors

/-! ### The invariant -/

/-- Where the pending batch stands. -/
inductive Stage (consumed cleared : List ResultBatch) (requests : List PollRequest)
    (client : NodeClient V) : Option ResultBatch → Prop
  /-- There is none: the client has taken all that were cleared. -/
  | idle (hconsumed : consumed = cleared) : Stage consumed cleared requests client none
  /-- The client has not taken it, and nothing acknowledges it. -/
  | waiting {batch : ResultBatch} (hconsumed : consumed = cleared)
      (hrequests : ∀ r ∈ requests, r.ackResultBatchId ≠ some batch.id)
      (hclient : client.resultBatchIdToAck ≠ some batch.id) :
      Stage consumed cleared requests client (some batch)
  /-- The client has taken it, and acknowledges it with its next poll. -/
  | taken {batch : ResultBatch} (hconsumed : consumed = cleared ++ [batch])
      (hclient : client.phase ≠ .ended → client.resultBatchIdToAck = some batch.id) :
      Stage consumed cleared requests client (some batch)

/-- A response that the client may take: it has taken everything the node cleared, and the
response is empty or holds the pending batch. -/
structure Takable (consumed cleared : List ResultBatch) (pending : Option ResultBatch)
    (response : ResultsResponse) : Prop where
  consumed_eq : consumed = cleared
  batch : (response.resultBatchId = none ∧ response.results = []) ∨
    ∃ batch, pending = some batch ∧
      response.resultBatchId = some batch.id ∧ response.results = batch.results

/-- The invariant of delivery. -/
structure Tracked (u : Unpickler V) (raiseErrors : Bool) (s : Delivery V) : Prop where
  stage : Stage s.consumed s.cleared s.requests s.client s.node.pendingResultBatch
  /-- Each result that left the queue is in a batch cleared, or in the pending one. -/
  dequeued : s.dequeued =
    (s.cleared ++ s.node.pendingResultBatch.toList).flatMap fun batch => batch.results
  returned : (s.consumed.flatMap fun batch => batch.results).mapM (returnValue u raiseErrors) =
    some s.client.returnQueue
  /-- Ids in use have been drawn. -/
  pendingDrawn : ∀ batch, s.node.pendingResultBatch = some batch → batch.id < s.node.batchIds
  requestsDrawn : ∀ r ∈ s.requests, ∀ id, r.ackResultBatchId = some id → id < s.node.batchIds
  clientDrawn : ∀ id, s.client.resultBatchIdToAck = some id → id < s.node.batchIds
  /-- Attempts are numbered. -/
  requestsMade : ∀ r ∈ s.requests, r.attempt < s.attempts
  responsesMade : ∀ r ∈ s.responses, r.attempt < s.attempts
  /-- The current attempt acknowledges what the client has to acknowledge. -/
  currentRequest : ∀ k, s.client.phase = .gathering k → ∀ r ∈ s.requests,
    r.attempt + 1 = s.attempts → r.ackResultBatchId = s.client.resultBatchIdToAck
  /-- A response to the current attempt may be taken. -/
  currentResponse : ∀ k, s.client.phase = .gathering k → ∀ r ∈ s.responses,
    r.attempt + 1 = s.attempts → ∀ response, r.response = some response →
      Takable s.consumed s.cleared s.node.pendingResultBatch response

namespace Tracked

variable {u : Unpickler V} {raiseErrors : Bool} {s : Delivery V}

lemma of_fresh (h : s.Fresh) : Tracked u raiseErrors s where
  stage := by
    rw [h.pending]
    exact .idle (h.consumed.trans h.cleared.symm)
  dequeued := by simp [h.dequeued, h.cleared, h.pending]
  returned := by simp [h.consumed, h.returnQueue]
  pendingDrawn := by simp [h.pending]
  requestsDrawn := by simp [h.requests]
  clientDrawn := by simp [h.toAck]
  requestsMade := by simp [h.requests]
  responsesMade := by simp [h.responses]
  currentRequest := by simp [h.requests]
  currentResponse := by simp [h.responses]

/-- What the node does beside its batches changes nothing. -/
lemma of_node (h : Tracked u raiseErrors s) {n : ResultsNode}
    (hpending : n.pendingResultBatch = s.node.pendingResultBatch)
    (hids : n.batchIds = s.node.batchIds) :
    Tracked u raiseErrors { s with node := n } where
  stage := by
    rw [hpending]
    exact h.stage
  dequeued := by simpa only [hpending] using h.dequeued
  returned := h.returned
  pendingDrawn := by simpa only [hpending, hids] using h.pendingDrawn
  requestsDrawn := by simpa only [hids] using h.requestsDrawn
  clientDrawn := by simpa only [hids] using h.clientDrawn
  requestsMade := h.requestsMade
  responsesMade := h.responsesMade
  currentRequest := h.currentRequest
  currentResponse := by simpa only [hpending] using h.currentResponse

/-- The client ends a poll without a response, or its loop. -/
lemma of_client (h : Tracked u raiseErrors s) {c : NodeClient V}
    (hphase : ∀ k, c.phase ≠ .gathering k)
    (hended : s.client.phase = .ended → c.phase = .ended)
    (hack : c.resultBatchIdToAck = s.client.resultBatchIdToAck)
    (hqueue : c.returnQueue = s.client.returnQueue) :
    Tracked u raiseErrors { s with client := c } where
  stage := by
    show Stage _ _ _ _ s.node.pendingResultBatch
    cases hstage : s.node.pendingResultBatch with
    | none =>
      obtain ⟨hconsumed⟩ := hstage ▸ h.stage
      exact .idle hconsumed
    | some batch =>
      rcases hstage ▸ h.stage with _ | ⟨hconsumed, hrequests, hclient⟩ | ⟨hconsumed, hclient⟩
      · exact .waiting hconsumed hrequests (by rwa [← hack] at hclient)
      · refine .taken hconsumed fun hne => ?_
        rw [← hclient fun he => hne (hended he)]
        exact hack
  dequeued := h.dequeued
  returned := h.returned.trans (congrArg some hqueue.symm)
  pendingDrawn := h.pendingDrawn
  requestsDrawn := h.requestsDrawn
  clientDrawn := by simpa only [hack] using h.clientDrawn
  requestsMade := h.requestsMade
  responsesMade := h.responsesMade
  currentRequest k hk := absurd hk (hphase k)
  currentResponse k hk := absurd hk (hphase k)

/-- A new attempt acknowledges what the client has taken last. -/
lemma send (h : Tracked u raiseErrors s) (hphase : s.client.phase ≠ .ended) (k : ℕ) :
    Tracked u raiseErrors (s.send k) where
  stage := by
    show Stage _ _ _ _ s.node.pendingResultBatch
    cases hstage : s.node.pendingResultBatch with
    | none =>
      obtain ⟨hconsumed⟩ := hstage ▸ h.stage
      exact .idle hconsumed
    | some batch =>
      rcases hstage ▸ h.stage with _ | ⟨hconsumed, hrequests, hclient⟩ | ⟨hconsumed, hclient⟩
      · refine .waiting hconsumed ?_ hclient
        intro r hr
        rcases List.mem_cons.1 hr with rfl | hr
        · exact hclient
        · exact hrequests r hr
      · exact .taken hconsumed fun _ => hclient hphase
  dequeued := h.dequeued
  returned := h.returned
  pendingDrawn := h.pendingDrawn
  requestsDrawn := by
    intro r hr
    rcases List.mem_cons.1 hr with rfl | hr
    · exact h.clientDrawn
    · exact h.requestsDrawn r hr
  clientDrawn := h.clientDrawn
  requestsMade := by
    intro r hr
    rcases List.mem_cons.1 hr with rfl | hr
    · exact Nat.lt_succ_self _
    · exact (h.requestsMade r hr).trans (Nat.lt_succ_self _)
  responsesMade r hr := (h.responsesMade r hr).trans (Nat.lt_succ_self _)
  currentRequest := by
    intro _ _ r hr hattempt
    rcases List.mem_cons.1 hr with rfl | hr
    · rfl
    · have := h.requestsMade r hr
      simp only [Delivery.send] at hattempt
      omega
  currentResponse := by
    intro _ _ r hr hattempt
    have := h.responsesMade r hr
    simp only [Delivery.send] at hattempt
    omega

/-! #### Serving an attempt -/

lemma leftQueue_self (n : ResultsNode) : leftQueue n n = [] := by
  simp [leftQueue]

lemma clearedBatch_self (n : ResultsNode) : clearedBatch n n = [] := by
  simp [clearedBatch]

/-- The node looks at the acknowledgement of a request.  What it clears the client has
taken. -/
lemma acknowledge (h : Tracked u raiseErrors s) {request : PollRequest}
    (hrequest : request ∈ s.requests) :
    Tracked u raiseErrors
      { s with
        node := s.node.acknowledge request.ackResultBatchId
        cleared := s.cleared ++
          clearedBatch s.node (s.node.acknowledge request.ackResultBatchId) } := by
  rcases s.node.acknowledge_cases request.ackResultBatchId with
    hsame | ⟨batch, hpending, hack, hclear⟩
  · simpa [hsame, clearedBatch] using h
  · have htaken : s.consumed = s.cleared ++ [batch] := by
      rcases hpending ▸ h.stage with _ | ⟨_, hrequests, _⟩ | ⟨hconsumed, _⟩
      · exact absurd hack (hrequests request hrequest)
      · exact hconsumed
    have hcleared : clearedBatch s.node { s.node with pendingResultBatch := none } = [batch] := by
      simp [clearedBatch, hpending]
    rw [hclear, hcleared]
    refine
      { h with
        stage := .idle htaken
        dequeued := by simpa [hpending] using h.dequeued
        pendingDrawn := by simp
        currentResponse := ?_ }
    intro k hk r hr hattempt response hresponse
    have := (h.currentResponse k hk r hr hattempt response hresponse).consumed_eq
    simp [htaken] at this

/-- The request of the current attempt acknowledges a batch that the client has taken. -/
lemma consumed_acknowledge (h : Tracked u raiseErrors s) {request : PollRequest}
    (hrequest : request ∈ s.requests) {k : ℕ} (hphase : s.client.phase = .gathering k)
    (hattempt : request.attempt + 1 = s.attempts) :
    s.consumed = s.cleared ++
      clearedBatch s.node (s.node.acknowledge request.ackResultBatchId) := by
  have hack := h.currentRequest k hphase request hrequest hattempt
  cases hpending : s.node.pendingResultBatch with
  | none =>
    obtain ⟨hconsumed⟩ := hpending ▸ h.stage
    simpa [clearedBatch, hpending] using hconsumed
  | some batch =>
    rcases hpending ▸ h.stage with _ | ⟨hconsumed, hrequests, _⟩ | ⟨hconsumed, hclient⟩
    · rcases s.node.acknowledge_cases request.ackResultBatchId with
        hsame | ⟨batch', hpending', hack', -⟩
      · simpa [hsame, clearedBatch] using hconsumed
      · obtain rfl : batch = batch' := by simpa [hpending] using hpending'
        exact absurd hack' (hrequests request hrequest)
    · rw [hack, hclient (by simp [hphase]), ResultsNode.acknowledge_id hpending, hconsumed]
      simp [clearedBatch, hpending]

/-- The node serves its pending batch again, or takes a new one off the queue. -/
lemma batched (h : Tracked u raiseErrors s) {p : (Option ℕ × List Result) × ResultsNode}
    (hp : s.node.Batched p) :
    Tracked u raiseErrors
      { s with node := p.2, dequeued := s.dequeued ++ leftQueue s.node p.2 } := by
  cases hp with
  | again hpending => simpa [leftQueue_self] using h
  | nothing hpending => simpa [leftQueue_self] using h
  | @taken results rest hpending hqueue =>
    obtain ⟨hconsumed⟩ := hpending ▸ h.stage
    have hleft : s.node.resultsQueue.take (s.node.resultsQueue.length - rest.length) =
        results := by
      simp [hqueue]
    refine
      { h with
        stage := .waiting hconsumed ?_ ?_
        dequeued := ?_
        pendingDrawn := ?_
        requestsDrawn := ?_
        clientDrawn := ?_
        currentResponse := ?_ }
    · -- the new id has not been drawn before, so no request carries it
      intro r hr hack
      exact (h.requestsDrawn r hr _ hack).false
    · intro hack
      exact (h.clientDrawn _ hack).false
    · simp [leftQueue, hleft, h.dequeued, hpending]
    · rintro _ ⟨⟩
      exact Nat.lt_succ_self _
    · intro r hr id hid
      exact (h.requestsDrawn r hr id hid).trans (Nat.lt_succ_self _)
    · intro id hid
      exact (h.clientDrawn id hid).trans (Nat.lt_succ_self _)
    · intro k hk r hr hattempt response hresponse
      refine ⟨hconsumed, .inl ?_⟩
      rcases (h.currentResponse k hk r hr hattempt response hresponse).batch with
        hempty | ⟨batch, hbatch, -⟩
      · exact hempty
      · simp [hpending] at hbatch

/-- A response joins the network. -/
lemma answer (h : Tracked u raiseErrors s) {r : PollResponse} (hmade : r.attempt < s.attempts)
    (hcurrent : ∀ k, s.client.phase = .gathering k → r.attempt + 1 = s.attempts →
      ∀ response, r.response = some response →
        Takable s.consumed s.cleared s.node.pendingResultBatch response) :
    Tracked u raiseErrors { s with responses := r :: s.responses } := by
  refine { h with responsesMade := ?_, currentResponse := ?_ }
  · intro r' hr'
    rcases List.mem_cons.1 hr' with rfl | hr'
    · exact hmade
    · exact h.responsesMade r' hr'
  · intro k hk r' hr' hattempt
    rcases List.mem_cons.1 hr' with rfl | hr'
    · exact hcurrent k hk hattempt
    · exact h.currentResponse k hk r' hr' hattempt

/-- What the node serves when the client has taken all that was cleared may be taken. -/
lemma takable_of_batched {n : ResultsNode} {p : (Option ℕ × List Result) × ResultsNode}
    (hp : n.Batched p) {consumed cleared : List ResultBatch} (hconsumed : consumed = cleared)
    {response : ResultsResponse} (hid : response.resultBatchId = p.1.1)
    (hresults : response.results = p.1.2) :
    Takable consumed cleared p.2.pendingResultBatch response := by
  refine ⟨hconsumed, ?_⟩
  cases hp with
  | again hpending => exact .inr ⟨_, hpending, hid, hresults⟩
  | nothing hpending => exact .inl ⟨hid, hresults⟩
  | taken hpending hqueue => exact .inr ⟨_, rfl, hid, hresults⟩

/-- The batch cleared by serving a request is the one its acknowledgement cleared: a batch
taken afresh has a fresh id. -/
lemma clearedBatch_batched (h : Tracked u raiseErrors s) (ack : Option ℕ)
    {p : (Option ℕ × List Result) × ResultsNode} (hp : (s.node.acknowledge ack).Batched p) :
    clearedBatch s.node p.2 = clearedBatch s.node (s.node.acknowledge ack) := by
  cases hp with
  | again hpending => rfl
  | nothing hpending => rfl
  | taken hpending hqueue =>
    cases hbatch : s.node.pendingResultBatch with
    | none => simp [clearedBatch, hbatch]
    | some batch =>
      have hne : ∀ results : List Result,
          ({ id := s.node.batchIds, results } : ResultBatch) ≠ batch := by
        rintro results rfl
        exact (h.pendingDrawn _ hbatch).false
      simp [clearedBatch, hbatch, hpending, hne]

/-- The node serves an attempt that has been sent. -/
lemma serve (h : Tracked u raiseErrors s) (now : ℚ) {request : PollRequest}
    (hrequest : request ∈ s.requests) : Tracked u raiseErrors (s.serve now request) := by
  have hmade := h.requestsMade request hrequest
  by_cases hjob : s.node.onJob = false
  · -- a 404 carries no batch
    have hstep := h.answer (r := ⟨request.attempt, none⟩) hmade (by simp)
    simpa [Delivery.serve, ResultsNode.getResults, hjob, leftQueue_self, clearedBatch_self]
      using hstep
  · obtain ⟨response, pendingLogs, hserved, hid, hresults⟩ :=
      ResultsNode.getResults_eq hjob now request.ackResultBatchId
    have hp := ResultsNode.getResultBatch_batched (s.node.acknowledge request.ackResultBatchId)
    generalize (s.node.acknowledge request.ackResultBatchId).getResultBatch = p
      at hp hserved hid hresults
    have hlogs := ((h.acknowledge hrequest).batched hp).of_node
      (n := { p.2 with pendingLogs }) rfl rfl
    have hanswer := hlogs.answer (r := ⟨request.attempt, some response⟩) hmade ?_
    · -- the two parts of the step together are what it does to the batches
      have hcleared := h.clearedBatch_batched _ hp
      have hleft : leftQueue s.node p.2 =
          leftQueue (s.node.acknowledge request.ackResultBatchId) p.2 := by
        simp [leftQueue]
      simp only [← hcleared, ← hleft] at hanswer
      simp only [Delivery.serve, hserved]
      exact hanswer
    · intro k hk hattempt _ heq
      obtain rfl := Option.some.inj heq
      exact takable_of_batched hp (h.consumed_acknowledge hrequest hk hattempt) hid hresults

/-! #### Reading a response -/

/-- The client reads a response it may take. -/
lemma receive (h : Tracked u raiseErrors s) {response : Option ResultsResponse}
    (htake : ∀ r, response = some r →
      Takable s.consumed s.cleared s.node.pendingResultBatch r) :
    Tracked u raiseErrors (s.receive u raiseErrors response) := by
  cases response with
  | none => exact h.of_client (by simp [NodeClient.done]) (fun _ => rfl) rfl rfl
  | some response =>
    obtain ⟨hconsumed, hbatch⟩ := htake response rfl
    simp only [Delivery.receive]
    generalize hclient : s.client.take u raiseErrors response = client
    rcases s.client.take_cases u raiseErrors response with
      ⟨hended, hack, hqueue⟩ | ⟨values, hvalues, hlooping, hack, hqueue⟩
    · -- the client raises: nothing of the response reaches the return queue
      rw [hclient] at hended hack hqueue
      simp only [hended, reduceCtorEq, if_false]
      refine
        { h with
          stage := ?_
          returned := h.returned.trans (congrArg some hqueue.symm)
          clientDrawn := by simp [hack]
          currentRequest := by simp [hended]
          currentResponse := by simp [hended] }
      show Stage _ _ _ _ s.node.pendingResultBatch
      cases hpending : s.node.pendingResultBatch with
      | none => exact .idle hconsumed
      | some batch =>
        rcases hpending ▸ h.stage with _ | ⟨_, hrequests, _⟩ | ⟨htaken, _⟩
        · exact .waiting hconsumed hrequests (by simp [hack])
        · simp [hconsumed] at htaken
    · rw [hclient] at hlooping hack hqueue
      simp only [hlooping, if_true]
      rcases hbatch with ⟨hid, hresults⟩ | ⟨batch, hpending, hid, hresults⟩
      · obtain rfl : values = [] := by simpa [hresults, eq_comm] using hvalues
        simp only [hid, Option.map_none, Option.toList_none, List.append_nil]
        refine
          { h with
            stage := ?_
            returned := by simpa [hqueue] using h.returned
            clientDrawn := by simp [hack, hid]
            currentRequest := by simp [hlooping]
            currentResponse := by simp [hlooping] }
        show Stage _ _ _ _ s.node.pendingResultBatch
        cases hpending : s.node.pendingResultBatch with
        | none => exact .idle hconsumed
        | some batch =>
          rcases hpending ▸ h.stage with _ | ⟨_, hrequests, _⟩ | ⟨htaken, _⟩
          · exact .waiting hconsumed hrequests (by simp [hack, hid])
          · simp [hconsumed] at htaken
      · simp only [hid, hresults, Option.map_some, Option.toList_some]
        refine
          { h with
            stage := ?_
            returned := ?_
            clientDrawn := ?_
            currentRequest := by simp [hlooping]
            currentResponse := by simp [hlooping] }
        · show Stage _ _ _ _ s.node.pendingResultBatch
          rw [hpending, hconsumed]
          exact .taken rfl fun _ => hack.trans hid
        · rw [hresults] at hvalues
          simp [List.flatMap_append, List.mapM_append, h.returned, hvalues, hqueue]
        · intro id hid'
          have : batch.id = id := by simpa [hack, hid] using hid'
          exact this ▸ h.pendingDrawn batch hpending

end Tracked

variable {u : Unpickler V} {raiseErrors : Bool} {s t : Delivery V}

/-- Every step keeps the batches tracked. -/
lemma Tracked.step {a : DeliveryEvent} (h : Tracked u raiseErrors s)
    (hstep : deliveryStep u raiseErrors s a = some t) : Tracked u raiseErrors t := by
  cases a with
  | putResult result =>
    obtain rfl := Option.some.inj hstep
    exact h.of_node rfl rfl
  | putLog logDocument =>
    obtain rfl := Option.some.inj hstep
    exact h.of_node (s.node.putLog_pendingResultBatch _) (s.node.putLog_batchIds _)
  | report status =>
    obtain rfl := Option.some.inj hstep
    exact h.of_node rfl rfl
  | endJob =>
    obtain rfl := Option.some.inj hstep
    exact h.of_node rfl rfl
  | poll =>
    simp only [deliveryStep, Option.ite_none_right_eq_some, Option.some.injEq] at hstep
    obtain ⟨hphase, rfl⟩ := hstep
    exact h.send (by simp [hphase]) 0
  | retry =>
    simp only [deliveryStep] at hstep
    split at hstep
    · rename_i k hphase
      simp only [Option.ite_none_right_eq_some, Option.some.injEq] at hstep
      obtain ⟨-, rfl⟩ := hstep
      exact h.send (by simp [hphase]) (k + 1)
    · cases hstep
  | giveUp =>
    simp only [deliveryStep] at hstep
    split at hstep
    · rename_i k hphase
      simp only [Option.ite_none_right_eq_some, Option.some.injEq] at hstep
      obtain ⟨-, rfl⟩ := hstep
      exact h.of_client (by simp [NodeClient.empty]) (by simp [hphase]) rfl rfl
    · cases hstep
  | serve now i =>
    obtain ⟨request, hrequest, rfl⟩ := Option.map_eq_some_iff.1 hstep
    exact h.serve now (List.mem_of_getElem? hrequest)
  | receive i =>
    simp only [deliveryStep] at hstep
    split at hstep
    · rename_i k r hphase hr
      simp only [Option.ite_none_right_eq_some, Option.some.injEq] at hstep
      obtain ⟨hattempt, rfl⟩ := hstep
      exact h.receive (h.currentResponse k hphase r (List.mem_of_getElem? hr) hattempt)
    · cases hstep
  | breakOff i =>
    simp only [deliveryStep] at hstep
    split at hstep
    · rename_i k r hphase hr
      simp only [Option.ite_none_right_eq_some, Option.some.injEq] at hstep
      obtain ⟨-, rfl⟩ := hstep
      exact h.of_client (by simp [NodeClient.empty]) (by simp [hphase]) rfl rfl
    · cases hstep
  | stop =>
    obtain rfl := Option.some.inj hstep
    exact h.of_client (by simp) (fun _ => rfl) rfl rfl

lemma tracked_reachable (h : (delivery u raiseErrors).Reachable System.always s) :
    Tracked u raiseErrors s :=
  System.Invariant.reachable (P := Tracked u raiseErrors)
    ⟨fun _ => Tracked.of_fresh, fun _ _ _ h _ hstep => h.step hstep⟩ h

/-! ### Main result -/

/-- **Results are delivered exactly once and in order.**  Whatever is lost, delayed, reordered
or sent again: the batches the node has cleared are the first of those the client has
consumed; their results are the first of those that left `results_queue`; and the return
queue holds their values, one for each. -/
theorem delivered_in_order (h : (delivery u raiseErrors).Reachable System.always s) :
    s.cleared <+: s.consumed ∧
      (s.consumed.flatMap fun batch => batch.results) <+: s.dequeued ∧
      (s.consumed.flatMap fun batch => batch.results).mapM (returnValue u raiseErrors) =
        some s.client.returnQueue := by
  have htracked := tracked_reachable h
  have hdequeued := htracked.dequeued
  refine ⟨?_, ?_, htracked.returned⟩
  · cases hpending : s.node.pendingResultBatch with
    | none =>
      obtain ⟨hconsumed⟩ := hpending ▸ htracked.stage
      exact hconsumed ▸ List.prefix_refl _
    | some batch =>
      rcases hpending ▸ htracked.stage with _ | ⟨hconsumed, _, _⟩ | ⟨hconsumed, _⟩
      · exact hconsumed ▸ List.prefix_refl _
      · exact hconsumed ▸ List.prefix_append _ _
  · cases hpending : s.node.pendingResultBatch with
    | none =>
      obtain ⟨hconsumed⟩ := hpending ▸ htracked.stage
      simp [hdequeued, hpending, hconsumed]
    | some batch =>
      rcases hpending ▸ htracked.stage with _ | ⟨hconsumed, _, _⟩ | ⟨hconsumed, _⟩
      · simp [hdequeued, hpending, hconsumed]
      · simp [hdequeued, hpending, hconsumed]

/-! ### A run -/

/-- A node on a job, before the first result. -/
def freshDelivery : Delivery (List UInt8) where
  node :=
    { onJob := true
      resultsQueue := []
      pendingResultBatch := none
      batchIds := 0
      pendingLogs := []
      status := ⟨2, [false, false], false, false, false, false, false⟩ }
  client := ⟨.looping, none, [], 0, 2, none⟩
  requests := []
  responses := []
  attempts := 0
  dequeued := []
  cleared := []
  consumed := []

/-- Results that unpickle to their own bytes. -/
def rawUnpickler : Unpickler (List UInt8) where
  loads := some
  loadsErrorInfo resultPkl := some ⟨false, resultPkl⟩

/-- The first response is lost and its batch served again; the next poll is made, and the
lost attempt is served once more before it. -/
def lostResponseRun : Delivery (List UInt8) :=
  (((delivery rawUnpickler true).guarded System.always).exec freshDelivery
    [.putResult ⟨0, false, [7]⟩, .putResult ⟨1, false, [8]⟩, .poll, .serve 0 0, .retry,
      .serve 1 0, .receive 0, .putResult ⟨2, false, [9]⟩, .poll, .serve 2 2, .serve 3 0,
      .receive 0]).get (by decide +kernel)

theorem delivered_in_order_lostResponse :
    lostResponseRun.client.returnQueue = [[7], [8], [9]] ∧
      lostResponseRun.cleared <+: lostResponseRun.consumed ∧
      (lostResponseRun.consumed.flatMap fun batch => batch.results) <+:
        lostResponseRun.dequeued ∧
      (lostResponseRun.consumed.flatMap fun batch => batch.results).mapM
        (returnValue rawUnpickler true) = some lostResponseRun.client.returnQueue := by
  refine ⟨by decide +kernel, delivered_in_order ?_⟩
  exact ⟨freshDelivery, _, ⟨rfl, rfl, rfl, rfl, rfl, rfl, rfl, rfl, rfl, rfl⟩,
    System.run_of_exec_guarded (Option.some_get _).symm⟩

end Burla.Results
