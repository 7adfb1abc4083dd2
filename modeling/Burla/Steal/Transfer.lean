/-
Input stealing between two nodes (`_input_steal_loop` in job_watcher.py against the
endpoints of the donor).

`Transfer` is a donor, a requester and the network between them.  The network keeps every
request that was sent and every response that was made, so that each may arrive late, again
or never.

A transfer is settled by an acknowledgement.  The donor forgets it then, and so takes a
`get_inputs` of the same transfer that comes later for a new one: it parks a batch that
nobody will ever acknowledge (`transfer_stranded`).  Where no `get_inputs` is served after
an acknowledgement of its transfer, every input is in exactly one place and a settled
transfer holds nothing at the donor (`transfers_conserve`).
-/
import Burla.Lib.Messages
import Burla.Lib.System
import Burla.Steal.Endpoints

namespace Burla.Steal

/-! ### The system -/

/-- Where the requester's loop is. -/
inductive StealPhase
  /-- No transfer is active. -/
  | idle
  /-- Waiting for the response to `get_inputs`. -/
  | getting (transferId : ℕ)
  /-- Holding a batch, waiting for `dynamic_retire_lock`. -/
  | locking (transferId : ℕ) (items : List Input)
  /-- Sending acknowledgements until one succeeds. -/
  | acking (transferId : ℕ) (received : Bool)
  /-- The loop has returned. -/
  | ended
  deriving DecidableEq, Repr

/-- What the loop reads and writes of the requester. -/
structure Requester where
  inputs : NodeInputs
  targetParallelism : ℤ
  phase : StealPhase
  deriving DecidableEq, Repr

/-- `active_input_steal_id` -/
def Requester.activeInputStealId (r : Requester) : Option ℕ :=
  match r.phase with
  | .getting t | .locking t _ | .acking t _ => some t
  | .idle | .ended => none

/-- Two nodes, the network, and what happened so far. -/
structure Transfer where
  donor : Donor
  requester : Requester
  /-- Every request sent and every response made. -/
  getRequests : List GetRequest
  getResponses : List (ℕ × Option (List Input))
  ackRequests : List AckRequest
  ackResponses : List (ℕ × Bool)
  /-- How many transfer ids have been drawn. -/
  transferIds : ℕ
  /-- Inputs whose result has been delivered. -/
  finished : List Input
  /-- Every input of the two nodes. -/
  admitted : List Input
  /-- Transfers whose batch the requester has queued. -/
  enqueued : List ℕ
  /-- Transfers for which the donor has served an acknowledgement. -/
  acked : List ℕ
  /-- Transfers that the requester has settled. -/
  settled : List ℕ
  /-- Whether a side has failed the job. -/
  failed : Bool

/-- The two nodes. -/
inductive Side
  | donor
  | requester
  deriving DecidableEq, Repr

/-- What can happen next. -/
inductive TransferEvent
  /-- A worker takes an input, delivers its result, or has it queued again. -/
  | take (side : Side)
  | finish (side : Side) (i : ℕ)
  | requeue (side : Side) (i : ℕ)
  /-- A trade or another message moves the requester's slots. -/
  | retarget (targetParallelism : ℤ)
  /-- The requester starts a transfer; it has this many idle workers to offer. -/
  | steal (idleWorkers : ℕ)
  /-- The donor serves a `get_inputs`, with these inputs to revoke if it comes to that. -/
  | serveGet (i : ℕ) (revoked : List Input)
  | getArrives (i : ℕ)
  | getFails
  | enqueue
  | sendAck
  | serveAck (i : ℕ)
  | ackArrives (i : ℕ)
  /-- The donor turns out to have left the job. -/
  | peerFinished
  /-- The acknowledgement has not succeeded in time: the requester fails the job. -/
  | giveUp
  /-- The donor finds its part of the job drained, and leaves. -/
  | drained
  | endJob
  /-- A side fails the job for another reason. -/
  | fail (side : Side)
  deriving DecidableEq, Repr

namespace NodeInputs

def take (n : NodeInputs) : Option NodeInputs :=
  match n.inputsQueue with
  | [] => none
  | input :: inputsQueue => some { inputsQueue, inFlight := input :: n.inFlight }

def requeue (n : NodeInputs) (i : ℕ) : Option NodeInputs :=
  (takeAt n.inFlight i).map fun p =>
    { inputsQueue := n.inputsQueue ++ [p.1], inFlight := p.2 }

def finish (n : NodeInputs) (i : ℕ) : Option (Input × NodeInputs) :=
  (takeAt n.inFlight i).map fun p => (p.1, { n with inFlight := p.2 })

end NodeInputs

namespace Transfer

def inputs (s : Transfer) : Side → NodeInputs
  | .donor => s.donor.inputs
  | .requester => s.requester.inputs

def setInputs (s : Transfer) (n : NodeInputs) (side : Side) : Transfer :=
  { s with
    donor := if side = .donor then { s.donor with inputs := n } else s.donor
    requester :=
      if side = .requester then { s.requester with inputs := n } else s.requester }

def setPhase (s : Transfer) (phase : StealPhase) : Transfer :=
  { s with requester := { s.requester with phase } }

/-- Where inputs are: queued or in flight on either node, parked at the donor and not yet
queued by the requester, or finished. -/
def places (s : Transfer) : List Input :=
  s.donor.inputs.inputsQueue ++ s.donor.inputs.inFlight ++
    s.donor.pendingTransfers.held s.enqueued ++
    s.requester.inputs.inputsQueue ++ s.requester.inputs.inFlight ++ s.finished

end Transfer

/-- One step. -/
def transferStep (s : Transfer) : TransferEvent → Option Transfer
  | .take side => (s.inputs side).take.map fun n => s.setInputs n side
  | .finish side i =>
    ((s.inputs side).finish i).map fun p =>
      { s.setInputs p.2 side with finished := p.1 :: s.finished }
  | .requeue side i => ((s.inputs side).requeue i).map fun n => s.setInputs n side
  | .retarget targetParallelism =>
    some { s with requester := { s.requester with targetParallelism } }
  | .steal idleWorkers =>
    if s.requester.phase = .idle ∧ 0 < s.requester.targetParallelism then
      some
        { s.setPhase (.getting s.transferIds) with
          transferIds := s.transferIds + 1
          getRequests :=
            { transferId := s.transferIds
              requesterQueueSize := s.requester.inputs.inputsQueue.length
              requesterIdleWorkers := idleWorkers } :: s.getRequests }
    else none
  | .serveGet i revoked =>
    match s.getRequests[i]? with
    | none => none
    | some r =>
      if revoked.Subperm s.donor.inputs.inFlight ∧
          revoked.length ≤ r.requesterIdleWorkers.toNat then
        let p := s.donor.getInputs r revoked
        some
          { s with donor := p.2, getResponses := (r.transferId, p.1) :: s.getResponses }
      else none
  | .getArrives i =>
    match s.requester.phase, s.getResponses[i]? with
    | .getting t, some (t', response) =>
      if t' = t then
        match response with
        | none => some (s.setPhase .idle)
        | some [] => some (s.setPhase (.acking t false))
        | some items => some (s.setPhase (.locking t items))
      else none
    | _, _ => none
  | .getFails =>
    match s.requester.phase with
    | .getting t => some (s.setPhase (.acking t false))
    | _ => none
  | .enqueue =>
    match s.requester.phase with
    | .locking t items =>
      if 0 < s.requester.targetParallelism then
        some
          { s with
            requester :=
              { s.requester with
                inputs :=
                  { s.requester.inputs with
                    inputsQueue := s.requester.inputs.inputsQueue ++ items }
                phase := .acking t true }
            enqueued := t :: s.enqueued }
      else some (s.setPhase (.acking t false))
    | _ => none
  | .sendAck =>
    match s.requester.phase with
    | .acking t received =>
      some { s with ackRequests := { transferId := t, received } :: s.ackRequests }
    | _ => none
  | .serveAck i =>
    s.ackRequests[i]?.map fun r =>
      let p := s.donor.ackTransfer r
      { s with
        donor := p.2
        ackResponses := (r.transferId, p.1) :: s.ackResponses
        acked := if p.1 then r.transferId :: s.acked else s.acked }
  | .ackArrives i =>
    match s.requester.phase, s.ackResponses[i]? with
    | .acking t _, some (t', ok) =>
      if t' = t ∧ ok then some { s.setPhase .idle with settled := t :: s.settled } else none
    | _, _ => none
  | .peerFinished =>
    match s.requester.phase with
    | .acking t _ =>
      if s.donor.onJob = false then
        some { s.setPhase .idle with settled := t :: s.settled }
      else none
    | _ => none
  | .giveUp =>
    match s.requester.phase with
    | .acking _ _ => some { s.setPhase .ended with failed := true }
    | _ => none
  | .drained =>
    if s.donor.inputs.inputsQueue = [] ∧ s.donor.pendingTransfers.entries = [] then
      some { s with donor := { s.donor with stopped := true } }
    else none
  | .endJob =>
    if s.donor.stopped then some { s with donor := { s.donor with onJob := false } } else none
  | .fail .donor =>
    some
      { s with
        donor :=
          { s.donor with
            onJob := false, inputs := { inputsQueue := [], inFlight := [] }
            pendingTransfers := ∅ }
        failed := true }
  | .fail .requester => some { s.setPhase .ended with failed := true }

/-- At the start both nodes are on the job, with any inputs, and nothing was sent. -/
structure Transfer.Fresh (s : Transfer) : Prop where
  onJob : s.donor.onJob = true
  stopped : s.donor.stopped = false
  pending : s.donor.pendingTransfers = ∅
  phase : s.requester.phase = .idle
  getRequests : s.getRequests = []
  getResponses : s.getResponses = []
  ackRequests : s.ackRequests = []
  ackResponses : s.ackResponses = []
  admitted : s.admitted = s.places
  enqueued : s.enqueued = []
  acked : s.acked = []
  settled : s.settled = []

/-- The system of a donor, a requester and the network.  A job that has failed is over. -/
def transfer : System Transfer TransferEvent where
  init := Transfer.Fresh
  step s a := if s.failed then none else transferStep s a

/-- The `get_inputs` request that a step serves. -/
def Transfer.getServed (s : Transfer) : TransferEvent → Option GetRequest
  | .serveGet i _ => s.getRequests[i]?
  | _ => none

/-- The donor serves no `get_inputs` of a transfer after an acknowledgement of it. -/
def inOrder (s : Transfer) (a : TransferEvent) : Prop :=
  s.donor.serving = true → ∀ r ∈ s.getServed a, r.transferId ∉ s.acked

instance (s : Transfer) (a : TransferEvent) : Decidable (inOrder s a) :=
  inferInstanceAs
    (Decidable (s.donor.serving = true → ∀ r ∈ s.getServed a, r.transferId ∉ s.acked))

/-! ### The invariant -/

/-- What the phase of the requester's loop says about its transfer. -/
inductive PhaseHolds (transferIds : ℕ) (enqueued : List ℕ) (ackRequests : List AckRequest)
    (pending : Parcels ℕ Input) : StealPhase → Prop
  | idle : PhaseHolds transferIds enqueued ackRequests pending .idle
  | ended : PhaseHolds transferIds enqueued ackRequests pending .ended
  /-- Nothing of the transfer has been queued or acknowledged. -/
  | getting {t : ℕ} (hdrawn : t < transferIds) (hnew : t ∉ enqueued)
      (hsilent : ∀ r ∈ ackRequests, r.transferId ≠ t) :
      PhaseHolds transferIds enqueued ackRequests pending (.getting t)
  /-- The batch in hand is parked at the donor. -/
  | locking {t : ℕ} {items : List Input} (hdrawn : t < transferIds) (hnew : t ∉ enqueued)
      (hsilent : ∀ r ∈ ackRequests, r.transferId ≠ t) (hparked : pending.lookup t = some items) :
      PhaseHolds transferIds enqueued ackRequests pending (.locking t items)
  /-- The acknowledgement says whether the batch was queued. -/
  | acking {t : ℕ} {received : Bool} (hdrawn : t < transferIds)
      (hreceived : received = true ↔ t ∈ enqueued) :
      PhaseHolds transferIds enqueued ackRequests pending (.acking t received)

/-- The invariant of stealing, as long as no side fails the job. -/
structure Kept (s : Transfer) : Prop where
  places : ∀ x, s.places.count x = s.admitted.count x
  phase : PhaseHolds s.transferIds s.enqueued s.ackRequests s.donor.pendingTransfers
    s.requester.phase
  /-- Ids in use have been drawn. -/
  getDrawn : ∀ r ∈ s.getRequests, r.transferId < s.transferIds
  responseDrawn : ∀ q ∈ s.getResponses, q.1 < s.transferIds
  ackDrawn : ∀ r ∈ s.ackRequests, r.transferId < s.transferIds
  enqueuedDrawn : ∀ t ∈ s.enqueued, t < s.transferIds
  /-- What the donor holds has not been acknowledged. -/
  parked : ∀ t ∈ s.donor.pendingTransfers, t ∉ s.acked
  /-- A batch that was served is parked until it is acknowledged. -/
  served : ∀ t items, (t, some items) ∈ s.getResponses →
    t ∈ s.acked ∨ s.donor.pendingTransfers.lookup t = some items
  /-- A batch that the requester queued is parked until it is acknowledged. -/
  queued : ∀ t ∈ s.enqueued, t ∈ s.acked ∨ t ∈ s.donor.pendingTransfers
  /-- An acknowledgement says whether the batch was queued. -/
  truthful : ∀ r ∈ s.ackRequests, r.received = true ↔ r.transferId ∈ s.enqueued
  ackedSent : ∀ t ∈ s.acked, ∃ r ∈ s.ackRequests, r.transferId = t
  answered : ∀ t, (t, true) ∈ s.ackResponses → t ∈ s.acked
  /-- A settled transfer was acknowledged, or the donor has left. -/
  settled : ∀ t ∈ s.settled, t ∈ s.acked ∨ s.donor.stopped = true
  stopped : s.donor.stopped = true → s.donor.pendingTransfers = ∅
  onJob : s.donor.onJob = false → s.donor.stopped = true

namespace Kept

variable {s : Transfer}

lemma of_fresh (h : s.Fresh) : Kept s where
  places x := by rw [h.admitted]
  phase := h.phase ▸ .idle
  getDrawn := by simp [h.getRequests]
  responseDrawn := by simp [h.getResponses]
  ackDrawn := by simp [h.ackRequests]
  enqueuedDrawn := by simp [h.enqueued]
  parked := by simp [h.acked]
  served := by simp [h.getResponses]
  queued := by simp [h.enqueued]
  truthful := by simp [h.ackRequests]
  ackedSent := by simp [h.acked]
  answered := by simp [h.ackResponses]
  settled := by simp [h.settled]
  stopped := by simp [h.stopped]
  onJob := by simp [h.onJob]

/-! #### Workers -/

/-- A node's inputs move between its queue, its workers and the results. -/
lemma setInputs (h : Kept s) (side : Side) {n : NodeInputs} (finished : List Input)
    (hcount : ∀ x, n.inputsQueue.count x + n.inFlight.count x + finished.count x =
      (s.inputs side).inputsQueue.count x + (s.inputs side).inFlight.count x +
        s.finished.count x) :
    Kept { s.setInputs n side with finished } := by
  cases side with
  | donor =>
    refine { h with places := fun x => ?_ }
    have := hcount x
    show _ = s.admitted.count x
    rw [← h.places x]
    simp only [Transfer.places, Transfer.setInputs, Transfer.inputs, List.count_append, if_true,
      reduceCtorEq, if_false] at this ⊢
    omega
  | requester =>
    refine { h with places := fun x => ?_ }
    have := hcount x
    show _ = s.admitted.count x
    rw [← h.places x]
    simp only [Transfer.places, Transfer.setInputs, Transfer.inputs, List.count_append, if_true,
      reduceCtorEq, if_false] at this ⊢
    omega

lemma take (h : Kept s) (side : Side) {n : NodeInputs} (hn : (s.inputs side).take = some n) :
    Kept (s.setInputs n side) := by
  refine h.setInputs side s.finished fun x => ?_
  unfold NodeInputs.take at hn
  cases hqueue : (s.inputs side).inputsQueue with
  | nil => simp [hqueue] at hn
  | cons input queue =>
    obtain rfl : _ = n := by simpa [hqueue] using hn
    simp only [List.count_cons]
    omega

lemma requeue (h : Kept s) (side : Side) {i : ℕ} {n : NodeInputs}
    (hn : (s.inputs side).requeue i = some n) : Kept (s.setInputs n side) := by
  refine h.setInputs side s.finished fun x => ?_
  obtain ⟨⟨input, rest⟩, htake, rfl⟩ := Option.map_eq_some_iff.1 hn
  have hperm := (takeAt_perm htake).count_eq x
  simp only [List.count_append, List.count_cons, List.count_nil] at hperm ⊢
  omega

lemma finish (h : Kept s) (side : Side) {i : ℕ} {p : Input × NodeInputs}
    (hp : (s.inputs side).finish i = some p) :
    Kept { s.setInputs p.2 side with finished := p.1 :: s.finished } := by
  refine h.setInputs side (p.1 :: s.finished) fun x => ?_
  obtain ⟨⟨input, rest⟩, htake, rfl⟩ := Option.map_eq_some_iff.1 hp
  have hperm := (takeAt_perm htake).count_eq x
  simp only [List.count_cons] at hperm ⊢
  omega

/-! #### The requester -/

/-- The loop moves on and nothing else happens. -/
lemma setPhase (h : Kept s) {phase : StealPhase}
    (hphase : PhaseHolds s.transferIds s.enqueued s.ackRequests s.donor.pendingTransfers phase) :
    Kept (s.setPhase phase) :=
  { h with phase := hphase }

/-- A transfer is settled. -/
lemma settle (h : Kept s) {t : ℕ} (ht : t ∈ s.acked ∨ s.donor.stopped = true) :
    Kept { s.setPhase .idle with settled := t :: s.settled } := by
  refine { h with phase := .idle, settled := ?_ }
  intro t' ht'
  rcases List.mem_cons.1 ht' with rfl | ht'
  · exact ht
  · exact h.settled t' ht'

/-- A new transfer starts under a fresh id. -/
lemma steal (h : Kept s) (r : GetRequest) (hr : r.transferId = s.transferIds) :
    Kept
      { s.setPhase (.getting s.transferIds) with
        transferIds := s.transferIds + 1
        getRequests := r :: s.getRequests } := by
  have hlt : s.transferIds < s.transferIds + 1 := Nat.lt_succ_self _
  refine
    { h with
      phase := .getting hlt (fun he => (h.enqueuedDrawn _ he).false) ?_
      getDrawn := ?_
      responseDrawn := fun q hq => (h.responseDrawn q hq).trans hlt
      ackDrawn := fun r hr => (h.ackDrawn r hr).trans hlt
      enqueuedDrawn := fun t ht => (h.enqueuedDrawn t ht).trans hlt }
  · intro r' hr' he
    exact (he ▸ h.ackDrawn r' hr').false
  · intro r' hr'
    rcases List.mem_cons.1 hr' with rfl | hr'
    · exact hr ▸ hlt
    · exact (h.getDrawn r' hr').trans hlt

/-- The response to `get_inputs` arrives: its batch is parked. -/
lemma getArrives (h : Kept s) {t : ℕ} (hphase : s.requester.phase = .getting t)
    {items : List Input} (hresponse : (t, some items) ∈ s.getResponses) :
    Kept (s.setPhase (.locking t items)) := by
  rcases hphase ▸ h.phase with _ | _ | ⟨hdrawn, hnew, hsilent⟩
  refine h.setPhase (.locking hdrawn hnew hsilent ?_)
  rcases h.served t items hresponse with hacked | hparked
  · obtain ⟨r, hr, he⟩ := h.ackedSent t hacked
    exact absurd he (hsilent r hr)
  · exact hparked

/-- No batch is taken: the acknowledgement says so. -/
lemma refuse (h : Kept s) {t : ℕ} (hdrawn : t < s.transferIds) (hnew : t ∉ s.enqueued) :
    Kept (s.setPhase (.acking t false)) :=
  h.setPhase (.acking hdrawn (by simp [hnew]))

/-- The requester queues the batch in hand. -/
lemma enqueue (h : Kept s) {t : ℕ} {items : List Input}
    (hphase : s.requester.phase = .locking t items) :
    Kept
      { s with
        requester :=
          { s.requester with
            inputs :=
              { s.requester.inputs with
                inputsQueue := s.requester.inputs.inputsQueue ++ items }
            phase := .acking t true }
        enqueued := t :: s.enqueued } := by
  rcases hphase ▸ h.phase with _ | _ | _ | ⟨hdrawn, hnew, hsilent, hparked⟩
  refine
    { h with
      places := ?_
      phase := .acking hdrawn (by simp)
      enqueuedDrawn := ?_
      queued := ?_
      truthful := ?_ }
  · intro x
    rw [← h.places x]
    have := Parcels.count_held_cons hparked hnew x
    simp only [Transfer.places, List.count_append] at this ⊢
    omega
  · intro t' ht'
    rcases List.mem_cons.1 ht' with rfl | ht'
    · exact hdrawn
    · exact h.enqueuedDrawn t' ht'
  · intro t' ht'
    rcases List.mem_cons.1 ht' with rfl | ht'
    · exact .inr (AList.lookup_isSome.1 (by simp [hparked]))
    · exact h.queued t' ht'
  · intro r hr
    rw [h.truthful r hr, List.mem_cons, or_iff_right (hsilent r hr)]

/-- An acknowledgement is sent. -/
lemma sendAck (h : Kept s) {t : ℕ} {received : Bool}
    (hphase : s.requester.phase = .acking t received) :
    Kept
      { s with ackRequests := { transferId := t, received } :: s.ackRequests } := by
  rcases hphase ▸ h.phase with _ | _ | _ | _ | ⟨hdrawn, hreceived⟩
  refine
    { h with
      phase := ?_
      ackDrawn := ?_
      truthful := ?_
      ackedSent := ?_ }
  · show PhaseHolds _ _ _ _ s.requester.phase
    rw [hphase]
    exact .acking hdrawn hreceived
  · intro r hr
    rcases List.mem_cons.1 hr with rfl | hr
    · exact hdrawn
    · exact h.ackDrawn r hr
  · intro r hr
    rcases List.mem_cons.1 hr with rfl | hr
    · exact hreceived
    · exact h.truthful r hr
  · intro t' ht'
    obtain ⟨r, hr, he⟩ := h.ackedSent t' ht'
    exact ⟨r, List.mem_cons_of_mem _ hr, he⟩

/-! #### The donor -/

/-- The donor serves a `get_inputs` of a transfer that has not been acknowledged. -/
lemma serveGet (h : Kept s) {r : GetRequest} (hr : r ∈ s.getRequests)
    (horder : s.donor.serving = true → r.transferId ∉ s.acked)
    {p : Option (List Input) × Donor} (hp : s.donor.Got r.transferId p) :
    Kept { s with donor := p.2, getResponses := (r.transferId, p.1) :: s.getResponses } := by
  have hdrawn : ∀ q ∈ (r.transferId, p.1) :: s.getResponses, q.1 < s.transferIds := by
    intro q hq
    rcases List.mem_cons.1 hq with rfl | hq
    · exact h.getDrawn r hr
    · exact h.responseDrawn q hq
  cases hp with
  | refused hserving =>
    exact { h with responseDrawn := hdrawn, served := by simpa using h.served }
  | again hparked =>
    refine { h with responseDrawn := hdrawn, served := ?_ }
    intro t items ht
    rcases List.mem_cons.1 ht with heq | ht
    · obtain ⟨rfl, hsome⟩ := Prod.mk.inj heq
      obtain rfl := Option.some.inj hsome
      exact .inr hparked
    · exact h.served t items ht
  | @parked items inputs hserving hnew hitems =>
    have hacked := horder hserving
    have hnotMem : r.transferId ∉ s.donor.pendingTransfers := AList.lookup_eq_none.1 hnew
    have hfree : r.transferId ∉ s.enqueued := by
      intro he
      exact (h.queued _ he).elim hacked hnotMem
    have hkeep : ∀ t items', s.donor.pendingTransfers.lookup t = some items' →
        (s.donor.pendingTransfers.insert r.transferId items).lookup t = some items' := by
      intro t items' ht
      have hne : t ≠ r.transferId := by
        rintro rfl
        simp [hnew] at ht
      rw [AList.lookup_insert_ne hne, ht]
    refine
      { h with
        places := ?_
        phase := ?_
        responseDrawn := hdrawn
        parked := ?_
        served := ?_
        queued := ?_
        stopped := ?_ }
    · intro x
      show _ = s.admitted.count x
      rw [← h.places x]
      have hheld := Parcels.count_held_insert items hnotMem hfree x
      have := hitems x
      simp only [Transfer.places, List.count_append] at hheld ⊢
      omega
    · show PhaseHolds _ _ _ _ s.requester.phase
      rcases hphase : s.requester.phase with _ | t | ⟨t, items'⟩ | ⟨t, received⟩ | _
      · exact .idle
      · rcases hphase ▸ h.phase with _ | _ | ⟨hdrawn, hnew, hsilent⟩
        exact .getting hdrawn hnew hsilent
      · rcases hphase ▸ h.phase with _ | _ | _ | ⟨hdrawn, hnew, hsilent, hparked⟩
        exact .locking hdrawn hnew hsilent (hkeep _ _ hparked)
      · rcases hphase ▸ h.phase with _ | _ | _ | _ | ⟨hdrawn, hreceived⟩
        exact .acking hdrawn hreceived
      · exact .ended
    · intro t ht
      rcases (AList.mem_insert _).1 ht with rfl | ht
      · exact hacked
      · exact h.parked t ht
    · intro t items' ht
      rcases List.mem_cons.1 ht with heq | ht
      · obtain ⟨rfl, hsome⟩ := Prod.mk.inj heq
        obtain rfl := Option.some.inj hsome
        exact .inr (AList.lookup_insert _)
      · exact (h.served t items' ht).imp_right (hkeep t items')
    · intro t ht
      exact (h.queued t ht).imp_right fun ht => (AList.mem_insert _).2 (.inr ht)
    · intro hstopped
      simp [Donor.serving, show s.donor.stopped = true from hstopped] at hserving

/-- A transfer is acknowledged: the donor keeps the other batches. -/
lemma acknowledged (h : Kept s) {r : AckRequest} (hr : r ∈ s.ackRequests) {d : Donor}
    (hgone : d.pendingTransfers.lookup r.transferId = none)
    (hkeep : ∀ t ≠ r.transferId, d.pendingTransfers.lookup t =
      s.donor.pendingTransfers.lookup t)
    (hstopped : d.stopped = s.donor.stopped) (hjob : d.onJob = true)
    (hempty : s.donor.pendingTransfers = ∅ → d.pendingTransfers = ∅)
    (hplaces : ∀ x, (d.inputs.inputsQueue ++ d.inputs.inFlight ++
        d.pendingTransfers.held s.enqueued).count x =
      (s.donor.inputs.inputsQueue ++ s.donor.inputs.inFlight ++
        s.donor.pendingTransfers.held s.enqueued).count x) :
    Kept
      { s with
        donor := d
        ackResponses := (r.transferId, true) :: s.ackResponses
        acked := r.transferId :: s.acked } := by
  have hmem : ∀ t, t ∈ d.pendingTransfers ↔
      t ≠ r.transferId ∧ t ∈ s.donor.pendingTransfers := by
    intro t
    rw [← AList.lookup_isSome, ← AList.lookup_isSome]
    by_cases ht : t = r.transferId
    · subst ht
      simp [hgone]
    · simp [ht, hkeep t ht]
  refine
    { h with
      places := ?_
      phase := ?_
      parked := ?_
      served := ?_
      queued := ?_
      ackedSent := ?_
      answered := ?_
      settled := ?_
      stopped := fun hs => hempty (h.stopped (hstopped ▸ hs))
      onJob := fun hj => by simp [hjob] at hj }
  · intro x
    show _ = s.admitted.count x
    rw [← h.places x]
    have := hplaces x
    simp only [Transfer.places, List.count_append] at this ⊢
    omega
  · show PhaseHolds _ _ _ _ s.requester.phase
    rcases hphase : s.requester.phase with _ | t | ⟨t, items⟩ | ⟨t, received⟩ | _
    · exact .idle
    · rcases hphase ▸ h.phase with _ | _ | ⟨hdrawn, hnew, hsilent⟩
      exact .getting hdrawn hnew hsilent
    · rcases hphase ▸ h.phase with _ | _ | _ | ⟨hdrawn, hnew, hsilent, hparked⟩
      -- the batch in hand has not been acknowledged, so it is another one
      exact .locking hdrawn hnew hsilent ((hkeep t (hsilent r hr).symm).trans hparked)
    · rcases hphase ▸ h.phase with _ | _ | _ | _ | ⟨hdrawn, hreceived⟩
      exact .acking hdrawn hreceived
    · exact .ended
  · intro t ht
    obtain ⟨hne, hmem⟩ := (hmem t).1 ht
    simpa [hne] using h.parked t hmem
  · intro t items ht
    by_cases hne : t = r.transferId
    · exact .inl (by simp [hne])
    · rcases h.served t items ht with hacked | hparked
      · exact .inl (List.mem_cons_of_mem _ hacked)
      · exact .inr ((hkeep t hne).trans hparked)
  · intro t ht
    by_cases hne : t = r.transferId
    · exact .inl (by simp [hne])
    · rcases h.queued t ht with hacked | hparked
      · exact .inl (List.mem_cons_of_mem _ hacked)
      · exact .inr ((hmem t).2 ⟨hne, hparked⟩)
  · intro t ht
    rcases List.mem_cons.1 ht with rfl | ht
    · exact ⟨r, hr, rfl⟩
    · exact h.ackedSent t ht
  · intro t ht
    rcases List.mem_cons.1 ht with heq | ht
    · exact List.mem_cons.2 (.inl (Prod.mk.inj heq).1)
    · exact List.mem_cons_of_mem _ (h.answered t ht)
  · intro t ht
    exact (h.settled t ht).imp (List.mem_cons_of_mem _) fun hs => hstopped.trans hs

/-- The donor serves an acknowledgement. -/
lemma serveAck (h : Kept s) {r : AckRequest} (hr : r ∈ s.ackRequests) {p : Bool × Donor}
    (hp : s.donor.Acked r p) :
    Kept
      { s with
        donor := p.2
        ackResponses := (r.transferId, p.1) :: s.ackResponses
        acked := if p.1 then r.transferId :: s.acked else s.acked } := by
  cases hp with
  | refused hjob => exact { h with answered := by simpa using h.answered }
  | nothing hjob hlookup =>
    exact h.acknowledged hr hlookup (fun _ _ => rfl) rfl hjob id fun _ => rfl
  | @settled items inputs hjob hlookup hitems =>
    refine h.acknowledged hr (AList.lookup_erase _ _) (fun t ht => AList.lookup_erase_ne ht) rfl
      hjob (fun hempty => by simp [hempty] at hlookup) fun x => ?_
    have hheld := Parcels.count_held_erase s.enqueued hlookup x
    have hreceived := h.truthful r hr
    have := hitems x
    by_cases hqueued : r.transferId ∈ s.enqueued
    · simp only [hreceived.2 hqueued, hqueued, if_true, List.count_append] at this hheld ⊢
      omega
    · simp only [mt hreceived.1 hqueued, hqueued, if_false, List.count_append,
        Bool.false_eq_true] at this hheld ⊢
      omega

/-- The donor leaves the job when nothing is parked. -/
lemma drained (h : Kept s) (hempty : s.donor.pendingTransfers.entries = []) :
    Kept { s with donor := { s.donor with stopped := true } } :=
  { h with
    settled := fun _ _ => .inr rfl
    stopped := fun _ => AList.ext hempty
    onJob := fun _ => rfl }

lemma endJob (h : Kept s) (hstopped : s.donor.stopped = true) :
    Kept { s with donor := { s.donor with onJob := false } } :=
  { h with onJob := fun _ => hstopped }

/-! #### Every step -/

lemma step {t : Transfer} {a : TransferEvent} (h : Kept s) (horder : inOrder s a)
    (hstep : transferStep s a = some t) : t.failed = true ∨ Kept t := by
  cases a with
  | take side =>
    obtain ⟨n, hn, rfl⟩ := Option.map_eq_some_iff.1 hstep
    exact .inr (h.take side hn)
  | finish side i =>
    obtain ⟨p, hp, rfl⟩ := Option.map_eq_some_iff.1 hstep
    exact .inr (h.finish side hp)
  | requeue side i =>
    obtain ⟨n, hn, rfl⟩ := Option.map_eq_some_iff.1 hstep
    exact .inr (h.requeue side hn)
  | retarget targetParallelism =>
    obtain rfl := Option.some.inj hstep
    exact .inr { h with }
  | steal idleWorkers =>
    simp only [transferStep, Option.ite_none_right_eq_some, Option.some.injEq] at hstep
    obtain ⟨-, rfl⟩ := hstep
    exact .inr (h.steal _ rfl)
  | serveGet i revoked =>
    simp only [transferStep] at hstep
    split at hstep
    · cases hstep
    · rename_i r hr
      simp only [Option.ite_none_right_eq_some, Option.some.injEq] at hstep
      obtain ⟨⟨hrevoked, -⟩, rfl⟩ := hstep
      exact .inr (h.serveGet (List.mem_of_getElem? hr) (fun hs => horder hs r hr)
        (s.donor.getInputs_got r hrevoked))
  | getArrives i =>
    simp only [transferStep] at hstep
    split at hstep
    · rename_i t t' response hphase hresponse
      split at hstep
      · rename_i heq
        subst heq
        have hmem := List.mem_of_getElem? hresponse
        rcases hphase ▸ h.phase with _ | _ | ⟨hdrawn, hnew, -⟩
        split at hstep
        · obtain rfl := Option.some.inj hstep
          exact .inr (h.setPhase .idle)
        · obtain rfl := Option.some.inj hstep
          exact .inr (h.refuse hdrawn hnew)
        · obtain rfl := Option.some.inj hstep
          exact .inr (h.getArrives hphase hmem)
      · cases hstep
    · cases hstep
  | getFails =>
    simp only [transferStep] at hstep
    split at hstep
    · rename_i t hphase
      obtain rfl := Option.some.inj hstep
      rcases hphase ▸ h.phase with _ | _ | ⟨hdrawn, hnew, -⟩
      exact .inr (h.refuse hdrawn hnew)
    · cases hstep
  | enqueue =>
    simp only [transferStep] at hstep
    split at hstep
    · rename_i t items hphase
      split at hstep
      · obtain rfl := Option.some.inj hstep
        exact .inr (h.enqueue hphase)
      · obtain rfl := Option.some.inj hstep
        rcases hphase ▸ h.phase with _ | _ | _ | ⟨hdrawn, hnew, -, -⟩
        exact .inr (h.refuse hdrawn hnew)
    · cases hstep
  | sendAck =>
    simp only [transferStep] at hstep
    split at hstep
    · rename_i t received hphase
      obtain rfl := Option.some.inj hstep
      exact .inr (h.sendAck hphase)
    · cases hstep
  | serveAck i =>
    obtain ⟨r, hr, rfl⟩ := Option.map_eq_some_iff.1 hstep
    exact .inr (h.serveAck (List.mem_of_getElem? hr) (s.donor.ackTransfer_acked r))
  | ackArrives i =>
    simp only [transferStep] at hstep
    split at hstep
    · rename_i t received t' ok hphase hresponse
      simp only [Option.ite_none_right_eq_some, Option.some.injEq] at hstep
      obtain ⟨⟨rfl, rfl⟩, rfl⟩ := hstep
      exact .inr (h.settle (.inl (h.answered _ (List.mem_of_getElem? hresponse))))
    · cases hstep
  | peerFinished =>
    simp only [transferStep] at hstep
    split at hstep
    · simp only [Option.ite_none_right_eq_some, Option.some.injEq] at hstep
      obtain ⟨hjob, rfl⟩ := hstep
      exact .inr (h.settle (.inr (h.onJob hjob)))
    · cases hstep
  | giveUp =>
    simp only [transferStep] at hstep
    split at hstep
    · obtain rfl := Option.some.inj hstep
      exact .inl rfl
    · cases hstep
  | drained =>
    simp only [transferStep, Option.ite_none_right_eq_some, Option.some.injEq] at hstep
    obtain ⟨⟨-, hempty⟩, rfl⟩ := hstep
    exact .inr (h.drained hempty)
  | endJob =>
    simp only [transferStep, Option.ite_none_right_eq_some, Option.some.injEq] at hstep
    obtain ⟨hstopped, rfl⟩ := hstep
    exact .inr (h.endJob hstopped)
  | fail side =>
    cases side with
    | donor =>
      obtain rfl := Option.some.inj hstep
      exact .inl rfl
    | requester =>
      obtain rfl := Option.some.inj hstep
      exact .inl rfl

end Kept

variable {s : Transfer}

lemma kept_reachable (h : transfer.Reachable inOrder s) : s.failed = true ∨ Kept s := by
  refine System.Invariant.reachable (P := fun s => s.failed = true ∨ Kept s)
    ⟨fun _ h => .inr (Kept.of_fresh h), ?_⟩ h
  intro s a t hs horder hstep
  simp only [transfer, Option.ite_none_left_eq_some] at hstep
  obtain ⟨hfailed, hstep⟩ := hstep
  exact (hs.resolve_left hfailed).step horder hstep

/-! ### Main result -/

/-- **Stealing strands and duplicates nothing** as long as no `get_inputs` is served after an
acknowledgement of its transfer: every input is in exactly one place, and the donor holds
no batch of a transfer that the requester has settled. -/
theorem transfers_conserve (h : transfer.Reachable inOrder s) (hfailed : s.failed = false) :
    s.places.Perm s.admitted ∧ ∀ t ∈ s.settled, t ∉ s.donor.pendingTransfers := by
  have hkept := (kept_reachable h).resolve_left (by simp [hfailed])
  refine ⟨List.perm_iff_count.2 hkept.places, ?_⟩
  intro t ht hmem
  rcases hkept.settled t ht with hacked | hstopped
  · exact hkept.parked t hmem hacked
  · simp [hkept.stopped hstopped] at hmem

/-! ### Two runs -/

/-- A donor with three queued inputs and a requester with none. -/
def threeInputs : Transfer where
  donor :=
    { onJob := true
      stopped := false
      inputs := { inputsQueue := [⟨0, [1]⟩, ⟨1, [2]⟩, ⟨2, [3]⟩], inFlight := [] }
      pendingTransfers := ∅ }
  requester :=
    { inputs := { inputsQueue := [], inFlight := [] }, targetParallelism := 1, phase := .idle }
  getRequests := []
  getResponses := []
  ackRequests := []
  ackResponses := []
  transferIds := 0
  finished := []
  admitted := [⟨0, [1]⟩, ⟨1, [2]⟩, ⟨2, [3]⟩]
  enqueued := []
  acked := []
  settled := []
  failed := false

lemma fresh_threeInputs : threeInputs.Fresh :=
  ⟨rfl, rfl, rfl, rfl, rfl, rfl, rfl, rfl, rfl, rfl, rfl, rfl⟩

/-- One input is stolen, with its acknowledgement served twice. -/
def stolenRun : Transfer :=
  ((transfer.guarded inOrder).exec threeInputs
    [.steal 1, .serveGet 0 [], .getArrives 0, .enqueue, .sendAck, .serveAck 0, .sendAck,
      .serveAck 0, .ackArrives 0]).get (by decide +kernel)

theorem transfers_conserve_stolen :
    stolenRun.requester.inputs.inputsQueue = [⟨2, [3]⟩] ∧
      stolenRun.places.Perm stolenRun.admitted ∧
      ∀ t ∈ stolenRun.settled, t ∉ stolenRun.donor.pendingTransfers := by
  refine ⟨by decide +kernel, transfers_conserve ?_ (by decide +kernel)⟩
  exact ⟨threeInputs, _, fresh_threeInputs,
    System.run_of_exec_guarded (Option.some_get _).symm⟩

/-- The `get_inputs` arrives after the requester has given it up and settled the transfer. -/
def lateGetRun : Transfer :=
  ((transfer.guarded System.always).exec threeInputs
    [.steal 1, .getFails, .sendAck, .serveAck 0, .ackArrives 0, .serveGet 0 []]).get
    (by decide +kernel)

theorem transfer_stranded :
    ¬ ∀ s : Transfer, transfer.Reachable System.always s → s.failed = false →
      s.places.Perm s.admitted ∧ ∀ t ∈ s.settled, t ∉ s.donor.pendingTransfers := by
  intro h
  have hrun : transfer.Reachable System.always lateGetRun :=
    ⟨threeInputs, _, fresh_threeInputs, System.run_of_exec_guarded (Option.some_get _).symm⟩
  have hsettled := (h lateGetRun hrun (by decide +kernel)).2
  revert hsettled
  decide +kernel

end Burla.Steal
