/-
`revoke_inputs_for_idle_peer` (worker_client.py) inside `get_inputs` (job_endpoints.py), when what
it awaits may raise.

The inputs are taken off their workers first, then the node logs that, and kills the processes
together; the batch is stored only when all of that has gone well.  `Failures` says which log calls
and which kills raise.  What other tasks of the node do meanwhile is left out.

The main result is `Burla.Steal.revocation_atomic_iff`.
-/
import Burla.Lib.Effects
import Burla.Lib.Places
import Burla.Steal.SizedQueue
import Mathlib.Algebra.Order.Ring.Rat
import Mathlib.Data.List.Sort

namespace Burla.Steal

/-! ### The node -/

structure Worker where
  retired : Bool
  isIdle : Bool
  throttled : Bool
  currentInput : Option Input
  /-- What `attempt_cpu_seconds` reads. -/
  attemptCpuSeconds : ℚ
  workerHostPid : Option ℕ
  deriving DecidableEq

/-- What `get_inputs` reads and writes of `SELF`. -/
structure RevokingNode where
  /-- The job of the requests is the node's current job. -/
  onJob : Bool
  /-- `job_watcher_stop_event` is set. -/
  stopped : Bool
  inputsQueue : SizedQueue
  workers : List Worker
  cpuUtilization : ℚ
  rebootContainersAfterJob : Bool
  pendingTransfers : Parcels ℕ Input

/-- What raises. -/
structure Failures where
  log : Bool
  debugLog : Bool
  /-- The kill of the worker at a position. -/
  kill : ℕ → Bool

def cpuUtilizationSaturated : ℚ := 19 / 20

namespace RevokingNode

variable (s : RevokingNode)

/-- The input of the worker at a position. -/
def inputAt (i : ℕ) : Option Input := (s.workers[i]?).bind Worker.currentInput

def throttledAt (i : ℕ) : Bool := (s.workers[i]?).any Worker.throttled

def cpuSecondsAt (i : ℕ) : ℚ := ((s.workers[i]?).map Worker.attemptCpuSeconds).getD 0

/-- `in_flight`, by positions. -/
def inFlight : List ℕ :=
  (List.range s.workers.length).filter fun i =>
    (s.workers[i]?).any fun w => !w.retired && w.currentInput.isSome

/-- Positions sorted by the CPU that the attempts have used. -/
def byCpu (positions : List ℕ) : List ℕ :=
  positions.insertionSort fun i j => s.cpuSecondsAt i ≤ s.cpuSecondsAt j

/-- The candidates, least progress first. -/
def candidates : List ℕ :=
  let throttled := s.inFlight.filter s.throttledAt
  let running := s.byCpu (s.inFlight.filter fun i => !s.throttledAt i)
  s.byCpu
    (if cpuUtilizationSaturated ≤ s.cpuUtilization then
      throttled ++ running.take (running.length / 2)
    else throttled)

/-- The inputs of several workers. -/
def inputsOf (positions : List ℕ) : List Input := positions.filterMap s.inputAt

/-- The victims lose their inputs. -/
def detach (victims : List ℕ) : RevokingNode :=
  { s with
    workers := victims.foldl (fun workers i =>
      workers.modify i fun w => { w with retired := true, isIdle := true, currentInput := none })
      s.workers
    rebootContainersAfterJob := true }

/-- The processes of those victims whose kill does not raise are gone. -/
def kill (f : Failures) (victims : List ℕ) : RevokingNode :=
  { s with
    workers := (victims.filter fun i => !f.kill i).foldl (fun workers i =>
      workers.modify i fun w => { w with workerHostPid := none }) s.workers }

def store (transferId : ℕ) (items : List Input) : RevokingNode :=
  { s with pendingTransfers := s.pendingTransfers.insert transferId items }

end RevokingNode

/-! ### The functions -/

/-- What an exception says. -/
inductive Raised
  | log
  | debugLog
  | kill
  deriving DecidableEq, Repr

/-- `revoke_inputs_for_idle_peer` -/
def revokeInputsForIdlePeer (f : Failures) (maxInputs : ℤ) :
    Effect Raised RevokingNode (List Input) := do
  let s ← Effect.read
  if s.candidates = [] then pure []
  else do
    let victims := s.candidates.take maxInputs.toNat
    Effect.modify fun s => s.detach victims
    Effect.raiseIf f.log .log
    Effect.raiseIf f.debugLog .debugLog
    -- the kills run together, and one that raises does not stop the others
    Effect.modify fun s => s.kill f victims
    Effect.raiseIf (victims.any f.kill) .kill
    pure (s.inputsOf victims)

/-- The queue is empty and the requester is idle. -/
def GetRequest.MayRevoke (r : GetRequest) (items : List Input) (queue : SizedQueue) : Prop :=
  items = [] ∧ queue.qsize = 0 ∧ r.requesterQueueSize = 0 ∧ 0 < r.requesterIdleWorkers

instance (r : GetRequest) (items : List Input) (queue : SizedQueue) :
    Decidable (r.MayRevoke items queue) :=
  inferInstanceAs (Decidable (_ ∧ _ ∧ _ ∧ _))

/-- The items for the peer, after those that have been taken from the queue. -/
def itemsForPeer (f : Failures) (r : GetRequest) (items : List Input) :
    Effect Raised RevokingNode (List Input) := do
  let s ← Effect.read
  if r.MayRevoke items s.inputsQueue then revokeInputsForIdlePeer f r.requesterIdleWorkers
  else pure items

/-- `get_inputs`; no items are a 404. -/
def getInputsRevoking (f : Failures) (r : GetRequest) :
    Effect Raised RevokingNode (Option (List Input)) := do
  let s ← Effect.read
  if s.onJob = false ∨ s.stopped = true then pure none
  else
    match s.pendingTransfers.lookup r.transferId with
    | some items => pure (some items)
    | none => do
      let difference := (s.inputsQueue.qsize : ℤ) - r.requesterQueueSize
      let p := takeItems (max difference 1 / 2).toNat [] 0 s.inputsQueue
      Effect.modify fun s => { s with inputsQueue := p.2 }
      let items ← itemsForPeer f r p.1.reverse
      Effect.modify fun s => s.store r.transferId items
      pure (some items)

/-! ### What is left on the workers -/

namespace RevokingNode

variable {s : RevokingNode} {victims : List ℕ} {i : ℕ}

lemma inputAt_of_mem_candidates (h : i ∈ s.candidates) : (s.inputAt i).isSome := by
  have hflight : i ∈ s.inFlight := by
    rw [candidates, byCpu, List.mem_insertionSort] at h
    split_ifs at h
    · rcases List.mem_append.1 h with h | h
      · exact List.mem_of_mem_filter h
      · exact List.mem_of_mem_filter ((List.mem_insertionSort _).1 (List.mem_of_mem_take h))
    · exact List.mem_of_mem_filter h
  have hworker := (List.mem_filter.1 hflight).2
  rw [inputAt]
  cases hw : s.workers[i]? with
  | none => simp [hw] at hworker
  | some w => simp_all

/-- A victim has no input once it has been detached. -/
lemma inputAt_detach (hi : i ∈ victims) : (s.detach victims).inputAt i = none := by
  have hstays : ∀ (victims : List ℕ) (workers : List Worker),
      ((workers[i]?).bind Worker.currentInput = none ∨ i ∈ victims) →
        ((victims.foldl (fun workers j => workers.modify j fun w =>
          { w with retired := true, isIdle := true, currentInput := none }) workers)[i]?).bind
            Worker.currentInput = none := by
    intro victims
    induction victims with
    | nil => exact fun workers h => h.resolve_right List.not_mem_nil
    | cons j victims ih =>
      intro workers h
      refine ih _ ?_
      rw [Places.bind_modify]
      by_cases hji : j = i
      · rw [if_pos hji]
        cases workers[i]? <;> exact .inl rfl
      · rw [if_neg hji]
        exact h.imp_right fun hmem => (List.mem_cons.1 hmem).resolve_left (Ne.symm hji)
  exact hstays victims s.workers (.inr hi)

/-- The end of a process takes no input away. -/
lemma inputAt_kill (f : Failures) (victims : List ℕ) :
    (s.kill f victims).inputAt i = s.inputAt i := by
  have hsame : ∀ (victims : List ℕ) (workers : List Worker),
      ((victims.foldl (fun workers j => workers.modify j fun w =>
        { w with workerHostPid := none }) workers)[i]?).bind Worker.currentInput =
          (workers[i]?).bind Worker.currentInput := by
    intro victims
    induction victims with
    | nil => exact fun workers => rfl
    | cons j victims ih =>
      intro workers
      rw [List.foldl_cons, ih, Places.bind_modify]
      split_ifs <;> rfl
  exact hsame _ s.workers

end RevokingNode

/-! ### The two ends of a revocation -/

section Runs

variable {f : Failures} {s : RevokingNode} {r : GetRequest} {maxInputs : ℤ}

/-- Nothing raises while the victims are taken off. -/
def Failures.Spare (f : Failures) (victims : List ℕ) : Prop :=
  f.log = false ∧ f.debugLog = false ∧ ∀ i ∈ victims, f.kill i = false

instance (victims : List ℕ) : Decidable (f.Spare victims) := inferInstanceAs (Decidable (_ ∧ _ ∧ _))

lemma revoke_of_nil (hnone : s.candidates = []) :
    revokeInputsForIdlePeer f maxInputs s = (.ok [], s) := by
  simp only [revokeInputsForIdlePeer, Effect.read_bind, if_pos hnone, Effect.pure_run]

lemma revoke_of_spare (hsome : s.candidates ≠ []) (h : f.Spare (s.candidates.take maxInputs.toNat)) :
    revokeInputsForIdlePeer f maxInputs s =
      (.ok (s.inputsOf (s.candidates.take maxInputs.toNat)),
        (s.detach (s.candidates.take maxInputs.toNat)).kill f
          (s.candidates.take maxInputs.toNat)) := by
  obtain ⟨hlog, hdebug, hkill⟩ := h
  have hany : (s.candidates.take maxInputs.toNat).any f.kill = false := by
    rw [List.any_eq_false]
    exact fun i hi => by rw [hkill i hi]; decide
  simp only [revokeInputsForIdlePeer, Effect.read_bind, if_neg hsome, Effect.modify_bind, hlog,
    hdebug, hany, Effect.raiseIf_false_bind, Effect.pure_run]

/-- A failure comes when the inputs have been taken off already. -/
lemma revoke_of_not_spare (hsome : s.candidates ≠ [])
    (h : ¬f.Spare (s.candidates.take maxInputs.toNat)) :
    ∃ e t, revokeInputsForIdlePeer f maxInputs s = (.error e, t) ∧
      t.pendingTransfers = s.pendingTransfers ∧ t.inputsQueue = s.inputsQueue ∧
      ∀ i ∈ s.candidates.take maxInputs.toNat, t.inputAt i = none := by
  simp only [revokeInputsForIdlePeer, Effect.read_bind, if_neg hsome, Effect.modify_bind]
  cases hlog : f.log with
  | true =>
    exact ⟨.log, _, Effect.raiseIf_true_bind, rfl, rfl, fun i => RevokingNode.inputAt_detach⟩
  | false =>
    rw [Effect.raiseIf_false_bind]
    cases hdebug : f.debugLog with
    | true =>
      exact ⟨.debugLog, _, Effect.raiseIf_true_bind, rfl, rfl, fun i => RevokingNode.inputAt_detach⟩
    | false =>
      have hany : (s.candidates.take maxInputs.toNat).any f.kill = true := by
        by_contra hnone
        refine h ⟨hlog, hdebug, fun i hi => ?_⟩
        rw [Bool.not_eq_true, List.any_eq_false] at hnone
        simpa using hnone i hi
      rw [Effect.raiseIf_false_bind, Effect.modify_bind, hany]
      refine ⟨.kill, _, Effect.raiseIf_true_bind, rfl, rfl, fun i hi => ?_⟩
      rw [RevokingNode.inputAt_kill]
      exact RevokingNode.inputAt_detach hi

end Runs

/-! ### The request -/

namespace RevokingNode

variable {f : Failures} {s : RevokingNode} {r : GetRequest}

/-- The workers whose inputs a request revokes: none unless the request is served for the first
time, the queue is empty and the requester idle. -/
def victims (s : RevokingNode) (r : GetRequest) : List ℕ :=
  if (s.onJob = true ∧ s.stopped = false) ∧ s.pendingTransfers.lookup r.transferId = none ∧
      s.inputsQueue.qsize = 0 ∧ r.requesterQueueSize = 0 ∧ 0 < r.requesterIdleWorkers then
    s.candidates.take r.requesterIdleWorkers.toNat
  else []

/-- The request ends with the revoked inputs stored under the transfer id, or each of them is held
by its worker or back on the queue. -/
def Atomic (f : Failures) (s : RevokingNode) (r : GetRequest) : Prop :=
  let t := (getInputsRevoking f r s).2
  t.pendingTransfers.lookup r.transferId = some (s.inputsOf (s.victims r)) ∨
    ∀ i ∈ s.victims r, ∀ input ∈ s.inputAt i,
      t.inputAt i = some input ∨ input ∈ t.inputsQueue.items

lemma qsize_eq_zero_iff {q : SizedQueue} : q.qsize = 0 ↔ q.items = [] := by
  rw [SizedQueue.qsize, List.length_eq_zero_iff, SizedQueue.items, List.map_eq_nil_iff]

/-- Nothing has been taken and nothing is left if and only if there was nothing. -/
lemma takeItems_empty_iff (targetNum : ℕ) {q : SizedQueue} :
    (takeItems targetNum [] 0 q).1.reverse = [] ∧ (takeItems targetNum [] 0 q).2.qsize = 0 ↔
      q.qsize = 0 := by
  have happend := cutTail_append targetNum q.items
  rw [← takeItems_cutTail] at happend
  rw [qsize_eq_zero_iff, qsize_eq_zero_iff, ← happend, List.append_eq_nil_iff, and_comm]

/-- A request that revokes inputs runs the revocation on the empty queue, and stores what it
returns. -/
lemma getInputsRevoking_eq (hvictims : s.victims r ≠ []) :
    s.victims r = s.candidates.take r.requesterIdleWorkers.toNat ∧ s.candidates ≠ [] ∧
      s.pendingTransfers.lookup r.transferId = none ∧
      ∃ queue : SizedQueue, queue.items = [] ∧
        getInputsRevoking f r s =
          (revokeInputsForIdlePeer f r.requesterIdleWorkers >>= fun items =>
            Effect.modify (fun s => s.store r.transferId items) >>= fun _ => pure (some items))
              { s with inputsQueue := queue } := by
  have hcond : (s.onJob = true ∧ s.stopped = false) ∧
      s.pendingTransfers.lookup r.transferId = none ∧ s.inputsQueue.qsize = 0 ∧
        r.requesterQueueSize = 0 ∧ 0 < r.requesterIdleWorkers := by
    by_contra h
    exact hvictims (if_neg h)
  have heq : s.victims r = s.candidates.take r.requesterIdleWorkers.toNat := if_pos hcond
  obtain ⟨⟨hjob, hrunning⟩, hnew, hempty, hrequester⟩ := hcond
  have hserved : ¬(s.onJob = false ∨ s.stopped = true) := by
    rw [hjob, hrunning]
    decide
  obtain ⟨hnone, hleft⟩ := (takeItems_empty_iff
    (max ((s.inputsQueue.qsize : ℤ) - r.requesterQueueSize) 1 / 2).toNat).2 hempty
  refine ⟨heq, fun hcandidates => hvictims ?_, hnew, _, qsize_eq_zero_iff.1 hleft, ?_⟩
  · rw [heq, hcandidates, List.take_nil]
  · rw [getInputsRevoking, Effect.read_bind, if_neg hserved, hnew]
    dsimp only
    rw [Effect.modify_bind]
    refine Effect.bind_congr_run ?_
    rw [itemsForPeer, Effect.read_bind, if_pos ⟨hnone, hleft, hrequester⟩]

/-- **A revocation is atomic if and only if it takes nothing or nothing raises.** -/
theorem revocation_atomic_iff (f : Failures) (s : RevokingNode) (r : GetRequest) :
    s.Atomic f r ↔ s.victims r = [] ∨ f.Spare (s.victims r) := by
  by_cases hnil : s.victims r = []
  · refine iff_of_true (.inr ?_) (.inl hnil)
    rw [hnil]
    exact fun i hi => absurd hi List.not_mem_nil
  rw [or_iff_right hnil]
  obtain ⟨hvictims, hsome, hnew, queue, hqueue, hrun⟩ := getInputsRevoking_eq (f := f) hnil
  rw [Atomic, hrun]
  by_cases hspare : f.Spare (s.victims r)
  · refine iff_of_true (.inl ?_) hspare
    rw [hvictims] at hspare ⊢
    rw [Effect.bind_of_ok (revoke_of_spare (s := { s with inputsQueue := queue }) hsome hspare)]
    exact AList.lookup_insert _
  · refine iff_of_false ?_ hspare
    rw [hvictims] at hspare hnil ⊢
    obtain ⟨e, t, hraised, hpending, hsame, hdetached⟩ :=
      revoke_of_not_spare (s := { s with inputsQueue := queue }) hsome hspare
    rw [Effect.bind_of_error hraised]
    rintro (hstored | hkept)
    · rw [hpending, hnew] at hstored
      cases hstored
    · -- any victim has had an input, and is left without it
      obtain ⟨i, hi⟩ := List.exists_mem_of_ne_nil _ hnil
      obtain ⟨input, hinput⟩ :=
        Option.isSome_iff_exists.1 (inputAt_of_mem_candidates (List.mem_of_mem_take hi))
      rcases hkept i hi input hinput with hheld | hqueued
      · rw [hdetached i hi] at hheld
        cases hheld
      · rw [hsame] at hqueued
        rw [hqueue] at hqueued
        cases hqueued

/-- The donor that the node is to its peers. -/
def donor (s : RevokingNode) : SizedDonor where
  onJob := s.onJob
  stopped := s.stopped
  inputsQueue := s.inputsQueue
  inFlight := s.workers.filterMap Worker.currentInput
  pendingTransfers := s.pendingTransfers

/-- While nothing raises, the request is answered as by a donor that is told what is revoked. -/
lemma donor_getInputsRevoking (h : f.Spare (s.victims r)) :
    (getInputsRevoking f r s).1 = .ok (s.donor.getInputs r (s.inputsOf (s.victims r))).1 ∧
      (getInputsRevoking f r s).2.inputsQueue =
        (s.donor.getInputs r (s.inputsOf (s.victims r))).2.inputsQueue ∧
      (getInputsRevoking f r s).2.pendingTransfers =
        (s.donor.getInputs r (s.inputsOf (s.victims r))).2.pendingTransfers := by
  rw [getInputsRevoking, SizedDonor.getInputs, Effect.read_bind]
  by_cases hserved : s.onJob = false ∨ s.stopped = true
  · rw [if_pos hserved, if_pos (show s.donor.onJob = false ∨ s.donor.stopped = true from hserved)]
    exact ⟨rfl, rfl, rfl⟩
  rw [if_neg hserved,
    if_neg (show ¬(s.donor.onJob = false ∨ s.donor.stopped = true) from hserved)]
  have hpending : s.donor.pendingTransfers = s.pendingTransfers := rfl
  cases hlookup : s.pendingTransfers.lookup r.transferId with
  | some items =>
    rw [hpending, hlookup]
    exact ⟨rfl, rfl, rfl⟩
  | none =>
    have hqueue : s.donor.inputsQueue = s.inputsQueue := rfl
    rw [hpending, hlookup, hqueue]
    dsimp only
    rw [Effect.modify_bind]
    have hempty := takeItems_empty_iff
      (max ((s.inputsQueue.qsize : ℤ) - r.requesterQueueSize) 1 / 2).toNat (q := s.inputsQueue)
    generalize takeItems (max ((s.inputsQueue.qsize : ℤ) - r.requesterQueueSize) 1 / 2).toNat [] 0
      s.inputsQueue = p at hempty ⊢
    by_cases hmay : r.MayRevoke p.1.reverse p.2
    · obtain ⟨hnone, hleft, hrequester⟩ := id hmay
      have hvictims : s.victims r = s.candidates.take r.requesterIdleWorkers.toNat := by
        refine if_pos ⟨?_, hlookup, hempty.1 ⟨hnone, hleft⟩, hrequester⟩
        rw [not_or] at hserved
        exact ⟨by simpa using hserved.1, by simpa using hserved.2⟩
      rw [if_pos (show p.1.reverse = [] ∧ p.2.qsize = 0 ∧ r.requesterQueueSize = 0 ∧
        0 < r.requesterIdleWorkers from hmay)]
      rw [hvictims] at h ⊢
      have hitems : itemsForPeer f r p.1.reverse { s with inputsQueue := p.2 } =
          revokeInputsForIdlePeer f r.requesterIdleWorkers { s with inputsQueue := p.2 } := by
        rw [itemsForPeer, Effect.read_bind, if_pos hmay]
      rw [Effect.bind_congr_run hitems]
      by_cases hsome : s.candidates = []
      · rw [Effect.bind_of_ok (revoke_of_nil (s := { s with inputsQueue := p.2 }) hsome), hsome,
          List.take_nil]
        exact ⟨rfl, rfl, rfl⟩
      · rw [Effect.bind_of_ok (revoke_of_spare (s := { s with inputsQueue := p.2 }) hsome h)]
        exact ⟨rfl, rfl, rfl⟩
    · have hitems : itemsForPeer f r p.1.reverse { s with inputsQueue := p.2 } =
          (.ok p.1.reverse, { s with inputsQueue := p.2 }) := by
        rw [itemsForPeer, Effect.read_bind, if_neg hmay]
        rfl
      rw [Effect.bind_of_ok hitems, if_neg (show ¬(p.1.reverse = [] ∧ p.2.qsize = 0 ∧
        r.requesterQueueSize = 0 ∧ 0 < r.requesterIdleWorkers) from hmay)]
      exact ⟨rfl, rfl, rfl⟩

/-- A node with two parked workers, whose queue is empty. -/
def twoParked : RevokingNode where
  onJob := true
  stopped := false
  inputsQueue := .empty
  workers :=
    [⟨false, false, true, some ⟨0, [1]⟩, 3, some 100⟩,
      ⟨false, false, true, some ⟨1, [2]⟩, 1, some 101⟩]
  cpuUtilization := mkRat 1 2
  rebootContainersAfterJob := false
  pendingTransfers := ∅

/-- One of the processes is gone when it is killed: both inputs are nowhere. -/
theorem killed_process_loses_inputs :
    ¬∀ (f : Failures) (s : RevokingNode) (r : GetRequest), s.Atomic f r := by
  intro h
  rcases h ⟨false, false, fun i => i = 0⟩ twoParked ⟨7, 0, 2⟩ with hstored | hkept
  · exact absurd hstored (by decide +kernel)
  · have hlost := hkept 1 (by decide +kernel) ⟨1, [2]⟩ (by decide +kernel)
    exact absurd hlost (by decide +kernel)

end RevokingNode

end Burla.Steal
