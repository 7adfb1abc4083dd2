/-
The inputs of a node while it gives slots away (`trade_slots` against `get_inputs` and `ack_transfer`
in job_endpoints.py, and the worker loops `_process_inputs` in worker_client.py).

A trade samples the node's idle workers when the queue is empty, and then retires them one after
another, waiting for each to be killed.  `ack_transfer` does not wait for the trade's lock, and
puts a batch that a peer has not received back on the queue; so do the uploads and steals that
bring inputs.  A worker that is still to be retired may then take one of them.

The main result is `Burla.Slots.inputs_kept`: as long as no worker takes an input while a trade is
still to come to it, each input that was accepted is in exactly one place, and no worker that holds
one is cancelled.
-/
import Burla.Lib.Places
import Burla.Lib.System
import Burla.Slots.Target
import Burla.Steal.Endpoints

namespace Burla.Slots

open Burla.Steal (Input GetRequest AckRequest cutTail cutTail_append)

/-! ### The node -/

/-- A worker with its `_process_inputs` task. -/
structure LoopWorker where
  retired : Bool
  isIdle : Bool
  currentInput : Option Input
  /-- Its task has been cancelled. -/
  cancelled : Bool
  /-- Its task has not ended. -/
  running : Bool
  deriving DecidableEq

namespace LoopWorker

def fresh : LoopWorker where
  retired := false
  isIdle := true
  currentInput := none
  cancelled := false
  running := true

variable (w : LoopWorker)

/-- What a grant looks at. -/
def seen : TradeWorker where
  retired := w.retired
  isIdle := w.isIdle
  hasCurrentInput := w.currentInput.isSome

/-- An input has come out of `inputs_queue.get()`. -/
def take (x : Input) : LoopWorker := { w with isIdle := false, currentInput := some x }

/-- The attempt's result is on the results queue. -/
def finish (stopAfterResult : Bool) : LoopWorker :=
  { w with isIdle := true, currentInput := none, running := !stopAfterResult }

/-- Revoked for a peer: the process is killed, and the task ends with nothing to deliver. -/
def revoke : LoopWorker :=
  { w with retired := true, isIdle := true, currentInput := none, running := false }

/-- Retired and cancelled by a trade. -/
def trade : LoopWorker := { w with retired := true, cancelled := w.running }

/-- `CancelledError` goes through the task. -/
def unwind : LoopWorker := { w with currentInput := none, running := false }

end LoopWorker

/-- Who has `dynamic_retire_lock`. -/
inductive RetireLock
  | free
  /-- A trade: what it grants, and the idle workers that are yet to be retired. -/
  | trade (slots : ℤ) (toRetire : List ℕ)
  /-- `revoke_inputs_for_idle_peer`, called by `get_inputs` for a transfer. -/
  | revocation (transferId : ℕ) (revoked : List Input)
  deriving DecidableEq

/-- The inputs that are in the hands of the one who has it. -/
def RetireLock.inputs : RetireLock → List Input
  | .revocation _ revoked => revoked
  | _ => []

structure InputSite where
  inputsQueue : List Input
  workers : List LoopWorker
  pendingTransfers : Parcels ℕ Input
  lock : RetireLock
  targetParallelism : ℤ
  /-- The inputs whose results have been put on the results queue. -/
  results : List Input
  /-- The inputs that a peer has received. -/
  handedOver : List Input
  /-- All inputs that were ever accepted. -/
  accepted : List Input

inductive InputEvent
  /-- Inputs come from the client or from a peer. -/
  | accept (inputs : List Input)
  | boot
  /-- A worker takes the next input. -/
  | take (k : ℕ)
  | finish (k : ℕ) (stopAfterResult : Bool)
  /-- `get_inputs`, from the queue. -/
  | getInputs (r : GetRequest)
  /-- `get_inputs`, from the workers, once it has the lock. -/
  | revoke (transferId : ℕ) (k : ℕ) (more : List ℕ)
  | revoked
  | ackTransfer (r : AckRequest)
  /-- `trade_slots` gets the lock and samples the idle workers. -/
  | trade (view : DonorView) (slotsRequested : ℤ)
  /-- The next of them is retired and its task cancelled. -/
  | retire
  /-- The cancelled task ends. -/
  | unwind (k : ℕ)
  | traded
  /-- Killing a worker has raised. -/
  | tradeFails

namespace InputSite

def new (targetParallelism : ℤ) (workers : ℕ) : InputSite where
  inputsQueue := []
  workers := List.replicate workers .fresh
  pendingTransfers := ∅
  lock := .free
  targetParallelism := targetParallelism
  results := []
  handedOver := []
  accepted := []

variable (s : InputSite)

/-- The inputs that the workers hold. -/
def held : List Input := s.workers.flatMap fun w => w.currentInput.toList

def setWorker (k : ℕ) (w : LoopWorker) : InputSite := { s with workers := s.workers.set k w }

/-- `get_inputs` has `input_transfer_lock` while it revokes. -/
def transferring : Bool :=
  match s.lock with
  | .revocation _ _ => true
  | _ => false

/-- Workers with an input are retired, and their inputs taken, one after another. -/
def revokeWorkers : List ℕ → InputSite × List Input
  | [] => (s, [])
  | k :: ks =>
    let p := revokeWorkers ks
    match p.1.workers[k]? with
    | some w =>
      match w.retired, w.currentInput with
      | false, some x => (p.1.setWorker k w.revoke, x :: p.2)
      | _, _ => p
    | none => p

def step : InputEvent → Option InputSite
  | .accept inputs =>
    some { s with inputsQueue := s.inputsQueue ++ inputs, accepted := s.accepted ++ inputs }
  | .boot => some { s with workers := s.workers ++ [.fresh] }
  | .take k =>
    match s.workers[k]?, s.inputsQueue with
    | some w, x :: rest =>
      if w.running && !w.cancelled && w.isIdle && w.currentInput.isNone then
        some { s.setWorker k (w.take x) with inputsQueue := rest }
      else none
    | _, _ => none
  | .finish k stopAfterResult =>
    match s.workers[k]? with
    | some w =>
      match w.currentInput with
      | some x =>
        if w.running && !w.cancelled && !w.retired then
          some { s.setWorker k (w.finish stopAfterResult) with results := s.results ++ [x] }
        else none
      | none => none
    | none => none
  | .getInputs r =>
    if s.transferring then none
    else if (s.pendingTransfers.lookup r.transferId).isSome then some s
    else
      let difference := (s.inputsQueue.length : ℤ) - r.requesterQueueSize
      let p := cutTail (max difference 1 / 2).toNat s.inputsQueue
      some { s with
        inputsQueue := p.2
        pendingTransfers := s.pendingTransfers.insert r.transferId p.1 }
  | .revoke transferId k more =>
    if s.lock = .free ∧ (s.pendingTransfers.lookup transferId).isSome = false then
      let p := s.revokeWorkers (k :: more)
      some { p.1 with lock := .revocation transferId p.2 }
    else none
  | .revoked =>
    match s.lock with
    | .revocation transferId revoked =>
      some { s with
        pendingTransfers := s.pendingTransfers.insert transferId revoked, lock := .free }
    | _ => none
  | .ackTransfer r =>
    if s.transferring then none
    else
      match s.pendingTransfers.lookup r.transferId with
      | none => some s
      | some items =>
        let s := { s with pendingTransfers := s.pendingTransfers.erase r.transferId }
        if r.received then some { s with handedOver := s.handedOver ++ items }
        else some { s with inputsQueue := s.inputsQueue ++ items }
  | .trade view slotsRequested =>
    if s.lock = .free ∧ view.workers = s.workers.map LoopWorker.seen ∧
        view.queuedInputs = s.inputsQueue.length then
      some { s with
        lock := .trade (view.grant s.targetParallelism slotsRequested)
          (view.idleToGive s.targetParallelism slotsRequested) }
    else none
  | .retire =>
    match s.lock with
    | .trade slots (k :: toRetire) =>
      (s.workers[k]?).map fun w => { s.setWorker k w.trade with lock := .trade slots toRetire }
    | _ => none
  | .unwind k =>
    match s.workers[k]? with
    | some w => if w.cancelled && w.running then some (s.setWorker k w.unwind) else none
    | none => none
  | .traded =>
    match s.lock with
    | .trade slots [] =>
      some { s with targetParallelism := s.targetParallelism - slots, lock := .free }
    | _ => none
  | .tradeFails =>
    match s.lock with
    | .trade _ _ => some { s with lock := .free }
    | _ => none

/-! ### The claim and the condition -/

/-- In how many places an input is. -/
def places (x : Input) : ℕ :=
  s.inputsQueue.count x + s.held.count x + (s.pendingTransfers.held []).count x +
    s.lock.inputs.count x + s.results.count x + s.handedOver.count x

/-- What was accepted is there, once, and no worker that holds an input was cancelled. -/
structure Kept : Prop where
  conserved : ∀ x, s.places x = s.accepted.count x
  spared : ∀ w ∈ s.workers, w.cancelled = true → w.currentInput = none

/-- No worker takes an input while a trade is still to come to it. -/
def Clear : InputEvent → Prop
  | .take k =>
    match s.lock with
    | .trade _ toRetire => k ∉ toRetire
    | _ => True
  | _ => True

end InputSite

instance (s : InputSite) : (e : InputEvent) → Decidable (s.Clear e)
  | .take k =>
    match h : s.lock with
    | .trade _ toRetire => decidable_of_iff (k ∉ toRetire) (by simp [InputSite.Clear, h])
    | .free => .isTrue (by simp [InputSite.Clear, h])
    | .revocation _ _ => .isTrue (by simp [InputSite.Clear, h])
  | .accept _ | .boot | .finish .. | .getInputs _ | .revoke .. | .revoked | .ackTransfer _
  | .trade .. | .retire | .unwind _ | .traded | .tradeFails => .isTrue trivial

def inputSystem : System InputSite InputEvent where
  init s := ∃ targetParallelism workers, s = InputSite.new targetParallelism workers
  step := InputSite.step

/-! ### What a step does to the workers -/

namespace InputSite

variable {s t : InputSite} {k : ℕ} {w w' : LoopWorker}

/-- A worker's place in what all of them hold. -/
lemma count_held_set {l : List LoopWorker} (hk : l[k]? = some w) (w' : LoopWorker) (x : Input) :
    ((l.set k w').flatMap fun w => w.currentInput.toList).count x +
        w.currentInput.toList.count x =
      (l.flatMap fun w => w.currentInput.toList).count x + w'.currentInput.toList.count x := by
  obtain ⟨hlt, hget⟩ := List.getElem?_eq_some_iff.1 hk
  obtain ⟨l₁, l₂, hl, -, hset⟩ : ∃ l₁ l₂, l = l₁ ++ l[k] :: l₂ ∧ l₁.length = k ∧
      l.set k w' = l₁ ++ w' :: l₂ := List.exists_of_set hlt
  rw [hset]
  conv_rhs => rw [hl, hget]
  simp only [List.flatMap_append, List.flatMap_cons, List.count_append]
  omega

/-- What `get_inputs` takes from the workers was theirs. -/
structure Revoked (s : InputSite) (p : InputSite × List Input) : Prop where
  held : ∀ x, p.1.held.count x + p.2.count x = s.held.count x
  workers : ∀ w ∈ p.1.workers, w ∈ s.workers ∨ w.currentInput = none
  rest : p.1 = { s with workers := p.1.workers }

lemma revoked_revokeWorkers (ks : List ℕ) : Revoked s (s.revokeWorkers ks) := by
  induction ks with
  | nil => exact ⟨fun x => by simp [revokeWorkers], fun w hw => .inl hw, rfl⟩
  | cons k ks ih =>
    rw [revokeWorkers]
    split
    · rename_i w hk
      split
      · rename_i x _ hx
        refine ⟨fun y => ?_, fun v hv => ?_, ?_⟩
        · have hset := count_held_set hk w.revoke y
          have hheld := ih.held y
          rw [show w.revoke.currentInput = none from rfl, hx] at hset
          simp only [Option.toList_some, Option.toList_none, List.count_cons, List.count_nil]
            at hset
          simp only [held, setWorker, List.count_cons] at hheld ⊢
          omega
        · rcases List.mem_or_eq_of_mem_set hv with hv | rfl
          · exact ih.workers v hv
          · exact .inr rfl
        · simp only [setWorker]
          rw [ih.rest]
      · exact ih
    · exact ih

/-! ### What is kept -/

/-- Nothing is lost, and nothing is about to be. -/
structure Safe (s : InputSite) : Prop extends Kept s where
  /-- The workers that a trade is still to come to hold no input. -/
  sampled : ∀ slots toRetire, s.lock = .trade slots toRetire → ∀ k ∈ toRetire, ∀ w,
    s.workers[k]? = some w → w.currentInput = none
  /-- A batch that is being revoked is not there yet. -/
  fresh : ∀ transferId revoked, s.lock = .revocation transferId revoked →
    transferId ∉ s.pendingTransfers

/-- The idle workers that a trade samples hold no input. -/
lemma currentInput_of_mem_idleToGive {view : DonorView} {targetParallelism slotsRequested : ℤ}
    (hview : view.workers = s.workers.map LoopWorker.seen)
    (hk : k ∈ view.idleToGive targetParallelism slotsRequested) (hw : s.workers[k]? = some w) :
    w.currentInput = none := by
  unfold DonorView.idleToGive at hk
  split_ifs at hk with hdrained
  · have hmem := List.mem_of_mem_take hk
    simp only [DonorView.idleIndices, List.mem_map, List.mem_filter] at hmem
    obtain ⟨⟨v, j⟩, ⟨hmem, hidle⟩, rfl⟩ := hmem
    rw [List.mem_zipIdx_iff_getElem?, hview, List.getElem?_map, hw] at hmem
    obtain rfl : w.seen = v := by simpa using hmem
    simp only [Bool.and_eq_true] at hidle
    simpa [LoopWorker.seen] using hidle.2.2
  · cases hk

lemma safe_new {targetParallelism : ℤ} {workers : ℕ} : Safe (new targetParallelism workers) where
  conserved x := by
    have hheld : ∀ n, (List.replicate n LoopWorker.fresh).flatMap
        (fun w => w.currentInput.toList) = [] := by
      intro n
      rw [List.flatMap_eq_nil_iff]
      intro w hw
      rw [List.eq_of_mem_replicate hw]
      rfl
    simp [places, held, new, hheld, RetireLock.inputs]
  spared w hw := by
    rw [List.eq_of_mem_replicate hw]
    exact fun h => by cases h
  sampled := nofun
  fresh := nofun

namespace Safe

/-- A worker changes and nothing is lost: what it held is elsewhere. -/
lemma setWorker (hs : Safe s) (w' : LoopWorker) (hk : s.workers[k]? = some w)
    (hplaces : ∀ x, ({ t with workers := s.workers } : InputSite).places x +
      w'.currentInput.toList.count x = t.accepted.count x + w.currentInput.toList.count x)
    (hworkers : t.workers = s.workers.set k w')
    (hspared : w'.cancelled = true → w'.currentInput = none)
    (hsampled : ∀ slots toRetire, t.lock = .trade slots toRetire → ∀ j ∈ toRetire, ∀ v,
      t.workers[j]? = some v → v.currentInput = none)
    (hfresh : ∀ transferId revoked, t.lock = .revocation transferId revoked →
      transferId ∉ t.pendingTransfers) : Safe t where
  conserved x := by
    have hset := count_held_set hk w' x
    have hx := hplaces x
    rw [← hworkers] at hset
    simp only [places, held] at hx ⊢
    omega
  spared v hv := by
    rw [hworkers] at hv
    rcases List.mem_or_eq_of_mem_set hv with hv | rfl
    · exact hs.spared v hv
    · exact hspared
  sampled := hsampled
  fresh := hfresh

/-- A worker that is not among those a trade is still to come to may do what it likes. -/
lemma sampled_set (hs : Safe s) (w' : LoopWorker) {slots : ℤ} {toRetire : List ℕ}
    (hlock : s.lock = .trade slots toRetire) (hclear : k ∉ toRetire ∨ w'.currentInput = none) :
    ∀ j ∈ toRetire, ∀ v, (s.workers.set k w')[j]? = some v → v.currentInput = none := by
  intro j hj v hv
  rcases Places.getElem?_set_cases hv with ⟨rfl, rfl⟩ | ⟨-, hv⟩
  · exact hclear.resolve_left fun h => h hj
  · exact hs.sampled slots toRetire hlock j hj v hv

lemma take (hs : Safe s) (hclear : s.Clear (.take k)) (h : s.step (.take k) = some t) :
    Safe t := by
  simp only [step] at h
  split at h
  · rename_i w x rest hk hq
    split_ifs at h with hfree
    obtain rfl := Option.some.inj h
    simp only [Bool.and_eq_true, Bool.not_eq_eq_eq_not, Bool.not_true, Option.isNone_iff_eq_none]
      at hfree
    refine hs.setWorker (w.take x) hk (fun y => ?_) rfl (fun hc => ?_)
      (fun slots toRetire hlock => ?_)
      hs.fresh
    · have hy := hs.conserved y
      simp only [places, held, hq, List.count_cons] at hy
      simp only [places, held, LoopWorker.take, InputSite.setWorker, hfree.2, Option.toList_some,
        Option.toList_none, List.count_cons, List.count_nil]
      omega
    · have hcancelled : w.cancelled = true := hc
      rw [hfree.1.1.2] at hcancelled
      cases hcancelled
    · refine hs.sampled_set _ hlock (.inl ?_)
      have hclear' := hclear
      simp only [Clear] at hclear'
      rw [show s.lock = .trade slots toRetire from hlock] at hclear'
      exact hclear'
  · cases h

lemma finish (hs : Safe s) {stop : Bool} (h : s.step (.finish k stop) = some t) : Safe t := by
  simp only [step] at h
  split at h
  · rename_i w hk
    split at h
    · rename_i x hx
      split_ifs at h with hfree
      obtain rfl := Option.some.inj h
      refine hs.setWorker (w.finish stop) hk (fun y => ?_) rfl (fun _ => rfl)
        (fun slots toRetire hlock => hs.sampled_set _ hlock (.inr rfl)) hs.fresh
      have hy := hs.conserved y
      simp only [places, held] at hy
      simp only [places, held, LoopWorker.finish, InputSite.setWorker, hx, Option.toList_some,
        Option.toList_none, List.count_cons, List.count_nil, List.count_append]
      omega
    · cases h
  · cases h

lemma getInputs (hs : Safe s) {r : GetRequest} (h : s.step (.getInputs r) = some t) : Safe t := by
  simp only [step] at h
  split_ifs at h with hbusy hlookup
  · obtain rfl := Option.some.inj h
    exact hs
  · obtain rfl := Option.some.inj h
    have hnew : r.transferId ∉ s.pendingTransfers := by
      rw [← AList.lookup_eq_none]
      simpa using hlookup
    refine { conserved := fun y => ?_, spared := hs.spared, sampled := hs.sampled
             fresh := fun transferId revoked hlock => ?_ }
    · have happend := cutTail_append
        (max ((s.inputsQueue.length : ℤ) - r.requesterQueueSize) 1 / 2).toNat s.inputsQueue
      generalize cutTail (max ((s.inputsQueue.length : ℤ) - r.requesterQueueSize) 1 / 2).toNat
        s.inputsQueue = p at happend
      have hy := hs.conserved y
      simp only [places, held, ← happend, List.count_append] at hy
      simp only [places, held, Parcels.count_held_insert p.1 hnew List.not_mem_nil]
      omega
    · exact absurd (show s.transferring = true by rw [transferring, hlock]) (by simpa using hbusy)

lemma revoke (hs : Safe s) {transferId : ℕ} {more : List ℕ}
    (h : s.step (.revoke transferId k more) = some t) : Safe t := by
  simp only [step, Option.ite_none_right_eq_some, Option.some.injEq] at h
  obtain ⟨⟨hfree, hlookup⟩, rfl⟩ := h
  have hp := revoked_revokeWorkers (s := s) (k :: more)
  generalize s.revokeWorkers (k :: more) = p at hp
  obtain ⟨hheld, hworkers, hrest⟩ := hp
  rw [hrest]
  refine { conserved := fun y => ?_, spared := fun w hw hc => ?_, sampled := nofun
           fresh := fun transferId' revoked hlock => ?_ }
  · have hy := hs.conserved y
    have := hheld y
    simp only [places, hfree, RetireLock.inputs, List.count_nil] at hy
    simp only [held] at hy this
    simp only [places, held, RetireLock.inputs]
    omega
  · rcases hworkers w hw with hw | hnone
    · exact hs.spared w hw hc
    · exact hnone
  · obtain ⟨rfl, -⟩ : transferId = transferId' ∧ p.2 = revoked := by simpa using hlock
    rw [← AList.lookup_eq_none]
    simpa using hlookup

lemma revoked (hs : Safe s) (h : s.step .revoked = some t) : Safe t := by
  simp only [step] at h
  split at h
  · rename_i transferId revoked hlock
    obtain rfl := Option.some.inj h
    have hnew := hs.fresh transferId revoked hlock
    refine { conserved := fun y => ?_, spared := hs.spared, sampled := nofun, fresh := nofun }
    have hy := hs.conserved y
    simp only [places, held, hlock, RetireLock.inputs] at hy
    simp only [places, held, RetireLock.inputs, List.count_nil,
      Parcels.count_held_insert revoked hnew List.not_mem_nil]
    omega
  · cases h

lemma ackTransfer (hs : Safe s) {r : AckRequest} (h : s.step (.ackTransfer r) = some t) :
    Safe t := by
  simp only [step] at h
  by_cases hbusy : s.transferring = true
  · rw [if_pos hbusy] at h
    cases h
  rw [if_neg hbusy] at h
  split at h
  · obtain rfl := Option.some.inj h
    exact hs
  · rename_i items hlookup
    have hfresh : ∀ transferId revoked, s.lock = .revocation transferId revoked →
        transferId ∉ s.pendingTransfers.erase r.transferId := fun transferId revoked hlock =>
      absurd (show s.transferring = true by rw [transferring, hlock]) (by simpa using hbusy)
    split_ifs at h <;> obtain rfl := Option.some.inj h
    all_goals
      refine { conserved := fun y => ?_, spared := hs.spared, sampled := hs.sampled
               fresh := hfresh }
      have hy := hs.conserved y
      simp only [places, held, Parcels.count_held_erase [] hlookup, List.not_mem_nil, if_false]
        at hy
      simp only [places, held, List.count_append]
      omega

lemma trade (hs : Safe s) {view : DonorView} {slotsRequested : ℤ}
    (h : s.step (.trade view slotsRequested) = some t) : Safe t := by
  simp only [step, Option.ite_none_right_eq_some, Option.some.injEq] at h
  obtain ⟨⟨hfree, hview, -⟩, rfl⟩ := h
  refine { conserved := fun y => ?_, spared := hs.spared
           sampled := fun slots toRetire hlock j hj w hw => ?_, fresh := nofun }
  · have hy := hs.conserved y
    simpa only [places, held, hfree, RetireLock.inputs] using hy
  · obtain ⟨-, rfl⟩ : _ ∧ _ = toRetire := by simpa using hlock
    exact currentInput_of_mem_idleToGive hview hj hw

/-- **The trade retires a worker, which holds no input.** -/
lemma retire (hs : Safe s) (h : s.step .retire = some t) : Safe t := by
  simp only [step] at h
  split at h
  · rename_i slots k toRetire hlock
    obtain ⟨w, hk, rfl⟩ := Option.map_eq_some_iff.1 h
    have hnone := hs.sampled slots (k :: toRetire) hlock k List.mem_cons_self w hk
    refine hs.setWorker w.trade hk (fun y => ?_) rfl (fun _ => hnone)
      (fun slots' toRetire' hlock' j hj v hv => ?_) nofun
    · have hy := hs.conserved y
      simp only [places, held, hlock, RetireLock.inputs] at hy
      simp only [places, held, LoopWorker.trade, InputSite.setWorker, RetireLock.inputs]
      omega
    · obtain ⟨-, rfl⟩ : slots = slots' ∧ toRetire = toRetire' := by simpa using hlock'
      exact hs.sampled_set w.trade hlock (.inr hnone) j (List.mem_cons_of_mem k hj) v hv
  · cases h

lemma unwind (hs : Safe s) (h : s.step (.unwind k) = some t) : Safe t := by
  simp only [step] at h
  split at h
  · rename_i w hk
    split_ifs at h with hc
    obtain rfl := Option.some.inj h
    simp only [Bool.and_eq_true] at hc
    have hnone := hs.spared w (List.mem_of_getElem? hk) hc.1
    refine hs.setWorker w.unwind hk (fun y => ?_) rfl (fun _ => rfl)
      (fun slots toRetire hlock => hs.sampled_set _ hlock (.inr rfl)) hs.fresh
    have hy := hs.conserved y
    simp only [places, held] at hy
    simp only [places, held, LoopWorker.unwind, InputSite.setWorker, hnone]
    omega
  · cases h

end Safe

/-- **Each clear step keeps the inputs safe.** -/
lemma Safe.step (hs : Safe s) {e : InputEvent} (hclear : s.Clear e)
    (h : s.step e = some t) : Safe t := by
  cases e with
  | accept inputs =>
    obtain rfl := Option.some.inj h
    refine { conserved := fun y => ?_, spared := hs.spared, sampled := hs.sampled
             fresh := hs.fresh }
    have hy := hs.conserved y
    simp only [places, held] at hy
    simp only [places, held, List.count_append]
    omega
  | boot =>
    obtain rfl := Option.some.inj h
    refine { conserved := fun y => ?_, spared := fun w hw => ?_
             sampled := fun slots toRetire hlock j hj w hw => ?_, fresh := hs.fresh }
    · have hy := hs.conserved y
      simpa [places, held, LoopWorker.fresh] using hy
    · rcases List.mem_append.1 hw with hw | hw
      · exact hs.spared w hw
      · obtain rfl := List.mem_singleton.1 hw
        exact fun hc => by cases hc
    · rw [List.getElem?_append] at hw
      split_ifs at hw with hlt
      · exact hs.sampled slots toRetire hlock j hj w hw
      · obtain rfl := List.mem_singleton.1 (List.mem_of_getElem? hw)
        rfl
  | take k => exact hs.take hclear h
  | finish k stop => exact hs.finish h
  | getInputs r => exact hs.getInputs h
  | revoke transferId k more => exact hs.revoke h
  | revoked => exact hs.revoked h
  | ackTransfer r => exact hs.ackTransfer h
  | trade view slotsRequested => exact hs.trade h
  | retire => exact hs.retire h
  | unwind k => exact hs.unwind h
  | traded =>
    simp only [InputSite.step] at h
    split at h
    · rename_i slots hlock
      obtain rfl := Option.some.inj h
      refine { conserved := fun y => ?_, spared := hs.spared, sampled := nofun, fresh := nofun }
      have hy := hs.conserved y
      simpa only [places, held, hlock, RetireLock.inputs] using hy
    · cases h
  | tradeFails =>
    simp only [InputSite.step] at h
    split at h
    · rename_i slots toRetire hlock
      obtain rfl := Option.some.inj h
      refine { conserved := fun y => ?_, spared := hs.spared, sampled := nofun, fresh := nofun }
      have hy := hs.conserved y
      simpa only [places, held, hlock, RetireLock.inputs] using hy
    · cases h

/-- A trade that comes to a worker which has taken an input loses it. -/
lemma places_of_retire_unwind {slots : ℤ} {toRetire : List ℕ} {x : Input}
    (hlock : s.lock = .trade slots (k :: toRetire)) (hk : s.workers[k]? = some w)
    (hx : w.currentInput = some x) (hrunning : w.running = true) :
    ∃ t u, s.step .retire = some t ∧ t.step (.unwind k) = some u ∧
      u.places x + 1 = s.places x := by
  obtain ⟨hlt, -⟩ := List.getElem?_eq_some_iff.1 hk
  have hk' : (s.workers.set k w.trade)[k]? = some w.trade := List.getElem?_set_self hlt
  refine ⟨{ s.setWorker k w.trade with lock := .trade slots toRetire },
    { s.setWorker k w.trade with
      lock := .trade slots toRetire, workers := (s.workers.set k w.trade).set k w.trade.unwind },
    by simp [step, hlock, hk], ?_, ?_⟩
  · have hgo : (w.trade.cancelled && w.trade.running) = true := by
      simp [LoopWorker.trade, hrunning]
    simp only [step, setWorker, hk', hgo, if_true]
  · have h₁ := count_held_set hk w.trade x
    have h₂ := count_held_set hk' w.trade.unwind x
    rw [show w.trade.currentInput = some x from hx] at h₁ h₂
    rw [hx] at h₁
    rw [show w.trade.unwind.currentInput = none from rfl] at h₂
    simp only [Option.toList_some, Option.toList_none, List.count_cons_self, List.count_nil]
      at h₁ h₂
    simp only [places, held, setWorker, hlock, RetireLock.inputs]
    omega

end InputSite

/-- **No input is lost while no worker takes one that a trade is still to come to.** -/
theorem inputs_kept {s : InputSite} (h : inputSystem.Reachable InputSite.Clear s) : s.Kept := by
  have hs : InputSite.Safe s := by
    refine System.Invariant.reachable (P := InputSite.Safe) ⟨?_, ?_⟩ h
    · rintro _ ⟨_, _, rfl⟩
      exact InputSite.safe_new
    · exact fun _ _ _ hs hclear hstep => hs.step hclear hstep
  exact hs.toKept

def first : Input := { inputIndex := 0, inputPkl := [1] }

def second : Input := { inputIndex := 1, inputPkl := [2] }

/-- Two workers that are idle, and all inputs uploaded long ago. -/
def bothIdle : DonorView where
  now := 100
  lastPressureRetirementAt := 0
  replacementRequestId := none
  workers := List.replicate 2 { retired := false, isIdle := true, hasCurrentInput := false }
  queuedInputs := 0
  allInputsUploaded := true
  jobAssignedAt := 0

/-- The second input is on its way to a peer when a trade begins to retire both workers. -/
def tradeBegins : List InputEvent :=
  [.accept [first, second],
    .getInputs { transferId := 1, requesterQueueSize := 0, requesterIdleWorkers := 0 },
    .take 0, .finish 0 false, .trade bothIdle 2, .retire]

/-- The peer has not received the input, which comes back when the trade is over. -/
def bouncesLater : List InputEvent :=
  tradeBegins ++ [.retire, .traded, .ackTransfer { transferId := 1, received := false }]

theorem inputs_kept_bouncesLater :
    (((inputSystem.guarded InputSite.Clear).exec (InputSite.new 2 2) bouncesLater).get
      (by decide +kernel)).Kept :=
  inputs_kept ⟨_, bouncesLater, ⟨2, 2, rfl⟩,
    System.run_of_exec_guarded (Option.some_get _).symm⟩

/-- The input comes back, and the other worker takes it, while the first one is being killed. -/
def bounces : List InputEvent :=
  tradeBegins ++ [.ackTransfer { transferId := 1, received := false }, .take 1, .retire, .unwind 1]

/-- The worker that holds it is cancelled, and the input is nowhere. -/
theorem traded_worker_loses_input : ∃ s : InputSite, inputSystem.Reachable System.always s ∧
    second ∈ s.accepted ∧ s.places second = 0 ∧ ¬s.Kept := by
  have hplaces : (((inputSystem.exec (InputSite.new 2 2) bounces).get
      (by decide +kernel)).places second) = 0 := by decide +kernel
  refine ⟨(inputSystem.exec (InputSite.new 2 2) bounces).get (by decide +kernel),
    System.Reachable.exec ⟨_, [], ⟨2, 2, rfl⟩, .nil⟩ (Option.some_get _).symm,
    by decide +kernel, hplaces, fun h => ?_⟩
  have hcount := h.conserved second
  rw [hplaces] at hcount
  exact absurd hcount (by decide +kernel)

end Burla.Slots
