/-
`get_inputs` in job_endpoints.py over the queue that counts its bytes (`SizedQueue` in helpers.py).

Inputs are popped from the end of the queue one by one; one that would make the batch too big is
put back.  `SizedDonor.abstract_getInputs` says that this is `Donor.getInputs`, which cuts the
batch off the end of a list.

The main result is `Burla.Steal.getInputs_splits`: a batch is the end of the queue, in its order,
within the bounds on items and bytes, leaves the donor at least as much more as it takes, and is
given again without a look at the queue.
-/
import Burla.Steal.Endpoints

namespace Burla.Steal

/-! ### The queue -/

def totalSize : List (Input × ℕ) → ℕ
  | [] => 0
  | e :: entries => e.2 + totalSize entries

lemma totalSize_append (l l' : List (Input × ℕ)) :
    totalSize (l ++ l') = totalSize l + totalSize l' := by
  induction l with
  | nil => exact (Nat.zero_add _).symm
  | cons e l ih =>
    simp only [List.cons_append, totalSize]
    omega

/-- `SizedQueue`: each item with the size that it was put with. -/
structure SizedQueue where
  entries : List (Input × ℕ)
  sizeBytes : ℕ
  counted : sizeBytes = totalSize entries

namespace SizedQueue

/-- `SizedQueue()`. -/
def empty : SizedQueue := ⟨[], 0, rfl⟩

variable (q : SizedQueue)

/-- The items, next one first. -/
def items : List Input := q.entries.map Prod.fst

def qsize : ℕ := q.entries.length

/-- `put_nowait` -/
def putNowait (item : Input) (sizeBytes : ℕ) : SizedQueue where
  entries := q.entries ++ [(item, sizeBytes)]
  sizeBytes := q.sizeBytes + sizeBytes
  counted := by rw [totalSize_append, q.counted]; rfl

/-- `get_last_nowait`; an empty queue raises. -/
def getLastNowait : Option (Input × SizedQueue) :=
  match h : q.entries.getLast? with
  | none => none
  | some e =>
    some (e.1,
      { entries := q.entries.dropLast
        sizeBytes := q.sizeBytes - e.2
        counted := by
          have hentries : q.entries.dropLast ++ [e] = q.entries :=
            List.dropLast_append_getLast? e h
          have hsize := congrArg totalSize hentries
          rw [totalSize_append, ← q.counted] at hsize
          simp only [totalSize] at hsize
          omega })

variable {q}

lemma items_putNowait {item : Input} {sizeBytes : ℕ} :
    (q.putNowait item sizeBytes).items = q.items ++ [item] := by
  simp [items, putNowait]

lemma items_of_getLastNowait {item : Input} {q' : SizedQueue}
    (h : q.getLastNowait = some (item, q')) : q.items = q'.items ++ [item] := by
  unfold getLastNowait at h
  split at h
  · cases h
  · rename_i e hlast
    obtain ⟨rfl, rfl⟩ := Prod.mk.inj (Option.some.inj h)
    have hentries := List.dropLast_append_getLast? e hlast
    simp only [items]
    rw [← List.map_singleton, ← List.map_append, hentries]

lemma items_of_getLastNowait_none (h : q.getLastNowait = none) : q.items = [] := by
  unfold getLastNowait at h
  split at h
  · rename_i hlast
    rw [items, List.getLast?_eq_none_iff.1 hlast, List.map_nil]
  · cases h

end SizedQueue

/-! ### The endpoint -/

/-- The loop of `get_inputs`, with the number of items that it may still take. -/
def takeItems : ℕ → List Input → ℕ → SizedQueue → List Input × SizedQueue
  | 0, items, _, q => (items, q)
  | left + 1, items, totalBytes, q =>
    match q.getLastNowait with
    | none => (items, q)
    | some (input, q') =>
      if maxTransferBytes < totalBytes + input.inputPkl.length ∧ items ≠ [] then
        (items, q'.putNowait input input.inputPkl.length)
      else takeItems left (items ++ [input]) (totalBytes + input.inputPkl.length) q'

/-- What `get_inputs` reads and writes of `SELF`. -/
structure SizedDonor where
  /-- The job of the requests is the node's current job. -/
  onJob : Bool
  /-- `job_watcher_stop_event` is set. -/
  stopped : Bool
  inputsQueue : SizedQueue
  inFlight : List Input
  pendingTransfers : Parcels ℕ Input

namespace SizedDonor

variable (d : SizedDonor)

/-- `get_inputs`; `revoked` is what `revoke_inputs_for_idle_peer` would return. -/
def getInputs (r : GetRequest) (revoked : List Input) : Option (List Input) × SizedDonor :=
  if d.onJob = false ∨ d.stopped = true then (none, d)
  else
    match d.pendingTransfers.lookup r.transferId with
    | some items => (some items, d)
    | none =>
      let difference := (d.inputsQueue.qsize : ℤ) - r.requesterQueueSize
      let targetNum := (max difference 1 / 2).toNat
      let p := takeItems targetNum [] 0 d.inputsQueue
      let items := p.1.reverse
      let queueIsEmpty := p.2.qsize = 0
      let requesterIsIdle := r.requesterQueueSize = 0 ∧ 0 < r.requesterIdleWorkers
      if items = [] ∧ queueIsEmpty ∧ requesterIsIdle then
        (some revoked,
          { d with
            inputsQueue      := p.2
            inFlight         := d.inFlight.diff revoked
            pendingTransfers := d.pendingTransfers.insert r.transferId revoked })
      else
        (some items,
          { d with
            inputsQueue      := p.2
            pendingTransfers := d.pendingTransfers.insert r.transferId items })

/-- The donor with its queue as a list. -/
def abstract : Donor where
  onJob := d.onJob
  stopped := d.stopped
  inputs := ⟨d.inputsQueue.items, d.inFlight⟩
  pendingTransfers := d.pendingTransfers

end SizedDonor

/-! ### The loop cuts the batch off the end -/

lemma takeItems_eq (left : ℕ) (items : List Input) (totalBytes : ℕ) (q : SizedQueue) :
    (takeItems left items totalBytes q).1 =
        (takeLast (items.length + left) items totalBytes q.items.reverse).1 ∧
      (takeItems left items totalBytes q).2.items =
        (takeLast (items.length + left) items totalBytes q.items.reverse).2.reverse := by
  induction left generalizing items totalBytes q with
  | zero =>
    cases hitems : q.items.reverse with
    | nil => simpa [takeItems, takeLast] using hitems
    | cons input rest =>
      simp only [takeItems, takeLast, Nat.add_zero, lt_irrefl, if_false, ← hitems,
        List.reverse_reverse, and_self]
  | succ left ih =>
    cases hlast : q.getLastNowait with
    | none =>
      have hnil := SizedQueue.items_of_getLastNowait_none hlast
      simp [takeItems, hlast, hnil, takeLast]
    | some e =>
      obtain ⟨input, q'⟩ := e
      have hitems := SizedQueue.items_of_getLastNowait hlast
      have hlt : items.length < items.length + (left + 1) := by omega
      rw [hitems, List.reverse_append, List.reverse_singleton, List.singleton_append, takeItems,
        hlast, takeLast]
      simp only [if_pos hlt, gt_iff_lt]
      split_ifs with hbig
      · exact ⟨rfl, by rw [SizedQueue.items_putNowait, List.reverse_cons, List.reverse_reverse]⟩
      · have h := ih (items ++ [input]) (totalBytes + input.inputPkl.length) q'
        rwa [List.length_append, List.length_singleton, Nat.add_assoc, Nat.add_comm 1] at h

lemma takeItems_cutTail (targetNum : ℕ) (q : SizedQueue) :
    ((takeItems targetNum [] 0 q).1.reverse, (takeItems targetNum [] 0 q).2.items) =
      cutTail targetNum q.items := by
  obtain ⟨hitems, hqueue⟩ := takeItems_eq targetNum [] 0 q
  rw [List.length_nil, Nat.zero_add] at hitems hqueue
  rw [hitems, hqueue, cutTail]

/-- **The endpoint over the queue that counts its bytes is the one over a list.** -/
lemma SizedDonor.abstract_getInputs (d : SizedDonor) (r : GetRequest) (revoked : List Input) :
    ((d.getInputs r revoked).1, (d.getInputs r revoked).2.abstract) =
      d.abstract.getInputs r revoked := by
  have hserving : d.abstract.serving = false ↔ d.onJob = false ∨ d.stopped = true := by
    cases honJob : d.onJob <;> cases hstopped : d.stopped <;>
      simp [Donor.serving, abstract, honJob, hstopped]
  have hlength : d.inputsQueue.qsize = d.inputsQueue.items.length := by
    rw [SizedQueue.items, List.length_map, SizedQueue.qsize]
  unfold getInputs Donor.getInputs
  by_cases hrefused : d.onJob = false ∨ d.stopped = true
  · rw [if_pos hrefused, if_pos (hserving.2 hrefused)]
  rw [if_neg hrefused, if_neg (mt hserving.1 hrefused)]
  have hpending : d.abstract.pendingTransfers = d.pendingTransfers := rfl
  cases hlookup : d.pendingTransfers.lookup r.transferId with
  | some items => simp only [hpending, hlookup]
  | none =>
    simp only [hpending, hlookup]
    have hqueue : d.abstract.inputs.inputsQueue = d.inputsQueue.items := rfl
    rw [hqueue, ← takeItems_cutTail, ← hlength]
    generalize takeItems (max ((d.inputsQueue.qsize : ℤ) - r.requesterQueueSize) 1 / 2).toNat [] 0
      d.inputsQueue = p
    have hempty : p.2.qsize = 0 ↔ p.2.items = [] := by
      rw [SizedQueue.qsize, List.length_eq_zero_iff, SizedQueue.items, List.map_eq_nil_iff]
    simp only [hempty]
    split_ifs <;> rfl

/-! ### The batch -/

def payloadBytes : List Input → ℕ
  | [] => 0
  | input :: items => input.inputPkl.length + payloadBytes items

lemma payloadBytes_append (l l' : List Input) :
    payloadBytes (l ++ l') = payloadBytes l + payloadBytes l' := by
  induction l with
  | nil => exact (Nat.zero_add _).symm
  | cons input l ih =>
    simp only [List.cons_append, payloadBytes]
    omega

lemma payloadBytes_reverse (l : List Input) : payloadBytes l.reverse = payloadBytes l := by
  induction l with
  | nil => rfl
  | cons input l ih =>
    rw [List.reverse_cons, payloadBytes_append, ih]
    simp only [payloadBytes]
    omega

lemma length_takeLast_le (targetNum : ℕ) (items queue : List Input) (totalBytes : ℕ)
    (h : items.length ≤ targetNum) :
    (takeLast targetNum items totalBytes queue).1.length ≤ targetNum := by
  induction queue generalizing items totalBytes with
  | nil => exact h
  | cons input queue ih =>
    rw [takeLast]
    split_ifs with hlt
    · exact h
    · refine ih _ _ ?_
      rw [List.length_append, List.length_singleton]
      omega
    · exact h

/-- An input that would make the batch too big is taken only when it is the first one. -/
lemma bytes_takeLast (targetNum : ℕ) (items queue : List Input) (totalBytes : ℕ)
    (htotal : payloadBytes items = totalBytes)
    (h : totalBytes ≤ maxTransferBytes ∨ items.length = 1) :
    payloadBytes (takeLast targetNum items totalBytes queue).1 ≤ maxTransferBytes ∨
      (takeLast targetNum items totalBytes queue).1.length = 1 := by
  induction queue generalizing items totalBytes with
  | nil => exact htotal ▸ h
  | cons input queue ih =>
    rw [takeLast]
    split_ifs with hlt hbig
    · exact htotal ▸ h
    · refine ih _ _ ?_ ?_
      · rw [payloadBytes_append, htotal]
        rfl
      · rcases eq_or_ne items [] with rfl | hne
        · exact .inr rfl
        · exact .inl (not_lt.1 fun hgt => hbig ⟨hgt, hne⟩)
    · exact htotal ▸ h

lemma length_cutTail_le (targetNum : ℕ) (queue : List Input) :
    (cutTail targetNum queue).1.length ≤ targetNum := by
  rw [cutTail, List.length_reverse]
  exact length_takeLast_le targetNum [] queue.reverse 0 (Nat.zero_le _)

lemma bytes_cutTail (targetNum : ℕ) (queue : List Input) :
    payloadBytes (cutTail targetNum queue).1 ≤ maxTransferBytes ∨
      (cutTail targetNum queue).1.length = 1 := by
  have h := bytes_takeLast targetNum [] queue.reverse 0 rfl (.inl (Nat.zero_le _))
  rwa [cutTail, List.length_reverse, payloadBytes_reverse]

/-- What the claim says of a batch that is taken from a queue. -/
structure Splits (queue left items : List Input) (requesterQueueSize : ℤ) : Prop where
  append : left ++ items = queue
  length_le : (items.length : ℤ) ≤ max (queue.length - requesterQueueSize) 1 / 2
  bytes : payloadBytes items ≤ maxTransferBytes ∨ items.length = 1
  keeps : items ≠ [] → requesterQueueSize + items.length ≤ left.length

lemma splits_cutTail (queue : List Input) (requesterQueueSize : ℤ) :
    Splits queue (cutTail (max ((queue.length : ℤ) - requesterQueueSize) 1 / 2).toNat queue).2
      (cutTail (max ((queue.length : ℤ) - requesterQueueSize) 1 / 2).toNat queue).1
      requesterQueueSize := by
  set targetNum := (max ((queue.length : ℤ) - requesterQueueSize) 1 / 2).toNat with htarget
  have happend := cutTail_append targetNum queue
  have hle := length_cutTail_le targetNum queue
  have hlength := congrArg List.length happend
  rw [List.length_append] at hlength
  refine ⟨happend, ?_, bytes_cutTail targetNum queue, fun hne => ?_⟩
  · omega
  · -- at least one item means that the difference is two or more
    have hpos : 0 < (cutTail targetNum queue).1.length := List.length_pos_of_ne_nil hne
    omega

/-- The queue is not empty, or the requester is not idle. -/
def SizedDonor.RevokesNothing (d : SizedDonor) (r : GetRequest) : Prop :=
  d.inputsQueue.items ≠ [] ∨ r.requesterQueueSize ≠ 0 ∨ r.requesterIdleWorkers ≤ 0

/-- **A batch that is taken from the queue is its end, in order and within the bounds; the donor
keeps what the requester has and as much as it gives, and gives the batch again when it is asked
for it again.** -/
theorem getInputs_splits {d : SizedDonor} {r : GetRequest} (hjob : d.onJob = true)
    (hrunning : d.stopped = false) (hnew : d.pendingTransfers.lookup r.transferId = none)
    (hrevoke : d.RevokesNothing r) (revoked : List Input) :
    ∃ items d', d.getInputs r revoked = (some items, d') ∧
      Splits d.inputsQueue.items d'.inputsQueue.items items r.requesterQueueSize ∧
      ∀ (queue : SizedQueue) (r' : GetRequest) (revoked' : List Input),
        r'.transferId = r.transferId →
          { d' with inputsQueue := queue }.getInputs r' revoked' =
            (some items, { d' with inputsQueue := queue }) := by
  have hserving : ¬(d.onJob = false ∨ d.stopped = true) := by
    rw [hjob, hrunning]
    decide
  set targetNum := (max ((d.inputsQueue.qsize : ℤ) - r.requesterQueueSize) 1 / 2).toNat
    with htarget
  have hcut := takeItems_cutTail targetNum d.inputsQueue
  have hlength : d.inputsQueue.qsize = d.inputsQueue.items.length := by
    rw [SizedQueue.items, List.length_map, SizedQueue.qsize]
  have hsplits := splits_cutTail d.inputsQueue.items r.requesterQueueSize
  rw [← hlength, ← htarget, ← hcut] at hsplits
  -- an empty batch leaves the queue as it was
  have hstays : ¬((takeItems targetNum [] 0 d.inputsQueue).1.reverse = [] ∧
      (takeItems targetNum [] 0 d.inputsQueue).2.qsize = 0 ∧
        r.requesterQueueSize = 0 ∧ 0 < r.requesterIdleWorkers) := by
    rintro ⟨hitems, hqueue, hzero, hidle⟩
    have hleft : (takeItems targetNum [] 0 d.inputsQueue).2.items = [] := by
      rw [SizedQueue.items, List.length_eq_zero_iff.1 hqueue, List.map_nil]
    have happend := hsplits.append
    rw [hitems, hleft, List.append_nil] at happend
    rcases hrevoke with hne | hne | hle
    · exact hne happend.symm
    · exact hne hzero
    · omega
  refine ⟨(takeItems targetNum [] 0 d.inputsQueue).1.reverse,
    { d with
      inputsQueue      := (takeItems targetNum [] 0 d.inputsQueue).2
      pendingTransfers := d.pendingTransfers.insert r.transferId
        (takeItems targetNum [] 0 d.inputsQueue).1.reverse }, ?_, hsplits, ?_⟩
  · unfold SizedDonor.getInputs
    rw [if_neg hserving, hnew]
    dsimp only
    rw [← htarget, if_neg hstays]
  · intro queue r' revoked' hid
    unfold SizedDonor.getInputs
    rw [if_neg hserving]
    dsimp only
    rw [hid, AList.lookup_insert]

/-- A node whose queue has three inputs. -/
def threeQueued : SizedDonor where
  onJob := true
  stopped := false
  inputsQueue :=
    (SizedQueue.empty.putNowait ⟨0, [1, 2]⟩ 2).putNowait ⟨1, [3]⟩ 1 |>.putNowait ⟨2, []⟩ 0
  inFlight := []
  pendingTransfers := ∅

theorem getInputs_splits_threeQueued :
    ∃ items d', threeQueued.getInputs ⟨7, 1, 4⟩ [] = (some items, d') ∧
      Splits threeQueued.inputsQueue.items d'.inputsQueue.items items 1 ∧
      ∀ (queue : SizedQueue) (r' : GetRequest) (revoked' : List Input),
        r'.transferId = 7 →
          { d' with inputsQueue := queue }.getInputs r' revoked' =
            (some items, { d' with inputsQueue := queue }) :=
  getInputs_splits (r := ⟨7, 1, 4⟩) rfl rfl rfl (.inl (by decide)) []

end Burla.Steal
