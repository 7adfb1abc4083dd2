/-
Leaving a job drops no accepted input.

`_claim_drained_job_part` looks at everything that a node may hold, but for what a retired worker
has in hand, and from then on the node serves no `get_inputs`.  It does take uploads until
`reset_workers` has dropped the job's state.  Where no handler of `upload_inputs` puts at a node
that has claimed its part, and no retired worker has an input or a result in hand when it does,
every accepted input is still somewhere (`held_of_careful`); `upload_is_dropped` is a run in which
an upload comes in between.
-/
import Burla.Leave.Fleet

namespace Burla.Leave

open Burla.Steal (Input NodeInputs Donor GetRequest AckRequest StealPhase)

variable {ν : Type*}

/-! ### What is held -/

namespace Member

variable {m m' : Member} {landed : List ℕ} {x : Input}

/-- What is neither with the donor's endpoints nor with a worker that is not retired. -/
def elsewhere (m : Member) : List Input :=
  m.terminal ++ m.gone ++ m.resultsQueue ++ m.pendingResultBatch

/-- What a node holds, but for the batches of transfers that have landed. -/
def holding (m : Member) (landed : List ℕ) : List Input :=
  m.donor.inputs.inputsQueue ++ m.donor.inputs.inFlight ++ m.elsewhere ++
    m.donor.pendingTransfers.held landed

lemma mem_holding :
    x ∈ m.holding landed ↔
      (x ∈ m.donor.inputs.inputsQueue ∨ x ∈ m.donor.inputs.inFlight) ∨ x ∈ m.elsewhere ∨
        ∃ t ys, m.donor.pendingTransfers.lookup t = some ys ∧ t ∉ landed ∧ x ∈ ys := by
  simp only [holding, List.mem_append, or_assoc, Parcels.mem_held]

lemma mem_elsewhere :
    x ∈ m.elsewhere ↔
      x ∈ m.terminal ∨ x ∈ m.gone ∨ x ∈ m.resultsQueue ∨ x ∈ m.pendingResultBatch := by
  simp only [elsewhere, List.mem_append, or_assoc]

lemma mem_holding_put {inputs : List Input} :
    x ∈ (m.put inputs).holding landed ↔ x ∈ inputs ∨ x ∈ m.holding landed := by
  simp only [mem_holding, mem_elsewhere, put, List.mem_append]
  grind

/-- What counts no longer when a transfer has landed. -/
lemma mem_holding_cons {t : ℕ} (h : x ∈ m.holding landed) :
    x ∈ m.holding (t :: landed) ∨
      ∃ ys, m.donor.pendingTransfers.lookup t = some ys ∧ x ∈ ys := by
  rcases mem_holding.1 h with h | h | ⟨t', ys, hys, hnew, hx⟩
  · exact .inl (mem_holding.2 (.inl h))
  · exact .inl (mem_holding.2 (.inr (.inl h)))
  · by_cases ht : t' = t
    · exact .inr ⟨ys, ht ▸ hys, hx⟩
    · refine .inl (mem_holding.2 (.inr (.inr ⟨t', ys, hys, fun hmem => ?_, hx⟩)))
      rcases List.mem_cons.1 hmem with heq | hmem
      · exact ht heq
      · exact hnew hmem

/-- With fewer transfers landed, more counts. -/
lemma mem_holding_nil (h : x ∈ m.holding landed) : x ∈ m.holding [] := by
  rcases mem_holding.1 h with h | h | ⟨t, ys, hys, -, hx⟩
  · exact mem_holding.2 (.inl h)
  · exact mem_holding.2 (.inr (.inl h))
  · exact mem_holding.2 (.inr (.inr ⟨t, ys, hys, List.not_mem_nil, hx⟩))

/-- A worker's input that leaves its hand. -/
lemma release_eq_some {i : ℕ} (h : m.release i = some (x, m')) :
    ∃ rest, m' = { m with
        donor := { m.donor with inputs := { m.donor.inputs with inFlight := rest } } } ∧
      ∀ y, y ∈ m.donor.inputs.inFlight ↔ y = x ∨ y ∈ rest := by
  simp only [release, NodeInputs.finish, Option.map_map, Option.map_eq_some_iff] at h
  obtain ⟨⟨z, rest⟩, htake, heq⟩ := h
  obtain ⟨rfl, rfl⟩ := Prod.mk.inj heq
  exact ⟨rest, rfl, fun y => by rw [(takeAt_perm htake).mem_iff, List.mem_cons]⟩

/-- What a poll leaves and delivers is what was there. -/
lemma poll_spec (m : Member) (acks : Bool) (k : ℕ) :
    (∀ landed x, x ∈ m.holding landed ↔
      x ∈ (m.poll acks k).1 ∨ x ∈ (m.poll acks k).2.holding landed) ∧
      (m.poll acks k).2.donor = m.donor ∧ (m.poll acks k).2.phase = m.phase := by
  have hsplit : ∀ x, x ∈ m.resultsQueue ↔
      x ∈ m.resultsQueue.take k ∨ x ∈ m.resultsQueue.drop k := fun x => by
    rw [← List.mem_append, List.take_append_drop]
  unfold poll
  cases acks with
  | true =>
    refine ⟨fun l x => ?_, rfl, rfl⟩
    simp only [if_true, mem_holding, mem_elsewhere, hsplit]
    grind
  | false =>
    cases hbatch : m.pendingResultBatch with
    | nil =>
      refine ⟨fun l x => ?_, rfl, rfl⟩
      simp only [Bool.false_eq_true, if_false, mem_holding, mem_elsewhere, hsplit, hbatch,
        List.not_mem_nil]
      grind
    | cons y batch =>
      refine ⟨fun l x => ?_, rfl, rfl⟩
      simp

end Member

/-- An input that is still somewhere: with the client, or in a node's queue, worker, results or
pending transfers. -/
def Fleet.Keeps (s : Fleet ν) (x : Input) : Prop :=
  x ∈ s.delivered ∨ ∃ n, x ∈ (s.members n).holding []

/-! ### The condition -/

section Condition

variable [DecidableEq ν]

/-- No handler puts at a node that has claimed its part, no retired worker has anything in hand at
a claim, and none whose container is gone has an input. -/
def careful (s : Fleet ν) : FleetEvent ν → Bool
  | .put i =>
    match takeAt s.uploads i with
    | some (u, _) => u.inputs.isEmpty || !(s.members u.node).donor.stopped
    | none => true
  | .claim n _ => (s.members n).terminal.isEmpty && (s.members n).gone.isEmpty
  | .drop _ _ => false
  | _ => true

def Careful (s : Fleet ν) (a : FleetEvent ν) : Prop := careful s a = true

instance (s : Fleet ν) (a : FleetEvent ν) : Decidable (Careful s a) :=
  inferInstanceAs (Decidable (_ = true))

end Condition

/-! ### The invariant -/

/-- The batch of a transfer is the one that is parked, if it still is. -/
def Fleet.Parked (s : Fleet ν) (t : ℕ) (items : List Input) : Prop :=
  ∀ ys, (s.members (s.neighbor t)).donor.pendingTransfers.lookup t = some ys → ys = items

structure Sound (s : Fleet ν) : Prop where
  held : ∀ x ∈ s.accepted, x ∈ s.delivered ∨ ∃ n, x ∈ (s.members n).holding s.landed
  /-- A node that has claimed its part holds nothing and steals nothing. -/
  stopped : ∀ n, (s.members n).donor.stopped = true →
    (∀ x, x ∉ (s.members n).holding []) ∧ (s.members n).phase = .ended
  /-- Each `get_inputs` is for a transfer of its own, and not handled yet. -/
  requests : (s.getRequests.map GetRequest.transferId).Nodup
  asked : ∀ r ∈ s.getRequests, r.transferId ∉ s.served ∧ r.transferId < s.transferIds
  parked : ∀ n t items, (s.members n).donor.pendingTransfers.lookup t = some items →
    s.neighbor t = n ∧ t ∈ s.served
  responded : ∀ t items, (t, some items) ∈ s.getResponses → t ∈ s.served ∧ s.Parked t items
  locking : ∀ n t items, (s.members n).phase = .locking t items → t ∈ s.served ∧ s.Parked t items
  acking : ∀ n t, (s.members n).phase = .acking t true → t ∈ s.landed
  acks : ∀ r ∈ s.ackRequests, r.received = true → r.transferId ∈ s.landed
  landed : ∀ t ∈ s.landed, t ∈ s.served
  drawn : ∀ t ∈ s.served, t < s.transferIds

namespace Sound

variable [DecidableEq ν] {s : Fleet ν} {n : ν} {m : Member}

/-- One node changes: what it held is still somewhere, and no batch is parked anew. -/
lemma member (h : Sound s)
    (hmem : ∀ x ∈ (s.members n).holding s.landed, x ∈ s.delivered ∨ x ∈ m.holding s.landed)
    (hstopped : m.donor.stopped = true → (∀ x, x ∉ m.holding []) ∧ m.phase = .ended)
    (hpending : ∀ t items, m.donor.pendingTransfers.lookup t = some items →
      (s.members n).donor.pendingTransfers.lookup t = some items)
    (hlock : ∀ t items, m.phase = .locking t items → t ∈ s.served ∧ s.Parked t items)
    (hack : ∀ t, m.phase = .acking t true → t ∈ s.landed) : Sound (s.set n m) := by
  have hself : (s.set n m).members n = m := by simp [Fleet.set]
  have hother : ∀ k, k ≠ n → (s.set n m).members k = s.members k := fun k hk => by
    simp [Fleet.set, Function.update_of_ne hk]
  have hlookup : ∀ k t items, ((s.set n m).members k).donor.pendingTransfers.lookup t = some items →
      (s.members k).donor.pendingTransfers.lookup t = some items := by
    intro k t items hitems
    by_cases hk : k = n
    · subst hk
      exact hpending t items (hself ▸ hitems)
    · rwa [hother k hk] at hitems
  have hparked : ∀ t items, s.Parked t items → (s.set n m).Parked t items :=
    fun t items hp ys hys => hp ys (hlookup _ t ys hys)
  constructor
  · intro x hx
    rcases h.held x hx with hd | ⟨k, hk⟩
    · exact .inl hd
    · by_cases hkn : k = n
      · subst hkn
        rcases hmem x hk with hd | hm
        · exact .inl hd
        · exact .inr ⟨k, by rw [hself]; exact hm⟩
      · exact .inr ⟨k, by rw [hother k hkn]; exact hk⟩
  · intro k hk
    by_cases hkn : k = n
    · subst hkn
      rw [hself] at hk ⊢
      exact hstopped hk
    · rw [hother k hkn] at hk ⊢
      exact h.stopped k hk
  · exact h.requests
  · exact h.asked
  · intro k t items hitems
    exact h.parked k t items (hlookup k t items hitems)
  · intro t items hitems
    obtain ⟨hserved, hp⟩ := h.responded t items hitems
    exact ⟨hserved, hparked t items hp⟩
  · intro k t items hk
    by_cases hkn : k = n
    · subst hkn
      rw [hself] at hk
      obtain ⟨hserved, hp⟩ := hlock t items hk
      exact ⟨hserved, hparked t items hp⟩
    · rw [hother k hkn] at hk
      obtain ⟨hserved, hp⟩ := h.locking k t items hk
      exact ⟨hserved, hparked t items hp⟩
  · intro k t hk
    by_cases hkn : k = n
    · subst hkn
      rw [hself] at hk
      exact hack t hk
    · rw [hother k hkn] at hk
      exact h.acking k t hk
  · exact h.acks
  · exact h.landed
  · exact h.drawn

/-- A node's inputs move within it. -/
lemma moved (h : Sound s) (hmem : ∀ l x, x ∈ m.holding l ↔ x ∈ (s.members n).holding l)
    (hstopped : m.donor.stopped = (s.members n).donor.stopped)
    (hpending : m.donor.pendingTransfers = (s.members n).donor.pendingTransfers)
    (hphase : m.phase = (s.members n).phase) : Sound (s.set n m) := by
  refine h.member (fun x hx => .inr ((hmem _ x).2 hx)) (fun hstop => ?_)
    (fun t items hitems => by rwa [hpending] at hitems)
    (fun t items hlock => h.locking n t items (hphase.symm.trans hlock))
    fun t hack => h.acking n t (hphase.symm.trans hack)
  obtain ⟨hnone, hended⟩ := h.stopped n (hstopped.symm.trans hstop)
  exact ⟨fun x hx => hnone x ((hmem _ x).1 hx), hphase.trans hended⟩

/-- The steal loop goes on. -/
lemma setPhase (h : Sound s) {phase : StealPhase} (hgoes : (s.members n).phase ≠ .ended)
    (hlock : ∀ t items, phase = .locking t items → t ∈ s.served ∧ s.Parked t items)
    (hack : ∀ t, phase = .acking t true → t ∈ s.landed) : Sound (s.setPhase n phase) :=
  h.member (m := { s.members n with phase }) (fun _ hx => .inr hx)
    (fun hstop => absurd (h.stopped n hstop).2 hgoes) (fun _ _ hitems => hitems) hlock hack

/-! #### Workers and results -/

lemma take (h : Sound s) {inputs : NodeInputs}
    (hinputs : (s.members n).donor.inputs.take = some inputs) :
    Sound (s.set n { s.members n with donor := { (s.members n).donor with inputs } }) := by
  refine h.moved (fun l x => ?_) rfl rfl rfl
  unfold NodeInputs.take at hinputs
  cases hqueue : (s.members n).donor.inputs.inputsQueue with
  | nil => simp [hqueue] at hinputs
  | cons y queue =>
    obtain rfl : _ = inputs := by simpa [hqueue] using hinputs
    simp only [Member.mem_holding, Member.mem_elsewhere, hqueue, List.mem_cons]
    grind

/-- A worker's input leaves its hand for another place of the node. -/
lemma released (h : Sound s) {i : ℕ} {x : Input} {m' : Member}
    (hrelease : (s.members n).release i = some (x, m'))
    (hmem : ∀ l y, y ∈ m.holding l ↔ y = x ∨ y ∈ m'.holding l)
    (hstopped : m.donor.stopped = m'.donor.stopped)
    (hpending : m.donor.pendingTransfers = m'.donor.pendingTransfers)
    (hphase : m.phase = m'.phase) : Sound (s.set n m) := by
  obtain ⟨rest, rfl, hrest⟩ := Member.release_eq_some hrelease
  refine h.moved (fun l y => ?_) hstopped hpending hphase
  rw [hmem]
  simp only [Member.mem_holding, Member.mem_elsewhere, hrest]
  grind

/-- The client has the results of a batch. -/
lemma poll (h : Sound s) (acks : Bool) (k : ℕ) :
    Sound { s.set n ((s.members n).poll acks k).2 with
      delivered := s.delivered ++ ((s.members n).poll acks k).1 } := by
  have hdelivered : Sound { s with delivered := s.delivered ++ ((s.members n).poll acks k).1 } :=
    { h with
      held := fun x hx => (h.held x hx).imp_left fun hd => List.mem_append_left _ hd }
  obtain ⟨hmem, hdonor, hphase⟩ := Member.poll_spec (s.members n) acks k
  refine hdelivered.member (n := n) (m := ((s.members n).poll acks k).2) (fun x hx => ?_)
    (fun hstop => ?_) (fun t items hitems => hdonor ▸ hitems)
    (fun t items hlock => h.locking n t items (hphase.symm.trans hlock))
    fun t hack => h.acking n t (hphase.symm.trans hack)
  · exact ((hmem _ x).1 hx).imp_left fun hd => List.mem_append_right _ hd
  · obtain ⟨hnone, hended⟩ := h.stopped n (hdonor ▸ hstop)
    exact ⟨fun x hx => hnone x ((hmem _ x).2 (.inr hx)), hphase.trans hended⟩

/-- An upload is accepted. -/
lemma put (h : Sound s) {inputs : List Input} {uploads : List (Upload ν)}
    (hgoes : inputs = [] ∨ (s.members n).donor.stopped = false) :
    Sound { s.set n ((s.members n).put inputs) with
      uploads, accepted := s.accepted ++ inputs } := by
  have hmem : ∀ l x, x ∈ ((s.members n).put inputs).holding l ↔
      x ∈ inputs ∨ x ∈ (s.members n).holding l := fun l x => Member.mem_holding_put
  have hput : Sound (s.set n ((s.members n).put inputs)) := by
    refine h.member (fun x hx => .inr ((hmem _ x).2 (.inr hx))) (fun hstop => ?_)
      (fun _ _ hitems => hitems) (h.locking n) (h.acking n)
    have hstop' : (s.members n).donor.stopped = true := hstop
    rcases hgoes with rfl | hgoes
    · obtain ⟨hnone, hended⟩ := h.stopped n hstop'
      exact ⟨fun x hx => ((hmem _ x).1 hx).elim (fun hx => by cases hx) (hnone x), hended⟩
    · simp [hgoes] at hstop'
  refine { hput with held := fun x hx => ?_ }
  rcases List.mem_append.1 hx with hx | hx
  · exact hput.held x hx
  · refine .inr ⟨n, ?_⟩
    have hx' : x ∈ ((s.members n).put inputs).holding s.landed := (hmem _ x).2 (.inl hx)
    simpa [Fleet.set] using hx'

/-! #### Transfers -/

/-- A new transfer starts under a fresh id. -/
lemma steal (h : Sound s) (d : ν) {r : GetRequest} (hr : r.transferId = s.transferIds)
    (hgoes : (s.members n).phase ≠ .ended) :
    Sound { s.setPhase n (.getting s.transferIds) with
      transferIds := s.transferIds + 1
      neighbor := Function.update s.neighbor s.transferIds d
      getRequests := s.getRequests ++ [r] } := by
  have hphase : Sound (s.setPhase n (.getting s.transferIds)) :=
    h.setPhase hgoes (fun _ _ heq => by cases heq) fun _ heq => by cases heq
  have hold : ∀ t ∈ s.served, Function.update s.neighbor s.transferIds d t = s.neighbor t := by
    intro t ht
    exact Function.update_of_ne (h.drawn t ht).ne _ _
  have hparked : ∀ t items, t ∈ s.served → (s.setPhase n (.getting s.transferIds)).Parked t items →
      ∀ ys, ((s.setPhase n (.getting s.transferIds)).members
        (Function.update s.neighbor s.transferIds d t)).donor.pendingTransfers.lookup t = some ys →
          ys = items := by
    intro t items ht hp ys hys
    rw [hold t ht] at hys
    exact hp ys hys
  refine { hphase with
    requests := ?_, asked := ?_, parked := ?_, responded := ?_, locking := ?_, drawn := ?_ }
  · rw [List.map_append, List.map_singleton, List.nodup_append]
    refine ⟨h.requests, List.nodup_singleton _, ?_⟩
    rintro t ht t' ht' rfl
    obtain ⟨r', hr', rfl⟩ := List.mem_map.1 ht
    obtain heq : r'.transferId = r.transferId := by simpa using ht'
    exact ((h.asked r' hr').2.ne (heq.trans hr)).elim
  · intro r' hr'
    rcases List.mem_append.1 hr' with hr' | hr'
    · exact ⟨(h.asked r' hr').1, Nat.lt_succ_of_lt (h.asked r' hr').2⟩
    · obtain rfl := List.mem_singleton.1 hr'
      exact ⟨fun hs => (h.drawn _ hs).ne hr, hr ▸ Nat.lt_succ_self _⟩
  · intro k t items hitems
    obtain ⟨hn, hserved⟩ := hphase.parked k t items hitems
    exact ⟨(hold t hserved).trans hn, hserved⟩
  · intro t items hitems
    obtain ⟨hserved, hp⟩ := hphase.responded t items hitems
    exact ⟨hserved, hparked t items hserved hp⟩
  · intro k t items hk
    obtain ⟨hserved, hp⟩ := hphase.locking k t items hk
    exact ⟨hserved, hparked t items hserved hp⟩
  · intro t ht
    exact Nat.lt_succ_of_lt (h.drawn t ht)

/-- A response arrives: fewer are under way. -/
lemma getArrives (h : Sound s) {i t : ℕ} {response : Option (List Input)}
    {rest : List (ℕ × Option (List Input))}
    (hresponse : takeAt s.getResponses i = some ((t, response), rest)) {phase : StealPhase}
    (hgoes : (s.members n).phase ≠ .ended)
    (hlock : ∀ t' items, phase = .locking t' items → t' = t ∧ response = some items)
    (hack : ∀ t', phase ≠ .acking t' true) :
    Sound ({ s with getResponses := rest }.setPhase n phase) := by
  have hrest : Sound { s with getResponses := rest } :=
    { h with
      responded := fun t items hitems => h.responded t items (mem_of_mem_rest hresponse hitems) }
  refine hrest.setPhase hgoes (fun t' items heq => ?_) fun t' heq => absurd heq (hack t')
  obtain ⟨rfl, rfl⟩ := hlock t' items heq
  exact h.responded t' items (mem_of_takeAt hresponse)

/-- The requester queues the batch in hand. -/
lemma enqueue (h : Sound s) {t : ℕ} {items : List Input}
    (hphase : (s.members n).phase = .locking t items) :
    Sound { s.set n { (s.members n).put items with phase := .acking t true } with
      landed := t :: s.landed } := by
  obtain ⟨hserved, hparked⟩ := h.locking n t items hphase
  have hgoes : (s.members n).donor.stopped = false := by
    refine Bool.eq_false_iff.2 fun hstop => ?_
    have hended := (h.stopped n hstop).2
    rw [hphase] at hended
    cases hended
  have hmem : ∀ x, x ∈ ((s.members n).put items).holding s.landed ↔
      x ∈ items ∨ x ∈ (s.members n).holding s.landed := fun x => Member.mem_holding_put
  -- the batch is queued, then its parcel no longer counts, then the loop goes on
  have hput : Sound (s.set n ((s.members n).put items)) :=
    h.member (fun x hx => .inr ((hmem x).2 (.inr hx)))
      (fun hstop => by simp [Member.put, hgoes] at hstop)
      (fun _ _ hitems => hitems) (h.locking n) (h.acking n)
  have hself : (s.set n ((s.members n).put items)).members n = (s.members n).put items := by
    simp [Fleet.set]
  have hland : Sound { s.set n ((s.members n).put items) with landed := t :: s.landed } := by
    refine { hput with
      held := fun x hx => ?_, acking := fun k t' hk => ?_,
      acks := fun r hr hreceived => List.mem_cons_of_mem t (hput.acks r hr hreceived),
      landed := fun t' ht' => ?_ }
    · rcases hput.held x hx with hd | ⟨k, hk⟩
      · exact .inl hd
      · refine .inr ?_
        rcases Member.mem_holding_cons (t := t) hk with hk | ⟨ys, hys, hxs⟩
        · exact ⟨k, hk⟩
        · obtain ⟨rfl, -⟩ := hput.parked k t ys hys
          obtain ⟨-, hp⟩ := hput.locking n t items (by rw [hself]; exact hphase)
          obtain rfl := hp ys hys
          refine ⟨n, ?_⟩
          show x ∈ ((s.set n ((s.members n).put ys)).members n).holding (t :: s.landed)
          rw [hself]
          exact Member.mem_holding_put.2 (.inl hxs)
    · exact List.mem_cons_of_mem t (hput.acking k t' hk)
    · rcases List.mem_cons.1 ht' with rfl | ht'
      · exact hserved
      · exact h.landed t' ht'
  have hgoesOn : ((s.set n ((s.members n).put items)).members n).phase ≠ .ended := by
    rw [hself]
    show (s.members n).phase ≠ .ended
    rw [hphase]
    exact fun heq => by cases heq
  have hlast : Sound (Fleet.setPhase { s.set n ((s.members n).put items) with
      landed := t :: s.landed } n (.acking t true)) := by
    refine hland.setPhase hgoesOn (fun _ _ heq => by cases heq) fun t' heq => ?_
    cases heq
    exact List.mem_cons_self
  simpa [Fleet.setPhase, Fleet.set, Function.update_idem] using hlast

omit [DecidableEq ν] in
/-- A request is handled: fewer are under way. -/
lemma handled (h : Sound s) {i : ℕ} {r : GetRequest} {rest : List GetRequest}
    (hr : takeAt s.getRequests i = some (r, rest)) :
    Sound { s with getRequests := rest, served := r.transferId :: s.served } := by
  have hperm := (takeAt_perm hr).map GetRequest.transferId
  have hnodup : (r.transferId :: rest.map GetRequest.transferId).Nodup :=
    hperm.nodup_iff.1 h.requests
  refine { h with
    requests := hnodup.of_cons, asked := fun r' hr' => ?_, parked := fun k t items hitems => ?_,
    responded := fun t items hitems => ?_, locking := fun k t items hk => ?_,
    landed := fun t ht => List.mem_cons_of_mem _ (h.landed t ht), drawn := fun t ht => ?_ }
  · obtain ⟨hnew, hdrawn⟩ := h.asked r' (mem_of_mem_rest hr hr')
    refine ⟨fun hmem => ?_, hdrawn⟩
    rcases List.mem_cons.1 hmem with heq | hmem
    · exact (List.nodup_cons.1 hnodup).1 (heq ▸ List.mem_map_of_mem hr')
    · exact hnew hmem
  · obtain ⟨hn, hserved⟩ := h.parked k t items hitems
    exact ⟨hn, List.mem_cons_of_mem _ hserved⟩
  · obtain ⟨hserved, hp⟩ := h.responded t items hitems
    exact ⟨List.mem_cons_of_mem _ hserved, hp⟩
  · obtain ⟨hserved, hp⟩ := h.locking k t items hk
    exact ⟨List.mem_cons_of_mem _ hserved, hp⟩
  · rcases List.mem_cons.1 ht with rfl | ht
    · exact (h.asked r (mem_of_takeAt hr)).2
    · exact h.drawn t ht

/-- A request is handled once, so that the batch of its transfer is not parked already. -/
lemma serveGet (h : Sound s) {i : ℕ} {r : GetRequest} {rest : List GetRequest}
    (hr : takeAt s.getRequests i = some (r, rest)) (hn : s.neighbor r.transferId = n)
    {p : Option (List Input) × Donor} (hp : (s.members n).donor.Got r.transferId p) :
    Sound { s.set n { s.members n with donor := p.2 } with
      getRequests := rest
      getResponses := s.getResponses ++ [(r.transferId, p.1)]
      served := r.transferId :: s.served } := by
  have hhandled := h.handled hr
  have hnew : r.transferId ∉ s.served := (h.asked r (mem_of_takeAt hr)).1
  cases hp with
  | refused hserving =>
    have hsame : s.set n { s.members n with donor := (s.members n).donor } = s := by
      simp [Fleet.set]
    simp only [hsame]
    refine { hhandled with responded := fun t items hitems => ?_ }
    rcases List.mem_append.1 hitems with hitems | hitems
    · exact hhandled.responded t items hitems
    · simp at hitems
  | again hparked => exact absurd (h.parked n _ _ hparked).2 hnew
  | @parked items inputs hserving hnone hitems =>
    have hgoes : (s.members n).donor.stopped = false := by
      simp only [Donor.serving, Bool.and_eq_true, Bool.not_eq_true'] at hserving
      exact hserving.2
    have hland : r.transferId ∉ s.landed := fun hl => hnew (h.landed _ hl)
    set m : Member := { s.members n with
      donor := { (s.members n).donor with
        inputs, pendingTransfers := (s.members n).donor.pendingTransfers.insert r.transferId items } }
      with hm
    have hself : (s.set n m).members n = m := by simp [Fleet.set]
    have hother : ∀ k, k ≠ n → (s.set n m).members k = s.members k := fun k hk => by
      simp [Fleet.set, Function.update_of_ne hk]
    have hphase : ∀ k, ((s.set n m).members k).phase = (s.members k).phase := by
      intro k
      by_cases hk : k = n
      · subst hk
        rw [hself]
      · rw [hother k hk]
    -- the other parcels stay
    have hlookup : ∀ k t, t ≠ r.transferId →
        ((s.set n m).members k).donor.pendingTransfers.lookup t =
          (s.members k).donor.pendingTransfers.lookup t := by
      intro k t ht
      by_cases hk : k = n
      · subst hk
        rw [hself]
        exact AList.lookup_insert_ne ht
      · rw [hother k hk]
    have hparked : ∀ t ys, t ∈ s.served → s.Parked t ys → (s.set n m).Parked t ys := by
      intro t ys ht hp zs hzs
      refine hp zs ?_
      rw [← hlookup _ t fun heq => hnew (heq ▸ ht)]
      exact hzs
    have hmem : ∀ x ∈ (s.members n).holding s.landed, x ∈ m.holding s.landed := by
      intro x hx
      have hcount := hitems x
      have hplace : x ∈ (s.members n).donor.inputs.inputsQueue ∨
          x ∈ (s.members n).donor.inputs.inFlight →
          x ∈ inputs.inputsQueue ∨ x ∈ inputs.inFlight ∨ x ∈ items := by
        simp only [← List.count_pos_iff]
        omega
      have hnew : x ∈ inputs.inputsQueue ∨ x ∈ inputs.inFlight ∨ x ∈ items →
          x ∈ m.holding s.landed := by
        rintro (hx | hx | hx)
        · exact Member.mem_holding.2 (.inl (.inl hx))
        · exact Member.mem_holding.2 (.inl (.inr hx))
        · exact Member.mem_holding.2
            (.inr (.inr ⟨r.transferId, items, AList.lookup_insert _, hland, hx⟩))
      rcases Member.mem_holding.1 hx with hx | hx | ⟨t, ys, hys, hfresh, hx⟩
      · exact hnew (hplace hx)
      · exact Member.mem_holding.2 (.inr (.inl hx))
      · have hne : t ≠ r.transferId := by
          rintro rfl
          rw [hys] at hnone
          cases hnone
        refine Member.mem_holding.2 (.inr (.inr ⟨t, ys, ?_, hfresh, hx⟩))
        exact (AList.lookup_insert_ne hne).trans hys
    refine
      { requests := hhandled.requests
        asked := hhandled.asked
        acks := h.acks
        landed := hhandled.landed
        drawn := hhandled.drawn
        held := fun x hx => ?_
        stopped := fun k hk => ?_
        parked := fun k t ys hys => ?_
        responded := fun t ys hys => ?_
        locking := fun k t ys hk => ?_
        acking := fun k t hk => h.acking k t ((hphase k).symm.trans hk) }
    · rcases h.held x hx with hd | ⟨k, hk⟩
      · exact .inl hd
      · refine .inr ⟨k, ?_⟩
        show x ∈ ((s.set n m).members k).holding s.landed
        by_cases hkn : k = n
        · subst hkn
          rw [hself]
          exact hmem x hk
        · rwa [hother k hkn]
    · have hkn : k ≠ n := by
        rintro rfl
        have hk' : ((s.set k m).members k).donor.stopped = true := hk
        rw [hself, show m.donor.stopped = false from hgoes] at hk'
        cases hk'
      show (∀ x, x ∉ ((s.set n m).members k).holding []) ∧ ((s.set n m).members k).phase = .ended
      rw [hother k hkn]
      exact h.stopped k (by rwa [show _ = s.members k from hother k hkn] at hk)
    · by_cases ht : t = r.transferId
      · subst ht
        have hkn : k = n := by
          by_contra hkn
          have hys' : ((s.set n m).members k).donor.pendingTransfers.lookup r.transferId =
            some ys := hys
          rw [hother k hkn] at hys'
          exact hnew (h.parked k _ ys hys').2
        exact ⟨hn.trans hkn.symm, List.mem_cons_self⟩
      · obtain ⟨hk, hserved⟩ := h.parked k t ys ((hlookup k t ht).symm.trans hys)
        exact ⟨hk, List.mem_cons_of_mem _ hserved⟩
    · rcases List.mem_append.1 hys with hys | hys
      · obtain ⟨hserved, hp⟩ := h.responded t ys hys
        exact ⟨List.mem_cons_of_mem _ hserved, hparked t ys hserved hp⟩
      · obtain ⟨rfl, hsome⟩ := Prod.mk.inj (List.mem_singleton.1 hys)
        obtain rfl := Option.some.inj hsome
        refine ⟨List.mem_cons_self, fun zs hzs => ?_⟩
        have hzs' : ((s.set n m).members n).donor.pendingTransfers.lookup r.transferId = some zs := by
          rw [← hn]
          exact hn ▸ hzs
        rw [hself, hm, AList.lookup_insert] at hzs'
        exact (Option.some.inj hzs').symm
    · obtain ⟨hserved, hp⟩ := h.locking k t ys ((hphase k).symm.trans hk)
      exact ⟨List.mem_cons_of_mem _ hserved, hparked t ys hserved hp⟩

/-- An acknowledgement is handled; a batch that was not received is queued again. -/
lemma serveAck (h : Sound s) {i : ℕ} {r : AckRequest} {rest : List AckRequest}
    (hr : takeAt s.ackRequests i = some (r, rest)) {p : Bool × Donor}
    (hp : (s.members n).donor.Acked r p) :
    Sound { s.set n { s.members n with donor := p.2 } with
      ackRequests := rest
      ackResponses := s.ackResponses ++ [(r.transferId, p.1)] } := by
  have hset : Sound (s.set n { s.members n with donor := p.2 }) := by
    cases hp with
    | refused hjob => exact h.moved (fun _ _ => Iff.rfl) rfl rfl rfl
    | nothing hjob hlookup => exact h.moved (fun _ _ => Iff.rfl) rfl rfl rfl
    | @settled items inputs hjob hlookup hitems =>
      have herase : ∀ t ys, ((s.members n).donor.pendingTransfers.erase r.transferId).lookup t =
          some ys → t ≠ r.transferId ∧ (s.members n).donor.pendingTransfers.lookup t = some ys := by
        intro t ys hys
        have hne : t ≠ r.transferId := by
          rintro rfl
          rw [AList.lookup_erase] at hys
          cases hys
        exact ⟨hne, by rwa [AList.lookup_erase_ne hne] at hys⟩
      have hreceived : r.received = true → r.transferId ∈ s.landed :=
        h.acks r (mem_of_takeAt hr)
      have hplace : ∀ x, x ∈ inputs.inputsQueue ∨ x ∈ inputs.inFlight ↔
          x ∈ (s.members n).donor.inputs.inputsQueue ∨ x ∈ (s.members n).donor.inputs.inFlight ∨
            r.received = false ∧ x ∈ items := by
        intro x
        have hcount := hitems x
        simp only [← List.count_pos_iff]
        cases hrec : r.received with
        | true =>
          simp only [hrec, if_true] at hcount
          simp only [reduceCtorEq, false_and, or_false]
          omega
        | false =>
          simp only [hrec, Bool.false_eq_true, if_false] at hcount
          simp only [true_and]
          omega
      refine h.member (fun x hx => .inr (Member.mem_holding.2 ?_)) (fun hstop => ?_)
        (fun t ys hys => (herase t ys hys).2) (h.locking n) (h.acking n)
      · rcases Member.mem_holding.1 hx with hx | hx | ⟨t, ys, hys, hland, hx⟩
        · exact .inl ((hplace x).2 (or_assoc.1 (.inl hx)))
        · exact .inr (.inl hx)
        · by_cases ht : t = r.transferId
          · subst ht
            obtain rfl : items = ys := Option.some.inj (hlookup.symm.trans hys)
            have hrec : r.received = false := Bool.eq_false_iff.2 fun hrec => hland (hreceived hrec)
            exact .inl ((hplace x).2 (.inr (.inr ⟨hrec, hx⟩)))
          · exact .inr (.inr ⟨t, ys, (AList.lookup_erase_ne ht).trans hys, hland, hx⟩)
      · obtain ⟨hnone, hended⟩ := h.stopped n hstop
        refine ⟨fun x hx => hnone x (Member.mem_holding.2 ?_), hended⟩
        rcases Member.mem_holding.1 hx with hx | hx | ⟨t, ys, hys, hland, hx⟩
        · rcases (hplace x).1 hx with hx | hx | ⟨-, hx⟩
          · exact .inl (.inl hx)
          · exact .inl (.inr hx)
          · exact .inr (.inr ⟨r.transferId, items, hlookup, List.not_mem_nil, hx⟩)
        · exact .inr (.inl hx)
        · exact .inr (.inr ⟨t, ys, (herase t ys hys).2, hland, hx⟩)
  exact { hset with acks := fun r' hr' => h.acks r' (mem_of_mem_rest hr hr') }

/-! #### Leaving -/

/-- A drained node, whose retired workers have nothing in hand, holds nothing. -/
lemma claim (h : Sound s) (hdrained : (s.members n).Drained)
    (hterminal : (s.members n).terminal = []) (hgone : (s.members n).gone = []) :
    Sound (s.set n { s.members n with
      donor := { (s.members n).donor with stopped := true }, phase := .ended }) := by
  obtain ⟨hqueue, hpending, -, hflight, hresults, hbatch⟩ := hdrained
  have hparked : (s.members n).donor.pendingTransfers = ∅ := AList.ext hpending
  refine h.member (fun _ hx => .inr hx) (fun _ => ⟨fun x hx => ?_, rfl⟩) (fun _ _ hitems => hitems)
    (fun _ _ heq => by cases heq) fun _ heq => by cases heq
  rcases Member.mem_holding.1 hx with hx | hx | ⟨t, ys, hys, -, -⟩
  · simp [hqueue, hflight] at hx
  · simp [Member.elsewhere, hterminal, hgone, hresults, hbatch] at hx
  · simp [hparked] at hys

/-- A node that has claimed its part drops nothing when it is reset. -/
lemma reset (h : Sound s) (hstop : (s.members n).donor.stopped = true) :
    Sound (s.set n (s.members n).left) := by
  obtain ⟨hnone, -⟩ := h.stopped n hstop
  refine h.member (fun x hx => absurd (Member.mem_holding_nil hx) (hnone x))
    (fun _ => ⟨fun x hx => ?_, rfl⟩) (fun t items hitems => by simp [Member.left] at hitems)
    (fun _ _ heq => by cases heq) fun _ heq => by cases heq
  rcases Member.mem_holding.1 hx with hx | hx | ⟨t, ys, hys, -, -⟩
  · simp [Member.left] at hx
  · simp [Member.left, Member.elsewhere] at hx
  · simp [Member.left] at hys

/-! #### Every step -/

lemma step {limit : ℕ} {s' : Fleet ν} {a : FleetEvent ν} (h : Sound s) (hok : Careful s a)
    (hstep : fleetStep limit s a = some s') : s'.failed = true ∨ Sound s' := by
  cases a with
  | join n targetParallelism =>
    simp only [fleetStep, Option.ite_none_right_eq_some, Option.some.injEq] at hstep
    obtain ⟨⟨-, hgoes⟩, rfl⟩ := hstep
    refine .inr (h.member (fun _ hx => .inr hx) (fun hstop => ?_) (fun _ _ hitems => hitems)
      (fun _ _ heq => by cases heq) fun _ heq => by cases heq)
    exact absurd (hgoes.symm.trans hstop) (by decide)
  | upload n inputs =>
    obtain rfl := Option.some.inj hstep
    exact .inr { h with }
  | check i =>
    simp only [fleetStep] at hstep
    split at hstep
    · cases hstep
    · split_ifs at hstep
      · obtain rfl := Option.some.inj hstep
        exact .inr { h with }
      · obtain rfl := Option.some.inj hstep
        exact .inr h
      · obtain rfl := Option.some.inj hstep
        exact .inr { h with }
  | put i =>
    simp only [fleetStep] at hstep
    split at hstep
    · cases hstep
    · rename_i u rest hu
      simp only [Option.ite_none_right_eq_some, Option.some.injEq] at hstep
      obtain ⟨-, rfl⟩ := hstep
      refine .inr (h.put ?_)
      simpa [Careful, careful, hu] using hok
  | take n =>
    obtain ⟨inputs, hinputs, rfl⟩ := Option.map_eq_some_iff.1 hstep
    exact .inr (h.take hinputs)
  | finish n i =>
    obtain ⟨⟨x, m'⟩, hrelease, rfl⟩ := Option.map_eq_some_iff.1 hstep
    refine .inr (h.released hrelease (fun l y => ?_) rfl rfl rfl)
    simp only [Member.mem_holding, Member.mem_elsewhere, List.mem_append, List.mem_singleton]
    grind
  | requeue n i =>
    obtain ⟨⟨x, m'⟩, hrelease, rfl⟩ := Option.map_eq_some_iff.1 hstep
    refine .inr (h.released hrelease (fun l y => ?_) rfl rfl rfl)
    rw [Member.mem_holding_put, List.mem_singleton]
  | lastFails n i =>
    obtain ⟨⟨x, m'⟩, hrelease, rfl⟩ := Option.map_eq_some_iff.1 hstep
    refine .inr (h.released hrelease (fun l y => ?_) rfl rfl rfl)
    simp only [Member.mem_holding, Member.mem_elsewhere, List.mem_cons]
    grind
  | deliver n i =>
    obtain ⟨⟨x, rest⟩, htake, rfl⟩ := Option.map_eq_some_iff.1 hstep
    refine .inr (h.moved (fun l y => ?_) rfl rfl rfl)
    have hterminal : y ∈ (s.members n).terminal ↔ y = x ∨ y ∈ rest := by
      rw [(takeAt_perm htake).mem_iff, List.mem_cons]
    simp only [Member.mem_holding, Member.mem_elsewhere, List.mem_append, List.mem_singleton,
      hterminal]
    grind
  | relocate n i =>
    obtain ⟨⟨x, m'⟩, hrelease, rfl⟩ := Option.map_eq_some_iff.1 hstep
    refine .inr (h.released hrelease (fun l y => ?_) rfl rfl rfl)
    simp only [Member.mem_holding, Member.mem_elsewhere, List.mem_cons]
    grind
  | drop n i => cases hok
  | poll n acks k =>
    simp only [fleetStep, Option.ite_none_right_eq_some, Option.some.injEq] at hstep
    obtain ⟨-, rfl⟩ := hstep
    exact .inr (h.poll acks k)
  | retarget n targetParallelism =>
    obtain rfl := Option.some.inj hstep
    exact .inr (h.moved (fun _ _ => Iff.rfl) rfl rfl rfl)
  | steal n d idleWorkers =>
    simp only [fleetStep, Option.ite_none_right_eq_some, Option.some.injEq] at hstep
    obtain ⟨⟨hidle, -⟩, rfl⟩ := hstep
    exact .inr (h.steal d rfl (by simp [hidle]))
  | serveGet i revoked =>
    simp only [fleetStep] at hstep
    split at hstep
    · cases hstep
    · rename_i r rest hr
      simp only [Option.ite_none_right_eq_some, Option.some.injEq] at hstep
      obtain ⟨⟨hrevoked, -⟩, rfl⟩ := hstep
      exact .inr (h.serveGet hr rfl (Donor.getInputs_got _ r hrevoked))
  | getArrives n i =>
    simp only [fleetStep] at hstep
    split at hstep
    · rename_i t t' response rest hphase hresponse
      split at hstep
      · rename_i heq
        subst heq
        have hgoes : (s.members n).phase ≠ .ended := by simp [hphase]
        split at hstep
        · obtain rfl := Option.some.inj hstep
          exact .inr (h.getArrives hresponse hgoes (fun _ _ heq => by cases heq)
            fun _ heq => by cases heq)
        · obtain rfl := Option.some.inj hstep
          exact .inr (h.getArrives hresponse hgoes (fun _ _ heq => by cases heq)
            fun _ heq => by cases heq)
        · obtain rfl := Option.some.inj hstep
          refine .inr (h.getArrives hresponse hgoes (fun _ _ heq => ?_) fun _ heq => by cases heq)
          cases heq
          exact ⟨rfl, rfl⟩
      · cases hstep
    · cases hstep
  | getFails n =>
    simp only [fleetStep] at hstep
    split at hstep
    · rename_i t hphase
      obtain rfl := Option.some.inj hstep
      exact .inr (h.setPhase (by simp [hphase]) (fun _ _ heq => by cases heq)
        fun _ heq => by cases heq)
    · cases hstep
  | enqueue n =>
    simp only [fleetStep] at hstep
    split at hstep
    · rename_i t items hphase
      split_ifs at hstep
      · obtain rfl := Option.some.inj hstep
        exact .inr (h.enqueue hphase)
      · obtain rfl := Option.some.inj hstep
        exact .inr (h.setPhase (by simp [hphase]) (fun _ _ heq => by cases heq)
          fun _ heq => by cases heq)
    · cases hstep
  | sendAck n =>
    simp only [fleetStep] at hstep
    split at hstep
    · rename_i t received hphase
      obtain rfl := Option.some.inj hstep
      refine .inr { h with acks := fun r hr hreceived => ?_ }
      rcases List.mem_append.1 hr with hr | hr
      · exact h.acks r hr hreceived
      · obtain rfl := List.mem_singleton.1 hr
        obtain rfl : received = true := hreceived
        exact h.acking n t hphase
    · cases hstep
  | serveAck i =>
    simp only [fleetStep] at hstep
    split at hstep
    · cases hstep
    · rename_i r rest hr
      obtain rfl := Option.some.inj hstep
      exact .inr (h.serveAck hr (Donor.ackTransfer_acked _ r))
  | ackArrives n i =>
    simp only [fleetStep] at hstep
    split at hstep
    · rename_i t received t' ok rest hphase hresponse
      split_ifs at hstep
      obtain rfl := Option.some.inj hstep
      have hrest : Sound { s with ackResponses := rest } := { h with }
      exact .inr (hrest.setPhase (by simp [hphase]) (fun _ _ heq => by cases heq)
        fun _ heq => by cases heq)
    · cases hstep
  | peerFinished n =>
    simp only [fleetStep] at hstep
    split at hstep
    · rename_i t received hphase
      split_ifs at hstep
      obtain rfl := Option.some.inj hstep
      exact .inr (h.setPhase (by simp [hphase]) (fun _ _ heq => by cases heq)
        fun _ heq => by cases heq)
    · cases hstep
  | giveUp n =>
    simp only [fleetStep] at hstep
    split at hstep
    · obtain rfl := Option.some.inj hstep
      exact .inl rfl
    · cases hstep
  | claim n neighborHadNoInputs =>
    simp only [fleetStep, Option.ite_none_right_eq_some, Option.some.injEq] at hstep
    obtain ⟨⟨-, -, -, hdrained⟩, rfl⟩ := hstep
    obtain ⟨hterminal, hgone⟩ : (s.members n).terminal = [] ∧ (s.members n).gone = [] := by
      simpa [Careful, careful] using hok
    exact .inr (h.claim hdrained hterminal hgone)
  | reset n =>
    simp only [fleetStep, Option.ite_none_right_eq_some, Option.some.injEq] at hstep
    obtain ⟨⟨-, hstop⟩, rfl⟩ := hstep
    exact .inr (h.reset hstop)
  | fail =>
    obtain rfl := Option.some.inj hstep
    exact .inl rfl

end Sound

/-! ### Main results -/

section Main

variable [DecidableEq ν] {limit : ℕ} {s : Fleet ν}

omit [DecidableEq ν] in
lemma Sound.of_fresh (h : s.Fresh) : Sound s where
  held := by simp [h.accepted]
  stopped n hstop := by
    obtain ⟨onJob, target, hm⟩ := h.members n
    simp [hm, Member.fresh] at hstop
  requests := by simp [h.getRequests]
  asked := by simp [h.getRequests]
  parked n t items hitems := by
    obtain ⟨onJob, target, hm⟩ := h.members n
    simp [hm, Member.fresh] at hitems
  responded := by simp [h.getResponses]
  locking n t items hphase := by
    obtain ⟨onJob, target, hm⟩ := h.members n
    simp [hm, Member.fresh] at hphase
  acking n t hphase := by
    obtain ⟨onJob, target, hm⟩ := h.members n
    simp [hm, Member.fresh] at hphase
  acks := by simp [h.ackRequests]
  landed := by simp [h.landed]
  drawn := by simp [h.served]

/-- **Leaving the job drops no accepted input**, in careful runs, as long as the job is RUNNING. -/
theorem held_of_careful (hs : (fleet ν limit).Reachable Careful s) (hrunning : s.failed = false) :
    ∀ x ∈ s.accepted, s.Keeps x := by
  have hinv : (fleet ν limit).Invariant Careful fun s => s.failed = true ∨ Sound s := by
    constructor
    · exact fun s hs => .inr (.of_fresh hs)
    · intro s a s' h hok hstep
      simp only [fleet] at hstep
      split_ifs at hstep with hfailed
      exact (h.resolve_left hfailed).step hok hstep
  have h : Sound s := (hinv.reachable hs).resolve_left (by simp [hrunning])
  intro x hx
  rcases h.held x hx with hd | ⟨n, hn⟩
  · exact .inl hd
  · exact .inr ⟨n, Member.mem_holding_nil hn⟩

end Main

/-! ### Runs -/

section Runs

/-- Two nodes, with nothing done yet. -/
def coldFleet : Fleet Bool where
  members _ := .fresh false 0
  uploads := []
  getRequests := []
  getResponses := []
  ackRequests := []
  ackResponses := []
  neighbor _ := false
  transferIds := 0
  failed := false
  accepted := []
  delivered := []
  served := []
  landed := []

lemma fresh_coldFleet : (fleet Bool 1000).init coldFleet where
  members _ := ⟨false, 0, rfl⟩
  uploads := rfl
  getRequests := rfl
  getResponses := rfl
  ackRequests := rfl
  ackResponses := rfl
  accepted := rfl
  served := rfl
  landed := rfl

/-- Two inputs are uploaded; one is stolen and the other run, and the node is traded to zero. -/
def leaveSteps : List (FleetEvent Bool) :=
  [.join false 1, .join true 1, .upload false [⟨0, [0]⟩, ⟨1, [1]⟩], .check 0, .put 0,
    .steal true false 0, .serveGet 0 [], .getArrives true 0, .enqueue true, .sendAck true,
    .serveAck 0, .ackArrives true 0, .take false, .finish false 0, .poll false false 1,
    .poll false true 0, .retarget false 0, .claim false false, .reset false]

/-- An upload comes after the claim and before the reset. -/
def uploadDrops : List (FleetEvent Bool) :=
  [.join false 1, .retarget false 0, .claim false false, .upload false [⟨0, [0]⟩], .check 0, .put 0,
    .reset false]

def leftCareful : Fleet Bool :=
  (((fleet Bool 1000).guarded Careful).exec coldFleet leaveSteps).get (by decide +kernel)

def uploadDropped : Fleet Bool :=
  (((fleet Bool 1000).guarded System.always).exec coldFleet uploadDrops).get (by decide +kernel)

theorem held_of_careful_left :
    (leftCareful.members false).donor.onJob = false ∧ leftCareful.accepted ≠ [] ∧
      ∀ x ∈ leftCareful.accepted, leftCareful.Keeps x := by
  have hrun : (fleet Bool 1000).Run Careful coldFleet leaveSteps leftCareful :=
    System.run_of_exec_guarded (Option.some_get _).symm
  exact ⟨by decide +kernel, by decide +kernel,
    held_of_careful ⟨coldFleet, _, fresh_coldFleet, hrun⟩ (by decide +kernel)⟩

/-- **An accepted upload is dropped** with the state of a node that leaves the job. -/
theorem upload_is_dropped :
    ∃ s, (fleet Bool 1000).Reachable System.always s ∧ s.failed = false ∧
      ∃ x ∈ s.accepted, ¬ s.Keeps x := by
  have hrun : (fleet Bool 1000).Run System.always coldFleet uploadDrops uploadDropped :=
    System.run_of_exec_guarded (Option.some_get _).symm
  have hdelivered : uploadDropped.delivered = [] := by decide +kernel
  have hholding : ∀ n, (uploadDropped.members n).holding [] = [] := by decide +kernel
  refine ⟨uploadDropped, ⟨coldFleet, _, fresh_coldFleet, hrun⟩, by decide +kernel, ⟨0, [0]⟩,
    by decide +kernel, ?_⟩
  rintro (hx | ⟨n, hx⟩)
  · simp [hdelivered] at hx
  · simp [hholding] at hx

end Runs

end Burla.Leave
