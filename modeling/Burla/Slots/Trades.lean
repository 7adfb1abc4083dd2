/-
Slot trades among the nodes of a job (`_slot_trade_loop` in job_watcher.py against
`trade_slots`).

Any node may ask any other one: the head's ring may name another neighbor on each attempt.
A trade keeps its id from the first attempt until a response is seen, and the donor answers
a request with an id it has on record without giving slots again.  The record is the
donor's alone, so a retry that goes to another neighbor settles the trade there and what
the first one gave is added nowhere (`trade_loses_slots`).

`worth` counts the slots that nodes have together with those given under trades that are
not settled.  No step of trading raises it, and the steps of `settling` keep it, so that then
slots are conserved (`trades_conserve_slots`).
-/
import Burla.Lib.Messages
import Burla.Lib.System
import Burla.Lib.Updates
import Burla.Slots.Trade
import Mathlib.Algebra.Order.BigOperators.Group.Finset

namespace Burla.Slots

variable {ι : Type*}

/-! ### The system -/

/-- An answer on its way back. -/
structure TradeResponse (ι : Type*) where
  request : TradeRequest ι
  answer : TradeAnswer
  deriving DecidableEq, Repr

/-- The nodes of a job and the trades under way between them. -/
structure Trades (ι : Type*) where
  nodes : ι → TradeNode ι
  /-- Requests that have not arrived. -/
  requests : List (TradeRequest ι)
  /-- Requests that wait for their donor's lock. -/
  locked : List (TradeRequest ι)
  /-- Every response made. -/
  responses : List (TradeResponse ι)
  /-- How many attempts were made and trade ids drawn. -/
  attempts : ℕ
  tradeIds : ℕ
  /-- What each donor has given each requester under the requester's present trade. -/
  given : ι → ι → Option ℤ

/-- What can happen next. -/
inductive TradeEvent (ι : Type*)
  /-- A node's loop asks the neighbor that the head names. -/
  | attempt (r neighbor : ι) (want : ℤ)
  /-- The attempt fails or times out. -/
  | attemptFails (r : ι)
  /-- A request arrives. -/
  | arrive (i : ℕ)
  /-- A request gets its donor's lock. -/
  | grant (j : ℕ) (v : DonorView)
  /-- The loop reads the response to its attempt. -/
  | receive (i : ℕ)
  /-- A node's watcher stops, and the node leaves the job. -/
  | stop (i : ι)
  | endJob (i : ι)
  deriving DecidableEq, Repr

namespace Trades

variable [DecidableEq ι]

def setNode (s : Trades ι) (i : ι) (n : TradeNode ι) : Trades ι :=
  { s with nodes := Function.update s.nodes i n }

/-- The id a new attempt of a node carries. -/
def nextTradeId (s : Trades ι) (r : ι) : ℕ := (s.nodes r).slotTradeId.getD s.tradeIds

/-- The loop sends an attempt. -/
def send (s : Trades ι) (r neighbor : ι) (want : ℤ) : Trades ι :=
  { s with
    nodes := Function.update s.nodes r
      { s.nodes r with slotTradeId := some (s.nextTradeId r), attempt := some s.attempts }
    requests :=
      { attempt := s.attempts, requestingNode := r, neighbor, slotsRequested := want
        tradeId := s.nextTradeId r } :: s.requests
    attempts := s.attempts + 1
    tradeIds := if (s.nodes r).slotTradeId = none then s.tradeIds + 1 else s.tradeIds }

/-- The donor grants a request. -/
def grant (s : Trades ι) (q : TradeRequest ι) (v : DonorView) : Trades ι :=
  let d := s.nodes q.neighbor
  let granted := v.grant d.targetParallelism q.slotsRequested
  { s with
    nodes := Function.update s.nodes q.neighbor (d.grantTrade v q)
    responses := { request := q, answer := .granted granted } :: s.responses
    given :=
      if (s.nodes q.requestingNode).slotTradeId = some q.tradeId then
        Function.update s.given q.requestingNode
          (Function.update (s.given q.requestingNode) q.neighbor
            (some ((s.given q.requestingNode q.neighbor).getD 0 + granted)))
      else s.given }

/-- The requester reads an answer, which settles its trade. -/
def settle (s : Trades ι) (r : ι) (answer : TradeAnswer) : Trades ι :=
  { s with
    nodes := Function.update s.nodes r
      { s.nodes r with
        slotTradeId := none
        attempt := none
        targetParallelism := (s.nodes r).targetParallelism + answer.slots }
    given := Function.update s.given r fun _ => none }

/-- All slots of the nodes. -/
def total [Fintype ι] (s : Trades ι) : ℤ := ∑ i, (s.nodes i).targetParallelism

/-- What has been given to a node under its present trade. -/
def pending [Fintype ι] (s : Trades ι) (r : ι) : ℤ := ∑ d, (s.given r d).getD 0

/-- All slots, with those on their way from a donor to a requester. -/
def worth [Fintype ι] (s : Trades ι) : ℤ := s.total + ∑ r, s.pending r

/-- No trade is under way. -/
def Quiet (s : Trades ι) : Prop := ∀ r, (s.nodes r).slotTradeId = none

instance [Fintype ι] (s : Trades ι) : Decidable s.Quiet :=
  inferInstanceAs (Decidable (∀ r, (s.nodes r).slotTradeId = none))

/-- Every request that was sent and is not forgotten. -/
def sent (s : Trades ι) : List (TradeRequest ι) :=
  s.requests ++ s.locked ++ s.responses.map fun a => a.request

end Trades

section System

variable [DecidableEq ι]

/-- One step. -/
def tradeStep (s : Trades ι) : TradeEvent ι → Option (Trades ι)
  | .attempt r neighbor want =>
    if (s.nodes r).onJob ∧ (s.nodes r).stopped = false ∧ (s.nodes r).attempt = none ∧
        0 < (s.nodes r).targetParallelism ∧ 0 < want ∧ neighbor ≠ r then
      some (s.send r neighbor want)
    else none
  | .attemptFails r => some (s.setNode r { s.nodes r with attempt := none })
  | .arrive i =>
    (takeAt s.requests i).map fun p =>
      match (s.nodes p.1.neighbor).checkTrade p.1 with
      | some answer =>
        { s with requests := p.2, responses := { request := p.1, answer } :: s.responses }
      | none => { s with requests := p.2, locked := p.1 :: s.locked }
  | .grant j v =>
    (takeAt s.locked j).map fun p => ({ s with locked := p.2 } : Trades ι).grant p.1 v
  | .receive i =>
    match s.responses[i]? with
    | none => none
    | some a =>
      if (s.nodes a.request.requestingNode).attempt = some a.request.attempt then
        some (s.settle a.request.requestingNode a.answer)
      else none
  | .stop i => some (s.setNode i { s.nodes i with stopped := true, attempt := none })
  | .endJob i =>
    if (s.nodes i).stopped then some (s.setNode i { s.nodes i with onJob := false })
    else none

/-- The request that a step grants. -/
def Trades.granting (s : Trades ι) : TradeEvent ι → Option (TradeRequest ι)
  | .grant j _ => s.locked[j]?
  | _ => none

/-- The answer that a step reads. -/
def Trades.reading (s : Trades ι) : TradeEvent ι → Option (TradeResponse ι)
  | .receive i => s.responses[i]?
  | _ => none

/-- Trades are settled by the donor that gives: a donor grants a request only under the
requester's present trade and only once, and a requester reads an answer only of a donor
that is alone in having given slots under the trade, and, if it has, answers with a grant. -/
def Settling (s : Trades ι) (a : TradeEvent ι) : Prop :=
  (∀ q ∈ s.granting a, (s.nodes q.requestingNode).slotTradeId = some q.tradeId ∧
    s.given q.requestingNode q.neighbor = none) ∧
  ∀ x ∈ s.reading a, ∀ d, (s.given x.request.requestingNode d).getD 0 ≠ 0 →
    d = x.request.neighbor ∧ x.answer.isGrant = true

instance [Fintype ι] (s : Trades ι) (a : TradeEvent ι) : Decidable (Settling s a) :=
  inferInstanceAs (Decidable (_ ∧ _))

/-- At the start nothing is traded. -/
structure Trades.Fresh (s : Trades ι) : Prop where
  slotTradeId : ∀ r, (s.nodes r).slotTradeId = none
  attempt : ∀ r, (s.nodes r).attempt = none
  slotTradesGranted : ∀ d r, (s.nodes d).slotTradesGranted r = none
  requests : s.requests = []
  locked : s.locked = []
  responses : s.responses = []
  given : ∀ r d, s.given r d = none

/-- The system of trading nodes. -/
def trades (ι : Type*) [DecidableEq ι] : System (Trades ι) (TradeEvent ι) where
  init := Trades.Fresh
  step := tradeStep

end System

/-! ### What a step does -/

section Moves

variable [DecidableEq ι] {s t : Trades ι} {a : TradeEvent ι}

/-- The moves that steps are made of. -/
inductive TradeMove (s : Trades ι) (a : TradeEvent ι) : Trades ι → Prop
  | send {r neighbor : ι} {want : ℤ} (hwant : 0 < want) : TradeMove s a (s.send r neighbor want)
  /-- A node changes in nothing that is traded. -/
  | node {i : ι} {n : TradeNode ι} (htarget : n.targetParallelism = (s.nodes i).targetParallelism)
      (hid : n.slotTradeId = (s.nodes i).slotTradeId)
      (hrecord : n.slotTradesGranted = (s.nodes i).slotTradesGranted)
      (hattempt : ∀ k, n.attempt = some k → (s.nodes i).attempt = some k) :
      TradeMove s a (s.setNode i n)
  | answered {q : TradeRequest ι} {rest : List (TradeRequest ι)} {answer : TradeAnswer}
      (hperm : s.requests.Perm (q :: rest))
      (hcheck : (s.nodes q.neighbor).checkTrade q = some answer) :
      TradeMove s a
        { s with requests := rest, responses := { request := q, answer } :: s.responses }
  | waiting {q : TradeRequest ι} {rest : List (TradeRequest ι)}
      (hperm : s.requests.Perm (q :: rest)) :
      TradeMove s a { s with requests := rest, locked := q :: s.locked }
  | grant {q : TradeRequest ι} {rest : List (TradeRequest ι)} {v : DonorView}
      (hperm : s.locked.Perm (q :: rest)) (hgranting : s.granting a = some q) :
      TradeMove s a (({ s with locked := rest } : Trades ι).grant q v)
  | settle {x : TradeResponse ι} (hresponse : x ∈ s.responses) (hreading : s.reading a = some x)
      (hattempt : (s.nodes x.request.requestingNode).attempt = some x.request.attempt) :
      TradeMove s a (s.settle x.request.requestingNode x.answer)

lemma tradeStep_move (h : tradeStep s a = some t) : TradeMove s a t := by
  cases a with
  | attempt r neighbor want =>
    simp only [tradeStep, Option.ite_none_right_eq_some, Option.some.injEq] at h
    obtain ⟨⟨-, -, -, -, hwant, -⟩, rfl⟩ := h
    exact .send hwant
  | attemptFails r =>
    obtain rfl := Option.some.inj h
    exact .node rfl rfl rfl (by simp)
  | arrive i =>
    obtain ⟨⟨q, rest⟩, htake, rfl⟩ := Option.map_eq_some_iff.1 h
    dsimp only
    split
    · rename_i answer hcheck
      exact .answered (takeAt_perm htake) hcheck
    · exact .waiting (takeAt_perm htake)
  | grant j v =>
    obtain ⟨⟨q, rest⟩, htake, rfl⟩ := Option.map_eq_some_iff.1 h
    exact .grant (takeAt_perm htake) (getElem?_of_takeAt htake)
  | receive i =>
    simp only [tradeStep] at h
    split at h
    · cases h
    · rename_i x hx
      simp only [Option.ite_none_right_eq_some, Option.some.injEq] at h
      obtain ⟨hattempt, rfl⟩ := h
      exact .settle (List.mem_of_getElem? hx) hx hattempt
  | stop i =>
    obtain rfl := Option.some.inj h
    exact .node rfl rfl rfl (by simp)
  | endJob i =>
    simp only [tradeStep, Option.ite_none_right_eq_some, Option.some.injEq] at h
    obtain ⟨-, rfl⟩ := h
    exact .node rfl rfl rfl (fun _ hk => hk)

end Moves

/-! ### The invariant -/

section Grant

variable [DecidableEq ι] (s : Trades ι) (q : TradeRequest ι) (v : DonorView)

/-- A grant adds to what is given under the requester's present trade. -/
lemma Trades.grant_given (r d : ι) :
    (s.grant q v).given r d =
      if (s.nodes q.requestingNode).slotTradeId = some q.tradeId ∧ r = q.requestingNode ∧
          d = q.neighbor then
        some ((s.given q.requestingNode q.neighbor).getD 0 +
          v.grant (s.nodes q.neighbor).targetParallelism q.slotsRequested)
      else s.given r d := by
  simp only [Trades.grant]
  by_cases hcur : (s.nodes q.requestingNode).slotTradeId = some q.tradeId
  · by_cases hr : r = q.requestingNode
    · subst hr
      by_cases hd : d = q.neighbor
      · subst hd
        simp [hcur]
      · simp [hcur, hd]
    · simp [hcur, hr]
  · simp [hcur]

/-- The donor's record of a grant replaces the requester's last one. -/
lemma Trades.grant_record {d r : ι} {t : ℕ} {n : ℤ}
    (h : ((s.grant q v).nodes d).slotTradesGranted r = some (t, n)) :
    (s.nodes d).slotTradesGranted r = some (t, n) ∨
      d = q.neighbor ∧ r = q.requestingNode ∧ t = q.tradeId ∧
        n = v.grant (s.nodes q.neighbor).targetParallelism q.slotsRequested := by
  by_cases hd : d = q.neighbor
  · subst hd
    by_cases hr : r = q.requestingNode
    · subst hr
      right
      simpa [Trades.grant, TradeNode.grantTrade, eq_comm] using h
    · left
      simpa [Trades.grant, TradeNode.grantTrade, hr] using h
  · left
    simpa [Trades.grant, hd] using h

end Grant

/-- The book-keeping of trades.  How an answer compares with what the donor has given under
the trade is left open: `≤` in every run, `=` where trades are settled by their donor. -/
structure Booked (R : ℤ → ℤ → Prop) (s : Trades ι) : Prop where
  /-- Ids in use have been drawn. -/
  idDrawn : ∀ r t, (s.nodes r).slotTradeId = some t → t < s.tradeIds
  sentDrawn : ∀ q ∈ s.sent, q.tradeId < s.tradeIds
  recordDrawn : ∀ d r t n, (s.nodes d).slotTradesGranted r = some (t, n) → t < s.tradeIds
  sentMade : ∀ q ∈ s.sent, q.attempt < s.attempts
  attemptMade : ∀ r k, (s.nodes r).attempt = some k → k < s.attempts
  asked : ∀ q ∈ s.sent, 0 ≤ q.slotsRequested
  /-- An attempt is made under its node's present trade. -/
  current : ∀ r k, (s.nodes r).attempt = some k → ∀ q ∈ s.sent, q.attempt = k →
    (s.nodes r).slotTradeId = some q.tradeId
  /-- Nothing is given outside a trade. -/
  idle : ∀ r, (s.nodes r).slotTradeId = none → ∀ d, s.given r d = none
  nonneg : ∀ r d n, s.given r d = some n → 0 ≤ n
  records : ∀ d r t n, (s.nodes d).slotTradesGranted r = some (t, n) →
    (s.nodes r).slotTradeId = some t → ∃ m, s.given r d = some m ∧ R n m
  answers : ∀ a ∈ s.responses, ∀ n, a.answer = .granted n →
    (s.nodes a.request.requestingNode).slotTradeId = some a.request.tradeId →
    ∃ m, s.given a.request.requestingNode a.request.neighbor = some m ∧ R n m

namespace Booked

variable {R : ℤ → ℤ → Prop} {s : Trades ι}

lemma of_fresh (h : s.Fresh) : Booked R s where
  idDrawn := by simp [h.slotTradeId]
  sentDrawn := by simp [Trades.sent, h.requests, h.locked, h.responses]
  recordDrawn := by simp [h.slotTradesGranted]
  sentMade := by simp [Trades.sent, h.requests, h.locked, h.responses]
  attemptMade := by simp [h.attempt]
  asked := by simp [Trades.sent, h.requests, h.locked, h.responses]
  current := by simp [h.attempt]
  idle r _ d := h.given r d
  nonneg := by simp [h.given]
  records := by simp [h.slotTradesGranted]
  answers := by simp [h.responses]

/-- Nodes may change in all but their trades; an attempt may end. -/
lemma of_nodes (h : Booked R s) {nodes : ι → TradeNode ι}
    (hid : ∀ r, (nodes r).slotTradeId = (s.nodes r).slotTradeId)
    (hrecord : ∀ d, (nodes d).slotTradesGranted = (s.nodes d).slotTradesGranted)
    (hattempt : ∀ r k, (nodes r).attempt = some k → (s.nodes r).attempt = some k) :
    Booked R { s with nodes } where
  idDrawn := by simpa only [hid] using h.idDrawn
  sentDrawn := h.sentDrawn
  recordDrawn := by simpa only [hrecord] using h.recordDrawn
  sentMade := h.sentMade
  attemptMade r k hk := h.attemptMade r k (hattempt r k hk)
  asked := h.asked
  current r k hk q hq := by
    simpa only [hid] using h.current r k (hattempt r k hk) q hq
  idle := by simpa only [hid] using h.idle
  nonneg := h.nonneg
  records := by simpa only [hid, hrecord] using h.records
  answers := by simpa only [hid] using h.answers

variable [DecidableEq ι]

lemma setNode (h : Booked R s) {i : ι} {n : TradeNode ι}
    (hid : n.slotTradeId = (s.nodes i).slotTradeId)
    (hrecord : n.slotTradesGranted = (s.nodes i).slotTradesGranted)
    (hattempt : ∀ k, n.attempt = some k → (s.nodes i).attempt = some k) :
    Booked R (s.setNode i n) := by
  refine h.of_nodes (apply_update_eq _ s.nodes hid) (apply_update_eq _ s.nodes hrecord) ?_
  intro r k hk
  by_cases hr : r = i
  · subst hr
    exact hattempt k (by simpa using hk)
  · rwa [Function.update_of_ne hr] at hk

omit [DecidableEq ι] in
/-- An attempt carries the id of the trade under way, or a fresh one. -/
lemma nextTradeId_cases (s : Trades ι) (r : ι) :
    (s.nodes r).slotTradeId = some (s.nextTradeId r) ∨
      (s.nodes r).slotTradeId = none ∧ s.nextTradeId r = s.tradeIds := by
  unfold Trades.nextTradeId
  cases (s.nodes r).slotTradeId with
  | none => exact .inr ⟨rfl, rfl⟩
  | some t => exact .inl rfl

/-- An attempt is sent. -/
lemma send (h : Booked R s) {r neighbor : ι} {want : ℤ} (hwant : 0 ≤ want) :
    Booked R (s.send r neighbor want) := by
  have hcases := nextTradeId_cases s r
  have hle : s.tradeIds ≤ if (s.nodes r).slotTradeId = none then s.tradeIds + 1 else s.tradeIds := by
    split_ifs <;> omega
  have hdrawn : s.nextTradeId r <
      if (s.nodes r).slotTradeId = none then s.tradeIds + 1 else s.tradeIds := by
    rcases hcases with hid | ⟨hnone, hid⟩
    · simpa [hid] using h.idDrawn r _ hid
    · simp [hnone, hid]
  -- an id already in use at the requester is one that was drawn before
  have hold : ∀ r' t, t < s.tradeIds →
      (Function.update s.nodes r
        { s.nodes r with slotTradeId := some (s.nextTradeId r), attempt := some s.attempts }
        r').slotTradeId = some t → (s.nodes r').slotTradeId = some t := by
    intro r' t ht hid
    by_cases hr : r' = r
    · subst hr
      obtain rfl : s.nextTradeId r' = t := by simpa using hid
      rcases hcases with hsame | ⟨-, hfresh⟩
      · exact hsame
      · omega
    · rwa [Function.update_of_ne hr] at hid
  have hrecords : ∀ d, (Function.update s.nodes r
      { s.nodes r with slotTradeId := some (s.nextTradeId r), attempt := some s.attempts }
      d).slotTradesGranted = (s.nodes d).slotTradesGranted :=
    apply_update_eq _ s.nodes rfl
  have hsent : ∀ q, q ∈ (s.send r neighbor want).sent →
      q = ⟨s.attempts, r, neighbor, want, s.nextTradeId r⟩ ∨ q ∈ s.sent := by
    intro q hq
    simpa [Trades.sent, Trades.send] using hq
  constructor
  case idDrawn =>
    intro r' t hid
    by_cases hr : r' = r
    · subst hr
      obtain rfl : s.nextTradeId r' = t := by simpa [Trades.send] using hid
      exact hdrawn
    · simp only [Trades.send, Function.update_of_ne hr] at hid
      exact (h.idDrawn r' t hid).trans_le hle
  case sentDrawn =>
    intro q hq
    rcases hsent q hq with rfl | hq
    · exact hdrawn
    · exact (h.sentDrawn q hq).trans_le hle
  case recordDrawn =>
    intro d r' t n hrecord
    simp only [Trades.send, hrecords] at hrecord
    exact (h.recordDrawn d r' t n hrecord).trans_le hle
  case sentMade =>
    intro q hq
    rcases hsent q hq with rfl | hq
    · exact Nat.lt_succ_self _
    · exact (h.sentMade q hq).trans (Nat.lt_succ_self _)
  case attemptMade =>
    intro r' k hk
    by_cases hr : r' = r
    · subst hr
      obtain rfl : s.attempts = k := by simpa [Trades.send] using hk
      exact Nat.lt_succ_self _
    · simp only [Trades.send, Function.update_of_ne hr] at hk
      exact (h.attemptMade r' k hk).trans (Nat.lt_succ_self _)
  case asked =>
    intro q hq
    rcases hsent q hq with rfl | hq
    · exact hwant
    · exact h.asked q hq
  case current =>
    intro r' k hk q hq hattempt
    by_cases hr : r' = r
    · subst hr
      obtain rfl : s.attempts = k := by simpa [Trades.send] using hk
      rcases hsent q hq with rfl | hq
      · simp [Trades.send]
      · exact absurd hattempt (h.sentMade q hq).ne
    · simp only [Trades.send, Function.update_of_ne hr] at hk ⊢
      rcases hsent q hq with rfl | hq
      · exact absurd hattempt (h.attemptMade r' k hk).ne'
      · exact h.current r' k hk q hq hattempt
  case idle =>
    intro r' hnone
    by_cases hr : r' = r
    · subst hr
      simp [Trades.send] at hnone
    · simp only [Trades.send, Function.update_of_ne hr] at hnone
      exact h.idle r' hnone
  case nonneg => exact h.nonneg
  case records =>
    intro d r' t n hrecord hid
    simp only [Trades.send, hrecords] at hrecord
    exact h.records d r' t n hrecord (hold r' t (h.recordDrawn d r' t n hrecord) hid)
  case answers =>
    intro a ha n hanswer hid
    have hmem : a.request ∈ s.sent := by
      simp only [Trades.sent, List.mem_append, List.mem_map]
      exact .inr ⟨a, ha, rfl⟩
    exact h.answers a ha n hanswer (hold _ _ (h.sentDrawn _ hmem) hid)

omit [DecidableEq ι] in
/-- Messages move, and answers from the record join them. -/
lemma of_messages (h : Booked R s) {requests locked : List (TradeRequest ι)}
    {responses : List (TradeResponse ι)}
    (hsent : ∀ q ∈ requests ++ locked ++ responses.map (fun a => a.request), q ∈ s.sent)
    (hanswers : ∀ a ∈ responses, ∀ n, a.answer = .granted n →
      a ∈ s.responses ∨
        (s.nodes a.request.neighbor).slotTradesGranted a.request.requestingNode =
          some (a.request.tradeId, n)) :
    Booked R { s with requests, locked, responses } where
  idDrawn := h.idDrawn
  sentDrawn q hq := h.sentDrawn q (hsent q hq)
  recordDrawn := h.recordDrawn
  sentMade q hq := h.sentMade q (hsent q hq)
  attemptMade := h.attemptMade
  asked q hq := h.asked q (hsent q hq)
  current r k hk q hq := h.current r k hk q (hsent q hq)
  idle := h.idle
  nonneg := h.nonneg
  records := h.records
  answers a ha n hanswer hid := by
    rcases hanswers a ha n hanswer with hold | hrecord
    · exact h.answers a hold n hanswer hid
    · exact h.records _ _ _ _ hrecord hid

/-- A donor grants a request. -/
lemma grant (h : Booked R s) {q : TradeRequest ι} (hq : q ∈ s.sent) {v : DonorView}
    (hR : (s.nodes q.requestingNode).slotTradeId = some q.tradeId →
      R (v.grant (s.nodes q.neighbor).targetParallelism q.slotsRequested)
          ((s.given q.requestingNode q.neighbor).getD 0 +
            v.grant (s.nodes q.neighbor).targetParallelism q.slotsRequested) ∧
        ∀ n m, s.given q.requestingNode q.neighbor = some m → R n m →
          R n (m + v.grant (s.nodes q.neighbor).targetParallelism q.slotsRequested)) :
    Booked R (s.grant q v) := by
  have hgranted := v.grant_nonneg (s.nodes q.neighbor).targetParallelism (h.asked q hq)
  generalize hg : v.grant (s.nodes q.neighbor).targetParallelism q.slotsRequested = g
    at hR hgranted
  have hid : ∀ r, ((s.grant q v).nodes r).slotTradeId = (s.nodes r).slotTradeId :=
    apply_update_eq _ s.nodes rfl
  have hattempt : ∀ r, ((s.grant q v).nodes r).attempt = (s.nodes r).attempt :=
    apply_update_eq _ s.nodes rfl
  have hsent : ∀ q' ∈ (s.grant q v).sent, q' ∈ s.sent := by
    intro q' hq'
    simp only [Trades.sent, Trades.grant, List.map_cons, List.mem_append, List.mem_cons] at hq' ⊢
    rcases hq' with hq' | rfl | hq'
    · exact .inl hq'
    · simpa [Trades.sent, or_assoc] using hq
    · exact .inr hq'
  -- what is given under a trade at hand only grows, and only where the grant is made
  have hkeep : ∀ r d n m, s.given r d = some m → R n m →
      ∃ m', (s.grant q v).given r d = some m' ∧ R n m' := by
    intro r d n m hm hn
    rw [s.grant_given q v r d, hg]
    split_ifs with hhere
    · obtain ⟨hcur, rfl, rfl⟩ := hhere
      refine ⟨_, rfl, ?_⟩
      simpa [hm] using (hR hcur).2 n m hm hn
    · exact ⟨m, hm, hn⟩
  have hnew : (s.nodes q.requestingNode).slotTradeId = some q.tradeId →
      ∃ m, (s.grant q v).given q.requestingNode q.neighbor = some m ∧ R g m := by
    intro hcur
    rw [s.grant_given q v, hg, if_pos ⟨hcur, rfl, rfl⟩]
    exact ⟨_, rfl, (hR hcur).1⟩
  constructor
  case idDrawn => exact fun r t ht => h.idDrawn r t (hid r ▸ ht)
  case sentDrawn => exact fun q' hq' => h.sentDrawn q' (hsent q' hq')
  case recordDrawn =>
    intro d r t n hrecord
    rcases s.grant_record q v hrecord with hold | ⟨-, -, rfl, -⟩
    · exact h.recordDrawn d r t n hold
    · exact h.sentDrawn q hq
  case sentMade => exact fun q' hq' => h.sentMade q' (hsent q' hq')
  case attemptMade => exact fun r k hk => h.attemptMade r k (hattempt r ▸ hk)
  case asked => exact fun q' hq' => h.asked q' (hsent q' hq')
  case current =>
    intro r k hk q' hq'
    rw [hattempt] at hk
    rw [hid]
    exact h.current r k hk q' (hsent q' hq')
  case idle =>
    intro r hnone d
    rw [hid] at hnone
    rw [s.grant_given q v r d, if_neg]
    · exact h.idle r hnone d
    · rintro ⟨hcur, rfl, -⟩
      simp [hnone] at hcur
  case nonneg =>
    intro r d n hn
    rw [s.grant_given q v r d, hg] at hn
    split_ifs at hn with hhere
    · obtain rfl := Option.some.inj hn
      cases hold : s.given q.requestingNode q.neighbor with
      | none => simpa using hgranted
      | some m =>
        have := h.nonneg _ _ _ hold
        simp only [Option.getD_some]
        omega
    · exact h.nonneg r d n hn
  case records =>
    intro d r t n hrecord hcur
    rw [hid] at hcur
    rcases s.grant_record q v hrecord with hold | ⟨rfl, rfl, rfl, hn⟩
    · obtain ⟨m, hm, hRm⟩ := h.records d r t n hold hcur
      exact hkeep r d n m hm hRm
    · rw [hn, hg]
      exact hnew hcur
  case answers =>
    intro a ha n hanswer hcur
    rw [hid] at hcur
    rcases List.mem_cons.1 ha with rfl | ha
    · obtain rfl : g = n := by simpa [hg] using hanswer
      exact hnew hcur
    · obtain ⟨m, hm, hRm⟩ := h.answers a ha n hanswer hcur
      exact hkeep _ _ n m hm hRm

/-- An answer is read, which settles the trade. -/
lemma settle (h : Booked R s) (r : ι) (answer : TradeAnswer) :
    Booked R (s.settle r answer) := by
  have hrecords : ∀ d, ((s.settle r answer).nodes d).slotTradesGranted =
      (s.nodes d).slotTradesGranted :=
    apply_update_eq _ s.nodes rfl
  have hself : ((s.settle r answer).nodes r).slotTradeId = none := by
    simp [Trades.settle]
  have hother : ∀ r' ≠ r, (s.settle r answer).nodes r' = s.nodes r' := fun r' hr =>
    Function.update_of_ne hr _ _
  have hgiven : ∀ r' ≠ r, (s.settle r answer).given r' = s.given r' := fun r' hr =>
    Function.update_of_ne hr _ _
  -- a trade under way is another node's
  have hne : ∀ r' t, ((s.settle r answer).nodes r').slotTradeId = some t → r' ≠ r := by
    rintro r' t ht rfl
    simp [hself] at ht
  constructor
  case idDrawn =>
    intro r' t ht
    rw [hother r' (hne r' t ht)] at ht
    exact h.idDrawn r' t ht
  case sentDrawn => exact h.sentDrawn
  case recordDrawn =>
    intro d r' t n hrecord
    rw [hrecords] at hrecord
    exact h.recordDrawn d r' t n hrecord
  case sentMade => exact h.sentMade
  case attemptMade =>
    intro r' k hk
    by_cases hr : r' = r
    · subst hr
      simp [Trades.settle] at hk
    · rw [hother r' hr] at hk
      exact h.attemptMade r' k hk
  case asked => exact h.asked
  case current =>
    intro r' k hk q hq hattempt
    by_cases hr : r' = r
    · subst hr
      simp [Trades.settle] at hk
    · rw [hother r' hr] at hk ⊢
      exact h.current r' k hk q hq hattempt
  case idle =>
    intro r' hnone d
    by_cases hr : r' = r
    · subst hr
      simp [Trades.settle]
    · rw [hother r' hr] at hnone
      rw [hgiven r' hr]
      exact h.idle r' hnone d
  case nonneg =>
    intro r' d n hn
    by_cases hr : r' = r
    · subst hr
      simp [Trades.settle] at hn
    · rw [hgiven r' hr] at hn
      exact h.nonneg r' d n hn
  case records =>
    intro d r' t n hrecord ht
    have hr := hne r' t ht
    rw [hrecords] at hrecord
    rw [hother r' hr] at ht
    rw [hgiven r' hr]
    exact h.records d r' t n hrecord ht
  case answers =>
    intro a ha n hanswer ht
    have hr := hne _ _ ht
    rw [hother _ hr] at ht
    rw [hgiven _ hr]
    exact h.answers a ha n hanswer ht

/-- Every move keeps the books, if `R` allows what a grant adds under a trade at hand. -/
lemma move (h : Booked R s) {a : TradeEvent ι} {t : Trades ι} (hmove : TradeMove s a t)
    (hR : ∀ q ∈ s.granting a, (s.nodes q.requestingNode).slotTradeId = some q.tradeId →
      ∀ g, 0 ≤ g → R g ((s.given q.requestingNode q.neighbor).getD 0 + g) ∧
        ∀ n m, s.given q.requestingNode q.neighbor = some m → R n m → R n (m + g)) :
    Booked R t := by
  cases hmove with
  | send hwant => exact h.send hwant.le
  | node htarget hid hrecord hattempt => exact h.setNode hid hrecord hattempt
  | @answered q rest answer hperm hcheck =>
    refine h.of_messages ?_ ?_
    · intro q' hq'
      have hiff := hperm.mem_iff (a := q')
      simp only [Trades.sent, List.map_cons, List.mem_append, List.mem_cons] at hiff hq' ⊢
      tauto
    · intro a ha n hanswer
      rcases List.mem_cons.1 ha with rfl | ha
      · obtain rfl : answer = .granted n := hanswer
        exact .inr (TradeNode.record_of_checkTrade hcheck)
      · exact .inl ha
  | @waiting q rest hperm =>
    refine h.of_messages ?_ fun a ha _ _ => .inl ha
    intro q' hq'
    have hiff := hperm.mem_iff (a := q')
    simp only [Trades.sent, List.mem_append, List.mem_cons] at hiff hq' ⊢
    tauto
  | @grant q rest v hperm hgranting =>
    have hlocked : q ∈ s.locked := hperm.symm.subset List.mem_cons_self
    have hmem : q ∈ s.sent := by simp [Trades.sent, hlocked]
    have hgrant : Booked R (s.grant q v) := by
      refine h.grant hmem fun hcur => ?_
      exact hR q hgranting hcur _ (v.grant_nonneg _ (h.asked q hmem))
    refine hgrant.of_messages ?_ fun a ha _ _ => .inl ha
    intro q' hq'
    have hiff := hperm.mem_iff (a := q')
    simp only [Trades.sent, Trades.grant, List.map_cons, List.mem_append, List.mem_cons]
      at hiff hq' ⊢
    tauto
  | settle hresponse hreading hattempt => exact h.settle _ _

end Booked

/-! ### What the slots are worth -/

section Worth

variable [DecidableEq ι] [Fintype ι] {R : ℤ → ℤ → Prop} {s : Trades ι}

lemma Trades.total_update (s : Trades ι) (i : ι) (n : TradeNode ι) :
    ∑ j, (Function.update s.nodes i n j).targetParallelism =
      s.total + (n.targetParallelism - (s.nodes i).targetParallelism) :=
  sum_update (fun _ n => n.targetParallelism) s.nodes i n

lemma Trades.worth_send (s : Trades ι) (r neighbor : ι) (want : ℤ) :
    (s.send r neighbor want).worth = s.worth := by
  simp only [Trades.worth, Trades.total, Trades.send, s.total_update]
  simp [Trades.pending]

/-- What is given to one requester changes. -/
lemma sum_pending_update (given : ι → ι → Option ℤ) (r : ι) (row : ι → Option ℤ) :
    ∑ r', ∑ d, (Function.update given r row r' d).getD 0 =
      ∑ r', ∑ d, (given r' d).getD 0 + (∑ d, (row d).getD 0 - ∑ d, (given r d).getD 0) :=
  sum_update (fun _ row => ∑ d, (row d).getD 0) given r row

/-- A grant moves slots from the donor to what is given, unless the trade is past. -/
lemma Trades.worth_grant (s : Trades ι) (q : TradeRequest ι) (v : DonorView) :
    (s.grant q v).worth = s.worth -
      if (s.nodes q.requestingNode).slotTradeId = some q.tradeId then 0
      else v.grant (s.nodes q.neighbor).targetParallelism q.slotsRequested := by
  have htotal : (s.grant q v).total =
      s.total - v.grant (s.nodes q.neighbor).targetParallelism q.slotsRequested := by
    simp only [Trades.total, Trades.grant, s.total_update, TradeNode.grantTrade]
    omega
  simp only [Trades.worth, htotal, Trades.pending]
  by_cases hcur : (s.nodes q.requestingNode).slotTradeId = some q.tradeId
  · have hrow := sum_update (fun _ x => Option.getD x 0) (s.given q.requestingNode) q.neighbor
      (some ((s.given q.requestingNode q.neighbor).getD 0 +
        v.grant (s.nodes q.neighbor).targetParallelism q.slotsRequested))
    simp only [Trades.grant, hcur, if_true, sum_pending_update, hrow, Option.getD_some]
    omega
  · simp only [Trades.grant, hcur, if_false]
    omega

/-- Reading an answer puts its slots in the place of all that was given. -/
lemma Trades.worth_settle (s : Trades ι) (r : ι) (answer : TradeAnswer) :
    (s.settle r answer).worth = s.worth + (answer.slots - s.pending r) := by
  have htotal : (s.settle r answer).total = s.total + answer.slots := by
    simp only [Trades.total, Trades.settle, s.total_update]
    omega
  rw [Trades.worth, htotal]
  simp only [Trades.worth, Trades.pending, Trades.settle, sum_pending_update, Option.getD_none,
    Finset.sum_const_zero]
  omega

/-- A node that changes in nothing that is traded keeps its slots. -/
lemma Trades.worth_setNode (s : Trades ι) (i : ι) (n : TradeNode ι) :
    (s.setNode i n).worth =
      s.worth + (n.targetParallelism - (s.nodes i).targetParallelism) := by
  simp only [Trades.worth, Trades.total, Trades.setNode, s.total_update, Trades.pending]
  omega

omit [DecidableEq ι] [Fintype ι] in
lemma Booked.given_nonneg (h : Booked R s) (r d : ι) : 0 ≤ (s.given r d).getD 0 := by
  cases hd : s.given r d with
  | none => exact le_rfl
  | some n => exact h.nonneg r d n hd

omit [DecidableEq ι] in
lemma Booked.pending_nonneg (h : Booked R s) (r : ι) : 0 ≤ s.pending r :=
  Finset.sum_nonneg fun d _ => h.given_nonneg r d

omit [DecidableEq ι] [Fintype ι] in
/-- The answer an attempt waits for, if it is a grant, is within what its donor has given. -/
lemma Booked.answer (h : Booked R s) {x : TradeResponse ι} (hx : x ∈ s.responses)
    (hattempt : (s.nodes x.request.requestingNode).attempt = some x.request.attempt) {n : ℤ}
    (hn : x.answer = .granted n) :
    ∃ m, s.given x.request.requestingNode x.request.neighbor = some m ∧ R n m := by
  have hmem : x.request ∈ s.sent := by
    simp only [Trades.sent, List.mem_append, List.mem_map]
    exact .inr ⟨x, hx, rfl⟩
  exact h.answers x hx n hn (h.current _ _ hattempt _ hmem rfl)

/-- No move raises what the slots are worth. -/
lemma Booked.worth_le (h : Booked (· ≤ ·) s) {a : TradeEvent ι} {t : Trades ι}
    (hmove : TradeMove s a t) : Booked (· ≤ ·) t ∧ t.worth ≤ s.worth := by
  refine ⟨h.move hmove ?_, ?_⟩
  · intro q _ _ g hg
    have := h.given_nonneg q.requestingNode q.neighbor
    exact ⟨by omega, fun n m _ hnm => by omega⟩
  · cases hmove with
    | send hwant => exact (s.worth_send _ _ _).le
    | node htarget => simp [s.worth_setNode, htarget]
    | answered => exact le_rfl
    | waiting => exact le_rfl
    | @grant q rest v hperm =>
      show (s.grant q v).worth ≤ s.worth
      have hmem : q ∈ s.sent := by
        simp [Trades.sent, show q ∈ s.locked from hperm.symm.subset List.mem_cons_self]
      have := v.grant_nonneg (s.nodes q.neighbor).targetParallelism (h.asked q hmem)
      rw [s.worth_grant]
      split_ifs <;> omega
    | @settle x hresponse hreading hattempt =>
      have hpending := h.pending_nonneg x.request.requestingNode
      rw [s.worth_settle]
      rcases hanswer : x.answer with _ | _ | n
      · simpa [TradeAnswer.slots] using hpending
      · simpa [TradeAnswer.slots] using hpending
      · obtain ⟨m, hm, hle⟩ := h.answer hresponse hattempt hanswer
        have hshare := Finset.single_le_sum (fun d _ => h.given_nonneg x.request.requestingNode d)
          (Finset.mem_univ x.request.neighbor)
        simp only [hm, Option.getD_some] at hshare
        simp only [TradeAnswer.slots, Trades.pending]
        omega

/-- Where trades are settled by the donor that gives, moves keep what the slots are
worth. -/
lemma Booked.worth_eq (h : Booked (· = ·) s) {a : TradeEvent ι} {t : Trades ι}
    (hmove : TradeMove s a t) (hsettling : Settling s a) :
    Booked (· = ·) t ∧ t.worth = s.worth := by
  obtain ⟨hgrants, hanswers⟩ := hsettling
  refine ⟨h.move hmove ?_, ?_⟩
  · intro q hq _ g _
    have hnone := (hgrants q hq).2
    simp [hnone]
  · cases hmove with
    | send hwant => exact s.worth_send _ _ _
    | node htarget => simp [s.worth_setNode, htarget]
    | answered => rfl
    | waiting => rfl
    | @grant q rest v hperm hgranting =>
      show (s.grant q v).worth = s.worth
      rw [s.worth_grant, if_pos (hgrants q hgranting).1, sub_zero]
    | @settle x hresponse hreading hattempt =>
      have hothers := hanswers x hreading
      -- only the donor that answers has given anything
      have hpending : s.pending x.request.requestingNode =
          (s.given x.request.requestingNode x.request.neighbor).getD 0 := by
        refine Finset.sum_eq_single _ ?_ (by simp)
        intro d _ hd
        by_contra hne
        exact hd (hothers d hne).1
      have hslots : x.answer.slots =
          (s.given x.request.requestingNode x.request.neighbor).getD 0 := by
        rcases hanswer : x.answer with _ | _ | n
        · by_contra hne
          simpa [hanswer, TradeAnswer.isGrant] using (hothers _ (Ne.symm hne)).2
        · by_contra hne
          simpa [hanswer, TradeAnswer.isGrant] using (hothers _ (Ne.symm hne)).2
        · obtain ⟨m, hm, rfl⟩ := h.answer hresponse hattempt hanswer
          simp [hm, TradeAnswer.slots]
      rw [s.worth_settle, hslots, hpending]
      omega

omit [DecidableEq ι] in
/-- With no trade under way, slots are where the nodes have them. -/
lemma Booked.worth_quiet (h : Booked R s) (hquiet : s.Quiet) : s.worth = s.total := by
  simp [Trades.worth, Trades.pending, h.idle _ (hquiet _)]

end Worth

/-! ### Main result -/

section Main

variable [DecidableEq ι] [Fintype ι] {s t : Trades ι} {as : List (TradeEvent ι)}

lemma booked_run (h : Booked (· = ·) s) (hrun : (trades ι).Run Settling s as t) :
    Booked (· = ·) t ∧ t.worth = s.worth :=
  System.Preserved.run (P := fun t => Booked (· = ·) t ∧ t.worth = s.worth)
    (fun _ _ _ ht hok hstep =>
      (ht.1.worth_eq (tradeStep_move hstep) hok).imp_right fun he => he.trans ht.2)
    ⟨h, rfl⟩ hrun

/-- **Trades conserve slots** as long as each is settled by the donor that gives: between
any two moments with no trade under way the nodes have the same slots together.  Where a
single node asks, these are the moments at which its `slot_trade_id` is not set. -/
theorem trades_conserve_slots {s₀ : Trades ι} {before : List (TradeEvent ι)}
    (hfresh : s₀.Fresh) (hbefore : (trades ι).Run Settling s₀ before s)
    (hrun : (trades ι).Run Settling s as t) (hs : s.Quiet) (ht : t.Quiet) :
    t.total = s.total := by
  obtain ⟨hbooked, -⟩ := booked_run (Booked.of_fresh hfresh) hbefore
  obtain ⟨hbooked', hworth⟩ := booked_run hbooked hrun
  calc t.total = t.worth := (hbooked'.worth_quiet ht).symm
    _ = s.worth := hworth
    _ = s.total := hbooked.worth_quiet hs

end Main

/-! ### Two runs -/

/-- Three nodes on a job: one slot at the first one, four at each of the others. -/
def threeNodes : Trades (Fin 3) where
  nodes i :=
    { onJob := true
      stopped := false
      targetParallelism := if i = 0 then 1 else 4
      slotTradeId := none
      attempt := none
      slotTradesGranted := fun _ => none }
  requests := []
  locked := []
  responses := []
  attempts := 0
  tradeIds := 0
  given := fun _ _ => none

lemma fresh_threeNodes : threeNodes.Fresh where
  slotTradeId _ := rfl
  attempt _ := rfl
  slotTradesGranted _ _ := rfl
  requests := rfl
  locked := rfl
  responses := rfl
  given _ _ := rfl

/-- A node ten seconds after it lost two of its four workers to pressure. -/
def pressured : DonorView where
  now := 10
  lastPressureRetirementAt := 0
  replacementRequestId := none
  workers :=
    [⟨false, false, true⟩, ⟨false, false, true⟩, ⟨true, true, false⟩, ⟨true, true, false⟩]
  queuedInputs := 5
  allInputsUploaded := true
  jobAssignedAt := 0

/-- The same node a minute later. -/
def recovered : DonorView := { pressured with now := 70 }

/-- The response to the first attempt is lost, and the second one goes to `neighbor`. -/
def afterRetry (neighbor : Fin 3) : List (TradeEvent (Fin 3)) :=
  [.attempt 0 1 2, .arrive 0, .grant 0 pressured, .attemptFails 0, .attempt 0 neighbor 2,
    .arrive 0]

/-- The retry goes to the same donor, which replays its grant. -/
def replayedTrade : Trades (Fin 3) :=
  (((trades (Fin 3)).guarded Settling).exec threeNodes (afterRetry 1 ++ [.receive 0])).get
    (by decide +kernel)

theorem trades_conserve_slots_replayed :
    replayedTrade.total = threeNodes.total ∧
      (replayedTrade.nodes 0).targetParallelism = 3 := by
  have hrun : (trades (Fin 3)).Run Settling threeNodes (afterRetry 1 ++ [.receive 0])
      replayedTrade :=
    System.run_of_exec_guarded (Option.some_get _).symm
  refine ⟨?_, by decide +kernel⟩
  exact trades_conserve_slots fresh_threeNodes .nil hrun (fun _ => rfl) (by decide +kernel)

/-- The ring has changed, and the retry goes to another donor. -/
def movedTrade : Trades (Fin 3) :=
  (((trades (Fin 3)).guarded System.always).exec threeNodes
    (afterRetry 2 ++ [.grant 0 recovered, .receive 0])).get (by decide +kernel)

theorem trade_loses_slots :
    ¬ ∀ (s₀ s t : Trades (Fin 3)) (before as : List (TradeEvent (Fin 3))),
      s₀.Fresh → (trades (Fin 3)).Run System.always s₀ before s →
      (trades (Fin 3)).Run System.always s as t → s.Quiet → t.Quiet → t.total = s.total := by
  intro h
  have hrun : (trades (Fin 3)).Run System.always threeNodes
      (afterRetry 2 ++ [.grant 0 recovered, .receive 0]) movedTrade :=
    System.run_of_exec_guarded (Option.some_get _).symm
  have hsame := h _ _ _ _ _ fresh_threeNodes .nil hrun (fun _ => rfl) (by decide +kernel)
  revert hsame
  decide +kernel

end Burla.Slots
