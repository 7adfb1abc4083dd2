/-
Requests for slots that carry one trade id, on the donor (`trade_slots` in job_endpoints.py).

A requester whose request timed out sends it again with the id of the same trade, and the donor may
be handling the first one still.  A request looks for a record of its trade before it waits for
`dynamic_retire_lock`; the record is written, and the target lowered, when the idle workers that are
given up have been retired one after another under the lock.

The main result is `Burla.Slots.granted_once`: when no request is checked while another one of its
trade is between the two, and none after the trade's record was replaced or the watcher stopped, all
the requests of a trade are answered with what the target was lowered by for it.
-/
import Burla.Lib.System
import Burla.Lib.Updates
import Burla.Slots.Target

namespace Burla.Slots

variable {ι : Type*}

/-- How far the handler of a request is. -/
inductive HandlerStage
  /-- For the lock. -/
  | waiting
  /-- Under the lock: what it grants, and the idle workers that are yet to be retired. -/
  | retiring (slots : ℤ) (toRetire : List ℕ)
  /-- The grant is on record, and `slots_traded` is being logged. -/
  | recorded (slots : ℤ)
  | answered (answer : TradeAnswer)
  /-- It has raised, or has been cancelled: a 500. -/
  | failed
  deriving DecidableEq

/-- The handler has been let through to the grant and has not put it on record. -/
def HandlerStage.Pending : HandlerStage → Prop
  | .waiting | .retiring _ _ => True
  | _ => False

instance : (stage : HandlerStage) → Decidable stage.Pending
  | .waiting | .retiring _ _ => .isTrue trivial
  | .recorded _ | .answered _ | .failed => .isFalse id

/-- A trade: who asks, and its id. -/
def TradeRequest.trade (q : TradeRequest ι) : ι × ℕ := (q.requestingNode, q.tradeId)

structure Handler (ι : Type*) where
  request : TradeRequest ι
  stage : HandlerStage
  deriving DecidableEq

/-- A node that is asked for slots. -/
structure Donor (ι : Type*) where
  node : TradeNode ι
  workers : List TradeWorker
  /-- The handlers, by the order of their requests' arrival. -/
  handlers : ℕ → Option (Handler ι)
  /-- Who has `dynamic_retire_lock` of them. -/
  holder : Option ℕ
  /-- What the target was lowered by, and for which trade. -/
  lowered : List ((ι × ℕ) × ℤ)

inductive DonorEvent (ι : Type*)
  /-- A request arrives, and is checked. -/
  | arrive (k : ℕ) (q : TradeRequest ι)
  /-- A handler gets the lock and computes its grant. -/
  | lock (k : ℕ) (view : DonorView)
  /-- The next idle worker has been retired. -/
  | retire
  /-- The target is lowered and the grant put on record. -/
  | record
  | answer (k : ℕ)
  | fail (k : ℕ)
  /-- The node's slots and workers change in another way. -/
  | other (targetParallelism : ℤ) (workers : List TradeWorker)
  /-- `job_watcher_stop_event` is set. -/
  | stop
  /-- The node leaves the job. -/
  | leave

namespace Donor

variable [DecidableEq ι] (s : Donor ι)

def setHandler (k : ℕ) (h : Handler ι) : Donor ι :=
  { s with handlers := Function.update s.handlers k (some h) }

def step : DonorEvent ι → Option (Donor ι)
  | .arrive k q =>
    if s.handlers k = none then
      some (s.setHandler k
        { request := q, stage := ((s.node.checkTrade q).map .answered).getD .waiting })
    else none
  | .lock k view =>
    match s.handlers k with
    | some { request := q, stage := .waiting } =>
      if s.holder = none ∧ view.workers = s.workers then
        some { s.setHandler k
            { request := q
              stage := .retiring (view.grant s.node.targetParallelism q.slotsRequested)
                (view.idleToGive s.node.targetParallelism q.slotsRequested) } with
          holder := some k }
      else none
    | _ => none
  | .retire =>
    s.holder.bind fun k =>
      match s.handlers k with
      | some { request := q, stage := .retiring slots (i :: toRetire) } =>
        some { s.setHandler k { request := q, stage := .retiring slots toRetire } with
          workers := s.workers.modify i fun w => { w with retired := true } }
      | _ => none
  | .record =>
    s.holder.bind fun k =>
      match s.handlers k with
      | some { request := q, stage := .retiring slots [] } =>
        some { s.setHandler k { request := q, stage := .recorded slots } with
          node :=
            { s.node with
              targetParallelism := s.node.targetParallelism - slots
              slotTradesGranted := Function.update s.node.slotTradesGranted q.requestingNode
                (some (q.tradeId, slots)) }
          holder := none
          lowered := s.lowered ++ [(q.trade, slots)] }
      | _ => none
  | .answer k =>
    match s.handlers k with
    | some { request := q, stage := .recorded slots } =>
      some (s.setHandler k { request := q, stage := .answered (.granted slots) })
    | _ => none
  | .fail k =>
    match s.handlers k with
    | some { request := _, stage := .answered _ } | none => none
    | some { request := q, stage := _ } =>
      some { s.setHandler k { request := q, stage := .failed } with
        holder := if s.holder = some k then none else s.holder }
  | .other targetParallelism workers =>
    some { s with node := { s.node with targetParallelism := targetParallelism }, workers := workers }
  | .stop => some { s with node := { s.node with stopped := true } }
  | .leave => some { s with node := { s.node with onJob := false } }

/-- A node that has just been assigned. -/
def new (targetParallelism : ℤ) (workers : List TradeWorker) : Donor ι where
  node :=
    { onJob := true
      stopped := false
      targetParallelism := targetParallelism
      slotTradeId := none
      attempt := none
      slotTradesGranted := fun _ => none }
  workers := workers
  handlers _ := none
  holder := none
  lowered := []

/-! ### The claim and the condition -/

/-- By how much the target was lowered for a trade. -/
def loweredFor (t : ι × ℕ) : ℤ :=
  (s.lowered.filter fun e => e.1 = t).foldr (fun e n => e.2 + n) 0

/-- `slots_granted` of a response that has any. -/
def slotsGranted : TradeAnswer → Option ℤ
  | .notFound => none
  | .stopped => some 0
  | .granted slots => some slots

/-- The target was lowered for each trade by what every one of its requests is answered with. -/
def GrantedOnce : Prop :=
  ∀ k q answer slots, s.handlers k = some { request := q, stage := .answered answer } →
    slotsGranted answer = some slots → s.loweredFor q.trade = slots

/-- When a request is checked, no other one of its trade is on its way to a grant; and if its trade
has been granted, that is on record still and the watcher has not stopped. -/
def Spaced : DonorEvent ι → Prop
  | .arrive _ q => s.node.onJob = true →
    (∀ k h, s.handlers k = some h → h.request.trade = q.trade → ¬h.stage.Pending) ∧
    (q.trade ∈ s.lowered.map Prod.fst → s.node.stopped = false ∧
      (s.node.slotTradesGranted q.requestingNode).map Prod.fst = some q.tradeId)
  | _ => True

end Donor

/-- A donor on a job. -/
def donorSystem [DecidableEq ι] : System (Donor ι) (DonorEvent ι) where
  init s := ∃ targetParallelism workers, s = Donor.new targetParallelism workers
  step := Donor.step

/-! ### What is kept -/

namespace Donor

variable [DecidableEq ι] {s t : Donor ι} {k : ℕ} {q : TradeRequest ι} {h : Handler ι}

omit [DecidableEq ι] in
lemma handlers_setHandler (j : ℕ) :
    (s.setHandler k h).handlers j = if j = k then some h else s.handlers j := by
  simp only [setHandler, Function.update_apply]

lemma loweredFor_append {t u : ι × ℕ} {n : ℤ} {l : List ((ι × ℕ) × ℤ)} (hl : s.lowered = l) :
    ({ s with lowered := l ++ [(t, n)] } : Donor ι).loweredFor u =
      s.loweredFor u + if t = u then n else 0 := by
  subst hl
  simp only [loweredFor, List.filter_append]
  induction s.lowered.filter (fun e => e.1 = u) with
  | nil => by_cases htu : t = u <;> simp [htu]
  | cons e l ih =>
    simp only [List.cons_append, List.foldr_cons, ih]
    exact (Int.add_assoc _ _ _).symm

/-- A trade for which the target was never lowered. -/
lemma loweredFor_eq_zero {t : ι × ℕ} (ht : t ∉ s.lowered.map Prod.fst) : s.loweredFor t = 0 := by
  have hnil : (s.lowered.filter fun e => e.1 = t) = [] := by
    rw [List.filter_eq_nil_iff]
    intro e he heq
    exact ht (List.mem_map.2 ⟨e, he, by simpa using heq⟩)
  rw [loweredFor, hnil]
  rfl

/-- No trade is granted twice, and what is on record or answered is what was granted. -/
structure Settled (s : Donor ι) : Prop where
  /-- One handler of a trade at most is on its way to a grant. -/
  alone : ∀ j k g h, s.handlers j = some g → s.handlers k = some h →
    g.request.trade = h.request.trade → g.stage.Pending → h.stage.Pending → j = k
  untraded : ∀ k h, s.handlers k = some h → h.stage.Pending →
    h.request.trade ∉ s.lowered.map Prod.fst
  record : ∀ n id slots, s.node.slotTradesGranted n = some (id, slots) →
    (n, id) ∈ s.lowered.map Prod.fst ∧ s.loweredFor (n, id) = slots
  granted : ∀ k h slots, s.handlers k = some h →
    h.stage = .recorded slots ∨ h.stage = .answered (.granted slots) →
    h.request.trade ∈ s.lowered.map Prod.fst ∧ s.loweredFor h.request.trade = slots
  /-- A trade that was answered with no slots by a node whose watcher has stopped is over. -/
  stopped : ∀ k h, s.handlers k = some h → h.stage = .answered .stopped →
    s.node.stopped = true ∧ h.request.trade ∉ s.lowered.map Prod.fst ∧
      ∀ j g, s.handlers j = some g → g.request.trade = h.request.trade → ¬g.stage.Pending

lemma settled_new {targetParallelism : ℤ} {workers : List TradeWorker} :
    Settled (new targetParallelism workers : Donor ι) where
  alone := nofun
  untraded := nofun
  record := nofun
  granted := nofun
  stopped := nofun

namespace Settled

/-- A handler goes on, without a new grant. -/
lemma restage (hs : Settled s) {stage : HandlerStage} (stage' : HandlerStage)
    (hk : s.handlers k = some { request := q, stage := stage })
    (hpending : stage'.Pending → stage.Pending)
    (hgranted : ∀ slots, stage' = .recorded slots ∨ stage' = .answered (.granted slots) →
      stage = .recorded slots)
    (hstopped : stage' ≠ .answered .stopped) :
    Settled (s.setHandler k { request := q, stage := stage' }) where
  alone i j g h hi hj htrade hg hh := by
    rw [handlers_setHandler] at hi hj
    -- Who is on the way now was so before, with the same trade.
    have hbefore : ∀ {i : ℕ} {g : Handler ι},
        (if i = k then some { request := q, stage := stage' } else s.handlers i) = some g →
        g.stage.Pending → ∃ g', s.handlers i = some g' ∧ g'.request = g.request ∧
          g'.stage.Pending := by
      intro i g hi hg
      split_ifs at hi with hik
      · obtain rfl := Option.some.inj hi
        exact ⟨{ request := q, stage := stage }, hik ▸ hk, rfl, hpending hg⟩
      · exact ⟨g, hi, rfl, hg⟩
    obtain ⟨g', hi', hgr, hg'⟩ := hbefore hi hg
    obtain ⟨h', hj', hhr, hh'⟩ := hbefore hj hh
    exact hs.alone i j g' h' hi' hj' (by rw [hgr, hhr, htrade]) hg' hh'
  untraded j h hj hh := by
    rw [handlers_setHandler] at hj
    split_ifs at hj with hjk
    · obtain rfl := Option.some.inj hj
      exact hs.untraded k { request := q, stage := stage } hk (hpending hh)
    · exact hs.untraded j h hj hh
  record := hs.record
  granted j h slots hj hh := by
    rw [handlers_setHandler] at hj
    split_ifs at hj with hjk
    · obtain rfl := Option.some.inj hj
      exact hs.granted k { request := q, stage := stage } slots hk (.inl (hgranted slots hh))
    · exact hs.granted j h slots hj hh
  stopped j h hj hh := by
    rw [handlers_setHandler] at hj
    split_ifs at hj with hjk
    · obtain rfl := Option.some.inj hj
      exact absurd hh hstopped
    · obtain ⟨hstop, hun, hno⟩ := hs.stopped j h hj hh
      refine ⟨hstop, hun, fun i g hi htrade hg => ?_⟩
      rw [handlers_setHandler] at hi
      split_ifs at hi with hik
      · obtain rfl := Option.some.inj hi
        exact hno k { request := q, stage := stage } hk htrade (hpending hg)
      · exact hno i g hi htrade hg

/-- A request that is let through is the only one of its trade. -/
lemma arrive_waiting (hs : Settled s) (hcheck : s.node.checkTrade q = none)
    (hspaced : s.Spaced (.arrive k q)) :
    Settled (s.setHandler k { request := q, stage := .waiting }) := by
  obtain ⟨hjob, hstop, hrecord⟩ := TradeNode.of_checkTrade_none hcheck
  obtain ⟨hno, htraded⟩ := hspaced hjob
  have hun : q.trade ∉ s.lowered.map Prod.fst := fun h => hrecord (htraded h).2
  refine ⟨?_, ?_, hs.record, ?_, ?_⟩
  · intro i j g h hi hj htrade hg hh
    rw [handlers_setHandler] at hi hj
    split_ifs at hi hj with hik hjk hjk
    · rw [hik, hjk]
    · obtain rfl := Option.some.inj hi
      exact absurd hh (hno j h hj htrade.symm)
    · obtain rfl := Option.some.inj hj
      exact absurd hg (hno i g hi htrade)
    · exact hs.alone i j g h hi hj htrade hg hh
  · intro j h hj hh
    rw [handlers_setHandler] at hj
    split_ifs at hj with hjk
    · obtain rfl := Option.some.inj hj
      exact hun
    · exact hs.untraded j h hj hh
  · intro j h slots hj hh
    rw [handlers_setHandler] at hj
    split_ifs at hj with hjk
    · obtain rfl := Option.some.inj hj
      rcases hh with hh | hh <;> cases hh
    · exact hs.granted j h slots hj hh
  · intro j h hj hh
    rw [handlers_setHandler] at hj
    split_ifs at hj with hjk
    · obtain rfl := Option.some.inj hj
      cases hh
    · have := (hs.stopped j h hj hh).1
      rw [hstop] at this
      cases this

/-- A request that is answered at once, from the record or with no slots. -/
lemma arrive_answered (hs : Settled s) {answer : TradeAnswer}
    (hcheck : s.node.checkTrade q = some answer) (hspaced : s.Spaced (.arrive k q)) :
    Settled (s.setHandler k { request := q, stage := .answered answer }) := by
  refine ⟨?_, ?_, hs.record, ?_, ?_⟩
  · intro i j g h hi hj htrade hg hh
    rw [handlers_setHandler] at hi hj
    split_ifs at hi hj with hik hjk hjk
    · rw [hik, hjk]
    · obtain rfl := Option.some.inj hi
      exact hg.elim
    · obtain rfl := Option.some.inj hj
      exact hh.elim
    · exact hs.alone i j g h hi hj htrade hg hh
  · intro j h hj hh
    rw [handlers_setHandler] at hj
    split_ifs at hj with hjk
    · obtain rfl := Option.some.inj hj
      exact hh.elim
    · exact hs.untraded j h hj hh
  · intro j h slots hj hh
    rw [handlers_setHandler] at hj
    split_ifs at hj with hjk
    · obtain rfl := Option.some.inj hj
      obtain rfl : answer = .granted slots := by simpa using hh
      exact hs.record _ _ _ (TradeNode.record_of_checkTrade hcheck)
    · exact hs.granted j h slots hj hh
  · intro j h hj hh
    have hsame : ∀ trade, (∀ i g, s.handlers i = some g → g.request.trade = trade →
        ¬g.stage.Pending) → ∀ i g, (s.setHandler k
          { request := q, stage := .answered answer }).handlers i = some g →
          g.request.trade = trade → ¬g.stage.Pending := by
      intro trade hno i g hi
      rw [handlers_setHandler] at hi
      split_ifs at hi with hik
      · obtain rfl := Option.some.inj hi
        exact fun _ => id
      · exact hno i g hi
    rw [handlers_setHandler] at hj
    split_ifs at hj with hjk
    · obtain rfl := Option.some.inj hj
      obtain rfl : answer = .stopped := by simpa using hh
      obtain ⟨hjob, hstop⟩ := TradeNode.of_checkTrade_stopped hcheck
      obtain ⟨hno, htraded⟩ := hspaced hjob
      refine ⟨hstop, fun h => ?_, hsame _ hno⟩
      have := (htraded h).1
      rw [hstop] at this
      cases this
    · obtain ⟨hstop, hun, hno⟩ := hs.stopped j h hj hh
      exact ⟨hstop, hun, hsame _ hno⟩

/-- **The grant is put on record.** -/
lemma recorded (hs : Settled s) {slots : ℤ} {toRetire : List ℕ}
    (hk : s.handlers k = some { request := q, stage := .retiring slots toRetire }) :
    Settled { s.setHandler k { request := q, stage := .recorded slots } with
      node :=
        { s.node with
          targetParallelism := s.node.targetParallelism - slots
          slotTradesGranted := Function.update s.node.slotTradesGranted q.requestingNode
            (some (q.tradeId, slots)) }
      holder := none
      lowered := s.lowered ++ [(q.trade, slots)] } := by
  have hun : q.trade ∉ s.lowered.map Prod.fst := hs.untraded k _ hk trivial
  have hmem : ∀ t, t ∈ (s.lowered ++ [(q.trade, slots)]).map Prod.fst ↔
      t ∈ s.lowered.map Prod.fst ∨ t = q.trade := by simp
  -- The trade's own sum, and the others'.
  have hself : loweredFor { s with lowered := s.lowered ++ [(q.trade, slots)] } q.trade = slots := by
    rw [loweredFor_append rfl, loweredFor_eq_zero hun, if_pos rfl, zero_add]
  have hother : ∀ t, t ≠ q.trade →
      loweredFor { s with lowered := s.lowered ++ [(q.trade, slots)] } t = s.loweredFor t := by
    intro t ht
    rw [loweredFor_append rfl, if_neg (Ne.symm ht), add_zero]
  have hpend : ∀ j h, (s.setHandler k { request := q, stage := .recorded slots }).handlers j =
      some h → h.stage.Pending → s.handlers j = some h ∧ j ≠ k := by
    intro j h hj hh
    rw [handlers_setHandler] at hj
    split_ifs at hj with hjk
    · obtain rfl := Option.some.inj hj
      exact hh.elim
    · exact ⟨hj, hjk⟩
  refine ⟨?_, ?_, ?_, ?_, ?_⟩
  · intro i j g h hi hj htrade hg hh
    exact hs.alone i j g h (hpend i g hi hg).1 (hpend j h hj hh).1 htrade hg hh
  · intro j h hj hh
    obtain ⟨hj, hjk⟩ := hpend j h hj hh
    rw [hmem, not_or]
    exact ⟨hs.untraded j h hj hh, fun htrade => hjk (hs.alone j k h _ hj hk htrade hh trivial)⟩
  · intro n id slots' hrec
    rw [hmem]
    simp only [Function.update_apply] at hrec
    split_ifs at hrec with hn
    · obtain ⟨rfl, rfl⟩ : q.tradeId = id ∧ slots = slots' := by simpa using hrec
      subst hn
      exact ⟨.inr rfl, hself⟩
    · obtain ⟨htraded, heq⟩ := hs.record n id slots' hrec
      have hne : (n, id) ≠ q.trade := fun h => hn (congrArg Prod.fst h)
      exact ⟨.inl htraded, (hother _ hne).trans heq⟩
  · intro j h slots' hj hh
    rw [hmem]
    change (s.setHandler k _).handlers j = some h at hj
    rw [handlers_setHandler] at hj
    split_ifs at hj with hjk
    · obtain rfl := Option.some.inj hj
      obtain rfl : slots = slots' := by simpa using hh
      exact ⟨.inr rfl, hself⟩
    · obtain ⟨htraded, heq⟩ := hs.granted j h slots' hj hh
      have hne : h.request.trade ≠ q.trade := fun heq => hun (heq ▸ htraded)
      exact ⟨.inl htraded, (hother _ hne).trans heq⟩
  · intro j h hj hh
    rw [hmem, not_or]
    change (s.setHandler k _).handlers j = some h at hj
    rw [handlers_setHandler] at hj
    split_ifs at hj with hjk
    · obtain rfl := Option.some.inj hj
      cases hh
    · obtain ⟨hstop, hunj, hno⟩ := hs.stopped j h hj hh
      refine ⟨hstop, ⟨hunj, fun htrade => hno k _ hk htrade.symm trivial⟩, fun i g hi htrade hg => ?_⟩
      exact hno i g (hpend i g hi hg).1 htrade hg

end Settled

/-- **Each step that is spaced keeps the trades settled.** -/
lemma Settled.step (hs : Settled s) {e : DonorEvent ι} (hspaced : s.Spaced e)
    (hstep : donorSystem.step s e = some t) : Settled t := by
  cases e with
  | arrive k q =>
    simp only [donorSystem, Donor.step, Option.ite_none_right_eq_some, Option.some.injEq] at hstep
    obtain ⟨-, rfl⟩ := hstep
    cases hcheck : s.node.checkTrade q with
    | none => exact hs.arrive_waiting hcheck hspaced
    | some answer => exact hs.arrive_answered hcheck hspaced
  | lock k view =>
    simp only [donorSystem, Donor.step] at hstep
    split at hstep
    · rename_i q hk
      simp only [Option.ite_none_right_eq_some, Option.some.injEq] at hstep
      obtain ⟨-, rfl⟩ := hstep
      obtain ⟨ha, hu, hr, hg, hd⟩ := hs.restage
        (.retiring (view.grant s.node.targetParallelism q.slotsRequested)
          (view.idleToGive s.node.targetParallelism q.slotsRequested))
        hk (fun _ => trivial) (by simp) nofun
      exact ⟨ha, hu, hr, hg, hd⟩
    · cases hstep
  | retire =>
    simp only [donorSystem, Donor.step, Option.bind_eq_some_iff] at hstep
    obtain ⟨k, -, hstep⟩ := hstep
    split at hstep
    · rename_i q slots i toRetire hk
      obtain rfl := Option.some.inj hstep
      obtain ⟨ha, hu, hr, hg, hd⟩ := hs.restage (.retiring slots toRetire) hk (fun _ => trivial)
        (by simp) nofun
      exact ⟨ha, hu, hr, hg, hd⟩
    · cases hstep
  | record =>
    simp only [donorSystem, Donor.step, Option.bind_eq_some_iff] at hstep
    obtain ⟨k, -, hstep⟩ := hstep
    split at hstep
    · rename_i q slots hk
      obtain rfl := Option.some.inj hstep
      exact hs.recorded hk
    · cases hstep
  | answer k =>
    simp only [donorSystem, Donor.step] at hstep
    split at hstep
    · rename_i q slots hk
      obtain rfl := Option.some.inj hstep
      refine hs.restage (.answered (.granted slots)) hk id (fun slots' h => ?_) nofun
      obtain rfl : slots = slots' := by simpa using h
      rfl
    · cases hstep
  | fail k =>
    simp only [donorSystem, Donor.step] at hstep
    split at hstep
    · cases hstep
    · cases hstep
    · rename_i q stage _ hk
      obtain rfl := Option.some.inj hstep
      obtain ⟨ha, hu, hr, hg, hd⟩ := hs.restage .failed hk (fun h => h.elim) (by simp) nofun
      exact ⟨ha, hu, hr, hg, hd⟩
  | other targetParallelism workers =>
    obtain rfl := Option.some.inj hstep
    exact ⟨hs.alone, hs.untraded, hs.record, hs.granted, hs.stopped⟩
  | stop =>
    obtain rfl := Option.some.inj hstep
    exact ⟨hs.alone, hs.untraded, hs.record, hs.granted,
      fun k h hk hh => ⟨rfl, (hs.stopped k h hk hh).2⟩⟩
  | leave =>
    obtain rfl := Option.some.inj hstep
    exact ⟨hs.alone, hs.untraded, hs.record, hs.granted, hs.stopped⟩

end Donor

/-- **The target is lowered once for each trade, by what its requests are answered with.** -/
theorem granted_once [DecidableEq ι] {s : Donor ι} (h : donorSystem.Reachable Donor.Spaced s) :
    s.GrantedOnce := by
  have hs : Donor.Settled s := by
    refine System.Invariant.reachable (P := Donor.Settled) ⟨?_, ?_⟩ h
    · rintro _ ⟨_, _, rfl⟩
      exact Donor.settled_new
    · exact fun _ _ _ hs hspaced hstep => hs.step hspaced hstep
  intro k q answer slots hk hslots
  cases answer with
  | notFound => cases hslots
  | stopped =>
    obtain rfl : 0 = slots := by simpa [Donor.slotsGranted] using hslots
    exact Donor.loweredFor_eq_zero (hs.stopped k _ hk rfl).2.1
  | granted slots' =>
    obtain rfl : slots' = slots := by simpa [Donor.slotsGranted] using hslots
    exact (hs.granted k _ slots' hk (.inr rfl)).2

/-- Node 1 asks for two slots. -/
def twoSlots : TradeRequest ℕ :=
  { attempt := 0, requestingNode := 1, neighbor := 0, slotsRequested := 2, tradeId := 7 }

/-- A node whose workers have all been retired for pressure. -/
def pressed : DonorView where
  now := 100
  lastPressureRetirementAt := 90
  replacementRequestId := none
  workers := []
  queuedInputs := 0
  allInputsUploaded := false
  jobAssignedAt := 0

/-- The retry comes when the grant is on record. -/
def spacedRetry : List (DonorEvent ℕ) :=
  [.arrive 0 twoSlots, .lock 0 pressed, .record, .arrive 1 twoSlots]

def replayed : Donor ℕ := (donorSystem.exec (Donor.new 4 []) spacedRetry).get (by decide +kernel)

theorem granted_once_replayed : replayed.handlers 1 =
      some { request := twoSlots, stage := .answered (.granted 2) } ∧
    replayed.loweredFor twoSlots.trade = 2 := by
  have hrun : donorSystem.Run Donor.Spaced (Donor.new 4 []) spacedRetry replayed := by
    refine .cons rfl ?_ (.cons rfl trivial (.cons rfl trivial (.cons rfl ?_ .nil)))
    · exact fun _ => ⟨nofun, nofun⟩
    · intro _
      refine ⟨fun k h hk => ?_, fun _ => ⟨rfl, rfl⟩⟩
      simp only [Donor.setHandler, Function.update_apply, Donor.new] at hk
      -- Only the first request has come, and its grant is on record.
      split_ifs at hk
      obtain rfl := Option.some.inj hk
      exact fun _ => id
  have hanswer : replayed.handlers 1 =
      some { request := twoSlots, stage := .answered (.granted 2) } := by decide +kernel
  exact ⟨hanswer, granted_once ⟨_, _, ⟨4, [], rfl⟩, hrun⟩ 1 twoSlots (.granted 2) 2 hanswer rfl⟩

/-- The retry comes while the first request waits for the lock. -/
def earlyRetry : List (DonorEvent ℕ) :=
  [.arrive 0 twoSlots, .arrive 1 twoSlots, .lock 0 pressed, .record, .lock 1 pressed, .record,
    .answer 0, .answer 1]

/-- Both are answered with two slots, and the target is lowered by four. -/
theorem trade_granted_twice : ∃ s : Donor ℕ, donorSystem.Reachable System.always s ∧
    s.handlers 0 = some { request := twoSlots, stage := .answered (.granted 2) } ∧
    s.handlers 1 = some { request := twoSlots, stage := .answered (.granted 2) } ∧
    s.node.targetParallelism = 0 ∧ ¬s.GrantedOnce := by
  refine ⟨(donorSystem.exec (Donor.new 4 []) earlyRetry).get (by decide +kernel),
    System.Reachable.exec ⟨_, [], ⟨4, [], rfl⟩, .nil⟩ (Option.some_get _).symm,
    by decide +kernel, by decide +kernel, by decide +kernel, fun h => ?_⟩
  exact absurd (h 0 twoSlots (.granted 2) 2 (by decide +kernel) rfl) (by decide +kernel)

end Burla.Slots
