/-
The user's `max_parallelism` as a cap on the slots of a job's nodes.

`spoken` counts the slots that are spoken for: those the nodes have or are trading, those of
nodes that are planned and paid for, and what nodes that left the job are short of.  Each step
raises it by its `overshoot` at most, which is nothing for most steps.  A memory probe, the
reclaim of stranded inputs, a replacement node that starts before its requester has paid
for it, and a node that leaves the job or gives slots away with fewer slots than workers are
those that have one, and where they only happen within the limit, the limit holds
(`stays_within_cap`).
-/
import Burla.Slots.Fleet
import Mathlib.Algebra.BigOperators.Ring.Finset
import Mathlib.Data.Fin.VecNotation

namespace Burla.Slots

variable {ι : Type*} [DecidableEq ι]

/-! ### Nodes that leave the job -/

namespace TradeNode

/-- Only on the job, and while its watcher runs, does a node wait for a response. -/
def Live (n : TradeNode ι) : Prop := ∀ k, n.attempt = some k → n.onJob = true ∧ n.stopped = false

/-- What a node that is not on the job is short of. -/
def debt (n : TradeNode ι) : ℤ := if n.onJob then 0 else max 0 (-n.targetParallelism)

/-- How a node `m` may change: its debt grows by `k` at most. -/
structure Change (m n : TradeNode ι) (k : ℤ) : Prop where
  live : m.Live → n.Live
  onJob : m.onJob = false → n.onJob = false
  debt : m.Live → n.debt ≤ m.debt + k

variable {m n : TradeNode ι}

omit [DecidableEq ι]

lemma debt_nonneg (n : TradeNode ι) : 0 ≤ n.debt := by
  unfold debt
  split_ifs <;> omega

lemma debt_of_onJob (h : n.onJob = true) : n.debt = 0 := if_pos h

lemma live_of_attempt (h : n.attempt = none) : n.Live := by simp [Live, h]

/-- A node on the job that stays on it. -/
lemma Change.of_onJob (hm : m.onJob = true) (hn : n.onJob = true) (hlive : n.Live) :
    m.Change n 0 where
  live _ := hlive
  onJob h := by simp [hm] at h
  debt _ := by simp [debt_of_onJob hm, debt_of_onJob hn]

/-- A node that waits for nothing any more and keeps its slots. -/
lemma Change.of_attempt (hattempt : n.attempt = none) (hjob : n.onJob = m.onJob)
    (htarget : n.targetParallelism = m.targetParallelism) : m.Change n 0 where
  live _ := live_of_attempt hattempt
  onJob h := by rw [hjob, h]
  debt _ := by simp [TradeNode.debt, hjob, htarget]

/-- A node that waited for a response and has read it. -/
lemma Change.of_read {k : ℕ} (hm : m.attempt = some k) (hn : n.attempt = none)
    (hjob : n.onJob = m.onJob) : m.Change n 0 where
  live _ := live_of_attempt hn
  onJob h := by rw [hjob, h]
  debt hlive := by
    have hm := (hlive k hm).1
    rw [debt_of_onJob hm, debt_of_onJob (hjob.trans hm), add_zero]

lemma Change.refl (m : TradeNode ι) {k : ℤ} (hk : 0 ≤ k) : m.Change m k where
  live := id
  onJob := id
  debt _ := by omega

end TradeNode

namespace Trades

/-- How many slots a step of trading may add: a donor off the job gives up slots of workers that
it has no slots for, or a node leaves the job in debt. -/
def overshoot (s : Trades ι) : TradeEvent ι → ℤ
  | .grant j v =>
    match s.locked[j]? with
    | some q =>
      if (s.nodes q.neighbor).onJob then 0
      else max 0 (v.aliveWorkers.length - (s.nodes q.neighbor).targetParallelism)
    | none => 0
  | .endJob i => max 0 (-(s.nodes i).targetParallelism)
  | _ => 0

variable {s t : Trades ι} {a : TradeEvent ι}

/-- A donor gives up no more slots than it has slots and live workers. -/
lemma change_grant (m : TradeNode ι) (v : DonorView) (q : TradeRequest ι) :
    m.Change (m.grantTrade v q)
      (if m.onJob then 0 else max 0 (v.aliveWorkers.length - m.targetParallelism)) where
  live h := h
  onJob h := h
  debt _ := by
    have hgrant := v.grant_le_max m.targetParallelism q.slotsRequested
    by_cases hjob : m.onJob = true
    · simp [TradeNode.debt, TradeNode.grantTrade, hjob]
    · simp only [TradeNode.debt, TradeNode.grantTrade, hjob]
      simp only [Bool.false_eq_true, if_false]
      omega

/-- A step of trading changes one node at most. -/
lemma nodes_of_step (hstep : tradeStep s a = some t) :
    t.nodes = s.nodes ∨
      ∃ i n, t.nodes = Function.update s.nodes i n ∧ (s.nodes i).Change n (s.overshoot a) := by
  cases a with
  | attempt r neighbor want =>
    simp only [tradeStep, Option.ite_none_right_eq_some, Option.some.injEq] at hstep
    obtain ⟨⟨hjob, hstopped, -⟩, rfl⟩ := hstep
    exact .inr ⟨r, _, rfl, .of_onJob hjob hjob fun _ _ => ⟨hjob, hstopped⟩⟩
  | attemptFails r =>
    obtain rfl := Option.some.inj hstep
    exact .inr ⟨r, _, rfl, .of_attempt rfl rfl rfl⟩
  | arrive i =>
    obtain ⟨⟨q, rest⟩, -, rfl⟩ := Option.map_eq_some_iff.1 hstep
    left
    dsimp only
    split <;> rfl
  | grant j v =>
    obtain ⟨⟨q, rest⟩, htake, rfl⟩ := Option.map_eq_some_iff.1 hstep
    refine .inr ⟨q.neighbor, _, rfl, ?_⟩
    simp only [overshoot, getElem?_of_takeAt htake]
    exact change_grant _ v q
  | receive i =>
    simp only [tradeStep] at hstep
    split at hstep
    · cases hstep
    · rename_i x hx
      simp only [Option.ite_none_right_eq_some, Option.some.injEq] at hstep
      obtain ⟨hattempt, rfl⟩ := hstep
      exact .inr ⟨x.request.requestingNode, _, rfl, .of_read hattempt rfl rfl⟩
  | stop i =>
    obtain rfl := Option.some.inj hstep
    exact .inr ⟨i, _, rfl, .of_attempt rfl rfl rfl⟩
  | endJob i =>
    simp only [tradeStep, Option.ite_none_right_eq_some, Option.some.injEq] at hstep
    obtain ⟨hstopped, rfl⟩ := hstep
    refine .inr ⟨i, _, rfl, ?_⟩
    constructor
    case live =>
      -- a watcher that has stopped waits for nothing
      intro hlive k hk
      simp [(hlive k hk).2] at hstopped
    case onJob => exact fun _ => rfl
    case debt =>
      intro _
      have := (s.nodes i).debt_nonneg
      simp only [TradeNode.debt, overshoot] at this ⊢
      simp only [Bool.false_eq_true, if_false]
      omega

omit [DecidableEq ι] in
lemma overshoot_nonneg (s : Trades ι) (a : TradeEvent ι) : 0 ≤ s.overshoot a := by
  cases a with
  | grant j v =>
    simp only [overshoot]
    split
    · split_ifs <;> omega
    · exact le_rfl
  | endJob i => exact le_max_left _ _
  | _ => exact le_rfl

lemma change_of_step (hstep : tradeStep s a = some t) (i : ι) :
    (s.nodes i).Change (t.nodes i) (s.overshoot a) := by
  rcases nodes_of_step hstep with heq | ⟨j, n, heq, hchange⟩
  · rw [heq]
    exact .refl _ (s.overshoot_nonneg a)
  · rw [heq]
    by_cases hi : i = j
    · subst hi
      rwa [Function.update_self]
    · rw [Function.update_of_ne hi]
      exact .refl _ (s.overshoot_nonneg a)

variable [Fintype ι]

/-- What the nodes that are not on the job are short of. -/
def debts (s : Trades ι) : ℤ := ∑ i, (s.nodes i).debt

lemma debts_setNode (s : Trades ι) (i : ι) (n : TradeNode ι) :
    (s.setNode i n).debts = s.debts + (n.debt - (s.nodes i).debt) :=
  sum_update (fun _ => TradeNode.debt) s.nodes i n

/-- A step of trading raises the debts by its overshoot at most. -/
lemma debts_of_step (hlive : ∀ i, (s.nodes i).Live) (hstep : tradeStep s a = some t) :
    t.debts ≤ s.debts + s.overshoot a := by
  rcases nodes_of_step hstep with heq | ⟨i, n, heq, hchange⟩
  · have := s.overshoot_nonneg a
    rw [debts, heq, ← debts]
    omega
  · have := hchange.debt (hlive i)
    have hdebts := s.debts_setNode i n
    simp only [debts, setNode] at hdebts ⊢
    rw [heq, hdebts]
    omega

end Trades

/-! ### What is spoken for -/

/-- The slots of a node that has not started, if they are paid for. -/
def Stage.ready (received : List ℕ) : Stage → ℤ
  | .planned slots none => slots
  | .planned slots (some p) => if p ∈ received then slots else 0
  | _ => 0

/-- The slots of a node that has not started, if it is booted under plan `p`. -/
def Stage.share (p : ℕ) : Stage → ℤ
  | .planned slots (some q) => if q = p then slots else 0
  | _ => 0

lemma Stage.share_nonneg (p : ℕ) (x : Stage) : 0 ≤ x.share p := by
  unfold share
  split
  · split_ifs <;> omega
  · exact le_rfl

/-- A plan that is paid makes its nodes' slots ready. -/
lemma Stage.ready_cons (p : ℕ) (received : List ℕ) (x : Stage) :
    x.ready (p :: received) ≤ x.ready received + x.share p := by
  rcases x with _ | ⟨slots, _ | q⟩ | _
  · simp [ready, share]
  · simp [ready, share]
  · by_cases hq : q = p
    · subst hq
      simp only [ready, share, List.mem_cons_self, if_true]
      split_ifs <;> omega
    · simp [ready, share, hq]
  · simp [ready, share]

namespace Fleet

variable [Fintype ι] (s : Fleet ι)

/-- The sum over the job's nodes of `target_parallelism`. -/
def running : ℤ := ∑ i, if s.onJob i then s.target i else 0

def spoken : ℤ := s.trades.worth + ∑ i, (s.stage i).ready s.received + s.trades.debts

/-- How many slots a step may add to those spoken for. -/
def overshoot : FleetEvent ι → ℤ
  | .trade e => s.trades.overshoot e
  | .start i compatibleWorkers =>
    match s.stage i with
    | .planned slots (some p) =>
      if p ∈ s.received then 0 else startTarget slots compatibleWorkers
    | _ => 0
  | .readd i v => if v.probesPastTarget (s.target i) then 1 else 0
  | .reclaim i aliveWorkers queuedInputs cpuCount =>
    if stranded (s.target i) aliveWorkers queuedInputs then min queuedInputs cpuCount else 0
  | _ => 0

/-- The nodes of plan `p` have no more slots than their requester pays for. -/
def Covers (p : ReplacementPlan ι) : Prop :=
  p.number < s.plans ∧ ∑ i, (s.stage i).share p.number ≤ p.slotsBooted

end Fleet

/-- The steps that add slots do so within the limit. -/
def WithinCap [Fintype ι] (s : Fleet ι) (a : FleetEvent ι) : Prop :=
  s.overshoot a = 0 ∨ s.spoken + s.overshoot a ≤ s.maxParallelism

instance [Fintype ι] (s : Fleet ι) (a : FleetEvent ι) : Decidable (WithinCap s a) :=
  inferInstanceAs (Decidable (_ ∨ _))

/-- The books of the fleet. -/
structure Accounted [Fintype ι] (s : Fleet ι) : Prop where
  booked : Booked (· ≤ ·) s.trades
  live : ∀ i, (s.trades.nodes i).Live
  waiting : ∀ i, s.stage i ≠ .started → s.onJob i = false
  limited : s.maxParallelism < s.nInputs
  unminted : ∀ i, (s.nodes i).mintSlotsAllowed = false ∧ s.granted i = 0
  drawn : ∀ i slots p, s.stage i = .planned slots (some p) → p < s.plans
  receivedDrawn : ∀ p ∈ s.received, p < s.plans
  records : ∀ r p, s.replacementRequests r = some p → s.Covers p
  responses : ∀ a ∈ s.responses, ∀ p, a.plan = some p → s.Covers p

namespace Accounted

variable [Fintype ι] {s : Fleet ι}

lemma setNode (h : Accounted s) {i : ι} {n : FleetNode}
    (hn : n.mintSlotsAllowed = (s.nodes i).mintSlotsAllowed) : Accounted (s.setNode i n) :=
  { h with
    unminted := fun j => by
      have := h.unminted j
      rwa [← apply_update_eq FleetNode.mintSlotsAllowed s.nodes hn j] at this }

omit [Fintype ι] in
lemma onJob_setTarget (s : Fleet ι) (i : ι) (z : ℤ) (j : ι) :
    (s.setTarget i z).onJob j = s.onJob j :=
  apply_update_eq TradeNode.onJob s.trades.nodes
    (b := { s.trades.nodes i with targetParallelism := z }) rfl j

lemma setTarget (h : Accounted s) (i : ι) (z : ℤ) : Accounted (s.setTarget i z) :=
  { h with
    booked := h.booked.setNode rfl rfl fun _ hk => hk
    live := fun j => by
      have hlive := apply_update_eq TradeNode.Live s.trades.nodes
        (b := { s.trades.nodes i with targetParallelism := z }) rfl j
      exact hlive.mpr (h.live j)
    waiting := fun j hj => (onJob_setTarget s i z j).trans (h.waiting j hj) }

lemma setCounters (h : Accounted s) (i : ι) (c : Counters) : Accounted (s.setCounters i c) := by
  have hnode := h.setNode (i := i) (n := { s.nodes i with shedSlotsPending := c.shedSlotsPending })
    rfl
  exact hnode.setTarget i c.targetParallelism

lemma trade (h : Accounted s) {e : TradeEvent ι} {trades : Trades ι}
    (hstep : tradeStep s.trades e = some trades) : Accounted { s with trades } :=
  { h with
    booked := (h.booked.worth_le (tradeStep_move hstep)).1
    live := fun i => (Trades.change_of_step hstep i).live (h.live i)
    waiting := fun i hi => (Trades.change_of_step hstep i).onJob (h.waiting i hi) }

omit [DecidableEq ι] in
/-- A plan stays covered while none of its nodes is planned anew. -/
lemma covers_mono {t : Fleet ι} {p : ReplacementPlan ι} (hplans : s.plans ≤ t.plans)
    (hshare : ∀ i, (t.stage i).share p.number ≤ (s.stage i).share p.number) (h : s.Covers p) :
    t.Covers p :=
  ⟨h.1.trans_le hplans, (Finset.sum_le_sum fun i _ => hshare i).trans h.2⟩

lemma start (h : Accounted s) (i : ι) (z : ℤ) : Accounted (s.start i z) := by
  have hstage : ∀ j ≠ i, (s.start i z).stage j = s.stage j := fun j hj =>
    Function.update_of_ne hj _ _
  have hself : (s.start i z).stage i = .started := Function.update_self ..
  have hcovers : ∀ p, s.Covers p → (s.start i z).Covers p := by
    intro p
    refine covers_mono le_rfl fun j => ?_
    by_cases hj : j = i
    · subst hj
      rw [hself]
      exact Stage.share_nonneg _ _
    · rw [hstage j hj]
  constructor
  case booked => exact h.booked.setNode rfl rfl fun _ hk => hk
  case live =>
    intro j
    by_cases hj : j = i
    · subst hj
      simp [Fleet.start, Trades.setNode, TradeNode.Live]
    · simpa [Fleet.start, Trades.setNode, hj] using h.live j
  case waiting =>
    intro j hj
    have hne : j ≠ i := by
      rintro rfl
      exact hj hself
    rw [hstage j hne] at hj
    simpa [Fleet.onJob, Fleet.start, Trades.setNode, hne] using h.waiting j hj
  case limited => exact h.limited
  case unminted =>
    intro j
    refine ⟨?_, (h.unminted j).2⟩
    have hlimited : mintSlotsAllowed s.maxParallelism s.nInputs = false := by
      simpa [mintSlotsAllowed] using h.limited
    by_cases hj : j = i
    · subst hj
      simpa [Fleet.start] using hlimited
    · simpa [Fleet.start, hj] using (h.unminted j).1
  case drawn =>
    intro j slots p hp
    by_cases hj : j = i
    · subst hj
      simp [hself] at hp
    · exact h.drawn j slots p (hstage j hj ▸ hp)
  case receivedDrawn => exact h.receivedDrawn
  case records => exact fun r p hp => hcovers p (h.records r p hp)
  case responses => exact fun a ha p hp => hcovers p (h.responses a ha p hp)

omit [DecidableEq ι] in
/-- The head answers without booting anything. -/
lemma respond (h : Accounted s) {q : ReplacementRequest ι} {plan : Option (ReplacementPlan ι)}
    (hplan : ∀ p, plan = some p → s.Covers p) : Accounted (s.respond q plan) :=
  { h with
    responses := by
      intro a ha p hp
      rcases List.mem_cons.1 ha with rfl | ha
      · exact hplan p hp
      · exact h.responses a ha p hp }

/-- The head boots nodes that have not been planned before. -/
lemma plan (h : Accounted s) {q : ReplacementRequest ι} {booted : ι → ℕ}
    (habsent : ∀ i, booted i ≠ 0 → s.stage i = .absent) : Accounted (s.plan q booted) := by
  have hnew : ∀ i, ((s.plan q booted).stage i).share s.plans = booted i := by
    intro i
    by_cases hi : booted i = 0
    · -- a node planned before has an older plan
      simp only [Fleet.plan, hi, if_true]
      rcases hstage : s.stage i with _ | ⟨slots, _ | p⟩ | _
      · rfl
      · rfl
      · have := h.drawn i slots p hstage
        simp [Stage.share, this.ne]
      · rfl
    · simp [Fleet.plan, hi, Stage.share]
  have hcovers : ∀ p, s.Covers p → (s.plan q booted).Covers p := by
    intro p hp
    refine covers_mono (Nat.le_succ _) (fun i => ?_) hp
    by_cases hi : booted i = 0
    · simp [Fleet.plan, hi]
    · have hold := (s.stage i).share_nonneg p.number
      have := hp.1
      simpa [Fleet.plan, hi, Stage.share, this.ne'] using hold
  have hplan : (s.plan q booted).Covers ⟨q.requestId, s.plans, booted⟩ :=
    ⟨Nat.lt_succ_self _, (Finset.sum_congr rfl fun i _ => hnew i).le⟩
  constructor
  case booked => exact h.booked
  case live => exact h.live
  case waiting =>
    intro i hi
    refine h.waiting i fun hstarted => ?_
    by_cases hbooted : booted i = 0
    · simp [Fleet.plan, hbooted, hstarted] at hi
    · simp [habsent i hbooted] at hstarted
  case limited => exact h.limited
  case unminted => exact h.unminted
  case drawn =>
    intro i slots p hp
    by_cases hi : booted i = 0
    · have := h.drawn i slots p (by simpa [Fleet.plan, hi] using hp)
      exact this.trans (Nat.lt_succ_self _)
    · obtain ⟨-, rfl⟩ : booted i = slots ∧ s.plans = p := by
        simpa [Fleet.plan, hi] using hp
      exact Nat.lt_succ_self _
  case receivedDrawn => exact fun p hp => (h.receivedDrawn p hp).trans (Nat.lt_succ_self _)
  case records =>
    intro r p hp
    by_cases hr : r = q.requestingNode
    · subst hr
      obtain rfl : _ = p := by simpa [Fleet.plan] using hp
      exact hplan
    · exact hcovers p (h.records r p (by simpa [Fleet.plan, hr] using hp))
  case responses =>
    intro a ha p hp
    rcases List.mem_cons.1 ha with rfl | ha
    · obtain rfl := Option.some.inj hp
      exact hplan
    · exact hcovers p (h.responses a ha p hp)

lemma readReplacement (h : Accounted s) (i : ι) {plan : Option (ReplacementPlan ι)}
    (hplan : ∀ p, plan = some p → s.Covers p) : Accounted (s.readReplacement i plan) := by
  cases plan with
  | none => exact h.setNode rfl
  | some p =>
    have hset := (h.setNode (i := i)
      (n := { s.nodes i with replacementRequestId := none, replacementAttempt := none })
      rfl).setTarget i (s.target i - p.slotsBooted)
    refine { hset with receivedDrawn := ?_ }
    intro k hk
    rcases List.mem_cons.1 hk with rfl | hk
    · exact (hplan p rfl).1
    · exact h.receivedDrawn k hk

end Accounted

/-! ### One step -/

section Step

variable [Fintype ι] {s t : Fleet ι} {a : FleetEvent ι}

/-- What a step does to the books. -/
structure Adds (s t : Fleet ι) (k : ℤ) : Prop where
  accounted : Accounted t
  spoken : t.spoken ≤ s.spoken + k
  maxParallelism : t.maxParallelism = s.maxParallelism

/-- A node on the job sets its slots. -/
lemma spoken_setTarget (s : Fleet ι) {i : ι} (hi : s.onJob i = true) (z : ℤ) :
    (s.setTarget i z).spoken = s.spoken + (z - s.target i) := by
  have hworth := s.trades.worth_setNode i { s.trades.nodes i with targetParallelism := z }
  have hdebts := s.trades.debts_setNode i { s.trades.nodes i with targetParallelism := z }
  rw [TradeNode.debt_of_onJob hi, TradeNode.debt_of_onJob (by exact hi)] at hdebts
  simp only [Fleet.spoken, Fleet.setTarget, Fleet.target, hworth, hdebts]
  omega

lemma adds_setTarget (h : Accounted s) {i : ι} (hi : s.onJob i = true) (z : ℤ) :
    Adds s (s.setTarget i z) (z - s.target i) where
  accounted := h.setTarget i z
  spoken := (spoken_setTarget s hi z).le
  maxParallelism := rfl

lemma adds_setCounters (h : Accounted s) {i : ι} (hi : s.onJob i = true) (c : Counters) :
    Adds s (s.setCounters i c) (c.targetParallelism - s.target i) where
  accounted := h.setCounters i c
  spoken := by
    have hset := spoken_setTarget
      (s.setNode i { s.nodes i with shedSlotsPending := c.shedSlotsPending }) hi c.targetParallelism
    exact hset.le
  maxParallelism := rfl

lemma adds_trade (h : Accounted s) {e : TradeEvent ι} {trades : Trades ι}
    (hstep : tradeStep s.trades e = some trades) :
    Adds s { s with trades } (s.trades.overshoot e) where
  accounted := h.trade hstep
  spoken := by
    have hworth := (h.booked.worth_le (tradeStep_move hstep)).2
    have hdebts := Trades.debts_of_step h.live hstep
    simp only [Fleet.spoken]
    omega
  maxParallelism := rfl

/-- A node starts with the slots it was planned with, or fewer. -/
lemma adds_start (h : Accounted s) {i : ι} {slots : ℕ} {plan : Option ℕ}
    (hstage : s.stage i = .planned slots plan) (compatibleWorkers : ℕ) :
    Adds s (s.start i (startTarget slots compatibleWorkers))
      (s.overshoot (.start i compatibleWorkers)) where
  accounted := h.start i _
  spoken := by
    have hoff : (s.trades.nodes i).onJob = false := h.waiting i (by simp [hstage])
    set z := startTarget slots compatibleWorkers with hz
    have hle : z ≤ slots := by
      simp [hz, startTarget]
    have hworth := s.trades.worth_setNode i
      { s.trades.nodes i with onJob := true, stopped := false, targetParallelism := z }
    have hdebts := s.trades.debts_setNode i
      { s.trades.nodes i with onJob := true, stopped := false, targetParallelism := z }
    have hready := sum_update (fun _ => Stage.ready s.received) s.stage i .started
    have hdebt : (s.trades.nodes i).debt = max 0 (-(s.trades.nodes i).targetParallelism) := by
      simp [TradeNode.debt, hoff]
    rw [TradeNode.debt_of_onJob rfl, hdebt] at hdebts
    rw [hstage] at hready
    simp only [Fleet.spoken, Fleet.start, hworth, hdebts, hready]
    rcases plan with _ | p
    · simp only [Fleet.overshoot, hstage, Stage.ready]
      omega
    · simp only [Fleet.overshoot, hstage, Stage.ready, ← hz]
      split_ifs <;> omega
  maxParallelism := rfl

/-- A node planned as a replacement is not paid for yet. -/
lemma spoken_plan (h : Accounted s) (q : ReplacementRequest ι) {booted : ι → ℕ}
    (habsent : ∀ i, booted i ≠ 0 → s.stage i = .absent) :
    (s.plan q booted).spoken = s.spoken := by
  have hready : ∀ i, ((s.plan q booted).stage i).ready s.received =
      (s.stage i).ready s.received := by
    intro i
    by_cases hi : booted i = 0
    · simp [Fleet.plan, hi]
    · have hnew : s.plans ∉ s.received := fun hp => (h.receivedDrawn _ hp).false
      simp [Fleet.plan, hi, Stage.ready, habsent i hi, hnew]
  show s.trades.worth + ∑ i, ((s.plan q booted).stage i).ready s.received + s.trades.debts = _
  rw [Finset.sum_congr rfl fun i _ => hready i]
  rfl

lemma adds_boot (h : Accounted s) {q : ReplacementRequest ι} {admitted : Bool} {booted : ι → ℕ}
    (hstep : s.bootReplacement q admitted booted = some t) : Adds s t 0 := by
  have hrespond : ∀ plan : Option (ReplacementPlan ι), (∀ p, plan = some p → s.Covers p) →
      Adds s (s.respond q plan) 0 := fun plan hplan =>
    ⟨h.respond hplan, (add_zero s.spoken).ge, rfl⟩
  simp only [Fleet.bootReplacement] at hstep
  by_cases hadmitted : admitted = false
  · obtain rfl : _ = t := by simpa [hadmitted] using hstep
    exact hrespond none (by simp)
  · rw [if_neg hadmitted] at hstep
    rcases hprevious : (s.replacementRequests q.requestingNode).filter
      fun p => p.requestId = q.requestId with _ | p
    · simp only [hprevious] at hstep
      split_ifs at hstep with hnone habsent
      · obtain rfl := Option.some.inj hstep
        exact hrespond none (by simp)
      · obtain rfl := Option.some.inj hstep
        exact ⟨h.plan habsent, by rw [spoken_plan h q habsent, add_zero], rfl⟩
    · simp only [hprevious] at hstep
      obtain rfl := Option.some.inj hstep
      obtain ⟨hrecord, -⟩ := Option.filter_eq_some_iff.1 hprevious
      refine hrespond (some p) fun p' hp' => ?_
      obtain rfl := Option.some.inj hp'
      exact h.records _ _ hrecord

/-- The requester pays for the nodes of a plan, which are then ready. -/
lemma adds_read (h : Accounted s) {i : ι} (hi : s.onJob i = true)
    {plan : Option (ReplacementPlan ι)} (hplan : ∀ p, plan = some p → s.Covers p) :
    Adds s (s.readReplacement i plan) 0 where
  accounted := h.readReplacement i hplan
  spoken := by
    cases plan with
    | none => exact (add_zero s.spoken).ge
    | some p =>
      have htarget := spoken_setTarget s hi (s.target i - p.slotsBooted)
      have hready : ∑ j, (s.stage j).ready (p.number :: s.received) ≤
          ∑ j, (s.stage j).ready s.received + ∑ j, (s.stage j).share p.number := by
        rw [← Finset.sum_add_distrib]
        exact Finset.sum_le_sum fun j _ => Stage.ready_cons _ _ _
      have hcovers := (hplan p rfl).2
      simp only [Fleet.spoken, Fleet.setTarget] at htarget
      simp only [Fleet.spoken, Fleet.readReplacement, Fleet.setTarget, Fleet.setNode]
      omega
  maxParallelism := by cases plan <;> rfl

/-- **Every step** raises what is spoken for by its overshoot at most. -/
lemma adds_of_step (h : Accounted s) (hstep : fleetStep s a = some t) :
    Adds s t (s.overshoot a) := by
  cases a with
  | trade e =>
    obtain ⟨trades, htrade, rfl⟩ := Option.map_eq_some_iff.1 hstep
    exact adds_trade h htrade
  | start i compatibleWorkers =>
    simp only [fleetStep] at hstep
    split at hstep
    · rename_i slots plan hstage
      simp only [Option.ite_none_right_eq_some, Option.some.injEq] at hstep
      obtain ⟨-, rfl⟩ := hstep
      exact adds_start h hstage compatibleWorkers
    · cases hstep
  | mint i slots delivered =>
    -- minting is for jobs without a limit
    simp [fleetStep, (h.unminted i).1] at hstep
  | shed i slots =>
    simp only [fleetStep, Option.ite_none_right_eq_some, Option.some.injEq] at hstep
    obtain ⟨⟨hjob, hslots⟩, rfl⟩ := hstep
    -- nothing was minted, so nothing is taken back
    obtain rfl : slots = 0 := by
      have := (h.unminted i).2
      omega
    have hset := adds_setCounters h hjob ((s.counters i).applyShed 0)
    have hsame : ((s.counters i).applyShed 0).targetParallelism = s.target i := rfl
    rw [hsame, sub_self] at hset
    refine { hset with accounted := { hset.accounted with unminted := fun j => ?_ } }
    refine ⟨(hset.accounted.unminted j).1, ?_⟩
    exact (apply_update_eq id s.granted rfl j).trans (h.unminted j).2
  | readd i v =>
    simp only [fleetStep, Option.ite_none_right_eq_some, Option.some.injEq] at hstep
    obtain ⟨hjob, rfl⟩ := hstep
    have hset := adds_setTarget h hjob (v.readdTarget (s.target i))
    refine { hset with spoken := hset.spoken.trans ?_ }
    rw [v.readdTarget_eq]
    simp only [Fleet.overshoot]
    split_ifs <;> omega
  | reclaim i aliveWorkers queuedInputs cpuCount =>
    simp only [fleetStep, Option.ite_none_right_eq_some, Option.some.injEq] at hstep
    obtain ⟨hjob, rfl⟩ := hstep
    have hset := adds_setTarget h hjob
      (reclaimTarget (s.target i) aliveWorkers queuedInputs cpuCount)
    refine { hset with spoken := hset.spoken.trans ?_ }
    simp only [Fleet.overshoot, reclaimTarget]
    split_ifs with hstranded
    · have : s.target i = 0 := by
        simp only [stranded, Bool.decide_and, Bool.and_eq_true, decide_eq_true_eq] at hstranded
        exact hstranded.2.1
      omega
    · omega
  | askReplacement i aliveWorkers =>
    simp only [fleetStep, Option.ite_none_right_eq_some, Option.some.injEq] at hstep
    obtain ⟨-, rfl⟩ := hstep
    refine ⟨?_, (add_zero s.spoken).ge, rfl⟩
    have hnode := h.setNode (i := i)
      (n := { s.nodes i with
        replacementRequestId := some ((s.nodes i).replacementRequestId.getD s.requestIds)
        replacementAttempt := some s.attempts }) rfl
    exact { hnode with }
  | replacementFails i =>
    obtain rfl := Option.some.inj hstep
    exact ⟨h.setNode rfl, (add_zero s.spoken).ge, rfl⟩
  | bootReplacement j admitted booted =>
    simp only [fleetStep, Option.bind_eq_some_iff] at hstep
    obtain ⟨⟨q, rest⟩, -, hboot⟩ := hstep
    have hrest : Accounted { s with requests := rest } := { h with }
    have hadds := adds_boot hrest hboot
    exact { hadds with }
  | readReplacement k =>
    simp only [fleetStep] at hstep
    split at hstep
    · cases hstep
    · rename_i x hx
      simp only [Option.ite_none_right_eq_some, Option.some.injEq] at hstep
      obtain ⟨⟨hjob, -⟩, rfl⟩ := hstep
      exact adds_read h hjob (h.responses x (List.mem_of_getElem? hx))

end Step

/-! ### Main result -/

section Main

variable [Fintype ι] {s : Fleet ι}

omit [DecidableEq ι] in
lemma accounted_of_fresh (h : s.Fresh) : Accounted s where
  booked := .of_fresh h.trades
  live i := TradeNode.live_of_attempt (h.trades.attempt i)
  waiting i _ := h.onJob i
  limited := h.limited
  unminted i := ⟨h.mintSlotsAllowed i, h.granted i⟩
  drawn i slots p hp := by
    rcases h.unstarted i with hi | ⟨_, hi⟩ <;> simp [hi] at hp
  receivedDrawn := by simp [h.received]
  records r p hp := by simp [h.replacementRequests] at hp
  responses := by simp [h.responses]

omit [DecidableEq ι] in
/-- Before any node starts, the slots handed out are those spoken for. -/
lemma spoken_of_fresh (h : s.Fresh) : s.spoken ≤ s.maxParallelism := by
  have htarget : ∀ i, (s.trades.nodes i).targetParallelism = 0 := h.target
  have hworth : s.trades.worth = 0 := by
    simp [Trades.worth, Trades.total, Trades.pending, htarget, h.trades.given]
  have hdebts : s.trades.debts = 0 := by
    refine Finset.sum_eq_zero fun i _ => ?_
    simp [TradeNode.debt, htarget]
  have hready : ∀ i, (s.stage i).ready s.received = (s.stage i).assigned := by
    intro i
    rcases h.unstarted i with hi | ⟨slots, hi⟩ <;> simp [hi, Stage.ready, Stage.assigned]
  have hassigned : ((∑ i, (s.stage i).assigned : ℕ) : ℤ) ≤ s.maxParallelism :=
    Int.ofNat_le.2 h.assigned
  rw [Nat.cast_sum] at hassigned
  simp only [Fleet.spoken, hworth, hdebts, hready]
  omega

lemma Stage.ready_nonneg (received : List ℕ) (x : Stage) : 0 ≤ x.ready received := by
  rcases x with _ | ⟨slots, _ | q⟩ | _ <;> simp only [ready]
  · exact le_rfl
  · omega
  · split_ifs <;> omega
  · exact le_rfl

omit [DecidableEq ι] in
/-- The slots of the job's nodes are spoken for. -/
lemma running_le (h : Accounted s) : s.running ≤ s.spoken := by
  have hnodes : s.running ≤ s.trades.total + s.trades.debts := by
    rw [Trades.total, Trades.debts, ← Finset.sum_add_distrib]
    refine Finset.sum_le_sum fun i _ => ?_
    simp only [Fleet.onJob, Fleet.target, TradeNode.debt]
    by_cases hjob : (s.trades.nodes i).onJob = true
    · simp [hjob]
    · simp only [hjob, Bool.false_eq_true, if_false]
      omega
  have hpending : 0 ≤ ∑ r, s.trades.pending r :=
    Finset.sum_nonneg fun r _ => h.booked.pending_nonneg r
  have hready : 0 ≤ ∑ i, (s.stage i).ready s.received :=
    Finset.sum_nonneg fun i _ => (s.stage i).ready_nonneg _
  simp only [Fleet.spoken, Trades.worth]
  omega

lemma spoken_invariant :
    (fleet ι).Invariant WithinCap fun s => Accounted s ∧ s.spoken ≤ s.maxParallelism where
  init s h := ⟨accounted_of_fresh h, spoken_of_fresh h⟩
  step s a t h hok hstep := by
    obtain ⟨hacc, hspoken⟩ := h
    obtain ⟨haccounted, hle, hmax⟩ := adds_of_step hacc hstep
    refine ⟨haccounted, ?_⟩
    rw [hmax]
    rcases hok with hzero | hroom
    · omega
    · omega

/-- **`max_parallelism` is a cap** over every run in which the steps that add slots find room:
the nodes of a job with a limit never have more slots together than it allows. -/
theorem stays_within_cap (h : (fleet ι).Reachable WithinCap s) :
    s.running ≤ s.maxParallelism := by
  obtain ⟨haccounted, hspoken⟩ := spoken_invariant.reachable h
  exact (running_le haccounted).trans hspoken

end Main

/-! ### Two runs -/

/-- A job of a hundred inputs on nodes with the slots that the head has handed out. -/
def limitedJob {n : ℕ} (maxParallelism : ℕ) (slots : Fin n → ℕ) : Fleet (Fin n) where
  maxParallelism
  nInputs := 100
  trades :=
    { nodes := fun _ =>
        { onJob := false
          stopped := true
          targetParallelism := 0
          slotTradeId := none
          attempt := none
          slotTradesGranted := fun _ => none }
      requests := []
      locked := []
      responses := []
      attempts := 0
      tradeIds := 0
      given := fun _ _ => none }
  stage i := if slots i = 0 then .absent else .planned (slots i) none
  nodes _ :=
    { mintSlotsAllowed := false
      shedSlotsPending := 0
      replacementRequestId := none
      replacementAttempt := none
      replacementRefused := false }
  granted _ := 0
  requests := []
  responses := []
  replacementRequests _ := none
  attempts := 0
  requestIds := 0
  plans := 0
  received := []

/-- A job starts fresh if its slots are within the limit and its inputs are not. -/
lemma fresh_limitedJob {n maxParallelism : ℕ} {slots : Fin n → ℕ} (hlimit : maxParallelism < 100)
    (hslots : ∑ i, slots i ≤ maxParallelism) : (limitedJob maxParallelism slots).Fresh where
  limited := hlimit
  trades := ⟨fun _ => rfl, fun _ => rfl, fun _ _ => rfl, rfl, rfl, rfl, fun _ _ => rfl⟩
  onJob _ := rfl
  target _ := rfl
  assigned := by
    refine (Finset.sum_le_sum fun i _ => ?_).trans hslots
    simp only [limitedJob]
    split_ifs with hi
    · exact Nat.zero_le _
    · exact le_rfl
  unstarted i := by
    simp only [limitedJob]
    split_ifs with hi
    · exact .inl rfl
    · exact .inr ⟨_, rfl⟩
  mintSlotsAllowed _ := rfl
  granted _ := rfl
  received := rfl
  responses := rfl
  replacementRequests _ := rfl

/-- A node with room for another worker, and queued inputs. -/
def roomy (activeWorkers : ℕ) : ReaddView where
  now := 100
  gatesGreen := true
  fastRecover := false
  activeWorkers
  throttledWorkers := 0
  dynamicFuncRam := true
  inLocalDevMode := false
  instanceCpus := 4
  queuedInputs := 50
  anotherWorkerFits := true
  lastMemoryShedAt := 0
  lastMemoryReaddAt := 0

/-- One node starts with a worker less than it has slots, another one hands a slot to a
replacement; then there is room for a probe. -/
def roomyRun : Fleet (Fin 4) :=
  (((fleet (Fin 4)).guarded WithinCap).exec (limitedJob 4 ![2, 2, 0, 0])
    [.start 0 2, .start 1 1, .askReplacement 0 1,
      .bootReplacement 0 true ![0, 0, 1, 0], .readReplacement 0, .start 2 1,
      .readd 2 (roomy 1)]).get (by decide +kernel)

theorem stays_within_cap_roomyRun :
    roomyRun.running ≤ roomyRun.maxParallelism ∧ roomyRun.running = 4 := by
  have hrun : (fleet (Fin 4)).Run WithinCap (limitedJob 4 ![2, 2, 0, 0])
      [.start 0 2, .start 1 1, .askReplacement 0 1,
        .bootReplacement 0 true ![0, 0, 1, 0], .readReplacement 0, .start 2 1,
        .readd 2 (roomy 1)] roomyRun :=
    System.run_of_exec_guarded (Option.some_get _).symm
  refine ⟨?_, by decide +kernel⟩
  exact stays_within_cap
    ⟨_, _, fresh_limitedJob (by decide) (by decide), hrun⟩

/-- A node with two workers for the two slots that the limit allows probes past them. -/
def probingRun : Fleet (Fin 1) :=
  (((fleet (Fin 1)).guarded System.always).exec (limitedJob 2 ![2])
    [.start 0 2, .readd 0 (roomy 2)]).get (by decide +kernel)

theorem probe_exceeds_cap :
    ¬ ∀ s : Fleet (Fin 1), (fleet (Fin 1)).Reachable System.always s →
      s.running ≤ s.maxParallelism := by
  intro h
  have hrun : (fleet (Fin 1)).Run System.always (limitedJob 2 ![2])
      [.start 0 2, .readd 0 (roomy 2)] probingRun :=
    System.run_of_exec_guarded (Option.some_get _).symm
  have hle := h _ ⟨_, _, fresh_limitedJob (by decide) (by decide), hrun⟩
  revert hle
  decide +kernel

end Burla.Slots
