/-
Replacement requests are settled exactly once.

A request's id stays with its node until the answer to one of its attempts is seen.  As long as the
attempts come to the head in the order in which they were made, there is no attempt of an older
request that could still have a plan made for it, and what the node subtracts is what the head has
recorded under the id (`Consistent`).  A refusal must not hide a plan that is there.

The main result is `Exchange.settled_of_orderly`.
-/
import Burla.Replace.Exchange
import Mathlib.Data.List.Nodup

namespace Burla.Replace

open Burla.Grow (Catalog Budget)

variable {μ γ ι : Type*}

/-- The slots that the head has planned for a node. -/
def slotsFor [DecidableEq ι] (plans : List (Plan μ ι)) (i : ι) : ℕ :=
  ((plans.filter fun p => p.node = i).map fun p => slotsOf p.planned).sum

/-- The machines of all plans. -/
def machines (plans : List (Plan μ ι)) : List μ :=
  plans.flatMap fun p => p.planned.map Planned.machineType

/-- A budget and what is left of it, after machines that count for `spent`. -/
def Charged (budget left : Option ℕ) (spent : ℕ) : Prop :=
  ∀ n ∈ budget, ∃ m, left = some m ∧ m + spent = n

/-! ### Counts -/

section Counts

variable {plans : List (Plan μ ι)} {p : Plan μ ι} {i : ι}

lemma slotsFor_append [DecidableEq ι] :
    slotsFor (plans ++ [p]) i = slotsFor plans i + if p.node = i then slotsOf p.planned else 0 := by
  simp only [slotsFor, List.filter_append, List.map_append, List.sum_append]
  split_ifs with h
  · simp [h]
  · simp [h]

lemma machines_append : machines (plans ++ [p]) =
    machines plans ++ p.planned.map Planned.machineType := by
  simp [machines]

lemma plannedCpuCount_append {cat : Catalog μ γ} {l l' : List μ} :
    cat.plannedCpuCount (l ++ l') = cat.plannedCpuCount l + cat.plannedCpuCount l' := by
  simp [Catalog.plannedCpuCount]

lemma plannedGpuCount_append {cat : Catalog μ γ} {l l' : List μ} :
    cat.plannedGpuCount (l ++ l') = cat.plannedGpuCount l + cat.plannedGpuCount l' := by
  simp [Catalog.plannedGpuCount]

/-- A plan within what is left is charged once more. -/
lemma Charged.spend {budget left : Option ℕ} {spent more : ℕ} (h : Charged budget left spent)
    (hle : ∀ n ∈ left, more ≤ n) : Charged budget (left.map (· - more)) (spent + more) := by
  intro n hn
  obtain ⟨m, rfl, hm⟩ := h n hn
  have := hle m rfl
  exact ⟨m - more, rfl, by omega⟩

end Counts

namespace Exchange

variable [DecidableEq ι]

/-- What is to hold of the requests of all nodes. -/
structure Settled (cat : Catalog μ γ) (s : Exchange μ γ ι) : Prop where
  /-- A node without a request has given away what was planned for it. -/
  handedOver : ∀ i, (s.nodes i).replacementRequestId = none →
    (s.nodes i).handedOver = slotsFor s.plans i
  /-- Each plan is booted once. -/
  booted : s.boots = s.plans.map Plan.planned
  /-- No request has two plans. -/
  once : (s.plans.map fun p => (p.node, p.requestId)).Nodup
  /-- Each plan is charged once. -/
  cpus : Charged s.budget.maxAdditionalCpus s.job.remaining.maxAdditionalCpus
    (cat.plannedCpuCount (machines s.plans))
  gpus : Charged s.budget.maxAdditionalGpus s.job.remaining.maxAdditionalGpus
    (cat.plannedGpuCount (machines s.plans))

/-- No attempt of a node is answered after a later one of it; and one whose plan is recorded only
while the job is RUNNING, with `grow`, and new jobs are admitted. -/
def Orderly (s : Exchange μ γ ι) : Event μ ι → Prop
  | .process n _ => ∀ e ∈ takeAt s.attempts n, s.answered e.1.requestingNode < e.1.serial ∧
      (s.Recorded e.1.requestingNode e.1.requestId →
        s.job.running = true ∧ s.job.grow = true ∧ s.jobAdmissionPaused = false)
  | _ => True

instance (s : Exchange μ γ ι) : (a : Event μ ι) → Decidable (s.Orderly a)
  | .process n _ => inferInstanceAs (Decidable (∀ e ∈ takeAt s.attempts n, _ ∧ (_ → _)))
  | .attempt .. | .loseAttempt _ | .loseResponse _ | .giveUp _ | .answer _ | .retarget .. |
    .endJob | .pause | .resume => .isTrue trivial

/-! ### The invariant -/

/-- What a node is yet to subtract: the plan of its request, if there is one. -/
def owed (s : Exchange μ γ ι) (i : ι) : ℕ :=
  (((s.job.replacementRequests i).filter fun previous =>
    (s.nodes i).replacementRequestId = some previous.requestId).map
      ReplacementRequest.slotsBooted).getD 0

/-- An answer says what is recorded. -/
def Fits (s : Exchange μ γ ι) (r : Response ι) : Prop :=
  match r.answer with
  | .booted slotsBooted => ∃ previous, s.job.replacementRequests r.node = some previous ∧
      previous.requestId = r.requestId ∧ previous.slotsBooted = slotsBooted
  | .error status => status = 409 → ¬s.Recorded r.node r.requestId

/-- The records, the nodes and the messages between them agree. -/
structure Consistent (cat : Catalog μ γ) (s : Exchange μ γ ι) : Prop where
  total : ∀ i, (s.nodes i).handedOver + s.owed i = slotsFor s.plans i
  /-- An attempt that is not late is one of the request that its node has. -/
  current : ∀ a ∈ s.attempts, s.answered a.requestingNode < a.serial →
    (s.nodes a.requestingNode).replacementRequestId = some a.requestId
  made : ∀ a ∈ s.attempts, a.serial ≤ (s.nodes a.requestingNode).attempts
  past : ∀ r ∈ s.responses, r.serial ≤ s.answered r.node
  answered_le : ∀ i, s.answered i ≤ (s.nodes i).attempts
  /-- The answer that a node waits for. -/
  awaited : ∀ r ∈ s.responses, (s.nodes r.node).waiting = true →
    r.serial = (s.nodes r.node).attempts →
      (s.nodes r.node).replacementRequestId = some r.requestId ∧ s.Fits r
  /-- The plan of a request that a node has is the one that is recorded. -/
  latest : ∀ p ∈ s.plans, (s.nodes p.node).replacementRequestId = some p.requestId →
    s.Recorded p.node p.requestId
  recordedIds : ∀ i previous, s.job.replacementRequests i = some previous →
    previous.requestId ∈ s.ids
  plannedIds : ∀ p ∈ s.plans, p.requestId ∈ s.ids
  currentIds : ∀ i q, (s.nodes i).replacementRequestId = some q → q ∈ s.ids
  booted : s.boots = s.plans.map Plan.planned
  once : (s.plans.map fun p => (p.node, p.requestId)).Nodup
  cpus : Charged s.budget.maxAdditionalCpus s.job.remaining.maxAdditionalCpus
    (cat.plannedCpuCount (machines s.plans))
  gpus : Charged s.budget.maxAdditionalGpus s.job.remaining.maxAdditionalGpus
    (cat.plannedGpuCount (machines s.plans))

variable {cat : Catalog μ γ} {s t : Exchange μ γ ι} {i : ι} {q : ℕ}

omit [DecidableEq ι] in
lemma recorded_iff : s.Recorded i q ↔
    ∃ previous, s.job.replacementRequests i = some previous ∧ previous.requestId = q :=
  Option.map_eq_some_iff

omit [DecidableEq ι] in
lemma owed_of_none (h : (s.nodes i).replacementRequestId = none) : s.owed i = 0 := by
  unfold owed
  cases s.job.replacementRequests i with
  | none => rfl
  | some previous => simp [h]

omit [DecidableEq ι] in
/-- Without a plan nothing is owed. -/
lemma owed_of_not_recorded (hq : (s.nodes i).replacementRequestId = some q)
    (h : ¬s.Recorded i q) : s.owed i = 0 := by
  unfold owed
  cases hprevious : s.job.replacementRequests i with
  | none => rfl
  | some previous =>
    have hne : ¬previous.requestId = q := fun heq => h (recorded_iff.2 ⟨previous, hprevious, heq⟩)
    simp [Option.filter, hq, Ne.symm hne]

omit [DecidableEq ι] in
lemma owed_of_recorded {previous : ReplacementRequest μ}
    (h : s.job.replacementRequests i = some previous)
    (hq : (s.nodes i).replacementRequestId = some previous.requestId) :
    s.owed i = previous.slotsBooted := by
  simp [owed, Option.filter, h, hq]

omit [DecidableEq ι] in
lemma owed_congr (hjob : t.job.replacementRequests i = s.job.replacementRequests i)
    (hnode : (t.nodes i).replacementRequestId = (s.nodes i).replacementRequestId) :
    t.owed i = s.owed i := by
  rw [owed, owed, hjob, hnode]

omit [DecidableEq ι] in
lemma recorded_congr (h : t.job.replacementRequests i = s.job.replacementRequests i) :
    t.Recorded i q ↔ s.Recorded i q := by
  rw [Recorded, Recorded, h]

omit [DecidableEq ι] in
lemma fits_congr {r : Response ι}
    (h : t.job.replacementRequests r.node = s.job.replacementRequests r.node) :
    t.Fits r ↔ s.Fits r := by
  unfold Fits
  cases r.answer with
  | booted slotsBooted => rw [h]
  | error status => rw [recorded_congr h]

/-- What a node does with an answer depends on no other one. -/
lemma deliver_rest (r : Response ι) (rest : List (Response ι)) :
    Exchange.deliver { s with responses := rest } r = { s.deliver r with responses := rest } ∧
      (s.deliver r).responses = s.responses := by
  simp only [deliver]
  constructor
  · split_ifs <;> rfl
  · split_ifs <;> rfl

namespace Consistent

/-- Some messages are gone, and the job's state is another. -/
lemma of_frame (h : Consistent cat s) (hnodes : t.nodes = s.nodes)
    (hrecords : t.job.replacementRequests = s.job.replacementRequests)
    (hremaining : t.job.remaining = s.job.remaining) (hbudget : t.budget = s.budget)
    (hattempts : ∀ a ∈ t.attempts, a ∈ s.attempts)
    (hresponses : ∀ r ∈ t.responses, r ∈ s.responses) (hids : t.ids = s.ids)
    (hplans : t.plans = s.plans) (hboots : t.boots = s.boots)
    (hanswered : t.answered = s.answered) : Consistent cat t where
  total i := by
    rw [owed_congr (congrFun hrecords i) (by rw [hnodes]), hnodes, hplans]
    exact h.total i
  current a ha := by
    rw [hnodes, hanswered]
    exact h.current a (hattempts a ha)
  made a ha := by
    rw [hnodes]
    exact h.made a (hattempts a ha)
  past r hr := by
    rw [hanswered]
    exact h.past r (hresponses r hr)
  answered_le i := by
    rw [hnodes, hanswered]
    exact h.answered_le i
  awaited r hr := by
    rw [hnodes, fits_congr (congrFun hrecords r.node)]
    exact h.awaited r (hresponses r hr)
  latest p := by
    rw [hnodes, hplans, recorded_congr (congrFun hrecords p.node)]
    exact h.latest p
  recordedIds i := by
    rw [hrecords, hids]
    exact h.recordedIds i
  plannedIds p := by
    rw [hplans, hids]
    exact h.plannedIds p
  currentIds i := by
    rw [hnodes, hids]
    exact h.currentIds i
  booted := by
    rw [hboots, hplans]
    exact h.booted
  once := by
    rw [hplans]
    exact h.once
  cpus := by
    rw [hbudget, hremaining, hplans]
    exact h.cpus
  gpus := by
    rw [hbudget, hremaining, hplans]
    exact h.gpus

/-- A node changes what no request depends on, or waits no longer. -/
lemma of_node (h : Consistent cat s) {node : Node}
    (hid : node.replacementRequestId = (s.nodes i).replacementRequestId)
    (hattempts : node.attempts = (s.nodes i).attempts)
    (hover : node.handedOver = (s.nodes i).handedOver)
    (hwaiting : node.waiting = true → (s.nodes i).waiting = true) :
    Consistent cat { s with nodes := Function.update s.nodes i node } := by
  have hsame : ∀ j, (Function.update s.nodes i node j).replacementRequestId =
      (s.nodes j).replacementRequestId ∧
      (Function.update s.nodes i node j).attempts = (s.nodes j).attempts ∧
      (Function.update s.nodes i node j).handedOver = (s.nodes j).handedOver ∧
      ((Function.update s.nodes i node j).waiting = true → (s.nodes j).waiting = true) := by
    intro j
    by_cases hj : j = i
    · subst hj
      rw [Function.update_self]
      exact ⟨hid, hattempts, hover, hwaiting⟩
    · rw [Function.update_of_ne hj]
      exact ⟨rfl, rfl, rfl, id⟩
  refine ⟨?_, ?_, ?_, h.past, ?_, ?_, ?_, h.recordedIds, h.plannedIds, ?_, h.booted, h.once,
    h.cpus, h.gpus⟩
  · intro j
    have howed : owed { s with nodes := Function.update s.nodes i node } j = s.owed j :=
      owed_congr rfl (hsame j).1
    rw [howed]
    show (Function.update s.nodes i node j).handedOver + _ = _
    rw [(hsame j).2.2.1]
    exact h.total j
  · intro a ha hlate
    show (Function.update s.nodes i node a.requestingNode).replacementRequestId = _
    rw [(hsame _).1]
    exact h.current a ha hlate
  · intro a ha
    show _ ≤ (Function.update s.nodes i node a.requestingNode).attempts
    rw [(hsame _).2.1]
    exact h.made a ha
  · intro j
    show _ ≤ (Function.update s.nodes i node j).attempts
    rw [(hsame j).2.1]
    exact h.answered_le j
  · intro r hr hwait hserial
    have hserial' : r.serial = (Function.update s.nodes i node r.node).attempts := hserial
    rw [(hsame _).2.1] at hserial'
    show (Function.update s.nodes i node r.node).replacementRequestId = _ ∧ _
    rw [(hsame _).1]
    exact h.awaited r hr ((hsame _).2.2.2 hwait) hserial'
  · intro p hp hid'
    have hid'' : (Function.update s.nodes i node p.node).replacementRequestId =
        some p.requestId := hid'
    rw [(hsame _).1] at hid''
    exact h.latest p hp hid''
  · intro j id hj
    have hj' : (Function.update s.nodes i node j).replacementRequestId = some id := hj
    rw [(hsame _).1] at hj'
    exact h.currentIds j id hj'

/-- **An attempt**, of the request that there is or of a new one. -/
lemma requestReplacementNodes (h : Consistent cat s) {missingSlots : ℤ}
    (hstep : s.requestReplacementNodes i missingSlots q = some t) : Consistent cat t := by
  simp only [Exchange.requestReplacementNodes] at hstep
  split_ifs at hstep with hmay
  cases hstep
  obtain ⟨-, -, -, hnew⟩ := hmay
  -- a new id is in no record and in no plan
  have hrecorded : ∀ previous, s.job.replacementRequests i = some previous →
      ((s.nodes i).replacementRequestId.getD q = previous.requestId ↔
        (s.nodes i).replacementRequestId = some previous.requestId) := by
    intro previous hprevious
    cases (s.nodes i).replacementRequestId with
    | none =>
      refine ⟨fun heq => absurd (h.recordedIds i previous hprevious) ?_, nofun⟩
      rwa [← show q = previous.requestId from heq]
    | some id => exact ⟨congrArg some, Option.some.inj⟩
  set node : Node := { s.nodes i with
    replacementRequestId := some ((s.nodes i).replacementRequestId.getD q)
    waiting := true
    attempts := (s.nodes i).attempts + 1 } with hnode
  have hat : Function.update s.nodes i node i = node := Function.update_self _ _ _
  have hne : ∀ j, j ≠ i → Function.update s.nodes i node j = s.nodes j :=
    fun j hj => Function.update_of_ne hj _ _
  refine ⟨?_, ?_, ?_, h.past, ?_, ?_, ?_, ?_, ?_, ?_, h.booted, h.once, h.cpus, h.gpus⟩
  · intro j
    by_cases hj : j = i
    · subst hj
      have howed : owed { s with nodes := Function.update s.nodes j node } j = s.owed j := by
        unfold owed
        simp only [hat]
        cases hprevious : s.job.replacementRequests j with
        | none => rfl
        | some previous =>
          have hiff := hrecorded previous hprevious
          simp only [Option.filter, hnode, Option.some.injEq, hiff]
      show (Function.update s.nodes j node j).handedOver +
        owed { s with nodes := Function.update s.nodes j node } j = _
      rw [howed, hat]
      exact h.total j
    · have howed : owed { s with nodes := Function.update s.nodes i node } j = s.owed j :=
        owed_congr rfl (congrArg Node.replacementRequestId (hne j hj))
      show (Function.update s.nodes i node j).handedOver +
        owed { s with nodes := Function.update s.nodes i node } j = _
      rw [howed, hne j hj]
      exact h.total j
  · intro a ha hlate
    show (Function.update s.nodes i node a.requestingNode).replacementRequestId = some a.requestId
    rcases List.mem_append.1 ha with ha | ha
    · by_cases hj : a.requestingNode = i
      · rw [hj, hat, hnode, ← hj, h.current a ha hlate]
        rfl
      · rw [hne _ hj]
        exact h.current a ha hlate
    · obtain rfl := List.mem_singleton.1 ha
      rw [hat]
  · intro a ha
    show _ ≤ (Function.update s.nodes i node a.requestingNode).attempts
    rcases List.mem_append.1 ha with ha | ha
    · by_cases hj : a.requestingNode = i
      · rw [hj, hat]
        exact (hj ▸ h.made a ha).trans (Nat.le_succ _)
      · rw [hne _ hj]
        exact h.made a ha
    · obtain rfl := List.mem_singleton.1 ha
      rw [hat]
  · intro j
    show _ ≤ (Function.update s.nodes i node j).attempts
    by_cases hj : j = i
    · rw [hj, hat]
      exact (h.answered_le i).trans (Nat.le_succ _)
    · rw [hne j hj]
      exact h.answered_le j
  · intro r hr hwait hserial
    have hwait' : (Function.update s.nodes i node r.node).waiting = true := hwait
    have hserial' : r.serial = (Function.update s.nodes i node r.node).attempts := hserial
    show (Function.update s.nodes i node r.node).replacementRequestId = _ ∧ _
    by_cases hj : r.node = i
    · -- no answer to the attempt that is just made
      rw [hj, hat] at hserial'
      have hpast := (h.past r hr).trans (h.answered_le r.node)
      rw [hj] at hpast
      simp only [hnode] at hserial'
      omega
    · rw [hne _ hj] at hwait' hserial' ⊢
      exact h.awaited r hr hwait' hserial'
  · intro p hp hid
    have hid' : (Function.update s.nodes i node p.node).replacementRequestId =
        some p.requestId := hid
    show s.Recorded p.node p.requestId
    by_cases hj : p.node = i
    · rw [hj, hat] at hid'
      cases hold : (s.nodes i).replacementRequestId with
      | none =>
        simp only [hnode, hold, Option.getD_none, Option.some.injEq] at hid'
        exact absurd (hid' ▸ h.plannedIds p hp) hnew
      | some id =>
        simp only [hnode, hold, Option.getD_some] at hid'
        exact h.latest p hp (by rw [hj, hold, hid'])
    · rw [hne _ hj] at hid'
      exact h.latest p hp hid'
  · intro j previous hprevious
    exact List.mem_append_left _ (h.recordedIds j previous hprevious)
  · intro p hp
    exact List.mem_append_left _ (h.plannedIds p hp)
  · intro j id hj
    have hj' : (Function.update s.nodes i node j).replacementRequestId = some id := hj
    show id ∈ s.ids ++ [q]
    by_cases hji : j = i
    · rw [hji, hat] at hj'
      cases hold : (s.nodes i).replacementRequestId with
      | none =>
        simp only [hnode, hold, Option.getD_none, Option.some.injEq] at hj'
        exact List.mem_append_right _ (List.mem_singleton.2 hj'.symm)
      | some id' =>
        simp only [hnode, hold, Option.getD_some, Option.some.injEq] at hj'
        exact List.mem_append_left _ (hj' ▸ h.currentIds i id' hold)
    · rw [hne j hji] at hj'
      exact List.mem_append_left _ (h.currentIds j id hj')

/-- **An answer to an attempt that is not late.** -/
lemma respond (h : Consistent cat s) {a : Attempt ι} {answer : Answer}
    (hmade : a.serial ≤ (s.nodes a.requestingNode).attempts)
    (hlate : s.answered a.requestingNode < a.serial)
    (hcurrent : (s.nodes a.requestingNode).replacementRequestId = some a.requestId)
    (hfits : s.Fits ⟨a.requestingNode, a.serial, a.requestId, answer⟩) :
    Consistent cat (s.respond a answer) := by
  have hat : Function.update s.answered a.requestingNode a.serial a.requestingNode = a.serial :=
    Function.update_self _ _ _
  have hne : ∀ j, j ≠ a.requestingNode →
      Function.update s.answered a.requestingNode a.serial j = s.answered j :=
    fun j hj => Function.update_of_ne hj _ _
  have hle : ∀ j, s.answered j ≤ Function.update s.answered a.requestingNode a.serial j := by
    intro j
    by_cases hj : j = a.requestingNode
    · rw [hj, hat]
      exact hlate.le
    · rw [hne j hj]
  refine ⟨h.total, ?_, h.made, ?_, ?_, ?_, h.latest, h.recordedIds, h.plannedIds, h.currentIds,
    h.booted, h.once, h.cpus, h.gpus⟩
  · intro b hb hlater
    exact h.current b hb ((hle b.requestingNode).trans_lt hlater)
  · intro r hr
    show r.serial ≤ Function.update s.answered a.requestingNode a.serial r.node
    rcases List.mem_append.1 hr with hr | hr
    · exact (h.past r hr).trans (hle r.node)
    · obtain rfl := List.mem_singleton.1 hr
      rw [hat]
  · intro j
    show Function.update s.answered a.requestingNode a.serial j ≤ _
    by_cases hj : j = a.requestingNode
    · rw [hj, hat]
      exact hmade
    · rw [hne j hj]
      exact h.answered_le j
  · intro r hr hwait hserial
    rcases List.mem_append.1 hr with hr | hr
    · exact h.awaited r hr hwait hserial
    · obtain rfl := List.mem_singleton.1 hr
      exact ⟨hcurrent, hfits⟩

/-- **A plan is made for a request that has none.** -/
lemma recordReplacementRequest [DecidableEq γ] (h : Consistent cat s) {a : Attempt ι}
    {planned : List (Planned μ)} (hmade : a.serial ≤ (s.nodes a.requestingNode).attempts)
    (hlate : s.answered a.requestingNode < a.serial)
    (hcurrent : (s.nodes a.requestingNode).replacementRequestId = some a.requestId)
    (hnone : ¬s.Recorded a.requestingNode a.requestId)
    (hrespects : s.job.remaining.Respects cat s.job.gpu (planned.map Planned.machineType)) :
    Consistent cat (s.recordReplacementRequest cat a planned) := by
  set previous : ReplacementRequest μ := ⟨a.requestId, planned, slotsOf planned⟩ with hprevious
  have hat : Function.update s.job.replacementRequests a.requestingNode (some previous)
      a.requestingNode = some previous := Function.update_self _ _ _
  have hne : ∀ j, j ≠ a.requestingNode → Function.update s.job.replacementRequests a.requestingNode
      (some previous) j = s.job.replacementRequests j := fun j hj => Function.update_of_ne hj _ _
  have hid : a.requestId ∈ s.ids := h.currentIds _ _ hcurrent
  set plan : Plan μ ι := ⟨a.requestingNode, a.requestId, planned⟩ with hplan
  refine ⟨?_, h.current, h.made, h.past, h.answered_le, ?_, ?_, ?_, ?_, h.currentIds, ?_, ?_, ?_, ?_⟩
  · intro j
    show (s.nodes j).handedOver + _ = slotsFor (s.plans ++ [plan]) j
    rw [slotsFor_append]
    have htotal := h.total j
    by_cases hj : j = a.requestingNode
    · subst hj
      have hbefore := owed_of_not_recorded hcurrent hnone
      have hrequest : (s.recordReplacementRequest cat a planned).job.replacementRequests
          a.requestingNode = some previous := hat
      have hafter : owed (s.recordReplacementRequest cat a planned) a.requestingNode =
          slotsOf planned := owed_of_recorded hrequest hcurrent
      rw [hafter, if_pos rfl]
      show _ = slotsFor s.plans a.requestingNode + slotsOf planned
      omega
    · have hsame : owed (s.recordReplacementRequest cat a planned) j = s.owed j :=
        owed_congr (hne j hj) rfl
      rw [hsame, if_neg (Ne.symm hj)]
      exact htotal
  · intro r hr hwait hserial
    by_cases hj : r.node = a.requestingNode
    · -- the answers that are on their way are older than the attempt
      have hpast := h.past r hr
      have hserial' : r.serial = (s.nodes r.node).attempts := hserial
      rw [hj] at hpast hserial'
      omega
    · obtain ⟨hid', hfits⟩ := h.awaited r hr hwait hserial
      exact ⟨hid', (fits_congr (hne _ hj)).2 hfits⟩
  · intro p hp hid'
    show (Function.update s.job.replacementRequests a.requestingNode (some previous) p.node).map
      ReplacementRequest.requestId = some p.requestId
    by_cases hj : p.node = a.requestingNode
    · have hid'' : (s.nodes p.node).replacementRequestId = some p.requestId := hid'
      rw [hj, hat, Option.map_some, ← hcurrent, ← hj]
      exact hid''
    · rw [hne _ hj]
      rcases List.mem_append.1 hp with hp | hp
      · exact h.latest p hp hid'
      · rw [List.mem_singleton.1 hp] at hj
        exact absurd rfl hj
  · intro j previous' hj
    have hj' : Function.update s.job.replacementRequests a.requestingNode (some previous) j =
        some previous' := hj
    by_cases hja : j = a.requestingNode
    · rw [hja, hat] at hj'
      rw [← Option.some.inj hj']
      exact hid
    · rw [hne j hja] at hj'
      exact h.recordedIds j previous' hj'
  · intro p hp
    rcases List.mem_append.1 hp with hp | hp
    · exact h.plannedIds p hp
    · rw [List.mem_singleton.1 hp]
      exact hid
  · show s.boots ++ [planned] = (s.plans ++ [plan]).map Plan.planned
    rw [h.booted, List.map_append, List.map_singleton]
  · show ((s.plans ++ [plan]).map fun p => (p.node, p.requestId)).Nodup
    rw [List.map_append, List.nodup_append]
    refine ⟨h.once, List.nodup_singleton _, ?_⟩
    rintro e he e' he' rfl
    obtain ⟨p, hp, heq⟩ := List.mem_map.1 he
    rw [List.mem_singleton.1 he'] at heq
    obtain ⟨hnode, hrequest⟩ := Prod.mk.inj heq
    have hlatest := h.latest p hp (by rw [hnode, hrequest]; exact hcurrent)
    rw [hnode, hrequest] at hlatest
    exact hnone hlatest
  · show Charged s.budget.maxAdditionalCpus (s.job.remaining.maxAdditionalCpus.map _)
      (cat.plannedCpuCount (machines (s.plans ++ [plan])))
    rw [machines_append, plannedCpuCount_append]
    exact h.cpus.spend hrespects.1
  · show Charged s.budget.maxAdditionalGpus (s.job.remaining.maxAdditionalGpus.map _)
      (cat.plannedGpuCount (machines (s.plans ++ [plan])))
    rw [machines_append, plannedGpuCount_append]
    exact h.gpus.spend hrespects.2.1

/-- **A request is settled**: the node subtracts what it owes, and has no request any more. -/
lemma settle (h : Consistent cat s) {node : Node} (hlast : (s.nodes i).attempts ≤ s.answered i)
    (hid : node.replacementRequestId = none) (hattempts : node.attempts = (s.nodes i).attempts)
    (hover : node.handedOver = (s.nodes i).handedOver + s.owed i) (hwaiting : node.waiting = false) :
    Consistent cat { s with nodes := Function.update s.nodes i node } := by
  have hat : Function.update s.nodes i node i = node := Function.update_self _ _ _
  have hne : ∀ j, j ≠ i → Function.update s.nodes i node j = s.nodes j :=
    fun j hj => Function.update_of_ne hj _ _
  refine ⟨?_, ?_, ?_, h.past, ?_, ?_, ?_, h.recordedIds, h.plannedIds, ?_, h.booted, h.once,
    h.cpus, h.gpus⟩
  · intro j
    show (Function.update s.nodes i node j).handedOver +
      owed { s with nodes := Function.update s.nodes i node } j = _
    by_cases hj : j = i
    · subst hj
      have hnone : owed { s with nodes := Function.update s.nodes j node } j = 0 :=
        owed_of_none (by
          show (Function.update s.nodes j node j).replacementRequestId = none
          rw [hat, hid])
      rw [hnone, hat, hover]
      exact h.total j
    · have hsame : owed { s with nodes := Function.update s.nodes i node } j = s.owed j :=
        owed_congr rfl (congrArg Node.replacementRequestId (hne j hj))
      rw [hsame, hne j hj]
      exact h.total j
  · intro a ha hlate
    show (Function.update s.nodes i node a.requestingNode).replacementRequestId = some a.requestId
    by_cases hj : a.requestingNode = i
    · -- all attempts of the node are late now
      have hmade := h.made a ha
      have hlate' : s.answered a.requestingNode < a.serial := hlate
      rw [hj] at hmade hlate'
      omega
    · rw [hne _ hj]
      exact h.current a ha hlate
  · intro a ha
    show _ ≤ (Function.update s.nodes i node a.requestingNode).attempts
    by_cases hj : a.requestingNode = i
    · rw [hj, hat, hattempts, ← hj]
      exact h.made a ha
    · rw [hne _ hj]
      exact h.made a ha
  · intro j
    show _ ≤ (Function.update s.nodes i node j).attempts
    by_cases hj : j = i
    · rw [hj, hat, hattempts]
      exact h.answered_le i
    · rw [hne j hj]
      exact h.answered_le j
  · intro r hr hwait hserial
    have hwait' : (Function.update s.nodes i node r.node).waiting = true := hwait
    have hserial' : r.serial = (Function.update s.nodes i node r.node).attempts := hserial
    show (Function.update s.nodes i node r.node).replacementRequestId = _ ∧ _
    by_cases hj : r.node = i
    · rw [hj, hat, hwaiting] at hwait'
      cases hwait'
    · rw [hne _ hj] at hwait' hserial' ⊢
      exact h.awaited r hr hwait' hserial'
  · intro p hp hcurrent
    have hcurrent' : (Function.update s.nodes i node p.node).replacementRequestId =
        some p.requestId := hcurrent
    by_cases hj : p.node = i
    · rw [hj, hat, hid] at hcurrent'
      cases hcurrent'
    · rw [hne _ hj] at hcurrent'
      exact h.latest p hp hcurrent'
  · intro j id hj
    have hj' : (Function.update s.nodes i node j).replacementRequestId = some id := hj
    by_cases hji : j = i
    · rw [hji, hat, hid] at hj'
      cases hj'
    · rw [hne j hji] at hj'
      exact h.currentIds j id hj'

/-- **The answer that a node has waited for, or another.** -/
lemma deliver (h : Consistent cat s) {r : Response ι} (hr : r ∈ s.responses) :
    Consistent cat (s.deliver r) := by
  simp only [Exchange.deliver]
  split_ifs with htake
  · obtain ⟨hwait, hserial⟩ := htake
    obtain ⟨hid, hfits⟩ := h.awaited r hr hwait hserial
    have hlast : (s.nodes r.node).attempts ≤ s.answered r.node := hserial ▸ h.past r hr
    unfold Fits at hfits
    cases hanswer : r.answer with
    | booted slotsBooted =>
      rw [hanswer] at hfits
      obtain ⟨previous, hprevious, hrequest, hslots⟩ := hfits
      have howed := owed_of_recorded hprevious (hid.trans (congrArg some hrequest.symm))
      exact h.settle hlast rfl rfl (by rw [howed, hslots]; rfl) rfl
    | error status =>
      rw [hanswer] at hfits
      by_cases hrefused : status = 409
      · subst hrefused
        have howed := owed_of_not_recorded hid (hfits rfl)
        exact h.settle hlast rfl rfl (by rw [howed]; rfl) rfl
      · have hnode : seeAnswer (s.nodes r.node) (.error status) =
            { s.nodes r.node with waiting := false } := by
          unfold seeAnswer
          split
          · rename_i heq
            cases heq
          · rename_i heq
            cases heq
            exact absurd rfl hrefused
          · rfl
        rw [hnode]
        exact h.of_node rfl rfl rfl nofun
  · exact h

/-- **The head answers an attempt in its turn.** -/
lemma bootReplacementNodes [DecidableEq γ] (h : Consistent cat s) {a : Attempt ι}
    {planned : List (Planned μ)} (hmade : a.serial ≤ (s.nodes a.requestingNode).attempts)
    (hlate : s.answered a.requestingNode < a.serial)
    (hcurrent : (s.nodes a.requestingNode).replacementRequestId = some a.requestId)
    (hopen : s.Recorded a.requestingNode a.requestId →
      s.job.running = true ∧ s.job.grow = true ∧ s.jobAdmissionPaused = false)
    (hstep : s.bootReplacementNodes cat a planned = some t) : Consistent cat t := by
  simp only [Exchange.bootReplacementNodes] at hstep
  split_ifs at hstep with hmissing hpaused hclosed
  · cases hstep
    exact h.respond hmade hlate hcurrent fun h409 => absurd h409 (by decide)
  · cases hstep
    refine h.respond hmade hlate hcurrent fun _ hrecorded => ?_
    rw [(hopen hrecorded).2.2] at hpaused
    cases hpaused
  · cases hstep
    refine h.respond hmade hlate hcurrent fun _ hrecorded => ?_
    obtain ⟨hrunning, hgrow, -⟩ := hopen hrecorded
    rcases hclosed with hclosed | hclosed
    · rw [hrunning] at hclosed
      cases hclosed
    · rw [hgrow] at hclosed
      cases hclosed
  · cases hprevious : (s.job.replacementRequests a.requestingNode).filter
      (·.requestId = a.requestId) with
    | some previous =>
      rw [hprevious] at hstep
      cases hstep
      obtain ⟨hrecord, hrequest⟩ := Option.filter_eq_some_iff.1 hprevious
      exact h.respond hmade hlate hcurrent
        ⟨previous, hrecord, of_decide_eq_true hrequest, rfl⟩
    | none =>
      have hnone : ¬s.Recorded a.requestingNode a.requestId := by
        intro hrecorded
        obtain ⟨previous, hrecord, hrequest⟩ := recorded_iff.1 hrecorded
        rw [hrecord] at hprevious
        simp [Option.filter, hrequest] at hprevious
      rw [hprevious] at hstep
      simp only [planReplacement] at hstep
      split_ifs at hstep with hrespects hempty
      · cases hstep
        exact h.respond hmade hlate hcurrent fun _ => hnone
      · cases hstep
        refine (h.recordReplacementRequest hmade hlate hcurrent hnone hrespects).respond hmade hlate
          hcurrent ⟨⟨a.requestId, planned, slotsOf planned⟩, Function.update_self _ _ _, rfl, rfl⟩

/-- **No orderly step leaves them at odds.** -/
theorem step [DecidableEq γ] {a : Event μ ι} (h : Consistent cat s) (horderly : s.Orderly a)
    (hstep : s.step cat a = some t) : Consistent cat t := by
  cases a with
  | attempt i missingSlots newId => exact h.requestReplacementNodes hstep
  | loseAttempt n =>
    obtain ⟨e, htake, rfl⟩ := Option.map_eq_some_iff.1 hstep
    exact h.of_frame rfl rfl rfl rfl (fun _ ha => mem_of_mem_rest htake ha) (fun _ hr => hr) rfl
      rfl rfl rfl
  | loseResponse n =>
    obtain ⟨e, htake, rfl⟩ := Option.map_eq_some_iff.1 hstep
    exact h.of_frame rfl rfl rfl rfl (fun _ ha => ha) (fun _ hr => mem_of_mem_rest htake hr) rfl
      rfl rfl rfl
  | process n planned =>
    obtain ⟨e, htake, hboot⟩ := Option.bind_eq_some_iff.1 hstep
    obtain ⟨hlate, hopen⟩ := horderly e htake
    have hmem := mem_of_takeAt htake
    have hrest : Consistent cat { s with attempts := e.2 } :=
      h.of_frame rfl rfl rfl rfl (fun _ ha => mem_of_mem_rest htake ha) (fun _ hr => hr) rfl rfl
        rfl rfl
    exact hrest.bootReplacementNodes (h.made e.1 hmem) hlate (h.current e.1 hmem hlate) hopen hboot
  | giveUp i =>
    simp only [Exchange.step] at hstep
    split_ifs at hstep
    cases hstep
    exact h.of_node rfl rfl rfl nofun
  | answer n =>
    obtain ⟨e, htake, rfl⟩ := Option.map_eq_some_iff.1 hstep
    obtain ⟨heq, hresponses⟩ := deliver_rest (s := s) e.1 e.2
    rw [heq]
    refine (h.deliver (mem_of_takeAt htake)).of_frame rfl rfl rfl rfl (fun _ ha => ha) ?_ rfl rfl
      rfl rfl
    rw [hresponses]
    exact fun _ hr => mem_of_mem_rest htake hr
  | retarget i slots =>
    cases hstep
    exact h.of_node rfl rfl rfl id
  | endJob =>
    cases hstep
    exact h.of_frame rfl rfl rfl rfl (fun _ ha => ha) (fun _ hr => hr) rfl rfl rfl rfl
  | pause =>
    simp only [Exchange.step] at hstep
    split_ifs at hstep
    cases hstep
    exact h.of_frame rfl rfl rfl rfl (fun _ ha => ha) (fun _ hr => hr) rfl rfl rfl rfl
  | resume =>
    cases hstep
    exact h.of_frame rfl rfl rfl rfl (fun _ ha => ha) (fun _ hr => hr) rfl rfl rfl rfl

end Consistent

variable (ι) in
lemma invariant_consistent [DecidableEq γ] (cat : Catalog μ γ) :
    (sys (ι := ι) cat).Invariant Orderly (Consistent cat) where
  init s hs := by
    obtain ⟨grow, gpu, remaining, targetParallelism, rfl⟩ := hs
    refine ⟨?_, nofun, nofun, nofun, fun _ => le_rfl, nofun, nofun, nofun, nofun, nofun, rfl,
      List.nodup_nil, ?_, ?_⟩
    · intro i
      rfl
    · exact fun n hn => ⟨n, hn, rfl⟩
    · exact fun n hn => ⟨n, hn, rfl⟩
  step _ _ _ h horderly hstep := h.step horderly hstep

end Exchange

/-! ### Runs -/

section Runs

/-- Machines with 8 CPUs. -/
def smallMachines : Catalog Unit Unit := ⟨fun _ => 8, fun _ => 0, fun _ => none⟩

/-- A job whose nodes have 16 slots each, with a budget of 32 CPUs. -/
def growing : Exchange Unit Unit Bool :=
  Exchange.new true none ⟨some 32, none⟩ fun _ => 16

/-- A machine with 4 slots. -/
def fourSlots : List (Planned Unit) := [⟨(), 4⟩]

/-- The first answer is lost; the node asks again, with a larger deficit, and another node asks in
between. -/
def askedAgain : Exchange Unit Unit Bool :=
  (((sys smallMachines).guarded Exchange.Orderly).exec growing
    [.attempt true 3 0, .process 0 fourSlots, .loseResponse 0, .attempt false 5 1,
      .process 0 fourSlots, .giveUp true, .attempt true 6 2, .process 0 fourSlots, .answer 1,
      .answer 0]).get (by decide +kernel)

/-- The first answer is lost, and the job is over when the node asks again. -/
def askedTooLate : Exchange Unit Unit Bool :=
  (((sys smallMachines).guarded System.always).exec growing
    [.attempt true 3 0, .process 0 fourSlots, .loseResponse 0, .giveUp true, .endJob,
      .attempt true 3 1, .process 0 [], .answer 0]).get (by decide +kernel)

/-- The first attempt takes so long that the node asks again, is answered, and has another request
answered, before it is there. -/
def askedOutOfTurn : Exchange Unit Unit Bool :=
  (((sys smallMachines).guarded System.always).exec growing
    [.attempt true 3 0, .giveUp true, .attempt true 3 1, .process 1 fourSlots, .answer 0,
      .attempt true 2 2, .process 1 fourSlots, .answer 0, .process 0 fourSlots]).get
    (by decide +kernel)

end Runs

end Burla.Replace
