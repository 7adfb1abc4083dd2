/-
The target of a node, and what is taken from it: the grants of `trade_slots` (job_endpoints.py),
the sheds that `push_state` brings (head_client.py), and the slots that are handed to replacement
nodes (`_job_watcher`, job_watcher.py).

Each of the three knows how much to take some time before it does.  A grant is computed under
`dynamic_retire_lock`, and subtracted when its idle workers have been retired one after another;
a replacement is planned for the deficit of some attempt of the request, and subtracted when an
answer is seen, perhaps that to a later attempt.  As long as what is promised in these ways is
covered by the target (`TargetNode.Covered`), nothing is taken that the node does not own.

The main result is `TargetNode.owned_of_backed`.
-/
import Burla.Lib.Messages
import Burla.Lib.System
import Burla.Slots.Trade
import Mathlib.Data.List.Basic

namespace Burla.Slots

namespace DonorView

variable (v : DonorView) (targetParallelism slotsRequested : ℤ)

/-- The slots of a grant that no live worker stands behind. -/
def unbackedGranted : ℤ :=
  if v.recentlyPressured ∧ v.replacementRequestId = none then
    min slotsRequested (max 0 (targetParallelism - v.aliveWorkers.length))
  else 0

/-- The places of the idle workers. -/
def idleIndices : List ℕ :=
  (v.workers.zipIdx.filter fun e => !e.1.retired && (e.1.isIdle && !e.1.hasCurrentInput)).map
    Prod.snd

/-- `idle_to_give`. -/
def idleToGive : List ℕ :=
  if v.queueDrained = true then
    v.idleIndices.take (slotsRequested - v.unbackedGranted targetParallelism slotsRequested).toNat
  else []

lemma length_idleIndices : v.idleIndices.length = v.idleWorkers.length := by
  have hzip : ∀ (l : List TradeWorker) (n : ℕ) (p : TradeWorker → Bool),
      ((l.zipIdx n).filter fun e => p e.1).length = (l.filter p).length := by
    intro l n p
    induction l generalizing n with
    | nil => rfl
    | cons w l ih =>
      rw [List.zipIdx_cons, List.filter_cons, List.filter_cons]
      split_ifs with h
      · rw [List.length_cons, List.length_cons, ih]
      · exact ih _
  rw [idleIndices, List.length_map, idleWorkers, aliveWorkers, List.filter_filter]
  rw [hzip v.workers 0 fun w => !w.retired && (w.isIdle && !w.hasCurrentInput)]
  refine congrArg List.length (List.filter_congr fun w _ => ?_)
  exact Bool.and_comm _ _

/-- A grant is what no worker stands behind, and the idle workers that are given. -/
lemma grant_eq : v.grant targetParallelism slotsRequested =
    v.unbackedGranted targetParallelism slotsRequested +
      (v.idleToGive targetParallelism slotsRequested).length := by
  have hgrant : v.grant targetParallelism slotsRequested =
      if v.queueDrained then
        v.unbackedGranted targetParallelism slotsRequested + min (v.idleWorkers.length : ℤ)
          (max 0 (slotsRequested - v.unbackedGranted targetParallelism slotsRequested))
      else v.unbackedGranted targetParallelism slotsRequested := rfl
  rw [hgrant, idleToGive]
  split_ifs with hdrained
  · rw [List.length_take, length_idleIndices]
    omega
  · simp

variable {v targetParallelism slotsRequested}

/-- A node that has as many slots as live workers gives up no more than it has. -/
lemma grant_le_target (h : (v.aliveWorkers.length : ℤ) ≤ targetParallelism) :
    v.grant targetParallelism slotsRequested ≤ targetParallelism := by
  have := v.grant_le_max targetParallelism slotsRequested
  omega

/-- While a replacement is asked for, a grant is of idle workers only. -/
lemma grant_le_alive (h : v.replacementRequestId ≠ none) :
    v.grant targetParallelism slotsRequested ≤ v.aliveWorkers.length := by
  have hunbacked : v.unbackedGranted targetParallelism slotsRequested = 0 := by
    rw [unbackedGranted, if_neg fun hboth => h hboth.2]
  have hidle := v.idleWorkers_le
  rw [grant_eq, hunbacked, idleToGive]
  split_ifs
  · rw [List.length_take, length_idleIndices]
    omega
  · simp

end DonorView

/-! ### The node -/

/-- A grant that is being carried out, under the lock. -/
structure Grant where
  slots : ℤ
  /-- The idle workers that are yet to be retired. -/
  toRetire : List ℕ
  deriving DecidableEq

structure TargetNode where
  targetParallelism : ℤ
  workers : List TradeWorker
  shedSlotsPending : ℤ
  grant : Option Grant
  replacementRequestId : Option ℕ
  /-- The deficits that have been sent under the request's id. -/
  deficits : List ℤ
  /-- What has been subtracted, with the target before. -/
  subtractions : List (ℤ × ℤ)
  deriving DecidableEq

inductive TargetEvent
  /-- `trade_slots` gets the lock, and computes its grant. -/
  | trade (view : DonorView) (slotsRequested : ℤ)
  /-- The next idle worker is retired. -/
  | retire
  /-- The grant is subtracted and recorded, and the lock is free. -/
  | granted
  /-- A push brings a shed. -/
  | shed (slots : ℕ)
  /-- An attempt of a replacement request, under its id or a new one. -/
  | attempt (newId : ℕ)
  /-- The answer to the request is seen: what was planned for one of its deficits. -/
  | handedOver (n slotsBooted : ℕ)
  /-- A refusal (409) is seen. -/
  | refused
  /-- A neighbor has granted slots. -/
  | received (slots : ℕ)
  | minted (slots : ℕ)
  /-- `dynamic_worker_readd_loop` goes past the target. -/
  | probe
  /-- Stranded inputs. -/
  | reclaim (queuedInputs cpuCount : ℕ)
  /-- Workers retire, come back, take inputs and finish them. -/
  | workers (workers : List TradeWorker)

namespace TargetNode

/-- A node that has just been assigned. -/
def new (workers : List TradeWorker) : TargetNode where
  targetParallelism := workers.length
  workers := workers
  shedSlotsPending := 0
  grant := none
  replacementRequestId := none
  deficits := []
  subtractions := []

variable (s : TargetNode)

/-- How many workers are alive. -/
def alive : ℕ := (s.workers.filter fun w => !w.retired).length

/-- Slots are taken from the target. -/
def subtract (slots : ℤ) : TargetNode :=
  { s with
    targetParallelism := s.targetParallelism - slots
    subtractions := s.subtractions ++ [(slots, s.targetParallelism)] }

/-- `worker.retired = True`. -/
def retireWorker (k : ℕ) : TargetNode :=
  { s with workers := s.workers.modify k fun w => { w with retired := true } }

/-- The request has been answered for good. -/
def endRequest : TargetNode := { s with replacementRequestId := none, deficits := [] }

/-- One step. -/
def step : TargetEvent → Option TargetNode
  | .trade view slotsRequested =>
    if s.grant = none ∧ view.workers = s.workers ∧
        view.replacementRequestId = s.replacementRequestId then
      some { s with
        grant := some
          { slots := view.grant s.targetParallelism slotsRequested
            toRetire := view.idleToGive s.targetParallelism slotsRequested } }
    else none
  | .retire =>
    match s.grant with
    | some ⟨slots, k :: toRetire⟩ => some { s.retireWorker k with grant := some ⟨slots, toRetire⟩ }
    | _ => none
  | .granted =>
    match s.grant with
    | some ⟨slots, []⟩ => some { s.subtract slots with grant := none }
    | _ => none
  | .shed slots =>
    let applied := min (slots : ℤ) s.targetParallelism
    some { s.subtract applied with shedSlotsPending := s.shedSlotsPending + applied }
  | .attempt newId =>
    let deficit := s.targetParallelism - s.alive
    if 0 < deficit then
      some { s with
        replacementRequestId := some (s.replacementRequestId.getD newId)
        deficits := s.deficits ++ [deficit] }
    else none
  | .handedOver n slotsBooted =>
    match s.deficits[n]? with
    | some deficit =>
      if (slotsBooted : ℤ) ≤ deficit then some (s.subtract slotsBooted).endRequest else none
    | none => none
  | .refused => if s.replacementRequestId = none then none else some s.endRequest
  | .received slots | .minted slots =>
    some { s with targetParallelism := s.targetParallelism + slots }
  | .probe =>
    if s.targetParallelism - s.alive ≤ 0 then
      some { s with targetParallelism := s.targetParallelism + 1 }
    else none
  | .reclaim queuedInputs cpuCount =>
    if 0 < queuedInputs ∧ s.targetParallelism = 0 ∧ s.alive = 0 then
      some { s with targetParallelism := min queuedInputs cpuCount }
    else none
  | .workers workers => some { s with workers := workers }

/-! ### The claim and the condition -/

/-- The target is not negative, and nothing was ever taken that was not there. -/
def Owned : Prop := 0 ≤ s.targetParallelism ∧ ∀ e ∈ s.subtractions, e.1 ≤ e.2

/-- The slots of the grant that is being carried out. -/
def granting : ℤ := max 0 ((s.grant.map Grant.slots).getD 0)

/-- The largest deficit of the request. -/
def asked : ℤ := s.deficits.foldr max 0

/-- A grant is computed only when the target covers the live workers and what is asked for in the
replacement request; no deficit is sent that counts workers of a grant as gone; and a shed leaves
what is promised otherwise. -/
def Backed : TargetEvent → Prop
  | .trade _ _ => s.alive + s.asked ≤ s.targetParallelism
  | .attempt _ => s.granting ≤ s.alive
  | .shed slots => min (slots : ℤ) s.targetParallelism + s.granting + s.asked ≤ s.targetParallelism
  | _ => True

instance : (a : TargetEvent) → Decidable (s.Backed a)
  | .trade _ _ => inferInstanceAs (Decidable (_ ≤ _))
  | .attempt _ => inferInstanceAs (Decidable (_ ≤ _))
  | .shed _ => inferInstanceAs (Decidable (_ ≤ _))
  | .retire | .granted | .handedOver .. | .refused | .received _ | .minted _ | .probe |
    .reclaim .. | .workers _ => .isTrue trivial

end TargetNode

/-- A node on a job. -/
def targetSystem : System TargetNode TargetEvent where
  init s := ∃ workers, s = TargetNode.new workers
  step := TargetNode.step

/-! ### The invariant -/

namespace TargetNode

/-- What is promised is covered by the target. -/
structure Covered (s : TargetNode) : Prop where
  covered : s.granting + s.asked ≤ s.targetParallelism
  /-- Deficits are those of a request. -/
  request : s.replacementRequestId = none → s.deficits = []
  owned : ∀ e ∈ s.subtractions, e.1 ≤ e.2

variable {s t : TargetNode}

lemma granting_nonneg : 0 ≤ s.granting := le_max_left _ _

lemma asked_nonneg : 0 ≤ s.asked := by
  unfold asked
  cases s.deficits with
  | nil => exact le_rfl
  | cons d deficits =>
    rw [List.foldr_cons]
    have : 0 ≤ deficits.foldr max 0 := by
      induction deficits with
      | nil => exact le_rfl
      | cons _ _ ih => exact ih.trans (le_max_right _ _)
    exact this.trans (le_max_right _ _)

lemma le_asked {d : ℤ} (h : d ∈ s.deficits) : d ≤ s.asked := by
  unfold asked
  generalize s.deficits = deficits at h
  induction deficits with
  | nil => cases h
  | cons d' deficits ih =>
    rw [List.foldr_cons]
    rcases List.mem_cons.1 h with rfl | h
    · exact le_max_left _ _
    · exact (ih h).trans (le_max_right _ _)

lemma asked_append {d c : ℤ} (h : s.asked ≤ c) (hd : d ≤ c) :
    (s.deficits ++ [d]).foldr max 0 ≤ c := by
  unfold asked at h
  generalize s.deficits = deficits at h
  induction deficits with
  | nil => exact max_le hd h
  | cons d' deficits ih =>
    rw [List.foldr_cons] at h
    rw [List.cons_append, List.foldr_cons]
    exact max_le ((le_max_left _ _).trans h) (ih ((le_max_right _ _).trans h))

namespace Covered

lemma of_new (workers : List TradeWorker) : Covered (new workers) where
  covered := by
    show max 0 0 + 0 ≤ (workers.length : ℤ)
    simp
  request _ := rfl
  owned := nofun

/-- A target that does not shrink. -/
lemma grow (h : Covered s) {slots : ℤ} (hle : s.targetParallelism ≤ slots) :
    Covered { s with targetParallelism := slots } where
  covered := h.covered.trans hle
  request := h.request
  owned := h.owned

lemma log (h : Covered s) {slots : ℤ} (hle : slots ≤ s.targetParallelism) :
    ∀ e ∈ (s.subtract slots).subtractions, e.1 ≤ e.2 := by
  intro e he
  rcases List.mem_append.1 he with he | he
  · exact h.owned e he
  · obtain rfl := List.mem_singleton.1 he
    exact hle

/-- **A grant is computed.** -/
lemma trade (h : Covered s) {view : DonorView} {slotsRequested : ℤ}
    (hbacked : s.alive + s.asked ≤ s.targetParallelism) (hworkers : view.workers = s.workers)
    (hid : view.replacementRequestId = s.replacementRequestId) {toRetire : List ℕ} :
    Covered { s with grant := some ⟨view.grant s.targetParallelism slotsRequested, toRetire⟩ } := by
  have halive : view.aliveWorkers.length = s.alive := by
    rw [DonorView.aliveWorkers, hworkers, alive]
  have hcovered := h.covered
  have hgranting := granting_nonneg (s := s)
  have hasked := asked_nonneg (s := s)
  refine ⟨?_, h.request, h.owned⟩
  show max 0 (view.grant s.targetParallelism slotsRequested) + s.asked ≤ s.targetParallelism
  by_cases hnone : s.replacementRequestId = none
  · -- nothing is asked for, and the grant is within the target
    have hzero : s.asked = 0 := by
      rw [asked, h.request hnone]
      rfl
    have hle : view.grant s.targetParallelism slotsRequested ≤ s.targetParallelism :=
      DonorView.grant_le_target (by omega)
    omega
  · have hle : view.grant s.targetParallelism slotsRequested ≤ s.alive := by
      rw [← halive]
      exact DonorView.grant_le_alive (hid ▸ hnone)
    omega

/-- **No backed step takes what is promised.** -/
theorem step {a : TargetEvent} (h : Covered s) (hbacked : s.Backed a)
    (hstep : s.step a = some t) : Covered t := by
  have hcovered := h.covered
  have hgranting := granting_nonneg (s := s)
  have hasked := asked_nonneg (s := s)
  cases a with
  | trade view slotsRequested =>
    simp only [TargetNode.step] at hstep
    split_ifs at hstep with hlock
    cases hstep
    exact h.trade hbacked hlock.2.1 hlock.2.2
  | retire =>
    simp only [TargetNode.step] at hstep
    split at hstep
    · rename_i slots k toRetire hgrant
      cases hstep
      have hsame : s.granting = max 0 slots := by rw [granting, hgrant]; rfl
      refine ⟨?_, h.request, h.owned⟩
      show max 0 slots + s.asked ≤ s.targetParallelism
      omega
    · cases hstep
  | granted =>
    simp only [TargetNode.step] at hstep
    split at hstep
    · rename_i slots hgrant
      cases hstep
      have hsame : s.granting = max 0 slots := by rw [granting, hgrant]; rfl
      refine ⟨?_, h.request, h.log (by omega)⟩
      show max 0 0 + s.asked ≤ s.targetParallelism - slots
      omega
    · cases hstep
  | shed slots =>
    cases hstep
    have hleft : min (slots : ℤ) s.targetParallelism + s.granting + s.asked ≤
        s.targetParallelism := hbacked
    refine ⟨?_, h.request, h.log (min_le_right _ _)⟩
    show s.granting + s.asked ≤ s.targetParallelism - min (slots : ℤ) s.targetParallelism
    omega
  | attempt newId =>
    simp only [TargetNode.step] at hstep
    split_ifs at hstep with hdeficit
    cases hstep
    have hgone : s.granting ≤ s.alive := hbacked
    refine ⟨?_, nofun, h.owned⟩
    show s.granting + (s.deficits ++ [s.targetParallelism - s.alive]).foldr max 0 ≤
      s.targetParallelism
    have hle := asked_append (s := s) (d := s.targetParallelism - s.alive)
      (c := s.targetParallelism - s.granting) (by omega) (by omega)
    omega
  | handedOver n slotsBooted =>
    simp only [TargetNode.step] at hstep
    cases hdeficit : s.deficits[n]? with
    | none =>
      rw [hdeficit] at hstep
      cases hstep
    | some deficit =>
      rw [hdeficit] at hstep
      simp only at hstep
      split_ifs at hstep with hplanned
      cases hstep
      have hle := le_asked (List.mem_of_getElem? hdeficit)
      refine ⟨?_, fun _ => rfl, h.log (by omega)⟩
      show s.granting + 0 ≤ s.targetParallelism - slotsBooted
      omega
  | refused =>
    simp only [TargetNode.step] at hstep
    split_ifs at hstep
    cases hstep
    refine ⟨?_, fun _ => rfl, h.owned⟩
    show s.granting + 0 ≤ s.targetParallelism
    omega
  | received slots =>
    cases hstep
    exact h.grow (by omega)
  | minted slots =>
    cases hstep
    exact h.grow (by omega)
  | probe =>
    simp only [TargetNode.step] at hstep
    split_ifs at hstep
    cases hstep
    exact h.grow (by omega)
  | reclaim queuedInputs cpuCount =>
    simp only [TargetNode.step] at hstep
    split_ifs at hstep with hstranded
    cases hstep
    exact h.grow (by omega)
  | workers workers =>
    cases hstep
    exact ⟨h.covered, h.request, h.owned⟩

end Covered

lemma invariant_covered : targetSystem.Invariant Backed Covered where
  init s hs := by
    obtain ⟨workers, rfl⟩ := hs
    exact Covered.of_new workers
  step _ _ _ h hbacked hstep := h.step hbacked hstep

/-- **The target is never negative, and each subtraction is of slots that are there,** in every
run in which grants are computed only when the target covers the live workers and the slots asked
for, deficits are sent only when they leave out the workers of a grant, and sheds take only what
is not promised. -/
theorem owned_of_backed (hr : targetSystem.Reachable Backed s) : s.Owned := by
  have h := invariant_covered.reachable hr
  refine ⟨?_, h.owned⟩
  have hcovered := h.covered
  have hgranting := granting_nonneg (s := s)
  have hasked := asked_nonneg (s := s)
  omega

/-! ### Runs -/

section Runs

/-- Four idle workers. -/
def idleNode : TargetNode := new (List.replicate 4 ⟨false, true, false⟩)

/-- A node whose queue is drained. -/
def drainedView (s : TargetNode) : DonorView where
  now := 100
  lastPressureRetirementAt := 0
  replacementRequestId := s.replacementRequestId
  workers := s.workers
  queuedInputs := 0
  allInputsUploaded := true
  jobAssignedAt := 0

/-- Two slots are traded away, and a worker that is lost is replaced elsewhere. -/
def tradedNode : TargetNode :=
  ((targetSystem.guarded Backed).exec idleNode
    [.trade (drainedView idleNode) 2, .retire, .retire, .granted,
      .workers [⟨true, true, false⟩, ⟨true, true, false⟩, ⟨true, true, false⟩, ⟨false, true, false⟩],
      .attempt 0, .handedOver 0 1]).get (by decide +kernel)

theorem owned_of_backed_tradedNode : tradedNode.Owned :=
  owned_of_backed ⟨idleNode, _, ⟨_, rfl⟩, System.run_of_exec_guarded (Option.some_get _).symm⟩

/-- A shed takes all slots, and before its workers are retired a neighbor asks for four. -/
def shedAndTraded : TargetNode :=
  ((targetSystem.guarded System.always).exec idleNode
    [.shed 4, .trade (drainedView idleNode) 4, .retire, .retire, .retire, .retire, .granted]).get
    (by decide +kernel)

/-- The node has given away four slots that it did not have. -/
theorem target_is_negative : ∃ s, targetSystem.Reachable System.always s ∧ ¬s.Owned ∧
    s.targetParallelism = -4 := by
  have htarget : shedAndTraded.targetParallelism = -4 := by decide +kernel
  refine ⟨shedAndTraded,
    ⟨idleNode, _, ⟨_, rfl⟩, System.run_of_exec_guarded (Option.some_get _).symm⟩, ?_, htarget⟩
  intro h
  have := h.1
  rw [htarget] at this
  omega

end Runs

end TargetNode

end Burla.Slots
