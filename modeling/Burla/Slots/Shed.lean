/-
Workers that are retired because slots were taken back (`push_state` in head_client.py, and the two
that act on `shed_slots_pending`: `_process_inputs` in worker_client.py and `_job_watcher` in
job_watcher.py).

A shed lowers the target at once and books as many workers to be retired.  A worker that comes
between two inputs retires itself while any are booked, and the watcher retires idle ones; neither
looks at the target.  The slots that were taken may have had no workers, and workers may have gone
in the meantime.

The main result is `Burla.Slots.sheds_surplus`: as long as every step leaves as many workers beyond
the target as are booked, only workers beyond the target are retired for it.
-/
import Burla.Lib.System
import Burla.Slots.Counters
import Burla.Slots.Target

namespace Burla.Slots

/-! ### The node -/

/-- Where a worker's `_process_inputs` task is. -/
inductive LoopPlace
  /-- Not yet in its loop. -/
  | start
  /-- Before `inputs_queue.get()` returns. -/
  | waiting
  | calling
  deriving DecidableEq

structure ShedWorker where
  retired : Bool
  place : LoopPlace
  deriving DecidableEq

namespace ShedWorker

/-- A worker that has just been booted, or is on the node when it is assigned. -/
def fresh : ShedWorker := { retired := false, place := .start }

variable (w : ShedWorker)

def isIdle : Bool := w.place ≠ .calling

/-- What a grant looks at. -/
def seen : TradeWorker where
  retired := w.retired
  isIdle := w.isIdle
  hasCurrentInput := !w.isIdle

def retire : ShedWorker := { w with retired := true }

def goTo (place : LoopPlace) : ShedWorker := { w with place := place }

end ShedWorker

structure ShedNode where
  counters : Counters
  workers : List ShedWorker
  /-- The trade that has `dynamic_retire_lock`. -/
  grant : Option Grant
  /-- What was retired for a shed: how many workers there were before, and the target. -/
  sheds : List (ℕ × ℤ)

inductive ShedEvent
  /-- A push brings a shed. -/
  | shed (slots : ℕ)
  | minted (slots : ℕ)
  /-- A neighbor has granted slots. -/
  | received (slots : ℕ)
  /-- `dynamic_worker_readd_loop` goes past the target. -/
  | probe
  /-- A worker that it has booted joins. -/
  | boot
  /-- A worker dies, or is retired for pressure or revoked. -/
  | lose (k : ℕ)
  /-- A worker comes to the top of its loop. -/
  | top (k : ℕ)
  | take (k : ℕ)
  /-- The watcher looks at what is booked. -/
  | watcher (queuedInputs : ℕ)
  /-- `trade_slots` gets the lock. -/
  | trade (view : DonorView) (slotsRequested : ℕ)
  /-- The next idle worker is retired. -/
  | retire
  | traded
  | tradeFails
  /-- Slots have gone to replacement nodes. -/
  | handedOver (slots : ℕ)
  /-- Stranded inputs. -/
  | reclaim (queuedInputs cpuCount : ℕ)

/-- How many workers are not retired. -/
def aliveOf (workers : List ShedWorker) : ℕ := (workers.filter fun w => !w.retired).length

/-- The watcher's loop over the workers: what they are then, and how many are still booked. -/
def watcherShed : List ShedWorker → ℤ → List ShedWorker × ℤ
  | [], pending => ([], pending)
  | w :: ws, pending =>
    if pending ≤ 0 then (w :: ws, pending)
    else if w.retired || !w.isIdle then
      let p := watcherShed ws pending
      (w :: p.1, p.2)
    else
      let p := watcherShed ws (pending - 1)
      (w.retire :: p.1, p.2)

namespace ShedNode

/-- A node that has just been assigned. -/
def new (workers : ℕ) : ShedNode where
  counters := { targetParallelism := workers, shedSlotsPending := 0 }
  workers := List.replicate workers .fresh
  grant := none
  sheds := []

variable (s : ShedNode)

def target : ℤ := s.counters.targetParallelism

def pending : ℤ := s.counters.shedSlotsPending

def alive : ℕ := aliveOf s.workers

def setTarget (target : ℤ) : ShedNode :=
  { s with counters := { s.counters with targetParallelism := target } }

def setWorker (k : ℕ) (w : ShedWorker) : ShedNode := { s with workers := s.workers.set k w }

/-- The retirement of one worker for a shed. -/
def spend (k : ℕ) (w : ShedWorker) : ShedNode where
  counters := { s.counters with shedSlotsPending := s.pending - 1 }
  workers := s.workers.set k w.retire
  grant := s.grant
  sheds := s.sheds ++ [(s.alive, s.target)]

def step : ShedEvent → Option ShedNode
  | .shed slots => some { s with counters := s.counters.applyShed slots }
  | .minted slots | .received slots => some (s.setTarget (s.target + slots))
  | .probe => if s.target - s.alive ≤ 0 then some (s.setTarget (s.target + 1)) else none
  | .boot => some { s with workers := s.workers ++ [.fresh] }
  | .lose k => (s.workers[k]?).map fun w => s.setWorker k w.retire
  | .top k =>
    match s.workers[k]? with
    | some w =>
      if w.place = .waiting ∨ w.retired then none
      else if s.pending > 0 then some (s.spend k (w.goTo .waiting))
      else some (s.setWorker k (w.goTo .waiting))
    | none => none
  | .take k =>
    match s.workers[k]? with
    | some w => if w.place = .waiting then some (s.setWorker k (w.goTo .calling)) else none
    | none => none
  | .watcher queuedInputs =>
    if s.grant.isSome then none
    else if s.pending > 0 ∧ queuedInputs = 0 then
      let p := watcherShed s.workers s.pending
      some { s with
        counters := { s.counters with shedSlotsPending := p.2 }
        workers := p.1
        sheds := s.sheds ++ (List.range (s.pending - p.2).toNat).map fun i =>
          (s.alive - i, s.target) }
    else some s
  | .trade view slotsRequested =>
    if s.grant = none ∧ view.workers = s.workers.map ShedWorker.seen then
      some { s with
        grant := some
          { slots := view.grant s.target slotsRequested
            toRetire := view.idleToGive s.target slotsRequested } }
    else none
  | .retire =>
    match s.grant with
    | some ⟨slots, k :: toRetire⟩ =>
      (s.workers[k]?).map fun w =>
        { s.setWorker k w.retire with grant := some ⟨slots, toRetire⟩ }
    | _ => none
  | .traded =>
    match s.grant with
    | some ⟨slots, []⟩ => some { s.setTarget (s.target - slots) with grant := none }
    | _ => none
  | .tradeFails => if s.grant.isSome then some { s with grant := none } else none
  | .handedOver slots => some (s.setTarget (s.target - slots))
  | .reclaim queuedInputs cpuCount =>
    if 0 < queuedInputs ∧ s.target = 0 ∧ s.alive = 0 then
      some (s.setTarget (min queuedInputs cpuCount))
    else none

/-! ### The claim and the condition -/

/-- Whenever a worker was retired for a shed, there were more than the target. -/
def ShedsSurplus : Prop := ∀ e ∈ s.sheds, e.2 < e.1

/-- A shed takes slots only when they all have workers, beside those that are booked already; and
while any are booked, the target is not raised and no worker is lost but beyond them. -/
def Spare : ShedEvent → Prop
  | .shed slots => 0 < min (slots : ℤ) s.target → s.target + s.pending ≤ s.alive
  | .minted slots | .received slots => 0 < s.pending → s.target + slots + s.pending ≤ s.alive
  | .probe => 0 < s.pending → s.target + 1 + s.pending ≤ s.alive
  | .lose _ | .retire => 0 < s.pending → s.target + s.pending < s.alive
  | .reclaim _ _ => s.pending ≤ 0
  | _ => True

instance : (e : ShedEvent) → Decidable (s.Spare e)
  | .shed _ | .minted _ | .received _ | .probe | .lose _ | .retire =>
    inferInstanceAs (Decidable (_ → _))
  | .reclaim _ _ => inferInstanceAs (Decidable (_ ≤ _))
  | .boot | .top _ | .take _ | .watcher _ | .trade .. | .traded | .tradeFails | .handedOver _ =>
    .isTrue trivial

end ShedNode

def shedSystem : System ShedNode ShedEvent where
  init s := ∃ workers, s = ShedNode.new workers
  step := ShedNode.step

/-! ### How many workers are left -/

section Alive

variable {l : List ShedWorker} {k : ℕ} {w w' : ShedWorker}

lemma aliveOf_set (hk : l[k]? = some w) (w' : ShedWorker) (hretired : w'.retired = w.retired) :
    aliveOf (l.set k w') = aliveOf l := by
  obtain ⟨hlt, hget⟩ := List.getElem?_eq_some_iff.1 hk
  obtain ⟨l₁, l₂, hl, -, hset⟩ : ∃ l₁ l₂, l = l₁ ++ l[k] :: l₂ ∧ l₁.length = k ∧
      l.set k w' = l₁ ++ w' :: l₂ := List.exists_of_set hlt
  rw [aliveOf, aliveOf, hset]
  conv_rhs => rw [hl, hget]
  simp only [List.filter_append, List.filter_cons, hretired]
  split_ifs <;> simp

/-- A worker that is retired is one less, unless it was retired already. -/
lemma aliveOf_set_retire (hk : l[k]? = some w) :
    aliveOf (l.set k w'.retire) = aliveOf l - if w.retired then 0 else 1 := by
  obtain ⟨hlt, hget⟩ := List.getElem?_eq_some_iff.1 hk
  obtain ⟨l₁, l₂, hl, -, hset⟩ : ∃ l₁ l₂, l = l₁ ++ l[k] :: l₂ ∧ l₁.length = k ∧
      l.set k w'.retire = l₁ ++ w'.retire :: l₂ := List.exists_of_set hlt
  rw [aliveOf, aliveOf, hset]
  conv_rhs => rw [hl, hget]
  cases hw : w.retired <;> simp [List.filter_append, ShedWorker.retire, hw]

lemma alive_pos (hk : l[k]? = some w) (hw : w.retired = false) : 0 < aliveOf l := by
  refine List.length_pos_of_mem (a := w) ?_
  simpa [hw] using List.mem_of_getElem? hk

/-- The watcher retires one worker for each that it takes off the booking, of those booked. -/
lemma watcherShed_spec (l : List ShedWorker) (pending : ℤ) :
    (watcherShed l pending).2 ≤ pending ∧ (0 ≤ pending → 0 ≤ (watcherShed l pending).2) ∧
      (aliveOf (watcherShed l pending).1 : ℤ) + (pending - (watcherShed l pending).2) =
        aliveOf l := by
  induction l generalizing pending with
  | nil => simp [watcherShed]
  | cons w l ih =>
    rw [watcherShed]
    split_ifs with hnone hskip
    · simp
    · obtain ⟨hle, hpos, halive⟩ := ih pending
      refine ⟨hle, hpos, ?_⟩
      simp only [aliveOf, List.filter_cons] at halive ⊢
      cases w.retired <;> simp <;> omega
    · obtain ⟨hle, hpos, halive⟩ := ih (pending - 1)
      dsimp only
      refine ⟨by omega, fun _ => hpos (by omega), ?_⟩
      simp only [Bool.or_eq_true, not_or, Bool.not_eq_true] at hskip
      simp only [aliveOf, List.filter_cons, ShedWorker.retire, hskip.1] at halive ⊢
      simp
      omega

end Alive

/-! ### What is kept -/

namespace ShedNode

variable {s t : ShedNode} {k : ℕ} {w : ShedWorker}

/-- There are as many workers beyond the target as are booked to be retired. -/
structure Backed (s : ShedNode) : Prop where
  backed : 0 < s.pending → s.target + s.pending ≤ s.alive
  grant : ∀ g, s.grant = some g → 0 ≤ g.slots
  surplus : s.ShedsSurplus

lemma backed_new {workers : ℕ} : Backed (new workers) where
  backed h := absurd h (lt_irrefl _)
  grant := nofun
  surplus := nofun

/-- The counters change, and what is booked stays covered. -/
lemma Backed.counters (hs : Backed s) {c : Counters}
    (hc : 0 < c.shedSlotsPending → c.targetParallelism + c.shedSlotsPending ≤ s.alive) :
    Backed { s with counters := c } where
  backed := hc
  grant := hs.grant
  surplus := hs.surplus

/-- A worker changes, and what is booked stays covered. -/
lemma Backed.workers (hs : Backed s) {workers : List ShedWorker}
    (hw : 0 < s.pending → s.target + s.pending ≤ aliveOf workers) :
    Backed { s with workers := workers } where
  backed := hw
  grant := hs.grant
  surplus := hs.surplus

lemma Backed.setGrant (hs : Backed s) {grant : Option Grant}
    (hgrant : ∀ g, grant = some g → 0 ≤ g.slots) : Backed { s with grant := grant } where
  backed := hs.backed
  grant := hgrant
  surplus := hs.surplus

lemma Backed.shed (hs : Backed s) {slots : ℕ} (hspare : s.Spare (.shed slots)) :
    Backed { s with counters := s.counters.applyShed slots } := by
  refine hs.counters fun hpos => ?_
  have hold := hs.backed
  simp only [Spare] at hspare
  simp only [pending, target] at hold hspare
  unfold Counters.applyShed at hpos ⊢
  split_ifs at hpos ⊢ with hslots
  · simp only at hpos ⊢
    -- What is taken from the target is booked, so that their sum stays.
    by_cases htaken : 0 < min (slots : ℤ) s.counters.targetParallelism
    · have := hspare htaken
      omega
    · have := hold (by omega)
      omega
  · exact hold hpos

/-- **A worker that comes to the top of its loop is beyond the target if it is retired.** -/
lemma Backed.top (hs : Backed s) (h : s.step (.top k) = some t) : Backed t := by
  simp only [step] at h
  split at h
  · rename_i w hk
    split_ifs at h with hstay hpending
    · obtain rfl := Option.some.inj h
      simp only [not_or, Bool.not_eq_true] at hstay
      have hbacked := hs.backed hpending
      have halive : aliveOf (s.workers.set k (w.goTo .waiting).retire) = s.alive - 1 := by
        rw [aliveOf_set_retire hk, hstay.2]
        rfl
      have hpos := alive_pos hk hstay.2
      refine ⟨fun _ => ?_, hs.grant, fun e he => ?_⟩
      · show s.target + (s.pending - 1) ≤ (aliveOf (s.workers.set k (w.goTo .waiting).retire) : ℤ)
        rw [halive]
        simp only [alive] at hbacked ⊢
        omega
      · rcases List.mem_append.1 he with he | he
        · exact hs.surplus e he
        · obtain rfl := List.mem_singleton.1 he
          show s.target < s.alive
          omega
    · obtain rfl := Option.some.inj h
      exact hs.workers fun hpos => absurd hpos hpending
  · cases h

/-- **The watcher only retires workers beyond the target.** -/
lemma Backed.watcher (hs : Backed s) {queuedInputs : ℕ}
    (h : s.step (.watcher queuedInputs) = some t) : Backed t := by
  simp only [step] at h
  split_ifs at h with hgrant hlook
  · obtain rfl := Option.some.inj h
    obtain ⟨hle, hpos, halive⟩ := watcherShed_spec s.workers s.pending
    have hbacked := hs.backed hlook.1
    refine ⟨fun _ => ?_, hs.grant, fun e he => ?_⟩
    · show s.target + (watcherShed s.workers s.pending).2 ≤
        (aliveOf (watcherShed s.workers s.pending).1 : ℤ)
      simp only [alive] at hbacked
      omega
    · rcases List.mem_append.1 he with he | he
      · exact hs.surplus e he
      · -- Each is retired while at least one is booked.
        obtain ⟨i, hi, rfl⟩ := List.mem_map.1 he
        have hi := List.mem_range.1 hi
        have := hpos hlook.1.le
        show s.target < ((s.alive - i : ℕ) : ℤ)
        omega
  · obtain rfl := Option.some.inj h
    exact hs

/-- **Each step that is spare keeps what is booked covered.** -/
lemma Backed.step (hs : Backed s) {e : ShedEvent} (hspare : s.Spare e)
    (h : s.step e = some t) : Backed t := by
  cases e with
  | shed slots =>
    obtain rfl := Option.some.inj h
    exact hs.shed hspare
  | minted slots =>
    obtain rfl := Option.some.inj h
    exact hs.counters hspare
  | received slots =>
    obtain rfl := Option.some.inj h
    exact hs.counters hspare
  | probe =>
    simp only [ShedNode.step, Option.ite_none_right_eq_some, Option.some.injEq] at h
    obtain ⟨-, rfl⟩ := h
    exact hs.counters hspare
  | boot =>
    obtain rfl := Option.some.inj h
    refine hs.workers fun hpos => ?_
    have hbacked := hs.backed hpos
    simp only [alive, aliveOf] at hbacked
    simp only [aliveOf, List.filter_append, List.length_append]
    omega
  | lose k =>
    simp only [ShedNode.step, Option.map_eq_some_iff] at h
    obtain ⟨w, hk, rfl⟩ := h
    refine hs.workers fun hpos => ?_
    have hmore := hspare hpos
    simp only [alive] at hmore
    rw [aliveOf_set_retire hk]
    split_ifs <;> omega
  | top k => exact hs.top h
  | take k =>
    simp only [ShedNode.step] at h
    split at h
    · rename_i w hk
      simp only [Option.ite_none_right_eq_some, Option.some.injEq] at h
      obtain ⟨-, rfl⟩ := h
      refine hs.workers fun hpos => ?_
      rw [aliveOf_set hk (w.goTo .calling) rfl]
      exact hs.backed hpos
    · cases h
  | watcher queuedInputs => exact hs.watcher h
  | trade view slotsRequested =>
    simp only [ShedNode.step, Option.ite_none_right_eq_some, Option.some.injEq] at h
    obtain ⟨-, rfl⟩ := h
    refine hs.setGrant fun g hg => ?_
    obtain rfl := Option.some.inj hg
    exact view.grant_nonneg s.target (Int.natCast_nonneg slotsRequested)
  | retire =>
    simp only [ShedNode.step] at h
    split at h
    · rename_i slots k toRetire hgrant
      obtain ⟨w, hk, rfl⟩ := Option.map_eq_some_iff.1 h
      have hworkers : Backed (s.setWorker k w.retire) := by
        refine hs.workers fun hpos => ?_
        have hmore := hspare hpos
        simp only [alive] at hmore
        rw [aliveOf_set_retire hk]
        split_ifs <;> omega
      refine hworkers.setGrant fun g hg => ?_
      obtain rfl := Option.some.inj hg
      exact hs.grant ⟨slots, k :: toRetire⟩ hgrant
    · cases h
  | traded =>
    simp only [ShedNode.step] at h
    split at h
    · rename_i slots hgrant
      obtain rfl := Option.some.inj h
      have hslots : 0 ≤ slots := hs.grant _ hgrant
      have htarget : Backed (s.setTarget (s.target - slots)) := by
        refine hs.counters fun hpos => ?_
        have hbacked := hs.backed hpos
        show s.target - slots + s.pending ≤ s.alive
        omega
      exact htarget.setGrant nofun
    · cases h
  | tradeFails =>
    simp only [ShedNode.step, Option.ite_none_right_eq_some, Option.some.injEq] at h
    obtain ⟨-, rfl⟩ := h
    exact hs.setGrant nofun
  | handedOver slots =>
    obtain rfl := Option.some.inj h
    refine hs.counters fun hpos => ?_
    have hbacked := hs.backed hpos
    show s.target - slots + s.pending ≤ s.alive
    omega
  | reclaim queuedInputs cpuCount =>
    simp only [ShedNode.step, Option.ite_none_right_eq_some, Option.some.injEq] at h
    obtain ⟨-, rfl⟩ := h
    exact hs.counters fun hpos => absurd hspare (not_le.2 hpos)

end ShedNode

/-- **A shed retires only workers beyond the target, while every step spares those.** -/
theorem sheds_surplus {s : ShedNode} (h : shedSystem.Reachable ShedNode.Spare s) :
    s.ShedsSurplus := by
  have hs : ShedNode.Backed s := by
    refine System.Invariant.reachable (P := ShedNode.Backed) ⟨?_, ?_⟩ h
    · rintro _ ⟨_, rfl⟩
      exact ShedNode.backed_new
    · exact fun _ _ _ hs hspare hstep => hs.step hspare hstep
  exact hs.surplus

/-- Two of three slots are taken back, and all three have workers. -/
def shedOfWorkers : List ShedEvent :=
  [.top 0, .take 0, .top 1, .take 1, .top 2, .shed 2, .top 0, .watcher 0]

theorem sheds_surplus_shedOfWorkers :
    (((shedSystem.guarded ShedNode.Spare).exec (ShedNode.new 3) shedOfWorkers).get
      (by decide)).ShedsSurplus :=
  sheds_surplus ⟨_, shedOfWorkers, ⟨3, rfl⟩, System.run_of_exec_guarded (Option.some_get _).symm⟩

/-- Two slots are granted and taken back before a worker has been booted for them. -/
def shedOfSlots : List ShedEvent := [.top 0, .take 0, .minted 2, .shed 2, .top 0]

/-- The node's only worker, which the target asks for, is retired. -/
theorem shed_retires_needed_worker : ∃ s : ShedNode, shedSystem.Reachable System.always s ∧
    s.target = 1 ∧ s.alive = 0 ∧ s.sheds = [(1, 1)] ∧ ¬s.ShedsSurplus := by
  refine ⟨(shedSystem.exec (ShedNode.new 1) shedOfSlots).get (by decide),
    System.Reachable.exec ⟨_, [], ⟨1, rfl⟩, .nil⟩ (Option.some_get _).symm, rfl, rfl, rfl,
    fun h => ?_⟩
  exact absurd (h (1, 1) (List.mem_singleton.2 rfl)) (lt_irrefl _)

end Burla.Slots
