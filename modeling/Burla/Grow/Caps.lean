/-
The caps of the cluster.

The budget of a job is taken from the fleet as it is registered when the job starts, and is
spent by replacement nodes later on.  It may be more than is left of a cap: nodes that have been
planned are not in the fleet before their task has registered them, and what other jobs have
booted since the job started is not taken off its budget.  Nor does a budget of vCPUs say
anything of GPUs, when the machines that are booted have some.

The main results are

* `Fleet.within_caps`: the caps hold in every run in which no budget is more than what is left;
* `Fleet.concurrent_grow_over_cap`: two jobs that start before any of their nodes is registered
  get the same vCPUs.
-/
import Burla.Grow.Fleet
import Mathlib.Algebra.Order.BigOperators.Group.List

namespace Burla.Grow

open Burla.Assign (NodeStatus)

variable {μ γ ν κ : Type*} [DecidableEq γ] {cat : Catalog μ γ} {caps : Resource γ → ℕ}

/-! ### What machines count for -/

namespace Catalog

variable {r : Resource γ} {planned : List μ} {model : γ}

lemma total_append (ms ms' : List μ) :
    cat.total (ms ++ ms') r = cat.total ms r + cat.total ms' r := by
  simp only [total, List.map_append, List.sum_append]

lemma total_takeAt {ms rest : List μ} {n : ℕ} {m : μ} (h : takeAt ms n = some (m, rest)) :
    cat.total ms r = cat.usage m r + cat.total rest r := by
  simp only [total]
  rw [((takeAt_perm h).map _).sum_eq, List.map_cons, List.sum_cons]

lemma total_eq_zero (h : ∀ m ∈ planned, cat.usage m r = 0) : cat.total planned r = 0 := by
  refine List.sum_eq_zero fun n hn => ?_
  obtain ⟨m, hm, rfl⟩ := List.mem_map.1 hn
  exact h m hm

/-- Machines take no more of a resource than is planned of it. -/
lemma total_vcpus_le : cat.total planned .vcpus ≤ cat.plannedCpuCount planned := by
  refine List.sum_le_sum fun m _ => ?_
  simp only [usage]
  split_ifs
  · exact Nat.zero_le _
  · exact Nat.le_refl _

lemma total_gpus_le : cat.total planned (.gpus model) ≤ cat.plannedGpuCount planned := by
  refine List.sum_le_sum fun m _ => ?_
  simp only [usage]
  split_ifs
  · exact Nat.le_refl _
  · exact Nat.zero_le _

end Catalog

namespace Fleet

/-! ### The condition -/

/-- The machines that are planned with this budget fit into what is left of the caps. For a GPU
job that is all that the budget is for; a CPU job must be grown with machines without GPUs. -/
def Covers (cat : Catalog μ γ) (caps : Resource γ → ℕ) (s : Fleet μ γ ν κ) (b : Budget)
    (gpu : Option γ) (planned : List μ) : Prop :=
  match gpu with
  | none => (∀ cpus ∈ b.maxAdditionalCpus, cpus + s.committed cat .vcpus ≤ caps .vcpus) ∧
      ∀ m ∈ planned, cat.gpus m = 0
  | some model =>
    ∀ gpus ∈ b.maxAdditionalGpus, gpus + s.committed cat (.gpus model) ≤ caps (.gpus model)

instance (s : Fleet μ γ ν κ) (b : Budget) (gpu : Option γ) (planned : List μ) :
    Decidable (s.Covers cat caps b gpu planned) :=
  match gpu with
  | none => inferInstanceAs (Decidable (_ ∧ _))
  | some model => inferInstanceAs (Decidable (∀ gpus ∈ b.maxAdditionalGpus,
      gpus + s.committed cat (.gpus model) ≤ caps (.gpus model)))

/-- No node is booted from a budget that is more than what is left. -/
def Covered (cat : Catalog μ γ) (caps : Resource γ → ℕ) (s : Fleet μ γ ν κ) :
    FleetEvent μ γ ν κ → Prop
  | .startJob _ _ gpu planned _ =>
    planned ≠ [] → s.Covers cat caps (s.growBudget cat caps gpu) gpu planned
  | .replace j _ _ planned =>
    planned ≠ [] → ∀ job ∈ s.jobs j, s.Covers cat caps job.remaining job.gpu planned
  | _ => True

instance [DecidableEq μ] (s : Fleet μ γ ν κ) (e : FleetEvent μ γ ν κ) :
    Decidable (s.Covered cat caps e) :=
  match e with
  | .startJob _ _ gpu planned _ => inferInstanceAs (Decidable (planned ≠ [] →
      s.Covers cat caps (s.growBudget cat caps gpu) gpu planned))
  | .replace j _ _ planned => inferInstanceAs (Decidable (planned ≠ [] → ∀ job ∈ s.jobs j,
      s.Covers cat caps job.remaining job.gpu planned))
  | .register _ | .drop _ | .status _ _ | .endJob _ => .isTrue trivial

/-! ### The invariant -/

/-- The budget that a job is grown from applies to it. -/
def Budgeted (gpu : Option γ) (b : Budget) : Prop :=
  match gpu with
  | none => b.maxAdditionalCpus ≠ none
  | some _ => b.maxAdditionalGpus ≠ none

omit [DecidableEq γ] in
lemma Budgeted.spend {gpu : Option γ} {b : Budget} (h : Budgeted gpu b) (cpus gpus : ℕ) :
    Budgeted gpu (b.spend cpus gpus) := by
  cases gpu <;> simpa [Budgeted, Budget.spend] using h

structure Sound (cat : Catalog μ γ) (caps : Resource γ → ℕ) (s : Fleet μ γ ν κ) : Prop where
  within : s.WithinCaps cat caps
  budgeted : ∀ j job, s.jobs j = some job → job.grow = true → Budgeted job.gpu job.remaining

variable {s t : Fleet μ γ ν κ} {r : Resource γ} {planned : List μ} {b : Budget} {gpu : Option γ}

lemma budgeted_growBudget : Budgeted gpu (s.growBudget cat caps gpu) := by
  cases gpu <;> simp [Budgeted, growBudget]

lemma committed_startNodes :
    (s.startNodes planned).committed cat r = s.committed cat r + cat.total planned r := by
  show cat.total s.live r + cat.total (s.planned ++ planned) r = _
  rw [Catalog.total_append, committed, fleetResources]
  omega

/-- Nodes that are planned with a budget that is left stay within the caps. -/
lemma WithinCaps.startNodes (h : s.WithinCaps cat caps) (hbudgeted : Budgeted gpu b)
    (hrespects : b.Respects cat gpu planned) (hcovers : s.Covers cat caps b gpu planned) :
    (s.startNodes planned).WithinCaps cat caps := by
  intro r
  rw [committed_startNodes]
  obtain ⟨hcpus, hgpus, hmodel⟩ := hrespects
  have hr := h r
  cases gpu with
  | none =>
    obtain ⟨cpus, hb⟩ := Option.ne_none_iff_exists'.1 hbudgeted
    obtain ⟨hleft, hnone⟩ := hcovers
    cases r with
    | vcpus =>
      have hplanned := hcpus cpus hb
      have hfits := hleft cpus hb
      have htotal : cat.total planned .vcpus ≤ cat.plannedCpuCount planned :=
        Catalog.total_vcpus_le
      omega
    | gpus model =>
      have hzero : cat.total planned (.gpus model) = 0 := by
        refine Catalog.total_eq_zero fun m hm => ?_
        simp [Catalog.usage, hnone m hm]
      omega
  | some model =>
    obtain ⟨gpus, hb⟩ := Option.ne_none_iff_exists'.1 hbudgeted
    cases r with
    | vcpus =>
      have hzero : cat.total planned .vcpus = 0 := by
        refine Catalog.total_eq_zero fun m hm => ?_
        simp [Catalog.usage, (hmodel model rfl m hm).1]
      omega
    | gpus other =>
      by_cases hother : other = model
      · subst hother
        have hplanned := hgpus gpus hb
        have hfits := hcovers gpus hb
        have htotal : cat.total planned (.gpus other) ≤ cat.plannedGpuCount planned :=
          Catalog.total_gpus_le
        omega
      · -- the machines have the job's GPU and no other
        have hzero : cat.total planned (.gpus other) = 0 := by
          refine Catalog.total_eq_zero fun m hm => ?_
          simp [Catalog.usage, (hmodel model rfl m hm).2, Ne.symm hother]
        omega

/-- A budget that is more than what is left lets a machine through that goes over the cap. -/
lemma over_cap_of_budget {cpus : ℕ} {m : μ} (hcpus : b.maxAdditionalCpus = some cpus)
    (hgpus : b.maxAdditionalGpus = none) (hover : caps .vcpus < cpus + s.committed cat .vcpus)
    (hm : cat.cpus m = cpus) (hm' : cat.gpus m = 0) :
    b.Respects cat none [m] ∧ ¬ (s.startNodes [m]).WithinCaps cat caps := by
  refine ⟨⟨fun c hc => ?_, fun g hg => ?_, fun model hmodel => ?_⟩, fun hwithin => ?_⟩
  · obtain rfl : cpus = c := Option.some.inj (hcpus.symm.trans hc)
    simp [Catalog.plannedCpuCount, hm]
  · simp [hgpus] at hg
  · simp at hmodel
  · have htotal : cat.total [m] .vcpus = cpus := by simp [Catalog.total, Catalog.usage, hm, hm']
    have hvcpus := hwithin .vcpus
    rw [committed_startNodes, htotal] at hvcpus
    omega

/-- What a registered node counts for. -/
def share (cat : Catalog μ γ) (r : Resource γ) (node : FleetNode μ) : ℕ :=
  if node.status.terminal = true then 0 else cat.usage node.machineType r

lemma fleetResources_eq : s.fleetResources cat r = (s.nodes.map (share cat r)).sum := by
  unfold fleetResources live
  induction s.nodes with
  | nil => rfl
  | cons node nodes ih =>
    cases hterminal : node.status.terminal with
    | true => simpa [Catalog.total, share, hterminal] using ih
    | false => simpa [Catalog.total, share, hterminal] using ih

/-- A node that changes its status counts for no more than before. -/
lemma sum_share_modify (cat : Catalog μ γ) (r : Resource γ) (nodes : List (FleetNode μ)) (n : ℕ)
    (new : NodeStatus) :
    ((nodes.modify n fun node => { node with status := node.status.update new }).map
      (share cat r)).sum ≤ (nodes.map (share cat r)).sum := by
  induction nodes generalizing n with
  | nil => simp
  | cons node nodes ih =>
    cases n with
    | zero =>
      have hnode :
          share cat r { node with status := node.status.update new } ≤ share cat r node := by
        cases hterminal : node.status.terminal with
        | true => simp [share, NodeStatus.terminal_update hterminal]
        | false =>
          show (if _ then 0 else _) ≤ (if _ then 0 else _)
          rw [hterminal, if_neg Bool.false_ne_true]
          split_ifs
          · exact Nat.zero_le _
          · exact Nat.le_refl _
      simp only [List.modify_zero_cons, List.map_cons, List.sum_cons]
      omega
    | succ n =>
      have htail := ih n
      simp only [List.modify_succ_cons, List.map_cons, List.sum_cons]
      omega

/-! ### Every run -/

variable [DecidableEq ν] [DecidableEq κ] {e : FleetEvent μ γ ν κ}

omit [DecidableEq ν] in
lemma Sound.startJob (h : Sound cat caps s) {j : κ} {grow admitted : Bool}
    (hcovers : planned ≠ [] → s.Covers cat caps (s.growBudget cat caps gpu) gpu planned)
    (hstep : s.startJob cat caps j grow gpu planned admitted = some t) : Sound cat caps t := by
  unfold Fleet.startJob at hstep
  simp only at hstep
  split_ifs at hstep with hplan hexists
  · obtain rfl := Option.some.inj hstep
    exact h
  · obtain rfl := Option.some.inj hstep
    obtain ⟨hgrow, hrespects⟩ := hplan
    refine ⟨?_, fun j' job' hjob' hgrows => ?_⟩
    · show (s.startNodes planned).WithinCaps cat caps
      by_cases hnone : planned = []
      · subst hnone
        intro r
        rw [committed_startNodes]
        exact h.within r
      · rw [startBudget, if_pos (hgrow.resolve_right hnone)] at hrespects
        exact h.within.startNodes budgeted_growBudget hrespects (hcovers hnone)
    · by_cases hj : j' = j
      · subst hj
        obtain rfl := Option.some.inj (hjob'.symm.trans (Function.update_self ..))
        obtain rfl : grow = true := hgrows
        exact budgeted_growBudget.spend _ _
      · exact h.budgeted j' job' ((Function.update_of_ne hj ..).symm.trans hjob') hgrows

lemma Sound.replace (h : Sound cat caps s) {j : κ} {requestingNode : ν} {requestId : ℕ}
    (hcovers : planned ≠ [] → ∀ job ∈ s.jobs j, s.Covers cat caps job.remaining job.gpu planned)
    (hstep : s.replace cat j requestingNode requestId planned = some t) : Sound cat caps t := by
  unfold Fleet.replace at hstep
  split at hstep
  · obtain rfl := Option.some.inj hstep
    exact h
  · next job hjob =>
    split_ifs at hstep with hover hreplay hrespects hnone
    · obtain rfl := Option.some.inj hstep
      exact h
    · obtain rfl := Option.some.inj hstep
      exact h
    · obtain rfl := Option.some.inj hstep
      exact h
    · obtain rfl := Option.some.inj hstep
      have hgrow : job.grow = true := by simpa using (not_or.1 hover).2
      have hbudgeted := h.budgeted j job hjob hgrow
      refine ⟨h.within.startNodes hbudgeted hrespects (hcovers hnone job hjob),
        fun j' job' hjob' hgrows => ?_⟩
      by_cases hj : j' = j
      · subst hj
        obtain rfl := Option.some.inj (hjob'.symm.trans (Function.update_self ..))
        exact hbudgeted.spend _ _
      · exact h.budgeted j' job' ((Function.update_of_ne hj ..).symm.trans hjob') hgrows

lemma Sound.step (h : Sound cat caps s) (hok : s.Covered cat caps e)
    (hstep : fleetStep cat caps s e = some t) : Sound cat caps t := by
  cases e with
  | startJob j grow gpu planned admitted => exact h.startJob hok hstep
  | replace j requestingNode requestId planned => exact h.replace hok hstep
  | register n =>
    obtain ⟨⟨m, rest⟩, htake, rfl⟩ := Option.map_eq_some_iff.1 hstep
    refine ⟨fun r => ?_, h.budgeted⟩
    -- the node counts as before, now among those that are live
    have hwithin := h.within r
    have htotal : cat.total s.planned r = cat.usage m r + cat.total rest r :=
      Catalog.total_takeAt htake
    simp only [committed, fleetResources_eq, List.map_append, List.sum_append, List.map_cons,
      List.map_nil, List.sum_cons, List.sum_nil] at hwithin ⊢
    have hshare : share cat r ⟨m, .booting⟩ = cat.usage m r := rfl
    omega
  | drop n =>
    obtain ⟨⟨m, rest⟩, htake, rfl⟩ := Option.map_eq_some_iff.1 hstep
    refine ⟨fun r => ?_, h.budgeted⟩
    have hwithin := h.within r
    have htotal : cat.total s.planned r = cat.usage m r + cat.total rest r :=
      Catalog.total_takeAt htake
    simp only [committed, fleetResources_eq] at hwithin ⊢
    omega
  | status n new =>
    obtain rfl := Option.some.inj hstep
    refine ⟨fun r => ?_, h.budgeted⟩
    have hwithin := h.within r
    have hshare := sum_share_modify cat r s.nodes n new
    simp only [committed, fleetResources_eq] at hwithin ⊢
    omega
  | endJob j =>
    obtain ⟨job, hjob, rfl⟩ := Option.map_eq_some_iff.1 hstep
    refine ⟨h.within, fun j' job' hjob' hgrows => ?_⟩
    by_cases hj : j' = j
    · subst hj
      obtain rfl := Option.some.inj (hjob'.symm.trans (Function.update_self ..))
      exact h.budgeted j' job hjob hgrows
    · exact h.budgeted j' job' ((Function.update_of_ne hj ..).symm.trans hjob') hgrows

lemma sound_invariant :
    (fleet cat caps : System (Fleet μ γ ν κ) _).Invariant (Covered cat caps) (Sound cat caps) where
  init s h := ⟨h.1, fun j job hjob => by simp [h.2 j] at hjob⟩
  step _ _ _ h hok hstep := Sound.step h hok hstep

/-- **The caps hold.** When no node is booted from a budget that is more than what is left of
the caps, and no CPU job is grown with machines that have GPUs, the live nodes and the planned
ones stay within the caps. -/
theorem within_caps (hreachable : (fleet cat caps).Reachable (Covered cat caps) s) :
    s.WithinCaps cat caps :=
  (sound_invariant.reachable hreachable).within

/-- Machines that are called by their number of vCPUs. -/
def cpuMachines : Catalog ℕ Unit := ⟨id, fun _ => 0, fun _ => none⟩

def tenEach : Resource Unit → ℕ := fun _ => 10

/-- A head without nodes. -/
def empty : Fleet ℕ Unit ℕ ℕ := ⟨[], [], fun _ => none⟩

lemma init_empty : (fleet cpuMachines tenEach).init empty :=
  ⟨fun _ => Nat.zero_le _, fun _ => rfl⟩

/-- Two jobs start one after the other, and the second boots a replacement. -/
def growEvents : List (FleetEvent ℕ Unit ℕ ℕ) :=
  [.startJob 0 true none [6] true, .register 0, .startJob 1 true none [2] true, .register 0,
    .replace 1 0 0 [2]]

def grown : Fleet ℕ Unit ℕ ℕ :=
  (((fleet cpuMachines tenEach).guarded (Covered cpuMachines tenEach)).exec empty growEvents).get
    (by decide +kernel)

theorem within_caps_grown :
    grown.WithinCaps cpuMachines tenEach ∧ grown.committed cpuMachines .vcpus = 10 := by
  have hrun : (fleet cpuMachines tenEach).Run (Covered cpuMachines tenEach) empty growEvents
      grown :=
    System.run_of_exec_guarded (Option.some_get _).symm
  exact ⟨within_caps ⟨_, _, init_empty, hrun⟩, by decide +kernel⟩

/-- Two jobs start before the nodes of the first are registered. -/
def concurrentEvents : List (FleetEvent ℕ Unit ℕ ℕ) :=
  [.startJob 0 true none [8] true, .startJob 1 true none [8] true, .register 0, .register 0]

def overgrown : Fleet ℕ Unit ℕ ℕ :=
  (((fleet cpuMachines tenEach).guarded System.always).exec empty concurrentEvents).get
    (by decide +kernel)

theorem concurrent_grow_over_cap :
    ¬ ∀ s : Fleet ℕ Unit ℕ ℕ, (fleet cpuMachines tenEach).Reachable System.always s →
      s.WithinCaps cpuMachines tenEach := by
  intro h
  have hrun : (fleet cpuMachines tenEach).Run System.always empty concurrentEvents overgrown :=
    System.run_of_exec_guarded (Option.some_get _).symm
  have hvcpus := h overgrown ⟨_, _, init_empty, hrun⟩ .vcpus
  revert hvcpus
  decide +kernel

end Fleet

end Burla.Grow
