/-
The budgets of `plan_grow_nodes`.

Nodes are taken whole: what is planned for CPUs is rounded up to the next size, and machines are
planned by one of the two budgets only.  The main result is `Burla.Scaling.budget_respected_iff`,
which says when the counts of a plan are within both budgets all the same.
-/
import Burla.Scaling.Plan

namespace Burla.Scaling

variable {head : HeadSettings} {q : GrowRequest} {planned : List PlannedNode}

/-- What the claim says of a plan. -/
structure Respects (q : GrowRequest) (planned : List PlannedNode) : Prop where
  cpus : ∀ b ∈ q.maxAdditionalCpus, ∀ n, plannedCpuCount planned = .ok n → (n : ℤ) ≤ b
  gpus : q.funcGpu ≠ none →
    ∀ b ∈ q.maxAdditionalGpus, ∀ n, plannedGpuCount planned = .ok n → (n : ℤ) ≤ b

/-- The catalog knows the machine type. -/
def Known (machineType : Text) : Prop := ∃ spec, machineSpec machineType = .ok spec

/-- The budgets fit the plan, as the arguments say it.  By measured capacity and for a GPU, the
machines that the slots need within the branch's own budget must be within the other one as well.
Otherwise the machines for the CPUs to add, rounded up, must be within the budget. -/
def GrowRequest.Fits (head : HeadSettings) (q : GrowRequest) : Prop :=
  match q.measured with
  | some slotsPerNode =>
    (∀ b ∈ q.maxAdditionalCpus, 0 ≤ b) ∧
      (q.funcGpu ≠ none → q.measuredNodes slotsPerNode ≤ 0 ∨ Known q.machineType →
        ∀ b ∈ q.maxAdditionalGpus,
          ((q.measuredNodes slotsPerNode).toNat * gpusOf q.machineType : ℤ) ≤ b)
  | none =>
    match gpuMachineType q.funcGpu head.provider with
    | .ok (some gpuMachine) =>
      (∀ b ∈ q.maxAdditionalGpus, 0 ≤ b) ∧
        ∀ b ∈ q.maxAdditionalCpus,
          ((q.gpuNodes gpuMachine).toNat * cpuCountOf gpuMachine : ℤ) ≤ b
    | _ =>
      ∀ b ∈ q.maxAdditionalCpus,
        0 ≤ b ∧ (0 < q.slotsToAdd → q.cpuTotal head (fun mt => (cpuCountOf mt : ℤ)) ≤ b)

/-! ### Counts of the plans -/

lemma machineTypeCpuCount_of_known {machineType : Text} (h : Known machineType) :
    machineTypeCpuCount machineType = .ok (cpuCountOf machineType) := by
  obtain ⟨spec, hspec⟩ := h
  have hcount : machineTypeCpuCount machineType = .ok spec.cpus := by
    rw [machineTypeCpuCount, hspec]
  rw [hcount, cpuCountOf_eq hcount]

lemma gpus_of_known {machineType : Text} (h : Known machineType) :
    machineTypeGpuCount machineType = .ok (gpusOf machineType) := by
  obtain ⟨spec, hspec⟩ := h
  rw [machineTypeGpuCount, gpusOf, hspec]
  rfl

lemma known_of_runs {machineType : Text} (h : q.Runs machineType = true) : Known machineType := by
  obtain ⟨spec, hspec, -⟩ := bind_eq_ok.1 (GrowRequest.parallelismCapacity_of_runs h)
  exact ⟨spec, hspec⟩

/-- The count of a plan with machines of one type. -/
lemma countAll_replicate {c : Text → Except PlanError ℕ} {f : Text → ℕ} {n : ℕ}
    {machineType : Text}
    (htypes : planned.map PlannedNode.machineType = List.replicate n machineType)
    (hcount : n = 0 ∨ c machineType = .ok (f machineType)) :
    ∃ m : ℕ, countAll c planned = .ok m ∧ (m : ℤ) = n * f machineType := by
  obtain ⟨m, hm, hsum⟩ := countAll_eq (f := f) (c := c) htypes (by
    intro mt hmt
    obtain ⟨hn, rfl⟩ := List.mem_replicate.1 hmt
    exact hcount.resolve_left hn)
  exact ⟨m, hm, hsum.trans (sumOf_replicate n machineType)⟩

/-- A count that raises for the first machine raises. -/
lemma countAll_ne_ok {c : Text → Except PlanError ℕ} {n : ℕ} {machineType : Text}
    (htypes : planned.map PlannedNode.machineType = List.replicate n machineType) (hn : n ≠ 0)
    (hcount : ∀ m, c machineType ≠ .ok m) (m : ℕ) : countAll c planned ≠ .ok m := by
  intro h
  cases planned with
  | nil => exact hn (by simpa using htypes.symm)
  | cons node planned =>
    have hnode : node.machineType = machineType :=
      (List.mem_replicate.1 (htypes ▸ List.mem_cons_self :
        node.machineType ∈ List.replicate n machineType)).2
    obtain ⟨first, hfirst, -⟩ := bind_eq_ok.1 h
    exact hcount first (hnode ▸ hfirst)

/-- A count is within a bound if and only if its value is. -/
lemma forall_count_le {count : Except PlanError ℕ} {m : ℕ} {total b : ℤ} (hm : count = .ok m)
    (htotal : (m : ℤ) = total) : (∀ n, count = .ok n → (n : ℤ) ≤ b) ↔ total ≤ b := by
  constructor
  · intro h
    exact htotal ▸ h m hm
  · intro h n hn
    obtain rfl : m = n := Except.ok.inj (hm.symm.trans hn)
    exact htotal ▸ h

/-- A count that the budget itself has bounded. -/
lemma le_budget_iff {total b : ℤ} (hnonneg : 0 ≤ total) (hle : total ≤ max 0 b) :
    total ≤ b ↔ 0 ≤ b := by
  constructor
  · exact hnonneg.trans
  · intro hb
    rwa [max_eq_right hb] at hle

lemma respects_planMeasured {slotsPerNode : ℤ} (h : q.planMeasured slotsPerNode = .ok planned) :
    Respects q planned ↔
      (∀ b ∈ q.maxAdditionalCpus, 0 ≤ b) ∧
        (q.funcGpu ≠ none → q.measuredNodes slotsPerNode ≤ 0 ∨ Known q.machineType →
          ∀ b ∈ q.maxAdditionalGpus,
            ((q.measuredNodes slotsPerNode).toNat * gpusOf q.machineType : ℤ) ≤ b) := by
  obtain ⟨hplanned, hcpus⟩ := GrowRequest.planMeasured_eq h
  have htypes : planned.map PlannedNode.machineType =
      List.replicate (q.measuredNodes slotsPerNode).toNat q.machineType := by
    rw [hplanned, machineTypes_spreadSlots]
  have hcpu : ∀ b ∈ q.maxAdditionalCpus,
      ((∀ n, plannedCpuCount planned = .ok n → (n : ℤ) ≤ b) ↔ 0 ≤ b) := by
    intro b hb
    obtain ⟨hcount, hpos⟩ := hcpus b hb
    obtain ⟨m, hm, htotal⟩ := countAll_replicate htypes (.inr hcount)
    rw [plannedCpuCount, forall_count_le hm htotal]
    refine le_budget_iff (by positivity) ?_
    rw [GrowRequest.measuredNodes, Option.mem_def.1 hb]
    exact cappedNodes_mul_le (by exact_mod_cast hpos)
  have hgpu : ∀ b : ℤ, ((∀ n, plannedGpuCount planned = .ok n → (n : ℤ) ≤ b) ↔
      (q.measuredNodes slotsPerNode ≤ 0 ∨ Known q.machineType →
        ((q.measuredNodes slotsPerNode).toNat * gpusOf q.machineType : ℤ) ≤ b)) := by
    intro b
    by_cases hknown : q.measuredNodes slotsPerNode ≤ 0 ∨ Known q.machineType
    · obtain ⟨m, hm, htotal⟩ := countAll_replicate htypes
        (hknown.imp Int.toNat_eq_zero.2 gpus_of_known)
      rw [plannedGpuCount, forall_count_le hm htotal]
      exact ⟨fun hle _ => hle, fun hle => hle hknown⟩
    · -- `planned_gpu_count` raises for a machine type that the catalog does not know
      have hraises := countAll_ne_ok htypes (mt Int.toNat_eq_zero.1 fun hle => hknown (.inl hle))
        (c := machineTypeGpuCount) (by
          intro m hm
          cases hspec : machineSpec q.machineType with
          | ok spec => exact hknown (.inr ⟨spec, hspec⟩)
          | error e => simp [machineTypeGpuCount, hspec, Except.map] at hm)
      exact ⟨fun _ hle => absurd hle hknown, fun _ n hn => absurd hn (hraises n)⟩
  constructor
  · intro hrespects
    exact ⟨fun b hb => (hcpu b hb).1 (hrespects.cpus b hb),
      fun hjob hknown b hb => (hgpu b).1 (hrespects.gpus hjob b hb) hknown⟩
  · rintro ⟨hb, hg⟩
    exact ⟨fun b hmem => (hcpu b hmem).2 (hb b hmem),
      fun hjob b hmem => (hgpu b).2 fun hknown => hg hjob hknown b hmem⟩

lemma respects_planGpu {gpuMachine : Text}
    (hgpu : gpuMachineType q.funcGpu head.provider = .ok (some gpuMachine))
    (h : q.planGpu gpuMachine = .ok planned) :
    Respects q planned ↔
      (∀ b ∈ q.maxAdditionalGpus, 0 ≤ b) ∧
        ∀ b ∈ q.maxAdditionalCpus,
          ((q.gpuNodes gpuMachine).toNat * cpuCountOf gpuMachine : ℤ) ≤ b := by
  obtain ⟨spec, hspec, -, hpos⟩ := gpusOf_gpuMachine hgpu
  have hknown : Known gpuMachine := ⟨spec, hspec⟩
  have hjob : q.funcGpu ≠ none := by
    intro hnone
    rw [hnone] at hgpu
    cases hgpu
  have htypes : planned.map PlannedNode.machineType =
      List.replicate (q.gpuNodes gpuMachine).toNat gpuMachine := by
    rw [GrowRequest.planGpu_eq hgpu h, machineTypes_dealSlots, List.map_replicate]
  obtain ⟨m, hm, htotal⟩ := countAll_replicate htypes (.inr (machineTypeCpuCount_of_known hknown))
  obtain ⟨m', hm', htotal'⟩ := countAll_replicate htypes (.inr (gpus_of_known hknown))
  have hgpus : ∀ b ∈ q.maxAdditionalGpus,
      ((∀ n, plannedGpuCount planned = .ok n → (n : ℤ) ≤ b) ↔ 0 ≤ b) := by
    intro b hb
    rw [plannedGpuCount, forall_count_le hm' htotal']
    refine le_budget_iff (by positivity) ?_
    rw [GrowRequest.gpuNodes, Option.mem_def.1 hb]
    exact cappedNodes_mul_le (by exact_mod_cast hpos)
  constructor
  · intro hrespects
    exact ⟨fun b hb => (hgpus b hb).1 (hrespects.gpus hjob b hb),
      fun b hb => (forall_count_le hm htotal).1 (hrespects.cpus b hb)⟩
  · rintro ⟨hg, hc⟩
    exact ⟨fun b hb => (forall_count_le hm htotal).2 (hc b hb),
      fun _ b hb => (hgpus b hb).2 (hg b hb)⟩

lemma respects_planCpu (hjob : q.funcGpu = none) (h : q.planCpu head = .ok planned) :
    Respects q planned ↔
      ∀ b ∈ q.maxAdditionalCpus,
        0 ≤ b ∧ (0 < q.slotsToAdd → q.cpuTotal head (fun mt => (cpuCountOf mt : ℤ)) ≤ b) := by
  have hcount : ∃ (m : ℕ) (total : ℤ), plannedCpuCount planned = .ok m ∧ (m : ℤ) = total ∧
      ∀ b, total ≤ b ↔
        0 ≤ b ∧ (0 < q.slotsToAdd → q.cpuTotal head (fun mt => (cpuCountOf mt : ℤ)) ≤ b) := by
    obtain ⟨-, ⟨hnone, rfl⟩ | ⟨hsome, machineTypes, htypes, hplanned⟩⟩ := GrowRequest.planCpu_eq h
    · refine ⟨0, 0, rfl, rfl, fun b => ⟨fun hb => ⟨hb, fun hpos => ?_⟩, And.left⟩⟩
      exact absurd hpos (not_lt.2 hnone)
    · have hmachines : planned.map PlannedNode.machineType = machineTypes.filter q.Runs := by
        rw [hplanned, machineTypes_dealSlots, List.map_map]
        exact List.map_id _
      obtain ⟨m, hm, htotal⟩ := countAll_eq (c := machineTypeCpuCount) (f := cpuCountOf)
        hmachines fun mt hmt =>
          machineTypeCpuCount_of_known (known_of_runs (List.mem_filter.1 hmt).2)
      rw [GrowRequest.sumOf_cpuMachineTypes _ htypes] at htotal
      refine ⟨m, _, hm, htotal, fun b => ?_⟩
      rw [← htotal]
      exact ⟨fun hle => ⟨(Int.natCast_nonneg m).trans hle, fun _ => hle⟩, fun hle => hle.2 hsome⟩
  obtain ⟨m, total, hm, htotal, hiff⟩ := hcount
  constructor
  · intro hrespects b hb
    exact (hiff b).1 ((forall_count_le hm htotal).1 (hrespects.cpus b hb))
  · intro hfits
    exact ⟨fun b hb => (forall_count_le hm htotal).2 ((hiff b).2 (hfits b hb)),
      fun hgpu => absurd hjob hgpu⟩

/-! ### The claim -/

/-- **A plan respects its budgets if and only if they fit whole machines.** -/
theorem budget_respected_iff (h : planGrowNodes head q = .ok planned) :
    Respects q planned ↔ q.Fits head := by
  rcases GrowRequest.planGrowNodes_cases h with ⟨slotsPerNode, hmeasured, hplan⟩ |
    ⟨gpuMachine, hmeasured, hgpu, hplan⟩ | ⟨hmeasured, hjob, hplan⟩
  · rw [respects_planMeasured hplan, GrowRequest.Fits, hmeasured]
  · rw [respects_planGpu hgpu hplan, GrowRequest.Fits, hmeasured, hgpu]
  · have hgpu : gpuMachineType q.funcGpu head.provider = .ok none := by rw [hjob]; rfl
    rw [respects_planCpu hjob hplan, GrowRequest.Fits, hmeasured, hgpu]

/-- Three calls of one CPU, on a cluster of four-CPU machines with a budget. -/
def threeCalls (budget : ℤ) : GrowRequest where
  missingSlots := 3
  funcCpu := .size 1
  funcRam := .dynamic
  funcGpu := none
  configuredMachineType := "n4-standard-4".toList
  maxAdditionalCpus := some budget
  maxAdditionalGpus := none
  slotsPerNode := none
  machineType := []

/-- A budget of four CPUs fits the machine. -/
theorem budget_respected_iff_threeCalls :
    Respects (threeCalls 4) [⟨"n4-standard-4".toList, 3⟩] ↔ (threeCalls 4).Fits ⟨.gcp, false⟩ :=
  @budget_respected_iff ⟨.gcp, false⟩ _ _ (by decide +kernel)

/-- With a budget of three CPUs a machine with four is planned. -/
theorem planned_over_budget :
    ¬∀ head q planned, planGrowNodes head q = .ok planned → Respects q planned := by
  intro h
  have hplan : planGrowNodes ⟨.gcp, false⟩ (threeCalls 3) = .ok [⟨"n4-standard-4".toList, 3⟩] := by
    decide +kernel
  have hcount : plannedCpuCount [⟨"n4-standard-4".toList, 3⟩] = .ok 4 := by decide +kernel
  have hle := (h _ _ _ hplan).cpus 3 rfl 4 hcount
  exact absurd hle (by decide)

end Burla.Scaling
