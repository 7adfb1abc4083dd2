/-
The slots that `plan_grow_nodes` gives to each machine.

Slots are dealt out one machine after another, each getting what it has room for, so that the last
ones get nothing when the machines have more room than there are slots.  By measured capacity the
slots are shared evenly, over fewer machines when the budget cuts their number.  The main result is
`Burla.Scaling.usable_iff`.
-/
import Burla.Scaling.Plan

namespace Burla.Scaling

variable {head : HeadSettings} {q : GrowRequest} {planned : List PlannedNode}

/-- What the claim says of a plan. -/
def Usable (q : GrowRequest) (planned : List PlannedNode) : Prop :=
  ∀ node ∈ planned, 1 ≤ node.targetParallelism ∧
    (∃ capacity, parallelismCapacity node.machineType q.funcCpu q.funcRam = .ok capacity ∧
      node.targetParallelism ≤ capacity) ∧
    ∀ slotsPerNode ∈ q.measured, node.targetParallelism ≤ slotsPerNode

/-- The room of all machines of a CPU job but the last one. -/
def GrowRequest.roomBeforeLast (head : HeadSettings) (q : GrowRequest) : ℤ :=
  let largest := q.ifRuns q.capacityOf (largestSize head.provider).1
  if q.PacksBySize head then
    match (lastSize head q.numCpusToAdd).filter fun size => q.Runs size.1 with
    | some _ => wholeMachines head q.numCpusToAdd * largest
    | none => (wholeMachines head q.numCpusToAdd - 1 : ℕ) * largest
  else (q.configuredNodes - 1 : ℕ) * q.ifRuns q.capacityOf q.configuredMachineType

/-- The slots fit the machines, as the arguments say it: by measured capacity the machines within
the budget must have room for all of them, and otherwise those before the last one must not. -/
def GrowRequest.SlotsFit (head : HeadSettings) (q : GrowRequest) : Prop :=
  match q.measured with
  | some slotsPerNode =>
    0 < q.measuredNodes slotsPerNode →
      q.missingSlots ≤ q.measuredNodes slotsPerNode * slotsPerNode ∧
        q.missingSlots ≤ q.measuredNodes slotsPerNode * q.capacityOf q.machineType
  | none => q.funcGpu = none → 0 < q.slotsToAdd → q.roomBeforeLast head < q.slotsToAdd

/-! ### Slots that are dealt out -/

lemma dealSlots_le {machines : List (Text × ℤ)} {remaining : ℤ} :
    ∀ node ∈ dealSlots remaining machines,
      ∃ m ∈ machines, node.machineType = m.1 ∧ node.targetParallelism ≤ m.2 := by
  induction machines generalizing remaining with
  | nil => simp [dealSlots]
  | cons machine machines ih =>
    intro node hnode
    rcases List.mem_cons.1 hnode with rfl | hnode
    · exact ⟨machine, List.mem_cons_self, rfl, min_le_right _ _⟩
    · obtain ⟨m, hm, h⟩ := ih node hnode
      exact ⟨m, List.mem_cons_of_mem _ hm, h⟩

lemma sumOf_nonneg {α : Type*} {f : α → ℤ} {l : List α} (h : ∀ a ∈ l, 0 ≤ f a) :
    0 ≤ sumOf f l := by
  induction l with
  | nil => exact le_rfl
  | cons a l ih =>
    rw [List.forall_mem_cons] at h
    exact add_nonneg h.1 (ih h.2)

/-- Every machine gets a slot if and only if those before the last one leave some. -/
lemma forall_one_le_dealSlots {machines : List (Text × ℤ)} {remaining : ℤ}
    (hpos : ∀ m ∈ machines, 0 < m.2) :
    (∀ node ∈ dealSlots remaining machines, 1 ≤ node.targetParallelism) ↔
      machines = [] ∨ sumOf Prod.snd machines.dropLast < remaining := by
  induction machines generalizing remaining with
  | nil => simp [dealSlots]
  | cons machine machines ih =>
    rw [List.forall_mem_cons] at hpos
    rw [dealSlots, List.forall_mem_cons, ih hpos.2]
    cases machines with
    | nil =>
      simp only [List.dropLast_singleton, sumOf, true_or, and_true, List.cons_ne_nil, false_or]
      omega
    | cons next machines =>
      have hrest : 0 ≤ sumOf Prod.snd (next :: machines).dropLast :=
        sumOf_nonneg fun m hm => (hpos.2 m (List.dropLast_subset _ hm)).le
      simp only [List.dropLast_cons_cons, sumOf, List.cons_ne_nil, false_or] at hrest ⊢
      omega

/-! ### Slots that are shared -/

/-- The first share is the largest one. -/
lemma forall_spreadSlots_le (machineType : Text) {n : ℕ} {remaining bound : ℤ} :
    (∀ node ∈ spreadSlots machineType (n + 1) remaining, node.targetParallelism ≤ bound) ↔
      remaining ≤ (n + 1) * bound := by
  induction n generalizing remaining with
  | zero =>
    have h := ceil_le_iff (a := remaining) (b := 1) (c := bound) one_pos
    simpa [spreadSlots] using h
  | succ n ih =>
    have hpos : (0 : ℤ) < (n + 1 : ℕ) + 1 := by positivity
    have hfirst := ceil_le_iff (a := remaining) (c := bound) hpos
    have hself := (ceil_le_iff (a := remaining) (c := ceil remaining ((n + 1 : ℕ) + 1)) hpos).1 le_rfl
    rw [spreadSlots, List.forall_mem_cons, ih]
    generalize ceil remaining ((n + 1 : ℕ) + 1) = first at hfirst hself ⊢
    constructor
    · exact fun h => hfirst.1 h.1
    · intro h
      have hle := hfirst.2 h
      refine ⟨hle, ?_⟩
      have hscaled := mul_le_mul_of_nonneg_left hle (by positivity : (0 : ℤ) ≤ (n : ℤ) + 1)
      push_cast at hself
      linarith

/-- Every node gets a slot when there are as many. -/
lemma one_le_spreadSlots (machineType : Text) {n : ℕ} {remaining : ℤ} (h : (n : ℤ) ≤ remaining) :
    ∀ node ∈ spreadSlots machineType n remaining, 1 ≤ node.targetParallelism := by
  induction n generalizing remaining with
  | zero => simp [spreadSlots]
  | succ n ih =>
    have hpos : (0 : ℤ) < (n : ℤ) + 1 := by positivity
    push_cast at h
    rw [spreadSlots, List.forall_mem_cons]
    refine ⟨ceil_pos hpos (by linarith), ih ?_⟩
    have hle : ceil remaining (n + 1) ≤ remaining - n := by
      rw [ceil_le_iff hpos]
      nlinarith
    linarith

/-! ### The three branches -/

lemma ceil_nonpos {a b : ℤ} (ha : 0 ≤ a) (hb : b ≤ 0) : ceil a b ≤ 0 := by
  have h := Int.fdiv_nonneg_of_nonpos_of_nonpos (Int.neg_nonpos_of_nonneg ha) hb
  rw [ceil]
  omega

/-- No more nodes are planned than there are slots. -/
lemma measuredNodes_le {slotsPerNode : ℤ} (hmissing : 1 ≤ q.missingSlots)
    (hpos : 0 < q.measuredNodes slotsPerNode) :
    q.measuredNodes slotsPerNode ≤ q.missingSlots := by
  have hle : q.measuredNodes slotsPerNode ≤ ceil q.missingSlots slotsPerNode := cappedNodes_le ..
  have hslots : 0 < slotsPerNode := by
    refine lt_of_not_ge fun hneg => ?_
    have hnone := ceil_nonpos (by linarith : 0 ≤ q.missingSlots) hneg
    linarith
  refine hle.trans ((ceil_le_iff hslots).2 ?_)
  nlinarith

lemma machineType_of_mem_spreadSlots {machineType : Text} {n : ℕ} {remaining : ℤ}
    {node : PlannedNode} (h : node ∈ spreadSlots machineType n remaining) :
    node.machineType = machineType := by
  have hmem := List.mem_map_of_mem (f := PlannedNode.machineType) h
  rw [machineTypes_spreadSlots] at hmem
  exact (List.mem_replicate.1 hmem).2

/-- Slots are within a capacity that may raise if and only if they are within what counts for it. -/
lemma exists_capacity_iff {machineType : Text} {n : ℤ} (hn : 1 ≤ n) :
    (∃ capacity, parallelismCapacity machineType q.funcCpu q.funcRam = .ok capacity ∧
      n ≤ capacity) ↔ n ≤ q.capacityOf machineType := by
  rw [GrowRequest.capacityOf]
  cases parallelismCapacity machineType q.funcCpu q.funcRam with
  | error e =>
    simp only [reduceCtorEq, false_and, exists_false, false_iff]
    omega
  | ok capacity => simp

lemma usable_planMeasured {slotsPerNode : ℤ} (hmissing : 1 ≤ q.missingSlots)
    (hmeasured : q.measured = some slotsPerNode) (h : q.planMeasured slotsPerNode = .ok planned) :
    Usable q planned ↔
      (0 < q.measuredNodes slotsPerNode →
        q.missingSlots ≤ q.measuredNodes slotsPerNode * slotsPerNode ∧
          q.missingSlots ≤ q.measuredNodes slotsPerNode * q.capacityOf q.machineType) := by
  obtain ⟨rfl, -⟩ := GrowRequest.planMeasured_eq h
  by_cases hpos : 0 < q.measuredNodes slotsPerNode
  swap
  · rw [Int.toNat_eq_zero.2 (not_lt.1 hpos)]
    exact ⟨fun _ hlt => absurd hlt hpos, fun _ => by simp [Usable, spreadSlots]⟩
  have hle := measuredNodes_le hmissing hpos
  obtain ⟨n, hn⟩ : ∃ n : ℕ, q.measuredNodes slotsPerNode = n + 1 :=
    ⟨(q.measuredNodes slotsPerNode - 1).toNat, by omega⟩
  have hone := one_le_spreadSlots q.machineType (by omega : ((n + 1 : ℕ) : ℤ) ≤ q.missingSlots)
  have hnat : (q.measuredNodes slotsPerNode).toNat = n + 1 := by omega
  rw [hnat, hn, ← forall_spreadSlots_le q.machineType,
    ← forall_spreadSlots_le q.machineType]
  constructor
  · intro husable _
    refine ⟨fun node hnode => (husable node hnode).2.2 slotsPerNode hmeasured, fun node hnode => ?_⟩
    have hcapacity := (husable node hnode).2.1
    rwa [exists_capacity_iff (hone node hnode), machineType_of_mem_spreadSlots hnode] at hcapacity
  · intro hfits node hnode
    obtain ⟨hslots, hcapacity⟩ := hfits (by omega)
    refine ⟨hone node hnode, ?_, fun s hs => ?_⟩
    · rw [exists_capacity_iff (hone node hnode), machineType_of_mem_spreadSlots hnode]
      exact hcapacity node hnode
    · obtain rfl : slotsPerNode = s := Option.some.inj (hmeasured.symm.trans hs)
      exact hslots node hnode

/-- A plan that deals slots out to machines that can run calls. -/
lemma usable_dealSlots {machines : List (Text × ℤ)} {remaining : ℤ} (hmeasured : q.measured = none)
    (hmachines : ∀ m ∈ machines, 0 < m.2 ∧
      parallelismCapacity m.1 q.funcCpu q.funcRam = .ok m.2) :
    Usable q (dealSlots remaining machines) ↔
      machines = [] ∨ sumOf Prod.snd machines.dropLast < remaining := by
  rw [← forall_one_le_dealSlots fun m hm => (hmachines m hm).1]
  constructor
  · exact fun husable node hnode => (husable node hnode).1
  · intro hone node hnode
    obtain ⟨m, hm, htype, hle⟩ := dealSlots_le node hnode
    refine ⟨hone node hnode, ⟨m.2, ?_, hle⟩, fun s hs => ?_⟩
    · rw [htype]
      exact (hmachines m hm).2
    · rw [hmeasured] at hs
      cases hs

/-- Machines for GPUs have a slot each, up to the last one. -/
lemma usable_planGpu {gpuMachine : Text} (hmeasured : q.measured = none)
    (hgpu : gpuMachineType q.funcGpu head.provider = .ok (some gpuMachine))
    (h : q.planGpu gpuMachine = .ok planned) : Usable q planned := by
  obtain ⟨spec, hspec, hgpus, hpos⟩ := gpusOf_gpuMachine hgpu
  have hcapacity := capacity_gpuMachine (q := q) hgpu
  rw [GrowRequest.planGpu_eq hgpu h, usable_dealSlots hmeasured fun m hm => by
    rw [(List.mem_replicate.1 hm).2]
    exact ⟨Int.natCast_pos.2 hpos, hcapacity⟩]
  rw [List.dropLast_replicate, sumOf_replicate, lt_min_iff]
  rcases Nat.eq_zero_or_pos (q.gpuNodes gpuMachine).toNat with hnone | hsome
  · exact .inl (by rw [hnone]; rfl)
  obtain ⟨n, hn⟩ : ∃ n : ℕ, q.gpuNodes gpuMachine = n + 1 :=
    ⟨(q.gpuNodes gpuMachine - 1).toNat, by omega⟩
  have hnat : (q.gpuNodes gpuMachine).toNat - 1 = n := by omega
  have hgpos : (0 : ℤ) < gpusOf gpuMachine := by exact_mod_cast hpos
  -- the slots do not fit into one machine less
  have hmore : ¬q.missingSlots ≤ gpusOf gpuMachine * n := by
    rw [← ceil_le_iff hgpos]
    have hle : q.gpuNodes gpuMachine ≤ ceil q.missingSlots (gpusOf gpuMachine) := cappedNodes_le ..
    omega
  rw [hnat, hn]
  refine .inr ⟨?_, ?_⟩ <;> linarith

lemma dropLast_filter_replicate {α : Type*} (p : α → Bool) (n : ℕ) (a : α) :
    ((List.replicate n a).filter p).dropLast = (List.replicate (n - 1) a).filter p := by
  rw [List.filter_replicate, List.filter_replicate]
  split_ifs
  · rw [List.dropLast_replicate]
  · rfl

/-- The room of the machines before the last one. -/
lemma sumOf_dropLast_cpuMachineTypes {machineTypes : List Text}
    (h : q.cpuMachineTypes head = .ok machineTypes) :
    sumOf q.capacityOf (machineTypes.filter q.Runs).dropLast = q.roomBeforeLast head := by
  rw [GrowRequest.cpuMachineTypes_eq h, GrowRequest.roomBeforeLast]
  split_ifs
  · rw [List.filter_append]
    cases hlast : (lastSize head q.numCpusToAdd).filter fun size => q.Runs size.1 with
    | none =>
      -- only machines of the largest size are kept
      have hnil : ((lastSize head q.numCpusToAdd).map Prod.fst).toList.filter q.Runs = [] := by
        cases hsize : lastSize head q.numCpusToAdd with
        | none => rfl
        | some size =>
          rw [hsize, Option.filter_eq_none_iff] at hlast
          simpa using hlast size rfl
      rw [hnil, List.append_nil, dropLast_filter_replicate, GrowRequest.sumOf_filter_runs,
        sumOf_replicate]
    | some size =>
      obtain ⟨hsize, hruns⟩ := Option.filter_eq_some_iff.1 hlast
      have hkept : ((lastSize head q.numCpusToAdd).map Prod.fst).toList.filter q.Runs =
          [size.1] := by
        rw [hsize]
        simpa using hruns
      rw [hkept, List.dropLast_concat, GrowRequest.sumOf_filter_runs, sumOf_replicate]
  · rw [dropLast_filter_replicate, GrowRequest.sumOf_filter_runs, sumOf_replicate]

lemma sumOf_map {α β : Type*} (g : α → β) (f : β → ℤ) (l : List α) :
    sumOf f (l.map g) = sumOf (f ∘ g) l := by
  induction l with
  | nil => rfl
  | cons a l ih => rw [List.map_cons, sumOf, sumOf, ih, Function.comp]

lemma usable_planCpu (hmeasured : q.measured = none) (h : q.planCpu head = .ok planned) :
    Usable q planned ↔ (0 < q.slotsToAdd → q.roomBeforeLast head < q.slotsToAdd) := by
  obtain ⟨-, ⟨hnone, rfl⟩ | ⟨hsome, machineTypes, htypes, rfl⟩⟩ := GrowRequest.planCpu_eq h
  · refine ⟨fun _ hpos => absurd hpos (not_lt.2 hnone), fun _ => ?_⟩
    exact fun node hnode => absurd hnode (List.not_mem_nil)
  have hroom := sumOf_dropLast_cpuMachineTypes htypes
  rw [usable_dealSlots hmeasured]
  · rw [← List.map_dropLast, sumOf_map, List.map_eq_nil_iff]
    change _ ∨ sumOf q.capacityOf _ < _ ↔ _
    rw [hroom]
    constructor
    · rintro (hnil | hlt) -
      · rw [hnil, List.dropLast_nil, sumOf] at hroom
        exact hroom ▸ hsome
      · exact hlt
    · exact fun hlt => .inr (hlt hsome)
  · intro m hm
    obtain ⟨mt, hmt, rfl⟩ := List.mem_map.1 hm
    have hruns := (List.mem_filter.1 hmt).2
    exact ⟨of_decide_eq_true hruns, GrowRequest.parallelismCapacity_of_runs hruns⟩

/-! ### The claim -/

/-- **Every planned node can run its slots if and only if the slots fit the machines.** -/
theorem usable_iff (hmissing : 1 ≤ q.missingSlots) (h : planGrowNodes head q = .ok planned) :
    Usable q planned ↔ q.SlotsFit head := by
  rcases GrowRequest.planGrowNodes_cases h with ⟨slotsPerNode, hmeasured, hplan⟩ |
    ⟨gpuMachine, hmeasured, hgpu, hplan⟩ | ⟨hmeasured, hjob, hplan⟩
  · rw [usable_planMeasured hmissing hmeasured hplan, GrowRequest.SlotsFit, hmeasured]
  · have hjob : q.funcGpu ≠ none := by
      intro hnone
      rw [hnone] at hgpu
      cases hgpu
    rw [GrowRequest.SlotsFit, hmeasured]
    exact iff_of_true (usable_planGpu hmeasured hgpu hplan) fun hnone => absurd hnone hjob
  · rw [usable_planCpu hmeasured hplan, GrowRequest.SlotsFit, hmeasured]
    exact ⟨fun hroom _ => hroom, fun hroom => hroom hjob⟩

/-- Calls of one CPU and five GB, on a cluster of packed machines. -/
def fiveGbCalls (missingSlots : ℤ) : GrowRequest where
  missingSlots := missingSlots
  funcCpu := .size 1
  funcRam := .size 5
  funcGpu := none
  configuredMachineType := "n4-standard-4".toList
  maxAdditionalCpus := none
  maxAdditionalGpus := none
  slotsPerNode := none
  machineType := []

/-- Of 72 such calls the second machine gets eight. -/
theorem usable_iff_fiveGbCalls :
    Usable (fiveGbCalls 72) [⟨"n4-standard-80".toList, 64⟩, ⟨"n4-standard-64".toList, 8⟩] ↔
      (fiveGbCalls 72).SlotsFit ⟨.gcp, false⟩ :=
  @usable_iff ⟨.gcp, false⟩ _ _ (by decide) (by decide +kernel)

/-- Of 64 such calls the first machine gets all, and the second one is booted for none.  And a
budget that leaves one machine of four gives it 49 slots, where it was measured to sustain 15. -/
theorem booted_for_nothing :
    (¬∀ head q planned, 1 ≤ q.missingSlots → planGrowNodes head q = .ok planned →
      Usable q planned) ∧
    planGrowNodes ⟨.gcp, false⟩ (fiveGbCalls 64) =
      .ok [⟨"n4-standard-80".toList, 64⟩, ⟨"n4-standard-64".toList, 0⟩] ∧
    planGrowNodes ⟨.gcp, false⟩
        { fiveGbCalls 49 with
          maxAdditionalCpus := some 16
          slotsPerNode      := some 15
          machineType       := "n4-standard-16".toList } =
      .ok [⟨"n4-standard-16".toList, 49⟩] := by
  have hplan : planGrowNodes ⟨.gcp, false⟩ (fiveGbCalls 64) =
      .ok [⟨"n4-standard-80".toList, 64⟩, ⟨"n4-standard-64".toList, 0⟩] := by
    decide +kernel
  refine ⟨fun h => ?_, hplan, by decide +kernel⟩
  have husable := h _ _ _ (by decide) hplan ⟨"n4-standard-64".toList, 0⟩
    (List.mem_cons_of_mem _ List.mem_cons_self)
  exact absurd husable.1 (by decide)

end Burla.Scaling
