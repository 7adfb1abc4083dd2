/-
`plan_grow_nodes` (scaling.py): the machines that are booted for a number of missing slots, and the
slots that each of them gets.

There are three ways to plan: by a measured capacity, machines of one type that share the slots
evenly; for a GPU, machines of the GPU's type; and otherwise CPUs that are packed into the sizes of
the provider's family, or into machines of the configured type.  `planGrowNodes_cases` says which
plans there are.  Quotients are exact, as Python's are for less than 2^53 slots, and the random
names of the instances are left out.
-/
import Burla.Scaling.Catalog
import Mathlib.Tactic.Linarith
import Mathlib.Tactic.Ring

namespace Burla.Scaling

/-! ### The function -/

structure PlannedNode where
  machineType : Text
  targetParallelism : ℤ
  deriving DecidableEq, Repr

/-- What the planning knows of the head. -/
structure HeadSettings where
  /-- `CLOUD_PROVIDER` -/
  provider : CloudProvider
  /-- `IN_LOCAL_DEV_MODE` -/
  localDev : Bool

/-- The arguments of `plan_grow_nodes`. -/
structure GrowRequest where
  missingSlots : ℤ
  funcCpu : FuncSize
  funcRam : FuncSize
  funcGpu : Option Text
  /-- `config["Nodes"][0]["machine_type"]` -/
  configuredMachineType : Text
  maxAdditionalCpus : Option ℤ
  maxAdditionalGpus : Option ℤ
  slotsPerNode : Option ℤ
  /-- Read only when there are `slotsPerNode`. -/
  machineType : Text

/-- `required_cpus_per_call` -/
def requiredCpusPerCall (funcCpu funcRam : FuncSize) : ℤ :=
  max funcCpu.cpus ((funcRam.ramGb + 3).fdiv 4)

/-- `math.ceil(a / b)`, for `b` that is not zero. -/
def ceil (a b : ℤ) : ℤ := -(-a).fdiv b

def ceilDiv (a b : ℤ) : Except PlanError ℤ :=
  if b = 0 then .error .zeroDivision else .ok (ceil a b)

/-- No more nodes than the budget has, when there is one. -/
def withinBudget (nodes : ℤ) (budget : Option ℤ) (perNode : Except PlanError ℤ) :
    Except PlanError ℤ :=
  match budget with
  | none => .ok nodes
  | some budget => do
    let most ← floorDiv (max 0 budget) (← perNode)
    pure (min nodes most)

/-- The loop of the measured branch: every node gets its share of what remains. -/
def spreadSlots (machineType : Text) : ℕ → ℤ → List PlannedNode
  | 0, _ => []
  | nodesLeft + 1, remaining =>
    let nodeParallelism := ceil remaining (nodesLeft + 1)
    ⟨machineType, nodeParallelism⟩ ::
      spreadSlots machineType nodesLeft (remaining - nodeParallelism)

/-- The loop at the end: every node gets what it has room for of what remains. -/
def dealSlots : ℤ → List (Text × ℤ) → List PlannedNode
  | _, [] => []
  | remaining, (machineType, capacity) :: machines =>
    let nodeParallelism := min remaining capacity
    ⟨machineType, nodeParallelism⟩ :: dealSlots (remaining - nodeParallelism) machines

namespace GrowRequest

variable (q : GrowRequest)

/-- The machines that can run a call, with their capacity. -/
def runnable : List Text → Except PlanError (List (Text × ℤ))
  | [] => .ok []
  | machineType :: machineTypes => do
    let capacity ← parallelismCapacity machineType q.funcCpu q.funcRam
    let rest ← runnable machineTypes
    pure (if 0 < capacity then (machineType, capacity) :: rest else rest)

/-- `slots_per_node`, when it counts as given. -/
def measured : Option ℤ := q.slotsPerNode.filter (· ≠ 0)

/-- `num_cpus_to_add` -/
def numCpusToAdd : ℤ :=
  let needed := q.missingSlots * requiredCpusPerCall q.funcCpu q.funcRam
  match q.maxAdditionalCpus with
  | none => needed
  | some cpus => min needed (max 0 cpus)

/-- Slots by measured capacity. -/
def planMeasured (slotsPerNode : ℤ) : Except PlanError (List PlannedNode) := do
  let asked ← ceilDiv q.missingSlots slotsPerNode
  let cpuCount := (machineTypeCpuCount q.machineType).map fun cpus : ℕ => (cpus : ℤ)
  let nodes ← withinBudget asked q.maxAdditionalCpus cpuCount
  pure (spreadSlots q.machineType nodes.toNat q.missingSlots)

def planGpu (gpuMachine : Text) : Except PlanError (List PlannedNode) := do
  let gpuSlotsPerNode ← parallelismCapacity gpuMachine q.funcCpu q.funcRam
  let asked ← ceilDiv q.missingSlots gpuSlotsPerNode
  let nodes ← withinBudget asked q.maxAdditionalGpus (.ok gpuSlotsPerNode)
  if nodes ≤ 0 then pure []
  else
    let machines ← q.runnable (List.replicate nodes.toNat gpuMachine)
    pure (dealSlots (min q.missingSlots (nodes * gpuSlotsPerNode)) machines)

/-- `pack_by_size` -/
def PacksBySize (head : HeadSettings) : Prop :=
  head.localDev = false ∧ isPackableCpuMachine q.configuredMachineType = true

instance (head : HeadSettings) : Decidable (q.PacksBySize head) :=
  inferInstanceAs (Decidable (_ ∧ _))

/-- `node_machine_types` of a CPU job: the family's sizes, or the configured type. -/
def cpuMachineTypes (head : HeadSettings) : Except PlanError (List Text) :=
  if q.PacksBySize head then
    .ok (packCpuMachines q.numCpusToAdd head.provider)
  else do
    let cpuPerNode ← machineTypeCpuCount q.configuredMachineType
    let nodes ← ceilDiv q.numCpusToAdd cpuPerNode
    pure (List.replicate nodes.toNat q.configuredMachineType)

def planCpu (head : HeadSettings) : Except PlanError (List PlannedNode) := do
  let parallelismToAdd ← floorDiv q.numCpusToAdd (requiredCpusPerCall q.funcCpu q.funcRam)
  if parallelismToAdd ≤ 0 then pure []
  else
    let machineTypes ← q.cpuMachineTypes head
    let machines ← q.runnable machineTypes
    pure (dealSlots parallelismToAdd machines)

end GrowRequest

/-- `plan_grow_nodes` -/
def planGrowNodes (head : HeadSettings) (q : GrowRequest) :
    Except PlanError (List PlannedNode) := do
  let gpuMachine ← gpuMachineType q.funcGpu head.provider
  match q.measured, gpuMachine with
  | some slotsPerNode, _ => q.planMeasured slotsPerNode
  | none, some gpuMachine => q.planGpu gpuMachine
  | none, none => q.planCpu head

/-- The counts of all planned nodes, added up. -/
def countAll (count : Text → Except PlanError ℕ) : List PlannedNode → Except PlanError ℕ
  | [] => .ok 0
  | node :: planned => do
    let first ← count node.machineType
    let rest ← countAll count planned
    pure (first + rest)

/-- `planned_cpu_count` -/
def plannedCpuCount (planned : List PlannedNode) : Except PlanError ℕ :=
  countAll machineTypeCpuCount planned

/-- `machine_spec(…)["gpus"]` -/
def machineTypeGpuCount (machineType : Text) : Except PlanError ℕ :=
  (machineSpec machineType).map MachineSpec.gpus

/-- `planned_gpu_count` -/
def plannedGpuCount (planned : List PlannedNode) : Except PlanError ℕ :=
  countAll machineTypeGpuCount planned

/-! ### What a plan can be -/

lemma bind_eq_ok {α β : Type} {x : Except PlanError α} {f : α → Except PlanError β} {b : β} :
    x >>= f = .ok b ↔ ∃ a, x = .ok a ∧ f a = .ok b := by
  cases x with
  | error e => exact ⟨nofun, fun ⟨_, h, _⟩ => nomatch h⟩
  | ok a => exact ⟨fun h => ⟨a, rfl, h⟩, fun ⟨a', ha, h⟩ => by cases ha; exact h⟩

lemma pure_eq_ok {α : Type} {a b : α} : (pure a : Except PlanError α) = .ok b ↔ a = b :=
  ⟨fun h => Except.ok.inj h, fun h => congrArg _ h⟩

lemma floorDiv_eq_ok {a b c : ℤ} : floorDiv a b = .ok c ↔ b ≠ 0 ∧ a.fdiv b = c := by
  rw [floorDiv]
  split_ifs with hb <;> simp [hb]

lemma ceilDiv_eq_ok {a b c : ℤ} : ceilDiv a b = .ok c ↔ b ≠ 0 ∧ ceil a b = c := by
  rw [ceilDiv]
  split_ifs with hb <;> simp [hb]

/-- Rounding up by a positive number. -/
lemma ceil_le_iff {a b c : ℤ} (hb : 0 < b) : ceil a b ≤ c ↔ a ≤ b * c := by
  have hdiv : (-a).fdiv b = (-a) / b := Int.fdiv_eq_ediv_of_nonneg _ hb.le
  rw [ceil, hdiv, neg_le, Int.le_ediv_iff_mul_le hb]
  constructor <;> intro h <;> linarith

lemma ceil_pos {a b : ℤ} (hb : 0 < b) (ha : 0 < a) : 0 < ceil a b := by
  by_contra hle
  have h := (ceil_le_iff hb).1 (not_lt.1 hle)
  rw [mul_zero] at h
  omega

namespace GrowRequest

variable {q : GrowRequest} {head : HeadSettings} {planned : List PlannedNode}

variable (q) in
/-- `parallelism_capacity` for the calls of the request, zero where it raises. -/
def capacityOf (machineType : Text) : ℤ :=
  match parallelismCapacity machineType q.funcCpu q.funcRam with
  | .ok capacity => capacity
  | .error _ => 0

variable (q) in
/-- The machine can run a call. -/
def Runs (machineType : Text) : Bool := 0 < q.capacityOf machineType

lemma parallelismCapacity_of_runs {machineType : Text} (h : q.Runs machineType = true) :
    parallelismCapacity machineType q.funcCpu q.funcRam = .ok (q.capacityOf machineType) := by
  simp only [Runs, capacityOf] at h ⊢
  split
  · assumption
  · simp_all

/-- The machines that are kept are those that can run a call. -/
lemma runnable_eq {machineTypes : List Text} {machines : List (Text × ℤ)}
    (h : q.runnable machineTypes = .ok machines) :
    machines = (machineTypes.filter q.Runs).map fun mt => (mt, q.capacityOf mt) := by
  induction machineTypes generalizing machines with
  | nil => exact (Except.ok.inj h).symm
  | cons mt machineTypes ih =>
    obtain ⟨capacity, hcapacity, h⟩ := bind_eq_ok.1 h
    obtain ⟨rest, hrest, h⟩ := bind_eq_ok.1 h
    have hof : q.capacityOf mt = capacity := by rw [capacityOf, hcapacity]
    rw [← pure_eq_ok.1 h, ih hrest, List.filter_cons, Runs, hof]
    by_cases hpos : 0 < capacity <;> simp [hpos, hof]

/-- The ways to plan. -/
lemma planGrowNodes_cases (h : planGrowNodes head q = .ok planned) :
    (∃ slotsPerNode, q.measured = some slotsPerNode ∧ q.planMeasured slotsPerNode = .ok planned) ∨
    (∃ gpuMachine, q.measured = none ∧
      gpuMachineType q.funcGpu head.provider = .ok (some gpuMachine) ∧
      q.planGpu gpuMachine = .ok planned) ∨
    q.measured = none ∧ q.funcGpu = none ∧ q.planCpu head = .ok planned := by
  obtain ⟨gpuMachine, hgpu, h⟩ := bind_eq_ok.1 h
  cases hmeasured : q.measured with
  | some slotsPerNode =>
    rw [hmeasured] at h
    exact .inl ⟨slotsPerNode, rfl, h⟩
  | none =>
    rw [hmeasured] at h
    cases gpuMachine with
    | some gpuMachine => exact .inr (.inl ⟨gpuMachine, rfl, hgpu, h⟩)
    | none =>
      refine .inr (.inr ⟨rfl, ?_, h⟩)
      cases hfunc : q.funcGpu with
      | none => rfl
      | some gpu =>
        rw [hfunc] at hgpu
        simp only [gpuMachineType] at hgpu
        split at hgpu <;> cases hgpu

end GrowRequest

/-! ### Totals -/

section Totals

variable {α : Type*}

def sumOf (f : α → ℤ) : List α → ℤ
  | [] => 0
  | a :: l => f a + sumOf f l

variable {f : α → ℤ} {l l' : List α}

@[simp] lemma sumOf_append : sumOf f (l ++ l') = sumOf f l + sumOf f l' := by
  induction l with
  | nil => simp [sumOf]
  | cons a l ih =>
    simp only [List.cons_append, sumOf, ih]
    ring

@[simp] lemma sumOf_replicate (n : ℕ) (a : α) : sumOf f (List.replicate n a) = n * f a := by
  induction n with
  | zero => simp [sumOf]
  | succ n ih =>
    rw [List.replicate_succ, sumOf, ih]
    push_cast
    ring

/-- The slots of a plan. -/
def plannedSlots (planned : List PlannedNode) : ℤ := sumOf PlannedNode.targetParallelism planned

end Totals

section Nodes

variable {planned : List PlannedNode} {machineType : Text} {c : Text → Except PlanError ℕ}

lemma machineTypes_spreadSlots (n : ℕ) (remaining : ℤ) :
    (spreadSlots machineType n remaining).map PlannedNode.machineType =
      List.replicate n machineType := by
  induction n generalizing remaining with
  | zero => rfl
  | succ n ih => rw [spreadSlots, List.map_cons, ih, List.replicate_succ]

lemma machineTypes_dealSlots (machines : List (Text × ℤ)) (remaining : ℤ) :
    (dealSlots remaining machines).map PlannedNode.machineType = machines.map Prod.fst := by
  induction machines generalizing remaining with
  | nil => rfl
  | cons machine machines ih => rw [dealSlots, List.map_cons, ih, List.map_cons]

/-- A count that is known for every machine type adds up. -/
lemma countAll_eq {f : Text → ℕ} {machineTypes : List Text}
    (htypes : planned.map PlannedNode.machineType = machineTypes)
    (hcount : ∀ mt ∈ machineTypes, c mt = .ok (f mt)) :
    ∃ n : ℕ, countAll c planned = .ok n ∧ (n : ℤ) = sumOf (fun mt => (f mt : ℤ)) machineTypes := by
  subst htypes
  induction planned with
  | nil => exact ⟨0, rfl, rfl⟩
  | cons node planned ih =>
    rw [List.map_cons, List.forall_mem_cons] at hcount
    obtain ⟨n, hn, hsum⟩ := ih hcount.2
    refine ⟨f node.machineType + n, ?_, ?_⟩
    · rw [countAll, hcount.1, hn]
      rfl
    · rw [List.map_cons, sumOf, ← hsum]
      push_cast
      rfl

end Nodes

/-! ### Numbers of nodes -/

/-- What `withinBudget` gives for `perNode` that is known. -/
def cappedNodes (asked : ℤ) (budget : Option ℤ) (perNode : ℤ) : ℤ :=
  match budget with
  | none => asked
  | some budget => min asked ((max 0 budget).fdiv perNode)

lemma withinBudget_eq {asked nodes c : ℤ} {budget : Option ℤ} {perNode : Except PlanError ℤ}
    (hc : ∀ d, perNode = .ok d → d = c) (h : withinBudget asked budget perNode = .ok nodes) :
    nodes = cappedNodes asked budget c ∧ ∀ b ∈ budget, perNode = .ok c ∧ c ≠ 0 := by
  cases budget with
  | none => exact ⟨(Except.ok.inj h).symm, nofun⟩
  | some b =>
    obtain ⟨d, hd, h⟩ := bind_eq_ok.1 h
    obtain ⟨most, hmost, h⟩ := bind_eq_ok.1 h
    obtain rfl := hc d hd
    obtain ⟨hne, rfl⟩ := floorDiv_eq_ok.1 hmost
    exact ⟨(pure_eq_ok.1 h).symm, fun _ _ => ⟨hd, hne⟩⟩

lemma cappedNodes_le (asked : ℤ) (budget : Option ℤ) (c : ℤ) :
    cappedNodes asked budget c ≤ asked := by
  cases budget with
  | none => exact le_rfl
  | some b => exact min_le_left _ _

/-- The budget bounds what its nodes have. -/
lemma cappedNodes_mul_le {asked b c : ℤ} (hc : 0 < c) :
    ((cappedNodes asked (some b) c).toNat : ℤ) * c ≤ max 0 b := by
  have hmost : (max 0 b).fdiv c * c ≤ max 0 b := by
    rw [Int.fdiv_eq_ediv_of_nonneg _ hc.le]
    exact Int.ediv_mul_le _ hc.ne'
  have hnonneg : 0 ≤ (max 0 b).fdiv c := by
    rw [Int.fdiv_eq_ediv_of_nonneg _ hc.le]
    exact Int.ediv_nonneg (le_max_left 0 b) hc.le
  have hle : ((cappedNodes asked (some b) c).toNat : ℤ) ≤ (max 0 b).fdiv c := by
    have hcapped : cappedNodes asked (some b) c ≤ (max 0 b).fdiv c := min_le_right _ _
    omega
  exact (mul_le_mul_of_nonneg_right hle hc.le).trans hmost

/-! ### The sizes of the families -/

lemma spec_packSizes (provider : CloudProvider) :
    ∀ size ∈ packSizes provider, machineSpec size.1 = .ok (.standard size.2) := by
  cases provider <;> decide

lemma largestSize_mem (provider : CloudProvider) :
    largestSize provider ∈ packSizes provider := by
  cases provider <;> decide

/-- No size is larger than the largest one, and all are positive. -/
lemma size_le_largest (provider : CloudProvider) :
    ∀ size ∈ packSizes provider, 0 < size.2 ∧ size.2 ≤ (largestSize provider).2 := by
  cases provider <;> decide

lemma largestSize_pos (provider : CloudProvider) : 0 < (largestSize provider).2 :=
  (size_le_largest provider _ (largestSize_mem provider)).1

lemma sizeFor_mem {provider : CloudProvider} {remaining : ℤ} {size : Text × ℕ}
    (h : sizeFor provider remaining = some size) :
    size ∈ packSizes provider ∧ remaining ≤ size.2 := by
  have hle := List.find?_some h
  exact ⟨List.mem_reverse.1 (List.mem_of_find?_eq_some h), by simpa using hle⟩

/-- The largest size is taken off as often as it fits. -/
lemma packLargest_eq {largest left : ℕ} {remaining : ℤ} (hpos : 0 < largest)
    (hleft : remaining ≤ left) :
    packLargest largest left remaining =
      ((remaining / largest).toNat, remaining - (remaining / largest).toNat * largest) := by
  have hpos' : (0 : ℤ) < largest := by exact_mod_cast hpos
  induction left generalizing remaining with
  | zero =>
    have hdiv : (remaining / largest).toNat = 0 := by
      rw [Int.toNat_eq_zero, ← Int.lt_add_one_iff]
      exact Int.ediv_lt_of_lt_mul hpos' (by push_cast at hleft; linarith)
    simp [packLargest, hdiv]
  | succ left ih =>
    rw [packLargest]
    split_ifs with hfits
    · have hdiv : (remaining - largest) / largest = remaining / largest - 1 := by
        rw [Int.sub_ediv_of_dvd _ dvd_rfl, Int.ediv_self hpos'.ne']
      have hone : 1 ≤ remaining / largest := by
        rw [Int.le_ediv_iff_mul_le hpos']
        linarith
      have hnat : (remaining / largest - 1).toNat + 1 = (remaining / largest).toNat := by omega
      rw [ih (by push_cast at hleft; omega), hdiv]
      dsimp only
      rw [hnat, ← hnat]
      push_cast
      ring_nf
    · have hdiv : (remaining / largest).toNat = 0 := by
        rw [Int.toNat_eq_zero, ← Int.lt_add_one_iff]
        exact Int.ediv_lt_of_lt_mul hpos' (by linarith)
      simp [hdiv]

/-- How often the largest size is taken. -/
def wholeMachines (head : HeadSettings) (numCpus : ℤ) : ℕ :=
  (numCpus / (largestSize head.provider).2).toNat

/-- The CPUs that remain then. -/
def restCpus (head : HeadSettings) (numCpus : ℤ) : ℤ :=
  numCpus - wholeMachines head numCpus * (largestSize head.provider).2

/-- The size that is taken for the CPUs that remain, if any do. -/
def lastSize (head : HeadSettings) (numCpus : ℤ) : Option (Text × ℕ) :=
  if 0 < restCpus head numCpus then sizeFor head.provider (restCpus head numCpus) else none

lemma packCpuMachines_eq (head : HeadSettings) (numCpus : ℤ) :
    packCpuMachines numCpus head.provider =
      List.replicate (wholeMachines head numCpus) (largestSize head.provider).1 ++
        ((lastSize head numCpus).map Prod.fst).toList := by
  have hpack : packLargest (largestSize head.provider).2 numCpus.toNat numCpus =
      (wholeMachines head numCpus, restCpus head numCpus) :=
    packLargest_eq (largestSize_pos head.provider) (Int.self_le_toNat numCpus)
  rw [packCpuMachines, hpack]
  dsimp only
  rw [lastSize]
  by_cases hrest : 0 < restCpus head numCpus
  · rw [if_pos hrest, if_pos hrest]
  · rw [if_neg hrest, if_neg hrest]
    rfl

/-- `machine_type_cpu_count`, zero where it raises. -/
def cpuCountOf (machineType : Text) : ℕ :=
  match machineTypeCpuCount machineType with
  | .ok cpus => cpus
  | .error _ => 0

lemma cpuCountOf_eq {machineType : Text} {cpus : ℕ}
    (h : machineTypeCpuCount machineType = .ok cpus) : cpuCountOf machineType = cpus := by
  rw [cpuCountOf, h]

lemma lastSize_mem {head : HeadSettings} {numCpus : ℤ} {size : Text × ℕ}
    (h : lastSize head numCpus = some size) : size ∈ packSizes head.provider := by
  rw [lastSize] at h
  split_ifs at h
  exact (sizeFor_mem h).1

/-! ### The plan of a CPU job -/

namespace GrowRequest

variable {q : GrowRequest} {head : HeadSettings} {planned : List PlannedNode}

variable (q) in
/-- A machine that can run a call counts, another one does not. -/
def ifRuns (f : Text → ℤ) (machineType : Text) : ℤ := if q.Runs machineType then f machineType else 0

lemma sumOf_filter_runs (f : Text → ℤ) (machineTypes : List Text) :
    sumOf f (machineTypes.filter q.Runs) = sumOf (q.ifRuns f) machineTypes := by
  induction machineTypes with
  | nil => rfl
  | cons mt machineTypes ih =>
    rw [List.filter_cons, sumOf, ifRuns]
    split_ifs with hruns
    · rw [sumOf, ih]
    · rw [ih, zero_add]

variable (q) in
/-- The machines of the configured type that have the CPUs. -/
def configuredNodes : ℕ := (ceil q.numCpusToAdd (cpuCountOf q.configuredMachineType)).toNat

variable (head q) in
/-- A total over the machines of a CPU job that can run a call. -/
def cpuTotal (f : Text → ℤ) : ℤ :=
  if q.PacksBySize head then
    wholeMachines head q.numCpusToAdd * q.ifRuns f (largestSize head.provider).1 +
      (lastSize head q.numCpusToAdd).elim 0 fun size => q.ifRuns f size.1
  else q.configuredNodes * q.ifRuns f q.configuredMachineType

lemma cpuMachineTypes_eq {machineTypes : List Text}
    (h : q.cpuMachineTypes head = .ok machineTypes) :
    machineTypes =
      if q.PacksBySize head then
        List.replicate (wholeMachines head q.numCpusToAdd) (largestSize head.provider).1 ++
          ((lastSize head q.numCpusToAdd).map Prod.fst).toList
      else List.replicate q.configuredNodes q.configuredMachineType := by
  simp only [cpuMachineTypes] at h
  by_cases hpack : q.PacksBySize head
  · rw [if_pos hpack] at h ⊢
    rw [← Except.ok.inj h, packCpuMachines_eq]
  · rw [if_neg hpack] at h ⊢
    obtain ⟨cpuPerNode, hcpus, h⟩ := bind_eq_ok.1 h
    obtain ⟨nodes, hnodes, h⟩ := bind_eq_ok.1 h
    obtain ⟨-, rfl⟩ := ceilDiv_eq_ok.1 hnodes
    rw [← pure_eq_ok.1 h, configuredNodes, cpuCountOf_eq hcpus]

lemma sumOf_cpuMachineTypes {machineTypes : List Text} (f : Text → ℤ)
    (h : q.cpuMachineTypes head = .ok machineTypes) :
    sumOf f (machineTypes.filter q.Runs) = q.cpuTotal head f := by
  rw [sumOf_filter_runs, cpuTotal, cpuMachineTypes_eq h]
  split_ifs
  · rw [sumOf_append, sumOf_replicate]
    cases lastSize head q.numCpusToAdd with
    | none => simp [sumOf]
    | some size => simp [sumOf]
  · rw [sumOf_replicate]

variable (q) in
/-- The slots that the CPUs to add are enough for. -/
def slotsToAdd : ℤ := q.numCpusToAdd.fdiv (requiredCpusPerCall q.funcCpu q.funcRam)

/-- What a CPU job is planned with. -/
lemma planCpu_eq (h : q.planCpu head = .ok planned) :
    requiredCpusPerCall q.funcCpu q.funcRam ≠ 0 ∧
      (q.slotsToAdd ≤ 0 ∧ planned = [] ∨
        0 < q.slotsToAdd ∧ ∃ machineTypes, q.cpuMachineTypes head = .ok machineTypes ∧
          planned = dealSlots q.slotsToAdd
            ((machineTypes.filter q.Runs).map fun mt => (mt, q.capacityOf mt))) := by
  obtain ⟨parallelismToAdd, hpar, h⟩ := bind_eq_ok.1 h
  obtain ⟨hne, rfl⟩ := floorDiv_eq_ok.1 hpar
  change (if q.slotsToAdd ≤ 0 then _ else _) = _ at h
  refine ⟨hne, ?_⟩
  split_ifs at h with hnone
  · exact .inl ⟨hnone, (pure_eq_ok.1 h).symm⟩
  · obtain ⟨machineTypes, htypes, h⟩ := bind_eq_ok.1 h
    obtain ⟨machines, hmachines, h⟩ := bind_eq_ok.1 h
    refine .inr ⟨not_le.1 hnone, machineTypes, htypes, ?_⟩
    rw [← pure_eq_ok.1 h, runnable_eq hmachines]
    rfl

end GrowRequest

/-! ### The plans of the other two branches -/

/-- The GPUs of a machine type, none where the catalog does not know it. -/
def gpusOf (machineType : Text) : ℕ :=
  match machineSpec machineType with
  | .ok spec => spec.gpus
  | .error _ => 0

lemma spec_gpuMachineTypes (provider : CloudProvider) :
    ∀ e ∈ gpuMachineTypes provider, ∃ spec, machineSpec e.2 = .ok spec ∧ 0 < spec.gpus := by
  have hgpus : ∀ e ∈ gpuMachineTypes provider,
      (machineSpec e.2).toOption.any fun spec => 0 < spec.gpus := by
    cases provider <;> decide
  intro e he
  have h := hgpus e he
  cases hspec : machineSpec e.2 with
  | error err => simp [hspec, Except.toOption] at h
  | ok spec => exact ⟨spec, rfl, by simpa [hspec, Except.toOption] using h⟩

/-- The machines for GPUs have some. -/
lemma gpusOf_gpuMachine {funcGpu : Option Text} {provider : CloudProvider} {gpuMachine : Text}
    (h : gpuMachineType funcGpu provider = .ok (some gpuMachine)) :
    ∃ spec, machineSpec gpuMachine = .ok spec ∧ gpusOf gpuMachine = spec.gpus ∧
      0 < gpusOf gpuMachine := by
  cases funcGpu with
  | none => cases h
  | some gpu =>
    simp only [gpuMachineType] at h
    split at h
    · next machineType hlookup =>
      obtain rfl : machineType = gpuMachine := by simpa using h
      have hmem : (gpu, machineType) ∈ gpuMachineTypes provider := by
        obtain ⟨l, l', hsplit, -⟩ := List.lookup_eq_some_iff.1 hlookup
        rw [hsplit]
        exact List.mem_append_right _ List.mem_cons_self
      obtain ⟨spec, hspec, hpos⟩ := spec_gpuMachineTypes provider _ hmem
      have hgpus : gpusOf machineType = spec.gpus := by rw [gpusOf, hspec]
      exact ⟨spec, hspec, hgpus, hgpus ▸ hpos⟩
    · cases h

/-- They run a call on each. -/
lemma capacity_gpuMachine {q : GrowRequest} {provider : CloudProvider} {gpuMachine : Text}
    (h : gpuMachineType q.funcGpu provider = .ok (some gpuMachine)) :
    parallelismCapacity gpuMachine q.funcCpu q.funcRam = .ok (gpusOf gpuMachine : ℤ) := by
  obtain ⟨spec, hspec, hgpus, hpos⟩ := gpusOf_gpuMachine h
  have hsome : 0 < spec.gpus := hgpus ▸ hpos
  rw [parallelismCapacity, hspec, hgpus]
  exact if_pos hsome

namespace GrowRequest

variable {q : GrowRequest} {planned : List PlannedNode} {slotsPerNode : ℤ} {gpuMachine : Text}

variable (q slotsPerNode) in
/-- The nodes of a plan by measured capacity: those that the slots need, within the budget. -/
def measuredNodes : ℤ :=
  cappedNodes (ceil q.missingSlots slotsPerNode) q.maxAdditionalCpus (cpuCountOf q.machineType)

variable (q gpuMachine) in
/-- The nodes of a plan for GPUs: those that the slots need, within the budget. -/
def gpuNodes : ℤ :=
  cappedNodes (ceil q.missingSlots (gpusOf gpuMachine)) q.maxAdditionalGpus (gpusOf gpuMachine)

lemma planMeasured_eq (h : q.planMeasured slotsPerNode = .ok planned) :
    planned = spreadSlots q.machineType (q.measuredNodes slotsPerNode).toNat q.missingSlots ∧
      ∀ b ∈ q.maxAdditionalCpus,
        machineTypeCpuCount q.machineType = .ok (cpuCountOf q.machineType) ∧
          0 < cpuCountOf q.machineType := by
  obtain ⟨asked, hasked, h⟩ := bind_eq_ok.1 h
  obtain ⟨nodes, hnodes, h⟩ := bind_eq_ok.1 h
  obtain ⟨-, rfl⟩ := ceilDiv_eq_ok.1 hasked
  have hcount : ∀ d, ((machineTypeCpuCount q.machineType).map fun cpus : ℕ => (cpus : ℤ)) = .ok d →
      machineTypeCpuCount q.machineType = .ok (cpuCountOf q.machineType) ∧
        d = cpuCountOf q.machineType := by
    intro d hd
    cases hcpus : machineTypeCpuCount q.machineType with
    | error e => simp [hcpus, Except.map] at hd
    | ok cpus =>
      rw [cpuCountOf_eq hcpus]
      exact ⟨rfl, by simpa [hcpus, Except.map] using hd.symm⟩
  obtain ⟨rfl, hbudget⟩ := withinBudget_eq (fun d hd => (hcount d hd).2) hnodes
  refine ⟨(pure_eq_ok.1 h).symm, fun b hb => ?_⟩
  obtain ⟨hok, hne⟩ := hbudget b hb
  exact ⟨(hcount _ hok).1, Nat.pos_of_ne_zero (by exact_mod_cast hne)⟩

lemma planGpu_eq {provider : CloudProvider}
    (hgpu : gpuMachineType q.funcGpu provider = .ok (some gpuMachine))
    (h : q.planGpu gpuMachine = .ok planned) :
    planned = dealSlots (min q.missingSlots (q.gpuNodes gpuMachine * gpusOf gpuMachine))
      (List.replicate (q.gpuNodes gpuMachine).toNat (gpuMachine, (gpusOf gpuMachine : ℤ))) := by
  obtain ⟨spec, hspec, hgpus, hpos⟩ := gpusOf_gpuMachine hgpu
  have hcapacity := capacity_gpuMachine hgpu
  obtain ⟨perNode, hper, h⟩ := bind_eq_ok.1 h
  obtain rfl : (gpusOf gpuMachine : ℤ) = perNode := by simpa [hcapacity] using hper
  obtain ⟨asked, hasked, h⟩ := bind_eq_ok.1 h
  obtain ⟨nodes, hnodes, h⟩ := bind_eq_ok.1 h
  obtain ⟨-, rfl⟩ := ceilDiv_eq_ok.1 hasked
  obtain ⟨rfl, -⟩ := withinBudget_eq (fun d hd => (Except.ok.inj hd).symm) hnodes
  change (if q.gpuNodes gpuMachine ≤ 0 then _ else _) = _ at h
  split_ifs at h with hnone
  · rw [← pure_eq_ok.1 h, Int.toNat_eq_zero.2 hnone]
    rfl
  · obtain ⟨machines, hmachines, h⟩ := bind_eq_ok.1 h
    have hof : q.capacityOf gpuMachine = gpusOf gpuMachine := by rw [capacityOf, hcapacity]
    have hruns : q.Runs gpuMachine = true := by
      rw [Runs, hof]
      exact decide_eq_true (by exact_mod_cast hpos)
    rw [← pure_eq_ok.1 h, runnable_eq hmachines, List.filter_replicate, if_pos hruns,
      List.map_replicate, hof]
    rfl

end GrowRequest

end Burla.Scaling
