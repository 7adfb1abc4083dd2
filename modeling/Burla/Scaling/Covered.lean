/-
The slots that an uncapped `plan_grow_nodes` plans for a CPU job.

As many CPUs are packed as all calls need together, and each machine then runs the calls that fit it
as a whole; what is left over on every machine is missing in the end.  The main result is
`Burla.Scaling.covered_iff`.
-/
import Burla.Scaling.Budget
import Burla.Scaling.Usable

namespace Burla.Scaling

variable {head : HeadSettings} {q : GrowRequest} {planned : List PlannedNode}

/-- A CPU job without budgets and without a measured capacity. -/
structure Uncapped (q : GrowRequest) : Prop where
  funcGpu : q.funcGpu = none
  measured : q.measured = none
  maxAdditionalCpus : q.maxAdditionalCpus = none

/-- Slots are dealt out until there are none left, or no room. -/
lemma plannedSlots_dealSlots {machines : List (Text × ℤ)} {remaining : ℤ}
    (hcapacity : ∀ m ∈ machines, 0 ≤ m.2) (hremaining : 0 ≤ remaining) :
    plannedSlots (dealSlots remaining machines) = min remaining (sumOf Prod.snd machines) := by
  induction machines generalizing remaining with
  | nil => exact (min_eq_right hremaining).symm
  | cons machine machines ih =>
    rw [List.forall_mem_cons] at hcapacity
    have hrest := sumOf_nonneg hcapacity.2
    have hih := ih hcapacity.2 (by omega : 0 ≤ remaining - min remaining machine.2)
    rw [plannedSlots] at hih ⊢
    rw [dealSlots, sumOf, sumOf, hih]
    dsimp only
    omega

/-- The capacities of machine types that the catalog knows, for calls of some size, can be
computed. -/
lemma parallelismCapacity_eq_ok {machineType : Text} (hknown : Known machineType)
    (hcpu : q.funcCpu.cpus ≠ 0) (hram : q.funcRam.ramGb ≠ 0) :
    ∃ capacity, parallelismCapacity machineType q.funcCpu q.funcRam = .ok capacity := by
  obtain ⟨spec, hspec⟩ := hknown
  rw [parallelismCapacity, hspec]
  simp only [floorDiv, if_neg hcpu, if_neg hram]
  by_cases hgpus : 0 < spec.gpus
  · exact ⟨spec.gpus, if_pos hgpus⟩
  · exact ⟨_, if_neg hgpus⟩

lemma runnable_eq_ok {machineTypes : List Text}
    (h : ∀ mt ∈ machineTypes, ∃ capacity,
      parallelismCapacity mt q.funcCpu q.funcRam = .ok capacity) :
    ∃ machines, q.runnable machineTypes = .ok machines := by
  induction machineTypes with
  | nil => exact ⟨[], rfl⟩
  | cons mt machineTypes ih =>
    rw [List.forall_mem_cons] at h
    obtain ⟨capacity, hcapacity⟩ := h.1
    obtain ⟨machines, hmachines⟩ := ih h.2
    exact ⟨_, by rw [GrowRequest.runnable, hcapacity, hmachines]; rfl⟩

/-- A standard size that runs a call: its size is not zero. -/
lemma sizes_of_runs {size : Text × ℕ} (hsize : size ∈ packSizes head.provider)
    (hruns : q.Runs size.1 = true) : q.funcCpu.cpus ≠ 0 ∧ q.funcRam.ramGb ≠ 0 := by
  have h := GrowRequest.parallelismCapacity_of_runs hruns
  obtain ⟨spec, hspec, h⟩ := bind_eq_ok.1 h
  obtain rfl : MachineSpec.standard size.2 = spec :=
    Except.ok.inj ((spec_packSizes head.provider size hsize).symm.trans hspec)
  have hgpus : ¬0 < (MachineSpec.standard size.2).gpus := lt_irrefl 0
  rw [if_neg hgpus] at h
  obtain ⟨byCpu, hcpu, h⟩ := bind_eq_ok.1 h
  obtain ⟨byRam, hram, h⟩ := bind_eq_ok.1 h
  exact ⟨(floorDiv_eq_ok.1 hcpu).1, (floorDiv_eq_ok.1 hram).1⟩

lemma ifRuns_pos {f : Text → ℤ} {machineType : Text} (h : 0 < q.ifRuns f machineType) :
    q.Runs machineType = true := by
  by_contra hruns
  rw [GrowRequest.ifRuns, if_neg hruns] at h
  exact lt_irrefl 0 h

lemma ifRuns_capacityOf_nonneg (machineType : Text) : 0 ≤ q.ifRuns q.capacityOf machineType := by
  rw [GrowRequest.ifRuns]
  split_ifs with hruns
  · exact (of_decide_eq_true hruns).le
  · exact le_rfl

lemma pos_of_ceil_pos {a : ℤ} {b : ℕ} (h : 0 < ceil a b) : 0 < a ∧ b ≠ 0 := by
  have hb : b ≠ 0 := by
    rintro rfl
    simp [ceil] at h
  refine ⟨?_, hb⟩
  by_contra ha
  have hle : ceil a b ≤ 0 := by
    rw [ceil_le_iff (by exact_mod_cast Nat.pos_of_ne_zero hb), mul_zero]
    exact not_lt.1 ha
  omega

/-- A size of the family that runs calls, where the packed machines have room for some. -/
lemma exists_size_of_room (hpack : q.PacksBySize head)
    (hroom : 0 < q.cpuTotal head q.capacityOf) :
    0 < q.numCpusToAdd ∧ ∃ size ∈ packSizes head.provider, q.Runs size.1 = true := by
  have hlargest := ifRuns_capacityOf_nonneg (q := q) (largestSize head.provider).1
  rw [GrowRequest.cpuTotal, if_pos hpack] at hroom
  by_cases hwhole : 0 < (wholeMachines head q.numCpusToAdd : ℤ) *
      q.ifRuns q.capacityOf (largestSize head.provider).1
  · have hruns := pos_of_mul_pos_right hwhole (Int.natCast_nonneg _)
    have hcount : 0 < q.numCpusToAdd / (largestSize head.provider).2 := by
      have hpos := pos_of_mul_pos_left hwhole hlargest
      rw [wholeMachines] at hpos
      omega
    refine ⟨?_, _, largestSize_mem head.provider, ifRuns_pos hruns⟩
    by_contra hneg
    have hsize : (0 : ℤ) < (largestSize head.provider).2 :=
      Int.natCast_pos.2 (largestSize_pos head.provider)
    have hle : q.numCpusToAdd / (largestSize head.provider).2 < 1 :=
      Int.ediv_lt_of_lt_mul hsize (by linarith)
    omega
  · have hwhole' : 0 ≤ (wholeMachines head q.numCpusToAdd : ℤ) * (largestSize head.provider).2 := by
      positivity
    cases hlast : lastSize head q.numCpusToAdd with
    | none =>
      rw [hlast, Option.elim_none, add_zero] at hroom
      exact absurd hroom hwhole
    | some size =>
      rw [hlast, Option.elim_some] at hroom
      refine ⟨?_, size, lastSize_mem hlast, ifRuns_pos (f := q.capacityOf) (by linarith)⟩
      rw [lastSize] at hlast
      split_ifs at hlast with hrest
      rw [restCpus] at hrest
      linarith

/-- Where machines have room for calls, there are CPUs to add, and the machines can be planned. -/
lemma machines_of_room (hroom : 0 < q.cpuTotal head q.capacityOf) :
    0 < q.numCpusToAdd ∧ ∃ machineTypes machines, q.cpuMachineTypes head = .ok machineTypes ∧
      q.runnable machineTypes = .ok machines := by
  by_cases hpack : q.PacksBySize head
  · obtain ⟨hpos, size, hsize, hruns⟩ := exists_size_of_room hpack hroom
    obtain ⟨hcpu, hram⟩ := sizes_of_runs hsize hruns
    have htypes : q.cpuMachineTypes head = .ok (packCpuMachines q.numCpusToAdd head.provider) :=
      if_pos hpack
    have hknown : ∀ mt ∈ packCpuMachines q.numCpusToAdd head.provider, Known mt := by
      intro mt hmt
      rw [packCpuMachines_eq, List.mem_append, Option.mem_toList, Option.map_eq_some_iff] at hmt
      rcases hmt with hmt | ⟨size', hsize', rfl⟩
      · rw [(List.mem_replicate.1 hmt).2]
        exact ⟨_, spec_packSizes head.provider _ (largestSize_mem head.provider)⟩
      · exact ⟨_, spec_packSizes head.provider _ (lastSize_mem hsize')⟩
    obtain ⟨machines, hmachines⟩ :=
      runnable_eq_ok fun mt hmt => parallelismCapacity_eq_ok (hknown mt hmt) hcpu hram
    exact ⟨hpos, _, machines, htypes, hmachines⟩
  · rw [GrowRequest.cpuTotal, if_neg hpack] at hroom
    have hruns := ifRuns_pos (pos_of_mul_pos_right hroom (Int.natCast_nonneg _))
    have hnodes := pos_of_mul_pos_left hroom (ifRuns_capacityOf_nonneg _)
    rw [GrowRequest.configuredNodes] at hnodes
    obtain ⟨hpos, hcount⟩ := pos_of_ceil_pos (by omega :
      0 < ceil q.numCpusToAdd (cpuCountOf q.configuredMachineType))
    have htypes : q.cpuMachineTypes head =
        .ok (List.replicate q.configuredNodes q.configuredMachineType) := by
      rw [GrowRequest.cpuMachineTypes, if_neg hpack,
        machineTypeCpuCount_of_known (known_of_runs hruns)]
      have hceil : ceilDiv q.numCpusToAdd (cpuCountOf q.configuredMachineType) = .ok _ :=
        ceilDiv_eq_ok.2 ⟨by exact_mod_cast hcount, rfl⟩
      exact bind_eq_ok.2 ⟨_, rfl, bind_eq_ok.2 ⟨_, hceil, rfl⟩⟩
    obtain ⟨machines, hmachines⟩ :=
      runnable_eq_ok (q := q) fun mt (hmt :
          mt ∈ List.replicate q.configuredNodes q.configuredMachineType) => by
        rw [(List.mem_replicate.1 hmt).2]
        exact ⟨_, GrowRequest.parallelismCapacity_of_runs hruns⟩
    exact ⟨hpos, _, machines, htypes, hmachines⟩

/-- **Uncapped growth covers the request if and only if the machines for its CPUs have room for
it.** -/
theorem covered_iff (hmissing : 1 ≤ q.missingSlots) (huncapped : Uncapped q) :
    (∃ planned, planGrowNodes head q = .ok planned ∧ plannedSlots planned = q.missingSlots) ↔
      q.missingSlots ≤ q.cpuTotal head q.capacityOf := by
  have hplan : planGrowNodes head q = q.planCpu head := by
    rw [planGrowNodes, huncapped.funcGpu, huncapped.measured]
    rfl
  have hcpus : q.numCpusToAdd = q.missingSlots * requiredCpusPerCall q.funcCpu q.funcRam := by
    rw [GrowRequest.numCpusToAdd, huncapped.maxAdditionalCpus]
  have hslots : requiredCpusPerCall q.funcCpu q.funcRam ≠ 0 → q.slotsToAdd = q.missingSlots := by
    intro hne
    rw [GrowRequest.slotsToAdd, hcpus, Int.mul_fdiv_cancel _ hne]
  have hsum : ∀ machineTypes, q.cpuMachineTypes head = .ok machineTypes →
      plannedSlots (dealSlots q.missingSlots
        ((machineTypes.filter q.Runs).map fun mt => (mt, q.capacityOf mt))) =
        min q.missingSlots (q.cpuTotal head q.capacityOf) := by
    intro machineTypes htypes
    rw [plannedSlots_dealSlots _ (by omega), sumOf_map]
    · change min _ (sumOf q.capacityOf _) = _
      rw [GrowRequest.sumOf_cpuMachineTypes _ htypes]
    · intro m hm
      obtain ⟨mt, hmt, rfl⟩ := List.mem_map.1 hm
      exact (of_decide_eq_true (List.mem_filter.1 hmt).2).le
  rw [hplan]
  constructor
  · rintro ⟨planned, hok, hplanned⟩
    obtain ⟨hne, ⟨hnone, rfl⟩ | ⟨-, machineTypes, htypes, rfl⟩⟩ := GrowRequest.planCpu_eq hok
    · rw [hslots hne] at hnone
      omega
    · rw [hslots hne, hsum _ htypes] at hplanned
      exact min_eq_left_iff.1 hplanned
  · intro hroom
    obtain ⟨hpos, machineTypes, machines, htypes, hmachines⟩ :=
      machines_of_room (by omega : 0 < q.cpuTotal head q.capacityOf)
    have hne : requiredCpusPerCall q.funcCpu q.funcRam ≠ 0 := by
      intro hzero
      rw [hcpus, hzero, mul_zero] at hpos
      exact lt_irrefl 0 hpos
    refine ⟨_, ?_, (hsum _ htypes).trans (min_eq_left hroom)⟩
    refine bind_eq_ok.2 ⟨q.missingSlots, floorDiv_eq_ok.2 ⟨hne, hslots hne⟩, ?_⟩
    rw [if_neg (by omega), htypes]
    refine bind_eq_ok.2 ⟨_, rfl, bind_eq_ok.2 ⟨machines, hmachines, ?_⟩⟩
    rw [GrowRequest.runnable_eq hmachines]
    rfl

/-- Calls of three CPUs, on a cluster of packed machines. -/
def threeCpuCalls (missingSlots : ℤ) : GrowRequest where
  missingSlots := missingSlots
  funcCpu := .size 3
  funcRam := .dynamic
  funcGpu := none
  configuredMachineType := "n4-standard-4".toList
  maxAdditionalCpus := none
  maxAdditionalGpus := none
  slotsPerNode := none
  machineType := []

lemma uncapped_threeCpuCalls (missingSlots : ℤ) : Uncapped (threeCpuCalls missingSlots) :=
  ⟨rfl, rfl, rfl⟩

/-- Of 28 such calls the second machine runs two. -/
theorem covered_iff_threeCpuCalls :
    (∃ planned, planGrowNodes ⟨.gcp, false⟩ (threeCpuCalls 28) = .ok planned ∧
        plannedSlots planned = 28) ↔
      28 ≤ (threeCpuCalls 28).cpuTotal ⟨.gcp, false⟩ (threeCpuCalls 28).capacityOf :=
  covered_iff (by decide) (uncapped_threeCpuCalls 28)

/-- Of 27 such calls one is missing: their 81 CPUs are packed into a machine for 26, and one for
none, which is left out. -/
theorem call_left_out :
    ¬∀ head q, 1 ≤ q.missingSlots → Uncapped q → q.PacksBySize head →
      (∃ size ∈ packSizes head.provider, q.Runs size.1 = true) →
        ∃ planned, planGrowNodes head q = .ok planned ∧ plannedSlots planned = q.missingSlots := by
  intro h
  have hplan : planGrowNodes ⟨.gcp, false⟩ (threeCpuCalls 27) =
      .ok [⟨"n4-standard-80".toList, 26⟩] := by
    decide +kernel
  obtain ⟨planned, hok, hsum⟩ := h ⟨.gcp, false⟩ (threeCpuCalls 27) (by decide)
    (uncapped_threeCpuCalls 27) ⟨rfl, by decide⟩
    ⟨("n4-standard-80".toList, 80), List.mem_cons_self, by decide +kernel⟩
  obtain rfl := Except.ok.inj (hplan.symm.trans hok)
  exact absurd hsum (by decide)

end Burla.Scaling
