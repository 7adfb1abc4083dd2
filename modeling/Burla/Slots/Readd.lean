/-
How a node sets its own slot count: when the job starts (`execute`), when its recovery loop
has room (`dynamic_worker_readd_loop`), and when inputs are stranded (`_job_watcher`).
-/
import Mathlib.Algebra.Order.Ring.Int
import Mathlib.Algebra.Order.Ring.Rat
import Mathlib.Tactic.Common

namespace Burla.Slots

/-- `execute`: a node runs as many of its assigned slots as it has compatible workers for. -/
def startTarget (assigned compatibleWorkers : ℕ) : ℤ := min assigned compatibleWorkers

/-- `mint_slots_allowed`: minting is for jobs whose parallelism the user left unconstrained. -/
def mintSlotsAllowed (maxParallelism nInputs : ℕ) : Bool := nInputs ≤ maxParallelism

/-- What a tick of `dynamic_worker_readd_loop` looks at beside the node's slots. -/
structure ReaddView where
  now : ℚ
  gatesGreen : Bool
  fastRecover : Bool
  activeWorkers : ℕ
  throttledWorkers : ℕ
  dynamicFuncRam : Bool
  inLocalDevMode : Bool
  instanceCpus : ℕ
  queuedInputs : ℕ
  anotherWorkerFits : Bool
  lastMemoryShedAt : ℚ
  lastMemoryReaddAt : ℚ
  deriving DecidableEq, Repr

/-- `READD_BOOT_BATCH_MAX` -/
def readdBootBatchMax : ℤ := 8

/-- `PARK_EVENT_RETENTION_SECONDS` -/
def parkEventRetentionSeconds : ℚ := 300

/-- `MEMORY_READD_DWELL_SECONDS` -/
def memoryReaddDwellSeconds : ℚ := 10

/-- What a tick that boots workers does. -/
structure Readd where
  targetParallelism : ℤ
  batchSize : ℤ
  lastMemoryReaddAt : ℚ
  deriving DecidableEq, Repr

namespace ReaddView

/-- `memory_probe`: the node keeps adding workers past its target. -/
def memoryProbe (v : ReaddView) : Bool :=
  v.dynamicFuncRam && !v.inLocalDevMode && (v.activeWorkers < v.instanceCpus : Bool)

/-- One tick of `dynamic_worker_readd_loop`, if it boots workers. -/
def readd (v : ReaddView) (targetParallelism : ℤ) : Option Readd :=
  let deficit := targetParallelism - v.activeWorkers
  if 0 < v.throttledWorkers ∧ (v.gatesGreen ∨ v.fastRecover) then none
  else if v.gatesGreen = false then none
  else if deficit ≤ 0 ∧ v.memoryProbe = false then none
  else if v.queuedInputs = 0 then none
  else if v.dynamicFuncRam ∧ v.inLocalDevMode = false ∧ 0 < v.activeWorkers ∧
      v.anotherWorkerFits = false then none
  else
    let memoryRegime := v.now - v.lastMemoryShedAt < parkEventRetentionSeconds
    if deficit ≤ 0 ∨ memoryRegime then
      if v.now - max v.lastMemoryShedAt v.lastMemoryReaddAt < memoryReaddDwellSeconds then none
      else
        some
          { targetParallelism :=
              if deficit ≤ 0 then targetParallelism + 1 else targetParallelism
            batchSize := 1
            lastMemoryReaddAt := v.now }
    else
      some
        { targetParallelism
          batchSize := min deficit readdBootBatchMax
          lastMemoryReaddAt := v.lastMemoryReaddAt }

/-- The slot count after a tick. -/
def readdTarget (v : ReaddView) (targetParallelism : ℤ) : ℤ :=
  match v.readd targetParallelism with
  | none => targetParallelism
  | some r => r.targetParallelism

/-- A tick adds a slot of its own: the node has a worker for each of its slots, and there are
queued inputs and room for one more. -/
def probesPastTarget (v : ReaddView) (targetParallelism : ℤ) : Prop :=
  targetParallelism ≤ v.activeWorkers ∧ v.memoryProbe = true ∧ v.gatesGreen = true ∧
    v.throttledWorkers = 0 ∧ v.queuedInputs ≠ 0 ∧
    (v.activeWorkers = 0 ∨ v.anotherWorkerFits = true) ∧
    memoryReaddDwellSeconds ≤ v.now - max v.lastMemoryShedAt v.lastMemoryReaddAt

instance (v : ReaddView) (targetParallelism : ℤ) :
    Decidable (v.probesPastTarget targetParallelism) :=
  inferInstanceAs (Decidable (_ ∧ _))

/-- A memory probe is made only for dynamic RAM on a real machine. -/
lemma dynamicFuncRam_of_memoryProbe {v : ReaddView} (h : v.memoryProbe = true) :
    v.dynamicFuncRam = true ∧ v.inLocalDevMode = false := by
  simp only [memoryProbe, Bool.and_eq_true, Bool.not_eq_true'] at h
  exact h.1

/-- A tick changes the slots only by a probe. -/
lemma readdTarget_eq (v : ReaddView) (targetParallelism : ℤ) :
    v.readdTarget targetParallelism =
      if v.probesPastTarget targetParallelism then targetParallelism + 1
      else targetParallelism := by
  by_cases hle : targetParallelism ≤ v.activeWorkers
  · have hdeficit : targetParallelism - v.activeWorkers ≤ 0 := by omega
    simp only [readdTarget, readd, hdeficit, probesPastTarget, hle, true_and, if_true, true_or]
    by_cases hprobe : v.memoryProbe = true
    · obtain ⟨hram, hmode⟩ := dynamicFuncRam_of_memoryProbe hprobe
      -- each check of the tick is a clause of `probesPastTarget`
      simp only [hprobe, hram, hmode, true_and, Bool.true_eq_false, if_false]
      split_ifs <;> grind
    · simp only [hprobe]
      split_ifs <;> simp_all
  · have hdeficit : ¬ targetParallelism - v.activeWorkers ≤ 0 := by omega
    simp only [readdTarget, readd, hdeficit, probesPastTarget, hle, false_and, if_false, false_or]
    split_ifs <;> rfl

end ReaddView

/-- `stranded`: a node has queued inputs and neither slots nor live workers. -/
def stranded (targetParallelism : ℤ) (aliveWorkers queuedInputs : ℕ) : Bool :=
  0 < queuedInputs ∧ targetParallelism = 0 ∧ aliveWorkers = 0

/-- The reclaim of stranded inputs in `_job_watcher`. -/
def reclaimTarget (targetParallelism : ℤ) (aliveWorkers queuedInputs cpuCount : ℕ) : ℤ :=
  if stranded targetParallelism aliveWorkers queuedInputs then min queuedInputs cpuCount
  else targetParallelism

end Burla.Slots
