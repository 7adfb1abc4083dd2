/-
The machine catalog (providers/catalog.py): what a machine type has, how many calls of a job it can
run, and the packing of CPUs into the sizes of a provider's family.

Machine types are texts, and `machineSpec` parses them as the source does.  Divisions of Python are
`Int.fdiv`, and one by zero raises.
-/
import Mathlib.Algebra.Order.Ring.Int
import Mathlib.Data.List.Basic
import Mathlib.Tactic.Common

namespace Burla.Scaling

abbrev Text := List Char

inductive CloudProvider
  | gcp
  | aws
  | azure
  deriving DecidableEq, Repr

/-- What the catalog raises. -/
inductive PlanError
  /-- `ValueError`: "Unknown machine type: …". -/
  | unknownMachineType (machineType : Text)
  /-- `ValueError`: "func_gpu must be one of …". -/
  | unknownGpu (options : List Text)
  | keyError (key : Text)
  | zeroDivision
  deriving DecidableEq, Repr

/-! ### Machine types -/

/-- What `machine_spec` returns. -/
structure MachineSpec where
  cpus : ℕ
  ramGb : ℕ
  gpus : ℕ
  deriving DecidableEq, Repr

/-- The sizes that have four GB for each vCPU. -/
def MachineSpec.standard (cpus : ℕ) : MachineSpec := ⟨cpus, cpus * 4, 0⟩

def startsWith (start text : Text) : Bool := start.isPrefixOf text

/-- `text.split(sep)[-1]` -/
def lastPart (sep : Char) (text : Text) : Text := (text.reverse.takeWhile (· != sep)).reverse

/-- The number that a text of digits stands for. -/
def natOfDigits (text : Text) : Option ℕ :=
  if text.isEmpty = false ∧ text.all Char.isDigit = true then
    some (text.foldl (fun n c => 10 * n + (c.toNat - 48)) 0)
  else none

/-- `n4-standard-N` -/
def n4StandardCpus (machineType : Text) : Option ℕ :=
  if startsWith "n4-standard-".toList machineType then natOfDigits (lastPart '-' machineType)
  else none

/-- `_M7I_SIZE_TO_CPUS` -/
def m7iSizeToCpus : List (Text × ℕ) :=
  [("large".toList, 2), ("xlarge".toList, 4), ("2xlarge".toList, 8), ("4xlarge".toList, 16),
    ("8xlarge".toList, 32), ("12xlarge".toList, 48), ("16xlarge".toList, 64),
    ("24xlarge".toList, 96)]

/-- `m7i.<size>` -/
def m7iCpus (machineType : Text) : Option ℕ :=
  if startsWith "m7i.".toList machineType then m7iSizeToCpus.lookup (lastPart '.' machineType)
  else none

/-- The number in a text that `_DS_PATTERN` matches; `$` also matches before a last newline. -/
def dsMatch (machineType : Text) : Option ℕ :=
  if startsWith "Standard_D".toList machineType then
    let rest := machineType.drop 10
    let suffix := rest.dropWhile Char.isDigit
    let suffixes := ["as_v5".toList, "s_v6".toList, "s_v7".toList]
    if suffixes.contains suffix ∨ (suffixes.map (· ++ ['\n'])).contains suffix then
      natOfDigits (rest.takeWhile Char.isDigit)
    else none
  else none

/-- `_DS_CPU_SIZES` -/
def dsCpuSizes : List ℕ := [2, 4, 8, 16, 32, 48, 64, 96, 128, 192]

def dsCpus (machineType : Text) : Option ℕ :=
  (dsMatch machineType).filter fun cpus => dsCpuSizes.contains cpus

/-- The entries of `_GPU_MACHINE_SPECS` that are machine types. -/
def gpuMachineSpecs : List (Text × MachineSpec) :=
  [("g4dn.xlarge".toList, ⟨4, 16, 1⟩), ("p4d.24xlarge".toList, ⟨96, 1152, 8⟩),
    ("p4de.24xlarge".toList, ⟨96, 1152, 8⟩), ("p5.4xlarge".toList, ⟨16, 256, 1⟩),
    ("p5.48xlarge".toList, ⟨192, 2048, 8⟩)]

/-- The entries of `_GPU_MACHINE_SPECS` that are families, with what they have for each GPU. -/
def gpuFamilies : List (Text × MachineSpec) :=
  [("a2-highgpu".toList, ⟨12, 85, 1⟩), ("a2-ultragpu".toList, ⟨12, 170, 1⟩),
    ("a3-highgpu".toList, ⟨26, 234, 1⟩)]

/-- The machine that a family's `<family>-Ng` stands for. -/
def familySpec (machineType : Text) (family : Text × MachineSpec) : Option MachineSpec :=
  if startsWith (family.1 ++ ['-']) machineType then
    let suffix := lastPart '-' machineType
    if suffix.getLast? = some 'g' then
      (natOfDigits suffix.dropLast).map fun gpus =>
        ⟨family.2.cpus * gpus, family.2.ramGb * gpus, gpus⟩
    else none
  else none

/-- `machine_spec` -/
def machineSpec (machineType : Text) : Except PlanError MachineSpec :=
  match n4StandardCpus machineType with
  | some cpus => .ok (.standard cpus)
  | none =>
    match m7iCpus machineType with
    | some cpus => .ok (.standard cpus)
    | none =>
      if machineType = "r7i.16xlarge".toList then .ok ⟨64, 512, 0⟩
      else
        match dsCpus machineType with
        | some cpus => .ok (.standard cpus)
        | none =>
          match gpuMachineSpecs.lookup machineType with
          | some spec => .ok spec
          | none =>
            -- the entry of a family has no `cpus`
            if (gpuFamilies.lookup machineType).isSome then .error (.keyError "cpus".toList)
            else
              match gpuFamilies.findSome? (familySpec machineType) with
              | some spec => .ok spec
              | none => .error (.unknownMachineType machineType)

/-- `machine_type_cpu_count` -/
def machineTypeCpuCount (machineType : Text) : Except PlanError ℕ :=
  match machineSpec machineType with
  | .ok spec => .ok spec.cpus
  | .error (.unknownMachineType _) => .ok 1
  | .error e => .error e

/-- `is_packable_cpu_machine` -/
def isPackableCpuMachine (machineType : Text) : Bool :=
  startsWith "n4-standard-".toList machineType ∨ startsWith "m7i.".toList machineType ∨
    (dsMatch machineType).isSome

/-- `GPU_MACHINE_TYPES` -/
def gpuMachineTypes : CloudProvider → List (Text × Text)
  | .gcp =>
    [("A100".toList, "a2-highgpu-1g".toList), ("A100_40G".toList, "a2-highgpu-1g".toList),
      ("A100_80G".toList, "a2-ultragpu-1g".toList), ("H100".toList, "a3-highgpu-1g".toList),
      ("H100_80G".toList, "a3-highgpu-1g".toList)]
  | .aws =>
    [("T4".toList, "g4dn.xlarge".toList), ("A100".toList, "p4d.24xlarge".toList),
      ("A100_40G".toList, "p4d.24xlarge".toList), ("A100_80G".toList, "p4de.24xlarge".toList),
      ("H100".toList, "p5.4xlarge".toList), ("H100_80G".toList, "p5.4xlarge".toList)]
  | .azure => []

/-- `a <= b`, by the code points. -/
def Text.le (a b : Text) : Bool := !List.lex b a fun x y => Nat.blt x.toNat y.toNat

/-- `gpu_machine_type` -/
def gpuMachineType (funcGpu : Option Text) (provider : CloudProvider) :
    Except PlanError (Option Text) :=
  match funcGpu with
  | none => .ok none
  | some gpu =>
    match (gpuMachineTypes provider).lookup gpu with
    | some machineType => .ok (some machineType)
    | none =>
      .error (.unknownGpu (((gpuMachineTypes provider).map Prod.fst).mergeSort Text.le))

/-! ### Capacity -/

/-- `func_cpu` or `func_ram`. -/
inductive FuncSize
  | dynamic
  | size (n : ℤ)
  deriving DecidableEq, Repr

def FuncSize.cpus : FuncSize → ℤ
  | .dynamic => 1
  | .size n => n

def FuncSize.ramGb : FuncSize → ℤ
  | .dynamic => 4
  | .size n => n

/-- `a // b` -/
def floorDiv (a b : ℤ) : Except PlanError ℤ :=
  if b = 0 then .error .zeroDivision else .ok (a.fdiv b)

/-- `parallelism_capacity` -/
def parallelismCapacity (machineType : Text) (funcCpu funcRam : FuncSize) :
    Except PlanError ℤ := do
  let spec ← machineSpec machineType
  if 0 < spec.gpus then pure spec.gpus
  else
    let byCpu ← floorDiv spec.cpus funcCpu.cpus
    let byRam ← floorDiv spec.ramGb funcRam.ramGb
    pure (min byCpu byRam)

/-! ### Packing -/

/-- The sizes that the grow path may provision, largest first. -/
def packSizes : CloudProvider → List (Text × ℕ)
  | .gcp =>
    [("n4-standard-80".toList, 80), ("n4-standard-64".toList, 64), ("n4-standard-32".toList, 32),
      ("n4-standard-16".toList, 16), ("n4-standard-8".toList, 8), ("n4-standard-4".toList, 4),
      ("n4-standard-2".toList, 2)]
  | .aws =>
    [("m7i.16xlarge".toList, 64), ("m7i.8xlarge".toList, 32), ("m7i.4xlarge".toList, 16),
      ("m7i.2xlarge".toList, 8), ("m7i.xlarge".toList, 4), ("m7i.large".toList, 2)]
  | .azure =>
    [("Standard_D64as_v5".toList, 64), ("Standard_D32as_v5".toList, 32),
      ("Standard_D16as_v5".toList, 16), ("Standard_D8as_v5".toList, 8),
      ("Standard_D4as_v5".toList, 4), ("Standard_D2as_v5".toList, 2)]

/-- The first entry of `sizes`. -/
def largestSize (provider : CloudProvider) : Text × ℕ := (packSizes provider).headD ([], 1)

/-- The smallest size that `remaining` CPUs fit into. -/
def sizeFor (provider : CloudProvider) (remaining : ℤ) : Option (Text × ℕ) :=
  (packSizes provider).reverse.find? fun size => remaining ≤ size.2

/-- The loop that takes the largest size as long as it fits, and what remains; `left` is at least
the number of passes. -/
def packLargest (largest : ℕ) : ℕ → ℤ → ℕ × ℤ
  | 0, remaining => (0, remaining)
  | left + 1, remaining =>
    if (largest : ℤ) ≤ remaining then
      let p := packLargest largest left (remaining - largest)
      (p.1 + 1, p.2)
    else (0, remaining)

/-- `pack_cpu_machines` -/
def packCpuMachines (numCpus : ℤ) (provider : CloudProvider) : List Text :=
  let largest := largestSize provider
  let p := packLargest largest.2 numCpus.toNat numCpus
  List.replicate p.1 largest.1 ++
    if 0 < p.2 then ((sizeFor provider p.2).map Prod.fst).toList else []

end Burla.Scaling
