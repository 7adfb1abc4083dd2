/-
How the head grows its fleet: `start_job` with `_plan_grow_if_needed` (endpoints/client.py),
`boot_replacement_nodes` (endpoints/nodes.py) and `fleet_resources` (cluster_state.py).

Nodes are planned in the request, and registered later by a background task of their own.
What `plan_grow_nodes` plans, which nodes are up and in which order the tasks run are labels
of the steps.
-/
import Burla.Assign.Exchange
import Burla.Lib.Messages
import Burla.Lib.System
import Mathlib.Algebra.Order.Ring.Nat
import Mathlib.Logic.Function.Basic

namespace Burla.Grow

open Burla.Assign (NodeStatus)

variable {μ γ ν κ : Type*}

/-! ### Machines -/

/-- What the machine types of the cloud have (`machine_spec`, `gpu_model`). -/
structure Catalog (μ γ : Type*) where
  cpus : μ → ℕ
  gpus : μ → ℕ
  gpuModel : μ → Option γ

/-- What the caps of the cluster are about: the vCPUs of machines without GPUs, and the GPUs of
each model. -/
inductive Resource (γ : Type*)
  | vcpus
  | gpus (model : γ)
  deriving DecidableEq

section Machines

variable [DecidableEq γ] (cat : Catalog μ γ)

/-- What a machine counts for. -/
def Catalog.usage (machineType : μ) : Resource γ → ℕ
  | .vcpus => if 0 < cat.gpus machineType then 0 else cat.cpus machineType
  | .gpus model =>
    if 0 < cat.gpus machineType ∧ cat.gpuModel machineType = some model then cat.gpus machineType
    else 0

/-- What several machines count for. -/
def Catalog.total (machineTypes : List μ) (r : Resource γ) : ℕ :=
  (machineTypes.map (cat.usage · r)).sum

omit [DecidableEq γ] in
def Catalog.plannedCpuCount (planned : List μ) : ℕ := (planned.map cat.cpus).sum

omit [DecidableEq γ] in
def Catalog.plannedGpuCount (planned : List μ) : ℕ := (planned.map cat.gpus).sum

end Machines

/-! ### Budgets and jobs -/

/-- The two budgets for the growth of a job, `None` where they do not apply. -/
structure Budget where
  maxAdditionalCpus : Option ℕ
  maxAdditionalGpus : Option ℕ

/-- What is left of the budgets. -/
def Budget.spend (b : Budget) (cpus gpus : ℕ) : Budget :=
  ⟨b.maxAdditionalCpus.map (· - cpus), b.maxAdditionalGpus.map (· - gpus)⟩

/-- What `plan_grow_nodes` is trusted with: it stays within the budgets that it is given, and
for a GPU job it plans machines with the job's GPU. -/
def Budget.Respects (cat : Catalog μ γ) (b : Budget) (gpu : Option γ) (planned : List μ) : Prop :=
  (∀ cpus ∈ b.maxAdditionalCpus, cat.plannedCpuCount planned ≤ cpus) ∧
  (∀ gpus ∈ b.maxAdditionalGpus, cat.plannedGpuCount planned ≤ gpus) ∧
  ∀ model ∈ gpu, ∀ machineType ∈ planned,
    0 < cat.gpus machineType ∧ cat.gpuModel machineType = some model

instance [DecidableEq γ] (cat : Catalog μ γ) (b : Budget) (gpu : Option γ) (planned : List μ) :
    Decidable (b.Respects cat gpu planned) :=
  inferInstanceAs (Decidable (_ ∧ _ ∧ _))

/-- The head's record of a job: the model that `func_gpu` stands for, and what is left for
replacement nodes. -/
structure Job (γ ν : Type*) where
  running : Bool
  grow : Bool
  gpu : Option γ
  remaining : Budget
  replacementRequests : ν → Option ℕ

structure FleetNode (μ : Type*) where
  machineType : μ
  status : NodeStatus

/-- The head: the registered nodes, the planned machines that no task has registered yet, and
the jobs. -/
structure Fleet (μ γ ν κ : Type*) where
  nodes : List (FleetNode μ)
  planned : List μ
  jobs : κ → Option (Job γ ν)

namespace Fleet

variable [DecidableEq γ] (cat : Catalog μ γ) (caps : Resource γ → ℕ)

/-- The machines of the nodes that are BOOTING, READY or RUNNING. -/
def live (s : Fleet μ γ ν κ) : List μ :=
  (s.nodes.filter fun node => !node.status.terminal).map FleetNode.machineType

/-- `fleet_resources` -/
def fleetResources (s : Fleet μ γ ν κ) : Resource γ → ℕ := cat.total s.live

/-- The budgets of `_plan_grow_if_needed`. -/
def growBudget (s : Fleet μ γ ν κ) (gpu : Option γ) : Budget :=
  match gpu with
  | some model => ⟨none, some (caps (.gpus model) - s.fleetResources cat (.gpus model))⟩
  | none => ⟨some (caps .vcpus - s.fleetResources cat .vcpus), none⟩

/-- The budgets of a job that starts. -/
def startBudget (s : Fleet μ γ ν κ) (grow : Bool) (gpu : Option γ) : Budget :=
  if grow = true then s.growBudget cat caps gpu else ⟨none, none⟩

/-- `_start_nodes` is left to a background task. -/
def startNodes (s : Fleet μ γ ν κ) (planned : List μ) : Fleet μ γ ν κ :=
  { s with planned := s.planned ++ planned }

end Fleet

/-! ### Steps -/

inductive FleetEvent (μ γ ν κ : Type*)
  /-- `start_job`; `admitted` says whether the selected nodes are still free. -/
  | startJob (j : κ) (grow : Bool) (gpu : Option γ) (planned : List μ) (admitted : Bool)
  /-- `boot_replacement_nodes` -/
  | replace (j : κ) (requestingNode : ν) (requestId : ℕ) (planned : List μ)
  /-- A background task registers a planned node. -/
  | register (n : ℕ)
  /-- It fails before. -/
  | drop (n : ℕ)
  /-- A node's status changes. -/
  | status (n : ℕ) (new : NodeStatus)
  | endJob (j : κ)

section Steps

variable [DecidableEq γ] [DecidableEq ν] [DecidableEq κ]

/-- `start_job`, from the choice of the nodes to its end. -/
def Fleet.startJob (cat : Catalog μ γ) (caps : Resource γ → ℕ) (s : Fleet μ γ ν κ) (j : κ)
    (grow : Bool) (gpu : Option γ) (planned : List μ) (admitted : Bool) :
    Option (Fleet μ γ ν κ) :=
  let budget := s.startBudget cat caps grow gpu
  if (grow = true ∨ planned = []) ∧ budget.Respects cat gpu planned then
    -- a replay of the request finds the job, and neither it nor a refused job boots nodes
    if (s.jobs j).isSome = true ∨ admitted = false then some s
    else
      let remaining := budget.spend (cat.plannedCpuCount planned) (cat.plannedGpuCount planned)
      let job : Job γ ν := ⟨true, grow, gpu, remaining, fun _ => none⟩
      some ({ s with jobs := Function.update s.jobs j (some job) }.startNodes planned)
  else none

/-- `boot_replacement_nodes` -/
def Fleet.replace (cat : Catalog μ γ) (s : Fleet μ γ ν κ) (j : κ) (requestingNode : ν)
    (requestId : ℕ) (planned : List μ) : Option (Fleet μ γ ν κ) :=
  match s.jobs j with
  | none => some s
  | some job =>
    if job.running = false ∨ job.grow = false then some s
    else if job.replacementRequests requestingNode = some requestId then some s
    else if job.remaining.Respects cat job.gpu planned then
      if planned = [] then some s
      else
        let job := { job with
          remaining :=
            job.remaining.spend (cat.plannedCpuCount planned) (cat.plannedGpuCount planned)
          replacementRequests :=
            Function.update job.replacementRequests requestingNode (some requestId) }
        some ({ s with jobs := Function.update s.jobs j (some job) }.startNodes planned)
    else none

def fleetStep (cat : Catalog μ γ) (caps : Resource γ → ℕ) (s : Fleet μ γ ν κ) :
    FleetEvent μ γ ν κ → Option (Fleet μ γ ν κ)
  | .startJob j grow gpu planned admitted => s.startJob cat caps j grow gpu planned admitted
  | .replace j requestingNode requestId planned =>
    s.replace cat j requestingNode requestId planned
  | .register n =>
    (takeAt s.planned n).map fun p =>
      { s with nodes := s.nodes ++ [⟨p.1, .booting⟩], planned := p.2 }
  | .drop n => (takeAt s.planned n).map fun p => { s with planned := p.2 }
  | .status n new =>
    some { s with nodes := s.nodes.modify n fun node =>
      { node with status := node.status.update new } }
  | .endJob j =>
    (s.jobs j).map fun job =>
      { s with jobs := Function.update s.jobs j (some { job with running := false }) }

/-- The live nodes and the planned ones that are not registered yet. -/
def Fleet.committed (cat : Catalog μ γ) (s : Fleet μ γ ν κ) (r : Resource γ) : ℕ :=
  s.fleetResources cat r + cat.total s.planned r

/-- The fleet with its planned nodes is within the caps. -/
def Fleet.WithinCaps (cat : Catalog μ γ) (caps : Resource γ → ℕ) (s : Fleet μ γ ν κ) : Prop :=
  ∀ r, s.committed cat r ≤ caps r

/-- The head of a cluster with fixed caps, from a fleet within them and no jobs. -/
def fleet (cat : Catalog μ γ) (caps : Resource γ → ℕ) :
    System (Fleet μ γ ν κ) (FleetEvent μ γ ν κ) where
  init s := s.WithinCaps cat caps ∧ ∀ j, s.jobs j = none
  step := fleetStep cat caps

end Steps

end Burla.Grow
