/-
The entries of the head's `NODES` (cluster_state.py) with the fields that the life of a VM goes
by: the status, the machine type and the addresses, the zone among them.  `update_node` merges a
dictionary into an entry; which of its fields make the entry be written to the history as well is
decided here too.
-/
import Burla.Assign.Exchange
import Mathlib.Data.Option.Basic

namespace Burla.Instances

open Burla.Assign (NodeStatus)

variable {κ : Type*}

/-- Where a VM is to be found; the zone is that of the cloud (the resource group, on Azure). -/
structure Addresses where
  host : Option String
  publicIp : Option String
  privateIp : Option String
  zone : Option String
  deriving DecidableEq

/-- The addresses before the cloud has answered. -/
def Addresses.unknown : Addresses := ⟨none, none, none, none⟩

/-- An entry of `NODES`; a field that is not there reads as `none`, and so does a null one. -/
structure NodeEntry (κ : Type*) where
  status : Option NodeStatus
  machineType : Option String
  addresses : Addresses
  currentJob : Option κ
  reservedForJob : Option κ
  jobScopeId : Option κ
  deriving DecidableEq

/-- What `update_node` makes up for a name that it does not find. -/
def NodeEntry.new : NodeEntry κ where
  status := none
  machineType := none
  addresses := .unknown
  currentJob := none
  reservedForJob := none
  jobScopeId := none

/-- What `update_node` is called with. -/
structure NodeUpdates (κ : Type*) where
  status : Option NodeStatus := none
  machineType : Option String := none
  addresses : Option Addresses := none
  currentJob : Option (Option κ) := none
  reservedForJob : Option (Option κ) := none
  jobScopeId : Option (Option κ) := none
  deriving DecidableEq

/-- A call of `update_node` that writes a status and nothing else that is kept here. -/
def NodeUpdates.ofStatus (status : NodeStatus) : NodeUpdates κ := { status := some status }

/-- The first write of `Node.start`. -/
def NodeUpdates.boot (machineType : String) (reservedForJob : Option κ) : NodeUpdates κ where
  status := some .booting
  machineType := some machineType
  addresses := some .unknown
  currentJob := some none
  reservedForJob := some reservedForJob
  jobScopeId := some reservedForJob

/-- Whether one of `durable_fields` is among the updates. -/
def NodeUpdates.touchesDurable (u : NodeUpdates κ) : Bool :=
  u.addresses.isSome || u.currentJob.isSome || u.reservedForJob.isSome || u.jobScopeId.isSome

/-- The status is DELETED or FAILED. -/
def Ended : Option NodeStatus → Bool
  | some status => status.terminal
  | none => false

/-- The status is BOOTING, READY or RUNNING. -/
def Active : Option NodeStatus → Bool
  | some status => !status.terminal
  | none => false

namespace NodeEntry

variable (entry : NodeEntry κ) (u : NodeUpdates κ)

/-- The status that `update_node` leaves: DELETED and FAILED are not taken back. -/
def newStatus : Option NodeStatus :=
  match u.status, entry.status with
  | none, current => current
  | some new, none => some new
  | some new, some current => some (current.update new)

/-- `update_node`, on the entry. -/
def update : NodeEntry κ where
  status := entry.newStatus u
  machineType := u.machineType <|> entry.machineType
  addresses := u.addresses.getD entry.addresses
  currentJob := u.currentJob.getD entry.currentJob
  reservedForJob := u.reservedForJob.getD entry.reservedForJob
  jobScopeId := u.jobScopeId.getD entry.jobScopeId

/-- `durable_changed`: the entry is written to the history too. -/
def DurableChanged : Prop :=
  entry.newStatus u ≠ entry.status ∨ u.touchesDurable = true

instance : Decidable (entry.DurableChanged u) := inferInstanceAs (Decidable (_ ∨ _))

variable {entry u}

@[simp] lemma update_status : (entry.update u).status = entry.newStatus u := rfl

@[simp] lemma update_machineType :
    (entry.update u).machineType = (u.machineType <|> entry.machineType) := rfl

@[simp] lemma new_status : (NodeEntry.new : NodeEntry κ).status = none := rfl

@[simp] lemma new_machineType : (NodeEntry.new : NodeEntry κ).machineType = none := rfl

lemma newStatus_of_silent (h : u.status = none) : entry.newStatus u = entry.status := by
  simp [newStatus, h]

/-- **A node that has ended stays ended.** -/
lemma ended_newStatus (h : Ended entry.status = true) : Ended (entry.newStatus u) = true := by
  unfold newStatus
  cases hu : u.status with
  | none => exact h
  | some new =>
    cases hs : entry.status with
    | none => simp [hs, Ended] at h
    | some current =>
      rw [hs] at h
      exact NodeStatus.terminal_update h

lemma terminal_of_terminal_update {current new : NodeStatus} (hnew : new.terminal = false)
    (h : (current.update new).terminal = true) : current.terminal = true := by
  rcases NodeStatus.update_eq current new with heq | _
  · rw [heq, hnew] at h
    cases h
  · by_contra hc
    rw [Bool.not_eq_true] at hc
    rw [NodeStatus.update, if_neg (by simp [hc])] at h
    split_ifs at h with hfailed
    · exact Bool.false_ne_true (hc.symm.trans h)
    · exact Bool.false_ne_true (hnew.symm.trans h)

/-- Only a write of DELETED or FAILED ends a node. -/
lemma ended_of_ended_newStatus {new : NodeStatus} (hu : u.status = some new)
    (hnew : new.terminal = false) (h : Ended (entry.newStatus u) = true) :
    Ended entry.status = true := by
  unfold newStatus at h
  rw [hu] at h
  cases hs : entry.status with
  | none =>
    rw [hs] at h
    exact absurd (hnew.symm.trans h) (by decide)
  | some current =>
    rw [hs] at h
    exact terminal_of_terminal_update hnew h

end NodeEntry

/-! ### Statuses -/

section Status

variable {status : Option NodeStatus}

/-- A status that is not there is neither. -/
lemma not_ended_of_active (h : Active status = true) : Ended status = false := by
  cases status with
  | none => rfl
  | some st => simpa [Active, Ended] using h

end Status

end Burla.Instances
