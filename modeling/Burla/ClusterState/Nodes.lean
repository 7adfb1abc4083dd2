/-
The node table of the head, `NODES` (cluster_state.py), and what is written to it: `update_node`,
`record_node_push`, the reservations that `admit_job` makes and `update_job` gives back.

Only the fields that the head itself decides by are kept.  Every one of them may be missing from
a row: a push for a name that the head does not know makes a row of what the push brings.
-/
import Burla.Assign.Exchange
import Burla.Lib.Dict
import Mathlib.Data.Rat.Defs
import Mathlib.Algebra.Order.Ring.Unbundled.Rat

namespace Burla.ClusterState

open Burla.Assign (NodeStatus)

variable {κ ι : Type*}

/-- `NODE_FRESHNESS_SEC`. -/
def nodeFreshnessSec : ℚ := 15

/-- Why a node is no longer there. -/
structure TerminalReason where
  code : String
  source : String
  message : String
  deriving DecidableEq

/-- A node's row; a field that is not there reads as `none`, and so does a null one. -/
structure NodeRow (κ : Type*) where
  status : Option NodeStatus
  startedBootingAt : Option ℚ
  lastPushAt : Option ℚ
  currentJob : Option κ
  reservedForJob : Option κ
  jobScopeId : Option κ
  gcpRegion : Option String
  endedAt : Option ℚ
  terminalReason : Option TerminalReason
  deriving DecidableEq

/-- The row of a name that the head does not know. -/
def NodeRow.new : NodeRow κ where
  status := none
  startedBootingAt := none
  lastPushAt := none
  currentJob := none
  reservedForJob := none
  jobScopeId := none
  gcpRegion := none
  endedAt := none
  terminalReason := none

/-- What `update_node` is called with: the fields that are to be written. -/
structure NodeUpdates (κ : Type*) where
  status : Option NodeStatus := none
  startedBootingAt : Option ℚ := none
  lastPushAt : Option ℚ := none
  currentJob : Option (Option κ) := none
  reservedForJob : Option (Option κ) := none
  jobScopeId : Option (Option κ) := none
  gcpRegion : Option String := none
  endedAt : Option ℚ := none
  terminalReason : Option TerminalReason := none
  deriving DecidableEq

/-- The fields of a push (`_NODE_STATE_FIELDS`). -/
structure StateFields (κ : Type*) where
  status : Option NodeStatus := none
  currentJob : Option (Option κ) := none
  reservedForJob : Option (Option κ) := none
  startedBootingAt : Option ℚ := none
  endedAt : Option ℚ := none

/-- The fields of a push, as updates of the row. -/
def StateFields.updates (body : StateFields κ) : NodeUpdates κ where
  status := body.status
  currentJob := body.currentJob
  reservedForJob := body.reservedForJob
  startedBootingAt := body.startedBootingAt
  endedAt := body.endedAt

namespace NodeRow

variable (row : NodeRow κ) (now : ℚ)

/-- The status that `update_node` leaves: FAILED and DELETED are not taken back. -/
def newStatus (u : NodeUpdates κ) : Option NodeStatus :=
  match u.status, row.status with
  | none, current => current
  | some new, none => some new
  | some new, some current => some (current.update new)

/-- `update_node`, on the row. -/
def update (u : NodeUpdates κ) : NodeRow κ where
  status := row.newStatus u
  startedBootingAt := u.startedBootingAt <|> row.startedBootingAt
  lastPushAt := u.lastPushAt <|> row.lastPushAt
  currentJob := u.currentJob.getD row.currentJob
  reservedForJob := u.reservedForJob.getD row.reservedForJob
  jobScopeId := u.jobScopeId.getD row.jobScopeId
  gcpRegion := u.gcpRegion <|> row.gcpRegion
  endedAt := u.endedAt <|> row.endedAt
  terminalReason := u.terminalReason <|> row.terminalReason

/-- `node_is_fresh`. -/
def Fresh : Prop := now - row.lastPushAt.getD 0 ≤ nodeFreshnessSec

instance : Decidable (row.Fresh now) := inferInstanceAs (Decidable (_ ≤ _))

/-- What `admit_job` asks of a node that it reserves. -/
def Free : Prop :=
  row.status = some .ready ∧ row.currentJob = none ∧ row.reservedForJob = none ∧
    row.jobScopeId = none ∧ row.Fresh now

instance [DecidableEq κ] : Decidable (row.Free now) := inferInstanceAs (Decidable (_ ∧ _))

/-- The row of a node that is no longer reserved for an ended job (`update_job`). -/
def release [DecidableEq κ] (job : κ) : NodeRow κ :=
  if row.reservedForJob = some job then { row with reservedForJob := none } else row

variable {row}

@[simp] lemma newStatus_of_silent {u : NodeUpdates κ} (h : u.status = none) :
    row.newStatus u = row.status := by
  simp [newStatus, h]

/-- A write that ends a node leaves it ended. -/
lemma terminal_newStatus {u : NodeUpdates κ} {new : NodeStatus} (hu : u.status = some new)
    (hnew : new.terminal = true) : ∃ st, row.newStatus u = some st ∧ st.terminal = true := by
  unfold newStatus
  rw [hu]
  cases row.status with
  | none => exact ⟨new, rfl, hnew⟩
  | some current => exact ⟨_, rfl, NodeStatus.terminal_update_of_terminal hnew⟩

section Release

variable [DecidableEq κ] (job : κ)

@[simp] lemma release_status : (row.release job).status = row.status := by
  unfold release
  split_ifs <;> rfl

@[simp] lemma release_startedBootingAt :
    (row.release job).startedBootingAt = row.startedBootingAt := by
  unfold release
  split_ifs <;> rfl

@[simp] lemma release_lastPushAt : (row.release job).lastPushAt = row.lastPushAt := by
  unfold release
  split_ifs <;> rfl

@[simp] lemma release_currentJob : (row.release job).currentJob = row.currentJob := by
  unfold release
  split_ifs <;> rfl

end Release

end NodeRow

/-! ### The table -/

section Table

variable [DecidableEq ι]

/-- `update_node`. -/
def updateNode (nodes : Dict ι (NodeRow κ)) (name : ι) (u : NodeUpdates κ) :
    Dict ι (NodeRow κ) :=
  nodes.set name (((nodes.get name).getD NodeRow.new).update u)

/-- `record_node_push`. -/
def recordNodePush (nodes : Dict ι (NodeRow κ)) (name : ι) (u : NodeUpdates κ) (now : ℚ) :
    Dict ι (NodeRow κ) :=
  updateNode nodes name { u with lastPushAt := some now }

/-- The nodes that `admit_job` reserves, one after another. -/
def reserve (job : κ) : List ι → Dict ι (NodeRow κ) → Dict ι (NodeRow κ)
  | [], nodes => nodes
  | name :: names, nodes =>
    reserve job names (updateNode nodes name { reservedForJob := some (some job) })

/-- `admit_job`, as far as the nodes go: all of them are free and get reserved, or none is. -/
def admitNodes [DecidableEq κ] (nodes : Dict ι (NodeRow κ)) (job : κ) (names : List ι) (now : ℚ) :
    Option (Dict ι (NodeRow κ)) :=
  if ∀ name ∈ names, ∃ row ∈ nodes.get name, row.Free now then some (reserve job names nodes)
  else none

variable {nodes : Dict ι (NodeRow κ)} {name name' : ι} {u : NodeUpdates κ}

lemma get_updateNode :
    (updateNode nodes name u).get name' =
      if name' = name then some (((nodes.get name).getD NodeRow.new).update u)
      else nodes.get name' :=
  Dict.get_set

lemma get_updateNode_of_ne (h : name' ≠ name) :
    (updateNode nodes name u).get name' = nodes.get name' :=
  Dict.get_set_of_ne h

/-- Reserving a node changes nothing about it but the reservation. -/
lemma get_reserve (job : κ) (names : List ι) {row : NodeRow κ} (h : nodes.get name = some row) :
    (reserve job names nodes).get name =
      some (if name ∈ names then { row with reservedForJob := some job } else row) := by
  induction names generalizing nodes row with
  | nil => simpa [reserve] using h
  | cons name' names ih =>
    rw [reserve]
    by_cases hname : name = name'
    · subst hname
      have hnow : (updateNode nodes name { reservedForJob := some (some job) }).get name =
          some { row with reservedForJob := some job } := by
        rw [get_updateNode, if_pos rfl, h]
        rfl
      rw [ih hnow]
      simp
    · rw [ih ((get_updateNode_of_ne hname).trans h)]
      simp [hname]

end Table

end Burla.ClusterState
