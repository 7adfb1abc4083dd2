/-
The nodes that have ended, in the live state and in the history: `update_node`,
`record_node_push`, `remove_node` and `load_from_history` (cluster_state.py), with those who call
them.

A DELETED entry stays in `NODES` as a tombstone; a FAILED one is dropped when the cluster is shut
down, and a restarted head has no DELETED ones.  Whoever writes to a name that is not there makes
an entry for it.

The main result is `Table.sane_iff`: as long as nobody but `Node.start` makes an entry, no node
that has ended is live again and every entry has a machine type; and the first other write that
makes one breaks this.
-/
import Burla.Instances.Entry
import Burla.Lib.Dict
import Burla.Lib.System

namespace Burla.Instances

open Burla.Assign (NodeStatus)

variable {κ ι : Type*}

/-! ### The table -/

/-- The calls of `update_node` other than the first one of `Node.start`. -/
inductive Write (κ : Type*)
  /-- `record_node_push`, with the fields that the push has. -/
  | push (status : Option NodeStatus) (currentJob reservedForJob : Option (Option κ))
  /-- `Node.start`, once the cloud has answered. -/
  | host (addresses : Addresses)
  /-- `Node.start` after an exception, and `fail_cluster_node`. -/
  | fail
  /-- `Node.delete`, `self_delete_node`, `push_node_state` and the node reaper. -/
  | delete
  /-- `_shutdown_cluster`, which writes the reason beforehand. -/
  | reason

/-- The fields that a call writes. -/
def Write.updates : Write κ → NodeUpdates κ
  | push status currentJob reservedForJob => { status, currentJob, reservedForJob }
  | host addresses => { addresses := some addresses }
  | fail => .ofStatus .failed
  | delete => .ofStatus .deleted
  | reason => {}

/-- What the head knows of its nodes. -/
structure Table (κ ι : Type*) where
  /-- `NODES`. -/
  nodes : Dict ι (NodeEntry κ)
  /-- The rows of the history. -/
  history : Dict ι (NodeEntry κ)
  /-- The names that have been given to `Node.start`; no name is given twice. -/
  started : List ι
  /-- The names that have been DELETED or FAILED in `NODES`. -/
  ended : List ι

inductive TableEvent (κ ι : Type*)
  /-- The first write of `Node.start`. -/
  | start (name : ι) (machineType : String) (reservedForJob : Option κ)
  | write (name : ι) (w : Write κ)
  /-- `admit_job` and `update_job`: a reservation is made or given back. -/
  | reserve (name : ι) (job : Option κ)
  /-- `remove_node`, which `_shutdown_cluster` calls for a FAILED node. -/
  | remove (name : ι)
  /-- The head comes up again (`load_from_history`). -/
  | restart

/-- The rows that `active_nodes` returns. -/
def Reloaded (entry : NodeEntry κ) : Bool :=
  entry.status.isSome && entry.status ≠ some .deleted

namespace Table

variable [DecidableEq ι]

/-- The head before its first node. -/
def new : Table κ ι where
  nodes := Dict.empty
  history := Dict.empty
  started := []
  ended := []

variable (s : Table κ ι)

/-- `update_node`. -/
def updateNode (name : ι) (u : NodeUpdates κ) : Table κ ι :=
  let entry := (s.nodes.get name).getD NodeEntry.new
  { s with
    nodes := s.nodes.set name (entry.update u)
    history :=
      if entry.DurableChanged u then s.history.set name (entry.update u) else s.history
    ended := if Ended (entry.newStatus u) = true then name :: s.ended else s.ended }

/-- One step. -/
def step : TableEvent κ ι → Option (Table κ ι)
  | .start name machineType job =>
    if name ∈ s.started then none
    else some { s.updateNode name (.boot machineType job) with started := name :: s.started }
  | .write name w => some (s.updateNode name w.updates)
  | .reserve name job =>
    (s.nodes.get name).map fun entry =>
      { s with
        nodes := s.nodes.set name { entry with reservedForJob := job }
        history := s.history.set name { entry with reservedForJob := job } }
  | .remove name =>
    if ((s.nodes.get name).bind NodeEntry.status) = some .failed then
      some { s with nodes := s.nodes.pop name }
    else none
  | .restart => some { s with nodes := s.history.filterValues Reloaded }

/-- The head and its nodes, from its first start on. -/
def sys : System (Table κ ι) (TableEvent κ ι) where
  init s := s = new
  step := step

/-! ### The claim and the condition -/

/-- No node that has ended is live, and every entry has a machine type. -/
structure Sane : Prop where
  gone : ∀ name ∈ s.ended, ∀ entry, s.nodes.get name = some entry → Active entry.status = false
  typed : ∀ name entry, s.nodes.get name = some entry → entry.machineType.isSome = true

/-- Only `Node.start` makes an entry. -/
def Known (s : Table κ ι) : TableEvent κ ι → Prop
  | .write name _ => (s.nodes.get name).isSome = true
  | .start .. | .reserve .. | .remove _ | .restart => True

instance : (a : TableEvent κ ι) → Decidable (Known s a)
  | .write name _ => inferInstanceAs (Decidable ((s.nodes.get name).isSome = true))
  | .start .. | .reserve .. | .remove _ | .restart => .isTrue trivial

/-! ### The invariant -/

/-- An entry, or a row of the history, is that of a node that was started; it has ended exactly
if the node is known to have. -/
structure Faithful (name : ι) (entry : NodeEntry κ) : Prop where
  started : name ∈ s.started
  typed : entry.machineType.isSome = true
  ended : name ∈ s.ended ↔ Ended entry.status = true

/-- The invariant. -/
structure Kept : Prop where
  nodes : ∀ name entry, s.nodes.get name = some entry → s.Faithful name entry
  history : ∀ name entry, s.history.get name = some entry → s.Faithful name entry
  started : ∀ name ∈ s.ended, name ∈ s.started

variable {s} {t : Table κ ι} {a : TableEvent κ ι} {name : ι} {u : NodeUpdates κ}
  {entry : NodeEntry κ}

lemma mem_ended_updateNode {name' : ι} : name' ∈ (s.updateNode name u).ended ↔
    (name' = name ∧ Ended (((s.nodes.get name).getD NodeEntry.new).newStatus u) = true) ∨
      name' ∈ s.ended := by
  simp only [updateNode]
  split_ifs with h
  · simp [h]
  · simp [h]

/-- A write to one name leaves the others as they are. -/
lemma Faithful.of_updateNode {name' : ι} {started : List ι} (h : s.Faithful name' entry)
    (hne : name' ≠ name) (hstarted : ∀ x ∈ s.started, x ∈ started) :
    ({ s.updateNode name u with started } : Table κ ι).Faithful name' entry where
  started := hstarted name' h.started
  typed := h.typed
  ended := by
    rw [← h.ended]
    constructor
    · intro hmem
      rcases mem_ended_updateNode.1 hmem with ⟨heq, -⟩ | hmem
      · exact absurd heq hne
      · exact hmem
    · intro hmem
      exact mem_ended_updateNode.2 (.inr hmem)

/-- The entry that a write makes of one that was right. -/
lemma Kept.mem_ended_updateNode_self
    (hended : name ∈ s.ended ↔ Ended ((s.nodes.get name).getD NodeEntry.new).status = true) :
    name ∈ (s.updateNode name u).ended ↔
      Ended (((s.nodes.get name).getD NodeEntry.new).newStatus u) = true := by
  rw [mem_ended_updateNode]
  constructor
  · rintro (⟨-, hnew⟩ | hmem)
    · exact hnew
    · exact NodeEntry.ended_newStatus (hended.1 hmem)
  · intro hnew
    exact .inl ⟨rfl, hnew⟩

/-- A write keeps the invariant when it leaves an entry with a machine type; `started` are the
names that have been started by then. -/
lemma Kept.updateNode (h : s.Kept) {started : List ι} (hstarted : ∀ x ∈ s.started, x ∈ started)
    (hname : name ∈ started)
    (htyped : (((s.nodes.get name).getD NodeEntry.new).update u).machineType.isSome = true)
    (hended : name ∈ s.ended ↔ Ended ((s.nodes.get name).getD NodeEntry.new).status = true) :
    ({ s.updateNode name u with started } : Table κ ι).Kept where
  nodes := by
    intro name' entry hget
    by_cases heq : name' = name
    · subst heq
      obtain rfl := Option.some.inj (Dict.get_set_self.symm.trans hget)
      exact ⟨hname, htyped, mem_ended_updateNode_self hended⟩
    · exact (h.nodes name' entry ((Dict.get_set_of_ne heq).symm.trans hget)).of_updateNode
        heq hstarted
  history := by
    intro name' entry hget
    by_cases heq : name' = name
    · subst heq
      simp only [Table.updateNode] at hget
      by_cases hdurable : ((s.nodes.get name').getD NodeEntry.new).DurableChanged u
      · rw [if_pos hdurable, Dict.get_set_self] at hget
        obtain rfl := Option.some.inj hget
        exact ⟨hname, htyped, mem_ended_updateNode_self hended⟩
      · -- nothing was written, and the status is what it was
        rw [if_neg hdurable] at hget
        have hrow := h.history name' entry hget
        have hstatus : ((s.nodes.get name').getD NodeEntry.new).newStatus u =
            ((s.nodes.get name').getD NodeEntry.new).status := by
          by_contra hne
          exact hdurable (.inl hne)
        refine ⟨hname, hrow.typed, ?_⟩
        rw [← hrow.ended, hended, ← hstatus]
        exact mem_ended_updateNode_self hended
    · have hget' : s.history.get name' = some entry := by
        rw [← hget]
        simp only [Table.updateNode]
        split_ifs
        · exact (Dict.get_set_of_ne heq).symm
        · rfl
      exact (h.history name' entry hget').of_updateNode heq hstarted
  started := by
    intro name' hmem
    rcases mem_ended_updateNode.1 hmem with ⟨rfl, -⟩ | hmem
    · exact hname
    · exact hstarted name' (h.started name' hmem)

/-- What is known of a name does not depend on its reservation. -/
lemma Kept.reserve (h : s.Kept) {job : Option κ} (hentry : s.nodes.get name = some entry) :
    ({ s with
      nodes := s.nodes.set name { entry with reservedForJob := job }
      history := s.history.set name { entry with reservedForJob := job } } : Table κ ι).Kept := by
  have hfaithful := h.nodes name entry hentry
  have hself : s.Faithful name { entry with reservedForJob := job } :=
    ⟨hfaithful.started, hfaithful.typed, hfaithful.ended⟩
  refine ⟨?_, ?_, h.started⟩
  · intro name' entry' hget
    by_cases heq : name' = name
    · subst heq
      obtain rfl := Option.some.inj (Dict.get_set_self.symm.trans hget)
      exact ⟨hself.started, hself.typed, hself.ended⟩
    · have hold := h.nodes name' entry' ((Dict.get_set_of_ne heq).symm.trans hget)
      exact ⟨hold.started, hold.typed, hold.ended⟩
  · intro name' entry' hget
    by_cases heq : name' = name
    · subst heq
      obtain rfl := Option.some.inj (Dict.get_set_self.symm.trans hget)
      exact ⟨hself.started, hself.typed, hself.ended⟩
    · have hold := h.history name' entry' ((Dict.get_set_of_ne heq).symm.trans hget)
      exact ⟨hold.started, hold.typed, hold.ended⟩

/-- **No step forgets that a node has ended, or leaves an entry without a machine type.** -/
theorem Kept.step (h : s.Kept) (hok : s.Known a) (hstep : s.step a = some t) : t.Kept := by
  cases a with
  | start name machineType job =>
    simp only [Table.step] at hstep
    split_ifs at hstep with hname
    cases hstep
    refine h.updateNode (fun x hx => List.mem_cons_of_mem name hx) List.mem_cons_self rfl ?_
    -- the name is new, so there is neither an entry nor an end of it
    have hnone : s.nodes.get name = none := by
      cases hget : s.nodes.get name with
      | none => rfl
      | some entry => exact absurd (h.nodes name entry hget).started hname
    rw [hnone]
    exact ⟨fun hmem => absurd (h.started name hmem) hname, nofun⟩
  | write name w =>
    cases hstep
    obtain ⟨entry, hentry⟩ := Option.isSome_iff_exists.1 hok
    have hfaithful := h.nodes name entry hentry
    refine h.updateNode (fun _ hx => hx) hfaithful.started ?_ ?_
    · rw [hentry, Option.getD_some, NodeEntry.update_machineType]
      have hnone : w.updates.machineType = none := by cases w <;> rfl
      rw [hnone]
      exact hfaithful.typed
    · rw [hentry]
      exact hfaithful.ended
  | reserve name job =>
    obtain ⟨entry, hentry, rfl⟩ := Option.map_eq_some_iff.1 hstep
    exact h.reserve hentry
  | remove name =>
    simp only [Table.step] at hstep
    split_ifs at hstep with hfailed
    cases hstep
    refine ⟨fun name' entry hget => ?_, fun name' entry hget => ?_, h.started⟩
    · rw [Dict.get_pop] at hget
      split_ifs at hget with heq
      have hold := h.nodes name' entry hget
      exact ⟨hold.started, hold.typed, hold.ended⟩
    · have hold := h.history name' entry hget
      exact ⟨hold.started, hold.typed, hold.ended⟩
  | restart =>
    cases hstep
    refine ⟨fun name' entry hget => ?_, fun name' entry hget => ?_, h.started⟩
    · rw [Dict.get_filterValues] at hget
      have hold := h.history name' entry (Option.filter_eq_some_iff.1 hget).1
      exact ⟨hold.started, hold.typed, hold.ended⟩
    · have hold := h.history name' entry hget
      exact ⟨hold.started, hold.typed, hold.ended⟩

lemma Kept.sane (h : s.Kept) : s.Sane where
  gone name hname entry hget := by
    cases hactive : Active entry.status with
    | false => rfl
    | true =>
      have hended := (h.nodes name entry hget).ended.1 hname
      rw [not_ended_of_active hactive] at hended
      cases hended
  typed name entry hget := (h.nodes name entry hget).typed

variable (κ ι) in
lemma invariant_kept : (sys (κ := κ) (ι := ι)).Invariant Known Kept where
  init s hs := by
    obtain rfl : s = new := hs
    exact ⟨fun _ _ hget => (nomatch hget), fun _ _ hget => (nomatch hget), nofun⟩
  step _ _ _ h hok hstep := h.step hok hstep

/-- An entry that anybody but `Node.start` makes has no machine type. -/
lemma not_sane_of_unknown (hok : ¬s.Known a) (hstep : s.step a = some t) : ¬t.Sane := by
  cases a with
  | start _ _ _ | reserve _ _ | remove _ | restart => exact absurd trivial hok
  | write name w =>
    cases hstep
    intro hsane
    have hnone : s.nodes.get name = none := by simpa [Known] using hok
    have htyped := hsane.typed name _ Dict.get_set_self
    rw [hnone] at htyped
    have hw : w.updates.machineType = none := by cases w <;> rfl
    simp [hw] at htyped

/-- **As long as only `Node.start` makes entries, no node that has ended is live again and every
entry has a machine type; and a step breaks this exactly if it makes an entry otherwise.** -/
theorem sane_iff (hr : (sys (κ := κ) (ι := ι)).Reachable Known s) :
    s.Sane ∧ ∀ a t, s.step a = some t → (t.Sane ↔ s.Known a) := by
  have hkept := (invariant_kept κ ι).reachable hr
  refine ⟨hkept.sane, fun a t hstep => ⟨fun hsane => ?_, fun hok => (hkept.step hok hstep).sane⟩⟩
  by_contra hok
  exact not_sane_of_unknown hok hstep hsane

/-! ### Runs -/

/-- A node boots, is deleted, and goes on pushing; another one fails and is dropped. -/
def deletedAndDropped : Table Unit ℕ :=
  (((sys (κ := Unit) (ι := ℕ)).guarded Known).exec new
    [.start 0 "n2-standard-4" none, .write 0 (.push (some .ready) (some none) none),
      .write 0 .delete, .write 0 (.push (some .ready) (some none) none),
      .start 1 "n2-standard-4" none, .write 1 .fail, .remove 1, .restart]).get
    (by decide +kernel)

theorem sane_iff_deletedAndDropped : deletedAndDropped.Sane ∧ ∀ a t,
    deletedAndDropped.step a = some t → (t.Sane ↔ deletedAndDropped.Known a) :=
  sane_iff ⟨new, _, rfl, System.run_of_exec_guarded (Option.some_get _).symm⟩

/-- The deleted node's next push, to a head that has come up again. -/
def resurrected : Table Unit ℕ :=
  (((sys (κ := Unit) (ι := ℕ)).guarded System.always).exec new
    [.start 0 "n2-standard-4" none, .write 0 .delete, .restart,
      .write 0 (.push (some .ready) (some none) none)]).get (by decide +kernel)

/-- A DELETED node is READY again, without a machine type. -/
theorem deleted_is_resurrected : ∃ s : Table Unit ℕ,
    (sys (κ := Unit) (ι := ℕ)).Reachable System.always s ∧
      ∃ name ∈ s.ended, ∃ entry, s.nodes.get name = some entry ∧
        entry.status = some .ready ∧ entry.machineType = none := by
  refine ⟨resurrected, ⟨new, _, rfl, System.run_of_exec_guarded (Option.some_get _).symm⟩,
    0, by decide +kernel, { NodeEntry.new with status := some .ready }, by decide +kernel,
    rfl, rfl⟩

end Table

end Burla.Instances
