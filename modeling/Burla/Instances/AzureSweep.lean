/-
The sweep of leftovers on Azure: `AzureProvider.delete_stopped_instances` and `delete_instance`
(providers/azure.py), while nodes are made, boot and end.

A node's resources are made one after another, its network interface before its VM (`Node.start`,
node.py), so that the sweep, which lists a page of interfaces at a time, sees some of them without
their VMs.  It leaves those alone whose node is BOOTING by the time that their turn comes, minutes
after the listing where it has deleted others before.  The sweep deletes leftovers only, as long
as no node that it has listed is done booting before its turn has come (`only_leftovers`);
`ready_node_deleted` is a run with one that is.
-/
import Burla.ClusterState.Nodes
import Burla.Lib.System

namespace Burla.Instances

open Burla.Assign (NodeStatus)
open Burla.ClusterState (NodeRow updateNode)

namespace Azure

variable {κ : Type*}

/-! ### The cloud and the head -/

abbrev Name := List Char

/-- The tags that the sweep reads; another one, or none, is no tag of a cluster's node. -/
structure Tags where
  clusterNode : Option Name
  clusterId : Option Name
  deriving DecidableEq

structure Vm where
  tags : Tags
  /-- `PowerState/stopped` is among its statuses. -/
  stopped : Bool
  deriving DecidableEq

/-- What the sweep goes through. -/
inductive Listing
  | vms
  | nics
  | pips
  deriving DecidableEq

/-- What follows an instance's name in a resource's. -/
def Listing.ending : Listing → Name
  | .vms => []
  | .nics => "-nic".toList
  | .pips => "-pip".toList

/-- A listed resource. -/
structure Row where
  name : Name
  tags : Tags
  /-- `virtual_machine` or `ip_configuration` is set. -/
  attached : Bool
  deriving DecidableEq

/-- The checks of a row that need nothing but the row. -/
def passes (cluster : Name) (listing : Listing) (row : Row) : Bool :=
  "burla-node-".toList.isPrefixOf row.name && listing.ending.isSuffixOf row.name &&
    row.tags.clusterNode == some "true".toList && row.tags.clusterId == some cluster &&
      !row.attached

/-- `removesuffix`. -/
def instanceName (listing : Listing) (row : Row) : Name :=
  row.name.take (row.name.length - listing.ending.length)

/-- Where a loop of the sweep stands: what is left of the page. -/
structure Loop where
  listing : Listing
  page : List Row
  deriving DecidableEq

/-- What `delete_instance` is about to delete. -/
inductive Stage
  | vm
  | nic
  | pip
  deriving DecidableEq

inductive Phase
  | idle
  | looping (loop : Loop)
  /-- About to call `delete_instance`. -/
  | calling (name : Name) (loop : Loop)
  /-- In `delete_instance`. -/
  | deleting (name : Name) (stage : Stage) (loop : Loop)
  deriving DecidableEq

/-- The interface or the address of an instance has been listed without what it belongs to, and
its turn is still to come. -/
def Loop.Holds (cluster : Name) (loop : Loop) (name : Name) : Prop :=
  loop.listing ≠ .vms ∧ ∃ row ∈ loop.page,
    passes cluster loop.listing row = true ∧ instanceName loop.listing row = name

instance (cluster : Name) (loop : Loop) (name : Name) : Decidable (loop.Holds cluster name) :=
  inferInstanceAs (Decidable (_ ∧ _))

/-- The loop that the sweep is in, if any. -/
def Phase.loop : Phase → Loop
  | .idle => ⟨.vms, []⟩
  | .looping loop | .calling _ loop | .deleting _ _ loop => loop

/-- `delete_instance` is about to be called for an instance. -/
def Phase.Calls (phase : Phase) (name : Name) : Prop :=
  match phase with
  | .calling name' _ => name' = name
  | .idle | .looping _ | .deleting _ _ _ => False

instance (name : Name) : ∀ phase : Phase, Decidable (phase.Calls name)
  | .calling name' _ => inferInstanceAs (Decidable (name' = name))
  | .idle | .looping _ | .deleting _ _ _ => .isFalse id

/-- The cloud, the head's nodes, and the sweep.  The resources of an instance are kept under its
name; an interface has the VM of the instance attached, and an address its interface. -/
structure Cloud (κ : Type*) where
  vms : Dict Name Vm
  nics : Dict Name Tags
  pips : Dict Name Tags
  nodes : Dict Name (NodeRow κ)
  phase : Phase

inductive Event (κ : Type*)
  /-- `update_node`, of `Node.start`, of a push or of a deletion. -/
  | updateNode (name : Name) (u : ClusterState.NodeUpdates κ)
  /-- `remove_node`. -/
  | removeNode (name : Name)
  /-- `create_instance` makes the public address. -/
  | createPip (name : Name) (tags : Tags)
  | createNic (name : Name) (tags : Tags)
  | createVm (name : Name) (tags : Tags)
  | stopVm (name : Name)
  | startVm (name : Name)
  /-- Others delete a VM: Azure, the VM itself, or another call of `delete_instance`. -/
  | dropVm (name : Name)
  | dropNic (name : Name)
  | dropPip (name : Name)
  /-- `delete_stopped_instances` is called. -/
  | sweep
  /-- The next page of the listing is fetched, with the resources of `names`. -/
  | nextPage (names : List Name)
  /-- There is no further page. -/
  | nextListing
  /-- The next row of the page. -/
  | row
  /-- The call of `delete_instance`. -/
  | call
  /-- `delete_instance` finds no resource group. -/
  | notFound
  | delete
  /-- An exception ends the sweep. -/
  | fail

namespace Cloud

variable (cluster : Name) (s : Cloud κ)

/-- A resource as it is listed. -/
def listed (listing : Listing) (name : Name) : Option Row :=
  match listing with
  | .vms => (s.vms.get name).map fun vm => ⟨name, vm.tags, false⟩
  | .nics => (s.nics.get name).map fun tags =>
      ⟨name ++ Listing.nics.ending, tags, (s.vms.get name).isSome⟩
  | .pips => (s.pips.get name).map fun tags =>
      ⟨name ++ Listing.pips.ending, tags, (s.nics.get name).isSome⟩

/-- The status of a node, if `NODES` has it. -/
def status (name : Name) : Option NodeStatus := (s.nodes.get name).bind NodeRow.status

/-- What becomes of a row: the sweep goes on to the rest of its page, or calls. -/
def processRow (loop : Loop) (row : Row) : Phase :=
  let name := instanceName loop.listing row
  if passes cluster loop.listing row = false then .looping loop
  else
    match loop.listing with
    | .vms =>
      -- `instance_view` is asked now, and raises when the VM is gone
      match s.vms.get name with
      | none => .idle
      | some vm => if vm.stopped = true then .calling name loop else .looping loop
    | .nics | .pips =>
      -- only the node is looked at now; the rest is as it was listed
      if s.status name = some .booting then .looping loop else .calling name loop

def setPhase (phase : Phase) : Cloud κ := { s with phase }

/-- A stage of `delete_instance`; a resource that is not there is left out, and one that another
still needs cannot be deleted. -/
def delete (name : Name) (loop : Loop) : Stage → Cloud κ
  | .vm => { s with vms := s.vms.pop name, phase := .deleting name .nic loop }
  | .nic =>
    if (s.vms.get name).isSome = true then s.setPhase .idle
    else { s with nics := s.nics.pop name, phase := .deleting name .pip loop }
  | .pip =>
    if (s.nics.get name).isSome = true then s.setPhase .idle
    else { s with pips := s.pips.pop name, phase := .looping loop }

/-- The power state of a VM changes. -/
def setStopped (name : Name) (stopped : Bool) : Option (Cloud κ) :=
  (s.vms.get name).map fun vm => { s with vms := s.vms.set name { vm with stopped } }

def step : Event κ → Option (Cloud κ)
  | .updateNode name u => some { s with nodes := updateNode s.nodes name u }
  | .removeNode name => some { s with nodes := s.nodes.pop name }
  | .createPip name tags => some { s with pips := s.pips.set name tags }
  | .createNic name tags =>
    if s.vms.get name = none then some { s with nics := s.nics.set name tags } else none
  | .createVm name tags =>
    if s.vms.get name = none ∧ (s.nics.get name).isSome = true then
      some { s with vms := s.vms.set name ⟨tags, false⟩ }
    else none
  | .stopVm name => s.setStopped name true
  | .startVm name => s.setStopped name false
  | .dropVm name => some { s with vms := s.vms.pop name }
  | .dropNic name =>
    if s.vms.get name = none then some { s with nics := s.nics.pop name } else none
  | .dropPip name =>
    if s.nics.get name = none then some { s with pips := s.pips.pop name } else none
  | .sweep => if s.phase = .idle then some (s.setPhase (.looping ⟨.vms, []⟩)) else none
  | .nextPage names =>
    match s.phase with
    | .looping ⟨listing, []⟩ =>
      some (s.setPhase (.looping ⟨listing, names.filterMap (s.listed listing)⟩))
    | _ => none
  | .nextListing =>
    match s.phase with
    | .looping ⟨.vms, []⟩ => some (s.setPhase (.looping ⟨.nics, []⟩))
    | .looping ⟨.nics, []⟩ => some (s.setPhase (.looping ⟨.pips, []⟩))
    | .looping ⟨.pips, []⟩ => some (s.setPhase .idle)
    | _ => none
  | .row =>
    match s.phase with
    | .looping ⟨listing, row :: page⟩ =>
      some (s.setPhase (s.processRow cluster ⟨listing, page⟩ row))
    | _ => none
  | .call =>
    match s.phase with
    | .calling name loop => some (s.setPhase (.deleting name .vm loop))
    | _ => none
  | .notFound =>
    match s.phase with
    | .deleting _ .vm loop => some (s.setPhase (.looping loop))
    | _ => none
  | .delete =>
    match s.phase with
    | .deleting name stage loop => some (s.delete name loop stage)
    | _ => none
  | .fail => some (s.setPhase .idle)

/-- A head that is not sweeping, and VMs with their interfaces. -/
def system : System (Cloud κ) (Event κ) where
  init s := s.phase = .idle ∧ ∀ name, s.nics.get name = none → s.vms.get name = none
  step := step cluster

/-! ### What the sweep holds -/

/-- The node is BOOTING, READY or RUNNING. -/
def Live (name : Name) : Prop := ∃ status ∈ s.status name, status.terminal = false

/-- The instance has a VM, which is not stopped. -/
def Running (name : Name) : Prop := ∃ vm ∈ s.vms.get name, vm.stopped = false

/-- The VM is stopped, or there is none and the node is not live. -/
def Leftover (name : Name) : Prop :=
  (∃ vm ∈ s.vms.get name, vm.stopped = true) ∨ s.vms.get name = none ∧ ¬s.Live name

/-- The node is BOOTING, or has no running VM and is neither READY nor RUNNING. -/
def Harmless (name : Name) : Prop :=
  s.status name = some .booting ∨
    ¬s.Running name ∧ s.status name ≠ some .ready ∧ s.status name ≠ some .running

/-- The interface or the address of the instance is to be gone through, or the call is to be
made. -/
def Held (name : Name) : Prop := s.phase.loop.Holds cluster name ∨ s.phase.Calls name

instance (name : Name) : Decidable (s.Live name) :=
  inferInstanceAs (Decidable (∃ status ∈ s.status name, _))

instance (name : Name) : Decidable (s.Running name) :=
  inferInstanceAs (Decidable (∃ vm ∈ s.vms.get name, _))

instance (name : Name) : Decidable (s.Held cluster name) := inferInstanceAs (Decidable (_ ∨ _))

/-- While the sweep holds a node its status stays, or it ends without a running VM; no VM is made
for it but while it is BOOTING, and none is started again; a VM that is about to be deleted is not
deleted by others while the node is live; and no READY or RUNNING node is without its VM when its
resources are listed. -/
def Calm (s : Cloud κ) : Event κ → Prop
  | .updateNode name u => s.Held cluster name →
      ((s.nodes.get name).getD NodeRow.new).newStatus u = s.status name ∨
        (((s.nodes.get name).getD NodeRow.new).newStatus u).all NodeStatus.terminal = true ∧
          ¬s.Running name
  | .removeNode name => s.Held cluster name → ¬s.Running name
  | .createVm name _ => s.Held cluster name → s.status name = some .booting
  | .startVm name => ¬s.Held cluster name
  | .dropVm name => s.phase.Calls name → ¬s.Live name
  | .nextPage names => ∀ name ∈ names, s.vms.get name = none →
      s.status name ≠ some .ready ∧ s.status name ≠ some .running
  | _ => True

instance (s : Cloud κ) : ∀ e, Decidable (s.Calm cluster e)
  | .updateNode name _ => inferInstanceAs (Decidable (s.Held cluster name → _ ∨ _ ∧ _))
  | .removeNode name => inferInstanceAs (Decidable (s.Held cluster name → ¬s.Running name))
  | .createVm name _ =>
    inferInstanceAs (Decidable (s.Held cluster name → s.status name = some .booting))
  | .startVm name => inferInstanceAs (Decidable ¬s.Held cluster name)
  | .dropVm name => inferInstanceAs (Decidable (s.phase.Calls name → ¬s.Live name))
  | .nextPage names => inferInstanceAs (Decidable (∀ name ∈ names, s.vms.get name = none → _ ∧ _))
  | .createPip _ _ | .createNic _ _ | .stopVm _ | .dropNic _ | .dropPip _ | .sweep | .nextListing
  | .row | .call | .notFound | .delete | .fail => .isTrue trivial

/-! ### What stays harmless -/

section Harmless

variable {s t : Cloud κ} {name : Name} {cluster}

lemma Harmless.congr (h : s.Harmless name) (hstatus : t.status name = s.status name)
    (hvm : t.vms.get name = s.vms.get name) : t.Harmless name := by
  unfold Harmless Running
  rw [hstatus, hvm]
  exact h

lemma Leftover.congr (h : s.Leftover name) (hstatus : t.status name = s.status name)
    (hvm : t.vms.get name = s.vms.get name) : t.Leftover name := by
  unfold Leftover Live
  rw [hstatus, hvm]
  exact h

lemma not_running_iff :
    ¬s.Running name ↔ s.vms.get name = none ∨ ∃ vm ∈ s.vms.get name, vm.stopped = true := by
  unfold Running
  cases s.vms.get name with
  | none => simp
  | some vm => simp

/-- A node that has ended is a leftover unless its VM runs. -/
lemma leftover_of_not_live (hrunning : ¬s.Running name) (hlive : ¬s.Live name) :
    s.Leftover name := by
  rcases not_running_iff.1 hrunning with hnone | hstopped
  · exact .inr ⟨hnone, hlive⟩
  · exact .inl hstopped

lemma harmless_of_not_live (hrunning : ¬s.Running name) (hlive : ¬s.Live name) :
    s.Harmless name :=
  .inr ⟨hrunning, fun h => hlive ⟨_, h, rfl⟩, fun h => hlive ⟨_, h, rfl⟩⟩

/-- What is harmless, and not BOOTING by now, is a leftover. -/
lemma Harmless.leftover (h : s.Harmless name) (hstatus : s.status name ≠ some .booting) :
    s.Leftover name := by
  rcases h with hbooting | ⟨hrunning, hready, hnotRunning⟩
  · exact absurd hbooting hstatus
  · refine leftover_of_not_live hrunning ?_
    rintro ⟨status, hmem, hlive⟩
    cases status with
    | booting => exact hstatus hmem
    | ready => exact hready hmem
    | running => exact hnotRunning hmem
    | failed => cases hlive
    | deleted => cases hlive

/-- Without its VM a harmless node stays harmless. -/
lemma Harmless.of_none (h : s.Harmless name) (hstatus : t.status name = s.status name)
    (hvm : t.vms.get name = none) : t.Harmless name := by
  unfold Harmless
  rw [hstatus]
  refine h.imp id fun hrest => ⟨not_running_iff.2 (.inl hvm), hrest.2⟩

end Harmless

/-! ### The invariant -/

/-- What the sweep holds is harmless, and what it is about to delete is a leftover. -/
structure Sound (s : Cloud κ) : Prop where
  nic : ∀ name, s.nics.get name = none → s.vms.get name = none
  held : ∀ name, s.phase.loop.Holds cluster name → s.Harmless name
  calling : ∀ name, s.phase.Calls name → s.Leftover name

section Invariant

variable {cluster} {s t : Cloud κ} {name : Name}

/-- A step of the others. -/
lemma Sound.others (h : s.Sound cluster) (hphase : t.phase = s.phase)
    (hnic : ∀ name, t.nics.get name = none → t.vms.get name = none)
    (hheld : ∀ name, s.Held cluster name →
      (s.Harmless name → t.Harmless name) ∧
        (s.phase.Calls name → s.Leftover name → t.Leftover name)) : t.Sound cluster where
  nic := hnic
  held name hholds := by
    rw [hphase] at hholds
    exact (hheld name (.inl hholds)).1 (h.held name hholds)
  calling name hcalls := by
    rw [hphase] at hcalls
    exact (hheld name (.inr hcalls)).2 hcalls (h.calling name hcalls)

/-- A step of the others that is about one instance. -/
lemma Sound.one (h : s.Sound cluster) (name : Name) (hphase : t.phase = s.phase)
    (hnic : ∀ name, t.nics.get name = none → t.vms.get name = none)
    (hsame : ∀ name', name' ≠ name →
      t.status name' = s.status name' ∧ t.vms.get name' = s.vms.get name')
    (hheld : s.Held cluster name → (s.Harmless name → t.Harmless name) ∧
      (s.phase.Calls name → s.Leftover name → t.Leftover name)) : t.Sound cluster := by
  refine h.others hphase hnic fun name' hname' => ?_
  by_cases hname : name' = name
  · subst hname
    exact hheld hname'
  · obtain ⟨hstatus, hvm⟩ := hsame name' hname
    exact ⟨fun hharmless => hharmless.congr hstatus hvm,
      fun _ hleftover => hleftover.congr hstatus hvm⟩

/-- A step of the sweep that changes neither the nodes nor the resources. -/
lemma Sound.setPhase (h : s.Sound cluster) {phase : Phase}
    (hheld : ∀ name, phase.loop.Holds cluster name → s.Harmless name)
    (hcalling : ∀ name, phase.Calls name → s.Leftover name) :
    (s.setPhase phase).Sound cluster where
  nic := h.nic
  held name hholds := (hheld name hholds).congr rfl rfl
  calling name hcalls := (hcalling name hcalls).congr rfl rfl

lemma not_holds_nil {listing : Listing} : ¬Loop.Holds cluster ⟨listing, []⟩ name := by
  rintro ⟨-, row, hrow, -⟩
  cases hrow

lemma not_calls_idle : ¬Phase.idle.Calls name := id

lemma not_calls_looping {loop : Loop} : ¬(Phase.looping loop).Calls name := id

lemma not_calls_deleting {name' : Name} {stage : Stage} {loop : Loop} :
    ¬(Phase.deleting name' stage loop).Calls name := id

/-- The sweep ends, or is dropped. -/
lemma Sound.idle (h : s.Sound cluster) : (s.setPhase .idle).Sound cluster :=
  h.setPhase (fun _ hholds => absurd hholds not_holds_nil)
    fun _ hcalls => absurd hcalls not_calls_idle

/-- The sweep goes on with the loop over a page. -/
lemma Sound.looping (h : s.Sound cluster) {loop : Loop}
    (hheld : ∀ name, loop.Holds cluster name → s.Harmless name) :
    (s.setPhase (.looping loop)).Sound cluster :=
  h.setPhase hheld fun _ hcalls => absurd hcalls not_calls_looping

/-- A listing begins without a page. -/
lemma Sound.listing (h : s.Sound cluster) {listing : Listing} :
    (s.setPhase (.looping ⟨listing, []⟩)).Sound cluster :=
  h.looping fun _ hholds => absurd hholds not_holds_nil

lemma holds_cons {listing : Listing} {row : Row} {page : List Row}
    (h : Loop.Holds cluster ⟨listing, page⟩ name) :
    Loop.Holds cluster ⟨listing, row :: page⟩ name := by
  obtain ⟨hlisting, row', hrow', hboth⟩ := h
  exact ⟨hlisting, row', List.mem_cons_of_mem row hrow', hboth⟩

lemma status_updateNode {u : ClusterState.NodeUpdates κ} {name' : Name} :
    status { s with nodes := updateNode s.nodes name u } name' =
      if name' = name then ((s.nodes.get name).getD NodeRow.new).newStatus u
      else s.status name' := by
  unfold status
  simp only [ClusterState.get_updateNode]
  split_ifs with hname
  · rfl
  · rfl

/-- A write to a node that is held leaves its status, or ends it. -/
lemma Sound.updateNode (h : s.Sound cluster) {u : ClusterState.NodeUpdates κ}
    (hok : s.Calm cluster (.updateNode name u)) :
    Sound cluster { s with nodes := updateNode s.nodes name u } := by
  refine h.one name rfl h.nic (fun name' hname => ⟨?_, rfl⟩) fun hheld => ?_
  · rw [status_updateNode, if_neg hname]
  · have hstatus : status { s with nodes := ClusterState.updateNode s.nodes name u } name =
        ((s.nodes.get name).getD NodeRow.new).newStatus u := by rw [status_updateNode, if_pos rfl]
    rcases hok hheld with hsame | ⟨hended, hrunning⟩
    · rw [hsame] at hstatus
      exact ⟨fun hharmless => hharmless.congr hstatus rfl,
        fun _ hleftover => hleftover.congr hstatus rfl⟩
    · have hlive : ¬Live { s with nodes := ClusterState.updateNode s.nodes name u } name := by
        rintro ⟨st, hmem, hst⟩
        rw [hstatus] at hmem
        rw [Option.mem_def.1 hmem] at hended
        cases hended.symm.trans hst
      exact ⟨fun _ => harmless_of_not_live hrunning hlive,
        fun _ _ => leftover_of_not_live hrunning hlive⟩

lemma Sound.removeNode (h : s.Sound cluster) (hok : s.Calm cluster (.removeNode name)) :
    Sound cluster { s with nodes := s.nodes.pop name } := by
  have hstatus : ∀ name', status { s with nodes := s.nodes.pop name } name' =
      if name' = name then none else s.status name' := by
    intro name'
    unfold status
    simp only [Dict.get_pop]
    split_ifs with hname
    · rfl
    · rfl
  refine h.one name rfl h.nic (fun name' hname => ⟨?_, rfl⟩) fun hheld => ?_
  · rw [hstatus, if_neg hname]
  · have hlive : ¬Live { s with nodes := s.nodes.pop name } name := by
      rintro ⟨st, hmem, -⟩
      rw [hstatus, if_pos rfl] at hmem
      cases hmem
    exact ⟨fun _ => harmless_of_not_live (hok hheld) hlive,
      fun _ _ => leftover_of_not_live (hok hheld) hlive⟩

/-- A VM is made for a node that is held only while it is BOOTING. -/
lemma Sound.createVm (h : s.Sound cluster) {tags : Tags}
    (hok : s.Calm cluster (.createVm name tags))
    (hstep : s.step cluster (.createVm name tags) = some t) : t.Sound cluster := by
  simp only [step, Option.ite_none_right_eq_some, Option.some.injEq] at hstep
  obtain ⟨⟨hnone, hnic⟩, rfl⟩ := hstep
  refine h.one name rfl (fun name' hnone' => ?_) (fun name' hname => ⟨rfl, ?_⟩)
    fun hheld => ?_
  · show (s.vms.set name ⟨tags, false⟩).get name' = none
    have hname : name' ≠ name := by
      rintro rfl
      rw [show s.nics.get name' = none from hnone'] at hnic
      cases hnic
    rw [Dict.get_set_of_ne hname]
    exact h.nic name' hnone'
  · exact Dict.get_set_of_ne hname
  · have hbooting : s.status name = some .booting := hok hheld
    refine ⟨fun _ => .inl hbooting, fun _ hleftover => ?_⟩
    -- a BOOTING node is not one that is about to be deleted
    rcases hleftover with ⟨vm, hvm, -⟩ | ⟨-, hlive⟩
    · rw [hnone] at hvm
      cases hvm
    · exact absurd ⟨.booting, hbooting, rfl⟩ hlive

lemma Sound.setStopped (h : s.Sound cluster) {stopped : Bool}
    (hok : stopped = false → ¬s.Held cluster name)
    (hstep : s.setStopped name stopped = some t) : t.Sound cluster := by
  obtain ⟨vm, hvm, rfl⟩ := Option.map_eq_some_iff.1 hstep
  refine h.one name rfl (fun name' hnone => ?_) (fun name' hname => ⟨rfl, ?_⟩)
    fun hheld => ?_
  · show (s.vms.set name { vm with stopped }).get name' = none
    have hname : name' ≠ name := by
      rintro rfl
      rw [h.nic name' hnone] at hvm
      cases hvm
    rw [Dict.get_set_of_ne hname]
    exact h.nic name' hnone
  · exact Dict.get_set_of_ne hname
  · cases stopped with
    | false => exact absurd hheld (hok rfl)
    | true =>
      have hget : (s.vms.set name { vm with stopped := true }).get name =
        some { vm with stopped := true } := Dict.get_set_self
      refine ⟨fun hharmless => hharmless.imp id fun hrest => ⟨?_, hrest.2⟩, fun _ _ => ?_⟩
      · exact not_running_iff.2 (.inr ⟨_, hget, rfl⟩)
      · exact .inl ⟨_, hget, rfl⟩

/-- Others delete a VM. -/
lemma Sound.dropVm (h : s.Sound cluster) (hok : s.Calm cluster (.dropVm name)) :
    Sound cluster { s with vms := s.vms.pop name } := by
  have hget : ∀ name', (s.vms.pop name).get name' = if name' = name then none else s.vms.get name' :=
    fun name' => Dict.get_pop
  refine h.one name rfl (fun name' hnone => ?_) (fun name' hname => ⟨rfl, ?_⟩)
    fun hheld => ?_
  · show (s.vms.pop name).get name' = none
    rw [hget]
    split_ifs
    · rfl
    · exact h.nic name' hnone
  · show (s.vms.pop name).get name' = _
    rw [hget, if_neg hname]
  · have hnone : (s.vms.pop name).get name = none := by rw [hget, if_pos rfl]
    exact ⟨fun hharmless => hharmless.of_none rfl hnone,
      fun hcalls _ => .inr ⟨hnone, hok hcalls⟩⟩

/-- `removesuffix` gives the instance of a resource that has been listed. -/
lemma instanceName_listed {listing : Listing} {row : Row} (h : s.listed listing name = some row) :
    instanceName listing row = name := by
  have hname : row.name = name ++ listing.ending := by
    cases listing with
    | vms =>
      obtain ⟨vm, -, rfl⟩ := Option.map_eq_some_iff.1 h
      exact (List.append_nil name).symm
    | nics =>
      obtain ⟨tags, -, rfl⟩ := Option.map_eq_some_iff.1 h
      rfl
    | pips =>
      obtain ⟨tags, -, rfl⟩ := Option.map_eq_some_iff.1 h
      rfl
  rw [instanceName, hname, List.length_append, Nat.add_sub_cancel, List.take_left']
  rfl

/-- What has been listed without what it belongs to has no VM. -/
lemma vm_eq_none_of_listed (h : s.Sound cluster) {listing : Listing} {row : Row}
    (hlisting : listing ≠ .vms) (hlisted : s.listed listing name = some row)
    (hrow : row.attached = false) : s.vms.get name = none := by
  cases listing with
  | vms => exact absurd rfl hlisting
  | nics =>
    obtain ⟨tags, -, rfl⟩ := Option.map_eq_some_iff.1 hlisted
    exact Option.not_isSome_iff_eq_none.1 (by simpa using hrow)
  | pips =>
    obtain ⟨tags, -, rfl⟩ := Option.map_eq_some_iff.1 hlisted
    exact h.nic name (Option.not_isSome_iff_eq_none.1 (by simpa using hrow))

/-- A page is fetched: no node on it is READY or RUNNING without its VM. -/
lemma Sound.nextPage (h : s.Sound cluster) {names : List Name}
    (hok : s.Calm cluster (.nextPage names)) (hstep : s.step cluster (.nextPage names) = some t) :
    t.Sound cluster := by
  simp only [step] at hstep
  split at hstep
  · rename_i listing hphase
    obtain rfl := Option.some.inj hstep
    refine h.looping ?_
    rintro name ⟨hlisting, row, hrow, hpasses, hname⟩
    obtain ⟨name', hmem, hlisted⟩ := List.mem_filterMap.1 hrow
    obtain rfl : name' = name := (instanceName_listed hlisted).symm.trans hname
    have hattached : row.attached = false := by
      simp only [passes, Bool.and_eq_true, Bool.not_eq_true'] at hpasses
      exact hpasses.2
    have hnone := vm_eq_none_of_listed h hlisting hlisted hattached
    exact .inr ⟨not_running_iff.2 (.inl hnone), hok name' hmem hnone⟩
  · cases hstep

/-- A row's turn. -/
lemma Sound.row (h : s.Sound cluster) (hstep : s.step cluster .row = some t) :
    t.Sound cluster := by
  simp only [step] at hstep
  split at hstep
  · rename_i listing row page hphase
    obtain rfl := Option.some.inj hstep
    have hheld : ∀ name, Loop.Holds cluster ⟨listing, row :: page⟩ name → s.Harmless name := by
      have hall := h.held
      rwa [hphase] at hall
    have hrest : ∀ name, Loop.Holds cluster ⟨listing, page⟩ name → s.Harmless name :=
      fun name hholds => hheld name (holds_cons hholds)
    unfold processRow
    simp only
    cases hpasses : passes cluster listing row with
    | false => exact h.looping hrest
    | true =>
      simp only [Bool.true_eq_false, if_false]
      cases listing with
      | vms =>
        cases hvm : s.vms.get (instanceName .vms row) with
        | none => exact h.idle
        | some vm =>
          simp only
          split_ifs with hstopped
          · refine h.setPhase hrest ?_
            rintro name rfl
            exact .inl ⟨vm, hvm, hstopped⟩
          · exact h.looping hrest
      | nics =>
        simp only
        split_ifs with hbooting
        · exact h.looping hrest
        · refine h.setPhase hrest ?_
          rintro name rfl
          exact (hheld _ ⟨Listing.noConfusion, row, List.mem_cons_self, hpasses, rfl⟩).leftover hbooting
      | pips =>
        simp only
        split_ifs with hbooting
        · exact h.looping hrest
        · refine h.setPhase hrest ?_
          rintro name rfl
          exact (hheld _ ⟨Listing.noConfusion, row, List.mem_cons_self, hpasses, rfl⟩).leftover hbooting
  · cases hstep

/-- `delete_instance` takes away what it has been called for. -/
lemma Sound.delete (h : s.Sound cluster) (hstep : s.step cluster .delete = some t) :
    t.Sound cluster := by
  simp only [step] at hstep
  split at hstep
  · rename_i name stage loop hphase
    obtain rfl := Option.some.inj hstep
    have hheld : ∀ name, loop.Holds cluster name → s.Harmless name := by
      have hall := h.held
      rwa [hphase] at hall
    cases stage with
    | vm =>
      have hget : ∀ name', (s.vms.pop name).get name' =
          if name' = name then none else s.vms.get name' := fun name' => Dict.get_pop
      refine ⟨fun name' hnone => ?_, fun name' hholds => ?_,
        fun _ hcalls => absurd hcalls not_calls_deleting⟩
      · show (s.vms.pop name).get name' = none
        rw [hget]
        split_ifs
        · rfl
        · exact h.nic name' hnone
      · by_cases hname : name' = name
        · exact (hheld name' hholds).of_none rfl ((hget name').trans (if_pos hname))
        · exact (hheld name' hholds).congr rfl ((hget name').trans (if_neg hname))
    | nic =>
      simp only [Cloud.delete]
      split_ifs with hvm
      · exact h.idle
      · refine ⟨fun name' hnone => ?_, fun name' hholds => (hheld name' hholds).congr rfl rfl,
          fun _ hcalls => absurd hcalls not_calls_deleting⟩
        by_cases hname : name' = name
        · subst hname
          exact Option.not_isSome_iff_eq_none.1 hvm
        · refine h.nic name' ?_
          rw [← hnone]
          exact (Dict.get_pop.trans (if_neg hname)).symm
    | pip =>
      simp only [Cloud.delete]
      split_ifs with hnic
      · exact h.idle
      · exact ⟨h.nic, fun name' hholds => (hheld name' hholds).congr rfl rfl,
          fun _ hcalls => absurd hcalls not_calls_looping⟩
  · cases hstep

lemma call_eq {loop : Loop} (hphase : s.phase = .calling name loop) :
    s.step cluster .call = some (s.setPhase (.deleting name .vm loop)) := by
  simp only [step, hphase]

/-- The instance that a call is for. -/
lemma calls_of_call (hcall : s.step cluster .call = some t) {loop : Loop}
    (hname : t.phase = .deleting name .vm loop) : s.phase.Calls name := by
  simp only [step] at hcall
  split at hcall
  · rename_i name' loop' hphase
    obtain rfl := Option.some.inj hcall
    rw [hphase]
    exact (Phase.deleting.inj hname).1
  · cases hcall

lemma sound_invariant : (system cluster : System (Cloud κ) _).Invariant (Calm cluster)
    (Sound cluster) where
  init := by
    rintro s ⟨hphase, hnic⟩
    refine ⟨hnic, ?_, ?_⟩
    · rw [hphase]
      exact fun _ hholds => absurd hholds not_holds_nil
    · rw [hphase]
      exact fun _ hcalls => absurd hcalls not_calls_idle
  step := by
    rintro s e t h hok hstep
    cases e with
    | updateNode name u => exact Option.some.inj hstep ▸ h.updateNode hok
    | removeNode name => exact Option.some.inj hstep ▸ h.removeNode hok
    | createPip name tags =>
      obtain rfl := Option.some.inj hstep
      exact h.others rfl h.nic fun _ _ => ⟨fun hh => hh.congr rfl rfl, fun _ hl => hl.congr rfl rfl⟩
    | createNic name tags =>
      simp only [system, step, Option.ite_none_right_eq_some, Option.some.injEq] at hstep
      obtain ⟨hnone, rfl⟩ := hstep
      refine h.others rfl (fun name' hnic => ?_)
        fun _ _ => ⟨fun hh => hh.congr rfl rfl, fun _ hl => hl.congr rfl rfl⟩
      by_cases hname : name' = name
      · rw [hname]
        exact hnone
      · exact h.nic name' ((Dict.get_set_of_ne hname).symm.trans hnic)
    | createVm name tags => exact h.createVm hok hstep
    | stopVm name => exact h.setStopped (fun hfalse => Bool.noConfusion hfalse) hstep
    | startVm name => exact h.setStopped (fun _ => hok) hstep
    | dropVm name => exact Option.some.inj hstep ▸ h.dropVm hok
    | dropNic name =>
      simp only [system, step, Option.ite_none_right_eq_some, Option.some.injEq] at hstep
      obtain ⟨hnone, rfl⟩ := hstep
      refine h.others rfl (fun name' hnic => ?_)
        fun _ _ => ⟨fun hh => hh.congr rfl rfl, fun _ hl => hl.congr rfl rfl⟩
      by_cases hname : name' = name
      · rw [hname]
        exact hnone
      · exact h.nic name' ((Dict.get_pop.trans (if_neg hname)).symm.trans hnic)
    | dropPip name =>
      simp only [system, step, Option.ite_none_right_eq_some, Option.some.injEq] at hstep
      obtain ⟨-, rfl⟩ := hstep
      exact h.others rfl h.nic fun _ _ => ⟨fun hh => hh.congr rfl rfl, fun _ hl => hl.congr rfl rfl⟩
    | sweep =>
      simp only [system, step, Option.ite_none_right_eq_some, Option.some.injEq] at hstep
      obtain ⟨-, rfl⟩ := hstep
      exact h.listing
    | nextPage names => exact h.nextPage hok hstep
    | nextListing =>
      simp only [system, step] at hstep
      split at hstep
      · obtain rfl := Option.some.inj hstep
        exact h.listing
      · obtain rfl := Option.some.inj hstep
        exact h.listing
      · obtain rfl := Option.some.inj hstep
        exact h.idle
      · cases hstep
    | row => exact h.row hstep
    | call =>
      simp only [system, step] at hstep
      split at hstep
      · rename_i name loop hphase
        obtain rfl := Option.some.inj hstep
        have hheld := h.held
        rw [hphase] at hheld
        exact h.setPhase hheld fun _ hcalls => absurd hcalls not_calls_deleting
      · cases hstep
    | notFound =>
      simp only [system, step] at hstep
      split at hstep
      · rename_i name loop hphase
        obtain rfl := Option.some.inj hstep
        have hheld := h.held
        rw [hphase] at hheld
        exact h.looping hheld
      · cases hstep
    | delete => exact h.delete hstep
    | fail =>
      obtain rfl := Option.some.inj hstep
      exact h.idle

/-- **The sweep deletes leftovers only**, in every run in which a node that it has listed without
a VM does not get one unless it is BOOTING, and does not end to boot, before its turn has come:
`delete_instance` is called for an instance whose VM is stopped, or for one that has no VM and
whose node is not BOOTING, READY or RUNNING. -/
theorem only_leftovers (h : (system cluster : System (Cloud κ) _).Reachable (Calm cluster) s)
    (hcall : s.step cluster .call = some t) {loop : Loop}
    (hname : t.phase = .deleting name .vm loop) :
    (∃ vm, s.vms.get name = some vm ∧ vm.stopped = true) ∨
      s.vms.get name = none ∧ ∀ node, s.nodes.get name = some node →
        node.status ≠ some .booting ∧ node.status ≠ some .ready ∧ node.status ≠ some .running := by
  have hleftover := (sound_invariant.reachable h).calling name (calls_of_call hcall hname)
  refine hleftover.imp (fun hstopped => hstopped) fun hnone => ⟨hnone.1, fun node hnode => ?_⟩
  have hstatus : s.status name = node.status := by
    rw [status, hnode, Option.bind_some]
  refine ⟨fun hst => ?_, fun hst => ?_, fun hst => ?_⟩
  · exact hnone.2 ⟨.booting, hstatus.trans hst, rfl⟩
  · exact hnone.2 ⟨.ready, hstatus.trans hst, rfl⟩
  · exact hnone.2 ⟨.running, hstatus.trans hst, rfl⟩

end Invariant

/-! ### A node that is done booting -/

section Booted

/-- A head without nodes. -/
def empty : Cloud Unit := ⟨Dict.empty, Dict.empty, Dict.empty, Dict.empty, .idle⟩

def clusterName : Name := "burla".toList

def burlaTags : Tags := ⟨some "true".toList, some clusterName⟩

/-- A node of the cluster. -/
def node : Name := "burla-node-1".toList

/-- The node begins to boot, and its interface is listed before its VM is made. -/
def listedEarly : List (Event Unit) :=
  [.updateNode node { status := some .booting }, .createPip node burlaTags,
    .createNic node burlaTags, .sweep, .nextListing, .nextPage [node]]

lemma init_empty : (system clusterName).init empty := ⟨rfl, fun _ _ => rfl⟩

/-- The node fails without a VM, and its interface's turn comes. -/
def failed : Cloud Unit :=
  (((system clusterName).guarded (Calm clusterName)).exec empty
    (listedEarly ++ [.updateNode node { status := some .failed }, .row])).get (by decide +kernel)

theorem only_leftovers_failed : failed.vms.get node = none ∧
    ((∃ vm, failed.vms.get node = some vm ∧ vm.stopped = true) ∨
      failed.vms.get node = none ∧ ∀ row, failed.nodes.get node = some row →
        row.status ≠ some .booting ∧ row.status ≠ some .ready ∧ row.status ≠ some .running) :=
  ⟨by decide +kernel, only_leftovers
    ⟨empty, _, init_empty, System.run_of_exec_guarded (Option.some_get _).symm⟩
    (call_eq (show failed.phase = .calling node ⟨.nics, []⟩ by decide +kernel)) rfl⟩

/-- The VM is made and the node is READY, before the interface's turn comes. -/
def booted : Cloud Unit :=
  (((system clusterName).guarded System.always).exec empty
    (listedEarly ++ [.createVm node burlaTags, .updateNode node { status := some .ready },
      .row])).get (by decide +kernel)

/-- **A READY node is deleted**: the sweep has listed its interface before its VM was made. -/
theorem ready_node_deleted :
    ¬∀ (s t : Cloud Unit) name loop, (system clusterName).Reachable System.always s →
      s.step clusterName .call = some t → t.phase = .deleting name .vm loop →
        (∃ vm, s.vms.get name = some vm ∧ vm.stopped = true) ∨
          s.vms.get name = none ∧ ∀ row, s.nodes.get name = some row →
            row.status ≠ some .booting ∧ row.status ≠ some .ready ∧
              row.status ≠ some .running := by
  intro h
  have hreachable : (system clusterName).Reachable System.always booted :=
    ⟨empty, _, init_empty, System.run_of_exec_guarded (Option.some_get _).symm⟩
  have hvm : booted.vms.get node = some ⟨burlaTags, false⟩ := by decide +kernel
  have hphase : booted.phase = .calling node ⟨.nics, []⟩ := by decide +kernel
  rcases h booted _ node ⟨.nics, []⟩ hreachable (call_eq hphase) rfl with
    ⟨vm, hmem, hstopped⟩ | ⟨hnone, -⟩
  · rw [hvm] at hmem
    cases Option.some.inj hmem
    cases hstopped
  · cases hvm.symm.trans hnone

end Booted

end Cloud

end Azure

end Burla.Instances
