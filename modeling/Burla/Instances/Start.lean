/-
The making of a VM and the deletions of it: `Node.start` and `Node.delete` (node.py) with those
who delete a node while it starts.

`Node.start` runs in a thread of its own and waits for the cloud, then for the node; a shutdown
of the cluster, the dashboard, a client, the end of a job and the node reaper may each delete the
node at any moment of it.  A deletion is a write of the head's entry and a call of the provider,
and the call finds the VM only if the cloud has made it by then.

The main results are

* `Site.called_of_sound`: once all of them are done, an ended node's VM was never made or has been
  deleted, in every run in which `Node.start` does not rely on a deletion that came too early;
* `Site.vm_is_left`: the exit of `Node.start` for a node deleted mid-boot does rely on it.
-/
import Burla.Instances.Entry
import Burla.Lib.Messages
import Burla.Lib.System

namespace Burla.Instances

open Burla.Assign (NodeStatus)

variable {κ : Type*}

/-! ### The parties -/

/-- Where `Node.start` stands. -/
inductive StartPhase
  | idle
  /-- `create_instance` is on its way. -/
  | creating
  /-- It has returned; the addresses are to be written. -/
  | created (addresses : Addresses)
  /-- The first look at the node's status. -/
  | looking
  /-- In the loop, before the next look. -/
  | looping
  /-- `status()` has answered; the head's status is to be read. -/
  | polled (status : NodeStatus) (bootingTooLong : Bool)
  /-- An exception was caught: FAILED is to be written. -/
  | failing
  /-- `self.delete()`: DELETED is to be written. -/
  | deleting
  /-- The provider is to be called. -/
  | dropping
  | finished
  deriving DecidableEq

/-- `Node.start` is about to delete the VM itself. -/
def StartPhase.Deletes : StartPhase → Bool
  | failing | deleting | dropping => true
  | idle | creating | created _ | looking | looping | polled _ _ | finished => false

/-- A deletion under way; the zone is the one that the entry had when it began. -/
inductive Deletion
  /-- `Node.delete`, from its first write on. -/
  | mark (zone : Option String)
  /-- `Node.delete`: the provider is to be called. -/
  | call (zone : Option String)
  /-- The node reaper, before it asks the provider which of the VMs exist. -/
  | check (zone : Option String)
  /-- The reaper has heard that the VM exists. -/
  | reap (zone : Option String)
  /-- The reaper has called the provider; DELETED is to be written. -/
  | reaped
  /-- The reaper has heard that there is no VM, one having been made before or not. -/
  | missing (made : Bool)
  deriving DecidableEq

/-- The deletion has its call of the provider still ahead. -/
def Deletion.CallAhead : Deletion → Bool
  | mark _ | call _ | reap _ => true
  | check _ | reaped | missing _ => false

/-- A node of the head's, its VM, and who is at work on them. -/
structure Site (κ : Type*) where
  /-- The entry in `NODES`. -/
  entry : Option (NodeEntry κ)
  /-- The creation has taken effect. -/
  made : Bool
  /-- `delete_instance` has been called since. -/
  called : Bool
  /-- The provider was asked to delete the VM, or whether there is one, before there was. -/
  early : Bool
  starter : StartPhase
  /-- The zone that `Node.start` has got from the provider (`self.zone`). -/
  selfZone : Option String
  deletions : List Deletion

inductive SiteEvent (κ : Type*)
  /-- The first write of `Node.start`. -/
  | start (machineType : String) (reservedForJob : Option κ)
  /-- The cloud makes the VM. -/
  | takeEffect
  /-- `create_instance` returns. -/
  | createReturns (addresses : Addresses)
  /-- It raises, with the VM made or not. -/
  | createRaises
  /-- The addresses are written. -/
  | writeHost
  /-- The node answers `status()`. -/
  | poll (status : NodeStatus) (bootingTooLong : Bool)
  /-- `status()` raises. -/
  | pollRaises
  /-- The head's status is read, and the loop goes on or ends. -/
  | judge
  /-- The next step of what follows a caught exception. -/
  | cleanUp
  /-- A push of the node's. -/
  | push (status : NodeStatus)
  /-- `_shutdown_cluster` finds the node active. -/
  | shutdown
  /-- `delete_node`. -/
  | dashboard
  /-- `fail_cluster_node`. -/
  | clientFail
  /-- `push_node_state`, once the job that the node was booted for is over. -/
  | scopeFinished
  /-- `node_reaper_loop` has the node among its candidates. -/
  | reaper
  /-- The next step of the deletion `n`. -/
  | proceed (n : ℕ)
  /-- `_shutdown_cluster` drops a FAILED entry. -/
  | removeFailed

namespace Site

/-- Before anything. -/
def new : Site κ where
  entry := none
  made := false
  called := false
  early := false
  starter := .idle
  selfZone := none
  deletions := []

variable (s : Site κ)

/-- `node_status`. -/
def status : Option NodeStatus := s.entry.bind NodeEntry.status

/-- The zone that a deletion takes from the entry. -/
def zone : Option String := s.entry.bind fun e => e.addresses.zone

/-- `update_node`. -/
def updateNode (u : NodeUpdates κ) : Site κ :=
  { s with entry := some ((s.entry.getD NodeEntry.new).update u) }

/-- The VM is there. -/
def vmExists : Bool := s.made && !s.called

/-- `delete_instance`, which removes the VM if there is one, with the zone at hand or without. -/
def deleteInstance (_zone : Option String) : Site κ :=
  if s.made = true then { s with called := true } else { s with early := true }

/-- A deletion begins. -/
def add (d : Deletion) : Site κ := { s with deletions := s.deletions ++ [d] }

/-- The head's status is read after `status()` has answered. -/
def judge (status : NodeStatus) (bootingTooLong : Bool) : StartPhase :=
  if s.status = some .deleted then .finished
  else
    let status := if status = .booting ∧ s.status = some .failed then .failed else status
    if status = .failed ∨ bootingTooLong = true then .failing
    else if status = .ready ∨ status = .running then .finished
    else .looping

/-- One step of `Node.start`'s clean-up. -/
def cleanUp : Option (Site κ) :=
  match s.starter with
  | .failing => some { s.updateNode (.ofStatus .failed) with starter := .deleting }
  | .deleting => some { s.updateNode (.ofStatus .deleted) with starter := .dropping }
  | .dropping => some { s.deleteInstance s.selfZone with starter := .finished }
  | _ => none

/-- One step of a deletion: what it does, and what is left of it. -/
def proceed : Deletion → Site κ × Option Deletion
  | .mark zone => (s.updateNode (.ofStatus .deleted), some (.call zone))
  | .call zone => (s.deleteInstance zone, none)
  | .check zone =>
    if s.vmExists = true then (s, some (.reap zone))
    else ({ s with early := s.early || !s.made }, some (.missing s.made))
  | .reap zone => (s.deleteInstance zone, some .reaped)
  | .reaped => (s.updateNode (.ofStatus .deleted), none)
  | .missing _ => (s.updateNode (.ofStatus .deleted), none)

/-- One step. -/
def step : SiteEvent κ → Option (Site κ)
  | .start machineType job =>
    if s.starter = .idle then
      some { s.updateNode (.boot machineType job) with starter := .creating }
    else none
  | .takeEffect =>
    if s.starter = .creating ∧ s.made = false then some { s with made := true } else none
  | .createReturns addresses =>
    if s.starter = .creating ∧ s.made = true then
      some { s with starter := .created addresses, selfZone := addresses.zone }
    else none
  | .createRaises =>
    if s.starter = .creating then some { s with starter := .failing } else none
  | .writeHost =>
    match s.starter with
    | .created addresses =>
      some { s.updateNode { addresses := some addresses } with starter := .looking }
    | _ => none
  | .poll status bootingTooLong =>
    match s.starter with
    | .looking =>
      if status = .ready ∨ status = .running then some { s with starter := .finished }
      else some { s with starter := .looping }
    | .looping => some { s with starter := .polled status bootingTooLong }
    | _ => none
  | .pollRaises =>
    if s.starter = .looking ∨ s.starter = .looping then some { s with starter := .failing }
    else none
  | .judge =>
    match s.starter with
    | .polled status bootingTooLong => some { s with starter := s.judge status bootingTooLong }
    | _ => none
  | .cleanUp => s.cleanUp
  | .push status =>
    if s.made = true ∧ status.terminal = false then some (s.updateNode (.ofStatus status))
    else none
  | .shutdown =>
    if Active s.status = true then some ((s.updateNode {}).add (.mark s.zone)) else none
  | .dashboard =>
    if s.entry.isSome = true ∧ s.status ≠ some .deleted then some (s.add (.mark s.zone)) else none
  | .clientFail => some ((s.updateNode (.ofStatus .failed)).add (.mark s.zone))
  | .scopeFinished =>
    if s.made = true ∧ Active s.status = true then
      some ((s.updateNode (.ofStatus .deleted)).add (.mark s.zone))
    else none
  | .reaper => if Active s.status = true then some (s.add (.check s.zone)) else none
  | .proceed n =>
    match takeAt s.deletions n with
    | none => none
    | some (d, rest) =>
      some { (s.proceed d).1 with deletions := rest ++ (s.proceed d).2.toList }
  | .removeFailed =>
    if s.status = some .failed then some { s with entry := none } else none

/-- A node's name, from before `Node.start` on. -/
def sys : System (Site κ) (SiteEvent κ) where
  init s := s = new
  step := step

/-! ### The claim and the condition -/

/-- `Node.start` and the deletions are done. -/
def Settled : Prop := s.starter = .finished ∧ s.deletions = []

/-- The head calls the node DELETED or FAILED. -/
def NodeEnded : Prop := Ended s.status = true

/-- The step at which `Node.start` ends, and leaves the VM of an ended node as it is: for a node
that the head has DELETED, or with a node that answers READY or RUNNING although the head's
status is FAILED. -/
def LeavesEnded : SiteEvent κ → Bool
  | .judge =>
    match s.starter with
    | .polled status bootingTooLong =>
      s.judge status bootingTooLong = .finished && Ended s.status
    | _ => false
  | .poll status _ =>
    s.starter = .looking && (status = .ready || status = .running) && Ended s.status
  | _ => false

/-- The step at which the reaper writes DELETED for a VM that has been made since it asked. -/
def MissesNewVm : SiteEvent κ → Bool
  | .proceed n => s.deletions[n]? = some (.missing false) && s.made
  | _ => false

/-- A step that does not rely on a deletion that came too early. -/
def Sound (s : Site κ) (a : SiteEvent κ) : Prop :=
  (s.LeavesEnded a = true → s.early = false) ∧ s.MissesNewVm a = false

instance (s : Site κ) (a : SiteEvent κ) : Decidable (Sound s a) :=
  inferInstanceAs (Decidable (_ ∧ _))

/-! ### What a deletion still does -/

/-- The VM of an ended node has been deleted since it was made, or is about to be; or a deletion
came too early, and `Node.start` may still see to it. -/
def Covered : Prop :=
  s.called = true ∨ (∃ d ∈ s.deletions, d.CallAhead = true) ∨ s.starter.Deletes = true ∨
    (s.early = true ∧ (s.starter ≠ .finished ∨ s.made = false))

/-- What the reaper's knowledge of the VM stands for. -/
def Heard : Deletion → Prop
  | .reap _ => s.made = true
  | .reaped | .missing true => s.called = true
  | .missing false => s.early = true
  | .mark _ | .call _ | .check _ => True

/-- The invariant. -/
structure Accounted : Prop where
  covered : s.NodeEnded → s.Covered
  heard : ∀ d ∈ s.deletions, s.Heard d

/-- Nothing that was made or called is taken back. -/
structure Grows (s t : Site κ) : Prop where
  made : s.made = true → t.made = true
  called : s.called = true → t.called = true
  early : s.early = true → t.early = true

section Updates

variable {s} {u : NodeUpdates κ}

@[simp] lemma updateNode_made : (s.updateNode u).made = s.made := rfl

@[simp] lemma updateNode_called : (s.updateNode u).called = s.called := rfl

@[simp] lemma updateNode_early : (s.updateNode u).early = s.early := rfl

@[simp] lemma updateNode_starter : (s.updateNode u).starter = s.starter := rfl

@[simp] lemma updateNode_deletions : (s.updateNode u).deletions = s.deletions := rfl

lemma updateNode_status :
    (s.updateNode u).status = (s.entry.getD NodeEntry.new).newStatus u := rfl

/-- A write that does not end the node. -/
lemma nodeEnded_of_updateNode (hu : ∀ new, u.status = some new → new.terminal = false)
    (h : (s.updateNode u).NodeEnded) : s.NodeEnded := by
  have hcurrent : (s.entry.getD NodeEntry.new).status = s.status := by
    unfold status
    cases s.entry with
    | none => rfl
    | some _ => rfl
  unfold NodeEnded at h ⊢
  rw [updateNode_status] at h
  rw [← hcurrent]
  cases hnew : u.status with
  | none => rwa [NodeEntry.newStatus_of_silent hnew] at h
  | some new => exact NodeEntry.ended_of_ended_newStatus hnew (hu new hnew) h

@[simp] lemma deleteInstance_starter {zone : Option String} :
    (s.deleteInstance zone).starter = s.starter := by
  unfold deleteInstance
  split_ifs <;> rfl

@[simp] lemma deleteInstance_deletions {zone : Option String} :
    (s.deleteInstance zone).deletions = s.deletions := by
  unfold deleteInstance
  split_ifs <;> rfl

@[simp] lemma deleteInstance_made {zone : Option String} :
    (s.deleteInstance zone).made = s.made := by
  unfold deleteInstance
  split_ifs <;> rfl

/-- A call of the provider has found the VM, or has come too early. -/
lemma called_or_early_deleteInstance (zone : Option String) :
    (s.deleteInstance zone).called = true ∨
      ((s.deleteInstance zone).early = true ∧ (s.deleteInstance zone).made = false) := by
  unfold deleteInstance
  split_ifs with hmade
  · exact .inl rfl
  · exact .inr ⟨rfl, by simpa using hmade⟩

lemma grows_deleteInstance (zone : Option String) : s.Grows (s.deleteInstance zone) := by
  unfold deleteInstance
  split_ifs
  · exact ⟨id, fun _ => rfl, id⟩
  · exact ⟨id, id, fun _ => rfl⟩

lemma Heard.mono {t : Site κ} {d : Deletion} (h : s.Heard d) (hgrows : s.Grows t) :
    t.Heard d := by
  cases d with
  | mark _ | call _ | check _ => trivial
  | reap _ => exact hgrows.made h
  | reaped => exact hgrows.called h
  | missing made =>
    cases made with
    | true => exact hgrows.called h
    | false => exact hgrows.early h

end Updates

/-! ### The steps -/

section Steps

variable {s} {t : Site κ} {a : SiteEvent κ}

/-- A step of `Node.start` after which it is still to go on. -/
lemma Accounted.of_goes_on (h : s.Accounted) (hgrows : s.Grows t)
    (hended : t.NodeEnded → s.NodeEnded) (hdel : t.deletions = s.deletions)
    (hdeletes : s.starter.Deletes = false) (hgo : t.starter ≠ .finished) : t.Accounted where
  covered ht := by
    rcases h.covered (hended ht) with hc | ⟨d, hd, hahead⟩ | hs | ⟨he, -⟩
    · exact .inl (hgrows.called hc)
    · exact .inr (.inl ⟨d, by rwa [hdel], hahead⟩)
    · rw [hdeletes] at hs
      cases hs
    · exact .inr (.inr (.inr ⟨hgrows.early he, .inl hgo⟩))
  heard d hd := (h.heard d (hdel ▸ hd)).mono hgrows

/-- A step of `Node.start` that ends it, and leaves the VM alone. -/
lemma Accounted.of_finishes (h : s.Accounted) (hdeletes : s.starter.Deletes = false)
    (hsound : s.NodeEnded → s.early = false) :
    ({ s with starter := .finished } : Site κ).Accounted where
  covered ht := by
    rcases h.covered ht with hc | hd | hs | ⟨he, -⟩
    · exact .inl hc
    · exact .inr (.inl hd)
    · rw [hdeletes] at hs
      cases hs
    · rw [hsound ht] at he
      cases he
  heard := h.heard

/-- A call of the provider covers the node, whatever the head says of it. -/
lemma covered_of_deleteInstance (zone : Option String)
    (hcalled : t.called = (s.deleteInstance zone).called)
    (hearly : t.early = (s.deleteInstance zone).early)
    (hmade : t.made = (s.deleteInstance zone).made) : t.Covered := by
  rcases called_or_early_deleteInstance (s := s) zone with hc | ⟨he, hm⟩
  · exact .inl (hcalled.trans hc)
  · exact .inr (.inr (.inr ⟨hearly.trans he, .inr (hmade.trans hm)⟩))

/-- A step of the clean-up. -/
lemma Accounted.of_cleanUp (h : s.Accounted) (hstep : s.cleanUp = some t) : t.Accounted := by
  unfold cleanUp at hstep
  split at hstep
  · cases hstep
    exact ⟨fun _ => .inr (.inr (.inl rfl)), h.heard⟩
  · cases hstep
    exact ⟨fun _ => .inr (.inr (.inl rfl)), h.heard⟩
  · cases hstep
    refine ⟨fun _ => covered_of_deleteInstance s.selfZone rfl rfl rfl, fun d hd => ?_⟩
    have hd' : d ∈ s.deletions := by simpa using hd
    have hgrows := grows_deleteInstance (s := s) s.selfZone
    exact (h.heard d hd').mono ⟨hgrows.made, hgrows.called, hgrows.early⟩
  · cases hstep

/-- `Node.delete` begins, whatever has been written of the node for it. -/
lemma Accounted.of_add (h : s.Accounted) (hgrows : s.Grows t) (hdel : t.deletions = s.deletions)
    (zone : Option String) : (t.add (.mark zone)).Accounted where
  covered _ := .inr (.inl ⟨_, List.mem_append_right _ (List.mem_singleton.2 rfl), rfl⟩)
  heard e he := by
    rcases List.mem_append.1 he with he | he
    · exact (h.heard e (hdel ▸ he)).mono ⟨hgrows.made, hgrows.called, hgrows.early⟩
    · rw [List.mem_singleton.1 he]
      trivial

/-- The reaper has the node among its candidates. -/
lemma Accounted.of_reaper (h : s.Accounted) (zone : Option String) :
    (s.add (.check zone)).Accounted where
  covered ht := by
    rcases h.covered ht with hc | ⟨d, hd, hahead⟩ | hs
    · exact .inl hc
    · exact .inr (.inl ⟨d, List.mem_append_left _ hd, hahead⟩)
    · exact .inr (.inr hs)
  heard e he := by
    rcases List.mem_append.1 he with he | he
    · exact h.heard e he
    · rw [List.mem_singleton.1 he]
      trivial

lemma grows_proceed (d : Deletion) : s.Grows (s.proceed d).1 := by
  cases d with
  | mark _ | reaped | missing _ => exact ⟨id, id, id⟩
  | call zone | reap zone => exact grows_deleteInstance zone
  | check zone =>
    unfold proceed
    split_ifs
    · exact ⟨id, id, id⟩
    · exact ⟨id, id, fun h => by simp [h]⟩

lemma starter_proceed (d : Deletion) : (s.proceed d).1.starter = s.starter := by
  cases d with
  | mark _ | reaped | missing _ => rfl
  | call _ | reap _ => simp [proceed]
  | check zone =>
    unfold proceed
    split_ifs <;> rfl

/-- What a deletion goes on with is right about the VM. -/
lemma heard_proceed {d : Deletion} (h : s.Heard d) :
    ∀ e ∈ (s.proceed d).2, (s.proceed d).1.Heard e := by
  intro e he
  cases d with
  | mark zone =>
    obtain rfl : Deletion.call zone = e := by simpa [proceed] using he
    trivial
  | call _ | reaped | missing _ => cases he
  | reap zone =>
    obtain rfl : Deletion.reaped = e := by simpa [proceed] using he
    have hmade : s.made = true := h
    simp [proceed, deleteInstance, hmade, Heard]
  | check zone =>
    unfold proceed at he ⊢
    split_ifs at he ⊢ with hvm
    · obtain rfl : Deletion.reap zone = e := by simpa using he
      exact (Bool.and_eq_true_iff.1 hvm).1
    · obtain rfl : Deletion.missing s.made = e := by simpa using he
      cases hmade : s.made with
      | false => simp [Heard]
      | true => simpa [vmExists, hmade, Heard] using hvm

/-- After the move of a deletion an ended node is still covered. -/
lemma covered_proceed (h : s.Accounted) {d : Deletion} {rest : List Deletion}
    (hperm : s.deletions.Perm (d :: rest)) (hsound : d = .missing false → s.made = false)
    (hstarter : t.starter = s.starter) (hmade : t.made = (s.proceed d).1.made)
    (hcalled : t.called = (s.proceed d).1.called) (hearly : t.early = (s.proceed d).1.early)
    (hended : t.NodeEnded → (s.proceed d).1.NodeEnded)
    (hdel : t.deletions = rest ++ (s.proceed d).2.toList) (ht : t.NodeEnded) : t.Covered := by
  cases d with
  | mark zone => exact .inr (.inl ⟨.call zone, by simp [hdel, proceed], rfl⟩)
  | call zone | reap zone => exact covered_of_deleteInstance zone hcalled hearly hmade
  | reaped =>
    have hheard : s.called = true := h.heard .reaped (hperm.symm.subset List.mem_cons_self)
    exact .inl (hcalled.trans hheard)
  | missing made =>
    have hheard := h.heard (.missing made) (hperm.symm.subset List.mem_cons_self)
    cases made with
    | true => exact .inl (hcalled.trans hheard)
    | false => exact .inr (.inr (.inr ⟨hearly.trans hheard, .inr (hmade.trans (hsound rfl))⟩))
  | check zone =>
    have hs : s.NodeEnded := by
      have := hended ht
      unfold proceed at this
      split_ifs at this <;> exact this
    have hgrows := grows_proceed (s := s) (.check zone)
    have hmade' : t.made = s.made := by
      rw [hmade]
      unfold proceed
      split_ifs <;> rfl
    rcases h.covered hs with hc | ⟨e, he, hahead⟩ | hd | ⟨he, hgo⟩
    · exact .inl (hcalled.trans (hgrows.called hc))
    · rcases List.mem_cons.1 (hperm.subset he) with rfl | he
      · cases hahead
      · exact .inr (.inl ⟨e, by rw [hdel]; exact List.mem_append_left _ he, hahead⟩)
    · exact .inr (.inr (.inl (by rwa [hstarter])))
    · exact .inr (.inr (.inr ⟨hearly.trans (hgrows.early he), by rwa [hstarter, hmade']⟩))

lemma Accounted.of_proceed (h : s.Accounted) {d : Deletion} {rest : List Deletion}
    (hperm : s.deletions.Perm (d :: rest)) (hsound : d = .missing false → s.made = false) :
    ({ (s.proceed d).1 with deletions := rest ++ (s.proceed d).2.toList } : Site κ).Accounted where
  covered :=
    covered_proceed h hperm hsound (starter_proceed d) rfl rfl rfl id rfl
  heard e he := by
    have hgrows := grows_proceed (s := s) d
    rcases List.mem_append.1 he with he | he
    · have he' : e ∈ s.deletions := hperm.symm.subset (List.mem_cons_of_mem _ he)
      exact (h.heard e he').mono ⟨hgrows.made, hgrows.called, hgrows.early⟩
    · have hd := h.heard d (hperm.symm.subset List.mem_cons_self)
      exact (heard_proceed hd e (by simpa using he)).mono ⟨id, id, id⟩

/-- What a verdict of the loop is, when it leaves the VM alone. -/
lemma sound_of_judge {status : NodeStatus} {tooLong : Bool}
    (hstarter : s.starter = .polled status tooLong) (hok : s.Sound .judge)
    (hfinished : s.judge status tooLong = .finished) (hs : s.NodeEnded) :
    s.early = false := by
  refine hok.1 ?_
  have hs' : Ended s.status = true := hs
  simp [LeavesEnded, hstarter, hfinished, hs']

/-- **No step loses track of an ended node's VM.** -/
theorem Accounted.step (h : s.Accounted) (hok : s.Sound a) (hstep : s.step a = some t) :
    t.Accounted := by
  cases a with
  | start machineType job =>
    simp only [Site.step] at hstep
    split_ifs at hstep with hidle
    cases hstep
    refine h.of_goes_on ⟨id, id, id⟩ (nodeEnded_of_updateNode ?_) rfl
      (by simp [hidle, StartPhase.Deletes]) nofun
    rintro new ⟨⟩
    rfl
  | takeEffect =>
    simp only [Site.step] at hstep
    split_ifs at hstep with hcreating
    cases hstep
    refine h.of_goes_on ⟨fun _ => rfl, id, id⟩ id rfl
      (by simp [hcreating.1, StartPhase.Deletes]) ?_
    simp [hcreating.1]
  | createReturns addresses =>
    simp only [Site.step] at hstep
    split_ifs at hstep with hcreating
    cases hstep
    exact h.of_goes_on ⟨id, id, id⟩ id rfl (by simp [hcreating.1, StartPhase.Deletes]) nofun
  | createRaises =>
    simp only [Site.step] at hstep
    split_ifs at hstep with hcreating
    cases hstep
    exact h.of_goes_on ⟨id, id, id⟩ id rfl (by simp [hcreating, StartPhase.Deletes]) nofun
  | writeHost =>
    simp only [Site.step] at hstep
    split at hstep
    · rename_i addresses hcreated
      cases hstep
      refine h.of_goes_on ⟨id, id, id⟩ (nodeEnded_of_updateNode nofun) rfl
        (by simp [hcreated, StartPhase.Deletes]) nofun
    · cases hstep
  | poll status tooLong =>
    simp only [Site.step] at hstep
    split at hstep
    · rename_i hlooking
      split_ifs at hstep with hup
      · cases hstep
        refine h.of_finishes (by simp [hlooking, StartPhase.Deletes]) fun hs => hok.1 ?_
        have hs' : Ended s.status = true := hs
        simp [LeavesEnded, hlooking, hup, hs']
      · cases hstep
        exact h.of_goes_on ⟨id, id, id⟩ id rfl (by simp [hlooking, StartPhase.Deletes]) nofun
    · rename_i hlooping
      cases hstep
      exact h.of_goes_on ⟨id, id, id⟩ id rfl (by simp [hlooping, StartPhase.Deletes]) nofun
    · cases hstep
  | pollRaises =>
    simp only [Site.step] at hstep
    split_ifs at hstep with hpolling
    cases hstep
    refine h.of_goes_on ⟨id, id, id⟩ id rfl ?_ nofun
    rcases hpolling with hp | hp <;> simp [hp, StartPhase.Deletes]
  | judge =>
    simp only [Site.step] at hstep
    split at hstep
    · rename_i status tooLong hpolled
      cases hstep
      have hdeletes : s.starter.Deletes = false := by simp [hpolled, StartPhase.Deletes]
      by_cases hfinished : s.judge status tooLong = .finished
      · rw [hfinished]
        exact h.of_finishes hdeletes (sound_of_judge hpolled hok hfinished)
      · exact h.of_goes_on ⟨id, id, id⟩ id rfl hdeletes hfinished
    · cases hstep
  | cleanUp => exact h.of_cleanUp hstep
  | push status =>
    simp only [Site.step] at hstep
    split_ifs at hstep with hpush
    cases hstep
    have hended : (s.updateNode (.ofStatus status)).NodeEnded → s.NodeEnded := by
      refine nodeEnded_of_updateNode ?_
      rintro new ⟨⟩
      exact hpush.2
    exact ⟨fun ht => h.covered (hended ht), h.heard⟩
  | shutdown =>
    simp only [Site.step] at hstep
    split_ifs at hstep with hactive
    cases hstep
    exact h.of_add (t := s.updateNode {}) ⟨id, id, id⟩ rfl s.zone
  | dashboard =>
    simp only [Site.step] at hstep
    split_ifs at hstep with hthere
    cases hstep
    exact h.of_add ⟨id, id, id⟩ rfl s.zone
  | clientFail =>
    cases hstep
    exact h.of_add (t := s.updateNode (.ofStatus .failed)) ⟨id, id, id⟩ rfl s.zone
  | scopeFinished =>
    simp only [Site.step] at hstep
    split_ifs at hstep with hactive
    cases hstep
    exact h.of_add (t := s.updateNode (.ofStatus .deleted)) ⟨id, id, id⟩ rfl s.zone
  | reaper =>
    simp only [Site.step] at hstep
    split_ifs at hstep with hactive
    cases hstep
    exact h.of_reaper s.zone
  | proceed n =>
    simp only [Site.step] at hstep
    split at hstep
    · cases hstep
    · rename_i d rest htake
      cases hstep
      refine h.of_proceed (takeAt_perm htake) ?_
      rintro rfl
      have hmiss : s.MissesNewVm (.proceed n : SiteEvent κ) = false := hok.2
      simpa [MissesNewVm, getElem?_of_takeAt htake] using hmiss
  | removeFailed =>
    simp only [Site.step] at hstep
    split_ifs at hstep with hfailed
    cases hstep
    refine ⟨fun ht => ?_, h.heard⟩
    cases ht

end Steps

lemma invariant_accounted : (sys (κ := κ)).Invariant Sound Accounted where
  init s hs := by
    obtain rfl : s = new := hs
    exact ⟨nofun, nofun⟩
  step _ _ _ h hok hstep := h.step hok hstep

/-- Up to the cloud's answer, with a deletion from the dashboard that has written DELETED. -/
def bootAndDelete : List (SiteEvent Unit) :=
  [.start "n2-standard-4" none, .dashboard, .proceed 0]

/-- From the cloud's answer to the exit of `Node.start` for a node deleted mid-boot. -/
def answerAndExit : List (SiteEvent Unit) :=
  [.createReturns ⟨some "https://node.relay", none, some "10.0.0.2", some "us-central1-a"⟩,
    .writeHost, .poll .booting false, .poll .booting false, .judge]

/-- The VM is made before the deletion calls the provider. -/
def deletedInTime : Site Unit :=
  (((sys (κ := Unit)).guarded Sound).exec new
    (bootAndDelete ++ [.takeEffect, .proceed 0] ++ answerAndExit)).get (by decide +kernel)

/-- The deletion calls the provider first, and the VM is made then. -/
def deletedTooEarly : Site Unit :=
  (((sys (κ := Unit)).guarded System.always).exec new
    (bootAndDelete ++ [.proceed 0, .takeEffect] ++ answerAndExit)).get (by decide +kernel)

end Site

end Burla.Instances
