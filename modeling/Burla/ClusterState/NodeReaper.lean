/-
The node reaper: `node_reaper_loop` (cluster_state.py), beside everything else that writes the
head's node table.

The reaper copies its candidates under the lock, asks the provider region by region which of
their VMs exist, and then deletes them one after another.  It never looks at the table again, so
whatever the table says by the time a node's turn comes is not part of what it decides by.

The main results are

* `Head.reaper_strikes_dead`: a node that the reaper strikes is a candidate still, in every run
  in which no write has made one of the nodes in the reaper's hands alive, or has ended it;
* `Head.alive_of_not_spared`: a write that does so leaves in the reaper's hands a node that is
  no candidate.
-/
import Burla.ClusterState.Nodes
import Burla.Lib.System
import Mathlib.Tactic.Linarith

namespace Burla.ClusterState

open Burla.Assign (NodeStatus)

variable {κ ι : Type*}

/-- `REAPER_NODE_SILENCE_SEC`. -/
def reaperNodeSilenceSec : ℚ := 150

/-- `REAPER_BOOTING_NODE_AGE_SEC`. -/
def reaperBootingNodeAgeSec : ℚ := 15 * 60

namespace NodeRow

variable (row : NodeRow κ) (now : ℚ)

/-- The reaper's rule; it raises on a booting node that does not say since when. -/
def dead : Option Bool :=
  match row.status with
  | some .booting => row.startedBootingAt.map fun t => decide (now - t > reaperBootingNodeAgeSec)
  | some .ready | some .running => some (decide (now - row.lastPushAt.getD 0 > reaperNodeSilenceSec))
  | some .failed | some .deleted | none => some false

/-- The node is what the reaper is after. -/
def Dead : Prop := row.dead now = some true

instance : Decidable (row.Dead now) := inferInstanceAs (Decidable (_ = _))

end NodeRow

/-! ### The loop -/

/-- A candidate: the copy of its row that the reaper has made. -/
abbrev Candidate (κ ι : Type*) := ι × NodeRow κ

/-- The rows that the rule holds of; the first row that it raises on ends the loop. -/
def candidates (now : ℚ) : List (ι × NodeRow κ) → Option (List (Candidate κ ι))
  | [] => some []
  | e :: es =>
    (e.2.dead now).bind fun dead => (candidates now es).map fun l => if dead then e :: l else l

/-- `by_region.setdefault(region, []).append(node)`. -/
def addToRegion (region : String) (e : Candidate κ ι) :
    List (String × List (Candidate κ ι)) → List (String × List (Candidate κ ι))
  | [] => [(region, [e])]
  | (r, es) :: rest =>
    if r = region then (r, es ++ [e]) :: rest else (r, es) :: addToRegion region e rest

/-- The candidates by their regions; one without a region ends the loop. -/
def byRegion (l : List (Candidate κ ι)) : Option (List (String × List (Candidate κ ι))) :=
  l.foldlM (fun regions e => e.2.gcpRegion.map fun region => addToRegion region e regions) []

/-- Where `node_reaper_loop` stands. -/
inductive ReaperPhase (κ ι : Type*)
  | asleep
  /-- Waiting for `existing_instances` of the first region. -/
  | checking (now : ℚ) (regions : List (String × List (Candidate κ ι)))
  /-- At the first of the nodes; `existing` are the VMs of the region that there are. -/
  | deleting (now : ℚ) (existing : List ι) (nodes : List (Candidate κ ι))
      (regions : List (String × List (Candidate κ ι)))
  /-- Waiting for `delete_instance` of `node`. -/
  | awaiting (now : ℚ) (existing : List ι) (node : Candidate κ ι) (nodes : List (Candidate κ ι))
      (regions : List (String × List (Candidate κ ι)))
  /-- An exception has ended the loop. -/
  | raised

namespace ReaperPhase

/-- The candidates that the reaper has still to deal with. -/
def inHand : ReaperPhase κ ι → List (Candidate κ ι)
  | asleep | raised => []
  | checking _ regions => regions.flatMap Prod.snd
  | deleting _ _ nodes regions => nodes ++ regions.flatMap Prod.snd
  | awaiting _ _ node nodes regions => node :: (nodes ++ regions.flatMap Prod.snd)

/-- Their names. -/
def names (phase : ReaperPhase κ ι) : List ι := phase.inHand.map Prod.fst

/-- The reaper goes on to the next region. -/
def nextRegion (now : ℚ) : List (String × List (Candidate κ ι)) → ReaperPhase κ ι
  | [] => asleep
  | regions => checking now regions

/-- The reaper goes on to the next node of the region. -/
def nextNode (now : ℚ) (existing : List ι) (nodes : List (Candidate κ ι))
    (regions : List (String × List (Candidate κ ι))) : ReaperPhase κ ι :=
  match nodes with
  | [] => nextRegion now regions
  | nodes => deleting now existing nodes regions

/-- The reaper is in the middle of a pass and not waiting: no endpoint runs meanwhile, only
other threads do. -/
def busy : ReaperPhase κ ι → Bool
  | deleting .. => true
  | asleep | raised | checking .. | awaiting .. => false

@[simp] lemma inHand_nextRegion (now : ℚ) (regions : List (String × List (Candidate κ ι))) :
    (nextRegion now regions).inHand = regions.flatMap Prod.snd := by
  cases regions <;> rfl

@[simp] lemma inHand_nextNode (now : ℚ) (existing : List ι) (nodes : List (Candidate κ ι))
    (regions : List (String × List (Candidate κ ι))) :
    (nextNode now existing nodes regions).inHand = nodes ++ regions.flatMap Prod.snd := by
  cases nodes with
  | nil => simp [nextNode]
  | cons e es => rfl

end ReaperPhase

/-- The reason that the reaper gives. -/
def reapReason (bootTimedOut vmExisted : Bool) : TerminalReason where
  code :=
    if bootTimedOut then "boot_timeout" else if vmExisted then "silent_vm_deleted" else "vm_missing"
  source := "node_reaper"
  message :=
    if bootTimedOut then "The node did not finish booting before its timeout."
    else if vmExisted then "The node stopped reporting and its VM was deleted."
    else "The node stopped reporting and its VM no longer existed."

/-- What the reaper writes of a candidate. -/
def reapUpdates (now : ℚ) (row : NodeRow κ) (vmExisted : Bool) : NodeUpdates κ where
  status := some .deleted
  endedAt := some now
  terminalReason := some (reapReason (decide (row.status = some .booting)) vmExisted)

/-! ### The head -/

/-- The head, as far as its nodes go. -/
structure Head (κ ι : Type*) where
  nodes : Dict ι (NodeRow κ)
  now : ℚ
  /-- When the reaper's loop was started. -/
  loopStartedAt : ℚ
  reaper : ReaperPhase κ ι

inductive HeadEvent (κ ι : Type*)
  /-- Time passes. -/
  | tick (sec : ℚ)
  /-- `push_node_state`. -/
  | push (name : ι) (body : StateFields κ)
  /-- `Node.start`, under a new name. -/
  | start (name : ι) (region : String) (job : Option κ)
  /-- A boot that has failed, or `fail_cluster_node`. -/
  | fail (name : ι)
  /-- `Node.delete`, `self_delete` or the end of a node's only job. -/
  | delete (name : ι) (reason : Option TerminalReason)
  /-- `remove_node`. -/
  | remove (name : ι)
  /-- `admit_job`. -/
  | reserve (job : κ) (names : List ι)
  /-- `update_job` of an ended job. -/
  | release (job : κ)
  /-- The reaper's sleep is over. -/
  | wake
  /-- The provider has answered, or has failed to. -/
  | exist (answer : Option (List ι))
  /-- The reaper turns to the next node. -/
  | reap
  /-- `delete_instance` has returned, or raised. -/
  | deleted (ok : Bool)

namespace Head

variable [DecidableEq κ] [DecidableEq ι]

/-- The start of a pass, up to its first await. -/
def wake (s : Head κ ι) : Head κ ι :=
  if s.now - s.loopStartedAt < reaperNodeSilenceSec then s
  else
    match (candidates s.now s.nodes.items).bind byRegion with
    | none => { s with reaper := .raised }
    | some regions => { s with reaper := .nextRegion s.now regions }

/-- The reaper writes that a node is gone, and goes on. -/
def mark (s : Head κ ι) (now : ℚ) (existing : List ι) (e : Candidate κ ι)
    (nodes : List (Candidate κ ι)) (regions : List (String × List (Candidate κ ι))) : Head κ ι :=
  { s with
    nodes := updateNode s.nodes e.1 (reapUpdates now e.2 (decide (e.1 ∈ existing)))
    reaper := .nextNode now existing nodes regions }

/-- One step of the head. -/
def step (s : Head κ ι) : HeadEvent κ ι → Option (Head κ ι)
  | .tick sec => if 0 ≤ sec then some { s with now := s.now + sec } else none
  | .push name body =>
    if s.reaper.busy then none
    else some { s with nodes := recordNodePush s.nodes name body.updates s.now }
  | .start name region job =>
    if name ∈ s.nodes.keys then none
    else
      some { s with
        nodes := updateNode s.nodes name
          { status := some .booting
            startedBootingAt := some s.now
            currentJob := some none
            reservedForJob := some job
            jobScopeId := some job
            gcpRegion := some region } }
  | .fail name => some { s with nodes := updateNode s.nodes name { status := some .failed } }
  | .delete name reason =>
    some { s with
      nodes := updateNode s.nodes name
        { status := some .deleted
          endedAt := some s.now
          terminalReason := reason } }
  | .remove name => some { s with nodes := s.nodes.pop name }
  | .reserve job names =>
    (admitNodes s.nodes job names s.now).map fun nodes => { s with nodes }
  | .release job => some { s with nodes := s.nodes.mapValues (NodeRow.release · job) }
  | .wake =>
    match s.reaper with
    | .asleep => some s.wake
    | _ => none
  | .exist answer =>
    match s.reaper with
    | .checking now ((_, nodes) :: regions) =>
      match answer with
      -- the check has failed: this region's nodes are left for the next pass
      | none => some { s with reaper := .nextRegion now regions }
      | some existing => some { s with reaper := .nextNode now existing nodes regions }
    | _ => none
  | .reap =>
    match s.reaper with
    | .deleting now existing (e :: nodes) regions =>
      if e.1 ∈ existing then some { s with reaper := .awaiting now existing e nodes regions }
      else some (s.mark now existing e nodes regions)
    | _ => none
  | .deleted ok =>
    match s.reaper with
    | .awaiting now existing e nodes regions =>
      if ok then some (s.mark now existing e nodes regions)
      else some { s with reaper := .nextNode now existing nodes regions }
    | _ => none

end Head

/-- The head from the start of the reaper's loop on. -/
def headSystem [DecidableEq κ] [DecidableEq ι] : System (Head κ ι) (HeadEvent κ ι) where
  init s := s.reaper = .asleep
  step := Head.step

namespace Head

/-- The node whose VM the reaper has deleted in a step, or that it marks DELETED. -/
def strikes (s : Head κ ι) : HeadEvent κ ι → Option ι
  | .reap =>
    match s.reaper with
    | .deleting _ _ (e :: _) _ => some e.1
    | _ => none
  | .deleted true =>
    match s.reaper with
    | .awaiting _ _ e _ _ => some e.1
    | _ => none
  | _ => none

variable [DecidableEq ι]

/-- A node is a candidate by what the head knows now. -/
def DeadAt (s : Head κ ι) (name : ι) : Prop := ∃ row, s.nodes.get name = some row ∧ row.Dead s.now

/-- A push that leaves the node booting, since too long ago. -/
def KeepsBooting (s : Head κ ι) (name : ι) (body : StateFields κ) : Prop :=
  ∀ row ∈ s.nodes.get name, (row.update body.updates).status = some .booting ∧
    ∃ t ∈ (row.update body.updates).startedBootingAt, s.now - t > reaperBootingNodeAgeSec

instance (s : Head κ ι) (name : ι) (body : StateFields κ) : Decidable (s.KeepsBooting name body) :=
  inferInstanceAs (Decidable (∀ row ∈ s.nodes.get name, _))

/-- No node that the reaper has in hand is heard of, unless it is booting and has been for too
long, and nobody else ends one or takes its row away. -/
def Spared (s : Head κ ι) : HeadEvent κ ι → Prop
  | .push name body => name ∈ s.reaper.names → s.KeepsBooting name body
  | .fail name | .delete name _ | .remove name => name ∉ s.reaper.names
  | _ => True

instance (s : Head κ ι) (e : HeadEvent κ ι) : Decidable (s.Spared e) :=
  match e with
  | .push name body => inferInstanceAs (Decidable (name ∈ s.reaper.names → s.KeepsBooting name body))
  | .fail name | .delete name _ | .remove name => inferInstanceAs (Decidable (name ∉ s.reaper.names))
  | .tick _ | .start .. | .reserve .. | .release _ | .wake | .exist _ | .reap | .deleted _ =>
    .isTrue trivial

end Head

/-! ### The rule -/

namespace NodeRow

variable {row row' : NodeRow κ} {now now' : ℚ}

lemma dead_booting (h : row.status = some .booting) :
    row.Dead now ↔ ∃ t, row.startedBootingAt = some t ∧ now - t > reaperBootingNodeAgeSec := by
  simp [Dead, dead, h]

lemma dead_serving (h : row.status = some .ready ∨ row.status = some .running) :
    row.Dead now ↔ now - row.lastPushAt.getD 0 > reaperNodeSilenceSec := by
  rcases h with h | h <;> simp [Dead, dead, h]

/-- Only nodes that boot, wait or work are ever candidates. -/
lemma Dead.status (h : row.Dead now) :
    row.status = some .booting ∨ row.status = some .ready ∨ row.status = some .running := by
  unfold Dead dead at h
  split at h
  · exact .inl ‹_›
  · exact .inr (.inl ‹_›)
  · exact .inr (.inr ‹_›)
  all_goals simp at h

/-- The rule looks at three fields. -/
lemma Dead.congr (h : row.Dead now) (hstatus : row'.status = row.status)
    (hbooting : row'.startedBootingAt = row.startedBootingAt)
    (hpush : row'.lastPushAt = row.lastPushAt) : row'.Dead now := by
  unfold Dead dead at h ⊢
  rw [hstatus, hbooting, hpush]
  exact h

/-- What is dead stays dead as long as nothing is written. -/
lemma Dead.mono (h : row.Dead now) (hle : now ≤ now') : row.Dead now' := by
  rcases h.status with hs | hs
  · rw [dead_booting hs] at h ⊢
    obtain ⟨t, ht, hage⟩ := h
    exact ⟨t, ht, by linarith⟩
  · rw [dead_serving hs] at h ⊢
    linarith

/-- A node that has just been heard is a candidate only when it has been booting for too long. -/
lemma dead_heard : { row with lastPushAt := some now }.Dead now ↔
    row.status = some .booting ∧
      ∃ t ∈ row.startedBootingAt, now - t > reaperBootingNodeAgeSec := by
  by_cases hs : row.status = some .booting
  · have hbooting : { row with lastPushAt := some now }.status = some .booting := hs
    rw [dead_booting hbooting]
    simp [hs]
  · refine ⟨fun h => ?_, fun h => absurd h.1 hs⟩
    have hserving := h.status.resolve_left hs
    rw [dead_serving hserving] at h
    have hpos : (0 : ℚ) > reaperNodeSilenceSec := by simpa using h
    norm_num [reaperNodeSilenceSec] at hpos

end NodeRow

/-! ### A pass -/

section Pass

variable {now : ℚ} {l c : List (ι × NodeRow κ)}

lemma candidates_sublist (h : candidates now l = some c) : c.Sublist l := by
  induction l generalizing c with
  | nil =>
    obtain rfl : [] = c := by simpa [candidates] using h
    exact List.Sublist.slnil
  | cons e es ih =>
    simp only [candidates, Option.bind_eq_some_iff, Option.map_eq_some_iff] at h
    obtain ⟨dead, -, c', hc', rfl⟩ := h
    cases dead with
    | false => exact (ih hc').cons e
    | true => exact (ih hc').cons_cons e

lemma dead_of_mem_candidates (h : candidates now l = some c) : ∀ e ∈ c, e.2.Dead now := by
  induction l generalizing c with
  | nil =>
    obtain rfl : [] = c := by simpa [candidates] using h
    simp
  | cons e es ih =>
    simp only [candidates, Option.bind_eq_some_iff, Option.map_eq_some_iff] at h
    obtain ⟨dead, hdead, c', hc', rfl⟩ := h
    cases dead with
    | false => exact ih hc'
    | true =>
      rintro e' he'
      rcases List.mem_cons.1 he' with rfl | he'
      · exact hdead
      · exact ih hc' e' he'

lemma addToRegion_perm (region : String) (e : Candidate κ ι)
    (regions : List (String × List (Candidate κ ι))) :
    ((addToRegion region e regions).flatMap Prod.snd).Perm (regions.flatMap Prod.snd ++ [e]) := by
  induction regions with
  | nil => simp [addToRegion]
  | cons r rest ih =>
    obtain ⟨r, es⟩ := r
    rw [addToRegion]
    split_ifs
    · simp only [List.flatMap_cons, List.append_assoc]
      exact (List.perm_append_comm).append_left es
    · simp only [List.flatMap_cons, List.append_assoc]
      exact ih.append_left es

/-- Grouping by region loses no candidate and makes up none. -/
lemma byRegion_perm {acc regions : List (String × List (Candidate κ ι))}
    (h : l.foldlM (fun rs e => e.2.gcpRegion.map fun region => addToRegion region e rs) acc =
      some regions) : (regions.flatMap Prod.snd).Perm (acc.flatMap Prod.snd ++ l) := by
  induction l generalizing acc with
  | nil =>
    obtain rfl : acc = regions := by simpa using h
    simp
  | cons e es ih =>
    rw [List.foldlM_cons] at h
    obtain ⟨acc', hacc', h⟩ := Option.bind_eq_some_iff.1 h
    obtain ⟨region, -, rfl⟩ := Option.map_eq_some_iff.1 hacc'
    have hadd := (addToRegion_perm region e acc).append_right es
    rw [List.append_assoc, List.singleton_append] at hadd
    exact (ih h).trans hadd

end Pass

namespace Head

variable {s t : Head κ ι} {e : HeadEvent κ ι} {name : ι}

/-- What the reaper strikes is in its hands. -/
lemma mem_names_of_strikes (h : s.strikes e = some name) : name ∈ s.reaper.names := by
  unfold strikes at h
  split at h
  · split at h
    · rename_i hphase
      obtain rfl := Option.some.inj h
      simp [hphase, ReaperPhase.names, ReaperPhase.inHand]
    · simp at h
  · split at h
    · rename_i hphase
      obtain rfl := Option.some.inj h
      simp [hphase, ReaperPhase.names, ReaperPhase.inHand]
    · simp at h
  · simp at h

variable [DecidableEq ι]

/-! ### What the reaper has in hand -/

/-- The nodes in the reaper's hands are candidates still, and no node is there twice. -/
structure Hand (s : Head κ ι) : Prop where
  dead : ∀ name ∈ s.reaper.names, s.DeadAt name
  nodup : s.reaper.names.Nodup

/-- A row that keeps what the rule looks at. -/
lemma DeadAt.of_row {s' : Head κ ι} (h : s.DeadAt name) (hnow : s.now ≤ s'.now)
    (hrow : ∀ row, s.nodes.get name = some row → ∃ row', s'.nodes.get name = some row' ∧
      row'.status = row.status ∧ row'.startedBootingAt = row.startedBootingAt ∧
      row'.lastPushAt = row.lastPushAt) : s'.DeadAt name := by
  obtain ⟨row, hget, hdead⟩ := h
  obtain ⟨row', hget', hs, hb, hp⟩ := hrow row hget
  exact ⟨row', hget', (hdead.congr hs hb hp).mono hnow⟩

/-- Writes to other rows are nothing to a candidate. -/
lemma DeadAt.frame {nodes : Dict ι (NodeRow κ)} (h : s.DeadAt name)
    (hget : nodes.get name = s.nodes.get name) : DeadAt { s with nodes } name := by
  obtain ⟨row, hrow, hdead⟩ := h
  exact ⟨row, hget.trans hrow, hdead⟩

/-- Whether a node is a candidate after a push. -/
lemma deadAt_push {body : StateFields κ} {row : NodeRow κ} (h : s.nodes.get name = some row) :
    DeadAt { s with nodes := recordNodePush s.nodes name body.updates s.now } name ↔
      (row.update body.updates).status = some .booting ∧
        ∃ t ∈ (row.update body.updates).startedBootingAt, s.now - t > reaperBootingNodeAgeSec := by
  have hget : (recordNodePush s.nodes name body.updates s.now).get name =
      some { row.update body.updates with lastPushAt := some s.now } := by
    rw [recordNodePush, get_updateNode, if_pos rfl, h]
    rfl
  rw [← NodeRow.dead_heard]
  constructor
  · rintro ⟨row', hrow', hdead⟩
    obtain rfl := Option.some.inj (hget.symm.trans hrow')
    exact hdead
  · exact fun hdead => ⟨_, hget, hdead⟩

lemma Hand.of_dead (h : s.Hand) (hnames : t.reaper.names = s.reaper.names)
    (hdead : ∀ name ∈ s.reaper.names, s.DeadAt name → t.DeadAt name) : t.Hand where
  dead name hname := by
    rw [hnames] at hname
    exact hdead name hname (h.dead name hname)
  nodup := hnames ▸ h.nodup

/-- The writes that the reaper's hands do not keep from being candidates. -/
lemma Hand.write {nodes : Dict ι (NodeRow κ)} (h : s.Hand)
    (hdead : ∀ name ∈ s.reaper.names, s.DeadAt name → DeadAt { s with nodes } name) :
    Hand { s with nodes } :=
  h.of_dead rfl hdead

/-- A pass takes up exactly what the rule holds of. -/
lemma hand_wake (s : Head κ ι) (hasleep : s.reaper = .asleep) : s.wake.Hand := by
  have hempty : s.Hand := ⟨by simp [hasleep, ReaperPhase.names, ReaperPhase.inHand],
    by simp [hasleep, ReaperPhase.names, ReaperPhase.inHand]⟩
  unfold wake
  split_ifs
  · exact hempty
  split
  · exact ⟨by simp [ReaperPhase.names, ReaperPhase.inHand],
      by simp [ReaperPhase.names, ReaperPhase.inHand]⟩
  · rename_i regions hregions
    obtain ⟨c, hc, hregions⟩ := Option.bind_eq_some_iff.1 hregions
    have hperm : (regions.flatMap Prod.snd).Perm c := by simpa using byRegion_perm hregions
    constructor
    · rintro name hname
      rw [ReaperPhase.names, ReaperPhase.inHand_nextRegion, List.mem_map] at hname
      obtain ⟨e, he, rfl⟩ := hname
      have hec : e ∈ c := hperm.subset he
      exact ⟨e.2, Dict.mem_items.1 ((candidates_sublist hc).subset hec),
        dead_of_mem_candidates hc e hec⟩
    · rw [ReaperPhase.names, ReaperPhase.inHand_nextRegion, (hperm.map Prod.fst).nodup_iff]
      exact ((candidates_sublist hc).map Prod.fst).nodup s.nodes.nodup

/-- The reaper has dealt with some of the nodes. -/
lemma Hand.sublist {reaper : ReaperPhase κ ι} (h : s.Hand)
    (hsub : reaper.inHand.Sublist s.reaper.inHand) : Hand { s with reaper } := by
  have hnames : reaper.names.Sublist s.reaper.names := hsub.map Prod.fst
  exact ⟨fun name hname => h.dead name (hnames.subset hname), hnames.nodup h.nodup⟩

/-- Marking one node leaves the others as they are. -/
lemma Hand.mark {now : ℚ} {existing : List ι} {c : Candidate κ ι} {nodes : List (Candidate κ ι)}
    {regions : List (String × List (Candidate κ ι))} (h : s.Hand)
    (hhand : s.reaper.inHand = c :: (nodes ++ regions.flatMap Prod.snd)) :
    (s.mark now existing c nodes regions).Hand := by
  have hnames : s.reaper.names = c.1 :: (nodes ++ regions.flatMap Prod.snd).map Prod.fst := by
    rw [ReaperPhase.names, hhand, List.map_cons]
  have hnodup := hnames ▸ h.nodup
  rw [List.nodup_cons] at hnodup
  have hrest : (s.mark now existing c nodes regions).reaper.names =
      (nodes ++ regions.flatMap Prod.snd).map Prod.fst := by
    show (ReaperPhase.nextNode now existing nodes regions).names = _
    rw [ReaperPhase.names, ReaperPhase.inHand_nextNode]
  refine ⟨fun name hname => ?_, hrest ▸ hnodup.2⟩
  rw [hrest] at hname
  have hne : name ≠ c.1 := by
    rintro rfl
    exact hnodup.1 hname
  obtain ⟨row, hrow, hdead⟩ := h.dead name (hnames ▸ List.mem_cons_of_mem _ hname)
  exact ⟨row, (get_updateNode_of_ne hne).trans hrow, hdead⟩

variable [DecidableEq κ]

/-- What a step does to the reaper's hands, as long as the nodes in them are spared. -/
lemma Hand.step (h : s.Hand) (hok : s.Spared e) (hstep : s.step e = some t) : t.Hand := by
  cases e with
  | tick sec =>
    simp only [Head.step, Option.ite_none_right_eq_some, Option.some.injEq] at hstep
    obtain ⟨hsec, rfl⟩ := hstep
    refine h.of_dead rfl fun name _ hdead =>
      hdead.of_row ?_ fun row hrow => ⟨row, hrow, rfl, rfl, rfl⟩
    show s.now ≤ s.now + sec
    linarith
  | push name body =>
    simp only [Head.step, Option.ite_none_left_eq_some, Option.some.injEq] at hstep
    obtain ⟨-, rfl⟩ := hstep
    refine h.write fun name' hname' hdead => ?_
    by_cases hne : name' = name
    · subst hne
      obtain ⟨row, hrow, -⟩ := hdead
      exact (deadAt_push hrow).2 (hok hname' row hrow)
    · exact hdead.frame (get_updateNode_of_ne hne)
  | start name region job =>
    simp only [Head.step, Option.ite_none_left_eq_some, Option.some.injEq] at hstep
    obtain ⟨hnew, rfl⟩ := hstep
    refine h.write fun name' _ hdead => hdead.frame (get_updateNode_of_ne ?_)
    rintro rfl
    obtain ⟨row, hrow, -⟩ := hdead
    exact hnew (Dict.mem_keys.2 ⟨row, hrow⟩)
  | fail name =>
    obtain rfl : _ = t := by simpa [Head.step] using hstep
    refine h.write fun name' hname' hdead => hdead.frame (get_updateNode_of_ne ?_)
    rintro rfl
    exact hok hname'
  | delete name reason =>
    obtain rfl : _ = t := by simpa [Head.step] using hstep
    refine h.write fun name' hname' hdead => hdead.frame (get_updateNode_of_ne ?_)
    rintro rfl
    exact hok hname'
  | remove name =>
    obtain rfl : _ = t := by simpa [Head.step] using hstep
    refine h.write fun name' hname' hdead => hdead.frame ?_
    rw [Dict.get_pop, if_neg]
    rintro rfl
    exact hok hname'
  | reserve job names =>
    simp only [Head.step, admitNodes, Option.map_eq_some_iff, Option.ite_none_right_eq_some,
      Option.some.injEq] at hstep
    obtain ⟨nodes, ⟨-, rfl⟩, rfl⟩ := hstep
    refine h.write fun name' _ hdead => hdead.of_row le_rfl fun row hrow => ?_
    refine ⟨_, get_reserve job names hrow, ?_⟩
    split_ifs <;> exact ⟨rfl, rfl, rfl⟩
  | release job =>
    obtain rfl : _ = t := by simpa [Head.step] using hstep
    refine h.write fun name' _ hdead => hdead.of_row le_rfl fun row hrow => ?_
    exact ⟨row.release job, by simp [Dict.get_mapValues, hrow], by simp, by simp, by simp⟩
  | wake =>
    simp only [Head.step] at hstep
    split at hstep
    · obtain rfl : s.wake = t := by simpa using hstep
      exact hand_wake s ‹_›
    · exact absurd hstep (by simp)
  | exist answer =>
    simp only [Head.step] at hstep
    split at hstep
    · rename_i now region nodes regions hphase
      split at hstep
      · obtain rfl : _ = t := by simpa using hstep
        refine h.sublist ?_
        rw [hphase, ReaperPhase.inHand_nextRegion]
        simp [ReaperPhase.inHand]
      · obtain rfl : _ = t := by simpa using hstep
        refine h.sublist ?_
        rw [hphase, ReaperPhase.inHand_nextNode]
        simp [ReaperPhase.inHand]
    · exact absurd hstep (by simp)
  | reap =>
    simp only [Head.step] at hstep
    split at hstep
    · rename_i now existing c nodes regions hphase
      split_ifs at hstep
      · obtain rfl : _ = t := by simpa using hstep
        refine h.sublist ?_
        rw [hphase]
        simp [ReaperPhase.inHand]
      · obtain rfl : _ = t := by simpa using hstep
        exact h.mark (by rw [hphase]; rfl)
    · exact absurd hstep (by simp)
  | deleted ok =>
    simp only [Head.step] at hstep
    split at hstep
    · rename_i now existing c nodes regions hphase
      split_ifs at hstep
      · obtain rfl : _ = t := by simpa using hstep
        exact h.mark (by rw [hphase]; rfl)
      · obtain rfl : _ = t := by simpa using hstep
        refine h.sublist ?_
        rw [hphase, ReaperPhase.inHand_nextNode]
        simp [ReaperPhase.inHand]
    · exact absurd hstep (by simp)

/-- **The reaper's hands hold candidates only**, in every run that spares the nodes in them. -/
lemma hand_invariant : (headSystem (κ := κ) (ι := ι)).Invariant Spared Hand where
  init s hs := by
    obtain hs : s.reaper = .asleep := hs
    exact ⟨by simp [hs, ReaperPhase.names, ReaperPhase.inHand],
      by simp [hs, ReaperPhase.names, ReaperPhase.inHand]⟩
  step _ _ _ h hok hstep := h.step hok hstep

omit [DecidableEq κ] in
/-- A write that ends a node leaves no candidate. -/
lemma not_deadAt_end {u : NodeUpdates κ} {nodes : Dict ι (NodeRow κ)}
    (hstatus : ∃ new, u.status = some new ∧ new.terminal = true)
    (hnodes : nodes = updateNode s.nodes name u) : ¬DeadAt { s with nodes } name := by
  rintro ⟨row, hrow, hdead⟩
  obtain ⟨new, hnew, hterminal⟩ := hstatus
  have hrow : (updateNode s.nodes name u).get name = some row := hnodes ▸ hrow
  rw [get_updateNode, if_pos rfl] at hrow
  obtain rfl := Option.some.inj hrow
  obtain ⟨st, hst, hend⟩ : ∃ st, (((s.nodes.get name).getD NodeRow.new).update u).status = some st ∧
      st.terminal = true :=
    NodeRow.terminal_newStatus hnew hterminal
  rcases hdead.status with h | h | h <;>
    · rw [hst, Option.some.injEq] at h
      rw [h] at hend
      exact absurd hend (by decide)

/-- A step that does not spare the reaper's hands leaves a node in them that is no candidate:
should its turn come next, the reaper strikes a node that its rule does not hold of. -/
theorem alive_of_not_spared (hstep : s.step e = some t) (h : ¬s.Spared e) :
    ∃ name ∈ t.reaper.names, ¬t.DeadAt name := by
  cases e with
  | push name body =>
    simp only [Head.step, Option.ite_none_left_eq_some, Option.some.injEq] at hstep
    obtain ⟨-, rfl⟩ := hstep
    obtain ⟨hname, hkeep⟩ := Classical.not_imp.1 h
    refine ⟨name, hname, ?_⟩
    rintro hdead
    refine hkeep fun row hrow => ?_
    exact (deadAt_push hrow).1 hdead
  | fail name =>
    obtain rfl : _ = t := by simpa [Head.step] using hstep
    exact ⟨name, not_not.1 h, not_deadAt_end ⟨.failed, rfl, rfl⟩ rfl⟩
  | delete name reason =>
    obtain rfl : _ = t := by simpa [Head.step] using hstep
    exact ⟨name, not_not.1 h, not_deadAt_end ⟨.deleted, rfl, rfl⟩ rfl⟩
  | remove name =>
    obtain rfl : _ = t := by simpa [Head.step] using hstep
    refine ⟨name, not_not.1 h, ?_⟩
    rintro ⟨row, hrow, -⟩
    have hrow : (s.nodes.pop name).get name = some row := hrow
    rw [Dict.get_pop, if_pos rfl] at hrow
    cases hrow
  | _ => exact absurd trivial h

/-- **The node reaper kills no live node**: at the moment at which it deletes a VM or marks a
node DELETED, the node is a candidate by what the head knows then, in every run in which the
nodes in the reaper's hands are not heard of, unless they go on booting, and nobody else ends
them. -/
theorem reaper_strikes_dead (hr : headSystem.Reachable Spared s) (h : s.strikes e = some name) :
    s.DeadAt name :=
  (hand_invariant.reachable hr).dead name (mem_names_of_strikes h)

/-! ### Two nodes that have gone silent -/

/-- A node that has been READY and has not been heard for long. -/
def silentRow : NodeRow ℕ :=
  { NodeRow.new with
    status := some .ready
    lastPushAt := some 100
    gcpRegion := some "us-central1" }

/-- A head with two such nodes, at the end of the reaper's sleep. -/
def silentPair : Head ℕ ℕ where
  nodes := (Dict.empty.set 0 silentRow).set 1 silentRow
  now := 1000
  loopStartedAt := 0
  reaper := .asleep

/-- The reaper has deleted the first node's VM and has come to the second node, which has been
silent all along. -/
def secondTurn : Head ℕ ℕ :=
  ((headSystem.guarded Spared).exec silentPair
    [.wake, .exist (some [0, 1]), .reap, .tick 40, .deleted true]).get (by decide +kernel)

/-- The same, but for the second node, which has been heard while the first VM was being
deleted. -/
def secondHeard : Head ℕ ℕ :=
  ((headSystem.guarded System.always).exec silentPair
    [.wake, .exist (some [0, 1]), .reap, .tick 40, .push 1 { status := some .ready },
      .deleted true]).get (by decide +kernel)

theorem reaper_strikes_dead_secondTurn :
    secondTurn.strikes .reap = some 1 ∧ secondTurn.DeadAt 1 := by
  have hrun : headSystem.Run Spared silentPair
      [.wake, .exist (some [0, 1]), .reap, .tick 40, .deleted true] secondTurn :=
    System.run_of_exec_guarded (Option.some_get _).symm
  have hstrikes : secondTurn.strikes .reap = some 1 := by decide +kernel
  exact ⟨hstrikes, reaper_strikes_dead ⟨silentPair, _, rfl, hrun⟩ hstrikes⟩

/-- A node that reports again while the reaper is deleting another one's VM is deleted all the
same. -/
theorem reaper_strikes_alive :
    ¬∀ (s : Head ℕ ℕ) (e : HeadEvent ℕ ℕ) (name : ℕ), headSystem.Reachable System.always s →
      s.strikes e = some name → s.DeadAt name := by
  intro h
  have hrun : headSystem.Run System.always silentPair
      [.wake, .exist (some [0, 1]), .reap, .tick 40, .push 1 { status := some .ready },
        .deleted true] secondHeard :=
    System.run_of_exec_guarded (Option.some_get _).symm
  obtain ⟨row, hrow, hdead⟩ := h secondHeard .reap 1 ⟨silentPair, _, rfl, hrun⟩ (by decide +kernel)
  have halive : ∀ row ∈ secondHeard.nodes.get 1, ¬row.Dead secondHeard.now := by decide +kernel
  exact halive row hrow hdead

end Head

end Burla.ClusterState
