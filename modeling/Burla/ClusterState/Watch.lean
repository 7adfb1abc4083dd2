/-
Watching the cluster: `watch_cluster`, `_cluster_watch_dto` and `_cluster_dto` (management.py),
with the events that `update_node`, `remove_node`, `admit_job` and `update_job` publish
(cluster_state.py).

The calls publish after they have let go of the lock, so the events of two calls may come in the
other order than their changes; the writes to the history that come before succeed.  The stream
does not read the events: each makes it look at the nodes again, first at the list of them and
then, for the counts, a second time.

The main result is `Burla.ClusterState.Watching.watch_settles`: however calls and events cross, when
no event is on its way and the stream waits, what it has shown last of the active nodes, and their
counts, is as in the head's table.
-/
import Burla.ClusterState.Nodes
import Burla.Lib.Signals
import Burla.Lib.System

namespace Burla.ClusterState

open Burla.Assign (NodeStatus)

variable {κ ι : Type*}

/-! ### What is shown -/

/-- BOOTING, READY and RUNNING. -/
def isActive : NodeStatus → Bool
  | .booting | .ready | .running => true
  | .failed | .deleted => false

/-- `_node_dto`, as far as events tell of it. -/
structure NodeItem (κ ι : Type*) where
  nodeId : ι
  status : NodeStatus
  currentJobId : Option κ
  deriving DecidableEq

/-- What is shown of a row, if its node is active. -/
def activeItem (e : ι × NodeRow κ) : Option (NodeItem κ ι) :=
  (e.2.status.filter isActive).map fun status => ⟨e.1, status, e.2.currentJob⟩

/-- The active nodes. -/
def activeNodes (nodes : Dict ι (NodeRow κ)) : List (NodeItem κ ι) :=
  nodes.items.filterMap activeItem

inductive ClusterStatus
  | running
  | ready
  | booting
  | off
  deriving DecidableEq

/-- `_cluster_dto`, as far as it counts nodes. -/
structure ClusterDto where
  status : ClusterStatus
  nodeCounts : Dict NodeStatus ℕ

/-- `_cluster_dto` -/
def clusterDto (items : List (NodeItem κ ι)) : ClusterDto where
  status :=
    if items.any (·.status = .running) then .running
    else if items.any (·.status = .ready) then .ready
    else if items = [] then .off
    else .booting
  nodeCounts := items.foldl
    (fun counts item => counts.set item.status ((counts.get item.status).getD 0 + 1)) .empty

/-- `_cluster_watch_dto` -/
structure WatchDto (κ ι : Type*) where
  cluster : ClusterDto
  nodes : List (NodeItem κ ι)

/-- What there is to be shown. -/
def watchDto (nodes : Dict ι (NodeRow κ)) : WatchDto κ ι :=
  ⟨clusterDto (activeNodes nodes), activeNodes nodes⟩

/-! ### The stream -/

/-- Where the stream stands. -/
inductive WatchPhase (κ ι : Type*)
  | absent
  /-- `_cluster_watch_dto` is called. -/
  | reading
  /-- It has listed the active nodes, and has yet to count them. -/
  | listed (active : List (NodeItem κ ι))
  /-- What has been read is shown; the stream waits for an event. -/
  | waiting
  | closed

/-- The stream's queue is in `_node_event_queues`. -/
def WatchPhase.isSubscribed : WatchPhase κ ι → Bool
  | .absent | .closed => false
  | .reading | .listed _ | .waiting => true

/-- The head's table, and one stream. -/
structure Watching (κ ι : Type*) where
  nodes : Dict ι (NodeRow κ)
  /-- The events for the stream. -/
  events : Signals
  phase : WatchPhase κ ι
  /-- What has been shown last. -/
  shown : Option (WatchDto κ ι)

inductive WatchEvent (κ ι : Type*)
  /-- `update_node`; `host` is whether the host is among the updates. -/
  | update (name : ι) (u : NodeUpdates κ) (host : Bool)
  /-- `remove_node` -/
  | remove (name : ι)
  /-- `admit_job` reserves nodes. -/
  | admitJob (job : κ) (names : List ι) (now : ℚ)
  /-- `update_job` gives back the nodes of an ended job. -/
  | release (job : κ)
  /-- A call makes one of its publications. -/
  | publish
  /-- An event is put into the stream's queue. -/
  | put
  | subscribe
  | list
  | count
  /-- The stream takes an event. -/
  | take
  /-- No event has come for some time. -/
  | keepalive
  | close

/-- Whether `update_node` publishes an event. -/
def NodeRow.publishes (row : NodeRow κ) (u : NodeUpdates κ) (host : Bool) : Bool :=
  row.newStatus u ≠ row.status || host || u.currentJob.isSome

/-- The nodes that `update_job` gives back. -/
def reservedNames [DecidableEq κ] (nodes : Dict ι (NodeRow κ)) (job : κ) : List ι :=
  (nodes.items.filter fun e => e.2.reservedForJob = some job).map Prod.fst

namespace Watching

variable [DecidableEq κ] [DecidableEq ι] (s : Watching κ ι)

def step : WatchEvent κ ι → Option (Watching κ ι)
  | .update name u host =>
    let row := (s.nodes.get name).getD NodeRow.new
    some { s with
      nodes := updateNode s.nodes name u
      events := s.events.announce (if row.publishes u host then 1 else 0) }
  | .remove name =>
    some { s with
      nodes := s.nodes.pop name
      events := s.events.announce (if (s.nodes.get name).isSome then 1 else 0) }
  | .admitJob job names now =>
    (admitNodes s.nodes job names now).map fun nodes =>
      { s with nodes, events := s.events.announce names.length }
  | .release job =>
    some { s with
      nodes := s.nodes.mapValues fun row => row.release job
      events := s.events.announce (reservedNames s.nodes job).length }
  | .publish => (s.events.publish s.phase.isSubscribed).map fun events => { s with events }
  | .put => s.events.put.map fun events => { s with events }
  | .subscribe =>
    match s.phase with
    | .absent => some { s with phase := .reading }
    | _ => none
  | .list =>
    match s.phase with
    | .reading => some { s with phase := .listed (activeNodes s.nodes) }
    | _ => none
  | .count =>
    match s.phase with
    | .listed active =>
      some { s with
        phase := .waiting
        shown := some ⟨clusterDto (activeNodes s.nodes), active⟩ }
    | _ => none
  | .take =>
    match s.phase with
    | .waiting => s.events.take.map fun events => { s with events, phase := .reading }
    | _ => none
  | .keepalive =>
    match s.phase with
    | .waiting => some s
    | _ => none
  | .close => if s.phase.isSubscribed = true then some { s with phase := .closed } else none

/-- A head at which nobody watches yet. -/
def sys (κ ι : Type*) [DecidableEq κ] [DecidableEq ι] : System (Watching κ ι) (WatchEvent κ ι) where
  init s := s.events = .none ∧ s.phase = .absent
  step s := s.step

end Watching

/-! ### Changes that are not published -/

section Unpublished

variable {nodes nodes' : Dict ι (NodeRow κ)} {name : ι}
  {row row' : NodeRow κ} {u : NodeUpdates κ} {host : Bool} {job : κ} {names : List ι} {now : ℚ}

/-- An update that is not published changes nothing of what is shown. -/
lemma activeItem_update (h : row.publishes u host = false) :
    activeItem (name, row.update u) = activeItem (name, row) := by
  simp only [NodeRow.publishes, Bool.or_eq_false_iff, decide_eq_false_iff_not, not_not] at h
  obtain ⟨⟨hstatus, -⟩, hjob⟩ := h
  have hkept : (row.update u).currentJob = row.currentJob := by
    show u.currentJob.getD _ = _
    cases hu : u.currentJob with
    | none => rfl
    | some job => simp [hu] at hjob
  rw [activeItem, activeItem]
  show Option.map _ (Option.filter _ (row.newStatus u)) = _
  rw [hstatus, hkept]

lemma activeNodes_updateNode [DecidableEq ι]
    (h : ((nodes.get name).getD NodeRow.new).publishes u host = false) :
    activeNodes (updateNode nodes name u) = activeNodes nodes := by
  rw [activeNodes, updateNode]
  refine Dict.filterMap_set (fun row hrow => ?_) fun hnone => ?_
  · rw [hrow] at h ⊢
    exact activeItem_update h
  · rw [hnone] at h ⊢
    exact activeItem_update h

lemma activeNodes_release [DecidableEq κ] :
    activeNodes (nodes.mapValues fun row => row.release job) = activeNodes nodes := by
  show (nodes.items.map _).filterMap activeItem = _
  rw [List.filterMap_map, activeNodes]
  refine List.filterMap_congr fun e _ => ?_
  show activeItem (e.1, e.2.release job) = activeItem e
  rw [activeItem, activeItem, NodeRow.release_status, NodeRow.release_currentJob]

lemma activeNodes_admitNodes [DecidableEq κ] [DecidableEq ι]
    (h : admitNodes nodes job names now = some nodes')
    (hnames : names.length = 0) : activeNodes nodes' = activeNodes nodes := by
  obtain rfl := List.length_eq_zero_iff.1 hnames
  rw [admitNodes, if_pos (fun name hname => absurd hname List.not_mem_nil)] at h
  obtain rfl := Option.some.inj h
  rfl

end Unpublished

/-! ### Along a run -/

namespace Watching

variable {s t : Watching κ ι} {e : WatchEvent κ ι}

/-- What a stream has read so far is covered, in each of its two parts. -/
def Current (s : Watching κ ι) : Prop :=
  match s.phase with
  | .listed active => s.events.Covers active (activeNodes s.nodes)
  | .waiting => ∃ dto, s.shown = some dto ∧ s.events.Covers dto.nodes (activeNodes s.nodes) ∧
      s.events.Covers dto.cluster (clusterDto (activeNodes s.nodes))
  | .absent | .reading | .closed => True

/-- What has been read stays covered when its nodes stay as they are, or an event is on its way. -/
lemma Current.of_change (h : s.Current) (hphase : t.phase = s.phase) (hshown : t.shown = s.shown)
    (hpending : s.phase.isSubscribed = true → s.events.Pending → t.events.Pending)
    (hnodes : activeNodes t.nodes = activeNodes s.nodes ∨ t.events.Pending) : t.Current := by
  unfold Current at h ⊢
  rw [hphase, hshown]
  cases hs : s.phase with
  | listed active =>
    rw [hs] at h hpending
    exact h.of_change (hpending rfl) hnodes
  | waiting =>
    rw [hs] at h hpending
    obtain ⟨dto, hdto, hitems, hcluster⟩ := h
    exact ⟨dto, hdto, hitems.of_change (hpending rfl) hnodes,
      hcluster.of_change (hpending rfl) (hnodes.imp_left (congrArg _))⟩
  | absent | reading | closed => trivial

variable [DecidableEq κ] [DecidableEq ι]

lemma Current.step (h : s.Current) (hstep : s.step e = some t) : t.Current := by
  cases e with
  | update name u host =>
    obtain rfl := Option.some.inj hstep
    refine h.of_change rfl rfl (fun _ hpending => hpending.announce _) ?_
    cases hpub : ((s.nodes.get name).getD NodeRow.new).publishes u host with
    | false => exact .inl (activeNodes_updateNode hpub)
    | true =>
      refine .inr (Signals.pending_announce ?_)
      exact Nat.one_pos
  | remove name =>
    obtain rfl := Option.some.inj hstep
    refine h.of_change rfl rfl (fun _ hpending => hpending.announce _) ?_
    cases hget : s.nodes.get name with
    | none => exact .inl (congrArg activeNodes (Dict.pop_of_get_eq_none hget))
    | some row =>
      refine .inr (Signals.pending_announce ?_)
      exact Nat.one_pos
  | admitJob job names now =>
    obtain ⟨nodes, hnodes, rfl⟩ := Option.map_eq_some_iff.1 hstep
    refine h.of_change rfl rfl (fun _ hpending => hpending.announce _) ?_
    rcases Nat.eq_zero_or_pos names.length with hzero | hpos
    · exact .inl (activeNodes_admitNodes hnodes hzero)
    · exact .inr (Signals.pending_announce hpos)
  | release job =>
    obtain rfl := Option.some.inj hstep
    exact h.of_change rfl rfl (fun _ hpending => hpending.announce _) (.inl activeNodes_release)
  | publish =>
    obtain ⟨events, hevents, rfl⟩ := Option.map_eq_some_iff.1 hstep
    refine h.of_change rfl rfl (fun hsubscribed _ => ?_) (.inl rfl)
    rw [hsubscribed] at hevents
    exact Signals.pending_publish hevents
  | put =>
    obtain ⟨events, hevents, rfl⟩ := Option.map_eq_some_iff.1 hstep
    exact h.of_change rfl rfl (fun _ _ => Signals.pending_put hevents) (.inl rfl)
  | subscribe =>
    simp only [Watching.step] at hstep
    split at hstep
    · obtain rfl := Option.some.inj hstep
      trivial
    · cases hstep
  | list =>
    simp only [Watching.step] at hstep
    split at hstep
    · obtain rfl := Option.some.inj hstep
      exact Signals.covers_self _ _
    · cases hstep
  | count =>
    simp only [Watching.step] at hstep
    split at hstep
    · rename_i active hphase
      obtain rfl := Option.some.inj hstep
      unfold Current at h
      rw [hphase] at h
      exact ⟨_, rfl, h, Signals.covers_self _ _⟩
    · cases hstep
  | take =>
    simp only [Watching.step] at hstep
    split at hstep
    · obtain ⟨events, -, rfl⟩ := Option.map_eq_some_iff.1 hstep
      trivial
    · cases hstep
  | keepalive =>
    simp only [Watching.step] at hstep
    split at hstep
    · obtain rfl := Option.some.inj hstep
      exact h
    · cases hstep
  | close =>
    simp only [Watching.step] at hstep
    split at hstep
    · obtain rfl := Option.some.inj hstep
      trivial
    · cases hstep

lemma current_invariant : (sys κ ι).Invariant System.always Current where
  init s hs := by
    rw [Current, hs.2]
    trivial
  step _ _ _ h _ hstep := h.step hstep

/-- **A watched cluster settles**: in every run, however the calls' changes, their events and the
stream's reads cross, when no event is on its way and the stream waits, it has shown last what there
is to be shown. -/
theorem watch_settles (hr : (sys κ ι).Reachable System.always s) (hphase : s.phase = .waiting)
    (hevents : s.events = .none) : s.shown = some (watchDto s.nodes) := by
  have hcurrent := current_invariant.reachable hr
  rw [Current, hphase] at hcurrent
  obtain ⟨dto, hdto, hitems, hcluster⟩ := hcurrent
  rw [hdto, watchDto, ← hitems.settled hevents]
  refine congrArg some ?_
  have hsame := hcluster.settled hevents
  rw [← hitems.settled hevents] at hsame
  rw [← hsame]

/-! ### Two nodes -/

section Example

/-- A node boots, is shown and becomes ready; another is deleted before the event of the first has
come, and its own event comes first. -/
def crossing : List (WatchEvent ℕ ℕ) :=
  [.update 0 { status := some .booting } false, .update 1 { status := some .booting } false,
    .publish, .publish, .subscribe, .list, .count,
    .update 0 { status := some .ready } false, .update 1 { status := some .deleted } false,
    .publish, .put, .take, .list, .count, .publish, .put, .take, .list, .count]

def unwatched : Watching ℕ ℕ := ⟨.empty, .none, .absent, none⟩

theorem watch_settles_crossing : ∃ s, (sys ℕ ℕ).exec unwatched crossing = some s ∧
    s.shown = some (watchDto s.nodes) ∧ activeNodes s.nodes = [⟨0, .ready, none⟩] := by
  have hsome : ((sys ℕ ℕ).exec unwatched crossing).isSome = true := by decide +kernel
  have hsettled : ((sys ℕ ℕ).exec unwatched crossing).all fun s =>
      s.events = .none ∧ activeNodes s.nodes = [⟨0, .ready, none⟩] ∧
        (match s.phase with | .waiting => true | _ => false) = true := by decide +kernel
  obtain ⟨s, hexec⟩ := Option.isSome_iff_exists.1 hsome
  rw [hexec] at hsettled
  obtain ⟨hevents, hnodes, hphase⟩ := of_decide_eq_true hsettled
  have hwaiting : s.phase = .waiting := by
    cases hs : s.phase <;> simp [hs] at hphase ⊢
  have hstart : (sys ℕ ℕ).Reachable System.always unwatched := ⟨unwatched, [], ⟨rfl, rfl⟩, .nil⟩
  exact ⟨s, hexec, watch_settles (hstart.exec hexec) hwaiting hevents, hnodes⟩

end Example

end Watching

end Burla.ClusterState
