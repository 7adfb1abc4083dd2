/-
The hold that keeps the head's machine awake (keep_awake.py) and the calls of `update_node` and
`remove_node` that take it and let it go (cluster_state.py).

A call decides under the lock of the tables whether there are live nodes, and applies its decision
under another lock, after the first one is released.  Calls of other threads may decide and apply
in between.  The hold is right whenever no call is under way as long as no call overtakes one that
has decided otherwise, and no history write fails that a change of a status waits for
(`hold_follows_nodes`); `hold_lost` is a run with two calls that apply their decisions the other
way round.
-/
import Burla.ClusterState.Persist
import Burla.Lib.System

namespace Burla.ClusterState

variable {κ ι V θ : Type*}

/-! ### keep_awake.py -/

/-- `platform.system()`. -/
inductive Platform
  | darwin
  | windows
  | other
  deriving DecidableEq

/-- The module's state. -/
structure KeepAwake where
  inClientHostedMode : Bool
  disableKeepAwake : Bool
  system : Platform
  /-- The `caffeinate` process, which is there until it is terminated. -/
  caffeinate : Bool
  /-- `_windows_stop`, of the thread that holds the machine. -/
  windowsStop : Bool
  deriving DecidableEq

namespace KeepAwake

variable (k : KeepAwake)

/-- `ENABLED`. -/
def enabled : Bool :=
  k.inClientHostedMode && !k.disableKeepAwake && (k.system = .darwin || k.system = .windows)

/-- `_held`. -/
def held : Bool := if k.system = .darwin then k.caffeinate else k.windowsStop

/-- `set_active`. -/
def setActive (hasLiveNodes : Bool) : KeepAwake :=
  if k.enabled = false then k
  else if hasLiveNodes = true ∧ k.held = false then
    if k.system = .darwin then { k with caffeinate := true } else { k with windowsStop := true }
  else if hasLiveNodes = false ∧ k.held = true then
    if k.system = .darwin then { k with caffeinate := false } else { k with windowsStop := false }
  else k

variable {k} {hasLiveNodes : Bool}

@[simp] lemma enabled_setActive : (k.setActive hasLiveNodes).enabled = k.enabled := by
  unfold setActive
  split_ifs <;> rfl

/-- The hold is what it was last set to. -/
lemma held_setActive (h : k.enabled = true) : (k.setActive hasLiveNodes).held = hasLiveNodes := by
  unfold setActive
  rw [if_neg (by simp [h])]
  split_ifs with htake hsystem hfree hsystem'
  · simp [held, hsystem, htake.1]
  · simp [held, hsystem, htake.1]
  · simp [held, hsystem', hfree.1]
  · simp [held, hsystem', hfree.1]
  · cases hasLiveNodes <;> simp_all

end KeepAwake

/-! ### Live nodes -/

section Live

variable [DecidableEq ι] {nodes nodes' : Dict ι (LiveNode κ V)} {s : Live κ ι V} {name : ι}
  {u : LiveNodeUpdates κ V} {raises : Bool}

lemma hasLiveNodes_iff : Live.hasLiveNodes nodes = true ↔ ∃ name node status,
    nodes.get name = some node ∧ node.row.status = some status ∧ status.terminal = false := by
  simp only [Live.hasLiveNodes, List.any_eq_true, Option.any_eq_true, Bool.not_eq_true',
    Prod.exists, Dict.mem_items]
  constructor
  · rintro ⟨name, node, hnode, status, hstatus, hlive⟩
    exact ⟨name, node, status, hnode, hstatus, hlive⟩
  · rintro ⟨name, node, status, hnode, hstatus, hlive⟩
    exact ⟨name, node, hnode, status, hstatus, hlive⟩

/-- The live nodes are those that are BOOTING, READY or RUNNING. -/
lemma hasLiveNodes_iff_status : Live.hasLiveNodes nodes = true ↔
    ∃ name node, nodes.get name = some node ∧ (node.row.status = some .booting ∨
      node.row.status = some .ready ∨ node.row.status = some .running) := by
  rw [hasLiveNodes_iff]
  constructor
  · rintro ⟨name, node, status, hnode, hstatus, hlive⟩
    refine ⟨name, node, hnode, ?_⟩
    rw [hstatus]
    cases status with
    | booting => exact .inl rfl
    | ready => exact .inr (.inl rfl)
    | running => exact .inr (.inr rfl)
    | failed => cases hlive
    | deleted => cases hlive
  · rintro ⟨name, node, hnode, hstatus | hstatus | hstatus⟩
    · exact ⟨name, node, .booting, hnode, hstatus, rfl⟩
    · exact ⟨name, node, .ready, hnode, hstatus, rfl⟩
    · exact ⟨name, node, .running, hnode, hstatus, rfl⟩

/-- The status of a node, if there is one. -/
def statusOf (nodes : Dict ι (LiveNode κ V)) (name : ι) : Option Assign.NodeStatus :=
  (nodes.get name).bind fun node => node.row.status

lemma hasLiveNodes_iff_statusOf : Live.hasLiveNodes nodes = true ↔
    ∃ name status, statusOf nodes name = some status ∧ status.terminal = false := by
  rw [hasLiveNodes_iff]
  simp only [statusOf, Option.bind_eq_some_iff]
  constructor
  · rintro ⟨name, node, status, hnode, hstatus, hlive⟩
    exact ⟨name, status, ⟨node, hnode, hstatus⟩, hlive⟩
  · rintro ⟨name, status, ⟨node, hnode, hstatus⟩, hlive⟩
    exact ⟨name, node, status, hnode, hstatus, hlive⟩

/-- Whether there are live nodes is a matter of their statuses. -/
lemma hasLiveNodes_congr (h : ∀ name, statusOf nodes name = statusOf nodes' name) :
    Live.hasLiveNodes nodes = Live.hasLiveNodes nodes' := by
  rw [Bool.eq_iff_iff, hasLiveNodes_iff_statusOf, hasLiveNodes_iff_statusOf]
  simp only [h]

/-- A row that keeps its status, or a new one without any, changes no status. -/
lemma statusOf_set {node : LiveNode κ V}
    (h : node.row.status = ((nodes.get name).getD .new).row.status) (name' : ι) :
    statusOf (nodes.set name node) name' = statusOf nodes name' := by
  unfold statusOf
  by_cases hname : name' = name
  · rw [hname, Dict.get_set_self, Option.bind_some, h]
    cases nodes.get name <;> rfl
  · rw [Dict.get_set_of_ne hname]

/-- A call that leaves nothing to `set_active` leaves the live nodes as they are, unless the
history has failed it. -/
lemma hasLiveNodes_updateNode (h : (s.updateNode name u raises).setActive = none)
    (hraises : raises = true → ∀ node, s.nodes.get name = some node →
      ¬node.row.StatusChanged u.row) :
    Live.hasLiveNodes (s.updateNode name u raises).live.nodes = Live.hasLiveNodes s.nodes := by
  generalize hcall : s.updateNode name u raises = call at h ⊢
  rcases Live.updateNode_cases hcall with ⟨hfailed, hlive, -⟩ | ⟨hlive, hset⟩
  · rw [hlive, Live.mutateNode]
    cases hnode : s.nodes.get name with
    | none => rfl
    | some node =>
      refine hasLiveNodes_congr (statusOf_set ?_)
      rw [hnode]
      exact NodeRow.newStatus_eq_iff.2 (hraises hfailed node hnode)
  · rw [hset] at h
    split_ifs at h with hchanged
    rw [hlive]
    exact hasLiveNodes_congr (statusOf_set (NodeRow.newStatus_eq_iff.2 hchanged))

/-- What a call leaves to `set_active` is whether there are live nodes now. -/
lemma setActive_updateNode {b : Bool} (h : (s.updateNode name u raises).setActive = some b) :
    b = Live.hasLiveNodes (s.updateNode name u raises).live.nodes := by
  generalize hcall : s.updateNode name u raises = call at h ⊢
  rcases Live.updateNode_cases hcall with ⟨-, -, hset⟩ | ⟨-, hset⟩
  · rw [hset] at h
    cases h
  · rw [hset] at h
    split_ifs at h
    exact (Option.some.inj h).symm

end Live

/-! ### The calls of the threads -/

/-- The tables, the hold, and the threads that have decided and are about to call `set_active`, in
the order in which they have decided. -/
structure Held (κ ι V θ : Type*) where
  live : Live κ ι V
  keepAwake : KeepAwake
  decided : List (θ × Bool)

inductive HoldEvent (κ ι V θ : Type*)
  /-- A thread calls `update_node` and has released the lock again; `raises` when a write to the
  history does. -/
  | updateNode (thread : θ) (name : ι) (u : LiveNodeUpdates κ V) (raises : Bool)
  /-- A thread calls `remove_node` and has released the lock again. -/
  | removeNode (thread : θ) (name : ι)
  /-- A thread calls `set_active`. -/
  | setActive (thread : θ)

namespace Held

variable [DecidableEq ι] [DecidableEq θ]

/-- What a thread has decided. -/
def decision (s : Held κ ι V θ) (thread : θ) : Option Bool :=
  (s.decided.find? fun d => d.1 = thread).map Prod.snd

/-- Those that have decided before a thread. -/
def before (s : Held κ ι V θ) (thread : θ) : List (θ × Bool) :=
  s.decided.takeWhile fun d => d.1 ≠ thread

def step (s : Held κ ι V θ) : HoldEvent κ ι V θ → Option (Held κ ι V θ)
  | .updateNode thread name u raises =>
    if thread ∈ s.decided.map Prod.fst then none
    else
      let call := s.live.updateNode name u raises
      some { s with
        live := call.live
        decided := s.decided ++ (call.setActive.map fun b => (thread, b)).toList }
  | .removeNode thread name =>
    if thread ∈ s.decided.map Prod.fst then none
    else
      let nodes := s.live.nodes.pop name
      some { s with
        live := { s.live with nodes }
        decided := s.decided ++ [(thread, Live.hasLiveNodes nodes)] }
  | .setActive thread =>
    (s.decision thread).map fun b => { s with
      keepAwake := s.keepAwake.setActive b
      decided := s.decided.eraseP fun d => d.1 = thread }

/-- A head whose hold is enabled, and is right; `load_from_history` leaves it like this. -/
def system : System (Held κ ι V θ) (HoldEvent κ ι V θ) where
  init s := s.keepAwake.enabled = true ∧ s.decided = [] ∧
    s.keepAwake.held = Live.hasLiveNodes s.live.nodes
  step := step

/-- A thread overtakes only those that have decided the same, and the history takes the changes
of statuses. -/
def InOrder (s : Held κ ι V θ) : HoldEvent κ ι V θ → Prop
  | .updateNode _ name u raises =>
    raises = true → ∀ node ∈ s.live.nodes.get name, ¬node.row.StatusChanged u.row
  | .removeNode _ _ => True
  | .setActive thread => ∀ d ∈ s.before thread, s.decision thread = some d.2

instance (s : Held κ ι V θ) : ∀ a, Decidable (s.InOrder a)
  | .updateNode _ name u raises => inferInstanceAs
      (Decidable (raises = true → ∀ node ∈ s.live.nodes.get name, ¬node.row.StatusChanged u.row))
  | .removeNode _ _ => .isTrue trivial
  | .setActive thread => inferInstanceAs
      (Decidable (∀ d ∈ s.before thread, s.decision thread = some d.2))

/-! ### The last decision -/

omit [DecidableEq ι] [DecidableEq θ] in
/-- To take a value from among a list's, past others that are equal to it, to the front leaves the
last one what it is. -/
lemma getLast?_overtake {a b : Bool} {l r : List Bool} (h : ∀ x ∈ l, x = b) :
    (b :: (l ++ r)).getLast? = (a :: (l ++ b :: r)).getLast? := by
  cases r with
  | nil =>
    have hall : ∀ x ∈ b :: l, x = b := by
      rintro x (_ | ⟨_, hx⟩)
      · rfl
      · exact h x hx
    have hlast := hall _ (List.getLast_mem (List.cons_ne_nil b l))
    rw [List.append_nil, List.getLast?_eq_some_getLast (List.cons_ne_nil b l), hlast,
      ← List.cons_append, List.getLast?_concat]
  | cons x r => simp [List.getLast?_cons, List.getLast?_append]

variable {s t : Held κ ι V θ}

omit [DecidableEq ι] in
/-- Where a thread stands that has decided. -/
lemma decided_of_decision {thread : θ} {b : Bool} (h : s.decision thread = some b) :
    ∃ after, s.decided = s.before thread ++ (thread, b) :: after ∧
      s.decided.eraseP (fun d => d.1 = thread) = s.before thread ++ after := by
  obtain ⟨⟨thread', b'⟩, hfind, rfl⟩ := Option.map_eq_some_iff.1 h
  obtain ⟨hthread, as, after, hdecided, has⟩ := List.find?_eq_some_iff_append.1 hfind
  obtain rfl : thread' = thread := by simpa using hthread
  have hbefore : s.before thread' = as := by
    rw [before, hdecided, List.takeWhile_append_of_pos (by simpa using has)]
    simp
  refine ⟨after, by rw [hbefore, hdecided], ?_⟩
  rw [hbefore, hdecided, List.eraseP_append_right _ (by simpa using has)]
  simp

/-- The last decision, made or carried out, is right. -/
structure Sound (s : Held κ ι V θ) : Prop where
  enabled : s.keepAwake.enabled = true
  last : (s.keepAwake.held :: s.decided.map Prod.snd).getLast? =
    some (Live.hasLiveNodes s.live.nodes)

lemma sound_invariant : (system : System (Held κ ι V θ) _).Invariant InOrder Sound where
  init := by
    rintro s ⟨henabled, hdecided, hheld⟩
    refine ⟨henabled, ?_⟩
    rw [hdecided, ← hheld]
    rfl
  step := by
    rintro s a t h hok hstep
    cases a with
    | updateNode thread name u raises =>
      simp only [system, step, Option.ite_none_left_eq_some, Option.some.injEq] at hstep
      obtain ⟨-, rfl⟩ := hstep
      refine ⟨h.enabled, ?_⟩
      cases hcall : (s.live.updateNode name u raises).setActive with
      | none =>
        rw [hasLiveNodes_updateNode hcall hok]
        simpa using h.last
      | some b =>
        rw [← setActive_updateNode hcall]
        simp [List.getLast?_cons]
    | removeNode thread name =>
      simp only [system, step, Option.ite_none_left_eq_some, Option.some.injEq] at hstep
      obtain ⟨-, rfl⟩ := hstep
      refine ⟨h.enabled, ?_⟩
      simp [List.getLast?_cons]
    | setActive thread =>
      simp only [system, step, Option.map_eq_some_iff] at hstep
      obtain ⟨b, hdecision, rfl⟩ := hstep
      obtain ⟨after, hdecided, herase⟩ := decided_of_decision hdecision
      refine ⟨by simpa using h.enabled, ?_⟩
      -- those that are overtaken have decided the same
      have hsame : ∀ x ∈ (s.before thread).map Prod.snd, x = b := by
        intro x hx
        obtain ⟨d, hd, rfl⟩ := List.mem_map.1 hx
        exact Option.some.inj ((hok d hd).symm.trans hdecision)
      show (_ :: (s.decided.eraseP _).map Prod.snd).getLast? = _
      rw [KeepAwake.held_setActive h.enabled, herase, List.map_append, getLast?_overtake hsame,
        ← h.last, hdecided, List.map_append, List.map_cons]

/-- **The hold follows the live nodes** in every run in which a thread overtakes only those that
have decided the same, and in which the history takes the changes of statuses: whenever no call is
under way, the machine is held awake exactly when some node is BOOTING, READY or RUNNING. -/
theorem hold_follows_nodes (h : (system : System (Held κ ι V θ) _).Reachable InOrder s)
    (hidle : s.decided = []) :
    s.keepAwake.held = true ↔ ∃ name node, s.live.nodes.get name = some node ∧
      (node.row.status = some .booting ∨ node.row.status = some .ready ∨
        node.row.status = some .running) := by
  have hlast := (sound_invariant.reachable h).last
  rw [hidle] at hlast
  rw [show s.keepAwake.held = Live.hasLiveNodes s.live.nodes from Option.some.inj hlast,
    hasLiveNodes_iff_status]

/-! ### Two threads -/

section Two

/-- A node that is given a status. -/
def ofStatus (status : Assign.NodeStatus) : LiveNodeUpdates Unit Unit :=
  ⟨{ status := some status }, Dict.empty⟩

/-- The node 0 is READY, and a laptop is held awake. -/
def oneReady : Held Unit ℕ Unit Bool where
  live :=
    { nodes := Dict.empty.set 0 ⟨{ NodeRow.new with status := some .ready }, Dict.empty⟩
      jobs := Dict.empty }
  keepAwake := ⟨true, false, .darwin, true, false⟩
  decided := []

lemma init_oneReady : system.init oneReady := ⟨rfl, rfl, rfl⟩

/-- The node 0 is deleted while the node 1 begins to boot. -/
def overlapping : List (HoldEvent Unit ℕ Unit Bool) :=
  [.updateNode false 0 (ofStatus .deleted) false, .updateNode true 1 (ofStatus .booting) false]

/-- What can be seen: the hold, the statuses, and the calls under way. -/
def seen (s : Held Unit ℕ Unit Bool) : Bool × List (Option Assign.NodeStatus) × ℕ :=
  (s.keepAwake.held, s.live.nodes.items.map fun e => e.2.row.status, s.decided.length)

/-- The two apply their decisions in the order in which they have decided. -/
def inTurn : Held Unit ℕ Unit Bool :=
  ((system.guarded InOrder).exec oneReady
    (overlapping ++ [.setActive false, .setActive true])).get (by decide +kernel)

theorem hold_follows_nodes_inTurn : seen inTurn = (true, [some .deleted, some .booting], 0) ∧
    (inTurn.keepAwake.held = true ↔ ∃ name node, inTurn.live.nodes.get name = some node ∧
      (node.row.status = some .booting ∨ node.row.status = some .ready ∨
        node.row.status = some .running)) :=
  ⟨by decide +kernel, hold_follows_nodes
    ⟨oneReady, _, init_oneReady, System.run_of_exec_guarded (Option.some_get _).symm⟩
    (List.eq_nil_of_length_eq_zero (by decide +kernel))⟩

/-- The second thread is faster. -/
def overtaken : Held Unit ℕ Unit Bool :=
  ((system.guarded System.always).exec oneReady
    (overlapping ++ [.setActive true, .setActive false])).get (by decide +kernel)

/-- **The hold is lost**: a node boots, no call is under way, and the machine may go to sleep. -/
theorem hold_lost :
    ¬∀ s : Held Unit ℕ Unit Bool, system.Reachable System.always s → s.decided = [] →
      (s.keepAwake.held = true ↔ ∃ name node, s.live.nodes.get name = some node ∧
        (node.row.status = some .booting ∨ node.row.status = some .ready ∨
          node.row.status = some .running)) := by
  intro h
  have hreachable : system.Reachable System.always overtaken :=
    ⟨oneReady, _, init_oneReady, System.run_of_exec_guarded (Option.some_get _).symm⟩
  have hseen : seen overtaken = (false, [some .deleted, some .booting], 0) := by decide +kernel
  have hlive : Live.hasLiveNodes overtaken.live.nodes = true := by decide +kernel
  have hheld := (h overtaken hreachable (List.eq_nil_of_length_eq_zero
    (congrArg (fun p => p.2.2) hseen))).2 (hasLiveNodes_iff_status.1 hlive)
  exact absurd hheld (by rw [show overtaken.keepAwake.held = false from congrArg Prod.fst hseen]
                         decide)

end Two

end Held

end Burla.ClusterState
