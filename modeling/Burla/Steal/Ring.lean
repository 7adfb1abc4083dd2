/-
The ring along which nodes take inputs from one another: `peers_for_job` (cluster_state.py) lists
the nodes of a job by name, and `get_neighbor` (job_watcher.py) picks the one after the node itself.

The main result is `Burla.Steal.one_ring`: as long as the answers that the peers get are the same,
the neighbors make up one cycle through all of them.
-/
import Burla.ClusterState.Nodes
import Mathlib.GroupTheory.Perm.Cycle.Basic
import Mathlib.Data.List.Sort

namespace Burla.Steal

open Burla.ClusterState (NodeRow)
open Burla.Assign (NodeStatus)

variable {ν κ : Type*} [LinearOrder ν] [DecidableEq κ]

/-- A node's row, with the fields that only the ring reads. -/
structure PeerRow (κ : Type*) extends NodeRow κ where
  host : Option String
  loadedFromHistory : Bool
  deriving DecidableEq

structure Peer (ν : Type*) where
  instanceName : ν
  host : Option String
  deriving DecidableEq

/-- The answer to a node that asks for the peers of its job. -/
structure PeersAnswer (ν : Type*) where
  peers : List (Peer ν)
  bootingNodeIds : List ν
  deriving DecidableEq

section Peers

variable (nodes : Dict ν (PeerRow κ)) (jobId : κ) (now : ℚ)

/-- `sorted(NODES.items())` -/
def sortedItems : List (ν × PeerRow κ) := nodes.items.insertionSort fun a b => a.1 ≤ b.1

/-- A node that works on the job, and pushes. -/
def PeerRow.IsPeer (row : PeerRow κ) : Prop :=
  row.status = some .running ∧ row.currentJob = some jobId ∧ row.Fresh now

instance (row : PeerRow κ) : Decidable (row.IsPeer jobId now) := inferInstanceAs (Decidable (_ ∧ _))

/-- `peers_for_job` -/
def peersForJob : PeersAnswer ν where
  peers := ((sortedItems nodes).filter fun e => e.2.IsPeer jobId now).map fun e =>
    { instanceName := e.1, host := e.2.host }
  bootingNodeIds := (nodes.items.filter fun e =>
    e.2.status = some .booting ∧ e.2.loadedFromHistory = false).map Prod.fst

/-- `get_neighbor`, once the answer is there. -/
def getNeighbor (answer : PeersAnswer ν) (instanceName : ν) : Option (Peer ν) :=
  match answer.peers.findIdx? fun p => p.instanceName = instanceName with
  | none => none
  | some selfIndex =>
    if 1 < answer.peers.length then
      (answer.peers.drop (selfIndex + 1) ++ answer.peers.take selfIndex).head?
    else none

end Peers

/-! ### One cycle -/

section Ring

variable {nodes : Dict ν (PeerRow κ)} {jobId : κ} {now : ℚ} {answer : PeersAnswer ν}

/-- No node is listed twice. -/
lemma nodup_peers : ((peersForJob nodes jobId now).peers.map Peer.instanceName).Nodup := by
  have hitems : ((sortedItems nodes).map Prod.fst).Nodup :=
    ((List.perm_insertionSort _ nodes.items).map Prod.fst).nodup_iff.2 nodes.nodup
  rw [peersForJob, List.map_map]
  exact hitems.sublist (List.filter_sublist.map Prod.fst)

/-- The peer after the one at an index. -/
lemma head?_drop_append_take {α : Type*} {l : List α} {i : ℕ} (hi : i < l.length)
    (hlength : 1 < l.length) :
    (l.drop (i + 1) ++ l.take i).head? = l[(i + 1) % l.length]? := by
  rcases Nat.lt_or_ge (i + 1) l.length with hlt | hge
  · rw [List.drop_eq_getElem_cons hlt, List.cons_append, List.head?_cons, Nat.mod_eq_of_lt hlt,
      List.getElem?_eq_getElem]
  · obtain rfl : i = l.length - 1 := by omega
    have hlast : l.length - 1 + 1 = l.length := by omega
    simp only [hlast, List.drop_length, List.nil_append, Nat.mod_self]
    rw [List.head?_eq_getElem?, List.getElem?_take_of_lt (by omega)]

/-- A peer's neighbor is the next in the list, and the first after the last. -/
lemma getNeighbor_getElem (h : (answer.peers.map Peer.instanceName).Nodup) {i : ℕ}
    (hi : i < answer.peers.length) (hlength : 1 < answer.peers.length) :
    getNeighbor answer (answer.peers[i]).instanceName =
      answer.peers[(i + 1) % answer.peers.length]? := by
  have hindex : (answer.peers.findIdx? fun p => p.instanceName = (answer.peers[i]).instanceName) =
      some i := by
    rw [List.findIdx?_eq_some_iff_getElem]
    refine ⟨hi, decide_eq_true rfl, fun j hj => ?_⟩
    simp only [decide_eq_true_eq]
    intro hname
    have hj' : j < (answer.peers.map Peer.instanceName).length := by
      rw [List.length_map]
      omega
    have hi' : i < (answer.peers.map Peer.instanceName).length := by rwa [List.length_map]
    have hinj : (answer.peers.map Peer.instanceName)[j] =
        (answer.peers.map Peer.instanceName)[i] := by
      simpa using hname
    exact absurd (h.getElem_inj_iff.1 hinj) hj.ne
  rw [getNeighbor, hindex]
  simp only [if_pos hlength]
  exact head?_drop_append_take hi hlength

/-- **The neighbors are one cycle through all the peers, when these get the same answer; a peer that
is alone has no neighbor.** -/
theorem one_ring (nodes : Dict ν (PeerRow κ)) (jobId : κ) (times : ν → ℚ) {peers : List (Peer ν)}
    (hagree : ∀ p ∈ peers, (peersForJob nodes jobId (times p.instanceName)).peers = peers) :
    (1 < peers.length → ∃ σ : Equiv.Perm ν, σ.IsCycleOn {x | x ∈ peers.map Peer.instanceName} ∧
      ∀ p ∈ peers, σ p.instanceName ≠ p.instanceName ∧
        ∃ neighbor ∈ peers, neighbor.instanceName = σ p.instanceName ∧
          getNeighbor (peersForJob nodes jobId (times p.instanceName)) p.instanceName =
            some neighbor) ∧
    (peers.length = 1 → ∀ p ∈ peers,
      getNeighbor (peersForJob nodes jobId (times p.instanceName)) p.instanceName = none) := by
  constructor
  · intro hlength
    have hnodup : (peers.map Peer.instanceName).Nodup := by
      have hmem : peers[0] ∈ peers := List.getElem_mem _
      rw [← hagree _ hmem]
      exact nodup_peers
    refine ⟨(peers.map Peer.instanceName).formPerm, hnodup.isCycleOn_formPerm, fun p hp => ?_⟩
    obtain ⟨i, hi, rfl⟩ := List.getElem_of_mem hp
    have hanswer := hagree _ hp
    have hi' : (i + 1) % peers.length < peers.length := Nat.mod_lt _ (by omega)
    have hnext : (peers.map Peer.instanceName).formPerm peers[i].instanceName =
        peers[(i + 1) % peers.length].instanceName := by
      have happly := List.formPerm_apply_getElem (peers.map Peer.instanceName) hnodup i (by simpa)
      simpa using happly
    refine ⟨?_, _, List.getElem_mem _, hnext.symm, ?_⟩
    · refine (List.formPerm_apply_mem_ne_self_iff _ hnodup _ (List.mem_map_of_mem hp)).2 ?_
      rwa [List.length_map]
    · generalize peersForJob nodes jobId (times peers[i].instanceName) = answer at hanswer ⊢
      subst hanswer
      exact (getNeighbor_getElem hnodup hi hlength).trans (List.getElem?_eq_getElem hi')
  · intro hlength p hp
    have hnot : ¬1 < (peersForJob nodes jobId (times p.instanceName)).peers.length := by
      rw [hagree p hp]
      omega
    rw [getNeighbor]
    split
    · rfl
    · rw [if_neg hnot]

end Ring

/-- A node that works on job 7 since its push at time 100. -/
def workingRow : PeerRow ℕ where
  toNodeRow :=
    { NodeRow.new with status := some .running, lastPushAt := some 100, currentJob := some 7 }
  host := some "h"
  loadedFromHistory := false

/-- Three nodes on the job, and one that has not come up yet. -/
def fourNodes : Dict ℕ (PeerRow ℕ) where
  items := [(5, workingRow), (3, workingRow),
    (4, { workingRow with status := some .booting, currentJob := none }), (8, workingRow)]
  nodup := by decide

def ringOfThree : List (Peer ℕ) := [⟨3, some "h"⟩, ⟨5, some "h"⟩, ⟨8, some "h"⟩]

/-- The ring 3, 5, 8. -/
theorem one_ring_three :
    ∃ σ : Equiv.Perm ℕ, σ.IsCycleOn {x | x ∈ [3, 5, 8]} ∧
      ∀ x ∈ [3, 5, 8],
        (getNeighbor (peersForJob fourNodes 7 (100 + (x : ℕ))) x).map Peer.instanceName =
          some (σ x) := by
  have hagree : ∀ p ∈ ringOfThree,
      (peersForJob fourNodes 7 (100 + (p.instanceName : ℕ))).peers = ringOfThree := by decide +kernel
  obtain ⟨σ, hcycle, hnext⟩ :=
    (one_ring fourNodes 7 (fun x => 100 + (x : ℕ)) hagree).1 (by decide)
  refine ⟨σ, hcycle, ?_⟩
  have hpeer : ∀ x ∈ [3, 5, 8], (⟨x, some "h"⟩ : Peer ℕ) ∈ ringOfThree := by decide
  intro x hx
  obtain ⟨-, neighbor, -, hneighbor, hget⟩ := hnext _ (hpeer x hx)
  rw [hget, Option.map_some, hneighbor]

end Burla.Steal
