/-
The runs of `reboot_containers` with their containers, as the rest of the node service sees them.

What happens between the first answer of the head and the end of the boots is one segment to the
service, which either boots the containers or raises.
-/
import Burla.Boot.Containers

namespace Burla.Boot.Containers

open Burla.Assign (NodeStatus)

variable {ι κ : Type*} [DecidableEq κ]

/-- The stage as the service sees it. -/
def Stage.coarse : Stage ι → RebootStage
  | .arrived => .arrived
  | .scheduled => .scheduled
  | .asking => .asking
  | .refreshing | .listing | .killing _ | .pulling _ _ | .booting _ _ _ _ | .calibrating =>
    .preparing
  | .hosting => .hosting
  | .sleeping => .sleeping
  | .reporting => .reporting
  | .finishing => .finishing
  | .marking => .marking
  | .logging => .logging
  | .deleting => .deleting

/-- A run as the service sees it; the boots that a run has left behind it does not see. -/
def Task.coarse : Task ι → Option (Boot.Task κ)
  | .reboot caller _ stage => some (.reboot caller stage.coarse)
  | .boot _ _ | .pushLoop => none

/-- The node and the service agree about what both have. -/
structure Agrees (s : Node ι) (v : Vm κ) : Prop where
  booting : v.self.booting = s.booting
  host : v.self.host = s.host
  reportedStatus : v.self.reportedStatus = s.reportedStatus
  serving : v.serving = s.serving

/-- A segment of a run is one of the service, or nothing to it. -/
def Seen (v : Vm κ) (caller : Caller) (stage : Stage ι) (y : Outturn ι) : Prop :=
  (Agrees y.shared v ∧
      ∀ t ∈ y.tasks, ∀ t' ∈ t.coarse, t' = .reboot (κ := κ) caller stage.coarse) ∨
    ∃ a z, v.segment (.reboot caller stage.coarse) a = some z ∧ Agrees y.shared z.shared ∧
      ∀ t ∈ y.tasks, ∀ t' ∈ t.coarse, t' ∈ z.tasks

section Run

variable {s t : Node ι} {v w : Vm κ} {caller : Caller} {newConfig : List ι} {stage stage' : Stage ι}
  {a : Boot.Choice κ}

/-- The run goes on in the same segment of the service. -/
lemma seen_within (h : Agrees t v) (hstage : stage'.coarse = stage.coarse) :
    Seen v caller stage (t.goOn caller newConfig stage') := by
  refine .inl ⟨h, fun u hu u' hu' => ?_⟩
  rw [List.mem_singleton.1 hu] at hu'
  rw [← Option.some.inj hu', hstage]

/-- The run goes on in the next segment of the service. -/
lemma seen_next (h : Agrees t w)
    (hstep : v.segment (.reboot caller stage.coarse) a =
      some (w.next (.reboot caller stage'.coarse))) :
    Seen v caller stage (t.goOn caller newConfig stage') := by
  refine .inr ⟨a, _, hstep, h, fun u hu u' hu' => ?_⟩
  rw [List.mem_singleton.1 hu] at hu'
  rw [← Option.some.inj hu']
  exact List.mem_singleton.2 rfl

omit [DecidableEq κ] in
lemma Agrees.report (h : Agrees s v) (status : NodeStatus) :
    Agrees (s.report status) (v.report status) :=
  ⟨h.booting, h.host, rfl, h.serving⟩

lemma seen_done (h : Agrees t w) (hstep : v.segment (.reboot caller stage.coarse) a = some w.done) :
    Seen v caller stage t.done :=
  .inr ⟨a, _, hstep, h, nofun⟩

/-- The run raises, and perhaps leaves some boots behind. -/
lemma seen_fail {y : Outturn ι} (newConfig : List ι) (h : Agrees s v)
    (hstep : v.segment (.reboot caller stage.coarse) .raises = some (v.fail caller))
    (hshared : y.shared = s.report .failed)
    (htasks : ∀ u ∈ y.tasks,
      u = .reboot caller newConfig .marking ∨ ∃ w started, u = .boot w started) :
    Seen v caller stage y := by
  refine .inr ⟨.raises, _, hstep, ?_, fun u hu u' hu' => ?_⟩
  · rw [hshared]
    exact ⟨h.booting, h.host, rfl, h.serving⟩
  · rcases htasks u hu with rfl | ⟨w, started, rfl⟩
    · rw [← Option.some.inj hu']
      exact List.mem_singleton.2 rfl
    · cases hu'

lemma seen_fail' (h : Agrees t v)
    (hstep : v.segment (.reboot caller stage.coarse) .raises = some (v.fail caller)) :
    Seen v caller stage (t.fail caller newConfig) :=
  seen_fail newConfig h hstep rfl fun _ hu => .inl (List.mem_singleton.1 hu)

lemma seen_returned (h : Agrees t w)
    (hstep : v.segment (.reboot caller stage.coarse) a = some (w.returned caller)) :
    Seen v caller stage (t.returned caller) := by
  cases caller with
  | startup => exact .inr ⟨a, _, hstep, ⟨h.booting, h.host, h.reportedStatus, rfl⟩, nofun⟩
  | endpoint => exact seen_done h hstep
  | background => exact seen_done h hstep
  | jobEnd crashed => exact seen_done h hstep

lemma seen_raised (h : Agrees t w)
    (hstep : v.segment (.reboot caller stage.coarse) a = some (w.raised caller)) :
    Seen v caller stage (t.raised caller) := by
  cases caller with
  | startup => exact .inr ⟨a, _, hstep, h, nofun⟩
  | endpoint =>
    refine .inr ⟨a, _, hstep, h, fun u hu u' hu' => ?_⟩
    rw [List.mem_singleton.1 hu] at hu'
    rw [← Option.some.inj hu']
    exact List.mem_singleton.2 rfl
  | background => exact .inr ⟨a, _, hstep, h, nofun⟩
  | jobEnd crashed => exact .inr ⟨a, _, hstep, h.report .failed, nofun⟩

lemma seen_awaitHost (h : Agrees t w)
    (hstep : v.segment (.reboot caller stage.coarse) a = some (w.awaitHost caller)) :
    Seen v caller stage (t.awaitHost caller newConfig) := by
  unfold Node.awaitHost
  unfold Vm.awaitHost at hstep
  rw [h.host] at hstep
  split_ifs with hhost
  · rw [if_pos hhost] at hstep
    exact seen_next (h.report .ready) hstep
  · rw [if_neg hhost] at hstep
    exact seen_next h hstep

/-- READY is pushed; the service may watch a reservation from then on. -/
lemma seen_reported (h : Agrees s v) :
    Seen v caller (.reporting : Stage ι) (s.goOn caller newConfig .finishing) := by
  have hanswered : v.segment (.reboot caller .reporting) (.answered ⟨.ready, true, none⟩) =
      v.rebootAnswered caller ⟨.ready, true, none⟩ .reporting := rfl
  simp only [Vm.rebootAnswered] at hanswered
  split at hanswered
  · exact seen_next h hanswered
  · refine .inr ⟨_, _, hanswered, ⟨h.booting, h.host, h.reportedStatus, h.serving⟩,
      fun u hu u' hu' => ?_⟩
    rw [List.mem_singleton.1 hu] at hu'
    rw [← Option.some.inj hu']
    exact List.mem_cons_self

/-- A worker's boot is nothing to the service, unless it raises. -/
lemma seen_boots {y : Outturn ι} {workers starting connecting later : List ℕ} {i : ℕ}
    (h : Agrees s v)
    (hstep : s.bootSegment caller newConfig workers starting connecting later i = some y) :
    Seen v caller (.booting workers starting connecting later) y := by
  unfold Node.bootSegment at hstep
  split_ifs at hstep
  · obtain rfl := Option.some.inj hstep
    exact seen_within ⟨h.booting, h.host, h.reportedStatus, h.serving⟩ rfl
  · obtain rfl := Option.some.inj hstep
    exact seen_within ⟨h.booting, h.host, h.reportedStatus, h.serving⟩ rfl
  · obtain rfl := Option.some.inj hstep
    refine seen_fail newConfig h rfl rfl fun u hu => ?_
    rcases List.mem_cons.1 hu with rfl | hu
    · exact .inl rfl
    · rcases List.mem_append.1 hu with hu | hu
      · obtain ⟨w, -, rfl⟩ := List.mem_map.1 hu
        exact .inr ⟨w, false, rfl⟩
      · obtain ⟨w, -, rfl⟩ := List.mem_map.1 hu
        exact .inr ⟨w, true, rfl⟩

lemma seen_stageSegment {n : ℕ} {b : Choice} {y : Outturn ι} (h : Agrees s v)
    (hstep : s.stageSegment caller newConfig n stage b = some y) : Seen v caller stage y := by
  unfold Node.stageSegment at hstep
  split at hstep
  -- at the endpoint, and scheduled
  · have hgo : v.segment (.reboot caller .arrived) .go = if s.booting = true then some v.done
        else some ((v.report .booting).next (.reboot caller .asking)) := by
      rw [← h.booting]
      rfl
    split_ifs at hstep hgo
    · obtain rfl := Option.some.inj hstep
      exact seen_done h hgo
    · obtain rfl := Option.some.inj hstep
      exact seen_next (h.report .booting) hgo
  · obtain rfl := Option.some.inj hstep
    exact seen_next (a := .go) (h.report .booting) rfl
  -- `SELF` is new
  · rename_i terminal host
    have hanswered : v.segment (.reboot caller .asking)
        (.answered ⟨if terminal = true then .failed else .booting, host, none⟩) =
        if terminal = true then some (v.returned caller)
        else some (v.reinit.next (.reboot caller .preparing)) := by
      cases terminal <;> rfl
    split_ifs at hstep hanswered
    · obtain rfl := Option.some.inj hstep
      exact seen_returned h hanswered
    · obtain rfl := Option.some.inj hstep
      exact seen_next (w := v.reinit) ⟨rfl, rfl, rfl, h.serving⟩ hanswered
  · obtain rfl := Option.some.inj hstep
    exact seen_within h rfl
  -- from the listing to the end of the boots
  · obtain rfl := Option.some.inj hstep
    exact seen_within h rfl
  · obtain rfl := Option.some.inj hstep
    exact seen_within ⟨h.booting, h.host, h.reportedStatus, h.serving⟩ rfl
  · obtain rfl := Option.some.inj hstep
    exact seen_within h rfl
  · obtain rfl := Option.some.inj hstep
    exact seen_within ⟨h.booting, h.host, h.reportedStatus, h.serving⟩ rfl
  · rename_i workers
    obtain rfl := Option.some.inj hstep
    have hset : Agrees { s with workers } v := ⟨h.booting, h.host, h.reportedStatus, h.serving⟩
    cases workers with
    | nil => exact seen_fail' hset rfl
    | cons w later => exact seen_within hset rfl
  · exact seen_boots h hstep
  · rename_i workers later
    obtain rfl := Option.some.inj hstep
    unfold Node.bootedSegment
    cases later with
    | nil =>
      simp only
      split_ifs
      · exact seen_within h rfl
      · exact seen_fail' h rfl
    | cons w later => exact seen_within h rfl
  -- the workers are booted
  · obtain rfl := Option.some.inj hstep
    exact seen_awaitHost (a := .go) (w := v.setSelf fun self => { self with booting := false })
      ⟨rfl, h.host, h.reportedStatus, h.serving⟩ rfl
  · rename_i terminal host
    have hset : Agrees { s with host } (v.setSelf fun self => { self with host }) :=
      ⟨h.booting, rfl, h.reportedStatus, h.serving⟩
    have hanswered : v.segment (.reboot caller .hosting)
        (.answered ⟨if terminal = true then .failed else .booting, host, none⟩) =
        if terminal = true then some ((v.setSelf fun self => { self with host }).returned caller)
        else if host = true then
          some (((v.setSelf fun self => { self with host }).report .ready).next
            (.reboot caller .reporting))
        else some ((v.setSelf fun self => { self with host }).next (.reboot caller .sleeping)) := by
      cases terminal <;> rfl
    simp only at hstep
    split_ifs at hstep hanswered
    · obtain rfl := Option.some.inj hstep
      exact seen_returned hset hanswered
    · obtain rfl := Option.some.inj hstep
      exact seen_next (hset.report .ready) hanswered
    · obtain rfl := Option.some.inj hstep
      exact seen_next hset hanswered
  · obtain rfl := Option.some.inj hstep
    exact seen_awaitHost (a := .go) h rfl
  · obtain rfl := Option.some.inj hstep
    exact seen_reported h
  · obtain rfl := Option.some.inj hstep
    exact seen_returned (a := .go) h rfl
  -- in the handler of an exception
  · obtain rfl := Option.some.inj hstep
    exact seen_next (a := .answered ⟨.failed, false, none⟩) h rfl
  · obtain rfl := Option.some.inj hstep
    exact seen_next (a := .go) h rfl
  · obtain rfl := Option.some.inj hstep
    exact seen_raised (a := .go) (w := { v with deleteRequested := true })
      ⟨h.booting, h.host, h.reportedStatus, h.serving⟩ rfl
  · obtain rfl := Option.some.inj hstep
    exact seen_fail' h rfl
  · obtain rfl := Option.some.inj hstep
    exact seen_fail' h rfl
  · obtain rfl := Option.some.inj hstep
    exact seen_fail' h rfl
  · obtain rfl := Option.some.inj hstep
    exact seen_fail' h rfl
  · obtain rfl := Option.some.inj hstep
    exact seen_fail' h rfl
  · obtain rfl := Option.some.inj hstep
    exact seen_raised (a := .raises) h rfl
  · obtain rfl := Option.some.inj hstep
    exact seen_raised (a := .raises) h rfl
  · obtain rfl := Option.some.inj hstep
    exact seen_raised (a := .raises) h rfl
  · cases hstep

lemma seen_expireSegment {y : Outturn ι} (h : Agrees s v)
    (hstep : s.expireSegment caller stage = some y) : Seen v caller stage y := by
  cases caller with
  | jobEnd crashed =>
    have hexpires : v.segment (.reboot (.jobEnd crashed) stage.coarse) .expires =
        some (v.giveUp crashed) := by
      cases stage <;> first | rfl | cases hstep
    have hy : y = (s.report .failed).done := by
      cases stage <;> cases hstep <;> rfl
    rw [hy]
    exact .inr ⟨.expires, _, hexpires, h.report .failed, nofun⟩
  | startup => cases hstep
  | endpoint => cases hstep
  | background => cases hstep

/-- **A segment of a run is one of the service's**, or nothing to it. -/
theorem seen_segment {n : ℕ} {b : Choice} {y : Outturn ι} (h : Agrees s v)
    (hstep : s.segment n (.reboot caller newConfig stage) b = some y) : Seen v caller stage y := by
  cases b with
  | cancelled =>
    have hcancelled : v.segment (.reboot caller stage.coarse) .cancelled =
        if caller = .endpoint ∨ caller = .background then some v.done else none := rfl
    simp only [Node.segment] at hstep
    split_ifs at hstep hcancelled
    obtain rfl := Option.some.inj hstep
    exact seen_done h hcancelled
  | expires => exact seen_expireSegment h hstep
  | go => exact seen_stageSegment h hstep
  | raises => exact seen_stageSegment h hstep
  | answered terminal host => exact seen_stageSegment h hstep
  | boots w => exact seen_stageSegment h hstep

end Run

end Burla.Boot.Containers
