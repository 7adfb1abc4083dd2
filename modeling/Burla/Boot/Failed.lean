/-
What becomes of a VM whose node reports FAILED.

Three handlers report FAILED.  That of `reboot_containers` goes on to ask the head for the deletion
of the VM; the two of `reset_workers` do not, and leave the VM to the idle watchdog, which waits
for `BOOTING`, the job and the reservation.  A reboot that `wait_for` has given up on leaves them
as they were.
-/
import Burla.Boot.Service

namespace Burla.Boot

open Burla.Assign (NodeStatus)

variable {κ : Type*}

/-- In the handler of an exception. -/
def RebootStage.handling : RebootStage → Bool
  | .marking | .logging | .deleting => true
  | .arrived | .scheduled | .asking | .preparing | .hosting | .sleeping | .reporting
  | .finishing => false

/-- The task will ask for the deletion of the VM. -/
def Task.asks : Task κ → Bool
  | .reboot _ stage => stage.handling
  | .pushLoop .shutting | .idleWatchdog .shutting | .neverReady .shutting => true
  | _ => false

/-- What the idle watchdog waits for. -/
structure Self.Idle (state : Self κ) : Prop where
  booting : state.booting = false
  currentJob : state.currentJob = none
  reservedForJob : state.reservedForJob = none

/-- The deletion of the VM is requested, or will be. -/
def Requested (s : Vm κ) (tasks : List (Task κ)) : Prop :=
  s.deleteRequested = true ∨ ∃ t ∈ tasks, t.asks = true

/-- A node that reports FAILED does not live on. -/
def Ends (s : Vm κ) (tasks : List (Task κ)) : Prop :=
  s.self.reportedStatus = .failed → Requested s tasks ∨ s.self.Idle

/-- A reboot's handler of an exception is not cut short, and `reset_workers` does not give up on a
reboot, unless the VM's deletion is requested already or the idle watchdog may ask for it. -/
def RebootHandled (s : Vm κ) (rest : List (Task κ)) (caller : Caller) (stage : RebootStage) :
    Choice κ → Prop
  | .raises => stage.handling = true →
    match caller with
    -- the service has not started, and no other task of it goes on
    | .startup => s.self.reportedStatus = .failed → Requested s [] ∨ s.self.Idle
    | .endpoint | .background => s.self.reportedStatus = .failed → Requested s rest ∨ s.self.Idle
    | .jobEnd _ => Requested s rest ∨ s.self.Idle
  | .cancelled => stage.handling = true → s.self.reportedStatus = .failed →
    Requested s rest ∨ s.self.Idle
  | .expires => Requested s rest ∨ s.self.Idle
  | .go | .answered _ | .idle _ | .disconnects | .refuses | .begins | .loses | .stops
  | .jobOver => True

/-- A node that reports FAILED learns of no reservation before its deletion is requested. -/
def PushHandled (s : Vm κ) (rest : List (Task κ)) : Choice κ → Prop
  | .answered view => view.reservedForJob ≠ none → view.status ≠ .deleted →
    s.self.reportedStatus = .failed → Requested s rest
  | .go | .raises | .cancelled | .expires | .idle _ | .disconnects | .refuses | .begins | .loses
  | .stops | .jobOver => True

/-- The failures of the node are handled. -/
def Handled (s : Vm κ) (rest : List (Task κ)) : Task κ → Choice κ → Prop
  | .reboot caller stage, a => RebootHandled s rest caller stage a
  | .pushLoop _, a => PushHandled s rest a
  | .watchReservation _ _, _ | .execute _ _, _ | .jobWatcher _, _ | .request, _ | .shutdown _, _
  | .idleWatchdog _, _ | .neverReady _, _ => True

section Decide

variable [DecidableEq κ] (s : Vm κ) (rest : List (Task κ))

instance (tasks : List (Task κ)) : Decidable (Requested s tasks) :=
  inferInstanceAs (Decidable (_ ∨ _))

instance (state : Self κ) : Decidable state.Idle :=
  decidable_of_iff (state.booting = false ∧ state.currentJob = none ∧ state.reservedForJob = none)
    ⟨fun ⟨hbooting, hjob, hreserved⟩ => ⟨hbooting, hjob, hreserved⟩,
      fun h => ⟨h.booting, h.currentJob, h.reservedForJob⟩⟩

instance (caller : Caller) (stage : RebootStage) :
    (a : Choice κ) → Decidable (RebootHandled s rest caller stage a)
  | .raises =>
    match caller with
    | .startup => inferInstanceAs (Decidable (_ → _ → Requested s [] ∨ s.self.Idle))
    | .endpoint | .background =>
      inferInstanceAs (Decidable (_ → _ → Requested s rest ∨ s.self.Idle))
    | .jobEnd _ => inferInstanceAs (Decidable (_ → Requested s rest ∨ s.self.Idle))
  | .cancelled => inferInstanceAs (Decidable (_ → _ → _ ∨ _))
  | .expires => inferInstanceAs (Decidable (_ ∨ _))
  | .go | .answered _ | .idle _ | .disconnects | .refuses | .begins | .loses | .stops
  | .jobOver => .isTrue trivial

instance : (a : Choice κ) → Decidable (PushHandled s rest a)
  | .answered _ => inferInstanceAs (Decidable (_ → _ → _ → _))
  | .go | .raises | .cancelled | .expires | .idle _ | .disconnects | .refuses | .begins | .loses
  | .stops | .jobOver => .isTrue trivial

instance : (t : Task κ) → (a : Choice κ) → Decidable (Handled s rest t a)
  | .reboot caller stage, a => inferInstanceAs (Decidable (RebootHandled s rest caller stage a))
  | .pushLoop _, a => inferInstanceAs (Decidable (PushHandled s rest a))
  | .watchReservation _ _, _ | .execute _ _, _ | .jobWatcher _, _ | .request, _ | .shutdown _, _
  | .idleWatchdog _, _ | .neverReady _, _ => .isTrue trivial

end Decide

/-- What a segment leaves, with the tasks that it was not about. -/
def EndsAfter (y : Outturn κ) (rest : List (Task κ)) : Prop :=
  Ends y.shared ((rest.filter fun u => !y.cancels u) ++ y.tasks)

section After

variable {s t : Vm κ} {y : Outturn κ} {task : Task κ} {rest tasks : List (Task κ)}

lemma Requested.mono (h : Requested s rest)
    (hdelete : s.deleteRequested = true → y.shared.deleteRequested = true)
    (hcancels : ∀ u, y.cancels u = true → u.asks = false) :
    Requested y.shared ((rest.filter fun u => !y.cancels u) ++ y.tasks) := by
  rcases h with hrequested | ⟨u, hu, hasks⟩
  · exact .inl (hdelete hrequested)
  · refine .inr ⟨u, List.mem_append_left _ (List.mem_filter.2 ⟨hu, ?_⟩), hasks⟩
    cases hcancelled : y.cancels u with
    | false => rfl
    | true =>
      rw [hcancels u hcancelled] at hasks
      cases hasks

lemma Requested.of_cons (h : Requested s (task :: rest)) (htask : task.asks = false) :
    Requested s rest := by
  refine h.imp id fun ⟨u, hu, hasks⟩ => ?_
  rcases List.mem_cons.1 hu with rfl | hu
  · rw [htask] at hasks
    cases hasks
  · exact ⟨u, hu, hasks⟩

/-- A segment that neither reports FAILED nor holds the idle watchdog up. -/
lemma Ends.after (h : Ends s (task :: rest)) (htask : task.asks = false)
    (hstatus : y.shared.self.reportedStatus = .failed → s.self.reportedStatus = .failed)
    (hdelete : s.deleteRequested = true → y.shared.deleteRequested = true)
    (hcancels : ∀ u, y.cancels u = true → u.asks = false)
    (hidle : s.self.Idle → y.shared.self.Idle) : EndsAfter y rest := by
  intro hfailed
  refine (h (hstatus hfailed)).imp (fun hrequested => ?_) hidle
  exact (hrequested.of_cons htask).mono hdelete hcancels

lemma endsAfter_of_ne (h : y.shared.self.reportedStatus ≠ .failed) : EndsAfter y rest :=
  fun hfailed => absurd hfailed h

lemma endsAfter_of_requested (h : y.shared.deleteRequested = true) : EndsAfter y rest :=
  fun _ => .inl (.inl h)

lemma endsAfter_of_asks (task : Task κ) (hmem : task ∈ y.tasks) (h : task.asks = true) :
    EndsAfter y rest :=
  fun _ => .inl (.inr ⟨task, List.mem_append_right _ hmem, h⟩)

/-- A task that was to ask for the deletion is over, or `reset_workers` gives up. -/
lemma endsAfter_iff (hstatus : y.shared.self.reportedStatus = .failed)
    (hdelete : y.shared.deleteRequested = s.deleteRequested)
    (hidle : y.shared.self.Idle ↔ s.self.Idle) (hcancels : ∀ u, y.cancels u = false)
    (htasks : ∀ u ∈ y.tasks, u.asks = false) :
    EndsAfter y rest ↔ Requested s rest ∨ s.self.Idle := by
  have hrequested : Requested y.shared ((rest.filter fun u => !y.cancels u) ++ y.tasks) ↔
      Requested s rest := by
    constructor
    · rintro (hdone | ⟨u, hu, hasks⟩)
      · exact .inl (hdelete.symm.trans hdone)
      · rcases List.mem_append.1 hu with hu | hu
        · exact .inr ⟨u, (List.mem_filter.1 hu).1, hasks⟩
        · rw [htasks u hu] at hasks
          cases hasks
    · refine fun h => h.mono (fun hdone => hdelete.trans hdone) fun u hu => ?_
      rw [hcancels u] at hu
      cases hu
  rw [← hrequested, ← hidle]
  exact ⟨fun h => h hstatus, fun h _ => h⟩

/-! ### One segment -/

lemma Self.Idle.congr {old new : Self κ} (h : old.Idle) (hbooting : new.booting = old.booting)
    (hjob : new.currentJob = old.currentJob) (hreserved : new.reservedForJob = old.reservedForJob) :
    new.Idle :=
  ⟨hbooting.trans h.booting, hjob.trans h.currentJob, hreserved.trans h.reservedForJob⟩

/-- A segment that leaves the status, the job and the flags alone. -/
lemma Ends.kept (h : Ends s (task :: rest)) (htask : task.asks = false)
    (hstatus : y.shared.self.reportedStatus = s.self.reportedStatus)
    (hdelete : y.shared.deleteRequested = s.deleteRequested)
    (hcancels : ∀ u, y.cancels u = true → u.asks = false)
    (hbooting : y.shared.self.booting = s.self.booting)
    (hjob : y.shared.self.currentJob = s.self.currentJob)
    (hreserved : y.shared.self.reservedForJob = s.self.reservedForJob) : EndsAfter y rest :=
  h.after htask (fun hfailed => hstatus.symm.trans hfailed) (fun hdone => hdelete.trans hdone)
    hcancels fun hidle => hidle.congr hbooting hjob hreserved

lemma Ends.done (h : Ends s (task :: rest)) (htask : task.asks = false) :
    EndsAfter s.done rest :=
  h.kept htask rfl rfl nofun rfl rfl rfl

lemma Ends.next (h : Ends s (task :: rest)) (htask : task.asks = false) (task' : Task κ) :
    EndsAfter (s.next task') rest :=
  h.kept htask rfl rfl nofun rfl rfl rfl

variable {caller : Caller} {stage : RebootStage}

lemma Ends.returned (h : Ends s (task :: rest)) (htask : task.asks = false) :
    EndsAfter (s.returned caller) rest := by
  cases caller with
  | startup => exact h.kept htask rfl rfl nofun rfl rfl rfl
  | endpoint => exact h.done htask
  | background => exact h.done htask
  | jobEnd crashed => exact h.done htask

lemma Ends.awaitHost (h : Ends s (task :: rest)) (htask : task.asks = false) :
    EndsAfter (s.awaitHost caller) rest := by
  unfold Vm.awaitHost
  split_ifs
  · exact endsAfter_of_ne nofun
  · exact h.next htask _

/-- After the containers have booted. -/
lemma Ends.setBooting (h : Ends s (task :: rest)) :
    Ends (s.setSelf fun self => { self with booting := false }) (task :: rest) :=
  fun hfailed => (h hfailed).imp id fun hidle => ⟨rfl, hidle.currentJob, hidle.reservedForJob⟩

lemma Ends.rebootGo (h : Ends s (.reboot caller stage :: rest))
    (hstep : s.rebootGo caller stage = some y) : EndsAfter y rest := by
  cases stage with
  | arrived =>
    simp only [Vm.rebootGo] at hstep
    split_ifs at hstep
    · obtain rfl := Option.some.inj hstep
      exact h.done rfl
    · obtain rfl := Option.some.inj hstep
      exact endsAfter_of_ne nofun
  | scheduled =>
    obtain rfl := Option.some.inj hstep
    exact endsAfter_of_ne nofun
  | preparing =>
    obtain rfl := Option.some.inj hstep
    exact h.setBooting.awaitHost rfl
  | sleeping =>
    obtain rfl := Option.some.inj hstep
    exact h.awaitHost rfl
  | finishing =>
    obtain rfl := Option.some.inj hstep
    exact h.returned rfl
  | logging =>
    obtain rfl := Option.some.inj hstep
    exact endsAfter_of_asks (.reboot caller .deleting) List.mem_cons_self rfl
  | deleting =>
    obtain rfl := Option.some.inj hstep
    exact endsAfter_of_requested (by cases caller <;> rfl)
  | asking => cases hstep
  | hosting => cases hstep
  | reporting => cases hstep
  | marking => cases hstep

lemma Ends.rebootAnswered {view : View κ} (h : Ends s (.reboot caller stage :: rest))
    (hstep : s.rebootAnswered caller view stage = some y) : EndsAfter y rest := by
  cases stage with
  | asking =>
    simp only [Vm.rebootAnswered] at hstep
    split_ifs at hstep
    · obtain rfl := Option.some.inj hstep
      exact h.returned rfl
    · obtain rfl := Option.some.inj hstep
      exact endsAfter_of_ne nofun
  | hosting =>
    have hset : Ends (s.setSelf fun self => { self with host := view.host })
        (.reboot caller .hosting :: rest) := fun hfailed =>
      (h hfailed).imp id fun hidle => hidle.congr rfl rfl rfl
    simp only [Vm.rebootAnswered] at hstep
    split_ifs at hstep
    · obtain rfl := Option.some.inj hstep
      exact hset.returned rfl
    · obtain rfl := Option.some.inj hstep
      exact endsAfter_of_ne nofun
    · obtain rfl := Option.some.inj hstep
      exact hset.next rfl _
  | reporting =>
    simp only [Vm.rebootAnswered] at hstep
    split at hstep
    · obtain rfl := Option.some.inj hstep
      exact h.next rfl _
    · obtain rfl := Option.some.inj hstep
      exact h.kept rfl rfl rfl nofun rfl rfl rfl
  | marking =>
    obtain rfl := Option.some.inj hstep
    exact endsAfter_of_asks (.reboot caller .logging) List.mem_cons_self rfl
  | arrived => cases hstep
  | scheduled => cases hstep
  | preparing => cases hstep
  | sleeping => cases hstep
  | finishing => cases hstep
  | logging => cases hstep
  | deleting => cases hstep

lemma idle_report_iff {status : NodeStatus} : (s.report status).self.Idle ↔ s.self.Idle :=
  ⟨fun h => h.congr rfl rfl rfl, fun h => h.congr rfl rfl rfl⟩

lemma endsAfter_giveUp {crashed : Bool} :
    EndsAfter (s.giveUp crashed) rest ↔ Requested s rest ∨ s.self.Idle := by
  refine endsAfter_iff rfl rfl idle_report_iff (fun _ => rfl) fun u hu => ?_
  obtain rfl := List.mem_singleton.1 hu
  rfl

/-- A task that was to ask is over. -/
lemma endsAfter_over (hshared : y.shared = s) (hcancels : ∀ u, y.cancels u = false)
    (htasks : ∀ u ∈ y.tasks, u.asks = false) :
    EndsAfter y rest ↔
      (s.self.reportedStatus = .failed → Requested s rest ∨ s.self.Idle) := by
  subst hshared
  by_cases hfailed : y.shared.self.reportedStatus = .failed
  · rw [endsAfter_iff hfailed rfl Iff.rfl hcancels htasks]
    exact ⟨fun h _ => h, fun h => h hfailed⟩
  · exact iff_of_true (endsAfter_of_ne hfailed) fun h => absurd h hfailed

lemma endsAfter_done :
    EndsAfter s.done rest ↔
      (s.self.reportedStatus = .failed → Requested s rest ∨ s.self.Idle) :=
  endsAfter_over rfl (fun _ => rfl) nofun

lemma endsAfter_error :
    EndsAfter s.error rest ↔
      (s.self.reportedStatus = .failed → Requested s rest ∨ s.self.Idle) := by
  refine endsAfter_over rfl (fun _ => rfl) fun u hu => ?_
  obtain rfl := List.mem_singleton.1 hu
  rfl

/-- The service has not started: none of its tasks is left. -/
lemma endsAfter_raised_startup :
    EndsAfter (s.raised .startup) rest ↔
      (s.self.reportedStatus = .failed → Requested s [] ∨ s.self.Idle) := by
  have hnone : (rest.filter fun u => !(s.raised .startup).cancels u) = [] :=
    List.filter_eq_nil_iff.2 fun _ _ => nofun
  unfold EndsAfter
  rw [hnone]
  exact Iff.rfl

/-- `reboot_containers` raises out of its handler. -/
lemma endsAfter_raised (hstage : stage.handling = true) :
    EndsAfter (s.raised caller) rest ↔ RebootHandled s rest caller stage .raises := by
  cases caller with
  | startup => exact endsAfter_raised_startup.trans ⟨fun h _ => h, fun h => h hstage⟩
  | endpoint => exact endsAfter_error.trans ⟨fun h _ => h, fun h => h hstage⟩
  | background => exact endsAfter_done.trans ⟨fun h _ => h, fun h => h hstage⟩
  | jobEnd crashed => exact endsAfter_giveUp.trans ⟨fun h _ => h, fun h => h hstage⟩

lemma handled_raises (hstage : stage.handling = false) :
    RebootHandled s rest caller stage .raises := by
  cases caller <;>
    · intro hhandling
      rw [hstage] at hhandling
      cases hhandling

lemma endsAfter_fail : EndsAfter (s.fail caller) rest :=
  endsAfter_of_asks (.reboot caller .marking) List.mem_cons_self rfl

lemma endsAfter_rebootRaises (hstep : s.rebootRaises caller stage = some y) :
    EndsAfter y rest ↔ RebootHandled s rest caller stage .raises := by
  cases stage with
  | asking =>
    obtain rfl := Option.some.inj hstep
    exact iff_of_true endsAfter_fail (handled_raises rfl)
  | preparing =>
    obtain rfl := Option.some.inj hstep
    exact iff_of_true endsAfter_fail (handled_raises rfl)
  | hosting =>
    obtain rfl := Option.some.inj hstep
    exact iff_of_true endsAfter_fail (handled_raises rfl)
  | reporting =>
    obtain rfl := Option.some.inj hstep
    exact iff_of_true endsAfter_fail (handled_raises rfl)
  | marking =>
    obtain rfl := Option.some.inj hstep
    exact endsAfter_raised rfl
  | logging =>
    obtain rfl := Option.some.inj hstep
    exact endsAfter_raised rfl
  | deleting =>
    obtain rfl := Option.some.inj hstep
    exact endsAfter_raised rfl
  | arrived => cases hstep
  | scheduled => cases hstep
  | sleeping => cases hstep
  | finishing => cases hstep

lemma endsAfter_rebootExpires (hstep : s.rebootExpires caller stage = some y) :
    EndsAfter y rest ↔ Requested s rest ∨ s.self.Idle := by
  cases caller with
  | jobEnd crashed =>
    have hgiveUp : y = s.giveUp crashed := by
      cases stage <;> cases hstep <;> rfl
    rw [hgiveUp]
    exact endsAfter_giveUp
  | startup => cases hstep
  | endpoint => cases hstep
  | background => cases hstep

/-- A reboot is cancelled, in its handler or before. -/
lemma Ends.rebootCancelled (h : Ends s (.reboot caller stage :: rest)) :
    EndsAfter s.done rest ↔ RebootHandled s rest caller stage .cancelled := by
  cases hstage : stage.handling with
  | true => exact endsAfter_done.trans ⟨fun h _ => h, fun h => h hstage⟩
  | false =>
    refine iff_of_true (h.done hstage) fun hhandling => ?_
    rw [hstage] at hhandling
    cases hhandling

lemma Ends.rebootSegment {a : Choice κ} (h : Ends s (.reboot caller stage :: rest))
    (hstep : s.rebootSegment caller stage a = some y) :
    EndsAfter y rest ↔ RebootHandled s rest caller stage a := by
  cases a with
  | go => exact iff_of_true (h.rebootGo hstep) trivial
  | answered view => exact iff_of_true (h.rebootAnswered hstep) trivial
  | raises => exact endsAfter_rebootRaises hstep
  | expires => exact endsAfter_rebootExpires hstep
  | cancelled =>
    simp only [Vm.rebootSegment] at hstep
    split_ifs at hstep
    obtain rfl := Option.some.inj hstep
    exact h.rebootCancelled
  | idle headGone => cases hstep
  | disconnects => cases hstep
  | refuses => cases hstep
  | begins => cases hstep
  | loses => cases hstep
  | stops => cases hstep
  | jobOver => cases hstep

section Others

variable {a : Choice κ}

lemma Ends.error (h : Ends s (task :: rest)) (htask : task.asks = false) :
    EndsAfter s.error rest :=
  h.next htask _

lemma not_asks_of_watchOf {n : Option ℕ} (u : Task κ) (h : u.watchOf n = true) :
    u.asks = false := by
  cases u with
  | watchReservation m job => rfl
  | reboot caller stage => cases h
  | execute job stage => cases h
  | jobWatcher stage => cases h
  | request => cases h
  | shutdown closing => cases h
  | pushLoop stage => cases h
  | idleWatchdog stage => cases h
  | neverReady stage => cases h

lemma Ends.executeSegment [DecidableEq κ] {job : κ} {stage : ExecuteStage}
    (h : Ends s (.execute job stage :: rest)) (hstep : s.executeSegment job stage a = some y) :
    EndsAfter y rest := by
  unfold Vm.executeSegment at hstep
  split at hstep
  · split_ifs at hstep
    · obtain rfl := Option.some.inj hstep
      exact h.done rfl
    · obtain rfl := Option.some.inj hstep
      exact h.done rfl
    · obtain rfl := Option.some.inj hstep
      exact endsAfter_of_ne nofun
  · obtain rfl := Option.some.inj hstep
    exact h.next rfl _
  · split_ifs at hstep
    · obtain rfl := Option.some.inj hstep
      exact h.next rfl _
    · obtain rfl := Option.some.inj hstep
      exact h.done rfl
  · obtain rfl := Option.some.inj hstep
    exact h.kept rfl rfl rfl nofun rfl rfl rfl
  · obtain rfl := Option.some.inj hstep
    exact h.error rfl
  · obtain rfl := Option.some.inj hstep
    exact endsAfter_of_ne nofun
  · obtain rfl := Option.some.inj hstep
    exact h.error rfl
  · obtain rfl := Option.some.inj hstep
    exact endsAfter_of_ne nofun
  · obtain rfl := Option.some.inj hstep
    exact h.done rfl
  · obtain rfl := Option.some.inj hstep
    exact h.done rfl
  · obtain rfl := Option.some.inj hstep
    split_ifs
    · exact h.error rfl
    · exact h.done rfl
  · cases hstep

lemma Ends.resetRaised {crashed : Bool} (h : Ends s (task :: rest)) (htask : task.asks = false) :
    EndsAfter (s.resetRaised crashed) rest := by
  unfold Vm.resetRaised
  split_ifs
  · exact h.done htask
  · exact h.next htask _

lemma Ends.watcherSegment {stage : WatcherStage} (h : Ends s (.jobWatcher stage :: rest))
    (hstep : s.watcherSegment stage a = some y) : EndsAfter y rest := by
  unfold Vm.watcherSegment at hstep
  split at hstep
  · obtain rfl := Option.some.inj hstep
    exact h.kept rfl rfl rfl nofun rfl rfl rfl
  · obtain rfl := Option.some.inj hstep
    exact h.done rfl
  · obtain rfl := Option.some.inj hstep
    exact h.next rfl _
  · obtain rfl := Option.some.inj hstep
    exact h.next rfl _
  · obtain rfl := Option.some.inj hstep
    exact h.next rfl _
  · obtain rfl := Option.some.inj hstep
    exact h.resetRaised rfl
  · obtain rfl := Option.some.inj hstep
    exact endsAfter_of_ne nofun
  · split_ifs at hstep
    · obtain rfl := Option.some.inj hstep
      exact h.done rfl
    · obtain rfl := Option.some.inj hstep
      exact h.next rfl _
  · obtain rfl := Option.some.inj hstep
    exact h.done rfl
  · obtain rfl := Option.some.inj hstep
    exact h.done rfl
  · obtain rfl := Option.some.inj hstep
    exact h.resetRaised rfl
  · obtain rfl := Option.some.inj hstep
    exact h.resetRaised rfl
  · cases hstep

lemma endsAfter_shutDown {task' : Task κ} (htask : task'.asks = true) :
    EndsAfter (s.shutDown.next task') rest :=
  endsAfter_of_asks task' List.mem_cons_self htask

lemma Ends.idleSegment {stage : WatchdogStage} (hstep : s.idleSegment stage a = some y) :
    EndsAfter y rest := by
  unfold Vm.idleSegment at hstep
  split at hstep
  · split_ifs at hstep
    obtain rfl := Option.some.inj hstep
    exact endsAfter_shutDown rfl
  · obtain rfl := Option.some.inj hstep
    exact endsAfter_of_requested rfl
  · cases hstep

lemma Ends.neverReadySegment {stage : WatchdogStage} (h : Ends s (.neverReady stage :: rest))
    (hstep : s.neverReadySegment stage a = some y) : EndsAfter y rest := by
  unfold Vm.neverReadySegment at hstep
  split at hstep
  · split_ifs at hstep
    · obtain rfl := Option.some.inj hstep
      exact h.done rfl
    · obtain rfl := Option.some.inj hstep
      exact h.next rfl _
  · obtain rfl := Option.some.inj hstep
    exact endsAfter_shutDown rfl
  · obtain rfl := Option.some.inj hstep
    exact endsAfter_of_requested rfl
  · cases hstep

lemma Ends.shutdownSegment {closing : Bool} (h : Ends s (.shutdown closing :: rest)) :
    EndsAfter (s.shutdownSegment closing) rest := by
  unfold Vm.shutdownSegment
  split_ifs
  · unfold Vm.reportDeleted
    split_ifs
    · exact h.done rfl
    · exact endsAfter_of_ne nofun
  · exact h.kept rfl rfl rfl nofun rfl rfl rfl

lemma Ends.reservationOver [DecidableEq κ] {job : κ} (h : Ends s (task :: rest))
    (htask : task.asks = false) :
    EndsAfter (s.reservationOver job).done rest := by
  unfold Vm.reservationOver
  split_ifs
  · exact h.after htask id id nofun fun hidle => ⟨hidle.booting, hidle.currentJob, rfl⟩
  · exact h.done htask

section Push

variable [DecidableEq κ] {view : View κ} {reservation : Option κ}

lemma syncReservation_reportedStatus :
    (s.syncReservation reservation).shared.self.reportedStatus = s.self.reportedStatus := by
  unfold Vm.syncReservation
  split_ifs <;> rfl

lemma syncReservation_deleteRequested :
    (s.syncReservation reservation).shared.deleteRequested = s.deleteRequested := by
  unfold Vm.syncReservation
  split_ifs <;> rfl

lemma not_asks_of_cancels (u : Task κ) (h : (s.syncReservation reservation).cancels u = true) :
    u.asks = false := by
  unfold Vm.syncReservation at h
  split_ifs at h
  · exact not_asks_of_watchOf u h
  · cases h

lemma not_asks_of_sync {u : Task κ} (hu : u ∈ (s.syncReservation reservation).tasks) :
    u.asks = false := by
  unfold Vm.syncReservation at hu
  split_ifs at hu
  · obtain ⟨job, -, rfl⟩ := List.mem_map.1 hu
    rfl
  · cases hu

lemma idle_sync (h : s.self.Idle) : (s.syncReservation none).shared.self.Idle := by
  unfold Vm.syncReservation
  split_ifs
  · exact ⟨h.booting, h.currentJob, rfl⟩
  · exact h

/-- A node that learns of a reservation without a job holds the idle watchdog up. -/
lemma eq_none_of_idle_sync (h : (s.syncReservation reservation).shared.self.Idle) :
    reservation = none := by
  unfold Vm.syncReservation at h
  split_ifs at h with hsync
  · exact h.reservedForJob
  · by_contra hne
    exact hsync ⟨h.currentJob, fun heq => hne (heq.trans h.reservedForJob)⟩

lemma Ends.pushAnswered (h : Ends s (.pushLoop .pushing :: rest)) :
    EndsAfter (s.pushAnswered view) rest ↔ PushHandled s rest (.answered view) := by
  set t := s.setSelf fun self => { self with host := view.host } with ht
  have hends : Ends t (.pushLoop .pushing :: rest) := fun hfailed =>
    (h hfailed).imp id fun hidle => hidle.congr rfl rfl rfl
  unfold Vm.pushAnswered
  rw [← ht]
  simp only
  split_ifs with hdeleted
  · refine iff_of_true ?_ fun _ hne => absurd hdeleted hne
    exact endsAfter_of_asks (.pushLoop .shutting) List.mem_cons_self rfl
  have hmono : Requested s rest → EndsAfter
      { t.syncReservation view.reservedForJob with
        tasks := .pushLoop .sleeping :: (t.syncReservation view.reservedForJob).tasks } rest :=
    fun hrequested _ => .inl (hrequested.mono
      (fun hdone => syncReservation_deleteRequested.trans hdone) not_asks_of_cancels)
  constructor
  · intro hafter hsome _ hfailed
    rcases hafter (syncReservation_reportedStatus.trans hfailed) with hrequested | hidle
    · -- neither the loop nor a new watch asks for the deletion
      rcases hrequested with hdone | ⟨u, hu, hasks⟩
      · exact .inl ((syncReservation_deleteRequested (s := t)).symm.trans hdone)
      · rcases List.mem_append.1 hu with hu | hu
        · exact .inr ⟨u, (List.mem_filter.1 hu).1, hasks⟩
        · rcases List.mem_cons.1 hu with rfl | hu
          · cases hasks
          · rw [not_asks_of_sync hu] at hasks
            cases hasks
    · exact absurd (eq_none_of_idle_sync hidle) hsome
  · intro hhandled hfailed
    have hfailed' : s.self.reportedStatus = .failed :=
      (syncReservation_reportedStatus (s := t)).symm.trans hfailed
    by_cases hnone : view.reservedForJob = none
    · rcases h hfailed' with hrequested | hidle
      · exact hmono (hrequested.of_cons rfl) hfailed
      · refine .inr ?_
        show (t.syncReservation view.reservedForJob).shared.self.Idle
        rw [hnone]
        exact idle_sync (hidle.congr rfl rfl rfl)
    · exact hmono (hhandled hnone hdeleted hfailed') hfailed

lemma Ends.pushSegment {stage : PushStage} {a : Choice κ} (h : Ends s (.pushLoop stage :: rest))
    (hstep : s.pushSegment stage a = some y) :
    EndsAfter y rest ↔ PushHandled s rest a := by
  unfold Vm.pushSegment at hstep
  split at hstep
  · obtain rfl := Option.some.inj hstep
    exact iff_of_true (h.next rfl _) trivial
  · obtain rfl := Option.some.inj hstep
    exact h.pushAnswered
  · obtain rfl := Option.some.inj hstep
    exact iff_of_true (h.next rfl _) trivial
  · obtain rfl := Option.some.inj hstep
    refine iff_of_true ?_ trivial
    exact endsAfter_of_asks (.pushLoop .shutting) List.mem_cons_self rfl
  · obtain rfl := Option.some.inj hstep
    exact iff_of_true (endsAfter_of_requested rfl) trivial
  · cases hstep

/-- **A segment leaves a failed VM to nobody exactly when its failure is not handled.** -/
theorem endsAfter_segment {a : Choice κ} (h : Ends s (task :: rest))
    (hstep : s.segment task a = some y) : EndsAfter y rest ↔ Handled s rest task a := by
  cases task with
  | reboot caller stage => exact h.rebootSegment hstep
  | watchReservation n job =>
    cases a with
    | go =>
      obtain rfl := Option.some.inj hstep
      exact iff_of_true (h.reservationOver rfl) trivial
    | _ => cases hstep
  | execute job stage => exact iff_of_true (h.executeSegment hstep) trivial
  | jobWatcher stage => exact iff_of_true (h.watcherSegment hstep) trivial
  | request =>
    cases a with
    | go =>
      obtain rfl := Option.some.inj hstep
      exact iff_of_true (h.done rfl) trivial
    | raises =>
      obtain rfl := Option.some.inj hstep
      exact iff_of_true (h.error rfl) trivial
    | _ => cases hstep
  | shutdown closing =>
    cases a with
    | go =>
      obtain rfl := Option.some.inj hstep
      exact iff_of_true h.shutdownSegment trivial
    | _ => cases hstep
  | pushLoop stage => exact h.pushSegment hstep
  | idleWatchdog stage => exact iff_of_true (Ends.idleSegment hstep) trivial
  | neverReady stage => exact iff_of_true (h.neverReadySegment hstep) trivial

end Push

end Others

end After

/-! ### A whole run -/

lemma Requested.perm {s : Vm κ} {ts ts' : List (Task κ)} (hperm : ts.Perm ts')
    (h : Requested s ts) : Requested s ts' :=
  h.imp id fun ⟨u, hu, hasks⟩ => ⟨u, hperm.mem_iff.1 hu, hasks⟩

variable [DecidableEq κ]

lemma upheld_ends : (nodeService κ).Upheld Handled Ends where
  perm _ _ _ hperm h hfailed := (h hfailed).imp (fun hrequested => hrequested.perm hperm) id
  init s ts h hfailed := by
    obtain ⟨reservedForJob, hself⟩ := h.self
    rw [hself] at hfailed
    cases hfailed
  arrive _ t _ h _ hfailed := by
    refine (h hfailed).imp (fun hrequested => hrequested.imp id fun ⟨u, hu, hasks⟩ => ?_) id
    exact ⟨u, List.mem_cons_of_mem t hu, hasks⟩
  segment _ _ _ _ _ h hok hstep := (endsAfter_segment h hstep).2 hok

/-- **A failed node does not live on** in any run whose failures are handled: in every state in
which it reports FAILED the deletion of its VM is requested, or one of its tasks will request it,
or nothing holds the idle watchdog up. -/
theorem failed_ends {s : Vm κ × List (Task κ)}
    (h : (nodeService κ).system.Reachable (EventLoop.During Handled) s)
    (hfailed : s.1.self.reportedStatus = .failed) :
    s.1.deleteRequested = true ∨ (∃ t ∈ s.2, t.asks = true) ∨
      s.1.self.booting = false ∧ s.1.self.currentJob = none ∧ s.1.self.reservedForJob = none := by
  rcases upheld_ends.reachable h hfailed with (hrequested | hasks) | hidle
  · exact .inl hrequested
  · exact .inr (.inl hasks)
  · exact .inr (.inr ⟨hidle.booting, hidle.currentJob, hidle.reservedForJob⟩)

/-- A node service that has just been started, without a reservation. -/
def fresh : Vm Unit × List (Task Unit) where
  fst := ⟨reinitSelf, false, 0, false⟩
  snd := [.idleWatchdog .waiting, .neverReady .waiting, .pushLoop .sleeping,
    .reboot .startup .scheduled]

lemma init_fresh : (nodeService Unit).system.init fresh :=
  ⟨⟨none, rfl⟩, rfl, rfl, rfl, rfl⟩

/-- The answer of a head that knows the node's host. -/
def hosted (status : NodeStatus) : View Unit := ⟨status, true, none⟩

/-- The containers of the node do not boot. -/
def failing : List (LoopEvent (Task Unit) (Choice Unit)) :=
  [.run 3 .go, .run 3 (.answered (hosted .booting)), .run 3 .raises]

/-- The handler goes on to ask for the deletion. -/
def failedVm : Vm Unit × List (Task Unit) where
  fst := ⟨{ reinitSelf with booting := true, failed := true, reportedStatus := .failed },
    false, 0, false⟩
  snd := [.idleWatchdog .waiting, .neverReady .waiting, .pushLoop .sleeping,
    .reboot .startup .marking]

theorem failed_ends_failing :
    failedVm.1.self.reportedStatus = .failed ∧
      (failedVm.1.deleteRequested = true ∨ (∃ t ∈ failedVm.2, t.asks = true) ∨
        failedVm.1.self.booting = false ∧ failedVm.1.self.currentJob = none ∧
          failedVm.1.self.reservedForJob = none) :=
  ⟨rfl, failed_ends
    ⟨fresh, failing, init_fresh, System.run_of_exec_guarded (by decide +kernel)⟩ rfl⟩

/-- A job has lost a worker, and the reboot after it takes too long. -/
def expiring : List (LoopEvent (Task Unit) (Choice Unit)) :=
  [.run 3 .go, .run 3 (.answered (hosted .booting)), .run 3 .go,
    .run 3 (.answered (hosted .booting)), .run 3 (.answered (hosted .ready)), .run 3 .go,
    .run 1 .go, .arrive (.execute () .posted), .run 2 .go, .run 2 .begins, .run 2 .loses,
    .run 2 .jobOver, .run 2 .go, .run 2 .go, .run 2 (.answered (hosted .booting)),
    .run 2 .expires, .run 2 (.answered (hosted .failed))]

/-- `BOOTING` is set for ever. -/
def leftVm : Vm Unit × List (Task Unit) where
  fst := ⟨{ reinitSelf with booting := true, reportedStatus := .failed }, true, 0, false⟩
  snd := [.idleWatchdog .waiting, .pushLoop .sleeping]

/-- **A failed node is left to nobody**: `reset_workers` gives up on the reboot after a job while
the containers boot, reports FAILED and asks for no deletion, and the idle watchdog waits for
`BOOTING`. -/
theorem failed_left :
    ¬∀ s : Vm Unit × List (Task Unit), (nodeService Unit).system.Reachable System.always s →
      s.1.self.reportedStatus = .failed →
        s.1.deleteRequested = true ∨ (∃ t ∈ s.2, t.asks = true) ∨
          s.1.self.booting = false ∧ s.1.self.currentJob = none ∧
            s.1.self.reservedForJob = none := by
  intro h
  have hexec : (nodeService Unit).system.exec fresh expiring = some leftVm := by decide +kernel
  have hfresh : (nodeService Unit).system.Reachable System.always fresh :=
    ⟨fresh, [], init_fresh, .nil⟩
  rcases h leftVm (hfresh.exec hexec) rfl with hrequested | ⟨t, ht, hasks⟩ | ⟨hbooting, -⟩
  · cases hrequested
  · -- the idle watchdog waits, and the push loop sleeps
    simp only [leftVm, List.mem_cons, List.not_mem_nil, or_false] at ht
    rcases ht with rfl | rfl
    · cases hasks
    · cases hasks
  · cases hbooting

end Burla.Boot
