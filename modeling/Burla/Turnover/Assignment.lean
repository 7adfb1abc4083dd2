/-
Assignments that are begun or taken back whole (`CallHookOnJobStartMiddleware`, `execute`,
`handle_errors`).

An assignment changes the node from the middleware on, and three paths undo it: the 409, the
disconnect, and the reboot after a 500.  None of them removes the credentials file, and the reboot
leaves the workers' loops alone.  In runs in which an assignment raises only before the file is
written, and the reboots find nothing to leave behind, a node at which no assignment and no reboot
is under way is at work on a job or free (`whole_of_unbroken`); `assignment_leaves_credentials` is
a run in which `install_packages` raises.
-/
import Burla.Turnover.Crossing

namespace Burla.Turnover

open Burla.Assign (NodeStatus)
open Burla.Steal (Input)

variable {κ ω : Type*}

/-! ### What is under way -/

namespace Task

/-- An assignment, from `on_job_start` on. -/
def assigning : Task κ ω → Bool
  | execute _ .posted | execute _ (.takenBack _) => false
  | execute _ _ => true
  | _ => false

/-- One that has not written the credentials. -/
def unwritten : Task κ ω → Bool
  | execute _ .started | execute _ .refusing | execute _ .aborting => true
  | _ => false

/-- A task that works for a job. -/
def ofJob : Task κ ω → Bool
  | load _ _ | processInputs _ _ _ | monitor _ _ => true
  | _ => false

/-- A reboot that has yet to reinitialise the node. -/
def reinits : Task κ ω → Bool
  | reboot _ .scheduled | reboot _ .asking => true
  | _ => false

/-- A reboot that has yet to report READY. -/
def boots : Task κ ω → Bool
  | reboot _ .arrived | reboot _ .reporting => false
  | reboot _ _ => true
  | _ => false

variable {t : Task κ ω}

lemma boots_of_reinits (h : t.reinits = true) : t.boots = true := by
  cases t with
  | reboot caller stage => cases stage <;> first | rfl | cases h
  | _ => cases h

lemma assigning_of_unwritten (h : t.unwritten = true) : t.assigning = true := by
  cases t with
  | execute job stage => cases stage <;> first | rfl | cases h
  | _ => cases h

end Task

/-- The job of the last assignment is under way at the node, or the node is free and nothing of an
assignment is left. -/
def AllOrNothing (s : Node κ ω) (ts : List (Task κ ω)) : Prop :=
  (s.self.running = true ∧ s.self.jobWatcherTask = true ∧ ∃ job, s.self.currentJob = some job) ∨
    (s.self.running = false ∧ s.self.currentJob = none ∧
      s.self.reportedStatus ∈ [NodeStatus.ready, .failed, .deleted] ∧ s.credentials = none ∧
      ∀ w job stage, .processInputs w job stage ∉ ts)

/-- Nothing is left for a reinitialisation to leave behind. -/
def tidy (s : Node κ ω) (others : List (Task κ ω)) : Bool :=
  s.credentials.isNone && others.all fun u => !u.ofJob && !u.assigning

/-- Assignments raise only before the credentials are written, the push of `on_job_start` gets
through when the client is gone, the head answers a reboot, unless there is no job, and has the node
neither DELETED nor FAILED, and a node is reinitialised when it is tidy. -/
def unbroken (s : Node κ ω) (others : List (Task κ ω)) : Task κ ω → Choice ω → Bool
  | .execute _ .aborting, .raises | .execute _ (.installing _ _), .raises
  | .execute _ (.loading _ _ _), .raises => false
  | .reboot _ .asking, .answered terminal => !terminal && tidy s others
  | .reboot _ .hosting, .answered terminal => !terminal
  | .reboot _ .asking, .raises | .reboot _ .asking, .expires => !s.self.running
  | .jobWatcher _ .cleaning, .go => tidy s others
  | _, _ => true

def Unbroken (s : Node κ ω) (others : List (Task κ ω)) (t : Task κ ω) (a : Choice ω) : Prop :=
  unbroken s others t a = true

instance (s : Node κ ω) (others : List (Task κ ω)) (t : Task κ ω) (a : Choice ω) :
    Decidable (Unbroken s others t a) :=
  inferInstanceAs (Decidable (_ = true))

/-! ### The invariant -/

structure Whole (s : Node κ ω) (ts : List (Task κ ω)) : Prop where
  job : s.self.running = false ↔ s.self.currentJob = none
  idle : s.self.running = false → s.credentials = none ∧ s.self.jobWatcherTask = false ∧
    ∀ t ∈ ts, t.ofJob = false ∧ t.assigning = false
  /-- An assignment is of the current job, and its watcher is not started yet. -/
  assigned : ∀ job stage, .execute job stage ∈ ts →
    (Task.execute (κ := κ) (ω := ω) job stage).assigning = true →
    s.self.currentJob = some job ∧ s.self.jobWatcherTask = false
  unwritten : (∃ t ∈ ts, t.unwritten = true) →
    s.credentials = none ∧ ∀ u ∈ ts, u.ofJob = false
  one : ts.countP Task.assigning ≤ 1
  /-- A job without watcher is being assigned, or a reboot will end it. -/
  begun : s.self.running = true → s.self.jobWatcherTask = true ∨
    ∃ t ∈ ts, t.assigning = true ∨ t.reinits = true
  booting : s.self.reportedStatus = .booting → ∃ t ∈ ts, t.boots = true
  status : s.self.reportedStatus = .running → s.self.running = true

section Whole

variable {s : Node κ ω} {t : Task κ ω} {rest : List (Task κ ω)} {y : Outturn κ ω}

lemma tidy_iff : tidy s rest = true ↔
    s.credentials = none ∧ ∀ u ∈ rest, u.ofJob = false ∧ u.assigning = false := by
  simp [tidy]

/-- The tasks that are under way after a segment. -/
def after (rest : List (Task κ ω)) (y : Outturn κ ω) : List (Task κ ω) :=
  (rest.filter fun u => !y.cancels u) ++ y.tasks

lemma mem_after {u : Task κ ω} :
    u ∈ after rest y ↔ (u ∈ rest ∧ y.cancels u = false) ∨ u ∈ y.tasks := by
  simp [after]

lemma countP_after_le {p : Task κ ω → Bool} :
    (after rest y).countP p ≤ rest.countP p + y.tasks.countP p := by
  rw [after, List.countP_append]
  exact Nat.add_le_add_right (List.filter_sublist.countP_le) _

namespace Whole

variable (h : Whole s (t :: rest))
include h

/-- No other assignment is under way. -/
lemma not_assigning (ht : t.assigning = true) : ∀ u ∈ rest, u.assigning = false := by
  have hone := h.one
  rw [List.countP_cons_of_pos ht] at hone
  have hzero : rest.countP Task.assigning = 0 := by omega
  intro u hu
  simpa using List.countP_eq_zero.1 hzero u hu

/-- A task that is no assignment goes on. -/
lemma go (ht : t.assigning = false) (hrunning : y.shared.self.running = s.self.running)
    (hjob : y.shared.self.currentJob = s.self.currentJob)
    (hwatcher : y.shared.self.jobWatcherTask = s.self.jobWatcherTask)
    (hcredentials : y.shared.credentials = s.credentials ∨ y.shared.credentials = none)
    (htasks : ∀ u ∈ y.tasks, u.assigning = false ∧ (u.ofJob = true → t.ofJob = true))
    (hcancels : ∀ u, y.cancels u = true → u.assigning = false ∧ u.boots = false)
    (hreinits : t.reinits = true → s.self.running = true → ∃ u ∈ y.tasks, u.reinits = true)
    (hbooting : y.shared.self.reportedStatus = .booting →
      (∃ u ∈ y.tasks, u.boots = true) ∨ (s.self.reportedStatus = .booting ∧ t.boots = false))
    (hstatus : y.shared.self.reportedStatus = .running → s.self.reportedStatus = .running) :
    Whole y.shared (after rest y) where
  job := by rw [hrunning, hjob]; exact h.job
  idle hidle := by
    rw [hrunning] at hidle
    obtain ⟨hcred, hwatch, hts⟩ := h.idle hidle
    refine ⟨?_, hwatcher.trans hwatch, fun u hu => ?_⟩
    · rcases hcredentials with hc | hc
      · exact hc.trans hcred
      · exact hc
    · rcases mem_after.1 hu with ⟨hu, -⟩ | hu
      · exact hts u (List.mem_cons_of_mem t hu)
      · obtain ⟨hassign, hof⟩ := htasks u hu
        refine ⟨?_, hassign⟩
        cases huof : u.ofJob with
        | false => rfl
        | true =>
          have := (hts t List.mem_cons_self).1
          simp [hof huof] at this
  assigned job stage hmem hassign := by
    rw [hjob, hwatcher]
    rcases mem_after.1 hmem with ⟨hmem, -⟩ | hmem
    · exact h.assigned job stage (List.mem_cons_of_mem t hmem) hassign
    · simp [(htasks _ hmem).1] at hassign
  unwritten := by
    rintro ⟨u, hu, hunwritten⟩
    have hmem : u ∈ rest := by
      rcases mem_after.1 hu with ⟨hu, -⟩ | hu
      · exact hu
      · have hassign := Task.assigning_of_unwritten hunwritten
        simp [(htasks u hu).1] at hassign
    obtain ⟨hcred, hts⟩ := h.unwritten ⟨u, List.mem_cons_of_mem t hmem, hunwritten⟩
    refine ⟨?_, fun v hv => ?_⟩
    · rcases hcredentials with hc | hc
      · exact hc.trans hcred
      · exact hc
    · rcases mem_after.1 hv with ⟨hv, -⟩ | hv
      · exact hts v (List.mem_cons_of_mem t hv)
      · cases hvof : v.ofJob with
        | false => rfl
        | true =>
          have := hts t List.mem_cons_self
          simp [(htasks v hv).2 hvof] at this
  one := by
    have hnone : y.tasks.countP Task.assigning = 0 :=
      List.countP_eq_zero.2 fun u hu => by simp [(htasks u hu).1]
    have hone := h.one
    rw [List.countP_cons_of_neg (by simp [ht])] at hone
    have hle : (after rest y).countP Task.assigning ≤ _ := countP_after_le
    omega
  begun hrun := by
    rw [hrunning] at hrun
    rw [hwatcher]
    rcases h.begun hrun with hwatch | ⟨u, hu, hbegun⟩
    · exact .inl hwatch
    · refine .inr ?_
      rcases List.mem_cons.1 hu with rfl | hu
      · rcases hbegun with hassign | hreinit
        · simp [ht] at hassign
        · obtain ⟨v, hv, hvre⟩ := hreinits hreinit hrun
          exact ⟨v, mem_after.2 (.inr hv), .inr hvre⟩
      · refine ⟨u, mem_after.2 (.inl ⟨hu, ?_⟩), hbegun⟩
        cases hcancel : y.cancels u with
        | false => rfl
        | true =>
          obtain ⟨hassign, hboots⟩ := hcancels u hcancel
          rcases hbegun with hb | hb
          · simp [hassign] at hb
          · simp [Task.boots_of_reinits hb] at hboots
  booting hbt := by
    rcases hbooting hbt with ⟨u, hu, hboots⟩ | ⟨hbefore, hnot⟩
    · exact ⟨u, mem_after.2 (.inr hu), hboots⟩
    · obtain ⟨u, hu, hboots⟩ := h.booting hbefore
      rcases List.mem_cons.1 hu with rfl | hu
      · simp [hnot] at hboots
      · refine ⟨u, mem_after.2 (.inl ⟨hu, ?_⟩), hboots⟩
        cases hcancel : y.cancels u with
        | false => rfl
        | true => simp [(hcancels u hcancel).2] at hboots
  status hst := by
    rw [hrunning]
    exact h.status (hstatus hst)

end Whole

/-! ### Segments that are no part of an assignment -/

/-- What an assignment writes is left alone. -/
structure Apart (s s' : Node κ ω) : Prop where
  running : s'.self.running = s.self.running
  currentJob : s'.self.currentJob = s.self.currentJob
  jobWatcherTask : s'.self.jobWatcherTask = s.self.jobWatcherTask
  credentials : s'.credentials = s.credentials
  reportedStatus : s'.self.reportedStatus = s.self.reportedStatus

lemma Apart.refl (s : Node κ ω) : Apart s s := ⟨rfl, rfl, rfl, rfl, rfl⟩

/-- A task goes on, is over, or fails, and cancels no assignment and no reboot. -/
structure Plain (s : Node κ ω) (t : Task κ ω) (y : Outturn κ ω) : Prop where
  apart : Apart s y.shared
  tasks : ∀ u ∈ y.tasks, u.assigning = false ∧ (u.ofJob = true → t.ofJob = true)
  cancels : ∀ u, y.cancels u = true → u.assigning = false ∧ u.boots = false

namespace Plain

variable {s' : Node κ ω} {u : Task κ ω}

lemma done (hs : Apart s s') : Plain s t s'.done where
  apart := hs
  tasks _ hu := by simp at hu
  cancels _ hu := by simp [Node.done] at hu

lemma next (hs : Apart s s') (hu : u.assigning = false) (hof : u.ofJob = true → t.ofJob = true) :
    Plain s t (s'.next u) where
  apart := hs
  tasks v hv := by
    obtain rfl : v = u := by simpa using hv
    exact ⟨hu, hof⟩
  cancels _ hv := by simp [Node.next] at hv

lemma error (hs : Apart s s') : Plain s t s'.error := next hs rfl fun hof => by cases hof

lemma whole (hy : Plain s t y) (h : Whole s (t :: rest)) (ht : t.assigning = false)
    (hboots : t.boots = false) : Whole y.shared (after rest y) := by
  refine h.go ht hy.apart.running hy.apart.currentJob hy.apart.jobWatcherTask
    (.inl hy.apart.credentials) hy.tasks hy.cancels (fun hreinits => ?_) (fun hst => ?_)
    fun hst => ?_
  · have := Task.boots_of_reinits hreinits
    simp [hboots] at this
  · exact .inr ⟨hy.apart.reportedStatus ▸ hst, hboots⟩
  · exact hy.apart.reportedStatus ▸ hst

end Plain

section Segments

variable [DecidableEq κ] [DecidableEq ω] {a : Choice ω}

omit [DecidableEq κ] in
lemma plain_startLoop (job : κ) (w : ω) (ht : t.ofJob = true) : Plain s t (startLoop s job w) := by
  unfold startLoop
  split_ifs
  · exact .done (.refl s)
  · exact .next ⟨rfl, rfl, rfl, rfl, rfl⟩ rfl fun _ => ht

omit [DecidableEq ω] in
lemma plain_uploadSegment {limit : ℕ} {job : κ} {inputs : List Input} {stage : UploadStage}
    (hy : uploadSegment s limit job inputs stage a = some y) : Plain s t y := by
  unfold uploadSegment at hy
  split at hy
  iterate 2
    · split_ifs at hy
      · obtain rfl := Option.some.inj hy
        exact .done (.refl s)
      · obtain rfl := Option.some.inj hy
        exact .next (.refl s) rfl fun hof => by cases hof
      · obtain rfl := Option.some.inj hy
        exact .next (.refl s) rfl fun hof => by cases hof
  iterate 2
    · obtain rfl := Option.some.inj hy
      exact .error (.refl s)
  · obtain rfl := Option.some.inj hy
    exact .done ⟨rfl, rfl, rfl, rfl, rfl⟩
  · cases hy

lemma plain_getInputsSegment {job : κ} {transferId : ℕ} {queueSize idleWorkers : ℤ}
    {victims : List ω}
    (hy : getInputsSegment s job transferId queueSize idleWorkers victims = some y) :
    Plain s t y := by
  unfold getInputsSegment at hy
  by_cases hrefused : s.self.currentJob ≠ some job ∨ s.self.jobWatcherStopEvent = true
  · rw [if_pos hrefused] at hy
    obtain rfl := Option.some.inj hy
    exact .done (.refl s)
  rw [if_neg hrefused] at hy
  split at hy
  · obtain rfl := Option.some.inj hy
    exact .done (.refl s)
  simp only at hy
  split_ifs at hy
  · obtain rfl := Option.some.inj hy
    exact .next ⟨rfl, rfl, rfl, rfl, rfl⟩ rfl fun hof => by cases hof
  · obtain rfl := Option.some.inj hy
    exact .done ⟨rfl, rfl, rfl, rfl, rfl⟩

omit [DecidableEq κ] [DecidableEq ω] in
lemma plain_revokingSegment {transferId : ℕ} {items : List (Item κ)}
    (hy : revokingSegment s transferId items a = some y) : Plain s t y := by
  unfold revokingSegment at hy
  split at hy
  · obtain rfl := Option.some.inj hy
    exact .done ⟨rfl, rfl, rfl, rfl, rfl⟩
  · obtain rfl := Option.some.inj hy
    exact .error (.refl s)
  · cases hy

omit [DecidableEq ω] in
lemma plain_ackTransferSegment (job : κ) (transferId : ℕ) (received : Bool) :
    Plain s t (ackTransferSegment s job transferId received) := by
  unfold ackTransferSegment
  by_cases hjob : s.self.currentJob ≠ some job
  · rw [if_pos hjob]
    exact .done (.refl s)
  rw [if_neg hjob]
  split
  · exact .done (.refl s)
  · cases received <;> exact .done ⟨rfl, rfl, rfl, rfl, rfl⟩

lemma plain_tradeSegment {job : κ} {stage : TradeStage ω}
    (hy : tradeSegment s job stage a = some y) : Plain s t y := by
  unfold tradeSegment at hy
  split at hy
  · split_ifs at hy
    · obtain rfl := Option.some.inj hy
      exact .done (.refl s)
    · obtain rfl := Option.some.inj hy
      exact .next (.refl s) rfl fun hof => by cases hof
  · -- a worker's loop is cancelled
    obtain rfl := Option.some.inj hy
    refine ⟨⟨rfl, rfl, rfl, rfl, rfl⟩, fun u hu => ?_, fun u hu => ?_⟩
    · obtain rfl := List.mem_singleton.1 hu
      exact ⟨rfl, fun hof => by cases hof⟩
    · cases u <;> first | cases hu | exact ⟨rfl, rfl⟩
  · obtain rfl := Option.some.inj hy
    exact .done ⟨rfl, rfl, rfl, rfl, rfl⟩
  · obtain rfl := Option.some.inj hy
    exact .error (.refl s)
  · cases hy

omit [DecidableEq ω] in
lemma plain_getResultsSegment (job : κ) (acks : Bool) :
    Plain s t (getResultsSegment s job acks) := by
  unfold getResultsSegment
  by_cases hjob : s.self.currentJob ≠ some job
  · rw [if_pos hjob]
    exact .done (.refl s)
  rw [if_neg hjob]
  simp only
  split <;> exact .done ⟨rfl, rfl, rfl, rfl, rfl⟩

omit [DecidableEq κ] [DecidableEq ω] in
lemma plain_stealSegment {n : ℕ} {stage : StealStage κ}
    (hy : stealSegment s n stage a = some y) : Plain s t y := by
  have hnext : ∀ {s' : Node κ ω} (stage : StealStage κ), Apart s s' →
      Plain s t (s'.next (.inputSteal n stage)) := fun _ hs =>
    .next hs rfl fun hof => by cases hof
  unfold stealSegment at hy
  split at hy
  · split_ifs at hy
    · obtain rfl := Option.some.inj hy
      exact .done (.refl s)
    · obtain rfl := Option.some.inj hy
      exact hnext _ (.refl s)
  · obtain rfl := Option.some.inj hy
    exact hnext _ (.refl s)
  · split at hy
    · cases hy
    · obtain rfl := Option.some.inj hy
      exact hnext _ ⟨rfl, rfl, rfl, rfl, rfl⟩
  · obtain rfl := Option.some.inj hy
    exact hnext _ ⟨rfl, rfl, rfl, rfl, rfl⟩
  · split_ifs at hy
    · obtain rfl := Option.some.inj hy
      exact hnext _ (.refl s)
    · obtain rfl := Option.some.inj hy
      exact hnext _ (.refl s)
  · obtain rfl := Option.some.inj hy
    exact hnext _ (.refl s)
  · obtain rfl := Option.some.inj hy
    split_ifs <;> exact hnext _ ⟨rfl, rfl, rfl, rfl, rfl⟩
  · obtain rfl := Option.some.inj hy
    exact hnext _ ⟨rfl, rfl, rfl, rfl, rfl⟩
  · obtain rfl := Option.some.inj hy
    exact .done (.refl s)
  · cases hy

omit [DecidableEq κ] in
lemma plain_processInputsSegment {w : ω} {job : κ} {stage : LoopStage κ}
    (hy : processInputsSegment s w job stage a = some y) :
    Plain s (.processInputs w job stage) y := by
  have hdone : ∀ {s' : Node κ ω}, Apart s s' → Plain s (.processInputs w job stage) s'.done :=
    fun hs => .done hs
  have hnext : ∀ {s' : Node κ ω} (u : LoopStage κ), Apart s s' →
      Plain s (.processInputs w job stage) (s'.next (.processInputs w job u)) := fun _ hs =>
    .next hs rfl fun hof => hof
  unfold processInputsSegment at hy
  split at hy
  · obtain rfl := Option.some.inj hy
    exact hnext _ (.refl s)
  · obtain rfl := Option.some.inj hy
    exact hdone ⟨rfl, rfl, rfl, rfl, rfl⟩
  · split at hy
    · cases hy
    · obtain rfl := Option.some.inj hy
      exact hnext _ ⟨rfl, rfl, rfl, rfl, rfl⟩
  · obtain rfl := Option.some.inj hy
    exact hnext _ (.refl s)
  · split_ifs at hy
    · obtain rfl := Option.some.inj hy
      exact hdone ⟨rfl, rfl, rfl, rfl, rfl⟩
    · obtain rfl := Option.some.inj hy
      exact hnext _ (.refl s)
    · obtain rfl := Option.some.inj hy
      exact hnext _ (.refl s)
  · split_ifs at hy
    · obtain rfl := Option.some.inj hy
      exact hdone ⟨rfl, rfl, rfl, rfl, rfl⟩
    · obtain rfl := Option.some.inj hy
      exact hnext _ (.refl s)
  · split_ifs at hy <;> obtain rfl := Option.some.inj hy <;>
      exact hdone ⟨rfl, rfl, rfl, rfl, rfl⟩
  · split_ifs at hy
    · obtain rfl := Option.some.inj hy
      exact hdone ⟨rfl, rfl, rfl, rfl, rfl⟩
    · obtain rfl := Option.some.inj hy
      exact hdone ⟨rfl, rfl, rfl, rfl, rfl⟩
    · obtain rfl := Option.some.inj hy
      exact hnext _ ⟨rfl, rfl, rfl, rfl, rfl⟩
  · cases hy

omit [DecidableEq κ] in
lemma plain_monitorSegment {n : ℕ} {stage : MonitorStage κ ω}
    (hy : monitorSegment s n stage a = some y) : Plain s (.monitor n stage) y := by
  have hnext : ∀ {s' : Node κ ω} (u : MonitorStage κ ω), Apart s s' →
      Plain s (.monitor n stage) (s'.next (.monitor n u)) := fun _ hs =>
    .next hs rfl fun _ => rfl
  unfold monitorSegment at hy
  split at hy
  · obtain rfl := Option.some.inj hy
    exact .done (.refl s)
  · split_ifs at hy
    obtain rfl := Option.some.inj hy
    exact hnext _ (.refl s)
  · split_ifs at hy
    obtain rfl := Option.some.inj hy
    exact hnext _ ⟨rfl, rfl, rfl, rfl, rfl⟩
  · split_ifs at hy
    obtain rfl := Option.some.inj hy
    refine ⟨⟨rfl, rfl, rfl, rfl, rfl⟩, fun u hu => ?_, fun u hu => by cases hu⟩
    simp only [List.mem_cons, List.not_mem_nil, or_false] at hu
    rcases hu with rfl | rfl <;> exact ⟨rfl, fun _ => rfl⟩
  · simp only at hy
    split_ifs at hy
    · obtain rfl := Option.some.inj hy
      exact hnext _ (.refl s)
    · obtain rfl := Option.some.inj hy
      exact hnext _ ⟨rfl, rfl, rfl, rfl, rfl⟩
  · obtain rfl := Option.some.inj hy
    exact hnext _ ⟨rfl, rfl, rfl, rfl, rfl⟩
  · obtain rfl := Option.some.inj hy
    exact .done ⟨rfl, rfl, rfl, rfl, rfl⟩
  · split at hy
    · obtain rfl := Option.some.inj hy
      exact .done (.refl s)
    · obtain rfl := Option.some.inj hy
      exact hnext _ (.refl s)
  · obtain rfl := Option.some.inj hy
    exact .done (.refl s)
  · obtain rfl := Option.some.inj hy
    exact .done (.refl s)
  · rename_i w template job
    have hloop : Plain s (.monitor n (.handing w template job)) (startLoop s job w) :=
      plain_startLoop job w rfl
    simp only at hy
    split_ifs at hy
    · obtain rfl := Option.some.inj hy
      exact ⟨⟨hloop.apart.running, hloop.apart.currentJob, hloop.apart.jobWatcherTask,
        hloop.apart.credentials, hloop.apart.reportedStatus⟩, hloop.tasks, hloop.cancels⟩
    · obtain rfl := Option.some.inj hy
      exact hloop
  · cases hy

end Segments

/-! ### The segments of an assignment -/

namespace Whole

variable {s' : Node κ ω} {job : κ} {stage : ExecuteStage ω}

/-- The middleware takes the request. -/
lemma onJobStart (h : Whole s (.execute job .posted :: rest)) (hrun : s.self.running = false) :
    Whole (onJobStart s job) (after rest ((onJobStart s job).next (.execute job .started))) := by
  obtain ⟨hcred, hwatch, hts⟩ := h.idle hrun
  have hrest : ∀ u ∈ rest, u.ofJob = false ∧ u.assigning = false := fun u hu =>
    hts u (List.mem_cons_of_mem _ hu)
  refine ⟨by simp [Turnover.onJobStart], fun hidle => by simp [Turnover.onJobStart] at hidle, ?_,
    fun _ => ⟨hcred, fun u hu => ?_⟩, ?_, fun _ => .inr ⟨.execute job .started, ?_, .inl rfl⟩,
    fun hst => by simp [Turnover.onJobStart] at hst, fun _ => rfl⟩
  · intro job' stage hmem hassign
    rcases mem_after.1 hmem with ⟨hmem, -⟩ | hmem
    · simp [(hrest _ hmem).2] at hassign
    · obtain ⟨rfl, -⟩ : job' = job ∧ stage = .started := by simpa using hmem
      exact ⟨rfl, hwatch⟩
  · rcases mem_after.1 hu with ⟨hu, -⟩ | hu
    · exact (hrest u hu).1
    · obtain rfl : u = .execute job .started := by simpa using hu
      rfl
  · have hzero : rest.countP Task.assigning = 0 :=
      List.countP_eq_zero.2 fun u hu => by simp [(hrest u hu).2]
    refine countP_after_le.trans ?_
    simp [hzero, Task.assigning]
  · exact mem_after.2 (.inr (by simp))

variable (h : Whole s (.execute job stage :: rest))
  (ht : (Task.execute (κ := κ) (ω := ω) job stage).assigning = true)
include h ht

lemma running_of_assigning : s.self.running = true := by
  cases hrun : s.self.running with
  | true => rfl
  | false =>
    have hidle := ((h.idle hrun).2.2 _ List.mem_cons_self).2
    simp [ht] at hidle

/-- An assignment goes on. -/
lemma advance (stage' : ExecuteStage ω) (hrunning : s'.self.running = s.self.running)
    (hjob : s'.self.currentJob = s.self.currentJob)
    (hwatcher : s'.self.jobWatcherTask = s.self.jobWatcherTask)
    (hst : s'.self.reportedStatus = s.self.reportedStatus)
    (ht' : (Task.execute (κ := κ) (ω := ω) job stage').assigning = true)
    (hwritten : (Task.execute (κ := κ) (ω := ω) job stage').unwritten = true →
      (Task.execute (κ := κ) (ω := ω) job stage).unwritten = true ∧
        s'.credentials = s.credentials ∧ y.tasks = [.execute job stage'])
    (hshared : y.shared = s')
    (htasks : ∀ u ∈ y.tasks, u = .execute job stage' ∨ u.assigning = false)
    (hmem : .execute job stage' ∈ y.tasks) (hcount : y.tasks.countP Task.assigning = 1)
    (hcancels : ∀ u, y.cancels u = false) : Whole y.shared (after rest y) := by
  have hrun := h.running_of_assigning ht
  have hothers := h.not_assigning ht
  obtain ⟨hcurrent, hnot⟩ := h.assigned job stage List.mem_cons_self ht
  subst hshared
  refine ⟨by rw [hrunning, hjob]; exact h.job, fun hidle => ?_, fun job' stage'' hin hassign => ?_,
    fun hsome => ?_, ?_, fun _ => .inr ⟨_, mem_after.2 (.inr hmem), .inl ht'⟩,
    fun hbt => ?_, fun _ => ?_⟩
  · rw [hrunning, hrun] at hidle
    cases hidle
  · rw [hjob, hwatcher]
    rcases mem_after.1 hin with ⟨hin, -⟩ | hin
    · simp [hothers _ hin] at hassign
    · rcases htasks _ hin with heq | hnone
      · obtain ⟨rfl, -⟩ : job' = job ∧ stage'' = stage' := by simpa using heq
        exact ⟨hcurrent, hnot⟩
      · simp [hnone] at hassign
  · -- the credentials are not written yet
    obtain ⟨u, hu, hunwritten⟩ := hsome
    have hassign := Task.assigning_of_unwritten hunwritten
    have heq : u = .execute job stage' := by
      rcases mem_after.1 hu with ⟨hu, -⟩ | hu
      · simp [hothers u hu] at hassign
      · rcases htasks u hu with heq | hnone
        · exact heq
        · simp [hnone] at hassign
    obtain ⟨hbefore, hcred, hts⟩ := hwritten (heq ▸ hunwritten)
    obtain ⟨hnone, hall⟩ := h.unwritten ⟨_, List.mem_cons_self, hbefore⟩
    refine ⟨hcred.trans hnone, fun v hv => ?_⟩
    rcases mem_after.1 hv with ⟨hv, -⟩ | hv
    · exact hall v (List.mem_cons_of_mem _ hv)
    · rw [hts] at hv
      obtain rfl := List.mem_singleton.1 hv
      rfl
  · have hzero : rest.countP Task.assigning = 0 :=
      List.countP_eq_zero.2 fun u hu => by simp [hothers u hu]
    refine countP_after_le.trans ?_
    simp [hzero, hcount]
  · rw [hst] at hbt
    obtain ⟨u, hu, hboots⟩ := h.booting hbt
    rcases List.mem_cons.1 hu with rfl | hu
    · cases hboots
    · exact ⟨u, mem_after.2 (.inl ⟨hu, hcancels u⟩), hboots⟩
  · rw [hrunning]
    exact hrun

lemma next (stage' : ExecuteStage ω) (hrunning : s'.self.running = s.self.running)
    (hjob : s'.self.currentJob = s.self.currentJob)
    (hwatcher : s'.self.jobWatcherTask = s.self.jobWatcherTask)
    (hst : s'.self.reportedStatus = s.self.reportedStatus)
    (ht' : (Task.execute (κ := κ) (ω := ω) job stage').assigning = true)
    (hwritten : (Task.execute (κ := κ) (ω := ω) job stage').unwritten = true →
      (Task.execute (κ := κ) (ω := ω) job stage).unwritten = true ∧
        s'.credentials = s.credentials) :
    Whole s' (after rest (s'.next (.execute job stage'))) :=
  h.advance (y := s'.next (.execute job stage')) ht stage' hrunning hjob hwatcher hst ht'
    (fun hun => ⟨(hwritten hun).1, (hwritten hun).2, rfl⟩) rfl
    (fun u hu => .inl (by simpa using hu)) (by simp) (by simp [ht']) fun _ => rfl

/-- An assignment ends with an error before it has written anything. -/
lemma error (hunwritten : (Task.execute (κ := κ) (ω := ω) job stage).unwritten = true) :
    Whole s (after rest s.error) := by
  have hrun := h.running_of_assigning ht
  have hothers := h.not_assigning ht
  obtain ⟨hnone, hall⟩ := h.unwritten ⟨_, List.mem_cons_self, hunwritten⟩
  have hmem : ∀ {u}, u ∈ after rest s.error → u ∈ rest ∨ u = .reboot .background .scheduled := by
    intro u hu
    rcases mem_after.1 hu with ⟨hu, -⟩ | hu
    · exact .inl hu
    · exact .inr (by simpa using hu)
  refine ⟨h.job, fun hidle => ?_, fun job' stage' hin hassign => ?_, fun _ => ⟨hnone, fun u hu => ?_⟩,
    ?_, fun _ => .inr ⟨.reboot .background .scheduled, mem_after.2 (.inr (by simp)), .inr rfl⟩,
    fun _ => ⟨.reboot .background .scheduled, mem_after.2 (.inr (by simp)), rfl⟩, h.status⟩
  · simp [hrun] at hidle
  · rcases hmem hin with hin | hin
    · simp [hothers _ hin] at hassign
    · cases hin
  · rcases hmem hu with hu | rfl
    · exact hall u (List.mem_cons_of_mem _ hu)
    · rfl
  · have hzero : rest.countP Task.assigning = 0 :=
      List.countP_eq_zero.2 fun u hu => by simp [hothers u hu]
    refine countP_after_le.trans ?_
    simp [hzero, Task.assigning]

/-- An assignment is taken back before it has written anything. -/
lemma takeBack (hunwritten : (Task.execute (κ := κ) (ω := ω) job stage).unwritten = true)
    (answered : Bool) :
    Whole (takeBack s) (after rest ((takeBack s).next (.execute job (.takenBack answered)))) := by
  have hothers := h.not_assigning ht
  obtain ⟨-, hnot⟩ := h.assigned job stage List.mem_cons_self ht
  obtain ⟨hnone, hall⟩ := h.unwritten ⟨_, List.mem_cons_self, hunwritten⟩
  have hquiet : ∀ u ∈ after rest ((Turnover.takeBack s).next (.execute job (.takenBack answered))),
      u.ofJob = false ∧ u.assigning = false := by
    intro u hu
    rcases mem_after.1 hu with ⟨hu, -⟩ | hu
    · exact ⟨hall u (List.mem_cons_of_mem _ hu), hothers u hu⟩
    · obtain rfl : u = .execute job (.takenBack answered) := by simpa using hu
      exact ⟨rfl, rfl⟩
  refine ⟨by simp [Turnover.takeBack], fun _ => ⟨hnone, hnot, hquiet⟩,
    fun job' stage' hin hassign => ?_, fun _ => ⟨hnone, fun u hu => (hquiet u hu).1⟩, ?_,
    fun hrun => by simp [Turnover.takeBack] at hrun,
    fun hst => by simp [Turnover.takeBack] at hst, fun hst => by simp [Turnover.takeBack] at hst⟩
  · simp [(hquiet _ hin).2] at hassign
  · rw [List.countP_eq_zero.2 fun u hu => by simp [(hquiet u hu).2]]
    exact Nat.zero_le 1

/-- The watcher is started. -/
lemma beginJob [DecidableEq ω] {ws idle : List ω} {ram cpu : Bool} :
    Whole (beginJob s job ws idle ram cpu).shared (after rest (beginJob s job ws idle ram cpu)) := by
  have hrun := h.running_of_assigning ht
  have hothers := h.not_assigning ht
  have hquiet : ∀ u ∈ after rest (Turnover.beginJob s job ws idle ram cpu), u.assigning = false := by
    intro u hu
    rcases mem_after.1 hu with ⟨hu, -⟩ | hu
    · exact hothers u hu
    · simp only [Turnover.beginJob, List.mem_append, List.mem_cons, List.not_mem_nil, or_false,
        List.mem_map] at hu
      rcases hu with (rfl | rfl) | ⟨m, -, rfl⟩ <;> rfl
  refine ⟨h.job, fun hidle => ?_, fun job' stage' hin hassign => ?_, fun hsome => ?_,
    ?_, fun _ => .inl rfl, fun hbt => ?_, h.status⟩
  · simp [Turnover.beginJob, hrun] at hidle
  · simp [hquiet _ hin] at hassign
  · obtain ⟨u, hu, hunwritten⟩ := hsome
    have := Task.assigning_of_unwritten hunwritten
    simp [hquiet u hu] at this
  · rw [List.countP_eq_zero.2 fun u hu => by simp [hquiet u hu]]
    exact Nat.zero_le 1
  · obtain ⟨u, hu, hboots⟩ := h.booting hbt
    rcases List.mem_cons.1 hu with rfl | hu
    · cases hboots
    · exact ⟨u, mem_after.2 (.inl ⟨hu, rfl⟩), hboots⟩

end Whole

section Segments

variable [DecidableEq κ] [DecidableEq ω] {a : Choice ω}

lemma whole_executeSegment {job : κ} {stage : ExecuteStage ω}
    (h : Whole s (.execute job stage :: rest)) (hok : Unbroken s rest (.execute job stage) a)
    (hy : executeSegment s job stage a = some y) : Whole y.shared (after rest y) := by
  unfold executeSegment at hy
  split at hy
  · split_ifs at hy with hrefused
    · obtain rfl := Option.some.inj hy
      exact (Plain.done (.refl s)).whole h rfl rfl
    · obtain rfl := Option.some.inj hy
      exact h.onJobStart (by simpa using fun hrun => hrefused (.inr (.inl hrun)))
  · obtain rfl := Option.some.inj hy
    exact h.error rfl rfl
  · split_ifs at hy with hmid
    · obtain rfl := Option.some.inj hy
      exact h.next rfl .aborting rfl rfl rfl rfl rfl fun _ => ⟨rfl, rfl⟩
    · -- the job and the watcher are as `on_job_start` left them
      exact absurd (h.assigned job .started List.mem_cons_self rfl) hmid
  · simp only at hy
    split_ifs at hy
    · obtain rfl := Option.some.inj hy
      exact h.next rfl .refusing rfl rfl rfl rfl rfl fun _ => ⟨rfl, rfl⟩
    · obtain rfl := Option.some.inj hy
      exact h.next rfl (.installing _ _) rfl rfl rfl rfl rfl fun hun => by cases hun
  · obtain rfl := Option.some.inj hy
    exact h.takeBack rfl rfl true
  · obtain rfl := Option.some.inj hy
    exact h.error rfl rfl
  · obtain rfl := Option.some.inj hy
    exact h.takeBack rfl rfl false
  · cases hok
  · obtain rfl := Option.some.inj hy
    exact (Plain.done (.refl s)).whole h rfl rfl
  · obtain rfl := Option.some.inj hy
    exact (Plain.error (.refl s)).whole h rfl rfl
  · obtain rfl := Option.some.inj hy
    exact (Plain.done (.refl s)).whole h rfl rfl
  · obtain rfl := Option.some.inj hy
    exact h.next rfl (.loading _ _ _) rfl rfl rfl rfl rfl fun hun => by cases hun
  · cases hok
  · -- one more worker has the function
    split_ifs at hy
    obtain rfl := Option.some.inj hy
    rename_i ws idle left w hw
    have hloop : Plain s (.load job w) (startLoop s job w) := plain_startLoop job w rfl
    have hnone : (startLoop s job w).tasks.countP Task.assigning = 0 :=
      List.countP_eq_zero.2 fun u hu => by simp [(hloop.tasks u hu).1]
    refine h.advance rfl (.loading ws idle (left.erase w)) hloop.apart.running
      hloop.apart.currentJob hloop.apart.jobWatcherTask hloop.apart.reportedStatus rfl
      (fun hun => by cases hun) rfl (fun u hu => ?_) List.mem_cons_self ?_ fun u => ?_
    · rcases List.mem_cons.1 hu with rfl | hu
      · exact .inl rfl
      · exact .inr (hloop.tasks u hu).1
    · rw [List.countP_cons_of_pos rfl, hnone]
    · unfold startLoop
      split_ifs <;> rfl
  · cases hok
  · obtain rfl := Option.some.inj hy
    exact h.beginJob rfl
  · cases hy

omit [DecidableEq κ] [DecidableEq ω] in
/-- `SELF` is new, and nothing was left behind. -/
lemma Whole.reinit (htidy : tidy s rest = true) {u : Task κ ω} (hassign : u.assigning = false)
    (hof : u.ofJob = false) {s' : Node κ ω} (hcred : s'.credentials = s.credentials)
    (hrunning : s'.self.running = false) (hjob : s'.self.currentJob = none)
    (hwatcher : s'.self.jobWatcherTask = false) (hst : s'.self.reportedStatus ≠ .running)
    (hboots : s'.self.reportedStatus = .booting → u.boots = true) :
    Whole s' (after rest (s'.next u)) := by
  obtain ⟨hnone, hall⟩ := tidy_iff.1 htidy
  have hquiet : ∀ v ∈ after rest (s'.next u), v.ofJob = false ∧ v.assigning = false := by
    intro v hv
    rcases mem_after.1 hv with ⟨hv, -⟩ | hv
    · exact hall v hv
    · obtain rfl : v = u := by simpa using hv
      exact ⟨hof, hassign⟩
  refine ⟨by simp [hrunning, hjob], fun _ => ⟨hcred.trans hnone, hwatcher, hquiet⟩,
    fun job' stage' hin has => ?_, fun _ => ⟨hcred.trans hnone, fun v hv => (hquiet v hv).1⟩, ?_,
    fun hrun => ?_, fun hbt => ⟨u, mem_after.2 (.inr (by simp)), hboots hbt⟩,
    fun hrun => absurd hrun hst⟩
  · simp [(hquiet _ hin).2] at has
  · rw [List.countP_eq_zero.2 fun v hv => by simp [(hquiet v hv).2]]
    exact Nat.zero_le 1
  · simp [hrunning] at hrun

omit [DecidableEq κ] [DecidableEq ω] in
/-- A reboot goes on. -/
lemma Whole.rebootNext {caller : Caller} {stage : RebootStage}
    (h : Whole s (.reboot caller stage :: rest)) {s' : Node κ ω} {u : Task κ ω}
    (hrunning : s'.self.running = s.self.running) (hjob : s'.self.currentJob = s.self.currentJob)
    (hwatcher : s'.self.jobWatcherTask = s.self.jobWatcherTask)
    (hcred : s'.credentials = s.credentials)
    (hu : u.assigning = false ∧ u.ofJob = false)
    (hreinits : (Task.reboot (κ := κ) (ω := ω) caller stage).reinits = true → u.reinits = true)
    (hbooting : s'.self.reportedStatus = .booting → u.boots = true)
    (hstatus : s'.self.reportedStatus = .running → s.self.reportedStatus = .running) :
    Whole s' (after rest (s'.next u)) := by
  refine h.go (y := s'.next u) rfl hrunning hjob hwatcher (.inl hcred) (fun v hv => ?_)
    (fun v hv => by simp [Node.next] at hv) (fun hre _ => ⟨u, by simp, hreinits hre⟩)
    (fun hbt => .inl ⟨u, by simp, hbooting hbt⟩) hstatus
  obtain rfl : v = u := by simpa using hv
  exact ⟨hu.1, fun hof => by simp [hu.2] at hof⟩

omit [DecidableEq κ] [DecidableEq ω] in
/-- A reboot ends, and the status says how. -/
lemma Whole.rebootEnd {caller : Caller} {stage : RebootStage}
    (h : Whole s (.reboot caller stage :: rest)) {s' : Node κ ω}
    (hrunning : s'.self.running = s.self.running) (hjob : s'.self.currentJob = s.self.currentJob)
    (hwatcher : s'.self.jobWatcherTask = s.self.jobWatcherTask)
    (hcred : s'.credentials = s.credentials)
    (hreinits : (Task.reboot (κ := κ) (ω := ω) caller stage).reinits = true →
      s.self.running = false)
    (hbooting : s'.self.reportedStatus = .booting →
      s.self.reportedStatus = .booting ∧ stage = .reporting)
    (hstatus : s'.self.reportedStatus = .running → s.self.reportedStatus = .running) :
    Whole s' (after rest s'.done) := by
  refine h.go (y := s'.done) rfl hrunning hjob hwatcher (.inl hcred) (fun v hv => by simp at hv)
    (fun v hv => by simp [Node.done] at hv) (fun hre hrun => ?_) (fun hbt => ?_) hstatus
  · simp [hreinits hre] at hrun
  · obtain ⟨hbefore, rfl⟩ := hbooting hbt
    exact .inr ⟨hbefore, rfl⟩

omit [DecidableEq κ] in
lemma whole_rebootSegment {caller : Caller} {stage : RebootStage}
    (h : Whole s (.reboot caller stage :: rest)) (hok : Unbroken s rest (.reboot caller stage) a)
    (hy : rebootSegment s caller stage a = some y) : Whole y.shared (after rest y) := by
  have hfail : ((Task.reboot (κ := κ) (ω := ω) caller stage).reinits = true →
      s.self.running = false) →
      Whole (failReboot s caller).shared (after rest (failReboot s caller)) := by
    intro hreinits
    unfold failReboot
    simp only
    split_ifs
    · refine h.go rfl rfl rfl rfl (.inl rfl) (fun v hv => ?_) (fun v hv => by cases hv)
        (fun hre hrun => by simp [hreinits hre] at hrun) (fun hbt => by cases hbt)
        fun hst => by cases hst
      obtain rfl : v = .reboot .background .scheduled := by simpa using hv
      exact ⟨rfl, fun hof => by cases hof⟩
    · exact h.rebootEnd rfl rfl rfl rfl hreinits (fun hbt => by cases hbt) fun hst => by cases hst
  have hexpire : ((Task.reboot (κ := κ) (ω := ω) caller stage).reinits = true →
      s.self.running = false) → ∀ {y}, (if caller = .jobEnd then
        some { s with self := { s.self with reportedStatus := .failed } }.done
      else none) = some y → Whole y.shared (after rest y) := by
    intro hreinits y hy
    split_ifs at hy
    obtain rfl := Option.some.inj hy
    exact h.rebootEnd rfl rfl rfl rfl hreinits (fun hbt => by cases hbt) fun hst => by cases hst
  have hstart : ∀ caller', Whole (startReboot s)
      (after rest ((startReboot s).next (.reboot caller' .asking))) := fun caller' =>
    h.rebootNext rfl rfl rfl rfl ⟨rfl, rfl⟩ (fun _ => rfl) (fun _ => rfl) fun hst => by cases hst
  unfold rebootSegment at hy
  split at hy
  · split_ifs at hy
    · obtain rfl := Option.some.inj hy
      exact (Plain.done (.refl s)).whole h rfl rfl
    · obtain rfl := Option.some.inj hy
      exact hstart caller
  · obtain rfl := Option.some.inj hy
    exact hstart caller
  · rename_i terminal
    simp only [Unbroken, unbroken, Bool.and_eq_true, Bool.not_eq_true'] at hok
    obtain ⟨rfl, htidy⟩ := hok
    obtain rfl := Option.some.inj hy
    exact Whole.reinit htidy rfl rfl rfl rfl rfl rfl (fun hst => by cases hst) fun _ => rfl
  · split_ifs at hy
    obtain rfl := Option.some.inj hy
    exact h.rebootNext rfl rfl rfl rfl ⟨rfl, rfl⟩ (fun hre => by cases hre) (fun _ => rfl)
      fun hst => hst
  · obtain rfl := Option.some.inj hy
    exact h.rebootNext rfl rfl rfl rfl ⟨rfl, rfl⟩ (fun hre => by cases hre) (fun _ => rfl)
      fun hst => hst
  · rename_i terminal
    simp only [Unbroken, unbroken, Bool.not_eq_true'] at hok
    subst hok
    obtain rfl := Option.some.inj hy
    exact h.rebootNext rfl rfl rfl rfl ⟨rfl, rfl⟩ (fun hre => by cases hre)
      (fun hbt => by cases hbt) fun hst => by cases hst
  · obtain rfl := Option.some.inj hy
    exact h.rebootEnd rfl rfl rfl rfl (fun hre => by cases hre) (fun hbt => ⟨hbt, rfl⟩)
      fun hst => hst
  · obtain rfl := Option.some.inj hy
    exact hfail fun _ => by simpa [Unbroken, unbroken] using hok
  iterate 4
    · obtain rfl := Option.some.inj hy
      exact hfail fun hre => by cases hre
  · exact hexpire (fun _ => by simpa [Unbroken, unbroken] using hok) hy
  iterate 4
    · exact hexpire (fun hre => by cases hre) hy
  · cases hy

omit [DecidableEq κ] in
lemma whole_watcherSegment {n : ℕ} {stage : WatcherStage}
    (h : Whole s (.jobWatcher n stage :: rest)) (hok : Unbroken s rest (.jobWatcher n stage) a)
    (hy : watcherSegment s n stage a = some y) : Whole y.shared (after rest y) := by
  -- what a watcher cancels is neither an assignment nor a reboot
  have hsteal : ∀ u : Task κ ω, u.stealOf n = true → u.assigning = false ∧ u.boots = false := by
    intro u hu
    cases u <;> first | cases hu | exact ⟨rfl, rfl⟩
  have hgo : ∀ {s' : Node κ ω} {stage' : WatcherStage} {cancels : Task κ ω → Bool}, Apart s s' →
      (∀ u, cancels u = true → u.assigning = false ∧ u.boots = false) →
      Whole s' (after rest ⟨s', [.jobWatcher n stage'], cancels⟩) := by
    intro s' stage' cancels hs hcancels
    refine Plain.whole (y := ⟨s', [.jobWatcher n stage'], cancels⟩) ⟨hs, fun u hu => ?_, hcancels⟩
      h rfl rfl
    obtain rfl := List.mem_singleton.1 hu
    exact ⟨rfl, fun hof => by cases hof⟩
  have hreboot : ∀ {s' : Node κ ω} {cancels : Task κ ω → Bool}, Apart s s' →
      (∀ u, cancels u = true → u.assigning = false ∧ u.boots = false) →
      Whole (startReboot s') (after rest ⟨startReboot s', [.reboot .jobEnd .asking], cancels⟩) := by
    intro s' cancels hs hcancels
    refine h.go (y := ⟨startReboot s', [.reboot .jobEnd .asking], cancels⟩) rfl hs.running
      hs.currentJob hs.jobWatcherTask (.inl hs.credentials) (fun u hu => ?_) hcancels
      (fun hre => by cases hre) (fun _ => .inl ⟨_, List.mem_cons_self, rfl⟩) fun hst => by cases hst
    obtain rfl := List.mem_singleton.1 hu
    exact ⟨rfl, fun hof => by cases hof⟩
  unfold watcherSegment at hy
  split at hy
  · split_ifs at hy
    obtain rfl := Option.some.inj hy
    exact Plain.whole (s := s) ⟨.refl s, (fun u hu => by cases hu), hsteal⟩ h rfl rfl
  · split_ifs at hy
    obtain rfl := Option.some.inj hy
    exact hgo ⟨rfl, rfl, rfl, rfl, rfl⟩ hsteal
  · rename_i crashed marked
    obtain rfl := Option.some.inj hy
    have hmark : Apart s
        (if marked = true then (s.self.currentJob.map s.markFailed).getD s else s) := by
      cases marked <;> cases s.self.currentJob <;> constructor <;> rfl
    refine hgo hmark fun u hu => ?_
    split_ifs at hu
    exact hsteal u hu
  · -- the credentials go with the monitors
    obtain rfl := Option.some.inj hy
    refine h.go rfl rfl rfl rfl (.inr rfl) (fun u hu => ?_) (fun u hu => ?_) (fun hre => by cases hre)
      (fun hbt => .inr ⟨hbt, rfl⟩) fun hst => hst
    · obtain rfl := List.mem_singleton.1 hu
      exact ⟨rfl, fun hof => by cases hof⟩
    · cases u <;> first | cases hu | exact ⟨rfl, rfl⟩
  · obtain rfl := Option.some.inj hy
    have hloops : ∀ (ws : List ω) (u : Task κ ω), u.loopOf ws = true →
        u.assigning = false ∧ u.boots = false := by
      intro ws u hu
      cases u <;> first | cases hu | exact ⟨rfl, rfl⟩
    by_cases hagain : s.self.rebootContainersAfterJob = true
    · simp only [if_pos hagain]
      exact hreboot ⟨rfl, rfl, rfl, rfl, rfl⟩ (hloops _)
    · simp only [if_neg hagain]
      exact hgo ⟨rfl, rfl, rfl, rfl, rfl⟩ (hloops _)
  · obtain rfl := Option.some.inj hy
    exact Whole.reinit hok rfl rfl rfl rfl rfl rfl (fun hst => by cases hst) fun hbt => by cases hbt
  · split_ifs at hy
    · obtain rfl := Option.some.inj hy
      exact (Plain.done (.refl s)).whole h rfl rfl
    · obtain rfl := Option.some.inj hy
      exact hreboot (.refl s) fun u hu => by cases hu
  · obtain rfl := Option.some.inj hy
    exact (Plain.done (.refl s)).whole h rfl rfl
  · obtain rfl := Option.some.inj hy
    exact hgo (.refl s) fun u hu => by cases hu
  · cases hy

lemma whole_segment {limit : ℕ} (h : Whole s (t :: rest)) (hok : Unbroken s rest t a)
    (hy : segment s limit t a = some y) : Whole y.shared (after rest y) := by
  unfold segment at hy
  split at hy
  · exact whole_executeSegment h hok hy
  · obtain rfl := Option.some.inj hy
    exact (plain_startLoop _ _ rfl).whole h rfl rfl
  · obtain rfl := Option.some.inj hy
    exact (Plain.done (.refl s)).whole h rfl rfl
  · exact (plain_uploadSegment hy).whole h rfl rfl
  · exact (plain_getInputsSegment hy).whole h rfl rfl
  · exact (plain_revokingSegment hy).whole h rfl rfl
  · obtain rfl := Option.some.inj hy
    exact (plain_ackTransferSegment _ _ _).whole h rfl rfl
  · exact (plain_tradeSegment hy).whole h rfl rfl
  · obtain rfl := Option.some.inj hy
    exact (plain_getResultsSegment _ _).whole h rfl rfl
  · obtain rfl := Option.some.inj hy
    exact (Plain.done (.refl s)).whole h rfl rfl
  · obtain rfl := Option.some.inj hy
    exact (Plain.error (.refl s)).whole h rfl rfl
  · -- a node that shuts down reports DELETED or what it reported before
    rename_i reports
    obtain rfl := Option.some.inj hy
    have hstatus : ∀ status : NodeStatus, status ≠ .deleted →
        (shutDown s reports).self.reportedStatus = status → s.self.reportedStatus = status := by
      intro status hne hst
      simp only [shutDown] at hst
      split_ifs at hst
      · exact absurd hst.symm hne
      · exact hst
    exact h.go rfl rfl rfl rfl (.inl rfl) (fun u hu => by cases hu) (fun u hu => by cases hu)
      (fun hre => by cases hre)
      (fun hbt => .inr ⟨hstatus .booting (fun heq => by cases heq) hbt, rfl⟩)
      (hstatus .running fun heq => by cases heq)
  · exact whole_rebootSegment h hok hy
  · exact (plain_stealSegment hy).whole h rfl rfl
  · exact whole_watcherSegment h hok hy
  · exact (plain_processInputsSegment hy).whole h rfl rfl
  · exact (plain_monitorSegment hy).whole h rfl rfl
  · rename_i job
    obtain rfl := Option.some.inj hy
    have hmark : Plain s (.markFailed job) ({ s with failedJobs := job :: s.failedJobs }).done :=
      .done ⟨rfl, rfl, rfl, rfl, rfl⟩
    exact hmark.whole h rfl rfl
  · cases hy

end Segments

end Whole

/-! ### Main results -/

/-- A request that comes in is no assignment yet. -/
lemma Task.not_of_outside {t : Task κ ω} (h : t.outside = true) :
    t.assigning = false ∧ t.ofJob = false ∧ t.unwritten = false := by
  unfold outside at h
  split at h <;> first | exact ⟨rfl, rfl, rfl⟩ | cases h

lemma whole_upheld (κ ω : Type*) [DecidableEq κ] [DecidableEq ω] (limit : ℕ) :
    (nodeService κ ω limit).Upheld Unbroken Whole where
  perm s ts ts' hperm h := by
    have hmem : ∀ u, u ∈ ts ↔ u ∈ ts' := fun u => hperm.mem_iff
    refine ⟨h.job, fun hidle => ?_, fun job stage hin => h.assigned job stage ((hmem _).2 hin),
      fun hsome => ?_, hperm.countP_eq _ ▸ h.one, fun hrun => ?_, fun hbt => ?_, h.status⟩
    · obtain ⟨hcred, hwatch, hts⟩ := h.idle hidle
      exact ⟨hcred, hwatch, fun u hu => hts u ((hmem u).2 hu)⟩
    · obtain ⟨u, hu, hun⟩ := hsome
      obtain ⟨hcred, hts⟩ := h.unwritten ⟨u, (hmem u).2 hu, hun⟩
      exact ⟨hcred, fun v hv => hts v ((hmem v).2 hv)⟩
    · rcases h.begun hrun with hwatch | ⟨u, hu, hbegun⟩
      · exact .inl hwatch
      · exact .inr ⟨u, (hmem u).1 hu, hbegun⟩
    · obtain ⟨u, hu, hboots⟩ := h.booting hbt
      exact ⟨u, (hmem u).1 hu, hboots⟩
  init s ts hs := by
    have hself : s.self = reinitSelf 0 := hs.self
    have hts : ts = [.reboot .startup .scheduled] := hs.tasks
    refine ⟨by simp [hself, reinitSelf], fun _ => ⟨hs.credentials, by simp [hself, reinitSelf],
      fun u hu => ?_⟩, fun job stage hin => ?_, fun hsome => ?_, ?_, fun hrun => ?_,
      fun _ => ?_, fun hst => ?_⟩
    · obtain rfl : u = .reboot .startup .scheduled := by simpa [hts] using hu
      exact ⟨rfl, rfl⟩
    · simp [hts] at hin
    · obtain ⟨u, hu, hun⟩ := hsome
      obtain rfl : u = .reboot .startup .scheduled := by simpa [hts] using hu
      cases hun
    · simp [hts, Task.assigning]
    · simp [hself, reinitSelf] at hrun
    · exact ⟨.reboot .startup .scheduled, by simp [hts], rfl⟩
    · simp [hself, reinitSelf] at hst
  arrive s t ts h harr := by
    have hout : t.outside = true := by
      simp only [nodeService, Bool.and_eq_true] at harr
      exact harr.2
    obtain ⟨hassign, hof, hun⟩ := Task.not_of_outside hout
    refine ⟨h.job, fun hidle => ?_, fun job stage hin has => ?_, fun hsome => ?_, ?_,
      fun hrun => ?_, fun hbt => ?_, h.status⟩
    · obtain ⟨hcred, hwatch, hts⟩ := h.idle hidle
      refine ⟨hcred, hwatch, fun u hu => ?_⟩
      rcases List.mem_cons.1 hu with rfl | hu
      · exact ⟨hof, hassign⟩
      · exact hts u hu
    · rcases List.mem_cons.1 hin with heq | hin
      · rw [heq, hassign] at has
        cases has
      · exact h.assigned job stage hin has
    · obtain ⟨u, hu, hunw⟩ := hsome
      rcases List.mem_cons.1 hu with rfl | hu
      · simp [hun] at hunw
      · obtain ⟨hcred, hts⟩ := h.unwritten ⟨u, hu, hunw⟩
        refine ⟨hcred, fun v hv => ?_⟩
        rcases List.mem_cons.1 hv with rfl | hv
        · exact hof
        · exact hts v hv
    · rw [List.countP_cons_of_neg (by simp [hassign])]
      exact h.one
    · rcases h.begun hrun with hwatch | ⟨u, hu, hbegun⟩
      · exact .inl hwatch
      · exact .inr ⟨u, List.mem_cons_of_mem t hu, hbegun⟩
    · obtain ⟨u, hu, hboots⟩ := h.booting hbt
      exact ⟨u, List.mem_cons_of_mem t hu, hboots⟩
  segment s rest t a y h hok hy := whole_segment h hok hy

section Main

variable [DecidableEq κ] [DecidableEq ω] {limit : ℕ} {s : Node κ ω × List (Task κ ω)}

/-- **Assignments are all or nothing** in unbroken runs, once none and no reboot is under way. -/
theorem whole_of_unbroken
    (hs : (nodeService κ ω limit).system.Reachable (EventLoop.During Unbroken) s)
    (hsettled : ∀ t ∈ s.2, t.assigning = false ∧ t.boots = false) : AllOrNothing s.1 s.2 := by
  have h : Whole s.1 s.2 := (whole_upheld κ ω limit).reachable hs
  cases hrun : s.1.self.running with
  | true =>
    refine .inl ⟨hrun, ?_, ?_⟩
    · rcases h.begun hrun with hwatch | ⟨u, hu, hbegun⟩
      · exact hwatch
      · obtain ⟨hassign, hboots⟩ := hsettled u hu
        rcases hbegun with hb | hb
        · simp [hassign] at hb
        · simp [Task.boots_of_reinits hb] at hboots
    · refine Option.ne_none_iff_exists'.1 fun hnone => ?_
      simp [h.job.2 hnone] at hrun
  | false =>
    obtain ⟨hcred, -, hts⟩ := h.idle hrun
    refine .inr ⟨hrun, h.job.1 hrun, ?_, hcred, fun w job stage hmem => ?_⟩
    · cases hst : s.1.self.reportedStatus with
      | booting =>
        obtain ⟨u, hu, hboots⟩ := h.booting hst
        simp [(hsettled u hu).2] at hboots
      | running => simp [h.status hst] at hrun
      | ready => simp
      | failed => simp
      | deleted => simp
    · have := (hts _ hmem).1
      cases this

end Main

/-! ### Runs -/

section Runs

/-- `install_packages` of job 1 raises, and the node reboots. -/
def installRaises : List (LoopEvent (Task ℕ ℕ) (Choice ℕ)) :=
  [.arrive (.execute 1 .posted), .run 0 .go, .run 0 (.assigns [0] 1), .run 0 .raises, .run 0 .go,
    .run 0 (.answered false), .run 0 (.creates [1]), .run 0 .go, .run 0 (.answered false),
    .run 0 .go]

def assigned : Node ℕ ℕ × List (Task ℕ ℕ) :=
  (((nodeService ℕ ℕ 1000).system.guarded (EventLoop.During Unbroken)).exec coldState
    (bootSteps ++ assignSteps)).get (by decide +kernel)

def installRaised : Node ℕ ℕ × List (Task ℕ ℕ) :=
  (((nodeService ℕ ℕ 1000).system.guarded System.always).exec coldState
    (bootSteps ++ installRaises)).get (by decide +kernel)

theorem whole_of_unbroken_assigned :
    assigned.1.self.currentJob = some 1 ∧ AllOrNothing assigned.1 assigned.2 := by
  have hrun : (nodeService ℕ ℕ 1000).system.Run (EventLoop.During Unbroken) coldState
      (bootSteps ++ assignSteps) assigned :=
    System.run_of_exec_guarded (Option.some_get _).symm
  exact ⟨by decide +kernel,
    whole_of_unbroken ⟨coldState, _, started_coldState, hrun⟩ (by decide +kernel)⟩

/-- **An assignment that raised leaves its credentials**, and nothing is left to remove them. -/
theorem assignment_leaves_credentials :
    ∃ s, (nodeService ℕ ℕ 1000).system.Reachable System.always s ∧
      s.1.self.reportedStatus = .ready ∧ s.1.self.currentJob = none ∧ s.2 = [] ∧
      s.1.credentials = some 1 ∧ ¬ AllOrNothing s.1 s.2 := by
  have hrun : (nodeService ℕ ℕ 1000).system.Run System.always coldState
      (bootSteps ++ installRaises) installRaised :=
    System.run_of_exec_guarded (Option.some_get _).symm
  have hcred : installRaised.1.credentials = some 1 := by decide +kernel
  have hrunning : installRaised.1.self.running = false := by decide +kernel
  refine ⟨installRaised, ⟨coldState, _, started_coldState, hrun⟩, by decide +kernel,
    by decide +kernel, by decide +kernel, hcred, ?_⟩
  rintro (⟨hbusy, -⟩ | ⟨-, -, -, hnone, -⟩)
  · simp [hrunning] at hbusy
  · simp [hcred] at hnone

end Runs

end Burla.Turnover
