/-
What crosses from one job of a node to the next.

In clean runs nothing does: the inputs that are queued while a job is current are that job's, the
results that are served are of its inputs, and only loops started for it wait at its queue.

* `queue_of_current_job`: no input crosses; in `upload_crosses` a handler of `upload_inputs` that
  has passed its last check queues its inputs for the next job;
* `results_of_current_job`: no result and no loop crosses; in `loop_crosses` a worker's loop
  outlives a reboot, delivers to the next job and waits for its inputs.
-/
import Burla.Turnover.Tenure

namespace Burla.Turnover

open Burla.Steal (Input)

variable {κ ω : Type*} [DecidableEq κ] [DecidableEq ω] {limit : ℕ}
  {s : Node κ ω × List (Task κ ω)} {k : κ}

/-- **In clean runs every queued input is one of the current job.** -/
theorem queue_of_current_job
    (hs : (nodeService κ ω limit).system.Reachable (EventLoop.During Clean) s)
    (hk : s.1.self.currentJob = some k) : ∀ x ∈ s.1.queue, x.job = k := by
  obtain ⟨howned, -⟩ := (clean_steady κ ω limit).reachable hs
  intro x hx
  have hjob := howned.queue x hx
  rw [hk] at hjob
  exact (Option.some.inj hjob).symm

/-- **In clean runs every result is one of the current job, and every loop at the queue is one of
its workers'.** -/
theorem results_of_current_job
    (hs : (nodeService κ ω limit).system.Reachable (EventLoop.During Clean) s)
    (hk : s.1.self.currentJob = some k) :
    (∀ r ∈ s.1.self.resultsQueue ++ s.1.self.pendingResultBatch, r.item.job = k) ∧
      ∀ w job, .processInputs w job (.getting s.1.self.inputsQueue) ∈ s.2 → job = k := by
  obtain ⟨howned, htasks⟩ := (clean_steady κ ω limit).reachable hs
  constructor
  · intro r hr
    have hjob : s.1.self.currentJob = some r.item.job := by
      rcases List.mem_append.1 hr with hr | hr
      · exact howned.results r hr
      · exact howned.batch r hr
    rw [hk] at hjob
    exact (Option.some.inj hjob).symm
  · intro w job hmem
    have hloop : Task.Owned s.1 (.processInputs w job (.getting s.1.self.inputsQueue)) :=
      htasks _ hmem
    rcases hloop with ⟨-, hjob⟩ | ⟨hlt, -⟩
    · rw [hk] at hjob
      exact (Option.some.inj hjob).symm
    · exact absurd hlt (lt_irrefl _)

/-! ### Runs -/

section Runs

/-- A node service that is started. -/
def coldNode : Node ℕ ℕ where
  self := reinitSelf 0
  queues _ := []
  worker _ := .fresh
  made := []
  credentials := none
  serving := false
  taskIds := 0
  failedJobs := []

def coldState : Node ℕ ℕ × List (Task ℕ ℕ) := (coldNode, [.reboot .startup .scheduled])

lemma started_coldState : (nodeService ℕ ℕ limit).system.init coldState where
  self := rfl
  queue := rfl
  worker _ := rfl
  made := rfl
  credentials := rfl
  serving := rfl
  tasks := rfl

def firstInput : Input := ⟨0, [0]⟩

/-- The first boot, with one worker. -/
def bootSteps : List (LoopEvent (Task ℕ ℕ) (Choice ℕ)) :=
  [.run 0 .go, .run 0 (.answered false), .run 0 (.creates [0]), .run 0 .go, .run 0 (.answered false),
    .run 0 .go]

/-- Job 1 is assigned: its worker's loop, its watcher and its steal loop are started. -/
def assignSteps : List (LoopEvent (Task ℕ ℕ) (Choice ℕ)) :=
  [.arrive (.execute 1 .posted), .run 0 .go, .run 0 (.assigns [0] 1), .run 0 .go, .run 0 (.loads 0),
    .run 0 (.begins false false)]

/-- An input is uploaded. -/
def uploadSteps : List (LoopEvent (Task ℕ ℕ) (Choice ℕ)) :=
  [.arrive (.uploadInputs 1 [firstInput] .arrived), .run 3 .go, .run 3 .go]

/-- A handler passes its check while the workers are reset. -/
def uploadCrosses : List (LoopEvent (Task ℕ ℕ) (Choice ℕ)) :=
  [.run 1 (.jobOver false false), .run 1 .go, .run 1 .go,
    .arrive (.uploadInputs 1 [firstInput] .arrived), .run 1 .go, .run 0 .go, .run 0 .go,
    .arrive (.execute 2 .posted), .run 1 .go]

/-- A worker's call breaks when a reboot kills its container. -/
def loopCrosses : List (LoopEvent (Task ℕ ℕ) (Choice ℕ)) :=
  [.run 0 .go, .run 2 .go, .arrive (.reboot .endpoint .arrived), .run 3 .go, .run 3 (.answered false),
    .run 0 .stops, .run 1 (.creates [1]), .run 0 (.breaks []), .run 1 .go, .run 1 .go, .run 0 .go,
    .run 1 (.answered false), .run 1 .go, .arrive (.execute 2 .posted), .run 1 .go]

/-- The worker runs the input and waits for the next. -/
def loopRuns : List (LoopEvent (Task ℕ ℕ) (Choice ℕ)) :=
  [.run 0 .go, .run 2 .go, .run 2 (.returns false []), .run 2 .go, .run 2 .go]

def uploaded : Node ℕ ℕ × List (Task ℕ ℕ) :=
  (((nodeService ℕ ℕ 1000).system.guarded (EventLoop.During Clean)).exec coldState
    (bootSteps ++ assignSteps ++ uploadSteps)).get (by decide +kernel)

def served : Node ℕ ℕ × List (Task ℕ ℕ) :=
  (((nodeService ℕ ℕ 1000).system.guarded (EventLoop.During Clean)).exec coldState
    (bootSteps ++ assignSteps ++ uploadSteps ++ loopRuns)).get (by decide +kernel)

theorem queue_of_current_job_uploaded :
    uploaded.1.queue ≠ [] ∧ ∀ x ∈ uploaded.1.queue, x.job = 1 := by
  have hrun : (nodeService ℕ ℕ 1000).system.Run (EventLoop.During Clean) coldState
      (bootSteps ++ assignSteps ++ uploadSteps) uploaded :=
    System.run_of_exec_guarded (Option.some_get _).symm
  exact ⟨by decide +kernel,
    queue_of_current_job ⟨coldState, _, started_coldState, hrun⟩ (by decide +kernel)⟩

theorem results_of_current_job_served :
    (∀ r ∈ served.1.self.resultsQueue ++ served.1.self.pendingResultBatch, r.item.job = 1) ∧
      ∀ w job, .processInputs w job (.getting served.1.self.inputsQueue) ∈ served.2 → job = 1 := by
  have hrun : (nodeService ℕ ℕ 1000).system.Run (EventLoop.During Clean) coldState
      (bootSteps ++ assignSteps ++ uploadSteps ++ loopRuns) served :=
    System.run_of_exec_guarded (Option.some_get _).symm
  exact results_of_current_job ⟨coldState, _, started_coldState, hrun⟩ (by decide +kernel)

def uploadCrossed : Node ℕ ℕ × List (Task ℕ ℕ) :=
  (((nodeService ℕ ℕ 1000).system.guarded System.always).exec coldState
    (bootSteps ++ assignSteps ++ uploadCrosses)).get (by decide +kernel)

def loopCrossed : Node ℕ ℕ × List (Task ℕ ℕ) :=
  (((nodeService ℕ ℕ 1000).system.guarded System.always).exec coldState
    (bootSteps ++ assignSteps ++ uploadSteps ++ loopCrosses)).get (by decide +kernel)

/-- **Inputs cross**: an input of job 1 is in the queue of job 2. -/
theorem upload_crosses :
    ∃ s, (nodeService ℕ ℕ 1000).system.Reachable System.always s ∧ s.1.self.currentJob = some 2 ∧
      ∃ x ∈ s.1.queue, x.job = 1 := by
  have hrun : (nodeService ℕ ℕ 1000).system.Run System.always coldState
      (bootSteps ++ assignSteps ++ uploadCrosses) uploadCrossed :=
    System.run_of_exec_guarded (Option.some_get _).symm
  exact ⟨uploadCrossed, ⟨coldState, _, started_coldState, hrun⟩, by decide +kernel, by decide +kernel⟩

/-- **Loops cross**: job 2 has a result of job 1, and a loop of job 1 waits for its inputs. -/
theorem loop_crosses :
    ∃ s, (nodeService ℕ ℕ 1000).system.Reachable System.always s ∧ s.1.self.currentJob = some 2 ∧
      (∃ r ∈ s.1.self.resultsQueue, r.item.job = 1) ∧
      .processInputs 0 1 (.getting s.1.self.inputsQueue) ∈ s.2 := by
  have hrun : (nodeService ℕ ℕ 1000).system.Run System.always coldState
      (bootSteps ++ assignSteps ++ uploadSteps ++ loopCrosses) loopCrossed :=
    System.run_of_exec_guarded (Option.some_get _).symm
  exact ⟨loopCrossed, ⟨coldState, _, started_coldState, hrun⟩, by decide +kernel, by decide +kernel,
    by decide +kernel⟩

end Runs

end Burla.Turnover
