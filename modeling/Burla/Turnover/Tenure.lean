/-
What is under way at a node belongs to its current job.

A job's end at the node changes `current_job`, and in most cases puts new queues into `SELF`.
Nothing waits there for the tasks of the job: a handler between its check and its put, a loop with
an input, an assignment that is half done go on under the next job.  Where every end finds them all
at rest (`Clean`), whatever the node and its tasks hold is of the current job (`clean_steady`).
-/
import Burla.Turnover.Node

namespace Burla.Turnover

open Burla.Steal (Input)

variable {κ ω : Type*}

/-! ### Operations -/

namespace Node

variable {s : Node κ ω}

@[simp] lemma done_shared : s.done.shared = s := rfl

@[simp] lemma done_tasks : s.done.tasks = [] := rfl

@[simp] lemma next_shared (t : Task κ ω) : (s.next t).shared = s := rfl

@[simp] lemma next_tasks (t : Task κ ω) : (s.next t).tasks = [t] := rfl

@[simp] lemma error_shared : s.error.shared = s := rfl

@[simp] lemma error_tasks : s.error.tasks = [.reboot .background .scheduled] := rfl

@[simp] lemma queue_setQueue (xs : List (Item κ)) : (s.setQueue xs).queue = xs := by
  simp [queue, setQueue]

variable [DecidableEq ω] {ws : List ω} {w : ω}

lemma worker_setWorkers (f : Worker κ → Worker κ) :
    (s.setWorkers ws f).worker w = if w ∈ ws then f (s.worker w) else s.worker w := rfl

@[simp] lemma currentInput_retire :
    ((s.retire ws).worker w).currentInput = (s.worker w).currentInput := by
  simp only [retire, worker_setWorkers]
  split_ifs <;> rfl

lemma currentInput_clear :
    ((s.clear ws).worker w).currentInput = if w ∈ ws then none else (s.worker w).currentInput := by
  simp only [clear, worker_setWorkers]
  split_ifs <;> rfl

end Node

/-! ### What belongs to the current job -/

/-- What the node holds is of its current job. -/
structure Owned (s : Node κ ω) : Prop where
  queue : ∀ x ∈ s.queue, s.self.currentJob = some x.job
  transfers : ∀ t xs, s.self.pendingTransfers.get t = some xs →
    ∀ x ∈ xs, s.self.currentJob = some x.job
  results : ∀ r ∈ s.self.resultsQueue, s.self.currentJob = some r.item.job
  batch : ∀ r ∈ s.self.pendingResultBatch, s.self.currentJob = some r.item.job
  held : ∀ w ∈ s.self.workers, ∀ x, (s.worker w).currentInput = some x →
    s.self.currentJob = some x.job
  function : ∀ job, s.self.functionPkl = some job → s.self.currentJob = some job
  running : s.self.running = false → s.self.currentJob = none

/-- What a task has in hand, and what it will go on with, is of the current job. -/
def Task.Owned (s : Node κ ω) : Task κ ω → Prop
  | .execute _ .posted | .execute _ (.takenBack _) => True
  | .execute job .started | .execute job .refusing | .execute job .aborting | .load job _ =>
    s.self.currentJob = some job
  | .execute job (.installing ws _) | .execute job (.loading ws _ _) =>
    s.self.currentJob = some job ∧
      ∀ w ∈ ws, ∀ x, (s.worker w).currentInput = some x → s.self.currentJob = some x.job
  | .uploadInputs job inputs .passed => inputs ≠ [] → s.self.currentJob = some job
  | .revoking _ items | .inputSteal _ (.locking items) =>
    ∀ x ∈ items, s.self.currentJob = some x.job
  | .inputSteal _ (.getting job) => s.self.currentJob = some job
  | .processInputs _ job .top => s.self.currentJob = some job
  | .processInputs _ job (.getting q) =>
    (q = s.self.inputsQueue ∧ s.self.currentJob = some job) ∨
      (q < s.self.inputsQueue ∧ s.queues q = [])
  | .processInputs _ job (.calling x) | .processInputs _ job (.requeuing x _) =>
    s.self.currentJob = some job ∧ x.job = job
  | .processInputs _ job (.finishing r _) => s.self.currentJob = some job ∧ r.item.job = job
  | .monitor _ (.shedding ws) =>
    ∀ w ∈ ws, ∀ x, (s.worker w).currentInput = some x → s.self.currentJob = some x.job
  | .monitor _ (.booting w _) =>
    ∀ x, (s.worker w).currentInput = some x → s.self.currentJob = some x.job
  | .monitor _ (.handing w _ job) =>
    s.self.currentJob = some job ∧
      ∀ x, (s.worker w).currentInput = some x → s.self.currentJob = some x.job
  | _ => True

/-! ### Steps within a job -/

/-- The job and the queue stay, old queues get nothing, and workers take inputs of the job. -/
structure Within (s s' : Node κ ω) : Prop where
  currentJob : s'.self.currentJob = s.self.currentJob
  inputsQueue : s'.self.inputsQueue = s.self.inputsQueue
  stale : ∀ q, q ≠ s.self.inputsQueue → s.queues q = [] → s'.queues q = []
  held : ∀ w x, (s'.worker w).currentInput = some x →
    (s.worker w).currentInput = some x ∨ s.self.currentJob = some x.job

namespace Within

variable {s s' s'' : Node κ ω}

lemma refl (s : Node κ ω) : Within s s where
  currentJob := rfl
  inputsQueue := rfl
  stale _ _ h := h
  held _ _ h := .inl h

lemma trans (h : Within s s') (h' : Within s' s'') : Within s s'' where
  currentJob := h'.currentJob.trans h.currentJob
  inputsQueue := h'.inputsQueue.trans h.inputsQueue
  stale q hq hempty := h'.stale q (by rwa [h.inputsQueue]) (h.stale q hq hempty)
  held w x hx := by
    rcases h'.held w x hx with hx | hjob
    · exact h.held w x hx
    · exact .inr (by rwa [h.currentJob] at hjob)

/-- A worker's input stays one of the job. -/
lemma heldJob (h : Within s s') {w : ω} {x : Item κ}
    (hjob : ∀ x, (s.worker w).currentInput = some x → s.self.currentJob = some x.job)
    (hx : (s'.worker w).currentInput = some x) : s'.self.currentJob = some x.job := by
  rw [h.currentJob]
  rcases h.held w x hx with hx | hx
  · exact hjob x hx
  · exact hx

/-- Other tasks do not notice. -/
lemma owned (h : Within s s') : ∀ {t : Task κ ω}, t.Owned s → t.Owned s'
  | .execute _ .posted, _ | .execute _ (.takenBack _), _ => trivial
  | .execute _ .started, ht | .execute _ .refusing, ht | .execute _ .aborting, ht
  | .load _ _, ht => h.currentJob.trans ht
  | .execute _ (.installing _ _), ht | .execute _ (.loading _ _ _), ht =>
    ⟨h.currentJob.trans ht.1, fun w hw _ => h.heldJob (ht.2 w hw)⟩
  | .uploadInputs _ _ .passed, ht => fun hne => h.currentJob.trans (ht hne)
  | .uploadInputs _ _ .arrived, _ | .uploadInputs _ _ .waiting, _ => trivial
  | .revoking _ _, ht | .inputSteal _ (.locking _), ht => fun x hx => h.currentJob.trans (ht x hx)
  | .inputSteal _ (.getting _), ht => h.currentJob.trans ht
  | .inputSteal _ .head, _ | .inputSteal _ .sleeping, _ | .inputSteal _ .acking, _ => trivial
  | .processInputs _ _ .top, ht => h.currentJob.trans ht
  | .processInputs _ _ (.getting q), ht => by
    rcases ht with ⟨hq, hjob⟩ | ⟨hq, hempty⟩
    · exact .inl ⟨hq.trans h.inputsQueue.symm, h.currentJob.trans hjob⟩
    · exact .inr ⟨by rwa [h.inputsQueue], h.stale q hq.ne hempty⟩
  | .processInputs _ _ (.calling _), ht | .processInputs _ _ (.requeuing _ _), ht
  | .processInputs _ _ (.finishing _ _), ht => ⟨h.currentJob.trans ht.1, ht.2⟩
  | .monitor _ (.shedding _), ht => fun w hw _ => h.heldJob (ht w hw)
  | .monitor _ (.booting _ _), ht => fun _ => h.heldJob ht
  | .monitor _ (.handing _ _ _), ht => ⟨h.currentJob.trans ht.1, fun _ => h.heldJob ht.2⟩
  | .monitor _ .idle, _ | .monitor _ (.clearing _), _ | .getInputs _ _ _ _, _
  | .ackTransfer _ _ _, _ | .tradeSlots _ _, _ | .getResults _ _, _ | .request, _ | .shutdown _, _
  | .reboot _ _, _ | .jobWatcher _ _, _ | .markFailed _, _ => trivial

end Within

/-- Nothing that the invariant is about is written. -/
structure Untouched (s s' : Node κ ω) : Prop where
  queues : s'.queues = s.queues
  worker : s'.worker = s.worker
  inputsQueue : s'.self.inputsQueue = s.self.inputsQueue
  currentJob : s'.self.currentJob = s.self.currentJob
  pendingTransfers : s'.self.pendingTransfers = s.self.pendingTransfers
  resultsQueue : s'.self.resultsQueue = s.self.resultsQueue
  pendingResultBatch : s'.self.pendingResultBatch = s.self.pendingResultBatch
  workers : s'.self.workers = s.self.workers
  functionPkl : s'.self.functionPkl = s.self.functionPkl
  running : s'.self.running = s.self.running

namespace Untouched

variable {s s' : Node κ ω} (h : Untouched s s')
include h

lemma within : Within s s' where
  currentJob := h.currentJob
  inputsQueue := h.inputsQueue
  stale q _ hq := by rwa [h.queues]
  held w x hx := .inl (by rwa [h.worker] at hx)

lemma owned (hs : Owned s) : Owned s' where
  queue x hx := by
    rw [Node.queue, h.queues, h.inputsQueue] at hx
    rw [h.currentJob]
    exact hs.queue x hx
  transfers := by
    rw [h.pendingTransfers, h.currentJob]
    exact hs.transfers
  results := by
    rw [h.resultsQueue, h.currentJob]
    exact hs.results
  batch := by
    rw [h.pendingResultBatch, h.currentJob]
    exact hs.batch
  held := by
    rw [h.workers, h.worker, h.currentJob]
    exact hs.held
  function := by
    rw [h.functionPkl, h.currentJob]
    exact hs.function
  running := by
    rw [h.running, h.currentJob]
    exact hs.running

end Untouched

section Operations

variable {s : Node κ ω}

lemma Owned.put (h : Owned s) {xs : List (Item κ)}
    (hxs : ∀ x ∈ xs, s.self.currentJob = some x.job) : Owned (s.put xs) where
  queue x hx := by
    rw [Node.put, Node.queue_setQueue] at hx
    rcases List.mem_append.1 hx with hx | hx
    · exact h.queue x hx
    · exact hxs x hx
  transfers := h.transfers
  results := h.results
  batch := h.batch
  held := h.held
  function := h.function
  running := h.running

lemma Within.setQueue (s : Node κ ω) (xs : List (Item κ)) : Within s (s.setQueue xs) where
  currentJob := rfl
  inputsQueue := rfl
  stale q hq hempty := by
    rw [Node.setQueue]
    simpa [Function.update_of_ne hq] using hempty
  held _ _ hx := .inl hx

lemma Owned.deliver (h : Owned s) {r : Outcome κ} (hr : s.self.currentJob = some r.item.job) :
    Owned (s.deliver r) where
  queue := h.queue
  transfers := h.transfers
  results r' hr' := by
    rcases List.mem_append.1 hr' with hr' | hr'
    · exact h.results r' hr'
    · obtain rfl : r' = r := List.mem_singleton.1 hr'
      exact hr
  batch := h.batch
  held := h.held
  function := h.function
  running := h.running

lemma Within.deliver (s : Node κ ω) (r : Outcome κ) : Within s (s.deliver r) :=
  ⟨rfl, rfl, fun _ _ hq => hq, fun _ _ hx => .inl hx⟩

/-- The inputs of the node's workers are of the job. -/
lemma currentJob_of_mem_currentInputs {ws : List ω}
    (hws : ∀ w ∈ ws, ∀ x, (s.worker w).currentInput = some x → s.self.currentJob = some x.job) :
    ∀ x ∈ s.currentInputs ws, s.self.currentJob = some x.job := by
  intro x hx
  obtain ⟨w, hw, hx⟩ := List.mem_filterMap.1 hx
  exact hws w hw x hx

variable [DecidableEq ω]

/-- Workers may lose their inputs, or get one of the job. -/
lemma Owned.setWorkers (h : Owned s) (ws : List ω) {f : Worker κ → Worker κ}
    (hf : ∀ w x, (f (s.worker w)).currentInput = some x →
      (s.worker w).currentInput = some x ∨ s.self.currentJob = some x.job) :
    Owned (s.setWorkers ws f) where
  queue := h.queue
  transfers := h.transfers
  results := h.results
  batch := h.batch
  held w hw x hx := by
    rw [Node.worker_setWorkers] at hx
    split_ifs at hx
    · rcases hf w x hx with hx | hx
      · exact h.held w hw x hx
      · exact hx
    · exact h.held w hw x hx
  function := h.function
  running := h.running

lemma Within.setWorkers {ws : List ω} {f : Worker κ → Worker κ}
    (hf : ∀ w x, (f (s.worker w)).currentInput = some x →
      (s.worker w).currentInput = some x ∨ s.self.currentJob = some x.job) :
    Within s (s.setWorkers ws f) where
  currentJob := rfl
  inputsQueue := rfl
  stale _ _ hq := hq
  held w x hx := by
    rw [Node.worker_setWorkers] at hx
    split_ifs at hx
    · exact hf w x hx
    · exact .inl hx

lemma Owned.retire (h : Owned s) (ws : List ω) : Owned (s.retire ws) := by
  have hset : Owned (s.setWorkers ws fun w => { w with retired := true }) :=
    h.setWorkers ws fun _ _ hx => .inl hx
  exact ⟨hset.queue, hset.transfers, hset.results, hset.batch, hset.held, hset.function,
    hset.running⟩

lemma Within.retire (s : Node κ ω) (ws : List ω) : Within s (s.retire ws) where
  currentJob := rfl
  inputsQueue := rfl
  stale _ _ hq := hq
  held _ _ hx := .inl (by simpa using hx)

lemma Owned.clear (h : Owned s) (ws : List ω) : Owned (s.clear ws) :=
  h.setWorkers ws fun _ _ hx => by simp at hx

lemma Within.clear (s : Node κ ω) (ws : List ω) : Within s (s.clear ws) :=
  Within.setWorkers fun _ _ hx => by simp at hx

end Operations

/-- A segment that leaves the job as it is. -/
structure Kept (s : Node κ ω) (y : Outturn κ ω) : Prop where
  shared : Owned y.shared
  within : Within s y.shared
  tasks : ∀ t ∈ y.tasks, t.Owned y.shared

namespace Kept

variable {s s' : Node κ ω} {t : Task κ ω}

lemma done (ho : Owned s') (hw : Within s s') : Kept s s'.done where
  shared := ho
  within := hw
  tasks _ ht := by simp at ht

lemma goesOn {y : Outturn κ ω} (hy : y.tasks = [t]) (ho : Owned y.shared)
    (hw : Within s y.shared) (ht : t.Owned y.shared) : Kept s y where
  shared := ho
  within := hw
  tasks u hu := by
    obtain rfl : u = t := by simpa [hy] using hu
    exact ht

lemma next (ho : Owned s') (hw : Within s s') (ht : t.Owned s') : Kept s (s'.next t) :=
  goesOn rfl ho hw ht

lemma error (ho : Owned s') (hw : Within s s') : Kept s s'.error := next ho hw trivial

end Kept

/-! ### The ends of a job -/

/-- The segments that end a job at the node. -/
def endsJob : Task κ ω → Choice ω → Bool
  | .execute _ .refusing, .go | .execute _ .aborting, .go | .jobWatcher _ .cleaning, .go
  | .reboot _ .asking, .answered false => true
  | _, _ => false

/-- An assignment that is taken back leaves the queues where they are. -/
def keepsQueues : Task κ ω → Bool
  | .execute _ _ => true
  | _ => false

/-- The task will do nothing for the job that it was about. -/
def Task.atRest (s : Node κ ω) (keepsQueues : Bool) : Task κ ω → Bool
  | .execute _ .posted | .execute _ (.takenBack _) => true
  | .execute _ _ | .load _ _ | .inputSteal _ (.getting _) | .inputSteal _ (.locking _)
  | .monitor _ (.handing _ _ _) => false
  | .uploadInputs _ inputs .passed => inputs.isEmpty
  | .revoking _ items => items.isEmpty
  | .processInputs _ _ (.getting q) =>
    (s.queues q).isEmpty && !(keepsQueues && q = s.self.inputsQueue)
  | .processInputs _ _ _ => false
  | .monitor _ (.shedding ws) => ws.all fun w => (s.worker w).currentInput.isNone
  | .monitor _ (.booting w _) => (s.worker w).currentInput.isNone
  | _ => true

/-- The node holds nothing. -/
def Node.Emptied (s : Node κ ω) : Prop :=
  s.queue = [] ∧ (∀ e ∈ s.self.pendingTransfers.items, e.2 = []) ∧ s.self.resultsQueue = [] ∧
    s.self.pendingResultBatch = [] ∧ s.self.functionPkl = none

instance [DecidableEq κ] (s : Node κ ω) : Decidable s.Emptied :=
  inferInstanceAs (Decidable (_ ∧ _))

/-- An end of a job finds its tasks at rest, and where it leaves the queues, nothing in them. -/
def Clean (s : Node κ ω) (others : List (Task κ ω)) (t : Task κ ω) (a : Choice ω) : Prop :=
  endsJob t a = true →
    (∀ u ∈ others, u.atRest s (keepsQueues t) = true) ∧
      (∀ w ∈ s.self.workers ++ s.self.idleWorkers, (s.worker w).currentInput = none) ∧
      (keepsQueues t = true → s.Emptied)

instance [DecidableEq κ] (s : Node κ ω) (others : List (Task κ ω)) (t : Task κ ω)
    (a : Choice ω) : Decidable (Clean s others t a) :=
  inferInstanceAs (Decidable (_ → _))

/-! ### Segments within a job -/

section Segments

variable [DecidableEq κ] [DecidableEq ω] {s : Node κ ω} {y : Outturn κ ω} {a : Choice ω}

omit [DecidableEq κ] in
lemma kept_startLoop (h : Owned s) {job : κ} (hjob : s.self.currentJob = some job) (w : ω) :
    Kept s (startLoop s job w) := by
  unfold startLoop
  split_ifs with htask
  · exact .done h (.refl s)
  · exact .next (h.setWorkers [w] fun _ _ hx => .inl hx)
      (Within.setWorkers fun _ _ hx => .inl hx) hjob

omit [DecidableEq κ] [DecidableEq ω] in
/-- The watcher, the steal loop and the monitors start with nothing in hand. -/
lemma kept_beginJob (h : Owned s) {job : κ} {ws idle : List ω} {ram cpu : Bool}
    (hjob : s.self.currentJob = some job)
    (hws : ∀ w ∈ ws, ∀ x, (s.worker w).currentInput = some x → s.self.currentJob = some x.job) :
    Kept s (beginJob s job ws idle ram cpu) where
  shared :=
    { queue := h.queue
      transfers := h.transfers
      results := h.results
      batch := h.batch
      held := hws
      function := fun j hj => by
        obtain rfl : job = j := Option.some.inj hj
        exact hjob
      running := h.running }
  within := ⟨rfl, rfl, fun _ _ hq => hq, fun _ _ hx => .inl hx⟩
  tasks t ht := by
    simp only [beginJob, List.mem_append, List.mem_cons, List.not_mem_nil, or_false,
      List.mem_map] at ht
    rcases ht with (rfl | rfl) | ⟨m, -, rfl⟩ <;> trivial

lemma kept_executeSegment (h : Owned s) {job : κ} {stage : ExecuteStage ω}
    (ht : (Task.execute (ω := ω) job stage).Owned s) (hposted : stage ≠ .posted)
    (hends : endsJob (Task.execute job stage) a = false)
    (hy : executeSegment s job stage a = some y) : Kept s y := by
  unfold executeSegment at hy
  split at hy
  · exact absurd rfl hposted
  · obtain rfl := Option.some.inj hy
    exact .error h (.refl s)
  · split_ifs at hy
    · obtain rfl := Option.some.inj hy
      exact .next h (.refl s) ht
    · obtain rfl := Option.some.inj hy
      exact .done h (.refl s)
  · -- `workers_to_assign` are workers of the node
    simp only at hy
    split_ifs at hy
    · obtain rfl := Option.some.inj hy
      exact .next h (.refl s) ht
    · obtain rfl := Option.some.inj hy
      have huntouched : Untouched s { s with credentials := some job } := by constructor <;> rfl
      refine .next (huntouched.owned h) huntouched.within ⟨ht, fun w hw => h.held w ?_⟩
      exact List.mem_of_mem_filter (List.mem_of_mem_take hw)
  · simp [endsJob] at hends
  · obtain rfl := Option.some.inj hy
    exact .error h (.refl s)
  · simp [endsJob] at hends
  · obtain rfl := Option.some.inj hy
    exact .done h (.refl s)
  · obtain rfl := Option.some.inj hy
    exact .done h (.refl s)
  · obtain rfl := Option.some.inj hy
    exact .error h (.refl s)
  · obtain rfl := Option.some.inj hy
    exact .done h (.refl s)
  · obtain rfl := Option.some.inj hy
    exact .next h (.refl s) ht
  · obtain rfl := Option.some.inj hy
    exact .error h (.refl s)
  · -- one more worker has the function
    split_ifs at hy
    obtain rfl := Option.some.inj hy
    obtain ⟨ho, hw, hts⟩ := kept_startLoop h ht.1 ‹ω›
    refine ⟨ho, hw, fun t htask => ?_⟩
    rcases List.mem_cons.1 htask with rfl | htask
    · exact hw.owned (t := .execute job (.loading _ _ _)) ht
    · exact hts t htask
  · -- the other calls of `load_function` go on
    obtain rfl := Option.some.inj hy
    refine ⟨h, .refl s, fun t htask => ?_⟩
    rcases List.mem_cons.1 htask with rfl | htask
    · trivial
    · obtain ⟨w, -, rfl⟩ := List.mem_map.1 htask
      exact ht.1
  · obtain rfl := Option.some.inj hy
    exact kept_beginJob h ht.1 ht.2
  · cases hy

omit [DecidableEq ω] in
lemma kept_uploadSegment (h : Owned s) {limit : ℕ} {job : κ} {inputs : List Input}
    {stage : UploadStage} (ht : (Task.uploadInputs (ω := ω) job inputs stage).Owned s)
    (hy : uploadSegment s limit job inputs stage a = some y) : Kept s y := by
  -- a handler that goes on has just checked the job
  have hcheck : ∀ {y}, (if s.self.currentJob ≠ some job then some s.done
      else if limit < s.sizeBytes then some (s.next (.uploadInputs job inputs .waiting))
      else some (s.next (.uploadInputs job inputs .passed))) = some y → Kept s y := by
    intro y hy
    split_ifs at hy with hjob hsize
    · obtain rfl := Option.some.inj hy
      exact .done h (.refl s)
    · obtain rfl := Option.some.inj hy
      exact .next h (.refl s) trivial
    · obtain rfl := Option.some.inj hy
      exact .next h (.refl s) fun _ => not_not.1 hjob
  unfold uploadSegment at hy
  split at hy
  · exact hcheck hy
  · exact hcheck hy
  · obtain rfl := Option.some.inj hy
    exact .error h (.refl s)
  · obtain rfl := Option.some.inj hy
    exact .error h (.refl s)
  · obtain rfl := Option.some.inj hy
    refine .done (h.put fun x hx => ?_) (Within.setQueue s _)
    obtain ⟨i, hi, rfl⟩ := List.mem_map.1 hx
    exact ht (List.ne_nil_of_mem hi)
  · cases hy

omit [DecidableEq κ] [DecidableEq ω] in
/-- A batch of the job is parked. -/
lemma kept_park (h : Owned s) (transferId : ℕ) {items : List (Item κ)}
    (hitems : ∀ x ∈ items, s.self.currentJob = some x.job) :
    Kept s ({ s with
      self := { s.self with
        pendingTransfers := s.self.pendingTransfers.set transferId items } }.done) := by
  refine .done ⟨h.queue, fun t xs hxs => ?_, h.results, h.batch, h.held, h.function, h.running⟩
    ⟨rfl, rfl, fun _ _ hq => hq, fun _ _ hx => .inl hx⟩
  rw [Dict.get_set] at hxs
  split_ifs at hxs
  · obtain rfl := Option.some.inj hxs
    exact hitems
  · exact h.transfers t xs hxs

lemma kept_getInputsSegment (h : Owned s) {job : κ} {transferId : ℕ} {queueSize idleWorkers : ℤ}
    {victims : List ω}
    (hy : getInputsSegment s job transferId queueSize idleWorkers victims = some y) :
    Kept s y := by
  unfold getInputsSegment at hy
  by_cases hrefused : s.self.currentJob ≠ some job ∨ s.self.jobWatcherStopEvent = true
  · rw [if_pos hrefused] at hy
    obtain rfl := Option.some.inj hy
    exact .done h (.refl s)
  rw [if_neg hrefused] at hy
  split at hy
  · obtain rfl := Option.some.inj hy
    exact .done h (.refl s)
  simp only at hy
  split_ifs at hy with hidle hvictims
  · -- the workers' inputs are revoked
    obtain rfl := Option.some.inj hy
    refine .next ((h.retire victims).clear victims)
      ((Within.retire s victims).trans (Within.clear _ victims)) ?_
    exact currentJob_of_mem_currentInputs fun w hw => h.held w (hvictims.1 w hw).1
  · -- a batch is cut off the queue
    obtain rfl := Option.some.inj hy
    have hset : Owned (s.setQueue (s.queue.take (s.queue.length -
        (Steal.cutTail (max ((s.queue.length : ℤ) - queueSize) 1 / 2).toNat
          (s.queue.map Item.input)).1.length))) :=
      { queue := fun x hx => h.queue x (List.mem_of_mem_take (by simpa using hx))
        transfers := h.transfers
        results := h.results
        batch := h.batch
        held := h.held
        function := h.function
        running := h.running }
    obtain ⟨ho, hw, hts⟩ := kept_park hset transferId
      fun x hx => h.queue x (List.mem_of_mem_drop hx)
    exact ⟨ho, (Within.setQueue s _).trans hw, hts⟩

omit [DecidableEq κ] [DecidableEq ω] in
lemma kept_revokingSegment (h : Owned s) {transferId : ℕ} {items : List (Item κ)}
    (ht : (Task.revoking (ω := ω) transferId items).Owned s)
    (hy : revokingSegment s transferId items a = some y) : Kept s y := by
  unfold revokingSegment at hy
  split at hy
  · obtain rfl := Option.some.inj hy
    exact kept_park h _ ht
  · obtain rfl := Option.some.inj hy
    exact .error h (.refl s)
  · cases hy

omit [DecidableEq ω] in
lemma kept_ackTransferSegment (h : Owned s) (job : κ) (transferId : ℕ) (received : Bool) :
    Kept s (ackTransferSegment s job transferId received) := by
  unfold ackTransferSegment
  by_cases hjob : s.self.currentJob ≠ some job
  · rw [if_pos hjob]
    exact .done h (.refl s)
  rw [if_neg hjob]
  split
  · exact .done h (.refl s)
  · rename_i items hitems
    simp only
    have hpop : ∀ t : Node κ ω, Owned t → Within s t → Kept s ({ t with
        self := { t.self with
          pendingTransfers := t.self.pendingTransfers.pop transferId } }.done) := by
      intro t ho hw
      refine .done ⟨ho.queue, fun i xs hxs => ?_, ho.results, ho.batch, ho.held, ho.function,
        ho.running⟩ (hw.trans ⟨rfl, rfl, fun _ _ hq => hq, fun _ _ hx => .inl hx⟩)
      rw [Dict.get_pop] at hxs
      split_ifs at hxs
      exact ho.transfers i xs hxs
    split_ifs with hreceived
    · exact hpop s h (.refl s)
    · exact hpop _ (h.put (h.transfers transferId items hitems)) (Within.setQueue s _)

lemma kept_tradeSegment (h : Owned s) {job : κ} {stage : TradeStage ω}
    (hy : tradeSegment s job stage a = some y) : Kept s y := by
  unfold tradeSegment at hy
  split at hy
  · split_ifs at hy
    · obtain rfl := Option.some.inj hy
      exact .done h (.refl s)
    · obtain rfl := Option.some.inj hy
      exact .next h (.refl s) trivial
  · rename_i w idle granted
    obtain rfl := Option.some.inj hy
    exact .goesOn rfl ((h.retire [w]).clear [w])
      ((Within.retire s [w]).trans (Within.clear _ [w])) trivial
  · rename_i granted
    obtain rfl := Option.some.inj hy
    have huntouched : Untouched s { s with
        self := { s.self with targetParallelism := s.self.targetParallelism - granted } } := by
      constructor <;> rfl
    exact .done (huntouched.owned h) huntouched.within
  · obtain rfl := Option.some.inj hy
    exact .error h (.refl s)
  · cases hy

omit [DecidableEq ω] in
lemma kept_getResultsSegment (h : Owned s) (job : κ) (acks : Bool) :
    Kept s (getResultsSegment s job acks) := by
  unfold getResultsSegment
  by_cases hjob : s.self.currentJob ≠ some job
  · rw [if_pos hjob]
    exact .done h (.refl s)
  rw [if_neg hjob]
  simp only
  split
  · refine .done ⟨h.queue, h.transfers, fun r hr => h.results r (List.mem_of_mem_drop hr),
      fun r hr => h.results r (List.mem_of_mem_take hr), h.held, h.function, h.running⟩
      ⟨rfl, rfl, fun _ _ hq => hq, fun _ _ hx => .inl hx⟩
  · exact .done h (.refl s)

omit [DecidableEq κ] in
/-- A reboot that does not reinitialise the node. -/
lemma kept_rebootSegment (h : Owned s) {caller : Caller} {stage : RebootStage}
    (hends : endsJob (Task.reboot (κ := κ) caller stage) a = false)
    (hy : rebootSegment s caller stage a = some y) : Kept s y := by
  have hstart : Untouched s (startReboot s) := by constructor <;> rfl
  have hend : Kept s (endReboot s) := by
    have huntouched : Untouched s { s with serving := true } := by constructor <;> rfl
    exact .done (huntouched.owned h) huntouched.within
  have hfail : Kept s (failReboot s caller) := by
    have huntouched : Untouched s
        { s with self := { s.self with failed := true, reportedStatus := .failed } } := by
      constructor <;> rfl
    unfold failReboot
    simp only
    split_ifs
    · exact .error (huntouched.owned h) huntouched.within
    · exact .done (huntouched.owned h) huntouched.within
  have hexpire : ∀ {y}, (if caller = .jobEnd then
      some { s with self := { s.self with reportedStatus := .failed } }.done
      else none) = some y → Kept s y := by
    intro y hy
    split_ifs at hy
    obtain rfl := Option.some.inj hy
    have huntouched : Untouched s
        { s with self := { s.self with reportedStatus := .failed } } := by constructor <;> rfl
    exact .done (huntouched.owned h) huntouched.within
  unfold rebootSegment at hy
  split at hy
  · split_ifs at hy
    · obtain rfl := Option.some.inj hy
      exact .done h (.refl s)
    · obtain rfl := Option.some.inj hy
      exact .next (hstart.owned h) hstart.within trivial
  · obtain rfl := Option.some.inj hy
    exact .next (hstart.owned h) hstart.within trivial
  · rename_i terminal
    cases terminal with
    | false => simp [endsJob] at hends
    | true =>
      obtain rfl := Option.some.inj hy
      exact hend
  · -- the new workers have no inputs
    split_ifs at hy
    obtain rfl := Option.some.inj hy
    have hfresh : ∀ (w : Worker κ) x, (Worker.fresh : Worker κ).currentInput = some x →
        w.currentInput = some x ∨ s.self.currentJob = some x.job := by
      intro w x hx
      simp [Worker.fresh] at hx
    rename_i ws hws
    have hset : Owned (s.setWorkers ws fun _ => .fresh) :=
      h.setWorkers ws fun w x hx => hfresh (s.worker w) x hx
    refine .next ⟨hset.queue, hset.transfers, hset.results, hset.batch, fun w hw x hx => ?_,
      hset.function, hset.running⟩ ?_ trivial
    · simp only [Node.worker_setWorkers, if_pos hw] at hx
      simp [Worker.fresh] at hx
    · have hwithin : Within s (s.setWorkers ws fun _ => .fresh) :=
        Within.setWorkers fun w x hx => hfresh (s.worker w) x hx
      exact hwithin.trans ⟨rfl, rfl, fun _ _ hq => hq, fun _ _ hx => .inl hx⟩
  · obtain rfl := Option.some.inj hy
    have huntouched : Untouched s { s with self := { s.self with booting := false } } := by
      constructor <;> rfl
    exact .next (huntouched.owned h) huntouched.within trivial
  · split_ifs at hy
    · obtain rfl := Option.some.inj hy
      exact hend
    · obtain rfl := Option.some.inj hy
      have huntouched : Untouched s { s with self := { s.self with reportedStatus := .ready } } := by
        constructor <;> rfl
      exact .next (huntouched.owned h) huntouched.within trivial
  · obtain rfl := Option.some.inj hy
    exact hend
  iterate 5
    · obtain rfl := Option.some.inj hy
      exact hfail
  iterate 5
    · exact hexpire hy
  · cases hy

omit [DecidableEq κ] [DecidableEq ω] in
lemma kept_stealSegment (h : Owned s) {n : ℕ} {stage : StealStage κ}
    (ht : (Task.inputSteal (ω := ω) n stage).Owned s)
    (hy : stealSegment s n stage a = some y) : Kept s y := by
  have hidle : Kept s ({ s with self := { s.self with activeInputStealId := false } }.next
      (.inputSteal n .head)) := by
    have huntouched : Untouched s { s with self := { s.self with activeInputStealId := false } } :=
      by constructor <;> rfl
    exact .next (huntouched.owned h) huntouched.within trivial
  unfold stealSegment at hy
  split at hy
  · split_ifs at hy
    · obtain rfl := Option.some.inj hy
      exact .done h (.refl s)
    · obtain rfl := Option.some.inj hy
      exact .next h (.refl s) trivial
  · obtain rfl := Option.some.inj hy
    exact .next h (.refl s) trivial
  · split at hy
    · cases hy
    · rename_i job hjob
      obtain rfl := Option.some.inj hy
      have huntouched : Untouched s
          { s with self := { s.self with activeInputStealId := true } } := by constructor <;> rfl
      exact .next (huntouched.owned h) huntouched.within hjob
  · obtain rfl := Option.some.inj hy
    exact hidle
  · split_ifs at hy
    · obtain rfl := Option.some.inj hy
      exact .next h (.refl s) trivial
    · obtain rfl := Option.some.inj hy
      refine .next h (.refl s) fun x hx => ?_
      obtain ⟨i, -, rfl⟩ := List.mem_map.1 hx
      exact ht
  · obtain rfl := Option.some.inj hy
    exact .next h (.refl s) trivial
  · obtain rfl := Option.some.inj hy
    split_ifs
    · exact .next (h.put ht) (Within.setQueue s _) trivial
    · exact .next h (.refl s) trivial
  · obtain rfl := Option.some.inj hy
    exact hidle
  · obtain rfl := Option.some.inj hy
    exact .done h (.refl s)
  · cases hy

omit [DecidableEq κ] in
/-- A watcher that does not reinitialise the node. -/
lemma kept_watcherSegment (h : Owned s) {n : ℕ} {stage : WatcherStage}
    (hends : endsJob (Task.jobWatcher (κ := κ) n stage) a = false)
    (hy : watcherSegment s n stage a = some y) : Kept s y := by
  have hstart : ∀ t : Node κ ω, Untouched t (startReboot t) := fun t => by constructor <;> rfl
  unfold watcherSegment at hy
  split at hy
  · split_ifs at hy
    obtain rfl := Option.some.inj hy
    exact ⟨h, .refl s, fun t ht => by simp at ht⟩
  · split_ifs at hy
    obtain rfl := Option.some.inj hy
    have huntouched : Untouched s
        { s with self := { s.self with jobWatcherStopEvent := true } } := by constructor <;> rfl
    exact .goesOn rfl (huntouched.owned h) huntouched.within trivial
  · rename_i crashed marked
    obtain rfl := Option.some.inj hy
    have huntouched : Untouched s
        (if marked = true then (s.self.currentJob.map s.markFailed).getD s else s) := by
      cases marked <;> cases s.self.currentJob <;> constructor <;> rfl
    exact .goesOn rfl (huntouched.owned h) huntouched.within trivial
  · obtain rfl := Option.some.inj hy
    have huntouched : Untouched s
        { s with credentials := none, self := { s.self with monitors := [] } } := by
      constructor <;> rfl
    exact .goesOn rfl (huntouched.owned h) huntouched.within trivial
  · -- the loops' inputs are dropped with them
    obtain rfl := Option.some.inj hy
    have hdrop : ∀ (w : ω) (x : Item κ),
        (if (s.worker w).processInputsTask = true then
          { retired := true, currentInput := none, processInputsTask := false }
        else s.worker w : Worker κ).currentInput = some x →
        (s.worker w).currentInput = some x ∨ s.self.currentJob = some x.job := by
      intro w x hx
      split_ifs at hx
      exact .inl hx
    have ho : Owned (s.cancelLoops (s.self.workers ++ s.self.idleWorkers)) :=
      h.setWorkers _ hdrop
    have hw : Within s (s.cancelLoops (s.self.workers ++ s.self.idleWorkers)) :=
      Within.setWorkers hdrop
    by_cases hreboot : s.self.rebootContainersAfterJob = true
    · refine .goesOn rfl ?_ ?_ ?_ <;> simp only [if_pos hreboot]
      · exact (hstart _).owned ho
      · exact hw.trans (hstart _).within
      · trivial
    · refine .goesOn rfl ?_ ?_ ?_ <;> simp only [if_neg hreboot]
      · exact ho
      · exact hw
      · trivial
  · simp [endsJob] at hends
  · split_ifs at hy
    · obtain rfl := Option.some.inj hy
      exact .done h (.refl s)
    · obtain rfl := Option.some.inj hy
      exact .next ((hstart s).owned h) (hstart s).within trivial
  · obtain rfl := Option.some.inj hy
    exact .done h (.refl s)
  · obtain rfl := Option.some.inj hy
    exact .next h (.refl s) trivial
  · cases hy

omit [DecidableEq κ] in
/-- A loop that takes an input takes one of the job from the job's queue, or none. -/
lemma kept_processInputsSegment (h : Owned s) {w : ω} {job : κ} {stage : LoopStage κ}
    (ht : (Task.processInputs w job stage).Owned s)
    (hy : processInputsSegment s w job stage a = some y) : Kept s y := by
  have hclear : Kept s (s.clear [w]).done := .done (h.clear [w]) (Within.clear s [w])
  unfold processInputsSegment at hy
  split at hy
  · obtain rfl := Option.some.inj hy
    exact .next h (.refl s) (.inl ⟨rfl, ht⟩)
  · obtain rfl := Option.some.inj hy
    exact .done (h.retire [w]) (Within.retire s [w])
  · split at hy
    · cases hy
    rename_i q x rest hq
    obtain rfl := Option.some.inj hy
    rcases ht with ⟨rfl, hjob⟩ | ⟨-, hempty⟩
    · have hx : s.self.currentJob = some x.job := h.queue x (by rw [Node.queue, hq]; simp)
      have hset : Owned (s.setQueue rest) :=
        { queue := fun x' hx' => h.queue x' (by
            rw [Node.queue, hq]
            exact List.mem_cons_of_mem _ (by simpa using hx'))
          transfers := h.transfers
          results := h.results
          batch := h.batch
          held := h.held
          function := h.function
          running := h.running }
      have htake : ∀ (w : ω) (x' : Item κ), some x = some x' →
          ((s.setQueue rest).worker w).currentInput = some x' ∨
            (s.setQueue rest).self.currentJob = some x'.job := by
        rintro w _ ⟨⟩
        exact .inr hx
      refine .next (hset.setWorkers [w] htake)
        ((Within.setQueue s rest).trans (Within.setWorkers htake)) ⟨hjob, ?_⟩
      exact Option.some.inj (hx.symm.trans hjob)
    · rw [hq] at hempty
      cases hempty
  · obtain rfl := Option.some.inj hy
    exact .next h (.refl s) ht
  · split_ifs at hy
    · obtain rfl := Option.some.inj hy
      exact hclear
    · obtain rfl := Option.some.inj hy
      exact .next h (.refl s) ht
    · obtain rfl := Option.some.inj hy
      exact .next h (.refl s) ht
  · split_ifs at hy
    · obtain rfl := Option.some.inj hy
      exact hclear
    · obtain rfl := Option.some.inj hy
      exact .next h (.refl s) ht
  · rename_i x errorPkl
    have hx : s.self.currentJob = some x.job := ht.1.trans (congrArg some ht.2.symm)
    have hresult : Owned ((s.retire [w]).deliver ⟨x, ⟨x.input.inputIndex, true, errorPkl⟩⟩) :=
      (h.retire [w]).deliver hx
    split_ifs at hy
    · obtain rfl := Option.some.inj hy
      exact .done h (.refl s)
    · obtain rfl := Option.some.inj hy
      refine .done (((h.retire [w]).put fun x' hx' => ?_).clear [w])
        (((Within.retire s [w]).trans (Within.setQueue _ _)).trans (Within.clear _ [w]))
      obtain rfl := List.mem_singleton.1 hx'
      exact hx
    · obtain rfl := Option.some.inj hy
      exact .done (hresult.clear [w])
        (((Within.retire s [w]).trans (Within.deliver _ _)).trans (Within.clear _ [w]))
  · rename_i r stopAfterResult
    have hr : s.self.currentJob = some r.item.job := ht.1.trans (congrArg some ht.2.symm)
    have ho : Owned ((s.clear [w]).deliver r) := (h.clear [w]).deliver hr
    have hw : Within s ((s.clear [w]).deliver r) :=
      (Within.clear s [w]).trans (Within.deliver _ _)
    split_ifs at hy
    · obtain rfl := Option.some.inj hy
      exact hclear
    · obtain rfl := Option.some.inj hy
      exact .done ho hw
    · obtain rfl := Option.some.inj hy
      exact .next ho hw ht.1
  · cases hy

omit [DecidableEq κ] in
lemma kept_monitorSegment (h : Owned s) {n : ℕ} {stage : MonitorStage κ ω}
    (ht : (Task.monitor n stage).Owned s) (hy : monitorSegment s n stage a = some y) :
    Kept s y := by
  unfold monitorSegment at hy
  split at hy
  · obtain rfl := Option.some.inj hy
    exact .done h (.refl s)
  · split_ifs at hy with hselected
    obtain rfl := Option.some.inj hy
    exact .next h (.refl s) fun w hw => h.held w (hselected w hw)
  · split_ifs at hy
    obtain rfl := Option.some.inj hy
    exact .next (h.retire _) (Within.retire s _) trivial
  · -- a worker that is booted has no input yet
    split_ifs at hy
    obtain rfl := Option.some.inj hy
    rename_i w template hw
    have hfresh : ∀ (v : ω) (x : Item κ), (Worker.fresh : Worker κ).currentInput = some x →
        (s.worker v).currentInput = some x ∨ s.self.currentJob = some x.job := by
      intro v x hx
      simp [Worker.fresh] at hx
    have huntouched : Untouched (s.setWorkers [w] fun _ => .fresh)
        { s.setWorkers [w] (fun _ => .fresh) with made := w :: s.made } := by constructor <;> rfl
    refine ⟨huntouched.owned (h.setWorkers [w] hfresh),
      (Within.setWorkers hfresh).trans huntouched.within, fun t htask => ?_⟩
    simp only [List.mem_cons, List.not_mem_nil, or_false] at htask
    rcases htask with rfl | rfl
    · trivial
    · intro x hx
      simp [Node.worker_setWorkers, Worker.fresh] at hx
  · simp only at hy
    split_ifs at hy
    · obtain rfl := Option.some.inj hy
      exact .next h (.refl s) trivial
    · obtain rfl := Option.some.inj hy
      refine .next ((h.retire _).put ?_) ((Within.retire s _).trans (Within.setQueue _ _)) trivial
      refine currentJob_of_mem_currentInputs (s := s) fun w hw => ht w ?_
      exact List.mem_of_mem_filter (List.mem_of_mem_take hw)
  · obtain rfl := Option.some.inj hy
    exact .next (h.clear _) (Within.clear s _) trivial
  · obtain rfl := Option.some.inj hy
    exact .done (h.clear _) (Within.clear s _)
  · split at hy
    · obtain rfl := Option.some.inj hy
      exact .done h (.refl s)
    · rename_i job hjob
      obtain rfl := Option.some.inj hy
      exact .next h (.refl s) ⟨h.function job hjob, ht⟩
  · obtain rfl := Option.some.inj hy
    exact .done h (.refl s)
  · obtain rfl := Option.some.inj hy
    exact .done h (.refl s)
  · -- the worker comes with the job's function and no input of another
    rename_i w template job
    obtain ⟨ho, hw, hts⟩ := kept_startLoop h ht.1 w
    simp only at hy
    split_ifs at hy
    · obtain rfl := Option.some.inj hy
      refine ⟨⟨ho.queue, ho.transfers, ho.results, ho.batch, fun v hv x hx => ?_, ho.function,
        ho.running⟩, hw.trans ⟨rfl, rfl, fun _ _ hq => hq, fun _ _ hx => .inl hx⟩, hts⟩
      refine hw.heldJob (fun x' hx' => ?_) hx
      rcases List.mem_append.1 hv with hv | hv
      · refine h.held v ?_ x' hx'
        cases template with
        | none => exact hv
        | some u => exact List.mem_of_mem_erase hv
      · rw [List.mem_singleton.1 hv] at hx'
        exact ht.2 x' hx'
    · obtain rfl := Option.some.inj hy
      exact ⟨ho, hw, hts⟩
  · cases hy

/-- A segment that neither starts nor ends a job. -/
lemma kept_segment (h : Owned s) {limit : ℕ} {t : Task κ ω} (ht : t.Owned s)
    (hposted : ∀ job, t ≠ .execute job .posted) (hends : endsJob t a = false)
    (hy : segment s limit t a = some y) : Kept s y := by
  have huntouched : ∀ job, Untouched s (s.markFailed job) := fun _ => by constructor <;> rfl
  unfold segment at hy
  split at hy
  · exact kept_executeSegment h ht (fun hstage => hposted _ (by rw [hstage])) hends hy
  · obtain rfl := Option.some.inj hy
    exact kept_startLoop h ht _
  · obtain rfl := Option.some.inj hy
    exact .done h (.refl s)
  · exact kept_uploadSegment h ht hy
  · exact kept_getInputsSegment h hy
  · exact kept_revokingSegment h ht hy
  · obtain rfl := Option.some.inj hy
    exact kept_ackTransferSegment h _ _ _
  · exact kept_tradeSegment h hy
  · obtain rfl := Option.some.inj hy
    exact kept_getResultsSegment h _ _
  · obtain rfl := Option.some.inj hy
    exact .done h (.refl s)
  · obtain rfl := Option.some.inj hy
    exact .error h (.refl s)
  · rename_i reports
    obtain rfl := Option.some.inj hy
    have hshut : Untouched s (shutDown s reports) := by constructor <;> rfl
    exact .done (hshut.owned h) hshut.within
  · exact kept_rebootSegment h hends hy
  · exact kept_stealSegment h ht hy
  · exact kept_watcherSegment h hends hy
  · exact kept_processInputsSegment h ht hy
  · exact kept_monitorSegment h ht hy
  · obtain rfl := Option.some.inj hy
    exact .done ((huntouched _).owned h) (huntouched _).within
  · cases hy

/-! ### Starts and ends -/

omit [DecidableEq κ] [DecidableEq ω] in
/-- With no job there is nothing to disturb. -/
lemma Task.Owned.onJobStart (hnone : s.self.currentJob = none) (job : κ) :
    ∀ {t : Task κ ω}, t.Owned s → t.Owned (onJobStart s job)
  | .execute _ .posted, _ | .execute _ (.takenBack _), _ => trivial
  | .execute _ .started, ht | .execute _ .refusing, ht | .execute _ .aborting, ht
  | .load _ _, ht => by
    have ht : s.self.currentJob = some _ := ht
    simp [hnone] at ht
  | .execute _ (.installing _ _), ht | .execute _ (.loading _ _ _), ht => by
    have ht : s.self.currentJob = some _ := ht.1
    simp [hnone] at ht
  | .uploadInputs _ _ .passed, ht => fun hne => by
    have ht := ht hne
    simp [hnone] at ht
  | .uploadInputs _ _ .arrived, _ | .uploadInputs _ _ .waiting, _ => trivial
  | .revoking _ _, ht | .inputSteal _ (.locking _), ht => fun x hx => by
    have ht := ht x hx
    simp [hnone] at ht
  | .inputSteal _ (.getting _), ht => by
    have ht : s.self.currentJob = some _ := ht
    simp [hnone] at ht
  | .inputSteal _ .head, _ | .inputSteal _ .sleeping, _ | .inputSteal _ .acking, _ => trivial
  | .processInputs _ _ .top, ht => by
    have ht : s.self.currentJob = some _ := ht
    simp [hnone] at ht
  | .processInputs _ _ (.getting q), ht => by
    rcases ht with ⟨-, hjob⟩ | hold
    · simp [hnone] at hjob
    · exact .inr hold
  | .processInputs _ _ (.calling _), ht | .processInputs _ _ (.requeuing _ _), ht
  | .processInputs _ _ (.finishing _ _), ht => by
    have ht : s.self.currentJob = some _ := ht.1
    simp [hnone] at ht
  | .monitor _ (.shedding _), ht => fun w hw x hx => by
    have ht := ht w hw x hx
    simp [hnone] at ht
  | .monitor _ (.booting _ _), ht => fun x hx => by
    have ht := ht x hx
    simp [hnone] at ht
  | .monitor _ (.handing _ _ _), ht => by
    have ht : s.self.currentJob = some _ := ht.1
    simp [hnone] at ht
  | .monitor _ .idle, _ | .monitor _ (.clearing _), _ | .getInputs _ _ _ _, _
  | .ackTransfer _ _ _, _ | .tradeSlots _ _, _ | .getResults _ _, _ | .request, _ | .shutdown _, _
  | .reboot _ _, _ | .jobWatcher _ _, _ | .markFailed _, _ => trivial

omit [DecidableEq κ] [DecidableEq ω] in
lemma Owned.onJobStart (h : Owned s) (hnone : s.self.currentJob = none) (job : κ) :
    Owned (onJobStart s job) where
  queue x hx := by
    have hx := h.queue x hx
    simp [hnone] at hx
  transfers t xs hxs x hx := by
    have hx := h.transfers t xs hxs x hx
    simp [hnone] at hx
  results r hr := by
    have hr := h.results r hr
    simp [hnone] at hr
  batch r hr := by
    have hr := h.batch r hr
    simp [hnone] at hr
  held w hw x hx := by
    have hx := h.held w hw x hx
    simp [hnone] at hx
  function j hj := by
    have hj := h.function j hj
    simp [hnone] at hj
  running hrun := by simp [Turnover.onJobStart] at hrun

omit [DecidableEq κ] [DecidableEq ω] in
/-- A task that is at rest at the end of a job has nothing of it. -/
lemma owned_of_atRest (s' : Node κ ω) {keeps : Bool}
    (hworker : ∀ w, (s'.worker w).currentInput = (s.worker w).currentInput)
    (hqueue : ∀ q ≤ s.self.inputsQueue, (keeps = true → q ≠ s.self.inputsQueue) →
      q < s'.self.inputsQueue ∧ s'.queues q = s.queues q) :
    ∀ {t : Task κ ω}, t.Owned s → t.atRest s keeps = true → t.Owned s'
  | .execute _ .posted, _, _ | .execute _ (.takenBack _), _, _ => trivial
  | .execute _ .started, _, hrest | .execute _ .refusing, _, hrest
  | .execute _ .aborting, _, hrest | .load _ _, _, hrest
  | .execute _ (.installing _ _), _, hrest | .execute _ (.loading _ _ _), _, hrest
  | .inputSteal _ (.locking _), _, hrest | .inputSteal _ (.getting _), _, hrest
  | .monitor _ (.handing _ _ _), _, hrest
  | .processInputs _ _ .top, _, hrest | .processInputs _ _ (.calling _), _, hrest
  | .processInputs _ _ (.requeuing _ _), _, hrest
  | .processInputs _ _ (.finishing _ _), _, hrest => by simp [Task.atRest] at hrest
  | .uploadInputs _ _ .passed, _, hrest => fun hne => absurd (by simpa [Task.atRest] using hrest) hne
  | .uploadInputs _ _ .arrived, _, _ | .uploadInputs _ _ .waiting, _, _ => trivial
  | .revoking _ items, _, hrest => fun x hx => by
    obtain rfl : items = [] := by simpa [Task.atRest] using hrest
    cases hx
  | .inputSteal _ .head, _, _ | .inputSteal _ .sleeping, _, _ | .inputSteal _ .acking, _, _ =>
    trivial
  | .processInputs _ _ (.getting q), ht, hrest => by
    simp only [Task.atRest, Bool.and_eq_true, List.isEmpty_iff, Bool.not_eq_true',
      Bool.and_eq_false_iff, decide_eq_false_iff_not] at hrest
    have hle : q ≤ s.self.inputsQueue := by
      rcases ht with ⟨hq, -⟩ | ⟨hq, -⟩
      · exact hq.le
      · exact hq.le
    obtain ⟨hlt, hsame⟩ := hqueue q hle fun hk => by simpa [hk] using hrest.2
    exact .inr ⟨hlt, hsame.trans hrest.1⟩
  | .monitor _ (.shedding ws), _, hrest => fun w hw x hx => by
    simp only [Task.atRest, List.all_eq_true, Option.isNone_iff_eq_none] at hrest
    rw [hworker, hrest w hw] at hx
    cases hx
  | .monitor _ (.booting w _), _, hrest => fun x hx => by
    simp only [Task.atRest, Option.isNone_iff_eq_none] at hrest
    rw [hworker, hrest] at hx
    cases hx
  | .monitor _ .idle, _, _ | .monitor _ (.clearing _), _, _ | .getInputs _ _ _ _, _, _
  | .ackTransfer _ _ _, _, _ | .tradeSlots _ _, _, _ | .getResults _ _, _, _ | .request, _, _
  | .shutdown _, _, _ | .reboot _ _, _, _ | .jobWatcher _ _, _, _ | .markFailed _, _, _ => trivial

omit [DecidableEq κ] [DecidableEq ω] in
/-- A node that holds nothing. -/
lemma owned_of_empty (hqueue : s.queue = [])
    (htransfers : ∀ t xs, s.self.pendingTransfers.get t = some xs → xs = [])
    (hresults : s.self.resultsQueue = []) (hbatch : s.self.pendingResultBatch = [])
    (hheld : ∀ w ∈ s.self.workers, (s.worker w).currentInput = none)
    (hfunction : s.self.functionPkl = none) (hjob : s.self.currentJob = none) : Owned s where
  queue x hx := by simp [hqueue] at hx
  transfers t xs hxs x hx := by simp [htransfers t xs hxs] at hx
  results r hr := by simp [hresults] at hr
  batch r hr := by simp [hbatch] at hr
  held w hw x hx := by simp [hheld w hw] at hx
  function j hj := by simp [hfunction] at hj
  running _ := hjob

omit [DecidableEq κ] [DecidableEq ω] in
/-- New queues, with workers that have no input. -/
lemma owned_of_reinit {s' : Node κ ω} (hqueues : s'.queues = s.reinit.queues)
    (hinputs : s'.self.inputsQueue = s.self.inputsQueue + 1)
    (htransfers : s'.self.pendingTransfers = .empty) (hresults : s'.self.resultsQueue = [])
    (hbatch : s'.self.pendingResultBatch = [])
    (hheld : ∀ w ∈ s'.self.workers, (s'.worker w).currentInput = none)
    (hfunction : s'.self.functionPkl = none) (hjob : s'.self.currentJob = none) : Owned s' := by
  refine owned_of_empty ?_ (fun t xs hxs => ?_) hresults hbatch hheld hfunction hjob
  · simp [Node.queue, hqueues, hinputs, Node.reinit]
  · rw [htransfers, Dict.get_empty] at hxs
    cases hxs

omit [DecidableEq κ] [DecidableEq ω] in
lemma queues_reinit (s : Node κ ω) (q : ℕ) (hq : q ≤ s.self.inputsQueue) :
    q < s.self.inputsQueue + 1 ∧ s.reinit.queues q = s.queues q := by
  have hne : q ≠ s.self.inputsQueue + 1 := by omega
  exact ⟨by omega, by simp [Node.reinit, Function.update_of_ne hne]⟩

/-- **A segment of a clean run leaves everything with the current job.** -/
lemma owned_segment (h : Owned s) {limit : ℕ} {others : List (Task κ ω)} {t : Task κ ω}
    (ht : t.Owned s) (hothers : ∀ u ∈ others, u.Owned s) (hclean : Clean s others t a)
    (hy : segment s limit t a = some y) :
    Owned y.shared ∧ (∀ u ∈ y.tasks, u.Owned y.shared) ∧ ∀ u ∈ others, u.Owned y.shared := by
  by_cases hends : endsJob t a = true
  · obtain ⟨hrest, hworkers, hempty⟩ := hclean hends
    unfold endsJob at hends
    have htakeBack : keepsQueues t = true → Owned (takeBack s) ∧
        ∀ u ∈ others, u.Owned (takeBack s) := by
      intro hkeeps
      obtain ⟨hqueue, htransfers, hresults, hbatch, hfunction⟩ := hempty hkeeps
      refine ⟨owned_of_empty hqueue (fun i xs hxs => ?_) hresults hbatch (fun w hw => ?_)
        hfunction rfl, fun u hu => ?_⟩
      · exact htransfers _ (Dict.mem_items.2 hxs)
      · exact hworkers w (List.mem_append_left _ hw)
      · refine owned_of_atRest (s := s) (takeBack s) (fun _ => rfl) (fun q hq hne => ?_)
          (hothers u hu)
          (hrest u hu)
        exact ⟨lt_of_le_of_ne hq (hne hkeeps), rfl⟩
    split at hends
    · obtain rfl := Option.some.inj hy
      obtain ⟨ho, hu⟩ := htakeBack rfl
      exact ⟨ho, by simp [Task.Owned], hu⟩
    · obtain rfl := Option.some.inj hy
      obtain ⟨ho, hu⟩ := htakeBack rfl
      exact ⟨ho, by simp [Task.Owned], hu⟩
    · obtain rfl := Option.some.inj hy
      have hinput : ∀ w, ((reinitNode s).worker w).currentInput = (s.worker w).currentInput := by
        intro w
        have hworker : (reinitNode s).worker w =
            (s.setWorkers (s.self.workers ++ s.self.idleWorkers)
              fun w => { w with retired := false }).worker w := rfl
        rw [hworker, Node.worker_setWorkers]
        split_ifs <;> rfl
      refine ⟨owned_of_reinit (s := s) rfl rfl rfl rfl rfl (fun w hw => ?_) rfl rfl,
        by simp [Task.Owned], fun u hu => ?_⟩
      · rw [Node.next_shared, hinput]
        exact hworkers w hw
      · exact owned_of_atRest (reinitNode s) hinput (fun q hq _ => queues_reinit s q hq)
          (hothers u hu)
          (hrest u hu)
    · obtain rfl := Option.some.inj hy
      refine ⟨owned_of_reinit (s := s) rfl rfl rfl rfl rfl (fun w hw => ?_) rfl rfl,
        by simp [Task.Owned], fun u hu => ?_⟩
      · cases hw
      · refine owned_of_atRest (s := s) _ (fun w => ?_) (fun q hq _ => ?_) (hothers u hu) (hrest u hu)
        · rfl
        · exact queues_reinit s q hq
    · cases hends
  · by_cases hposted : ∃ job, t = .execute job .posted
    · obtain ⟨job, rfl⟩ := hposted
      cases a with
      | go =>
        change executeSegment s job .posted .go = some y at hy
        unfold executeSegment at hy
        simp only at hy
        split_ifs at hy with hrefused
        · obtain rfl := Option.some.inj hy
          exact ⟨h, by simp, hothers⟩
        · -- the node has no job yet
          obtain rfl := Option.some.inj hy
          have hnone : s.self.currentJob = none :=
            h.running (by simpa using fun hrun => hrefused (.inr (.inl hrun)))
          refine ⟨h.onJobStart hnone job, fun u hu => ?_,
            fun u hu => (hothers u hu).onJobStart hnone job⟩
          obtain rfl : u = .execute job .started := by simpa using hu
          rfl
      | _ => simp [segment, executeSegment] at hy
    · obtain ⟨ho, hw, hts⟩ := kept_segment h ht (fun job hjob => hposted ⟨job, hjob⟩)
        (by simpa using hends) hy
      exact ⟨ho, hts, fun u hu => hw.owned (hothers u hu)⟩

end Segments

/-- **In a clean run everything is of the current job.** -/
theorem clean_steady (κ ω : Type*) [DecidableEq κ] [DecidableEq ω] (limit : ℕ) :
    (nodeService κ ω limit).Steady Clean Owned Task.Owned where
  init s ts hs := by
    refine ⟨owned_of_empty ?_ ?_ ?_ ?_ ?_ ?_ ?_, fun t ht => ?_⟩
    · rw [Node.queue, hs.self]
      exact hs.queue
    · intro t xs hxs
      rw [hs.self] at hxs
      cases hxs
    · rw [hs.self]
      rfl
    · rw [hs.self]
      rfl
    · rw [hs.self]
      intro w hw
      cases hw
    · rw [hs.self]
      rfl
    · rw [hs.self]
      rfl
    · rw [hs.tasks, List.mem_singleton] at ht
      rw [ht]
      trivial
  arrive s t _ harr := by
    have hout : t.outside = true := by
      simp only [nodeService, Bool.and_eq_true] at harr
      exact harr.2
    unfold Task.outside at hout
    split at hout <;> trivial
  segment s others t a y h ht hothers hclean hy := by
    obtain ⟨ho, hts, hu⟩ := owned_segment h ht hothers hclean hy
    exact ⟨ho, hts, fun u hmem _ => hu u hmem⟩

end Burla.Turnover
