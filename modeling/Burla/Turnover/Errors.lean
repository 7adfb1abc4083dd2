/-
Requests that raise (`handle_errors`).

A request that is answered with 500 gets a background reboot, whatever the node is doing.  The
reboot stops the job's watcher and reinitialises the node: what the node holds of a job is gone,
the job is not marked, and a poll for its results is answered with 404.  A revocation that raises
loses the inputs that it has in hand.

Where an error finds nothing of a job that is not marked, and nothing comes in until the reboot has
reinitialised the node, whatever an error discards is of a marked job (`discarded_of_spared`);
`error_discards` is a run in which a worker that a revocation kills is already gone.
-/
import Burla.Turnover.Assignment

namespace Burla.Turnover

open Burla.Steal (Input)

variable {κ ω : Type*}

/-! ### What is held -/

namespace Node

variable (s : Node κ ω)

/-- What the node holds, up to its workers' inputs. -/
def held : List (Item κ) :=
  s.queue ++ s.self.pendingTransfers.items.flatMap Prod.snd ++
    (s.self.resultsQueue ++ s.self.pendingResultBatch).map Outcome.item

/-- `P` of everything that the node holds. -/
structure All (P : Item κ → Prop) : Prop where
  queue : ∀ x ∈ s.queue, P x
  transfers : ∀ t xs, s.self.pendingTransfers.get t = some xs → ∀ x ∈ xs, P x
  results : ∀ r ∈ s.self.resultsQueue, P r.item
  batch : ∀ r ∈ s.self.pendingResultBatch, P r.item
  inputs : ∀ w x, (s.worker w).currentInput = some x → P x

variable {s} {P : Item κ → Prop}

lemma All.mono {Q : Item κ → Prop} (h : s.All P) (hPQ : ∀ x, P x → Q x) : s.All Q where
  queue x hx := hPQ x (h.queue x hx)
  transfers t xs hxs x hx := hPQ x (h.transfers t xs hxs x hx)
  results r hr := hPQ r.item (h.results r hr)
  batch r hr := hPQ r.item (h.batch r hr)
  inputs w x hx := hPQ x (h.inputs w x hx)

lemma All.of_held (h : ∀ x ∈ s.held, P x)
    (hin : ∀ w x, (s.worker w).currentInput = some x → P x) : s.All P where
  queue x hx := h x (List.mem_append_left _ (List.mem_append_left _ hx))
  transfers t xs hxs x hx := by
    refine h x (List.mem_append_left _ (List.mem_append_right _ ?_))
    exact List.mem_flatMap.2 ⟨(t, xs), Dict.mem_items.2 hxs, hx⟩
  results r hr := by
    refine h r.item (List.mem_append_right _ (List.mem_map_of_mem ?_))
    exact List.mem_append_left _ hr
  batch r hr := by
    refine h r.item (List.mem_append_right _ (List.mem_map_of_mem ?_))
    exact List.mem_append_right _ hr
  inputs := hin

lemma All.held (h : s.All P) : ∀ x ∈ s.held, P x := by
  intro x hx
  simp only [Node.held, List.mem_append, List.mem_flatMap, List.mem_map] at hx
  rcases hx with (hx | ⟨e, he, hx⟩) | ⟨r, hr | hr, rfl⟩
  · exact h.queue x hx
  · exact h.transfers e.1 e.2 (Dict.mem_items.1 he) x hx
  · exact h.results r hr
  · exact h.batch r hr

end Node

namespace Task

/-- The inputs of the node that a task has in hand, or that it is about to take. -/
def hand (s : Node κ ω) : Task κ ω → List (Item κ)
  | revoking _ items => items
  | processInputs _ _ (.getting q) => s.queues q
  | processInputs _ _ (.calling x) | processInputs _ _ (.requeuing x _) => [x]
  | processInputs _ _ (.finishing r _) => [r.item]
  | _ => []

/-- The task is the loop of a worker that runs an input. -/
def Runs (w : ω) (x : Item κ) : Task κ ω → Prop
  | processInputs v _ (.calling y) | processInputs v _ (.requeuing y _) => v = w ∧ y = x
  | processInputs v _ (.finishing r _) => v = w ∧ r.item = x
  | _ => False

/-- What a task that runs an input has in hand. -/
lemma Runs.mem_hand {w : ω} {x : Item κ} {s : Node κ ω} {t : Task κ ω} (h : t.Runs w x) :
    x ∈ t.hand s := by
  unfold Runs at h
  split at h
  · exact List.mem_singleton.2 h.2.symm
  · exact List.mem_singleton.2 h.2.symm
  · exact List.mem_singleton.2 h.2.symm
  · cases h

lemma Runs.loopOf [DecidableEq ω] {w : ω} {x : Item κ} {t : Task κ ω} {ws : List ω}
    (h : t.Runs w x) (hc : t.loopOf ws = true) : w ∈ ws := by
  unfold Runs at h
  split at h
  · simpa [Task.loopOf, h.1] using hc
  · simpa [Task.loopOf, h.1] using hc
  · simpa [Task.loopOf, h.1] using hc
  · cases h

/-- The requests that `handle_errors` answers with 500 when they raise. -/
def answered : Task κ ω → Bool
  | execute _ .posted | execute _ .aborting | execute _ (.takenBack false)
  | uploadInputs _ _ .passed => false
  | execute _ _ | uploadInputs _ _ _ | revoking _ _ | tradeSlots _ _ | request => true
  | reboot .endpoint _ => true
  | _ => false

/-- A reboot that `handle_errors` has added, and that has yet to reinitialise the node. -/
def rebooting : Task κ ω → Bool
  | reboot .background .arrived | reboot .background .scheduled
  | reboot .background .asking => true
  | _ => false

end Task

/-! ### Steps -/

variable {P : Item κ → Prop}

/-- A node that has taken nothing in. -/
structure Onward (P : Item κ → Prop) (s s' : Node κ ω) : Prop where
  all : s'.All P
  queues : ∀ q, ∀ x ∈ s'.queues q, x ∈ s.queues q ∨ P x
  failed : ∀ k ∈ s.failedJobs, k ∈ s'.failedJobs
  inputs : ∀ w x, (s'.worker w).currentInput = some x → (s.worker w).currentInput = some x

namespace Onward

variable {s s' s'' : Node κ ω}

lemma refl (h : s.All P) : Onward P s s where
  all := h
  queues _ _ hx := .inl hx
  failed _ hk := hk
  inputs _ _ hx := hx

/-- Nothing that the node holds is written. -/
lemma of_eq (h : Onward P s s') (hqueues : s''.queues = s'.queues)
    (hworker : s''.worker = s'.worker) (hqueue : s''.self.inputsQueue = s'.self.inputsQueue)
    (htransfers : s''.self.pendingTransfers = s'.self.pendingTransfers)
    (hresults : s''.self.resultsQueue = s'.self.resultsQueue)
    (hbatch : s''.self.pendingResultBatch = s'.self.pendingResultBatch)
    (hfailed : ∀ k ∈ s'.failedJobs, k ∈ s''.failedJobs) : Onward P s s'' where
  all :=
    { queue := by
        rw [Node.queue, hqueues, hqueue]
        exact h.all.queue
      transfers := by
        rw [htransfers]
        exact h.all.transfers
      results := by
        rw [hresults]
        exact h.all.results
      batch := by
        rw [hbatch]
        exact h.all.batch
      inputs := by
        rw [hworker]
        exact h.all.inputs }
  queues := by
    rw [hqueues]
    exact h.queues
  failed k hk := hfailed k (h.failed k hk)
  inputs := by
    rw [hworker]
    exact h.inputs

lemma setQueue (h : Onward P s s') {xs : List (Item κ)} (hxs : ∀ x ∈ xs, P x) :
    Onward P s (s'.setQueue xs) where
  all := ⟨by simpa using hxs, h.all.transfers, h.all.results, h.all.batch, h.all.inputs⟩
  queues q x hx := by
    by_cases hq : q = s'.self.inputsQueue
    · subst hq
      refine .inr (hxs x ?_)
      simpa [Node.setQueue] using hx
    · refine h.queues q x ?_
      simpa [Node.setQueue, Function.update_of_ne hq] using hx
  failed := h.failed
  inputs := h.inputs

lemma put (h : Onward P s s') {xs : List (Item κ)} (hxs : ∀ x ∈ xs, P x) :
    Onward P s (s'.put xs) := by
  refine h.setQueue fun x hx => ?_
  rcases List.mem_append.1 hx with hx | hx
  · exact h.all.queue x hx
  · exact hxs x hx

lemma deliver (h : Onward P s s') {r : Outcome κ} (hr : P r.item) :
    Onward P s (s'.deliver r) where
  all :=
    { queue := h.all.queue
      transfers := h.all.transfers
      results := fun r' hr' => by
        rcases List.mem_append.1 hr' with hr' | hr'
        · exact h.all.results r' hr'
        · obtain rfl : r' = r := List.mem_singleton.1 hr'
          exact hr
      batch := h.all.batch
      inputs := h.all.inputs }
  queues := h.queues
  failed := h.failed
  inputs := h.inputs

lemma park (h : Onward P s s') (t : ℕ) {xs : List (Item κ)} (hxs : ∀ x ∈ xs, P x) :
    Onward P s { s' with
      self := { s'.self with pendingTransfers := s'.self.pendingTransfers.set t xs } } where
  all :=
    { queue := h.all.queue
      transfers := fun t' ys hys => by
        rw [Dict.get_set] at hys
        split_ifs at hys
        · obtain rfl := Option.some.inj hys
          exact hxs
        · exact h.all.transfers t' ys hys
      results := h.all.results
      batch := h.all.batch
      inputs := h.all.inputs }
  queues := h.queues
  failed := h.failed
  inputs := h.inputs

lemma pop (h : Onward P s s') (t : ℕ) :
    Onward P s { s' with
      self := { s'.self with pendingTransfers := s'.self.pendingTransfers.pop t } } where
  all :=
    { queue := h.all.queue
      transfers := fun t' ys hys => by
        rw [Dict.get_pop] at hys
        split_ifs at hys
        exact h.all.transfers t' ys hys
      results := h.all.results
      batch := h.all.batch
      inputs := h.all.inputs }
  queues := h.queues
  failed := h.failed
  inputs := h.inputs

/-- `REINIT_SELF` -/
lemma reinit (h : Onward P s s') : Onward P s s'.reinit where
  all :=
    { queue := fun x hx => by simp [Node.queue, Node.reinit, reinitSelf] at hx
      transfers := fun t xs hxs => by simp [Node.reinit, reinitSelf] at hxs
      results := fun r hr => by simp [Node.reinit, reinitSelf] at hr
      batch := fun r hr => by simp [Node.reinit, reinitSelf] at hr
      inputs := h.all.inputs }
  queues q x hx := by
    by_cases hq : q = s'.self.inputsQueue + 1
    · subst hq
      simp [Node.reinit] at hx
    · refine h.queues q x ?_
      simpa [Node.reinit, Function.update_of_ne hq] using hx
  failed := h.failed
  inputs := h.inputs

variable [DecidableEq ω]

lemma setWorkers (h : Onward P s s') (ws : List ω) {f : Worker κ → Worker κ}
    (hf : ∀ v x, (f v).currentInput = some x → v.currentInput = some x) :
    Onward P s (s'.setWorkers ws f) where
  all :=
    { queue := h.all.queue
      transfers := h.all.transfers
      results := h.all.results
      batch := h.all.batch
      inputs := fun w x hx => by
        rw [Node.worker_setWorkers] at hx
        split_ifs at hx
        · exact h.all.inputs w x (hf _ x hx)
        · exact h.all.inputs w x hx }
  queues := h.queues
  failed := h.failed
  inputs w x hx := by
    rw [Node.worker_setWorkers] at hx
    split_ifs at hx
    · exact h.inputs w x (hf _ x hx)
    · exact h.inputs w x hx

lemma retire (h : Onward P s s') (ws : List ω) : Onward P s (s'.retire ws) :=
  (h.setWorkers ws (f := fun v => { v with retired := true }) fun _ _ hx => hx).of_eq rfl rfl rfl
    rfl rfl rfl fun _ hk => hk

lemma clear (h : Onward P s s') (ws : List ω) : Onward P s (s'.clear ws) :=
  h.setWorkers ws fun _ _ hx => by cases hx

end Onward

/-- What a segment keeps: what it passes on meets `P`, and every worker's input is in the hand of
the worker's loop. -/
structure Keeps (P : Item κ → Prop) (s : Node κ ω) (t : Task κ ω) (y : Outturn κ ω) : Prop where
  all : y.shared.All P
  queues : ∀ q, ∀ x ∈ y.shared.queues q, x ∈ s.queues q ∨ P x
  failed : ∀ k ∈ s.failedJobs, k ∈ y.shared.failedJobs
  hands : ∀ u ∈ y.tasks, ∀ x ∈ u.hand y.shared, P x
  runs : ∀ w x, (y.shared.worker w).currentInput = some x →
    (∃ u ∈ y.tasks, u.Runs w x) ∨
      (s.worker w).currentInput = some x ∧ ¬ t.Runs w x ∧
        ∀ u : Task κ ω, u.Runs w x → y.cancels u = false

namespace Keeps

variable {s s' : Node κ ω} {t u : Task κ ω} {y : Outturn κ ω}

/-- The task is no loop with an input, and cancels none. -/
lemma of_onward (h : Onward P s y.shared) (hhands : ∀ u ∈ y.tasks, ∀ x ∈ u.hand y.shared, P x)
    (ht : ∀ w x, ¬ t.Runs w x) (hcancels : ∀ u : Task κ ω, y.cancels u = false) :
    Keeps P s t y where
  all := h.all
  queues := h.queues
  failed := h.failed
  hands := hhands
  runs w x hx := .inr ⟨h.inputs w x hx, ht w x, fun u _ => hcancels u⟩

lemma done (h : Onward P s s') (ht : ∀ w x, ¬ t.Runs w x) : Keeps P s t s'.done :=
  of_onward h (fun u hu => by simp at hu) ht fun _ => rfl

lemma next (h : Onward P s s') (hu : ∀ x ∈ u.hand s', P x) (ht : ∀ w x, ¬ t.Runs w x) :
    Keeps P s t (s'.next u) := by
  refine of_onward h (fun v hv => ?_) ht fun _ => rfl
  obtain rfl : v = u := by simpa using hv
  exact hu

lemma error (h : Onward P s s') (ht : ∀ w x, ¬ t.Runs w x) : Keeps P s t s'.error :=
  next h (fun x hx => by cases hx) ht

end Keeps

/-! ### Segments -/

section Segments

variable [DecidableEq κ] [DecidableEq ω] {s : Node κ ω} {y : Outturn κ ω} {a : Choice ω}

omit [DecidableEq κ] in
lemma keeps_startLoop (h : s.All P) {t : Task κ ω} (ht : ∀ w x, ¬ t.Runs w x) (job : κ) (w : ω) :
    Keeps P s t (startLoop s job w) := by
  unfold startLoop
  split_ifs
  · exact .done (.refl h) ht
  · exact .next ((Onward.refl h).setWorkers [w] fun _ _ hx => hx) (fun x hx => by cases hx) ht

lemma keeps_executeSegment (h : s.All P) {job : κ} {stage : ExecuteStage ω}
    (hy : executeSegment s job stage a = some y) : Keeps P s (.execute job stage) y := by
  have ht : ∀ stage w x, ¬ (Task.execute (κ := κ) (ω := ω) job stage).Runs w x :=
    fun _ _ _ hruns => hruns
  have hsame : ∀ s' : Node κ ω, s'.queues = s.queues → s'.worker = s.worker →
      s'.self.inputsQueue = s.self.inputsQueue →
      s'.self.pendingTransfers = s.self.pendingTransfers →
      s'.self.resultsQueue = s.self.resultsQueue →
      s'.self.pendingResultBatch = s.self.pendingResultBatch →
      s'.failedJobs = s.failedJobs → Onward P s s' :=
    fun s' hq hw hn htr hr hb hf => (Onward.refl h).of_eq hq hw hn htr hr hb fun k hk => hf ▸ hk
  unfold executeSegment at hy
  split at hy
  · split_ifs at hy
    · obtain rfl := Option.some.inj hy
      exact .done (.refl h) (ht _)
    · obtain rfl := Option.some.inj hy
      exact .next (hsame _ rfl rfl rfl rfl rfl rfl rfl) (fun x hx => by cases hx) (ht _)
  · obtain rfl := Option.some.inj hy
    exact .error (.refl h) (ht _)
  · split_ifs at hy
    · obtain rfl := Option.some.inj hy
      exact .next (.refl h) (fun x hx => by cases hx) (ht _)
    · obtain rfl := Option.some.inj hy
      exact .done (.refl h) (ht _)
  · simp only at hy
    split_ifs at hy
    · obtain rfl := Option.some.inj hy
      exact .next (.refl h) (fun x hx => by cases hx) (ht _)
    · obtain rfl := Option.some.inj hy
      exact .next (hsame _ rfl rfl rfl rfl rfl rfl rfl) (fun x hx => by cases hx) (ht _)
  · obtain rfl := Option.some.inj hy
    exact .next (hsame _ rfl rfl rfl rfl rfl rfl rfl) (fun x hx => by cases hx) (ht _)
  · obtain rfl := Option.some.inj hy
    exact .error (.refl h) (ht _)
  · obtain rfl := Option.some.inj hy
    exact .next (hsame _ rfl rfl rfl rfl rfl rfl rfl) (fun x hx => by cases hx) (ht _)
  · obtain rfl := Option.some.inj hy
    exact .done (.refl h) (ht _)
  · obtain rfl := Option.some.inj hy
    exact .done (.refl h) (ht _)
  · obtain rfl := Option.some.inj hy
    exact .error (.refl h) (ht _)
  · obtain rfl := Option.some.inj hy
    exact .done (.refl h) (ht _)
  · obtain rfl := Option.some.inj hy
    exact .next (.refl h) (fun x hx => by cases hx) (ht _)
  · obtain rfl := Option.some.inj hy
    exact .error (.refl h) (ht _)
  · -- one more worker has the function
    split_ifs at hy
    obtain rfl := Option.some.inj hy
    obtain ⟨hall, hqueues, hfailed, hhands, hruns⟩ := keeps_startLoop h (ht .posted) job ‹ω›
    refine ⟨hall, hqueues, hfailed, fun u hu x hx => ?_, fun w x hx => ?_⟩
    · rcases List.mem_cons.1 hu with rfl | hu
      · cases hx
      · exact hhands u hu x hx
    · rcases hruns w x hx with ⟨u, hu, hux⟩ | hold
      · exact .inl ⟨u, List.mem_cons_of_mem _ hu, hux⟩
      · exact .inr ⟨hold.1, ht _ w x, hold.2.2⟩
  · -- the other calls of `load_function` go on
    obtain rfl := Option.some.inj hy
    refine .of_onward (.refl h) (fun u hu x hx => ?_) (ht _) fun _ => rfl
    rcases List.mem_cons.1 hu with rfl | hu
    · cases hx
    · obtain ⟨w, -, rfl⟩ := List.mem_map.1 hu
      cases hx
  · obtain rfl := Option.some.inj hy
    refine .of_onward (hsame _ rfl rfl rfl rfl rfl rfl rfl) (fun u hu x hx => ?_) (ht _) fun _ => rfl
    simp only [beginJob, List.mem_append, List.mem_cons, List.not_mem_nil, or_false,
      List.mem_map] at hu
    rcases hu with (rfl | rfl) | ⟨m, -, rfl⟩ <;> cases hx
  · cases hy

omit [DecidableEq ω] in
/-- What an upload puts meets `P`. -/
lemma keeps_uploadSegment (h : s.All P) {limit : ℕ} {job : κ} {inputs : List Input}
    {stage : UploadStage}
    (hput : stage = .passed → a = .go → ∀ i ∈ inputs, P ⟨job, i⟩)
    (hy : uploadSegment s limit job inputs stage a = some y) :
    Keeps P s (.uploadInputs job inputs stage) y := by
  have ht : ∀ stage w x, ¬ (Task.uploadInputs (κ := κ) (ω := ω) job inputs stage).Runs w x :=
    fun _ _ _ hruns => hruns
  have hcheck : ∀ {y stage}, (if s.self.currentJob ≠ some job then some s.done
      else if limit < s.sizeBytes then some (s.next (.uploadInputs job inputs .waiting))
      else some (s.next (.uploadInputs job inputs .passed))) = some y →
      Keeps P s (.uploadInputs job inputs stage) y := by
    intro y stage hy
    split_ifs at hy
    · obtain rfl := Option.some.inj hy
      exact .done (.refl h) (ht _)
    · obtain rfl := Option.some.inj hy
      exact .next (.refl h) (fun x hx => by cases hx) (ht _)
    · obtain rfl := Option.some.inj hy
      exact .next (.refl h) (fun x hx => by cases hx) (ht _)
  unfold uploadSegment at hy
  split at hy
  · exact hcheck hy
  · exact hcheck hy
  · obtain rfl := Option.some.inj hy
    exact .error (.refl h) (ht _)
  · obtain rfl := Option.some.inj hy
    exact .error (.refl h) (ht _)
  · obtain rfl := Option.some.inj hy
    refine .done ((Onward.refl h).put fun x hx => ?_) (ht _)
    obtain ⟨i, hi, rfl⟩ := List.mem_map.1 hx
    exact hput rfl rfl i hi
  · cases hy

lemma keeps_getInputsSegment (h : s.All P) {job : κ} {transferId : ℕ} {queueSize idleWorkers : ℤ}
    {victims : List ω}
    (hy : getInputsSegment s job transferId queueSize idleWorkers victims = some y) :
    Keeps P s (.getInputs job transferId queueSize idleWorkers) y := by
  have ht : ∀ w x, ¬ (Task.getInputs (κ := κ) (ω := ω) job transferId queueSize
      idleWorkers).Runs w x := fun _ _ hruns => hruns
  unfold getInputsSegment at hy
  by_cases hrefused : s.self.currentJob ≠ some job ∨ s.self.jobWatcherStopEvent = true
  · rw [if_pos hrefused] at hy
    obtain rfl := Option.some.inj hy
    exact .done (.refl h) ht
  rw [if_neg hrefused] at hy
  split at hy
  · obtain rfl := Option.some.inj hy
    exact .done (.refl h) ht
  simp only at hy
  split_ifs at hy
  · -- the workers' inputs are revoked
    obtain rfl := Option.some.inj hy
    refine .next (((Onward.refl h).retire victims).clear victims) (fun x hx => ?_) ht
    obtain ⟨w, -, hx⟩ := List.mem_filterMap.1 hx
    exact h.inputs w x hx
  · -- a batch is cut off the queue
    obtain rfl := Option.some.inj hy
    refine .done (((Onward.refl h).setQueue fun x hx => ?_).park transferId fun x hx => ?_) ht
    · exact h.queue x (List.mem_of_mem_take hx)
    · exact h.queue x (List.mem_of_mem_drop hx)

omit [DecidableEq κ] [DecidableEq ω] in
lemma keeps_revokingSegment (h : s.All P) {transferId : ℕ} {items : List (Item κ)}
    (hitems : ∀ x ∈ items, P x) (hy : revokingSegment s transferId items a = some y) :
    Keeps P s (.revoking transferId items) y := by
  unfold revokingSegment at hy
  split at hy
  · obtain rfl := Option.some.inj hy
    exact .done ((Onward.refl h).park transferId hitems) fun _ _ hruns => hruns
  · obtain rfl := Option.some.inj hy
    exact .error (.refl h) fun _ _ hruns => hruns
  · cases hy

omit [DecidableEq ω] in
lemma keeps_ackTransferSegment (h : s.All P) (job : κ) (transferId : ℕ) (received : Bool) :
    Keeps P s (.ackTransfer job transferId received)
      (ackTransferSegment s job transferId received) := by
  have ht : ∀ w x, ¬ (Task.ackTransfer (κ := κ) (ω := ω) job transferId received).Runs w x :=
    fun _ _ hruns => hruns
  unfold ackTransferSegment
  by_cases hjob : s.self.currentJob ≠ some job
  · rw [if_pos hjob]
    exact .done (.refl h) ht
  rw [if_neg hjob]
  split
  · exact .done (.refl h) ht
  · rename_i items hitems
    simp only
    split_ifs
    · exact .done ((Onward.refl h).pop transferId) ht
    · exact .done (((Onward.refl h).put (h.transfers transferId items hitems)).pop transferId) ht

lemma keeps_tradeSegment (h : s.All P) {job : κ} {stage : TradeStage ω}
    (hy : tradeSegment s job stage a = some y) : Keeps P s (.tradeSlots job stage) y := by
  have ht : ∀ stage w x, ¬ (Task.tradeSlots (κ := κ) (ω := ω) job stage).Runs w x :=
    fun _ _ _ hruns => hruns
  unfold tradeSegment at hy
  split at hy
  · split_ifs at hy
    · obtain rfl := Option.some.inj hy
      exact .done (.refl h) (ht _)
    · obtain rfl := Option.some.inj hy
      exact .next (.refl h) (fun x hx => by cases hx) (ht _)
  · -- a worker is cancelled with its loop
    rename_i w idle granted
    obtain rfl := Option.some.inj hy
    have honward : Onward P s ((s.retire [w]).clear [w]) := ((Onward.refl h).retire [w]).clear [w]
    refine ⟨honward.all, honward.queues, honward.failed, fun u hu x hx => ?_, fun v x hx => .inr ?_⟩
    · obtain rfl := List.mem_singleton.1 hu
      cases hx
    · refine ⟨honward.inputs v x hx, ht _ v x, fun u hu => Bool.eq_false_iff.2 fun hc => ?_⟩
      rw [Node.currentInput_clear, if_pos (hu.loopOf hc)] at hx
      cases hx
  · obtain rfl := Option.some.inj hy
    exact .done ((Onward.refl h).of_eq rfl rfl rfl rfl rfl rfl fun _ hk => hk) (ht _)
  · obtain rfl := Option.some.inj hy
    exact .error (.refl h) (ht _)
  · cases hy

omit [DecidableEq ω] in
lemma keeps_getResultsSegment (h : s.All P) (job : κ) (acks : Bool) :
    Keeps P s (.getResults job acks) (getResultsSegment s job acks) := by
  have ht : ∀ w x, ¬ (Task.getResults (κ := κ) (ω := ω) job acks).Runs w x :=
    fun _ _ hruns => hruns
  unfold getResultsSegment
  by_cases hjob : s.self.currentJob ≠ some job
  · rw [if_pos hjob]
    exact .done (.refl h) ht
  rw [if_neg hjob]
  simp only
  split
  · refine .done ⟨⟨h.queue, h.transfers, fun r hr => ?_, fun r hr => ?_, h.inputs⟩,
      fun _ _ hx => .inl hx, fun _ hk => hk, fun _ _ hx => hx⟩ ht
    · exact h.results r (List.mem_of_mem_drop hr)
    · exact h.results r (List.mem_of_mem_take hr)
  · exact .done (.refl h) ht

omit [DecidableEq κ] [DecidableEq ω] in
lemma onward_startReboot (h : s.All P) : Onward P s (startReboot s) :=
  (Onward.refl h).of_eq rfl rfl rfl rfl rfl rfl fun _ hk => hk

omit [DecidableEq κ] in
lemma keeps_rebootSegment (h : s.All P) {caller : Caller} {stage : RebootStage}
    (hy : rebootSegment s caller stage a = some y) : Keeps P s (.reboot caller stage) y := by
  have ht : ∀ stage w x, ¬ (Task.reboot (κ := κ) (ω := ω) caller stage).Runs w x :=
    fun _ _ _ hruns => hruns
  have hnone : ∀ {s' : Node κ ω} {stage}, ∀ x ∈ (Task.reboot (ω := ω) caller stage).hand s', P x :=
    fun x hx => by cases hx
  have hfail : ∀ {stage}, Keeps P s (.reboot caller stage) (failReboot s caller) := by
    intro stage
    have honward : Onward P s { s with
        self := { s.self with failed := true, reportedStatus := .failed } } :=
      (Onward.refl h).of_eq rfl rfl rfl rfl rfl rfl fun _ hk => hk
    simp only [failReboot]
    split_ifs
    · exact .error honward (ht _)
    · exact .done honward (ht _)
  have hend : ∀ {stage}, Keeps P s (.reboot caller stage) (endReboot s) :=
    .done ((Onward.refl h).of_eq rfl rfl rfl rfl rfl rfl fun _ hk => hk) (ht _)
  have hexpire : ∀ {stage y}, (if caller = .jobEnd then
      some { s with self := { s.self with reportedStatus := .failed } }.done else none) = some y →
      Keeps P s (.reboot caller stage) y := by
    intro stage y hy
    split_ifs at hy
    obtain rfl := Option.some.inj hy
    exact .done ((Onward.refl h).of_eq rfl rfl rfl rfl rfl rfl fun _ hk => hk) (ht _)
  unfold rebootSegment at hy
  split at hy
  · split_ifs at hy
    · obtain rfl := Option.some.inj hy
      exact .done (.refl h) (ht _)
    · obtain rfl := Option.some.inj hy
      exact .next (onward_startReboot h) hnone (ht _)
  · obtain rfl := Option.some.inj hy
    exact .next (onward_startReboot h) hnone (ht _)
  · simp only at hy
    split_ifs at hy
    · obtain rfl := Option.some.inj hy
      exact hend
    · obtain rfl := Option.some.inj hy
      exact .next ((Onward.refl h).reinit.of_eq rfl rfl rfl rfl rfl rfl fun _ hk => hk) hnone (ht _)
  · -- the new workers have no inputs
    split_ifs at hy
    rename_i ws hws
    obtain rfl := Option.some.inj hy
    exact .next (((Onward.refl h).setWorkers ws (f := fun _ => .fresh) fun _ _ hx => by
      cases hx).of_eq rfl rfl rfl rfl rfl rfl fun _ hk => hk) hnone (ht _)
  · obtain rfl := Option.some.inj hy
    exact .next ((Onward.refl h).of_eq rfl rfl rfl rfl rfl rfl fun _ hk => hk) hnone (ht _)
  · split_ifs at hy
    · obtain rfl := Option.some.inj hy
      exact hend
    · obtain rfl := Option.some.inj hy
      exact .next ((Onward.refl h).of_eq rfl rfl rfl rfl rfl rfl fun _ hk => hk) hnone (ht _)
  · obtain rfl := Option.some.inj hy
    exact hend
  iterate 5
    · obtain rfl := Option.some.inj hy
      exact hfail
  iterate 5
    · exact hexpire hy
  · cases hy

omit [DecidableEq κ] [DecidableEq ω] in
/-- What a steal puts meets `P`. -/
lemma keeps_stealSegment (h : s.All P) {n : ℕ} {stage : StealStage κ}
    (hput : ∀ items, stage = .locking items → a = .go → 0 < s.self.targetParallelism →
      ∀ x ∈ items, P x)
    (hy : stealSegment s n stage a = some y) : Keeps P s (.inputSteal n stage) y := by
  have ht : ∀ stage w x, ¬ (Task.inputSteal (κ := κ) (ω := ω) n stage).Runs w x :=
    fun _ _ _ hruns => hruns
  have hnone : ∀ {s' : Node κ ω} {stage}, ∀ x ∈ (Task.inputSteal (ω := ω) n stage).hand s', P x :=
    fun x hx => by cases hx
  have hactive : ∀ active : Bool, Onward P s { s with
      self := { s.self with activeInputStealId := active } } := fun _ =>
    (Onward.refl h).of_eq rfl rfl rfl rfl rfl rfl fun _ hk => hk
  unfold stealSegment at hy
  split at hy
  · split_ifs at hy
    · obtain rfl := Option.some.inj hy
      exact .done (.refl h) (ht _)
    · obtain rfl := Option.some.inj hy
      exact .next (.refl h) hnone (ht _)
  · obtain rfl := Option.some.inj hy
    exact .next (.refl h) hnone (ht _)
  · split at hy
    · cases hy
    · obtain rfl := Option.some.inj hy
      exact .next (hactive true) hnone (ht _)
  · obtain rfl := Option.some.inj hy
    exact .next (hactive false) hnone (ht _)
  · split_ifs at hy
    · obtain rfl := Option.some.inj hy
      exact .next (.refl h) hnone (ht _)
    · obtain rfl := Option.some.inj hy
      exact .next (.refl h) hnone (ht _)
  · obtain rfl := Option.some.inj hy
    exact .next (.refl h) hnone (ht _)
  · rename_i items
    obtain rfl := Option.some.inj hy
    split_ifs with hpar
    · exact .next ((Onward.refl h).put (hput items rfl rfl hpar)) hnone (ht _)
    · exact .next (.refl h) hnone (ht _)
  · obtain rfl := Option.some.inj hy
    exact .next (hactive false) hnone (ht _)
  · obtain rfl := Option.some.inj hy
    exact .done (.refl h) (ht _)
  · cases hy

omit [DecidableEq κ] in
/-- The workers whose loops are cancelled have no input. -/
lemma currentInput_cancelLoops {ws : List ω} {w : ω} {x : Item κ}
    (hx : ((s.cancelLoops ws).worker w).currentInput = some x) :
    (s.worker w).currentInput = some x ∧
      w ∉ ws.filter fun w => (s.worker w).processInputsTask := by
  simp only [Node.cancelLoops, Node.worker_setWorkers] at hx
  split_ifs at hx with hw htask
  · exact ⟨hx, fun hmem => htask (List.mem_filter.1 hmem).2⟩
  · exact ⟨hx, fun hmem => hw (List.mem_filter.1 hmem).1⟩

omit [DecidableEq κ] in
lemma keeps_watcherSegment (h : s.All P) {n : ℕ} {stage : WatcherStage}
    (hy : watcherSegment s n stage a = some y) : Keeps P s (.jobWatcher n stage) y := by
  have ht : ∀ stage w x, ¬ (Task.jobWatcher (κ := κ) (ω := ω) n stage).Runs w x :=
    fun _ _ _ hruns => hruns
  have hnone : ∀ {s' : Node κ ω} {stage}, ∀ u ∈ [Task.jobWatcher (κ := κ) (ω := ω) n stage],
      ∀ x ∈ u.hand s', P x := by
    intro s' stage u hu x hx
    obtain rfl := List.mem_singleton.1 hu
    cases hx
  -- a loop that runs an input is neither a steal loop nor a monitor
  have hruns : ∀ {s' : Node κ ω} {stage stage' c}, Onward P s s' →
      (∀ (w : ω) (x : Item κ) (u : Task κ ω), u.Runs w x → c u = false) →
      Keeps P s (.jobWatcher n stage) ⟨s', [.jobWatcher n stage'], c⟩ := fun ho hc =>
    ⟨ho.all, ho.queues, ho.failed, hnone, fun w x hx => .inr ⟨ho.inputs w x hx, ht _ w x, hc w x⟩⟩
  have hsteal : ∀ (w : ω) (x : Item κ) (u : Task κ ω), u.Runs w x → Task.stealOf n u = false := by
    intro w x u hu
    cases u with
    | inputSteal m stage => cases hu
    | _ => rfl
  have hmonitors : ∀ ns (w : ω) (x : Item κ) (u : Task κ ω), u.Runs w x →
      Task.monitorIn ns u = false := by
    intro ns w x u hu
    cases u with
    | monitor m stage => cases hu
    | _ => rfl
  unfold watcherSegment at hy
  split at hy
  · split_ifs at hy
    obtain rfl := Option.some.inj hy
    exact ⟨h, fun _ _ hx => .inl hx, fun _ hk => hk, fun u hu => by simp at hu,
      fun w x hx => .inr ⟨hx, ht _ w x, hsteal w x⟩⟩
  · split_ifs at hy
    obtain rfl := Option.some.inj hy
    exact hruns ((Onward.refl h).of_eq rfl rfl rfl rfl rfl rfl fun _ hk => hk) hsteal
  · rename_i crashed marked
    obtain rfl := Option.some.inj hy
    refine hruns ?_ fun w x u hu => ?_
    · split_ifs
      · cases s.self.currentJob with
        | none => exact .refl h
        | some job =>
          exact (Onward.refl h).of_eq rfl rfl rfl rfl rfl rfl fun _ hk => List.mem_cons_of_mem _ hk
      · exact .refl h
    · split_ifs
      · rfl
      · exact hsteal w x u hu
  · obtain rfl := Option.some.inj hy
    exact hruns ((Onward.refl h).of_eq rfl rfl rfl rfl rfl rfl fun _ hk => hk)
      (hmonitors s.self.monitors)
  · -- the loops are cancelled
    obtain rfl := Option.some.inj hy
    have hcancel : Onward P s (s.cancelLoops (s.self.workers ++ s.self.idleWorkers)) :=
      ⟨⟨h.queue, h.transfers, h.results, h.batch,
        fun w x hx => h.inputs w x (currentInput_cancelLoops hx).1⟩, fun _ _ hx => .inl hx,
        fun _ hk => hk, fun w x hx => (currentInput_cancelLoops hx).1⟩
    split_ifs with hreboot
    · refine ⟨(onward_startReboot hcancel.all).all, fun _ _ hx => .inl hx, fun _ hk => hk,
        fun u hu x hx => ?_, fun w x hx => .inr ?_⟩
      · obtain rfl := List.mem_singleton.1 hu
        cases hx
      · obtain ⟨hold, hnot⟩ := currentInput_cancelLoops (w := w) (x := x) hx
        exact ⟨hold, ht _ w x, fun u hu => Bool.eq_false_iff.2 fun hc => hnot (hu.loopOf hc)⟩
    · refine ⟨hcancel.all, hcancel.queues, hcancel.failed, hnone, fun w x hx => .inr ?_⟩
      obtain ⟨hold, hnot⟩ := currentInput_cancelLoops (w := w) (x := x) hx
      exact ⟨hold, ht _ w x, fun u hu => Bool.eq_false_iff.2 fun hc => hnot (hu.loopOf hc)⟩
  · obtain rfl := Option.some.inj hy
    have hset : Onward P s (s.setWorkers (s.self.workers ++ s.self.idleWorkers)
        fun w => { w with retired := false }) := (Onward.refl h).setWorkers _ fun _ _ hx => hx
    exact hruns (hset.reinit.of_eq rfl rfl rfl rfl rfl rfl fun _ hk => hk) fun _ _ _ _ => rfl
  · split_ifs at hy
    · obtain rfl := Option.some.inj hy
      exact .done (.refl h) (ht _)
    · obtain rfl := Option.some.inj hy
      exact .next (onward_startReboot h) (fun x hx => by cases hx) (ht _)
  · obtain rfl := Option.some.inj hy
    exact .done (.refl h) (ht _)
  · obtain rfl := Option.some.inj hy
    exact hruns (.refl h) fun _ _ _ _ => rfl
  · cases hy

omit [DecidableEq κ] in
/-- A worker's loop that ends clears the input that it has run. -/
lemma keeps_processInputsSegment (h : s.All P) {w : ω} {job : κ} {stage : LoopStage κ}
    (hhand : ∀ x ∈ (Task.processInputs w job stage).hand s, P x)
    (hy : processInputsSegment s w job stage a = some y) :
    Keeps P s (.processInputs w job stage) y := by
  have hclear : ∀ {s' : Node κ ω} {stage ts}, Onward P s s' →
      (∀ v x, (s'.worker v).currentInput = some x → v ≠ w) →
      (∀ u ∈ ts, ∀ x ∈ u.hand s', P x) →
      Keeps P s (.processInputs w job stage) ⟨s', ts, fun _ => false⟩ := by
    intro s' stage ts ho hne hts
    refine ⟨ho.all, ho.queues, ho.failed, hts, fun v x hx => .inr ⟨ho.inputs v x hx, ?_,
      fun _ _ => rfl⟩⟩
    intro hruns
    have hv : v = w := by
      cases stage <;> first | exact hruns.1.symm | exact hruns.elim
    exact hne v x hx hv
  have hcleared : ∀ {s' : Node κ ω}, ∀ v x, ((s'.clear [w]).worker v).currentInput = some x →
      v ≠ w := by
    intro s' v x hx hv
    rw [Node.currentInput_clear, if_pos (by simp [hv])] at hx
    cases hx
  have hnone : ∀ {s' : Node κ ω}, ∀ u ∈ ([] : List (Task κ ω)), ∀ x ∈ u.hand s', P x :=
    fun u hu => by simp at hu
  -- a loop that goes on with its input
  have hgoes : ∀ {x stage stage'}, P x →
      (∀ s' : Node κ ω, (Task.processInputs w job stage').hand s' = [x]) →
      (∀ v z, (Task.processInputs (κ := κ) w job stage).Runs v z →
        (Task.processInputs (κ := κ) w job stage').Runs v z) →
      Keeps P s (.processInputs w job stage) (s.next (.processInputs w job stage')) := by
    intro x stage stage' hx hstage hruns
    refine ⟨h, fun _ _ hz => .inl hz, fun _ hk => hk, fun u hu z hz => ?_, fun v z hz => ?_⟩
    · obtain rfl := List.mem_singleton.1 hu
      rw [hstage] at hz
      obtain rfl := List.mem_singleton.1 hz
      exact hx
    · by_cases hrun : (Task.processInputs w job stage).Runs v z
      · exact .inl ⟨_, List.mem_singleton_self _, hruns v z hrun⟩
      · exact .inr ⟨hz, hrun, fun _ _ => rfl⟩
  unfold processInputsSegment at hy
  split at hy
  · obtain rfl := Option.some.inj hy
    exact .next (.refl h) h.queue fun _ _ hruns => hruns
  · obtain rfl := Option.some.inj hy
    exact .done ((Onward.refl h).retire [w]) fun _ _ hruns => hruns
  · -- an input is taken
    rename_i q
    split at hy
    · cases hy
    · rename_i x rest hq
      obtain rfl := Option.some.inj hy
      have hqueue : ∀ q' z, z ∈ Function.update s.queues q rest q' → z ∈ s.queues q' := by
        intro q' z hz
        by_cases hqq : q' = q
        · subst hqq
          rw [Function.update_self] at hz
          exact hq ▸ List.mem_cons_of_mem x hz
        · rwa [Function.update_of_ne hqq] at hz
      have hx : P x := hhand x (by simp [Task.hand, hq])
      refine ⟨⟨fun z hz => h.queue z (hqueue _ z hz), h.transfers, h.results, h.batch,
        fun v z hz => ?_⟩, fun q' z hz => .inl (hqueue q' z hz), fun _ hk => hk,
        fun u hu z hz => ?_, fun v z hz => ?_⟩
      · simp only [Node.next_shared, Node.worker_setWorkers] at hz
        split_ifs at hz
        · obtain rfl := Option.some.inj hz
          exact hx
        · exact h.inputs v z hz
      · obtain rfl := List.mem_singleton.1 hu
        obtain rfl := List.mem_singleton.1 hz
        exact hx
      · simp only [Node.next_shared, Node.worker_setWorkers] at hz
        split_ifs at hz with hv
        · refine .inl ⟨_, List.mem_singleton_self _, (List.mem_singleton.1 hv).symm, ?_⟩
          exact Option.some.inj hz
        · exact .inr ⟨hz, fun hruns => hruns, fun _ _ => rfl⟩
  · rename_i x isError resultPkl
    obtain rfl := Option.some.inj hy
    exact hgoes (hhand x (List.mem_singleton_self x)) (fun _ => rfl) fun _ _ hruns => hruns
  · -- the worker is dead
    rename_i x errorPkl
    have hx : P x := hhand x (List.mem_singleton_self x)
    split_ifs at hy
    · obtain rfl := Option.some.inj hy
      exact hclear ((Onward.refl h).clear [w]) hcleared hnone
    · obtain rfl := Option.some.inj hy
      exact hgoes hx (fun _ => rfl) fun _ _ hruns => hruns
    · obtain rfl := Option.some.inj hy
      exact hgoes hx (fun _ => rfl) fun _ _ hruns => hruns
  · rename_i x errorPkl
    have hx : P x := hhand x (List.mem_singleton_self x)
    split_ifs at hy
    · obtain rfl := Option.some.inj hy
      exact hclear ((Onward.refl h).clear [w]) hcleared hnone
    · obtain rfl := Option.some.inj hy
      exact hgoes hx (fun _ => rfl) fun _ _ hruns => hruns
  · rename_i x errorPkl
    have hx : P x := hhand x (List.mem_singleton_self x)
    have hretire : Onward P s (s.retire [w]) := (Onward.refl h).retire [w]
    split_ifs at hy with hfree
    · obtain rfl := Option.some.inj hy
      refine hclear (.refl h) (fun v z hz hv => ?_) hnone
      rw [hv, hfree] at hz
      cases hz
    · obtain rfl := Option.some.inj hy
      refine hclear ((hretire.put fun z hz => ?_).clear [w]) hcleared hnone
      obtain rfl := List.mem_singleton.1 hz
      exact hx
    · obtain rfl := Option.some.inj hy
      exact hclear ((hretire.deliver (by exact hx)).clear [w]) hcleared hnone
  · rename_i r stopAfterResult
    have hr : P r.item := hhand r.item (List.mem_singleton_self r.item)
    have hdeliver : Onward P s ((s.clear [w]).deliver r) := ((Onward.refl h).clear [w]).deliver hr
    split_ifs at hy
    · obtain rfl := Option.some.inj hy
      exact hclear ((Onward.refl h).clear [w]) hcleared hnone
    · obtain rfl := Option.some.inj hy
      exact hclear hdeliver hcleared hnone
    · obtain rfl := Option.some.inj hy
      refine hclear hdeliver hcleared fun u hu x hx => ?_
      obtain rfl := List.mem_singleton.1 hu
      cases hx
  · cases hy

omit [DecidableEq κ] in
lemma keeps_monitorSegment (h : s.All P) {n : ℕ} {stage : MonitorStage κ ω}
    (hy : monitorSegment s n stage a = some y) : Keeps P s (.monitor n stage) y := by
  have ht : ∀ stage w x, ¬ (Task.monitor (κ := κ) (ω := ω) n stage).Runs w x :=
    fun _ _ _ hruns => hruns
  have hnone : ∀ {s' : Node κ ω} {stage}, ∀ x ∈ (Task.monitor (ω := ω) n stage).hand s', P x :=
    fun x hx => by cases hx
  unfold monitorSegment at hy
  split at hy
  · obtain rfl := Option.some.inj hy
    exact .done (.refl h) (ht _)
  · split_ifs at hy
    obtain rfl := Option.some.inj hy
    exact .next (.refl h) hnone (ht _)
  · split_ifs at hy
    obtain rfl := Option.some.inj hy
    exact .next ((Onward.refl h).retire [_]) hnone (ht _)
  · -- a worker is made
    split_ifs at hy
    rename_i w template hmade
    obtain rfl := Option.some.inj hy
    have hfresh : Onward P s (s.setWorkers [w] fun _ => .fresh) :=
      (Onward.refl h).setWorkers [w] fun _ _ hx => by cases hx
    refine .of_onward (hfresh.of_eq rfl rfl rfl rfl rfl rfl fun _ hk => hk)
      (fun u hu x hx => ?_) (ht _) fun _ => rfl
    simp only [List.mem_cons, List.not_mem_nil, or_false] at hu
    rcases hu with rfl | rfl <;> cases hx
  · simp only at hy
    split_ifs at hy
    · obtain rfl := Option.some.inj hy
      exact .next (.refl h) hnone (ht _)
    · obtain rfl := Option.some.inj hy
      refine .next (((Onward.refl h).retire _).put fun x hx => ?_) hnone (ht _)
      obtain ⟨w, -, hx⟩ := List.mem_filterMap.1 hx
      exact h.inputs w x hx
  · obtain rfl := Option.some.inj hy
    exact .next ((Onward.refl h).clear _) hnone (ht _)
  · obtain rfl := Option.some.inj hy
    exact .done ((Onward.refl h).clear _) (ht _)
  · split at hy
    · obtain rfl := Option.some.inj hy
      exact .done (.refl h) (ht _)
    · obtain rfl := Option.some.inj hy
      exact .next (.refl h) hnone (ht _)
  · obtain rfl := Option.some.inj hy
    exact .done (.refl h) (ht _)
  · obtain rfl := Option.some.inj hy
    exact .done (.refl h) (ht _)
  · -- the worker joins
    rename_i w template job
    obtain ⟨hall, hqueues, hfailed, hhands, hruns⟩ :=
      keeps_startLoop h (t := .monitor n (.handing w template job)) (ht _) job w
    simp only at hy
    split_ifs at hy
    · obtain rfl := Option.some.inj hy
      refine ⟨⟨hall.queue, hall.transfers, hall.results, hall.batch, hall.inputs⟩, hqueues,
        hfailed, fun u hu x hx => hhands u hu x ?_, hruns⟩
      cases u <;> exact hx
    · obtain rfl := Option.some.inj hy
      exact ⟨hall, hqueues, hfailed, hhands, hruns⟩
  · cases hy

/-- What the node takes in. -/
def taken (s : Node κ ω) : Task κ ω → Choice ω → List (Item κ)
  | .uploadInputs job inputs .passed, .go => inputs.map (Item.mk job)
  | .inputSteal _ (.locking items), .go => if 0 < s.self.targetParallelism then items else []
  | _, _ => []

/-- **What a segment passes on** meets `P`, if what it finds and takes in does. -/
lemma keeps_segment {limit : ℕ} {t : Task κ ω} (h : s.All P) (hhand : ∀ x ∈ t.hand s, P x)
    (htaken : ∀ x ∈ taken s t a, P x) (hy : segment s limit t a = some y) : Keeps P s t y := by
  unfold segment at hy
  split at hy
  · exact keeps_executeSegment h hy
  · obtain rfl := Option.some.inj hy
    exact keeps_startLoop h (t := .load _ _) (fun _ _ hruns => hruns) _ _
  · obtain rfl := Option.some.inj hy
    exact .done (.refl h) fun _ _ hruns => hruns
  · refine keeps_uploadSegment h (fun hstage ha i hi => htaken _ ?_) hy
    subst hstage ha
    exact List.mem_map_of_mem hi
  · exact keeps_getInputsSegment h hy
  · exact keeps_revokingSegment h hhand hy
  · obtain rfl := Option.some.inj hy
    exact keeps_ackTransferSegment h _ _ _
  · exact keeps_tradeSegment h hy
  · obtain rfl := Option.some.inj hy
    exact keeps_getResultsSegment h _ _
  · obtain rfl := Option.some.inj hy
    exact .done (.refl h) fun _ _ hruns => hruns
  · obtain rfl := Option.some.inj hy
    exact .error (.refl h) fun _ _ hruns => hruns
  · obtain rfl := Option.some.inj hy
    exact .done ((Onward.refl h).of_eq rfl rfl rfl rfl rfl rfl fun _ hk => hk) fun _ _ hruns => hruns
  · exact keeps_rebootSegment h hy
  · refine keeps_stealSegment h (fun items hstage ha hpar x hx => htaken x ?_) hy
    subst hstage ha
    simpa [taken, hpar] using hx
  · exact keeps_watcherSegment h hy
  · exact keeps_processInputsSegment h hhand hy
  · exact keeps_monitorSegment h hy
  · obtain rfl := Option.some.inj hy
    exact .done ((Onward.refl h).of_eq rfl rfl rfl rfl rfl rfl fun _ hk =>
      List.mem_cons_of_mem _ hk) fun _ _ hruns => hruns
  · cases hy

omit [DecidableEq κ] in
lemma not_rebooting_startLoop {job : κ} {w : ω} {u : Task κ ω}
    (hu : u ∈ (startLoop s job w).tasks) : u.rebooting = false := by
  unfold startLoop at hu
  split_ifs at hu
  · simp at hu
  · obtain rfl := List.mem_singleton.1 hu
    rfl

/-- What `handle_errors` adds a reboot to. -/
lemma answered_of_executeSegment {job : κ} {stage : ExecuteStage ω} {u : Task κ ω}
    (hy : executeSegment s job stage a = some y) (hu : u ∈ y.tasks) (hr : u.rebooting = true) :
    (Task.execute (κ := κ) (ω := ω) job stage).answered = true ∧ a = .raises := by
  unfold executeSegment at hy
  split at hy
  case h_14 =>
    -- one more worker has the function
    split_ifs at hy
    cases hy
    rcases List.mem_cons.1 hu with rfl | hu
    · cases hr
    · rw [not_rebooting_startLoop hu] at hr
      cases hr
  case h_15 => exact ⟨rfl, rfl⟩
  case h_16 =>
    cases hy
    simp only [beginJob, List.mem_append, List.mem_cons, List.not_mem_nil, or_false,
      List.mem_map] at hu
    rcases hu with (rfl | rfl) | ⟨m, -, rfl⟩ <;> cases hr
  all_goals
    try dsimp only at hy
    try split_ifs at hy
    all_goals
      cases hy <;> first
      | exact ⟨rfl, rfl⟩
      | exact absurd hu List.not_mem_nil
      | (obtain rfl := List.mem_singleton.1 hu; cases hr)

omit [DecidableEq κ] in
/-- `POST /reboot` is a request itself. -/
lemma answered_of_rebootSegment {caller : Caller} {stage : RebootStage} {u : Task κ ω}
    (hy : rebootSegment s caller stage a = some y) (hu : u ∈ y.tasks) (hr : u.rebooting = true) :
    (Task.reboot (κ := κ) (ω := ω) caller stage).rebooting = true ∨
      (Task.reboot (κ := κ) (ω := ω) caller stage).answered = true ∧ a = .raises := by
  have hcaller : ∀ {stage'}, u = .reboot caller stage' → caller = .background := by
    rintro stage' rfl
    cases caller <;> first | rfl | cases hr
  have hfail : ∀ {stage}, u ∈ (failReboot s caller).tasks →
      (Task.reboot (κ := κ) (ω := ω) caller stage).answered = true := by
    intro stage hu
    simp only [failReboot] at hu
    split_ifs at hu with hend
    · rw [hend]
      rfl
    · simp at hu
  unfold rebootSegment at hy
  split at hy
  · split_ifs at hy <;> cases hy
    · simp at hu
    · rw [hcaller (List.mem_singleton.1 hu)]
      exact .inl rfl
  · cases hy
    rw [hcaller (List.mem_singleton.1 hu)]
    exact .inl rfl
  · dsimp only at hy
    split_ifs at hy <;> cases hy
    · simp [endReboot] at hu
    · rw [hcaller (List.mem_singleton.1 hu)]
      exact .inl rfl
  · split_ifs at hy
    cases hy
    obtain rfl := List.mem_singleton.1 hu
    cases caller <;> cases hr
  · cases hy
    obtain rfl := List.mem_singleton.1 hu
    cases caller <;> cases hr
  · split_ifs at hy <;> cases hy
    · simp [endReboot] at hu
    · obtain rfl := List.mem_singleton.1 hu
      cases caller <;> cases hr
  · cases hy
    simp [endReboot] at hu
  iterate 5
    · cases hy
      exact .inr ⟨hfail hu, rfl⟩
  iterate 5
    · split_ifs at hy
      cases hy
      simp at hu
  · cases hy

omit [DecidableEq κ] in
lemma not_rebooting_monitorSegment {n : ℕ} {stage : MonitorStage κ ω} {u : Task κ ω}
    (hy : monitorSegment s n stage a = some y) (hu : u ∈ y.tasks) : u.rebooting = false := by
  unfold monitorSegment at hy
  split at hy
  case h_11 w template job =>
    dsimp only at hy
    split_ifs at hy <;> cases hy <;> exact not_rebooting_startLoop hu
  case h_4 =>
    split_ifs at hy
    cases hy
    simp only [List.mem_cons, List.not_mem_nil, or_false] at hu
    rcases hu with rfl | rfl <;> rfl
  all_goals
    try dsimp only at hy
    try split_ifs at hy
    try split at hy
    all_goals
      cases hy <;> first
      | exact absurd hu List.not_mem_nil
      | (obtain rfl := List.mem_singleton.1 hu; rfl)

/-- Only `handle_errors` adds reboots in the background. -/
lemma answered_of_rebooting {limit : ℕ} {t u : Task κ ω} (hy : segment s limit t a = some y)
    (hu : u ∈ y.tasks) (hr : u.rebooting = true) :
    t.rebooting = true ∨ t.answered = true ∧ a = .raises := by
  unfold segment at hy
  split at hy
  · exact .inr (answered_of_executeSegment hy hu hr)
  · -- `load_function`
    cases hy
    rw [not_rebooting_startLoop hu] at hr
    cases hr
  · cases hy
    simp at hu
  · unfold uploadSegment at hy
    split at hy
    all_goals
      try split_ifs at hy
      all_goals
        cases hy <;> first
        | exact .inr ⟨rfl, rfl⟩
        | exact absurd hu List.not_mem_nil
        | (obtain rfl := List.mem_singleton.1 hu; cases hr)
  · unfold getInputsSegment at hy
    split at hy
    · cases hy
      simp at hu
    split at hy
    · cases hy
      simp at hu
    dsimp only at hy
    split_ifs at hy
    · cases hy
      obtain rfl := List.mem_singleton.1 hu
      cases hr
    · cases hy
      simp at hu
  · unfold revokingSegment at hy
    split at hy
    all_goals
      cases hy <;> first
      | exact .inr ⟨rfl, rfl⟩
      | exact absurd hu List.not_mem_nil
  · unfold ackTransferSegment at hy
    cases hy
    split at hu
    · simp at hu
    split at hu <;> simp at hu
  · unfold tradeSegment at hy
    split at hy
    all_goals
      try split_ifs at hy
      all_goals
        cases hy <;> first
        | exact .inr ⟨rfl, rfl⟩
        | exact absurd hu List.not_mem_nil
        | (obtain rfl := List.mem_singleton.1 hu; cases hr)
  · unfold getResultsSegment at hy
    cases hy
    split at hu
    · simp at hu
    dsimp only at hu
    split at hu <;> simp at hu
  · cases hy
    simp at hu
  · exact .inr ⟨rfl, rfl⟩
  · cases hy
    simp at hu
  · exact answered_of_rebootSegment hy hu hr
  · unfold stealSegment at hy
    split at hy
    all_goals
      try split_ifs at hy
      try split at hy
      all_goals
        cases hy <;> first
        | exact absurd hu List.not_mem_nil
        | (obtain rfl := List.mem_singleton.1 hu; cases hr)
  · unfold watcherSegment at hy
    split at hy
    all_goals
      try split_ifs at hy
      all_goals
        cases hy <;> first
        | exact absurd hu List.not_mem_nil
        | (obtain rfl := List.mem_singleton.1 hu; cases hr)
  · unfold processInputsSegment at hy
    split at hy
    all_goals
      try split_ifs at hy
      try split at hy
      all_goals
        cases hy <;> first
        | exact absurd hu List.not_mem_nil
        | (obtain rfl := List.mem_singleton.1 hu; cases hr)
  · exact absurd hr (by simp [not_rebooting_monitorSegment hy hu])
  · cases hy
    simp at hu
  · cases hy

end Segments

/-! ### The condition -/

section Condition

variable [DecidableEq κ]

/-- All of them are of jobs that are marked. -/
def Node.marked (s : Node κ ω) (xs : List (Item κ)) : Bool := xs.all fun x => x.job ∈ s.failedJobs

lemma Node.marked_iff {s : Node κ ω} {xs : List (Item κ)} :
    s.marked xs = true ↔ ∀ x ∈ xs, x.job ∈ s.failedJobs := by
  simp [marked]

/-- A request that raises finds nothing of a job that is not marked, and nothing of one is taken in
until the reboot has reinitialised the node. -/
def spared (s : Node κ ω) (others : List (Task κ ω)) (t : Task κ ω) : Choice ω → Bool
  | .raises => !t.answered || s.marked (s.held ++ (t :: others).flatMap fun u => u.hand s)
  | a => !others.any Task.rebooting || s.marked (taken s t a)

def Spared (s : Node κ ω) (others : List (Task κ ω)) (t : Task κ ω) (a : Choice ω) : Prop :=
  spared s others t a = true

instance (s : Node κ ω) (others : List (Task κ ω)) (t : Task κ ω) (a : Choice ω) :
    Decidable (Spared s others t a) :=
  inferInstanceAs (Decidable (_ = true))

end Condition

/-! ### The invariant -/

/-- A worker's input is in the hand of its loop, and while a reboot is to follow an error, there
are only inputs of marked jobs. -/
structure Sparing (s : Node κ ω) (ts : List (Task κ ω)) : Prop where
  runs : ∀ w x, (s.worker w).currentInput = some x → ∃ t ∈ ts, t.Runs w x
  rebooting : (∃ t ∈ ts, t.rebooting = true) →
    (s.All fun x => x.job ∈ s.failedJobs) ∧ ∀ t ∈ ts, ∀ x ∈ t.hand s, x.job ∈ s.failedJobs

section Sparing

variable {s : Node κ ω} {t : Task κ ω} {rest : List (Task κ ω)} {y : Outturn κ ω}

/-- The other tasks have no more in hand than before. -/
lemma Keeps.hand (h : Keeps P s t y) {u : Task κ ω} {x : Item κ} (hx : x ∈ u.hand y.shared) :
    x ∈ u.hand s ∨ P x := by
  unfold Task.hand at hx
  split at hx
  · exact .inl hx
  · exact h.queues _ x hx
  · exact .inl hx
  · exact .inl hx
  · exact .inl hx
  · cases hx

variable [DecidableEq κ] [DecidableEq ω] {a : Choice ω}

omit [DecidableEq ω] in
/-- A segment finds only inputs of marked jobs when a reboot follows. -/
lemma marked_of_spared (h : Sparing s (t :: rest)) (hok : Spared s rest t a)
    (hreb : (∃ u ∈ t :: rest, u.rebooting = true) ∨ t.answered = true ∧ a = .raises) :
    (s.All fun x => x.job ∈ s.failedJobs) ∧ (∀ u ∈ t :: rest, ∀ x ∈ u.hand s, x.job ∈ s.failedJobs) ∧
      ∀ x ∈ taken s t a, x.job ∈ s.failedJobs := by
  by_cases hraise : t.answered = true ∧ a = .raises
  · obtain ⟨hans, rfl⟩ := hraise
    have hmarked : ∀ x ∈ s.held ++ (t :: rest).flatMap fun u => u.hand s,
        x.job ∈ s.failedJobs := by
      rw [← Node.marked_iff]
      simpa [Spared, spared, hans] using hok
    have hhands : ∀ u ∈ t :: rest, ∀ x ∈ u.hand s, x.job ∈ s.failedJobs := fun u hu x hx =>
      hmarked x (List.mem_append_right _ (List.mem_flatMap.2 ⟨u, hu, hx⟩))
    refine ⟨Node.All.of_held (fun x hx => hmarked x (List.mem_append_left _ hx))
      fun w x hx => ?_, hhands, fun x hx => ?_⟩
    · obtain ⟨u, hu, hruns⟩ := h.runs w x hx
      exact hhands u hu x hruns.mem_hand
    · cases t <;> simp [taken] at hx
  · have hdoom : ∃ u ∈ t :: rest, u.rebooting = true := by
      rcases hreb with hreb | hreb
      · exact hreb
      · exact absurd hreb hraise
    obtain ⟨hall, hhands⟩ := h.rebooting hdoom
    refine ⟨hall, hhands, fun x hx => ?_⟩
    obtain ⟨u, hu, hr⟩ := hdoom
    rcases List.mem_cons.1 hu with rfl | hu
    · -- the reboot itself takes nothing in
      cases u with
      | reboot caller stage => simp [taken] at hx
      | _ => cases hr
    · have hany : rest.any Task.rebooting = true := List.any_eq_true.2 ⟨u, hu, hr⟩
      cases a with
      | raises => cases t <;> simp [taken] at hx
      | go =>
        have hmarked : s.marked (taken s t .go) = true := by
          simpa [Spared, spared, hany] using hok
        exact Node.marked_iff.1 hmarked x hx
      | _ => cases t <;> simp [taken] at hx

lemma sparing_segment {limit : ℕ} (h : Sparing s (t :: rest)) (hok : Spared s rest t a)
    (hy : segment s limit t a = some y) :
    Sparing y.shared ((rest.filter fun u => !y.cancels u) ++ y.tasks) := by
  -- either a reboot follows, and all are of marked jobs, or nothing is to be shown of them
  have hkeeps : Keeps (fun x => (∃ u ∈ t :: rest, u.rebooting = true) ∨
      t.answered = true ∧ a = .raises → x.job ∈ s.failedJobs) s t y := by
    by_cases hreb : (∃ u ∈ t :: rest, u.rebooting = true) ∨ t.answered = true ∧ a = .raises
    · obtain ⟨hall, hhands, htaken⟩ := marked_of_spared h hok hreb
      exact keeps_segment (hall.mono fun x hx _ => hx)
        (fun x hx _ => hhands t List.mem_cons_self x hx) (fun x hx _ => htaken x hx) hy
    · have hP : ∀ x : Item κ, (∃ u ∈ t :: rest, u.rebooting = true) ∨
          t.answered = true ∧ a = .raises → x.job ∈ s.failedJobs := fun x hr => absurd hr hreb
      exact keeps_segment ⟨fun x _ => hP x, fun _ _ _ x _ => hP x, fun r _ => hP r.item,
        fun r _ => hP r.item, fun _ x _ => hP x⟩ (fun x _ => hP x) (fun x _ => hP x) hy
  constructor
  · intro w x hx
    rcases hkeeps.runs w x hx with ⟨u, hu, hruns⟩ | ⟨hold, hnot, hkept⟩
    · exact ⟨u, List.mem_append_right _ hu, hruns⟩
    · obtain ⟨u, hu, hruns⟩ := h.runs w x hold
      rcases List.mem_cons.1 hu with rfl | hu
      · exact absurd hruns hnot
      · exact ⟨u, List.mem_append_left _ (List.mem_filter.2 ⟨hu, by simp [hkept u hruns]⟩), hruns⟩
  · rintro ⟨u, hu, hr⟩
    have hreb : (∃ u ∈ t :: rest, u.rebooting = true) ∨ t.answered = true ∧ a = .raises := by
      rcases List.mem_append.1 hu with hu | hu
      · exact .inl ⟨u, List.mem_cons_of_mem t (List.mem_of_mem_filter hu), hr⟩
      · rcases answered_of_rebooting hy hu hr with ht | hraise
        · exact .inl ⟨t, List.mem_cons_self, ht⟩
        · exact .inr hraise
    have hmarked : ∀ {k : κ}, k ∈ s.failedJobs → k ∈ y.shared.failedJobs := fun hk =>
      hkeeps.failed _ hk
    refine ⟨hkeeps.all.mono fun x hx => hmarked (hx hreb), fun v hv x hx => hmarked ?_⟩
    rcases List.mem_append.1 hv with hv | hv
    · rcases hkeeps.hand hx with hold | hP
      · exact (marked_of_spared h hok hreb).2.1 v
          (List.mem_cons_of_mem t (List.mem_of_mem_filter hv)) x hold
      · exact hP hreb
    · exact hkeeps.hands v hv x hx hreb

end Sparing

/-- A request that comes in holds nothing yet. -/
lemma Task.hand_of_outside {s : Node κ ω} {t : Task κ ω} (h : t.outside = true) :
    t.rebooting = false ∧ t.hand s = [] := by
  unfold outside at h
  split at h <;> first | exact ⟨rfl, rfl⟩ | cases h

lemma sparing_upheld (κ ω : Type*) [DecidableEq κ] [DecidableEq ω] (limit : ℕ) :
    (nodeService κ ω limit).Upheld Spared Sparing where
  perm s ts ts' hperm h := by
    constructor
    · intro w x hx
      obtain ⟨u, hu, hruns⟩ := h.runs w x hx
      exact ⟨u, hperm.mem_iff.1 hu, hruns⟩
    · rintro ⟨u, hu, hr⟩
      obtain ⟨hall, hhands⟩ := h.rebooting ⟨u, hperm.mem_iff.2 hu, hr⟩
      exact ⟨hall, fun v hv => hhands v (hperm.mem_iff.2 hv)⟩
  init s ts hs := by
    refine ⟨fun w x hx => ?_, fun _ => ⟨⟨fun x hx => ?_, fun t xs hxs => ?_, fun r hr => ?_,
      fun r hr => ?_, fun w x hx => ?_⟩, fun u hu x hx => ?_⟩⟩
    · simp [hs.worker, Worker.fresh] at hx
    · simp [Node.queue, hs.self, reinitSelf, hs.queue] at hx
    · simp [hs.self, reinitSelf] at hxs
    · simp [hs.self, reinitSelf] at hr
    · simp [hs.self, reinitSelf] at hr
    · simp [hs.worker, Worker.fresh] at hx
    · obtain rfl : u = .reboot .startup .scheduled := by simpa [hs.tasks] using hu
      cases hx
  arrive s t ts h harr := by
    have hout : t.outside = true := by
      simp only [nodeService, Bool.and_eq_true] at harr
      exact harr.2
    obtain ⟨hr, hhand⟩ := Task.hand_of_outside (s := s) hout
    constructor
    · intro w x hx
      obtain ⟨u, hu, hruns⟩ := h.runs w x hx
      exact ⟨u, List.mem_cons_of_mem t hu, hruns⟩
    · rintro ⟨u, hu, hur⟩
      rcases List.mem_cons.1 hu with rfl | hu
      · simp [hr] at hur
      · obtain ⟨hall, hhands⟩ := h.rebooting ⟨u, hu, hur⟩
        refine ⟨hall, fun v hv x hx => ?_⟩
        rcases List.mem_cons.1 hv with rfl | hv
        · simp [hhand] at hx
        · exact hhands v hv x hx
  segment s rest t a y h hok hy := sparing_segment h hok hy

/-! ### What is discarded -/

section Discards

variable [DecidableEq κ] [DecidableEq ω] {limit : ℕ}

/-- What an error discards: the inputs of a revocation that raises, and, when the reboot that
follows an error reinitialises the node, what the node holds. -/
def discards (s : Node κ ω × List (Task κ ω)) :
    LoopEvent (Task κ ω) (Choice ω) → Node κ ω × List (Task κ ω) → List (Item κ)
  | .run i a, _ =>
    match takeAt s.2 i, a with
    | some (.revoking _ items, _), .raises => items
    | some (.reboot .background .asking, _), .answered false =>
      s.1.held ++ s.1.currentInputs s.1.self.workers
    | _, _ => []
  | _, _ => []

/-- The node service, and what its errors have discarded. -/
def errorsOf (κ ω : Type*) [DecidableEq κ] [DecidableEq ω] (limit : ℕ) :
    System ((Node κ ω × List (Task κ ω)) × List (Item κ)) (LoopEvent (Task κ ω) (Choice ω)) :=
  (nodeService κ ω limit).system.logged discards

variable {s : Node κ ω × List (Task κ ω)}

lemma mem_failedJobs_of_step {e : LoopEvent (Task κ ω) (Choice ω)}
    {s' : Node κ ω × List (Task κ ω)} (hstep : (nodeService κ ω limit).system.step s e = some s')
    {k : κ} (hk : k ∈ s.1.failedJobs) : k ∈ s'.1.failedJobs := by
  cases e with
  | arrive t =>
    simp only [EventLoop.system] at hstep
    split_ifs at hstep
    obtain rfl := Option.some.inj hstep
    exact hk
  | run i a =>
    simp only [EventLoop.system] at hstep
    cases htake : takeAt s.2 i with
    | none => simp [htake] at hstep
    | some p =>
      obtain ⟨t, rest⟩ := p
      simp only [htake, Option.map_eq_some_iff] at hstep
      obtain ⟨y, hy, rfl⟩ := hstep
      have hkeeps : Keeps (fun _ => True) s.1 t y :=
        keeps_segment ⟨fun _ _ => trivial, fun _ _ _ _ _ => trivial, fun _ _ => trivial,
          fun _ _ => trivial, fun _ _ _ => trivial⟩ (fun _ _ => trivial) (fun _ _ => trivial) hy
      exact hkeeps.failed k hk

/-- What a step discards is of marked jobs. -/
lemma discards_of_sparing (h : Sparing s.1 s.2) {e : LoopEvent (Task κ ω) (Choice ω)}
    (hok : EventLoop.During Spared s e) {s' : Node κ ω × List (Task κ ω)} :
    ∀ x ∈ discards s e s', x.job ∈ s.1.failedJobs := by
  intro x hx
  unfold discards at hx
  split at hx
  · rename_i i a
    split at hx
    · -- a revocation raises
      rename_i id items rest htake
      have hlast : Sparing s.1 (.revoking id items :: rest) :=
        (sparing_upheld κ ω 0).perm _ _ _ (takeAt_perm htake) h
      obtain ⟨-, hhands, -⟩ := marked_of_spared hlast (hok _ htake) (.inr ⟨rfl, rfl⟩)
      exact hhands _ List.mem_cons_self x hx
    · rename_i rest htake
      have hreb : ∃ t ∈ s.2, t.rebooting = true :=
        ⟨_, (takeAt_perm htake).mem_iff.2 List.mem_cons_self, rfl⟩
      obtain ⟨hall, -⟩ := h.rebooting hreb
      rcases List.mem_append.1 hx with hx | hx
      · exact hall.held x hx
      · obtain ⟨w, -, hx⟩ := List.mem_filterMap.1 hx
        exact hall.inputs w x hx
    · simp at hx
  · simp at hx

/-- **Every input that an error discards is of a job that is marked**, in runs in which requests
that raise are spared. -/
theorem discarded_of_spared {s : (Node κ ω × List (Task κ ω)) × List (Item κ)}
    (hs : (errorsOf κ ω limit).Reachable (fun p => EventLoop.During Spared p.1) s) :
    ∀ x ∈ s.2, x.job ∈ s.1.1.failedJobs := by
  have hinv : (errorsOf κ ω limit).Invariant (fun p => EventLoop.During Spared p.1) fun p =>
      Sparing p.1.1 p.1.2 ∧ ∀ x ∈ p.2, x.job ∈ p.1.1.failedJobs := by
    constructor
    · rintro p ⟨hinit, hlog⟩
      exact ⟨(sparing_upheld κ ω limit).init _ _ hinit, by simp [hlog]⟩
    · intro p e q ⟨hsparing, hlog⟩ hok hstep
      obtain ⟨hstep, hq⟩ := System.logged_step_eq_some.1 hstep
      refine ⟨(sparing_upheld κ ω limit).invariant.step _ _ _ hsparing hok hstep, fun x hx => ?_⟩
      refine mem_failedJobs_of_step hstep ?_
      rw [hq] at hx
      rcases List.mem_append.1 hx with hx | hx
      · exact hlog x hx
      · exact discards_of_sparing hsparing hok x hx
  exact (hinv.reachable hs).2

/-- A request that is answered with 500 leaves what the node holds, and adds a reboot. -/
lemma error_of_answered {s : Node κ ω} {t : Task κ ω} {y : Outturn κ ω} (ht : t.answered = true)
    (hy : segment s limit t .raises = some y) :
    y.shared.held = s.held ∧ .reboot .background .scheduled ∈ y.tasks := by
  cases t with
  | execute job stage =>
    cases stage with
    | posted => cases ht
    | started =>
      cases hy
      exact ⟨rfl, List.mem_singleton_self _⟩
    | refusing =>
      cases hy
      exact ⟨rfl, List.mem_singleton_self _⟩
    | aborting => cases ht
    | takenBack answered =>
      cases answered with
      | true =>
        cases hy
        exact ⟨rfl, List.mem_singleton_self _⟩
      | false => cases ht
    | installing ws idle =>
      cases hy
      exact ⟨rfl, List.mem_singleton_self _⟩
    | loading ws idle left =>
      cases left <;> cases hy <;> exact ⟨rfl, List.mem_cons_self⟩
  | uploadInputs job inputs stage =>
    cases stage with
    | arrived =>
      cases hy
      exact ⟨rfl, List.mem_singleton_self _⟩
    | waiting =>
      cases hy
      exact ⟨rfl, List.mem_singleton_self _⟩
    | passed => cases ht
  | revoking id items =>
    cases hy
    exact ⟨rfl, List.mem_singleton_self _⟩
  | tradeSlots job stage =>
    cases stage with
    | arrived => cases hy
    | killing idle granted =>
      cases idle <;> cases hy <;> exact ⟨rfl, List.mem_singleton_self _⟩
  | request =>
    cases hy
    exact ⟨rfl, List.mem_singleton_self _⟩
  | reboot caller stage =>
    cases caller with
    | endpoint =>
      cases stage <;> cases hy <;> exact ⟨rfl, List.mem_singleton_self _⟩
    | _ => cases ht
  | _ => cases ht

/-- **What the node holds when a request raises is discarded**, if the reboot comes first and the
head answers it. -/
theorem discarded_of_error {i : ℕ} {t : Task κ ω} {rest : List (Task κ ω)} {y : Outturn κ ω}
    (htake : takeAt s.2 i = some (t, rest)) (ht : t.answered = true)
    (hy : segment s.1 limit t .raises = some y) (log : List (Item κ)) :
    ∃ es q, (errorsOf κ ω limit).Run System.always (s, log) (.run i .raises :: es) q ∧
      ∀ x ∈ s.1.held, x ∈ q.2 := by
  obtain ⟨hheld, hmem⟩ := error_of_answered ht hy
  have hfirst : (nodeService κ ω limit).system.step s (.run i .raises) =
      some (y.shared, (rest.filter fun u => !y.cancels u) ++ y.tasks) := by
    simp [EventLoop.system, htake, nodeService, hy]
  -- the reboot starts
  obtain ⟨j, others, hj⟩ := exists_takeAt_of_mem
    (List.mem_append_right (rest.filter fun u => !y.cancels u) hmem)
  have hsecond : (nodeService κ ω limit).system.step
      (y.shared, (rest.filter fun u => !y.cancels u) ++ y.tasks) (.run j .go) =
      some (startReboot y.shared, others ++ [.reboot .background .asking]) := by
    simp [EventLoop.system, hj, nodeService, segment, rebootSegment, Node.next]
  -- and the head answers
  obtain ⟨k, others', hk⟩ := exists_takeAt_of_mem (l := others ++ [.reboot .background .asking])
    (List.mem_append_right others (List.mem_singleton_self _))
  obtain ⟨q, hthird⟩ : ∃ q, (nodeService κ ω limit).system.step
      (startReboot y.shared, others ++ [.reboot .background .asking]) (.run k (.answered false)) =
      some q := by
    simp [EventLoop.system, hk, nodeService, segment, rebootSegment]
  have hrun : ∀ {p q : Node κ ω × List (Task κ ω)} {e} (l : List (Item κ)),
      (nodeService κ ω limit).system.step p e = some q →
      (errorsOf κ ω limit).step (p, l) e = some (q, l ++ discards p e q) :=
    fun l hstep => System.logged_step_eq_some.2 ⟨hstep, rfl⟩
  refine ⟨_, _, .cons (hrun log hfirst) trivial (.cons (hrun _ hsecond) trivial
    (.cons (hrun _ hthird) trivial .nil)), fun x hx => List.mem_append_right _ ?_⟩
  have hx' : x ∈ (startReboot y.shared).held := by
    rw [← hheld] at hx
    exact hx
  simpa [discards, hk] using Or.inl hx'

end Discards

/-! ### Runs -/

section Runs

/-- Job 1 is CANCELED, and then a request raises. -/
def sparedSteps : List (LoopEvent (Task ℕ ℕ) (Choice ℕ)) :=
  [.arrive (.markFailed 1), .run 3 .go, .arrive .request, .run 3 .raises, .run 3 .go,
    .run 3 (.answered false)]

/-- The process that a revocation kills is already gone. -/
def revocationRaises : List (LoopEvent (Task ℕ ℕ) (Choice ℕ)) :=
  [.run 0 .go, .run 2 .go, .arrive (.getInputs 1 0 0 1), .run 3 (.revokes [0]), .run 3 .raises,
    .run 3 .go, .run 3 (.answered false)]

def errorSpared : (Node ℕ ℕ × List (Task ℕ ℕ)) × List (Item ℕ) :=
  (((errorsOf ℕ ℕ 1000).guarded fun p => EventLoop.During Spared p.1).exec (coldState, [])
    (bootSteps ++ assignSteps ++ uploadSteps ++ sparedSteps)).get (by decide +kernel)

def errorDiscarded : (Node ℕ ℕ × List (Task ℕ ℕ)) × List (Item ℕ) :=
  (((errorsOf ℕ ℕ 1000).guarded System.always).exec (coldState, [])
    (bootSteps ++ assignSteps ++ uploadSteps ++ revocationRaises)).get (by decide +kernel)

theorem discarded_of_spared_canceled :
    errorSpared.2 ≠ [] ∧ ∀ x ∈ errorSpared.2, x.job ∈ errorSpared.1.1.failedJobs := by
  have hrun : (errorsOf ℕ ℕ 1000).Run (fun p => EventLoop.During Spared p.1) (coldState, [])
      (bootSteps ++ assignSteps ++ uploadSteps ++ sparedSteps) errorSpared :=
    System.run_of_exec_guarded (Option.some_get _).symm
  exact ⟨by decide +kernel, discarded_of_spared ⟨_, _, ⟨started_coldState, rfl⟩, hrun⟩⟩

/-- **A request that raises discards an input** of a job that nobody marks, and the node has no job
any more. -/
theorem error_discards :
    ∃ s, (errorsOf ℕ ℕ 1000).Reachable System.always s ∧ s.1.1.self.currentJob = none ∧
      s.1.1.held = [] ∧ ∃ x ∈ s.2, x.job = 1 ∧ x.job ∉ s.1.1.failedJobs := by
  have hrun : (errorsOf ℕ ℕ 1000).Run System.always (coldState, [])
      (bootSteps ++ assignSteps ++ uploadSteps ++ revocationRaises) errorDiscarded :=
    System.run_of_exec_guarded (Option.some_get _).symm
  exact ⟨errorDiscarded, ⟨_, _, ⟨started_coldState, rfl⟩, hrun⟩, by decide +kernel,
    by decide +kernel, by decide +kernel⟩

end Runs

end Burla.Turnover
