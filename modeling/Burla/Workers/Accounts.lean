/-
Each popped input is accounted for at most once.

A worker that is not retired still has its input to itself: whoever takes an input away
retires the worker in the same step, and every other task looks at `retired` or, when it gets
the lock, at `current_input`.  The one time at which `current_input` is still there and the input
is not the worker's any more is between the requeue of a pressure retirement and its clearing, and
then the lock is taken.
-/
import Burla.Lib.Updates
import Burla.Workers.Pool

namespace Burla.Workers

open Burla.Steal (Input)

variable {ι : Type*}

/-! ### The invariant -/

/-- The attempts of a revocation under way. -/
def Pool.batch (s : Pool ι) : List Attempt :=
  match s.lock with
  | some (.revocation batch) => batch
  | _ => []

/-- The workers whose input is queued again and not yet cleared. -/
def Pool.requeuing (s : Pool ι) : List ι :=
  match s.lock with
  | some (.pressure victims false) => victims
  | _ => []

/-- The pops that are accounted for, or will be when a revocation is done. -/
def Pool.settled (s : Pool ι) : List ℕ :=
  s.accounts.map Prod.fst ++ s.batch.map Attempt.number

/-- How a worker may change without getting hold of an input. -/
structure Worker.Keeps (w w' : Worker) : Prop where
  onNode : w.onNode = true → w'.onNode = true ∧ (w.retired = true → w'.retired = true)
  held : ∀ a, w'.held = some a → w.held = some a
  current : ∀ a, w'.currentInput = some a →
    w.currentInput = some a ∧ (w.held = some a → w'.held = some a)
  kept : ∀ a, w'.held = some a → w'.retired = false →
    w.retired = false ∧ w'.currentInput = w.currentInput
  waits : ∀ a e, w'.phase = .lockWait a e → w.phase = .lockWait a e ∨ w.retired = false

namespace Worker.Keeps

variable {w w' : Worker}

/-- The task goes on with its input. -/
lemma of_same (honNode : w'.onNode = w.onNode) (hheld : w'.held = w.held)
    (hcurrent : w'.currentInput = w.currentInput) (hretired : w.retired = true → w'.retired = true)
    (hwaits : ∀ a e, w'.phase = .lockWait a e → w.phase = .lockWait a e ∨ w.retired = false) :
    w.Keeps w' where
  onNode h := ⟨honNode.trans h, hretired⟩
  held a ha := hheld ▸ ha
  current a ha := ⟨hcurrent ▸ ha, fun h => hheld.trans h⟩
  kept a _ hret := by
    refine ⟨?_, hcurrent⟩
    by_contra hne
    simp [hretired (by simpa using hne)] at hret
  waits := hwaits

lemma refl (w : Worker) : w.Keeps w := of_same rfl rfl rfl id fun _ _ h => .inl h

lemma setPhase {phase : Phase} (hphase : phase.attempt = w.held)
    (hwaits : ∀ a e, phase = .lockWait a e → w.retired = false) : w.Keeps (w.setPhase phase) :=
  of_same rfl hphase rfl id fun a e h => .inr (hwaits a e h)

lemma retire (w : Worker) : w.Keeps w.retire :=
  of_same rfl rfl rfl (fun _ => rfl) fun _ _ h => .inl h

/-- The task has no input any more. -/
lemma of_idle (honNode : w.onNode = true → w'.onNode = true ∧ (w.retired = true → w'.retired = true))
    (hheld : w'.held = none)
    (hcurrent : w'.currentInput = none ∨ w'.currentInput = w.currentInput ∧ w.held = none) :
    w.Keeps w' where
  onNode := honNode
  held a ha := by simp [hheld] at ha
  current a ha := by
    rcases hcurrent with hnone | ⟨hsame, hidle⟩
    · simp [hnone] at ha
    · exact ⟨hsame ▸ ha, by simp [hidle]⟩
  kept a ha := by simp [hheld] at ha
  waits a e he := by simp [Worker.held, he, Phase.attempt] at hheld

/-- The input is taken away from the worker. -/
lemma clear (w : Worker) (hretired : w.retired = true) : w.Keeps w.clear where
  onNode h := ⟨h, id⟩
  held a ha := ha
  current a ha := by simp [Worker.clear] at ha
  kept a _ hret := by simp [Worker.clear, hretired] at hret
  waits a e he := .inl he

lemma trans {w'' : Worker} (h : w.Keeps w') (h' : w'.Keeps w'') : w.Keeps w'' where
  onNode hw := by
    obtain ⟨hw', hret⟩ := h.onNode hw
    obtain ⟨hw'', hret'⟩ := h'.onNode hw'
    exact ⟨hw'', hret' ∘ hret⟩
  held a ha := h.held a (h'.held a ha)
  current a ha := by
    obtain ⟨hc', hh'⟩ := h'.current a ha
    obtain ⟨hc, hh⟩ := h.current a hc'
    exact ⟨hc, hh' ∘ hh⟩
  kept a ha hret := by
    obtain ⟨hret', hc'⟩ := h'.kept a ha hret
    obtain ⟨hret, hc⟩ := h.kept a (h'.held a ha) hret'
    exact ⟨hret, hc'.trans hc⟩
  waits a e he := by
    rcases h'.waits a e he with he' | hret
    · exact h.waits a e he'
    · -- the worker has its attempt, so it was not retired before either
      have hheld : w''.held = some a := by simp [Worker.held, he, Phase.attempt]
      exact .inr (h.kept a (h'.held a hheld) hret).1

end Worker.Keeps

/-- The handlers of an exception go on with the input. -/
lemma Worker.attempt_handle (w : Worker) (dynamicFuncRam : Bool) (a : Attempt)
    (error : WorkerError) : (w.handle dynamicFuncRam a error).attempt = some a := by
  rcases error with pkl | _ | _ | _ | message <;> simp only [handle]
  · rfl
  all_goals split_ifs <;> rfl

/-- A worker that was retired before its call failed does not wait for the lock. -/
lemma Worker.retired_of_handle {w : Worker} {dynamicFuncRam : Bool} {a b : Attempt}
    {error e : WorkerError} (h : w.handle dynamicFuncRam a error = .lockWait b e) :
    w.retired = false := by
  by_contra hret
  have htaken : w.takenOver = true := by simp [takenOver, Bool.eq_true_of_not_eq_false hret]
  rcases error with pkl | _ | _ | _ | message <;> simp [handle, htaken] at h

/-- No pop is settled twice. -/
structure Once (workers : ι → Worker) (settled : List ℕ) (attempts : ℕ) (requeuing : List ι) :
    Prop where
  nodup : settled.Nodup
  drawn : ∀ n ∈ settled, n < attempts
  heldDrawn : ∀ i a, (workers i).held = some a → a.number < attempts
  distinct : ∀ i j a b, (workers i).held = some a → (workers j).held = some b →
    a.number = b.number → i = j
  current : ∀ i a, (workers i).currentInput = some a → (workers i).held = some a
  /-- A worker that is not retired has its input to itself. -/
  kept : ∀ i a, (workers i).held = some a → (workers i).retired = false →
    (workers i).currentInput = some a ∧ a.number ∉ settled
  /-- So has one that finds its input when it gets the lock. -/
  waits : ∀ i a e, (workers i).phase = .lockWait a e → (workers i).currentInput ≠ none →
    i ∉ requeuing → a.number ∉ settled
  victims : ∀ i ∈ requeuing, (workers i).onNode = true ∧ (workers i).retired = true

namespace Once

variable {workers workers' : ι → Worker} {settled : List ℕ} {attempts : ℕ} {requeuing : List ι}

/-- Accounts may be made out of a revoked batch, and a batch may be lost. -/
lemma of_subperm (h : Once workers settled attempts requeuing) {settled' : List ℕ}
    (hsub : settled'.Subperm settled) : Once workers settled' attempts requeuing :=
  { h with
    nodup := by
      obtain ⟨l, hperm, hle⟩ := hsub
      exact hperm.nodup_iff.1 (h.nodup.sublist hle)
    drawn := fun n hn => h.drawn n (hsub.subset hn)
    kept := fun i a ha hret =>
      ⟨(h.kept i a ha hret).1, fun hn => (h.kept i a ha hret).2 (hsub.subset hn)⟩
    waits := fun i a e hp hc hi hn => h.waits i a e hp hc hi (hsub.subset hn) }

/-- Workers change, and some of their attempts are settled: those workers are retired or done,
and find their input cleared if they wait for the lock. -/
lemma settle (h : Once workers settled attempts requeuing) (new : List ℕ) (requeuing' : List ι)
    (hkeeps : ∀ i, (workers i).Keeps (workers' i)) (hnodup : new.Nodup)
    (hnew : ∀ n ∈ new, n ∉ settled ∧ n < attempts)
    (hdone : ∀ i a, (workers' i).held = some a → a.number ∈ new → (workers' i).retired = true ∧
      ((workers' i).currentInput = none ∨ i ∈ requeuing' ∨ ∀ e, (workers' i).phase ≠ .lockWait a e))
    (hcleared : ∀ i ∈ requeuing, i ∈ requeuing' ∨ (workers' i).currentInput = none)
    (hvictims : ∀ i ∈ requeuing', (workers' i).onNode = true ∧ (workers' i).retired = true) :
    Once workers' (new ++ settled) attempts requeuing' where
  nodup := List.nodup_append.2 ⟨hnodup, h.nodup, fun n hn m hm hnm => (hnew n hn).1 (hnm ▸ hm)⟩
  drawn n hn := by
    rcases List.mem_append.1 hn with hn | hn
    · exact (hnew n hn).2
    · exact h.drawn n hn
  heldDrawn i a ha := h.heldDrawn i a ((hkeeps i).held a ha)
  distinct i j a b ha hb := h.distinct i j a b ((hkeeps i).held a ha) ((hkeeps j).held b hb)
  current i a ha := by
    obtain ⟨hcurrent, hheld⟩ := (hkeeps i).current a ha
    exact hheld (h.current i a hcurrent)
  kept i a ha hret := by
    obtain ⟨hold, hcurrent⟩ := (hkeeps i).kept a ha hret
    obtain ⟨hsome, hfresh⟩ := h.kept i a ((hkeeps i).held a ha) hold
    refine ⟨hcurrent.trans hsome, fun hn => ?_⟩
    rcases List.mem_append.1 hn with hn | hn
    · simp [(hdone i a ha hn).1] at hret
    · exact hfresh hn
  waits i a e hp hc hi hn := by
    have ha : (workers' i).held = some a := by simp [Worker.held, hp, Phase.attempt]
    rcases List.mem_append.1 hn with hn | hn
    · rcases (hdone i a ha hn).2 with hnone | hmem | hphase
      · exact hc hnone
      · exact hi hmem
      · exact hphase e hp
    · rcases (hkeeps i).waits a e hp with hp' | hret
      · refine h.waits i a e hp' ?_ ?_ hn
        · intro hnone
          obtain ⟨b, hb⟩ := Option.ne_none_iff_exists'.1 hc
          simp [((hkeeps i).current b hb).1] at hnone
        · intro hold
          rcases hcleared i hold with hmem | hnone
          · exact hi hmem
          · exact hc hnone
      · exact (h.kept i a ((hkeeps i).held a ha) hret).2 hn
  victims := hvictims

/-- Victims of a pressure retirement stay retired. -/
lemma victims_of_keeps (h : Once workers settled attempts requeuing)
    (hkeeps : ∀ i, (workers i).Keeps (workers' i)) :
    ∀ i ∈ requeuing, (workers' i).onNode = true ∧ (workers' i).retired = true := by
  intro i hi
  obtain ⟨honNode, hret⟩ := h.victims i hi
  obtain ⟨honNode', hret'⟩ := (hkeeps i).onNode honNode
  exact ⟨honNode', hret' hret⟩

variable [DecidableEq ι] {i : ι} {w : Worker} {a : Attempt}

lemma keeps_update (hkeeps : (workers i).Keeps w) (j : ι) :
    (workers j).Keeps (Function.update workers i w j) := by
  by_cases hj : j = i
  · subst hj
    rwa [Function.update_self]
  · rw [Function.update_of_ne hj]
    exact .refl _

/-- One worker changes, and nothing is settled. -/
lemma setWorker (h : Once workers settled attempts requeuing) (hkeeps : (workers i).Keeps w) :
    Once (Function.update workers i w) settled attempts requeuing := by
  have hall := keeps_update hkeeps
  refine h.settle [] requeuing hall List.nodup_nil (by simp) (by simp) ?_ (h.victims_of_keeps hall)
  exact fun j hj => .inl hj

/-- The attempt of one worker is settled. -/
lemma settleWorker (h : Once workers settled attempts requeuing) (hkeeps : (workers i).Keeps w)
    (hheld : (workers i).held = some a) (hfresh : a.number ∉ settled)
    (hdone : w.held = none ∨ w.retired = true ∧ ∀ a e, w.phase ≠ .lockWait a e) :
    Once (Function.update workers i w) (a.number :: settled) attempts requeuing := by
  have hall := keeps_update hkeeps
  refine h.settle [a.number] requeuing hall (List.nodup_singleton _) ?_ ?_
    (fun j hj => .inl hj) (h.victims_of_keeps hall)
  · intro n hn
    obtain rfl := List.mem_singleton.1 hn
    exact ⟨hfresh, h.heldDrawn i a hheld⟩
  · intro j b hb hn
    -- only one worker has the attempt
    obtain rfl : j = i :=
      h.distinct j i b a ((hall j).held b hb) hheld (List.mem_singleton.1 hn)
    rw [Function.update_self] at hb ⊢
    rcases hdone with hnone | ⟨hret, hphase⟩
    · simp [hnone] at hb
    · exact ⟨hret, .inr (.inr (hphase b))⟩

/-- An input is popped. -/
lemma pop (h : Once workers settled attempts requeuing) (hidle : (workers i).held = none)
    (x : Input) :
    Once (Function.update workers i ((workers i).pop ⟨attempts, x⟩)) settled (attempts + 1)
      requeuing := by
  set w := (workers i).pop ⟨attempts, x⟩ with hw
  have hself : ∀ a, w.held = some a → a.number = attempts := by
    intro a ha
    obtain rfl : _ = a := Option.some.inj ha
    rfl
  have hcases : ∀ j a, (Function.update workers i w j).held = some a →
      j = i ∧ a.number = attempts ∨ j ≠ i ∧ (workers j).held = some a ∧ a.number < attempts := by
    intro j a ha
    by_cases hj : j = i
    · subst hj
      rw [Function.update_self] at ha
      exact .inl ⟨rfl, hself a ha⟩
    · rw [Function.update_of_ne hj] at ha
      exact .inr ⟨hj, ha, h.heldDrawn j a ha⟩
  constructor
  case nodup => exact h.nodup
  case drawn => exact fun n hn => (h.drawn n hn).trans (Nat.lt_succ_self _)
  case heldDrawn =>
    intro j a ha
    rcases hcases j a ha with ⟨-, hn⟩ | ⟨-, -, hn⟩ <;> omega
  case distinct =>
    intro j k a b ha hb hab
    rcases hcases j a ha with ⟨rfl, hn⟩ | ⟨-, ha', hn⟩
    · rcases hcases k b hb with ⟨rfl, -⟩ | ⟨-, -, hm⟩
      · rfl
      · omega
    · rcases hcases k b hb with ⟨-, hm⟩ | ⟨-, hb', hm⟩
      · omega
      · exact h.distinct j k a b ha' hb' hab
  case current =>
    intro j a ha
    by_cases hj : j = i
    · subst hj
      rw [Function.update_self] at ha ⊢
      exact ha
    · rw [Function.update_of_ne hj] at ha ⊢
      exact h.current j a ha
  case kept =>
    intro j a ha hret
    by_cases hj : j = i
    · subst hj
      rw [Function.update_self] at ha ⊢
      refine ⟨ha, fun hn => ?_⟩
      have := h.drawn _ hn
      have := hself a ha
      omega
    · rw [Function.update_of_ne hj] at ha hret ⊢
      exact h.kept j a ha hret
  case waits =>
    intro j a e hp
    by_cases hj : j = i
    · subst hj
      simp [hw, Worker.pop] at hp
    · rw [Function.update_of_ne hj] at hp ⊢
      exact h.waits j a e hp
  case victims =>
    intro j hj
    by_cases hji : j = i
    · subst hji
      simpa [hw, Worker.pop] using h.victims j hj
    · simpa [hji] using h.victims j hj

end Once

/-! ### Inputs taken from several workers -/

section Victims

variable {s : Pool ι} {victims : List ι}

lemma mem_currentInputs {a : Attempt} :
    a ∈ s.currentInputs victims ↔ ∃ i ∈ victims, (s.workers i).currentInput = some a := by
  simp [Pool.currentInputs, List.mem_filterMap]

/-- Workers have different inputs. -/
lemma nodup_currentInputs (h : Once s.workers s.settled s.attempts s.requeuing)
    (hnodup : victims.Nodup) : ((s.currentInputs victims).map Attempt.number).Nodup := by
  induction victims with
  | nil => simp [Pool.currentInputs]
  | cons i rest ih =>
    obtain ⟨hi, hrest⟩ := List.nodup_cons.1 hnodup
    cases hcurrent : (s.workers i).currentInput with
    | none => simpa [Pool.currentInputs, hcurrent] using ih hrest
    | some a =>
      have hcons : s.currentInputs (i :: rest) = a :: s.currentInputs rest := by
        simp [Pool.currentInputs, hcurrent]
      rw [hcons, List.map_cons, List.nodup_cons]
      refine ⟨fun ha => ?_, ih hrest⟩
      obtain ⟨b, hb, hnumber⟩ := List.mem_map.1 ha
      obtain ⟨j, hj, hb⟩ := mem_currentInputs.1 hb
      obtain rfl := h.distinct j i b a (h.current j b hb) (h.current i a hcurrent) hnumber
      exact hi hj

variable [DecidableEq ι]

/-- The inputs of workers in flight are settled as they are taken away. -/
lemma settle_victims (f : Worker → Worker) (requeuing' : List ι)
    (h : Once s.workers s.settled s.attempts s.requeuing) (hnodup : victims.Nodup)
    (hflight : ∀ i ∈ victims, (s.workers i).inFlight = true)
    (hf : ∀ w : Worker, w.Keeps (f w) ∧ (f w).retired = true ∧ (f w).onNode = w.onNode)
    (hcleared : ∀ w, (f w).currentInput = none ∨ requeuing' = victims)
    (hrequeuing : s.requeuing = []) (hsub : ∀ i ∈ requeuing', i ∈ victims) :
    Once (fun i => if i ∈ victims then f (s.workers i) else s.workers i)
      ((s.currentInputs victims).map Attempt.number ++ s.settled) s.attempts requeuing' := by
  have hactive : ∀ i ∈ victims, (s.workers i).onNode = true ∧ (s.workers i).retired = false := by
    intro i hi
    have := hflight i hi
    simp only [Worker.inFlight, Worker.active, Bool.and_eq_true, Bool.not_eq_true'] at this
    exact this.1
  have hkeeps : ∀ i, (s.workers i).Keeps (if i ∈ victims then f (s.workers i) else s.workers i) := by
    intro i
    split_ifs with hi
    · exact (hf _).1
    · exact .refl _
  refine h.settle _ _ hkeeps (nodup_currentInputs h hnodup) ?_ ?_ (by simp [hrequeuing]) ?_
  · intro n hn
    obtain ⟨a, ha, rfl⟩ := List.mem_map.1 hn
    obtain ⟨i, hi, hcurrent⟩ := mem_currentInputs.1 ha
    have hheld := h.current i a hcurrent
    exact ⟨(h.kept i a hheld (hactive i hi).2).2, h.heldDrawn i a hheld⟩
  · intro i a hheld hn
    obtain ⟨b, hb, hnumber⟩ := List.mem_map.1 hn
    obtain ⟨j, hj, hcurrent⟩ := mem_currentInputs.1 hb
    -- the attempt is that of a victim
    obtain rfl := h.distinct j i b a (h.current j b hcurrent) ((hkeeps i).held a hheld) hnumber
    rw [if_pos hj]
    refine ⟨(hf _).2.1, ?_⟩
    rcases hcleared (s.workers j) with hnone | rfl
    · exact .inl hnone
    · exact .inr (.inl hj)
  · intro i hi
    rw [if_pos (hsub i hi)]
    exact ⟨(hf _).2.2.trans (hactive i (hsub i hi)).1, (hf _).2.1⟩

end Victims

/-! ### One step -/

/-- What holds of the pool in every state. -/
structure Sound (s : Pool ι) : Prop where
  once : Once s.workers s.settled s.attempts s.requeuing
  /-- Every result counted is some pop's. -/
  counted : s.numResultsReceived = s.accounts.countP fun p => p.2 = .delivered

namespace Sound

variable [DecidableEq ι] {s t : Pool ι} {i : ι} {w : Worker} {a : Attempt}

lemma setWorker (h : Sound s) (hkeeps : (s.workers i).Keeps w) : Sound (s.setWorker i w) :=
  ⟨h.once.setWorker hkeeps, h.counted⟩

/-- The task goes on with its input, and is not about to wait for the lock. -/
lemma setPhase (h : Sound s) {phase : Phase} (hphase : phase.attempt = (s.workers i).held)
    (hwaits : ∀ a e, phase = .lockWait a e → (s.workers i).retired = false) :
    Sound (s.setWorker i ((s.workers i).setPhase phase)) :=
  h.setWorker (.setPhase hphase hwaits)

/-- A result is delivered and counted. -/
lemma deliver (h : Sound s) (hkeeps : (s.workers i).Keeps w)
    (hheld : (s.workers i).held = some a) (hfresh : a.number ∉ s.settled)
    (hdone : w.held = none ∨ w.retired = true ∧ ∀ a e, w.phase ≠ .lockWait a e) (r : CallResult) :
    Sound ((s.setWorker i w).deliver a r) where
  once := h.once.settleWorker hkeeps hheld hfresh hdone
  counted := by
    have := h.counted
    simp only [Pool.deliver, Pool.setWorker, List.countP_cons]
    simpa using this

omit [DecidableEq ι] in
lemma settled_of_lock (hlock : s.lock = none) : s.settled = s.accounts.map Prod.fst := by
  simp [Pool.settled, Pool.batch, hlock]

omit [DecidableEq ι] in
lemma requeuing_of_lock (hlock : s.lock = none) : s.requeuing = [] := by
  simp [Pool.requeuing, hlock]

omit [DecidableEq ι] in
/-- The lock changes hands with no input taken away. -/
lemma of_lock (h : Sound s) {lock : Option (Holder ι)} (hbatch : { s with lock }.batch = s.batch)
    (hrequeuing : { s with lock }.requeuing = s.requeuing) : Sound { s with lock } where
  once := by
    have hsettled : { s with lock }.settled = s.settled := by
      simp only [Pool.settled, hbatch]
    rw [hsettled, hrequeuing]
    exact h.once
  counted := h.counted

omit [DecidableEq ι] in
lemma counted_requeue (h : Sound s) (as : List Attempt) :
    s.numResultsReceived = (s.requeue as).accounts.countP fun p => p.2 = .delivered := by
  have hnone : (as.map fun a => (a.number, Account.requeued)).countP
      (fun p => p.2 = .delivered) = 0 := by
    simp [List.countP_eq_zero]
  simp only [Pool.requeue, List.countP_append, hnone]
  simpa using h.counted

/-- A failed worker gets the lock. -/
lemma retireAfterFailure [Fintype ι] (h : Sound s) {e : WorkerError} (hlock : s.lock = none)
    (hphase : (s.workers i).phase = .lockWait a e) : Sound (s.retireAfterFailure i a e) := by
  have hheld : (s.workers i).held = some a := by simp [Worker.held, hphase, Phase.attempt]
  by_cases hcleared : (s.workers i).currentInput = none
  · rw [Pool.retireAfterFailure, if_pos hcleared]
    exact h.setPhase (by rw [hheld]; rfl) (by simp)
  rw [Pool.retireAfterFailure, if_neg hcleared]
  have hfresh := h.once.waits i a e hphase hcleared (by simp [requeuing_of_lock hlock])
  by_cases hlast : ∀ j, j ≠ i → (s.workers j).active = false
  · -- no other worker is left: the error is the result
    rw [if_pos hlast]
    refine h.deliver ?_ hheld hfresh (.inr ⟨rfl, by simp⟩) _
    exact .of_same rfl hheld.symm rfl (fun _ => rfl) (by simp)
  · rw [if_neg hlast]
    have hkeeps : (s.workers i).Keeps ((s.workers i).retire.setPhase (.retiring a)) :=
      .of_same rfl hheld.symm rfl (fun _ => rfl) (by simp [Worker.setPhase])
    have honce := h.once.settleWorker hkeeps hheld hfresh
      (.inr ⟨rfl, by simp [Worker.setPhase]⟩)
    rw [settled_of_lock hlock, requeuing_of_lock hlock] at honce
    refine ⟨?_, h.counted_requeue [a]⟩
    simpa [Pool.settled, Pool.batch, Pool.requeuing, Pool.requeue, Pool.setWorker] using honce

/-- The attempt of a worker ends. -/
lemma finish (h : Sound s) {r : Option (CallResult × Bool)}
    (hphase : (s.workers i).phase = .finishing a r) : Sound (s.finish i a r) := by
  have hheld : (s.workers i).held = some a := by simp [Worker.held, hphase, Phase.attempt]
  have hreturned : (s.workers i).Keeps ((s.workers i).clear.setPhase .returned) :=
    .of_idle (fun h => ⟨h, id⟩) rfl (.inl rfl)
  rcases r with _ | ⟨r, stopAfterResult⟩
  · exact h.setWorker hreturned
  · simp only [Pool.finish]
    split_ifs with hret
    · exact h.setWorker hreturned
    · -- a worker that is not retired has its input to itself
      have hfresh := (h.once.kept i a hheld (by simpa using hret)).2
      have hidle : ((s.workers i).again stopAfterResult).held = none := by
        cases stopAfterResult <;> rfl
      refine h.deliver (.of_idle ?_ hidle (.inl ?_)) hheld hfresh (.inl hidle) r
      · cases stopAfterResult <;> exact fun h => ⟨h, id⟩
      · cases stopAfterResult <;> rfl

omit [DecidableEq ι] in
/-- A revoked batch is handed over, or lost. -/
lemma release (h : Sound s) {killed : Bool} (hstep : s.release killed s.lock = some t) :
    Sound t := by
  rcases hlock : s.lock with _ | ⟨victims, _ | _⟩ | batch | ⟨_ | ⟨i, rest⟩⟩ | i <;>
    simp only [hlock, Pool.release, reduceCtorEq, Option.some.injEq] at hstep
  · subst hstep
    exact h.of_lock (by simp [Pool.batch, hlock]) (by simp [Pool.requeuing, hlock])
  · subst hstep
    have hrequeuing : s.requeuing = [] := by simp [Pool.requeuing, hlock]
    have honce := h.once
    rw [hrequeuing] at honce
    cases killed with
    | false =>
      refine ⟨?_, h.counted⟩
      simpa [Pool.settled, Pool.batch, Pool.requeuing] using
        honce.of_subperm (List.sublist_append_left _ _).subperm
    | true =>
      constructor
      · have hperm : (batch.map Attempt.number ++ s.accounts.map Prod.fst).Perm s.settled := by
          simp only [Pool.settled, Pool.batch, hlock]
          exact List.perm_append_comm
        simpa [Pool.settled, Pool.batch, Pool.requeuing, Pool.handOver, Function.comp_def] using
          honce.of_subperm hperm.subperm
      · have hnone : (batch.map fun a => (a.number, Account.handedOver)).countP
            (fun p => p.2 = .delivered) = 0 := by
          simp [List.countP_eq_zero]
        have := h.counted
        simpa [Pool.handOver, List.countP_append, hnone] using this
  · subst hstep
    exact h.of_lock (by simp [Pool.batch, hlock]) (by simp [Pool.requeuing, hlock])

/-- Every step keeps the pool sound. -/
lemma step [Fintype ι] (h : Sound s) {e : PoolEvent ι} (hstep : poolStep s e = some t) : Sound t := by
  cases e with
  | upload x =>
    obtain rfl := Option.some.inj hstep
    exact ⟨h.once, h.counted⟩
  | giveLast =>
    obtain rfl := Option.some.inj hstep
    exact ⟨h.once, h.counted⟩
  | join i =>
    simp only [poolStep, Option.ite_none_right_eq_some, Option.some.injEq] at hstep
    obtain ⟨⟨honNode, -⟩, rfl⟩ := hstep
    exact h.setWorker (.of_idle (by simp [honNode]) rfl (.inl rfl))
  | retireIdle i =>
    simp only [poolStep, Option.ite_none_right_eq_some, Option.some.injEq] at hstep
    obtain ⟨⟨-, hwaiting⟩, rfl⟩ := hstep
    refine h.setWorker (.of_idle (fun hon => ⟨hon, fun _ => rfl⟩) rfl (.inr ⟨rfl, ?_⟩))
    simp [Worker.held, hwaiting, Phase.attempt]
  | throttle i throttled =>
    obtain rfl := Option.some.inj hstep
    exact h.setWorker (.of_same rfl rfl rfl id fun _ _ he => .inl he)
  | relocate i =>
    simp only [poolStep, Option.ite_none_right_eq_some, Option.some.injEq] at hstep
    obtain ⟨-, rfl⟩ := hstep
    exact h.setWorker (.retire _)
  | pop i =>
    simp only [poolStep] at hstep
    split at hstep
    · cases hstep
    · rename_i x rest hqueue
      simp only [Option.ite_none_right_eq_some, Option.some.injEq] at hstep
      obtain ⟨hwaiting, rfl⟩ := hstep
      exact ⟨h.once.pop (by simp [Worker.held, hwaiting, Phase.attempt]) x, h.counted⟩
  | callReturns i resultPkl =>
    simp only [poolStep] at hstep
    split at hstep
    · rename_i a hphase
      obtain rfl := Option.some.inj hstep
      exact h.setPhase (by simp [Worker.held, hphase, Phase.attempt]) (by simp)
    · cases hstep
  | callRaises i error =>
    simp only [poolStep] at hstep
    split at hstep
    · rename_i a hphase
      obtain rfl := Option.some.inj hstep
      refine h.setPhase ?_ fun b e => Worker.retired_of_handle
      rw [Worker.attempt_handle]
      simp [Worker.held, hphase, Phase.attempt]
    · cases hstep
  | errorWritten i =>
    simp only [poolStep] at hstep
    split at hstep
    · rename_i a result stopAfterResult hphase
      obtain rfl := Option.some.inj hstep
      exact h.setPhase (by simp [Worker.held, hphase, Phase.attempt]) (by simp)
    · cases hstep
  | acquire i =>
    simp only [poolStep] at hstep
    split at hstep
    · rename_i a error hphase
      simp only [Option.ite_none_right_eq_some, Option.some.injEq] at hstep
      obtain ⟨hlock, rfl⟩ := hstep
      exact h.retireAfterFailure hlock hphase
    · cases hstep
  | containerDeleted i =>
    simp only [poolStep] at hstep
    split at hstep
    · rename_i a hphase
      simp only [Option.ite_none_right_eq_some, Option.some.injEq] at hstep
      obtain ⟨hlock, rfl⟩ := hstep
      have hphase' : Sound (s.setWorker i ((s.workers i).setPhase (.finishing a none))) :=
        h.setPhase (by simp [Worker.held, hphase, Phase.attempt]) (by simp)
      exact hphase'.of_lock (by simp [Pool.batch, Pool.setWorker, hlock])
        (by simp [Pool.requeuing, Pool.setWorker, hlock])
    · cases hstep
  | finish i =>
    simp only [poolStep] at hstep
    split at hstep
    · rename_i a r hphase
      obtain rfl := Option.some.inj hstep
      exact h.finish hphase
    · cases hstep
  | pressureStart selected =>
    simp only [poolStep, Option.ite_none_right_eq_some, Option.some.injEq] at hstep
    obtain ⟨⟨hlock, hnodup, -⟩, rfl⟩ := hstep
    have hsub : (s.pressureVictims selected).Sublist
        (selected.filter fun i => (s.workers i).inFlight) :=
      List.take_sublist _ _
    have honce := settle_victims Worker.retire (s.pressureVictims selected)
      h.once (hnodup.sublist (hsub.trans List.filter_sublist))
      (fun i hi => (List.mem_filter.1 (hsub.subset hi)).2)
      (fun w => ⟨.retire w, rfl, rfl⟩) (fun _ => .inr rfl) (requeuing_of_lock hlock) fun _ hi => hi
    rw [settled_of_lock hlock] at honce
    refine ⟨?_, h.counted_requeue _⟩
    simpa [Pool.settled, Pool.batch, Pool.requeuing, Pool.requeue, Pool.setAll,
      Function.comp_def] using honce
  | pressureClear =>
    simp only [poolStep] at hstep
    split at hstep
    · rename_i victims hlock
      obtain rfl := Option.some.inj hstep
      have hrequeuing : s.requeuing = victims := by simp [Pool.requeuing, hlock]
      have hkeeps : ∀ i, (s.workers i).Keeps
          (if i ∈ victims then (s.workers i).clear else s.workers i) := by
        intro i
        split_ifs with hi
        · exact .clear _ (h.once.victims i (by rwa [hrequeuing])).2
        · exact .refl _
      have honce := h.once.settle [] [] hkeeps List.nodup_nil (by simp)
        (by simp) (fun i hi => .inr ?_) (by simp)
      · refine ⟨?_, h.counted⟩
        simpa [Pool.settled, Pool.batch, Pool.requeuing, Pool.setAll, hlock] using honce
      · rw [hrequeuing] at hi
        rw [if_pos hi]
        rfl
    · cases hstep
  | revokeStart cpuSaturated maxInputs victims =>
    simp only [poolStep, Option.ite_none_right_eq_some, Option.some.injEq] at hstep
    obtain ⟨⟨hlock, -, hnodup, -, hflight, -⟩, rfl⟩ := hstep
    have honce := settle_victims (fun w => w.retire.clear) [] h.once hnodup
      (fun i hi => (hflight i hi).1)
      (fun w => ⟨(Worker.Keeps.retire w).trans (.clear _ rfl), rfl, rfl⟩) (fun _ => .inl rfl)
      (requeuing_of_lock hlock) (by simp)
    rw [settled_of_lock hlock] at honce
    refine ⟨?_, h.counted⟩
    exact honce.of_subperm List.perm_append_comm.subperm
  | parkStart selected =>
    simp only [poolStep, Option.ite_none_right_eq_some, Option.some.injEq] at hstep
    obtain ⟨⟨hlock, -⟩, rfl⟩ := hstep
    exact h.of_lock (by simp [Pool.batch, hlock]) (by simp [Pool.requeuing, hlock])
  | parkNext =>
    simp only [poolStep] at hstep
    split at hstep
    · rename_i i rest hlock
      obtain rfl := Option.some.inj hstep
      have hthrottled := h.setWorker (i := i) (w := { s.workers i with throttled := true })
        (.of_same rfl rfl rfl id fun _ _ he => .inl he)
      exact hthrottled.of_lock (by simp [Pool.batch, Pool.setWorker, hlock])
        (by simp [Pool.requeuing, Pool.setWorker, hlock])
    · cases hstep
  | release killed => exact h.release hstep

end Sound

/-! ### Main result -/

section Main

variable {s : Pool ι}

lemma sound_of_fresh (h : s.Fresh) : Sound s := by
  have hidle : ∀ i, (s.workers i).held = none ∧ (s.workers i).currentInput = none ∧
      ∀ a e, (s.workers i).phase ≠ .lockWait a e := by
    intro i
    rcases h.workers i with hi | hi <;> simp [hi, Worker.fresh, Worker.held, Phase.attempt]
  have hsettled : s.settled = [] := by
    simp [Pool.settled, Pool.batch, h.lock, h.accounts]
  have hrequeuing : s.requeuing = [] := Sound.requeuing_of_lock h.lock
  refine ⟨?_, by simp [h.numResultsReceived, h.accounts]⟩
  rw [hsettled, hrequeuing]
  constructor
  case nodup => exact List.nodup_nil
  case drawn => simp
  case heldDrawn => simp [hidle]
  case distinct => simp [hidle]
  case current => simp [hidle]
  case kept => simp [hidle]
  case waits => simp
  case victims => simp

/-- **At most once**: however the tasks of a node interleave, no popped input is accounted
for twice, and the results counted are as many as pops whose result was delivered. -/
theorem accounted_once [DecidableEq ι] [Fintype ι] (h : (pool ι).Reachable System.always s) :
    (s.accounts.map Prod.fst).Nodup ∧
      s.numResultsReceived = s.accounts.countP fun p => p.2 = .delivered := by
  have hinv : (pool ι).Invariant System.always Sound :=
    ⟨fun _ hs => sound_of_fresh hs, fun _ _ _ hs _ hstep => hs.step hstep⟩
  obtain ⟨honce, hcounted⟩ := hinv.reachable h
  exact ⟨(List.nodup_append.1 honce.nodup).1, hcounted⟩

end Main

/-! ### A run -/

/-- The idle workers of a node, which runs a job with dynamic RAM. -/
def idlePool (ι : Type*) : Pool ι where
  dynamicFuncRam := true
  workers _ := .fresh
  inputsQueue := [⟨0, [1]⟩, ⟨1, [2]⟩]
  resultsQueue := []
  numResultsReceived := 0
  revoked := []
  lock := none
  attempts := 0
  accounts := []

lemma fresh_idlePool (ι : Type*) : (idlePool ι).Fresh where
  workers _ := .inl rfl
  lock := rfl
  numResultsReceived := rfl
  attempts := rfl
  accounts := rfl

/-- A pressure retirement takes a worker whose process has just been killed, while the worker
waits for the lock. -/
def retirementRun : List (PoolEvent (Fin 2)) :=
  [.pop 0, .pop 1, .callRaises 0 .outOfMemory, .pressureStart [0, 1], .pressureClear,
    .release true, .acquire 0, .callReturns 1 [9], .finish 1, .finish 0]

/-- The state at its end. -/
def retirementPool : Pool (Fin 2) :=
  (((pool (Fin 2)).guarded System.always).exec (idlePool _) retirementRun).get (by decide +kernel)

theorem accounted_once_retirement :
    (retirementPool.accounts.map Prod.fst).Nodup ∧
      retirementPool.accounts = [(1, .delivered), (0, .requeued)] := by
  have hrun : (pool (Fin 2)).Run System.always (idlePool _) retirementRun retirementPool :=
    System.run_of_exec_guarded (Option.some_get _).symm
  exact ⟨(accounted_once ⟨_, _, fresh_idlePool _, hrun⟩).1, by decide +kernel⟩

end Burla.Workers
