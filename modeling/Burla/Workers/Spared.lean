/-
Whether a shed leaves a worker that runs an input or is free to take one.

* `spared_of_steady`: in a run of a shed and of everything that goes on beside it, there always is
  one, as long as each step that takes workers away spares one, and the workers that a guard counts
  run wherever all that run or are free are selected.
* `silenced`: a run that ends with a parked worker and one that waits behind it.

`park_workers_for_memory` counts the workers that run, and leaves one of these;
`retire_workers_for_pressure` counts all that are not retired, and the one it leaves may be parked,
or wait behind one that is.
-/
import Burla.Workers.Shedding

namespace Burla.Workers

variable {ι : Type*}

/-! ### Workers that are spared -/

namespace Node

/-- The workers that are about to be parked. -/
def toPark (s : Node ι) : List ι :=
  match s.pool.lock with
  | some (.parking selected) => selected
  | _ => []

/-- A worker that runs or is free, and will not be parked. -/
def Spares (s : Node ι) (i : ι) : Prop := s.available i = true ∧ i ∉ s.toPark

/-- Whether a worker goes on after an error of its call. -/
def goesOnAfter (s : Node ι) (i : ι) (error : WorkerError) : Bool :=
  match (s.pool.workers i).phase with
  | .calling a => ((s.pool.workers i).handle s.pool.dynamicFuncRam a error).serving
  | _ => true

/-- Which workers a step of another task takes away: an idle one that is retired, one whose process
is gone, one that ends its input and has to wait behind a parked one, and those that are revoked. -/
def takes [DecidableEq ι] [Fintype ι] (s : Node ι) : PoolEvent ι → ι → Prop
  | .retireIdle i, j | .relocate i, j => j = i
  | .callRaises i error, j => j = i ∧ s.goesOnAfter i error = false
  | .finish i, j => j = i ∧ s.parkedWorkersExist = true
  | .revokeStart _ _ victims, j => j ∈ victims
  | _, _ => False

instance [DecidableEq ι] [Fintype ι] (s : Node ι) :
    (e : PoolEvent ι) → (j : ι) → Decidable (s.takes e j)
  | .retireIdle _, _ | .relocate _, _ => inferInstanceAs (Decidable (_ = _))
  | .callRaises _ _, _ | .finish _, _ => inferInstanceAs (Decidable (_ ∧ _))
  | .revokeStart _ _ _, _ => inferInstanceAs (Decidable (_ ∈ _))
  | .upload _, _ | .giveLast, _ | .join _, _ | .throttle _ _, _ | .pop _, _ | .callReturns _ _, _
  | .errorWritten _, _ | .acquire _, _ | .containerDeleted _, _ | .pressureStart _, _
  | .pressureClear, _ | .parkStart _, _ | .parkNext, _ | .release _, _ => .isFalse id

end Node

/-! ### A step of another task -/

section Task

variable {s t : Pool ι} {i j : ι} {w : Worker}

/-- What a step leaves of a worker that runs or waits, unless it is taken away: it goes on running,
or waiting, or it comes to wait by ending its input. -/
inductive Leaves (e : PoolEvent ι) (j : ι) (w w' : Worker) : Prop
  | runs (hunparked : w'.unparked = true) (hserving : w'.phase.serving = true)
  | waits (hunparked : w'.unparked = true) (hphase : w'.phase = .waiting)
      (hwaiting : w.phase = .waiting) (hfinish : e ≠ .finish j) (hjoin : e ≠ .join j)
  | ends (hunparked : w'.unparked = true) (hphase : w'.phase = .waiting) (hfinish : e = .finish j)

/-- A worker that may run, and runs an input or waits. -/
structure Worker.Ready (w : Worker) : Prop where
  unparked : w.unparked = true
  phase : w.phase.serving = true ∨ w.phase = .waiting

lemma Worker.Ready.active (h : w.Ready) : w.active = true := by
  have hunparked := h.unparked
  rw [Worker.unparked, Bool.and_eq_true] at hunparked
  exact hunparked.1

lemma Worker.Ready.retired (h : w.Ready) : w.retired = false := by
  have hactive := h.active
  rw [Worker.active, Bool.and_eq_true, Bool.not_eq_true'] at hactive
  exact hactive.2

lemma Worker.Ready.onNode (h : w.Ready) : w.onNode = true := by
  have hactive := h.active
  rw [Worker.active, Bool.and_eq_true] at hactive
  exact hactive.1

/-- A worker that nothing happens to. -/
lemma Leaves.of_eq {e : PoolEvent ι} {w' : Worker} (h : w.Ready) (heq : w' = w)
    (hfinish : e ≠ .finish j) (hjoin : e ≠ .join j) : Leaves e j w w' := by
  subst heq
  rcases h.phase with hserving | hwaiting
  · exact .runs h.unparked hserving
  · exact .waits h.unparked hwaiting hwaiting hfinish hjoin

variable [DecidableEq ι]

/-- Something happens to another worker, or to this one. -/
lemma Leaves.setWorker {e : PoolEvent ι} (h : (s.workers j).Ready)
    (hsame : j = i → Leaves e j (s.workers j) w)
    (hother : j ≠ i → e ≠ .finish j ∧ e ≠ .join j) :
    Leaves e j (s.workers j) ((s.setWorker i w).workers j) := by
  by_cases hj : j = i
  · have hw : (s.setWorker i w).workers j = w := by
      rw [hj]
      exact Function.update_self _ _ _
    rw [hw]
    exact hsame hj
  · exact .of_eq h (Function.update_of_ne hj _ _) (hother hj).1 (hother hj).2

/-- The same for an event of that worker alone that is neither its start nor an end. -/
lemma Leaves.setPhase {e : PoolEvent ι} {phase : Phase} (h : (s.workers j).Ready)
    (hserving : j = i → phase.serving = true) (hfinish : ∀ j, e ≠ .finish j)
    (hjoin : ∀ j, e ≠ .join j) :
    Leaves e j (s.workers j) ((s.setWorker i ((s.workers i).setPhase phase)).workers j) := by
  refine .setWorker h (fun hj => ?_) fun _ => ⟨hfinish j, hjoin j⟩
  subst hj
  exact .runs h.unparked (hserving rfl)

/-- The end of an input: the worker is returned, or it is about to wait. -/
lemma Leaves.finish {a : Attempt} {r : Option (CallResult × Bool)} (h : (s.workers j).Ready)
    (hphase : (s.workers i).phase = .finishing a r) :
    Leaves (.finish i) j (s.workers j) ((s.finish i a r).workers j) := by
  by_cases hj : j = i
  · subst hj
    have hserving : (s.workers j).phase.serving = true := by
      rcases h.phase with hserving | hwaiting
      · exact hserving
      · rw [hphase] at hwaiting
        cases hwaiting
    rw [hphase] at hserving
    obtain _ | ⟨result, _ | _⟩ := r
    · exact absurd hserving Bool.false_ne_true
    · have hworker : (s.finish j a (some (result, false))).workers j =
          (s.workers j).again false := by
        rw [Pool.finish, if_neg (by rw [h.retired]; exact Bool.false_ne_true)]
        exact Function.update_self _ _ _
      rw [hworker]
      exact .ends h.unparked rfl rfl
    · exact absurd hserving Bool.false_ne_true
  · have hfinish : PoolEvent.finish i ≠ .finish j := fun heq => hj (PoolEvent.finish.inj heq).symm
    refine .of_eq h ?_ hfinish (by simp)
    cases r with
    | none => exact Function.update_of_ne hj _ _
    | some r =>
      rw [Pool.finish]
      split_ifs
      all_goals exact Function.update_of_ne hj _ _

variable [Fintype ι]

lemma Leaves.retireAfterFailure {e : PoolEvent ι} {a : Attempt} {error : WorkerError}
    (h : (s.workers j).Ready) (hphase : (s.workers i).phase = .lockWait a error)
    (hfinish : e ≠ .finish j) (hjoin : e ≠ .join j) :
    Leaves e j (s.workers j) ((s.retireAfterFailure i a error).workers j) := by
  have hj : j ≠ i := by
    rintro rfl
    rcases h.phase with hserving | hwaiting
    · rw [hphase] at hserving
      exact absurd hserving Bool.false_ne_true
    · rw [hphase] at hwaiting
      cases hwaiting
  refine .of_eq h ?_ hfinish hjoin
  rw [Pool.retireAfterFailure]
  split_ifs
  all_goals exact Function.update_of_ne hj _ _

end Task

section Step

variable [DecidableEq ι] [Fintype ι] {s : Node ι} {pool : Pool ι} {j : ι} {e : PoolEvent ι}

/-- **What a step of another task leaves** of a worker that runs or waits. -/
lemma leaves_of_task (htask : e.byTask = true) (hstep : poolStep s.pool e = some pool)
    (h : (s.pool.workers j).Ready) (htakes : ¬s.takes e j) :
    Leaves e j (s.pool.workers j) (pool.workers j) := by
  cases e with
  | upload x =>
    obtain rfl := Option.some.inj hstep
    exact .of_eq h rfl (by simp) (by simp)
  | giveLast =>
    obtain rfl := Option.some.inj hstep
    exact .of_eq h rfl (by simp) (by simp)
  | join i =>
    rw [poolStep] at hstep
    split_ifs at hstep with hcond
    obtain rfl := Option.some.inj hstep
    have hj : j ≠ i := by
      rintro rfl
      exact absurd (h.onNode.symm.trans hcond.1) (by decide)
    exact .of_eq h (Function.update_of_ne hj _ _) (by simp)
      fun heq => hj (PoolEvent.join.inj heq).symm
  | retireIdle i =>
    rw [poolStep] at hstep
    split_ifs at hstep
    obtain rfl := Option.some.inj hstep
    exact .of_eq h (Function.update_of_ne htakes _ _) (by simp) (by simp)
  | relocate i =>
    rw [poolStep] at hstep
    split_ifs at hstep
    obtain rfl := Option.some.inj hstep
    exact .of_eq h (Function.update_of_ne htakes _ _) (by simp) (by simp)
  | pop i =>
    rw [poolStep] at hstep
    split at hstep
    · cases hstep
    · split_ifs at hstep
      obtain rfl := Option.some.inj hstep
      refine Leaves.setWorker (s := s.pool) h (fun hj => ?_) fun _ => ⟨by simp, by simp⟩
      subst hj
      exact .runs h.unparked rfl
  | callReturns i resultPkl =>
    rw [poolStep] at hstep
    split at hstep
    · obtain rfl := Option.some.inj hstep
      exact .setPhase h (fun _ => rfl) (by simp) (by simp)
    · cases hstep
  | callRaises i error =>
    rw [poolStep] at hstep
    split at hstep
    case h_1 a hphase =>
      obtain rfl := Option.some.inj hstep
      refine .setPhase h (fun hj => ?_) (by simp) (by simp)
      by_contra hserving
      refine htakes ⟨hj, ?_⟩
      rw [Node.goesOnAfter, hphase]
      exact Bool.eq_false_iff.2 hserving
    · cases hstep
  | errorWritten i =>
    rw [poolStep] at hstep
    split at hstep
    case h_1 a result stopAfterResult hphase =>
      obtain rfl := Option.some.inj hstep
      refine .setPhase h (fun hj => ?_) (by simp) (by simp)
      subst hj
      rcases h.phase with hserving | hwaiting
      · rw [hphase] at hserving
        exact hserving
      · rw [hphase] at hwaiting
        cases hwaiting
    · cases hstep
  | acquire i =>
    rw [poolStep] at hstep
    split at hstep
    case h_1 a error hphase =>
      split_ifs at hstep
      obtain rfl := Option.some.inj hstep
      exact .retireAfterFailure h hphase (by simp) (by simp)
    · cases hstep
  | containerDeleted i =>
    rw [poolStep] at hstep
    split at hstep
    case h_1 a hphase =>
      split_ifs at hstep
      obtain rfl := Option.some.inj hstep
      refine .setPhase (s := s.pool) h (fun hj => ?_) (by simp) (by simp)
      subst hj
      rcases h.phase with hserving | hwaiting
      · rw [hphase] at hserving
        exact absurd hserving Bool.false_ne_true
      · rw [hphase] at hwaiting
        cases hwaiting
    · cases hstep
  | finish i =>
    rw [poolStep] at hstep
    split at hstep
    case h_1 a result hphase =>
      obtain rfl := Option.some.inj hstep
      exact .finish h hphase
    · cases hstep
  | revokeStart cpuSaturated maxInputs victims =>
    rw [poolStep] at hstep
    split_ifs at hstep
    obtain rfl := Option.some.inj hstep
    exact .of_eq h (if_neg htakes) (by simp) (by simp)
  | release killed =>
    refine .of_eq h ?_ (by simp) (by simp)
    rw [poolStep] at hstep
    unfold Pool.release at hstep
    split at hstep
    · obtain rfl := Option.some.inj hstep
      rfl
    · obtain rfl := Option.some.inj hstep
      cases killed
      all_goals rfl
    · obtain rfl := Option.some.inj hstep
      rfl
    · cases hstep
  | throttle i throttled => cases htask
  | pressureStart selected => cases htask
  | pressureClear => cases htask
  | parkStart selected => cases htask
  | parkNext => cases htask

/-- A step of another task leaves what is about to be parked, or nothing of it. -/
lemma lock_of_task (htask : e.byTask = true) (hstep : poolStep s.pool e = some pool) :
    pool.lock = s.pool.lock ∨ ∀ selected, pool.lock ≠ some (.parking selected) := by
  cases e with
  | upload x =>
    obtain rfl := Option.some.inj hstep
    exact .inl rfl
  | giveLast =>
    obtain rfl := Option.some.inj hstep
    exact .inl rfl
  | join i =>
    rw [poolStep] at hstep
    split_ifs at hstep
    obtain rfl := Option.some.inj hstep
    exact .inl rfl
  | retireIdle i =>
    rw [poolStep] at hstep
    split_ifs at hstep
    obtain rfl := Option.some.inj hstep
    exact .inl rfl
  | relocate i =>
    rw [poolStep] at hstep
    split_ifs at hstep
    obtain rfl := Option.some.inj hstep
    exact .inl rfl
  | pop i =>
    rw [poolStep] at hstep
    split at hstep
    · cases hstep
    · split_ifs at hstep
      obtain rfl := Option.some.inj hstep
      exact .inl rfl
  | callReturns i resultPkl =>
    rw [poolStep] at hstep
    split at hstep
    · obtain rfl := Option.some.inj hstep
      exact .inl rfl
    · cases hstep
  | callRaises i error =>
    rw [poolStep] at hstep
    split at hstep
    · obtain rfl := Option.some.inj hstep
      exact .inl rfl
    · cases hstep
  | errorWritten i =>
    rw [poolStep] at hstep
    split at hstep
    · obtain rfl := Option.some.inj hstep
      exact .inl rfl
    · cases hstep
  | acquire i =>
    rw [poolStep] at hstep
    split at hstep
    · split_ifs at hstep
      obtain rfl := Option.some.inj hstep
      rw [Pool.retireAfterFailure]
      split_ifs
      · exact .inl rfl
      · exact .inl rfl
      · exact .inl rfl
      · exact .inr fun _ hlock => nomatch Option.some.inj hlock
    · cases hstep
  | containerDeleted i =>
    rw [poolStep] at hstep
    split at hstep
    · split_ifs at hstep
      obtain rfl := Option.some.inj hstep
      exact .inr fun _ => by simp
    · cases hstep
  | finish i =>
    rw [poolStep] at hstep
    split at hstep
    case h_1 a result hphase =>
      obtain rfl := Option.some.inj hstep
      left
      cases result with
      | none => rfl
      | some r =>
        rw [Pool.finish]
        split_ifs
        all_goals rfl
    · cases hstep
  | revokeStart cpuSaturated maxInputs victims =>
    rw [poolStep] at hstep
    split_ifs at hstep
    obtain rfl := Option.some.inj hstep
    exact .inr fun _ => by simp
  | release killed =>
    right
    rw [poolStep] at hstep
    unfold Pool.release at hstep
    split at hstep
    · obtain rfl := Option.some.inj hstep
      simp
    · obtain rfl := Option.some.inj hstep
      simp
    · obtain rfl := Option.some.inj hstep
      simp
    · cases hstep
  | throttle i throttled => cases htask
  | pressureStart selected => cases htask
  | pressureClear => cases htask
  | parkStart selected => cases htask
  | parkNext => cases htask

/-- Ending an input changes neither what is retired nor what is parked. -/
lemma parkedWorkersExist_finish {i : ι} (hstep : poolStep s.pool (.finish i) = some pool) :
    { s with pool }.parkedWorkersExist = s.parkedWorkersExist := by
  have hworker : ∀ k, (pool.workers k).active = (s.pool.workers k).active ∧
      (pool.workers k).throttled = (s.pool.workers k).throttled := by
    intro k
    rw [poolStep] at hstep
    split at hstep
    case h_1 a result hphase =>
      obtain rfl := Option.some.inj hstep
      have hset : ∀ w : Worker, w.active = (s.pool.workers i).active →
          w.throttled = (s.pool.workers i).throttled →
          (Function.update s.pool.workers i w k).active = (s.pool.workers k).active ∧
            (Function.update s.pool.workers i w k).throttled = (s.pool.workers k).throttled := by
        intro w hactive hthrottled
        by_cases hk : k = i
        · subst hk
          rw [Function.update_self]
          exact ⟨hactive, hthrottled⟩
        · rw [Function.update_of_ne hk]
          exact ⟨rfl, rfl⟩
      cases result with
      | none => exact hset _ rfl rfl
      | some r =>
        rw [Pool.finish]
        split_ifs
        · exact hset _ rfl rfl
        · obtain ⟨_, _ | _⟩ := r
          all_goals exact hset _ rfl rfl
    · cases hstep
  rw [Node.parkedWorkersExist, Node.parkedWorkersExist]
  exact decide_eq_decide.2 (exists_congr fun k => by rw [(hworker k).1, (hworker k).2])

end Step

/-! ### One step -/

namespace Node

section Spares

variable {s t : Node ι} {i j : ι}

lemma available_iff : s.available j = true ↔ (s.pool.workers j).unparked = true ∧
    ((s.pool.workers j).phase.serving = true ∨
      (s.pool.workers j).phase = .waiting ∧ s.rest j = .free) := by
  rw [available, runs, isFree, ← Bool.and_or_distrib_left, Bool.and_eq_true, Bool.or_eq_true,
    decide_eq_true_iff]

/-- A shed begins beside workers that run. -/
lemma exists_spares_of_begins (h : s.Begins) : ∃ j, s.Spares j := by
  obtain ⟨_, running, -, htwo, -, -, hruns⟩ := h.selected
  obtain ⟨r, hr⟩ := List.exists_mem_of_length_pos (show 0 < running.length by omega)
  refine ⟨r.worker, ?_, ?_⟩
  · rw [available, hruns r hr]
    rfl
  · rw [toPark]
    split
    · exact absurd ‹_› (h.lock _).1
    · exact List.not_mem_nil

lemma ready_of_available (h : s.available j = true) : (s.pool.workers j).Ready := by
  obtain ⟨hunparked, hserving | ⟨hwaiting, -⟩⟩ := available_iff.1 h
  · exact ⟨hunparked, .inl hserving⟩
  · exact ⟨hunparked, .inr hwaiting⟩

/-- Nothing happens to a worker, and its task waits where it did. -/
lemma available_congr (hworker : t.pool.workers j = s.pool.workers j) (hrest : t.rest j = s.rest j) :
    t.available j = s.available j := by
  rw [available, available, runs, runs, isFree, isFree, hworker, hrest]

lemma notMem_toPark_of_lock (hlock : t.pool.lock = s.pool.lock ∨
    ∀ selected, t.pool.lock ≠ some (.parking selected)) (h : j ∉ s.toPark) : j ∉ t.toPark := by
  rcases hlock with hlock | hlock
  · rw [toPark] at h ⊢
    rwa [hlock]
  · rw [toPark]
    split
    · exact absurd ‹_› (hlock _)
    · exact List.not_mem_nil

variable [DecidableEq ι]

/-- A task that did not wait in the queue comes to wait elsewhere. -/
lemma spares_setRest {r : Rest} (hrest : s.rest i ≠ .free ∨ r = .free) (h : s.Spares j) :
    (s.setRest i r).Spares j := by
  obtain ⟨havailable, hpark⟩ := h
  refine ⟨?_, hpark⟩
  rw [available_iff] at havailable ⊢
  refine ⟨havailable.1, havailable.2.imp_right fun hfree => ⟨hfree.1, ?_⟩⟩
  show Function.update s.rest i r j = .free
  by_cases hj : j = i
  · subst hj
    rw [Function.update_self]
    rcases hrest with hrest | hrest
    · exact absurd hfree.2 hrest
    · exact hrest
  · rw [Function.update_of_ne hj]
    exact hfree.2

variable [Fintype ι]

/-- **A step of another task** spares each worker that it does not take away. -/
lemma spares_of_task {e : PoolEvent ι} (hstep : s.taskStep e = some t) (h : s.Spares j)
    (htakes : ¬s.takes e j) : t.Spares j := by
  unfold taskStep at hstep
  by_cases hguard : e.byTask = false ∨ e.locks = true ∧ s.unparking ≠ none
  · rw [if_pos hguard] at hstep
    cases hstep
  rw [if_neg hguard] at hstep
  have htask : e.byTask = true := Bool.not_eq_false _ ▸ (not_or.1 hguard).1
  have hready := ready_of_available h.1
  -- a step that does not come to the top of the loop
  have hplain : ∀ pool, poolStep s.pool e = some pool → (∀ i, e ≠ .finish i) →
      ({ s with pool } : Node ι).Spares j := by
    intro pool hpool hfinish
    refine ⟨?_, notMem_toPark_of_lock (t := { s with pool }) (lock_of_task htask hpool) h.2⟩
    rw [available_iff]
    have hleaves := leaves_of_task htask hpool hready htakes
    cases hleaves with
    | runs hunparked hserving => exact ⟨hunparked, .inl hserving⟩
    | waits hunparked hphase hwaiting _ _ =>
      refine ⟨hunparked, .inr ⟨hphase, ?_⟩⟩
      rcases (available_iff.1 h.1).2 with hserving | hfree
      · rw [hwaiting] at hserving
        exact absurd hserving Bool.false_ne_true
      · exact hfree.2
    | ends _ _ hend => exact absurd hend (hfinish j)
  split at hstep
  case h_1 killed =>
    split_ifs at hstep
    obtain ⟨pool, hpool, rfl⟩ := Option.map_eq_some_iff.1 hstep
    exact hplain pool hpool (by simp)
  case h_2 i =>
    split_ifs at hstep
    obtain ⟨pool, hpool, rfl⟩ := Option.map_eq_some_iff.1 hstep
    exact hplain pool hpool (by simp)
  case h_3 i =>
    obtain ⟨pool, hpool, rfl⟩ := Option.map_eq_some_iff.1 hstep
    refine ⟨?_, notMem_toPark_of_lock (t := { s with pool }) (lock_of_task htask hpool) h.2⟩
    rw [available_iff]
    have hleaves := leaves_of_task htask hpool hready htakes
    cases hleaves with
    | runs hunparked hserving => exact ⟨hunparked, .inl hserving⟩
    | waits hunparked hphase hwaiting hfinish _ =>
      have hj : j ≠ i := fun hj => hfinish (congrArg PoolEvent.finish hj.symm)
      refine ⟨hunparked, .inr ⟨hphase, (Function.update_of_ne hj _ _).trans ?_⟩⟩
      rcases (available_iff.1 h.1).2 with hserving | hfree
      · rw [hwaiting] at hserving
        exact absurd hserving Bool.false_ne_true
      · exact hfree.2
    | ends hunparked hphase hend =>
      obtain rfl : i = j := PoolEvent.finish.inj hend
      have hnone : s.parkedWorkersExist = false := by
        by_contra hparked
        exact htakes ⟨rfl, Bool.not_eq_false _ ▸ hparked⟩
      refine ⟨hunparked, .inr ⟨hphase, (Function.update_self _ _ _).trans ?_⟩⟩
      rw [parkedWorkersExist_finish hpool, hnone]
      rfl
  case h_4 i =>
    obtain ⟨pool, hpool, rfl⟩ := Option.map_eq_some_iff.1 hstep
    have hj : j ≠ i := by
      rintro rfl
      rw [poolStep] at hpool
      split_ifs at hpool with hcond
      exact absurd (hready.onNode.symm.trans hcond.1) (by decide)
    obtain ⟨havailable, hpark⟩ := hplain pool hpool (by simp)
    refine ⟨?_, hpark⟩
    rw [← havailable]
    exact available_congr (s := { s with pool }) rfl (Function.update_of_ne hj _ _)
  case h_5 =>
    obtain ⟨pool, hpool, rfl⟩ := Option.map_eq_some_iff.1 hstep
    refine hplain pool hpool fun i hi => ?_
    subst hi
    simp_all

/-- What a parked worker is resumed with spares all. -/
lemma spares_of_throttle {pool : Pool ι} (hstep : poolStep s.pool (.throttle i false) = some pool)
    (h : s.Spares j) : ({ s with pool } : Node ι).Spares j := by
  obtain rfl := Option.some.inj hstep
  obtain ⟨havailable, hpark⟩ := h
  refine ⟨?_, hpark⟩
  by_cases hj : j = i
  · subst hj
    have hunparked := (available_iff.1 havailable).1
    rw [Worker.unparked, Bool.and_eq_true, Bool.not_eq_true'] at hunparked
    rw [← havailable]
    refine available_congr (s := s) ((Function.update_self _ _ _).trans ?_) rfl
    rw [← hunparked.2]
  · rw [← havailable]
    exact available_congr (s := s) (Function.update_of_ne hj _ _) rfl

/-- The next worker is parked. -/
lemma spares_of_parkNext {pool : Pool ι} (hstep : poolStep s.pool .parkNext = some pool)
    (h : s.Spares j) : ({ s with pool } : Node ι).Spares j := by
  obtain ⟨havailable, hpark⟩ := h
  rw [poolStep] at hstep
  split at hstep
  case h_1 i selected hlock =>
    obtain rfl := Option.some.inj hstep
    rw [toPark, hlock] at hpark
    obtain ⟨hj, hselected⟩ := not_or.1 fun hmem => hpark (List.mem_cons.2 hmem)
    refine ⟨?_, hselected⟩
    rw [← havailable]
    exact available_congr (s := s) (Function.update_of_ne hj _ _) rfl
  · cases hstep

/-- Those who hold the lock let it go. -/
lemma spares_of_release {pool : Pool ι} (hstep : poolStep s.pool (.release true) = some pool)
    (h : s.Spares j) (m : Monitor ι) : ({ s with pool, monitor := m } : Node ι).Spares j := by
  have htask : (PoolEvent.release true : PoolEvent ι).byTask = true := rfl
  refine ⟨?_, notMem_toPark_of_lock (t := { s with pool, monitor := m })
    (lock_of_task htask hstep) h.2⟩
  rw [available_iff]
  have hleaves := leaves_of_task htask hstep (ready_of_available h.1) (fun htakes => htakes)
  cases hleaves with
  | runs hunparked hserving => exact ⟨hunparked, .inl hserving⟩
  | waits hunparked hphase hwaiting _ _ =>
    refine ⟨hunparked, .inr ⟨hphase, ?_⟩⟩
    rcases (available_iff.1 h.1).2 with hserving | hfree
    · rw [hwaiting] at hserving
      exact absurd hserving Bool.false_ne_true
    · exact hfree.2
  | ends _ _ hend => cases hend

/-- The inputs of the killed workers are cleared. -/
lemma spares_of_pressureClear {pool : Pool ι} (hstep : poolStep s.pool .pressureClear = some pool)
    (h : s.Spares j) : ({ s with pool } : Node ι).Spares j := by
  obtain ⟨havailable, -⟩ := h
  rw [poolStep] at hstep
  split at hstep
  case h_1 victims _ =>
    obtain rfl := Option.some.inj hstep
    refine ⟨?_, List.not_mem_nil⟩
    rw [available_iff] at havailable ⊢
    show Worker.unparked (if j ∈ victims then (s.pool.workers j).clear else s.pool.workers j) = true ∧
      (Phase.serving (if j ∈ victims then (s.pool.workers j).clear else s.pool.workers j).phase =
        true ∨ (if j ∈ victims then (s.pool.workers j).clear else s.pool.workers j).phase =
          .waiting ∧ s.rest j = .free)
    split_ifs
    all_goals exact havailable
  · cases hstep

end Spares

/-! ### The guards -/

section Guards

/-- The first ones of a list, fewer than a set has, leave one of the set. -/
lemma exists_notMem_take [DecidableEq ι] {counted : Finset ι} {selected : List ι}
    (hne : selected.take (counted.card - 1) ≠ []) :
    ∃ j ∈ counted, j ∉ selected.take (counted.card - 1) := by
  have hpos : counted.card ≠ 0 := by
    intro hzero
    rw [hzero] at hne
    exact hne List.take_zero
  have hcard : (selected.take (counted.card - 1)).toFinset.card < counted.card := by
    have hle := List.toFinset_card_le (selected.take (counted.card - 1))
    rw [List.length_take] at hle
    omega
  obtain ⟨j, hj, hnot⟩ := Finset.exists_mem_notMem_of_card_lt_card hcard
  exact ⟨j, hj, fun hmem => hnot (List.mem_toFinset.2 hmem)⟩

variable [DecidableEq ι] [Fintype ι] {s : Node ι} {j : ι}

/-- A worker that `park_workers_for_memory` counts. -/
def countedAsRunning (s : Node ι) (j : ι) : Bool :=
  (s.pool.workers j).inFlight && !(s.pool.workers j).throttled && !(s.pool.workers j).isIdle

/-- A worker that is not selected, or is selected and has no input any more. -/
def passedOver (s : Node ι) (selected : List ι) (j : ι) : Prop :=
  j ∉ selected ∨ (s.pool.workers j).inFlight = false

instance (selected : List ι) : Decidable (s.passedOver selected j) :=
  inferInstanceAs (Decidable (_ ∨ _))

/-- **The guard of a kill** leaves a worker that is not retired: one that runs or is free, when one
of these is passed over, or when all that are not retired run. -/
lemma exists_notMem_pressureVictims {kills : List ι} (hne : s.pool.pressureVictims kills ≠ [])
    (h : (∃ j, s.available j = true ∧ s.passedOver kills j) ∨
      ∀ j, (s.pool.workers j).active = true → s.runs j = true) :
    ∃ j, s.available j = true ∧ j ∉ s.pool.pressureVictims kills := by
  rcases h with ⟨j, havailable, hpassed⟩ | hall
  · refine ⟨j, havailable, fun hmem => ?_⟩
    obtain ⟨hselected, hflight⟩ := List.mem_filter.1 (List.mem_of_mem_take hmem)
    rcases hpassed with hpassed | hpassed
    · exact hpassed hselected
    · exact absurd (hpassed.symm.trans hflight) Bool.false_ne_true
  · obtain ⟨j, hj, hnot⟩ := exists_notMem_take hne
    have hactive := (Finset.mem_filter.1 hj).2
    refine ⟨j, ?_, hnot⟩
    rw [available, hall j hactive]
    rfl

/-- **The guard of parking** leaves a worker that it counts as running. -/
lemma exists_notMem_parkVictims {parks : List ι} (hne : s.pool.parkVictims parks ≠ [])
    (h : (∃ j, s.available j = true ∧ s.passedOver parks j) ∨
      ∀ j, s.countedAsRunning j = true → s.runs j = true) :
    ∃ j, s.available j = true ∧ j ∉ s.pool.parkVictims parks := by
  rcases h with ⟨j, havailable, hpassed⟩ | hall
  · refine ⟨j, havailable, fun hmem => ?_⟩
    obtain ⟨hselected, hflight⟩ := List.mem_filter.1 (List.mem_of_mem_take hmem)
    rw [Bool.and_eq_true] at hflight
    rcases hpassed with hpassed | hpassed
    · exact hpassed hselected
    · exact absurd (hpassed.symm.trans hflight.1) Bool.false_ne_true
  · obtain ⟨j, hj, hnot⟩ := exists_notMem_take hne
    obtain ⟨hflight, hthrottled, hidle⟩ := (Finset.mem_filter.1 hj).2
    have hcounted : s.countedAsRunning j = true := by
      rw [countedAsRunning, hflight, hthrottled, hidle]
      rfl
    refine ⟨j, ?_, hnot⟩
    rw [available, hall j hcounted]
    rfl

end Guards

/-! ### Whole runs -/

section Runs

variable [DecidableEq ι] [Fintype ι] {s t : Node ι} {e : NodeEvent ι}

/-- The workers that are to be killed. -/
def kills (s : Node ι) : List ι :=
  match s.monitor with
  | .selected selection => selection.kills
  | _ => []

/-- The workers that are to be parked next. -/
def parks (s : Node ι) : List ι :=
  match s.monitor with
  | .killed parks => parks
  | _ => []

/-- A step that leaves a worker that runs or is free: a step of another task spares one; and one of
them is passed over by a kill, or all workers that are not retired run, and by parking, or all that
it counts as running run. -/
def Steady (s : Node ι) : NodeEvent ι → Prop
  | .task e => ∃ j, s.Spares j ∧ ¬s.takes e j
  | .kill => (∃ j, s.available j = true ∧ s.passedOver s.kills j) ∨
      ∀ j, (s.pool.workers j).active = true → s.runs j = true
  | .park => (∃ j, s.available j = true ∧ s.passedOver s.parks j) ∨
      ∀ j, s.countedAsRunning j = true → s.runs j = true
  | _ => True

instance (s : Node ι) (j : ι) : Decidable (s.Spares j) := inferInstanceAs (Decidable (_ ∧ _))

instance (s : Node ι) : (e : NodeEvent ι) → Decidable (s.Steady e)
  | .task e => inferInstanceAs (Decidable (∃ j, s.Spares j ∧ ¬s.takes e j))
  | .kill => inferInstanceAs (Decidable ((∃ j, s.available j = true ∧ s.passedOver s.kills j) ∨
      ∀ j, (s.pool.workers j).active = true → s.runs j = true))
  | .park => inferInstanceAs (Decidable ((∃ j, s.available j = true ∧ s.passedOver s.parks j) ∨
      ∀ j, s.countedAsRunning j = true → s.runs j = true))
  | .handoff _ _ | .recover _ | .lifted | .resumed | .poll _ | .killCleared | .killDone | .parkNext
  | .parkDone => .isTrue trivial

/-- **One step** of a steady run. -/
lemma exists_spares_step (hok : s.Steady e) (h : ∃ j, s.Spares j) (hstep : s.step e = some t) :
    ∃ j, t.Spares j := by
  obtain ⟨j, hj⟩ := h
  cases e with
  | task e =>
    obtain ⟨k, hk, htakes⟩ := hok
    exact ⟨k, spares_of_task hstep hk htakes⟩
  | handoff i resumed =>
    cases resumed with
    | none =>
      simp only [step] at hstep
      split_ifs at hstep with hwaits
      obtain rfl := Option.some.inj hstep
      exact ⟨j, spares_setRest (.inl (by rw [hwaits.2]; decide)) hj⟩
    | some parked =>
      simp only [step, unparkStart] at hstep
      split_ifs at hstep
      obtain rfl := Option.some.inj hstep
      exact ⟨j, hj⟩
  | recover parked =>
    rw [step, unparkStart] at hstep
    split_ifs at hstep
    obtain rfl := Option.some.inj hstep
    exact ⟨j, hj⟩
  | lifted =>
    rw [step] at hstep
    split at hstep
    · obtain ⟨pool, hpool, rfl⟩ := Option.map_eq_some_iff.1 hstep
      exact ⟨j, spares_of_throttle hpool hj⟩
    · cases hstep
  | resumed =>
    simp only [step] at hstep
    split at hstep
    · obtain rfl := Option.some.inj hstep
      exact ⟨j, hj⟩
    · split_ifs at hstep with hwaits
      · obtain rfl := Option.some.inj hstep
        exact ⟨j, spares_setRest (s := { s with unparking := none })
          (.inl (by rw [hwaits.2]; decide)) hj⟩
      · obtain rfl := Option.some.inj hstep
        exact ⟨j, hj⟩
    · cases hstep
  | poll i =>
    rw [step] at hstep
    split_ifs at hstep
    obtain rfl := Option.some.inj hstep
    exact ⟨j, spares_setRest (.inr rfl) hj⟩
  | kill =>
    simp only [step] at hstep
    split at hstep
    case h_1 kills parks hmonitor =>
      rw [shedStart] at hstep
      split_ifs at hstep with _ _ hvictims
      · obtain rfl := Option.some.inj hstep
        exact ⟨j, hj⟩
      · obtain rfl := Option.some.inj hstep
        exact ⟨j, hj⟩
      · obtain ⟨pool, hpool, rfl⟩ := Option.map_eq_some_iff.1 hstep
        rw [Steady, Node.kills, hmonitor] at hok
        obtain ⟨k, havailable, hk⟩ := exists_notMem_pressureVictims hvictims hok
        rw [poolStep] at hpool
        split_ifs at hpool
        obtain rfl := Option.some.inj hpool
        refine ⟨k, ?_, List.not_mem_nil⟩
        rw [← havailable]
        exact available_congr (s := s) (if_neg hk) rfl
    · cases hstep
  | killCleared =>
    obtain ⟨pool, hpool, rfl⟩ := Option.map_eq_some_iff.1 hstep
    exact ⟨j, spares_of_pressureClear hpool hj⟩
  | killDone =>
    rw [step] at hstep
    split at hstep
    · obtain ⟨pool, hpool, rfl⟩ := Option.map_eq_some_iff.1 hstep
      exact ⟨j, spares_of_release hpool hj _⟩
    · cases hstep
  | park =>
    rw [step] at hstep
    split at hstep
    case h_1 parks hmonitor =>
      rw [shedStart] at hstep
      split_ifs at hstep with _ _ hvictims
      · obtain rfl := Option.some.inj hstep
        exact ⟨j, hj⟩
      · obtain rfl := Option.some.inj hstep
        exact ⟨j, hj⟩
      · obtain ⟨pool, hpool, rfl⟩ := Option.map_eq_some_iff.1 hstep
        rw [Steady, Node.parks, hmonitor] at hok
        obtain ⟨k, havailable, hk⟩ := exists_notMem_parkVictims hvictims hok
        rw [poolStep] at hpool
        split_ifs at hpool
        obtain rfl := Option.some.inj hpool
        exact ⟨k, havailable, hk⟩
    · cases hstep
  | parkNext =>
    obtain ⟨pool, hpool, rfl⟩ := Option.map_eq_some_iff.1 hstep
    exact ⟨j, spares_of_parkNext hpool hj⟩
  | parkDone =>
    rw [step] at hstep
    split at hstep
    · obtain ⟨pool, hpool, rfl⟩ := Option.map_eq_some_iff.1 hstep
      exact ⟨j, spares_of_release hpool hj _⟩
    · cases hstep

end Runs

end Node

section Main

variable [DecidableEq ι] [Fintype ι]

/-- **A shed leaves a worker** that runs an input or is free to take one, and so do all that goes on
beside it, in runs whose steps are steady: in every state there is one that will not be parked. -/
theorem spared_of_steady {s : Node ι} (h : (shedding ι).Reachable Node.Steady s) :
    ∃ j, s.available j = true ∧ j ∉ s.toPark := by
  have hinvariant : (shedding ι).Invariant Node.Steady fun s => ∃ j, s.Spares j :=
    ⟨fun _ hs => Node.exists_spares_of_begins hs,
      fun _ _ _ hs hok hstep => Node.exists_spares_step hok hs hstep⟩
  exact hinvariant.reachable h

end Main

/-! ### Two runs -/

section Two

-- One proof for every number of a worker.
local instance neZero_three : NeZero 3 := ⟨by decide⟩

/-- Three workers on a node whose memory is short: two run, the first of them waiting for a
download, and the third one is parked. -/
def pressed : Node (Fin 3) where
  pool := {
    dynamicFuncRam := true
    workers i := { Worker.fresh with
      isIdle := false
      throttled := i == 2
      currentInput := some ⟨i, ⟨i, [1]⟩⟩
      phase := .calling ⟨i, ⟨i, [1]⟩⟩ }
    inputsQueue := []
    resultsQueue := []
    numResultsReceived := 0
    revoked := []
    lock := none
    attempts := 3
    accounts := [] }
  rest _ := .free
  unparking := none
  monitor := .selected (select ⟨some 1, false, 10, 1⟩ [⟨0, 10, true, 1⟩, ⟨1, 20, false, 1⟩])

lemma begins_pressed : pressed.Begins where
  selected := ⟨_, _, rfl, by decide, by decide, by decide, by decide⟩
  lock _ := ⟨by simp [pressed], fun _ => by simp [pressed]⟩

/-- The first worker is killed, while the second one goes on. -/
def steadyRun : List (NodeEvent (Fin 3)) := [.kill, .killCleared, .killDone, .park]

/-- The state at its end. -/
def spared : Node (Fin 3) :=
  (((shedding (Fin 3)).guarded Node.Steady).exec pressed steadyRun).get (by decide +kernel)

theorem spared_of_steady_killed : spared.monitor = .returned ∧
    ∃ j, spared.available j = true ∧ j ∉ spared.toPark := by
  have hrun : (shedding (Fin 3)).Run Node.Steady pressed steadyRun spared :=
    System.run_of_exec_guarded (Option.some_get _).symm
  exact ⟨by decide +kernel, spared_of_steady ⟨_, _, begins_pressed, hrun⟩⟩

/-- The second worker ends its input before the kill. -/
def silencingRun : List (NodeEvent (Fin 3)) :=
  [.task (.callReturns 1 [9]), .task (.finish 1), .kill, .killCleared, .killDone, .park]

/-- The state at its end. -/
def silenced : Node (Fin 3) :=
  (((shedding (Fin 3)).guarded System.always).exec pressed silencingRun).get (by decide +kernel)

/-- The kill takes the one worker that runs: three workers are not retired, but the second one waits
behind the third one, which is parked. -/
theorem silenced_by_kill : ∃ s : Node (Fin 3),
    (shedding (Fin 3)).Reachable System.always s ∧ s.monitor = .returned ∧
      ∀ j, s.available j = false := by
  have hrun : (shedding (Fin 3)).Run System.always pressed silencingRun silenced :=
    System.run_of_exec_guarded (Option.some_get _).symm
  exact ⟨silenced, ⟨_, _, begins_pressed, hrun⟩, by decide +kernel, by decide +kernel⟩

end Two

end Burla.Workers
