/-
When a popped input is lost.

Three steps lose one.  The monitor retires a worker that holds an input without queueing it
again (`_relocate_worker_process_or_retire`), and the worker's own handlers take that for
somebody else's work; a worker that the monitor has retired while it was idle pops another
input; and a revocation whose kill raises (`os.killpg` on a process that is gone) never returns
its batch.  In runs without them every popped input is accounted for once no task works on it
(`no_input_lost`), and `relocation_loses_input` is a run with the first one.
-/
import Burla.Workers.Accounts

namespace Burla.Workers

variable {ι : Type*}

/-- A task that stands here can do without its worker: it has no input, or will look for it when
it has the lock. -/
def Phase.relocatable : Phase → Bool
  | .waiting | .returned | .lockWait _ _ => true
  | _ => false

/-- The steps that lose no input. -/
def Safe (s : Pool ι) : PoolEvent ι → Prop
  | .relocate i => (s.workers i).retired = true ∨ (s.workers i).phase.relocatable = true
  | .pop i => (s.workers i).retired = false
  | .release killed => killed = true ∨ s.batch = []
  | _ => True

instance (s : Pool ι) : (e : PoolEvent ι) → Decidable (Safe s e)
  | .relocate _ | .release _ => inferInstanceAs (Decidable (_ ∨ _))
  | .pop _ => inferInstanceAs (Decidable (_ = _))
  | .upload _ | .giveLast | .join _ | .retireIdle _ | .throttle _ _ | .callReturns _ _
  | .callRaises _ _ | .errorWritten _ | .acquire _ | .containerDeleted _ | .finish _
  | .pressureStart _ | .pressureClear | .revokeStart _ _ _ | .parkStart _ | .parkNext =>
    .isTrue trivial

/-! ### The invariant -/

/-- A worker whose input is not its own any more, by all that its task looks at, has an input
that is settled. -/
structure Worker.Covered (settled : List ℕ) (w : Worker) : Prop where
  retired : ∀ a, w.held = some a → w.retired = true → (∀ e, w.phase ≠ .lockWait a e) →
    a.number ∈ settled
  cleared : ∀ a e, w.phase = .lockWait a e → w.currentInput = none → a.number ∈ settled
  returning : ∀ a, w.phase = .retiring a ∨ w.phase = .finishing a none → w.retired = true

namespace Worker.Covered

variable {settled settled' : List ℕ} {w : Worker} {a : Attempt}

lemma mono (h : w.Covered settled) (hsub : settled ⊆ settled') : w.Covered settled' where
  retired a ha hret hphase := hsub (h.retired a ha hret hphase)
  cleared a e he hnone := hsub (h.cleared a e he hnone)
  returning := h.returning

/-- A worker without input has nothing to lose. -/
lemma of_idle (hidle : w.held = none) : w.Covered settled where
  retired a ha := by simp [hidle] at ha
  cleared a e he := by simp [Worker.held, he, Phase.attempt] at hidle
  returning a ha := by
    rcases ha with ha | ha <;> simp [Worker.held, ha, Phase.attempt] at hidle

/-- The input is settled. -/
lemma of_settled (hheld : w.held = some a) (ha : a.number ∈ settled)
    (hret : w.retired = true) : w.Covered settled where
  retired b hb _ _ := by
    obtain rfl := Option.some.inj (hheld.symm.trans hb)
    exact ha
  cleared b e hb _ := by
    obtain rfl : a = b := by simpa [Worker.held, hb, Phase.attempt, eq_comm] using hheld
    exact ha
  returning _ _ := hret

/-- The worker has the input to itself. -/
lemma of_kept (hret : w.retired = false) (hcurrent : w.currentInput ≠ none)
    (hphase : ∀ a, w.phase ≠ .retiring a ∧ w.phase ≠ .finishing a none) : w.Covered settled where
  retired _ _ h := by simp [hret] at h
  cleared _ _ _ h := absurd h hcurrent
  returning a ha := by
    rcases ha with ha | ha
    · exact absurd ha (hphase a).1
    · exact absurd ha (hphase a).2

/-- A result is on its way. -/
lemma finishing (h : w.Covered settled) (hheld : w.held = some a)
    (hphase : ∀ e, w.phase ≠ .lockWait a e) (r : CallResult × Bool) :
    (w.setPhase (.finishing a (some r))).Covered settled where
  retired b hb hret _ := by
    obtain rfl : a = b := Option.some.inj hb
    exact h.retired a hheld hret hphase
  cleared := by simp [Worker.setPhase]
  returning := by simp [Worker.setPhase]

end Worker.Covered

/-- Every pop is settled or still worked on. -/
structure Covered (workers : ι → Worker) (settled : List ℕ) (attempts : ℕ) (requeuing : List ι) :
    Prop where
  worker : ∀ i, (workers i).Covered settled
  requeued : ∀ i ∈ requeuing, ∀ a, (workers i).held = some a → a.number ∈ settled
  all : ∀ n < attempts, n ∈ settled ∨ ∃ i a, (workers i).held = some a ∧ a.number = n

namespace Covered

variable {workers : ι → Worker} {settled settled' : List ℕ} {attempts : ℕ} {requeuing : List ι}

/-- Workers change; an input that is let go is settled. -/
lemma change (h : Covered workers settled attempts requeuing) (workers' : ι → Worker)
    (hsub : settled ⊆ settled') (requeuing' : List ι) (hworker : ∀ i, (workers' i).Covered settled')
    (hgone : ∀ i a, (workers i).held = some a →
      a.number ∈ settled' ∨ (workers' i).held = some a)
    (hrequeued : ∀ i ∈ requeuing', ∀ a, (workers' i).held = some a → a.number ∈ settled') :
    Covered workers' settled' attempts requeuing' where
  worker := hworker
  requeued := hrequeued
  all n hn := by
    rcases h.all n hn with hmem | ⟨i, a, ha, rfl⟩
    · exact .inl (hsub hmem)
    · rcases hgone i a ha with hmem | hheld
      · exact .inl hmem
      · exact .inr ⟨i, a, hheld, rfl⟩

/-- More may be settled. -/
lemma mono (h : Covered workers settled attempts requeuing) (hsub : settled ⊆ settled') :
    Covered workers settled' attempts requeuing :=
  h.change _ hsub requeuing (fun i => (h.worker i).mono hsub) (fun _ _ ha => .inr ha)
    fun i hi a ha => hsub (h.requeued i hi a ha)

variable [DecidableEq ι] {i : ι} {w : Worker}

/-- One worker changes. -/
lemma setWorker (h : Covered workers settled attempts requeuing) (hsub : settled ⊆ settled')
    (hw : w.Covered settled')
    (hgone : ∀ a, (workers i).held = some a → a.number ∈ settled' ∨ w.held = some a)
    (hheld : ∀ a, w.held = some a → (workers i).held = some a) :
    Covered (Function.update workers i w) settled' attempts requeuing := by
  refine h.change _ hsub requeuing ?_ ?_ ?_
  · intro j
    by_cases hj : j = i
    · subst hj
      rwa [Function.update_self]
    · rw [Function.update_of_ne hj]
      exact (h.worker j).mono hsub
  · intro j a ha
    by_cases hj : j = i
    · subst hj
      rw [Function.update_self]
      exact hgone a ha
    · rw [Function.update_of_ne hj]
      exact .inr ha
  · intro j hmem a ha
    by_cases hj : j = i
    · subst hj
      rw [Function.update_self] at ha
      exact hsub (h.requeued j hmem a (hheld a ha))
    · rw [Function.update_of_ne hj] at ha
      exact hsub (h.requeued j hmem a ha)

/-- A task that goes on with its input. -/
lemma goOn (h : Covered workers settled attempts requeuing) (hw : w.Covered settled)
    (hheld : w.held = (workers i).held) :
    Covered (Function.update workers i w) settled attempts requeuing :=
  h.setWorker (List.Subset.refl _) hw (fun _ ha => .inr (hheld.trans ha)) fun _ ha => hheld ▸ ha

/-- A worker that is not retired pops an input. -/
lemma pop (h : Covered workers settled attempts requeuing)
    (hret : (workers i).retired = false) (hidle : (workers i).held = none)
    (hvictims : ∀ j ∈ requeuing, (workers j).retired = true) (x : Steal.Input) :
    Covered (Function.update workers i ((workers i).pop ⟨attempts, x⟩)) settled (attempts + 1)
      requeuing where
  worker j := by
    by_cases hj : j = i
    · subst hj
      rw [Function.update_self]
      exact .of_kept hret (by simp [Worker.pop]) (by simp [Worker.pop])
    · rw [Function.update_of_ne hj]
      exact h.worker j
  requeued j hmem a ha := by
    have hj : j ≠ i := by
      rintro rfl
      simp [hvictims j hmem] at hret
    rw [Function.update_of_ne hj] at ha
    exact h.requeued j hmem a ha
  all n hn := by
    by_cases hnew : n = attempts
    · subst hnew
      exact .inr ⟨i, ⟨n, x⟩, by rw [Function.update_self]; rfl, rfl⟩
    · rcases h.all n (by omega) with hmem | ⟨j, a, ha, rfl⟩
      · exact .inl hmem
      · refine .inr ⟨j, a, ?_, rfl⟩
        rw [Function.update_of_ne]
        · exact ha
        · rintro rfl
          simp [hidle] at ha

end Covered

/-! ### One step -/

section Step

variable {s t : Pool ι} {i : ι} {a : Attempt}

/-- A worker that is not retired finds its input. -/
lemma retired_of_takenOver (h : Sound s) (hheld : (s.workers i).held = some a)
    (htaken : (s.workers i).currentInput = none) : (s.workers i).retired = true := by
  by_contra hret
  have := (h.once.kept i a hheld (by simpa using hret)).1
  simp [htaken] at this

/-- After a failed call the worker waits for the lock with its input, or returns for being
retired. -/
lemma covered_handle (h : Sound s) (hc : (s.workers i).Covered s.settled)
    (hphase : (s.workers i).phase = .calling a) (error : WorkerError) :
    ((s.workers i).setPhase ((s.workers i).handle s.dynamicFuncRam a error)).Covered s.settled := by
  have hheld : (s.workers i).held = some a := by simp [Worker.held, hphase, Phase.attempt]
  constructor
  case retired =>
    intro b hb hret _
    have hb' : (s.workers i).held = some b := by
      rw [hheld, ← hb, Worker.held, Worker.setPhase, Worker.attempt_handle]
    exact hc.retired b hb' hret (by simp [hphase])
  case cleared =>
    intro b e he hnone
    have hret := Worker.retired_of_handle he
    simp [retired_of_takenOver h hheld hnone] at hret
  case returning =>
    intro b hb
    show (s.workers i).retired = true
    have htaken : (s.workers i).takenOver = true := by
      by_contra hne
      have hfalse : (s.workers i).takenOver = false := by simpa using hne
      rcases error with pkl | _ | _ | _ | message <;> rcases hb with hb | hb <;>
        simp only [Worker.setPhase, Worker.handle, hfalse, Bool.false_eq_true, if_false,
          reduceCtorEq] at hb <;>
        split_ifs at hb
    simp only [Worker.takenOver, Bool.or_eq_true, Option.isNone_iff_eq_none] at htaken
    rcases htaken with hnone | hret
    · exact retired_of_takenOver h hheld hnone
    · exact hret

/-- A worker that is about to return has its input settled. -/
lemma settled_of_returning (hc : (s.workers i).Covered s.settled)
    (hphase : (s.workers i).phase = .retiring a ∨ (s.workers i).phase = .finishing a none) :
    (s.workers i).retired = true ∧ (s.workers i).held = some a ∧ a.number ∈ s.settled := by
  have hret := hc.returning a hphase
  have hheld : (s.workers i).held = some a := by
    rcases hphase with hp | hp <;> simp [Worker.held, hp, Phase.attempt]
  refine ⟨hret, hheld, hc.retired a hheld hret fun e he => ?_⟩
  rcases hphase with hp | hp <;> simp [hp] at he

variable [DecidableEq ι]

/-- The inputs of workers in flight are settled as they are taken away. -/
lemma covered_victims (f : Worker → Worker) (requeuing' : List ι) {victims : List ι}
    (h : Sound s) (hc : Covered s.workers s.settled s.attempts s.requeuing)
    (hflight : ∀ i ∈ victims, (s.workers i).inFlight = true)
    (hf : ∀ w : Worker, (f w).held = w.held ∧ (f w).retired = true)
    (hsub : ∀ i ∈ requeuing', i ∈ victims) :
    Covered (fun i => if i ∈ victims then f (s.workers i) else s.workers i)
      ((s.currentInputs victims).map Attempt.number ++ s.settled) s.attempts requeuing' := by
  have hnew : ∀ i ∈ victims, ∃ a, (s.workers i).held = some a ∧
      a.number ∈ (s.currentInputs victims).map Attempt.number := by
    intro i hi
    have hflight := hflight i hi
    simp only [Worker.inFlight, Bool.and_eq_true, Option.isSome_iff_exists] at hflight
    obtain ⟨-, a, ha⟩ := hflight
    exact ⟨a, h.once.current i a ha, List.mem_map_of_mem (mem_currentInputs.2 ⟨i, hi, ha⟩)⟩
  refine hc.change _ (List.subset_append_right _ _) requeuing' ?_ ?_ ?_
  · intro i
    split_ifs with hi
    · obtain ⟨a, ha, hmem⟩ := hnew i hi
      exact .of_settled ((hf _).1.trans ha) (List.mem_append_left _ hmem) (hf _).2
    · exact (hc.worker i).mono (List.subset_append_right _ _)
  · intro i a ha
    right
    split_ifs
    · exact (hf _).1.trans ha
    · exact ha
  · intro i hi a ha
    rw [if_pos (hsub i hi), (hf _).1] at ha
    obtain ⟨b, hb, hmem⟩ := hnew i (hsub i hi)
    obtain rfl := Option.some.inj (hb.symm.trans ha)
    exact List.mem_append_left _ hmem

/-- A failed worker gets the lock. -/
lemma covered_retireAfterFailure [Fintype ι] (h : Sound s)
    (hc : Covered s.workers s.settled s.attempts s.requeuing) {e : WorkerError}
    (hlock : s.lock = none) (hphase : (s.workers i).phase = .lockWait a e) :
    Covered (s.retireAfterFailure i a e).workers (s.retireAfterFailure i a e).settled
      (s.retireAfterFailure i a e).attempts (s.retireAfterFailure i a e).requeuing := by
  have hheld : (s.workers i).held = some a := by simp [Worker.held, hphase, Phase.attempt]
  by_cases hcleared : (s.workers i).currentInput = none
  · -- somebody else has settled the input
    rw [Pool.retireAfterFailure, if_pos hcleared]
    have hsettled := (hc.worker i).cleared a e hphase hcleared
    have hret := retired_of_takenOver h hheld hcleared
    exact hc.goOn (.of_settled rfl hsettled hret) hheld.symm
  rw [Pool.retireAfterFailure, if_neg hcleared]
  have hsettle : ∀ w : Worker, w.held = some a → w.retired = true →
      Covered (Function.update s.workers i w) (a.number :: s.settled) s.attempts s.requeuing := by
    intro w hw hret
    refine hc.setWorker (List.subset_cons_self _ _) (.of_settled hw List.mem_cons_self hret) ?_ ?_
    · intro b hb
      obtain rfl := Option.some.inj (hheld.symm.trans hb)
      exact .inl List.mem_cons_self
    · intro b hb
      exact hheld.trans (hw.symm.trans hb)
  by_cases hlast : ∀ j, j ≠ i → (s.workers j).active = false
  · rw [if_pos hlast]
    exact hsettle _ rfl rfl
  · rw [if_neg hlast]
    have hcov := hsettle ((s.workers i).retire.setPhase (.retiring a)) rfl rfl
    rw [Sound.settled_of_lock hlock, Sound.requeuing_of_lock hlock] at hcov
    simpa [Pool.settled, Pool.batch, Pool.requeuing, Pool.requeue, Pool.setWorker] using hcov

/-- The attempt of a worker ends. -/
lemma covered_finish (hc : Covered s.workers s.settled s.attempts s.requeuing)
    {r : Option (CallResult × Bool)} (hphase : (s.workers i).phase = .finishing a r) :
    Covered (s.finish i a r).workers (s.finish i a r).settled (s.finish i a r).attempts
      (s.finish i a r).requeuing := by
  have hheld : (s.workers i).held = some a := by simp [Worker.held, hphase, Phase.attempt]
  -- the task lets the input go, which is settled by then
  have hdone : ∀ (w : Worker) (settled' : List ℕ), w.held = none → s.settled ⊆ settled' →
      a.number ∈ settled' →
      Covered (Function.update s.workers i w) settled' s.attempts s.requeuing := by
    intro w settled' hidle hsub hmem
    refine hc.setWorker hsub (.of_idle hidle) ?_ (by simp [hidle])
    intro b hb
    obtain rfl := Option.some.inj (hheld.symm.trans hb)
    exact .inl hmem
  rcases r with _ | ⟨r, stopAfterResult⟩
  · have hsettled := (settled_of_returning (hc.worker i) (.inr hphase)).2.2
    exact hdone _ _ rfl (List.Subset.refl _) hsettled
  · simp only [Pool.finish]
    split_ifs with hret
    · have hsettled := (hc.worker i).retired a hheld hret (by simp [hphase])
      exact hdone _ _ rfl (List.Subset.refl _) hsettled
    · have hidle : ((s.workers i).again stopAfterResult).held = none := by
        cases stopAfterResult <;> rfl
      exact hdone _ (a.number :: s.settled) hidle (List.subset_cons_self _ _) List.mem_cons_self

variable [Fintype ι]

/-- A safe step leaves every popped input settled or worked on. -/
lemma covered_step (h : Sound s) (hc : Covered s.workers s.settled s.attempts s.requeuing)
    {e : PoolEvent ι} (hsafe : Safe s e) (hstep : poolStep s e = some t) :
    Covered t.workers t.settled t.attempts t.requeuing := by
  cases e with
  | upload x =>
    obtain rfl := Option.some.inj hstep
    exact hc
  | giveLast =>
    obtain rfl := Option.some.inj hstep
    exact hc
  | join i =>
    simp only [poolStep, Option.ite_none_right_eq_some, Option.some.injEq] at hstep
    obtain ⟨⟨-, hreturned⟩, rfl⟩ := hstep
    have hidle : (s.workers i).held = none := by simp [Worker.held, hreturned, Phase.attempt]
    exact hc.goOn (.of_idle rfl) hidle.symm
  | retireIdle i =>
    simp only [poolStep, Option.ite_none_right_eq_some, Option.some.injEq] at hstep
    obtain ⟨⟨-, hwaiting⟩, rfl⟩ := hstep
    have hidle : (s.workers i).held = none := by simp [Worker.held, hwaiting, Phase.attempt]
    exact hc.goOn (.of_idle rfl) hidle.symm
  | throttle i throttled =>
    obtain rfl := Option.some.inj hstep
    exact hc.goOn { hc.worker i with } rfl
  | relocate i =>
    simp only [poolStep, Option.ite_none_right_eq_some, Option.some.injEq] at hstep
    obtain ⟨-, rfl⟩ := hstep
    refine hc.goOn ?_ rfl
    rcases hsafe with hret | hphase
    · exact { hc.worker i with
        retired := fun a ha _ => (hc.worker i).retired a ha hret
        returning := fun _ _ => rfl }
    · -- an idle worker, or one that will look for its input when it has the lock
      cases hp : (s.workers i).phase with
      | waiting => exact .of_idle (by simp [Worker.held, Worker.retire, hp, Phase.attempt])
      | returned => exact .of_idle (by simp [Worker.held, Worker.retire, hp, Phase.attempt])
      | lockWait a e =>
        have hheld : (s.workers i).retire.held = some a := by
          simp [Worker.held, Worker.retire, hp, Phase.attempt]
        exact { hc.worker i with
          retired := fun b hb _ hne => by
            obtain rfl := Option.some.inj (hheld.symm.trans hb)
            exact absurd hp (hne e)
          returning := fun _ _ => rfl }
      | calling | writingError | retiring | finishing => simp [hp, Phase.relocatable] at hphase
  | pop i =>
    simp only [poolStep] at hstep
    split at hstep
    · cases hstep
    · rename_i x rest hqueue
      simp only [Option.ite_none_right_eq_some, Option.some.injEq] at hstep
      obtain ⟨hwaiting, rfl⟩ := hstep
      exact hc.pop hsafe (by simp [Worker.held, hwaiting, Phase.attempt])
        (fun j hj => (h.once.victims j hj).2) x
  | callReturns i resultPkl =>
    simp only [poolStep] at hstep
    split at hstep
    · rename_i a hphase
      obtain rfl := Option.some.inj hstep
      have hheld : (s.workers i).held = some a := by simp [Worker.held, hphase, Phase.attempt]
      exact hc.goOn ((hc.worker i).finishing hheld (by simp [hphase]) _) hheld.symm
    · cases hstep
  | callRaises i error =>
    simp only [poolStep] at hstep
    split at hstep
    · rename_i a hphase
      obtain rfl := Option.some.inj hstep
      refine hc.goOn (covered_handle h (hc.worker i) hphase error) ?_
      show ((s.workers i).handle s.dynamicFuncRam a error).attempt = _
      rw [Worker.attempt_handle, Worker.held, hphase, Phase.attempt]
    · cases hstep
  | errorWritten i =>
    simp only [poolStep] at hstep
    split at hstep
    · rename_i a result stopAfterResult hphase
      obtain rfl := Option.some.inj hstep
      have hheld : (s.workers i).held = some a := by simp [Worker.held, hphase, Phase.attempt]
      exact hc.goOn ((hc.worker i).finishing hheld (by simp [hphase]) _) hheld.symm
    · cases hstep
  | acquire i =>
    simp only [poolStep] at hstep
    split at hstep
    · rename_i a error hphase
      simp only [Option.ite_none_right_eq_some, Option.some.injEq] at hstep
      obtain ⟨hlock, rfl⟩ := hstep
      exact covered_retireAfterFailure h hc hlock hphase
    · cases hstep
  | containerDeleted i =>
    simp only [poolStep] at hstep
    split at hstep
    · rename_i a hphase
      simp only [Option.ite_none_right_eq_some, Option.some.injEq] at hstep
      obtain ⟨hlock, rfl⟩ := hstep
      obtain ⟨hret, hheld, hmem⟩ := settled_of_returning (hc.worker i) (.inl hphase)
      have hcov := hc.goOn (w := (s.workers i).setPhase (.finishing a none))
        (.of_settled rfl hmem hret) hheld.symm
      simpa [Pool.settled, Pool.batch, Pool.requeuing, Pool.setWorker, hlock] using hcov
    · cases hstep
  | finish i =>
    simp only [poolStep] at hstep
    split at hstep
    · rename_i a r hphase
      obtain rfl := Option.some.inj hstep
      exact covered_finish hc hphase
    · cases hstep
  | pressureStart selected =>
    simp only [poolStep, Option.ite_none_right_eq_some, Option.some.injEq] at hstep
    obtain ⟨⟨hlock, -, -⟩, rfl⟩ := hstep
    have hflight : ∀ i ∈ s.pressureVictims selected, (s.workers i).inFlight = true := fun i hi =>
      (List.mem_filter.1 ((List.take_sublist _ _).subset hi)).2
    have hcov := covered_victims Worker.retire (s.pressureVictims selected) h hc hflight
      (fun _ => ⟨rfl, rfl⟩) fun _ hi => hi
    rw [Sound.settled_of_lock hlock] at hcov
    simpa [Pool.settled, Pool.batch, Pool.requeuing, Pool.requeue, Pool.setAll,
      Function.comp_def] using hcov
  | pressureClear =>
    simp only [poolStep] at hstep
    split at hstep
    · rename_i victims hlock
      obtain rfl := Option.some.inj hstep
      have hrequeuing : s.requeuing = victims := by simp [Pool.requeuing, hlock]
      have hcov := hc.change
        (fun i => if i ∈ victims then (s.workers i).clear else s.workers i)
        (List.Subset.refl _) [] ?_ ?_ (by simp)
      · simpa [Pool.settled, Pool.batch, Pool.requeuing, Pool.setAll, hlock] using hcov
      · intro i
        split_ifs with hi
        · rw [← hrequeuing] at hi
          rcases hheld : (s.workers i).held with _ | a
          · exact .of_idle hheld
          · exact .of_settled hheld (hc.requeued i hi a hheld) (h.once.victims i hi).2
        · exact hc.worker i
      · intro i a ha
        right
        split_ifs <;> exact ha
    · cases hstep
  | revokeStart cpuSaturated maxInputs victims =>
    simp only [poolStep, Option.ite_none_right_eq_some, Option.some.injEq] at hstep
    obtain ⟨⟨hlock, -, -, -, hflight, -⟩, rfl⟩ := hstep
    have hcov := covered_victims (fun w => w.retire.clear) [] h hc (fun i hi => (hflight i hi).1)
      (fun _ => ⟨rfl, rfl⟩) (by simp)
    rw [Sound.settled_of_lock hlock] at hcov
    exact hcov.mono List.perm_append_comm.subset
  | parkStart selected =>
    simp only [poolStep, Option.ite_none_right_eq_some, Option.some.injEq] at hstep
    obtain ⟨⟨hlock, -⟩, rfl⟩ := hstep
    simpa [Pool.settled, Pool.batch, Pool.requeuing, hlock] using hc
  | parkNext =>
    simp only [poolStep] at hstep
    split at hstep
    · rename_i i rest hlock
      obtain rfl := Option.some.inj hstep
      have hcov := hc.goOn (w := { s.workers i with throttled := true })
        { hc.worker i with } rfl
      simpa [Pool.settled, Pool.batch, Pool.requeuing, Pool.setWorker, hlock] using hcov
    · cases hstep
  | release killed =>
    rcases hlock : s.lock with _ | ⟨victims, _ | _⟩ | batch | ⟨_ | ⟨i, rest⟩⟩ | i <;>
      simp only [poolStep, hlock, Pool.release, reduceCtorEq, Option.some.injEq] at hstep
    · subst hstep
      simpa [Pool.settled, Pool.batch, Pool.requeuing, hlock] using hc
    · subst hstep
      have hbatch : s.batch = batch := by simp [Pool.batch, hlock]
      have hrequeuing : s.requeuing = [] := by simp [Pool.requeuing, hlock]
      rw [hrequeuing, Pool.settled, hbatch] at hc
      rcases hsafe with rfl | hnone
      · have hcov := hc.mono List.perm_append_comm.subset
        simpa [Pool.settled, Pool.batch, Pool.requeuing, Pool.handOver, Function.comp_def]
          using hcov
      · -- an empty batch may as well be lost
        obtain rfl : batch = [] := hbatch.symm.trans hnone
        cases killed <;>
          simpa [Pool.settled, Pool.batch, Pool.requeuing, Pool.handOver] using hc
    · subst hstep
      simpa [Pool.settled, Pool.batch, Pool.requeuing, hlock] using hc

end Step

/-! ### Main result -/

section Main

variable {s : Pool ι}

lemma covered_of_fresh (h : s.Fresh) : Covered s.workers s.settled s.attempts s.requeuing := by
  have hidle : ∀ i, (s.workers i).held = none := by
    intro i
    rcases h.workers i with hi | hi <;> simp [hi, Worker.fresh, Worker.held, Phase.attempt]
  constructor
  case worker => exact fun i => .of_idle (hidle i)
  case requeued => simp [hidle]
  case all => simp [h.attempts]

/-- **No input is lost** in runs without the three steps that lose one: once no task works on a
popped input any more, the input has been queued again, or its result delivered, or it is in a
batch that was handed over or is being revoked. -/
theorem no_input_lost [DecidableEq ι] [Fintype ι] (h : (pool ι).Reachable Safe s) {n : ℕ}
    (hn : n < s.attempts) (hended : ∀ i a, (s.workers i).held = some a → a.number ≠ n) :
    n ∈ s.accounts.map Prod.fst ∨ n ∈ s.batch.map Attempt.number := by
  have hsound : (pool ι).Invariant Safe Sound :=
    ⟨fun _ hs => sound_of_fresh hs, fun _ _ _ hs _ hstep => hs.step hstep⟩
  have hinv := hsound.strengthen (Q := fun s => Covered s.workers s.settled s.attempts s.requeuing)
    (fun _ hs => covered_of_fresh hs) fun _ _ _ hs hc hok hstep => covered_step hs hc hok hstep
  rcases (hinv.reachable h).2.all n hn with hmem | ⟨i, a, ha, hnumber⟩
  · exact List.mem_append.1 hmem
  · exact absurd hnumber (hended i a ha)

end Main

/-! ### Two runs -/

/-- The state after a retirement under pressure, whose steps are safe. -/
def safePool : Pool (Fin 2) :=
  (((pool (Fin 2)).guarded Safe).exec (idlePool _) retirementRun).get (by decide +kernel)

theorem no_input_lost_retirement :
    0 ∈ safePool.accounts.map Prod.fst ∨ 0 ∈ safePool.batch.map Attempt.number := by
  have hrun : (pool (Fin 2)).Run Safe (idlePool _) retirementRun safePool :=
    System.run_of_exec_guarded (Option.some_get _).symm
  exact no_input_lost ⟨_, _, fresh_idlePool _, hrun⟩ (by decide +kernel) (by decide +kernel)

/-- The monitor finds a worker's container gone before the worker's handlers do. -/
def relocationRun : List (PoolEvent Unit) :=
  [.pop (), .relocate (), .callRaises () (.other "Worker container stopped unexpectedly."),
    .finish ()]

/-- The state at its end. -/
def relocationPool : Pool Unit :=
  (((pool Unit).guarded System.always).exec (idlePool _) relocationRun).get (by decide +kernel)

theorem relocation_loses_input :
    ¬ ∀ (s : Pool Unit), (pool Unit).Reachable System.always s → ∀ n < s.attempts,
      (∀ i a, (s.workers i).held = some a → a.number ≠ n) →
      n ∈ s.accounts.map Prod.fst ∨ n ∈ s.batch.map Attempt.number := by
  intro h
  have hrun : (pool Unit).Run System.always (idlePool _) relocationRun relocationPool :=
    System.run_of_exec_guarded (Option.some_get _).symm
  have hkept := h _ ⟨_, _, fresh_idlePool _, hrun⟩ 0 (by decide +kernel) (by decide +kernel)
  revert hkept
  decide +kernel

end Burla.Workers
