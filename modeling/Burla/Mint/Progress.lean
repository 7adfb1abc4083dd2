/-
The mint controller never gets stuck.

In every reachable state exactly one of three things holds: an epoch is open and can be
judged; or growth is allowed and the next grant opens an epoch; or the controller is
frozen with a probe scheduled at most `probeIntervalMaxSec` after the verdict.  And an
epoch that is due is closed after at most `epochMaxExtensions` more ticks.
-/
import Burla.Mint.Moves
import Mathlib.Tactic.NormNum

namespace Burla.Mint

open JobController

variable {ν : Type*}

/-- An epoch is open, with the noise its verdict needs. -/
def InEpoch (c : JobController ν) : Prop := ∃ epoch, c.epoch = some epoch ∧ epoch.sigma ≠ none

/-- No epoch is open, and a grant would open one. -/
def Ready (c : JobController ν) : Prop :=
  c.epoch = none ∧ c.frozen = false ∧ 1 ≤ c.allowance

/-- Growth is frozen, and the next probe is scheduled not too long after the verdict. -/
def FrozenUntilProbe (c : JobController ν) (es : List (EpochRecord ν)) : Prop :=
  c.frozen = true ∧ c.epoch = none ∧ c.allowance = 0 ∧
    ∃ e ∈ es.head?, ∃ closing ∈ e.closing, ∃ probeAt ∈ c.probeAt,
      probeAt ≤ closing.closedAt + probeIntervalMaxSec

/-- Exactly one of three. -/
def ExactlyOne (p q r : Prop) : Prop :=
  (p ∧ ¬ q ∧ ¬ r) ∨ (¬ p ∧ q ∧ ¬ r) ∨ (¬ p ∧ ¬ q ∧ r)

/-- The invariant: between epochs there is something to wait for, and in an epoch the
extensions count the overdue ticks. -/
structure Live (c : JobController ν) (es : List (EpochRecord ν)) : Prop where
  probeInterval : c.probeInterval ≤ probeIntervalMaxSec
  between : c.epoch = none → Ready c ∨ FrozenUntilProbe c es
  extensions : ∀ epoch, c.epoch = some epoch → epoch.extensions ≤ epochMaxExtensions ∧
    ∀ e ∈ es.head?, e.leftOpen ≤ epoch.extensions
  leftOpen : ∀ e ∈ es, e.leftOpen ≤ epochMaxExtensions

lemma nextProbeInterval_le {c : JobController ν} (h : c.probeInterval ≤ probeIntervalMaxSec) :
    c.nextProbeInterval ≤ probeIntervalMaxSec := by
  unfold nextProbeInterval
  split_ifs
  · exact min_le_right _ _
  · exact h

lemma Live.new (workerCount : ℕ) : Live (JobController.new workerCount : JobController ν) [] where
  probeInterval := by norm_num [JobController.new, probeIntervalSec, probeIntervalMaxSec]
  between _ := Or.inl ⟨rfl, rfl, le_trans (by decide) (le_max_left _ _)⟩
  extensions _ h := by simp [JobController.new] at h
  leftOpen _ h := by simp at h

lemma Live.inEpoch {c : JobController ν} {e : EpochRecord ν} {older : List (EpochRecord ν)}
    {epoch : Epoch} (hinterval : c.probeInterval ≤ probeIntervalMaxSec)
    (hepoch : c.epoch = some epoch) (hext : epoch.extensions ≤ epochMaxExtensions)
    (hleft : e.leftOpen ≤ epoch.extensions) (holder : ∀ x ∈ older, x.leftOpen ≤ epochMaxExtensions) :
    Live c (e :: older) where
  probeInterval := hinterval
  between hnone := by simp [hepoch] at hnone
  extensions epoch' hepoch' := by
    obtain rfl : epoch = epoch' := Option.some.inj (hepoch.symm.trans hepoch')
    exact ⟨hext, by simpa using hleft⟩
  leftOpen := List.forall_mem_cons.2 ⟨hleft.trans hext, holder⟩

/-- Measuring changes nothing of what the controller waits for between epochs. -/
lemma Live.observed {m : MathFns} {c c' : JobController ν} {es : List (EpochRecord ν)}
    {feed : Feed} {now : ℚ} {total workers : ℕ} (h : Live c es) (hepoch : c.epoch = none)
    (hobs : Observed m c feed now total workers c') : Live c' es where
  probeInterval := hobs.probeInterval ▸ h.probeInterval
  between _ := by
    unfold Ready FrozenUntilProbe
    rw [hobs.frozen, hobs.epoch, hobs.allowance, hobs.probeAt]
    exact h.between hepoch
  extensions _ hsome := by simp [hobs.epoch, hepoch] at hsome
  leftOpen := h.leftOpen

lemma one_le_allowance_openProbe (c : JobController ν) : 1 ≤ c.openProbe.allowance :=
  le_trans (by decide) (le_max_left allowanceMinSlots (roundHalfEven (probeFraction * c.W)))

/-- A verified epoch had grown the job, so half of the workers is a real allowance. -/
lemma one_le_allowance_verify {c : JobController ν} {epoch : Epoch} (strong : Bool)
    (hgrowth : minGrowth epoch ≤ ((c.W - epoch.WBase : ℤ) : ℚ)) :
    1 ≤ (c.verify strong).allowance := by
  have hfour : (4 : ℚ) ≤ ((c.W - epoch.WBase : ℤ) : ℚ) := (le_max_left _ _).trans hgrowth
  have hW : (4 : ℤ) ≤ c.W := by
    have hdW : (4 : ℤ) ≤ c.W - epoch.WBase := by exact_mod_cast hfour
    omega
  have hhalf : (1 : ℤ) ≤ roundHalfEven (allowanceMaxFraction * c.W) := by
    refine le_roundHalfEven ?_
    have hWq : (4 : ℚ) ≤ c.W := by exact_mod_cast hW
    norm_num [allowanceMaxFraction]
    linarith
  have hbase : (1 : ℤ) ≤ baseAllowance c.W := le_trans (by decide) (le_max_left _ _)
  exact le_min (hbase.trans (le_max_left _ _)) hhalf

variable [DecidableEq ν]

/-- Every move keeps the controller live. -/
lemma Live.move {m : MathFns} {c c' : JobController ν} {es es' : List (EpochRecord ν)}
    {a : Call ν} (hcoh : Coherent c es) (h : Live c es) (hm : Move m c es a c' es') :
    Live c' es' := by
  cases hcoh with
  | between hepoch _ _ _ =>
    cases hm with
    | refusedBetween _ _ => exact h
    | took => exact { h with }
    | firstTick _ _ => exact { h with }
    | opened _ _ _ _ _ =>
      exact .inEpoch h.probeInterval rfl (Nat.zero_le _) (le_refl _) h.leftOpen
    | idle _ _ hobs => exact h.observed hepoch hobs
    | probeOpened _ _ _ hobs =>
      exact
        { h.observed hepoch hobs with
          between := fun _ =>
            Or.inl ⟨hobs.epoch.trans hepoch, rfl, one_le_allowance_openProbe _⟩
          extensions := fun _ hnone => by
            simp [openProbe, hobs.epoch, hepoch] at hnone }
    | refusedInEpoch hsome => simp [hepoch] at hsome
    | joined hsome => simp [hepoch] at hsome
    | waiting _ hsome => simp [hepoch] at hsome
    | extended _ hsome => simp [hepoch] at hsome
    | verified _ hsome => simp [hepoch] at hsome
    | frozen _ hsome => simp [hepoch] at hsome
  | @inEpoch epoch sigma e older hepoch _ _ _ hfrozen =>
    obtain ⟨hext, hleft⟩ := h.extensions epoch hepoch
    obtain ⟨-, holder⟩ := List.forall_mem_cons.1 h.leftOpen
    replace hleft : e.leftOpen ≤ epoch.extensions := by simpa using hleft
    cases hm with
    | refusedInEpoch _ _ => exact .inEpoch h.probeInterval hepoch hext hleft holder
    | joined _ _ _ _ => exact .inEpoch h.probeInterval hepoch hext hleft holder
    | took => exact .inEpoch h.probeInterval hepoch hext hleft holder
    | waiting _ _ hobs =>
      exact .inEpoch (hobs.probeInterval ▸ h.probeInterval) (hobs.epoch.trans hepoch) hext hleft
        holder
    | extended _ hsome hobs hlt =>
      obtain rfl := Option.some.inj (hepoch.symm.trans hsome)
      refine .inEpoch (hobs.probeInterval ▸ h.probeInterval) rfl hlt ?_ holder
      have hone : ∀ b : Bool, (if b then 1 else 0) ≤ 1 := by decide
      exact Nat.add_le_add hleft (hone _)
    | @verified _ _ _ _ _ _ _ _ _ _ _ strong _ _ hobs _ hgrowth _ =>
      exact
        { probeInterval := by
            norm_num [JobController.verify, probeIntervalSec, probeIntervalMaxSec]
          between := fun _ =>
            Or.inl ⟨rfl, hobs.frozen.trans hfrozen, one_le_allowance_verify strong hgrowth⟩
          extensions := fun _ hnone => by simp [JobController.verify] at hnone
          leftOpen := List.forall_mem_cons.2 ⟨hleft.trans hext, holder⟩ }
    | @frozen _ _ now later at_ _ _ _ _ c₁ _ _ _ hobs _ hat =>
      have hnext := nextProbeInterval_le (hobs.probeInterval ▸ h.probeInterval)
      rw [freeze_eq]
      exact
        { probeInterval := hnext
          between := fun _ => Or.inr ⟨rfl, rfl, rfl, _, rfl, _, rfl, _, rfl, add_le_add hat hnext⟩
          extensions := fun _ hnone => by simp at hnone
          leftOpen := List.forall_mem_cons.2 ⟨hleft.trans hext, holder⟩ }
    | refusedBetween hnone => simp [hepoch] at hnone
    | opened hnone => simp [hepoch] at hnone
    | firstTick hnone => simp [hepoch] at hnone
    | idle _ hnone => simp [hepoch] at hnone
    | probeOpened _ hnone => simp [hepoch] at hnone

/-- The two invariants hold in every reachable state. -/
lemma live_reachable {m : MathFns} {workerCount : ℕ} {c : JobController ν} {log : List (Entry ν)}
    (h : (ledger m workerCount).Reachable System.always (c, log)) :
    Coherent c (epochs log) ∧ Live c (epochs log) := by
  have hinv : (ledger m workerCount).Invariant (fun p a => System.always p.1 a)
      fun p => Coherent p.1 (epochs p.2) ∧ Live p.1 (epochs p.2) :=
    ledger_invariant System.always (fun (c : JobController ν) log => Live c (epochs log))
      (Live.new workerCount)
      fun hcoh hlive _ hm => hlive.move hcoh hm
  exact hinv.reachable h

/-- **The controller never gets stuck.**  In every reachable state exactly one holds: an
epoch is open and can be judged; a grant would open one; growth is frozen until a probe
that is not far off.  Of the overdue ticks of an epoch, at most `epochMaxExtensions` left
it open. -/
theorem never_stuck {m : MathFns} {workerCount : ℕ} {c : JobController ν} {log : List (Entry ν)}
    (h : (ledger m workerCount).Reachable System.always (c, log)) :
    ExactlyOne (InEpoch c) (Ready c) (FrozenUntilProbe c (epochs log)) ∧
      ∀ e ∈ epochs log, e.leftOpen ≤ epochMaxExtensions := by
  obtain ⟨hcoh, hlive⟩ := live_reachable h
  refine ⟨?_, hlive.leftOpen⟩
  generalize epochs log = es at hcoh hlive
  cases hcoh with
  | between hepoch =>
    have hnot : ¬ InEpoch c := by simp [InEpoch, hepoch]
    rcases hlive.between hepoch with hready | hfrozen
    · have hnf : ¬ FrozenUntilProbe c es := fun hf => by simpa [hready.2.1] using hf.1
      exact Or.inr (Or.inl ⟨hnot, hready, hnf⟩)
    · have hnr : ¬ Ready c := fun hr => by simpa [hfrozen.1] using hr.2.1
      exact Or.inr (Or.inr ⟨hnot, hnr, hfrozen⟩)
  | @inEpoch _ _ e older hepoch hsigma =>
    have hin : InEpoch c := ⟨_, hepoch, by simp [hsigma]⟩
    have hnr : ¬ Ready c := fun hr => by simpa [hepoch] using hr.1
    have hnf : ¬ FrozenUntilProbe c (e :: older) := fun hf => by simpa [hepoch] using hf.2.1
    exact Or.inl ⟨hin, hnr, hnf⟩

/-- An epoch that gains no workers and is closed at the no-growth deadline. -/
def noGrowthCalls : List (Call String) :=
  steadyTicks 10 ++ [.grant 136 "a" 4, .tick 200 200 2000 10 10, .tick 300 300 3000 10 10]

/-- The state and the log after it. -/
def noGrowthRun : JobController String × List (Entry String) :=
  (((ledger .series 10).guarded System.always).exec (JobController.new 10, []) noGrowthCalls).get
    (by decide +kernel)

theorem never_stuck_noGrowthRun :
    noGrowthRun.1.frozen = true ∧
      ExactlyOne (InEpoch noGrowthRun.1) (Ready noGrowthRun.1)
        (FrozenUntilProbe noGrowthRun.1 (epochs noGrowthRun.2)) ∧
      ∀ e ∈ epochs noGrowthRun.2, e.leftOpen ≤ epochMaxExtensions := by
  have hreach : (ledger .series 10).Reachable System.always noGrowthRun :=
    reachable_ledger (Option.some_get _).symm
  exact ⟨by decide +kernel, never_stuck hreach⟩

end Burla.Mint
