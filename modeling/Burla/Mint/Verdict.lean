/-
What one call can do to the mint controller.

`Outcome` lists the results of `advance`, each with the guard it was reached through,
and `GrantOutcome` those of `grant`.  `tick_outcome` brings a tick down to its
measurements, of which `Observed` says what they can change, followed by an `Outcome`.
The invariants of the controller are proved from these lists and never go back to the
branches.
-/
import Burla.Mint.Controller

namespace Burla.Mint.JobController

variable {ν : Type*}

/-- The probe interval after an epoch was judged without being verified. -/
def nextProbeInterval (c : JobController ν) : ℚ :=
  if c.probing then min (c.probeInterval * 2) probeIntervalMaxSec else c.probeInterval

lemma backOff_eq (c : JobController ν) :
    c.backOff = { c with probeInterval := c.nextProbeInterval } := by
  unfold backOff nextProbeInterval
  split <;> rfl

section Verdicts

variable [DecidableEq ν]

/-- The state in which every judged and not verified epoch leaves the controller: the
slots it `shed` or not, the clock reading it froze at. -/
lemma freeze_eq (c : JobController ν) (shed : Bool) (at_ : ℚ) :
    (if shed then c.shedEpoch else c).backOff.freeze at_ =
      { c with
        frozen := true
        probing := false
        allowance := 0
        probeInterval := c.nextProbeInterval
        probeAt := some (at_ + c.nextProbeInterval)
        epoch := none
        epochGrants := ∅
        pendingSheds :=
          if shed then Tally.merge c.pendingSheds c.epochGrants else c.pendingSheds } := by
  cases shed <;> simp [backOff_eq, freeze, shedEpoch, nextProbeInterval]

/-! ### Verdicts -/

/-- The results of `advance`. -/
inductive Outcome (c : JobController ν) (now later : ℚ) :
    Except PyError (Option DebugEvent) → JobController ν → Prop
  | probeOpened {event : DebugEvent} (hev : event.isVerified = false)
      (hfrozen : c.frozen = true) : Outcome c now later (.ok (some event)) c.openProbe
  | idle (hepoch : c.epoch = none) : Outcome c now later (.ok none) c
  | waiting {epoch : Epoch} (hepoch : c.epoch = some epoch)
      (hearly : now < epoch.nextVerdictAt ∨
        now - epoch.openedAt < epochNoGrowthDeadlineSec) : Outcome c now later (.ok none) c
  | verified {epoch : Epoch} {event : DebugEvent} {sigma : ℚ} {strong : Bool}
      (hev : event.isVerified = true) (hepoch : c.epoch = some epoch)
      (hsigma : epoch.sigma = some sigma)
      (hgrowth : minGrowth epoch ≤ ((c.W - epoch.WBase : ℤ) : ℚ))
      (hgain : freezeZ * sigma < c.G - epoch.GBase) :
      Outcome c now later (.ok (some event)) (c.verify strong)
  | extended {epoch : Epoch} {event : DebugEvent} (hev : event.isVerified = false)
      (hepoch : c.epoch = some epoch) (hext : epoch.extensions < epochMaxExtensions) :
      Outcome c now later (.ok (some event)) (c.extend epoch now)
  | frozen {epoch : Epoch} {event : DebugEvent} {shed : Bool} {at_ : ℚ}
      (hev : event.isVerified = false) (hepoch : c.epoch = some epoch)
      (hprobe : c.probing = true → shed = true) (hat : at_ ≤ max now later) :
      Outcome c now later (.ok (some event))
        ((if shed then c.shedEpoch else c).backOff.freeze at_)
  | raised {epoch : Epoch} {e : PyError} (hepoch : c.epoch = some epoch)
      (hsigma : epoch.sigma = none) : Outcome c now later (.error e) c

lemma judgeEpoch_outcome (c : JobController ν) {epoch : Epoch} (hepoch : c.epoch = some epoch)
    (now later : ℚ) :
    Outcome c now later (c.judgeEpoch epoch now later).1 (c.judgeEpoch epoch now later).2 := by
  unfold judgeEpoch
  dsimp only
  by_cases hearly : now < epoch.nextVerdictAt
  · rw [if_pos hearly]
    exact .waiting hepoch (Or.inl hearly)
  rw [if_neg hearly]
  by_cases hgrowth : (((c.W : ℤ) - epoch.WBase : ℤ) : ℚ) < minGrowth epoch
  · rw [if_pos hgrowth]
    by_cases hage : now - epoch.openedAt < epochNoGrowthDeadlineSec
    · rw [if_pos hage]
      exact .waiting hepoch (Or.inr hage)
    · rw [if_neg hage]
      -- too little growth: everything is shed, probe or not
      exact .frozen rfl hepoch (fun _ => rfl) (le_max_left now later)
  rw [if_neg hgrowth]
  cases hsigma : epoch.sigma with
  | none => exact .raised hepoch hsigma
  | some sigma =>
    dsimp only
    generalize (if c.W = 0 then (0 : ℚ) else c.G / c.W) = averagePerWorker
    generalize hbar : kappa * averagePerWorker * (((c.W : ℤ) - epoch.WBase : ℤ) : ℚ) = bar
    by_cases hver : c.G - epoch.GBase ≥ bar ∧ c.G - epoch.GBase > freezeZ * sigma
    · rw [if_pos hver]
      exact .verified rfl hepoch hsigma (not_lt.1 hgrowth) hver.2
    rw [if_neg hver]
    by_cases hext : decide (c.G - epoch.GBase ≥ bar - freezeZ * sigma) = true ∧
        epoch.extensions < epochMaxExtensions
    · rw [if_pos hext]
      exact .extended rfl hepoch hext.2
    rw [if_neg hext]
    refine .frozen ?_ hepoch (fun hprobe => by rw [hprobe, Bool.or_true])
      (le_max_right now later)
    split_ifs <;> rfl

lemma advance_outcome (c : JobController ν) (now later : ℚ) :
    Outcome c now later (c.advance now later).1 (c.advance now later).2 := by
  unfold advance
  by_cases hdue : c.probeDue now = true
  · rw [if_pos hdue]
    simp only [probeDue, Bool.and_eq_true] at hdue
    exact .probeOpened rfl hdue.1
  rw [if_neg hdue]
  cases hepoch : c.epoch with
  | none => exact .idle hepoch
  | some epoch => exact judgeEpoch_outcome c hepoch now later

end Verdicts

/-! ### Measurements -/

/-- What the measurements of a tick change: the measured fields, and nothing that a
verdict decides on besides them. -/
structure Observed (m : MathFns) (c : JobController ν) (feed : Feed) (now : ℚ)
    (totalResults workerCount : ℕ) (c' : JobController ν) : Prop where
  frozen : c'.frozen = c.frozen
  probing : c'.probing = c.probing
  probeAt : c'.probeAt = c.probeAt
  probeInterval : c'.probeInterval = c.probeInterval
  allowance : c'.allowance = c.allowance
  epoch : c'.epoch = c.epoch
  epochGrants : c'.epochGrants = c.epochGrants
  pendingSheds : c'.pendingSheds = c.pendingSheds
  W : c'.W = workerCount
  G : c'.G = sampleG m c.G feed now totalResults
  feed : c'.feed.map Feed.lastTotal = some totalResults
  blocks : sigmaBlocks ≤ c.blocks.length → sigmaBlocks ≤ c'.blocks.length

lemma Observed.feed_ne_none {m : MathFns} {c c' : JobController ν} {feed : Feed} {now : ℚ}
    {totalResults workerCount : ℕ} (h : Observed m c feed now totalResults workerCount c') :
    c'.feed ≠ none := by
  intro hnone
  simpa [hnone] using h.feed

lemma le_length_pushBlock {blocks : List ℚ} (rate : ℚ) (h : sigmaBlocks ≤ blocks.length) :
    sigmaBlocks ≤ (pushBlock blocks rate).length := by
  simp only [pushBlock, List.length_drop, List.length_append, List.length_singleton]
  omega

lemma measure_observed (m : MathFns) (c : JobController ν) (feed : Feed) (now : ℚ)
    (totalResults workerCount busyCount : ℕ) :
    Observed m c feed now totalResults workerCount
      (c.measure m feed now totalResults workerCount busyCount) := by
  unfold measure
  dsimp only
  split_ifs with hblock hbusy
  · exact ⟨rfl, rfl, rfl, rfl, rfl, rfl, rfl, rfl, rfl, rfl, rfl, le_length_pushBlock _⟩
  · exact ⟨rfl, rfl, rfl, rfl, rfl, rfl, rfl, rfl, rfl, rfl, rfl, id⟩
  · exact ⟨rfl, rfl, rfl, rfl, rfl, rfl, rfl, rfl, rfl, rfl, rfl, id⟩

lemma Observed.logState {m : MathFns} {c c' : JobController ν} {feed : Feed} {now : ℚ}
    {totalResults workerCount : ℕ} (h : Observed m c feed now totalResults workerCount c') :
    Observed m c feed now totalResults workerCount (c'.logState now).2 := by
  unfold JobController.logState
  split_ifs
  · exact { h with }
  · exact h

lemma logState_events (c : JobController ν) (now : ℚ) :
    (c.logState now).1.any DebugEvent.isVerified = false := by
  unfold JobController.logState
  split_ifs <;> rfl

lemma le_openingAllowance (c : JobController ν) : c.allowance ≤ c.openingAllowance := by
  unfold openingAllowance
  split_ifs
  · exact le_refl _
  · exact le_max_left _ _

/-- Enough blocks give the noise of the baseline. -/
lemma sigmaDg_baseline (m : MathFns) {blocks : List ℚ} (hblocks : sigmaBlocks ≤ blocks.length) :
    ∃ sigma, sigmaDg m (blocks.drop (blocks.length - baselineNoiseBlocks)) = some sigma ∧
      0 ≤ sigma := by
  have hlen : ¬ (blocks.drop (blocks.length - baselineNoiseBlocks)).length < 4 := by
    simp only [sigmaBlocks] at hblocks
    simp only [List.length_drop, baselineNoiseBlocks]
    omega
  exact ⟨_, if_neg hlen, mul_nonneg (m.sqrt_nonneg _) (m.sqrt_nonneg _)⟩

/-! ### Ticks and grants -/

variable [DecidableEq ν]

/-- Does a verdict say that the epoch was verified? -/
def verdictVerified : Except PyError (Option DebugEvent) → Bool
  | .ok (some event) => event.isVerified
  | _ => false

/-- Is a verified epoch among the events that a tick returns? -/
def eventsVerified : Except PyError (List DebugEvent) → Bool
  | .ok events => events.any DebugEvent.isVerified
  | .error _ => false

lemma tick_first (m : MathFns) {c : JobController ν} (hfeed : c.feed = none) (now later : ℚ)
    (totalResults workerCount busyCount : ℕ) :
    ∃ feed, (c.tick m now later totalResults workerCount busyCount).2 =
      { c with W := workerCount, busy := busyCount, feed := some feed } := by
  simp only [tick, hfeed]
  exact ⟨_, rfl⟩

/-- A tick after the first measures, and then advances. -/
lemma tick_outcome (m : MathFns) {c : JobController ν} {feed : Feed} (hfeed : c.feed = some feed)
    (now later : ℚ) (totalResults workerCount busyCount : ℕ) :
    ∃ c₁ verdict,
      Observed m c feed now totalResults workerCount c₁ ∧
      Outcome c₁ now later verdict (c.tick m now later totalResults workerCount busyCount).2 ∧
      eventsVerified (c.tick m now later totalResults workerCount busyCount).1 =
        verdictVerified verdict := by
  set c₁ := ((c.measure m feed now totalResults workerCount busyCount).logState now).2 with hc₁
  refine ⟨c₁, (c₁.advance now later).1, (measure_observed m c feed ..).logState, ?_, ?_⟩
  · have hadv := advance_outcome c₁ now later
    have htick : (c.tick m now later totalResults workerCount busyCount).2 =
        (c₁.advance now later).2 := by
      simp only [tick, hfeed, ← hc₁]
      split <;> simp_all
    rw [htick]
    exact hadv
  · have hnone := logState_events (c.measure m feed now totalResults workerCount busyCount) now
    simp only [tick, hfeed, ← hc₁]
    rcases c₁.advance now later with ⟨_ | _ | event, c₂⟩
    · rfl
    · simp [eventsVerified, verdictVerified, hnone]
    · simp [eventsVerified, verdictVerified, hnone]

/-- The results of `grant`. -/
inductive GrantOutcome (m : MathFns) (c : JobController ν) (now : ℚ) (instanceName : ν)
    (slotsRequested : ℤ) : ℤ × JobController ν → Prop
  | refused : GrantOutcome m c now instanceName slotsRequested (0, c)
  | joined {epoch : Epoch} (hfrozen : c.frozen = false) (hallow : 0 < c.allowance)
      (hepoch : c.epoch = some epoch) (hnew : instanceName ∉ c.epochGrants) :
      GrantOutcome m c now instanceName slotsRequested (c.give instanceName slotsRequested)
  | opened (hfrozen : c.frozen = false) (hallow : 0 < c.allowance)
      (hblocks : sigmaBlocks ≤ c.blocks.length) (hepoch : c.epoch = none) :
      GrantOutcome m c now instanceName slotsRequested
        ((c.openEpoch m now).give instanceName slotsRequested)

lemma grant_outcome (m : MathFns) (c : JobController ν) (now : ℚ) (instanceName : ν)
    (slotsRequested : ℤ) :
    GrantOutcome m c now instanceName slotsRequested
      (c.grant m now instanceName slotsRequested) := by
  unfold grant
  by_cases hstop : (c.frozen || decide (c.allowance ≤ 0)) = true
  · rw [if_pos hstop]
    exact .refused
  rw [if_neg hstop]
  simp only [Bool.or_eq_true, decide_eq_true_eq, not_or, Bool.not_eq_true, not_le] at hstop
  by_cases hblocks : c.blocks.length < sigmaBlocks
  · rw [if_pos hblocks]
    exact .refused
  rw [if_neg hblocks]
  cases hepoch : c.epoch with
  | none => exact .opened hstop.1 hstop.2 (not_lt.1 hblocks) hepoch
  | some epoch =>
    dsimp only
    split_ifs with hwindow hmem
    · exact .refused
    · exact .refused
    · exact .joined hstop.1 hstop.2 hepoch hmem

/-! ### The books -/

/-- What a tick does to the books: nothing, or it closes the epoch and either leaves its
grants with the nodes or moves all of them to `pending_sheds`. -/
lemma tick_books (m : MathFns) (c : JobController ν) (now later : ℚ)
    (totalResults workerCount busyCount : ℕ) {c' : JobController ν}
    (h : (c.tick m now later totalResults workerCount busyCount).2 = c') :
    (c'.epoch.isSome = c.epoch.isSome ∧ c'.epochGrants = c.epochGrants ∧
        c'.pendingSheds = c.pendingSheds) ∨
      (c.epoch.isSome = true ∧ c'.epoch = none ∧ c'.epochGrants = ∅ ∧
        (c'.pendingSheds = c.pendingSheds ∨
          c'.pendingSheds = Tally.merge c.pendingSheds c.epochGrants)) := by
  cases hfeed : c.feed with
  | none =>
    obtain ⟨feed, hfirst⟩ := tick_first m hfeed now later totalResults workerCount busyCount
    rw [← h, hfirst]
    exact Or.inl ⟨rfl, rfl, rfl⟩
  | some feed =>
    obtain ⟨c₁, verdict, hobs, hout, -⟩ :=
      tick_outcome m hfeed now later totalResults workerCount busyCount
    rw [h] at hout
    rw [← hobs.epoch, ← hobs.epochGrants, ← hobs.pendingSheds]
    cases hout with
    | probeOpened _ _ => exact Or.inl ⟨rfl, rfl, rfl⟩
    | idle _ => exact Or.inl ⟨rfl, rfl, rfl⟩
    | waiting _ _ => exact Or.inl ⟨rfl, rfl, rfl⟩
    | extended _ hepoch _ => exact Or.inl ⟨by simp [extend, hepoch], rfl, rfl⟩
    | raised _ _ => exact Or.inl ⟨rfl, rfl, rfl⟩
    | verified _ hepoch _ _ _ => exact Or.inr ⟨by simp [hepoch], rfl, rfl, Or.inl rfl⟩
    | @frozen _ _ shed _ _ hepoch _ _ =>
      rw [freeze_eq]
      refine Or.inr ⟨by simp [hepoch], rfl, rfl, ?_⟩
      cases shed with
      | false => exact Or.inl rfl
      | true => exact Or.inr rfl

/-- What a grant does to the books of an instance that has no slots booked between epochs. -/
lemma grant_books (m : MathFns) (c : JobController ν) (now : ℚ) (instanceName self : ν)
    {slotsRequested : ℤ} (hpos : 0 < slotsRequested)
    (hidle : c.epoch = none → c.epochGrants.count self = 0) {p : ℤ × JobController ν}
    (h : c.grant m now instanceName slotsRequested = p) :
    0 ≤ p.1 ∧ p.2.pendingSheds = c.pendingSheds ∧
      p.2.epochGrants.count self =
        c.epochGrants.count self + (if self = instanceName then p.1 else 0) ∧
      (p.2.epoch = none → c.epoch = none ∧ p.1 = 0) := by
  have hgrant := grant_outcome m c now instanceName slotsRequested
  rw [h] at hgrant
  cases hgrant with
  | refused => exact ⟨le_refl 0, rfl, by simp, fun hnone => ⟨hnone, rfl⟩⟩
  | joined _ hallow hepoch _ =>
    refine ⟨(lt_min hpos hallow).le, rfl, Tally.count_add .., fun hnone => ?_⟩
    simp [give, hepoch] at hnone
  | opened _ hallow _ hepoch =>
    have hopening : 0 < c.openingAllowance := hallow.trans_le (le_openingAllowance c)
    refine ⟨(lt_min hpos hopening).le, rfl, ?_, fun hnone => ?_⟩
    · simp [give, openEpoch, Tally.count_add, hidle hepoch]
    · simp [give, openEpoch] at hnone

end Burla.Mint.JobController
