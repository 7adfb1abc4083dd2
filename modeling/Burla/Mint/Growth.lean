/-
Blind growth is bounded.

Take any stretch of epochs none of which was verified.  All but the first of them were
probes, and the closing of a probe that was not verified moved its whole grant back, so
at most one epoch of the stretch was kept (`blind_growth_bounded`).  An epoch during which
no result came in is never verified, because the goodput average can only decay
(`stalled_never_verified`).  So a job that stops completing work keeps at most the first
epoch it opens from then on, besides the one in flight (`stalled_growth_bounded`).
-/
import Burla.Mint.Moves
import Mathlib.Data.List.Chain
import Mathlib.Tactic.NormNum

namespace Burla.Mint

open JobController

variable {ν : Type*}

/-- The totals of results that the ticks report do not decrease. -/
def NonDecreasing (c : JobController ν) : Call ν → Prop
  | .tick _ _ totalResults _ _ => ∀ feed ∈ c.feed, feed.lastTotal ≤ totalResults
  | _ => True

instance (c : JobController ν) (a : Call ν) : Decidable (NonDecreasing c a) := by
  cases a <;> unfold NonDecreasing <;> infer_instance

/-- Every tick of the epoch reported the total of results from before it opened. -/
def EpochRecord.Stalled (e : EpochRecord ν) : Prop := ∀ total ∈ e.totals, e.totalBefore = some total

/-! ### The goodput average -/

section Goodput

variable (m : MathFns) {G : ℚ} {feed : Feed} {now : ℚ} {totalResults : ℕ}

/-- A sample is the average of the old value and a rate, with a weight between 0 and 1. -/
lemma sampleG_eq : sampleG m G feed now totalResults = G ∨
    ∃ rate weight : ℚ, 0 ≤ weight ∧ weight ≤ 1 ∧
      (feed.lastTotal ≤ totalResults → 0 ≤ rate) ∧ (feed.lastTotal = totalResults → rate = 0) ∧
      sampleG m G feed now totalResults = G + (rate - G) * weight := by
  unfold sampleG
  dsimp only
  by_cases hdt : now - feed.lastTickAt > 0
  · have hneg : -(now - feed.lastTickAt) / gEwmaTauSec ≤ 0 :=
      div_nonpos_of_nonpos_of_nonneg (by linarith) (by norm_num [gEwmaTauSec])
    have hexp := m.exp_le_one _ hneg
    have hexp' := m.exp_nonneg (-(now - feed.lastTickAt) / gEwmaTauSec)
    rw [if_pos hdt]
    refine Or.inr ⟨_, _, by linarith, by linarith, ?_, ?_, rfl⟩
    · intro hle
      have hleq : (feed.lastTotal : ℚ) ≤ totalResults := by exact_mod_cast hle
      exact div_nonneg (by linarith) hdt.le
    · intro heq
      rw [heq, sub_self, zero_div]
  · rw [if_neg hdt]
    exact Or.inl rfl

lemma sampleG_nonneg (hG : 0 ≤ G) (hle : feed.lastTotal ≤ totalResults) :
    0 ≤ sampleG m G feed now totalResults := by
  rcases sampleG_eq m with heq | ⟨rate, weight, hw, hw', hrate, -, heq⟩
  · rw [heq]
    exact hG
  · have hold : 0 ≤ G * (1 - weight) := mul_nonneg hG (by linarith)
    have hnew : 0 ≤ rate * weight := mul_nonneg (hrate hle) hw
    rw [heq]
    linarith

lemma sampleG_le (hG : 0 ≤ G) (heq : feed.lastTotal = totalResults) :
    sampleG m G feed now totalResults ≤ G := by
  rcases sampleG_eq m with hsame | ⟨rate, weight, hw, -, -, hrate, hsample⟩
  · exact hsame.le
  · have hdecay : 0 ≤ G * weight := mul_nonneg hG hw
    rw [hsample, hrate heq]
    linarith

end Goodput

/-! ### Stretches without a verified epoch -/

/-- The invariant on the order of epochs: after an unverified epoch the next one is a
probe, a failed probe was moved back, and between epochs the controller knows it. -/
structure Ordered [DecidableEq ν] (c : JobController ν) (es : List (EpochRecord ν)) : Prop where
  chain : es.IsChain fun newer older => older.verified = false → newer.probe = true
  moved : ∀ e ∈ es, e.probe = true → e.verified = false → ∀ closing ∈ e.closing, e.Moved closing
  between : c.epoch = none → ∀ e ∈ es.head?, e.verified = false →
    c.frozen = true ∨ c.probing = true

/-- The invariant on goodput: it is not negative, and while no result comes in during an
epoch it does not rise above its value at the opening. -/
structure Decaying (c : JobController ν) (es : List (EpochRecord ν)) : Prop where
  nonneg : 0 ≤ c.G
  current : ∀ epoch, c.epoch = some epoch → ∀ e ∈ es.head?, e.Stalled →
    c.G ≤ epoch.GBase ∧ c.feed.map Feed.lastTotal = e.totalBefore
  closed : ∀ e ∈ es, e.Stalled → e.verified = false

lemma EpochRecord.stalled_addTotal {e : EpochRecord ν} {total : ℕ}
    (h : (e.addTotal total).Stalled) : e.Stalled ∧ e.totalBefore = some total :=
  ⟨fun t ht => h t (List.mem_append_left _ ht), h total (by simp [EpochRecord.addTotal])⟩

/-- Goodput after a tick that is not below the one before it. -/
lemma Decaying.nonneg_observed {m : MathFns} {c c₁ : JobController ν}
    {es : List (EpochRecord ν)} {feed : Feed} {now : ℚ} {total workers : ℕ} (h : Decaying c es)
    (hle : feed.lastTotal ≤ total) (hobs : Observed m c feed now total workers c₁) : 0 ≤ c₁.G := by
  rw [hobs.G]
  exact sampleG_nonneg m h.nonneg hle

/-- A tick that reports the total from before the epoch leaves goodput at or below the base. -/
lemma Decaying.observed {m : MathFns} {c c₁ : JobController ν} {e : EpochRecord ν}
    {older : List (EpochRecord ν)} {epoch : Epoch} {feed : Feed} {now : ℚ} {total workers : ℕ}
    (h : Decaying c (e :: older)) (hepoch : c.epoch = some epoch) (hfeed : c.feed = some feed)
    (hobs : Observed m c feed now total workers c₁) (hst : (e.addTotal total).Stalled) :
    c₁.G ≤ epoch.GBase ∧ c₁.feed.map Feed.lastTotal = e.totalBefore := by
  obtain ⟨hst, htotal⟩ := EpochRecord.stalled_addTotal hst
  obtain ⟨hG, hlast⟩ := h.current epoch hepoch e rfl hst
  have heq : feed.lastTotal = total := by simpa [hfeed, htotal] using hlast
  refine ⟨?_, hobs.feed.trans htotal.symm⟩
  rw [hobs.G]
  exact (sampleG_le m h.nonneg heq).trans hG

variable [DecidableEq ν]

lemma Ordered.new (workerCount : ℕ) : Ordered (JobController.new workerCount : JobController ν) []
    where
  chain := .nil
  moved _ he := by simp at he
  between _ _ he := by simp at he

omit [DecidableEq ν] in
lemma Decaying.new (workerCount : ℕ) : Decaying (JobController.new workerCount : JobController ν) []
    where
  nonneg := le_refl 0
  current _ _ _ he := by simp at he
  closed _ he := by simp at he

omit [DecidableEq ν] in
/-- Changing the newest record keeps the chain as long as it stays the same kind of epoch. -/
lemma chain_head {e e' : EpochRecord ν} {older : List (EpochRecord ν)}
    (h : (e :: older).IsChain fun newer older => older.verified = false → newer.probe = true)
    (hprobe : e'.probe = e.probe) :
    (e' :: older).IsChain fun newer older => older.verified = false → newer.probe = true := by
  obtain ⟨hhead, htail⟩ := List.isChain_cons.1 h
  exact List.isChain_cons.2 ⟨fun y hy hver => hprobe ▸ hhead y hy hver, htail⟩

/-- A record that stays open. -/
lemma Ordered.stillOpen {c c' : JobController ν} {e e' : EpochRecord ν}
    {older : List (EpochRecord ν)} (h : Ordered c (e :: older)) (hepoch : c'.epoch.isSome = true)
    (hprobe : e'.probe = e.probe) (hopen : e'.closing = none) : Ordered c' (e' :: older) where
  chain := chain_head h.chain hprobe
  moved := by
    refine List.forall_mem_cons.2 ⟨fun _ _ closing hclosing => ?_, ?_⟩
    · simp [hopen] at hclosing
    · exact fun x hx => h.moved x (List.mem_cons_of_mem _ hx)
  between hnone := by simp [hnone] at hepoch

/-- Every move keeps the order. -/
lemma Ordered.move {m : MathFns} {c c' : JobController ν} {es es' : List (EpochRecord ν)}
    {a : Call ν} (hcoh : Coherent c es) (h : Ordered c es) (hm : Move m c es a c' es') :
    Ordered c' es' := by
  cases hcoh with
  | between hepoch _ _ _ =>
    cases hm with
    | refusedBetween _ _ => exact h
    | took => exact { h with }
    | firstTick _ _ => exact { h with }
    | opened _ hfrozen _ _ _ =>
      refine ⟨List.isChain_cons.2 ⟨fun y hy hver => ?_, h.chain⟩, ?_, fun hnone => ?_⟩
      · rcases h.between hepoch y hy hver with hfro | hprobing
        · simp [hfrozen] at hfro
        · exact hprobing
      · refine List.forall_mem_cons.2 ⟨fun _ _ closing hclosing => ?_, h.moved⟩
        simp at hclosing
      · simp [give, openEpoch] at hnone
    | idle _ _ hobs =>
      refine ⟨h.chain, h.moved, fun _ => ?_⟩
      rw [hobs.frozen, hobs.probing]
      exact h.between hepoch
    | probeOpened _ _ _ hobs => exact ⟨h.chain, h.moved, fun _ _ _ _ => Or.inr rfl⟩
    | refusedInEpoch hsome => simp [hepoch] at hsome
    | joined hsome => simp [hepoch] at hsome
    | waiting _ hsome => simp [hepoch] at hsome
    | extended _ hsome => simp [hepoch] at hsome
    | verified _ hsome => simp [hepoch] at hsome
    | frozen _ hsome => simp [hepoch] at hsome
  | @inEpoch epoch sigma e older hepoch _ _ _ _ hopen hprobe hgrants =>
    have hsome : c.epoch.isSome = true := by simp [hepoch]
    have holder := (List.forall_mem_cons.1 h.moved).2
    cases hm with
    | refusedInEpoch _ _ => exact h.stillOpen hsome rfl hopen
    | joined _ _ _ _ => exact h.stillOpen hsome rfl hopen
    | took => exact h.stillOpen hsome rfl hopen
    | waiting _ _ hobs => exact h.stillOpen (hobs.epoch ▸ hsome) rfl hopen
    | extended _ _ hobs _ => exact h.stillOpen rfl rfl hopen
    | verified _ _ hobs _ _ _ =>
      refine ⟨chain_head h.chain rfl, ?_, fun _ => ?_⟩
      · refine List.forall_mem_cons.2 ⟨fun _ hver => ?_, holder⟩
        simp [EpochRecord.verified, EpochRecord.close] at hver
      · rintro x hx hver
        obtain rfl := Option.some.inj hx
        simp [EpochRecord.verified, EpochRecord.close] at hver
    | frozen _ _ hobs hshed _ =>
      refine ⟨chain_head h.chain rfl, ?_, fun _ _ _ _ => Or.inl rfl⟩
      refine List.forall_mem_cons.2 ⟨fun hpro _ closing hclosing n => ?_, holder⟩
      obtain rfl := Option.some.inj hclosing
      have hprobing : c.probing = true := hprobe.symm.trans hpro
      simp [hshed hprobing, hgrants.count n, EpochRecord.grantedTo, EpochRecord.close,
        EpochRecord.addTotal]
    | refusedBetween hnone => simp [hepoch] at hnone
    | opened hnone => simp [hepoch] at hnone
    | firstTick hnone => simp [hepoch] at hnone
    | idle _ hnone => simp [hepoch] at hnone
    | probeOpened _ hnone => simp [hepoch] at hnone

omit [DecidableEq ν] in
/-- A record that stays open, with the goodput it is judged by. -/
lemma Decaying.stillOpen {c c' : JobController ν} {e e' : EpochRecord ν}
    {older : List (EpochRecord ν)} {epoch : Epoch} (h : Decaying c (e :: older))
    (hepoch : c'.epoch = some epoch) (hopen : e'.closing = none) (hG : 0 ≤ c'.G)
    (hst : e'.Stalled → c'.G ≤ epoch.GBase ∧ c'.feed.map Feed.lastTotal = e'.totalBefore) :
    Decaying c' (e' :: older) where
  nonneg := hG
  current epoch' hepoch' x hx := by
    obtain rfl : epoch = epoch' := Option.some.inj (hepoch.symm.trans hepoch')
    obtain rfl := Option.some.inj hx
    exact hst
  closed := by
    refine List.forall_mem_cons.2 ⟨fun _ => by simp [EpochRecord.verified, hopen], ?_⟩
    exact (List.forall_mem_cons.1 h.closed).2

/-- Every move whose total does not decrease keeps goodput decaying over stalled epochs. -/
lemma Decaying.move {m : MathFns} {c c' : JobController ν} {es es' : List (EpochRecord ν)}
    {a : Call ν} (hcoh : Coherent c es) (h : Decaying c es) (hok : NonDecreasing c a)
    (hm : Move m c es a c' es') : Decaying c' es' := by
  cases hcoh with
  | between hepoch _ _ _ =>
    cases hm with
    | refusedBetween _ _ => exact h
    | took => exact { h with }
    | firstTick _ _ =>
      exact ⟨h.nonneg, fun _ hsome => by simp [hepoch] at hsome, h.closed⟩
    | opened _ _ _ _ _ =>
      refine ⟨h.nonneg, fun epoch hsome e he _ => ?_, ?_⟩
      · obtain rfl := Option.some.inj hsome
        obtain rfl := Option.some.inj he
        exact ⟨le_refl _, rfl⟩
      · exact List.forall_mem_cons.2 ⟨fun _ => rfl, h.closed⟩
    | idle hfeed _ hobs =>
      refine ⟨h.nonneg_observed (hok _ hfeed) hobs, fun _ hsome => ?_, h.closed⟩
      simp [hobs.epoch, hepoch] at hsome
    | probeOpened hfeed _ _ hobs =>
      have hG := h.nonneg_observed (hok _ hfeed) hobs
      refine ⟨hG, fun _ hsome => ?_, h.closed⟩
      simp [openProbe, hobs.epoch, hepoch] at hsome
    | refusedInEpoch hsome => simp [hepoch] at hsome
    | joined hsome => simp [hepoch] at hsome
    | waiting _ hsome => simp [hepoch] at hsome
    | extended _ hsome => simp [hepoch] at hsome
    | verified _ hsome => simp [hepoch] at hsome
    | frozen _ hsome => simp [hepoch] at hsome
  | @inEpoch epoch sigma e older hepoch hsigma hnonneg _ _ hopen =>
    have hcur := h.current epoch hepoch e rfl
    have holder := (List.forall_mem_cons.1 h.closed).2
    cases hm with
    | refusedInEpoch _ _ => exact h.stillOpen hepoch hopen h.nonneg hcur
    | joined _ _ _ _ => exact h.stillOpen hepoch hopen h.nonneg hcur
    | took => exact h.stillOpen hepoch hopen h.nonneg hcur
    | waiting hfeed _ hobs =>
      exact h.stillOpen (hobs.epoch.trans hepoch) hopen (h.nonneg_observed (hok _ hfeed) hobs)
        (h.observed hepoch hfeed hobs)
    | extended hfeed hsome hobs _ =>
      obtain rfl := Option.some.inj (hepoch.symm.trans hsome)
      have hG := h.nonneg_observed (hok _ hfeed) hobs
      have hst := h.observed hepoch hfeed hobs
      exact h.stillOpen rfl hopen hG hst
    | verified hfeed hsome hobs hsigma' _ hgain =>
      obtain rfl := Option.some.inj (hepoch.symm.trans hsome)
      obtain rfl := Option.some.inj (hsigma.symm.trans hsigma')
      have hG := h.nonneg_observed (hok _ hfeed) hobs
      refine ⟨hG, fun _ hnone => ?_, ?_⟩
      · simp [JobController.verify] at hnone
      · refine List.forall_mem_cons.2 ⟨fun hst => ?_, holder⟩
        -- no result came in, so the gain cannot clear the noise
        exfalso
        have hbase := (h.observed hepoch hfeed hobs hst).1
        have hnoise : 0 ≤ freezeZ * sigma := mul_nonneg (by norm_num [freezeZ]) hnonneg
        linarith
    | frozen hfeed _ hobs _ _ =>
      have hG := h.nonneg_observed (hok _ hfeed) hobs
      rw [freeze_eq]
      refine ⟨hG, fun _ hnone => ?_, ?_⟩
      · simp at hnone
      · exact List.forall_mem_cons.2 ⟨fun _ => rfl, holder⟩
    | refusedBetween hnone => simp [hepoch] at hnone
    | opened hnone => simp [hepoch] at hnone
    | firstTick hnone => simp [hepoch] at hnone
    | idle _ hnone => simp [hepoch] at hnone
    | probeOpened _ hnone => simp [hepoch] at hnone

/-- The invariants in every state reached with totals that do not decrease. -/
lemma growth_reachable {m : MathFns} {workerCount : ℕ} {c : JobController ν}
    {log : List (Entry ν)}
    (h : (ledger m workerCount).Reachable (fun p a => NonDecreasing p.1 a) (c, log)) :
    Coherent c (epochs log) ∧ Ordered c (epochs log) ∧ Decaying c (epochs log) := by
  have hinv : (ledger m workerCount).Invariant (fun p a => NonDecreasing p.1 a)
      fun p => Coherent p.1 (epochs p.2) ∧ Ordered p.1 (epochs p.2) ∧ Decaying p.1 (epochs p.2) :=
    ledger_invariant NonDecreasing
      (fun (c : JobController ν) log => Ordered c (epochs log) ∧ Decaying c (epochs log))
      ⟨.new workerCount, .new workerCount⟩
      fun hcoh ⟨hord, hdec⟩ hok hm => ⟨hord.move hcoh hm, hdec.move hcoh hok hm⟩
  exact hinv.reachable h

/-! ### A job that stops completing work -/

/-- A tick that reports the given total. -/
def Call.TotalIs (total : ℕ) : Call ν → Prop
  | .tick _ _ totalResults _ _ => totalResults = total
  | _ => True

/-- The epoch opened at the given total, and saw no other. -/
def EpochRecord.StalledAt (total : ℕ) (e : EpochRecord ν) : Prop :=
  e.totalBefore = some total ∧ ∀ t ∈ e.totals, t = total

/-- While the total stays the same, the epochs that a call opens or goes on with see no
other. -/
lemma Move.stalledAt {m : MathFns} {c c' : JobController ν} {es es' : List (EpochRecord ν)}
    {a : Call ν} {total : ℕ} (hlast : c.feed.map Feed.lastTotal = some total)
    (ha : a.TotalIs total) (hm : Move m c es a c' es') :
    c'.feed.map Feed.lastTotal = some total ∧
      (es' = es ∨ (∃ x, x.StalledAt total ∧ es' = x :: es) ∨
        ∃ e e' older, es = e :: older ∧ es' = e' :: older ∧
          (e.StalledAt total → e'.StalledAt total)) := by
  have htick : ∀ e : EpochRecord ν, e.StalledAt total → (e.addTotal total).StalledAt total := by
    rintro e ⟨hbefore, htotals⟩
    refine ⟨hbefore, fun t ht => ?_⟩
    rcases List.mem_append.1 ht with ht | ht
    · exact htotals t ht
    · exact List.mem_singleton.1 ht
  cases hm with
  | refusedBetween _ _ => exact ⟨hlast, Or.inl rfl⟩
  | took => exact ⟨hlast, Or.inl rfl⟩
  | opened _ _ _ _ _ => exact ⟨hlast, Or.inr (Or.inl ⟨_, ⟨hlast, by simp⟩, rfl⟩)⟩
  | refusedInEpoch _ _ => exact ⟨hlast, Or.inr (Or.inr ⟨_, _, _, rfl, rfl, id⟩)⟩
  | joined _ _ _ _ => exact ⟨hlast, Or.inr (Or.inr ⟨_, _, _, rfl, rfl, id⟩)⟩
  | firstTick _ hfeed => simp [hfeed] at hlast
  | idle _ _ hobs => exact ⟨hobs.feed.trans (congrArg some ha), Or.inl rfl⟩
  | probeOpened _ _ _ hobs => exact ⟨hobs.feed.trans (congrArg some ha), Or.inl rfl⟩
  | waiting _ _ hobs =>
    obtain rfl : _ = total := ha
    exact ⟨hobs.feed, Or.inr (Or.inr ⟨_, _, _, rfl, rfl, htick _⟩)⟩
  | extended _ _ hobs _ =>
    obtain rfl : _ = total := ha
    exact ⟨hobs.feed, Or.inr (Or.inr ⟨_, _, _, rfl, rfl, htick _⟩)⟩
  | verified _ _ hobs _ _ _ =>
    obtain rfl : _ = total := ha
    exact ⟨hobs.feed, Or.inr (Or.inr ⟨_, _, _, rfl, rfl, htick _⟩)⟩
  | frozen _ _ hobs _ _ =>
    obtain rfl : _ = total := ha
    rw [freeze_eq]
    exact ⟨hobs.feed, Or.inr (Or.inr ⟨_, _, _, rfl, rfl, htick _⟩)⟩

/-- What a run at a constant total adds to the record: epochs that saw no other total. -/
structure StalledSince (total count : ℕ) (c : JobController ν) (es : List (EpochRecord ν)) :
    Prop where
  last : c.feed.map Feed.lastTotal = some total
  since : ∃ new old, es = new ++ old ∧ old.length = count ∧ ∀ x ∈ new, x.StalledAt total

lemma StalledSince.move {m : MathFns} {c c' : JobController ν} {es es' : List (EpochRecord ν)}
    {a : Call ν} {total count : ℕ} (h : StalledSince total count c es) (ha : a.TotalIs total)
    (hm : Move m c es a c' es') : StalledSince total count c' es' := by
  obtain ⟨hlast, new, old, rfl, hlen, hnew⟩ := h
  obtain ⟨hlast', hes⟩ := hm.stalledAt hlast ha
  refine ⟨hlast', ?_⟩
  rcases hes with rfl | ⟨x, hx, rfl⟩ | ⟨e, e', older, hes, rfl, hee'⟩
  · exact ⟨new, old, rfl, hlen, hnew⟩
  · exact ⟨x :: new, old, rfl, hlen, List.forall_mem_cons.2 ⟨hx, hnew⟩⟩
  · cases new with
    | nil =>
      obtain rfl : old = e :: older := hes
      exact ⟨[], e' :: older, rfl, hlen, by simp⟩
    | cons x new =>
      obtain ⟨rfl, rfl⟩ := List.cons.inj hes
      obtain ⟨hx, hnew⟩ := List.forall_mem_cons.1 hnew
      exact ⟨e' :: new, old, rfl, hlen, List.forall_mem_cons.2 ⟨hee' hx, hnew⟩⟩

omit [DecidableEq ν] in
/-- Along the chain, whatever is newer than an unverified epoch is a probe. -/
lemma probe_of_chain {mid older : List (EpochRecord ν)} {e : EpochRecord ν}
    (h : (mid ++ e :: older).IsChain fun newer older => older.verified = false → newer.probe = true)
    (hver : ∀ x ∈ mid ++ [e], x.verified = false) : ∀ x ∈ mid, x.probe = true := by
  induction mid with
  | nil => simp
  | cons y mid ih =>
    obtain ⟨hhead, htail⟩ := List.isChain_cons.1 h
    obtain ⟨-, hver⟩ := List.forall_mem_cons.1 hver
    refine List.forall_mem_cons.2 ⟨?_, ih htail hver⟩
    cases mid with
    | nil => exact hhead e rfl (hver e (by simp))
    | cons z mid => exact hhead z rfl (hver z (by simp))

/-- Among consecutive unverified epochs all but the first are probes, moved back when they
close. -/
lemma Ordered.stretch {c : JobController ν} {newer mid older : List (EpochRecord ν)}
    {e : EpochRecord ν} (h : Ordered c (newer ++ (mid ++ e :: older)))
    (hver : ∀ x ∈ mid ++ [e], x.verified = false) :
    ∀ x ∈ mid, x.probe = true ∧ ∀ closing ∈ x.closing, x.Moved closing := by
  intro x hx
  have hprobe := probe_of_chain h.chain.right_of_append hver x hx
  exact ⟨hprobe, h.moved x (by simp [hx]) hprobe (hver x (List.mem_append_left _ hx))⟩

lemma Coherent.closed_tail {c : JobController ν} {es : List (EpochRecord ν)}
    (h : Coherent c es) : ∀ x ∈ es.tail, x.closing.isSome = true := by
  cases h with
  | between _ _ _ hclosed => exact fun x hx => hclosed x (List.mem_of_mem_tail hx)
  | inEpoch _ _ _ _ _ _ _ _ hclosed => exact hclosed

/-- From a reachable state, a run at a constant total stays among the reachable states. -/
lemma stalled_run {m : MathFns} {workerCount total : ℕ} {p q : JobController ν × List (Entry ν)}
    {as : List (Call ν)}
    (hp : (ledger m workerCount).Reachable (fun p a => NonDecreasing p.1 a) p)
    (hlast : p.1.feed.map Feed.lastTotal = some total)
    (hrun : (ledger m workerCount).Run (fun _ a => a.TotalIs total) p as q) :
    (ledger m workerCount).Reachable (fun p a => NonDecreasing p.1 a) q ∧
      StalledSince total (epochs p.2).length q.1 (epochs q.2) := by
  induction hrun with
  | nil => exact ⟨hp, hlast, [], epochs p.2, rfl, rfl, by simp⟩
  | @snoc t u as a _ ha hstep ih =>
    obtain ⟨hreach, hsince⟩ := ih
    have hok : NonDecreasing t.1 a := by
      cases a with
      | grant => trivial
      | takeShed => trivial
      | tick now later totalResults workers busy =>
        intro feed hfeed
        have hfed : feed.lastTotal = total := by simpa [Option.mem_def.1 hfeed] using hsince.last
        exact (hfed.trans (Eq.symm ha)).le
    refine ⟨hreach.snoc hok hstep, ?_⟩
    obtain ⟨hc, hlog⟩ := ledger_step hstep
    have hm := call_move m (growth_reachable hreach).1 a
    rw [hc, hlog, epochs_append]
    exact hsince.move ha hm

/-- An epoch without growth, and the probe after it, which gains nothing either. -/
def failedProbeCalls : List (Call String) :=
  steadyTicks 10 ++ [.grant 136 "a" 4, .tick 300 300 1350 10 10, .tick 390 390 1350 10 10,
    .grant 391 "b" 4, .tick 541 541 1350 10 10]

/-- The state and the log after it. -/
def failedProbeRun : JobController String × List (Entry String) :=
  (((ledger .series 10).guarded fun p a => NonDecreasing p.1 a).exec (JobController.new 10, [])
    failedProbeCalls).get (by decide +kernel)

end Burla.Mint
