/-
What a call does to the controller and to the record of epochs together.

`Coherent` relates the two: the newest record is open exactly while the controller has an
epoch, and then tells what the controller holds of it.  `Move` lists what a call can do
to a coherent pair; `coherent_step` is the step lemma that the invariants of the next
modules start from, and `coherent_run` carries them over whole runs.
-/
import Burla.Mint.History

namespace Burla.Mint

open JobController

variable {ν : Type*} [DecidableEq ν]

/-- The controller and the record of epochs agree on which epoch is open and what it has
granted; an open epoch knows its noise, and the controller that opened it was fed. -/
inductive Coherent (c : JobController ν) : List (EpochRecord ν) → Prop
  | between {es : List (EpochRecord ν)} (hepoch : c.epoch = none) (hgrants : c.epochGrants = ∅)
      (hfeed : c.feed = none → c.blocks = [])
      (hclosed : ∀ x ∈ es, x.closing.isSome = true) : Coherent c es
  | inEpoch {epoch : Epoch} {sigma : ℚ} {e : EpochRecord ν} {older : List (EpochRecord ν)}
      (hepoch : c.epoch = some epoch) (hsigma : epoch.sigma = some sigma) (hnonneg : 0 ≤ sigma)
      (hfeed : c.feed.isSome = true) (hfrozen : c.frozen = false)
      (hopen : e.closing = none) (hprobe : e.probe = c.probing) (hgrants : e.Holds c.epochGrants)
      (hclosed : ∀ x ∈ older, x.closing.isSome = true) : Coherent c (e :: older)

/-- What a call does to a coherent pair. -/
inductive Move (m : MathFns) (c : JobController ν) :
    List (EpochRecord ν) → Call ν → JobController ν → List (EpochRecord ν) → Prop
  | refusedBetween {es : List (EpochRecord ν)} {now : ℚ} {n : ν} {k : ℤ}
      (hepoch : c.epoch = none) (hret : (c.grant m now n k).1 = 0) :
      Move m c es (.grant now n k) c es
  | refusedInEpoch {e : EpochRecord ν} {older : List (EpochRecord ν)} {now : ℚ} {n : ν} {k : ℤ}
      (hepoch : c.epoch.isSome = true) (hret : (c.grant m now n k).1 = 0) :
      Move m c (e :: older) (.grant now n k) c (e.addGrant n 0 :: older)
  | joined {e : EpochRecord ν} {older : List (EpochRecord ν)} {now : ℚ} {n : ν} {k : ℤ}
      (hepoch : c.epoch.isSome = true) (hallow : 0 < c.allowance) (hnew : n ∉ c.epochGrants)
      (hret : (c.grant m now n k).1 = min k c.allowance) :
      Move m c (e :: older) (.grant now n k) (c.give n k).2
        (e.addGrant n (min k c.allowance) :: older)
  | opened {es : List (EpochRecord ν)} {now : ℚ} {n : ν} {k : ℤ} (hepoch : c.epoch = none)
      (hfrozen : c.frozen = false) (hallow : 0 < c.allowance)
      (hblocks : sigmaBlocks ≤ c.blocks.length)
      (hret : (c.grant m now n k).1 = min k c.openingAllowance) :
      Move m c es (.grant now n k) ((c.openEpoch m now).give n k).2
        ({ allowance := c.openingAllowance
           probe := c.probing
           totalBefore := c.feed.map Feed.lastTotal
           grants := [(n, min k c.openingAllowance)] } :: es)
  | took {es : List (EpochRecord ν)} {n : ν} : Move m c es (.takeShed n) (c.takeShed n).2 es
  | firstTick {es : List (EpochRecord ν)} {now later : ℚ} {total workers busy : ℕ} {feed : Feed}
      (hepoch : c.epoch = none) (hfeed : c.feed = none) :
      Move m c es (.tick now later total workers busy)
        { c with W := workers, busy := busy, feed := some feed } es
  | idle {es : List (EpochRecord ν)} {now later : ℚ} {total workers busy : ℕ} {feed : Feed}
      {c₁ : JobController ν} (hfeed : c.feed = some feed) (hepoch : c.epoch = none)
      (hobs : Observed m c feed now total workers c₁) :
      Move m c es (.tick now later total workers busy) c₁ es
  | probeOpened {es : List (EpochRecord ν)} {now later : ℚ} {total workers busy : ℕ} {feed : Feed}
      {c₁ : JobController ν} (hfeed : c.feed = some feed) (hepoch : c.epoch = none)
      (hfrozen : c.frozen = true) (hobs : Observed m c feed now total workers c₁) :
      Move m c es (.tick now later total workers busy) c₁.openProbe es
  | waiting {e : EpochRecord ν} {older : List (EpochRecord ν)} {now later : ℚ}
      {total workers busy : ℕ} {feed : Feed} {c₁ : JobController ν} (hfeed : c.feed = some feed)
      (hepoch : c.epoch.isSome = true) (hobs : Observed m c feed now total workers c₁) :
      Move m c (e :: older) (.tick now later total workers busy) c₁
        (e.addTotal total :: older)
  | extended {e : EpochRecord ν} {older : List (EpochRecord ν)} {now later : ℚ}
      {total workers busy : ℕ} {feed : Feed} {c₁ : JobController ν} {epoch : Epoch}
      (hfeed : c.feed = some feed) (hepoch : c.epoch = some epoch)
      (hobs : Observed m c feed now total workers c₁)
      (hext : epoch.extensions < epochMaxExtensions) :
      Move m c (e :: older) (.tick now later total workers busy) (c₁.extend epoch now)
        ((e.addTotal total).addLeftOpen (if epoch.overdue now then 1 else 0) :: older)
  | verified {e : EpochRecord ν} {older : List (EpochRecord ν)} {now later : ℚ}
      {total workers busy : ℕ} {feed : Feed} {c₁ : JobController ν} {epoch : Epoch} {sigma : ℚ}
      {strong : Bool} (hfeed : c.feed = some feed) (hepoch : c.epoch = some epoch)
      (hobs : Observed m c feed now total workers c₁) (hsigma : epoch.sigma = some sigma)
      (hgrowth : minGrowth epoch ≤ ((c₁.W - epoch.WBase : ℤ) : ℚ))
      (hgain : freezeZ * sigma < c₁.G - epoch.GBase) :
      Move m c (e :: older) (.tick now later total workers busy) (c₁.verify strong)
        ((e.addTotal total).close
          { verified := true, closedAt := max now later
            pendingBefore := c.pendingSheds, pendingAfter := c.pendingSheds } :: older)
  | frozen {e : EpochRecord ν} {older : List (EpochRecord ν)} {now later at_ : ℚ}
      {total workers busy : ℕ} {feed : Feed} {c₁ : JobController ν} {shed : Bool}
      (hfeed : c.feed = some feed) (hepoch : c.epoch.isSome = true)
      (hobs : Observed m c feed now total workers c₁) (hprobe : c.probing = true → shed = true)
      (hat : at_ ≤ max now later) :
      Move m c (e :: older) (.tick now later total workers busy)
        ((if shed then c₁.shedEpoch else c₁).backOff.freeze at_)
        ((e.addTotal total).close
          { verified := false, closedAt := max now later
            pendingBefore := c.pendingSheds
            pendingAfter :=
              if shed then Tally.merge c.pendingSheds c.epochGrants
              else c.pendingSheds } :: older)

/-! ### Every call is one of the moves -/

omit [DecidableEq ν] in
/-- While no epoch is open, an answer or a tick adds nothing to the record. -/
lemma record_of_closed {es : List (EpochRecord ν)} {entry : Entry ν}
    (hclosed : ∀ x ∈ es, x.closing.isSome = true)
    (hentry : (∃ n k, entry = .granted n k) ∨ ∃ total, entry = .ticked total) :
    record es entry = es := by
  cases es with
  | nil => rcases hentry with ⟨n, k, rfl⟩ | ⟨total, rfl⟩ <;> rfl
  | cons e older =>
    have he := hclosed e List.mem_cons_self
    rcases hentry with ⟨n, k, rfl⟩ | ⟨total, rfl⟩ <;> simp [record, he]

lemma GrantOutcome.move {m : MathFns} {c : JobController ν} {es : List (EpochRecord ν)}
    (h : Coherent c es) {now : ℚ} {n : ν} {k : ℤ} {p : ℤ × JobController ν}
    (hp : c.grant m now n k = p) (hgrant : GrantOutcome m c now n k p) :
    Move m c es (.grant now n k) p.2 ((noteGrant c n p).foldl record es) := by
  cases h with
  | between hepoch _ _ hclosed =>
    cases hgrant with
    | refused =>
      have hrec : record es (.granted n 0) = es := record_of_closed hclosed (Or.inl ⟨n, 0, rfl⟩)
      simpa [noteGrant, hepoch, hrec] using
        Move.refusedBetween hepoch (congrArg Prod.fst hp)
    | joined _ _ hsome => simp [hepoch] at hsome
    | opened hfrozen hallow hblocks _ =>
      simpa [noteGrant, hepoch, give, openEpoch, record, EpochRecord.addGrant] using
        Move.opened hepoch hfrozen hallow hblocks (congrArg Prod.fst hp)
  | inEpoch hepoch _ _ _ _ hopen =>
    have hsome : c.epoch.isSome = true := by simp [hepoch]
    cases hgrant with
    | refused =>
      simpa [noteGrant, hepoch, record, hopen] using
        Move.refusedInEpoch hsome (congrArg Prod.fst hp)
    | joined _ hallow _ hnew =>
      simpa [noteGrant, hepoch, give, record, hopen] using
        Move.joined hsome hallow hnew (congrArg Prod.fst hp)
    | opened _ _ _ hnone => simp [hepoch] at hnone

lemma tick_move (m : MathFns) {c : JobController ν} {es : List (EpochRecord ν)}
    (h : Coherent c es) (now later : ℚ) (total workers busy : ℕ) :
    Move m c es (.tick now later total workers busy)
      (c.tick m now later total workers busy).2
      ((noteTick c now later total (c.tick m now later total workers busy)).foldl record es) := by
  cases hfeed : c.feed with
  | none =>
    obtain ⟨feed, hfirst⟩ := tick_first m hfeed now later total workers busy
    cases h with
    | between hepoch _ _ hclosed =>
      have hrec : record es (.ticked total) = es :=
        record_of_closed hclosed (Or.inr ⟨total, rfl⟩)
      simpa [noteTick, hepoch, hfirst, hrec] using Move.firstTick hepoch hfeed
    | inEpoch _ _ _ hsome => simp [hfeed] at hsome
  | some feed =>
    obtain ⟨c₁, verdict, hobs, hout, hver⟩ := tick_outcome m hfeed now later total workers busy
    generalize c.tick m now later total workers busy = p at hout hver
    obtain ⟨events, c'⟩ := p
    simp only at hout hver
    cases h with
    | between hepoch _ _ hclosed =>
      have hrec : record es (.ticked total) = es :=
        record_of_closed hclosed (Or.inr ⟨total, rfl⟩)
      have hepoch₁ : c₁.epoch = none := hobs.epoch.trans hepoch
      simp only [noteTick, hepoch, List.foldl_cons, List.foldl_nil, hrec]
      cases hout with
      | idle _ => exact .idle hfeed hepoch hobs
      | probeOpened _ hfrozen => exact .probeOpened hfeed hepoch (hobs.frozen ▸ hfrozen) hobs
      | waiting hsome => simp [hepoch₁] at hsome
      | verified _ hsome => simp [hepoch₁] at hsome
      | extended _ hsome => simp [hepoch₁] at hsome
      | frozen _ hsome => simp [hepoch₁] at hsome
      | raised hsome => simp [hepoch₁] at hsome
    | @inEpoch epoch sigma e older hepoch hsigma _ _ hfrozen hopen =>
      have hsome : c.epoch.isSome = true := by simp [hepoch]
      have hepoch₁ : c₁.epoch = some epoch := hobs.epoch.trans hepoch
      have hopen' : (e.addTotal total).closing = none := hopen
      cases hout with
      | idle hnone => simp [hepoch₁] at hnone
      | probeOpened _ hfro => simp [hobs.frozen, hfrozen] at hfro
      | waiting hsome' hearly =>
        obtain rfl : epoch = _ := Option.some.inj (hepoch₁.symm.trans hsome')
        have hdue : epoch.overdue now = false := by
          simp only [Epoch.overdue, Bool.and_eq_false_iff, decide_eq_false_iff_not, not_le]
          exact hearly.symm
        simpa [noteTick, hepoch, hepoch₁, hdue, record, hopen] using
          Move.waiting hfeed hsome hobs
      | verified hev hsome' hsigma' hgrowth hgain =>
        obtain rfl : epoch = _ := Option.some.inj (hepoch₁.symm.trans hsome')
        simpa [noteTick, hepoch, verify, record, hopen, hver, verdictVerified, hev,
          hobs.pendingSheds] using
          Move.verified hfeed hepoch hobs hsigma' hgrowth hgain
      | extended _ hsome' hext =>
        obtain rfl : epoch = _ := Option.some.inj (hepoch₁.symm.trans hsome')
        have hmove : Move m c (e :: older) (.tick now later total workers busy) _ _ :=
          .extended hfeed hepoch hobs hext
        cases hdue : epoch.overdue now <;>
          simpa [noteTick, hepoch, extend, hdue, record, hopen] using hmove
      | @frozen _ _ shed _ hev _ hprobe hat =>
        have hprobe' : c.probing = true → shed = true := fun h => hprobe (hobs.probing.trans h)
        have hmove : Move m c (e :: older) (.tick now later total workers busy) _ _ :=
          .frozen hfeed hsome hobs hprobe' hat
        simpa [noteTick, hepoch, record, hopen, hver, verdictVerified, hev, freeze_eq,
          hobs.pendingSheds, hobs.epochGrants] using hmove
      | raised hsome' hnone =>
        obtain rfl : epoch = _ := Option.some.inj (hepoch₁.symm.trans hsome')
        simp [hsigma] at hnone

lemma call_move (m : MathFns) {c : JobController ν} {es : List (EpochRecord ν)}
    (h : Coherent c es) (a : Call ν) :
    Move m c es a (c.call m a) ((note m c a).foldl record es) := by
  cases a with
  | grant now n k => exact GrantOutcome.move h rfl (grant_outcome m c now n k)
  | takeShed n => cases es <;> exact .took
  | tick now later total workers busy => exact tick_move m h now later total workers busy

/-! ### Coherence -/

lemma Coherent.new (workerCount : ℕ) :
    Coherent (JobController.new workerCount : JobController ν) [] :=
  .between rfl rfl (fun _ => rfl) (by simp)

/-- A call keeps the pair coherent. -/
lemma Coherent.move {m : MathFns} {c c' : JobController ν} {es es' : List (EpochRecord ν)}
    {a : Call ν} (h : Coherent c es) (hm : Move m c es a c' es') : Coherent c' es' := by
  cases h with
  | between hepoch hgrants hfeed hclosed =>
    cases hm with
    | refusedBetween _ _ => exact .between hepoch hgrants hfeed hclosed
    | opened _ hfrozen _ hblocks _ =>
      obtain ⟨sigma, hsigma, hnonneg⟩ := sigmaDg_baseline m hblocks
      have hfed : c.feed.isSome = true := by
        cases hf : c.feed with
        | none => simp [hfeed hf, sigmaBlocks] at hblocks
        | some feed => rfl
      exact .inEpoch rfl hsigma hnonneg hfed hfrozen rfl rfl
        ((EpochRecord.Holds.empty ..).add _ _) hclosed
    | took => exact .between hepoch hgrants hfeed hclosed
    | firstTick _ _ => exact .between hepoch hgrants (by simp) hclosed
    | idle _ _ hobs =>
      exact .between (hobs.epoch.trans hepoch) (hobs.epochGrants.trans hgrants)
        (fun hnone => absurd hnone hobs.feed_ne_none) hclosed
    | probeOpened _ _ _ hobs =>
      exact .between (hobs.epoch.trans hepoch) (hobs.epochGrants.trans hgrants)
        (fun hnone => absurd hnone hobs.feed_ne_none) hclosed
    | refusedInEpoch hsome => simp [hepoch] at hsome
    | joined hsome => simp [hepoch] at hsome
    | waiting _ hsome => simp [hepoch] at hsome
    | extended _ hsome => simp [hepoch] at hsome
    | verified _ hsome => simp [hepoch] at hsome
    | frozen _ hsome => simp [hepoch] at hsome
  | @inEpoch epoch sigma e older hepoch hsigma hnonneg hfeed hfrozen hopen hprobe hgrants hclosed =>
    cases hm with
    | refusedInEpoch _ _ =>
      exact .inEpoch hepoch hsigma hnonneg hfeed hfrozen hopen hprobe (hgrants.refused _) hclosed
    | joined _ _ _ _ =>
      exact .inEpoch hepoch hsigma hnonneg hfeed hfrozen hopen hprobe (hgrants.add _ _) hclosed
    | took => exact .inEpoch hepoch hsigma hnonneg hfeed hfrozen hopen hprobe hgrants hclosed
    | waiting _ _ hobs =>
      exact .inEpoch (hobs.epoch.trans hepoch) hsigma hnonneg
        (Option.isSome_iff_ne_none.2 hobs.feed_ne_none) (hobs.frozen.trans hfrozen) hopen
        (hprobe.trans hobs.probing.symm) (hobs.epochGrants ▸ hgrants.of_eq rfl) hclosed
    | extended _ hsome hobs _ =>
      obtain rfl := Option.some.inj (hepoch.symm.trans hsome)
      exact .inEpoch rfl hsigma hnonneg (Option.isSome_iff_ne_none.2 hobs.feed_ne_none)
        (hobs.frozen.trans hfrozen) hopen (hprobe.trans hobs.probing.symm)
        (hobs.epochGrants ▸ hgrants.of_eq rfl) hclosed
    | verified _ _ hobs _ _ _ =>
      refine .between rfl rfl (fun hnone => absurd hnone hobs.feed_ne_none) ?_
      exact List.forall_mem_cons.2 ⟨rfl, hclosed⟩
    | frozen _ _ hobs _ _ =>
      rw [freeze_eq]
      refine .between rfl rfl (fun hnone => absurd hnone hobs.feed_ne_none) ?_
      exact List.forall_mem_cons.2 ⟨rfl, hclosed⟩
    | refusedBetween hnone => simp [hepoch] at hnone
    | opened hnone => simp [hepoch] at hnone
    | firstTick hnone => simp [hepoch] at hnone
    | idle _ hnone => simp [hepoch] at hnone
    | probeOpened _ hnone => simp [hepoch] at hnone

/-! ### Runs -/

/-- An invariant of the controller and its log, from what one move does. -/
lemma ledger_invariant {m : MathFns} {workerCount : ℕ}
    (ok : JobController ν → Call ν → Prop) (P : JobController ν → List (Entry ν) → Prop)
    (hnew : P (JobController.new workerCount) [])
    (hmove : ∀ {c log a}, Coherent c (epochs log) → P c log → ok c a →
      Move m c (epochs log) a (c.call m a) (epochs (log ++ note m c a)) →
      P (c.call m a) (log ++ note m c a)) :
    (ledger m workerCount).Invariant (fun p a => ok p.1 a)
      fun p => Coherent p.1 (epochs p.2) ∧ P p.1 p.2 where
  init := by
    rintro ⟨c, log⟩ ⟨hc, hlog⟩
    obtain rfl : c = JobController.new workerCount := hc
    obtain rfl : log = [] := hlog
    exact ⟨Coherent.new workerCount, hnew⟩
  step := by
    rintro ⟨c, log⟩ a ⟨c', log'⟩ ⟨hcoh, hP⟩ hok hstep
    obtain ⟨hc, hlog⟩ := ledger_step hstep
    simp only at hc hlog hcoh hP hok ⊢
    have hm := call_move m hcoh a
    rw [← epochs_append] at hm
    rw [hc, hlog]
    exact ⟨hcoh.move hm, hmove hcoh hP hok hm⟩

end Burla.Mint
