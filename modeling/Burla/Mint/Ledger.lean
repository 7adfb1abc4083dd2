/-
The mint controller's slot ledger balances.

For every node, what was shed from it and what is still pending for it is what closed
epochs moved to `pending_sheds`, and never more than what it was granted.  Within an
epoch a node is granted at most once, and grants and remaining allowance add up to the
allowance the epoch opened with.  A closed epoch was moved as a whole or not at all.
-/
import Burla.Mint.Moves

namespace Burla.Mint

open JobController

variable {ν : Type*}

/-- The requests that the endpoint lets through. -/
def Call.Positive : Call ν → Prop
  | .grant _ _ slotsRequested => 0 < slotsRequested
  | _ => True

instance : DecidablePred (@Call.Positive ν)
  | .grant _ _ slotsRequested => Int.decLt 0 slotsRequested
  | .takeShed _ => .isTrue trivial
  | .tick .. => .isTrue trivial

/-! ### What the log says of a node -/

/-- The answers to the grant calls. -/
def grantAnswers (log : List (Entry ν)) : List (ν × ℤ) :=
  log.filterMap fun
    | .granted instanceName slots => some (instanceName, slots)
    | _ => none

/-- The answers to the `take_shed` calls. -/
def shedAnswers (log : List (Entry ν)) : List (ν × ℤ) :=
  log.filterMap fun
    | .shed instanceName slots => some (instanceName, slots)
    | _ => none

variable [DecidableEq ν]

/-- The slots ever granted to a node. -/
def grantedTo (log : List (Entry ν)) (n : ν) : ℤ := slotsOf n (grantAnswers log)

/-- The slots ever shed from a node. -/
def shedFrom (log : List (Entry ν)) (n : ν) : ℤ := slotsOf n (shedAnswers log)

/-- The slots that the closing of an epoch moved to a node's `pending_sheds`. -/
def EpochRecord.movedTo (e : EpochRecord ν) (n : ν) : ℤ :=
  match e.closing with
  | none => 0
  | some closing => closing.pendingAfter.count n - closing.pendingBefore.count n

/-- A sum over the epochs. -/
def sumEpochs (es : List (EpochRecord ν)) (f : EpochRecord ν → ℤ) : ℤ := (es.map f).sum

omit [DecidableEq ν] in
@[simp] lemma sumEpochs_cons (e : EpochRecord ν) (es : List (EpochRecord ν))
    (f : EpochRecord ν → ℤ) : sumEpochs (e :: es) f = f e + sumEpochs es f := by
  simp [sumEpochs]

@[simp] lemma grantedTo_append (log new : List (Entry ν)) (n : ν) :
    grantedTo (log ++ new) n = grantedTo log n + grantedTo new n := by
  simp [grantedTo, grantAnswers]

@[simp] lemma shedFrom_append (log new : List (Entry ν)) (n : ν) :
    shedFrom (log ++ new) n = shedFrom log n + shedFrom new n := by
  simp [shedFrom, shedAnswers]

lemma grantedTo_note_grant (m : MathFns) (c : JobController ν) (now : ℚ) (n n' : ν) (k : ℤ) :
    grantedTo (note m c (.grant now n k)) n' =
      if n = n' then (c.grant m now n k).1 else 0 := by
  simp only [note, noteGrant]
  split_ifs <;> simp [grantedTo, grantAnswers, *]

lemma shedFrom_note_grant (m : MathFns) (c : JobController ν) (now : ℚ) (n n' : ν) (k : ℤ) :
    shedFrom (note m c (.grant now n k)) n' = 0 := by
  simp only [note, noteGrant]
  split_ifs <;> simp [shedFrom, shedAnswers]

lemma answers_note_tick (m : MathFns) (c : JobController ν) (now later : ℚ)
    (total workers busy : ℕ) (n : ν) :
    grantedTo (note m c (.tick now later total workers busy)) n = 0 ∧
      shedFrom (note m c (.tick now later total workers busy)) n = 0 := by
  unfold note noteTick grantedTo grantAnswers shedFrom shedAnswers
  cases c.epoch with
  | none => simp
  | some epoch =>
    dsimp only
    split_ifs <;> simp

/-! ### The invariant -/

/-- The grants of an epoch whose requests were positive. -/
structure EpochRecord.Fair (e : EpochRecord ν) : Prop where
  nonneg : ∀ g ∈ e.grants, 0 ≤ g.2
  once : ((e.grants.filter fun g => 0 < g.2).map Prod.fst).Nodup
  closing : ∀ closing ∈ e.closing, e.Moved closing ∨ Kept closing

/-- The ledger: the sums over the epochs, and the current epoch's allowance. -/
structure Balanced (c : JobController ν) (log : List (Entry ν)) : Prop where
  fair : ∀ e ∈ epochs log, e.Fair
  granted : ∀ n, grantedTo log n = sumEpochs (epochs log) fun e => e.grantedTo n
  shed : ∀ n, shedFrom log n + c.pendingSheds.count n =
    sumEpochs (epochs log) fun e => e.movedTo n
  current : c.epoch.isSome = true → ∀ e ∈ (epochs log).head?,
    e.granted + c.allowance = e.allowance ∧ ∀ g ∈ e.grants, 0 < g.2 → g.1 ∈ c.epochGrants

namespace EpochRecord

lemma Fair.addGrant {e : EpochRecord ν} (h : e.Fair) (hopen : e.closing = none) {n : ν} {k : ℤ}
    (hk : 0 ≤ k) (hnew : 0 < k → ∀ g ∈ e.grants, 0 < g.2 → g.1 ≠ n) : (e.addGrant n k).Fair where
  nonneg g hg := by
    rcases List.mem_append.1 hg with hg | hg
    · exact h.nonneg g hg
    · obtain rfl := List.mem_singleton.1 hg
      exact hk
  once := by
    by_cases hpos : 0 < k
    · have hdis : ∀ x ∈ (e.grants.filter fun g => 0 < g.2).map Prod.fst, x ≠ n := by
        intro x hx
        obtain ⟨g, hg, rfl⟩ := List.mem_map.1 hx
        obtain ⟨hmem, hg⟩ := List.mem_filter.1 hg
        exact hnew hpos g hmem (by simpa using hg)
      simp only [EpochRecord.addGrant, List.filter_append, List.map_append]
      refine List.Nodup.append h.once (by simp [hpos]) ?_
      simpa [hpos, List.disjoint_singleton] using fun hmem => hdis n hmem rfl
    · simpa [EpochRecord.addGrant, List.filter_append, hpos] using h.once
  closing closing hclosing := by
    have hnone : (e.addGrant n k).closing = none := hopen
    simp [hnone] at hclosing

/-- What is not a grant changes neither the grants nor a closing. -/
lemma Fair.of_eq {e e' : EpochRecord ν} (h : e.Fair) (hgrants : e'.grants = e.grants)
    (hclosing : ∀ closing ∈ e'.closing, e'.Moved closing ∨ Kept closing) : e'.Fair where
  nonneg := hgrants ▸ h.nonneg
  once := hgrants ▸ h.once
  closing := hclosing

@[simp] lemma grantedTo_addGrant (e : EpochRecord ν) (n n' : ν) (k : ℤ) :
    (e.addGrant n k).grantedTo n' = e.grantedTo n' + if n = n' then k else 0 := by
  simp [grantedTo, EpochRecord.addGrant]

omit [DecidableEq ν] in
@[simp] lemma granted_addGrant (e : EpochRecord ν) (n : ν) (k : ℤ) :
    (e.addGrant n k).granted = e.granted + k := by
  simp [granted, EpochRecord.addGrant]

lemma movedTo_of_open {e : EpochRecord ν} (hopen : e.closing = none) (n : ν) : e.movedTo n = 0 := by
  simp [movedTo, hopen]

end EpochRecord

open EpochRecord

/-- A grant call in an open epoch. -/
lemma Balanced.answer {m : MathFns} {c c' : JobController ν} {log : List (Entry ν)}
    {e : EpochRecord ν} {older : List (EpochRecord ν)} {now : ℚ} {n : ν} {k : ℤ}
    (h : Balanced c log) (hes : epochs log = e :: older)
    (hes' : epochs (log ++ note m c (.grant now n k)) =
      e.addGrant n (c.grant m now n k).1 :: older)
    (hfair : (e.addGrant n (c.grant m now n k).1).Fair)
    (hpending : c'.pendingSheds = c.pendingSheds)
    (hcurrent : (e.addGrant n (c.grant m now n k).1).granted + c'.allowance = e.allowance ∧
      ∀ g ∈ (e.addGrant n (c.grant m now n k).1).grants, 0 < g.2 → g.1 ∈ c'.epochGrants) :
    Balanced c' (log ++ note m c (.grant now n k)) where
  fair := by
    rw [hes']
    exact List.forall_mem_cons.2 ⟨hfair, fun x hx => h.fair x (hes ▸ List.mem_cons_of_mem _ hx)⟩
  granted n' := by
    have hold := h.granted n'
    rw [hes, sumEpochs_cons] at hold
    rw [hes', grantedTo_append, grantedTo_note_grant, hold, sumEpochs_cons, grantedTo_addGrant]
    omega
  shed n' := by
    have hold := h.shed n'
    have hmoved : (e.addGrant n (c.grant m now n k).1).movedTo n' = e.movedTo n' := rfl
    rw [hes, sumEpochs_cons] at hold
    rw [hes', shedFrom_append, shedFrom_note_grant, hpending, sumEpochs_cons, hmoved]
    omega
  current _ := by
    rw [hes']
    intro x hx
    obtain rfl : _ = x := by simpa using hx
    exact hcurrent

/-- A grant call that is refused while no epoch is open. -/
lemma Balanced.refused {m : MathFns} {c : JobController ν} {log : List (Entry ν)} {now : ℚ}
    {n : ν} {k : ℤ} (h : Balanced c log) (hret : (c.grant m now n k).1 = 0)
    (hes' : epochs (log ++ note m c (.grant now n k)) = epochs log) (hepoch : c.epoch = none) :
    Balanced c (log ++ note m c (.grant now n k)) where
  fair := hes' ▸ h.fair
  granted n' := by
    rw [grantedTo_append, grantedTo_note_grant, hret, ite_self, hes', h.granted n', add_zero]
  shed n' := by
    rw [shedFrom_append, shedFrom_note_grant, hes', add_zero, h.shed n']
  current hsome := by simp [hepoch] at hsome

/-- `take_shed` turns pending slots into shed ones. -/
lemma Balanced.took {m : MathFns} {c : JobController ν} {log : List (Entry ν)} {n : ν}
    (h : Balanced c log) (hes' : epochs (log ++ note m c (.takeShed n)) = epochs log) :
    Balanced (c.takeShed n).2 (log ++ note m c (.takeShed n)) where
  fair := hes' ▸ h.fair
  granted n' := by
    have hnone : grantedTo (note m c (.takeShed n)) n' = 0 := rfl
    rw [hes', grantedTo_append, hnone, h.granted n', add_zero]
  shed n' := by
    have hold := h.shed n'
    have htook : shedFrom (note m c (.takeShed n)) n' =
        if n = n' then c.pendingSheds.count n else 0 := by
      simp [shedFrom, shedAnswers, note, takeShed]
    have hleft : (c.takeShed n).2.pendingSheds.count n' =
        if n' = n then 0 else c.pendingSheds.count n' := Tally.count_remove ..
    rw [hes', shedFrom_append, htook, hleft]
    by_cases hn : n' = n
    · subst hn
      simpa using hold
    · rw [if_neg (Ne.symm hn), if_neg hn]
      omega
  current hsome := by
    rw [hes']
    exact h.current hsome

/-- The grant call that opens an epoch. -/
lemma Balanced.opened {m : MathFns} {c : JobController ν} {log : List (Entry ν)} {now : ℚ}
    {n : ν} {k : ℤ} (h : Balanced c log) (hk : 0 < k) (hallow : 0 < c.allowance)
    (hret : (c.grant m now n k).1 = min k c.openingAllowance)
    (hes' : epochs (log ++ note m c (.grant now n k)) =
      { allowance := c.openingAllowance
        probe := c.probing
        totalBefore := c.feed.map Feed.lastTotal
        grants := [(n, min k c.openingAllowance)] } :: epochs log) :
    Balanced ((c.openEpoch m now).give n k).2 (log ++ note m c (.grant now n k)) := by
  have hpos : 0 < min k c.openingAllowance := lt_min hk (hallow.trans_le (le_openingAllowance c))
  constructor
  · rw [hes']
    refine List.forall_mem_cons.2 ⟨⟨?_, ?_, ?_⟩, h.fair⟩
    · simpa using hpos.le
    · simp [hpos]
    · simp
  · intro n'
    rw [grantedTo_append, grantedTo_note_grant, hret, hes', sumEpochs_cons, h.granted n']
    simp [EpochRecord.grantedTo]
    omega
  · intro n'
    have hold := h.shed n'
    rw [shedFrom_append, shedFrom_note_grant, hes', sumEpochs_cons, movedTo_of_open rfl]
    simp only [give, openEpoch]
    omega
  · intro _
    rw [hes']
    intro e he
    obtain rfl := Option.some.inj he
    refine ⟨?_, ?_⟩
    · simp [EpochRecord.granted, give, openEpoch]
    · simp [give]

/-- A tick while no epoch is open. -/
lemma Balanced.idle {m : MathFns} {c c' : JobController ν} {log : List (Entry ν)}
    {now later : ℚ} {total workers busy : ℕ} (h : Balanced c log)
    (hes' : epochs (log ++ note m c (.tick now later total workers busy)) = epochs log)
    (hpending : c'.pendingSheds = c.pendingSheds) (hepoch : c'.epoch = none) :
    Balanced c' (log ++ note m c (.tick now later total workers busy)) where
  fair := hes' ▸ h.fair
  granted n := by
    rw [grantedTo_append, (answers_note_tick m c ..).1, hes', h.granted n, add_zero]
  shed n := by
    rw [shedFrom_append, (answers_note_tick m c ..).2, hes', hpending, add_zero, h.shed n]
  current hsome := by simp [hepoch] at hsome

/-- A tick in an open epoch, whether it closes the epoch or not. -/
lemma Balanced.ticked {m : MathFns} {c c' : JobController ν} {log : List (Entry ν)}
    {e e' : EpochRecord ν} {older : List (EpochRecord ν)} {now later : ℚ} {total workers busy : ℕ}
    (h : Balanced c log) (hes : epochs log = e :: older) (hopen : e.closing = none)
    (hes' : epochs (log ++ note m c (.tick now later total workers busy)) = e' :: older)
    (hgrants : e'.grants = e.grants)
    (hclosing : ∀ closing ∈ e'.closing, e'.Moved closing ∨ Kept closing)
    (hmoved : ∀ n, c'.pendingSheds.count n = c.pendingSheds.count n + e'.movedTo n)
    (hcurrent : c'.epoch.isSome = true → e'.granted + c'.allowance = e'.allowance ∧
      ∀ g ∈ e'.grants, 0 < g.2 → g.1 ∈ c'.epochGrants) :
    Balanced c' (log ++ note m c (.tick now later total workers busy)) where
  fair := by
    rw [hes']
    have he : e.Fair := h.fair e (hes ▸ List.mem_cons_self)
    exact List.forall_mem_cons.2
      ⟨he.of_eq hgrants hclosing, fun x hx => h.fair x (hes ▸ List.mem_cons_of_mem _ hx)⟩
  granted n := by
    have hsame : e'.grantedTo n = e.grantedTo n := by
      rw [EpochRecord.grantedTo, EpochRecord.grantedTo, hgrants]
    rw [grantedTo_append, (answers_note_tick m c ..).1, h.granted n, hes, hes', sumEpochs_cons,
      sumEpochs_cons, hsame, add_zero]
  shed n := by
    have hold := h.shed n
    rw [hes, sumEpochs_cons, movedTo_of_open hopen] at hold
    rw [shedFrom_append, (answers_note_tick m c ..).2, hes', sumEpochs_cons, hmoved n]
    omega
  current hsome := by
    rw [hes']
    intro x hx
    obtain rfl : e' = x := by simpa using hx
    exact hcurrent hsome

/-- Every move keeps the ledger balanced. -/
lemma Balanced.move {m : MathFns} {c c' : JobController ν} {log : List (Entry ν)}
    {es es' : List (EpochRecord ν)} {a : Call ν} (hcoh : Coherent c es) (h : Balanced c log)
    (hpos : a.Positive) (hm : Move m c es a c' es') (hes : epochs log = es)
    (hes' : epochs (log ++ note m c a) = es') : Balanced c' (log ++ note m c a) := by
  cases hcoh with
  | between hepoch _ _ _ =>
    cases hm with
    | refusedBetween _ hret => exact h.refused hret (hes'.trans hes.symm) hepoch
    | took => exact h.took (hes'.trans hes.symm)
    | firstTick _ _ => exact h.idle (hes'.trans hes.symm) rfl hepoch
    | opened _ hfrozen hallow hblocks hret =>
      exact h.opened hpos hallow hret (hes ▸ hes')
    | idle _ _ hobs =>
      exact h.idle (hes'.trans hes.symm) hobs.pendingSheds (hobs.epoch.trans hepoch)
    | probeOpened _ _ _ hobs =>
      exact h.idle (hes'.trans hes.symm) hobs.pendingSheds (hobs.epoch.trans hepoch)
    | refusedInEpoch hsome => simp [hepoch] at hsome
    | joined hsome => simp [hepoch] at hsome
    | waiting _ hsome => simp [hepoch] at hsome
    | extended _ hsome => simp [hepoch] at hsome
    | verified _ hsome => simp [hepoch] at hsome
    | frozen _ hsome => simp [hepoch] at hsome
  | @inEpoch epoch sigma e older hepoch _ _ _ _ hopen hprobe hgrants =>
    have he : e.Fair := h.fair e (hes ▸ List.mem_cons_self)
    obtain ⟨hsum, hmem⟩ := h.current (by simp [hepoch]) e (by simp [hes])
    have hstill : ∀ closing ∈ e.closing, e.Moved closing ∨ Kept closing := by simp [hopen]
    cases hm with
    | refusedInEpoch _ hret =>
      rw [← hret] at hes'
      refine h.answer hes hes' ?_ rfl ⟨?_, ?_⟩
      · rw [hret]
        exact he.addGrant hopen (le_refl 0) fun hlt => absurd hlt (lt_irrefl 0)
      · rw [hret, granted_addGrant]
        omega
      · rw [hret]
        intro g hg hgpos
        rcases List.mem_append.1 hg with hg | hg
        · exact hmem g hg hgpos
        · obtain rfl := List.mem_singleton.1 hg
          exact absurd hgpos (lt_irrefl 0)
    | @joined _ _ _ n k _ hallow hnew hret =>
      rw [← hret] at hes'
      have hk : 0 < min k c.allowance := lt_min hpos hallow
      refine h.answer hes hes' ?_ rfl ⟨?_, ?_⟩
      · rw [hret]
        refine he.addGrant hopen hk.le fun _ g hg hgpos hgn => ?_
        exact hnew (hgn ▸ hmem g hg hgpos)
      · rw [hret, granted_addGrant]
        simp only [give]
        omega
      · intro g hg hgpos
        rw [give, Tally.mem_add]
        rcases List.mem_append.1 hg with hg | hg
        · exact Or.inr (hmem g hg hgpos)
        · obtain rfl := List.mem_singleton.1 hg
          exact Or.inl rfl
    | took => exact h.took (hes'.trans hes.symm)
    | waiting _ _ hobs =>
      refine h.ticked hes hopen hes' rfl hstill ?_ ?_
      · intro n
        show c'.pendingSheds.count n = c.pendingSheds.count n + e.movedTo n
        rw [hobs.pendingSheds, movedTo_of_open hopen, add_zero]
      · intro _
        rw [hobs.allowance, hobs.epochGrants]
        exact ⟨hsum, hmem⟩
    | extended _ hsome hobs hlt =>
      refine h.ticked hes hopen hes' rfl hstill ?_ ?_
      · intro n
        show Tally.count _ n = c.pendingSheds.count n + e.movedTo n
        rw [extend, hobs.pendingSheds, movedTo_of_open hopen, add_zero]
      · intro _
        rw [extend, hobs.allowance, hobs.epochGrants]
        exact ⟨hsum, hmem⟩
    | verified _ _ hobs _ hgrowth _ =>
      refine h.ticked hes hopen hes' rfl ?_ ?_ ?_
      · intro closing hclosing
        obtain rfl := Option.some.inj hclosing
        exact Or.inr fun _ => rfl
      · intro n
        simp [verify, hobs.pendingSheds, movedTo, close]
      · intro hsome
        simp [verify] at hsome
    | @frozen _ _ _ _ _ _ _ _ _ _ shed _ _ hobs _ hat =>
      refine h.ticked hes hopen hes' rfl ?_ ?_ ?_
      · intro closing hclosing
        obtain rfl := Option.some.inj hclosing
        cases shed with
        | false => exact Or.inr fun _ => rfl
        | true =>
          refine Or.inl fun n => ?_
          simp [hgrants.count n, EpochRecord.grantedTo, close, addTotal]
      · intro n
        simp [freeze_eq, movedTo, close, hobs.pendingSheds, hobs.epochGrants]
      · intro hsome
        simp [freeze_eq] at hsome
    | refusedBetween hnone => simp [hepoch] at hnone
    | opened hnone => simp [hepoch] at hnone
    | firstTick hnone => simp [hepoch] at hnone
    | idle _ hnone => simp [hepoch] at hnone
    | probeOpened _ hnone => simp [hepoch] at hnone

/-! ### The ledger theorem -/

/-- What closings moved is at most what the epochs granted. -/
lemma sum_movedTo_le {es : List (EpochRecord ν)} (h : ∀ e ∈ es, e.Fair) (n : ν) :
    (sumEpochs es fun e => e.movedTo n) ≤ sumEpochs es fun e => e.grantedTo n := by
  refine List.sum_le_sum fun e he => ?_
  have hnonneg : 0 ≤ e.grantedTo n := slotsOf_nonneg n (h e he).nonneg
  unfold movedTo
  cases hclosing : e.closing with
  | none => exact hnonneg
  | some closing =>
    rcases (h e he).closing closing hclosing with hmoved | hkept
    · have := hmoved n
      dsimp only
      omega
    · have := hkept n
      dsimp only
      omega

lemma Balanced.new (workerCount : ℕ) : Balanced (JobController.new workerCount : JobController ν) []
    where
  fair _ he := by simp [epochs] at he
  granted _ := rfl
  shed n := Tally.count_empty n
  current hsome := by simp [JobController.new] at hsome

/-- What it means for the slot ledger of a controller to balance with its log. -/
structure LedgerBalances (c : JobController ν) (log : List (Entry ν)) : Prop where
  /-- A node never gives back more than it was granted. -/
  shed_le : ∀ n, shedFrom log n + c.pendingSheds.count n ≤ grantedTo log n
  /-- Within an epoch a node is granted at most once. -/
  once : ∀ e ∈ epochs log, ((e.grants.filter fun g => 0 < g.2).map Prod.fst).Nodup
  /-- The newest epoch is open while the controller has an epoch, and then its grants and the
  remaining allowance add up to the allowance it opened with. -/
  current : c.epoch.isSome = true → ∃ e ∈ (epochs log).head?,
    e.closing = none ∧ e.granted + c.allowance = e.allowance
  /-- A closed epoch's grants were moved to `pending_sheds` entirely or not at all. -/
  closing : ∀ e ∈ epochs log, ∀ closing ∈ e.closing, e.Moved closing ∨ Kept closing
  /-- These moves are all that was ever shed or is pending. -/
  shed_eq : ∀ n, shedFrom log n + c.pendingSheds.count n =
    sumEpochs (epochs log) fun e => e.movedTo n

/-- **The slot ledger balances** in every run whose requests are positive. -/
theorem ledger_balances {m : MathFns} {workerCount : ℕ} {c : JobController ν}
    {log : List (Entry ν)}
    (h : (ledger m workerCount).Reachable (fun _ a => a.Positive) (c, log)) :
    LedgerBalances c log := by
  have hinv : (ledger m workerCount).Invariant (fun _ a => a.Positive)
      fun p => Coherent p.1 (epochs p.2) ∧ Balanced p.1 p.2 :=
    ledger_invariant (fun _ (a : Call ν) => a.Positive) Balanced (Balanced.new workerCount)
      fun hcoh hbal hpos hm => hbal.move hcoh hpos hm rfl rfl
  obtain ⟨hcoh, hbal⟩ := hinv.reachable h
  simp only at hcoh hbal
  refine ⟨fun n => ?_, fun e he => (hbal.fair e he).once, fun hsome => ?_,
    fun e he => (hbal.fair e he).closing, hbal.shed⟩
  · rw [hbal.shed n, hbal.granted n]
    exact sum_movedTo_le hbal.fair n
  · have hcurrent := hbal.current hsome
    generalize epochs log = es at hcoh hcurrent
    cases hcoh with
    | between hnone => simp [hnone] at hsome
    | inEpoch _ _ _ _ _ hopen => exact ⟨_, rfl, hopen, (hcurrent _ rfl).1⟩

/-- Two nodes are granted slots, the epoch gains no workers, and one of the two has already
given its slots back. -/
def givenBackCalls : List (Call String) :=
  steadyTicks 10 ++ [.grant 136 "a" 3, .grant 137 "b" 9, .grant 138 "a" 5,
    .tick 300 300 3000 10 10, .takeShed "a"]

/-- The state and the log after it. -/
def givenBackRun : JobController String × List (Entry String) :=
  (((ledger .series 10).guarded fun _ a => a.Positive).exec (JobController.new 10, [])
    givenBackCalls).get (by decide +kernel)

theorem ledger_balances_givenBackRun :
    shedFrom givenBackRun.2 "a" = 3 ∧ givenBackRun.1.pendingSheds.count "b" = 1 ∧
      LedgerBalances givenBackRun.1 givenBackRun.2 := by
  have hreach : (ledger .series 10).Reachable (fun _ a => a.Positive) givenBackRun :=
    reachable_ledger (Option.some_get _).symm
  exact ⟨by decide +kernel, by decide +kernel, ledger_balances hreach⟩

end Burla.Mint
