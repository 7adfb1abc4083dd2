/-
Runs of the mint controller, and the record of the epochs they went through.

A run is a sequence of calls.  Each call leaves entries in a log: what it returned, and
the opening or closing of an epoch.  `epochs` reads a log as the list of epochs, newest
first, each with its grants, the result counts ticked while it was open, and how it
closed.
-/
import Burla.Lib.System
import Burla.Mint.Verdict

namespace Burla.Mint

variable {ν : Type*}

/-! ### Calls and the log -/

/-- A call on a controller, with the clock readings it makes. -/
inductive Call (ν : Type*)
  | grant (now : ℚ) (instanceName : ν) (slotsRequested : ℤ)
  | takeShed (instanceName : ν)
  | tick (now later : ℚ) (totalResults workerCount busyCount : ℕ)
  deriving DecidableEq

/-- How an epoch closed. -/
structure Closing (ν : Type*) where
  /-- Was a verification among the events of the closing tick? -/
  verified : Bool
  /-- The last clock reading of the closing tick. -/
  closedAt : ℚ
  /-- `pending_sheds` before and after the closing tick. -/
  pendingBefore : Tally ν
  pendingAfter : Tally ν

/-- What the log keeps of a call. -/
inductive Entry (ν : Type*)
  | opened (allowance : ℤ) (probe : Bool) (total : Option ℕ)
  | granted (instanceName : ν) (slots : ℤ)
  | shed (instanceName : ν) (slots : ℤ)
  | ticked (totalResults : ℕ)
  /-- A tick past the no-growth deadline and past the next verdict time left the epoch open. -/
  | leftOpen
  | closed (closing : Closing ν)

/-- Is an epoch past the no-growth deadline and due for a verdict? -/
def Epoch.overdue (epoch : Epoch) (now : ℚ) : Bool :=
  decide (now - epoch.openedAt ≥ epochNoGrowthDeadlineSec) && decide (now ≥ epoch.nextVerdictAt)

section Calls

variable [DecidableEq ν]

/-- The controller after a call. -/
def JobController.call (m : MathFns) (c : JobController ν) : Call ν → JobController ν
  | .grant now instanceName slotsRequested => (c.grant m now instanceName slotsRequested).2
  | .takeShed instanceName => (c.takeShed instanceName).2
  | .tick now later totalResults workerCount busyCount =>
    (c.tick m now later totalResults workerCount busyCount).2

/-- The log entries of a grant call with the given result. -/
def noteGrant (c : JobController ν) (instanceName : ν) (p : ℤ × JobController ν) :
    List (Entry ν) :=
  (if c.epoch.isNone && p.2.epoch.isSome then
    [.opened c.openingAllowance c.probing (c.feed.map Feed.lastTotal)] else []) ++
    [.granted instanceName p.1]

/-- The log entries of a tick with the given result. -/
def noteTick (c : JobController ν) (now later : ℚ) (totalResults : ℕ)
    (p : Except PyError (List DebugEvent) × JobController ν) : List (Entry ν) :=
  .ticked totalResults ::
    match c.epoch with
    | none => []
    | some epoch =>
      if p.2.epoch.isSome then
        if epoch.overdue now then [.leftOpen] else []
      else
        [.closed
          { verified := JobController.eventsVerified p.1
            closedAt := max now later
            pendingBefore := c.pendingSheds
            pendingAfter := p.2.pendingSheds }]

/-- The log entries of a call. -/
def note (m : MathFns) (c : JobController ν) : Call ν → List (Entry ν)
  | .grant now instanceName slotsRequested =>
    noteGrant c instanceName (c.grant m now instanceName slotsRequested)
  | .takeShed instanceName => [.shed instanceName (c.takeShed instanceName).1]
  | .tick now later totalResults workerCount busyCount =>
    noteTick c now later totalResults (c.tick m now later totalResults workerCount busyCount)

/-- The runs of a controller started at a worker count. -/
def calls (m : MathFns) (workerCount : ℕ) : System (JobController ν) (Call ν) where
  init c := c = JobController.new workerCount
  step c a := some (c.call m a)

/-- The same runs with their log. -/
def ledger (m : MathFns) (workerCount : ℕ) :
    System (JobController ν × List (Entry ν)) (Call ν) :=
  (calls m workerCount).logged fun c a _ => note m c a

lemma ledger_step {m : MathFns} {workerCount : ℕ} {p q : JobController ν × List (Entry ν)}
    {a : Call ν} (h : (ledger m workerCount).step p a = some q) :
    q.1 = p.1.call m a ∧ q.2 = p.2 ++ note m p.1 a := by
  obtain ⟨hstep, hlog⟩ := System.logged_step_eq_some.1 h
  have hcall : q.1 = p.1.call m a := (Option.some.inj hstep).symm
  exact ⟨hcall, hlog⟩

/-- A list of calls that meet a decidable condition, evaluated, gives a reachable state. -/
lemma reachable_ledger {m : MathFns} {workerCount : ℕ} {as : List (Call ν)}
    {p : JobController ν × List (Entry ν)}
    {ok : JobController ν × List (Entry ν) → Call ν → Prop} [∀ p a, Decidable (ok p a)]
    (h : ((ledger m workerCount).guarded ok).exec (JobController.new workerCount, []) as = some p) :
    (ledger m workerCount).Reachable ok p :=
  ⟨(JobController.new workerCount, []), as, ⟨rfl, rfl⟩, System.run_of_exec_guarded h⟩

/-- A job with ten busy workers and ten results a second: `n` ticks, one noise block apart. -/
def steadyTicks (n : ℕ) : List (Call String) :=
  (List.range n).map fun i : ℕ => .tick (15 * (i : ℚ)) (15 * (i : ℚ)) (150 * i) 10 10

end Calls

/-! ### The record of epochs -/

/-- The slots that a list of transfers gives one instance. -/
def slotsOf [DecidableEq ν] (instanceName : ν) (transfers : List (ν × ℤ)) : ℤ :=
  (transfers.map fun t => if t.1 = instanceName then t.2 else 0).sum

@[simp] lemma slotsOf_nil [DecidableEq ν] (n : ν) : slotsOf n [] = 0 := rfl

@[simp] lemma slotsOf_append [DecidableEq ν] (n : ν) (l₁ l₂ : List (ν × ℤ)) :
    slotsOf n (l₁ ++ l₂) = slotsOf n l₁ + slotsOf n l₂ := by
  simp [slotsOf]

@[simp] lemma slotsOf_singleton [DecidableEq ν] (n n' : ν) (k : ℤ) :
    slotsOf n [(n', k)] = if n' = n then k else 0 := by
  simp [slotsOf]

lemma slotsOf_nonneg [DecidableEq ν] (n : ν) {transfers : List (ν × ℤ)}
    (h : ∀ t ∈ transfers, 0 ≤ t.2) : 0 ≤ slotsOf n transfers := by
  refine List.sum_nonneg fun k hk => ?_
  obtain ⟨t, ht, rfl⟩ := List.mem_map.1 hk
  split_ifs
  · exact h t ht
  · exact le_refl 0

/-- An epoch, as the log tells it. -/
structure EpochRecord (ν : Type*) where
  /-- The allowance it opened with. -/
  allowance : ℤ
  /-- Was it opened as a probe? -/
  probe : Bool
  /-- The last total of results before it opened. -/
  totalBefore : Option ℕ
  /-- The answers to the grant calls made while it was open, the opening one included. -/
  grants : List (ν × ℤ) := []
  /-- The totals of results ticked while it was open, the closing tick included. -/
  totals : List ℕ := []
  /-- How many overdue ticks left it open. -/
  leftOpen : ℕ := 0
  /-- How it closed, once it has. -/
  closing : Option (Closing ν) := none

/-- One more answer to a grant call. -/
def EpochRecord.addGrant (e : EpochRecord ν) (instanceName : ν) (slots : ℤ) : EpochRecord ν :=
  { e with grants := e.grants ++ [(instanceName, slots)] }

/-- One more ticked total. -/
def EpochRecord.addTotal (e : EpochRecord ν) (totalResults : ℕ) : EpochRecord ν :=
  { e with totals := e.totals ++ [totalResults] }

/-- `k` more overdue ticks that left the epoch open. -/
def EpochRecord.addLeftOpen (e : EpochRecord ν) (k : ℕ) : EpochRecord ν :=
  { e with leftOpen := e.leftOpen + k }

@[simp] lemma EpochRecord.addLeftOpen_zero (e : EpochRecord ν) : e.addLeftOpen 0 = e := rfl

/-- The epoch closes. -/
def EpochRecord.close (e : EpochRecord ν) (closing : Closing ν) : EpochRecord ν :=
  { e with closing := some closing }

/-- Read one more entry into the record, newest epoch first. -/
def record : List (EpochRecord ν) → Entry ν → List (EpochRecord ν)
  | es, .opened allowance probe total => { allowance, probe, totalBefore := total } :: es
  | e :: es, .granted instanceName slots =>
    if e.closing.isSome then e :: es else e.addGrant instanceName slots :: es
  | e :: es, .ticked totalResults =>
    if e.closing.isSome then e :: es else e.addTotal totalResults :: es
  | e :: es, .leftOpen => e.addLeftOpen 1 :: es
  | e :: es, .closed closing => e.close closing :: es
  | es, _ => es

/-- The epochs that a log tells of, newest first. -/
def epochs (log : List (Entry ν)) : List (EpochRecord ν) := log.foldl record []

lemma epochs_append (log new : List (Entry ν)) :
    epochs (log ++ new) = new.foldl record (epochs log) := List.foldl_append

namespace EpochRecord

/-- Has the epoch closed, and was it verified? -/
def verified (e : EpochRecord ν) : Bool := e.closing.any Closing.verified

variable [DecidableEq ν]

/-- The slots granted to an instance in the epoch. -/
def grantedTo (e : EpochRecord ν) (instanceName : ν) : ℤ := slotsOf instanceName e.grants

/-- The slots granted in the epoch. -/
def granted (e : EpochRecord ν) : ℤ := (e.grants.map Prod.snd).sum

/-- The closing of the epoch moved its whole grant to `pending_sheds`. -/
def Moved (e : EpochRecord ν) (closing : Closing ν) : Prop :=
  ∀ instanceName, closing.pendingAfter.count instanceName =
    closing.pendingBefore.count instanceName + e.grantedTo instanceName

/-- The closing of the epoch left `pending_sheds` as it was. -/
def Kept (closing : Closing ν) : Prop :=
  ∀ instanceName, closing.pendingAfter.count instanceName =
    closing.pendingBefore.count instanceName

/-- The dict `epoch_grants` holds what the record says was granted. -/
structure Holds (e : EpochRecord ν) (epochGrants : Tally ν) : Prop where
  count : ∀ instanceName, epochGrants.count instanceName = e.grantedTo instanceName
  total : epochGrants.total = e.granted

lemma Holds.empty (allowance : ℤ) (probe : Bool) (totalBefore : Option ℕ) :
    Holds { allowance, probe, totalBefore } (∅ : Tally ν) where
  count n := by simp [grantedTo]
  total := by simp [granted]

lemma Holds.add {e : EpochRecord ν} {epochGrants : Tally ν} (h : e.Holds epochGrants)
    (instanceName : ν) (slots : ℤ) :
    (e.addGrant instanceName slots).Holds (epochGrants.add instanceName slots) where
  count n := by
    rw [Tally.count_add, h.count n]
    by_cases hn : n = instanceName
    · simp [grantedTo, addGrant, hn]
    · simp [grantedTo, addGrant, hn, Ne.symm hn]
  total := by
    rw [Tally.total_add, h.total]
    simp [granted, addGrant]

/-- Only the grants of the record matter. -/
lemma Holds.of_eq {e e' : EpochRecord ν} {epochGrants : Tally ν} (h : e.Holds epochGrants)
    (heq : e'.grants = e.grants) : e'.Holds epochGrants where
  count n := by rw [h.count n, grantedTo, grantedTo, heq]
  total := by rw [h.total, granted, granted, heq]

/-- A refused request answers zero and changes nothing. -/
lemma Holds.refused {e : EpochRecord ν} {epochGrants : Tally ν} (h : e.Holds epochGrants)
    (instanceName : ν) :
    (e.addGrant instanceName 0).Holds epochGrants where
  count n := by simpa [grantedTo, addGrant] using h.count n
  total := by simpa [granted, addGrant] using h.total

end EpochRecord

end Burla.Mint
