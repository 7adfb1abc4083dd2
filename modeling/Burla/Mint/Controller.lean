/-
The head's mint controller (`main_service/mint_controller.py`): outcome-based
growth of a job in small epochs.

`JobController` is the state of `_JobController`; `grant`, `takeShed` and `tick` are its
three entry points.  The clock is an argument: `tick` reads it at its start (`now`) and
once more when it freezes a measured shortfall (`later`).  Rates and times are exact
rationals; the exponential and the square root are a parameter.
-/
import Burla.Lib.Numbers
import Burla.Lib.Tally

namespace Burla.Mint

/-! ### Constants -/

def gEwmaTauSec : ℚ := 30
def blockSec : ℚ := 15
def sigmaBlocks : ℕ := 8
def baselineNoiseBlocks : ℕ := 4
def sigmaDgFactor (m : MathFns) : ℚ := m.sqrt (2 * blockSec / (2 * gEwmaTauSec))

/-- A new worker must earn at least this fraction of an average worker's goodput. -/
def kappa : ℚ := 3 / 10
/-- One-sided 5%: freeze only when the shortfall is real. -/
def freezeZ : ℚ := 165 / 100
def rollbackZ : ℚ := 3

def epochGrantWindowSec : ℚ := 30
def epochVerdictAgeSec : ℚ := 75
def epochExtensionSec : ℚ := 45
def epochMaxExtensions : ℕ := 2
def epochNoGrowthDeadlineSec : ℚ := 150
def epochMinGrowthFraction : ℚ := 2 / 100
def epochMinGrowthSlots : ℚ := 4

def allowanceBaseFraction : ℚ := 10 / 100
def allowanceMinSlots : ℤ := 4
def allowanceMaxFraction : ℚ := 5 / 10
def verifiedMultiplier : ℚ := 2
def verifiedStrongFraction : ℚ := 8 / 10
def verifiedStrongMultiplier : ℚ := 4

def probeIntervalSec : ℚ := 90
def probeIntervalMaxSec : ℚ := 600
def probeFraction : ℚ := 2 / 100

def stateLogIntervalSec : ℚ := 30

/-! ### State -/

/-- The open epoch: the dict that `grant` builds. -/
structure Epoch where
  openedAt : ℚ
  /-- Workers at the opening. -/
  WBase : ℕ
  /-- Goodput at the opening. -/
  GBase : ℚ
  /-- Noise of the baseline, `none` when there were too few blocks. -/
  sigma : Option ℚ
  extensions : ℕ
  nextVerdictAt : ℚ
  deriving DecidableEq, Repr

/-- What the controller remembers of the ticks before: the attributes that the first
tick sets, all of them together. -/
structure Feed where
  lastTotal : ℕ
  lastTickAt : ℚ
  blockStartedAt : ℚ
  blockStartTotal : ℕ
  blockFullyBusy : Bool
  deriving DecidableEq, Repr

/-- `_JobController`, with `ν` the instance names. -/
structure JobController (ν : Type*) where
  frozen : Bool
  probing : Bool
  probeAt : Option ℚ
  probeInterval : ℚ
  allowance : ℤ
  epoch : Option Epoch
  /-- Slots granted this epoch, by instance. -/
  epochGrants : Tally ν
  /-- Slots to take back, by instance. -/
  pendingSheds : Tally ν
  /-- Job goodput, an exponentially weighted average. -/
  G : ℚ
  /-- Workers of the job. -/
  W : ℕ
  busy : ℕ
  feed : Option Feed
  blocks : List ℚ
  lastStateLoggedAt : ℚ

/-- The measurements that a verdict's debug event carries. -/
structure VerdictFields where
  dW : ℤ
  dG : ℚ
  bar : ℚ
  sigma : Option ℚ
  W : ℕ
  busy : ℕ
  nBlocks : ℕ
  G : ℚ
  probing : Bool
  shed : Option ℤ := none
  deriving DecidableEq, Repr

/-- The debug events that `tick` returns. -/
inductive DebugEvent
  | mintState (W busy : ℕ) (G : ℚ) (nBlocks : ℕ) (allowance : ℤ) (frozen epochOpen : Bool)
  | mintProbeOpened (allowance : ℤ) (W : ℕ) (G : ℚ)
  | mintEpochNoEvidence (dW shed probeInSec : ℤ) (W : ℕ) (G : ℚ)
  | mintEpochVerified (strong : Bool) (nextAllowance : ℤ) (fields : VerdictFields)
  | mintEpochExtended (fields : VerdictFields)
  | mintEpochRolledBack (probeInSec : ℤ) (fields : VerdictFields)
  | mintEpochInconclusive (probeInSec : ℤ) (fields : VerdictFields)
  | mintEpochFrozen (probeInSec : ℤ) (fields : VerdictFields)
  deriving DecidableEq, Repr

/-- Is this the event of a verified epoch? -/
def DebugEvent.isVerified : DebugEvent → Bool
  | .mintEpochVerified .. => true
  | _ => false

/-- The exception that arithmetic on `None` raises. -/
inductive PyError
  | typeError
  deriving DecidableEq, Repr

def baseAllowance (workerCount : ℕ) : ℤ :=
  max allowanceMinSlots (roundHalfEven (allowanceBaseFraction * workerCount))

/-- Noise of a goodput difference, from the spread of the block rates. -/
def sigmaDg (m : MathFns) (blocks : List ℚ) : Option ℚ :=
  if blocks.length < 4 then none
  else
    let mean := blocks.sum / blocks.length
    let variance := (blocks.map fun b => (b - mean) ^ 2).sum / (blocks.length - 1 : ℚ)
    some (m.sqrt variance * sigmaDgFactor m)

namespace JobController

variable {ν : Type*} [DecidableEq ν]

/-- `__init__`; `busy` is not set there and read only after a tick has set it. -/
def new (workerCount : ℕ) : JobController ν where
  frozen := false
  probing := false
  probeAt := none
  probeInterval := probeIntervalSec
  allowance := baseAllowance workerCount
  epoch := none
  epochGrants := ∅
  pendingSheds := ∅
  G := 0
  W := workerCount
  busy := 0
  feed := none
  blocks := []
  lastStateLoggedAt := 0

/-! ### Grants and sheds -/

/-- The allowance an epoch opens with: refreshed from the live worker count, except for a
probe, which keeps its deliberately small one. -/
def openingAllowance (c : JobController ν) : ℤ :=
  if c.probing then c.allowance else max c.allowance (baseAllowance c.W)

/-- The first grant opens the epoch and snapshots goodput, workers and noise. -/
def openEpoch (m : MathFns) (c : JobController ν) (now : ℚ) : JobController ν :=
  { c with
    allowance := c.openingAllowance
    epoch := some
      { openedAt := now
        WBase := c.W
        GBase := c.G
        sigma := sigmaDg m (c.blocks.drop (c.blocks.length - baselineNoiseBlocks))
        extensions := 0
        nextVerdictAt := now + epochVerdictAgeSec }
    epochGrants := ∅ }

/-- The end of `grant`: hand out what the allowance has left of the request. -/
def give (c : JobController ν) (instanceName : ν) (slotsRequested : ℤ) :
    ℤ × JobController ν :=
  let granted := min slotsRequested c.allowance
  (granted,
    { c with
      allowance := c.allowance - granted
      epochGrants := c.epochGrants.add instanceName granted })

/-- `grant`: the slots granted, and the controller afterwards. -/
def grant (m : MathFns) (c : JobController ν) (now : ℚ) (instanceName : ν)
    (slotsRequested : ℤ) : ℤ × JobController ν :=
  if c.frozen || c.allowance ≤ 0 then (0, c)
  -- the goodput average has to warm up first
  else if c.blocks.length < sigmaBlocks then (0, c)
  else
    match c.epoch with
    | some epoch =>
      if now - epoch.openedAt > epochGrantWindowSec then (0, c)
      else if instanceName ∈ c.epochGrants then (0, c)
      else c.give instanceName slotsRequested
    | none => (c.openEpoch m now).give instanceName slotsRequested

/-- `take_shed`: the slots pending for an instance, handed over once. -/
def takeShed (c : JobController ν) (instanceName : ν) : ℤ × JobController ν :=
  (c.pendingSheds.count instanceName,
    { c with pendingSheds := c.pendingSheds.remove instanceName })

/-! ### Ticks: the measurements -/

/-- One sample of the goodput average. -/
def sampleG (m : MathFns) (G : ℚ) (feed : Feed) (now : ℚ) (totalResults : ℕ) : ℚ :=
  let dt := now - feed.lastTickAt
  if dt > 0 then
    let rate := ((totalResults : ℚ) - feed.lastTotal) / dt
    let weight := 1 - m.exp (-dt / gEwmaTauSec)
    G + (rate - G) * weight
  else G

/-- A deque of at most `sigmaBlocks` block rates. -/
def pushBlock (blocks : List ℚ) (rate : ℚ) : List ℚ :=
  (blocks ++ [rate]).drop (blocks.length + 1 - sigmaBlocks)

/-- The first part of `tick`: fold the job's aggregates into goodput and noise blocks. -/
def measure (m : MathFns) (c : JobController ν) (feed : Feed) (now : ℚ)
    (totalResults workerCount busyCount : ℕ) : JobController ν :=
  let blockFullyBusy := feed.blockFullyBusy &&
    (decide (workerCount > 0) && decide ((busyCount : ℚ) ≥ 9 / 10 * workerCount))
  let c :=
    { c with W := workerCount, busy := busyCount, G := sampleG m c.G feed now totalResults }
  if now - feed.blockStartedAt ≥ blockSec then
    let blockRate := ((totalResults : ℚ) - feed.blockStartTotal) / (now - feed.blockStartedAt)
    { c with
      blocks := if blockFullyBusy then pushBlock c.blocks blockRate else c.blocks
      feed := some
        { lastTotal := totalResults, lastTickAt := now, blockStartedAt := now
          blockStartTotal := totalResults, blockFullyBusy := true } }
  else
    { c with
      feed := some
        { feed with lastTotal := totalResults, lastTickAt := now, blockFullyBusy } }

/-- The state ledger's entry, at most one every `stateLogIntervalSec`. -/
def logState (c : JobController ν) (now : ℚ) : List DebugEvent × JobController ν :=
  if now - c.lastStateLoggedAt > stateLogIntervalSec then
    ([.mintState c.W c.busy (roundTo 2 c.G) c.blocks.length c.allowance c.frozen
        c.epoch.isSome],
      { c with lastStateLoggedAt := now })
  else ([], c)

/-! ### Ticks: the verdict -/

/-- Book the open epoch's whole grant for shedding. -/
def shedEpoch (c : JobController ν) : JobController ν :=
  { c with pendingSheds := Tally.merge c.pendingSheds c.epochGrants }

/-- A failed probe doubles the probe interval. -/
def backOff (c : JobController ν) : JobController ν :=
  if c.probing then { c with probeInterval := min (c.probeInterval * 2) probeIntervalMaxSec }
  else c

/-- Close the epoch and stop growing until the next probe. -/
def freeze (c : JobController ν) (at_ : ℚ) : JobController ν :=
  { c with
    frozen := true
    probing := false
    allowance := 0
    probeAt := some (at_ + c.probeInterval)
    epoch := none
    epochGrants := ∅ }

/-- Close a verified epoch: the next allowance grows with what this one granted. -/
def verify (c : JobController ν) (strong : Bool) : JobController ν :=
  let multiplier := if strong then verifiedStrongMultiplier else verifiedMultiplier
  let granted := c.epochGrants.total
  { c with
    allowance := min (max (baseAllowance c.W) (roundHalfEven (granted * multiplier)))
      (roundHalfEven (allowanceMaxFraction * c.W))
    epoch := none
    epochGrants := ∅
    probing := false
    probeInterval := probeIntervalSec }

/-- Watch an ambiguous epoch for a while longer. -/
def extend (c : JobController ν) (epoch : Epoch) (now : ℚ) : JobController ν :=
  { c with
    epoch := some
      { epoch with
        extensions := epoch.extensions + 1
        nextVerdictAt := now + epochExtensionSec } }

/-- The step below which an epoch proves nothing. -/
def minGrowth (epoch : Epoch) : ℚ :=
  max epochMinGrowthSlots (epochMinGrowthFraction * epoch.WBase)

/-- `_judge_epoch`. -/
def judgeEpoch (c : JobController ν) (epoch : Epoch) (now later : ℚ) :
    Except PyError (Option DebugEvent) × JobController ν :=
  let age := now - epoch.openedAt
  if now < epoch.nextVerdictAt then (.ok none, c)
  else
    let dW : ℤ := c.W - epoch.WBase
    if dW < minGrowth epoch then
      if age < epochNoGrowthDeadlineSec then (.ok none, c)
      else
        let c' := c.shedEpoch.backOff.freeze now
        (.ok (some (.mintEpochNoEvidence dW c.epochGrants.total
          (roundHalfEven c'.probeInterval) c.W (roundTo 2 c.G))), c')
    else
      let dG := c.G - epoch.GBase
      let averagePerWorker := if c.W = 0 then 0 else c.G / c.W
      let bar := kappa * averagePerWorker * dW
      let fields : VerdictFields :=
        { dW, dG := roundTo 3 dG, bar := roundTo 3 bar, sigma := epoch.sigma.map (roundTo 3)
          W := c.W, busy := c.busy, nBlocks := c.blocks.length, G := roundTo 2 c.G
          probing := c.probing }
      match epoch.sigma with
      -- every branch from here on multiplies by sigma
      | none => (.error .typeError, c)
      | some sigma =>
        -- the noise floor is cleared strictly: `0 ≥ 0` would verify blind growth
        if dG ≥ bar ∧ dG > freezeZ * sigma then
          let strong := decide (dG ≥ verifiedStrongFraction * averagePerWorker * dW)
          let c' := c.verify strong
          (.ok (some (.mintEpochVerified strong c'.allowance fields)), c')
        else
          let ambiguous := decide (dG ≥ bar - freezeZ * sigma)
          if ambiguous = true ∧ epoch.extensions < epochMaxExtensions then
            (.ok (some (.mintEpochExtended fields)), c.extend epoch now)
          else
            let rollback := decide (dG < -rollbackZ * sigma)
            let shed := rollback || c.probing
            let c' := (if shed then c.shedEpoch else c).backOff.freeze later
            let fields := if shed then { fields with shed := some c.epochGrants.total } else fields
            let probeInSec := roundHalfEven c'.probeInterval
            (.ok (some
              (if rollback then .mintEpochRolledBack probeInSec fields
              else if ambiguous then .mintEpochInconclusive probeInSec fields
              else .mintEpochFrozen probeInSec fields)), c')

/-- A frozen job re-probes with a small allowance. -/
def openProbe (c : JobController ν) : JobController ν :=
  { c with
    frozen := false
    probing := true
    probeAt := none
    allowance := max allowanceMinSlots (roundHalfEven (probeFraction * c.W)) }

/-- Is a frozen job's next probe due? -/
def probeDue (c : JobController ν) (now : ℚ) : Bool :=
  c.frozen && c.probeAt.any fun probeAt => decide (now ≥ probeAt)

/-- `_advance`. -/
def advance (c : JobController ν) (now later : ℚ) :
    Except PyError (Option DebugEvent) × JobController ν :=
  if c.probeDue now then
    let c' := c.openProbe
    (.ok (some (.mintProbeOpened c'.allowance c.W (roundTo 2 c.G))), c')
  else
    match c.epoch with
    | none => (.ok none, c)
    | some epoch => c.judgeEpoch epoch now later

/-- `tick`: the debug events, or the exception, and the controller afterwards. -/
def tick (m : MathFns) (c : JobController ν) (now later : ℚ)
    (totalResults workerCount busyCount : ℕ) :
    Except PyError (List DebugEvent) × JobController ν :=
  match c.feed with
  | none =>
    (.ok [],
      { c with
        W := workerCount
        busy := busyCount
        feed := some
          { lastTotal := totalResults, lastTickAt := now, blockStartedAt := now
            blockStartTotal := totalResults, blockFullyBusy := false } })
  | some feed =>
    let (events, c) := (c.measure m feed now totalResults workerCount busyCount).logState now
    match c.advance now later with
    | (.ok verdict, c) => (.ok (events ++ verdict.toList), c)
    | (.error e, c) => (.error e, c)

end JobController

end Burla.Mint
