/-
The queues of a node (`SizedQueue` in node_service/helpers.py), with what they inherit.

A queue is used between two waits of the event loop, so each of its operations is one step.  A call
of `get` that finds the queue empty waits on a future of its own; it goes on in a later step, when
the future is done.  The futures are numbered in the order in which they are made.  A failed
operation gives no result and changes nothing.
-/
import Burla.Lib.System
import Burla.Lib.TwoEnded
import Mathlib.Data.Int.Notation

namespace Burla.Queue

inductive Future
  | pending
  | resolved
  | cancelled
  deriving DecidableEq

/-- A queue, with the futures on which its callers wait. -/
structure SizedQueue (α : Type*) where
  maxsize : ℤ
  /-- The items, with their sizes. -/
  queue : List (α × ℕ)
  sizeBytes : ℤ
  getters : List ℕ
  putters : List ℕ
  futures : List Future
  deriving DecidableEq

namespace SizedQueue

variable {α : Type*}

/-- `__init__` -/
def new (maxsize : ℤ) : SizedQueue α :=
  { maxsize := maxsize, queue := [], sizeBytes := 0, getters := [], putters := [], futures := [] }

def empty (q : SizedQueue α) : Bool := q.queue.isEmpty

def full (q : SizedQueue α) : Bool :=
  if q.maxsize ≤ 0 then false else decide (q.maxsize ≤ q.queue.length)

/-! ### Hooks -/

/-- `_put` -/
def putItem (item : α) (sizeBytes : ℕ) (q : SizedQueue α) : SizedQueue α :=
  { q with queue := q.queue ++ [(item, sizeBytes)], sizeBytes := q.sizeBytes + sizeBytes }

/-- `_get` -/
def getItem (q : SizedQueue α) : Option (α × SizedQueue α) :=
  match q.queue with
  | [] => none
  | (item, sizeBytes) :: rest =>
    some (item, { q with queue := rest, sizeBytes := q.sizeBytes - sizeBytes })

/-- `_get_last` -/
def getLast (q : SizedQueue α) : Option (α × SizedQueue α) :=
  match q.queue.getLast? with
  | none => none
  | some (item, sizeBytes) =>
    some (item, { q with queue := q.queue.dropLast, sizeBytes := q.sizeBytes - sizeBytes })

/-! ### Futures -/

/-- `_wakeup_next`: the first waiter that is not done is woken. -/
def wakeupNext : List ℕ → List Future → List ℕ × List Future
  | [], futures => ([], futures)
  | waiter :: waiters, futures =>
    if futures[waiter]? = some .pending then (waiters, futures.set waiter .resolved)
    else wakeupNext waiters futures

def wakeGetters (q : SizedQueue α) : SizedQueue α :=
  { q with
    getters := (wakeupNext q.getters q.futures).1
    futures := (wakeupNext q.getters q.futures).2 }

def wakePutters (q : SizedQueue α) : SizedQueue α :=
  { q with
    putters := (wakeupNext q.putters q.futures).1
    futures := (wakeupNext q.putters q.futures).2 }

/-- The cancellation of a future, which does nothing to one that is done. -/
def cancelFuture (future : ℕ) (q : SizedQueue α) : SizedQueue α :=
  if q.futures[future]? = some .pending then { q with futures := q.futures.set future .cancelled }
  else q

/-! ### Operations -/

def putNowait (item : α) (sizeBytes : ℕ) (q : SizedQueue α) : Option (SizedQueue α) :=
  if q.full then none else some (q.putItem item sizeBytes).wakeGetters

/-- `put`, which does not wait: a full queue is an error. -/
def put (item : α) (sizeBytes : ℕ) (q : SizedQueue α) : Option (SizedQueue α) :=
  q.putNowait item sizeBytes

def getNowait (q : SizedQueue α) : Option (α × SizedQueue α) :=
  if q.empty then none else q.getItem.map fun r => (r.1, r.2.wakePutters)

def getLastNowait (q : SizedQueue α) : Option (α × SizedQueue α) :=
  if q.empty then none else q.getLast.map fun r => (r.1, r.2.wakePutters)

/-- How far a call of `get` comes without a wait. -/
inductive Got (α : Type*)
  | waits (future : ℕ)
  | item (item : α)

/-- `get`, from the test of its loop up to the next wait or to its result; the last case is an error
of `get_nowait`. -/
def get (q : SizedQueue α) : Option (Got α × SizedQueue α) :=
  if q.empty then
    some (.waits q.futures.length,
      { q with getters := q.getters ++ [q.futures.length], futures := q.futures ++ [.pending] })
  else q.getNowait.map fun r => (.item r.1, r.2)

/-- The handler of `get`, when its wait on a future ends with an exception. -/
def giveUp (future : ℕ) (q : SizedQueue α) : SizedQueue α :=
  let q := q.cancelFuture future
  let q := { q with getters := q.getters.erase future }
  if !q.empty && decide (q.futures[future]? ≠ some .cancelled) then q.wakeGetters else q

end SizedQueue

/-! ### Use -/

open TwoEnded (End)

/-- A call of `get`. -/
inductive Call
  /-- It waits on a future; its task may have been cancelled after the future was done. -/
  | waiting (future : ℕ) (mustCancel : Bool)
  | ended
  deriving DecidableEq

/-- A queue in use.  Each item goes with its number, by the order in which the items are put. -/
structure Traffic (α : Type*) where
  queue : SizedQueue (ℕ × α)
  calls : List Call
  /-- What has been put, with its size. -/
  history : List (α × ℕ)
  /-- What has been taken, and at which end. -/
  taken : List (End × (ℕ × α))
  deriving DecidableEq

inductive Step (α : Type*)
  | put (item : α) (sizeBytes : ℕ)
  | putNowait (item : α) (sizeBytes : ℕ)
  | get
  /-- A call of `get` goes on: its future is done. -/
  | resume (call : ℕ)
  /-- The task of a call of `get` is cancelled. -/
  | cancel (call : ℕ)
  | getNowait
  | getLastNowait
  deriving DecidableEq

namespace Traffic

variable {α : Type*}

/-- A queue that has just been made. -/
def new (maxsize : ℤ) : Traffic α := ⟨.new maxsize, [], [], []⟩

/-- What comes of an item that is put. -/
def putBy (t : Traffic α) (item : α) (sizeBytes : ℕ) :
    Option (SizedQueue (ℕ × α)) → Traffic α
  | none => t
  | some q => { t with queue := q, history := t.history ++ [(item, sizeBytes)] }

/-- What comes of an item that is taken. -/
def takeBy (t : Traffic α) (e : End) : Option ((ℕ × α) × SizedQueue (ℕ × α)) → Traffic α
  | none => t
  | some (item, q) => { t with queue := q, taken := t.taken ++ [(e, item)] }

/-- A call of `get` runs until it waits or ends. -/
def getBy (t : Traffic α) (call : ℕ) : Traffic α :=
  match t.queue.get with
  | none => { t with calls := t.calls.set call .ended }
  | some (.waits future, q) =>
    { t with queue := q, calls := t.calls.set call (.waiting future false) }
  | some (.item item, q) =>
    { t with
      queue := q
      calls := t.calls.set call .ended
      taken := t.taken ++ [(.first, item)] }

def step (t : Traffic α) : Step α → Option (Traffic α)
  | .put item sizeBytes =>
    some (t.putBy item sizeBytes (t.queue.put (t.history.length, item) sizeBytes))
  | .putNowait item sizeBytes =>
    some (t.putBy item sizeBytes (t.queue.putNowait (t.history.length, item) sizeBytes))
  | .get => some (getBy { t with calls := t.calls ++ [.ended] } t.calls.length)
  | .resume call =>
    match t.calls[call]? with
    | some (.waiting future mustCancel) =>
      match t.queue.futures[future]? with
      | some .resolved =>
        if mustCancel then
          some { t with queue := t.queue.giveUp future, calls := t.calls.set call .ended }
        else some (t.getBy call)
      | some .cancelled =>
        some { t with queue := t.queue.giveUp future, calls := t.calls.set call .ended }
      | _ => none
    | _ => none
  | .cancel call =>
    match t.calls[call]? with
    | some (.waiting future _) =>
      if t.queue.futures[future]? = some .pending then
        some { t with queue := t.queue.cancelFuture future }
      else some { t with calls := t.calls.set call (.waiting future true) }
    | _ => none
  | .getNowait => some (t.takeBy .first t.queue.getNowait)
  | .getLastNowait => some (t.takeBy .last t.queue.getLastNowait)

/-- A queue in use, from the time when it is made. -/
def service : System (Traffic α) (Step α) where
  init t := ∃ maxsize, t = new maxsize
  step := step

end Traffic

end Burla.Queue
