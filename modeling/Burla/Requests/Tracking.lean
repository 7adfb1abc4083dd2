/-
The requests that are open on a node, and the count that it keeps of them
(`TrackOpenRequestMiddleware` and `REINIT_SELF` in node_service/__init__.py).

A request is known by its place among all that have come to the middleware.  Its application
receives events and sends messages until it returns or raises; a request is open until the last
part of its response is sent, its client disconnects, or its application ends.  Times are in
milliseconds.
-/
import Burla.Lib.System
import Mathlib.Data.Int.Notation

namespace Burla.Requests

abbrev Text := List Char

/-! ### The node -/

/-- A request: whether it has been marked as done, and what has happened to it. -/
structure Request where
  requestDone : Bool
  responseSent : Bool
  disconnected : Bool
  ended : Bool
  deriving DecidableEq

/-- Whether a request is open. -/
def Request.isOpen (r : Request) : Bool := !(r.responseSent || r.disconnected || r.ended)

/-- What of `SELF` counts requests or keeps the node up, with the time and the requests. -/
structure Node where
  activeClientRequestCount : ℤ
  lastClientActivityTimestamp : ℕ
  currentJob : Option Text
  reservedForJob : Option Text
  running : Bool
  booting : Bool
  now : ℕ
  requests : List Request
  deriving DecidableEq

namespace Node

/-- How many requests are open. -/
def openRequests (s : Node) : ℕ := s.requests.countP Request.isOpen

/-- `REINIT_SELF` -/
def reinitSelf (s : Node) : Node :=
  { s with
    activeClientRequestCount := 0
    lastClientActivityTimestamp := s.now
    currentJob := none
    reservedForJob := none
    running := false
    booting := false }

/-- The node when its service is loaded. -/
def loaded (reservedForJob : Option Text) (now : ℕ) : Node :=
  { activeClientRequestCount := 0
    lastClientActivityTimestamp := now
    currentJob := none
    reservedForJob := reservedForJob
    running := false
    booting := false
    now := now
    requests := [] }

/-- `reinit_node`, after a job. -/
def reinitNode (s : Node) : Node := s.reinitSelf

/-- `reboot_containers`, up to its first wait after the state has been reset. -/
def rebootContainers (s : Node) : Node :=
  { s.reinitSelf with booting := true, reservedForJob := s.reservedForJob }

/-- `mark_request_done` -/
def markRequestDone (i : ℕ) (s : Node) : Node :=
  match s.requests[i]? with
  | none => s
  | some r =>
    if r.requestDone then s
    else
      { s with
        requests := s.requests.set i { r with requestDone := true }
        activeClientRequestCount := s.activeClientRequestCount - 1
        lastClientActivityTimestamp := s.now }

/-- Something happens to a request. -/
def note (i : ℕ) (f : Request → Request) (s : Node) : Node :=
  { s with requests := s.requests.modify i f }

/-- Whether the application of a request goes on. -/
def goesOn (s : Node) (i : ℕ) : Bool := s.requests[i]?.any fun r => !r.ended

end Node

/-! ### Events -/

/-- What an application receives. -/
inductive Event
  | request
  | disconnect
  deriving DecidableEq

/-- What an application sends. -/
inductive Message
  | responseStart
  | responseBody (moreBody : Bool)
  deriving DecidableEq

/-- `wrapped_receive` -/
def Node.wrappedReceive (i : ℕ) (event : Event) (s : Node) : Node :=
  match event with
  | .disconnect => (s.markRequestDone i).note i fun r => { r with disconnected := true }
  | .request => s

/-- `wrapped_send` -/
def Node.wrappedSend (i : ℕ) (message : Message) (s : Node) : Node :=
  match message with
  | .responseBody false => (s.markRequestDone i).note i fun r => { r with responseSent := true }
  | _ => s

/-- Whether a job can be started: by a request that is not refused. -/
def Node.accepts (s : Node) : Bool := !(s.running || s.booting)

inductive Step
  | wait (elapsed : ℕ)
  /-- A request comes to the middleware. -/
  | call
  | receive (i : ℕ) (event : Event)
  | send (i : ℕ) (message : Message)
  /-- The application of a request returns or raises. -/
  | finish (i : ℕ)
  /-- A response is a success, or the job watcher has been starved. -/
  | touch
  | onJobStart (job : Text)
  /-- The head reserves the node, or ends a reservation. -/
  | reserve (reservation : Option Text)
  | reinitNode
  | rebootContainers
  /-- The containers have been booted. -/
  | booted
  deriving DecidableEq

/-- Whether a step resets the state. -/
def Step.resets : Step → Bool
  | .reinitNode | .rebootContainers => true
  | _ => false

namespace Node

def step (s : Node) : Step → Option Node
  | .wait elapsed => some { s with now := s.now + elapsed }
  | .call =>
    some { s with
      activeClientRequestCount := s.activeClientRequestCount + 1
      requests := s.requests ++ [⟨false, false, false, false⟩] }
  | .receive i event => if s.goesOn i then some (s.wrappedReceive i event) else none
  | .send i message => if s.goesOn i then some (s.wrappedSend i message) else none
  | .finish i =>
    if s.goesOn i then
      some ((s.markRequestDone i).note i fun r => { r with ended := true })
    else none
  | .touch => some { s with lastClientActivityTimestamp := s.now }
  | .onJobStart job =>
    if s.accepts then
      some { s with running := true, currentJob := some job, reservedForJob := none }
    else none
  | .reserve reservation =>
    if s.currentJob.isSome then none else some { s with reservedForJob := reservation }
  | .reinitNode => some s.reinitNode
  | .rebootContainers => some s.rebootContainers
  | .booted => some { s with booting := false }

/-- A node that serves requests. -/
def service : System Node Step where
  init s := ∃ reservedForJob now, s = loaded reservedForJob now
  step := step

/-! ### What the count is used for -/

/-- How long nothing has been heard of a client. -/
def timeSinceLastActivity (s : Node) : ℕ := s.now - s.lastClientActivityTimestamp

/-- Whether the loop of `shutdown_if_idle_for_too_long` goes on. -/
def staysUp (inactivityShutdownTime : ℕ) (headIsGone : Bool) (s : Node) : Bool :=
  decide (s.timeSinceLastActivity ≤ inactivityShutdownTime) ||
    decide (0 < s.activeClientRequestCount) ||
    (!headIsGone && (s.currentJob.isSome || s.reservedForJob.isSome)) || s.booting

/-- Whether the job watcher takes the client to be listening. -/
def clientContact (clientContactTimeout : ℕ) (s : Node) : Bool :=
  decide (s.timeSinceLastActivity < clientContactTimeout) ||
    (decide (0 < s.activeClientRequestCount) && decide (s.timeSinceLastActivity < 15000))

end Node

end Burla.Requests
