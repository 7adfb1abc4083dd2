/-
The connection between a node and a worker: what a `WorkerClient` writes and reads
(worker_client.py), and the loop of the worker that receives, executes and answers
(worker_server.py).

What a command does is a parameter (`Handlers`): the packages that are installed, the function that
is loaded and called, and what they raise.  A `recv` gives as much of what has been sent as `sizes`
says, one byte at least and not more than was asked for; at the end of the stream it gives nothing,
and before that it waits.
-/
import Burla.Lib.Packets

namespace Burla.Workers.Wire

open Packets (bigEndian value Packet)

/-- Bytes that have a length of eight bytes. -/
abbrev Payload := { l : List UInt8 // l.length < 256 ^ 8 }

/-- No bytes. -/
def noBytes : Payload := ⟨[], by decide⟩

/-! ### Receiving -/

/-- What is left of a stream, whether it ends there, and how it comes. -/
structure Connection where
  rest : List UInt8
  ended : Bool
  sizes : ℕ → ℕ

/-- `connection.recv(n)`, or waiting for it -/
def Connection.recv (c : Connection) (n : ℕ) : Option (List UInt8 × Connection) :=
  if c.rest = [] then if c.ended then some ([], c) else none
  else
    let size := min n (c.sizes 0 + 1)
    some (c.rest.take size, ⟨c.rest.drop size, c.ended, fun j => c.sizes (j + 1)⟩)

lemma length_recv_le {c c' : Connection} {n : ℕ} {chunk : List UInt8}
    (h : c.recv n = some (chunk, c')) : chunk.length ≤ n := by
  rw [Connection.recv] at h
  split_ifs at h
  · obtain ⟨rfl, -⟩ := Prod.mk.inj (Option.some.inj h)
    exact Nat.zero_le n
  · obtain ⟨rfl, -⟩ := Prod.mk.inj (Option.some.inj h)
    rw [List.length_take]
    omega

/-- The loop of `receive_exactly`, with how much is missing. -/
def receiveLoop (c : Connection) (missing : ℕ) (payload : List UInt8) :
    Option (List UInt8 × Connection) :=
  if missing = 0 then some (payload, c)
  else
    match c.recv missing with
    | none => none
    | some (chunk, c') =>
      if chunk = [] then some (payload, c')
      else receiveLoop c' (missing - chunk.length) (payload ++ chunk)
termination_by missing
decreasing_by
  have := List.length_pos_iff.2 ‹chunk ≠ []›
  omega

/-- `receive_exactly` -/
def receiveExactly (c : Connection) (byteCount : ℕ) : Option (List UInt8 × Connection) :=
  receiveLoop c byteCount []

/-! ### The worker -/

/-- What the commands do to the state of a worker, and what they answer or raise. -/
structure Handlers (σ : Type*) where
  reset : σ → σ × Except Payload Unit
  install : σ → List UInt8 → σ × Except Payload Payload
  load : σ → List UInt8 → σ × Except Payload Unit
  call : σ → List UInt8 → σ × Except Payload Payload

/-- The tags of the commands, and of the answers. -/
def resetTag : UInt8 := 114
def installTag : UInt8 := 105
def loadTag : UInt8 := 108
def callTag : UInt8 := 99
def successTag : UInt8 := 115
def errorTag : UInt8 := 101

/-- An answer. -/
def answer : Except Payload Payload → Packet
  | .ok payload => ⟨successTag, payload.1, payload.2⟩
  | .error payload => ⟨errorTag, payload.1, payload.2⟩

/-- The answer of a command that has nothing to say. -/
def noPayload (o : Except Payload Unit) : Except Payload Payload := o.map fun _ => noBytes

/-- A command is executed; one that is not known does nothing. -/
def execute {σ : Type*} (h : Handlers σ) (s : σ) (command : UInt8) (payload : List UInt8) :
    σ × Packet :=
  if command = resetTag then ((h.reset s).1, answer (noPayload (h.reset s).2))
  else if command = installTag then ((h.install s payload).1, answer (h.install s payload).2)
  else if command = loadTag then ((h.load s payload).1, answer (noPayload (h.load s payload).2))
  else if command = callTag then ((h.call s payload).1, answer (h.call s payload).2)
  else (s, answer (.ok noBytes))

structure Worker (σ : Type*) where
  connection : Connection
  state : σ
  /-- The commands that have been executed, each with its payload. -/
  executed : List (UInt8 × List UInt8)
  sent : List UInt8

/-- How a worker has stopped. -/
inductive Stopped
  /-- In a `recv`. -/
  | waiting
  /-- By the end of the stream. -/
  | closed
  deriving DecidableEq, Repr

/-- The loop of a worker, with a bound on its rounds. -/
def serve {σ : Type*} (h : Handlers σ) : ℕ → Worker σ → Option (Worker σ × Stopped)
  | 0, _ => none
  | n + 1, w =>
    match receiveExactly w.connection 1 with
    | none => some (w, .waiting)
    | some ([], _) => some (w, .closed)
    | some (command :: _, c) =>
      match receiveExactly c 8 with
      | none => some (w, .waiting)
      | some (size, c) =>
        -- how many bytes there were of the size, or of the payload, is not looked at
        match receiveExactly c (value size) with
        | none => some (w, .waiting)
        | some (payload, c) =>
          serve h n {
            connection := c
            state := (execute h w.state command payload).1
            executed := w.executed ++ [(command, payload)]
            sent := w.sent ++ (execute h w.state command payload).2.bytes }

/-- A worker from the connection on: the first byte is sent back. -/
def session {σ : Type*} (h : Handlers σ) (s : σ) (c : Connection) (rounds : ℕ) :
    Option (Worker σ × Stopped) :=
  match receiveExactly c 1 with
  | none => some (⟨c, s, [], []⟩, .waiting)
  | some (ping, c) => serve h rounds ⟨c, s, [], ping⟩

/-! ### The node -/

/-- What a `WorkerClient` writes. -/
inductive Command
  | install (packages : Payload)
  | load (function : Payload)
  | call (request : Payload)
  | reset

/-- `writer.write(tag)`, `writer.write(len(payload).to_bytes(8, "big"))`, `writer.write(payload)` -/
def Command.packet : Command → Packet
  | .install packages => ⟨installTag, packages.1, packages.2⟩
  | .load function => ⟨loadTag, function.1, function.2⟩
  | .call request => ⟨callTag, request.1, request.2⟩
  | .reset => ⟨resetTag, [], by decide⟩

/-- The byte that is written after connecting. -/
def pingByte : UInt8 := 115

/-- All that a node writes, from connecting on. -/
def written (commands : List Command) : List UInt8 :=
  pingByte :: (commands.map Command.packet).flatMap Packet.bytes

/-- What `_read_response` returns or raises. -/
inductive Response
  | returned (payload : Option (List UInt8))
  /-- `WorkerFunctionError` -/
  | raised (error : List UInt8)
  deriving DecidableEq, Repr

/-- What else it raises. -/
inductive ReadError
  | workerFailed
  | incompleteRead
  | unknownStatus (status : UInt8)
  deriving DecidableEq, Repr

/-- `reader.readexactly(n)`, on a stream that has ended -/
def readExactly (n : ℕ) (stream : List UInt8) : Option (List UInt8 × List UInt8) :=
  if n ≤ stream.length then some (stream.take n, stream.drop n) else none

/-- A payload with its size before it. -/
def readPayload (stream : List UInt8) : Except ReadError (List UInt8 × List UInt8) :=
  match readExactly 8 stream with
  | none => .error .incompleteRead
  | some (size, stream) =>
    match readExactly (value size) stream with
    | none => .error .incompleteRead
    | some (payload, stream) => .ok (payload, stream)

/-- `_read_response` -/
def readResponse : List UInt8 → Except ReadError (Response × List UInt8)
  | [] => .error .workerFailed
  | status :: stream =>
    if status = successTag then
      (readPayload stream).map fun p => (.returned (if p.1 = [] then none else some p.1), p.2)
    else if status = errorTag then (readPayload stream).map fun p => (.raised p.1, p.2)
    else .error (.unknownStatus status)

/-- One response after another. -/
def readResponses : ℕ → List UInt8 → Except ReadError (List Response × List UInt8)
  | 0, stream => .ok ([], stream)
  | n + 1, stream =>
    match readResponse stream with
    | .error e => .error e
    | .ok (response, stream) =>
      (readResponses n stream).map fun rest => (response :: rest.1, rest.2)

end Burla.Workers.Wire
