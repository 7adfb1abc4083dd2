/-
What of the commands that a node writes is executed.

* `serve_packets`: however the bytes come, complete packets are executed as they were written.
* `exact_iff`: of a beginning of what is written, exactly the commands that are complete are
  executed, and each read gives the answer of its command, if and only if the stream goes on or ends
  between two commands.

The end of a stream within a command is not noticed: what there is of it is executed.
-/
import Burla.Workers.Wire

namespace Burla.Workers.Wire

open Packets (bigEndian value Packet complete AtBorder Part)

/-! ### Receiving -/

section Receiving

variable {c c' : Connection} {n : ℕ} {chunk payload : List UInt8}

/-- A chunk is a beginning of what is left, and it is empty only at the end. -/
lemma recv_spec (hn : n ≠ 0) (h : c.recv n = some (chunk, c')) :
    c.rest = chunk ++ c'.rest ∧ c'.ended = c.ended ∧ chunk.length ≤ n ∧
      (chunk = [] → c.rest = [] ∧ c.ended = true) := by
  have hlength := length_recv_le h
  rw [Connection.recv] at h
  split_ifs at h with hnil hended
  · obtain ⟨rfl, rfl⟩ := Prod.mk.inj (Option.some.inj h)
    exact ⟨rfl, rfl, hlength, fun _ => ⟨hnil, hended⟩⟩
  · obtain ⟨rfl, rfl⟩ := Prod.mk.inj (Option.some.inj h)
    refine ⟨(List.take_append_drop _ _).symm, rfl, hlength, fun htake => ?_⟩
    rcases List.take_eq_nil_iff.1 htake with hzero | hnil'
    · omega
    · exact absurd hnil' hnil

lemma recv_eq_none (h : c.recv n = none) : c.rest = [] ∧ c.ended = false := by
  rw [Connection.recv] at h
  split_ifs at h with hnil hended
  exact ⟨hnil, Bool.eq_false_iff.2 hended⟩

/-- **What is missing is received**, in whatever pieces it comes: all of it, when there is as much;
what is left, at the end of the stream; and otherwise it is waited for. -/
lemma receiveLoop_spec (c : Connection) (missing : ℕ) (payload : List UInt8) :
    (missing ≤ c.rest.length → ∃ sizes, receiveLoop c missing payload =
      some (payload ++ c.rest.take missing, ⟨c.rest.drop missing, c.ended, sizes⟩)) ∧
    (c.rest.length < missing → c.ended = true → ∃ sizes, receiveLoop c missing payload =
      some (payload ++ c.rest, ⟨[], true, sizes⟩)) ∧
    (c.rest.length < missing → c.ended = false → receiveLoop c missing payload = none) := by
  fun_induction receiveLoop c missing payload with
  | case1 c payload =>
    refine ⟨fun _ => ⟨c.sizes, ?_⟩, fun h => absurd h (Nat.not_lt_zero _),
      fun h => absurd h (Nat.not_lt_zero _)⟩
    rw [List.take_zero, List.append_nil]
    rfl
  | case2 c missing payload hne hrecv =>
    obtain ⟨hnil, hended⟩ := recv_eq_none hrecv
    rw [hnil, hended, List.length_nil]
    exact ⟨fun h => absurd (Nat.le_zero.1 h) hne, fun _ h => absurd h Bool.false_ne_true,
      fun _ _ => rfl⟩
  | case3 c missing payload hne c' hrecv =>
    obtain ⟨hrest, hended', -, hlast⟩ := recv_spec hne hrecv
    obtain ⟨hnil, hended⟩ := hlast rfl
    have hc' : c' = ⟨[], true, c'.sizes⟩ := by
      cases c'
      rw [hnil, List.nil_append] at hrest
      rw [hended] at hended'
      congr
      exact hrest.symm
    rw [hnil, List.length_nil]
    refine ⟨fun h => absurd (Nat.le_zero.1 h) hne, fun _ _ => ⟨c'.sizes, ?_⟩,
      fun _ h => absurd (h.symm.trans hended) Bool.false_ne_true⟩
    rw [List.append_nil, ← hc']
  | case4 c missing payload hne chunk c' hrecv hchunk ih =>
    obtain ⟨hrest, hended, hle, -⟩ := recv_spec hne hrecv
    obtain ⟨hall, hshort, hwait⟩ := ih
    have hlength : c.rest.length = chunk.length + c'.rest.length := by
      rw [hrest, List.length_append]
    have htake : c.rest.take missing = chunk ++ c'.rest.take (missing - chunk.length) := by
      rw [hrest, List.take_append, List.take_of_length_le hle]
    have hdrop : c.rest.drop missing = c'.rest.drop (missing - chunk.length) := by
      rw [hrest, List.drop_append, List.drop_of_length_le hle, List.nil_append]
    refine ⟨fun h => ?_, fun h he => ?_, fun h he => hwait (by omega) (hended.trans he)⟩
    · obtain ⟨sizes, heq⟩ := hall (by omega)
      exact ⟨sizes, by rw [heq, htake, hdrop, hended, List.append_assoc]⟩
    · obtain ⟨sizes, heq⟩ := hshort (by omega) (hended.trans he)
      exact ⟨sizes, by rw [heq, hrest, List.append_assoc]⟩

variable {a : List UInt8}

/-- As many bytes as are asked for, when they have been sent. -/
lemma receiveExactly_append (h : a.length = n) (b : List UInt8) (ended : Bool) (sizes : ℕ → ℕ) :
    ∃ sizes',
    receiveExactly ⟨a ++ b, ended, sizes⟩ n = some (a, ⟨b, ended, sizes'⟩) := by
  obtain ⟨sizes', heq⟩ := (receiveLoop_spec ⟨a ++ b, ended, sizes⟩ n []).1 (by
    show n ≤ (a ++ b).length
    rw [List.length_append]
    omega)
  refine ⟨sizes', ?_⟩
  rw [receiveExactly, heq]
  show some ([] ++ (a ++ b).take n, _) = _
  rw [← h, List.take_left, List.drop_left]
  rfl

lemma receiveExactly_one (tag : UInt8) (b : List UInt8) (ended : Bool) (sizes : ℕ → ℕ) : ∃ sizes',
    receiveExactly ⟨tag :: b, ended, sizes⟩ 1 = some ([tag], ⟨b, ended, sizes'⟩) :=
  receiveExactly_append (List.length_singleton (a := tag)) b ended sizes

/-- The rest, when the stream has ended. -/
lemma receiveExactly_ended (h : a.length < n) (sizes : ℕ → ℕ) : ∃ sizes',
    receiveExactly ⟨a, true, sizes⟩ n = some (a, ⟨[], true, sizes'⟩) := by
  obtain ⟨sizes', heq⟩ := (receiveLoop_spec ⟨a, true, sizes⟩ n []).2.1 h rfl
  exact ⟨sizes', heq⟩

lemma receiveExactly_open (h : a.length < n) (sizes : ℕ → ℕ) :
    receiveExactly ⟨a, false, sizes⟩ n = none :=
  (receiveLoop_spec ⟨a, false, sizes⟩ n []).2.2 h rfl

/-- At the end of the stream nothing is received, however much is asked for. -/
lemma receiveExactly_nil (n : ℕ) (sizes : ℕ → ℕ) : ∃ sizes',
    receiveExactly ⟨[], true, sizes⟩ n = some ([], ⟨[], true, sizes'⟩) := by
  cases n with
  | zero => exact receiveExactly_append List.length_nil [] true sizes
  | succ n => exact receiveExactly_ended (Nat.zero_lt_succ n) sizes

end Receiving

/-! ### Executing -/

section Executing

variable {σ : Type*} {h : Handlers σ}

/-- The state after some commands. -/
def stateAfter (h : Handlers σ) (s : σ) (qs : List Packet) : σ :=
  qs.foldl (fun s q => (execute h s q.tag q.payload).1) s

/-- Their answers. -/
def answers (h : Handlers σ) : σ → List Packet → List Packet
  | _, [] => []
  | s, q :: qs =>
    (execute h s q.tag q.payload).2 :: answers h (execute h s q.tag q.payload).1 qs

/-- A command with its payload. -/
def entry (q : Packet) : UInt8 × List UInt8 := (q.tag, q.payload)

variable (q : Packet) (qs : List Packet) (b : List UInt8) (ended : Bool) (sizes : ℕ → ℕ) (s : σ)
  (executed : List (UInt8 × List UInt8)) (sent : List UInt8) (n : ℕ)

/-- **A complete packet is executed** as it was written. -/
lemma serve_packet : ∃ sizes',
    serve h (n + 1) ⟨⟨q.bytes ++ b, ended, sizes⟩, s, executed, sent⟩ =
      serve h n ⟨⟨b, ended, sizes'⟩, (execute h s q.tag q.payload).1, executed ++ [entry q],
        sent ++ (execute h s q.tag q.payload).2.bytes⟩ := by
  have hbytes : q.bytes ++ b = q.tag :: (bigEndian 8 q.payload.length ++ (q.payload ++ b)) := by
    rw [Packet.bytes, List.cons_append, List.append_assoc]
  obtain ⟨sizes₁, h₁⟩ := receiveExactly_one q.tag
    (bigEndian 8 q.payload.length ++ (q.payload ++ b)) ended sizes
  obtain ⟨sizes₂, h₂⟩ := receiveExactly_append (Packets.length_bigEndian 8 q.payload.length)
    (q.payload ++ b) ended sizes₁
  obtain ⟨sizes₃, h₃⟩ := receiveExactly_append (rfl : q.payload.length = _) b ended sizes₂
  refine ⟨sizes₃, ?_⟩
  rw [hbytes, serve]
  simp only [h₁, h₂, Packets.value_bigEndian q.length_lt, h₃]
  rfl

/-- **Complete packets are executed** as they were written, one after another. -/
lemma serve_packets : ∃ sizes',
    serve h (qs.length + n) ⟨⟨qs.flatMap Packet.bytes ++ b, ended, sizes⟩, s, executed, sent⟩ =
      serve h n ⟨⟨b, ended, sizes'⟩, stateAfter h s qs, executed ++ qs.map entry,
        sent ++ (answers h s qs).flatMap Packet.bytes⟩ := by
  induction qs generalizing s sizes executed sent with
  | nil =>
    refine ⟨sizes, ?_⟩
    rw [List.length_nil, Nat.zero_add, List.map_nil, List.append_nil, answers, List.flatMap_nil,
      List.nil_append]
    rw [List.append_nil]
    rfl
  | cons q qs ih =>
    rw [List.flatMap_cons, List.append_assoc, List.length_cons, Nat.add_right_comm]
    obtain ⟨sizes₁, h₁⟩ := serve_packet (h := h) q (qs.flatMap Packet.bytes ++ b) ended sizes s
      executed sent (qs.length + n)
    obtain ⟨sizes₂, h₂⟩ := ih sizes₁ (execute h s q.tag q.payload).1 (executed ++ [entry q])
      (sent ++ (execute h s q.tag q.payload).2.bytes)
    refine ⟨sizes₂, ?_⟩
    rw [h₁, h₂, List.append_assoc, List.append_assoc]
    rfl

/-- At the end of what has been sent the worker stops, one way or the other. -/
lemma serve_nil : ∃ stopped, serve h (n + 1) ⟨⟨[], ended, sizes⟩, s, executed, sent⟩ =
    some (⟨⟨[], ended, sizes⟩, s, executed, sent⟩, stopped) := by
  rw [serve]
  cases ended with
  | true =>
    obtain ⟨sizes', heq⟩ := receiveExactly_nil 1 sizes
    simp only [heq]
    exact ⟨.closed, rfl⟩
  | false =>
    have hnone : receiveExactly ⟨[], false, sizes⟩ 1 = none :=
      receiveExactly_open (show ([] : List UInt8).length < 1 from Nat.zero_lt_one) sizes
    simp only [hnone]
    exact ⟨.waiting, rfl⟩

/-- Some of the size is missing, and all of the payload: nothing is taken for the payload. -/
lemma serve_size_ended {q : Packet} {size : List UInt8} (hsize : size.length < 8) : ∃ sizes',
    serve h (n + 1) ⟨⟨q.tag :: size, true, sizes⟩, s, executed, sent⟩ =
      serve h n ⟨⟨[], true, sizes'⟩, (execute h s q.tag []).1, executed ++ [(q.tag, [])],
        sent ++ (execute h s q.tag []).2.bytes⟩ := by
  obtain ⟨sizes₁, h₁⟩ := receiveExactly_one q.tag size true sizes
  obtain ⟨sizes₂, h₂⟩ := receiveExactly_ended hsize sizes₁
  obtain ⟨sizes₃, h₃⟩ := receiveExactly_nil (value size) sizes₂
  refine ⟨sizes₃, ?_⟩
  rw [serve]
  simp only [h₁, h₂, h₃]

/-- Some of the payload is missing: the rest is taken for it. -/
lemma serve_payload_ended {q : Packet} {begun : List UInt8}
    (hbegun : begun.length < q.payload.length) : ∃ sizes',
    serve h (n + 1)
        ⟨⟨q.tag :: (bigEndian 8 q.payload.length ++ begun), true, sizes⟩, s, executed, sent⟩ =
      serve h n ⟨⟨[], true, sizes'⟩, (execute h s q.tag begun).1, executed ++ [(q.tag, begun)],
        sent ++ (execute h s q.tag begun).2.bytes⟩ := by
  obtain ⟨sizes₁, h₁⟩ := receiveExactly_one q.tag
    (bigEndian 8 q.payload.length ++ begun) true sizes
  obtain ⟨sizes₂, h₂⟩ := receiveExactly_append (Packets.length_bigEndian 8 q.payload.length)
    begun true sizes₁
  obtain ⟨sizes₃, h₃⟩ := receiveExactly_ended hbegun sizes₂
  refine ⟨sizes₃, ?_⟩
  rw [serve]
  simp only [h₁, h₂, Packets.value_bigEndian q.length_lt, h₃]

variable {q} {part : List UInt8} (hpart : Part q part)

include hpart

/-- A part of a packet is waited for, when the stream goes on. -/
lemma serve_part_open : serve h (n + 1) ⟨⟨part, false, sizes⟩, s, executed, sent⟩ =
    some (⟨⟨part, false, sizes⟩, s, executed, sent⟩, .waiting) := by
  obtain ⟨rest, rfl, hrest⟩ := Packets.part_cases hpart
  obtain ⟨sizes₁, h₁⟩ := receiveExactly_one q.tag rest false sizes
  rw [serve]
  simp only [h₁]
  rcases hrest with hshort | ⟨begun, rfl, hbegun⟩
  · simp only [receiveExactly_open hshort sizes₁]
  · obtain ⟨sizes₂, h₂⟩ := receiveExactly_append (Packets.length_bigEndian 8 q.payload.length)
      begun false sizes₁
    simp only [h₂, Packets.value_bigEndian q.length_lt, receiveExactly_open hbegun sizes₂]

/-- **A part of a packet is executed**, when the stream ends with it. -/
lemma serve_part_ended : ∃ payload sizes',
    serve h (n + 1) ⟨⟨part, true, sizes⟩, s, executed, sent⟩ =
      serve h n ⟨⟨[], true, sizes'⟩, (execute h s q.tag payload).1,
        executed ++ [(q.tag, payload)], sent ++ (execute h s q.tag payload).2.bytes⟩ := by
  obtain ⟨rest, rfl, hshort | ⟨begun, rfl, hbegun⟩⟩ := Packets.part_cases hpart
  · exact ⟨[], serve_size_ended sizes s executed sent n hshort⟩
  · exact ⟨begun, serve_payload_ended sizes s executed sent n hbegun⟩

end Executing

/-! ### Reading -/

section Reading

variable {σ : Type*} {h : Handlers σ} {a : List UInt8} {n : ℕ}

lemma readExactly_append (ha : a.length = n) (b : List UInt8) :
    readExactly n (a ++ b) = some (a, b) := by
  have hle : n ≤ (a ++ b).length := by
    rw [List.length_append]
    omega
  rw [readExactly, if_pos hle, List.take_left' ha, List.drop_left' ha]

lemma readPayload_append (q : Packet) (b : List UInt8) :
    readPayload (bigEndian 8 q.payload.length ++ (q.payload ++ b)) = .ok (q.payload, b) := by
  have hpayload := readExactly_append (a := q.payload) rfl b
  rw [readPayload, readExactly_append (Packets.length_bigEndian 8 q.payload.length)]
  simp only [Packets.value_bigEndian q.length_lt, hpayload]

/-- What an answer says. -/
def responseOf (q : Packet) : Response :=
  if q.tag = successTag then .returned (if q.payload = [] then none else some q.payload)
  else .raised q.payload

/-- **An answer is read** as it was sent. -/
lemma readResponse_answer (o : Except Payload Payload) (b : List UInt8) :
    readResponse ((answer o).bytes ++ b) = .ok (responseOf (answer o), b) := by
  rw [Packet.bytes, List.cons_append, List.append_assoc, readResponse, readPayload_append]
  cases o with
  | ok payload =>
    rw [if_pos (show (answer (.ok payload)).tag = successTag from rfl)]
    rfl
  | error payload =>
    have htag : errorTag ≠ successTag := by decide
    rw [if_neg (show (answer (.error payload)).tag ≠ successTag from htag),
      if_pos (show (answer (.error payload)).tag = errorTag from rfl)]
    rfl

/-- Whatever the command, what is sent back is an answer. -/
lemma exists_answer (s : σ) (command : UInt8) (payload : List UInt8) :
    ∃ o, (execute h s command payload).2 = answer o := by
  rw [execute]
  split_ifs
  · exact ⟨noPayload (h.reset s).2, rfl⟩
  · exact ⟨(h.install s payload).2, rfl⟩
  · exact ⟨noPayload (h.load s payload).2, rfl⟩
  · exact ⟨(h.call s payload).2, rfl⟩
  · exact ⟨.ok noBytes, rfl⟩

/-- **The answers are read** one after another, each by the read that belongs to it. -/
lemma readResponses_answers (s : σ) (qs : List Packet) (b : List UInt8) :
    readResponses qs.length ((answers h s qs).flatMap Packet.bytes ++ b) =
      .ok ((answers h s qs).map responseOf, b) := by
  induction qs generalizing s with
  | nil => rfl
  | cons q qs ih =>
    obtain ⟨o, ho⟩ := exists_answer (h := h) s q.tag q.payload
    rw [answers, List.flatMap_cons, List.append_assoc, List.length_cons, readResponses, ho,
      readResponse_answer]
    show (readResponses qs.length _).map _ = _
    rw [ih]
    rfl

end Reading

/-! ### What is executed of a beginning -/

section Exact

variable {σ : Type*} (h : Handlers σ) (s : σ)

/-- Just these commands have been executed, and each read gives the answer of its command. -/
structure Executed (qs : List Packet) (w : Worker σ) : Prop where
  executed : w.executed = qs.map entry
  state : w.state = stateAfter h s qs
  responses : readResponses qs.length (w.sent.drop 1) = .ok ((answers h s qs).map responseOf, [])

/-- The commands that are complete in a beginning of what is written. -/
def completeCommands (commands : List Command) (stream : List UInt8) : List Packet :=
  complete (commands.map Command.packet) (stream.length - 1)

/-- The worker stops, when it has executed exactly the commands that are complete. -/
def Exact (commands : List Command) (c : Connection) : Prop :=
  ∃ enough, ∀ rounds, enough ≤ rounds → ∃ w stopped,
    session h s c rounds = some (w, stopped) ∧ Executed h s (completeCommands commands c.rest) w

/-- A beginning of what is written ends before everything, or between two commands. -/
def BetweenCommands (commands : List Command) (stream : List UInt8) : Prop :=
  stream = [] ∨ ∃ k, stream = written (commands.take k)

variable {h s} {commands : List Command} {stream : List UInt8} {ended : Bool} {sizes : ℕ → ℕ}

lemma session_cons (b : List UInt8) (ended : Bool) (sizes : ℕ → ℕ) (rounds : ℕ) : ∃ sizes',
    session h s ⟨pingByte :: b, ended, sizes⟩ rounds =
      serve h rounds ⟨⟨b, ended, sizes'⟩, s, [], [pingByte]⟩ := by
  obtain ⟨sizes', heq⟩ := receiveExactly_one pingByte b ended sizes
  refine ⟨sizes', ?_⟩
  rw [session]
  simp only [heq]

/-- After complete commands. -/
lemma executed_of_answers (qs : List Packet) (c : Connection) :
    Executed h s qs
      ⟨c, stateAfter h s qs, [] ++ qs.map entry,
        [pingByte] ++ (answers h s qs).flatMap Packet.bytes⟩ := by
  refine ⟨List.nil_append _, rfl, ?_⟩
  show readResponses qs.length ((answers h s qs).flatMap Packet.bytes) = _
  have hread := readResponses_answers (h := h) s qs []
  rwa [List.append_nil] at hread

/-- Nothing has been written. -/
lemma exact_nil : Exact h s commands ⟨[], ended, sizes⟩ := by
  have hnone : completeCommands commands [] = [] := Packets.complete_zero
  refine ⟨1, fun rounds hrounds => ?_⟩
  rw [hnone, session]
  cases ended with
  | true =>
    obtain ⟨sizes', heq⟩ := receiveExactly_nil 1 sizes
    obtain ⟨n, rfl⟩ := Nat.exists_eq_add_of_le' hrounds
    obtain ⟨stopped, hstop⟩ := serve_nil (h := h) true sizes' s [] [] n
    simp only [heq, hstop]
    exact ⟨_, stopped, rfl, rfl, rfl, rfl⟩
  | false =>
    have hwait : receiveExactly ⟨[], false, sizes⟩ 1 = none :=
      receiveExactly_open (show ([] : List UInt8).length < 1 from Nat.zero_lt_one) sizes
    simp only [hwait]
    exact ⟨_, .waiting, rfl, rfl, rfl, rfl⟩

variable {p part : List UInt8} {q : Packet}

/-- Commands that are complete, and nothing more. -/
lemma exact_of_atBorder (hborder : AtBorder (commands.map Command.packet) p) :
    Exact h s commands ⟨pingByte :: p, ended, sizes⟩ := by
  have hcommands : completeCommands commands (pingByte :: p) =
      complete (commands.map Command.packet) p.length := rfl
  rw [AtBorder] at hborder
  generalize hqs : complete (commands.map Command.packet) p.length = qs at hborder hcommands
  refine ⟨qs.length + 1, fun rounds hrounds => ?_⟩
  obtain ⟨n, rfl⟩ := Nat.exists_eq_add_of_le hrounds
  obtain ⟨sizes₁, h₁⟩ := session_cons (h := h) (s := s) p ended sizes
    (qs.length + 1 + n)
  obtain ⟨sizes₂, h₂⟩ := serve_packets (h := h) qs [] ended sizes₁ s [] [pingByte] (n + 1)
  obtain ⟨stopped, h₃⟩ := serve_nil (h := h) ended sizes₂ (stateAfter h s qs) ([] ++ qs.map entry)
    ([pingByte] ++ (answers h s qs).flatMap Packet.bytes) n
  rw [List.append_nil, ← hborder] at h₂
  rw [h₁, Nat.add_assoc, Nat.add_comm 1 n, h₂, h₃, hcommands]
  exact ⟨_, stopped, rfl, executed_of_answers qs _⟩

/-- Commands that are complete, and a part of one that goes on. -/
lemma exact_of_open (hpart : Part q part)
    (hp : p = (complete (commands.map Command.packet) p.length).flatMap Packet.bytes ++ part) :
    Exact h s commands ⟨pingByte :: p, false, sizes⟩ := by
  have hcommands : completeCommands commands (pingByte :: p) =
      complete (commands.map Command.packet) p.length := rfl
  generalize hqs : complete (commands.map Command.packet) p.length = qs at hp hcommands
  refine ⟨qs.length + 1, fun rounds hrounds => ?_⟩
  obtain ⟨n, rfl⟩ := Nat.exists_eq_add_of_le hrounds
  obtain ⟨sizes₁, h₁⟩ := session_cons (h := h) (s := s) p false sizes
    (qs.length + 1 + n)
  obtain ⟨sizes₂, h₂⟩ := serve_packets (h := h) qs part false sizes₁ s [] [pingByte] (n + 1)
  have h₃ := serve_part_open (h := h) sizes₂ (stateAfter h s qs) ([] ++ qs.map entry)
    ([pingByte] ++ (answers h s qs).flatMap Packet.bytes) n hpart
  rw [← hp] at h₂
  rw [h₁, Nat.add_assoc, Nat.add_comm 1 n, h₂, h₃, hcommands]
  exact ⟨_, .waiting, rfl, executed_of_answers qs _⟩

/-- **The end within a command**: one command more is executed than are complete. -/
lemma not_exact_of_ended (hpart : Part q part)
    (hp : p = (complete (commands.map Command.packet) p.length).flatMap Packet.bytes ++ part) :
    ¬Exact h s commands ⟨pingByte :: p, true, sizes⟩ := by
  rintro ⟨enough, hexact⟩
  have hcommands : completeCommands commands (pingByte :: p) =
      complete (commands.map Command.packet) p.length := rfl
  generalize hqs : complete (commands.map Command.packet) p.length = qs at hp hcommands
  obtain ⟨w, stopped, hsession, hexecuted⟩ := hexact (qs.length + (enough + 2)) (by omega)
  obtain ⟨sizes₁, h₁⟩ := session_cons (h := h) (s := s) p true sizes
    (qs.length + (enough + 2))
  obtain ⟨sizes₂, h₂⟩ := serve_packets (h := h) qs part true sizes₁ s [] [pingByte] (enough + 2)
  obtain ⟨payload, sizes₃, h₃⟩ := serve_part_ended (h := h) sizes₂ (stateAfter h s qs)
    ([] ++ qs.map entry) ([pingByte] ++ (answers h s qs).flatMap Packet.bytes) (enough + 1) hpart
  obtain ⟨_, h₄⟩ := serve_nil (h := h) true sizes₃
    (execute h (stateAfter h s qs) q.tag payload).1 ([] ++ qs.map entry ++ [(q.tag, payload)])
    ([pingByte] ++ (answers h s qs).flatMap Packet.bytes ++
      (execute h (stateAfter h s qs) q.tag payload).2.bytes) enough
  rw [← hp] at h₂
  rw [h₁, h₂, h₃, h₄] at hsession
  obtain ⟨rfl, -⟩ := Prod.mk.inj (Option.some.inj hsession)
  have hlength := congrArg List.length hexecuted.executed
  rw [show completeCommands commands (Connection.mk (pingByte :: p) true sizes).rest = qs from
    hcommands] at hlength
  simp only [List.nil_append, List.length_append, List.length_map, List.length_singleton] at hlength
  omega

/-- The beginnings that end between two commands. -/
lemma betweenCommands_cons :
    BetweenCommands commands (pingByte :: p) ↔ AtBorder (commands.map Command.packet) p := by
  rw [Packets.atBorder_iff, BetweenCommands]
  constructor
  · rintro (hnil | ⟨k, hk⟩)
    · exact absurd hnil (List.cons_ne_nil _ _)
    · refine ⟨k, ?_⟩
      rw [← List.map_take]
      exact (List.cons.inj hk).2
  · rintro ⟨k, rfl⟩
    refine .inr ⟨k, ?_⟩
    rw [← List.map_take]
    rfl

/-- All that is written ends between two commands, and all of it is complete. -/
lemma completeCommands_written (commands : List Command) :
    completeCommands commands (written commands) = commands.map Command.packet :=
  Packets.complete_all

/-- **What is executed of a beginning** of what a node writes, however it comes: exactly the
commands that are complete, each read giving the answer of its command, if and only if the stream
goes on there, or ends before everything or between two commands.  Of all that is written, that is
every command. -/
theorem exact_iff (h : Handlers σ) (s : σ) (commands : List Command) (sizes : ℕ → ℕ) :
    (∀ stream ended, stream <+: written commands →
      (Exact h s commands ⟨stream, ended, sizes⟩ ↔
        ended = false ∨ BetweenCommands commands stream)) ∧
    completeCommands commands (written commands) = commands.map Command.packet ∧
    ∀ ended, Exact h s commands ⟨written commands, ended, sizes⟩ := by
  refine ⟨fun stream ended hstream => ?_, completeCommands_written commands, fun ended => ?_⟩
  · rcases List.prefix_cons_iff.1 hstream with rfl | ⟨p, rfl, hp⟩
    · exact iff_of_true exact_nil (.inr (.inl rfl))
    · rcases Packets.complete_cases hp with hborder | ⟨q, part, hpart, hsplit⟩
      · exact iff_of_true (exact_of_atBorder hborder) (.inr (betweenCommands_cons.2 hborder))
      · have hwithin : ¬BetweenCommands commands (pingByte :: p) := fun hbetween =>
          Packets.not_atBorder_of_part hpart.1 hsplit (betweenCommands_cons.1 hbetween)
        cases ended with
        | false => exact iff_of_true (exact_of_open hpart hsplit) (.inl rfl)
        | true =>
          refine iff_of_false (not_exact_of_ended hpart hsplit) ?_
          rintro (hended | hbetween)
          · exact absurd hended.symm Bool.false_ne_true
          · exact hwithin hbetween
  · have hall : AtBorder (commands.map Command.packet)
        ((commands.map Command.packet).flatMap Packet.bytes) := by
      rw [AtBorder, Packets.complete_all]
    exact exact_of_atBorder hall

/-- Commands that do nothing. -/
def idle : Handlers Unit where
  reset s := (s, .ok ())
  install s _ := (s, .ok noBytes)
  load s _ := (s, .ok ())
  call s _ := (s, .ok noBytes)

/-- A reset, from which the last byte is missing: the worker waits for it. -/
theorem exact_iff_reset :
    Exact idle () [.reset] ⟨[115, 114, 0, 0, 0, 0, 0, 0, 0], false, fun _ => 0⟩ :=
  ((exact_iff idle () [.reset] (fun _ => 0)).1 [115, 114, 0, 0, 0, 0, 0, 0, 0] false
    ⟨[0], by decide⟩).2 (.inl rfl)

/-- The payload of a call has two bytes, and the stream ends after the first one: the call is
executed with that. -/
theorem call_executed_with_half :
    ∃ commands stream, stream <+: written commands ∧ completeCommands commands stream = [] ∧
      (session idle () ⟨stream, true, fun _ => 0⟩ 2).map (fun r => r.1.executed) =
        some [(callTag, [7])] ∧
      ¬Exact idle () commands ⟨stream, true, fun _ => 0⟩ := by
  have hprefix : [99, 0, 0, 0, 0, 0, 0, 0, 2, 7] <+:
      ([Command.call ⟨[7, 7], by decide⟩].map Command.packet).flatMap Packet.bytes :=
    ⟨[7], by decide⟩
  refine ⟨[.call ⟨[7, 7], by decide⟩], pingByte :: [99, 0, 0, 0, 0, 0, 0, 0, 2, 7],
    List.cons_prefix_cons.2 ⟨rfl, hprefix⟩, by decide, ?_, ?_⟩
  · obtain ⟨sizes₁, h₁⟩ := session_cons (h := idle) (s := ())
      [99, 0, 0, 0, 0, 0, 0, 0, 2, 7] true (fun _ => 0) 2
    obtain ⟨sizes₂, h₂⟩ := serve_payload_ended (h := idle) sizes₁ () [] [pingByte] 1
      (q := (Command.call ⟨[7, 7], by decide⟩).packet)
      (show ([7] : List UInt8).length < [7, 7].length from by decide)
    obtain ⟨_, h₃⟩ := serve_nil (h := idle) true sizes₂ () [(callTag, [7])]
      ([pingByte] ++ (execute idle () callTag [7]).2.bytes) 0
    rw [h₁]
    refine (congrArg (Option.map _) (h₂.trans h₃)).trans ?_
    rfl
  · have hpart : Part (Command.call ⟨[7, 7], by decide⟩).packet
        [99, 0, 0, 0, 0, 0, 0, 0, 2, 7] :=
      ⟨by decide, ⟨[7], by decide⟩, by decide⟩
    exact not_exact_of_ended hpart (by decide)

end Exact

end Burla.Workers.Wire
