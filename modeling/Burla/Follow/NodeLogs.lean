/-
Following the log of a node: `stream_node_logs` (management.py) with `node_logs_after` (history.py),
and `stream_sse` of the client, which opens the stream again whenever it ends.

Lines of all nodes are appended to one table, whose ids are their places.  A connection may break at
any letter, and lines may be appended at any time.  The client tells the id of the last event that
it has read; that is a cursor, from which the server takes up the log again.

The main result is `Burla.Follow.follow_exact`: a log that is followed from its beginning is yielded
line by line, in order, without gaps and without repetitions, however often the stream breaks, and
no cursor is ever refused.
-/
import Burla.ClusterState.NodeLogs
import Burla.Follow.Wire
import Burla.History.Cursors
import Mathlib.Data.List.ReduceOption

namespace Burla.Follow

open Burla.ClusterState (NodeLog nodeLogsLimit)
open Burla.Results (isLineBoundary isSpace)

/-! ### The table -/

/-- A row of `node_logs`, without its id. -/
structure Row where
  instanceName : Text
  log : NodeLog
  deriving DecidableEq

/-- The rows of a node, with their ids. -/
def rowsOf (node : Text) (rows : List Row) : List (NodeLog × ℕ) :=
  ((rows.zipIdx 1).filter fun r => r.1.instanceName = node).map fun r => (r.1.log, r.2)

/-- `node_logs_after` -/
def nodeLogsAfter (rows : List Row) (node : Text) (afterId : ℤ) : List (NodeLog × ℕ) :=
  ((rowsOf node rows).filter fun r => afterId < r.2).take nodeLogsLimit

/-! ### The server -/

/-- What the server uses to write: the documents of the events, and the cursors. -/
structure Writer (δ : Type*) where
  json : Json δ
  /-- `_iso` -/
  iso : Option ℚ → Option Text
  /-- The document of a row: its id, its time and its message. -/
  log : ℕ → Option Text → String → δ
  /-- The document without entries. -/
  empty : δ
  loads : List UInt8 → Option History.Cursors.Json
  dumps : (sortKeys : Bool) → History.Cursors.Json → List UInt8
  sha256 : List UInt8 → Text

namespace Writer

variable {δ : Type*} (w : Writer δ) (node : Text)

/-- `node_logs:{node_id}` -/
def resource : Text := "node_logs:".toList ++ node

/-- The cursor of a row. -/
def cursor (id : ℕ) : Text :=
  History.Cursors.encodeCursor w.dumps w.sha256 (resource node) [] [.num id, .num 0]

/-- What is written down in it. -/
def payload (id : ℕ) : History.Cursors.Json :=
  History.Cursors.payload w.dumps w.sha256 (resource node) [] [.num id, .num 0]

/-- What is written down in the cursors of the node's rows can be read. -/
structure ReadsBack : Prop where
  ne_nil : ∀ id, w.dumps false (w.payload node id) ≠ []
  loads_dumps : ∀ id, w.loads (w.dumps false (w.payload node id)) = some (w.payload node id)

/-- The event of a row. -/
def logEvent (r : NodeLog × ℕ) : Event δ :=
  ⟨"log".toList, w.log r.2 (w.iso r.1.ts) r.1.msg, some (w.cursor node r.2)⟩

def keepalive : Event δ := ⟨"keepalive".toList, w.empty, none⟩

/-- `int`, of a number; a truth value is one. -/
def intOf : History.Cursors.Json → Option ℤ
  | .num q => some (if 0 ≤ q then ⌊q⌋ else ⌈q⌉)
  | .bool b => some (if b then 1 else 0)
  | _ => none

/-- The id that a stream begins after, or nothing if the cursor is refused. -/
def resume (cursor : Option Text) : Option ℤ :=
  match History.Cursors.decodeCursor w.loads w.dumps w.sha256 cursor (resource node) [] with
  | .error _ => none
  | .ok none => some 0
  | .ok (some key) => if key = [] then some 0 else key.head?.bind intOf

end Writer

/-! ### The whole -/

/-- A connection: `last_id` of the generator, what it has sent, and how many letters of that have
been delivered. -/
structure Connection (δ : Type*) where
  lastId : ℤ
  sent : List (Event δ)
  received : ℕ

/-- The table, and a client that follows the log of a node. -/
structure Session (δ : Type*) where
  rows : List Row
  /-- `last_event_id` -/
  lastEventId : Option Text
  /-- What has been yielded on the connections before the present one. -/
  yielded : List (Item δ)
  connection : Option (Connection δ)
  /-- The client has raised an error. -/
  raised : Bool

inductive SessionEvent
  /-- `add_node_logs` -/
  | append (instanceName : Text) (logs : List NodeLog)
  /-- The client opens the stream. -/
  | connect
  /-- The server looks for new rows, and sends them. -/
  | poll
  /-- Nothing has been sent for some time. -/
  | keepalive
  /-- So many letters more are delivered. -/
  | deliver (n : ℕ)
  /-- The connection ends. What has come of a line may be handed over then. -/
  | disconnect (ended : Bool)

namespace Session

variable {δ : Type*} (w : Writer δ) (node : Text) (after : Option Text) (s : Session δ)

/-- `after or request.headers.get("last-event-id")` -/
def resumeCursor : Option Text := (after.filter (· ≠ [])).or s.lastEventId

/-- `last_event_id`, after some events. -/
def lastId (lastEventId : Option Text) (items : List (Item δ)) : Option Text :=
  items.foldl (fun last item => (item.cursor.filter (· ≠ [])).or last) lastEventId

/-- What the client makes of a connection. -/
def readConnection (c : Connection δ) (ended : Bool) : Option (List (Item δ)) :=
  readBody w.json ((streamText w.json c.sent).take c.received) ended

def step : SessionEvent → Option (Session δ)
  | .append instanceName logs =>
    some { s with rows := s.rows ++ logs.map fun log => ⟨instanceName, log⟩ }
  | .connect =>
    if s.connection.isSome ∨ s.raised then none
    else
      match w.resume node (s.resumeCursor after) with
      | none => some { s with raised := true }
      | some lastId => some { s with connection := some ⟨lastId, [], 0⟩ }
  | .poll =>
    s.connection.map fun c =>
      let new := nodeLogsAfter s.rows node c.lastId
      let lastId := (new.getLast?.map fun r => (r.2 : ℤ)).getD c.lastId
      { s with connection := some { c with lastId, sent := c.sent ++ new.map (w.logEvent node) } }
  | .keepalive =>
    s.connection.map fun c =>
      { s with connection := some { c with sent := c.sent ++ [w.keepalive] } }
  | .deliver n =>
    s.connection.bind fun c =>
      if c.received + n ≤ (streamText w.json c.sent).length then
        some { s with connection := some { c with received := c.received + n } }
      else none
  | .disconnect ended =>
    s.connection.map fun c =>
      match readConnection w c ended with
      | none => { s with connection := none, raised := true }
      | some items =>
        { s with
          connection := none
          yielded := s.yielded ++ items
          lastEventId := lastId s.lastEventId items }

/-- A table, and a client that has not begun. -/
def sys : System (Session δ) SessionEvent where
  init s := s.lastEventId = none ∧ s.yielded = [] ∧ s.connection = none ∧ s.raised = false
  step := step w node after

/-- What the client has yielded so far, or nothing if it cannot read what has come. -/
def items : Option (List (Item δ)) :=
  match s.connection with
  | none => some s.yielded
  | some c => (readConnection w c false).map (s.yielded ++ ·)

/-- The lines of the log among what is yielded. -/
def logItems (items : List (Item δ)) : List (Item δ) := items.filter fun i => i.event = "log".toList

/-- Everything that the server has found has been delivered, and there is nothing new. -/
def CaughtUp : Prop := ∃ c, s.connection = some c ∧
  c.received = (streamText w.json c.sent).length ∧ nodeLogsAfter s.rows node c.lastId = []

end Session

/-! ### Rows -/

section Rows

variable {node : Text} {rows more : List Row} {P Q : List (NodeLog × ℕ)}

/-- The id that is looked after when some rows have been sent. -/
def lastRowId (P : List (NodeLog × ℕ)) : ℤ := (P.getLast?.map fun r => (r.2 : ℤ)).getD 0

lemma lastRowId_append :
    lastRowId (P ++ Q) = (Q.getLast?.map fun r => (r.2 : ℤ)).getD (lastRowId P) := by
  cases hQ : Q.getLast? with
  | none =>
    obtain rfl := List.getLast?_eq_none_iff.1 hQ
    rw [List.append_nil]
    rfl
  | some r => simp [lastRowId, List.getLast?_append, hQ]

lemma rowsOf_append : rowsOf node rows <+: rowsOf node (rows ++ more) := by
  rw [rowsOf, rowsOf, List.zipIdx_append, List.filter_append, List.map_append]
  exact List.prefix_append _ _

/-- The ids increase. -/
lemma pairwise_rowsOf : (rowsOf node rows).Pairwise fun r r' => r.2 < r'.2 := by
  have hids : (rows.zipIdx 1).Pairwise fun r r' => r.2 < r'.2 := by
    rw [← List.pairwise_map (f := Prod.snd), List.zipIdx_map_snd]
    exact List.pairwise_lt_range'
  rw [rowsOf, List.pairwise_map]
  exact hids.filter _

lemma pos_of_mem_rowsOf {r : NodeLog × ℕ} (h : r ∈ rowsOf node rows) : 0 < r.2 := by
  obtain ⟨⟨row, id⟩, hr, rfl⟩ := List.mem_map.1 h
  exact (List.mem_zipIdx (List.mem_of_mem_filter hr)).1

/-- **What follows some of the first rows is what has a later id than they have.** -/
lemma filter_lastRowId (h : P ++ Q = rowsOf node rows) :
    (rowsOf node rows).filter (fun r => lastRowId P < r.2) = Q := by
  have hids : (P ++ Q).Pairwise fun r r' => r.2 < r'.2 := h ▸ pairwise_rowsOf
  have hpos : ∀ r ∈ P ++ Q, 0 < r.2 := fun r hr => pos_of_mem_rowsOf (h ▸ hr)
  rw [← h, List.filter_append]
  have hfirst : P.filter (fun r => lastRowId P < r.2) = [] := by
    refine List.filter_eq_nil_iff.2 fun r hr => ?_
    obtain ⟨init, last, rfl⟩ : ∃ init last, P = init ++ [last] := by
      simpa using (List.eq_nil_or_concat P).resolve_left (List.ne_nil_of_mem hr)
    have hle : r.2 ≤ last.2 := by
      rcases List.mem_append.1 hr with hr | hr
      · have hpair := List.pairwise_append.1 (List.pairwise_append.1 hids).1
        exact (hpair.2.2 r hr last (List.mem_singleton_self _)).le
      · rw [List.mem_singleton.1 hr]
    simpa [lastRowId] using hle
  have hrest : Q.filter (fun r => lastRowId P < r.2) = Q := by
    refine List.filter_eq_self.2 fun r hr => ?_
    rw [decide_eq_true_eq, lastRowId]
    cases hP : P.getLast? with
    | none => simpa using hpos r (List.mem_append_right _ hr)
    | some last =>
      have hlt := (List.pairwise_append.1 hids).2.2 last (List.mem_of_getLast? hP) r hr
      simpa using hlt
  rw [hfirst, hrest, List.nil_append]

end Rows

/-! ### Cursors -/

namespace Writer

variable {δ : Type*} {w : Writer δ} {node : Text} {id : ℕ} {r : NodeLog × ℕ}

lemma cursor_eq_body : w.cursor node id = Base64.body (w.dumps false (w.payload node id)) :=
  Base64.rdropWhile_encode _

/-- What is written in a cursor. -/
lemma exists_digit {bytes : List UInt8} {c : Char} (h : c ∈ Base64.body bytes) :
    ∃ n : Fin 64, c = Base64.digit n := by
  have hof (n : ℕ) (hn : n < 64) : ∃ m : Fin 64, Base64.digit n = Base64.digit m := ⟨⟨n, hn⟩, rfl⟩
  induction bytes using Base64.body.induct with
  | case1 => cases h
  | case2 a =>
    have ha := a.toNat_lt
    simp only [Base64.body, List.mem_cons, List.not_mem_nil, or_false] at h
    rcases h with rfl | rfl <;> exact hof _ (by omega)
  | case3 a b =>
    have ha := a.toNat_lt
    have hb := b.toNat_lt
    simp only [Base64.body, List.mem_cons, List.not_mem_nil, or_false] at h
    rcases h with rfl | rfl | rfl <;> exact hof _ (by omega)
  | case4 a b c rest ih =>
    have ha := a.toNat_lt
    have hb := b.toNat_lt
    have hc := c.toNat_lt
    simp only [Base64.body, List.mem_cons] at h
    rcases h with rfl | rfl | rfl | rfl | h
    · exact hof _ (by omega)
    · exact hof _ (by omega)
    · exact hof _ (by omega)
    · exact hof _ (by omega)
    · exact ih h

/-- A cursor stands on its line as it is. -/
lemma trim_cursor : Trim (w.cursor node id) := by
  have hplain : ∀ n : Fin 64, isLineBoundary (Base64.digit n) = false ∧
      isSpace (Base64.digit n) = false := by decide +kernel
  refine trim_of_forall fun c hc => ?_
  rw [cursor_eq_body] at hc
  obtain ⟨n, rfl⟩ := exists_digit hc
  exact hplain n

lemma cursor_ne_nil (h : w.ReadsBack node) : w.cursor node id ≠ [] := by
  rw [cursor_eq_body]
  have hne := h.ne_nil id
  intro hnil
  match hbytes : w.dumps false (w.payload node id) with
  | [] => exact hne hbytes
  | [_] | [_, _] | _ :: _ :: _ :: _ => simp [hbytes, Base64.body] at hnil

/-- **From the cursor of a row, the log is taken up after it.** -/
lemma resume_cursor (h : w.ReadsBack node) :
    w.resume node (some (w.cursor node id)) = some (id : ℤ) := by
  have hread := History.Cursors.decodeCursor_encodeCursor (h.loads_dumps id) (resource node) []
  rw [if_pos ⟨rfl, rfl, rfl⟩] at hread
  rw [resume, cursor, hread]
  simp [intOf]

lemma plain_logEvent : (w.logEvent node r).Plain where
  event := trim_of_all rfl
  eventId := by
    rintro _ ⟨⟩
    exact trim_cursor

lemma plain_keepalive : w.keepalive.Plain where
  event := trim_of_all rfl
  eventId := by
    rintro _ ⟨⟩

end Writer

/-! ### Along a run -/

namespace Session

variable {δ : Type*} {w : Writer δ} {node : Text} {s t : Session δ} {e : SessionEvent}
  {P : List (NodeLog × ℕ)} {marks : List (Option (NodeLog × ℕ))}

lemma reduceOption_map_some (P : List (NodeLog × ℕ)) : (P.map some).reduceOption = P := by
  rw [List.reduceOption, List.filterMap_map]
  exact List.filterMap_some

/-- What is sent: a row, or nothing but a sign of life. -/
def event (w : Writer δ) (node : Text) : Option (NodeLog × ℕ) → Event δ
  | none => w.keepalive
  | some r => w.logEvent node r

/-- What is yielded for a row. -/
def rowItem (w : Writer δ) (node : Text) (r : NodeLog × ℕ) : Item δ := (w.logEvent node r).item

lemma plain_event (mark : Option (NodeLog × ℕ)) : (event w node mark).Plain := by
  cases mark with
  | none => exact Writer.plain_keepalive
  | some r => exact Writer.plain_logEvent

lemma logItems_append (items items' : List (Item δ)) :
    logItems (items ++ items') = logItems items ++ logItems items' := List.filter_append ..

lemma logItems_marks :
    logItems ((marks.map (event w node)).map Event.item) =
      marks.reduceOption.map (rowItem w node) := by
  induction marks with
  | nil => rfl
  | cons mark marks ih =>
    cases mark with
    | none =>
      rw [List.reduceOption_cons_of_none, ← ih]
      rfl
    | some r =>
      rw [List.reduceOption_cons_of_some, List.map_cons (f := rowItem w node), ← ih]
      rfl

/-- The id that the client keeps is the cursor of the last row. -/
lemma lastId_marks (hw : w.ReadsBack node) (last : Option Text) :
    lastId last ((marks.map (event w node)).map Event.item) =
      (marks.reduceOption.getLast?.map fun r => w.cursor node r.2).or last := by
  induction marks generalizing last with
  | nil => rfl
  | cons mark marks ih =>
    cases mark with
    | none =>
      rw [List.reduceOption_cons_of_none, ← ih]
      rfl
    | some r =>
      have hkept : lastId last (((some r :: marks).map (event w node)).map Event.item) =
          lastId (some (w.cursor node r.2)) ((marks.map (event w node)).map Event.item) := by
        show List.foldl _ (((some (w.cursor node r.2)).filter (· ≠ [])).or last) _ = _
        rw [Option.filter_some, if_pos (decide_eq_true (Writer.cursor_ne_nil hw))]
        rfl
      rw [hkept, ih, List.reduceOption_cons_of_some, List.getLast?_cons]
      cases marks.reduceOption.getLast? <;> rfl

/-- What the client makes of what has come. -/
lemma readConnection_marks {c : Connection δ} (hsent : c.sent = marks.map (event w node))
    (ended : Bool) : ∃ k, readConnection w c ended =
      some (((marks.take k).map (event w node)).map Event.item) ∧
      (c.received = (streamText w.json c.sent).length → marks.take k = marks) := by
  have hplain : ∀ e ∈ c.sent, e.Plain := by
    intro e he
    rw [hsent] at he
    obtain ⟨mark, -, rfl⟩ := List.mem_map.1 he
    exact plain_event mark
  have hprefix := List.prefix_iff_eq_take.1
    (delivered_isPrefix c.received : delivered w.json c.sent c.received <+: c.sent)
  refine ⟨(delivered w.json c.sent c.received).length, ?_, fun hall => ?_⟩
  · rw [readConnection, readBody_streamText _ _ hplain, List.map_take, ← hsent, ← hprefix]
  · rw [hall, delivered_length, hsent, List.length_map, List.take_length]

/-- The log of the node has been followed as far as the rows `P`, and on from there. -/
structure Followed (w : Writer δ) (node : Text) (s : Session δ) (P : List (NodeLog × ℕ)) :
    Prop where
  rows : P <+: rowsOf node s.rows
  yielded : logItems s.yielded = P.map (rowItem w node)
  lastEventId : s.lastEventId = P.getLast?.map fun r => w.cursor node r.2
  connection : ∀ c, s.connection = some c → ∃ marks : List (Option (NodeLog × ℕ)),
    c.sent = marks.map (event w node) ∧ P ++ marks.reduceOption <+: rowsOf node s.rows ∧
      c.lastId = lastRowId (P ++ marks.reduceOption)

/-- The invariant of a session. -/
structure Sound (w : Writer δ) (node : Text) (s : Session δ) : Prop where
  raised : s.raised = false
  followed : ∃ P, Followed w node s P

/-- The rows that have not been looked up. -/
lemma nodeLogsAfter_lastRowId {rows : List Row} {T : List (NodeLog × ℕ)}
    (h : P ++ T = rowsOf node rows) :
    nodeLogsAfter rows node (lastRowId P) = T.take nodeLogsLimit := by
  rw [nodeLogsAfter, filter_lastRowId h]

lemma Followed.resume (h : Followed w node s P) (hw : w.ReadsBack node) :
    w.resume node (s.resumeCursor none) = some (lastRowId P) := by
  have hcursor : s.resumeCursor none = P.getLast?.map fun r => w.cursor node r.2 := h.lastEventId
  rw [hcursor]
  cases hP : P.getLast? with
  | none => rw [lastRowId, hP]; rfl
  | some r =>
    rw [Option.map_some, Writer.resume_cursor hw, lastRowId, hP]
    rfl

lemma Sound.step (hw : w.ReadsBack node) (h : Sound w node s)
    (hstep : step w node none s e = some t) : Sound w node t := by
  obtain ⟨hraised, P, h⟩ := h
  cases e with
  | append instanceName logs =>
    obtain rfl := Option.some.inj hstep
    refine ⟨hraised, P, h.rows.trans rowsOf_append, h.yielded, h.lastEventId, fun c hc => ?_⟩
    obtain ⟨marks, hsent, hmarks, hlast⟩ := h.connection c hc
    exact ⟨marks, hsent, hmarks.trans rowsOf_append, hlast⟩
  | connect =>
    simp only [Session.step, h.resume hw] at hstep
    split at hstep
    · cases hstep
    · obtain rfl := Option.some.inj hstep
      refine ⟨hraised, P, h.rows, h.yielded, h.lastEventId, ?_⟩
      rintro _ ⟨⟩
      exact ⟨[], rfl, by simpa using h.rows, by simp⟩
  | poll =>
    obtain ⟨c, hc, rfl⟩ := Option.map_eq_some_iff.1 hstep
    refine ⟨hraised, P, h.rows, h.yielded, h.lastEventId, ?_⟩
    rintro _ ⟨⟩
    obtain ⟨marks, hsent, ⟨T, hT⟩, hlast⟩ := h.connection c hc
    rw [hlast, nodeLogsAfter_lastRowId hT]
    refine ⟨marks ++ (T.take nodeLogsLimit).map some, ?_, ?_, ?_⟩
    · rw [List.map_append, ← hsent, List.map_map]
      rfl
    · rw [List.reduceOption_append, reduceOption_map_some, ← List.append_assoc, ← hT]
      exact List.prefix_append_right_inj _ |>.2 (List.take_prefix _ _)
    · rw [List.reduceOption_append, reduceOption_map_some, ← List.append_assoc]
      exact lastRowId_append.symm
  | keepalive =>
    obtain ⟨c, hc, rfl⟩ := Option.map_eq_some_iff.1 hstep
    refine ⟨hraised, P, h.rows, h.yielded, h.lastEventId, ?_⟩
    rintro _ ⟨⟩
    obtain ⟨marks, hsent, hmarks, hlast⟩ := h.connection c hc
    refine ⟨marks ++ [none], by rw [List.map_append, ← hsent]; rfl, ?_, ?_⟩
    · rwa [List.reduceOption_append, List.reduceOption_singleton, Option.toList_none,
        List.append_nil]
    · rwa [List.reduceOption_append, List.reduceOption_singleton, Option.toList_none,
        List.append_nil]
  | deliver n =>
    obtain ⟨c, hc, hstep⟩ := Option.bind_eq_some_iff.1 hstep
    split at hstep
    · obtain rfl := Option.some.inj hstep
      refine ⟨hraised, P, h.rows, h.yielded, h.lastEventId, ?_⟩
      rintro _ ⟨⟩
      exact h.connection c hc
    · cases hstep
  | disconnect ended =>
    obtain ⟨c, hc, rfl⟩ := Option.map_eq_some_iff.1 hstep
    obtain ⟨marks, hsent, hmarks, -⟩ := h.connection c hc
    obtain ⟨k, hread, -⟩ := readConnection_marks hsent ended
    rw [hread]
    have hprefix : (marks.take k).reduceOption <+: marks.reduceOption :=
      (List.take_prefix k marks).reduceOption
    refine ⟨hraised, P ++ (marks.take k).reduceOption, ?_, ?_, ?_, ?_⟩
    · exact ((List.prefix_append_right_inj P).2 hprefix).trans hmarks
    · show logItems (_ ++ _) = _
      rw [logItems_append, h.yielded, logItems_marks, List.map_append]
    · show lastId _ _ = _
      rw [lastId_marks hw, h.lastEventId, List.getLast?_append]
      cases (marks.take k).reduceOption.getLast? <;> rfl
    · rintro _ ⟨⟩

lemma sound_invariant (hw : w.ReadsBack node) :
    (sys w node none).Invariant System.always (Sound w node) where
  init s hs := by
    obtain ⟨hlast, hyielded, hconnection, hraised⟩ := hs
    refine ⟨hraised, [], List.nil_prefix, by rw [hyielded]; rfl, hlast, fun c hc => ?_⟩
    rw [hconnection] at hc
    cases hc
  step _ _ _ h _ hstep := h.step hw hstep

/-- **A log is yielded line by line**: in every run, whatever is appended meanwhile and wherever
the connections break, the lines that a client has yielded are the first ones of its node, in order,
each once; and they are all of them when the server has nothing new and what it sent has come. -/
theorem follow_exact (w : Writer δ) (node : Text) (hw : w.ReadsBack node)
    (hr : (sys w node none).Reachable System.always s) :
    s.raised = false ∧ ∃ items, s.items w = some items ∧
      logItems items <+: (rowsOf node s.rows).map (rowItem w node) ∧
      (s.CaughtUp w node → logItems items = (rowsOf node s.rows).map (rowItem w node)) := by
  obtain ⟨hraised, P, h⟩ := (sound_invariant hw).reachable hr
  refine ⟨hraised, ?_⟩
  cases hc : s.connection with
  | none =>
    refine ⟨s.yielded, by rw [items, hc], ?_, ?_⟩
    · rw [h.yielded]
      exact h.rows.map _
    · rintro ⟨c, hc', -⟩
      rw [hc] at hc'
      cases hc'
  | some c =>
    obtain ⟨marks, hsent, hmarks, hlast⟩ := h.connection c hc
    obtain ⟨k, hread, hall⟩ := readConnection_marks hsent false
    have hitems : logItems (s.yielded ++ ((marks.take k).map (event w node)).map Event.item) =
        (P ++ (marks.take k).reduceOption).map (rowItem w node) := by
      rw [logItems_append, h.yielded, logItems_marks, List.map_append]
    have hprefix : (marks.take k).reduceOption <+: marks.reduceOption :=
      (List.take_prefix k marks).reduceOption
    have hall' : s.items w =
        some (s.yielded ++ ((marks.take k).map (event w node)).map Event.item) := by
      rw [items, hc]
      show (readConnection w c false).map _ = _
      rw [hread]
      rfl
    refine ⟨_, hall', ?_, ?_⟩
    · rw [hitems]
      exact (((List.prefix_append_right_inj P).2 hprefix).trans hmarks).map _
    · rintro ⟨_, hc', hreceived, hnothing⟩
      rw [hc] at hc'
      cases hc'
      obtain ⟨T, hT⟩ := hmarks
      rw [hlast, nodeLogsAfter_lastRowId hT] at hnothing
      obtain rfl : T = [] := by
        rcases List.take_eq_nil_iff.1 hnothing with hzero | hT
        · exact absurd hzero (by decide)
        · exact hT
      rw [hitems, hall hreceived, ← hT, List.append_nil]

end Session

/-! ### A log of one line -/

section UpLog

def ascii (text : Text) : List UInt8 := text.map fun c => UInt8.ofNat c.toNat

def ofAscii (bytes : List UInt8) : Text := bytes.map fun b => Char.ofNat b.toNat

lemma ofAscii_ascii {text : Text} (h : ∀ c ∈ text, c.toNat < 128) :
    ofAscii (ascii text) = text := by
  rw [ofAscii, ascii, List.map_map]
  refine (List.map_congr_left fun c hc => ?_).trans (List.map_id _)
  have hbyte : c.toNat % 256 = c.toNat := Nat.mod_eq_of_lt ((h c hc).trans (by decide))
  simp [hbyte]

/-- The text of a cursor for the node `n`, up to the number, and after it. -/
def cursorStart : Text :=
  ("\x7b\"v\":1,\"resource\":\"node_logs:n\",\"query\":\"44136fa355b3678a\"," ++
    "\"direction\":null,\"key\":[").toList

def cursorRest : Text := ",0]\x7d".toList

/-- The writer, on the documents of the cursors for this node, and on an empty query. -/
def dumpsCursor (sortKeys : Bool) (doc : History.Cursors.Json) : List UInt8 :=
  match sortKeys, doc with
  | false, .obj [_, _, _, _, (_, .arr [.num id, _])] =>
    ascii (numberText cursorStart id.num.toNat cursorRest)
  | _, _ => ascii "\x7b\x7d".toList

def upWriter : Writer (Option ℕ) where
  json := upJson
  iso _ := none
  log id _ _ := some id
  empty := none
  loads bytes := some (History.Cursors.payload dumpsCursor History.Cursors.sha256Logs
    (Writer.resource ['n']) [] [.num (readNumber cursorStart (ofAscii bytes)), .num 0])
  dumps := dumpsCursor
  sha256 := History.Cursors.sha256Logs

lemma readsBack_upWriter : upWriter.ReadsBack ['n'] where
  ne_nil id := by
    intro h
    have hlength := congrArg List.length h
    simp [upWriter, Writer.payload, History.Cursors.payload, dumpsCursor, ascii, numberText,
      cursorRest] at hlength
  loads_dumps id := by
    have hplain : ∀ c ∈ numberText cursorStart id cursorRest, c.toNat < 128 := by
      intro c hc
      rcases List.mem_append.1 hc with hc | hc
      · rcases List.mem_append.1 hc with hc | hc
        · exact List.all_iff_forall_prop (p := (·.toNat < 128)).1 (by decide) c hc
        · have hdigit := Burla.Files.isDigit_iff.1 (Burla.Files.isDigit_of_mem_decimal hc)
          omega
      · exact List.all_iff_forall_prop (p := (·.toNat < 128)).1 (by decide) c hc
    have hread :
        readNumber cursorStart (ofAscii (ascii (numberText cursorStart id cursorRest))) = id := by
      rw [ofAscii_ascii hplain]
      exact readNumber_numberText rfl id
    show some (History.Cursors.payload _ _ _ _ [.num ((readNumber cursorStart (ofAscii
      (ascii (numberText cursorStart ((id : ℚ).num.toNat) cursorRest))) : ℕ) : ℚ), .num 0]) = _
    rw [Rat.num_natCast, Int.toNat_natCast, hread]
    rfl

/-- A client, before a line is written and the stream is opened, breaks and is opened again. -/
def upStart : Session (Option ℕ) := ⟨[], none, [], none, false⟩

def upSteps : List SessionEvent :=
  [.append ['n'] [⟨"up", none⟩], .connect, .poll, .deliver 9, .disconnect true, .connect, .poll,
    .deliver 9]

theorem follow_exact_up : ∃ s, (Session.sys upWriter ['n'] none).exec upStart upSteps = some s ∧
    s.raised = false ∧ ∃ items, s.items upWriter = some items ∧
      Session.logItems items <+: (rowsOf ['n'] s.rows).map (Session.rowItem upWriter ['n']) ∧
      (s.CaughtUp upWriter ['n'] →
        Session.logItems items = (rowsOf ['n'] s.rows).map (Session.rowItem upWriter ['n'])) := by
  have hsome : ((Session.sys upWriter ['n'] none).exec upStart upSteps).isSome = true := by
    decide +kernel
  obtain ⟨s, hs⟩ := Option.isSome_iff_exists.1 hsome
  have hreach : (Session.sys upWriter ['n'] none).Reachable System.always upStart :=
    ⟨upStart, [], ⟨rfl, rfl, rfl, rfl⟩, .nil⟩
  exact ⟨s, hs, Session.follow_exact upWriter ['n'] readsBack_upWriter (hreach.exec hs)⟩

end UpLog

end Burla.Follow
