/-
The log lines of a node: `add_node_log` and `add_node_logs` (cluster_state.py), and the stream
that the dashboard reads them from, `node_log_stream` (cluster_views.py).

A line is stored first and published to the subscribed queues afterwards; the stream subscribes
first, reads what is stored, shows it, and then shows what comes over its queue.  What comes a
second time it tells by the timestamp of the last line that it has read.  So each line is shown
once as long as the timestamps do tell: of the lines that come over the queue, those that were
stored before the read are not later than the last of these, and those stored after it are
(`shown_once`).  `line_lost` is a run with lines of two sources whose clocks disagree.
-/
import Burla.Lib.Messages
import Burla.Lib.System
import Mathlib.Data.List.Nodup
import Mathlib.Data.Rat.Defs
import Mathlib.Algebra.Order.Ring.Unbundled.Rat

namespace Burla.ClusterState

/-- A line of a node's log; a batch may bring lines without either. -/
structure NodeLog where
  msg : String
  ts : Option ℚ
  deriving DecidableEq

/-- A row of `node_logs`, with its id. -/
abbrev LogRow := NodeLog × ℕ

/-- The limit of `node_logs_after`. -/
def nodeLogsLimit : ℕ := 1000

/-- A call of `add_node_log` or `add_node_logs`, after the lines have been stored. -/
structure LogCall where
  /-- The lines that are to be published. -/
  logs : List LogRow
  /-- Whether the stream's queue is among those that the call has looked up, once it has. -/
  subscribed : Option Bool
  deriving DecidableEq

/-- The lines that will come over the stream's queue, if it is subscribed by the time that the
call looks. -/
def LogCall.coming (call : LogCall) : List LogRow :=
  if call.subscribed = some false then [] else call.logs

/-- Where `log_generator` stands. -/
inductive StreamPhase
  /-- Not subscribed yet. -/
  | absent
  | subscribed
  /-- It has read `read` rows, and has `rest` of them still to show. -/
  | replaying (read : ℕ) (rest : List LogRow) (replayedTs : Option ℚ)
  | live (read : ℕ) (replayedTs : Option ℚ)
  /-- It has ended when `appended` rows were stored. -/
  | ended (appended : ℕ)
  deriving DecidableEq

/-- The stream's queue is in `_node_log_queues`. -/
def StreamPhase.isSubscribed : StreamPhase → Bool
  | .absent | .ended _ => false
  | .subscribed | .replaying _ _ _ | .live _ _ => true

/-- A node's log and one stream of it. -/
structure LogStream where
  /-- The rows of the node, whose ids are their places. -/
  stored : List NodeLog
  calls : List LogCall
  queue : List LogRow
  phase : StreamPhase
  /-- What the stream has shown. -/
  shown : List LogRow

inductive LogEvent
  /-- `add_node_log` stores its line; `now` is the clock's time. -/
  | addNodeLog (msg : String) (ts : Option ℚ) (now : ℚ)
  /-- `add_node_logs` stores its lines. -/
  | addNodeLogs (logs : List NodeLog)
  /-- A call looks up the queues. -/
  | lookUp (i : ℕ)
  /-- A call publishes its next line, or returns after the last one. -/
  | publish (i : ℕ)
  | subscribe
  | read
  /-- The next of the lines that have been read. -/
  | replay
  /-- All of them have been shown. -/
  | follow
  /-- The next line that has come over the queue. -/
  | take
  /-- The stream is closed: by the client, or because of its age. -/
  | close

namespace LogStream

variable (s : LogStream)

/-- The rows that are stored. -/
def rows : List LogRow := s.stored.zipIdx

/-- `history.add_node_logs`. -/
def store (logs : List NodeLog) : LogStream :=
  { s with
    stored := s.stored ++ logs
    calls := ⟨logs.zipIdx s.stored.length, none⟩ :: s.calls }

/-- `ts <= replayed_ts`. -/
def replayed (replayedTs : Option ℚ) (ts : ℚ) : Bool := replayedTs.any fun last => ts ≤ last

def step : LogEvent → Option LogStream
  | .addNodeLog msg ts now => some (s.store [⟨msg, some (ts.getD now)⟩])
  | .addNodeLogs logs => some (s.store logs)
  | .lookUp i =>
    match takeAt s.calls i with
    | some (⟨logs, none⟩, rest) =>
      some { s with calls := ⟨logs, some s.phase.isSubscribed⟩ :: rest }
    | _ => none
  | .publish i =>
    match takeAt s.calls i with
    | some (⟨[], some _⟩, rest) => some { s with calls := rest }
    | some (⟨log :: logs, some subscribed⟩, rest) =>
      some { s with
        calls := ⟨logs, some subscribed⟩ :: rest
        queue := if subscribed = true then s.queue ++ [log] else s.queue }
    | _ => none
  | .subscribe => if s.phase = .absent then some { s with phase := .subscribed } else none
  | .read =>
    if s.phase = .subscribed then
      let rows := s.rows.take nodeLogsLimit
      some { s with phase := .replaying rows.length rows none }
    else none
  | .replay =>
    match s.phase with
    | .replaying read (row :: rest) replayedTs =>
      match row.1.ts with
      | none => some { s with phase := .replaying read rest replayedTs }
      | some ts =>
        some { s with phase := .replaying read rest (some ts), shown := s.shown ++ [row] }
    | _ => none
  | .follow =>
    match s.phase with
    | .replaying read [] replayedTs => some { s with phase := .live read replayedTs }
    | _ => none
  | .take =>
    match s.phase, s.queue with
    | .live _ replayedTs, row :: queue =>
      match row.1.ts with
      | none => some { s with queue }
      | some ts =>
        if replayed replayedTs ts = true then some { s with queue }
        else some { s with queue, shown := s.shown ++ [row] }
    | _, _ => none
  | .close =>
    if s.phase.isSubscribed = true then some { s with phase := .ended s.stored.length } else none

/-- A node's log before the stream is opened; calls may be under way. -/
def system : System LogStream LogEvent where
  init s := s.phase = .absent ∧ s.queue = [] ∧ s.shown = [] ∧
    ∀ call ∈ s.calls, call.subscribed ≠ some true ∧ ∀ row ∈ call.logs, row.2 < s.stored.length
  step := step

/-- What will come over the queue. -/
def coming : List LogRow := s.queue ++ s.calls.flatMap LogCall.coming

/-- The next line has a timestamp. -/
def ToldReplay : StreamPhase → Prop
  | .replaying _ (row :: _) _ => row.1.ts.isSome = true
  | _ => True

/-- The next line has a timestamp, by which it can be told whether it has been read. -/
def ToldTake : StreamPhase → List LogRow → Prop
  | .live read replayedTs, row :: _ =>
    ∃ ts ∈ row.1.ts, replayed replayedTs ts = true ↔ row.2 < read
  | _, _ => True

/-- What is on its way has been read. -/
def ToldClose (coming : List LogRow) : StreamPhase → Prop
  | .live read _ => ∀ row ∈ coming, row.2 < read
  | _ => False

/-- The read gets all that is stored; the lines have timestamps, by which those that come over
the queue can be told; and no line that was stored after the read is on its way when the stream
ends. -/
def Told (s : LogStream) : LogEvent → Prop
  | .read => s.stored.length ≤ nodeLogsLimit
  | .replay => ToldReplay s.phase
  | .take => ToldTake s.phase s.queue
  | .close => ToldClose s.coming s.phase
  | .addNodeLog _ _ _ | .addNodeLogs _ | .lookUp _ | .publish _ | .subscribe | .follow => True

section Decidable

instance : ∀ phase, Decidable (ToldReplay phase)
  | .replaying _ (row :: _) _ => inferInstanceAs (Decidable (row.1.ts.isSome = true))
  | .replaying _ [] _ | .absent | .subscribed | .live _ _ | .ended _ => .isTrue trivial

instance : ∀ phase queue, Decidable (ToldTake phase queue)
  | .live read replayedTs, row :: _ => inferInstanceAs
      (Decidable (∃ ts ∈ row.1.ts, replayed replayedTs ts = true ↔ row.2 < read))
  | .live _ _, [] | .absent, _ | .subscribed, _ | .replaying _ _ _, _ | .ended _, _ =>
    .isTrue trivial

instance (coming : List LogRow) : ∀ phase, Decidable (ToldClose coming phase)
  | .live read _ => inferInstanceAs (Decidable (∀ row ∈ coming, row.2 < read))
  | .absent | .subscribed | .replaying _ _ _ | .ended _ => .isFalse id

instance (s : LogStream) : ∀ a, Decidable (s.Told a)
  | .read => inferInstanceAs (Decidable (_ ≤ _))
  | .replay => inferInstanceAs (Decidable (ToldReplay s.phase))
  | .take => inferInstanceAs (Decidable (ToldTake s.phase s.queue))
  | .close => inferInstanceAs (Decidable (ToldClose s.coming s.phase))
  | .addNodeLog _ _ _ | .addNodeLogs _ | .lookUp _ | .publish _ | .subscribe | .follow =>
    .isTrue trivial

end Decidable

/-! ### What is on its way -/

section Coming

variable {s : LogStream} {logs : List NodeLog} {call : LogCall} {rest : List LogCall} {i : ℕ}
  {row : LogRow}

lemma mem_rows_lt (h : row ∈ s.rows) : row.2 < s.stored.length := by
  obtain ⟨-, hlt, -⟩ := List.mem_zipIdx h
  simpa using hlt

lemma nodup_rows (l : List NodeLog) (n : ℕ) : (l.zipIdx n).Nodup := by
  have hids : ((l.zipIdx n).map Prod.snd).Nodup := by
    rw [List.zipIdx_map_snd]
    exact List.nodup_range'
  exact hids.of_map _

/-- The rows that come to a table have ids of their own. -/
lemma mem_rows_store :
    row ∈ (s.store logs).rows ↔ row ∈ s.rows ∨ row ∈ logs.zipIdx s.stored.length := by
  rw [rows, store, List.zipIdx_append, Nat.zero_add, List.mem_append]
  rfl

lemma le_of_mem_zipIdx (h : row ∈ logs.zipIdx s.stored.length) : s.stored.length ≤ row.2 :=
  (List.mem_zipIdx h).1

lemma count_coming (h : takeAt s.calls i = some (call, rest)) :
    s.coming.count row =
      s.queue.count row + (call.coming.count row + (rest.flatMap LogCall.coming).count row) := by
  rw [coming, List.count_append, ((takeAt_perm h).flatMap_right _).count_eq, List.flatMap_cons,
    List.count_append]

lemma count_coming_store :
    (s.store logs).coming.count row =
      s.coming.count row + (logs.zipIdx s.stored.length).count row := by
  simp only [coming, store, List.flatMap_cons, List.count_append, LogCall.coming, reduceCtorEq,
    if_false]
  omega

lemma mem_coming_store :
    row ∈ (s.store logs).coming ↔ row ∈ s.coming ∨ row ∈ logs.zipIdx s.stored.length := by
  rw [← List.count_pos_iff, count_coming_store, ← List.count_pos_iff, ← List.count_pos_iff]
  omega

end Coming

/-! ### The invariant -/

/-- A stream that has read the first `read` rows and has shown them but for `rest`: each other row
has been shown or will come. -/
structure Following (s : LogStream) (read : ℕ) (rest : List LogRow) : Prop where
  le : read ≤ s.stored.length
  rest_lt : ∀ row ∈ rest, row.2 < read
  early : ∀ row ∈ s.rows, row.2 < read → s.shown.count row + rest.count row = 1
  late : ∀ row ∈ s.rows, read ≤ row.2 → s.coming.count row + s.shown.count row = 1

namespace Following

variable {s t : LogStream} {n : ℕ} {rest : List LogRow} {row : LogRow}

lemma congr (h : s.Following n rest) (hstored : t.stored = s.stored) (hshown : t.shown = s.shown)
    (hcoming : ∀ row, n ≤ row.2 → t.coming.count row = s.coming.count row) :
    t.Following n rest where
  le := hstored ▸ h.le
  rest_lt := h.rest_lt
  early row hrow := by
    rw [rows, hstored] at hrow
    rw [hshown]
    exact h.early row hrow
  late row hrow hle := by
    rw [rows, hstored] at hrow
    rw [hcoming row hle, hshown]
    exact h.late row hrow hle

/-- New rows will come. -/
lemma store (h : s.Following n rest) (hcoming : ∀ row ∈ s.coming, row.2 < s.stored.length)
    (hshown : ∀ row ∈ s.shown, row.2 < s.stored.length) (logs : List NodeLog) :
    (s.store logs).Following n rest where
  le := h.le.trans (by simp [LogStream.store])
  rest_lt := h.rest_lt
  early row hrow hlt := by
    rcases mem_rows_store.1 hrow with hold | hnew
    · exact h.early row hold hlt
    · exact absurd (hlt.trans_le h.le) (le_of_mem_zipIdx hnew).not_gt
  late row hrow hle := by
    rw [count_coming_store]
    show _ + s.shown.count row = 1
    rcases mem_rows_store.1 hrow with hold | hnew
    · have hnone : (logs.zipIdx s.stored.length).count row = 0 :=
        List.count_eq_zero.2 fun hmem => (le_of_mem_zipIdx hmem).not_gt (mem_rows_lt hold)
      have hone := h.late row hold hle
      omega
    · -- its id is past all those that have come or been shown
      have hone : (logs.zipIdx s.stored.length).count row = 1 :=
        List.count_eq_one_of_mem (nodup_rows _ _) hnew
      have hnever : s.coming.count row = 0 := List.count_eq_zero.2 fun hmem =>
        (le_of_mem_zipIdx hnew).not_gt (hcoming row hmem)
      have hunseen : s.shown.count row = 0 := List.count_eq_zero.2 fun hmem =>
        (le_of_mem_zipIdx hnew).not_gt (hshown row hmem)
      omega

/-- A row that has been read is shown. -/
lemma replay (h : s.Following n (row :: rest)) (hstored : t.stored = s.stored)
    (hshown : t.shown = s.shown ++ [row]) (hcoming : t.coming = s.coming) :
    t.Following n rest where
  le := hstored ▸ h.le
  rest_lt row' hrow' := h.rest_lt row' (List.mem_cons_of_mem row hrow')
  early row' hrow' hlt := by
    rw [rows, hstored] at hrow'
    have hone := h.early row' hrow' hlt
    rw [List.count_cons] at hone
    rw [hshown, List.count_append, List.count_singleton]
    omega
  late row' hrow' hle := by
    rw [rows, hstored] at hrow'
    have hother : row ≠ row' := by
      rintro rfl
      exact hle.not_gt (h.rest_lt row List.mem_cons_self)
    rw [hcoming, hshown, List.count_append, List.count_singleton, if_neg (by simpa using hother)]
    exact h.late row' hrow' hle

/-- A row that has come is shown. -/
lemma take (h : s.Following n rest) (hlate : n ≤ row.2) (hstored : t.stored = s.stored)
    (hshown : t.shown = s.shown ++ [row]) (hcoming : s.coming = row :: t.coming) :
    t.Following n rest where
  le := hstored ▸ h.le
  rest_lt := h.rest_lt
  early row' hrow' hlt := by
    rw [rows, hstored] at hrow'
    have hother : row ≠ row' := by
      rintro rfl
      exact hlate.not_gt hlt
    rw [hshown, List.count_append, List.count_singleton, if_neg (by simpa using hother)]
    exact h.early row' hrow' hlt
  late row' hrow' hle := by
    rw [rows, hstored] at hrow'
    have hone := h.late row' hrow' hle
    rw [hcoming, List.count_cons] at hone
    rw [hshown, List.count_append, List.count_singleton]
    omega

end Following

/-- What holds at each place of the stream. -/
def PhaseSound (s : LogStream) : StreamPhase → Prop
  | .absent | .subscribed => s.shown = []
  | .replaying read rest _ => s.Following read rest
  | .live read _ => s.Following read []
  | .ended appended =>
    appended ≤ s.stored.length ∧ ∀ row ∈ s.rows, row.2 < appended → s.shown.count row = 1

structure Sound (s : LogStream) : Prop where
  coming_lt : ∀ row ∈ s.coming, row.2 < s.stored.length
  shown_lt : ∀ row ∈ s.shown, row.2 < s.stored.length
  phase : s.PhaseSound s.phase

section Invariant

variable {s t : LogStream} {i : ℕ} {row : LogRow} {phase : StreamPhase}

/-- What a step of the calls does not change. -/
lemma PhaseSound.congr (h : s.PhaseSound phase) (hstored : t.stored = s.stored)
    (hshown : t.shown = s.shown)
    (hcoming : phase.isSubscribed = true → ∀ row, t.coming.count row = s.coming.count row) :
    t.PhaseSound phase := by
  cases phase with
  | absent => exact hshown.trans h
  | subscribed => exact hshown.trans h
  | replaying read rest replayedTs =>
    exact Following.congr h hstored hshown fun row _ => hcoming rfl row
  | live read replayedTs => exact Following.congr h hstored hshown fun row _ => hcoming rfl row
  | ended appended =>
    refine ⟨hstored ▸ h.1, fun row hrow hlt => ?_⟩
    rw [rows, hstored] at hrow
    rw [hshown]
    exact h.2 row hrow hlt

lemma Sound.store (h : s.Sound) (logs : List NodeLog) : (s.store logs).Sound where
  coming_lt row hrow := by
    rw [LogStream.store, List.length_append]
    rcases mem_coming_store.1 hrow with hold | hnew
    · exact (h.coming_lt row hold).trans_le (Nat.le_add_right _ _)
    · simpa [Nat.add_comm] using (List.mem_zipIdx hnew).2.1
  shown_lt row hrow := by
    rw [LogStream.store, List.length_append]
    exact (h.shown_lt row hrow).trans_le (Nat.le_add_right _ _)
  phase := by
    have hphase := h.phase
    show (s.store logs).PhaseSound s.phase
    cases hplace : s.phase with
    | absent => rwa [hplace] at hphase
    | subscribed => rwa [hplace] at hphase
    | replaying read rest replayedTs =>
      rw [hplace] at hphase
      exact Following.store hphase h.coming_lt h.shown_lt logs
    | live read replayedTs =>
      rw [hplace] at hphase
      exact Following.store hphase h.coming_lt h.shown_lt logs
    | ended appended =>
      rw [hplace] at hphase
      refine ⟨hphase.1.trans (by simp [LogStream.store]), fun row hrow hlt => ?_⟩
      rcases mem_rows_store.1 hrow with hold | hnew
      · exact hphase.2 row hold hlt
      · exact absurd (hlt.trans_le hphase.1) (le_of_mem_zipIdx hnew).not_gt

/-- A step of the calls: what comes is what came, and nothing is lost while the stream is
subscribed. -/
lemma Sound.of_calls (h : s.Sound) (hstored : t.stored = s.stored) (hshown : t.shown = s.shown)
    (hphase : t.phase = s.phase) (hle : ∀ row, t.coming.count row ≤ s.coming.count row)
    (hcoming : s.phase.isSubscribed = true → ∀ row, t.coming.count row = s.coming.count row) :
    t.Sound where
  coming_lt row hrow := by
    rw [hstored]
    exact h.coming_lt row (List.count_pos_iff.1 ((List.count_pos_iff.2 hrow).trans_le (hle row)))
  shown_lt := by
    rw [hstored, hshown]
    exact h.shown_lt
  phase := hphase ▸ h.phase.congr hstored hshown hcoming

/-- A call that looks the queues up finds the stream's, if it is subscribed. -/
lemma Sound.lookUp (h : s.Sound) (hstep : s.step (.lookUp i) = some t) : t.Sound := by
  simp only [step] at hstep
  split at hstep
  · rename_i logs rest htake
    obtain rfl := Option.some.inj hstep
    have hcount : ∀ row, (coming { s with
        calls := ⟨logs, some s.phase.isSubscribed⟩ :: rest }).count row = s.queue.count row +
          ((LogCall.coming ⟨logs, some s.phase.isSubscribed⟩).count row +
            (rest.flatMap LogCall.coming).count row) := by
      intro row
      rw [coming, List.count_append, List.flatMap_cons, List.count_append]
    refine h.of_calls rfl rfl rfl (fun row => ?_) fun hsubscribed row => ?_
    · -- without a subscription none of the call's lines will come
      rw [hcount, count_coming htake]
      unfold LogCall.coming
      cases s.phase.isSubscribed <;> simp
    · rw [hcount, count_coming htake, hsubscribed]
      rfl
  · cases hstep

/-- A call that publishes a line puts it on the queue that it has found. -/
lemma Sound.publish (h : s.Sound) (hstep : s.step (.publish i) = some t) : t.Sound := by
  have hsame : t.stored = s.stored ∧ t.shown = s.shown ∧ t.phase = s.phase ∧
      ∀ row, t.coming.count row = s.coming.count row := by
    simp only [step] at hstep
    split at hstep
    · rename_i subscribed rest htake
      obtain rfl := Option.some.inj hstep
      refine ⟨rfl, rfl, rfl, fun row => ?_⟩
      rw [count_coming htake, coming, List.count_append]
      cases subscribed <;> simp [LogCall.coming]
    · rename_i log logs subscribed rest htake
      obtain rfl := Option.some.inj hstep
      refine ⟨rfl, rfl, rfl, fun row => ?_⟩
      rw [count_coming htake, coming, List.count_append, List.flatMap_cons, List.count_append]
      cases subscribed with
      | false => simp [LogCall.coming]
      | true =>
        simp only [LogCall.coming, if_true, Option.some.injEq, Bool.true_eq_false, if_false,
          List.count_append, List.count_cons, List.count_nil]
        omega
    · cases hstep
  exact h.of_calls hsame.1 hsame.2.1 hsame.2.2.1 (fun row => (hsame.2.2.2 row).le)
    fun _ => hsame.2.2.2

/-- The read gets all that is stored. -/
lemma Sound.read (h : s.Sound) (hok : s.Told .read) (hstep : s.step .read = some t) :
    t.Sound := by
  simp only [step, Option.ite_none_right_eq_some, Option.some.injEq] at hstep
  obtain ⟨hplace, rfl⟩ := hstep
  have hall : s.rows.take nodeLogsLimit = s.rows := by
    refine List.take_of_length_le ?_
    rw [rows, List.length_zipIdx]
    exact hok
  have hnone : s.shown = [] := by
    have hphase := h.phase
    rwa [hplace] at hphase
  refine ⟨h.coming_lt, h.shown_lt, ?_⟩
  show Following _ (s.rows.take nodeLogsLimit).length (s.rows.take nodeLogsLimit)
  have hlength : s.rows.length = s.stored.length := List.length_zipIdx
  rw [hall, hlength]
  refine ⟨le_refl _, fun row hrow => mem_rows_lt hrow, fun row hrow _ => ?_, fun row hrow hle => ?_⟩
  · rw [show LogStream.shown _ = [] from hnone, List.count_nil, Nat.zero_add]
    exact List.count_eq_one_of_mem (nodup_rows _ _) hrow
  · exact absurd (mem_rows_lt hrow) hle.not_gt

lemma Sound.replay (h : s.Sound) (hok : s.Told .replay) (hstep : s.step .replay = some t) :
    t.Sound := by
  simp only [step] at hstep
  split at hstep
  · rename_i read row rest replayedTs hplace
    have hfollowing : s.Following read (row :: rest) := by
      have hphase := h.phase
      rwa [hplace] at hphase
    obtain ⟨ts, hts⟩ : ∃ ts, row.1.ts = some ts := by
      simp only [Told, ToldReplay, hplace] at hok
      exact Option.isSome_iff_exists.1 hok
    simp only [hts, Option.some.injEq] at hstep
    subst hstep
    refine ⟨h.coming_lt, fun row' hrow' => ?_, hfollowing.replay rfl rfl rfl⟩
    rcases List.mem_append.1 hrow' with hold | hnew
    · exact h.shown_lt row' hold
    · obtain rfl := List.mem_singleton.1 hnew
      exact (hfollowing.rest_lt row' List.mem_cons_self).trans_le hfollowing.le
  · cases hstep

/-- A line that comes has been read and is dropped, or has not and is shown. -/
lemma Sound.take (h : s.Sound) (hok : s.Told .take) (hstep : s.step .take = some t) :
    t.Sound := by
  simp only [step] at hstep
  split at hstep
  · rename_i read replayedTs row queue hplace hqueue
    have hfollowing : s.Following read [] := by
      have hphase := h.phase
      rwa [hplace] at hphase
    have hcoming : s.coming = row :: (queue ++ s.calls.flatMap LogCall.coming) := by
      rw [coming, hqueue]
      rfl
    simp only [Told, ToldTake, hplace, hqueue] at hok
    obtain ⟨ts, hts, htold⟩ := hok
    simp only [Option.mem_def.1 hts] at hstep
    split_ifs at hstep with hold
    · -- it has been read, and those that are counted as coming have not
      obtain rfl := Option.some.inj hstep
      refine ⟨fun row' hrow' => h.coming_lt row' ?_, h.shown_lt, ?_⟩
      · rw [hcoming]
        exact List.mem_cons_of_mem row hrow'
      · show PhaseSound _ s.phase
        rw [hplace]
        refine hfollowing.congr rfl rfl fun row' hle => ?_
        have hother : row ≠ row' := by
          rintro rfl
          exact hle.not_gt (htold.1 hold)
        rw [hcoming, List.count_cons_of_ne hother]
        rfl
    · obtain rfl := Option.some.inj hstep
      have hlate : read ≤ row.2 := not_lt.1 fun hlt => hold (htold.2 hlt)
      refine ⟨fun row' hrow' => h.coming_lt row' ?_, fun row' hrow' => ?_, ?_⟩
      · rw [hcoming]
        exact List.mem_cons_of_mem row hrow'
      · rcases List.mem_append.1 hrow' with hseen | hnew
        · exact h.shown_lt row' hseen
        · obtain rfl := List.mem_singleton.1 hnew
          exact h.coming_lt row' (hcoming ▸ List.mem_cons_self)
      · show PhaseSound _ s.phase
        rw [hplace]
        exact hfollowing.take hlate rfl rfl hcoming
  · cases hstep

/-- The stream ends when each line has been shown. -/
lemma Sound.close (h : s.Sound) (hok : s.Told .close) (hstep : s.step .close = some t) :
    t.Sound := by
  simp only [step, Option.ite_none_right_eq_some, Option.some.injEq] at hstep
  obtain ⟨-, rfl⟩ := hstep
  refine ⟨h.coming_lt, h.shown_lt, le_refl _, fun row hrow _ => ?_⟩
  have hphase := h.phase
  cases hplace : s.phase with
  | absent => simp [Told, ToldClose, hplace] at hok
  | subscribed => simp [Told, ToldClose, hplace] at hok
  | replaying read rest replayedTs => simp [Told, ToldClose, hplace] at hok
  | ended appended => simp [Told, ToldClose, hplace] at hok
  | live read replayedTs =>
    rw [hplace] at hphase
    simp only [Told, ToldClose, hplace] at hok
    have hfollowing : s.Following read [] := hphase
    show s.shown.count row = 1
    by_cases hlt : row.2 < read
    · simpa using hfollowing.early row hrow hlt
    · have hnever : s.coming.count row = 0 := List.count_eq_zero.2 fun hmem => hlt (hok row hmem)
      have hone := hfollowing.late row hrow (not_lt.1 hlt)
      omega

lemma sound_invariant : system.Invariant Told Sound where
  init := by
    rintro s ⟨hplace, hqueue, hshown, hcalls⟩
    refine ⟨fun row hrow => ?_, fun row hrow => ?_, ?_⟩
    · rw [coming, hqueue, List.nil_append] at hrow
      obtain ⟨call, hcall, hrow⟩ := List.mem_flatMap.1 hrow
      refine (hcalls call hcall).2 row ?_
      rw [LogCall.coming] at hrow
      split_ifs at hrow
      · cases hrow
      · exact hrow
    · rw [hshown] at hrow
      cases hrow
    · rw [hplace]
      exact hshown
  step := by
    rintro s a t h hok hstep
    cases a with
    | addNodeLog msg ts now => exact Option.some.inj hstep ▸ h.store _
    | addNodeLogs logs => exact Option.some.inj hstep ▸ h.store logs
    | lookUp i => exact h.lookUp hstep
    | publish i => exact h.publish hstep
    | subscribe =>
      simp only [system, step, Option.ite_none_right_eq_some, Option.some.injEq] at hstep
      obtain ⟨hplace, rfl⟩ := hstep
      have hphase := h.phase
      rw [hplace] at hphase
      exact ⟨h.coming_lt, h.shown_lt, hphase⟩
    | read => exact h.read hok hstep
    | replay => exact h.replay hok hstep
    | follow =>
      simp only [system, step] at hstep
      split at hstep
      · rename_i read replayedTs hplace
        obtain rfl := Option.some.inj hstep
        have hphase := h.phase
        rw [hplace] at hphase
        exact ⟨h.coming_lt, h.shown_lt, Following.congr hphase rfl rfl fun _ _ => rfl⟩
      · cases hstep
    | take => exact h.take hok hstep
    | close => exact h.close hok hstep

/-- **The stream shows each line once**, in every run in which the read gets all that is stored,
the timestamps of the lines that come over the queue tell which of them were stored before it,
and the stream does not end while a line that was stored after it is on its way. -/
theorem shown_once (h : system.Reachable Told s) {appended : ℕ} (hended : s.phase = .ended appended)
    {row : LogRow} (hrow : row ∈ s.stored.zipIdx) (happended : row.2 < appended) :
    s.shown.count row = 1 := by
  have hphase := (sound_invariant.reachable h).phase
  rw [hended] at hphase
  exact hphase.2 row hrow happended

end Invariant

/-! ### Two sources -/

section Two

/-- A node without a log. -/
def fresh : LogStream where
  stored := []
  calls := []
  queue := []
  phase := .absent
  shown := []

lemma init_fresh : system.init fresh := ⟨rfl, rfl, rfl, nofun⟩

/-- A line of the head and one of the node are stored before the stream reads, and are published
when it has shown them; another line of the node comes then. -/
def twoSources (ofHead ofNode later : ℚ) : List LogEvent :=
  [.subscribe, .addNodeLog "booting" none ofHead, .addNodeLogs [⟨"pulling", some ofNode⟩], .read,
    .replay, .replay, .follow, .lookUp 1, .publish 0, .publish 0, .take, .lookUp 0, .publish 0,
    .publish 0, .take, .addNodeLogs [⟨"ready", some later⟩], .lookUp 0, .publish 0, .publish 0,
    .take, .close]

/-- The clocks agree. -/
def inOrder : LogStream :=
  ((system.guarded Told).exec fresh (twoSources 5 9 10)).get (by decide +kernel)

theorem shown_once_inOrder : inOrder.phase = .ended 3 ∧
    inOrder.shown.count (⟨"ready", some 10⟩, 2) = 1 :=
  ⟨by decide +kernel, shown_once
    ⟨fresh, _, init_fresh, System.run_of_exec_guarded (Option.some_get _).symm⟩
    (show inOrder.phase = .ended 3 by decide +kernel) (by decide +kernel) (by decide +kernel)⟩

/-- The node's clock is behind the head's, and it has two lines at one time. -/
def behind : LogStream :=
  ((system.guarded System.always).exec fresh (twoSources 9 5 5)).get (by decide +kernel)

/-- **Lines get lost, and lines come twice**: the line of the head is shown again after the node's,
and the second line of the node never. -/
theorem line_lost :
    ¬∀ s, system.Reachable System.always s → ∀ appended, s.phase = .ended appended →
      ∀ row ∈ s.stored.zipIdx, row.2 < appended → s.shown.count row = 1 := by
  intro h
  have hreachable : system.Reachable System.always behind :=
    ⟨fresh, _, init_fresh, System.run_of_exec_guarded (Option.some_get _).symm⟩
  have hended : behind.phase = .ended 3 := by decide +kernel
  have hshown : behind.shown.count (⟨"booting", some 9⟩, 0) = 2 ∧
      behind.shown.count (⟨"ready", some 5⟩, 2) = 0 := by decide +kernel
  have honce := h behind hreachable 3 hended (⟨"ready", some 5⟩, 2) (by decide +kernel)
    (by decide +kernel)
  cases honce.symm.trans hshown.2

end Two

end LogStream

end Burla.ClusterState
