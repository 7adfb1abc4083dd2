/-
The starts and ends of attempts, from the nodes to the head's table (`record_call_event` and the
push of `resource_metrics_loop` in resource_metrics.py, `add_call_events` in history.py).

An event writes one column of its attempt's row, which is made if it is not there.  The row after any
number of events is determined by which events there were (`eventRow_addBatches`), when an attempt has one
start and one end; so batches can be cut, reordered and delivered again
(`Burla.History.same_events`).  A node keeps its events until a push has been answered; once none
are pending, the head's table is the one of all recorded events (`Burla.History.pushed_all`).
-/
import Burla.History.Tables
import Burla.Lib.System

namespace Burla.History

/-! ### Upserts -/

inductive EventKind
  | start
  | stop
  deriving DecidableEq

/-- An event of an attempt. -/
structure CallEvent where
  kind : EventKind
  jobId : String
  inputIndex : ℤ
  attempt : String
  timestamp : ℚ
  deriving DecidableEq

namespace CallEvent

variable (e : CallEvent)

def key : String × ℤ × String := (e.jobId, e.inputIndex, e.attempt)

/-- The row that is inserted, before the event's column is written. -/
def blankRow : CallEventRow where
  jobId := e.jobId
  inputIndex := e.inputIndex
  attempt := e.attempt
  startedAt := none
  endedAt := none

/-- The column of the event is written. -/
def write (r : CallEventRow) : CallEventRow :=
  match e.kind with
  | .start => { r with startedAt := some e.timestamp }
  | .stop => { r with endedAt := some e.timestamp }

end CallEvent

/-- `INSERT … ON CONFLICT DO UPDATE` -/
def upsert (rows : List CallEventRow) (e : CallEvent) : List CallEventRow :=
  if rows.any fun r => r.key = e.key then
    rows.map fun r => if r.key = e.key then e.write r else r
  else rows ++ [e.write e.blankRow]

/-- The rows of `call_events` after a batch: the starts come first. -/
def addEvents (rows : List CallEventRow) (events : List CallEvent) : List CallEventRow :=
  let starts := events.filter fun e => e.kind = .start
  let ends := events.filter fun e => e.kind ≠ .start
  ends.foldl upsert (starts.foldl upsert rows)

section Rows

variable {rows : List CallEventRow} {events events' : List CallEvent} {e : CallEvent}
  {k : String × ℤ × String}

/-- The row of an attempt. -/
def eventRow (rows : List CallEventRow) (k : String × ℤ × String) : Option CallEventRow :=
  rows.find? fun r => r.key = k

@[simp] lemma key_write (r : CallEventRow) : (e.write r).key = r.key := by
  rw [CallEvent.write]
  split <;> rfl

lemma eventRow_eq_none : eventRow rows k = none ↔ ∀ r ∈ rows, r.key ≠ k := by
  simp [eventRow, List.find?_eq_none]

lemma key_of_eventRow {r : CallEventRow} (h : eventRow rows k = some r) : r.key = k := by
  have hfound := List.find?_some h
  exact of_decide_eq_true hfound

/-- The keys are kept, and the event's is added if it is new. -/
lemma map_key_upsert :
    (upsert rows e).map CallEventRow.key =
      if ∃ r ∈ rows, r.key = e.key then rows.map CallEventRow.key
      else rows.map CallEventRow.key ++ [e.key] := by
  have hany : (rows.any fun r => r.key = e.key) = true ↔ ∃ r ∈ rows, r.key = e.key := by
    simp [List.any_eq_true]
  rw [upsert]
  by_cases h : ∃ r ∈ rows, r.key = e.key
  · rw [if_pos (hany.2 h), if_pos h, List.map_map]
    refine List.map_congr_left fun r _ => ?_
    by_cases hr : r.key = e.key <;> simp [hr]
  · rw [if_neg (fun htrue => h (hany.1 htrue)), if_neg h, List.map_append, List.map_singleton,
      key_write]
    rfl

lemma nodup_upsert (h : (rows.map CallEventRow.key).Nodup) :
    ((upsert rows e).map CallEventRow.key).Nodup := by
  rw [map_key_upsert]
  split
  · exact h
  · rename_i hnew
    refine h.append (List.nodup_singleton _) ?_
    rw [List.disjoint_singleton]
    rintro hmem
    obtain ⟨r, hr, hkey⟩ := List.mem_map.1 hmem
    exact hnew ⟨r, hr, hkey⟩

/-- **An event writes its attempt's row, and no other.** -/
lemma eventRow_upsert :
    eventRow (upsert rows e) k =
      if k = e.key then some (e.write ((eventRow rows k).getD e.blankRow)) else eventRow rows k := by
  rw [upsert, eventRow]
  split
  · rename_i hany
    rw [List.find?_map]
    have hkey : (fun r : CallEventRow => decide (r.key = k)) ∘
        (fun r => if r.key = e.key then e.write r else r) = fun r => decide (r.key = k) := by
      funext r
      by_cases hr : r.key = e.key <;> simp [hr]
    rw [hkey, ← eventRow]
    by_cases hk : k = e.key
    · subst hk
      rw [if_pos rfl]
      cases hrow : eventRow rows e.key with
      | none =>
        obtain ⟨r, hr, hkey⟩ := List.any_eq_true.1 hany
        exact absurd (of_decide_eq_true hkey) (eventRow_eq_none.1 hrow r hr)
      | some r =>
        have hr : r.key = e.key := key_of_eventRow hrow
        simp [hr]
    · rw [if_neg hk]
      cases hrow : eventRow rows k with
      | none => rfl
      | some r =>
        have hr : r.key = k := key_of_eventRow hrow
        simp [hr, hk]
  · rename_i hany
    rw [List.find?_append, ← eventRow]
    by_cases hk : k = e.key
    · subst hk
      have hnone : eventRow rows e.key = none := by
        rw [eventRow_eq_none]
        intro r hr hkey
        exact hany (List.any_eq_true.2 ⟨r, hr, decide_eq_true hkey⟩)
      have hblank : e.blankRow.key = e.key := rfl
      rw [hnone, if_pos rfl]
      simp [hblank]
    · have hblank : e.blankRow.key ≠ k := fun h => hk h.symm
      rw [if_neg hk]
      cases eventRow rows k <;> simp [hblank]

end Rows

/-! ### What the events determine -/

/-- The time of an attempt's start or end. -/
def stamp (kind : EventKind) (events : List CallEvent) (k : String × ℤ × String) : Option ℚ :=
  (events.find? fun e => e.kind = kind ∧ e.key = k).map CallEvent.timestamp

/-- An attempt has one start and one end at most. -/
def OneEach (events : List CallEvent) : Prop :=
  ∀ e ∈ events, ∀ e' ∈ events, e.kind = e'.kind → e.key = e'.key → e.timestamp = e'.timestamp

instance (events : List CallEvent) : Decidable (OneEach events) :=
  inferInstanceAs (Decidable (∀ e ∈ events, ∀ e' ∈ events, _ → _ → _))

/-- The row of an attempt after events, from the one before. -/
def merged (before : Option CallEventRow) (events : List CallEvent) (k : String × ℤ × String) :
    Option CallEventRow :=
  if ∃ e ∈ events, e.key = k then
    some {
      jobId := k.1
      inputIndex := k.2.1
      attempt := k.2.2
      startedAt := (stamp .start events k).or (before.bind CallEventRow.startedAt)
      endedAt := (stamp .stop events k).or (before.bind CallEventRow.endedAt) }
  else before

section Merged

variable {rows : List CallEventRow} {events events' : List CallEvent} {e : CallEvent}
  {k : String × ℤ × String} {kind : EventKind} {t : ℚ}

lemma OneEach.mono (h : OneEach events') (hsub : ∀ e ∈ events, e ∈ events') : OneEach events :=
  fun e he e' he' => h e (hsub e he) e' (hsub e' he')

lemma stamp_eq_none : stamp kind events k = none ↔ ∀ e ∈ events, e.kind = kind → e.key ≠ k := by
  simp [stamp, List.find?_eq_none]

lemma stamp_eq_some (h : OneEach events) :
    stamp kind events k = some t ↔ ∃ e ∈ events, e.kind = kind ∧ e.key = k ∧ e.timestamp = t := by
  constructor
  · intro hstamp
    obtain ⟨e, hfound, rfl⟩ := Option.map_eq_some_iff.1 hstamp
    have he : e.kind = kind ∧ e.key = k := by simpa using List.find?_some hfound
    exact ⟨e, List.mem_of_find?_eq_some hfound, he.1, he.2, rfl⟩
  · rintro ⟨e, he, rfl, rfl, rfl⟩
    cases hstamp : stamp e.kind events e.key with
    | none => exact absurd rfl (stamp_eq_none.1 hstamp e he rfl)
    | some t =>
      obtain ⟨e', hfound, rfl⟩ := Option.map_eq_some_iff.1 hstamp
      have he' : e'.kind = e.kind ∧ e'.key = e.key := by simpa using List.find?_some hfound
      rw [h e' (List.mem_of_find?_eq_some hfound) e he he'.1 he'.2]

/-- The same events have the same times. -/
lemma stamp_congr (h : OneEach events) (hsame : ∀ e, e ∈ events ↔ e ∈ events') :
    stamp kind events k = stamp kind events' k := by
  have h' : OneEach events' := h.mono fun e he => (hsame e).2 he
  ext t
  simp only [stamp_eq_some h, stamp_eq_some h', hsame]

lemma merged_congr {before : Option CallEventRow} (h : OneEach events)
    (hsame : ∀ e, e ∈ events ↔ e ∈ events') : merged before events k = merged before events' k := by
  simp only [merged, stamp_congr h hsame, hsame]

/-- A row that is there gets the times of the events. -/
lemma merged_some {r : CallEventRow} (hr : r.key = k) :
    merged (some r) events k =
      some { r with
        startedAt := (stamp .start events k).or r.startedAt
        endedAt := (stamp .stop events k).or r.endedAt } := by
  subst hr
  rw [merged]
  split
  · rfl
  · rename_i hnone
    have hstamp : ∀ kind, stamp kind events r.key = none := fun kind =>
      stamp_eq_none.2 fun e he _ hkey => hnone ⟨e, he, hkey⟩
    simp [hstamp]

lemma stamp_cons :
    stamp kind (e :: events) k =
      if e.kind = kind ∧ e.key = k then some e.timestamp else stamp kind events k := by
  rw [stamp, List.find?_cons]
  split
  · rename_i h
    rw [if_pos (of_decide_eq_true h)]
    rfl
  · rename_i h
    rw [if_neg (of_decide_eq_false h)]
    rfl

/-- What comes later does not differ from an event for the same column. -/
lemma stamp_or (h : OneEach (e :: events)) :
    (stamp e.kind events e.key).or (some e.timestamp) = some e.timestamp := by
  cases hstamp : stamp e.kind events e.key with
  | none => rfl
  | some t =>
    obtain ⟨e', he', hkind, hkey, rfl⟩ :=
      (stamp_eq_some (h.mono fun _ => List.mem_cons_of_mem _)).1 hstamp
    rw [h e' (List.mem_cons_of_mem _ he') e List.mem_cons_self hkind hkey]
    rfl

/-- **The row of an attempt after events, in whatever order they come.** -/
lemma eventRow_foldl (h : OneEach events) :
    eventRow (events.foldl upsert rows) k = merged (eventRow rows k) events k := by
  induction events generalizing rows with
  | nil => simp [merged]
  | cons e events ih =>
    rw [List.foldl_cons, ih (h.mono fun _ => List.mem_cons_of_mem _), eventRow_upsert]
    by_cases hk : k = e.key
    · subst hk
      have hor := stamp_or h
      obtain ⟨r, hr, hkey, hstart, hstop⟩ : ∃ r, (eventRow rows e.key).getD e.blankRow = r ∧
          r.key = e.key ∧ (eventRow rows e.key).bind CallEventRow.startedAt = r.startedAt ∧
          (eventRow rows e.key).bind CallEventRow.endedAt = r.endedAt := by
        cases hrow : eventRow rows e.key with
        | none => exact ⟨e.blankRow, rfl, rfl, rfl, rfl⟩
        | some r => exact ⟨r, rfl, key_of_eventRow hrow, rfl, rfl⟩
      rw [if_pos rfl, hr, merged_some ((key_write _).trans hkey), merged,
        if_pos ⟨e, List.mem_cons_self, rfl⟩, hstart, hstop, ← hkey]
      simp only [stamp_cons, hkey]
      cases hkind : e.kind with
      | start =>
        rw [hkind] at hor
        simp only [CallEvent.write, hkind, hor, and_true, if_true, reduceCtorEq, if_false]
        rw [← hkey]
        rfl
      | stop =>
        rw [hkind] at hor
        simp only [CallEvent.write, hkind, hor, and_true, if_true, reduceCtorEq, if_false]
        rw [← hkey]
        rfl
    · have hne : e.key ≠ k := fun heq => hk heq.symm
      simp [hk, merged, stamp_cons, hne]

/-- The order in which a batch is written. -/
def inOrder (events : List CallEvent) : List CallEvent :=
  (events.filter fun e => e.kind = .start) ++ events.filter fun e => e.kind ≠ .start

lemma mem_inOrder : e ∈ inOrder events ↔ e ∈ events := by
  by_cases he : e.kind = .start <;> simp [inOrder, he]

lemma addEvents_eq : addEvents rows events = (inOrder events).foldl upsert rows := by
  rw [addEvents, inOrder, List.foldl_append]

end Merged

/-! ### Batches -/

/-- `add_call_events` -/
def Store.addCallEvents (s : Store) (events : List CallEvent) : Store where
  jobs := s.jobs
  jobLogs := s.jobLogs
  nodes := s.nodes
  nodeLogs := s.nodeLogs
  resourceMetrics := s.resourceMetrics
  callEvents := addEvents s.callEvents events
  debugLogs := s.debugLogs
  clusterConfig := s.clusterConfig
  historyImports := s.historyImports
  jobs_key := s.jobs_key
  nodes_key := s.nodes_key
  events_key := by
    have hfold : ∀ (l : List CallEvent) (rows : List CallEventRow),
        (rows.map CallEventRow.key).Nodup → ((l.foldl upsert rows).map CallEventRow.key).Nodup := by
      intro l
      induction l with
      | nil => exact fun _ h => h
      | cons e l ih => exact fun rows h => ih _ (nodup_upsert h)
    exact hfold _ _ (hfold _ _ s.events_key)

/-- Batches that arrive one after the other. -/
def Store.addBatches (s : Store) (batches : List (List CallEvent)) : Store :=
  batches.foldl Store.addCallEvents s

section Batches

variable {s t : Store} {batches batches' : List (List CallEvent)} {k : String × ℤ × String}

/-- Two tables with the same row of every attempt have the same rows. -/
lemma callEvents_perm (h : ∀ k, eventRow s.callEvents k = eventRow t.callEvents k) :
    s.callEvents.Perm t.callEvents := by
  have hmem : ∀ (s : Store) (r : CallEventRow),
      r ∈ s.callEvents ↔ eventRow s.callEvents r.key = some r := by
    intro s r
    constructor
    · intro hr
      cases hrow : eventRow s.callEvents r.key with
      | none => exact absurd rfl (eventRow_eq_none.1 hrow r hr)
      | some r' =>
        have hr' : r' ∈ s.callEvents := List.mem_of_find?_eq_some hrow
        rw [List.inj_on_of_nodup_map s.events_key hr' hr (key_of_eventRow hrow)]
    · exact fun hrow => List.mem_of_find?_eq_some hrow
  refine (List.perm_ext_iff_of_nodup s.events_key.of_map t.events_key.of_map).2 fun r => ?_
  rw [hmem s, hmem t, h]

lemma callEvents_addBatches :
    (s.addBatches batches).callEvents = (batches.flatMap inOrder).foldl upsert s.callEvents := by
  induction batches generalizing s with
  | nil => rfl
  | cons batch batches ih =>
    rw [List.flatMap_cons, List.foldl_append, ← addEvents_eq]
    exact ih

/-- **Batches leave the rows that all their events determine.** -/
lemma eventRow_addBatches (h : OneEach batches.flatten) :
    eventRow (s.addBatches batches).callEvents k =
      merged (eventRow s.callEvents k) batches.flatten k := by
  have hmem : ∀ e, e ∈ batches.flatMap inOrder ↔ e ∈ batches.flatten := by
    simp [List.mem_flatMap, mem_inOrder]
  have hone : OneEach (batches.flatMap inOrder) := h.mono fun e he => (hmem e).1 he
  rw [callEvents_addBatches, eventRow_foldl hone, merged_congr hone hmem]

/-- Batches with the same events leave the same table. -/
lemma perm_addBatches (h : OneEach batches.flatten)
    (hsame : ∀ e, e ∈ batches.flatten ↔ e ∈ batches'.flatten) :
    (s.addBatches batches).callEvents.Perm (s.addBatches batches').callEvents := by
  have h' : OneEach batches'.flatten := h.mono fun e he => (hsame e).2 he
  refine callEvents_perm fun k => ?_
  rw [eventRow_addBatches h, eventRow_addBatches h', merged_congr h hsame]

/-- **However the events are cut into batches, in whatever order these arrive, and however often, the
table is the same.** -/
theorem same_events (s : Store) (h : OneEach batches.flatten)
    (hsame : ∀ e, (∃ batch ∈ batches, e ∈ batch) ↔ ∃ batch ∈ batches', e ∈ batch) :
    (s.addBatches batches).callEvents.Perm (s.addBatches batches').callEvents :=
  perm_addBatches h (by simpa [List.mem_flatten] using hsame)

end Batches

/-- The start and the end of an attempt. -/
def firstStart : CallEvent := ⟨.start, "j", 0, "a", 5⟩

def firstStop : CallEvent := ⟨.stop, "j", 0, "a", 9⟩

/-- The end comes first, and both are delivered again. -/
theorem same_events_reordered :
    (Store.empty.addBatches [[firstStart, firstStop]]).callEvents.Perm
      (Store.empty.addBatches [[firstStop], [firstStart, firstStop], [firstStop]]).callEvents :=
  same_events Store.empty (by decide) (by simp [or_comm])

/-! ### Pushes -/

/-- The events of a node that wait for a push to be answered. -/
structure EventQueue where
  /-- `PENDING_CALL_EVENTS` -/
  pending : List CallEvent
  /-- A push that has not been answered: `n_events`, and whether it has arrived. -/
  inFlight : Option (ℕ × Bool)

/-- The nodes' events on their way to the head. -/
structure Pushes (ν : Type*) where
  /-- Every event that was recorded. -/
  recorded : List CallEvent
  queues : ν → EventQueue
  /-- The batches that have arrived. -/
  delivered : List (List CallEvent)

inductive PushStep (ν : Type*)
  /-- `record_call_event` -/
  | record (n : ν) (e : CallEvent)
  | push (n : ν)
  | arrive (n : ν)
  /-- The push is answered, which it is not before it has arrived. -/
  | answer (n : ν)
  /-- The push fails, before it has arrived or after. -/
  | fail (n : ν)
  /-- A push arrives that was given up, or arrives again. -/
  | late (batch : List CallEvent)

variable {ν : Type*} [DecidableEq ν]

def Pushes.setQueue (s : Pushes ν) (n : ν) (q : EventQueue) : Pushes ν :=
  { s with queues := Function.update s.queues n q }

/-- `resource_metrics_loop` on each node. -/
def pushSystem (ν : Type*) [DecidableEq ν] : System (Pushes ν) (PushStep ν) where
  init s :=
    s = { recorded := [], queues := fun _ => { pending := [], inFlight := none }, delivered := [] }
  step s
    | .record n e =>
      let q := s.queues n
      some ({ s with recorded := s.recorded ++ [e] }.setQueue n
        { q with pending := q.pending ++ [e] })
    | .push n =>
      let q := s.queues n
      match q.inFlight with
      | none => some (s.setQueue n { q with inFlight := some (q.pending.length, false) })
      | some _ => none
    | .arrive n =>
      let q := s.queues n
      match q.inFlight with
      | some (k, false) =>
        some ({ s with delivered := s.delivered ++ [q.pending.take k] }.setQueue n
          { q with inFlight := some (k, true) })
      | _ => none
    | .answer n =>
      let q := s.queues n
      match q.inFlight with
      | some (k, true) => some (s.setQueue n { pending := q.pending.drop k, inFlight := none })
      | _ => none
    | .fail n =>
      let q := s.queues n
      match q.inFlight with
      | some _ => some (s.setQueue n { q with inFlight := none })
      | none => none
    | .late batch =>
      if ∀ e ∈ batch, e ∈ s.recorded then some { s with delivered := s.delivered ++ [batch] }
      else none

/-- What an unanswered push had is at the front of what is pending, and once it has arrived the head
has it. -/
structure EventQueue.Ok (q : EventQueue) (recorded delivered : List CallEvent) : Prop where
  recorded : ∀ e ∈ q.pending, e ∈ recorded
  within : ∀ k arrived, q.inFlight = some (k, arrived) → k ≤ q.pending.length
  arrived : ∀ k, q.inFlight = some (k, true) → ∀ e ∈ q.pending.take k, e ∈ delivered

/-- An event that was recorded has been delivered, or it is pending. -/
structure Conveyed (s : Pushes ν) : Prop where
  kept : ∀ e ∈ s.recorded, e ∈ s.delivered.flatten ∨ ∃ n, e ∈ (s.queues n).pending
  ofDelivered : ∀ e ∈ s.delivered.flatten, e ∈ s.recorded
  queues : ∀ n, (s.queues n).Ok s.recorded s.delivered.flatten

/-- A node's queue changes, and there may be more events and batches. -/
lemma Conveyed.change {s t : Pushes ν} {n : ν} {q : EventQueue} (h : Conveyed s)
    (hqueues : t.queues = Function.update s.queues n q)
    (hrecorded : ∀ e ∈ s.recorded, e ∈ t.recorded)
    (hdelivered : ∀ e ∈ s.delivered.flatten, e ∈ t.delivered.flatten)
    (hnew : ∀ e ∈ t.recorded, e ∈ s.recorded ∨ e ∈ q.pending)
    (hfrom : ∀ e ∈ t.delivered.flatten, e ∈ t.recorded)
    (hleft : ∀ e ∈ (s.queues n).pending, e ∈ q.pending ∨ e ∈ t.delivered.flatten)
    (hq : q.Ok t.recorded t.delivered.flatten) : Conveyed t where
  kept e he := by
    have hself : e ∈ q.pending → ∃ m, e ∈ (t.queues m).pending := fun hmem =>
      ⟨n, by rwa [hqueues, Function.update_self]⟩
    rcases hnew e he with he | he
    · rcases h.kept e he with he | ⟨m, hm⟩
      · exact .inl (hdelivered e he)
      · rcases eq_or_ne m n with rfl | hne
        · exact (hleft e hm).elim (fun hmem => .inr (hself hmem)) .inl
        · exact .inr ⟨m, by rwa [hqueues, Function.update_of_ne hne]⟩
    · exact .inr (hself he)
  ofDelivered := hfrom
  queues m := by
    rw [hqueues]
    rcases eq_or_ne m n with rfl | hne
    · rwa [Function.update_self]
    · rw [Function.update_of_ne hne]
      exact ⟨fun e he => hrecorded e ((h.queues m).recorded e he), (h.queues m).within,
        fun k hk e he => hdelivered e ((h.queues m).arrived k hk e he)⟩

/-- Every step keeps the events. -/
lemma conveyed_kept : (pushSystem ν).Invariant System.always Conveyed where
  init := by
    rintro s rfl
    exact ⟨nofun, nofun, fun _ => ⟨nofun, fun _ _ h => (nomatch h), fun _ h => (nomatch h)⟩⟩
  step := by
    intro s a t h _ hstep
    cases a with
    | record n e =>
      obtain rfl := Option.some.inj hstep
      have hq := h.queues n
      refine h.change rfl (fun e he => List.mem_append_left _ he) (fun _ => id) (fun e he => ?_)
        (fun e he => List.mem_append_left _ (h.ofDelivered e he))
        (fun e he => .inl (List.mem_append_left _ he)) ⟨fun e he => ?_, fun k b hk => ?_, fun k hk => ?_⟩
      · exact (List.mem_append.1 he).imp_right fun he => List.mem_append_right _ he
      · exact (List.mem_append.1 he).elim (fun he => List.mem_append_left _ (hq.recorded e he))
          fun he => List.mem_append_right _ he
      · rw [List.length_append]
        exact (hq.within k b hk).trans (Nat.le_add_right ..)
      · rw [List.take_append_of_le_length (hq.within k true hk)]
        exact hq.arrived k hk
    | push n =>
      simp only [pushSystem] at hstep
      cases hflight : (s.queues n).inFlight with
      | some _ => simp [hflight] at hstep
      | none =>
        simp only [hflight] at hstep
        obtain rfl := Option.some.inj hstep
        refine h.change rfl (fun _ => id) (fun _ => id) (fun _ => .inl) h.ofDelivered (fun _ => .inl)
          ⟨(h.queues n).recorded, fun k b hk => ?_, fun k hk => (nomatch hk)⟩
        exact (congrArg Prod.fst (Option.some.inj hk)).ge
    | arrive n =>
      simp only [pushSystem] at hstep
      have hq := h.queues n
      split at hstep
      · rename_i k hflight
        obtain rfl := Option.some.inj hstep
        have hdelivered : ∀ e, e ∈ (s.delivered ++ [(s.queues n).pending.take k]).flatten ↔
            e ∈ s.delivered.flatten ∨ e ∈ (s.queues n).pending.take k := by simp
        refine h.change rfl (fun _ => id) (fun e he => (hdelivered e).2 (.inl he)) (fun _ => .inl)
          (fun e he => ?_) (fun _ => .inl) ⟨hq.recorded, fun k' b hk => ?_, fun k' hk e he => ?_⟩
        · exact ((hdelivered e).1 he).elim (h.ofDelivered e)
            fun he => hq.recorded e (List.mem_of_mem_take he)
        · obtain rfl : k = k' := congrArg Prod.fst (Option.some.inj hk)
          exact hq.within k false hflight
        · obtain rfl : k = k' := congrArg Prod.fst (Option.some.inj hk)
          exact (hdelivered e).2 (.inr he)
      · cases hstep
    | answer n =>
      simp only [pushSystem] at hstep
      have hq := h.queues n
      split at hstep
      · rename_i k hflight
        obtain rfl := Option.some.inj hstep
        refine h.change rfl (fun _ => id) (fun _ => id) (fun _ => .inl) h.ofDelivered (fun e he => ?_)
          ⟨fun e he => hq.recorded e (List.mem_of_mem_drop he), fun _ _ hk => (nomatch hk),
            fun _ hk => (nomatch hk)⟩
        rw [← List.take_append_drop k (s.queues n).pending] at he
        exact (List.mem_append.1 he).symm.imp_right (hq.arrived k hflight e)
      · cases hstep
    | fail n =>
      simp only [pushSystem] at hstep
      split at hstep
      · obtain rfl := Option.some.inj hstep
        exact h.change rfl (fun _ => id) (fun _ => id) (fun _ => .inl) h.ofDelivered (fun _ => .inl)
          ⟨(h.queues n).recorded, fun _ _ hk => (nomatch hk), fun _ hk => (nomatch hk)⟩
      · cases hstep
    | late batch =>
      simp only [pushSystem] at hstep
      split at hstep
      · rename_i hbatch
        obtain rfl := Option.some.inj hstep
        have hmem : ∀ e, e ∈ (s.delivered ++ [batch]).flatten ↔
            e ∈ s.delivered.flatten ∨ e ∈ batch := by simp
        exact ⟨fun e he => (h.kept e he).imp_left fun he => (hmem e).2 (.inl he),
          fun e he => ((hmem e).1 he).elim (h.ofDelivered e) (hbatch e),
          fun n => ⟨(h.queues n).recorded, (h.queues n).within,
            fun k hk e he => (hmem e).2 (.inl ((h.queues n).arrived k hk e he))⟩⟩
      · cases hstep

/-- **Once no event is pending, the head's table is the one of all the events that were recorded,
however often they were pushed.** -/
theorem pushed_all {s : Pushes ν} (hreach : (pushSystem ν).Reachable System.always s)
    (hone : OneEach s.recorded) (hdone : ∀ n, (s.queues n).pending = []) (store : Store) :
    (store.addBatches s.delivered).callEvents.Perm
      (store.addBatches [s.recorded]).callEvents := by
  have h := conveyed_kept.reachable hreach
  refine perm_addBatches (hone.mono h.ofDelivered) fun e => ⟨fun he => ?_, fun he => ?_⟩
  · simpa using h.ofDelivered e he
  · refine (h.kept e (by simpa using he)).resolve_right ?_
    rintro ⟨n, hn⟩
    rw [hdone n] at hn
    cases hn

/-- A push fails when it has arrived; the next has its event again, and it arrives again too. -/
theorem pushed_all_again : ∃ s : Pushes Unit,
    s.delivered = [[firstStart], [firstStart, firstStop], [firstStart]] ∧
      (Store.empty.addBatches s.delivered).callEvents.Perm
        (Store.empty.addBatches [s.recorded]).callEvents := by
  have hexec : (pushSystem Unit).exec ⟨[], fun _ => ⟨[], none⟩, []⟩ [.record () firstStart, .push (),
      .arrive (), .fail (), .record () firstStop, .push (), .arrive (), .answer (),
      .late [firstStart]] = some _ := rfl
  have hreach := System.Reachable.exec ⟨_, [], rfl, .nil⟩ hexec
  exact ⟨_, rfl, pushed_all hreach (by decide) (fun _ => rfl) Store.empty⟩

end Burla.History
