/-
What a queue keeps of its items.

* `step_change`: a step leaves the items alone, adds one at the end, or takes one at either end, and
  the count of bytes goes with it; calls of `get` that wait, are woken or are cancelled add nothing.
* `keeps_books`: in every reachable state the count is the size of what is queued, every item that
  has been put is queued or has been taken, once, those taken at the front have come out in the
  order in which they were put, and the one taken at the end is the newest.
* `represents_getLastNowait`: the queue that a donor's inputs are popped from is this one.
-/
import Burla.Queue.Sized
import Burla.Steal.SizedQueue
import Mathlib.Algebra.BigOperators.Group.List.Basic
import Mathlib.Algebra.Order.Group.Unbundled.Int

namespace Burla.Queue

open TwoEnded (End)

/-! ### Operations -/

namespace SizedQueue

variable {α : Type*} {q q' : SizedQueue α} {item : α} {sizeBytes future : ℕ}

/-- A queue with the same items. -/
structure SameItems (q q' : SizedQueue α) : Prop where
  queue : q'.queue = q.queue
  sizeBytes : q'.sizeBytes = q.sizeBytes

lemma sameItems_cancelFuture (future : ℕ) (q : SizedQueue α) :
    q.SameItems (q.cancelFuture future) := by
  rw [cancelFuture]
  split_ifs
  · exact ⟨rfl, rfl⟩
  · exact ⟨rfl, rfl⟩

lemma sameItems_giveUp (future : ℕ) (q : SizedQueue α) : q.SameItems (q.giveUp future) := by
  obtain ⟨hqueue, hsizeBytes⟩ := sameItems_cancelFuture future q
  rw [giveUp]
  split_ifs
  · exact ⟨hqueue, hsizeBytes⟩
  · exact ⟨hqueue, hsizeBytes⟩

lemma putNowait_eq_some (h : q.putNowait item sizeBytes = some q') :
    q'.queue = q.queue ++ [(item, sizeBytes)] ∧ q'.sizeBytes = q.sizeBytes + sizeBytes := by
  rw [putNowait] at h
  split_ifs at h
  obtain rfl := Option.some.inj h
  exact ⟨rfl, rfl⟩

lemma getNowait_eq_some (h : q.getNowait = some (item, q')) :
    ∃ sizeBytes, q.queue = (item, sizeBytes) :: q'.queue ∧
      q'.sizeBytes = q.sizeBytes - (sizeBytes : ℕ) := by
  rw [getNowait] at h
  split_ifs at h
  obtain ⟨⟨item', q''⟩, hget, hr⟩ := Option.map_eq_some_iff.1 h
  obtain ⟨rfl, rfl⟩ := Prod.mk.inj hr
  rw [getItem] at hget
  split at hget
  · cases hget
  · rename_i item'' sizeBytes rest hqueue
    obtain ⟨rfl, rfl⟩ := Prod.mk.inj (Option.some.inj hget)
    exact ⟨sizeBytes, hqueue, rfl⟩

lemma getLastNowait_eq_some (h : q.getLastNowait = some (item, q')) :
    ∃ sizeBytes, q.queue = q'.queue ++ [(item, sizeBytes)] ∧
      q'.sizeBytes = q.sizeBytes - (sizeBytes : ℕ) ∧ q'.maxsize = q.maxsize := by
  rw [getLastNowait] at h
  split_ifs at h
  obtain ⟨⟨item', q''⟩, hget, hr⟩ := Option.map_eq_some_iff.1 h
  obtain ⟨rfl, rfl⟩ := Prod.mk.inj hr
  rw [getLast] at hget
  split at hget
  · cases hget
  · rename_i item'' sizeBytes hlast
    obtain ⟨rfl, rfl⟩ := Prod.mk.inj (Option.some.inj hget)
    exact ⟨sizeBytes, (List.dropLast_append_getLast? _ hlast).symm, rfl, rfl⟩

/-- `get_last_nowait` fails on an empty queue only. -/
lemma getLastNowait_eq_none (h : q.getLastNowait = none) : q.queue = [] := by
  rw [getLastNowait] at h
  split_ifs at h with hempty
  · exact List.isEmpty_iff.1 hempty
  · rw [Option.map_eq_none_iff, getLast] at h
    split at h
    · rename_i hlast
      exact List.getLast?_eq_none_iff.1 hlast
    · cases h

/-- `get` waits with the items as they are, -/
lemma get_eq_waits (h : q.get = some (.waits future, q')) : q.SameItems q' := by
  rw [get] at h
  split_ifs at h
  · obtain ⟨-, rfl⟩ := Prod.mk.inj (Option.some.inj h)
    exact ⟨rfl, rfl⟩
  · obtain ⟨r, -, hr⟩ := Option.map_eq_some_iff.1 h
    cases (Prod.mk.inj hr).1

/-- or takes one, -/
lemma get_eq_item (h : q.get = some (.item item, q')) : q.getNowait = some (item, q') := by
  rw [get] at h
  split_ifs at h
  · cases (Prod.mk.inj (Option.some.inj h)).1
  · obtain ⟨r, hget, hr⟩ := Option.map_eq_some_iff.1 h
    obtain ⟨hitem, rfl⟩ := Prod.mk.inj hr
    obtain rfl := Got.item.inj hitem
    exact hget

/-- and never finds a queue empty that it has found to have items. -/
lemma get_ne_none (q : SizedQueue α) : q.get ≠ none := by
  rw [get, getNowait, getItem, empty]
  cases q.queue with
  | nil => exact Option.some_ne_none _
  | cons e rest => exact Option.some_ne_none _

end SizedQueue

/-! ### Steps -/

namespace Traffic

variable {α : Type*} {t t' : Traffic α} {a : Step α}

/-- What a step can do to the items. -/
inductive Change (t t' : Traffic α) : Prop
  | stay (hitems : t.queue.SameItems t'.queue) (hhistory : t'.history = t.history)
      (htaken : t'.taken = t.taken)
  | put (item : α) (sizeBytes : ℕ)
      (hqueue : t'.queue.queue = t.queue.queue ++ [((t.history.length, item), sizeBytes)])
      (hsizeBytes : t'.queue.sizeBytes = t.queue.sizeBytes + sizeBytes)
      (hhistory : t'.history = t.history ++ [(item, sizeBytes)]) (htaken : t'.taken = t.taken)
  | first (item : ℕ × α) (sizeBytes : ℕ)
      (hqueue : t.queue.queue = (item, sizeBytes) :: t'.queue.queue)
      (hsizeBytes : t'.queue.sizeBytes = t.queue.sizeBytes - sizeBytes)
      (hhistory : t'.history = t.history) (htaken : t'.taken = t.taken ++ [(.first, item)])
  | last (item : ℕ × α) (sizeBytes : ℕ)
      (hqueue : t.queue.queue = t'.queue.queue ++ [(item, sizeBytes)])
      (hsizeBytes : t'.queue.sizeBytes = t.queue.sizeBytes - sizeBytes)
      (hhistory : t'.history = t.history) (htaken : t'.taken = t.taken ++ [(.last, item)])

lemma change_putBy (t : Traffic α) (item : α) (sizeBytes : ℕ) :
    t.Change (t.putBy item sizeBytes (t.queue.putNowait (t.history.length, item) sizeBytes)) := by
  cases hput : t.queue.putNowait (t.history.length, item) sizeBytes with
  | none => exact .stay ⟨rfl, rfl⟩ rfl rfl
  | some q =>
    obtain ⟨hqueue, hsizeBytes⟩ := SizedQueue.putNowait_eq_some hput
    exact .put item sizeBytes hqueue hsizeBytes rfl rfl

lemma change_getBy (t : Traffic α) (call : ℕ) : t.Change (t.getBy call) := by
  rw [getBy]
  split
  · exact .stay ⟨rfl, rfl⟩ rfl rfl
  · rename_i hget
    exact .stay (SizedQueue.get_eq_waits hget) rfl rfl
  · rename_i item q hget
    obtain ⟨sizeBytes, hqueue, hsizeBytes⟩ :=
      SizedQueue.getNowait_eq_some (SizedQueue.get_eq_item hget)
    exact .first item sizeBytes hqueue hsizeBytes rfl rfl

/-- A step that gives up a call, or cancels one. -/
lemma change_of_sameItems {q : SizedQueue (ℕ × α)} {calls : List Call}
    (hitems : t.queue.SameItems q) : t.Change { t with queue := q, calls := calls } :=
  .stay hitems rfl rfl

/-- **One step.** -/
lemma step_change (hstep : t.step a = some t') : t.Change t' := by
  cases a with
  | put item sizeBytes | putNowait item sizeBytes =>
    obtain rfl := Option.some.inj hstep
    exact change_putBy t item sizeBytes
  | get =>
    obtain rfl := Option.some.inj hstep
    cases change_getBy { t with calls := t.calls ++ [.ended] } t.calls.length with
    | stay hitems hhistory htaken => exact .stay hitems hhistory htaken
    | put item sizeBytes hqueue hsizeBytes hhistory htaken =>
      exact .put item sizeBytes hqueue hsizeBytes hhistory htaken
    | first item sizeBytes hqueue hsizeBytes hhistory htaken =>
      exact .first item sizeBytes hqueue hsizeBytes hhistory htaken
    | last item sizeBytes hqueue hsizeBytes hhistory htaken =>
      exact .last item sizeBytes hqueue hsizeBytes hhistory htaken
  | resume call =>
    rw [step] at hstep
    split at hstep
    · rename_i future mustCancel hcall
      split at hstep
      · split_ifs at hstep
        · obtain rfl := Option.some.inj hstep
          exact change_of_sameItems (t.queue.sameItems_giveUp future)
        · obtain rfl := Option.some.inj hstep
          exact change_getBy t call
      · obtain rfl := Option.some.inj hstep
        exact change_of_sameItems (t.queue.sameItems_giveUp future)
      · cases hstep
    · cases hstep
  | cancel call =>
    rw [step] at hstep
    split at hstep
    · rename_i future mustCancel hcall
      split_ifs at hstep
      · obtain rfl := Option.some.inj hstep
        exact change_of_sameItems (t.queue.sameItems_cancelFuture future)
      · obtain rfl := Option.some.inj hstep
        exact change_of_sameItems ⟨rfl, rfl⟩
    · cases hstep
  | getNowait =>
    obtain rfl := Option.some.inj hstep
    cases hget : t.queue.getNowait with
    | none => exact .stay ⟨rfl, rfl⟩ rfl rfl
    | some r =>
      obtain ⟨sizeBytes, hqueue, hsizeBytes⟩ := SizedQueue.getNowait_eq_some hget
      exact .first r.1 sizeBytes hqueue hsizeBytes rfl rfl
  | getLastNowait =>
    obtain rfl := Option.some.inj hstep
    cases hget : t.queue.getLastNowait with
    | none => exact .stay ⟨rfl, rfl⟩ rfl rfl
    | some r =>
      obtain ⟨sizeBytes, hqueue, hsizeBytes, -⟩ := SizedQueue.getLastNowait_eq_some hget
      exact .last r.1 sizeBytes hqueue hsizeBytes rfl rfl

/-! ### Books -/

/-- The numbers of the items: how many have been put, which are queued, and which were taken. -/
def line (t : Traffic α) : TwoEnded.Line where
  arrived := t.history.length
  waiting := t.queue.queue.map fun e => e.1.1
  left := t.taken.map fun e => (e.1, e.2.1)

/-- A queue whose books are in order. -/
structure Books (t : Traffic α) : Prop where
  /-- The count of bytes is the size of what is queued. -/
  sizeBytes : t.queue.sizeBytes = ((t.queue.queue.map Prod.snd).sum : ℕ)
  /-- Every item is queued or has been taken, once, and those taken at the front were taken in the
  order in which they were put. -/
  orderly : TwoEnded.Orderly t.line
  /-- What is queued is what has been put, -/
  queued : ∀ e ∈ t.queue.queue, t.history[e.1.1]? = some (e.1.2, e.2)
  /-- and so is what was taken. -/
  taken : ∀ e ∈ t.taken, (t.history[e.2.1]?).map Prod.fst = some e.2.2

/-- A change of the items is a move of their line. -/
lemma Change.moves (h : t.Change t') : TwoEnded.Moves t.line t'.line := by
  obtain ⟨⟨hqueue, -⟩, hhistory, htaken⟩ | ⟨item, sizeBytes, hqueue, -, hhistory, htaken⟩ |
    ⟨item, sizeBytes, hqueue, -, hhistory, htaken⟩ |
    ⟨item, sizeBytes, hqueue, -, hhistory, htaken⟩ := h
  · rw [line, line, hqueue, hhistory, htaken]
    exact .stay _
  · rw [line, line, hqueue, hhistory, htaken, List.map_append, List.length_append]
    exact .arrive _ _ _
  · rw [line, line, hqueue, hhistory, htaken, List.map_append]
    exact .first _ _ _ _
  · rw [line, line, hqueue, hhistory, htaken, List.map_append, List.map_append]
    exact .last _ _ _ _

/-- What has been recorded stays so. -/
lemma getElem?_concat_of_eq_some {β : Type*} {l : List β} {n : ℕ} {b c : β} (h : l[n]? = some b) :
    (l ++ [c])[n]? = some b := by
  rw [List.getElem?_append_left (List.getElem?_eq_some_iff.1 h).1, h]

lemma Books.change (hbooks : t.Books) (h : t.Change t') : t'.Books := by
  have horderly := hbooks.orderly.moves h.moves
  have hcount := hbooks.sizeBytes
  obtain ⟨⟨hqueue, hsizeBytes⟩, hhistory, htaken⟩ |
    ⟨item, sizeBytes, hqueue, hsizeBytes, hhistory, htaken⟩ |
    ⟨item, sizeBytes, hqueue, hsizeBytes, hhistory, htaken⟩ |
    ⟨item, sizeBytes, hqueue, hsizeBytes, hhistory, htaken⟩ := h
  · refine ⟨?_, horderly, ?_, ?_⟩
    · rw [hsizeBytes, hqueue, hcount]
    · rw [hqueue, hhistory]
      exact hbooks.queued
    · rw [htaken, hhistory]
      exact hbooks.taken
  · refine ⟨?_, horderly, ?_, ?_⟩
    · rw [hsizeBytes, hqueue, hcount, List.map_append, List.sum_append]
      simp
    · intro e he
      rw [hqueue] at he
      rw [hhistory]
      rcases List.mem_append.1 he with he | he
      · exact getElem?_concat_of_eq_some (hbooks.queued e he)
      · obtain rfl := List.mem_singleton.1 he
        exact List.getElem?_concat_length
    · intro e he
      rw [htaken] at he
      obtain ⟨r, hr, hitem⟩ := Option.map_eq_some_iff.1 (hbooks.taken e he)
      rw [hhistory, getElem?_concat_of_eq_some hr, ← hitem]
      rfl
  · have hfirst := hbooks.queued (item, sizeBytes) (by rw [hqueue]; exact List.mem_cons_self)
    refine ⟨?_, horderly, ?_, ?_⟩
    · rw [hsizeBytes, hcount, hqueue, List.map_cons, List.sum_cons]
      omega
    · intro e he
      rw [hhistory]
      exact hbooks.queued e (by rw [hqueue]; exact List.mem_cons_of_mem _ he)
    · intro e he
      rw [hhistory]
      rw [htaken] at he
      rcases List.mem_append.1 he with he | he
      · exact hbooks.taken e he
      · obtain rfl := List.mem_singleton.1 he
        rw [hfirst]
        rfl
  · have hlast := hbooks.queued (item, sizeBytes) (by rw [hqueue]; simp)
    refine ⟨?_, horderly, ?_, ?_⟩
    · rw [hsizeBytes, hcount, hqueue, List.map_append, List.sum_append]
      simp
    · intro e he
      rw [hhistory]
      exact hbooks.queued e (by rw [hqueue]; exact List.mem_append_left _ he)
    · intro e he
      rw [hhistory]
      rw [htaken] at he
      rcases List.mem_append.1 he with he | he
      · exact hbooks.taken e he
      · obtain rfl := List.mem_singleton.1 he
        rw [hlast]
        rfl

/-- The books of a queue that has just been made. -/
lemma books_new (maxsize : ℤ) : (new maxsize : Traffic α).Books where
  sizeBytes := rfl
  orderly := TwoEnded.orderly_new
  queued _ he := absurd he List.not_mem_nil
  taken _ he := absurd he List.not_mem_nil

lemma books_invariant : (service (α := α)).Invariant System.always Books where
  init _ hinit := by
    obtain ⟨maxsize, rfl⟩ := hinit
    exact books_new maxsize
  step _ _ _ hbooks _ hstep := hbooks.change (step_change hstep)

/-- `get_last_nowait` takes the last item of the queue, and fails when there is none. -/
lemma step_getLastNowait (hstep : t.step .getLastNowait = some t') :
    (t.queue.queue = [] ∧ t' = t) ∨ ∃ item sizeBytes,
      t.queue.queue = t'.queue.queue ++ [(item, sizeBytes)] ∧
        t'.taken = t.taken ++ [(.last, item)] := by
  obtain rfl := Option.some.inj hstep
  cases hget : t.queue.getLastNowait with
  | none => exact .inl ⟨SizedQueue.getLastNowait_eq_none hget, rfl⟩
  | some r =>
    obtain ⟨sizeBytes, hqueue, -⟩ := SizedQueue.getLastNowait_eq_some hget
    exact .inr ⟨r.1, sizeBytes, hqueue, rfl⟩

/-- **A queue keeps its books**: in every reachable state they are in order, so that the count of
bytes is not negative, and `get_last_nowait` takes the newest of the queued items, if there is
one. -/
theorem keeps_books (hreachable : service.Reachable System.always t) :
    t.Books ∧ 0 ≤ t.queue.sizeBytes ∧ ∀ t', t.step .getLastNowait = some t' →
      (t.queue.queue = [] ∧ t' = t) ∨ ∃ item sizeBytes,
        t.queue.queue = t'.queue.queue ++ [(item, sizeBytes)] ∧
          t'.taken = t.taken ++ [(.last, item)] ∧ ∀ e ∈ t.queue.queue, e.1.1 ≤ item.1 := by
  have hbooks := books_invariant.reachable hreachable
  refine ⟨hbooks, ?_, fun t' hstep => ?_⟩
  · rw [hbooks.sizeBytes]
    exact Int.natCast_nonneg _
  · obtain hnone | ⟨item, sizeBytes, hqueue, htaken⟩ := step_getLastNowait hstep
    · exact .inl hnone
    · have hline : t.line.waiting = (t'.queue.queue.map fun e => e.1.1) ++ [item.1] := by
        rw [line, hqueue, List.map_append]
        rfl
      exact .inr ⟨item, sizeBytes, hqueue, htaken, fun e he =>
        hbooks.orderly.le_getLast hline _ (List.mem_map_of_mem he)⟩

/-- Two calls wait; the first is woken and cancelled, so that the second gets the item, and of two
more items the newest is taken at the end. -/
def mixed : List (Step Char) :=
  [.get, .get, .put 'a' 3, .cancel 0, .resume 0, .resume 1, .put 'b' 5, .putNowait 'c' 7,
    .getLastNowait]

/-- The books of such a queue. -/
theorem keeps_books_mixed : ∃ t : Traffic Char, service.Reachable System.always t ∧
    t.queue.queue = [((1, 'b'), 5)] ∧
    t.taken = [(.first, (0, 'a')), (.last, (2, 'c'))] ∧ t.calls = [.ended, .ended] ∧
    t.Books ∧ 0 ≤ t.queue.sizeBytes := by
  have hrun : service.Run System.always (new 0) mixed
      (((service.guarded System.always).exec (new 0) mixed).get (by decide +kernel)) :=
    System.run_of_exec_guarded (Option.some_get _).symm
  have hreachable := keeps_books ⟨_, _, ⟨0, rfl⟩, hrun⟩
  exact ⟨_, ⟨_, _, ⟨0, rfl⟩, hrun⟩, by decide +kernel, by decide +kernel, by decide +kernel,
    hreachable.1, hreachable.2.1⟩

end Traffic

/-! ### The inputs of a donor -/

section Inputs

open Steal (Input)

variable {q : SizedQueue Input} {s : Steal.SizedQueue}

/-- A queue without a bound is the one that a donor's inputs are popped from. -/
structure Represents (q : SizedQueue Input) (s : Steal.SizedQueue) : Prop where
  unbounded : q.maxsize ≤ 0
  entries : s.entries = q.queue
  sizeBytes : q.sizeBytes = s.sizeBytes

lemma represents_putNowait (h : Represents q s) (item : Input) (sizeBytes : ℕ) :
    ∃ q', q.putNowait item sizeBytes = some q' ∧ Represents q' (s.putNowait item sizeBytes) := by
  have hfull : q.full = false := if_pos h.unbounded
  refine ⟨(q.putItem item sizeBytes).wakeGetters, ?_, h.unbounded, ?_, ?_⟩
  · rw [SizedQueue.putNowait, hfull, if_neg Bool.false_ne_true]
  · show s.entries ++ [(item, sizeBytes)] = q.queue ++ [(item, sizeBytes)]
    rw [h.entries]
  · show q.sizeBytes + (sizeBytes : ℤ) = ((s.sizeBytes + sizeBytes : ℕ) : ℤ)
    rw [h.sizeBytes, Int.natCast_add]

lemma entries_of_getLastNowait {item : Input} {s' : Steal.SizedQueue}
    (h : s.getLastNowait = some (item, s')) :
    ∃ sizeBytes, s.entries = s'.entries ++ [(item, sizeBytes)] := by
  rw [Steal.SizedQueue.getLastNowait] at h
  split at h
  · cases h
  · rename_i e hlast
    obtain ⟨rfl, rfl⟩ := Prod.mk.inj (Option.some.inj h)
    exact ⟨e.2, (List.dropLast_append_getLast? e hlast).symm⟩

/-- Both give the same input, or none. -/
lemma represents_getLastNowait (h : Represents q s) :
    (q.getLastNowait = none ∧ s.getLastNowait = none) ∨
      ∃ item q' s', q.getLastNowait = some (item, q') ∧ s.getLastNowait = some (item, s') ∧
        Represents q' s' := by
  cases hs : s.getLastNowait with
  | none =>
    have hnil : q.queue = [] := by
      rw [← h.entries]
      exact List.map_eq_nil_iff.1 (Steal.SizedQueue.items_of_getLastNowait_none hs)
    refine .inl ⟨?_, rfl⟩
    rw [SizedQueue.getLastNowait, SizedQueue.empty, hnil]
    rfl
  | some r =>
    obtain ⟨item, s'⟩ := r
    obtain ⟨sizeBytes, hentries⟩ := entries_of_getLastNowait hs
    have hcount : s.sizeBytes = s'.sizeBytes + sizeBytes := by
      rw [s.counted, hentries, Steal.totalSize_append, ← s'.counted]
      rfl
    cases hq : q.getLastNowait with
    | none =>
      rw [h.entries, SizedQueue.getLastNowait_eq_none hq] at hentries
      exact absurd hentries.symm (List.append_ne_nil_of_right_ne_nil _ (List.cons_ne_nil _ _))
    | some r =>
      obtain ⟨item', q'⟩ := r
      obtain ⟨sizeBytes', hqueue, hsizeBytes, hmaxsize⟩ := SizedQueue.getLastNowait_eq_some hq
      rw [h.entries, hqueue] at hentries
      obtain ⟨hrest, hlast⟩ := List.append_inj' hentries rfl
      obtain ⟨rfl, rfl⟩ := Prod.mk.inj (List.singleton_inj.1 hlast)
      refine .inr ⟨_, q', s', rfl, rfl, ?_, hrest.symm, ?_⟩
      · rw [hmaxsize]
        exact h.unbounded
      · rw [hsizeBytes, h.sizeBytes, hcount]
        omega

end Inputs

end Burla.Queue
