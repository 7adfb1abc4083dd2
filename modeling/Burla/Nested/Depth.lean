/-
The places of nested calls in their caller's order (`_nested_call_context` and
`_mark_nested_call_returned` in _remote_parallel_map.py).

A function that runs on a worker may itself make calls, from any of its threads.  Every call gets
an index and a depth when it starts, under one lock; when it has returned, or raised, its index is
put down as returned, under the same lock.

The main result is

* `Burla.Nested.right_iff_staged`: the indices are distinct, the depth is the length of the longest
  chain of calls that returned one before the other, and it grows along such chains, in every run;
  overlapping calls have one depth in exactly the runs in which a call only starts when each call
  that has returned had returned before each call that is still going on.
-/
import Burla.Lib.Chains
import Burla.Lib.Dict
import Burla.Lib.System

namespace Burla.Nested

/-! ### The bookkeeping -/

/-- What is kept of one invocation of a function. -/
structure NestedRun where
  nextIndex : ℕ
  depths : Dict ℕ ℕ
  returned : List ℕ

/-- What a call reports about where it was made. -/
structure Context where
  parentJobId : Option String
  parentRunId : Option String
  parentCallIndex : ℕ
  parentCallDepth : ℕ
  deriving DecidableEq, Repr

/-- `_NESTED_RUNS` -/
abbrev NestedRuns := Dict (Option String) NestedRun

namespace NestedRun

def new : NestedRun := { nextIndex := 0, depths := .empty, returned := [] }

variable (run : NestedRun)

def returnedDepths : List ℕ := run.returned.filterMap run.depths.get

def depth : ℕ :=
  match run.returnedDepths.max? with
  | some deepest => deepest + 1
  | none => 0

/-- A call is given the next index. -/
def start : NestedRun where
  nextIndex := run.nextIndex + 1
  depths := run.depths.set run.nextIndex run.depth
  returned := run.returned

def markReturned (i : ℕ) : NestedRun := { run with returned := run.returned.insert i }

end NestedRun

/-- The invocation's bookkeeping, which its first call sets up (`setdefault`). -/
def runOf (runs : NestedRuns) (runId : Option String) : NestedRun :=
  (runs.get runId).getD .new

/-- `_nested_call_context`: what `BURLA_IN_WORKER` and `BURLA_PARENT_RUN_ID` say, and what reading
the job's id from the credentials gives or raises.  The context of a call outside a worker is
empty. -/
def nestedCallContext (runs : NestedRuns) (inWorker : Bool) (runId : Option String)
    (credentials : Except String (Option String)) : NestedRuns × Except String (Option Context) :=
  if inWorker then
    let run := runOf runs runId
    (runs.set runId run.start, credentials.map fun jobId =>
      some { parentJobId := jobId, parentRunId := runId, parentCallIndex := run.nextIndex,
             parentCallDepth := run.depth })
  else (runs, .ok none)

/-- `_mark_nested_call_returned` -/
def markNestedCallReturned (runs : NestedRuns) : Option Context → NestedRuns
  | none => runs
  | some context =>
    match runs.get context.parentRunId with
    | none => runs
    | some run => runs.set context.parentRunId (run.markReturned context.parentCallIndex)

/-! ### The caller's process -/

/-- A call that has been made: its context, and whether its generator has come to its end, which is
when the call has returned or raised. -/
structure Call where
  context : Option Context
  hasReturned : Bool

structure Process where
  nestedRuns : NestedRuns
  calls : List Call

inductive Event
  /-- Some thread calls `remote_parallel_map`. -/
  | call (inWorker : Bool) (runId : Option String) (credentials : Except String (Option String))
  /-- The call returns or raises. -/
  | ret (k : ℕ)

def step (p : Process) : Event → Option Process
  | .call inWorker runId credentials =>
    let r := nestedCallContext p.nestedRuns inWorker runId credentials
    match r.2 with
    | .error _ => some { p with nestedRuns := r.1 }
    | .ok context =>
      some { nestedRuns := r.1, calls := p.calls ++ [{ context, hasReturned := false }] }
  | .ret k =>
    match p.calls[k]? with
    | some { context, hasReturned := false } =>
      some { nestedRuns := markNestedCallReturned p.nestedRuns context,
             calls := p.calls.set k { context, hasReturned := true } }
    | _ => none

def sys : System Process Event where
  init p := p = { nestedRuns := .empty, calls := [] }
  step := step

/-- What happens to the calls, in the order in which it does. -/
inductive Moment
  | started (k : ℕ)
  | returned (k : ℕ)
  deriving DecidableEq

def note (p : Process) (e : Event) (q : Process) : List Moment :=
  match e with
  | .call _ _ _ => if p.calls.length < q.calls.length then [.started p.calls.length] else []
  | .ret k => [.returned k]

/-! ### What the positions are meant to say -/

/-- A process with all that has happened in it. -/
abbrev Trace := Process × List Moment

/-- The `k`-th call was made in an invocation, with this context. -/
def MadeIn (p : Process) (runId : Option String) (k : ℕ) (c : Context) : Prop :=
  ∃ hasReturned, p.calls[k]? = some { context := some c, hasReturned } ∧ c.parentRunId = runId

/-- Of two calls of one invocation, the first had returned when the second started. -/
def ReturnedBefore (x : Trace) (runId : Option String) (a b : ℕ) : Prop :=
  (∃ c, MadeIn x.1 runId a c) ∧ (∃ c, MadeIn x.1 runId b c) ∧
    [Moment.returned a, Moment.started b].Sublist x.2

/-- The positions say what the caller's order is. -/
structure Right (x : Trace) : Prop where
  distinct : ∀ runId a b c d, MadeIn x.1 runId a c → MadeIn x.1 runId b d →
    c.parentCallIndex = d.parentCallIndex → a = b
  longest : ∀ runId a c, MadeIn x.1 runId a c →
    Chains.IsLongestTo (ReturnedBefore x runId) a c.parentCallDepth
  ordered : ∀ runId a b c d, MadeIn x.1 runId a c → MadeIn x.1 runId b d →
    ReturnedBefore x runId a b → c.parentCallDepth < d.parentCallDepth
  /-- Overlapping calls are not ordered. -/
  overlapping : ∀ runId a b c d, MadeIn x.1 runId a c → MadeIn x.1 runId b d → a ≠ b →
    ¬ReturnedBefore x runId a b → ¬ReturnedBefore x runId b a →
    c.parentCallDepth = d.parentCallDepth

/-- When a call starts, each call of the invocation that has returned had returned before each one
that is still going on had started. -/
def Staged (x : Trace) : Event → Prop
  | .call true runId (.ok _) =>
    ∀ a b c d, MadeIn x.1 runId a c → Moment.returned a ∈ x.2 →
      MadeIn x.1 runId b d → Moment.returned b ∉ x.2 → ReturnedBefore x runId a b
  | _ => True

/-! ### The bookkeeping's lookups -/

section Lookups

variable {runs : NestedRuns} {run : NestedRun} {runId r : Option String} {c : Context} {d : ℕ}

lemma runOf_set : runOf (runs.set runId run) r = if r = runId then run else runOf runs r := by
  unfold runOf
  rw [Dict.get_set]
  split_ifs <;> rfl

@[simp] lemma runOf_empty : runOf (.empty : NestedRuns) r = .new := rfl

lemma runOf_nestedCallContext {credentials : Except String (Option String)} :
    runOf (nestedCallContext runs true runId credentials).1 r =
      if r = runId then (runOf runs runId).start else runOf runs r := by
  simp only [nestedCallContext, if_true, runOf_set]

/-- An invocation in which a call has got its depth has been set up. -/
lemma runOf_markNestedCallReturned {i : ℕ}
    (h : (runOf runs c.parentRunId).depths.get i = some d) :
    runOf (markNestedCallReturned runs (some c)) r =
      if r = c.parentRunId then (runOf runs c.parentRunId).markReturned c.parentCallIndex
      else runOf runs r := by
  cases hrun : runs.get c.parentRunId with
  | none => simp [runOf, hrun, NestedRun.new] at h
  | some run =>
    simp only [markNestedCallReturned, hrun, runOf_set]
    simp [runOf, hrun]

/-- The depth is one past the deepest call that has returned. -/
lemma NestedRun.depth_cases (run : NestedRun) :
    (run.depth = 0 ∨ ∃ d ∈ run.returnedDepths, run.depth = d + 1) ∧
      ∀ d ∈ run.returnedDepths, d < run.depth := by
  unfold NestedRun.depth
  cases hmax : run.returnedDepths.max? with
  | none =>
    rw [List.max?_eq_none_iff] at hmax
    simp [hmax]
  | some m =>
    rw [List.max?_eq_some_iff] at hmax
    exact ⟨.inr ⟨m, hmax.1, rfl⟩, fun d hd => Nat.lt_succ_of_le (hmax.2 d hd)⟩

end Lookups

/-! ### One step -/

section Step

variable {p q : Process} {e : Event} {x y : Trace} {k : ℕ} {context : Option Context}

/-- What a step can do: a call that reading the credentials stops, a call with a context, and a
return. -/
lemma step_cases (h : (sys.logged note).step x e = some y) :
    (∃ runId error, e = .call true runId (.error error) ∧
      y = ({ x.1 with nestedRuns := (nestedCallContext x.1.nestedRuns true runId (.error error)).1 },
        x.2)) ∨
    (∃ inWorker runId credentials context, e = .call inWorker runId credentials ∧
      (nestedCallContext x.1.nestedRuns inWorker runId credentials).2 = .ok context ∧
      y = ({ nestedRuns := (nestedCallContext x.1.nestedRuns inWorker runId credentials).1,
             calls := x.1.calls ++ [{ context, hasReturned := false }] },
        x.2 ++ [.started x.1.calls.length])) ∨
    ∃ k context, e = .ret k ∧ x.1.calls[k]? = some { context, hasReturned := false } ∧
      y = ({ nestedRuns := markNestedCallReturned x.1.nestedRuns context,
             calls := x.1.calls.set k { context, hasReturned := true } },
        x.2 ++ [.returned k]) := by
  obtain ⟨hstep, hlog⟩ := System.logged_step_eq_some.1 h
  obtain ⟨q, log⟩ := y
  simp only at hstep hlog
  subst hlog
  cases e with
  | call inWorker runId credentials =>
    simp only [sys, step] at hstep
    split at hstep
    · rename_i error herror
      obtain rfl := Option.some.inj hstep
      refine .inl ⟨runId, error, ?_⟩
      cases inWorker with
      | false => simp [nestedCallContext] at herror
      | true =>
        cases credentials with
        | ok jobId => simp [nestedCallContext, Except.map] at herror
        | error e =>
          obtain rfl : e = error := by simpa [nestedCallContext, Except.map] using herror
          exact ⟨rfl, by simp [note]⟩
    · rename_i context hcontext
      obtain rfl := Option.some.inj hstep
      exact .inr (.inl ⟨inWorker, runId, credentials, context, rfl, hcontext, by simp [note]⟩)
  | ret k =>
    simp only [sys, step] at hstep
    split at hstep
    · rename_i context hk
      obtain rfl := Option.some.inj hstep
      exact .inr (.inr ⟨k, context, rfl, hk, rfl⟩)
    · cases hstep

/-- A pair in a list that has grown by one. -/
lemma pair_sublist_concat {α : Type*} {a b m : α} {l : List α} :
    [a, b].Sublist (l ++ [m]) ↔ [a, b].Sublist l ∨ (a ∈ l ∧ b = m) := by
  constructor
  · intro h
    obtain ⟨l₁, l₂, hl, h₁, h₂⟩ := List.sublist_append_iff.1 h
    rcases List.sublist_singleton.1 h₂ with rfl | rfl
    · rw [List.append_nil] at hl
      exact .inl (hl ▸ h₁)
    · obtain ⟨hl₁, hb⟩ : [a] = l₁ ∧ b = m := by
        obtain ⟨hl₁, hm⟩ := List.append_inj' (show [a] ++ [b] = l₁ ++ [m] from hl) rfl
        exact ⟨hl₁, List.singleton_injective hm⟩
      exact .inr ⟨List.singleton_sublist.1 (hl₁ ▸ h₁), hb⟩
  · rintro (h | ⟨ha, rfl⟩)
    · exact h.trans (List.sublist_append_left _ _)
    · exact (List.singleton_sublist.2 ha).append (List.Sublist.refl [b])

end Step

/-! ### What is kept -/

section Kept

variable {x y : Trace} {e : Event} {runId : Option String} {a b k : ℕ} {c d : Context}

/-- The log and the bookkeeping agree with the calls. -/
structure Kept (x : Trace) : Prop where
  started : ∀ k, Moment.started k ∈ x.2 → k < x.1.calls.length
  returned : ∀ k, Moment.returned k ∈ x.2 ↔
    ∃ context, x.1.calls[k]? = some { context, hasReturned := true }
  /-- A call's index and depth are on file. -/
  filed : ∀ runId a c, MadeIn x.1 runId a c →
    (runOf x.1.nestedRuns runId).depths.get c.parentCallIndex = some c.parentCallDepth ∧
      c.parentCallIndex < (runOf x.1.nestedRuns runId).nextIndex
  distinct : ∀ runId a b c d, MadeIn x.1 runId a c → MadeIn x.1 runId b d →
    c.parentCallIndex = d.parentCallIndex → a = b
  /-- The indices put down as returned are those of the calls that have returned. -/
  marked : ∀ runId i, i ∈ (runOf x.1.nestedRuns runId).returned ↔
    ∃ a c, MadeIn x.1 runId a c ∧ Moment.returned a ∈ x.2 ∧ c.parentCallIndex = i

lemma MadeIn.lt (h : MadeIn x.1 runId a c) : a < x.1.calls.length := by
  obtain ⟨_, h, -⟩ := h
  exact (List.getElem?_eq_some_iff.1 h).1

/-- The depths of the calls that have returned. -/
lemma Kept.mem_returnedDepths (hx : Kept x) {d : ℕ} :
    d ∈ (runOf x.1.nestedRuns runId).returnedDepths ↔
      ∃ a c, MadeIn x.1 runId a c ∧ Moment.returned a ∈ x.2 ∧ c.parentCallDepth = d := by
  simp only [NestedRun.returnedDepths, List.mem_filterMap, hx.marked]
  constructor
  · rintro ⟨i, ⟨a, c, hc, hret, rfl⟩, hi⟩
    rw [(hx.filed runId a c hc).1] at hi
    exact ⟨a, c, hc, hret, Option.some.inj hi⟩
  · rintro ⟨a, c, hc, hret, rfl⟩
    exact ⟨c.parentCallIndex, ⟨a, c, hc, hret, rfl⟩, (hx.filed runId a c hc).1⟩

/-! A call that starts. -/

section Start

variable {inWorker : Bool} {envRun : Option String} {credentials : Except String (Option String)}
  {context : Option Context} {runs : NestedRuns}

lemma madeIn_append :
    MadeIn ⟨runs, x.1.calls ++ [{ context, hasReturned := false }]⟩ runId a c ↔
    MadeIn x.1 runId a c ∨
      (a = x.1.calls.length ∧ context = some c ∧ c.parentRunId = runId) := by
  unfold MadeIn
  rcases lt_trichotomy a x.1.calls.length with hlt | rfl | hgt
  · rw [List.getElem?_append_left hlt]
    simp [hlt.ne]
  · rw [List.getElem?_append_right le_rfl]
    simp only [Nat.sub_self, List.getElem?_cons_zero, Option.some.injEq, Call.mk.injEq,
      List.getElem?_eq_none le_rfl]
    constructor
    · rintro ⟨_, ⟨hc, -⟩, hrun⟩
      exact .inr ⟨trivial, hc, hrun⟩
    · rintro (⟨_, h, -⟩ | ⟨-, hc, hrun⟩)
      · cases h
      · exact ⟨false, ⟨hc, rfl⟩, hrun⟩
  · rw [List.getElem?_eq_none (by simpa using Nat.succ_le_of_lt hgt),
      List.getElem?_eq_none hgt.le]
    simp [hgt.ne']

/-- A context says what the bookkeeping was. -/
lemma context_eq (h : (nestedCallContext x.1.nestedRuns inWorker envRun credentials).2 =
      .ok (some c)) :
    inWorker = true ∧ c.parentRunId = envRun ∧
      c.parentCallIndex = (runOf x.1.nestedRuns envRun).nextIndex ∧
      c.parentCallDepth = (runOf x.1.nestedRuns envRun).depth := by
  cases inWorker with
  | false => simp [nestedCallContext] at h
  | true =>
    cases credentials with
    | error e => simp [nestedCallContext, Except.map] at h
    | ok jobId =>
      obtain rfl : _ = c := by simpa [nestedCallContext, Except.map] using h
      exact ⟨rfl, rfl, rfl, rfl⟩

end Start

lemma NestedRun.start_depths_get {run : NestedRun} {i : ℕ} (h : i < run.nextIndex) :
    run.start.depths.get i = run.depths.get i := by
  rw [NestedRun.start, Dict.get_set_of_ne h.ne]

/-- A start in an invocation leaves what is on file where it is. -/
lemma Kept.filed_start (hx : Kept x) (envRun : Option String)
    (credentials : Except String (Option String)) (hc : MadeIn x.1 runId a c) :
    (runOf (nestedCallContext x.1.nestedRuns true envRun credentials).1 runId).depths.get
        c.parentCallIndex = some c.parentCallDepth ∧
      c.parentCallIndex <
        (runOf (nestedCallContext x.1.nestedRuns true envRun credentials).1 runId).nextIndex := by
  obtain ⟨hget, hlt⟩ := hx.filed runId a c hc
  rw [runOf_nestedCallContext]
  split_ifs with h
  · subst h
    exact ⟨by rw [NestedRun.start_depths_get hlt, hget], Nat.lt_succ_of_lt hlt⟩
  · exact ⟨hget, hlt⟩

lemma runOf_nestedCallContext_returned {runs : NestedRuns} {envRun : Option String}
    {credentials : Except String (Option String)} :
    (runOf (nestedCallContext runs true envRun credentials).1 runId).returned =
      (runOf runs runId).returned := by
  rw [runOf_nestedCallContext]
  split_ifs with h
  · rw [h]
    rfl
  · rfl

lemma Kept.raised (hx : Kept x) {envRun : Option String}
    {credentials : Except String (Option String)} :
    Kept ({ x.1 with nestedRuns := (nestedCallContext x.1.nestedRuns true envRun credentials).1 },
      x.2) where
  started := hx.started
  returned := hx.returned
  filed _ _ _ hc := hx.filed_start envRun credentials hc
  distinct := hx.distinct
  marked runId i := by
    rw [runOf_nestedCallContext_returned]
    exact hx.marked runId i

lemma Kept.call (hx : Kept x) {inWorker : Bool} {envRun : Option String}
    {credentials : Except String (Option String)} {context : Option Context}
    (hcontext : (nestedCallContext x.1.nestedRuns inWorker envRun credentials).2 = .ok context) :
    Kept (⟨(nestedCallContext x.1.nestedRuns inWorker envRun credentials).1,
      x.1.calls ++ [{ context, hasReturned := false }]⟩, x.2 ++ [.started x.1.calls.length]) where
  started k hk := by
    rw [List.length_append, List.length_singleton]
    rcases List.mem_append.1 hk with hk | hk
    · exact Nat.lt_succ_of_lt (hx.started k hk)
    · obtain rfl : k = x.1.calls.length := by simpa using hk
      exact Nat.lt_succ_self _
  returned k := by
    rw [List.mem_append, hx.returned]
    simp only [List.mem_singleton, reduceCtorEq, or_false]
    rcases lt_trichotomy k x.1.calls.length with hlt | rfl | hgt
    · rw [List.getElem?_append_left hlt]
    · rw [List.getElem?_append_right le_rfl, List.getElem?_eq_none le_rfl]
      simp
    · rw [List.getElem?_eq_none hgt.le,
        List.getElem?_eq_none (by simpa using Nat.succ_le_of_lt hgt)]
  filed runId a c hc := by
    rcases madeIn_append.1 hc with hold | ⟨-, rfl, rfl⟩
    · cases inWorker with
      | false => exact hx.filed runId a c hold
      | true => exact hx.filed_start envRun credentials hold
    · obtain ⟨rfl, hrun, hindex, hdepth⟩ := context_eq hcontext
      rw [runOf_nestedCallContext, if_pos hrun, hindex, hdepth]
      exact ⟨by rw [NestedRun.start, Dict.get_set_self], Nat.lt_succ_self _⟩
  distinct runId a b c d hc hd hindex := by
    rcases madeIn_append.1 hc with hcold | ⟨rfl, hcc, hcr⟩ <;>
      rcases madeIn_append.1 hd with hdold | ⟨rfl, hdc, hdr⟩
    · exact hx.distinct runId a b c d hcold hdold hindex
    · -- A new index is not on file.
      subst hdc
      obtain ⟨-, hrun, hnew, -⟩ := context_eq hcontext
      have := (hx.filed runId a c hcold).2
      rw [hindex, hnew, ← hrun, hdr] at this
      exact absurd this (lt_irrefl _)
    · subst hcc
      obtain ⟨-, hrun, hnew, -⟩ := context_eq hcontext
      have := (hx.filed runId b d hdold).2
      rw [← hindex, hnew, ← hrun, hcr] at this
      exact absurd this (lt_irrefl _)
    · rfl
  marked runId i := by
    have hruns : (runOf (nestedCallContext x.1.nestedRuns inWorker envRun credentials).1
        runId).returned = (runOf x.1.nestedRuns runId).returned := by
      cases inWorker with
      | false => rfl
      | true => exact runOf_nestedCallContext_returned
    rw [hruns, hx.marked]
    refine exists_congr fun a => exists_congr fun c => ?_
    simp only [madeIn_append, List.mem_append, List.mem_singleton, reduceCtorEq, or_false]
    constructor
    · rintro ⟨hc, hret, hi⟩
      exact ⟨.inl hc, hret, hi⟩
    · rintro ⟨hc | ⟨rfl, -, -⟩, hret, hi⟩
      · exact ⟨hc, hret, hi⟩
      · obtain ⟨_, h⟩ := (hx.returned _).1 hret
        rw [List.getElem?_eq_none le_rfl] at h
        cases h

/-! A call that returns. -/

section Ret

variable {context : Option Context} {runs : NestedRuns}
  (hk : x.1.calls[k]? = some { context, hasReturned := false })

include hk

lemma madeIn_set : MadeIn ⟨runs, x.1.calls.set k { context, hasReturned := true }⟩ runId a c ↔
    MadeIn x.1 runId a c := by
  obtain ⟨hlt, -⟩ := List.getElem?_eq_some_iff.1 hk
  unfold MadeIn
  by_cases hak : a = k
  · subst hak
    simp only [List.getElem?_set_self hlt, hk, Option.some.injEq, Call.mk.injEq]
    constructor <;> rintro ⟨_, ⟨hc, -⟩, hrun⟩ <;> exact ⟨_, ⟨hc, rfl⟩, hrun⟩
  · rw [List.getElem?_set_ne (Ne.symm hak)]

lemma runOf_mark (hx : Kept x) :
    runOf (markNestedCallReturned x.1.nestedRuns context) runId =
      match context with
      | some c => if runId = c.parentRunId then
          (runOf x.1.nestedRuns runId).markReturned c.parentCallIndex
        else runOf x.1.nestedRuns runId
      | none => runOf x.1.nestedRuns runId := by
  cases context with
  | none => rfl
  | some c =>
    rw [runOf_markNestedCallReturned (hx.filed _ k c ⟨false, hk, rfl⟩).1]
    simp only
    split_ifs with h
    · rw [h]
    · rfl

lemma Kept.ret (hx : Kept x) :
    Kept (⟨markNestedCallReturned x.1.nestedRuns context,
      x.1.calls.set k { context, hasReturned := true }⟩, x.2 ++ [.returned k]) where
  started j hj := by
    rw [List.length_set]
    exact hx.started j (by simpa using hj)
  returned j := by
    obtain ⟨hlt, -⟩ := List.getElem?_eq_some_iff.1 hk
    rw [List.mem_append, hx.returned, List.mem_singleton]
    by_cases hjk : j = k
    · subst hjk
      simp [List.getElem?_set_self hlt]
    · rw [List.getElem?_set_ne (Ne.symm hjk)]
      simp [hjk]
  filed runId a c hc := by
    obtain hc := (madeIn_set hk).1 hc
    obtain ⟨hget, hlt⟩ := hx.filed runId a c hc
    rw [runOf_mark hk hx]
    cases context with
    | none => exact ⟨hget, hlt⟩
    | some c' =>
      simp only
      split_ifs <;> exact ⟨hget, hlt⟩
  distinct runId a b c d hc hd hindex :=
    hx.distinct runId a b c d ((madeIn_set hk).1 hc) ((madeIn_set hk).1 hd) hindex
  marked runId i := by
    simp only [madeIn_set hk, List.mem_append, List.mem_singleton, Moment.returned.injEq]
    rw [runOf_mark hk hx]
    constructor
    · intro hi
      have hsplit : i ∈ (runOf x.1.nestedRuns runId).returned ∨
          ∃ c, context = some c ∧ c.parentRunId = runId ∧ c.parentCallIndex = i := by
        cases context with
        | none => exact .inl hi
        | some c =>
          simp only at hi
          split_ifs at hi with hrun
          · rcases List.mem_insert_iff.1 hi with rfl | hi
            · exact .inr ⟨c, rfl, hrun.symm, rfl⟩
            · exact .inl hi
          · exact .inl hi
      rcases hsplit with hi | ⟨c, rfl, hrun, rfl⟩
      · obtain ⟨a, c, hc, hret, hi⟩ := (hx.marked runId i).1 hi
        exact ⟨a, c, hc, .inl hret, hi⟩
      · exact ⟨k, c, ⟨false, hk, hrun⟩, .inr rfl, rfl⟩
    · rintro ⟨a, c, hc, hret, rfl⟩
      have hmem : c.parentCallIndex ∈ (runOf x.1.nestedRuns runId).returned ∨ a = k := by
        rcases hret with hret | rfl
        · exact .inl ((hx.marked runId _).2 ⟨a, c, hc, hret, rfl⟩)
        · exact .inr rfl
      cases context with
      | none =>
        rcases hmem with hmem | rfl
        · exact hmem
        · obtain ⟨_, h, -⟩ := hc
          rw [hk] at h
          simp at h
      | some c' =>
        simp only
        rcases hmem with hmem | rfl
        · split_ifs
          · exact List.mem_insert_of_mem hmem
          · exact hmem
        · obtain ⟨_, h, hrun⟩ := hc
          rw [hk] at h
          obtain rfl : c' = c := by simpa using congrArg Call.context (Option.some.inj h)
          rw [if_pos hrun.symm]
          exact List.mem_insert_self

lemma returnedBefore_ret :
    ReturnedBefore (⟨runs, x.1.calls.set k { context, hasReturned := true }⟩,
      x.2 ++ [.returned k]) runId a b ↔ ReturnedBefore x runId a b := by
  simp only [ReturnedBefore, madeIn_set hk, pair_sublist_concat, reduceCtorEq, and_false, or_false]

end Ret

end Kept

lemma invariant_kept : (sys.logged note).Invariant System.always Kept := by
  constructor
  · rintro ⟨p, log⟩ ⟨rfl, rfl⟩
    exact
      { started := by simp
        returned := by simp
        filed := by rintro _ _ _ ⟨_, h, -⟩; simp at h
        distinct := by rintro _ _ _ _ _ ⟨_, h, -⟩; simp at h
        marked := by simp [MadeIn, NestedRun.new] }
  · intro x e y hx _ hstep
    rcases step_cases hstep with ⟨_, _, -, rfl⟩ | ⟨_, _, _, _, -, hcontext, rfl⟩ | ⟨_, _, -, hk, rfl⟩
    · exact hx.raised
    · exact hx.call hcontext
    · exact hx.ret hk

/-! ### The positions -/

section Positions

variable {x y : Trace} {e : Event} {runId : Option String} {a b k : ℕ} {c d : Context}
  {runs : NestedRuns} {context : Option Context}

/-- What has returned before a call that starts now is what has returned. -/
lemma Kept.returnedBefore_call (hx : Kept x) :
    ReturnedBefore (⟨runs, x.1.calls ++ [{ context, hasReturned := false }]⟩,
        x.2 ++ [.started x.1.calls.length]) runId a b ↔
      ReturnedBefore x runId a b ∨
        (b = x.1.calls.length ∧ (∃ c, context = some c ∧ c.parentRunId = runId) ∧
          (∃ c, MadeIn x.1 runId a c) ∧ Moment.returned a ∈ x.2) := by
  simp only [ReturnedBefore, madeIn_append, pair_sublist_concat, Moment.started.injEq]
  constructor
  · rintro ⟨⟨c, hc⟩, ⟨d, hd⟩, hbefore⟩
    have ha : a < x.1.calls.length := by
      have hret : Moment.returned a ∈ x.2 := by
        rcases hbefore with h | ⟨h, -⟩
        · exact h.subset (by simp)
        · exact h
      obtain ⟨_, h⟩ := (hx.returned a).1 hret
      exact (List.getElem?_eq_some_iff.1 h).1
    have hc : MadeIn x.1 runId a c := by
      rcases hc with hc | ⟨rfl, -⟩
      · exact hc
      · exact absurd ha (lt_irrefl _)
    rcases hbefore with h | ⟨hret, rfl⟩
    · have hb : b < x.1.calls.length := hx.started b (h.subset (by simp))
      rcases hd with hd | ⟨rfl, -⟩
      · exact .inl ⟨⟨c, hc⟩, ⟨d, hd⟩, h⟩
      · exact absurd hb (lt_irrefl _)
    · rcases hd with hd | ⟨-, hd⟩
      · exact absurd hd.lt (lt_irrefl _)
      · exact .inr ⟨rfl, ⟨d, hd⟩, ⟨c, hc⟩, hret⟩
  · rintro (⟨⟨c, hc⟩, ⟨d, hd⟩, h⟩ | ⟨rfl, ⟨d, hd⟩, ⟨c, hc⟩, hret⟩)
    · exact ⟨⟨c, .inl hc⟩, ⟨d, .inl hd⟩, .inl h⟩
    · exact ⟨⟨c, .inl hc⟩, ⟨d, .inr ⟨rfl, hd⟩⟩, .inr ⟨hret, rfl⟩⟩

/-- Every depth is the length of the longest chain. -/
def Placed (x : Trace) : Prop :=
  ∀ runId a c, MadeIn x.1 runId a c →
    Chains.IsLongestTo (ReturnedBefore x runId) a c.parentCallDepth

lemma ReturnedBefore.lt (hx : Kept x) (h : ReturnedBefore x runId a b) : b < x.1.calls.length :=
  hx.started b (h.2.2.subset (by simp))

/-- The chains to a call do not change when a later one starts. -/
lemma Kept.lengthsTo_call (hx : Kept x) (ha : a < x.1.calls.length) :
    Chains.lengthsTo (ReturnedBefore (⟨runs, x.1.calls ++ [{ context, hasReturned := false }]⟩,
        x.2 ++ [.started x.1.calls.length]) runId) a =
      Chains.lengthsTo (ReturnedBefore x runId) a := by
  refine Chains.lengthsTo_congr (p := fun a => a < x.1.calls.length) ?_ ?_ ha
  · intro b a ha
    rw [hx.returnedBefore_call]
    simp [ha.ne]
  · rintro b a - ⟨⟨c, hc⟩, -⟩
    exact hc.lt

lemma Placed.call (hplaced : Placed x) (hx : Kept x) {inWorker : Bool} {envRun : Option String}
    {credentials : Except String (Option String)}
    (hcontext : (nestedCallContext x.1.nestedRuns inWorker envRun credentials).2 = .ok context) :
    Placed (⟨runs, x.1.calls ++ [{ context, hasReturned := false }]⟩,
      x.2 ++ [.started x.1.calls.length]) := by
  intro runId a c hc
  rcases madeIn_append.1 hc with hold | ⟨rfl, rfl, hrun⟩
  · rw [Chains.IsLongestTo, hx.lengthsTo_call hold.lt]
    exact hplaced runId a c hold
  · obtain ⟨-, henv, -, hdepth⟩ := context_eq hcontext
    obtain rfl : envRun = runId := henv.symm.trans hrun
    have hpred : ∀ b, ReturnedBefore (⟨runs, x.1.calls ++ [⟨some c, false⟩]⟩,
          x.2 ++ [.started x.1.calls.length]) envRun b x.1.calls.length ↔
          ∃ d, MadeIn x.1 envRun b d ∧ Moment.returned b ∈ x.2 := by
      intro b
      rw [hx.returnedBefore_call]
      constructor
      · rintro (h | ⟨-, -, ⟨d, hd⟩, h⟩)
        · exact absurd (h.lt hx) (lt_irrefl _)
        · exact ⟨d, hd, h⟩
      · exact fun ⟨d, hd, h⟩ => .inr ⟨rfl, ⟨c, rfl, hrun⟩, ⟨d, hd⟩, h⟩
    have hold : ∀ b d, MadeIn x.1 envRun b d → Chains.IsLongestTo
        (ReturnedBefore (⟨runs, x.1.calls ++ [⟨some c, false⟩]⟩,
          x.2 ++ [.started x.1.calls.length]) envRun) b d.parentCallDepth := by
      intro b d hd
      rw [Chains.IsLongestTo, hx.lengthsTo_call hd.lt]
      exact hplaced envRun b d hd
    obtain ⟨hmax, hlt⟩ := NestedRun.depth_cases (runOf x.1.nestedRuns envRun)
    rw [hdepth]
    refine Chains.isLongestTo_of_pred ?_ ?_
    · intro b hb
      obtain ⟨d, hd, hret⟩ := (hpred b).1 hb
      exact ⟨d.parentCallDepth, hlt _ (hx.mem_returnedDepths.2 ⟨b, d, hd, hret, rfl⟩),
        hold b d hd⟩
    · rcases hmax with hzero | ⟨_, hmem, heq⟩
      · exact .inl hzero
      · obtain ⟨b, d, hd, hret, rfl⟩ := hx.mem_returnedDepths.1 hmem
        exact .inr ⟨b, d.parentCallDepth, (hpred b).2 ⟨d, hd, hret⟩, hold b d hd, heq⟩

lemma Placed.ret (hplaced : Placed x)
    (hk : x.1.calls[k]? = some { context, hasReturned := false }) :
    Placed (⟨runs, x.1.calls.set k { context, hasReturned := true }⟩, x.2 ++ [.returned k]) := by
  intro runId a c hc
  have heq : ReturnedBefore (⟨runs, x.1.calls.set k { context, hasReturned := true }⟩,
      x.2 ++ [.returned k]) runId = ReturnedBefore x runId := by
    funext a b
    exact propext (returnedBefore_ret hk)
  rw [heq]
  exact hplaced runId a c ((madeIn_set hk).1 hc)

lemma reachable_placed {x : Trace} (hx : (sys.logged note).Reachable System.always x) :
    Kept x ∧ Placed x := by
  refine System.Invariant.reachable (P := fun x => Kept x ∧ Placed x)
    (invariant_kept.strengthen ?_ ?_) hx
  · rintro ⟨p, log⟩ ⟨rfl, rfl⟩ _ _ _ ⟨_, h, -⟩
    simp at h
  · intro x e y hx hplaced _ hstep
    rcases step_cases hstep with ⟨_, _, -, rfl⟩ | ⟨_, _, _, _, -, hcontext, rfl⟩ | ⟨_, _, -, hk, rfl⟩
    · exact hplaced
    · exact hplaced.call hx hcontext
    · exact hplaced.ret hk

end Positions

/-! ### Overlapping calls -/

section Overlapping

variable {x y : Trace} {e : Event} {runId : Option String} {a b k : ℕ} {c d : Context}
  {runs : NestedRuns} {context : Option Context}

/-- Overlapping calls have one depth. -/
def SameDepth (x : Trace) : Prop :=
  ∀ runId a b c d, MadeIn x.1 runId a c → MadeIn x.1 runId b d → a ≠ b →
    ¬ReturnedBefore x runId a b → ¬ReturnedBefore x runId b a →
    c.parentCallDepth = d.parentCallDepth

lemma right_iff_sameDepth (hx : Kept x) (hplaced : Placed x) : Right x ↔ SameDepth x := by
  constructor
  · exact fun h => h.overlapping
  · intro h
    exact
      { distinct := hx.distinct
        longest := hplaced
        ordered := fun runId a b c d hc hd hab =>
          (hplaced runId a c hc).lt (hplaced runId b d hd) hab
        overlapping := h }

/-- An earlier call that overlaps one that starts now. -/
lemma Kept.overlapping_call_iff (hx : Kept x) (hc : MadeIn x.1 runId a c)
    (hnew : context = some d) (hrun : d.parentRunId = runId) :
    (¬ReturnedBefore (⟨runs, x.1.calls ++ [{ context, hasReturned := false }]⟩,
          x.2 ++ [.started x.1.calls.length]) runId a x.1.calls.length ∧
      ¬ReturnedBefore (⟨runs, x.1.calls ++ [{ context, hasReturned := false }]⟩,
          x.2 ++ [.started x.1.calls.length]) runId x.1.calls.length a) ↔
      Moment.returned a ∉ x.2 := by
  simp only [hx.returnedBefore_call]
  constructor
  · rintro ⟨h, -⟩ hret
    exact h (.inr ⟨trivial, ⟨d, hnew, hrun⟩, ⟨c, hc⟩, hret⟩)
  · intro hret
    constructor
    · rintro (h | ⟨-, -, -, h⟩)
      · exact absurd (h.lt hx) (lt_irrefl _)
      · exact hret h
    · rintro (⟨⟨_, h⟩, -⟩ | ⟨h, -⟩)
      · exact absurd h.lt (lt_irrefl _)
      · exact absurd h hc.lt.ne

/-- Two calls that had started before go on as they were. -/
lemma Kept.returnedBefore_call_of_lt (hx : Kept x) (hb : b < x.1.calls.length) :
    ReturnedBefore (⟨runs, x.1.calls ++ [{ context, hasReturned := false }]⟩,
        x.2 ++ [.started x.1.calls.length]) runId a b ↔ ReturnedBefore x runId a b := by
  rw [hx.returnedBefore_call]
  simp [hb.ne]

lemma SameDepth.of_call (hx : Kept x)
    (h : SameDepth (⟨runs, x.1.calls ++ [{ context, hasReturned := false }]⟩,
      x.2 ++ [.started x.1.calls.length])) : SameDepth x := by
  intro runId a b c d hc hd hne hab hba
  refine h runId a b c d (madeIn_append.2 (.inl hc)) (madeIn_append.2 (.inl hd)) hne ?_ ?_
  · rwa [hx.returnedBefore_call_of_lt hd.lt]
  · rwa [hx.returnedBefore_call_of_lt hc.lt]

/-- A call that starts while some call that has returned overlaps one that is still going on gets a
deeper place than the latter. -/
lemma SameDepth.staged (hx : Kept x)
    (hplaced : Placed (⟨runs, x.1.calls ++ [⟨some d, false⟩]⟩, x.2 ++ [.started x.1.calls.length]))
    (h : SameDepth (⟨runs, x.1.calls ++ [⟨some d, false⟩]⟩, x.2 ++ [.started x.1.calls.length]))
    (hrun : d.parentRunId = runId) {c' : Context} (hc : MadeIn x.1 runId a c)
    (hret : Moment.returned a ∈ x.2) (hc' : MadeIn x.1 runId b c')
    (hgoing : Moment.returned b ∉ x.2) : ReturnedBefore x runId a b := by
  by_contra hab
  have hne : a ≠ b := by
    rintro rfl
    exact hgoing hret
  have hba : ¬ReturnedBefore x runId b a := fun h => hgoing (h.2.2.subset (by simp))
  have hnew : MadeIn ⟨runs, x.1.calls ++ [⟨some d, false⟩]⟩ runId x.1.calls.length d :=
    madeIn_append.2 (.inr ⟨rfl, rfl, hrun⟩)
  have hdepth : c.parentCallDepth = c'.parentCallDepth :=
    h.of_call hx runId a b c c' hc hc' hne hab hba
  have hsame : c'.parentCallDepth = d.parentCallDepth := by
    obtain ⟨h₁, h₂⟩ := (hx.overlapping_call_iff hc' rfl hrun).2 hgoing
    exact h runId b _ c' d (madeIn_append.2 (.inl hc')) hnew hc'.lt.ne h₁ h₂
  have hlt : c.parentCallDepth < d.parentCallDepth := by
    refine (hplaced runId a c (madeIn_append.2 (.inl hc))).lt (hplaced runId _ d hnew) ?_
    exact hx.returnedBefore_call.2 (.inr ⟨rfl, ⟨d, rfl, hrun⟩, ⟨c, hc⟩, hret⟩)
  omega

/-- In stages, a call that starts has the same calls before it as each that is still going on. -/
lemma SameDepth.call (h : SameDepth x) (hx : Kept x)
    (hplaced : Placed (⟨runs, x.1.calls ++ [{ context, hasReturned := false }]⟩,
      x.2 ++ [.started x.1.calls.length]))
    (hstaged : ∀ d, context = some d → ∀ a b c c', MadeIn x.1 d.parentRunId a c →
      Moment.returned a ∈ x.2 → MadeIn x.1 d.parentRunId b c' → Moment.returned b ∉ x.2 →
      ReturnedBefore x d.parentRunId a b) :
    SameDepth (⟨runs, x.1.calls ++ [{ context, hasReturned := false }]⟩,
      x.2 ++ [.started x.1.calls.length]) := by
  have hnewer : ∀ runId a c d, MadeIn x.1 runId a c → context = some d → d.parentRunId = runId →
      Moment.returned a ∉ x.2 → c.parentCallDepth = d.parentCallDepth := by
    rintro runId a c d hc rfl rfl hgoing
    have heq := Chains.lengthsTo_eq_of_preds
      (r := ReturnedBefore (⟨runs, x.1.calls ++ [{ context := some d, hasReturned := false }]⟩,
        x.2 ++ [.started x.1.calls.length]) d.parentRunId) (a := a) (c := x.1.calls.length) <| by
      intro b
      rw [hx.returnedBefore_call_of_lt hc.lt, hx.returnedBefore_call]
      constructor
      · intro hb
        obtain ⟨⟨c', hc'⟩, -, hsub⟩ := hb
        exact .inr ⟨rfl, ⟨d, rfl, rfl⟩, ⟨c', hc'⟩, hsub.subset (by simp)⟩
      · rintro (hb | ⟨-, -, ⟨c', hc'⟩, hret⟩)
        · exact absurd (hb.lt hx) (lt_irrefl _)
        · exact hstaged d rfl b a c' c hc' hret hc hgoing
    have ha := hplaced _ a c (madeIn_append.2 (.inl hc))
    rw [Chains.IsLongestTo, heq] at ha
    exact Chains.IsLongestTo.unique ha (hplaced _ _ d (madeIn_append.2 (.inr ⟨rfl, rfl, rfl⟩)))
  intro runId a b c d hc hd hne hab hba
  rcases madeIn_append.1 hc with hcold | ⟨rfl, hcc, hcr⟩ <;>
    rcases madeIn_append.1 hd with hdold | ⟨rfl, hdc, hdr⟩
  · rw [hx.returnedBefore_call_of_lt hdold.lt] at hab
    rw [hx.returnedBefore_call_of_lt hcold.lt] at hba
    exact h runId a b c d hcold hdold hne hab hba
  · exact hnewer runId a c d hcold hdc hdr ((hx.overlapping_call_iff hcold hdc hdr).1 ⟨hab, hba⟩)
  · exact (hnewer runId b d c hdold hcc hcr
      ((hx.overlapping_call_iff hdold hcc hcr).1 ⟨hba, hab⟩)).symm
  · exact absurd rfl hne

/-- **Overlapping calls keep one depth in exactly the steps that go in stages.** -/
lemma sameDepth_step_iff (hx : Kept x) (hplaced : Placed y)
    (hstep : (sys.logged note).step x e = some y) :
    SameDepth y ↔ SameDepth x ∧ Staged x e := by
  rcases step_cases hstep with ⟨_, _, rfl, rfl⟩ |
    ⟨inWorker, envRun, credentials, context, rfl, hcontext, rfl⟩ | ⟨k, context, rfl, hk, rfl⟩
  · exact (and_iff_left trivial).symm
  · constructor
    · intro h
      refine ⟨h.of_call hx, ?_⟩
      cases inWorker with
      | false => trivial
      | true =>
        cases credentials with
        | error => trivial
        | ok jobId =>
          obtain rfl : _ = context := by
            simpa [nestedCallContext, Except.map] using hcontext
          intro a b c c' hc hret hc' hgoing
          exact h.staged hx hplaced rfl hc hret hc' hgoing
    · rintro ⟨h, hstaged⟩
      refine h.call hx hplaced ?_
      rintro d rfl
      obtain ⟨rfl, hrun, -⟩ := context_eq hcontext
      cases credentials with
      | error => simp [nestedCallContext, Except.map] at hcontext
      | ok jobId =>
        rw [hrun]
        exact hstaged
  · refine Iff.trans ?_ (and_iff_left trivial).symm
    unfold SameDepth
    simp only [madeIn_set hk, returnedBefore_ret hk]

end Overlapping

def start : Trace := ({ nestedRuns := .empty, calls := [] }, [])

/-- **The positions say what the caller's order is in exactly the runs that go in stages.** -/
theorem right_iff_staged {as : List Event} {x : Trace}
    (hrun : (sys.logged note).Run System.always start as x) :
    Right x ↔ (sys.logged note).Run Staged start as x := by
  have hplaced : ∀ {as x}, (sys.logged note).Run System.always start as x → Kept x ∧ Placed x :=
    fun h => reachable_placed ⟨start, _, ⟨rfl, rfl⟩, h⟩
  rw [right_iff_sameDepth (hplaced hrun).1 (hplaced hrun).2]
  constructor
  · intro h
    induction hrun with
    | nil => exact .nil
    | snoc hrun _ hstep ih =>
      obtain ⟨hbefore, hstaged⟩ :=
        (sameDepth_step_iff (hplaced hrun).1 (hplaced (hrun.snoc trivial hstep)).2 hstep).1 h
      exact (ih hbefore).snoc hstaged hstep
  · clear hrun
    intro hrun
    induction hrun with
    | nil => rintro _ _ _ _ _ ⟨_, h, -⟩; simp [start] at h
    | snoc hrun hstaged hstep ih =>
      have hfree := hrun.mono fun _ _ _ => trivial
      exact (sameDepth_step_iff (hplaced hfree).1 (hplaced (hfree.snoc trivial hstep)).2 hstep).2
        ⟨ih, hstaged⟩

def inRun : Event := .call true (some "run") (.ok (some "job"))

/-- Two calls at once, and a third when both have returned. -/
def inStages : Trace :=
  ((sys.logged note).exec start [inRun, inRun, .ret 0, .ret 1, inRun]).get (by decide +kernel)

theorem right_iff_staged_inStages : Right inStages := by
  have hrun : (sys.logged note).Run Staged start [inRun, inRun, .ret 0, .ret 1, inRun] inStages := by
    refine .cons rfl ?_ (.cons rfl ?_ (.cons rfl trivial (.cons rfl trivial (.cons rfl ?_ .nil))))
    · rintro _ _ _ _ ⟨_, h, -⟩
      simp [start] at h
    · intro a _ _ _ _ hret
      simp [start, note, inRun] at hret
    · rintro _ b _ _ _ _ hb hgoing
      have hlt := hb.lt
      match b, hlt with
      | 0, _ => exact absurd (by decide) hgoing
      | 1, _ => exact absurd (by decide) hgoing
  exact (right_iff_staged (hrun.mono fun _ _ _ => trivial)).2 hrun

/-- Two calls at once, and when one has returned a third, while the other goes on. -/
def overlap : Trace :=
  ((sys.logged note).exec start [inRun, inRun, .ret 0, inRun]).get (by decide +kernel)

/-- The third call overlaps the second and is put one stage after it. -/
theorem overlapping_calls_ordered :
    ∃ x, (sys.logged note).Reachable System.always x ∧
      (∃ c, MadeIn x.1 (some "run") 1 c ∧ c.parentCallDepth = 0) ∧
      (∃ c, MadeIn x.1 (some "run") 2 c ∧ c.parentCallDepth = 1) ∧
      ¬ReturnedBefore x (some "run") 1 2 ∧ ¬ReturnedBefore x (some "run") 2 1 ∧ ¬Right x := by
  have hexec : (sys.logged note).exec start [inRun, inRun, .ret 0, inRun] = some overlap :=
    (Option.some_get _).symm
  have hreach : (sys.logged note).Reachable System.always overlap :=
    System.Reachable.exec ⟨start, [], ⟨rfl, rfl⟩, .nil⟩ hexec
  have h₁ : MadeIn overlap.1 (some "run") 1 ⟨some "job", some "run", 1, 0⟩ := ⟨false, rfl, rfl⟩
  have h₂ : MadeIn overlap.1 (some "run") 2 ⟨some "job", some "run", 2, 1⟩ := ⟨false, rfl, rfl⟩
  have h₁₂ : ¬ReturnedBefore overlap (some "run") 1 2 :=
    fun h => absurd (h.2.2.subset List.mem_cons_self) (by decide)
  have h₂₁ : ¬ReturnedBefore overlap (some "run") 2 1 :=
    fun h => absurd (h.2.2.subset List.mem_cons_self) (by decide)
  refine ⟨overlap, hreach, ⟨_, h₁, rfl⟩, ⟨_, h₂, rfl⟩, h₁₂, h₂₁, fun hright => ?_⟩
  exact absurd (hright.overlapping _ 1 2 _ _ h₁ h₂ (by decide) h₁₂ h₂₁) (by decide)

end Burla.Nested
