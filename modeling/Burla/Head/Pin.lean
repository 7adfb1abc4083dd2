/-
The cluster that the calls of a process use (`_pin_cluster_url`, `_unpin_cluster_url`,
`_remote_head_handle`, `get_cluster_dashboard_url` and `_acquire_head_for_job` in `__init__.py`,
`running_head_url` and `_run_local_head` in `_local_head.py`, and the start and end of a call in
_remote_parallel_map.py).

A call looks for a head when it starts and commits to it, by writing one variable of the process;
lookups return what that says, and its end clears it.  A lookup that finds it empty goes on to the
environment and the saved configuration, to the account's registration, and to the head that is
recorded on the machine; and where that does not answer in time, it terminates it and starts
another one.

The main result is `Burla.Head.Pin.kept_of_apart`: as long as no call commits while another lookup
has gone past an empty variable, and no call clears it while a call is still going on, every
lookup of a call returns what the call committed to, and no lookup terminates such a head.
-/
import Burla.Head.Machine
import Burla.Lib.Places

namespace Burla.Head.Pin

/-! ### Lookups -/

/-- `_HeadHandle`; it is owned when it has the pid of its head. -/
structure HeadHandle where
  url : ℕ
  pid : Option ℕ
  supportsDetach : Bool
  deriving DecidableEq

/-- Where a lookup is. -/
inductive Stage
  /-- The account's registration is asked for. -/
  | asking
  /-- `running_head_url` -/
  | probing
  /-- `_run_local_head` -/
  | looking
  /-- The recorded head has not answered, and is to be terminated. -/
  | replacing (pid : Option ℕ)
  | vacant
  /-- The new head runs, and is being waited for. -/
  | waiting (url : ℕ)
  | resolved (h : HeadHandle)
  | over
  deriving DecidableEq

/-- The lookup has found no cluster that is named beforehand. -/
def Stage.PastCheck : Stage → Prop
  | .resolved _ | .over => False
  | _ => True

instance : (stage : Stage) → Decidable stage.PastCheck
  | .resolved _ | .over => .isFalse id
  | .asking | .probing | .looking | .replacing _ | .vacant | .waiting _ => .isTrue trivial

/-- A call of `remote_parallel_map`. -/
inductive CallState
  /-- `_acquire_head_for_job` -/
  | acquiring (background : Bool) (stage : Stage)
  | running (h : HeadHandle)
  /-- The job has ended with an exception, which is to be put on its record. -/
  | failing (h : HeadHandle)
  | returned
  /-- It has raised without having committed to a cluster. -/
  | refused
  deriving DecidableEq

namespace CallState

/-- What a call that is going on has committed to. -/
def committed : CallState → Option HeadHandle
  | .running h | .failing h => some h
  | _ => none

/-- The call may look a cluster up. -/
def looks : CallState → Bool
  | .acquiring _ _ => false
  | _ => true

end CallState

/-- A lookup for a call. -/
structure Lookup where
  call : ℕ
  stage : Stage
  deriving DecidableEq

/-- A lookup, or the one that a call starts with. -/
inductive Ref
  | call (i : ℕ)
  | lookup (k : ℕ)
  deriving DecidableEq

structure Client where
  /-- `_pinned_cluster_url` and `_pinned_head_supports_detach`. -/
  pinned : Option HeadHandle
  /-- What the environment or the saved configuration names. -/
  remote : Option ℕ
  /-- `head.json` -/
  file : Option HeadState
  services : List Service
  calls : List CallState
  lookups : List Lookup
  /-- What a call had committed to and what a lookup for it returned. -/
  answers : List (ℕ × ℕ)
  /-- What calls had committed to that a lookup has terminated. -/
  terminated : List ℕ

inductive Event
  | call (background : Bool)
  | lookup (i : ℕ)
  /-- What the account's registration says. -/
  | registered (r : Ref) (answer : Option ℕ)
  /-- Whether the recorded head answers to `running_head_url` in time. -/
  | probed (r : Ref) (ok : Bool)
  | looked (r : Ref) (ok : Bool)
  | terminate (r : Ref)
  | spawn (r : Ref) (port : ℕ)
  | ready (r : Ref)
  /-- A lookup returns. -/
  | finish (k : ℕ)
  /-- The call commits to what it has found. -/
  | pin (i : ℕ)
  /-- The job's context unwinds; the exception, if any, is handled afterwards. -/
  | unpin (i : ℕ) (raised : Bool)
  | ret (i : ℕ)
  /-- Heads start to serve or exit, and other processes write `head.json`. -/
  | machine (file : Option HeadState) (services : List Service)

namespace Client

variable (s : Client)

def stageOf : Ref → Option Stage
  | .call i =>
    match s.calls[i]? with
    | some (.acquiring _ stage) => some stage
    | _ => none
  | .lookup k => (s.lookups[k]?).map Lookup.stage

def setStage (stage : Stage) : Ref → Client
  | .call i =>
    { s with calls := s.calls.modify i fun c =>
        match c with
        | .acquiring background _ => .acquiring background stage
        | c => c }
  | .lookup k => { s with lookups := s.lookups.modify k fun l => { l with stage := stage } }

/-- The lookup is that of a job in the background. -/
def background : Ref → Bool
  | .call i =>
    match s.calls[i]? with
    | some (.acquiring background _) => background
    | _ => false
  | .lookup _ => false

/-- `_remote_head_handle` -/
def check : Stage :=
  match s.pinned with
  | some h => .resolved { h with pid := none }
  | none =>
    match s.remote with
    | some url => .resolved { url := url, pid := none, supportsDetach := true }
    | none => .asking

/-- `_head_matches`, when the head answers in time. -/
def matching : Option ℕ :=
  s.file.bind fun f => if ∃ v ∈ s.services, v.At f.url then some f.url else none

/-- What calls that are going on have committed to. -/
def committed : List HeadHandle := s.calls.filterMap CallState.committed

/-- The port of a head that is alive. -/
def portOf (pid : Option ℕ) : Option ℕ := pid.bind fun p => s.services[p]?.bind Service.alivePort

def stop (pid : Option ℕ) : List Service :=
  match pid with
  | some p => s.services.modify p fun v => { v with health := .gone }
  | none => s.services

/-- One step of a lookup that goes on from this stage. -/
def advance (r : Ref) (stage : Stage) : Event → Option Client
  | .registered _ answer =>
    match stage, answer with
    | .asking, some url =>
      some ({ s with remote := some url }.setStage
        (.resolved { url := url, pid := none, supportsDetach := true }) r)
    | .asking, none => some (s.setStage .probing r)
    | _, _ => none
  | .probed _ ok =>
    match stage, ok, s.matching with
    | .probing, true, some url =>
      some (s.setStage (.resolved { url := url, pid := none, supportsDetach := false }) r)
    | .probing, false, _ => some (s.setStage .looking r)
    | _, _, _ => none
  | .looked _ ok =>
    match stage, ok, s.matching with
    | .looking, true, some url =>
      some (s.setStage (.resolved { url, pid := recordedPid s.file, supportsDetach := false }) r)
    | .looking, false, _ => some (s.setStage (.replacing (recordedPid s.file)) r)
    | _, _, _ => none
  | .terminate _ =>
    match stage with
    | .replacing pid =>
      some { s.setStage .vacant r with
        services := s.stop pid
        terminated := s.terminated ++
          (s.committed.map HeadHandle.url).filter fun url => s.portOf pid = some url }
    | _ => none
  | .spawn _ port =>
    match stage with
    | .vacant =>
      some { s.setStage (.waiting port) r with
        file := some { url := port, headPid := some s.services.length }
        services := s.services ++ [⟨port, .booting, [], false, false⟩] }
    | _ => none
  | .ready _ =>
    match stage with
    | .waiting url =>
      some (s.setStage (.resolved { url, pid := recordedPid s.file, supportsDetach := false }) r)
    | _ => none
  | _ => none

/-- The lookup that an event is about. -/
def refOf : Event → Option Ref
  | .registered r _ | .probed r _ | .looked r _ | .terminate r | .spawn r _ | .ready r => some r
  | _ => none

/-- A job in the background is not given a head of this machine. -/
def refuses (r : Ref) (stage : Stage) : Event → Bool
  | .probed _ false => s.background r && stage = .probing
  | _ => false

/-- A lookup goes on. -/
def move (e : Event) : Option Client :=
  (refOf e).bind fun r => (s.stageOf r).bind fun stage =>
    if s.refuses r stage e then
      match r with
      | .call i => some { s with calls := s.calls.set i .refused }
      | .lookup _ => none
    else s.advance r stage e

def step (e : Event) : Option Client :=
  match e with
  | .call background =>
    some { s with calls := s.calls ++ [.acquiring background s.check] }
  | .lookup i =>
    match s.calls[i]? with
    | some c =>
      if c.looks then some { s with lookups := s.lookups ++ [{ call := i, stage := s.check }] }
      else none
    | none => none
  | .finish k =>
    match s.lookups[k]? with
    | some { call := i, stage := .resolved h } =>
      some { s with
        lookups := s.lookups.set k { call := i, stage := .over }
        answers := s.answers ++
          (((s.calls[i]?).bind CallState.committed).map fun h' => (h'.url, h.url)).toList }
    | _ => none
  | .pin i =>
    match s.calls[i]? with
    | some (.acquiring background (.resolved h)) =>
      if background && !h.supportsDetach then some { s with calls := s.calls.set i .refused }
      else some { s with calls := s.calls.set i (.running h), pinned := some h }
    | _ => none
  | .unpin i raised =>
    match s.calls[i]? with
    | some (.running h) =>
      some { s with
        calls := s.calls.set i (if raised then .failing h else .returned), pinned := none }
    | _ => none
  | .ret i =>
    match s.calls[i]? with
    | some (.failing _) => some { s with calls := s.calls.set i .returned }
    | _ => none
  | .machine file services => some { s with file := file, services := services }
  | e => s.move e

/-- A process without calls. -/
def new (remote : Option ℕ) (file : Option HeadState) (services : List Service) : Client where
  pinned := none
  remote := remote
  file := file
  services := services
  calls := []
  lookups := []
  answers := []
  terminated := []

/-! ### The claim and the condition -/

/-- Lookups have returned what their calls had committed to, and terminated no such head. -/
def Kept : Prop := (∀ e ∈ s.answers, e.1 = e.2) ∧ s.terminated = []

/-- A call commits only when no other lookup is past the check, and to what the others that are
going on have committed to; and none clears the variable while one is going on afterwards, unless
the environment or the configuration names the cluster anyway. -/
def Apart : Event → Prop
  | .pin i =>
    ∀ h background, s.calls[i]? = some (.acquiring background (.resolved h)) →
      (∀ (j : ℕ) background (stage : Stage), s.calls[j]? = some (.acquiring background stage) →
        ¬stage.PastCheck) ∧
      (∀ l ∈ s.lookups, ¬l.stage.PastCheck) ∧ ∀ h' ∈ s.committed, h'.url = h.url
  | .unpin i raised =>
    ∀ h, s.calls[i]? = some (.running h) →
      (raised = false ∧ ∀ j c, j ≠ i → s.calls[j]? = some c → c.committed = none) ∨
        s.remote = some h.url
  | _ => True

end Client

/-- A process on a machine. -/
def sys : System Client Event where
  init s := ∃ remote file services, s = Client.new remote file services
  step := Client.step

namespace Client

variable {s t : Client} {e : Event} {r : Ref} {stage : Stage} {i j k : ℕ} {h h' : HeadHandle}
  {c c' : CallState}

/-! ### Lists -/

lemma mem_committed : h ∈ s.committed ↔
    ∃ (i : ℕ) (c : CallState), s.calls[i]? = some c ∧ c.committed = some h := by
  rw [committed, List.mem_filterMap]
  constructor
  · rintro ⟨c, hmem, hc⟩
    obtain ⟨i, hi⟩ := List.mem_iff_getElem?.1 hmem
    exact ⟨i, c, hi, hc⟩
  · rintro ⟨i, c, hi, hc⟩
    exact ⟨c, List.mem_of_getElem? hi, hc⟩

lemma committed_eq_nil : s.committed = [] ↔
    ∀ (i : ℕ) (c : CallState), s.calls[i]? = some c → c.committed = none := by
  rw [List.eq_nil_iff_forall_not_mem]
  constructor
  · intro hnone i c hi
    by_contra hc
    obtain ⟨h, hh⟩ := Option.ne_none_iff_exists'.1 hc
    exact hnone h (mem_committed.2 ⟨i, c, hi, hh⟩)
  · rintro hnone h hmem
    obtain ⟨i, c, hi, hc⟩ := mem_committed.1 hmem
    rw [hnone i c hi] at hc
    cases hc

/-! ### Lookups that have gone past the check -/

/-- What a lookup does past the check: only it gets on, and only what calls had committed to can
be terminated of theirs. -/
structure Advanced (s t : Client) (r : Ref) : Prop where
  moved : ∃ stage, t.calls = (s.setStage stage r).calls ∧ t.lookups = (s.setStage stage r).lookups
  answers : t.answers = s.answers
  terminated : s.committed = [] → t.terminated = s.terminated

lemma advanced (ht : s.advance r stage e = some t) : stage.PastCheck ∧ Advanced s t r := by
  cases e with
  | registered _ answer =>
    simp only [advance] at ht
    split at ht
    · obtain rfl := Option.some.inj ht
      exact ⟨trivial, ⟨_, by cases r <;> rfl, by cases r <;> rfl⟩, by cases r <;> rfl,
        fun _ => by cases r <;> rfl⟩
    · obtain rfl := Option.some.inj ht
      exact ⟨trivial, ⟨_, rfl, rfl⟩, by cases r <;> rfl, fun _ => by cases r <;> rfl⟩
    · cases ht
  | probed _ ok =>
    simp only [advance] at ht
    split at ht
    · obtain rfl := Option.some.inj ht
      exact ⟨trivial, ⟨_, rfl, rfl⟩, by cases r <;> rfl, fun _ => by cases r <;> rfl⟩
    · obtain rfl := Option.some.inj ht
      exact ⟨trivial, ⟨_, rfl, rfl⟩, by cases r <;> rfl, fun _ => by cases r <;> rfl⟩
    · cases ht
  | looked _ ok =>
    simp only [advance] at ht
    split at ht
    · obtain rfl := Option.some.inj ht
      exact ⟨trivial, ⟨_, rfl, rfl⟩, by cases r <;> rfl, fun _ => by cases r <;> rfl⟩
    · obtain rfl := Option.some.inj ht
      exact ⟨trivial, ⟨_, rfl, rfl⟩, by cases r <;> rfl, fun _ => by cases r <;> rfl⟩
    · cases ht
  | terminate _ =>
    simp only [advance] at ht
    split at ht
    · obtain rfl := Option.some.inj ht
      refine ⟨trivial, ⟨_, rfl, rfl⟩, by cases r <;> rfl, fun hnone => ?_⟩
      simp [hnone]
    · cases ht
  | spawn _ port =>
    simp only [advance] at ht
    split at ht
    · obtain rfl := Option.some.inj ht
      exact ⟨trivial, ⟨_, rfl, rfl⟩, by cases r <;> rfl, fun _ => by cases r <;> rfl⟩
    · cases ht
  | ready _ =>
    simp only [advance] at ht
    split at ht
    · obtain rfl := Option.some.inj ht
      exact ⟨trivial, ⟨_, rfl, rfl⟩, by cases r <;> rfl, fun _ => by cases r <;> rfl⟩
    · cases ht
  | _ => cases ht

/-! ### What is kept -/

/-- Every lookup is for a call that has found its cluster, or has given up. -/
def Owned (s : Client) : Prop :=
  ∀ l ∈ s.lookups, ∃ c, s.calls[l.call]? = some c ∧ c.looks = true

/-- While calls have committed to a cluster, a lookup can find no other. -/
structure Safe (s : Client) : Prop where
  same : ∀ h ∈ s.committed, ∀ h' ∈ s.committed, h.url = h'.url
  pinned : ∀ h ∈ s.committed, s.pinned.map HeadHandle.url = some h.url ∨
    (s.pinned = none ∧ s.remote = some h.url)
  lookups : s.committed ≠ [] → ∀ l ∈ s.lookups, ¬l.stage.PastCheck
  calls : s.committed ≠ [] → ∀ (i : ℕ) background stage,
    s.calls[i]? = some (.acquiring background stage) → ¬stage.PastCheck
  resolved : ∀ l ∈ s.lookups, ∀ h', l.stage = .resolved h' → ∀ c h,
    s.calls[l.call]? = some c → c.committed = some h → h'.url = h.url
  owned : s.Owned
  kept : s.Kept

lemma safe_new {remote : Option ℕ} {file : Option HeadState} {services : List Service} :
    Safe (new remote file services) where
  same := nofun
  pinned := nofun
  lookups := nofun
  calls := nofun
  resolved := nofun
  owned := nofun
  kept := ⟨nofun, rfl⟩

/-- Without a call that has committed, there is nothing to keep but the past. -/
lemma Safe.of_none (hnone : s.committed = []) (howned : s.Owned) (hkept : s.Kept) : Safe s where
  same h hh := by rw [hnone] at hh; cases hh
  pinned h hh := by rw [hnone] at hh; cases hh
  lookups hne := absurd hnone hne
  calls hne := absurd hnone hne
  resolved l _ h' _ c h hc hh := by
    rw [committed_eq_nil.1 hnone _ c hc] at hh
    cases hh
  owned := howned
  kept := hkept

/-- What the check finds while calls have committed. -/
lemma Safe.check_eq (hs : Safe s) (hh : h ∈ s.committed) :
    ∃ h', s.check = .resolved h' ∧ h'.url = h.url := by
  unfold check
  rcases hs.pinned h hh with hpin | ⟨hpin, hremote⟩
  · obtain ⟨p, hp, hurl⟩ := Option.map_eq_some_iff.1 hpin
    rw [hp]
    exact ⟨_, rfl, hurl⟩
  · rw [hpin, hremote]
    exact ⟨_, rfl, rfl⟩

lemma Safe.not_pastCheck_check (hs : Safe s) (hne : s.committed ≠ []) : ¬s.check.PastCheck := by
  obtain ⟨h, hh⟩ := List.exists_mem_of_ne_nil _ hne
  obtain ⟨h', hcheck, -⟩ := hs.check_eq hh
  rw [hcheck]
  exact id

/-- A lookup that gets on past the check leaves the calls committed to what they were. -/
lemma setStage_calls (stage : Stage) (hi : (s.setStage stage r).calls[i]? = some c) :
    ∃ c', s.calls[i]? = some c' ∧ c.committed = c'.committed ∧ c.looks = c'.looks := by
  cases r with
  | lookup k => exact ⟨c, hi, rfl, rfl⟩
  | call j =>
    obtain ⟨c', hi', rfl⟩ := Places.getElem?_modify_cases hi
    refine ⟨c', hi', ?_⟩
    by_cases hij : j = i
    · rw [if_pos hij]
      cases c' <;> exact ⟨rfl, rfl⟩
    · rw [if_neg hij]
      exact ⟨rfl, rfl⟩

lemma setStage_committed (stage : Stage) (hnone : s.committed = []) :
    (s.setStage stage r).committed = [] := by
  rw [committed_eq_nil] at hnone ⊢
  intro i c hi
  obtain ⟨c', hi', hc, -⟩ := setStage_calls stage hi
  rw [hc]
  exact hnone i c' hi'

/-- The calls keep their places, and whether they look clusters up. -/
lemma setStage_owned (stage : Stage) (howned : s.Owned) : (s.setStage stage r).Owned := by
  cases r with
  | lookup k =>
    intro l hl
    obtain ⟨l', hl', heq⟩ : ∃ l' ∈ s.lookups, l.call = l'.call := by
      obtain ⟨j, hj⟩ := List.mem_iff_getElem?.1 hl
      obtain ⟨l', hj', rfl⟩ := Places.getElem?_modify_cases hj
      refine ⟨l', List.mem_of_getElem? hj', ?_⟩
      split_ifs <;> rfl
    rw [heq]
    exact howned l' hl'
  | call i =>
    intro l hl
    obtain ⟨c, hc, hlooks⟩ := howned l hl
    refine ⟨_, Places.getElem?_modify_of hc, ?_⟩
    by_cases hil : i = l.call
    · rw [if_pos hil]
      cases c <;> exact hlooks
    · rw [if_neg hil]
      exact hlooks

/-- **No lookup gets on past the check while calls have committed.** -/
lemma Safe.advance (hs : Safe s) (hr : s.stageOf r = some stage)
    (ht : s.advance r stage e = some t) : Safe t := by
  obtain ⟨hpast, ⟨stage', hcalls, hlookups⟩, hanswers, hterminated⟩ := advanced ht
  have hnone : s.committed = [] := by
    by_contra hne
    cases r with
    | call i =>
      simp only [stageOf] at hr
      split at hr
      · rename_i background stage'' hi
        obtain rfl := Option.some.inj hr
        exact hs.calls hne i background _ hi hpast
      · cases hr
    | lookup k =>
      simp only [stageOf, Option.map_eq_some_iff] at hr
      obtain ⟨l, hl, rfl⟩ := hr
      exact hs.lookups hne l (List.mem_of_getElem? hl) hpast
  refine .of_none ?_ ?_ ⟨?_, ?_⟩
  · have hset := setStage_committed (r := r) stage' hnone
    rwa [committed, ← hcalls] at hset
  · have howned := setStage_owned (r := r) stage' hs.owned
    rwa [Owned, ← hcalls, ← hlookups] at howned
  · rw [hanswers]
    exact hs.kept.1
  · rw [hterminated hnone]
    exact hs.kept.2

/-! ### The steps of calls -/

/-- A call that goes on without committing to a cluster. -/
lemma Safe.setCall (hs : Safe s) (hi : s.calls[i]? = some c)
    (hc : ∀ h, c'.committed = some h → c.committed = some h)
    (hlooks : c.looks = true → c'.looks = true)
    (hacq : ∀ background stage, c' ≠ .acquiring background stage) {pinned : Option HeadHandle}
    (hpinned : ∀ h ∈ s.committed, pinned.map HeadHandle.url = some h.url ∨
      (pinned = none ∧ s.remote = some h.url)) :
    Safe { s with calls := s.calls.set i c', pinned := pinned } := by
  have hold : ∀ (j : ℕ) (d : CallState) h, (s.calls.set i c')[j]? = some d → d.committed = some h →
      ∃ d', s.calls[j]? = some d' ∧ d'.committed = some h := by
    intro j d h hj hd
    rcases Places.getElem?_set_cases hj with ⟨rfl, rfl⟩ | ⟨-, hj⟩
    · exact ⟨c, hi, hc h hd⟩
    · exact ⟨d, hj, hd⟩
  have hmem : ∀ h, h ∈ Client.committed { s with calls := s.calls.set i c', pinned := pinned } →
      h ∈ s.committed := by
    intro h hh
    obtain ⟨j, d, hj, hd⟩ := mem_committed.1 hh
    obtain ⟨d', hj', hd'⟩ := hold j d h hj hd
    exact mem_committed.2 ⟨j, d', hj', hd'⟩
  have hne : Client.committed { s with calls := s.calls.set i c', pinned := pinned } ≠ [] →
      s.committed ≠ [] := by
    intro hne
    obtain ⟨h, hh⟩ := List.exists_mem_of_ne_nil _ hne
    exact List.ne_nil_of_mem (hmem h hh)
  constructor
  · exact fun h hh h' hh' => hs.same h (hmem h hh) h' (hmem h' hh')
  · exact fun h hh => hpinned h (hmem h hh)
  · exact fun hn => hs.lookups (hne hn)
  · intro hn j background stage hj
    rcases Places.getElem?_set_cases hj with ⟨-, heq⟩ | ⟨-, hj⟩
    · exact absurd heq.symm (hacq background stage)
    · exact hs.calls (hne hn) j background stage hj
  · intro l hl h' hstage d h hd hh
    obtain ⟨d', hd', hh'⟩ := hold l.call d h hd hh
    exact hs.resolved l hl h' hstage d' h hd' hh'
  · intro l hl
    obtain ⟨d, hd, hd'⟩ := hs.owned l hl
    by_cases hli : l.call = i
    · refine ⟨c', ?_, hlooks ?_⟩
      · rw [hli]
        exact List.getElem?_set_self (List.getElem?_eq_some_iff.1 hi).1
      · obtain rfl : c = d := Option.some.inj (hi.symm.trans (hli ▸ hd))
        exact hd'
    · refine ⟨d, ?_, hd'⟩
      rw [← hd]
      exact List.getElem?_set_ne (Ne.symm hli)
  · exact hs.kept

lemma Safe.giveUp (hs : Safe s) (hi : s.calls[i]? = some c) (hc : c' = .refused ∨ c' = .returned) :
    Safe { s with calls := s.calls.set i c' } := by
  rcases hc with rfl | rfl
  · exact hs.setCall hi (fun h hh => by cases hh) (fun _ => rfl) (fun _ _ h => by cases h) hs.pinned
  · exact hs.setCall hi (fun h hh => by cases hh) (fun _ => rfl) (fun _ _ h => by cases h) hs.pinned

lemma Safe.call (hs : Safe s) (background : Bool) :
    Safe { s with calls := s.calls ++ [.acquiring background s.check] } := by
  have hcommitted :
      Client.committed { s with calls := s.calls ++ [.acquiring background s.check] } =
        s.committed := by
    simp [Client.committed, CallState.committed]
  have hcalls : ∀ l ∈ s.lookups, ∀ stage : CallState,
      (s.calls ++ [stage])[l.call]? = s.calls[l.call]? := by
    intro l hl stage
    obtain ⟨d, hd, -⟩ := hs.owned l hl
    exact List.getElem?_append_left (List.getElem?_eq_some_iff.1 hd).1
  constructor
  · rw [hcommitted]
    exact hs.same
  · rw [hcommitted]
    exact hs.pinned
  · rw [hcommitted]
    exact hs.lookups
  · rw [hcommitted]
    intro hne j background' stage hj
    rcases Places.getElem?_concat_cases hj with hj | heq
    · exact hs.calls hne j background' stage hj
    · obtain ⟨-, rfl⟩ := CallState.acquiring.inj heq
      exact hs.not_pastCheck_check hne
  · intro l hl h' hstage c h hc hh
    rw [hcalls l hl] at hc
    exact hs.resolved l hl h' hstage c h hc hh
  · intro l hl
    obtain ⟨d, hd, hd'⟩ := hs.owned l hl
    exact ⟨d, (hcalls l hl _).trans hd, hd'⟩
  · exact hs.kept

lemma Safe.lookup (hs : Safe s) (hi : s.calls[i]? = some c) (hlooks : c.looks = true) :
    Safe { s with lookups := s.lookups ++ [{ call := i, stage := s.check }] } where
  same := hs.same
  pinned := hs.pinned
  lookups hne l hl := by
    rcases List.mem_append.1 hl with hl | hl
    · exact hs.lookups hne l hl
    · obtain rfl := List.mem_singleton.1 hl
      exact hs.not_pastCheck_check hne
  calls := hs.calls
  resolved l hl h' hstage d h hd hh := by
    rcases List.mem_append.1 hl with hl | hl
    · exact hs.resolved l hl h' hstage d h hd hh
    · obtain rfl := List.mem_singleton.1 hl
      obtain ⟨h'', hcheck, hurl⟩ := hs.check_eq (mem_committed.2 ⟨_, d, hd, hh⟩)
      obtain rfl : h'' = h' := Stage.resolved.inj (hcheck.symm.trans hstage)
      exact hurl
  owned l hl := by
    rcases List.mem_append.1 hl with hl | hl
    · exact hs.owned l hl
    · obtain rfl := List.mem_singleton.1 hl
      exact ⟨c, hi, hlooks⟩
  kept := hs.kept

lemma Safe.finish (hs : Safe s) (hk : s.lookups[k]? = some { call := i, stage := .resolved h }) :
    Safe { s with
      lookups := s.lookups.set k { call := i, stage := .over }
      answers := s.answers ++
        (((s.calls[i]?).bind CallState.committed).map fun h' => (h'.url, h.url)).toList } where
  same := hs.same
  pinned := hs.pinned
  lookups hne l hl := by
    rcases List.mem_or_eq_of_mem_set hl with hl | rfl
    · exact hs.lookups hne l hl
    · exact id
  calls := hs.calls
  resolved l hl h' hstage d h'' hd hh := by
    rcases List.mem_or_eq_of_mem_set hl with hl | rfl
    · exact hs.resolved l hl h' hstage d h'' hd hh
    · cases hstage
  owned l hl := by
    rcases List.mem_or_eq_of_mem_set hl with hl | rfl
    · exact hs.owned l hl
    · exact hs.owned { call := i, stage := .resolved h } (List.mem_of_getElem? hk)
  kept := by
    refine ⟨fun e he => ?_, hs.kept.2⟩
    rcases List.mem_append.1 he with he | he
    · exact hs.kept.1 e he
    -- The lookup that returns has had its answer since the call had committed.
    obtain ⟨h', hh', rfl⟩ := Option.map_eq_some_iff.1 (Option.mem_toList.1 he)
    obtain ⟨c, hc, hcommitted⟩ := Option.bind_eq_some_iff.1 hh'
    exact (hs.resolved _ (List.mem_of_getElem? hk) h rfl c h' hc hcommitted).symm

lemma Safe.pin {background : Bool} (hs : Safe s)
    (hi : s.calls[i]? = some (.acquiring background (.resolved h)))
    (hcalls : ∀ (j : ℕ) background (stage : Stage),
      s.calls[j]? = some (.acquiring background stage) → ¬stage.PastCheck)
    (hlookups : ∀ l ∈ s.lookups, ¬l.stage.PastCheck) (hsame : ∀ h' ∈ s.committed, h'.url = h.url) :
    Safe { s with calls := s.calls.set i (.running h), pinned := some h } := by
  have hurl : ∀ h', h' ∈ Client.committed
      { s with calls := s.calls.set i (.running h), pinned := some h } → h'.url = h.url := by
    intro h' hh'
    obtain ⟨j, d, hj, hd⟩ := mem_committed.1 hh'
    rcases Places.getElem?_set_cases hj with ⟨-, rfl⟩ | ⟨-, hj⟩
    · rw [← Option.some.inj hd]
    · exact hsame h' (mem_committed.2 ⟨j, d, hj, hd⟩)
  have hother : ∀ l ∈ s.lookups, l.call ≠ i := by
    rintro l hl rfl
    obtain ⟨d, hd, hlooks⟩ := hs.owned l hl
    obtain rfl := Option.some.inj (hi.symm.trans hd)
    cases hlooks
  constructor
  · exact fun h' hh' h'' hh'' => (hurl h' hh').trans (hurl h'' hh'').symm
  · exact fun h' hh' => .inl (congrArg some (hurl h' hh').symm)
  · exact fun _ => hlookups
  · intro _ j background' stage hj
    rcases Places.getElem?_set_cases hj with ⟨-, heq⟩ | ⟨-, hj⟩
    · cases heq
    · exact hcalls j background' stage hj
  · intro l hl h' hstage d h'' hd hh
    rcases Places.getElem?_set_cases hd with ⟨heq, -⟩ | ⟨-, hd⟩
    · exact absurd heq (hother l hl)
    · exact hs.resolved l hl h' hstage d h'' hd hh
  · intro l hl
    obtain ⟨d, hd, hlooks⟩ := hs.owned l hl
    refine ⟨d, ?_, hlooks⟩
    rw [← hd]
    exact List.getElem?_set_ne (Ne.symm (hother l hl))
  · exact hs.kept

lemma Safe.unpin (hs : Safe s) {raised : Bool} (hi : s.calls[i]? = some (.running h))
    (happart : (raised = false ∧ ∀ j c, j ≠ i → s.calls[j]? = some c → c.committed = none) ∨
      s.remote = some h.url) :
    Safe { s with
      calls := s.calls.set i (if raised then .failing h else .returned), pinned := none } := by
  rcases happart with ⟨rfl, hnone⟩ | hremote
  · refine .of_none ?_ ?_ hs.kept
    · rw [committed_eq_nil]
      intro j d hj
      rcases Places.getElem?_set_cases hj with ⟨-, rfl⟩ | ⟨hji, hj⟩
      · rfl
      · exact hnone j d hji hj
    · exact (hs.giveUp hi (.inr rfl)).owned
  · have hmem : h ∈ s.committed := mem_committed.2 ⟨i, _, hi, rfl⟩
    refine hs.setCall hi ?_ ?_ ?_ fun h' hh' => .inr ⟨rfl, ?_⟩
    · cases raised
      · exact nofun
      · exact fun _ => id
    · cases raised <;> exact fun _ => rfl
    · cases raised <;> exact nofun
    · rw [hremote, hs.same h hmem h' hh']

lemma Safe.move (hs : Safe s) (hmove : s.move e = some t) : Safe t := by
  obtain ⟨r, -, hmove⟩ := Option.bind_eq_some_iff.1 hmove
  obtain ⟨stage, hr, hmove⟩ := Option.bind_eq_some_iff.1 hmove
  by_cases hrefuses : s.refuses r stage e = true
  · rw [if_pos hrefuses] at hmove
    cases r with
    | lookup k => cases hmove
    | call i =>
      obtain rfl := Option.some.inj hmove
      simp only [stageOf] at hr
      split at hr
      · rename_i background stage' hi
        exact hs.giveUp hi (.inl rfl)
      · cases hr
  · rw [if_neg hrefuses] at hmove
    exact hs.advance hr hmove

/-- **Every step whose commits and ends are apart leaves a lookup no other cluster to find.** -/
lemma Safe.step (hs : Safe s) (hstep : s.step e = some t) (happart : s.Apart e) : Safe t := by
  cases e with
  | call background =>
    obtain rfl := Option.some.inj hstep
    exact hs.call background
  | lookup i =>
    simp only [Client.step] at hstep
    split at hstep
    · rename_i c hi
      obtain ⟨hlooks, hstep⟩ := Option.ite_none_right_eq_some.1 hstep
      obtain rfl := Option.some.inj hstep
      exact hs.lookup hi hlooks
    · cases hstep
  | finish k =>
    simp only [Client.step] at hstep
    split at hstep
    · rename_i i h hk
      obtain rfl := Option.some.inj hstep
      exact hs.finish hk
    · cases hstep
  | pin i =>
    simp only [Client.step] at hstep
    split at hstep
    · rename_i background h hi
      split_ifs at hstep with hrefused
      · obtain rfl := Option.some.inj hstep
        exact hs.giveUp hi (.inl rfl)
      · obtain rfl := Option.some.inj hstep
        obtain ⟨hcalls, hlookups, hsame⟩ := happart h background hi
        exact hs.pin hi hcalls hlookups hsame
    · cases hstep
  | unpin i raised =>
    simp only [Client.step] at hstep
    split at hstep
    · rename_i h hi
      obtain rfl := Option.some.inj hstep
      exact hs.unpin hi (happart h hi)
    · cases hstep
  | ret i =>
    simp only [Client.step] at hstep
    split at hstep
    · rename_i h hi
      obtain rfl := Option.some.inj hstep
      exact hs.giveUp hi (.inr rfl)
    · cases hstep
  | machine file services =>
    obtain rfl := Option.some.inj hstep
    exact ⟨hs.same, hs.pinned, hs.lookups, hs.calls, hs.resolved, hs.owned, hs.kept⟩
  | registered _ _ | probed _ _ | looked _ _ | terminate _ | spawn _ _ | ready _ =>
    exact hs.move hstep

end Client

/-- **In every run of a process in which a call commits only when no other lookup is past the
check, and to what the others have committed to, and none clears the variable while one is going
on, the lookups for every call return what it committed to, and no head that one committed to is
terminated.** -/
theorem kept_of_apart {s : Client} (hs : sys.Reachable Client.Apart s) : s.Kept := by
  have hsafe : s.Safe := by
    refine System.Invariant.reachable (P := Client.Safe) ⟨?_, ?_⟩ hs
    · rintro _ ⟨remote, file, services, rfl⟩
      exact Client.safe_new
    · exact fun _ _ _ hsafe happart hstep => hsafe.step hstep happart
  exact hsafe.kept

/-- A process on a machine whose head serves. -/
def serving : Client :=
  .new none (some ⟨5001, some 0⟩) [⟨5001, .serving, [], false, false⟩]

/-- A call finds the head of the machine. -/
def acquires (i : ℕ) : List Event :=
  [.call false, .registered (.call i) none, .probed (.call i) true, .pin i]

/-- A call looks its cluster up once. -/
def oneCall : List Event := acquires 0 ++ [.lookup 0, .finish 0, .unpin 0 false]

theorem kept_of_apart_oneCall : ((sys.exec serving oneCall).get (by decide +kernel)).Kept := by
  refine kept_of_apart ⟨serving, oneCall, ⟨_, _, _, rfl⟩, ?_⟩
  have hpin : Client.Apart ((sys.exec serving ((acquires 0).take 3)).get (by decide +kernel))
      (.pin 0) := by
    intro h background hi
    refine ⟨?_, nofun, nofun⟩
    rintro (_ | j) background stage hj
    · cases hj
      exact id
    · cases hj
  have hunpin : Client.Apart ((sys.exec serving (oneCall.take 6)).get (by decide +kernel))
      (.unpin 0 false) := by
    intro h hi
    refine .inl ⟨rfl, ?_⟩
    rintro (_ | j) c hne hj
    · exact absurd rfl hne
    · cases hj
  exact .cons rfl trivial (.cons rfl trivial (.cons rfl trivial (.cons rfl hpin
    (.cons rfl trivial (.cons rfl trivial (.cons rfl hunpin .nil))))))

/-- Two calls at once; the first ends, and a lookup for the second one finds no cluster in time. -/
def overlapping : List Event :=
  acquires 0 ++ [.call false, .pin 1, .unpin 0 false, .lookup 1, .registered (.lookup 0) none,
    .probed (.lookup 0) false, .looked (.lookup 0) false, .terminate (.lookup 0),
    .spawn (.lookup 0) 5002, .ready (.lookup 0), .finish 0]

/-- The head that the second call has committed to is terminated, and another one is returned. -/
theorem lookup_terminates_head : ∃ s : Client, sys.Reachable System.always s ∧
    s.calls[1]? = some (.running ⟨5001, none, false⟩) ∧ s.terminated = [5001] ∧
      s.answers = [(5001, 5002)] ∧ ¬s.Kept := by
  refine ⟨(sys.exec serving overlapping).get (by decide +kernel),
    System.Reachable.exec ⟨_, [], ⟨_, _, _, rfl⟩, .nil⟩ (Option.some_get _).symm, rfl, rfl, rfl,
    fun h => ?_⟩
  exact absurd h.2 (List.cons_ne_nil _ _)

end Burla.Head.Pin
