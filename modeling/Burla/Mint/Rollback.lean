/-
Mint rollbacks between the head and one node.

The head books a grant when it serves the mint request, and books a shed when a verdict
takes the epoch back; the node learns of either only from a response, which may be lost.
`Link` is the head's controller, the node's counters and the responses in flight, with a
few ghosts: for each response the fate of the epoch it was granted in, and for each epoch
the node's target when it opened.

A response that granted slots and does not reach the node leaves them in the head's book.
If the epoch is rolled back they are shed all the same, and the node gives up slots it
had before the epoch (`rollback_takes_more`).  This is all that can go wrong: the node
never falls further below than by the slots of rolled-back epochs that did not reach it
(`rollback_covered`).
-/
import Burla.Lib.Messages
import Burla.Lib.System
import Burla.Mint.History
import Burla.Slots.Counters

namespace Burla.Mint

open JobController Slots

variable {ν : Type*}

/-! ### The system -/

/-- What became of an epoch. -/
inductive Fate
  | open_
  | rolledBack
  | kept
  deriving DecidableEq, Repr

/-- An epoch, as the node saw it open. -/
structure Opening where
  /-- The node's target when the epoch opened. -/
  target : ℤ
  /-- Slots of earlier epochs that were at that time still to be given back. -/
  outstanding : ℤ
  fate : Fate
  deriving DecidableEq, Repr

/-- The head's controller, one node on the job, and what is in flight between them. -/
structure Link (ν : Type*) where
  head : JobController ν
  node : Counters
  /-- Responses to mint requests: the slots granted, and the fate of their epoch. -/
  mintReplies : List (Fate × ℤ)
  /-- Responses to state pushes: the slots to give back. -/
  shedReplies : List ℤ
  /-- Slots the open epoch granted to the node whose response has not arrived. -/
  unreceived : ℤ
  /-- Slots that rolled-back epochs granted to the node whose response has not arrived. -/
  owed : ℤ
  /-- The epochs, newest first. -/
  openings : List Opening

/-- What can happen next. -/
inductive LinkEvent (ν : Type*)
  /-- The head serves a mint request of the node, or of another one. -/
  | mint (now : ℚ) (slotsRequested : ℤ)
  | otherMint (now : ℚ) (instanceName : ν) (slotsRequested : ℤ)
  | mintArrives (i : ℕ)
  | mintLost (i : ℕ)
  /-- The head serves a state push of the node, or of another one. -/
  | push
  | otherPush (instanceName : ν)
  | pushArrives (i : ℕ)
  | pushLost (i : ℕ)
  | tick (now later : ℚ) (totalResults workerCount busyCount : ℕ)

/-- The epoch closed between two states of the controller: were its grants moved? -/
def fateOf [DecidableEq ν] (head head' : JobController ν) : Fate :=
  if head'.pendingSheds.entries = head.pendingSheds.entries then .kept else .rolledBack

namespace Link

variable [DecidableEq ν]

/-- Slots booked for shedding from the node that it has not given back yet. -/
def outstanding (s : Link ν) (me : ν) : ℤ :=
  s.head.pendingSheds.count me + s.shedReplies.sum

/-- The head after a grant, with the opening of an epoch noted. -/
def granted (s : Link ν) (me : ν) (head' : JobController ν) : Link ν :=
  if s.head.epoch.isNone && head'.epoch.isSome then
    { s with
      head := head'
      openings := { target := s.node.targetParallelism, outstanding := s.outstanding me
                    fate := .open_ } :: s.openings }
  else { s with head := head' }

/-- The fate of the open epoch is decided: responses and openings learn of it. -/
def decided (s : Link ν) (fate : Fate) : Link ν :=
  { s with
    mintReplies := s.mintReplies.map fun r => if r.1 = .open_ then (fate, r.2) else r
    unreceived := 0
    owed := if fate = .rolledBack then s.owed + s.unreceived else s.owed
    openings := s.openings.map fun o => if o.fate = .open_ then { o with fate } else o }

/-- A response to a mint request leaves the network. -/
def settle (s : Link ν) (r : Fate × ℤ) : Link ν :=
  match r.1 with
  | .open_ => { s with unreceived := s.unreceived - r.2 }
  | .rolledBack => { s with owed := s.owed - r.2 }
  | .kept => s

end Link

section System

variable [DecidableEq ν] (m : MathFns) (me : ν)

/-- One step.  The endpoint refuses requests for no slots. -/
def linkStep (s : Link ν) : LinkEvent ν → Option (Link ν)
  | .mint now slotsRequested =>
    if slotsRequested ≤ 0 then none
    else
      let p := s.head.grant m now me slotsRequested
      some
        { s.granted me p.2 with
          mintReplies := (.open_, p.1) :: s.mintReplies
          unreceived := s.unreceived + p.1 }
  | .otherMint now instanceName slotsRequested =>
    if slotsRequested ≤ 0 ∨ instanceName = me then none
    else some (s.granted me (s.head.grant m now instanceName slotsRequested).2)
  | .mintArrives i =>
    match takeAt s.mintReplies i with
    | none => none
    | some (r, rest) =>
      some { s.settle r with node := s.node.addMinted r.2, mintReplies := rest }
  | .mintLost i =>
    match takeAt s.mintReplies i with
    | none => none
    | some (_, rest) => some { s with mintReplies := rest }
  | .push =>
    let p := s.head.takeShed me
    some { s with head := p.2, shedReplies := p.1 :: s.shedReplies }
  | .otherPush instanceName =>
    if instanceName = me then none
    else some { s with head := (s.head.takeShed instanceName).2 }
  | .pushArrives i =>
    match takeAt s.shedReplies i with
    | none => none
    | some (shed, rest) => some { s with node := s.node.applyShed shed, shedReplies := rest }
  | .pushLost i =>
    match takeAt s.shedReplies i with
    | none => none
    | some (_, rest) => some { s with shedReplies := rest }
  | .tick now later totalResults workerCount busyCount =>
    let head' := (s.head.tick m now later totalResults workerCount busyCount).2
    if s.head.epoch.isSome && head'.epoch.isNone then
      some { s.decided (fateOf s.head head') with head := head' }
    else some { s with head := head' }

/-- The head and the node from when the controller starts. -/
def link (workerCount : ℕ) : System (Link ν) (LinkEvent ν) where
  init s := ∃ target : ℤ, s =
    { head := .new workerCount
      node := { targetParallelism := target, shedSlotsPending := 0 }
      mintReplies := [], shedReplies := [], unreceived := 0, owed := 0, openings := [] }
  step := linkStep m me

end System

/-! ### The invariant -/

section Invariant

variable [DecidableEq ν] {me : ν}

/-- The node's target less everything that the epochs so far may still take from it: the
sheds to come, and what the open epoch has given it. -/
def Link.level (s : Link ν) (me : ν) : ℤ :=
  s.node.targetParallelism - s.outstanding me -
    (s.head.epochGrants.count me - s.unreceived) + s.owed

/-- The level never falls below where an epoch found it, and the books are not negative. -/
structure Covered (me : ν) (s : Link ν) : Prop where
  idle : s.head.epoch = none → s.head.epochGrants.count me = 0 ∧ s.unreceived = 0
  received : s.unreceived ≤ s.head.epochGrants.count me
  pending : 0 ≤ s.head.pendingSheds.count me
  mints : ∀ r ∈ s.mintReplies, 0 ≤ r.2
  sheds : ∀ shed ∈ s.shedReplies, 0 ≤ shed
  /-- What is on its way is among what has not arrived. -/
  unreceived : slotsOf .open_ s.mintReplies ≤ s.unreceived
  owed : slotsOf .rolledBack s.mintReplies ≤ s.owed
  funded : ∀ o ∈ s.openings, o.target - o.outstanding ≤ s.level me

lemma Covered.unreceived_nonneg {s : Link ν} (h : Covered me s) : 0 ≤ s.unreceived :=
  (slotsOf_nonneg _ h.mints).trans h.unreceived

lemma Covered.owed_nonneg {s : Link ν} (h : Covered me s) : 0 ≤ s.owed :=
  (slotsOf_nonneg _ h.mints).trans h.owed

omit [DecidableEq ν] in
lemma slotsOf_takeAt {replies rest : List (Fate × ℤ)} {i : ℕ} {r : Fate × ℤ}
    (h : takeAt replies i = some (r, rest)) (fate : Fate) :
    slotsOf fate replies = (if r.1 = fate then r.2 else 0) + slotsOf fate rest := by
  have hperm := (takeAt_perm h).map fun t => if t.1 = fate then t.2 else 0
  simpa [slotsOf] using hperm.sum_eq

/-- Noting an opening changes nothing else, and the new opening finds the level as it is. -/
lemma Link.granted_eq (s : Link ν) (me : ν) (head' : JobController ν) :
    ∃ openings, s.granted me head' = { s with head := head', openings := openings } ∧
      (openings = s.openings ∨ s.head.epoch = none ∧
        openings = { target := s.node.targetParallelism, outstanding := s.outstanding me
                     fate := .open_ } :: s.openings) := by
  unfold Link.granted
  split_ifs with hopen
  · simp only [Bool.and_eq_true, Option.isNone_iff_eq_none] at hopen
    exact ⟨_, rfl, Or.inr ⟨hopen.1, rfl⟩⟩
  · exact ⟨_, rfl, Or.inl rfl⟩

/-- The head serves a mint request, the node's own or another's. -/
lemma Covered.granted {m : MathFns} {s t : Link ν} {now : ℚ} {n : ν} {k : ℤ}
    {p : ℤ × JobController ν} (h : Covered me s) (hk : 0 < k)
    (hp : s.head.grant m now n k = p)
    (ht : t =
      { s.granted me p.2 with
        mintReplies := if me = n then (.open_, p.1) :: s.mintReplies else s.mintReplies
        unreceived := s.unreceived + if me = n then p.1 else 0 }) : Covered me t := by
  obtain ⟨hnonneg, hpending, hgrants, hnone⟩ :=
    grant_books m s.head now n me hk (fun hnone => (h.idle hnone).1) hp
  obtain ⟨openings, hgranted, hopenings⟩ := s.granted_eq me p.2
  have hlevel : t.level me = s.level me := by
    simp only [ht, hgranted, Link.level, Link.outstanding, hpending, hgrants]
    omega
  rw [hgranted] at ht
  subst ht
  refine ⟨fun hepoch => ?_, ?_, ?_, ?_, h.sheds, ?_, ?_, ?_⟩
  · obtain ⟨hepoch, hzero⟩ := hnone hepoch
    obtain ⟨hcount, hun⟩ := h.idle hepoch
    simp only [hgrants, hcount, hun, hzero, ite_self]
    exact ⟨rfl, rfl⟩
  · have hreceived := h.received
    simp only [hgrants]
    omega
  · simpa [hpending] using h.pending
  · intro r hr
    dsimp only at hr
    split_ifs at hr
    · rcases List.mem_cons.1 hr with rfl | hr
      · exact hnonneg
      · exact h.mints r hr
    · exact h.mints r hr
  · have hun := h.unreceived
    dsimp only
    split_ifs
    · simpa [slotsOf, add_comm] using hun
    · simpa using hun
  · have howed := h.owed
    dsimp only
    split_ifs
    · simpa [slotsOf] using howed
    · exact howed
  · rw [hlevel]
    rcases hopenings with rfl | ⟨hepoch, rfl⟩
    · exact h.funded
    · refine List.forall_mem_cons.2 ⟨?_, h.funded⟩
      obtain ⟨hcount, hun⟩ := h.idle hepoch
      have howed := h.owed_nonneg
      simp only [Link.level, hcount, hun]
      omega

/-- A response to a mint request arrives. -/
lemma Covered.mintArrives {s : Link ν} {i : ℕ} {r : Fate × ℤ} {rest : List (Fate × ℤ)}
    (h : Covered me s) (htake : takeAt s.mintReplies i = some (r, rest)) :
    Covered me { s.settle r with node := s.node.addMinted r.2, mintReplies := rest } := by
  obtain ⟨fate, k⟩ := r
  have hk : 0 ≤ k := h.mints _ (mem_of_takeAt htake)
  have hmints : ∀ r ∈ rest, 0 ≤ r.2 := fun r hr => h.mints r (mem_of_mem_rest htake hr)
  have hrest := slotsOf_nonneg Fate.open_ hmints
  have htarget := s.node.target_addMinted hk
  have hun := h.unreceived
  have howed := h.owed
  have hreceived := h.received
  rw [slotsOf_takeAt htake] at hun howed
  cases fate with
  | open_ =>
    simp only [reduceIte, reduceCtorEq, zero_add] at hun howed
    refine ⟨fun hepoch => ?_, ?_, h.pending, hmints, h.sheds, ?_, howed, fun o ho => ?_⟩
    · obtain ⟨hcount, hzero⟩ := h.idle hepoch
      refine ⟨hcount, ?_⟩
      simp only [Link.settle]
      omega
    · simp only [Link.settle]
      omega
    · simp only [Link.settle]
      omega
    · have hold := h.funded o ho
      simp only [Link.level, Link.outstanding, Link.settle, htarget] at hold ⊢
      omega
  | rolledBack =>
    simp only [reduceIte, reduceCtorEq, zero_add] at hun howed
    refine ⟨h.idle, h.received, h.pending, hmints, h.sheds, hun, ?_, fun o ho => ?_⟩
    · simp only [Link.settle]
      omega
    · have hold := h.funded o ho
      simp only [Link.level, Link.outstanding, Link.settle, htarget] at hold ⊢
      omega
  | kept =>
    simp only [reduceIte, reduceCtorEq, zero_add] at hun howed
    refine ⟨h.idle, h.received, h.pending, hmints, h.sheds, hun, howed, fun o ho => ?_⟩
    have hold := h.funded o ho
    simp only [Link.level, Link.outstanding, Link.settle, htarget] at hold ⊢
    omega

/-- A response to a mint request is lost. -/
lemma Covered.mintLost {s : Link ν} {i : ℕ} {r : Fate × ℤ} {rest : List (Fate × ℤ)}
    (h : Covered me s) (htake : takeAt s.mintReplies i = some (r, rest)) :
    Covered me { s with mintReplies := rest } := by
  have hk : 0 ≤ r.2 := h.mints _ (mem_of_takeAt htake)
  have hle : ∀ fate, slotsOf fate rest ≤ slotsOf fate s.mintReplies := by
    intro fate
    rw [slotsOf_takeAt htake fate]
    split_ifs <;> omega
  exact { h with
    mints := fun r hr => h.mints r (mem_of_mem_rest htake hr)
    unreceived := (hle _).trans h.unreceived
    owed := (hle _).trans h.owed }

/-- The head serves a state push of the node: pending slots go on their way. -/
lemma Covered.push {s : Link ν} (h : Covered me s) :
    Covered me
      { s with
        head := (s.head.takeShed me).2
        shedReplies := (s.head.takeShed me).1 :: s.shedReplies } := by
  have hleft : (s.head.takeShed me).2.pendingSheds.count me = 0 := by
    simp [takeShed, Tally.count_remove]
  refine { h with pending := hleft.ge, sheds := ?_, funded := fun o ho => ?_ }
  · exact List.forall_mem_cons.2 ⟨h.pending, h.sheds⟩
  · have hold := h.funded o ho
    simp only [Link.level, Link.outstanding, hleft, List.sum_cons] at hold ⊢
    simp only [takeShed] at hold ⊢
    omega

/-- The head serves a state push of another node. -/
lemma Covered.otherPush {s : Link ν} {n : ν} (h : Covered me s) (hn : n ≠ me) :
    Covered me { s with head := (s.head.takeShed n).2 } := by
  have hsame : (s.head.takeShed n).2.pendingSheds.count me = s.head.pendingSheds.count me := by
    simp [takeShed, Tally.count_remove, Ne.symm hn]
  refine { h with pending := hsame.symm ▸ h.pending, funded := fun o ho => ?_ }
  have hold := h.funded o ho
  simp only [Link.level, Link.outstanding, hsame] at hold ⊢
  exact hold

/-- A response to a state push arrives. -/
lemma Covered.pushArrives {s : Link ν} {i : ℕ} {shed : ℤ} {rest : List ℤ}
    (h : Covered me s) (htake : takeAt s.shedReplies i = some (shed, rest)) :
    Covered me { s with node := s.node.applyShed shed, shedReplies := rest } := by
  have htarget := s.node.le_target_applyShed shed
  have hsum := sum_takeAt htake
  refine { h with
    sheds := fun shed' hs => h.sheds shed' (mem_of_mem_rest htake hs)
    funded := fun o ho => ?_ }
  have hold := h.funded o ho
  simp only [Link.level, Link.outstanding] at hold ⊢
  omega

/-- A response to a state push is lost. -/
lemma Covered.pushLost {s : Link ν} {i : ℕ} {shed : ℤ} {rest : List ℤ}
    (h : Covered me s) (htake : takeAt s.shedReplies i = some (shed, rest)) :
    Covered me { s with shedReplies := rest } := by
  have hshed := h.sheds shed (mem_of_takeAt htake)
  have hsum := sum_takeAt htake
  refine { h with
    sheds := fun shed' hs => h.sheds shed' (mem_of_mem_rest htake hs)
    funded := fun o ho => ?_ }
  have hold := h.funded o ho
  simp only [Link.level, Link.outstanding] at hold ⊢
  omega

omit [DecidableEq ν] in
lemma slotsOf_decided {fate : Fate} (hfate : fate ≠ .open_) (replies : List (Fate × ℤ)) :
    slotsOf .open_ (replies.map fun r => if r.1 = .open_ then (fate, r.2) else r) = 0 ∧
      slotsOf .rolledBack (replies.map fun r => if r.1 = .open_ then (fate, r.2) else r) =
        slotsOf .rolledBack replies +
          if fate = .rolledBack then slotsOf .open_ replies else 0 := by
  induction replies with
  | nil => simp
  | cons r replies ih =>
    obtain ⟨hopen, hback⟩ := ih
    simp only [slotsOf, List.map_cons, List.sum_cons] at hopen hback ⊢
    rw [hopen, hback]
    obtain ⟨f, k⟩ := r
    cases f <;> cases fate <;> simp_all <;> omega

/-- The open epoch is closed, its grants moved to `pending_sheds` or not. -/
lemma Covered.decided {s : Link ν} {head' : JobController ν} {fate : Fate}
    (h : Covered me s) (hfate : fate ≠ .open_) (hgrants : head'.epochGrants = ∅)
    (hpending : head'.pendingSheds.count me = s.head.pendingSheds.count me +
      if fate = .rolledBack then s.head.epochGrants.count me else 0) :
    Covered me { s.decided fate with head := head' } := by
  obtain ⟨hopen, hback⟩ := slotsOf_decided hfate s.mintReplies
  have hreceived := h.received
  have hun := h.unreceived
  have hnonneg := h.unreceived_nonneg
  have howed := h.owed
  have hpend := h.pending
  refine ⟨fun _ => ⟨by simp [hgrants], rfl⟩, by simp [hgrants, Link.decided], ?_, ?_, h.sheds,
    hopen.le, ?_, ?_⟩
  · simp only [hpending]
    split_ifs <;> omega
  · intro r hr
    obtain ⟨r', hr', rfl⟩ := List.mem_map.1 hr
    have hk := h.mints r' hr'
    split_ifs <;> exact hk
  · simp only [Link.decided, hback]
    split_ifs <;> omega
  · intro o ho
    obtain ⟨o', ho', rfl⟩ := List.mem_map.1 ho
    have hold := h.funded o' ho'
    have hsame : ∀ o : Opening, (if o.fate = .open_ then { o with fate } else o).target = o.target ∧
        (if o.fate = .open_ then { o with fate } else o).outstanding = o.outstanding := by
      intro o
      split_ifs <;> exact ⟨rfl, rfl⟩
    rw [(hsame o').1, (hsame o').2]
    simp only [Link.level, Link.outstanding, Link.decided, hpending, hgrants,
      Tally.count_empty] at hold ⊢
    split_ifs <;> omega

/-- A tick of the controller. -/
lemma Covered.tick {m : MathFns} {s t : Link ν} {now later : ℚ} {total workers busy : ℕ}
    (h : Covered me s) (hstep : linkStep m me s (.tick now later total workers busy) = some t) :
    Covered me t := by
  have hbooks := tick_books m s.head now later total workers busy rfl
  simp only [linkStep] at hstep
  generalize (s.head.tick m now later total workers busy).2 = head' at hbooks hstep
  rcases hbooks with ⟨hepoch, hgrants, hpending⟩ | ⟨hsome, hnone, hgrants, hpending⟩
  · have hopen : (s.head.epoch.isSome && head'.epoch.isNone) = false := by
      cases hh : head'.epoch <;> simp_all
    rw [hopen] at hstep
    obtain rfl := Option.some.inj hstep
    refine ⟨fun hnone => ?_, by simpa [hgrants] using h.received,
      by simpa [hpending] using h.pending, h.mints, h.sheds, h.unreceived, h.owed, ?_⟩
    · have hidle : s.head.epoch = none := by
        cases hh : s.head.epoch <;> simp_all
      simpa [hgrants] using h.idle hidle
    · simpa [Link.level, Link.outstanding, hgrants, hpending] using h.funded
  · rw [hsome, hnone] at hstep
    obtain rfl := Option.some.inj hstep
    refine h.decided ?_ hgrants ?_
    · unfold fateOf
      split_ifs <;> simp
    · by_cases hsame : head'.pendingSheds.entries = s.head.pendingSheds.entries
      · simp [fateOf, AList.ext hsame]
      · have hfate : fateOf s.head head' = .rolledBack := if_neg hsame
        have hmoved := hpending.resolve_left fun heq => hsame (congrArg AList.entries heq)
        rw [hfate, hmoved]
        simp

/-- Every step keeps the level covered. -/
lemma Covered.step {m : MathFns} {s t : Link ν} {a : LinkEvent ν} (h : Covered me s)
    (hstep : linkStep m me s a = some t) : Covered me t := by
  cases a with
  | mint now k =>
    simp only [linkStep] at hstep
    split_ifs at hstep with hk
    have hp : s.head.grant m now me k = s.head.grant m now me k := rfl
    exact h.granted (not_le.1 hk) hp (by simpa using (Option.some.inj hstep).symm)
  | otherMint now n k =>
    simp only [linkStep] at hstep
    split_ifs at hstep with hk
    obtain ⟨hpos, hn⟩ := not_or.1 hk
    have hp : s.head.grant m now n k = s.head.grant m now n k := rfl
    refine h.granted (not_le.1 hpos) hp ?_
    simp only [if_neg (Ne.symm hn), add_zero]
    rw [← Option.some.inj hstep]
    obtain ⟨openings, hgranted, -⟩ := s.granted_eq me (s.head.grant m now n k).2
    rw [hgranted]
  | mintArrives i =>
    simp only [linkStep] at hstep
    split at hstep
    · exact absurd hstep (by simp)
    · rename_i r rest htake
      exact Option.some.inj hstep ▸ h.mintArrives htake
  | mintLost i =>
    simp only [linkStep] at hstep
    split at hstep
    · exact absurd hstep (by simp)
    · rename_i r rest htake
      exact Option.some.inj hstep ▸ h.mintLost htake
  | push => exact Option.some.inj hstep ▸ h.push
  | otherPush n =>
    simp only [linkStep] at hstep
    split_ifs at hstep with hn
    exact Option.some.inj hstep ▸ h.otherPush hn
  | pushArrives i =>
    simp only [linkStep] at hstep
    split at hstep
    · exact absurd hstep (by simp)
    · rename_i shed rest htake
      exact Option.some.inj hstep ▸ h.pushArrives htake
  | pushLost i =>
    simp only [linkStep] at hstep
    split at hstep
    · exact absurd hstep (by simp)
    · rename_i shed rest htake
      exact Option.some.inj hstep ▸ h.pushLost htake
  | tick now later total workers busy => exact h.tick hstep

lemma Covered.init {m : MathFns} {workerCount : ℕ} {s : Link ν}
    (h : (link m me workerCount).init s) : Covered me s := by
  obtain ⟨target, rfl⟩ := h
  exact
    { idle := fun _ => ⟨rfl, rfl⟩
      received := le_refl 0
      pending := le_refl 0
      mints := by simp
      sheds := by simp
      unreceived := le_refl 0
      owed := le_refl 0
      funded := by simp }

/-- The node never falls below where an epoch found it by more than the slots of rolled-back
epochs that have not reached it, and the sheds of earlier epochs that were still to come. -/
lemma rollback_covered {m : MathFns} {workerCount : ℕ} {s : Link ν}
    (h : (link m me workerCount).Reachable System.always s) :
    ∀ o ∈ s.openings, o.target ≤
      s.node.targetParallelism - s.outstanding me + s.owed + o.outstanding := by
  have hinv : (link m me workerCount).Invariant System.always (Covered me) :=
    ⟨fun _ hs => .init hs, fun _ _ _ hs _ hstep => hs.step hstep⟩
  have hcov := hinv.reachable h
  intro o ho
  have hfunded := hcov.funded o ho
  have hreceived := hcov.received
  simp only [Link.level] at hfunded
  omega

/-- All sheds booked for the node have been applied (or were lost on the way). -/
def Link.AllApplied (me : ν) (s : Link ν) : Prop :=
  s.head.pendingSheds.count me = 0 ∧ s.shedReplies = []

/-- **A rollback takes back what the epoch gave**, as long as the node has received it.  When
every mint response of a rolled-back epoch that granted the node slots has arrived, and
all sheds are applied, the node's target is at least what it was when the epoch opened
(an epoch that opened while an earlier one was still being taken back found a target
that was about to shrink). -/
theorem rollback_keeps_target {m : MathFns} {workerCount : ℕ} {s : Link ν}
    (h : (link m me workerCount).Reachable System.always s) (howed : s.owed = 0)
    (happlied : s.AllApplied me) :
    ∀ o ∈ s.openings, o.fate = .rolledBack → o.outstanding = 0 →
      o.target ≤ s.node.targetParallelism := by
  intro o ho _ hearlier
  have hcovered := rollback_covered h o ho
  obtain ⟨hpending, hsheds⟩ := happlied
  have hnone : s.outstanding me = 0 := by simp [Link.outstanding, hpending, hsheds]
  omega

end Invariant

/-! ### Two runs -/

/-- A node with ten slots. -/
def tenSlots : Link String where
  head := .new 10
  node := { targetParallelism := 10, shedSlotsPending := 0 }
  mintReplies := []
  shedReplies := []
  unreceived := 0
  owed := 0
  openings := []

/-- The node asks for four slots, and the epoch is reclaimed for lack of growth; `response` is
what happens to the answer. -/
def afterReclaim (response : LinkEvent String) : Option (Link String) :=
  ((link .series "a" 10).guarded System.always).exec tenSlots <|
    (List.range 10).map (fun i : ℕ => .tick (15 * (i : ℚ)) (15 * (i : ℚ)) 0 10 10) ++
      [.mint 136 4, response, .tick 300 300 0 10 10, .push, .pushArrives 0]

lemma reachable_afterReclaim {response : LinkEvent String} {s : Link String}
    (h : afterReclaim response = some s) :
    (link .series "a" 10).Reachable System.always s :=
  ⟨tenSlots, _, ⟨10, rfl⟩, System.run_of_exec_guarded h⟩

/-- With the answer received, the shed takes back the four slots and no more. -/
def receivedRun : Link String := (afterReclaim (.mintArrives 0)).get (by decide +kernel)

theorem rollback_keeps_target_received :
    receivedRun.node.shedSlotsPending = 4 ∧
      ∀ o ∈ receivedRun.openings, o.fate = .rolledBack → o.outstanding = 0 →
        o.target ≤ receivedRun.node.targetParallelism := by
  have hrun : afterReclaim (.mintArrives 0) = some receivedRun := (Option.some_get _).symm
  refine ⟨by decide +kernel, ?_⟩
  exact rollback_keeps_target (reachable_afterReclaim hrun) (by decide +kernel)
    ⟨by decide +kernel, by decide +kernel⟩

/-- With the answer lost, the shed takes four of the ten slots that the node had before. -/
def lostRun : Link String := (afterReclaim (.mintLost 0)).get (by decide +kernel)

theorem rollback_takes_more :
    ¬ ∀ (m : MathFns) (me : String) (workerCount : ℕ) (s : Link String),
      (link m me workerCount).Reachable System.always s → s.AllApplied me →
      ∀ o ∈ s.openings, o.fate = .rolledBack → o.target ≤ s.node.targetParallelism := by
  intro h
  have hrun : afterReclaim (.mintLost 0) = some lostRun := (Option.some_get _).symm
  have hkept := h .series "a" 10 lostRun (reachable_afterReclaim hrun)
    ⟨by decide +kernel, by decide +kernel⟩
  revert hkept
  decide +kernel

end Burla.Mint
