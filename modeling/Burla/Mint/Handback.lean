/-
Slots that are handed back after a rollback.

`push_node_state` takes what the controller has booked for a node out of `pending_sheds` while
it builds the response, and nothing puts it back when the response is lost; and the node takes
no more off its target than it has there.  Beside the link between the head and the node
a log is kept of what the head has booked for the node and of what the node has taken off
its target.  Where no response with slots is lost and the node has the slots that it is to
give back, the two agree but for what is still to come (`handed_back_once`);
`shed_lost_with_response` is the run with a lost response.
-/
import Burla.Mint.Rollback

namespace Burla.Mint

open JobController Slots

variable {ν : Type*} [DecidableEq ν]

/-- An entry of the log. -/
inductive ShedNote
  /-- Slots put into `pending_sheds` for the node. -/
  | booked (slots : ℤ)
  /-- Slots taken off the node's target. -/
  | applied (slots : ℤ)
  deriving DecidableEq, Repr

def ShedNote.bookedSlots : ShedNote → ℤ
  | .booked slots => slots
  | .applied _ => 0

def ShedNote.appliedSlots : ShedNote → ℤ
  | .booked _ => 0
  | .applied slots => slots

/-- All slots booked for the node. -/
def booked (log : List ShedNote) : ℤ := (log.map ShedNote.bookedSlots).sum

/-- All slots that the node has given back. -/
def applied (log : List ShedNote) : ℤ := (log.map ShedNote.appliedSlots).sum

/-- What a step adds to the log. -/
def noteShed (me : ν) (s : Link ν) (a : LinkEvent ν) (t : Link ν) : List ShedNote :=
  match a with
  | .tick .. => [.booked (t.head.pendingSheds.count me - s.head.pendingSheds.count me)]
  | .pushArrives _ => [.applied (s.node.targetParallelism - t.node.targetParallelism)]
  | _ => []

/-- The link with its log. -/
def handback (m : MathFns) (me : ν) (workerCount : ℕ) :
    System (Link ν × List ShedNote) (LinkEvent ν) :=
  (link m me workerCount).logged (noteShed me)

/-- No response with slots is lost, and the node has the slots that one takes back. -/
def Delivers (s : Link ν) : LinkEvent ν → Prop
  | .pushLost i => ∀ shed ∈ s.shedReplies[i]?, shed = 0
  | .pushArrives i => ∀ shed ∈ s.shedReplies[i]?, shed = 0 ∨ shed ≤ s.node.targetParallelism
  | _ => True

instance (s : Link ν) : (a : LinkEvent ν) → Decidable (Delivers s a)
  | .pushLost i => inferInstanceAs (Decidable (∀ shed ∈ s.shedReplies[i]?, shed = 0))
  | .pushArrives i =>
    inferInstanceAs (Decidable (∀ shed ∈ s.shedReplies[i]?,
      shed = 0 ∨ shed ≤ s.node.targetParallelism))
  | .mint .. | .otherMint .. | .mintArrives _ | .mintLost _ | .push | .otherPush _ | .tick .. =>
    .isTrue trivial

/-! ### One step -/

section Step

variable {m : MathFns} {me : ν} {s t : Link ν} {a : LinkEvent ν}

/-- A node that has the slots gives them back. -/
lemma target_applyShed {c : Counters} {shed : ℤ} (h : shed = 0 ∨ shed ≤ c.targetParallelism) :
    c.targetParallelism - (c.applyShed shed).targetParallelism = shed := by
  rcases h with rfl | h
  · simp [Counters.applyShed]
  · unfold Counters.applyShed
    split_ifs
    · dsimp only
      omega
    · omega

/-- Grants book no sheds. -/
lemma outstanding_granted (m : MathFns) (me : ν) (s : Link ν) (now : ℚ) (n : ν) (k : ℤ) :
    (s.granted me (s.head.grant m now n k).2).outstanding me = s.outstanding me := by
  obtain ⟨openings, hgranted, -⟩ := s.granted_eq me (s.head.grant m now n k).2
  rw [hgranted]
  have hpending : (s.head.grant m now n k).2.pendingSheds = s.head.pendingSheds := by
    have hgrant := grant_outcome m s.head now n k
    generalize s.head.grant m now n k = q at hgrant
    cases hgrant <;> rfl
  simp only [Link.outstanding, hpending]

/-- A step that delivers moves slots along: from the book to the response, and from there to
what the node has given back. -/
lemma outstanding_step (hok : Delivers s a) (hstep : linkStep m me s a = some t) :
    applied (noteShed me s a t) + t.outstanding me =
      booked (noteShed me s a t) + s.outstanding me := by
  cases a with
  | mint now k =>
    simp only [linkStep, Option.ite_none_left_eq_some, Option.some.injEq] at hstep
    obtain ⟨-, rfl⟩ := hstep
    simp only [noteShed, booked, applied, List.map_nil, List.sum_nil, zero_add]
    exact outstanding_granted m me s now me k
  | otherMint now n k =>
    simp only [linkStep, Option.ite_none_left_eq_some, Option.some.injEq] at hstep
    obtain ⟨-, rfl⟩ := hstep
    simp only [noteShed, booked, applied, List.map_nil, List.sum_nil, zero_add]
    exact outstanding_granted m me s now n k
  | mintArrives i =>
    simp only [linkStep] at hstep
    split at hstep
    · cases hstep
    · obtain rfl := Option.some.inj hstep
      rename_i r rest htake
      have hsettle : (s.settle r).head = s.head ∧ (s.settle r).shedReplies = s.shedReplies := by
        unfold Link.settle
        split <;> exact ⟨rfl, rfl⟩
      simp [noteShed, booked, applied, Link.outstanding, hsettle]
  | mintLost i =>
    simp only [linkStep] at hstep
    split at hstep
    · cases hstep
    · obtain rfl := Option.some.inj hstep
      simp [noteShed, booked, applied, Link.outstanding]
  | push =>
    obtain rfl := Option.some.inj hstep
    simp [noteShed, booked, applied, Link.outstanding, takeShed, Tally.count_remove]
  | otherPush n =>
    simp only [linkStep, Option.ite_none_left_eq_some, Option.some.injEq] at hstep
    obtain ⟨hn, rfl⟩ := hstep
    simp [noteShed, booked, applied, Link.outstanding, takeShed, Tally.count_remove, Ne.symm hn]
  | pushArrives i =>
    simp only [linkStep] at hstep
    split at hstep
    · cases hstep
    · rename_i shed rest htake
      obtain rfl := Option.some.inj hstep
      have htarget := target_applyShed (hok shed (getElem?_of_takeAt htake))
      have hsum := sum_takeAt htake
      simp only [noteShed, booked, applied, Link.outstanding, List.map_singleton,
        List.sum_singleton, ShedNote.bookedSlots, ShedNote.appliedSlots, htarget, hsum]
      omega
  | pushLost i =>
    simp only [linkStep] at hstep
    split at hstep
    · cases hstep
    · rename_i shed rest htake
      obtain rfl := Option.some.inj hstep
      have hzero := hok shed (getElem?_of_takeAt htake)
      have hsum := sum_takeAt htake
      simp only [noteShed, booked, applied, Link.outstanding, List.map_nil, List.sum_nil, hsum,
        hzero]
      omega
  | tick now later total workers busy =>
    have hreplies : t.shedReplies = s.shedReplies := by
      simp only [linkStep] at hstep
      split_ifs at hstep <;> obtain rfl := Option.some.inj hstep <;> rfl
    simp only [noteShed, booked, applied, Link.outstanding, hreplies, List.map_singleton,
      List.sum_singleton, ShedNote.bookedSlots, ShedNote.appliedSlots]
    omega

end Step

/-! ### Main result -/

section Main

variable {m : MathFns} {me : ν} {workerCount : ℕ} {p : Link ν × List ShedNote}

/-- **Slots are handed back exactly once** where every response with slots reaches a node that
has them: what the node has given back is what was booked for it, less what is pending at the
head or on its way, and it is never more. -/
theorem handed_back_once
    (h : (handback m me workerCount).Reachable (fun p a => Delivers p.1 a) p) :
    applied p.2 = booked p.2 - p.1.outstanding me ∧ 0 ≤ p.1.outstanding me := by
  have hcov : (handback m me workerCount).Invariant (fun p a => Delivers p.1 a)
      fun p => Covered me p.1 :=
    ⟨fun _ hs => .init hs.1, fun _ _ _ hs _ hstep =>
      hs.step (System.logged_step_eq_some.1 hstep).1⟩
  have hinv : (handback m me workerCount).Invariant (fun p a => Delivers p.1 a)
      fun p => applied p.2 + p.1.outstanding me = booked p.2 := by
    constructor
    · rintro ⟨s, log⟩ ⟨⟨target, hs⟩, hlog⟩
      obtain rfl : log = [] := hlog
      obtain rfl : s = _ := hs
      simp [applied, booked, Link.outstanding, JobController.new]
    · intro p a q hp hok hstep
      obtain ⟨hmove, hlog⟩ := System.logged_step_eq_some.1 hstep
      have hout := outstanding_step hok hmove
      rw [hlog]
      simp only [applied, booked, List.map_append, List.sum_append] at hp hout ⊢
      omega
  have hbooks := hinv.reachable h
  have hc := hcov.reachable h
  refine ⟨by omega, ?_⟩
  have hreplies := List.sum_nonneg hc.sheds
  have hpending := hc.pending
  simp only [Link.outstanding]
  omega

end Main

/-! ### Two runs -/

/-- The epoch that gave a node four slots is rolled back; `response` is what happens to the
response with the shed. -/
def shedRun (response : LinkEvent String) : List (LinkEvent String) :=
  (List.range 10).map (fun i : ℕ => .tick (15 * (i : ℚ)) (15 * (i : ℚ)) 0 10 10) ++
    [.mint 136 4, .mintArrives 0, .tick 300 300 0 10 10, .push, response]

/-- The response arrives. -/
def handedBack : Link String × List ShedNote :=
  (((handback .series "a" 10).guarded fun p a => Delivers p.1 a).exec (tenSlots, [])
    (shedRun (.pushArrives 0))).get (by decide +kernel)

theorem handed_back_once_handedBack :
    applied handedBack.2 = booked handedBack.2 - handedBack.1.outstanding "a" ∧
      applied handedBack.2 = 4 := by
  have hrun : (handback .series "a" 10).Run (fun p a => Delivers p.1 a) (tenSlots, [])
      (shedRun (.pushArrives 0)) handedBack :=
    System.run_of_exec_guarded (Option.some_get _).symm
  exact ⟨(handed_back_once ⟨(tenSlots, []), _, ⟨⟨10, rfl⟩, rfl⟩, hrun⟩).1, by decide +kernel⟩

/-- The response is lost. -/
def shedLost : Link String × List ShedNote :=
  (((handback .series "a" 10).guarded System.always).exec (tenSlots, [])
    (shedRun (.pushLost 0))).get (by decide +kernel)

theorem shed_lost_with_response :
    ¬ ∀ (m : MathFns) (me : String) (workerCount : ℕ) (p : Link String × List ShedNote),
      (handback m me workerCount).Reachable System.always p → p.1.AllApplied me →
      applied p.2 = booked p.2 := by
  intro h
  have hrun : (handback .series "a" 10).Run System.always (tenSlots, [])
      (shedRun (.pushLost 0)) shedLost :=
    System.run_of_exec_guarded (Option.some_get _).symm
  have hsame := h .series "a" 10 shedLost ⟨(tenSlots, []), _, ⟨⟨10, rfl⟩, rfl⟩, hrun⟩
    ⟨by decide +kernel, by decide +kernel⟩
  revert hsame
  decide +kernel

end Burla.Mint
