/-
Whether the count of open requests is exact.

* `step_offset`: a step leaves the count as far from the number of open requests as it has been;
  only `REINIT_SELF` puts it away from that number, by the requests that are open then.
* `count_exact_iff`: along a run the count is exact everywhere when no request is open whenever the state
  is reset.
-/
import Burla.Requests.Tracking
import Mathlib.Algebra.Order.Group.Unbundled.Int

namespace Burla.Requests

namespace Node

/-- A request has been marked as done once it is not open any more. -/
def Latched (s : Node) : Prop := ∀ r ∈ s.requests, r.requestDone = !r.isOpen

/-- How far the count is from the number of open requests. -/
def offset (s : Node) : ℤ := s.activeClientRequestCount - s.openRequests

/-- **The count is exact**, and not negative. -/
structure Exact (s : Node) : Prop where
  count : s.activeClientRequestCount = s.openRequests
  nonneg : 0 ≤ s.activeClientRequestCount

lemma exact_iff_offset {s : Node} : s.Exact ↔ s.offset = 0 := by
  rw [offset, sub_eq_zero]
  exact ⟨fun h => h.count, fun h => ⟨h, h ▸ Int.natCast_nonneg _⟩⟩

/-- No request is open when the state is reset. -/
def Quiet (s : Node) (a : Step) : Prop := a.resets = true → s.openRequests = 0

instance (s : Node) (a : Step) : Decidable (s.Quiet a) := inferInstanceAs (Decidable (_ → _))

/-! ### The end of a request -/

section End

variable {s t : Node} {i : ℕ} {f : Request → Request}

/-- Something that ends a request: it is not open afterwards, and its mark stays. -/
structure Ends (f : Request → Request) : Prop where
  isOpen : ∀ r, (f r).isOpen = false
  requestDone : ∀ r, (f r).requestDone = r.requestDone

lemma ends_disconnected : Ends fun r => { r with disconnected := true } where
  isOpen r := by simp [Request.isOpen]
  requestDone _ := rfl

lemma ends_responseSent : Ends fun r => { r with responseSent := true } where
  isOpen r := by simp [Request.isOpen]
  requestDone _ := rfl

lemma ends_ended : Ends fun r => { r with ended := true } where
  isOpen r := by simp [Request.isOpen]
  requestDone _ := rfl

/-- The request that ends, with those before and after it. -/
lemma exists_split (hgoesOn : s.goesOn i = true) :
    ∃ before r after, s.requests = before ++ r :: after ∧ before.length = i := by
  rw [goesOn, Option.any_eq_true] at hgoesOn
  obtain ⟨r, hr, -⟩ := hgoesOn
  obtain ⟨hlt, rfl⟩ := List.getElem?_eq_some_iff.1 hr
  obtain ⟨before, after, hsplit, hlength, -⟩ := @List.exists_of_set _ i s.requests[i] _ hlt
  exact ⟨before, _, after, hsplit, hlength⟩

lemma modify_length (before after : List Request) (r : Request) (f : Request → Request) :
    (before ++ r :: after).modify before.length f = before ++ f r :: after := by
  induction before with
  | nil => rfl
  | cons r' before ih => rw [List.cons_append, List.length_cons, List.modify_succ_cons, ih]; rfl

section Split

variable {before after : List Request} {r : Request}

lemma markRequestDone_of_done (hsplit : s.requests = before ++ r :: after)
    (hdone : r.requestDone = true) : s.markRequestDone before.length = s := by
  have hget : s.requests[before.length]? = some r := by simp [hsplit]
  rw [markRequestDone, hget]
  exact if_pos hdone

lemma markRequestDone_of_not_done (hsplit : s.requests = before ++ r :: after)
    (hdone : r.requestDone = false) :
    s.markRequestDone before.length = { s with
      requests := before ++ { r with requestDone := true } :: after
      activeClientRequestCount := s.activeClientRequestCount - 1
      lastClientActivityTimestamp := s.now } := by
  have hget : s.requests[before.length]? = some r := by simp [hsplit]
  have hset : s.requests.set before.length { r with requestDone := true } =
      before ++ { r with requestDone := true } :: after := by
    simp [hsplit]
  rw [markRequestDone, hget]
  simp only [hdone, hset, Bool.false_eq_true, if_false]

end Split

/-- **The end of a request** is counted once, whether it is the first one or not. -/
lemma offset_end (hlatched : s.Latched) (hends : Ends f) (hgoesOn : s.goesOn i = true) :
    ((s.markRequestDone i).note i f).Latched ∧
      ((s.markRequestDone i).note i f).offset = s.offset := by
  obtain ⟨before, r, after, hsplit, rfl⟩ := exists_split hgoesOn
  have hr : r.requestDone = !r.isOpen := hlatched r (by rw [hsplit]; simp)
  have hothers : ∀ r' ∈ before ++ after, r'.requestDone = !r'.isOpen := by
    intro r' hmem
    refine hlatched r' ?_
    rw [hsplit]
    rcases List.mem_append.1 hmem with hmem | hmem
    · exact List.mem_append_left _ hmem
    · exact List.mem_append_right _ (List.mem_cons_of_mem _ hmem)
  -- The request is left with its mark, and is not open.
  have hlatch : ∀ r', r'.requestDone = true → ∀ r'' ∈ before ++ f r' :: after,
      r''.requestDone = !r''.isOpen := by
    intro r' hdone r'' hmem
    rcases List.mem_append.1 hmem with hmem | hmem
    · exact hothers r'' (List.mem_append_left _ hmem)
    · rcases List.mem_cons.1 hmem with rfl | hmem
      · rw [hends.requestDone, hdone, hends.isOpen]
        rfl
      · exact hothers r'' (List.mem_append_right _ hmem)
  have hcount : ∀ r', (before ++ f r' :: after).countP Request.isOpen =
      before.countP Request.isOpen + after.countP Request.isOpen := by
    intro r'
    rw [List.countP_append, List.countP_cons_of_neg (by rw [hends.isOpen]; decide)]
  cases hdone : r.requestDone with
  | true =>
    have hclosed : r.isOpen = false := by
      rw [hdone] at hr
      simpa using hr.symm
    rw [markRequestDone_of_done hsplit hdone]
    constructor
    · show ∀ r' ∈ s.requests.modify before.length f, _
      rw [hsplit, modify_length]
      exact hlatch r hdone
    · show s.activeClientRequestCount - ((s.requests.modify before.length f).countP _ : ℕ) = _
      rw [offset, openRequests, hsplit, modify_length, hcount, List.countP_append,
        List.countP_cons_of_neg (by rw [hclosed]; decide)]
  | false =>
    have hopen : r.isOpen = true := by
      rw [hdone] at hr
      simpa using hr.symm
    rw [markRequestDone_of_not_done hsplit hdone]
    constructor
    · show ∀ r' ∈ List.modify _ before.length f, _
      rw [modify_length]
      exact hlatch _ rfl
    · show s.activeClientRequestCount - 1 - ((List.modify _ before.length f).countP _ : ℕ) = _
      rw [offset, openRequests, hsplit, modify_length, hcount, List.countP_append,
        List.countP_cons_of_pos hopen]
      omega

end End

/-! ### Steps -/

section Steps

variable {s t : Node} {a : Step}

/-- A step that has nothing to do with requests or their count. -/
lemma offset_of_eq (hrequests : t.requests = s.requests)
    (hcount : t.activeClientRequestCount = s.activeClientRequestCount) (hlatched : s.Latched) :
    t.Latched ∧ t.offset = s.offset := by
  rw [Latched, offset, openRequests, hrequests, hcount]
  exact ⟨hlatched, rfl⟩

/-- A new request. -/
lemma offset_call (hlatched : s.Latched) (hstep : s.step .call = some t) :
    t.Latched ∧ t.offset = s.offset := by
  obtain rfl := Option.some.inj hstep
  constructor
  · intro r hmem
    rcases List.mem_append.1 hmem with hmem | hmem
    · exact hlatched r hmem
    · obtain rfl := List.mem_singleton.1 hmem
      rfl
  · show s.activeClientRequestCount + 1 - ((s.requests ++ _).countP _ : ℕ) = _
    rw [List.countP_append, List.countP_singleton, offset, openRequests]
    simp [Request.isOpen]

/-- A reset keeps the requests, and not the count. -/
lemma offset_reinitSelf (hrequests : t.requests = s.requests)
    (hcount : t.activeClientRequestCount = 0) (hlatched : s.Latched) :
    t.Latched ∧ t.offset = -s.openRequests := by
  rw [Latched, offset, openRequests, hrequests, hcount, zero_sub]
  exact ⟨hlatched, rfl⟩

/-- **One step.** -/
lemma step_offset (hlatched : s.Latched) (hstep : s.step a = some t) :
    t.Latched ∧ t.offset = if a.resets then -(s.openRequests : ℤ) else s.offset := by
  cases a with
  | wait elapsed | touch | booted =>
    obtain rfl := Option.some.inj hstep
    exact offset_of_eq rfl rfl hlatched
  | call => exact offset_call hlatched hstep
  | receive i event =>
    rw [step] at hstep
    split_ifs at hstep with hgoesOn
    obtain rfl := Option.some.inj hstep
    cases event with
    | request => exact offset_of_eq rfl rfl hlatched
    | disconnect => exact offset_end hlatched ends_disconnected hgoesOn
  | send i message =>
    rw [step] at hstep
    split_ifs at hstep with hgoesOn
    obtain rfl := Option.some.inj hstep
    obtain _ | (_ | _) := message
    · exact offset_of_eq rfl rfl hlatched
    · exact offset_end hlatched ends_responseSent hgoesOn
    · exact offset_of_eq rfl rfl hlatched
  | finish i =>
    rw [step] at hstep
    split_ifs at hstep with hgoesOn
    obtain rfl := Option.some.inj hstep
    exact offset_end hlatched ends_ended hgoesOn
  | onJobStart job =>
    rw [step] at hstep
    split_ifs at hstep
    obtain rfl := Option.some.inj hstep
    exact offset_of_eq rfl rfl hlatched
  | reserve reservation =>
    rw [step] at hstep
    split_ifs at hstep
    obtain rfl := Option.some.inj hstep
    exact offset_of_eq rfl rfl hlatched
  | reinitNode | rebootContainers =>
    obtain rfl := Option.some.inj hstep
    exact offset_reinitSelf rfl rfl hlatched

lemma latched_of_init (hinit : service.init s) : s.Latched ∧ s.offset = 0 := by
  obtain ⟨reservedForJob, now, rfl⟩ := hinit
  exact ⟨fun r hmem => absurd hmem List.not_mem_nil, rfl⟩

/-- The marks are right in every run. -/
lemma latched_run {as : List Step} (hinit : service.init s)
    (hrun : service.Run System.always s as t) : t.Latched := by
  have hpreserved : service.Preserved System.always Latched :=
    fun _ _ _ hlatched _ hstep => (step_offset hlatched hstep).1
  exact hpreserved.run (latched_of_init hinit).1 hrun

/-- An exact count stays so when no request is open at a reset. -/
lemma exact_step_iff (hlatched : s.Latched) (hoffset : s.offset = 0) (hstep : s.step a = some t) :
    t.offset = 0 ↔ s.Quiet a := by
  rw [(step_offset hlatched hstep).2, Quiet]
  cases a.resets with
  | true =>
    rw [if_pos rfl, neg_eq_zero, Int.natCast_eq_zero]
    exact ⟨fun h _ => h, fun h => h rfl⟩
  | false =>
    rw [if_neg Bool.false_ne_true]
    exact ⟨fun _ h => absurd h Bool.false_ne_true, fun _ => hoffset⟩

/-- **When the count is exact**: in all states of a run, when no request is open whenever the state
is reset. -/
theorem count_exact_iff {as : List Step} (hinit : service.init s)
    (hrun : service.Run System.always s as t) :
    (∀ bs u, bs <+: as → service.Run System.always s bs u → u.Exact) ↔
      service.Run Quiet s as t := by
  have halong : (∀ bs u, bs <+: as → service.Run System.always s bs u →
      u.Latched ∧ u.offset = 0) ↔ service.Run Quiet s as t := by
    refine System.along_iff (latched_of_init hinit) (fun s a t hs hstep => ?_) hrun
    rw [← exact_step_iff hs.1 hs.2 hstep, and_iff_right (step_offset hs.1 hstep).1]
  rw [← halong]
  refine forall₂_congr fun bs u => forall₂_congr fun hbs hbefore => ?_
  rw [exact_iff_offset, and_iff_right (latched_run hinit hbefore)]

end Steps

/-! ### What the count is used for -/

section Uses

variable {s : Node}

/-- With an exact count a node stays up while a request is open. -/
lemma Exact.staysUp (hexact : s.Exact) (hopen : 0 < s.openRequests) (inactivityShutdownTime : ℕ)
    (headIsGone : Bool) : s.staysUp inactivityShutdownTime headIsGone = true := by
  have hcount : 0 < s.activeClientRequestCount := by
    rw [hexact.count]
    exact Int.natCast_pos.2 hopen
  rw [Node.staysUp, decide_eq_true hcount, Bool.or_true, Bool.true_or, Bool.true_or]

/-- With an exact count nothing but a client's silence counts when no request is open. -/
lemma Exact.clientContact (hexact : s.Exact) (hopen : s.openRequests = 0)
    (clientContactTimeout : ℕ) : s.clientContact clientContactTimeout =
      decide (s.timeSinceLastActivity < clientContactTimeout) := by
  have hcount : ¬0 < s.activeClientRequestCount := by
    rw [hexact.count, hopen]
    exact lt_irrefl _
  rw [Node.clientContact, decide_eq_false hcount, Bool.false_and, Bool.or_false]

end Uses

/-! ### Two runs -/

/-- A node that has just been loaded. -/
def fresh : Node := loaded none 0

/-- A request that is over before the state is reset, and one that comes later. -/
def quietRun : List Step :=
  [.call, .onJobStart "job".toList, .send 0 (.responseBody false), .finish 0, .reinitNode, .call]

/-- Between requests a reset leaves the count exact. -/
theorem count_exact_iff_quiet : (∃ t, service.Run System.always fresh quietRun t) ∧
    ∀ bs u, bs <+: quietRun → service.Run System.always fresh bs u → u.Exact := by
  have hrun : service.Run Quiet fresh quietRun
      (((service.guarded Quiet).exec fresh quietRun).get (by decide +kernel)) :=
    System.run_of_exec_guarded (Option.some_get _).symm
  have halways := hrun.mono fun _ _ _ => trivial
  exact ⟨⟨_, halways⟩, (count_exact_iff ⟨none, 0, rfl⟩ halways).2 hrun⟩

/-- A request to reboot, during which the state is reset; and then a request that stays open. -/
def rebooted : List Step :=
  [.call, .rebootContainers, .booted, .send 0 (.responseBody false), .finish 0]

/-- A reboot ends with a count of −1, and with the next request open for an hour the count is zero:
the node shuts down. -/
theorem count_off_after_reboot :
    (∃ u, service.Run System.always fresh rebooted u ∧ u.activeClientRequestCount = -1 ∧
      u.openRequests = 0) ∧
    ∃ u, service.Run System.always fresh (rebooted ++ [.call, .wait 3600000]) u ∧
      u.activeClientRequestCount = 0 ∧ u.openRequests = 1 ∧ u.staysUp 600000 false = false := by
  constructor
  · refine ⟨((service.guarded System.always).exec fresh rebooted).get (by decide +kernel),
      System.run_of_exec_guarded (Option.some_get _).symm, ?_, ?_⟩
    · decide +kernel
    · decide +kernel
  · refine ⟨((service.guarded System.always).exec fresh
        (rebooted ++ [.call, .wait 3600000])).get (by decide +kernel),
      System.run_of_exec_guarded (Option.some_get _).symm, ?_, ?_, ?_⟩
    · decide +kernel
    · decide +kernel
    · decide +kernel

end Node

end Burla.Requests
