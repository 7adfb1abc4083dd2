/-
Where an input is before a node has it: in a list, or in a chunk that is being uploaded.

Two passes of the source lose sight of it.  The main loop takes empty lists for uploaded inputs,
but a task empties a list before its upload has gone through (`upload_in_flight`); with the
chunks on their way looked at as well the flag is sound (`accepted_of_inputsDone`).  And the
main loop hands on the list of a removed node only, not that of a node that has left its part of
the job early (`left_part_strands_input`); as long as such a node's list is empty, or some other
task pops from it, no input is stranded (`nothing_stranded`).
-/
import Burla.Upload.Client

namespace Burla.Upload

open Burla.Steal (Input)

variable {ι : Type*}

/-- The node's state is the one that its task has set. -/
def ClientNode.Fits (n : ClientNode) : Prop :=
  match n.task with
  | .booting => n.state = .booting
  | .assigning => n.state = .ready
  | .unreachable => n.state = .failed
  | .looping | .uploading _ _ | .polling => n.state = .running
  | .returned | .raised => True

/-- The task has ended in a way that ends the job. -/
def ClientNode.Dead (n : ClientNode) : Prop :=
  n.task = .raised ∨ n.task = .returned ∧ n.state = .failed

/-- The node's list is looked after: its task pops from it, or the main loop hands it on. -/
def ClientNode.Holds (n : ClientNode) : Prop := n.task.live = true ∨ n.state = .removed

instance (n : ClientNode) : Decidable n.Holds := inferInstanceAs (Decidable (_ ∨ _))

lemma ClientNode.not_dead_of_live {n : ClientNode} (h : n.task.live = true) : ¬n.Dead := by
  rintro (hd | ⟨hd, -⟩) <;> simp [hd, Task.live] at h

namespace Client

/-- Every node is as its task has left it, and only nodes of the job have tasks. -/
structure Tidy (s : Client ι) : Prop where
  fits : ∀ i, (s.nodes i).Fits
  outside : ∀ i ∉ s.order, (s.nodes i).task = .returned

/-- Input `k` has been accepted, is on its way, or is in the list of a node that `P` holds of. -/
def Kept (P : ClientNode → Prop) (s : Client ι) (k : ℕ) : Prop :=
  k ∈ s.accepted ∨ (∃ i ∈ s.order, k ∈ (s.nodes i).task.sending.map Input.inputIndex) ∨
    (∃ i ∈ s.order, P (s.nodes i) ∧ k ∈ (s.inputs i).map Input.inputIndex) ∨
    ∃ i ∈ s.order, (s.nodes i).Dead

/-- Node `i` can go: its list is empty, or also the list of another node that `P` holds of. -/
def Spare (P : ClientNode → Prop) (s : Client ι) (i : ι) : Prop :=
  s.inputs i = [] ∨ ∃ j ∈ s.order, j ≠ i ∧ s.listOf j = s.listOf i ∧ P (s.nodes j)

/-- The main loop finds no leftovers, or hands them to nodes that `P` holds of. -/
def HandsTo [DecidableEq ι] (P : ClientNode → Prop) (s : Client ι) : Prop :=
  (∀ i ∈ s.order, (s.nodes i).state = .removed → s.inputs i = []) ∨
    ∀ i ∈ s.order, (s.nodes i).state = .removed → ∀ n ∈ s.recipientFor i, P (s.nodes n)

section Tidy

variable [DecidableEq ι] {s : Client ι} {i : ι} {n : ClientNode}

lemma Tidy.mem_order (h : s.Tidy) (hlive : (s.nodes i).task.live = true) : i ∈ s.order := by
  by_contra hi
  simp [h.outside i hi, Task.live] at hlive

lemma Tidy.setNode (h : s.Tidy) (hi : i ∈ s.order) (hn : n.Fits) : (s.setNode i n).Tidy where
  fits j := by
    by_cases hj : j = i
    · subst hj
      rwa [nodes_setNode_self]
    · rw [nodes_setNode_of_ne hj]
      exact h.fits j
  outside j hj := by
    have hji : j ≠ i := fun he => hj (he ▸ hi)
    rw [nodes_setNode_of_ne hji]
    exact h.outside j hj

end Tidy

/-! ### The main loop's pass -/

section Look

variable [DecidableEq ι] {s t : Client ι} {i n : ι} {P : ClientNode → Prop} {k : ℕ}

lemma mem_order_of_recipientFor (h : s.recipientFor i = some n) :
    n ∈ s.order ∧ s.listOf n ≠ s.listOf i := by
  have hn := List.find?_some h
  simp only [Bool.and_eq_true, decide_eq_true_eq] at hn
  exact ⟨List.mem_of_find?_eq_some h, hn.2⟩

/-- Only lists change when leftovers are handed on. -/
lemma handOn_eq (s : Client ι) (i : ι) : ∃ lists, s.handOn i = { s with lists } := by
  unfold handOn
  split_ifs
  · exact ⟨s.lists, rfl⟩
  · cases s.recipientFor i with
    | none => exact ⟨s.lists, rfl⟩
    | some n => exact ⟨_, rfl⟩

lemma foldl_handOn_eq (s : Client ι) (l : List ι) : ∃ lists, l.foldl handOn s = { s with lists } := by
  induction l generalizing s with
  | nil => exact ⟨s.lists, rfl⟩
  | cons i l ih =>
    obtain ⟨lists, hlists⟩ := handOn_eq s i
    obtain ⟨lists', hlists'⟩ := ih (s.handOn i)
    refine ⟨lists', ?_⟩
    rw [List.foldl_cons, hlists', hlists]

/-- The lists after leftovers are handed on. -/
lemma inputs_handOn (hstate : (s.nodes i).state = .removed) (hleft : s.inputs i ≠ [])
    (hn : s.recipientFor i = some n) (j : ι) :
    (s.handOn i).inputs j =
      if s.listOf j = s.listOf i then []
      else if s.listOf j = s.listOf n then s.inputs n ++ s.inputs i else s.inputs j := by
  have hskip : ¬((s.nodes i).state ≠ .removed ∨ s.inputs i = []) := by simp [hstate, hleft]
  rw [handOn, if_neg hskip, hn]
  simp only [inputs, Function.update_apply]

/-- Handing leftovers on does not empty the lists. -/
lemma drained_of_handOn (h : (s.handOn i).Drained) : s.Drained := by
  by_cases hskip : (s.nodes i).state ≠ .removed ∨ s.inputs i = []
  · rwa [handOn, if_pos hskip] at h
  · cases hn : s.recipientFor i with
    | none => rwa [handOn, if_neg hskip, hn] at h
    | some n =>
      push Not at hskip
      obtain ⟨hmem, hne⟩ := mem_order_of_recipientFor hn
      obtain ⟨lists, hlists⟩ := handOn_eq s i
      have hempty := h n (by rwa [hlists])
      rw [inputs_handOn hskip.1 hskip.2 hn, if_neg hne, if_pos rfl] at hempty
      exact absurd (List.append_eq_nil_iff.1 hempty).2 hskip.2

lemma drained_of_foldl_handOn {l : List ι} (h : (l.foldl handOn s).Drained) : s.Drained := by
  induction l generalizing s with
  | nil => exact h
  | cons i l ih => exact drained_of_handOn (ih h)

lemma Kept.handOn (h : s.Kept P k)
    (hto : (s.nodes i).state = .removed → s.inputs i ≠ [] → ∀ n ∈ s.recipientFor i, P (s.nodes n)) :
    (s.handOn i).Kept P k := by
  by_cases hskip : (s.nodes i).state ≠ .removed ∨ s.inputs i = []
  · rwa [Client.handOn, if_pos hskip]
  cases hn : s.recipientFor i with
  | none => rwa [Client.handOn, if_neg hskip, hn]
  | some n =>
    push Not at hskip
    have hlist := inputs_handOn hskip.1 hskip.2 hn
    obtain ⟨hmem, hne⟩ := mem_order_of_recipientFor hn
    obtain ⟨lists, hlists⟩ := handOn_eq s i
    rw [hlists] at hlist ⊢
    rcases h with h | h | ⟨j, hj, hP, hk⟩ | h
    · exact .inl h
    · exact .inr (.inl h)
    · refine .inr (.inr (.inl ?_))
      by_cases hji : s.listOf j = s.listOf i
      · -- the list that is handed on: its inputs are in the recipient's
        refine ⟨n, hmem, hto hskip.1 hskip.2 n hn, ?_⟩
        rw [hlist, if_neg hne, if_pos rfl, List.map_append]
        rw [inputs, hji] at hk
        exact List.mem_append_right _ hk
      · refine ⟨j, hj, hP, ?_⟩
        rw [hlist, if_neg hji]
        split_ifs with hjn
        · rw [List.map_append]
          rw [inputs, hjn] at hk
          exact List.mem_append_left _ hk
        · exact hk
    · exact .inr (.inr (.inr h))

lemma Kept.foldl_handOn (h : s.Kept P k) (hto : s.HandsTo P) {l : List ι} (hl : l ⊆ s.order) :
    (l.foldl Client.handOn s).Kept P k := by
  induction l generalizing s with
  | nil => exact h
  | cons i l ih =>
    obtain ⟨hi, hl⟩ := List.cons_subset.1 hl
    rw [List.foldl_cons]
    rcases hto with hnone | hall
    · -- nothing is left over, and the pass leaves it so
      have hsame : s.handOn i = s := by
        unfold Client.handOn
        refine if_pos ?_
        by_cases hstate : (s.nodes i).state = .removed
        · exact .inr (hnone i hi hstate)
        · exact .inl hstate
      rw [hsame]
      exact ih h (.inl hnone) hl
    · obtain ⟨lists, hlists⟩ := handOn_eq s i
      have hkept := h.handOn fun hstate _ => hall i hi hstate
      rw [hlists] at hkept ⊢
      exact ih hkept (.inr hall) hl

/-- A pass of the main loop changes lists, and may set the flag or end the job. -/
lemma look_eq (s : Client ι) : ∃ lists inputsDone ended,
    s.look = { s with lists, inputsDone, ended } ∧
      s.order.foldl handOn s = { s with lists } ∧
      (inputsDone = true → s.inputsDone = true ∨ s.Drained ∧ ¬s.Failing) := by
  obtain ⟨lists, hlists⟩ := foldl_handOn_eq s s.order
  have hdrained : (s.order.foldl handOn s).Drained → s.Drained := drained_of_foldl_handOn
  unfold look
  rw [hlists] at hdrained ⊢
  simp only
  split_ifs with hfail hset
  · exact ⟨lists, s.inputsDone, true, rfl, rfl, .inl⟩
  · exact ⟨lists, true, s.ended, rfl, rfl, fun _ => .inr ⟨hdrained hset.1, hfail⟩⟩
  · exact ⟨lists, s.inputsDone, s.ended, rfl, rfl, .inl⟩

end Look

/-! ### The tasks' steps -/

section Steps

variable [DecidableEq ι] {s t : Client ι} {i : ι} {n : ClientNode} {P : ClientNode → Prop} {k : ℕ}

/-- What a task may do to its node without an input getting lost. -/
lemma Kept.setNode (h : s.Kept P k) (hi : i ∈ s.order) (hlive : (s.nodes i).task.live = true)
    (hsending : n.Dead ∨ (s.nodes i).task.sending = n.task.sending)
    (hlist : n.Dead ∨ P n ∨ s.Spare P i) : (s.setNode i n).Kept P k := by
  by_cases hdead : n.Dead
  · exact .inr (.inr (.inr ⟨i, hi, by rwa [nodes_setNode_self]⟩))
  replace hsending := hsending.resolve_left hdead
  replace hlist := hlist.resolve_left hdead
  rcases h with h | ⟨j, hj, hk⟩ | ⟨j, hj, hP, hk⟩ | ⟨j, hj, hd⟩
  · exact .inl h
  · refine .inr (.inl ⟨j, hj, ?_⟩)
    by_cases hji : j = i
    · subst hji
      rwa [nodes_setNode_self, ← hsending]
    · rwa [nodes_setNode_of_ne hji]
  · refine .inr (.inr (.inl ?_))
    by_cases hji : j = i
    · subst hji
      rcases hlist with hPn | hempty | ⟨l, hl, hlj, hsame, hPl⟩
      · exact ⟨j, hj, by rwa [nodes_setNode_self], hk⟩
      · simp [hempty] at hk
      · refine ⟨l, hl, by rwa [nodes_setNode_of_ne hlj], ?_⟩
        show k ∈ (s.lists (s.listOf l)).map Input.inputIndex
        rw [hsame]
        exact hk
    · exact ⟨j, hj, by rwa [nodes_setNode_of_ne hji], hk⟩
  · refine .inr (.inr (.inr ⟨j, hj, ?_⟩))
    have hji : j ≠ i := fun he => ClientNode.not_dead_of_live hlive (he ▸ hd)
    rwa [nodes_setNode_of_ne hji]

/-- A chunk is popped: its inputs are on their way, the others still in the list. -/
lemma Kept.pop (h : s.Kept P k) (hi : i ∈ s.order) (htask : (s.nodes i).task = .looping)
    (hP : ∀ n : ClientNode, n.task.live = true → P n) (inputChunksize : ℕ) :
    (s.pop i inputChunksize).Kept P k := by
  obtain ⟨task, rest, hpop, rfl | ⟨htask', hperm⟩⟩ := pop_eq s i inputChunksize
  · exact .inr (.inr (.inr ⟨i, by rwa [hpop], .inl (by simp [hpop])⟩))
  rw [hpop]
  rcases h with h | ⟨j, hj, hk⟩ | ⟨j, hj, hPj, hk⟩ | ⟨j, hj, hd⟩
  · exact .inl h
  · have hji : j ≠ i := by
      rintro rfl
      simp [htask, Task.sending] at hk
    exact .inr (.inl ⟨j, hj, by simpa only [nodes_setTask_of_ne hji] using hk⟩)
  · by_cases hji : s.listOf j = s.listOf i
    · -- the list that the chunk comes from
      have hk' : k ∈ (s.inputs i).map Input.inputIndex := by rwa [inputs, ← hji]
      rw [(hperm.map Input.inputIndex).mem_iff, List.map_append, List.mem_append] at hk'
      rcases hk' with hk' | hk'
      · exact .inr (.inl ⟨i, hi, by simpa only [nodes_setTask_self] using hk'⟩)
      · refine .inr (.inr (.inl ⟨i, hi, hP _ ?_, ?_⟩))
        · rcases htask' with rfl | ⟨chunk, rfl⟩ <;> simp [Task.live]
        · show k ∈ (Function.update s.lists (s.listOf i) rest (s.listOf i)).map Input.inputIndex
          rwa [Function.update_self]
    · have hne : j ≠ i := fun he => hji (by rw [he])
      refine .inr (.inr (.inl ⟨j, hj, by simpa only [nodes_setTask_of_ne hne] using hPj, ?_⟩))
      show k ∈ (Function.update s.lists (s.listOf i) rest (s.listOf j)).map Input.inputIndex
      rwa [Function.update_of_ne hji]
  · have hji : j ≠ i := by
      rintro rfl
      simp [ClientNode.Dead, htask] at hd
    exact .inr (.inr (.inr ⟨j, hj, by simpa only [nodes_setTask_of_ne hji] using hd⟩))

/-- The node takes the chunk. -/
lemma Kept.accept (h : s.Kept P k) {chunk : List Input} {b : Bool}
    (htask : (s.nodes i).task = .uploading chunk b)
    (hP : ∀ n : ClientNode, n.task.live = true → P n) :
    Kept P
      { s.setTask i (.uploading chunk true) with
        accepted := s.accepted ++ chunk.map Input.inputIndex } k := by
  by_cases hk : k ∈ chunk.map Input.inputIndex
  · exact .inl (List.mem_append_right _ hk)
  rcases h with h | ⟨j, hj, hk'⟩ | ⟨j, hj, hPj, hk'⟩ | ⟨j, hj, hd⟩
  · exact .inl (List.mem_append_left _ h)
  · have hji : j ≠ i := by
      rintro rfl
      rw [htask] at hk'
      cases b
      · exact hk hk'
      · simp [Task.sending] at hk'
    exact .inr (.inl ⟨j, hj, by simpa only [nodes_setTask_of_ne hji] using hk'⟩)
  · refine .inr (.inr (.inl ⟨j, hj, ?_, hk'⟩))
    by_cases hji : j = i
    · subst hji
      exact hP _ (by simp [Task.live])
    · simpa only [nodes_setTask_of_ne hji] using hPj
  · have hji : j ≠ i := by
      rintro rfl
      simp [ClientNode.Dead, htask] at hd
    exact .inr (.inr (.inr ⟨j, hj, by simpa only [nodes_setTask_of_ne hji] using hd⟩))

/-- A node joins. -/
lemma Kept.join (h : s.Kept P k) (hi : i ∉ s.order) (node : ClientNode) :
    Kept P
      { s.setNode i node with
        order := s.order ++ [i], listOf := Function.update s.listOf i i } k := by
  have hne : ∀ j ∈ s.order, j ≠ i := fun j hj he => hi (he ▸ hj)
  have hmem : ∀ j ∈ s.order, j ∈ s.order ++ [i] := fun j hj => List.mem_append_left _ hj
  rcases h with h | ⟨j, hj, hk⟩ | ⟨j, hj, hP, hk⟩ | ⟨j, hj, hd⟩
  · exact .inl h
  · refine .inr (.inl ⟨j, hmem j hj, ?_⟩)
    simpa only [nodes_setNode_of_ne (hne j hj)] using hk
  · refine .inr (.inr (.inl ⟨j, hmem j hj, ?_, ?_⟩))
    · simpa only [nodes_setNode_of_ne (hne j hj)] using hP
    · show k ∈ (s.lists (Function.update s.listOf i i j)).map Input.inputIndex
      rwa [Function.update_of_ne (hne j hj)]
  · refine .inr (.inr (.inr ⟨j, hmem j hj, ?_⟩))
    simpa only [nodes_setNode_of_ne (hne j hj)] using hd

end Steps

end Client

section Runs

variable [DecidableEq ι] {s t : Client ι} {e : ClientEvent ι} {P : ClientNode → Prop} {k : ℕ}

/-- The steps after which `P` still holds of some node for every list that is in use. -/
def Keeps (P : ClientNode → Prop) (s : Client ι) : ClientEvent ι → Prop
  | .status i state =>
    (state = .booting ∨ state = .ready ∨ state = .failed) ∨
      P { s.nodes i with state, task := .returned } ∨ s.Spare P i
  | .done i => P { s.nodes i with state := .done, task := .returned } ∨ s.Spare P i
  | .look => s.HandsTo P
  | _ => True

/-- What a step can be: a task changes its node, a chunk is popped or taken, a node joins, the
main loop passes or the job ends. -/
lemma clientStep_cases (htidy : s.Tidy) (hstep : clientStep s e = some t) :
    (∃ i n, t = s.setNode i n ∧ e ≠ .look ∧ (s.nodes i).task.live = true ∧ n.Fits ∧
      (n.task = .raised ∨ (s.nodes i).task.sending = n.task.sending) ∧
      ∀ P : ClientNode → Prop, (∀ n, n.Holds → P n) → Keeps P s e →
        n.Dead ∨ P n ∨ s.Spare P i) ∨
    (∃ i inputChunksize, e = .pop i inputChunksize ∧ (s.nodes i).task = .looping ∧
      t = s.pop i inputChunksize) ∨
    (∃ i chunk b, e = .accept i ∧ (s.nodes i).task = .uploading chunk b ∧
      t =
        { s.setTask i (.uploading chunk true) with
          accepted := s.accepted ++ chunk.map Input.inputIndex }) ∨
    (∃ i, e = .join i ∧ i ∉ s.order ∧ s.lists i = [] ∧
      t =
        { s.setNode i { state := .booting, task := .booting, lateJoin := true } with
          order := s.order ++ [i], listOf := Function.update s.listOf i i }) ∨
    (e = .look ∧ t = s.look) ∨ e = .finish ∧ t = { s with ended := true } := by
  cases e with
  | status i state =>
    simp only [clientStep, Option.ite_none_right_eq_some, Option.some.injEq] at hstep
    obtain ⟨htask, rfl⟩ := hstep
    refine .inl ?_
    cases state with
    | booting =>
      refine ⟨i, _, rfl, by simp, by rw [htask]; rfl, ?_, .inr rfl, ?_⟩
      · simp [ClientNode.Fits, htask]
      · exact fun P hP _ => .inr (.inl (hP _ (.inl (by simp [htask, Task.live]))))
    | ready =>
      refine ⟨i, _, rfl, by simp, by rw [htask]; rfl, rfl, .inr (by rw [htask]; rfl), ?_⟩
      exact fun P hP _ => .inr (.inl (hP _ (.inl rfl)))
    | failed =>
      refine ⟨i, _, rfl, by simp, by rw [htask]; rfl, trivial, .inr (by rw [htask]; rfl), ?_⟩
      intro P hP _
      cases hlate : (s.nodes i).lateJoin with
      | false => exact .inl (.inr ⟨rfl, by simp⟩)
      | true => exact .inr (.inl (hP _ (.inr (by simp))))
    | running | removed | done | other =>
      refine ⟨i, _, rfl, by simp, by rw [htask]; rfl, trivial, .inr (by rw [htask]; rfl), ?_⟩
      exact fun P hP hkeeps => .inr (hkeeps.resolve_left (by simp))
  | assigned i =>
    simp only [clientStep, Option.ite_none_right_eq_some, Option.some.injEq] at hstep
    obtain ⟨htask, rfl⟩ := hstep
    refine .inl ⟨i, _, rfl, by simp, by rw [htask]; rfl, rfl, .inr (by rw [htask]; rfl), ?_⟩
    exact fun P hP _ => .inr (.inl (hP _ (.inl rfl)))
  | refused i | dropped i =>
    simp only [clientStep, Option.ite_none_right_eq_some, Option.some.injEq] at hstep
    obtain ⟨htask, rfl⟩ := hstep
    refine .inl ⟨i, _, rfl, by simp, by rw [htask]; rfl, trivial, .inr (by rw [htask]; rfl), ?_⟩
    exact fun P hP _ => .inr (.inl (hP _ (.inr rfl)))
  | unreachable i =>
    simp only [clientStep, Option.ite_none_right_eq_some, Option.some.injEq] at hstep
    obtain ⟨htask, rfl⟩ := hstep
    refine .inl ⟨i, _, rfl, by simp, by rw [htask]; rfl, rfl, .inr (by rw [htask]; rfl), ?_⟩
    exact fun P hP _ => .inr (.inl (hP _ (.inl rfl)))
  | pop i inputChunksize =>
    simp only [clientStep, Option.ite_none_right_eq_some, Option.some.injEq] at hstep
    exact .inr (.inl ⟨i, inputChunksize, rfl, hstep.1, hstep.2.symm⟩)
  | accept i =>
    simp only [clientStep] at hstep
    split at hstep
    · rename_i chunk b htask
      obtain rfl := Option.some.inj hstep
      exact .inr (.inr (.inl ⟨i, chunk, b, rfl, htask, rfl⟩))
    · cases hstep
  | uploaded i =>
    simp only [clientStep] at hstep
    split at hstep
    · rename_i chunk htask
      obtain rfl := Option.some.inj hstep
      refine .inl ⟨i, _, rfl, by simp, by rw [htask]; rfl, ?_, .inr (by rw [htask]; rfl), ?_⟩
      · simpa [ClientNode.Fits, htask] using htidy.fits i
      · exact fun P hP _ => .inr (.inl (hP _ (.inl rfl)))
    · cases hstep
  | polled i =>
    simp only [clientStep, Option.ite_none_right_eq_some, Option.some.injEq] at hstep
    obtain ⟨htask, rfl⟩ := hstep
    refine .inl ⟨i, _, rfl, by simp, by rw [htask]; rfl, ?_, .inr (by rw [htask]; rfl), ?_⟩
    · simpa [ClientNode.Fits, htask] using htidy.fits i
    · exact fun P hP _ => .inr (.inl (hP _ (.inl rfl)))
  | done i =>
    simp only [clientStep, Option.ite_none_right_eq_some, Option.some.injEq] at hstep
    obtain ⟨htask, rfl⟩ := hstep
    refine .inl ⟨i, _, rfl, by simp, by rw [htask]; rfl, trivial, .inr (by rw [htask]; rfl), ?_⟩
    exact fun P hP hkeeps => .inr hkeeps
  | silent i =>
    simp only [clientStep, Option.ite_none_right_eq_some, Option.some.injEq] at hstep
    obtain ⟨htask, rfl⟩ := hstep
    refine .inl ⟨i, _, rfl, by simp, by rw [htask]; rfl, trivial, .inl rfl, ?_⟩
    exact fun P hP _ => .inl (.inl rfl)
  | raise i =>
    simp only [clientStep, Option.ite_none_right_eq_some, Option.some.injEq] at hstep
    obtain ⟨hlive, rfl⟩ := hstep
    refine .inl ⟨i, _, rfl, by simp, hlive, trivial, .inl rfl, ?_⟩
    exact fun P hP _ => .inl (.inl rfl)
  | join i =>
    simp only [clientStep, Option.ite_none_right_eq_some, Option.some.injEq] at hstep
    exact .inr (.inr (.inr (.inl ⟨i, rfl, hstep.1.1, hstep.1.2, hstep.2.symm⟩)))
  | look =>
    simp only [clientStep, Option.ite_none_left_eq_some, Option.some.injEq] at hstep
    exact .inr (.inr (.inr (.inr (.inl ⟨rfl, hstep.2.symm⟩))))
  | finish => exact .inr (.inr (.inr (.inr (.inr ⟨rfl, (Option.some.inj hstep).symm⟩))))

/-- Every step leaves the nodes as their tasks have left them. -/
lemma Client.Tidy.step (h : s.Tidy) (hstep : clientStep s e = some t) : t.Tidy := by
  rcases clientStep_cases h hstep with ⟨i, n, rfl, -, hlive, hfits, -, -⟩ |
    ⟨i, inputChunksize, -, htask, rfl⟩ | ⟨i, chunk, b, -, htask, rfl⟩ | ⟨i, -, hi, -, rfl⟩ |
    ⟨-, rfl⟩ | ⟨-, rfl⟩
  · exact h.setNode (h.mem_order hlive) hfits
  · have hi := h.mem_order (i := i) (by rw [htask]; rfl)
    have hstate : (s.nodes i).state = .running := by simpa [ClientNode.Fits, htask] using h.fits i
    obtain ⟨task, rest, hpop, htask'⟩ := pop_eq s i inputChunksize
    have hfits : ClientNode.Fits { s.nodes i with task } := by
      rcases htask' with rfl | ⟨rfl | ⟨chunk, rfl⟩, -⟩
      · trivial
      · exact hstate
      · exact hstate
    have htidy := h.setNode hi hfits
    rw [hpop]
    exact ⟨htidy.fits, htidy.outside⟩
  · have hi := h.mem_order (i := i) (by rw [htask]; rfl)
    have hstate : (s.nodes i).state = .running := by simpa [ClientNode.Fits, htask] using h.fits i
    have htidy := h.setNode (n := { s.nodes i with task := .uploading chunk true }) hi hstate
    exact ⟨htidy.fits, htidy.outside⟩
  · constructor
    · intro j
      by_cases hj : j = i
      · subst hj
        simp [ClientNode.Fits]
      · simpa only [nodes_setNode_of_ne hj] using h.fits j
    · intro j hj
      obtain ⟨hjs, hji⟩ : j ∉ s.order ∧ j ≠ i := by simpa using hj
      simpa only [nodes_setNode_of_ne hji] using h.outside j hjs
  · obtain ⟨lists, inputsDone, ended, hlook, -, -⟩ := look_eq s
    rw [hlook]
    exact ⟨h.fits, h.outside⟩
  · exact ⟨h.fits, h.outside⟩

/-- No step that `Keeps` allows loses sight of an input. -/
lemma Client.Kept.step (hP : ∀ n : ClientNode, n.Holds → P n) (htidy : s.Tidy) (h : s.Kept P k)
    (hkeeps : Keeps P s e) (hstep : clientStep s e = some t) : t.Kept P k := by
  have hlive : ∀ n : ClientNode, n.task.live = true → P n := fun n hn => hP n (.inl hn)
  rcases clientStep_cases htidy hstep with ⟨i, n, rfl, -, hi, -, hsending, hlist⟩ |
    ⟨i, inputChunksize, -, htask, rfl⟩ | ⟨i, chunk, b, -, htask, rfl⟩ | ⟨i, -, hi, -, rfl⟩ |
    ⟨rfl, rfl⟩ | ⟨-, rfl⟩
  · exact h.setNode (htidy.mem_order hi) hi (hsending.imp_left .inl) (hlist P hP hkeeps)
  · exact h.pop (htidy.mem_order (by rw [htask]; rfl)) htask hlive inputChunksize
  · exact h.accept htask hlive
  · exact h.join hi _
  · obtain ⟨lists, inputsDone, ended, hlook, hfold, -⟩ := look_eq s
    have hkept := h.foldl_handOn hkeeps (List.Subset.refl s.order)
    rw [hfold] at hkept
    rw [hlook]
    exact hkept
  · exact h

/-- What every step but a pass of the main loop leaves alone. -/
lemma clientStep_frame (htidy : s.Tidy) (hstep : clientStep s e = some t) :
    t.nInputs = s.nInputs ∧ s.accepted ⊆ t.accepted ∧
      (e ≠ .look → t.inputsDone = s.inputsDone) := by
  rcases clientStep_cases htidy hstep with ⟨i, n, rfl, -⟩ | ⟨i, inputChunksize, -, -, rfl⟩ |
    ⟨i, chunk, b, -, -, rfl⟩ | ⟨i, -, -, -, rfl⟩ | ⟨rfl, rfl⟩ | ⟨-, rfl⟩
  · exact ⟨rfl, List.Subset.refl _, fun _ => rfl⟩
  · obtain ⟨task, rest, hpop, -⟩ := s.pop_eq i inputChunksize
    rw [hpop]
    exact ⟨rfl, List.Subset.refl _, fun _ => rfl⟩
  · exact ⟨rfl, List.subset_append_left _ _, fun _ => rfl⟩
  · exact ⟨rfl, List.Subset.refl _, fun _ => rfl⟩
  · obtain ⟨lists, inputsDone, ended, hlook, -, -⟩ := s.look_eq
    rw [hlook]
    exact ⟨rfl, List.Subset.refl _, fun h => absurd rfl h⟩
  · exact ⟨rfl, List.Subset.refl _, fun _ => rfl⟩

lemma Client.Fresh.tidy (h : s.Fresh) : s.Tidy where
  fits i := by
    by_cases hi : i ∈ s.order
    · rcases h.tasks i hi with ⟨hstate, htask⟩ | ⟨hstate, htask⟩ <;>
        simp [ClientNode.Fits, hstate, htask]
    · simp [ClientNode.Fits, (h.others i hi).1]
  outside i hi := (h.others i hi).1

omit [DecidableEq ι] in
lemma Client.Fresh.kept (hP : ∀ n : ClientNode, n.Holds → P n) (h : s.Fresh) (hk : k < s.nInputs) :
    s.Kept P k := by
  obtain ⟨i, hi, hlist⟩ := h.inputs k hk
  refine .inr (.inr (.inl ⟨i, hi, hP _ (.inl ?_), hlist⟩))
  rcases h.tasks i hi with ⟨-, htask⟩ | ⟨-, htask⟩ <;> simp [htask, Task.live]

variable {ok : Client ι → ClientEvent ι → Prop}

/-- In runs of such steps no input is ever out of sight. -/
lemma kept_invariant (hP : ∀ n : ClientNode, n.Holds → P n)
    (hok : ∀ s e, ok s e → Keeps P s e) :
    (client ι).Invariant ok fun s => s.Tidy ∧ ∀ k < s.nInputs, s.Kept P k where
  init s h := ⟨Client.Fresh.tidy h, fun _ => Client.Fresh.kept hP h⟩
  step s e t h he hstep := by
    obtain ⟨htidy, hkept⟩ := h
    refine ⟨htidy.step hstep, fun k hk => ?_⟩
    rw [(clientStep_frame htidy hstep).1] at hk
    exact (hkept k hk).step hP htidy (hok s e he) hstep

/-! ### `all_inputs_uploaded` -/

/-- The main loop finds empty lists only when no chunk is on its way. -/
def Landed (s : Client ι) : ClientEvent ι → Prop
  | .look => s.Drained → ∀ i ∈ s.order, (s.nodes i).task.sending = []
  | _ => True

instance (s : Client ι) : (e : ClientEvent ι) → Decidable (Landed s e)
  | .look => inferInstanceAs (Decidable (_ → _))
  | .status _ _ | .assigned _ | .refused _ | .unreachable _ | .dropped _ | .pop _ _ | .accept _
  | .uploaded _ | .polled _ | .done _ | .silent _ | .raise _ | .join _ | .finish =>
    .isTrue trivial

lemma landed_invariant :
    (client ι).Invariant Landed fun s =>
      (s.Tidy ∧ ∀ k < s.nInputs, s.Kept (fun _ => True) k) ∧
        (s.inputsDone = true → ∀ k < s.nInputs, k ∈ s.accepted) := by
  have hkept : (client ι).Invariant Landed fun s =>
      s.Tidy ∧ ∀ k < s.nInputs, s.Kept (fun _ => True) k := by
    refine kept_invariant (fun _ _ => trivial) fun s e _ => ?_
    cases e <;> simp [Keeps, Client.HandsTo]
  refine hkept.strengthen (fun s h hdone => ?_) fun s e t hinv hdone hok hstep hset k hk => ?_
  · simp [h.inputsDone] at hdone
  · obtain ⟨htidy, hkept⟩ := hinv
    obtain ⟨hn, hsub, hsame⟩ := clientStep_frame htidy hstep
    rw [hn] at hk
    by_cases he : e = .look
    · -- the flag is set by this pass: whatever keeps an input has ended
      subst he
      obtain rfl : s.look = t := by
        simp only [client, clientStep, Option.ite_none_left_eq_some] at hstep
        exact Option.some.inj hstep.2
      obtain ⟨lists, inputsDone, ended, hlook, -, hwhen⟩ := s.look_eq
      rw [hlook] at hset ⊢
      rcases hwhen hset with hbefore | ⟨hdrained, hfailing⟩
      · exact hdone hbefore k hk
      · rcases hkept k hk with hk | ⟨i, hi, hk⟩ | ⟨i, hi, -, hk⟩ | ⟨i, hi, hdead⟩
        · exact hk
        · simp [hok hdrained i hi] at hk
        · simp [hdrained i hi] at hk
        · exact absurd ⟨i, hi, hdead.imp_right And.right⟩ hfailing
    · exact hsub (hdone (hsame he ▸ hset) k hk)

/-- **Uploaded inputs**: in runs in which the main loop finds empty lists only when no chunk is
on its way, every input has been taken by a node once `all_inputs_uploaded` is set. -/
theorem accepted_of_inputsDone {s : Client ι} (h : (client ι).Reachable Landed s)
    (hdone : s.inputsDone = true) : ∀ k < s.nInputs, k ∈ s.accepted :=
  (landed_invariant.reachable h).2 hdone

/-! ### Stranded inputs -/

namespace Client

variable (s : Client ι) (k : ℕ)

/-- Input `k` is in a chunk that a live task is uploading. -/
def OnItsWay : Prop :=
  ∃ i ∈ s.order, (s.nodes i).task.live = true ∧
    k ∈ (s.nodes i).task.sending.map Input.inputIndex

/-- Input `k` is in a list that the task of a node at work, or booting, still pops from. -/
def Popped : Prop :=
  ∃ i ∈ s.order, ((s.nodes i).state = .booting ∨ (s.nodes i).state = .ready ∨
    (s.nodes i).state = .running) ∧ (s.nodes i).task.live = true ∧
      k ∈ (s.inputs i).map Input.inputIndex

/-- Input `k` is in the list of a removed node. -/
def LeftOver : Prop :=
  ∃ i ∈ s.order, (s.nodes i).state = .removed ∧ k ∈ (s.inputs i).map Input.inputIndex

instance : Decidable (s.OnItsWay k) := inferInstanceAs (Decidable (∃ i ∈ s.order, _))

instance : Decidable (s.Popped k) := inferInstanceAs (Decidable (∃ i ∈ s.order, _))

instance : Decidable (s.LeftOver k) := inferInstanceAs (Decidable (∃ i ∈ s.order, _))

instance (i : ι) : Decidable (s.Spare ClientNode.Holds i) :=
  inferInstanceAs (Decidable (_ ∨ ∃ j ∈ s.order, _))

instance : Decidable (s.HandsTo ClientNode.Holds) :=
  inferInstanceAs (Decidable ((∀ i ∈ s.order, _) ∨ ∀ i ∈ s.order, _))

/-- While the job goes on and a node is at work, no input is stranded. -/
def NothingStranded : Prop :=
  s.ended = false → ¬s.Failing → (∃ i ∈ s.order, s.recipient i = true) →
    ∀ k < s.nInputs, k ∈ s.accepted ∨ s.OnItsWay k ∨ s.Popped k ∨ s.LeftOver k

end Client

/-- The steps that strand no input: a node ends its part, or turns out to be none of the job's,
only when its list is empty or another node looks after it, and the main loop hands leftovers to
tasks that have not ended. -/
def Attended (s : Client ι) : ClientEvent ι → Prop
  | .status i state =>
    (state = .booting ∨ state = .ready ∨ state = .failed ∨ state = .removed) ∨
      s.Spare ClientNode.Holds i
  | .done i => s.Spare ClientNode.Holds i
  | .look => s.HandsTo ClientNode.Holds
  | _ => True

instance (s : Client ι) : (e : ClientEvent ι) → Decidable (Attended s e)
  | .status _ _ => inferInstanceAs (Decidable (_ ∨ _))
  | .done i => inferInstanceAs (Decidable (s.Spare ClientNode.Holds i))
  | .look => inferInstanceAs (Decidable (s.HandsTo ClientNode.Holds))
  | .assigned _ | .refused _ | .unreachable _ | .dropped _ | .pop _ _ | .accept _
  | .uploaded _ | .polled _ | .silent _ | .raise _ | .join _ | .finish => .isTrue trivial

lemma keeps_of_attended (h : Attended s e) : Keeps ClientNode.Holds s e := by
  cases e with
  | status i state =>
    rcases h with (h | h | h | rfl) | h
    · exact .inl (.inl h)
    · exact .inl (.inr (.inl h))
    · exact .inl (.inr (.inr h))
    · exact .inr (.inl (.inr rfl))
    · exact .inr (.inr h)
  | done i => exact .inr h
  | _ => exact h

omit [DecidableEq ι] in
/-- A task that has not ended is that of a node at work, or booting, unless the job fails. -/
lemma Client.Tidy.at_work (h : s.Tidy) (hfailing : ¬s.Failing) {i : ι} (hi : i ∈ s.order)
    (hlive : (s.nodes i).task.live = true) : (s.nodes i).state = .booting ∨
      (s.nodes i).state = .ready ∨ (s.nodes i).state = .running := by
  have hfits := h.fits i
  cases htask : (s.nodes i).task with
  | unreachable =>
    simp only [ClientNode.Fits, htask] at hfits
    exact absurd ⟨i, hi, .inr hfits⟩ hfailing
  | returned | raised => simp [htask, Task.live] at hlive
  | _ => simp_all [ClientNode.Fits]

/-- **Stranded inputs**: in runs in which every list that still has inputs is looked after when
its node ends, no input is ever stranded on the client. -/
theorem nothing_stranded {s : Client ι} (h : (client ι).Reachable Attended s) :
    s.NothingStranded := by
  obtain ⟨htidy, hkept⟩ :=
    (kept_invariant (fun _ => id) fun _ _ => keeps_of_attended).reachable h
  intro _ hfailing _ k hk
  rcases hkept k hk with hk | ⟨i, hi, hk⟩ | ⟨i, hi, hlive | hremoved, hk⟩ | ⟨i, hi, hdead⟩
  · exact .inl hk
  · refine .inr (.inl ⟨i, hi, ?_, hk⟩)
    cases htask : (s.nodes i).task <;> simp_all [Task.sending, Task.live]
  · exact .inr (.inr (.inl ⟨i, hi, htidy.at_work hfailing hi hlive, hlive, hk⟩))
  · exact .inr (.inr (.inr ⟨i, hi, hremoved, hk⟩))
  · exact absurd ⟨i, hi, hdead.imp_right And.right⟩ hfailing

end Runs

/-! ### Runs of two nodes -/

/-- Two ready nodes, each with a list of its own. -/
def twoNodes : Client ℕ where
  nInputs := 3
  order := [0, 1]
  nodes i :=
    if i < 2 then { state := .ready, task := .assigning, lateJoin := false }
    else { state := .other, task := .returned, lateJoin := false }
  listOf i := i
  lists i := if i = 0 then [⟨0, [1]⟩] else [⟨1, [2]⟩, ⟨2, [3]⟩]
  accepted := []
  inputsDone := false
  ended := false

lemma fresh_twoNodes : twoNodes.Fresh where
  inputs := by decide
  tasks := by decide
  others i hi := by
    have h2 : ¬i < 2 := fun h => hi (by simp only [twoNodes, List.mem_cons]; omega)
    have hnode : twoNodes.nodes i = { state := .other, task := .returned, lateJoin := false } :=
      if_neg h2
    rw [hnode]
    exact ⟨rfl, rfl⟩
  owners := by decide
  inputsDone := rfl

/-- Both nodes get their inputs; `last` is how the second upload and the main loop go on. -/
def uploadRun (last : List (ClientEvent ℕ)) : List (ClientEvent ℕ) :=
  [.assigned 0, .assigned 1, .pop 0 2, .accept 0, .uploaded 0, .pop 1 2] ++ last

/-- The main loop passes when the second upload has gone through. -/
def landed : Client ℕ :=
  (((client ℕ).guarded Landed).exec twoNodes
    (uploadRun [.accept 1, .uploaded 1, .look])).get (by decide +kernel)

theorem accepted_of_inputsDone_landed :
    landed.inputsDone = true ∧ ∀ k < 3, k ∈ landed.accepted := by
  have hrun : (client ℕ).Run Landed twoNodes (uploadRun [.accept 1, .uploaded 1, .look])
      landed := System.run_of_exec_guarded (Option.some_get _).symm
  have hdone : landed.inputsDone = true := by decide +kernel
  exact ⟨hdone, accepted_of_inputsDone ⟨_, _, fresh_twoNodes, hrun⟩ hdone⟩

/-- The main loop passes while the second upload is under way. -/
def inFlight : Client ℕ :=
  (((client ℕ).guarded System.always).exec twoNodes (uploadRun [.look])).get
    (by decide +kernel)

theorem upload_in_flight :
    ¬ ∀ s : Client ℕ, (client ℕ).Reachable System.always s → s.inputsDone = true →
      ∀ k < s.nInputs, k ∈ s.accepted := by
  intro h
  have hrun : (client ℕ).Run System.always twoNodes (uploadRun [.look]) inFlight :=
    System.run_of_exec_guarded (Option.some_get _).symm
  have haccepted := h _ ⟨_, _, fresh_twoNodes, hrun⟩ (by decide +kernel)
  revert haccepted
  decide +kernel

/-- The second node refuses the job, and the main loop hands its inputs on. -/
def handedOn : Client ℕ :=
  (((client ℕ).guarded Attended).exec twoNodes [.assigned 0, .refused 1, .look]).get
    (by decide +kernel)

theorem nothing_stranded_handedOn :
    handedOn.NothingStranded ∧ handedOn.inputs 1 = [] ∧ (handedOn.inputs 0).length = 3 := by
  have hrun : (client ℕ).Run Attended twoNodes [.assigned 0, .refused 1, .look] handedOn :=
    System.run_of_exec_guarded (Option.some_get _).symm
  exact ⟨nothing_stranded ⟨_, _, fresh_twoNodes, hrun⟩, by decide +kernel⟩

/-- The second node has worked off the first chunk of its share and leaves. -/
def leftPart : Client ℕ :=
  (((client ℕ).guarded System.always).exec twoNodes
    [.assigned 0, .assigned 1, .pop 1 1, .accept 1, .uploaded 1, .done 1, .look]).get
    (by decide +kernel)

theorem left_part_strands_input :
    ¬ ∀ s : Client ℕ, (client ℕ).Reachable System.always s → s.NothingStranded := by
  intro h
  have hrun : (client ℕ).Run System.always twoNodes
      [.assigned 0, .assigned 1, .pop 1 1, .accept 1, .uploaded 1, .done 1, .look] leftPart :=
    System.run_of_exec_guarded (Option.some_get _).symm
  have hkept := h _ ⟨_, _, fresh_twoNodes, hrun⟩
  revert hkept
  unfold Client.NothingStranded
  decide +kernel

end Burla.Upload
