/-
The inputs that each node gets in `_execute_job`, and the order in which it uploads them.

Inputs are dealt to the slots of the ready nodes in turns, so a node's list is the part of the
inputs whose turn is its own (`foldl_deal_eq`).  The lists are turned round, popped from the end in
chunks, and the leftovers of a removed node go behind another's, which are popped next; `Ordered`
says what that leaves of the order.

The main result is `Burla.Upload.split_fair`.
-/
import Burla.Lib.RoundRobin
import Burla.Upload.Conserved
import Mathlib.Algebra.Order.Field.Basic
import Mathlib.Algebra.Order.Ring.Rat
import Mathlib.Tactic.Linarith

namespace Burla.Upload

open Burla.Steal (Input)

variable {ι : Type*}

/-! ### Shares of the destinations -/

section Destinations

variable [DecidableEq ι] {readyNodes : List (ι × ℕ)} {i : ι} {t : ℕ}

lemma le_foldl_max {l : List ℕ} {m : ℕ} : m ≤ l.foldl max m ∧ ∀ n ∈ l, n ≤ l.foldl max m := by
  induction l generalizing m with
  | nil => simp
  | cons a l ih =>
    obtain ⟨hm, hl⟩ := ih (m := max m a)
    rw [List.foldl_cons]
    refine ⟨(le_max_left m a).trans hm, fun n hn => ?_⟩
    rcases List.mem_cons.1 hn with rfl | hn
    · exact (le_max_right m n).trans hm
    · exact hl n hn

/-- A pass over the nodes comes by a node once, as long as it has slots left. -/
lemma count_pass (hnodup : (readyNodes.map Prod.fst).Nodup) (hi : (i, t) ∈ readyNodes)
    (slotIndex : ℕ) :
    ((readyNodes.filter fun node => slotIndex < node.2).map Prod.fst).count i =
      if slotIndex < t then 1 else 0 := by
  have hsub : ((readyNodes.filter fun node => slotIndex < node.2).map Prod.fst).Nodup :=
    hnodup.sublist (List.filter_sublist.map _)
  rw [hsub.count]
  refine if_congr ?_ rfl rfl
  constructor
  · intro hmem
    obtain ⟨node, hnode, rfl⟩ := List.mem_map.1 hmem
    obtain ⟨hnode, hlt⟩ := List.mem_filter.1 hnode
    have hsame : node = (node.1, t) := List.inj_on_of_nodup_map hnodup hnode hi rfl
    rw [hsame] at hlt
    simpa using hlt
  · intro hlt
    exact List.mem_map.2 ⟨(i, t), List.mem_filter.2 ⟨hi, by simpa using hlt⟩, rfl⟩

/-- A node stands among the destinations as often as it has slots. -/
lemma count_inputDestinations (hnodup : (readyNodes.map Prod.fst).Nodup)
    (hi : (i, t) ∈ readyNodes) : (inputDestinations readyNodes).count i = t := by
  have hpasses : ∀ m, ((List.range m).flatMap fun slotIndex =>
      (readyNodes.filter fun node => slotIndex < node.2).map Prod.fst).count i = min m t := by
    intro m
    induction m with
    | zero => simp
    | succ m ih =>
      rw [List.range_succ, List.flatMap_append, List.count_append, ih, List.flatMap_singleton,
        count_pass hnodup hi]
      split_ifs <;> omega
  have hle : t ≤ (readyNodes.map Prod.snd).foldl max 0 :=
    le_foldl_max.2 t (List.mem_map.2 ⟨(i, t), hi, rfl⟩)
  rw [inputDestinations, hpasses, Nat.min_eq_right hle]

lemma inputDestinations_ne_nil (hnodup : (readyNodes.map Prod.fst).Nodup)
    (hready : readyNodes ≠ []) (hslots : ∀ node ∈ readyNodes, 1 ≤ node.2) :
    inputDestinations readyNodes ≠ [] := by
  obtain ⟨node, rest, rfl⟩ := List.exists_cons_of_ne_nil hready
  have hpos := hslots node List.mem_cons_self
  have hcount := count_inputDestinations hnodup (i := node.1) (t := node.2) List.mem_cons_self
  intro hnil
  rw [hnil, List.count_nil] at hcount
  omega

end Destinations

/-! ### The lists -/

section Lists

variable [DecidableEq ι] {destinations : List ι} {i : ι}

/-- The part of the inputs whose turn is a node's. -/
def partOf (destinations : List ι) (inputs : List Input) (i : ι) : List Input :=
  inputs.filter fun input => RoundRobin.turn destinations input.inputIndex = some i

/-- Dealing the inputs out gives each node its part, in the inputs' order. -/
lemma foldl_deal_eq (inputs : List Input) (lists : ι → List Input) (i : ι) :
    inputs.foldl (deal destinations) lists i = lists i ++ partOf destinations inputs i := by
  induction inputs generalizing lists with
  | nil => simp [partOf]
  | cons input inputs ih =>
    rw [List.foldl_cons, ih, partOf, partOf, List.filter_cons]
    cases hturn : RoundRobin.turn destinations input.inputIndex with
    | none =>
      have hdeal : deal destinations lists input = lists := by
        rw [RoundRobin.turn] at hturn
        rw [deal, hturn]
      simp [hdeal]
    | some j =>
      have hdeal : deal destinations lists input =
          Function.update lists j (lists j ++ [input]) := by
        rw [RoundRobin.turn] at hturn
        rw [deal, hturn]
      by_cases hij : j = i
      · subst hij
        simp [hdeal]
      · simp [hdeal, hij, Function.update_of_ne (Ne.symm hij)]

lemma map_inputIndex_enumerate (inputs : List (List UInt8)) :
    (enumerate inputs).map Input.inputIndex = List.range inputs.length := by
  rw [enumerate, List.map_map, List.range_eq_range']
  exact List.zipIdx_map_snd 0 inputs

/-- The enumerated inputs are in ascending order. -/
lemma pairwise_enumerate (inputs : List (List UInt8)) :
    ((enumerate inputs).map Input.inputIndex).Pairwise (· < ·) := by
  rw [map_inputIndex_enumerate]
  exact List.pairwise_lt_range

lemma length_partOf_enumerate (inputs : List (List UInt8)) (i : ι) :
    (partOf destinations (enumerate inputs) i).length =
      RoundRobin.share destinations i inputs.length := by
  rw [RoundRobin.share, Nat.count, ← map_inputIndex_enumerate, List.countP_map, partOf,
    List.countP_eq_length_filter]
  rfl

end Lists

/-! ### The order of the uploads -/

/-- The inputs whose upload a step begins, next one first. -/
def sends (s : Client ι) : ClientEvent ι → Client ι → List (ι × ℕ)
  | .pop i inputChunksize, _ =>
    match (popChunk inputChunksize (s.inputs i)).1 with
    | .ok chunk => (indices chunk).map fun k => (i, k)
    | .error _ => []
  | _, _ => []

section Order

variable [DecidableEq ι] {own : ι → List ℕ} {s t : Client ι} {log log' : List (ι × ℕ)} {i : ι}

/-- What a node uploads, in order. -/
def sentBy (i : ι) (log : List (ι × ℕ)) : List ℕ :=
  (log.filter fun upload => upload.1 = i).map Prod.snd

lemma sentBy_append : sentBy i (log ++ log') = sentBy i log ++ sentBy i log' := by
  rw [sentBy, List.filter_append, List.map_append]
  rfl

lemma sentBy_map (j : ι) (l : List ℕ) :
    sentBy i (l.map fun k => (j, k)) = if j = i then l else [] := by
  induction l with
  | nil => simp [sentBy]
  | cons k l ih =>
    rw [← List.singleton_append, List.map_append, sentBy_append, ih]
    split_ifs with hji <;> simp [sentBy, hji]

/-- What a node has begun to upload and what it still has in its list, in the order in which it
uploads them. -/
def line (s : Client ι) (log : List (ι × ℕ)) (i : ι) : List ℕ :=
  sentBy i log ++ (indices (s.lists i)).reverse

/-- Every node pops from its own list, uploads its own inputs in ascending order, and has those
of others only when a node has been removed. -/
structure Ordered (own : ι → List ℕ) (p : Client ι × List (ι × ℕ)) : Prop where
  tidy : p.1.Tidy
  known : ∀ i, (p.1.nodes i).state = .removed → i ∈ p.1.order
  listOf : ∀ i, p.1.listOf i = i
  ascending : ∀ i, ((line p.1 p.2 i).filter (own i).contains).Pairwise (· < ·)
  apart : ∀ i j, (p.1.nodes i).state ≠ .removed → j ≠ i →
    ∀ k ∈ own i, k ∉ indices (p.1.lists j)
  unmixed : (∀ i, (p.1.nodes i).state ≠ .removed) → ∀ i, line p.1 p.2 i ⊆ own i

/-- A step that hands nothing on. -/
lemma Ordered.of_sublist (h : Ordered own (s, log)) (htidy : t.Tidy)
    (hknown : ∀ i, (t.nodes i).state = .removed → i ∈ t.order) (hlistOf : ∀ i, t.listOf i = i)
    (hstates : ∀ i, (s.nodes i).state = .removed → (t.nodes i).state = .removed)
    (hline : ∀ i, (line t log' i).Sublist (line s log i))
    (hlists : ∀ i, indices (t.lists i) ⊆ indices (s.lists i)) : Ordered own (t, log') where
  tidy := htidy
  known := hknown
  listOf := hlistOf
  ascending i := (h.ascending i).sublist ((hline i).filter _)
  apart i j hi hj k hk hmem := h.apart i j (mt (hstates i) hi) hj k hk (hlists j hmem)
  unmixed hall i :=
    List.Subset.trans (hline i).subset (h.unmixed (fun j => mt (hstates j) (hall j)) i)

/-- The leftovers of a removed node go behind those of another one, whose own inputs they do not
have. -/
lemma Ordered.handOn (h : Ordered own (s, log)) (i : ι) : Ordered own (s.handOn i, log) := by
  unfold Client.handOn
  by_cases hskip : (s.nodes i).state ≠ .removed ∨ s.inputs i = []
  · rwa [if_pos hskip]
  rw [if_neg hskip]
  push Not at hskip
  cases hn : s.recipientFor i with
  | none => exact h
  | some n =>
    have hrecipient := List.find?_some hn
    simp only [Bool.and_eq_true, decide_eq_true_eq, Client.recipient] at hrecipient
    obtain ⟨hstate, hni⟩ := hrecipient
    rw [h.listOf, h.listOf] at hni
    have hn' : (s.nodes n).state ≠ .removed := by
      rcases hstate with hstate | hstate <;> rw [hstate] <;> decide
    dsimp only [Client.inputs]
    rw [h.listOf, h.listOf]
    set lists := Function.update (Function.update s.lists n (s.lists n ++ s.lists i)) i []
      with hlists
    have hself : lists i = [] := Function.update_self ..
    have hrec : lists n = s.lists n ++ s.lists i := by
      rw [hlists, Function.update_of_ne hni, Function.update_self]
    have hrest : ∀ j, j ≠ i → j ≠ n → lists j = s.lists j := fun j hji hjn => by
      rw [hlists, Function.update_of_ne hji, Function.update_of_ne hjn]
    refine ⟨⟨h.tidy.fits, h.tidy.outside⟩, h.known, h.listOf, fun j => ?_, fun a b ha hb k hk => ?_,
      fun hall => absurd hskip.1 (hall i)⟩
    · by_cases hji : j = i
      · subst hji
        refine (h.ascending j).sublist (List.Sublist.filter _ ?_)
        simp only [line, hself, indices, List.map_nil, List.reverse_nil, List.append_nil]
        exact List.sublist_append_left ..
      by_cases hjn : j = n
      · subst hjn
        -- none of the inputs that are handed on is the recipient's own
        have hnone : (indices (s.lists i)).reverse.filter (own j).contains = [] := by
          rw [List.filter_eq_nil_iff]
          intro k hk hown
          exact h.apart j i hn' (Ne.symm hni) k (by simpa using hown) (List.mem_reverse.1 hk)
        have hsame := h.ascending j
        simp only [line, hrec, indices, List.map_append, List.reverse_append, List.filter_append]
          at hsame hnone ⊢
        rwa [hnone, List.nil_append]
      · simpa only [line, hrest j hji hjn] using h.ascending j
    · have hai : a ≠ i := fun he => ha (by rw [he]; exact hskip.1)
      show k ∉ indices (lists b)
      by_cases hbi : b = i
      · simp [hbi, hself, indices]
      by_cases hbn : b = n
      · rw [hbn, hrec, indices, List.map_append, List.mem_append, not_or]
        exact ⟨h.apart a n ha (hbn ▸ hb) k hk, h.apart a i ha (Ne.symm hai) k hk⟩
      · rw [hrest b hbi hbn]
        exact h.apart a b ha hb k hk

lemma Ordered.foldl_handOn (h : Ordered own (s, log)) (l : List ι) :
    Ordered own (l.foldl Client.handOn s, log) := by
  induction l generalizing s with
  | nil => exact h
  | cons i l ih => exact ih (h.handOn i)

lemma not_removed_of_live {n : ClientNode} (hfits : n.Fits) (hlive : n.task.live = true) :
    n.state ≠ .removed := by
  intro hstate
  cases htask : n.task <;> simp_all [ClientNode.Fits, Task.live]

/-- A popped chunk goes from the list to the uploads. -/
lemma Ordered.pop (h : Ordered own (s, log)) (i : ι) (inputChunksize : ℕ)
    (htidy : (s.pop i inputChunksize).Tidy) :
    Ordered own (s.pop i inputChunksize,
      log ++ sends s (.pop i inputChunksize) (s.pop i inputChunksize)) := by
  have hself : (s.pop i inputChunksize).lists i = (popChunk inputChunksize (s.lists i)).2 := by
    have hlists := Client.lists_pop s i inputChunksize
    rwa [h.listOf, Client.inputs, h.listOf] at hlists
  have hsublist : ((s.pop i inputChunksize).lists i).Sublist (s.lists i) := by
    rw [hself]
    exact sublist_popChunk inputChunksize (s.lists i)
  obtain ⟨task, rest, hpop, -⟩ := Client.pop_eq s i inputChunksize
  have hrest : ∀ j ≠ i, (s.pop i inputChunksize).lists j = s.lists j := fun j hj => by
    rw [hpop, h.listOf]
    exact Function.update_of_ne hj ..
  have hstate : ∀ j, ((s.pop i inputChunksize).nodes j).state = (s.nodes j).state := fun j => by
    rw [hpop]
    exact apply_update_eq ClientNode.state s.nodes (b := { s.nodes i with task }) rfl j
  refine h.of_sublist htidy (fun j hj => ?_) ?_ (fun j hj => (hstate j).trans hj) ?_ ?_
  · rw [hpop]
    exact h.known j ((hstate j).symm.trans hj)
  · rw [hpop]
    exact h.listOf
  · intro j
    rw [line, line, sentBy_append, sends, Client.inputs, h.listOf]
    by_cases hji : j = i
    · subst hji
      cases hchunk : (popChunk inputChunksize (s.lists j)).1 with
      | error index =>
        rw [show sentBy j [] = [] from rfl, List.append_nil]
        exact ((hsublist.map _).reverse).append_left _
      | ok chunk =>
        have happend := append_popChunk (Prod.ext hchunk rfl :
          popChunk inputChunksize (s.lists j) = (.ok chunk, _))
        dsimp only
        rw [sentBy_map, if_pos rfl, List.append_assoc, hself, indices, indices, indices,
          ← List.map_reverse, ← List.map_append, happend, List.map_reverse]
    · have hnone : sentBy j (match (popChunk inputChunksize (s.lists i)).1 with
          | .ok chunk => (indices chunk).map fun k => (i, k)
          | .error _ => []) = [] := by
        split
        · rw [sentBy_map, if_neg (Ne.symm hji)]
        · rfl
      rw [hnone, List.append_nil, hrest j hji]
  · intro j
    by_cases hji : j = i
    · subst hji
      exact (hsublist.map _).subset
    · rw [hrest j hji]
      exact List.Subset.refl _

/-- A step that changes nodes only. -/
lemma Ordered.of_lists (h : Ordered own (s, log)) (htidy : t.Tidy)
    (hknown : ∀ i, (t.nodes i).state = .removed → i ∈ t.order) (hlistOf : ∀ i, t.listOf i = i)
    (hstates : ∀ i, (s.nodes i).state = .removed → (t.nodes i).state = .removed)
    (hlists : t.lists = s.lists) : Ordered own (t, log) := by
  refine h.of_sublist htidy hknown hlistOf hstates (fun i => ?_) fun i => ?_
  · rw [line, line, hlists]
  · rw [hlists]
    exact List.Subset.refl _

lemma Ordered.setNode (h : Ordered own (s, log)) {n : ClientNode}
    (hlive : (s.nodes i).task.live = true) (htidy : (s.setNode i n).Tidy) :
    Ordered own (s.setNode i n, log) := by
  refine h.of_lists htidy (fun j hj => ?_) h.listOf (fun j hj => ?_) rfl
  · by_cases hji : j = i
    · rw [hji]
      exact h.tidy.mem_order hlive
    · rw [Client.nodes_setNode_of_ne hji] at hj
      exact h.known j hj
  · have hji : j ≠ i := by
      rintro rfl
      exact not_removed_of_live (h.tidy.fits j) hlive hj
    rwa [Client.nodes_setNode_of_ne hji]

omit [DecidableEq ι] in
lemma sends_of_ne_pop {e : ClientEvent ι} (h : ∀ i inputChunksize, e ≠ .pop i inputChunksize) :
    sends s e t = [] := by
  cases e <;> first | rfl | exact absurd rfl (h _ _)

lemma Ordered.step {p q : Client ι × List (ι × ℕ)} {e : ClientEvent ι} (h : Ordered own p)
    (hstep : ((client ι).logged sends).step p e = some q) : Ordered own q := by
  obtain ⟨s, log⟩ := p
  obtain ⟨t, log'⟩ := q
  obtain ⟨hnext, hlog⟩ := System.logged_step_eq_some.1 hstep
  clear hstep
  dsimp only at hnext hlog
  subst hlog
  have htidy := h.tidy.step hnext
  by_cases hpop : ∃ i inputChunksize, e = .pop i inputChunksize
  · obtain ⟨i, inputChunksize, rfl⟩ := hpop
    simp only [client, clientStep, Option.ite_none_right_eq_some, Option.some.injEq] at hnext
    obtain ⟨-, rfl⟩ := hnext
    exact h.pop i inputChunksize htidy
  have hsends : sends s e t = [] := sends_of_ne_pop fun i n he => hpop ⟨i, n, he⟩
  rw [hsends, List.append_nil]
  rcases clientStep_cases h.tidy hnext with ⟨i, n, rfl, -, hlive, -⟩ | ⟨i, n, he, -⟩ |
    ⟨i, chunk, b, -, htask, rfl⟩ | ⟨i, -, hi, -, rfl⟩ | ⟨-, rfl⟩ | ⟨-, rfl⟩
  · exact h.setNode hlive htidy
  · exact absurd ⟨i, n, he⟩ hpop
  · have hlive : (s.nodes i).task.live = true := by rw [htask]; rfl
    have hset := h.setNode (n := { s.nodes i with task := .uploading chunk true }) hlive
      ⟨htidy.fits, htidy.outside⟩
    exact ⟨htidy, hset.known, hset.listOf, hset.ascending, hset.apart, hset.unmixed⟩
  · -- only nodes of the job are removed
    have hother : ∀ j, (s.nodes j).state = .removed → j ≠ i := by
      rintro j hj rfl
      exact hi (h.known j hj)
    refine h.of_lists htidy (fun j hj => ?_) (fun j => ?_) (fun j hj => ?_) rfl
    · by_cases hji : j = i
      · exact List.mem_append_right _ (List.mem_singleton.2 hji)
      · refine List.mem_append_left _ (h.known j ?_)
        rwa [← Client.nodes_setNode_of_ne hji]
    · show Function.update s.listOf i i j = j
      by_cases hji : j = i
      · rw [hji, Function.update_self]
      · rw [Function.update_of_ne hji, h.listOf]
    · show ((s.setNode i _).nodes j).state = .removed
      rwa [Client.nodes_setNode_of_ne (hother j hj)]
  · obtain ⟨lists, inputsDone, ended, hlook, hfold, -⟩ := Client.look_eq s
    have hhanded := h.foldl_handOn s.order
    rw [hfold] at hhanded
    rw [hlook] at htidy ⊢
    exact ⟨htidy, hhanded.known, hhanded.listOf, hhanded.ascending, hhanded.apart, hhanded.unmixed⟩
  · exact ⟨htidy, h.known, h.listOf, h.ascending, h.apart, h.unmixed⟩

end Order

/-! ### The claim -/

section Main

variable [DecidableEq ι]

/-- What the claim says of the lists that the split gives: every input is in one list, a ready
node's, which has its inputs in ascending order once it is turned round, and the numbers of inputs
per slot are close. -/
structure FairSplit (readyNodes : List (ι × ℕ)) (inputs : List (List UInt8))
    (lists : ι → List Input) : Prop where
  part : ∀ i, (lists i).reverse.Sublist (enumerate inputs)
  once : ∀ input ∈ enumerate inputs, ∃! i, input ∈ lists i
  ready : ∀ i, lists i ≠ [] → i ∈ readyNodes.map Prod.fst
  fair : ∀ a ∈ readyNodes, ∀ b ∈ readyNodes,
    |((lists a.1).length : ℚ) / a.2 - (lists b.1).length / b.2| ≤ 1

/-- What the claim says of a run: a node uploads its own inputs in ascending order, and nothing
else unless a node has been removed. -/
structure InOrder (own : ι → List ℕ) (t : Client ι) (log : List (ι × ℕ)) : Prop where
  ascending : ∀ i, ((sentBy i log).filter (own i).contains).Pairwise (· < ·)
  unmixed : (∀ i, (t.nodes i).state ≠ .removed) → ∀ i, (sentBy i log).Pairwise (· < ·)

variable {readyNodes : List (ι × ℕ)} {bootingNodes : List ι} {inputs : List (List UInt8)}

/-- The share of a node is that of its slots, up to one for each. -/
lemma share_div {destinations : List ι} {i : ι} {t : ℕ} (hne : destinations ≠ [])
    (hcount : destinations.count i = t) (ht : 1 ≤ t) (n : ℕ) :
    ((n / destinations.length : ℕ) : ℚ) ≤ RoundRobin.share destinations i n / t ∧
      (RoundRobin.share destinations i n : ℚ) / t ≤ (n / destinations.length : ℕ) + 1 := by
  have hpos : (0 : ℚ) < t := by exact_mod_cast ht
  have hlow : n / destinations.length * destinations.count i ≤
      RoundRobin.share destinations i n := RoundRobin.mul_count_le n
  have hhigh := RoundRobin.count_le_mul (a := i) hne n
  rw [hcount] at hlow hhigh
  constructor
  · rw [le_div_iff₀ hpos]
    exact_mod_cast hlow
  · rw [div_le_iff₀ hpos]
    exact_mod_cast hhigh

lemma partOf_fair (hready : readyNodes ≠ []) (hslots : ∀ node ∈ readyNodes, 1 ≤ node.2)
    (hnodup : (readyNodes.map Prod.fst).Nodup) (inputs : List (List UInt8)) :
    FairSplit readyNodes inputs fun i =>
      (partOf (inputDestinations readyNodes) (enumerate inputs) i).reverse := by
  have hne := inputDestinations_ne_nil hnodup hready hslots
  refine ⟨fun i => ?_, fun input hinput => ?_, fun i hi => ?_, fun a ha b hb => ?_⟩
  · rw [List.reverse_reverse]
    exact List.filter_sublist
  · obtain ⟨i, -, hturn⟩ := RoundRobin.exists_turn hne input.inputIndex
    refine ⟨i, ?_, fun j hj => ?_⟩
    · simp only [List.mem_reverse, partOf, List.mem_filter]
      exact ⟨hinput, by simpa using hturn⟩
    · simp only [List.mem_reverse, partOf, List.mem_filter, decide_eq_true_eq] at hj
      exact Option.some.inj (hj.2.symm.trans hturn)
  · obtain ⟨input, hinput⟩ := List.exists_mem_of_ne_nil _ hi
    simp only [List.mem_reverse, partOf, List.mem_filter, decide_eq_true_eq] at hinput
    obtain ⟨j, hj, hturn⟩ := RoundRobin.exists_turn hne input.inputIndex
    obtain rfl : j = i := Option.some.inj (hturn.symm.trans hinput.2)
    exact mem_inputDestinations hj
  · simp only [List.length_reverse, length_partOf_enumerate]
    obtain ⟨halow, hahigh⟩ := share_div hne (count_inputDestinations hnodup ha) (hslots a ha)
      inputs.length
    obtain ⟨hblow, hbhigh⟩ := share_div hne (count_inputDestinations hnodup hb) (hslots b hb)
      inputs.length
    rw [abs_le]
    constructor <;> linarith

/-- The client begins in order. -/
lemma ordered_of_startClient {s : Client ι} (hready : readyNodes ≠ [])
    (hnodup : (readyNodes.map Prod.fst ++ bootingNodes).Nodup)
    (hsplit : FairSplit readyNodes inputs s.lists)
    (hstart : startClient readyNodes bootingNodes inputs = some s) :
    Ordered (fun i => indices (s.lists i)) (s, []) := by
  obtain ⟨node, rest, rfl⟩ := List.exists_cons_of_ne_nil hready
  have horder : s.order = (node :: rest).map Prod.fst ++ bootingNodes := by
    simp only [startClient, Option.map_eq_some_iff] at hstart
    obtain ⟨p, -, rfl⟩ := hstart
    rfl
  have hsound := (Client.started_sound (k := 0) (horder ▸ hnodup) hstart).1
  have hstate : ∀ i, (s.nodes i).state ≠ .removed ∧ s.listOf i = i := by
    intro i
    simp only [startClient, splitInputs, Option.map_eq_some_iff] at hstart
    obtain ⟨p, hp, rfl⟩ := hstart
    split_ifs at hp
    obtain rfl := Option.some.inj hp
    refine ⟨?_, rfl⟩
    dsimp only
    split_ifs <;> decide
  have hline : ∀ i, line s [] i = (indices (s.lists i)).reverse := fun i => List.nil_append _
  refine ⟨hsound.tidy, fun i hi => absurd hi (hstate i).1, fun i => (hstate i).2, fun i => ?_,
    fun i j _ hji k hi hj => ?_, fun _ i => ?_⟩
  · dsimp only
    rw [hline, indices, ← List.map_reverse]
    exact (pairwise_enumerate inputs).sublist
      (List.filter_sublist.trans ((hsplit.part i).map _))
  · -- an index is that of one input, which is in one list
    have henumerate : ∀ {i input}, input ∈ s.lists i → input ∈ enumerate inputs :=
      fun {i _} h => (hsplit.part i).subset (List.mem_reverse.2 h)
    obtain ⟨input, hinput, rfl⟩ := List.mem_map.1 hi
    obtain ⟨input', hinput', hsame⟩ := List.mem_map.1 hj
    obtain rfl : input' = input :=
      List.inj_on_of_nodup_map (pairwise_enumerate inputs).nodup (henumerate hinput')
        (henumerate hinput) hsame
    exact hji ((hsplit.once input' (henumerate hinput)).unique hinput' hinput)
  · dsimp only
    rw [hline]
    exact fun k hk => List.mem_reverse.1 hk

lemma Ordered.inOrder {own : ι → List ℕ} {t : Client ι} {log : List (ι × ℕ)}
    (h : Ordered own (t, log)) : InOrder own t log := by
  have hsent : ∀ i, (sentBy i log).Sublist (line t log i) := fun i =>
    List.sublist_append_left _ _
  have hown : ∀ i, ((sentBy i log).filter (own i).contains).Pairwise (· < ·) := fun i =>
    (h.ascending i).sublist ((hsent i).filter _)
  refine ⟨hown, fun hall i => ?_⟩
  have hfilter : (sentBy i log).filter (own i).contains = sentBy i log := by
    rw [List.filter_eq_self]
    intro k hk
    simpa using h.unmixed hall i ((hsent i).subset hk)
  rw [← hfilter]
  exact hown i

/-- **The split is fair and complete**: every input is in one ready node's list, the numbers of
inputs per slot differ by one at most, and in every run each node uploads its inputs in ascending
order. -/
theorem split_fair (hready : readyNodes ≠ []) (hslots : ∀ node ∈ readyNodes, 1 ≤ node.2)
    (hnodup : (readyNodes.map Prod.fst ++ bootingNodes).Nodup) (inputs : List (List UInt8)) :
    ∃ s, startClient readyNodes bootingNodes inputs = some s ∧
      FairSplit readyNodes inputs s.lists ∧
      ∀ events t log, ((client ι).logged sends).Run System.always (s, []) events (t, log) →
        InOrder (fun i => indices (s.lists i)) t log := by
  have hnames : (readyNodes.map Prod.fst).Nodup := hnodup.of_append_left
  have hne := inputDestinations_ne_nil hnames hready hslots
  obtain ⟨s, hstart, hlists⟩ : ∃ s, startClient readyNodes bootingNodes inputs = some s ∧
      s.lists = fun i =>
        (partOf (inputDestinations readyNodes) (enumerate inputs) i).reverse := by
    obtain ⟨node, rest, rfl⟩ := List.exists_cons_of_ne_nil hready
    simp only [startClient, splitInputs, if_neg hne, Option.map_some, Option.some.injEq,
      exists_eq_left']
    funext i
    rw [foldl_deal_eq, List.nil_append]
  have hsplit : FairSplit readyNodes inputs s.lists := by
    rw [hlists]
    exact partOf_fair hready hslots hnames inputs
  refine ⟨s, hstart, hsplit, fun events t log hrun => ?_⟩
  refine (System.Preserved.run (P := Ordered fun i => indices (s.lists i)) ?_
    (ordered_of_startClient hready hnodup hsplit hstart) hrun).inOrder
  intro p e q hp _ hstep
  exact hp.step hstep

/-- Three slots on two nodes, and a node that is booting. -/
theorem split_fair_threeSlots :
    ∃ s, startClient [(0, 2), (1, 1)] [2] [[1], [], [2, 3], [4]] = some s ∧
      FairSplit [(0, 2), (1, 1)] [[1], [], [2, 3], [4]] s.lists ∧
      ∀ events t log, ((client ℕ).logged sends).Run System.always (s, []) events (t, log) →
        InOrder (fun i => indices (s.lists i)) t log :=
  split_fair (by decide) (by decide) (by decide) _

end Main

end Burla.Upload
