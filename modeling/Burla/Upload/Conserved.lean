/-
Every input in exactly one place: how `_execute_job` splits the inputs, and the run of a job's
client with the uploads and results that its nodes have to show for it.

`places` has an entry for every copy of an input that is in a list, in a chunk on its way or on a
node.  An upload that fails ends its task, and the chunk goes with it
(`chunk_goes_with_its_task`); while no task has raised, an input is in exactly one place, and at
the end of a run with a result of every input each has been uploaded once (`placed_once`).
-/
import Burla.Upload.Placement

namespace Burla.Upload

open Burla.Steal (Input)

variable {ι : Type*}

/-! ### The split -/

/-- `list(enumerate(inputs))`, of inputs that are pickled already. -/
def enumerate (inputs : List (List UInt8)) : List Input :=
  inputs.zipIdx.map fun p => { inputIndex := p.2, inputPkl := p.1 }

/-- `input_destinations`: each ready node as often as it has slots, taking turns. -/
def inputDestinations (readyNodes : List (ι × ℕ)) : List ι :=
  (List.range ((readyNodes.map Prod.snd).foldl max 0)).flatMap fun slotIndex =>
    (readyNodes.filter fun node => slotIndex < node.2).map Prod.fst

section Split

variable [DecidableEq ι]

/-- An input goes to the end of its destination's list. -/
def deal (destinations : List ι) (lists : ι → List Input) (input : Input) : ι → List Input :=
  match destinations[input.inputIndex % destinations.length]? with
  | none => lists
  | some i => Function.update lists i (lists i ++ [input])

/-- Whose list a node's is, and the lists.  Without nodes, or when no node has a slot, the client
raises. -/
def splitInputs (readyNodes : List (ι × ℕ)) (bootingNodes : List ι) (inputs : List Input) :
    Option ((ι → ι) × (ι → List Input)) :=
  match readyNodes, bootingNodes with
  | [], [] => none
  | [], first :: _ => some (fun _ => first, Function.update (fun _ => []) first inputs.reverse)
  | _ :: _, _ =>
    let destinations := inputDestinations readyNodes
    if destinations = [] then none
    else
      let lists := inputs.foldl (deal destinations) fun _ => []
      some (id, fun i => (lists i).reverse)

/-- The client when its tasks have just been created. -/
def startClient (readyNodes : List (ι × ℕ)) (bootingNodes : List ι) (inputs : List (List UInt8)) :
    Option (Client ι) :=
  (splitInputs readyNodes bootingNodes (enumerate inputs)).map fun p =>
    { nInputs := inputs.length
      order := readyNodes.map Prod.fst ++ bootingNodes
      nodes := fun i =>
        if i ∈ readyNodes.map Prod.fst then
          { state := .ready, task := .assigning, lateJoin := false }
        else if i ∈ bootingNodes then { state := .booting, task := .booting, lateJoin := false }
        else { state := .other, task := .returned, lateJoin := false }
      listOf := p.1
      lists := p.2
      accepted := []
      inputsDone := false
      ended := false }

end Split

/-! ### Runs with uploads and results -/

/-- A place where a copy of an input can be. -/
inductive Place (ι : Type*)
  /-- In the list that belongs to a node, pending or left over. -/
  | list (i : ι)
  /-- In a chunk that a node's task is uploading. -/
  | chunk (i : ι)
  /-- Taken by a node. -/
  | uploaded (i : ι)
  deriving DecidableEq, Repr

/-- A job's client with what the nodes have taken and given. -/
structure Job (ι : Type*) where
  client : Client ι
  /-- Every input that a node has taken. -/
  uploads : List (ι × ℕ)
  /-- The inputs of the results that have been counted in `result_count`. -/
  results : List ℕ
  /-- The main loop has ended with `total_result_count` at `n_inputs`. -/
  succeeded : Bool

/-- What can happen next. -/
inductive JobEvent (ι : Type*)
  | client (e : ClientEvent ι)
  /-- A node's reply to a poll has results of inputs that were uploaded. -/
  | results (i : ι) (indices : List ℕ)
  /-- The main loop has counted enough results. -/
  | succeed
  deriving DecidableEq, Repr

/-- A chunk that the node has taken already. -/
def Task.taken : Task → Bool
  | .uploading _ accepted => accepted
  | _ => false

/-- What a node takes in a step. -/
def uploadsOf (s : Client ι) : ClientEvent ι → List (ι × ℕ)
  | .accept i =>
    match (s.nodes i).task with
    | .uploading chunk _ => chunk.map fun input => (i, input.inputIndex)
    | _ => []
  | _ => []

namespace Job

variable (s : Job ι) (k : ℕ)

/-- Where the copies of input `k` are. -/
def places : List (Place ι) :=
  (s.client.order.flatMap fun i =>
      ((s.client.lists i).filter fun input => input.inputIndex = k).map fun _ => .list i) ++
    (s.client.order.flatMap fun i =>
      ((s.client.nodes i).task.sending.filter fun input => input.inputIndex = k).map
        fun _ => .chunk i) ++
    (s.uploads.filter fun upload => upload.2 = k).map fun upload => .uploaded upload.1

end Job

section System

variable [DecidableEq ι]

/-- One step. -/
def jobStep (s : Job ι) : JobEvent ι → Option (Job ι)
  | .client e =>
    (clientStep s.client e).map fun client =>
      { s with client, uploads := s.uploads ++ uploadsOf s.client e }
  | .results i indices =>
    if ∀ k ∈ indices, k ∈ s.uploads.map Prod.snd then
      (clientStep s.client (.polled i)).map fun client =>
        { s with client, results := s.results ++ indices }
    else none
  | .succeed =>
    if s.client.ended = false ∧ s.client.nInputs ≤ s.results.length then
      some { s with client := { s.client with ended := true }, succeeded := true }
    else none

/-- A job's client right after the inputs have been split among nodes of different names. -/
structure Job.Started (s : Job ι) : Prop where
  client : ∃ readyNodes bootingNodes inputs,
    startClient readyNodes bootingNodes inputs = some s.client ∧ s.client.order.Nodup
  uploads : s.uploads = []
  results : s.results = []
  succeeded : s.succeeded = false

/-- The system of a job's client with uploads and results. -/
def job (ι : Type*) [DecidableEq ι] : System (Job ι) (JobEvent ι) where
  init := Job.Started
  step := jobStep

/-- An upload succeeds, once, or fails and the node has taken nothing. -/
def Definite (s : Job ι) : JobEvent ι → Prop
  | .client (.accept i) | .client (.raise i) => (s.client.nodes i).task.taken = false
  | _ => True

instance (s : Job ι) : (e : JobEvent ι) → Decidable (Definite s e)
  | .client (.accept i) | .client (.raise i) =>
    inferInstanceAs (Decidable ((s.client.nodes i).task.taken = false))
  | .client (.status _ _) | .client (.assigned _) | .client (.refused _)
  | .client (.unreachable _) | .client (.dropped _) | .client (.pop _ _)
  | .client (.uploaded _) | .client (.polled _) | .client (.done _) | .client (.silent _)
  | .client (.join _) | .client .look | .client .finish | .results _ _ | .succeed =>
    .isTrue trivial

end System

/-! ### Counting copies -/

/-- How many copies of input `k` a list has. -/
def copiesIn (k : ℕ) (inputs : List Input) : ℕ := (inputs.map Input.inputIndex).count k

section Copies

variable {k : ℕ} {inputs inputs' : List Input}

@[simp] lemma copiesIn_nil : copiesIn k [] = 0 := rfl

@[simp] lemma copiesIn_append :
    copiesIn k (inputs ++ inputs') = copiesIn k inputs + copiesIn k inputs' := by
  simp [copiesIn]

lemma copiesIn_perm (h : inputs.Perm inputs') : copiesIn k inputs = copiesIn k inputs' :=
  (h.map _).count_eq k

@[simp] lemma copiesIn_reverse : copiesIn k inputs.reverse = copiesIn k inputs :=
  copiesIn_perm (List.reverse_perm inputs)

lemma copiesIn_le_of_sublist (h : inputs.Sublist inputs') : copiesIn k inputs ≤ copiesIn k inputs' :=
  (h.map _).count_le k

lemma length_filter_eq_copiesIn :
    (inputs.filter fun input => input.inputIndex = k).length = copiesIn k inputs := by
  rw [copiesIn, List.count, List.countP_map, List.countP_eq_length_filter]
  rfl

/-- Every index is that of one input. -/
lemma copiesIn_enumerate (inputs : List (List UInt8)) :
    copiesIn k (enumerate inputs) = if k < inputs.length then 1 else 0 := by
  have hindices : (enumerate inputs).map Input.inputIndex = List.range inputs.length := by
    rw [enumerate, List.map_map, List.range_eq_range']
    exact List.zipIdx_map_snd 0 inputs
  rw [copiesIn, hindices, List.nodup_range.count]
  simp

end Copies

namespace Client

variable (s : Client ι) (k : ℕ)

/-- The copies of input `k` in the lists. -/
def listed : ℕ := (s.order.map fun i => copiesIn k (s.lists i)).sum

/-- The copies of input `k` in chunks that are on their way. -/
def sent : ℕ := (s.order.map fun i => copiesIn k (s.nodes i).task.sending).sum

/-- A task has raised. -/
def Raised : Prop := ∃ i ∈ s.order, (s.nodes i).task = .raised

instance : Decidable s.Raised := inferInstanceAs (Decidable (∃ i ∈ s.order, _))

end Client

/-- The copies of input `k` that there are. -/
def Job.copies (s : Job ι) (k : ℕ) : ℕ :=
  s.client.listed k + s.client.sent k + (s.uploads.map Prod.snd).count k

lemma Job.length_places (s : Job ι) (k : ℕ) : (s.places k).length = s.copies k := by
  have huploads : (s.uploads.filter fun upload => upload.2 = k).length =
      (s.uploads.map Prod.snd).count k := by
    rw [List.count, List.countP_map, List.countP_eq_length_filter]
    rfl
  simp only [places, copies, Client.listed, Client.sent, List.length_append, List.length_flatMap,
    List.length_map, length_filter_eq_copiesIn, huploads]

/-! ### What the split gives -/

section Split

variable [DecidableEq ι] {readyNodes : List (ι × ℕ)} {bootingNodes : List ι} {k : ℕ}

omit [DecidableEq ι] in
lemma mem_inputDestinations {i : ι} (h : i ∈ inputDestinations readyNodes) :
    i ∈ readyNodes.map Prod.fst := by
  obtain ⟨slotIndex, -, hi⟩ := List.mem_flatMap.1 h
  obtain ⟨node, hnode, rfl⟩ := List.mem_map.1 hi
  exact List.mem_map_of_mem (List.mem_of_mem_filter hnode)

/-- Every input goes to one of the destinations. -/
lemma deal_eq {destinations : List ι} (hne : destinations ≠ []) (lists : ι → List Input)
    (input : Input) : ∃ i ∈ destinations,
      deal destinations lists input = Function.update lists i (lists i ++ [input]) := by
  have hlt : input.inputIndex % destinations.length < destinations.length :=
    Nat.mod_lt _ (List.length_pos_of_ne_nil hne)
  refine ⟨destinations[input.inputIndex % destinations.length], List.getElem_mem hlt, ?_⟩
  rw [deal, List.getElem?_eq_getElem hlt]

/-- Dealing inputs out adds each to one list of the destinations'. -/
lemma foldl_deal {destinations order : List ι} (hne : destinations ≠ [])
    (hsub : destinations ⊆ order) (hnodup : order.Nodup) (inputs : List Input)
    (lists : ι → List Input) :
    ((order.map fun i => copiesIn k (inputs.foldl (deal destinations) lists i)).sum =
        (order.map fun i => copiesIn k (lists i)).sum + copiesIn k inputs) ∧
      ∀ i ∉ order, inputs.foldl (deal destinations) lists i = lists i := by
  induction inputs generalizing lists with
  | nil => simp
  | cons input inputs ih =>
    obtain ⟨i, hi, hdeal⟩ := deal_eq hne lists input
    obtain ⟨hsum, hothers⟩ := ih (deal destinations lists input)
    have hupdate := sum_map_update hnodup (hsub hi) (copiesIn k) lists (lists i ++ [input])
    have hcons : copiesIn k (input :: inputs) = copiesIn k [input] + copiesIn k inputs := by
      rw [← copiesIn_append, List.singleton_append]
    rw [List.foldl_cons]
    constructor
    · rw [hsum, hdeal, hcons]
      rw [copiesIn_append] at hupdate
      omega
    · intro j hj
      rw [hothers j hj, hdeal, Function.update_of_ne (ne_of_mem_of_not_mem (hsub hi) hj).symm]

/-- Dealing inputs out to empty lists. -/
lemma foldl_deal_nil {destinations order : List ι} (hne : destinations ≠ [])
    (hsub : destinations ⊆ order) (hnodup : order.Nodup) (inputs : List Input) :
    (order.map fun i => copiesIn k (inputs.foldl (deal destinations) (fun _ => []) i)).sum =
        copiesIn k inputs ∧
      ∀ i ∉ order, inputs.foldl (deal destinations) (fun _ => []) i = [] := by
  simpa using foldl_deal hne hsub hnodup inputs fun _ => []

/-- The split puts every input into one list, and every list is that of a node. -/
lemma splitInputs_sound {inputs : List Input} {listOf : ι → ι} {lists : ι → List Input}
    (hnodup : (readyNodes.map Prod.fst ++ bootingNodes).Nodup)
    (h : splitInputs readyNodes bootingNodes inputs = some (listOf, lists)) :
    (((readyNodes.map Prod.fst ++ bootingNodes).map fun i => copiesIn k (lists i)).sum =
        copiesIn k inputs) ∧
      (∀ i ∈ readyNodes.map Prod.fst ++ bootingNodes,
        listOf i ∈ readyNodes.map Prod.fst ++ bootingNodes) ∧
      (∀ i, lists i ≠ [] → listOf i = i) ∧
      ∀ i ∉ readyNodes.map Prod.fst ++ bootingNodes, lists i = [] := by
  cases readyNodes with
  | nil =>
    cases bootingNodes with
    | nil => simp [splitInputs] at h
    | cons first rest =>
      simp only [splitInputs, Option.some.injEq, Prod.mk.injEq] at h
      obtain ⟨rfl, rfl⟩ := h
      have hupdate := sum_map_update hnodup (List.mem_append_right _ (List.mem_cons_self ..))
        (copiesIn k) (fun _ => []) inputs.reverse
      have hothers : ∀ i ≠ first, Function.update (fun _ => []) first inputs.reverse i = [] :=
        fun i hi => Function.update_of_ne hi _ _
      refine ⟨?_, ?_, ?_, ?_⟩
      · simpa using hupdate
      · simp
      · intro i hi
        by_contra hne
        exact hi (hothers i (Ne.symm hne))
      · intro i hi
        refine hothers i ?_
        rintro rfl
        simp at hi
  | cons node readyNodes =>
    simp only [splitInputs] at h
    split_ifs at h with hne
    simp only [Option.some.injEq, Prod.mk.injEq] at h
    obtain ⟨rfl, rfl⟩ := h
    have hsub : inputDestinations (node :: readyNodes) ⊆
        (node :: readyNodes).map Prod.fst ++ bootingNodes :=
      fun i hi => List.mem_append_left _ (mem_inputDestinations hi)
    obtain ⟨hsum, hothers⟩ := foldl_deal_nil (k := k) hne hsub hnodup inputs
    refine ⟨?_, fun i hi => hi, fun i _ => rfl, ?_⟩
    · simpa only [copiesIn_reverse] using hsum
    · intro i hi
      simp only [hothers i hi, List.reverse_nil]

end Split

/-! ### What a step moves -/

namespace Client

/-- Nodes are told apart, and every list that has inputs is that of a node. -/
structure Sound (s : Client ι) : Prop where
  tidy : s.Tidy
  nodup : s.order.Nodup
  owners : ∀ i ∈ s.order, s.listOf i ∈ s.order
  unlisted : ∀ i ∉ s.order, s.lists i = []

section Start

variable [DecidableEq ι] {s : Client ι} {readyNodes : List (ι × ℕ)} {bootingNodes : List ι}
  {inputs : List (List UInt8)} {k : ℕ}

/-- A client that has just started has every input once, in a list. -/
lemma started_sound (hnodup : s.order.Nodup)
    (h : startClient readyNodes bootingNodes inputs = some s) :
    s.Sound ∧ s.nInputs = inputs.length ∧ s.sent k = 0 ∧
      s.listed k = if k < s.nInputs then 1 else 0 := by
  simp only [startClient, Option.map_eq_some_iff] at h
  obtain ⟨⟨listOf, lists⟩, hsplit, rfl⟩ := h
  obtain ⟨hsum, howners, -, hunlisted⟩ := splitInputs_sound (k := k) hnodup hsplit
  refine ⟨⟨⟨?_, ?_⟩, hnodup, howners, hunlisted⟩, rfl, ?_, ?_⟩
  · intro i
    dsimp only
    split_ifs <;> simp [ClientNode.Fits]
  · intro i hi
    rw [List.mem_append, not_or] at hi
    dsimp only
    rw [if_neg hi.1, if_neg hi.2]
  · refine List.sum_eq_zero fun n hn => ?_
    obtain ⟨i, -, rfl⟩ := List.mem_map.1 hn
    dsimp only
    split_ifs <;> rfl
  · exact hsum.trans (copiesIn_enumerate inputs)

/-- Such a client is one that the results about its runs start from. -/
lemma fresh_of_startClient (hnodup : s.order.Nodup)
    (h : startClient readyNodes bootingNodes inputs = some s) : s.Fresh := by
  have hlisted : ∀ k < s.nInputs, s.listed k = 1 := fun k hk =>
    (started_sound hnodup h).2.2.2.trans (if_pos hk)
  simp only [startClient, Option.map_eq_some_iff] at h
  obtain ⟨⟨listOf, lists⟩, hsplit, rfl⟩ := h
  obtain ⟨-, howners, hself, -⟩ := splitInputs_sound (k := 0) hnodup hsplit
  refine ⟨?_, ?_, ?_, howners, rfl⟩
  · intro k hk
    by_contra hnone
    push Not at hnone
    have hzero : ∀ n ∈ (readyNodes.map Prod.fst ++ bootingNodes).map
        (fun i => copiesIn k (lists i)), n = 0 := by
      intro n hn
      obtain ⟨i, hi, rfl⟩ := List.mem_map.1 hn
      by_cases hlist : lists i = []
      · rw [hlist, copiesIn_nil]
      · refine List.count_eq_zero.2 ?_
        have hi' : k ∉ (lists (listOf i)).map Input.inputIndex := hnone i hi
        rwa [hself i hlist] at hi'
    have hone := hlisted k hk
    rw [listed, List.sum_eq_zero hzero] at hone
    exact absurd hone (by decide)
  · intro i hi
    dsimp only
    split_ifs with hready hbooting
    · exact .inr ⟨rfl, rfl⟩
    · exact .inl ⟨rfl, rfl⟩
    · exact absurd hi (by simp only [List.mem_append, not_or]; exact ⟨hready, hbooting⟩)
  · intro i hi
    rw [List.mem_append, not_or] at hi
    dsimp only
    rw [if_neg hi.1, if_neg hi.2]
    exact ⟨rfl, rfl⟩

end Start

section Steps

variable [DecidableEq ι] {s t : Client ι} {i : ι} {k : ℕ}

/-- What a node's task sends is all that changes with it. -/
lemma Sound.sent_setNode (h : s.Sound) (hi : i ∈ s.order) (node : ClientNode) :
    (s.setNode i node).sent k + copiesIn k (s.nodes i).task.sending =
      s.sent k + copiesIn k node.task.sending :=
  sum_map_update h.nodup hi (fun node : ClientNode => copiesIn k node.task.sending) s.nodes node

/-- Handing leftovers on moves them from one list to another. -/
lemma Sound.handOn (h : s.Sound) (i : ι) (hi : i ∈ s.order) :
    (s.handOn i).Sound ∧ (s.handOn i).listed k = s.listed k := by
  by_cases hskip : (s.nodes i).state ≠ .removed ∨ s.inputs i = []
  · rw [Client.handOn, if_pos hskip]
    exact ⟨h, rfl⟩
  rw [Client.handOn, if_neg hskip]
  cases hn : s.recipientFor i with
  | none => exact ⟨h, rfl⟩
  | some n =>
    obtain ⟨hmem, hne⟩ := mem_order_of_recipientFor hn
    have hfrom := h.owners i hi
    have hto := h.owners n hmem
    refine ⟨⟨⟨h.tidy.fits, h.tidy.outside⟩, h.nodup, h.owners, fun j hj => ?_⟩, ?_⟩
    · show Function.update (Function.update s.lists (s.listOf n) _) (s.listOf i) [] j = []
      rw [Function.update_of_ne (ne_of_mem_of_not_mem hfrom hj).symm,
        Function.update_of_ne (ne_of_mem_of_not_mem hto hj).symm]
      exact h.unlisted j hj
    · have hput := sum_map_update h.nodup hto (copiesIn k) s.lists (s.inputs n ++ s.inputs i)
      have htaken := sum_map_update h.nodup hfrom (copiesIn k)
        (Function.update s.lists (s.listOf n) (s.inputs n ++ s.inputs i)) []
      rw [Function.update_of_ne hne.symm, copiesIn_nil] at htaken
      rw [copiesIn_append] at hput
      simp only [listed, Client.inputs] at hput htaken ⊢
      omega

lemma Sound.foldl_handOn (h : s.Sound) {l : List ι} (hl : l ⊆ s.order) :
    (l.foldl Client.handOn s).Sound ∧ (l.foldl Client.handOn s).listed k = s.listed k := by
  induction l generalizing s with
  | nil => exact ⟨h, rfl⟩
  | cons i l ih =>
    obtain ⟨hi, hl⟩ := List.cons_subset.1 hl
    obtain ⟨hsound, hlisted⟩ := h.handOn (k := k) i hi
    obtain ⟨lists, hlists⟩ := handOn_eq s i
    have horder : (s.handOn i).order = s.order := by rw [hlists]
    obtain ⟨hsound', hlisted'⟩ := ih hsound (horder ▸ hl)
    exact ⟨hsound', hlisted'.trans hlisted⟩

/-- What is in the lists after a task has taken inputs out of one. -/
lemma Sound.listed_update (h : s.Sound) {o : ι} (ho : o ∈ s.order) (task : Task)
    (rest : List Input) :
    Client.listed { s.setTask i task with lists := Function.update s.lists o rest } k +
        copiesIn k (s.lists o) = s.listed k + copiesIn k rest :=
  sum_map_update h.nodup ho (copiesIn k) s.lists rest

lemma Sound.sent_update (h : s.Sound) (hi : i ∈ s.order) (task : Task) (lists : ι → List Input) :
    Client.sent { s.setTask i task with lists } k + copiesIn k (s.nodes i).task.sending =
      s.sent k + copiesIn k task.sending :=
  h.sent_setNode hi { s.nodes i with task }

/-- A chunk that is popped takes its inputs out of the list, or the task raises. -/
lemma Sound.pop (h : s.Sound) (hi : i ∈ s.order) (htask : (s.nodes i).task = .looping)
    (inputChunksize : ℕ) :
    (∀ j ∉ s.order, (s.pop i inputChunksize).lists j = []) ∧
      (s.pop i inputChunksize).listed k + (s.pop i inputChunksize).sent k ≤
        s.listed k + s.sent k ∧
      ((s.pop i inputChunksize).Raised ∨
        (s.pop i inputChunksize).listed k + (s.pop i inputChunksize).sent k =
          s.listed k + s.sent k) := by
  obtain ⟨task, rest, hpop, hcase⟩ := pop_eq s i inputChunksize
  have howner := h.owners i hi
  have hrest : rest.Sublist (s.inputs i) := by
    have hlists := s.lists_pop i inputChunksize
    rw [hpop] at hlists
    have heq : rest = (popChunk inputChunksize (s.inputs i)).2 := by
      simpa only [Function.update_self] using hlists
    rw [heq]
    exact sublist_popChunk inputChunksize (s.inputs i)
  have hlisted := h.listed_update (i := i) (k := k) howner task rest
  have hsent := h.sent_update (k := k) hi task (Function.update s.lists (s.listOf i) rest)
  have hnone : copiesIn k (s.nodes i).task.sending = 0 := by rw [htask]; rfl
  have hinputs : copiesIn k (s.lists (s.listOf i)) = copiesIn k (s.inputs i) := rfl
  rw [hpop]
  refine ⟨fun j hj => ?_, ?_⟩
  · show Function.update s.lists (s.listOf i) rest j = []
    rw [Function.update_of_ne (ne_of_mem_of_not_mem howner hj).symm]
    exact h.unlisted j hj
  · rcases hcase with rfl | ⟨-, hperm⟩
    · -- the chunk, and an input that is too big, are gone
      have hle := copiesIn_le_of_sublist (k := k) hrest
      have hzero : copiesIn k (Task.sending .raised) = 0 := rfl
      refine ⟨by omega, .inl ⟨i, hi, ?_⟩⟩
      show ((s.setTask i .raised).nodes i).task = .raised
      rw [nodes_setTask_self]
    · have hcopies := copiesIn_perm (k := k) hperm
      rw [copiesIn_append] at hcopies
      exact ⟨by omega, .inr (by omega)⟩

/-- A node that joins has nothing yet. -/
lemma join_copies (hi : i ∉ s.order) (hempty : s.lists i = []) (node : ClientNode)
    (hnode : node.task.sending = []) :
    Client.listed
        { s.setNode i node with
          order := s.order ++ [i], listOf := Function.update s.listOf i i } k = s.listed k ∧
      Client.sent
        { s.setNode i node with
          order := s.order ++ [i], listOf := Function.update s.listOf i i } k = s.sent k := by
  constructor
  · show ((s.order ++ [i]).map fun j => copiesIn k (s.lists j)).sum = s.listed k
    simp [hempty, listed]
  · have hsame : (s.order.map fun j => copiesIn k ((s.setNode i node).nodes j).task.sending) =
        s.order.map fun j => copiesIn k (s.nodes j).task.sending :=
      List.map_congr_left fun j hj => by rw [nodes_setNode_of_ne (ne_of_mem_of_not_mem hj hi)]
    show ((s.order ++ [i]).map fun j => copiesIn k ((s.setNode i node).nodes j).task.sending).sum =
      s.sent k
    rw [List.map_append, List.sum_append, hsame]
    simp [hnode, sent]

omit [DecidableEq ι] in
/-- A task that has raised stays so. -/
lemma Raised.of_nodes (h : s.Raised) (horder : s.order ⊆ t.order)
    (hnodes : ∀ j ∈ s.order, (s.nodes j).task = .raised → (t.nodes j).task = .raised) :
    t.Raised := by
  obtain ⟨j, hj, hraised⟩ := h
  exact ⟨j, horder hj, hnodes j hj hraised⟩

lemma Raised.setNode (h : s.Raised) (node : ClientNode) (hlive : (s.nodes i).task ≠ .raised) :
    (s.setNode i node).Raised := by
  refine h.of_nodes (List.Subset.refl _) fun j _ hj => ?_
  have hji : j ≠ i := fun he => hlive (he ▸ hj)
  rwa [nodes_setNode_of_ne hji]

/-- The node takes the chunk. -/
lemma Sound.accept (h : s.Sound) (hi : i ∈ s.order) {chunk : List Input}
    (htask : (s.nodes i).task = .uploading chunk false) (accepted : List ℕ) :
    Client.sent { s.setTask i (.uploading chunk true) with accepted } k + copiesIn k chunk =
      s.sent k := by
  have hsent := h.sent_setNode (k := k) hi { s.nodes i with task := .uploading chunk true }
  rw [htask] at hsent
  exact hsent

end Steps

end Client

section Runs

variable [DecidableEq ι] {s t : Client ι} {e : ClientEvent ι} {k : ℕ}

/-- What a step makes of the copies of an input: none is added, and none goes unless a task
raises. -/
structure Moves (s : Client ι) (uploads : List (ι × ℕ)) (t : Client ι) (k : ℕ) : Prop where
  le : t.listed k + t.sent k + (uploads.map Prod.snd).count k ≤ s.listed k + s.sent k
  eq : ¬t.Raised → t.listed k + t.sent k + (uploads.map Prod.snd).count k = s.listed k + s.sent k
  raised : s.Raised → t.Raised
  nInputs : t.nInputs = s.nInputs

omit [DecidableEq ι] in
/-- A step after which everything is where it was. -/
lemma Moves.of_eq (hlisted : t.listed k = s.listed k) (hsent : t.sent k = s.sent k)
    (hraised : s.Raised → t.Raised) (hn : t.nInputs = s.nInputs) : Moves s [] t k where
  le := by simp [hlisted, hsent]
  eq _ := by simp [hlisted, hsent]
  raised := hraised
  nInputs := hn

lemma Client.Sound.moves_accept {i : ι} {chunk : List Input} (h : s.Sound)
    (htask : (s.nodes i).task = .uploading chunk false) :
    Moves s (uploadsOf s (.accept i))
      { s.setTask i (.uploading chunk true) with
        accepted := s.accepted ++ chunk.map Input.inputIndex } k := by
  have hi := h.tidy.mem_order (i := i) (by rw [htask]; rfl)
  have hsent := h.accept (k := k) hi htask (s.accepted ++ chunk.map Input.inputIndex)
  have huploads : ((uploadsOf s (.accept i)).map Prod.snd).count k = copiesIn k chunk := by
    simp only [uploadsOf, htask, List.map_map]
    rfl
  have hcopies : ∀ n : ℕ, n + copiesIn k chunk = s.sent k →
      s.listed k + n + ((uploadsOf s (.accept i)).map Prod.snd).count k =
        s.listed k + s.sent k := by
    intro n hn
    omega
  refine ⟨(hcopies _ hsent).le, fun _ => hcopies _ hsent, fun hraised => ?_, rfl⟩
  have hne : (s.nodes i).task ≠ .raised := by simp [htask]
  exact hraised.setNode { s.nodes i with task := .uploading chunk true } hne

/-- **One step** of the client moves copies, unless a task raises. -/
lemma Client.Sound.moves (h : s.Sound) (hstep : clientStep s e = some t)
    (htaken : ∀ i, e = .accept i → (s.nodes i).task.taken = false) :
    Moves s (uploadsOf s e) t k := by
  by_cases haccept : ∃ i, e = .accept i
  · obtain ⟨i, rfl⟩ := haccept
    rcases htask : (s.nodes i).task with _ | _ | _ | _ | ⟨chunk, accepted⟩ | _ | _ | _ <;>
      simp only [clientStep, htask, reduceCtorEq, Option.some.injEq] at hstep
    obtain rfl : accepted = false := by simpa [htask, Task.taken] using htaken i rfl
    subst hstep
    exact h.moves_accept htask
  have hnone : uploadsOf s e = [] := by
    cases e with
    | accept i => exact absurd ⟨i, rfl⟩ haccept
    | _ => rfl
  rw [hnone]
  rcases clientStep_cases h.tidy hstep with ⟨i, n, rfl, -, hlive, -, hsending, -⟩ |
    ⟨i, inputChunksize, -, htask, rfl⟩ | ⟨i, chunk, b, rfl, -, -⟩ | ⟨i, -, hi, hempty, rfl⟩ |
    ⟨-, rfl⟩ | ⟨-, rfl⟩
  · have hi := h.tidy.mem_order hlive
    have hsent := h.sent_setNode (k := k) hi n
    have hlisted : (s.setNode i n).listed k = s.listed k := rfl
    have hne : (s.nodes i).task ≠ .raised := by
      intro hraised
      simp [hraised, Task.live] at hlive
    refine ⟨?_, fun hraised => ?_, fun hraised => hraised.setNode n hne, rfl⟩
    · rcases hsending with hraised | hsame
      · rw [hraised] at hsent
        simp only [Task.sending, copiesIn_nil, List.map_nil, List.count_nil] at hsent ⊢
        omega
      · rw [hsame] at hsent
        simp only [List.map_nil, List.count_nil]
        omega
    · have hsame := hsending.resolve_left fun hn => hraised ⟨i, hi, by rwa [nodes_setNode_self]⟩
      rw [hsame] at hsent
      simp only [List.map_nil, List.count_nil]
      omega
  · have hi := h.tidy.mem_order (i := i) (by rw [htask]; rfl)
    obtain ⟨-, hle, heq⟩ := h.pop (k := k) hi htask inputChunksize
    obtain ⟨task, rest, hpop, -⟩ := pop_eq s i inputChunksize
    refine ⟨by simpa using hle, fun hraised => by simpa using heq.resolve_left hraised, ?_, ?_⟩
    · intro hraised
      have hne : (s.nodes i).task ≠ .raised := by simp [htask]
      rw [hpop]
      exact hraised.setNode { s.nodes i with task } hne
    · rw [hpop]
      rfl
  · exact absurd ⟨i, rfl⟩ haccept
  · obtain ⟨hlisted, hsent⟩ := join_copies (k := k) hi hempty
      { state := .booting, task := .booting, lateJoin := true } rfl
    refine .of_eq hlisted hsent (fun hraised => ?_) rfl
    refine hraised.of_nodes (List.subset_append_left _ _) fun j hj htask => ?_
    simpa only [nodes_setNode_of_ne (ne_of_mem_of_not_mem hj hi)] using htask
  · obtain ⟨lists, inputsDone, ended, hlook, hfold, -⟩ := look_eq s
    have hlisted := (h.foldl_handOn (k := k) (List.Subset.refl s.order)).2
    rw [hfold] at hlisted
    rw [hlook]
    exact .of_eq hlisted rfl id rfl
  · exact .of_eq rfl rfl id rfl

/-- A step keeps nodes apart and inputs with them. -/
lemma Client.Sound.step (h : s.Sound) (hstep : clientStep s e = some t) : t.Sound := by
  have htidy := h.tidy.step hstep
  rcases clientStep_cases h.tidy hstep with ⟨i, n, rfl, -⟩ | ⟨i, inputChunksize, -, htask, rfl⟩ |
    ⟨i, chunk, b, -, -, rfl⟩ | ⟨i, -, hi, hempty, rfl⟩ | ⟨-, rfl⟩ | ⟨-, rfl⟩
  · exact ⟨htidy, h.nodup, h.owners, h.unlisted⟩
  · have hi := h.tidy.mem_order (i := i) (by rw [htask]; rfl)
    have hunlisted := (h.pop (k := 0) hi htask inputChunksize).1
    obtain ⟨task, rest, hpop, -⟩ := pop_eq s i inputChunksize
    rw [hpop] at htidy hunlisted ⊢
    exact ⟨htidy, h.nodup, h.owners, hunlisted⟩
  · exact ⟨htidy, h.nodup, h.owners, h.unlisted⟩
  · refine ⟨htidy, ?_, ?_, ?_⟩
    · show (s.order ++ [i]).Nodup
      rw [List.nodup_append]
      refine ⟨h.nodup, List.nodup_singleton i, fun j hj l hl => ?_⟩
      rw [List.mem_singleton.1 hl]
      exact ne_of_mem_of_not_mem hj hi
    · intro j hj
      show Function.update s.listOf i i j ∈ s.order ++ [i]
      by_cases hji : j = i
      · subst hji
        rwa [Function.update_self]
      · rw [Function.update_of_ne hji]
        have hjs : j ∈ s.order := by simpa [hji] using hj
        exact List.mem_append_left _ (h.owners j hjs)
    · intro j hj
      exact h.unlisted j fun hjs => hj (List.mem_append_left _ hjs)
  · obtain ⟨lists, inputsDone, ended, hlook, hfold, -⟩ := look_eq s
    have hsound := (h.foldl_handOn (k := 0) (List.Subset.refl s.order)).1
    rw [hfold] at hsound
    rw [hlook] at htidy ⊢
    exact ⟨htidy, h.nodup, h.owners, hsound.unlisted⟩
  · exact ⟨htidy, h.nodup, h.owners, h.unlisted⟩

end Runs

/-! ### One place for every input -/

namespace Job

/-- Inputs are not copied, and none is gone while no task has raised. -/
structure Conserved (s : Job ι) : Prop where
  sound : s.client.Sound
  atMost : ∀ k, s.copies k ≤ if k < s.client.nInputs then 1 else 0
  kept : ¬s.client.Raised → ∀ k < s.client.nInputs, s.copies k = 1
  results : ∀ k ∈ s.results, k ∈ s.uploads.map Prod.snd
  succeeded : s.succeeded = true → s.client.nInputs ≤ s.results.length

section Runs

variable [DecidableEq ι] {s t : Job ι} {e : JobEvent ι}

lemma Started.conserved (h : s.Started) : s.Conserved := by
  obtain ⟨readyNodes, bootingNodes, inputs, hstart, hnodup⟩ := h.client
  have hsound := fun k => Client.started_sound (k := k) hnodup hstart
  have hcopies : ∀ k, s.copies k = if k < s.client.nInputs then 1 else 0 := by
    intro k
    obtain ⟨-, -, hsent, hlisted⟩ := hsound k
    rw [copies, hlisted, hsent, h.uploads]
    simp
  refine ⟨(hsound 0).1, fun k => (hcopies k).le, fun _ k hk => ?_, ?_, ?_⟩
  · rw [hcopies, if_pos hk]
  · simp [h.results]
  · simp [h.succeeded]

omit [DecidableEq ι] in
/-- A step of the client that moves copies. -/
lemma Conserved.of_moves (h : s.Conserved) {client : Client ι} {uploads : List (ι × ℕ)}
    {results : List ℕ} (hsound : client.Sound)
    (hmoves : ∀ k, Moves s.client uploads client k)
    (hresults : ∀ k ∈ results, k ∈ s.uploads.map Prod.snd) :
    Job.Conserved
      { s with client, uploads := s.uploads ++ uploads, results := s.results ++ results } := by
  have hcopies : ∀ k, Job.copies
      { s with client, uploads := s.uploads ++ uploads, results := s.results ++ results } k =
        client.listed k + client.sent k + (uploads.map Prod.snd).count k +
          (s.uploads.map Prod.snd).count k := by
    intro k
    simp only [copies, List.map_append, List.count_append]
    omega
  have hn := (hmoves 0).nInputs
  refine ⟨hsound, fun k => ?_, fun hraised k hk => ?_, fun k hk => ?_, fun hsucceeded => ?_⟩
  · have hbefore := h.atMost k
    have hle := (hmoves k).le
    rw [hcopies, hn]
    rw [copies] at hbefore
    omega
  · have hbefore := h.kept (fun hs => hraised ((hmoves 0).raised hs)) k (hn ▸ hk)
    have heq := (hmoves k).eq hraised
    rw [hcopies]
    rw [copies] at hbefore
    omega
  · rw [List.map_append]
    refine List.mem_append_left _ ?_
    exact (List.mem_append.1 hk).elim (h.results k) (hresults k)
  · have hlen := h.succeeded hsucceeded
    show client.nInputs ≤ (s.results ++ results).length
    rw [hn, List.length_append]
    omega

lemma Conserved.step (h : s.Conserved) (hdef : Definite s e) (hstep : jobStep s e = some t) :
    t.Conserved := by
  cases e with
  | client e =>
    simp only [jobStep, Option.map_eq_some_iff] at hstep
    obtain ⟨client, hclient, rfl⟩ := hstep
    have htaken : ∀ i, e = .accept i → (s.client.nodes i).task.taken = false := by
      rintro i rfl
      exact hdef
    have hmoved := h.of_moves (h.sound.step hclient) (fun k => h.sound.moves hclient htaken)
      (List.forall_mem_nil _)
    simpa only [List.append_nil] using hmoved
  | results i indices =>
    simp only [jobStep, Option.ite_none_right_eq_some, Option.map_eq_some_iff] at hstep
    obtain ⟨hindices, client, hclient, rfl⟩ := hstep
    have hmoves : ∀ k, Moves s.client [] client k := fun k => h.sound.moves hclient (by simp)
    have hmoved := h.of_moves (h.sound.step hclient) hmoves hindices
    simpa only [List.append_nil] using hmoved
  | succeed =>
    simp only [jobStep, Option.ite_none_right_eq_some, Option.some.injEq] at hstep
    obtain ⟨⟨-, hlen⟩, rfl⟩ := hstep
    exact
      { sound := ⟨⟨h.sound.tidy.fits, h.sound.tidy.outside⟩, h.sound.nodup, h.sound.owners,
          h.sound.unlisted⟩
        atMost := h.atMost
        kept := h.kept
        results := h.results
        succeeded := fun _ => hlen }

lemma conserved_invariant : (job ι).Invariant Definite Conserved where
  init _ h := h.conserved
  step _ _ _ h hdef hstep := h.step hdef hstep

end Runs

/-- With a result of every input, each has been uploaded. -/
lemma Conserved.uploaded {s : Job ι} (h : s.Conserved) (hsucceeded : s.succeeded = true)
    (hresults : s.results.Nodup) {k : ℕ} (hk : k < s.client.nInputs) :
    k ∈ s.uploads.map Prod.snd := by
  have hsub : s.results ⊆ List.range s.client.nInputs := by
    intro l hl
    rw [List.mem_range]
    by_contra hlarge
    have hcopies := h.atMost l
    rw [if_neg hlarge, copies] at hcopies
    have hpos := List.count_pos_iff.2 (h.results l hl)
    omega
  have hperm : s.results.Perm (List.range s.client.nInputs) := by
    refine (List.subperm_of_subset hresults hsub).perm_of_length_le ?_
    rw [List.length_range]
    exact h.succeeded hsucceeded
  exact h.results k (hperm.mem_iff.2 (List.mem_range.2 hk))

/-- An input that a node has taken is nowhere else. -/
lemma Conserved.places_of_uploaded {s : Job ι} (h : s.Conserved) {k : ℕ}
    (hk : k ∈ s.uploads.map Prod.snd) : ∃ i, s.places k = [.uploaded i] := by
  obtain ⟨⟨i, l⟩, hmem, rfl⟩ := List.mem_map.1 hk
  have hle : (s.places l).length ≤ 1 := by
    rw [length_places]
    refine (h.atMost l).trans ?_
    split_ifs <;> omega
  have hplace : Place.uploaded i ∈ s.places l := by
    refine List.mem_append_right _ (List.mem_map.2 ⟨(i, l), ?_, rfl⟩)
    simpa using hmem
  have hone : (s.places l).length = 1 := Nat.le_antisymm hle (List.length_pos_of_mem hplace)
  obtain ⟨p, hp⟩ := List.length_eq_one_iff.1 hone
  rw [hp, List.mem_singleton] at hplace
  exact ⟨i, hp.trans (by rw [hplace])⟩

end Job

section Main

variable [DecidableEq ι]

end Main

/-! ### Runs of two nodes -/

/-- The job of two ready nodes with a slot each. -/
def twoReady (inputs : List (List UInt8)) : Option (Job ℕ) :=
  (startClient [(0, 1), (1, 1)] [] inputs).map fun client =>
    { client, uploads := [], results := [], succeeded := false }

lemma started_twoReady {inputs : List (List UInt8)} {s : Job ℕ} (h : twoReady inputs = some s) :
    s.Started := by
  simp only [twoReady, Option.map_eq_some_iff] at h
  obtain ⟨client, hstart, rfl⟩ := h
  refine ⟨⟨_, _, _, hstart, ?_⟩, rfl, rfl, rfl⟩
  simp only [startClient, Option.map_eq_some_iff] at hstart
  obtain ⟨p, -, rfl⟩ := hstart
  show [0, 1].Nodup
  decide

lemma reachable_of_exec {inputs : List (List UInt8)} {steps : List (JobEvent ℕ)} {t : Job ℕ}
    (h : ((twoReady inputs).bind fun s => ((job ℕ).guarded Definite).exec s steps) = some t) :
    (job ℕ).Reachable Definite t := by
  obtain ⟨s, hs, hexec⟩ := Option.bind_eq_some_iff.1 h
  exact ⟨s, steps, started_twoReady hs, System.run_of_exec_guarded hexec⟩

/-- Node 1 refuses the job, and node 0 gets its input while a replacement joins. -/
def handedOver : Job ℕ :=
  ((twoReady [[1], [2]]).bind fun s => ((job ℕ).guarded Definite).exec s
    [.client (.assigned 0), .client (.refused 1), .client (.join 2), .client .look,
      .client (.pop 0 2), .client (.accept 0), .client (.uploaded 0), .results 0 [0, 1],
      .succeed]).get (by decide +kernel)

/-- An upload that fails takes its chunk along: input 0 is nowhere. -/
def failedUpload : Job ℕ :=
  ((twoReady [[1], [2]]).bind fun s => ((job ℕ).guarded Definite).exec s
    [.client (.assigned 0), .client (.assigned 1), .client (.pop 0 1), .client (.raise 0)]).get
      (by decide +kernel)

/-- Input 0, which node 1 has stolen without node 0 knowing, has two results, and the job ends
with input 2 in node 0's list. -/
def countedTwice : Job ℕ :=
  ((twoReady [[1], [2], [3]]).bind fun s => ((job ℕ).guarded Definite).exec s
    [.client (.assigned 0), .client (.assigned 1), .client (.pop 0 1), .client (.pop 1 1),
      .client (.accept 0), .client (.uploaded 0), .client (.accept 1), .client (.uploaded 1),
      .results 0 [0], .results 1 [0, 1], .succeed]).get (by decide +kernel)

end Burla.Upload
