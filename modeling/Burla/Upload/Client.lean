/-
The client's upload of a job's inputs: the `execute_job` task of every node (_node.py) and the
main loop of `_execute_job` (_remote_parallel_map.py).

The inputs are in lists that the tasks pop chunks from.  Where nodes were ready at the start
each node has a list of its own; otherwise all that were booting share one, and nodes that
join later have their own.  `listOf` says whose list a node's is.
-/
import Burla.Lib.System
import Burla.Lib.Updates
import Burla.Steal.Endpoints

namespace Burla.Upload

open Burla.Steal (Input)

variable {ι : Type*}

/-! ### Chunks -/

/-- The inputs' indices. -/
def indices (chunk : List Input) : List ℕ := chunk.map Input.inputIndex

def maxInputSizeBytes : ℕ := 200000000

def maxChunkSizeBytes : ℕ := 2000000

/-- The loop that fills a chunk, on the list with its last input first: the chunk, unless an
input is too big, and what is left. -/
def fillChunk (inputChunksize : ℕ) (chunk : List Input) (chunkSizeBytes : ℕ) :
    List Input → Except ℕ (List Input) × List Input
  | [] => (.ok chunk, [])
  | input :: rest =>
    if chunk.length < inputChunksize then
      if maxInputSizeBytes < input.inputPkl.length then (.error input.inputIndex, rest)
      else if chunk ≠ [] ∧ maxChunkSizeBytes < chunkSizeBytes + input.inputPkl.length then
        (.ok chunk, input :: rest)
      else fillChunk inputChunksize (chunk ++ [input]) (chunkSizeBytes + input.inputPkl.length) rest
    else (.ok chunk, input :: rest)

/-- A chunk popped from the end of a list, and the list that is left. -/
def popChunk (inputChunksize : ℕ) (inputs : List Input) :
    Except ℕ (List Input) × List Input :=
  let p := fillChunk inputChunksize [] 0 inputs.reverse
  (p.1, p.2.reverse)

/-- A chunk is the end of its list, last input first. -/
lemma append_fillChunk (inputChunksize : ℕ) {inputs chunk chunk' rest : List Input} {bytes : ℕ}
    (h : fillChunk inputChunksize chunk bytes inputs = (.ok chunk', rest)) :
    chunk ++ inputs = chunk' ++ rest := by
  induction inputs generalizing chunk bytes with
  | nil =>
    obtain ⟨rfl, rfl⟩ : chunk = chunk' ∧ [] = rest := by simpa [fillChunk] using h
    rfl
  | cons input inputs ih =>
    simp only [fillChunk] at h
    split_ifs at h
    · simp at h
    · obtain ⟨rfl, rfl⟩ : chunk = chunk' ∧ input :: inputs = rest := by simpa using h
      rfl
    · simpa using ih h
    · obtain ⟨rfl, rfl⟩ : chunk = chunk' ∧ input :: inputs = rest := by simpa using h
      rfl

lemma append_popChunk {inputChunksize : ℕ} {inputs chunk rest : List Input}
    (h : popChunk inputChunksize inputs = (.ok chunk, rest)) :
    chunk ++ rest.reverse = inputs.reverse := by
  simp only [popChunk, Prod.mk.injEq] at h
  obtain ⟨hchunk, rfl⟩ := h
  have hfill := append_fillChunk inputChunksize (Prod.ext hchunk rfl :
    fillChunk inputChunksize [] 0 inputs.reverse = (.ok chunk, _))
  rw [List.reverse_reverse, ← hfill, List.nil_append]

/-- No input gets lost in a chunk that is complete. -/
lemma perm_popChunk {inputChunksize : ℕ} {inputs chunk rest : List Input}
    (h : popChunk inputChunksize inputs = (.ok chunk, rest)) : inputs.Perm (chunk ++ rest) := by
  have hperm : inputs.Perm (chunk ++ rest.reverse) := by
    rw [append_popChunk h]
    exact (List.reverse_perm inputs).symm
  exact hperm.trans ((List.reverse_perm rest).append_left chunk)

/-- What is left of a list was in it, also when an input is too big. -/
lemma suffix_fillChunk (inputChunksize : ℕ) (chunk : List Input) (bytes : ℕ) (inputs : List Input) :
    (fillChunk inputChunksize chunk bytes inputs).2 <:+ inputs := by
  induction inputs generalizing chunk bytes with
  | nil => exact List.suffix_refl _
  | cons input inputs ih =>
    simp only [fillChunk]
    split_ifs
    · exact List.suffix_cons input inputs
    · exact List.suffix_refl _
    · exact (ih _ _).trans (List.suffix_cons input inputs)
    · exact List.suffix_refl _

lemma sublist_popChunk (inputChunksize : ℕ) (inputs : List Input) :
    (popChunk inputChunksize inputs).2.Sublist inputs := by
  have hsuffix := (suffix_fillChunk inputChunksize [] 0 inputs.reverse).sublist.reverse
  rwa [List.reverse_reverse] at hsuffix

/-! ### Nodes and tasks -/

/-- `node.state`, as far as the client tells states apart. -/
inductive NodeState
  | booting
  | ready
  | running
  | removed
  | failed
  | done
  /-- Any other status that the head may report. -/
  | other
  deriving DecidableEq, Repr

/-- Where a node's `execute_job` task stands. -/
inductive Task
  /-- Waits for the node to boot. -/
  | booting
  | assigning
  /-- In `_fail_and_delete` of an assignment that got no reply. -/
  | unreachable
  /-- At the top of the loop. -/
  | looping
  /-- In `_upload_input_chunk`; whether the node has taken the chunk. -/
  | uploading (chunk : List Input) (accepted : Bool)
  /-- Waits for results. -/
  | polling
  | returned
  | raised
  deriving DecidableEq, Repr

/-- A task that has not ended. -/
def Task.live : Task → Bool
  | .returned | .raised => false
  | _ => true

/-- The chunk that is on its way to the node. -/
def Task.sending : Task → List Input
  | .uploading chunk false => chunk
  | _ => []

/-- The client's view of a node. -/
structure ClientNode where
  state : NodeState
  task : Task
  lateJoin : Bool
  deriving DecidableEq, Repr

/-- A job on the client. -/
structure Client (ι : Type*) where
  nInputs : ℕ
  /-- The nodes in the order in which they joined. -/
  order : List ι
  nodes : ι → ClientNode
  /-- Whose list a node's task pops from. -/
  listOf : ι → ι
  lists : ι → List Input
  /-- The inputs that nodes have taken. -/
  accepted : List ℕ
  /-- `inputs_done_event`: `all_inputs_uploaded` is patched. -/
  inputsDone : Bool
  /-- The main loop has ended. -/
  ended : Bool

/-- What can happen next. -/
inductive ClientEvent (ι : Type*)
  /-- The head reports a booting node's status. -/
  | status (i : ι) (state : NodeState)
  | assigned (i : ι)
  | refused (i : ι)
  | unreachable (i : ι)
  | dropped (i : ι)
  | pop (i : ι) (inputChunksize : ℕ)
  /-- The node takes the chunk that is uploaded to it. -/
  | accept (i : ι)
  /-- The client reads that the upload went through. -/
  | uploaded (i : ι)
  | polled (i : ι)
  /-- The node has left the job, or was deleted after finishing. -/
  | done (i : ι)
  /-- No results for too long. -/
  | silent (i : ι)
  /-- The task ends with an exception. -/
  | raise (i : ι)
  /-- A replacement node is found. -/
  | join (i : ι)
  /-- A pass of the main loop. -/
  | look
  /-- The job ends for a reason of its own: all results are in, it is canceled, it stalls. -/
  | finish
  deriving DecidableEq, Repr

namespace Client

variable [DecidableEq ι] (s : Client ι)

def setNode (i : ι) (n : ClientNode) : Client ι :=
  { s with nodes := Function.update s.nodes i n }

def setTask (i : ι) (task : Task) : Client ι := s.setNode i { s.nodes i with task }

section Nodes

variable {s} {i j : ι} {n : ClientNode} {task : Task}

@[simp] lemma nodes_setNode_self : (s.setNode i n).nodes i = n := Function.update_self ..

@[simp] lemma nodes_setTask_self : (s.setTask i task).nodes i = { s.nodes i with task } :=
  Function.update_self ..

lemma nodes_setNode_of_ne (hj : j ≠ i) : (s.setNode i n).nodes j = s.nodes j :=
  Function.update_of_ne hj _ _

lemma nodes_setTask_of_ne (hj : j ≠ i) : (s.setTask i task).nodes j = s.nodes j :=
  Function.update_of_ne hj _ _

end Nodes

/-- The list that a node's task pops from. -/
def inputs (i : ι) : List Input := s.lists (s.listOf i)

/-- A node that the main loop may hand inputs to. -/
def recipient (i : ι) : Bool :=
  (s.nodes i).state = .ready ∨ (s.nodes i).state = .running

/-- The first node that can take the inputs of `i`'s list into another one. -/
def recipientFor (i : ι) : Option ι :=
  s.order.find? fun n => s.recipient n && decide (s.listOf n ≠ s.listOf i)

/-- The main loop hands the inputs of a removed node on. -/
def handOn (i : ι) : Client ι :=
  if (s.nodes i).state ≠ .removed ∨ s.inputs i = [] then s
  else
    match s.recipientFor i with
    | none => s
    | some n =>
      { s with
        lists := Function.update (Function.update s.lists (s.listOf n) (s.inputs n ++ s.inputs i))
          (s.listOf i) [] }

/-- A task has raised, or a node has failed: the main loop ends the job on its next pass. -/
def Failing : Prop := ∃ i ∈ s.order, (s.nodes i).task = .raised ∨ (s.nodes i).state = .failed

instance : Decidable s.Failing := inferInstanceAs (Decidable (∃ i ∈ s.order, _))

/-- No list has an input left. -/
def Drained : Prop := ∀ i ∈ s.order, s.inputs i = []

instance : Decidable s.Drained := inferInstanceAs (Decidable (∀ i ∈ s.order, _))

/-- A pass of the main loop. -/
def look : Client ι :=
  let s' := s.order.foldl handOn s
  if s'.Failing then { s' with ended := true }
  else if s'.Drained ∧ s'.inputsDone = false then { s' with inputsDone := true }
  else s'

/-- The node's state as the head has it ends the wait, unless it is still booting. -/
def readStatus (i : ι) (state : NodeState) : Client ι :=
  match state with
  | .booting => s.setNode i { s.nodes i with state := .booting }
  | .ready => s.setNode i { s.nodes i with state := .ready, task := .assigning }
  | .failed =>
    s.setNode i
      { s.nodes i with
        state := if (s.nodes i).lateJoin then .removed else .failed, task := .returned }
  | state => s.setNode i { s.nodes i with state, task := .returned }

/-- A chunk is popped and its upload begins. -/
def pop (i : ι) (inputChunksize : ℕ) : Client ι :=
  let p := popChunk inputChunksize (s.inputs i)
  let s' := { s with lists := Function.update s.lists (s.listOf i) p.2 }
  match p.1 with
  | .error _ => s'.setTask i .raised
  | .ok [] => s'.setTask i .polling
  | .ok chunk => s'.setTask i (.uploading chunk false)

lemma lists_pop (i : ι) (inputChunksize : ℕ) :
    (s.pop i inputChunksize).lists (s.listOf i) = (popChunk inputChunksize (s.inputs i)).2 := by
  rw [pop]
  split <;> exact Function.update_self ..

/-- A task that pops raises, or goes on with a chunk of the list. -/
lemma pop_eq (i : ι) (inputChunksize : ℕ) :
    ∃ task rest,
      s.pop i inputChunksize =
        { s.setTask i task with lists := Function.update s.lists (s.listOf i) rest } ∧
      (task = .raised ∨ (task = .polling ∨ ∃ chunk, task = .uploading chunk false) ∧
        (s.inputs i).Perm (task.sending ++ rest)) := by
  cases hp : popChunk inputChunksize (s.inputs i) with
  | mk popped rest =>
    cases popped with
    | error index => exact ⟨.raised, rest, by simp only [pop, hp]; rfl, .inl rfl⟩
    | ok chunk =>
      have hperm := perm_popChunk hp
      cases chunk with
      | nil => exact ⟨.polling, rest, by simp only [pop, hp]; rfl, .inr ⟨.inl rfl, hperm⟩⟩
      | cons x xs =>
        refine ⟨.uploading (x :: xs) false, rest, by simp only [pop, hp]; rfl, .inr ⟨?_, hperm⟩⟩
        exact .inr ⟨x :: xs, rfl⟩

end Client

section System

variable [DecidableEq ι]

/-- One step. -/
def clientStep (s : Client ι) : ClientEvent ι → Option (Client ι)
  | .status i state =>
    if (s.nodes i).task = .booting then some (s.readStatus i state) else none
  | .assigned i =>
    if (s.nodes i).task = .assigning then
      some (s.setNode i { s.nodes i with state := .running, task := .looping })
    else none
  | .refused i =>
    if (s.nodes i).task = .assigning then
      some (s.setNode i { s.nodes i with state := .removed, task := .returned })
    else none
  | .unreachable i =>
    if (s.nodes i).task = .assigning then
      some (s.setNode i { s.nodes i with state := .failed, task := .unreachable })
    else none
  | .dropped i =>
    if (s.nodes i).task = .unreachable then
      some (s.setNode i { s.nodes i with state := .removed, task := .returned })
    else none
  | .pop i inputChunksize =>
    if (s.nodes i).task = .looping then some (s.pop i inputChunksize) else none
  | .accept i =>
    match (s.nodes i).task with
    | .uploading chunk _ =>
      some
        { s.setTask i (.uploading chunk true) with
          accepted := s.accepted ++ chunk.map Input.inputIndex }
    | _ => none
  | .uploaded i =>
    match (s.nodes i).task with
    | .uploading _ true => some (s.setTask i .polling)
    | _ => none
  | .polled i =>
    if (s.nodes i).task = .polling then some (s.setTask i .looping) else none
  | .done i =>
    if (s.nodes i).task = .polling then
      some (s.setNode i { s.nodes i with state := .done, task := .returned })
    else none
  | .silent i =>
    if (s.nodes i).task = .polling then
      some (s.setNode i { s.nodes i with state := .failed, task := .raised })
    else none
  | .raise i => if (s.nodes i).task.live then some (s.setTask i .raised) else none
  | .join i =>
    if i ∉ s.order ∧ s.lists i = [] then
      some
        { s.setNode i { state := .booting, task := .booting, lateJoin := true } with
          order := s.order ++ [i]
          listOf := Function.update s.listOf i i }
    else none
  | .look => if s.ended then none else some s.look
  | .finish => some { s with ended := true }

/-- At the start every input is in the list of a node, whose task has just begun. -/
structure Client.Fresh (s : Client ι) : Prop where
  inputs : ∀ k < s.nInputs, ∃ i ∈ s.order, k ∈ (s.inputs i).map Input.inputIndex
  tasks : ∀ i ∈ s.order, (s.nodes i).state = .booting ∧ (s.nodes i).task = .booting ∨
    (s.nodes i).state = .ready ∧ (s.nodes i).task = .assigning
  others : ∀ i ∉ s.order, (s.nodes i).task = .returned ∧ (s.nodes i).state = .other
  owners : ∀ i ∈ s.order, s.listOf i ∈ s.order
  inputsDone : s.inputsDone = false

/-- The system of a job's client. -/
def client (ι : Type*) [DecidableEq ι] : System (Client ι) (ClientEvent ι) where
  init := Client.Fresh
  step := clientStep

end System

end Burla.Upload
