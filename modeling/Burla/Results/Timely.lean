/-
Logs before results: a node whose log writers and workers fill `pending_logs` and
`results_queue`, and whose client polls both.

The documents that were queued for the client are numbered, so that it can be told which of them a
response brings.  `OnTime` says that no response has a result before the documents of its input,
unless an overflow warning has come instead.  The source drains the two buffers with caps of their
own, and takes documents out for responses that may be lost (`result_before_logs`); what keeps
the order is in `Timely` (`onTime_of_timely`).
-/
import Mathlib.Data.List.DropRight
import Burla.Lib.System
import Burla.Results.Logs

namespace Burla.Results

variable {ω : Type*}

/-! ### The system -/

/-- A response that the client has read. -/
structure Receipt where
  response : ResultsResponse
  /-- The numbers of the queued documents that it brings. -/
  documents : List ℕ
  /-- How many documents had been queued when it was made. -/
  queued : ℕ
  deriving DecidableEq, Repr

namespace Receipt

variable (r : Receipt) (i : ℕ)

/-- The response brings document `i`, which is `d`. -/
def Brings (d : LogDocument) : Prop := i ∈ r.documents ∧ d ∈ r.response.logs

/-- The response warns that documents were dropped, `i` perhaps among them. -/
def Warns : Prop :=
  i < r.queued ∧ ∃ d ∈ r.response.logs,
    d.inputIndex = none ∧ ∃ line ∈ d.logs, line.message = logsOverflowMessage

/-- Document `i` is in the response, or the response warns of its loss. -/
def Covers (d : LogDocument) : Prop := r.Brings i d ∨ r.Warns i

instance (d : LogDocument) : Decidable (r.Covers i d) :=
  inferInstanceAs (Decidable ((_ ∧ _) ∨ _ ∧ ∃ d ∈ r.response.logs, _ ∧ ∃ line ∈ d.logs, _))

end Receipt

/-- A node with its log writers and what happened to documents and results. -/
structure LoggingNode (ω : Type*) where
  node : ResultsNode
  /-- The log writers that there have been: one for each time that a worker got one. -/
  order : List ω
  writers : ω → JobLogWriter
  /-- Every document that was queued for the client, in order. -/
  queued : List LogDocument
  /-- The inputs whose end marker has been seen. -/
  endMarkers : List ℕ
  /-- The inputs with a queued result. -/
  resulted : List ℕ
  /-- The inputs with a result that was queued before their end marker was seen. -/
  early : List ℕ
  /-- The responses that the client has read. -/
  received : List Receipt

/-- What can happen next. -/
inductive LoggingEvent (ω : Type*)
  /-- A worker gets a log writer. -/
  | openWriter (w : ω)
  | line (w : ω) (line : ContainerLogLine) (now : ℚ)
  /-- The flush loop goes round, or the writer is stopped. -/
  | flush (w : ω) (now : ℚ)
  /-- `finish_input`, of an input that has no result here. -/
  | finish (w : ω) (inputIndex : ℕ) (now : ℚ)
  /-- `finish_input`, and the result is queued. -/
  | result (w : ω) (result : Result) (now : ℚ)
  /-- A result is queued without `finish_input`: no worker is left, or there is no writer. -/
  | put (result : Result)
  | report (status : NodeStatus)
  | endJob
  /-- A poll is served; whether the client reads the response. -/
  | poll (now : ℚ) (ackResultBatchId : Option ℕ) (received : Bool)
  deriving DecidableEq, Repr

namespace LoggingNode

/-- A document is queued for the client. -/
def queue (s : LoggingNode ω) (d : LogDocument) : LoggingNode ω :=
  { s with node := s.node.putLog d, queued := s.queued ++ [d] }

def putResult (s : LoggingNode ω) (result : Result) : LoggingNode ω :=
  { s with
    node := s.node.putResult result
    resulted := result.inputIndex :: s.resulted
    early :=
      if result.inputIndex ∈ s.endMarkers then s.early else result.inputIndex :: s.early }

/-- The first document that is still pending. -/
def first (s : LoggingNode ω) : ℕ := s.queued.length - s.node.pendingLogs.length

/-- A response that takes so many documents. -/
def receipt (s : LoggingNode ω) (response : ResultsResponse) (taken : ℕ) : Receipt where
  response := response
  documents := List.range' s.first taken
  queued := s.queued.length

/-- A poll is served. -/
def poll (s : LoggingNode ω) (now : ℚ) (ackResultBatchId : Option ℕ) (received : Bool) :
    LoggingNode ω :=
  let p := s.node.getResults now ackResultBatchId
  match p.1 with
  | none => { s with node := p.2 }
  | some response =>
    let taken := s.node.pendingLogs.length - p.2.pendingLogs.length
    { s with
      node := p.2
      received := if received then s.received ++ [s.receipt response taken] else s.received }

variable [DecidableEq ω]

def setWriter (s : LoggingNode ω) (w : ω) (writer : JobLogWriter) : LoggingNode ω :=
  { s with writers := Function.update s.writers w writer }

@[simp] lemma writers_setWriter_self (s : LoggingNode ω) (w : ω) (writer : JobLogWriter) :
    (s.setWriter w writer).writers w = writer := Function.update_self ..

section SetWriter

variable (s : LoggingNode ω) (w : ω) (writer : JobLogWriter)

lemma node_setWriter : (s.setWriter w writer).node = s.node := rfl

lemma order_setWriter : (s.setWriter w writer).order = s.order := rfl

lemma queued_setWriter : (s.setWriter w writer).queued = s.queued := rfl

lemma early_setWriter : (s.setWriter w writer).early = s.early := rfl

lemma received_setWriter : (s.setWriter w writer).received = s.received := rfl

end SetWriter

/-- A call on a writer, with the documents that it queues. -/
def call (s : LoggingNode ω) (w : ω) (p : JobLogWriter × List LogDocument) : LoggingNode ω :=
  p.2.foldl queue (s.setWriter w p.1)

end LoggingNode

section System

variable [DecidableEq ω]

/-- One step. -/
def loggingStep (s : LoggingNode ω) : LoggingEvent ω → Option (LoggingNode ω)
  | .openWriter w =>
    if w ∈ s.order then none
    else some { s.setWriter w .new with order := s.order ++ [w] }
  | .line w line now =>
    if w ∈ s.order then
      let s' := s.call w ((s.writers w).capture now line)
      match line with
      | .endMarker inputIndex => some { s' with endMarkers := inputIndex :: s'.endMarkers }
      | _ => some s'
    else none
  | .flush w now =>
    if w ∈ s.order then some (s.call w ((s.writers w).queueAllBuffers now)) else none
  | .finish w inputIndex now =>
    if w ∈ s.order then some (s.call w ((s.writers w).queueDocument now inputIndex false)) else none
  | .result w result now =>
    if w ∈ s.order then
      some ((s.call w ((s.writers w).queueDocument now result.inputIndex false)).putResult result)
    else none
  | .put result => some (s.putResult result)
  | .report status => some { s with node := { s.node with status } }
  | .endJob => some { s with node := { s.node with onJob := false } }
  | .poll now ackResultBatchId received => some (s.poll now ackResultBatchId received)

/-- A job has just begun on the node. -/
structure LoggingNode.Started (s : LoggingNode ω) : Prop where
  resultsQueue : s.node.resultsQueue = []
  pendingResultBatch : s.node.pendingResultBatch = none
  pendingLogs : s.node.pendingLogs = []
  order : s.order = []
  queued : s.queued = []
  resulted : s.resulted = []
  received : s.received = []

/-- The system of a node's logs and results. -/
def logging (ω : Type*) [DecidableEq ω] : System (LoggingNode ω) (LoggingEvent ω) where
  init := LoggingNode.Started
  step := loggingStep

end System

/-- No response has had a result of an input, whose end marker was seen in time, before each of the
input's documents, or a warning in its place, had come. -/
def LoggingNode.OnTime (s : LoggingNode ω) : Prop :=
  ∀ j r, s.received[j]? = some r → ∀ result ∈ r.response.results, result.inputIndex ∉ s.early →
    ∀ i d, s.queued[i]? = some d → d.inputIndex = some result.inputIndex →
      ∃ r' ∈ s.received.take (j + 1), r'.Covers i d

/-! ### When logs are on time -/

/-- The results that the next response has: those of the batch that is not acknowledged, or else
from the front of the queue up to the cap. -/
def ResultsNode.dueResults (n : ResultsNode) (ackResultBatchId : Option ℕ) : List Result :=
  match (n.acknowledge ackResultBatchId).pendingResultBatch with
  | some batch => batch.results
  | none => (dequeueResults 0 n.resultsQueue).1

def documentsSize : List LogDocument → ℕ
  | [] => 0
  | d :: documents => logDocumentSize d + documentsSize documents

/-- One response has room for the documents. -/
def FitsResponse (documents : List LogDocument) : Prop :=
  documents.length ≤ maxLogDocumentsPerResultsResponse ∧
    (documents.length ≤ 1 ∨ documentsSize documents ≤ maxLogsResponseBytes)

instance (documents : List LogDocument) : Decidable (FitsResponse documents) :=
  inferInstanceAs (Decidable (_ ∧ _))

namespace LoggingNode

variable (s : LoggingNode ω)

/-- The document is of an input whose result is in the next response. -/
def Due (ackResultBatchId : Option ℕ) (d : LogDocument) : Prop :=
  ∃ result ∈ s.node.dueResults ackResultBatchId,
    d.inputIndex = some result.inputIndex ∧ result.inputIndex ∉ s.early

instance (ackResultBatchId : Option ℕ) (d : LogDocument) :
    Decidable (s.Due ackResultBatchId d) := inferInstanceAs (Decidable (∃ result ∈ _, _))

/-- The pending documents up to the last one that is due. -/
def dueLogs (ackResultBatchId : Option ℕ) : List LogDocument :=
  s.node.pendingLogs.rdropWhile fun d => ¬s.Due ackResultBatchId d

end LoggingNode

/-- The steps that keep logs on time: no input is started again after its result, or has lines
elsewhere when its result is queued; the pending documents up to the last one that is due fit into
one response, unless that has the overflow warning; and no response with documents is lost. -/
def Timely (s : LoggingNode ω) : LoggingEvent ω → Prop
  | .line _ (.startMarker k) _ => k ∈ s.resulted → k ∈ s.early
  | .result w result _ =>
    result.inputIndex ∈ s.endMarkers → ∀ v ∈ s.order,
      (s.writers v).activeInputIndex ≠ some result.inputIndex ∧
        (v ≠ w → ¬(s.writers v).Holds result.inputIndex)
  | .put result =>
    result.inputIndex ∈ s.endMarkers → ∀ v ∈ s.order, ¬(s.writers v).Open result.inputIndex
  | .poll _ ackResultBatchId received =>
    if received then
      s.node.pendingLogs.length = maxPendingLogs ∨ FitsResponse (s.dueLogs ackResultBatchId)
    else s.node.pendingLogs = []
  | _ => True

instance (s : LoggingNode ω) [DecidableEq ω] : (e : LoggingEvent ω) → Decidable (Timely s e)
  | .line _ (.startMarker _) _ => inferInstanceAs (Decidable (_ → _))
  | .result _ _ _ => inferInstanceAs (Decidable (_ → ∀ v ∈ s.order, _ ∧ (_ → _)))
  | .put _ => inferInstanceAs (Decidable (_ → ∀ v ∈ s.order, _))
  | .poll _ _ true => inferInstanceAs (Decidable (_ ∨ _))
  | .poll _ _ false => inferInstanceAs (Decidable (_ = _))
  | .line _ (.endMarker _) _ | .line _ .internal _ | .line _ (.message _ _) _ | .openWriter _
  | .flush _ _ | .finish _ _ _ | .report _ | .endJob => .isTrue trivial

/-! ### What a poll takes -/

/-- `_pop_pending_logs` takes documents from the front. -/
lemma drainLogs_eq (drained : List LogDocument) (totalBytes : ℕ) (pending : List LogDocument) :
    ∃ taken rest, drainLogs drained totalBytes pending = (drained ++ taken, rest) ∧
      pending = taken ++ rest := by
  induction pending generalizing drained totalBytes with
  | nil => exact ⟨[], [], by simp [drainLogs], rfl⟩
  | cons d pending ih =>
    simp only [drainLogs]
    split_ifs
    · exact ⟨[], d :: pending, by simp, rfl⟩
    · obtain ⟨taken, rest, hdrain, hpending⟩ := ih (drained ++ [d]) (totalBytes + logDocumentSize d)
      exact ⟨d :: taken, rest, by simp [hdrain], by simp [hpending]⟩
    · exact ⟨[], d :: pending, by simp, rfl⟩

/-- Documents that there is room for are taken. -/
lemma le_length_drainLogs {drained : List LogDocument} {totalBytes : ℕ}
    {pending documents : List LogDocument} (hfront : documents <+: pending)
    (hroom : drained.length + documents.length ≤ maxLogDocumentsPerResultsResponse)
    (hsize : drained = [] ∧ documents.length ≤ 1 ∨
      totalBytes + documentsSize documents ≤ maxLogsResponseBytes) :
    drained.length + documents.length ≤ (drainLogs drained totalBytes pending).1.length := by
  induction pending generalizing drained totalBytes documents with
  | nil => simp [List.prefix_nil.1 hfront, drainLogs]
  | cons d pending ih =>
    cases documents with
    | nil =>
      obtain ⟨taken, rest, hdrain, -⟩ := drainLogs_eq drained totalBytes (d :: pending)
      simp [hdrain]
    | cons e documents =>
      obtain ⟨rfl, htail⟩ := List.cons_prefix_cons.1 hfront
      simp only [List.length_cons, documentsSize] at hroom hsize ⊢
      have hlt : drained.length < maxLogDocumentsPerResultsResponse := by omega
      have hfits : ¬(drained ≠ [] ∧ totalBytes + logDocumentSize e > maxLogsResponseBytes) := by
        rintro ⟨hne, hbig⟩
        rcases hsize with ⟨hnil, -⟩ | hsize
        · exact hne hnil
        · omega
      simp only [drainLogs, if_pos hlt, if_neg hfits]
      rcases hsize with ⟨-, hone⟩ | hsize
      · -- a document that is alone has room, whatever its size
        obtain ⟨taken, rest, hdrain, -⟩ :=
          drainLogs_eq (drained ++ [e]) (totalBytes + logDocumentSize e) pending
        simp only [hdrain, List.length_append, List.length_singleton]
        omega
      · have hrest := @ih (drained ++ [e]) (totalBytes + logDocumentSize e) documents htail
          (by simp only [List.length_append, List.length_singleton]; omega) (.inr (by omega))
        simp only [List.length_append, List.length_singleton] at hrest
        omega

/-- A document that is not dropped from the end is in what is left. -/
lemma lt_length_rdropWhile {α : Type*} {p : α → Bool} {l : List α} {i : ℕ} {x : α}
    (hx : l[i]? = some x) (hp : p x = false) : i < (l.rdropWhile p).length := by
  induction l using List.reverseRecOn with
  | nil => simp at hx
  | append_singleton l y ih =>
    rw [List.rdropWhile_concat]
    by_cases hi : i < l.length
    · rw [List.getElem?_append_left hi] at hx
      split
      · exact ih hx
      · simp only [List.length_append, List.length_singleton]
        omega
    · have hlt : i < (l ++ [y]).length := (List.getElem?_eq_some_iff.1 hx).1
      simp only [List.length_append, List.length_singleton] at hlt
      obtain rfl : i = l.length := by omega
      obtain rfl : y = x := by simpa using hx
      rw [if_neg (by simp [hp])]
      simp

/-- The overflow warning of a poll that finds the deque full. -/
def isWarning (d : LogDocument) : Prop :=
  d.inputIndex = none ∧ ∃ line ∈ d.logs, line.message = logsOverflowMessage

/-- What `_pop_pending_logs` takes: documents from the front, with a warning when the deque is
full, and with those that there is room for when it is not. -/
lemma popPendingLogs_spec (now : ℚ) (pending : List LogDocument) :
    ∃ taken, pending = taken ++ (popPendingLogs now pending).2 ∧
      (∀ d ∈ taken, d ∈ (popPendingLogs now pending).1) ∧
      (pending.length = maxPendingLogs → ∃ d ∈ (popPendingLogs now pending).1, isWarning d) ∧
      (pending.length ≠ maxPendingLogs → ∀ documents, documents <+: pending →
        FitsResponse documents → documents.length ≤ taken.length) := by
  unfold popPendingLogs
  split_ifs with hfull
  · simp only
    set warning : LogDocument :=
      { logs := [{ timestamp := now, message := logsOverflowMessage }], timestamp := now
        inputIndex := none, isError := false } with hwarning
    obtain ⟨taken, rest, hdrain, hpending⟩ :=
      drainLogs_eq [warning] (logDocumentSize warning) pending
    rw [hdrain]
    refine ⟨taken, hpending, fun d hd => List.mem_append_right _ hd, fun _ => ?_, ?_⟩
    · exact ⟨warning, by simp, by simp [isWarning, hwarning]⟩
    · exact fun hne => absurd hfull hne
  · obtain ⟨taken, rest, hdrain, hpending⟩ := drainLogs_eq [] 0 pending
    refine ⟨taken, by rw [hdrain]; exact hpending, ?_, fun h => absurd h hfull, ?_⟩
    · intro d hd
      rw [hdrain]
      exact List.mem_append_right _ hd
    · intro _ documents hfront hfits
      have hle := @le_length_drainLogs [] 0 pending documents hfront
        (by simpa using hfits.1) (by simpa using hfits.2)
      simpa [hdrain] using hle

namespace ResultsNode

/-- The results that have not left the node for good. -/
def waiting (n : ResultsNode) : List Result :=
  (n.pendingResultBatch.map ResultBatch.results).getD [] ++ n.resultsQueue

lemma waiting_acknowledge (n : ResultsNode) (ackResultBatchId : Option ℕ) :
    (n.acknowledge ackResultBatchId).waiting ⊆ n.waiting := by
  rcases n.acknowledge_cases ackResultBatchId with h | ⟨batch, -, -, h⟩ <;> rw [h]
  · exact List.Subset.refl _
  · exact List.subset_append_right _ _

/-- A batch is made of waiting results, which go on waiting. -/
lemma waiting_getResultBatch (n : ResultsNode) :
    n.getResultBatch.1.2 ⊆ n.waiting ∧ n.getResultBatch.2.waiting ⊆ n.waiting ∧
      n.getResultBatch.2.pendingLogs = n.pendingLogs := by
  have h := n.getResultBatch_batched
  generalize n.getResultBatch = p at h
  cases h with
  | @again batch hpending =>
    refine ⟨?_, List.Subset.refl _, rfl⟩
    simp [waiting, hpending]
  | nothing hpending => exact ⟨List.nil_subset _, List.Subset.refl _, rfl⟩
  | @taken results rest hpending hqueue => simp [waiting, hpending, hqueue]

/-- The results of the next response. -/
lemma dueResults_eq (n : ResultsNode) (ackResultBatchId : Option ℕ) :
    (n.acknowledge ackResultBatchId).getResultBatch.1.2 = n.dueResults ackResultBatchId := by
  unfold getResultBatch dueResults
  cases (n.acknowledge ackResultBatchId).pendingResultBatch with
  | some batch => rfl
  | none =>
    rw [acknowledge_resultsQueue]
    generalize dequeueResults 0 n.resultsQueue = p
    obtain ⟨results, rest⟩ := p
    cases results with
    | nil => rfl
    | cons result results => rfl

lemma acknowledge_pendingLogs (n : ResultsNode) (ackResultBatchId : Option ℕ) :
    (n.acknowledge ackResultBatchId).pendingLogs = n.pendingLogs := by
  rcases n.acknowledge_cases ackResultBatchId with h | ⟨_, -, -, h⟩ <;> rw [h]

section Fields

variable (n : ResultsNode) (d : LogDocument) (result : Result)

lemma putLog_resultsQueue : (n.putLog d).resultsQueue = n.resultsQueue := by rw [putLog]

lemma putLog_onJob : (n.putLog d).onJob = n.onJob := by rw [putLog]

lemma putResult_pendingLogs : (n.putResult result).pendingLogs = n.pendingLogs := by
  rw [putResult]

lemma putResult_resultsQueue : (n.putResult result).resultsQueue = n.resultsQueue ++ [result] := by
  rw [putResult]

lemma putResult_pendingResultBatch :
    (n.putResult result).pendingResultBatch = n.pendingResultBatch := by
  rw [putResult]

lemma putResult_onJob : (n.putResult result).onJob = n.onJob := by rw [putResult]

end Fields

lemma waiting_putLog (n : ResultsNode) (d : LogDocument) : (n.putLog d).waiting = n.waiting := by
  rw [waiting, putLog_pendingResultBatch, waiting, putLog]

/-- What a poll on the job gives and leaves. -/
lemma getResults_spec {n : ResultsNode} (hjob : n.onJob ≠ false) (now : ℚ)
    (ackResultBatchId : Option ℕ) :
    ∃ response, (n.getResults now ackResultBatchId).1 = some response ∧
      response.results = n.dueResults ackResultBatchId ∧
      response.logs = (popPendingLogs now n.pendingLogs).1 ∧
      (n.getResults now ackResultBatchId).2.pendingLogs =
        (popPendingLogs now n.pendingLogs).2 ∧
      n.dueResults ackResultBatchId ⊆ n.waiting ∧
      (n.getResults now ackResultBatchId).2.waiting ⊆ n.waiting := by
  have hack := n.waiting_acknowledge ackResultBatchId
  obtain ⟨hresults, hwaiting, hlogs⟩ := (n.acknowledge ackResultBatchId).waiting_getResultBatch
  rw [acknowledge_pendingLogs] at hlogs
  rw [dueResults_eq] at hresults
  rw [getResults, if_neg hjob]
  refine ⟨_, rfl, dueResults_eq n ackResultBatchId, ?_, ?_, List.Subset.trans hresults hack,
    List.Subset.trans hwaiting hack⟩
  · simp only [hlogs]
  · simp only [hlogs]

lemma getResults_off {n : ResultsNode} (hjob : n.onJob = false) (now : ℚ)
    (ackResultBatchId : Option ℕ) : n.getResults now ackResultBatchId = (none, n) := by
  rw [getResults, if_pos hjob]

/-- A document that is queued is the last one; a full deque drops its first. -/
lemma pendingLogs_putLog (n : ResultsNode) (d : LogDocument)
    (hlen : n.pendingLogs.length ≤ maxPendingLogs) :
    (n.pendingLogs.length < maxPendingLogs ∧ (n.putLog d).pendingLogs = n.pendingLogs ++ [d]) ∨
      n.pendingLogs.length = maxPendingLogs ∧
        (n.putLog d).pendingLogs = (n.pendingLogs ++ [d]).drop 1 := by
  rcases hlen.lt_or_eq with hlt | heq
  · refine .inl ⟨hlt, ?_⟩
    have hzero : (n.pendingLogs ++ [d]).length - maxPendingLogs = 0 := by
      rw [List.length_append, List.length_singleton]
      omega
    simp only [putLog, hzero, List.drop_zero]
  · refine .inr ⟨heq, ?_⟩
    have hone : (n.pendingLogs ++ [d]).length - maxPendingLogs = 1 := by
      rw [List.length_append, List.length_singleton]
      omega
    simp only [putLog, hone]

end ResultsNode

/-! ### What every step keeps -/

namespace LoggingNode

/-- Where the documents are, and what is known of inputs with a result. -/
structure Kept (s : LoggingNode ω) : Prop where
  /-- The pending documents are the last that were queued. -/
  pending : s.node.pendingLogs <:+ s.queued
  bounded : s.node.pendingLogs.length ≤ maxPendingLogs
  /-- The others have come, or the next response has a warning. -/
  gone : ∀ i d, s.queued[i]? = some d → i < s.first →
    (∃ r ∈ s.received, r.Covers i d) ∨ s.node.pendingLogs.length = maxPendingLogs
  /-- An input with a result has no more lines. -/
  closed : ∀ k ∈ s.resulted, k ∉ s.early → ∀ w ∈ s.order, ¬(s.writers w).Open k
  waiting : ∀ result ∈ s.node.waiting, result.inputIndex ∈ s.resulted
  told : ∀ r ∈ s.received, ∀ result ∈ r.response.results, result.inputIndex ∈ s.resulted
  onTime : s.OnTime

lemma Started.kept {s : LoggingNode ω} (h : s.Started) : s.Kept where
  pending := by simp [h.pendingLogs]
  bounded := by simp [h.pendingLogs]
  gone := by simp [h.queued]
  closed := by simp [h.resulted]
  waiting := by simp [ResultsNode.waiting, h.pendingResultBatch, h.resultsQueue]
  told := by simp [h.received]
  onTime := by simp [OnTime, h.received]

section Queue

variable (s : LoggingNode ω) (d : LogDocument)

@[simp] lemma node_queue : (s.queue d).node = s.node.putLog d := by rw [queue]

@[simp] lemma order_queue : (s.queue d).order = s.order := by rw [queue]

@[simp] lemma writers_queue : (s.queue d).writers = s.writers := by rw [queue]

@[simp] lemma queued_queue : (s.queue d).queued = s.queued ++ [d] := by rw [queue]

@[simp] lemma resulted_queue : (s.queue d).resulted = s.resulted := by rw [queue]

@[simp] lemma early_queue : (s.queue d).early = s.early := by rw [queue]

@[simp] lemma endMarkers_queue : (s.queue d).endMarkers = s.endMarkers := by rw [queue]

@[simp] lemma received_queue : (s.queue d).received = s.received := by rw [queue]

end Queue

variable {s : LoggingNode ω}

/-- A document is queued, of an input that has no result yet. -/
lemma Kept.queue (h : s.Kept) {d : LogDocument}
    (hd : ∀ k, d.inputIndex = some k → k ∈ s.resulted → k ∈ s.early) : (s.queue d).Kept := by
  have hlen := h.pending.length_le
  have hget : ∀ i e, (s.queued ++ [d])[i]? = some e →
      s.queued[i]? = some e ∨ i = s.queued.length ∧ e = d := by
    intro i e hi
    by_cases hlt : i < s.queued.length
    · rw [List.getElem?_append_left hlt] at hi
      exact .inl hi
    · have hlt' := (List.getElem?_eq_some_iff.1 hi).1
      rw [List.length_append, List.length_singleton] at hlt'
      obtain rfl : i = s.queued.length := by omega
      exact .inr ⟨rfl, by simpa using hi.symm⟩
  obtain ⟨before, hbefore⟩ := h.pending
  have hlast : s.node.pendingLogs ++ [d] <:+ s.queued ++ [d] :=
    ⟨before, by rw [← List.append_assoc, hbefore]⟩
  refine ⟨?_, ?_, fun i e hi hfirst => ?_, ?_, ?_, ?_, ?_⟩
  · rw [node_queue, queued_queue]
    rcases s.node.pendingLogs_putLog d h.bounded with ⟨-, hput⟩ | ⟨-, hput⟩ <;> rw [hput]
    · exact hlast
    · exact (List.drop_suffix _ _).trans hlast
  · rw [node_queue]
    rcases s.node.pendingLogs_putLog d h.bounded with ⟨hlt, hput⟩ | ⟨heq, hput⟩ <;> rw [hput]
    · rw [List.length_append, List.length_singleton]
      omega
    · rw [List.length_drop, List.length_append, List.length_singleton]
      omega
  · simp only [first, node_queue, queued_queue, received_queue, List.length_append,
      List.length_singleton] at hi hfirst ⊢
    rcases s.node.pendingLogs_putLog d h.bounded with ⟨hlt, hput⟩ | ⟨heq, hput⟩
    · rw [hput, List.length_append, List.length_singleton] at hfirst
      rcases hget i e hi with hi | ⟨rfl, -⟩
      · refine .inl ((h.gone i e hi ?_).resolve_right (by omega))
        rw [first]
        omega
      · omega
    · refine .inr ?_
      rw [hput, List.length_drop, List.length_append, List.length_singleton]
      omega
  · simpa only [resulted_queue, early_queue, order_queue, writers_queue] using h.closed
  · simpa only [node_queue, resulted_queue, ResultsNode.waiting_putLog] using h.waiting
  · simpa only [received_queue, resulted_queue] using h.told
  · intro j r hr result hresult hearly i e hi he
    simp only [received_queue, early_queue, queued_queue] at hr hearly hi ⊢
    rcases hget i e hi with hi | ⟨rfl, rfl⟩
    · exact h.onTime j r hr result hresult hearly i e hi he
    · -- the input of a new document has no result that was in time
      have hmem := List.mem_of_getElem? hr
      exact absurd (hd _ he (h.told r hmem result hresult)) hearly

/-- What queueing documents leaves alone. -/
structure SameBooks (s t : LoggingNode ω) : Prop where
  order : t.order = s.order
  writers : t.writers = s.writers
  endMarkers : t.endMarkers = s.endMarkers

lemma sameBooks_foldl_queue (s : LoggingNode ω) (documents : List LogDocument) :
    SameBooks s (documents.foldl queue s) := by
  induction documents generalizing s with
  | nil => exact ⟨rfl, rfl, rfl⟩
  | cons d documents ih =>
    obtain ⟨horder, hwriters, hmarkers⟩ := ih (s.queue d)
    rw [List.foldl_cons]
    exact ⟨horder.trans (s.order_queue d), hwriters.trans (s.writers_queue d),
      hmarkers.trans (s.endMarkers_queue d)⟩

lemma Kept.foldl_queue (h : s.Kept) {documents : List LogDocument}
    (hd : ∀ d ∈ documents, ∀ k, d.inputIndex = some k → k ∈ s.resulted → k ∈ s.early) :
    (documents.foldl LoggingNode.queue s).Kept := by
  induction documents generalizing s with
  | nil => exact h
  | cons d documents ih =>
    rw [List.foldl_cons]
    refine ih (h.queue (hd d (List.mem_cons_self ..))) fun e he k hk => ?_
    rw [resulted_queue, early_queue]
    exact hd e (List.mem_cons_of_mem _ he) k hk

/-- A result is queued, with no more lines of its input if it is in time. -/
lemma Kept.putResult (h : s.Kept) {result : Result}
    (hclosed : result.inputIndex ∈ s.endMarkers → result.inputIndex ∉ s.early →
      ∀ w ∈ s.order, ¬(s.writers w).Open result.inputIndex) : (s.putResult result).Kept := by
  have hsub : ∀ k, k ∉ (s.putResult result).early → k ∉ s.early := by
    intro k hk hearly
    refine hk ?_
    show k ∈ if result.inputIndex ∈ s.endMarkers then s.early else result.inputIndex :: s.early
    split
    · exact hearly
    · exact List.mem_cons_of_mem _ hearly
  refine ⟨h.pending, h.bounded, h.gone, fun k hk hearly => ?_, ?_, ?_, ?_⟩
  · by_cases hkr : k = result.inputIndex
    · subst hkr
      by_cases hmarker : result.inputIndex ∈ s.endMarkers
      · exact hclosed hmarker (hsub _ hearly)
      · refine absurd ?_ hearly
        show result.inputIndex ∈ if result.inputIndex ∈ s.endMarkers then s.early
          else result.inputIndex :: s.early
        rw [if_neg hmarker]
        exact List.mem_cons_self ..
    · exact h.closed k ((List.mem_cons.1 hk).resolve_left hkr) (hsub k hearly)
  · intro r hr
    have hr' : r ∈ s.node.waiting ++ [result] := by
      simpa [LoggingNode.putResult, ResultsNode.putResult, ResultsNode.waiting] using hr
    rcases List.mem_append.1 hr' with hr' | hr'
    · exact List.mem_cons_of_mem _ (h.waiting r hr')
    · rw [List.mem_singleton.1 hr']
      exact List.mem_cons_self ..
  · exact fun r hr result hresult => List.mem_cons_of_mem _ (h.told r hr result hresult)
  · intro j r hr result hresult hearly
    exact h.onTime j r hr result hresult (hsub _ hearly)

section Fields

variable (s : LoggingNode ω) (result : Result)

lemma node_putResult : (s.putResult result).node = s.node.putResult result := by rw [putResult]

lemma order_putResult : (s.putResult result).order = s.order := by rw [putResult]

lemma writers_putResult : (s.putResult result).writers = s.writers := by rw [putResult]

lemma queued_putResult : (s.putResult result).queued = s.queued := by rw [putResult]

lemma received_putResult : (s.putResult result).received = s.received := by rw [putResult]

end Fields

lemma early_putResult {result : Result} (h : result.inputIndex ∈ s.endMarkers) :
    (s.putResult result).early = s.early := by
  rw [LoggingNode.putResult, if_pos h]

/-- Only the status of the node, or its job, changes. -/
lemma Kept.of_node (h : s.Kept) {n : ResultsNode} (hlogs : n.pendingLogs = s.node.pendingLogs)
    (hwaiting : n.waiting ⊆ s.node.waiting) : Kept { s with node := n } where
  pending := hlogs ▸ h.pending
  bounded := hlogs ▸ h.bounded
  gone := by
    intro i d hd hfirst
    have hfirst' : i < s.first := by
      simp only [first, hlogs] at hfirst
      exact hfirst
    have hgone := h.gone i d hd hfirst'
    rwa [← hlogs] at hgone
  closed := h.closed
  waiting result hresult := h.waiting result (hwaiting hresult)
  told := h.told
  onTime := h.onTime

section Calls

variable [DecidableEq ω]

/-- A call on a writer that queues documents, and leaves open, only inputs without a result. -/
lemma Kept.call (h : s.Kept) {w : ω} {p : JobLogWriter × List LogDocument}
    (hdocuments : ∀ d ∈ p.2, ∀ k, d.inputIndex = some k → k ∈ s.resulted → k ∈ s.early)
    (hopen : ∀ k, p.1.Open k → k ∈ s.resulted → k ∈ s.early) : (s.call w p).Kept := by
  refine Kept.foldl_queue ?_ hdocuments
  refine ⟨h.pending, h.bounded, h.gone, fun k hk hearly v hv => ?_, h.waiting, h.told, h.onTime⟩
  show ¬(Function.update s.writers w p.1 v).Open k
  by_cases hvw : v = w
  · subst hvw
    rw [Function.update_self]
    exact fun ho => hearly (hopen k ho hk)
  · rw [Function.update_of_ne hvw]
    exact h.closed k hk hearly v hv

lemma Kept.of_calls (h : s.Kept) {w : ω} (hw : w ∈ s.order)
    {p : JobLogWriter × List LogDocument} (hcalls : (s.writers w).Calls p) : (s.call w p).Kept := by
  have hopen : ∀ k, (s.writers w).Open k → k ∈ s.resulted → k ∈ s.early := by
    intro k ho hk
    by_contra hearly
    exact h.closed k hk hearly w hw ho
  refine h.call (fun d hd k hk => ?_) fun k ho => hopen k (hcalls.stays k ho)
  obtain ⟨l, hl, ho⟩ := hcalls.documents d hd
  obtain rfl : l = k := by simpa [hl] using hk
  exact hopen l ho

lemma call_books (s : LoggingNode ω) (w : ω) (p : JobLogWriter × List LogDocument) :
    (s.call w p).order = s.order ∧ (s.call w p).writers = Function.update s.writers w p.1 ∧
      (s.call w p).endMarkers = s.endMarkers := by
  have h := sameBooks_foldl_queue (s.setWriter w p.1) p.2
  exact ⟨h.order, h.writers, h.endMarkers⟩

end Calls

/-! ### Polls -/

/-- The receipt of a response that takes documents from the front. -/
lemma poll_eq (hjob : s.node.onJob ≠ false) (now : ℚ) (ackResultBatchId : Option ℕ)
    (received : Bool) : ∃ response taken,
      s.poll now ackResultBatchId received =
        { s with
          node := (s.node.getResults now ackResultBatchId).2
          received :=
            if received then s.received ++ [s.receipt response taken.length] else s.received } ∧
      response.results = s.node.dueResults ackResultBatchId ∧
      s.node.pendingLogs =
        taken ++ (s.node.getResults now ackResultBatchId).2.pendingLogs ∧
      (∀ d ∈ taken, d ∈ response.logs) ∧
      (s.node.pendingLogs.length = maxPendingLogs → ∃ d ∈ response.logs, isWarning d) ∧
      (s.node.pendingLogs.length ≠ maxPendingLogs → ∀ documents,
        documents <+: s.node.pendingLogs → FitsResponse documents →
          documents.length ≤ taken.length) := by
  obtain ⟨response, hresponse, hresults, hlogs, hrest, -, -⟩ :=
    ResultsNode.getResults_spec hjob now ackResultBatchId
  obtain ⟨taken, htaken, hbrought, hwarning, hroom⟩ := popPendingLogs_spec now s.node.pendingLogs
  refine ⟨response, taken, ?_, hresults, ?_, ?_, ?_, hroom⟩
  · have hlength : s.node.pendingLogs.length -
        (s.node.getResults now ackResultBatchId).2.pendingLogs.length = taken.length := by
      have hsum := congrArg List.length htaken
      rw [List.length_append] at hsum
      rw [hrest]
      omega
    simp only [poll, hresponse, hlength]
  · rw [hrest]
    exact htaken
  · rw [hlogs]
    exact hbrought
  · rw [hlogs]
    exact hwarning

/-- A response that is lost while no document is pending takes none. -/
lemma Kept.lost (h : s.Kept) (now : ℚ) (ackResultBatchId : Option ℕ)
    (hempty : s.node.pendingLogs = []) : (s.poll now ackResultBatchId false).Kept := by
  by_cases hjob : s.node.onJob = false
  · rw [poll, ResultsNode.getResults_off hjob]
    exact h
  · obtain ⟨response, taken, hpoll, -, htaken, -⟩ := poll_eq hjob now ackResultBatchId false
    obtain ⟨-, -, -, -, -, -, hwaiting⟩ := ResultsNode.getResults_spec hjob now ackResultBatchId
    rw [hpoll]
    refine h.of_node ?_ hwaiting
    rw [hempty] at htaken ⊢
    exact (List.append_eq_nil_iff.1 htaken.symm).2

/-- The documents that have left the deque are covered by the responses up to this one. -/
lemma Kept.covered (h : s.Kept) {response : ResultsResponse} {taken rest : List LogDocument}
    (htaken : s.node.pendingLogs = taken ++ rest) (hbrought : ∀ d ∈ taken, d ∈ response.logs)
    (hwarning : s.node.pendingLogs.length = maxPendingLogs → ∃ d ∈ response.logs, isWarning d)
    {i : ℕ} {d : LogDocument} (hi : s.queued[i]? = some d) (hfirst : i < s.first + taken.length) :
    ∃ r ∈ s.received ++ [s.receipt response taken.length], r.Covers i d := by
  have hmem : s.receipt response taken.length ∈
      s.received ++ [s.receipt response taken.length] := by simp
  have hlt : i < s.queued.length := (List.getElem?_eq_some_iff.1 hi).1
  by_cases hbefore : i < s.first
  · rcases h.gone i d hi hbefore with ⟨r, hr, hcovers⟩ | hfull
    · exact ⟨r, List.mem_append_left _ hr, hcovers⟩
    · exact ⟨_, hmem, .inr ⟨hlt, hwarning hfull⟩⟩
  · -- one of the documents that this response takes
    obtain ⟨before, hqueued⟩ := h.pending
    have hlength : before.length = s.first := by
      rw [first, ← hqueued, List.length_append]
      omega
    have hd : taken[i - s.first]? = some d := by
      rw [← hqueued, htaken, List.getElem?_append_right (by omega), hlength,
        List.getElem?_append_left (by omega)] at hi
      exact hi
    refine ⟨_, hmem, .inl ⟨?_, hbrought d (List.mem_of_getElem? hd)⟩⟩
    rw [receipt, List.mem_range'_1]
    omega

/-- A due document that is still pending is one of those that fit. -/
lemma Kept.lt_dueLogs (h : s.Kept) {ackResultBatchId : Option ℕ} {i : ℕ} {d : LogDocument}
    (hi : s.queued[i]? = some d) (hfirst : s.first ≤ i) (hdue : s.Due ackResultBatchId d) :
    i < s.first + (s.dueLogs ackResultBatchId).length := by
  obtain ⟨before, hqueued⟩ := h.pending
  have hlength : before.length = s.first := by
    rw [first, ← hqueued, List.length_append]
    omega
  have hd : s.node.pendingLogs[i - s.first]? = some d := by
    rw [← hqueued, List.getElem?_append_right (by omega), hlength] at hi
    exact hi
  have hlt := lt_length_rdropWhile (p := fun d => ¬s.Due ackResultBatchId d) hd (by simpa using hdue)
  rw [dueLogs]
  omega

/-- A response that the client reads, with room for the documents that are due. -/
lemma Kept.read (h : s.Kept) (now : ℚ) (ackResultBatchId : Option ℕ)
    (hroom : s.node.pendingLogs.length = maxPendingLogs ∨
      FitsResponse (s.dueLogs ackResultBatchId)) : (s.poll now ackResultBatchId true).Kept := by
  by_cases hjob : s.node.onJob = false
  · rw [poll, ResultsNode.getResults_off hjob]
    exact h
  obtain ⟨response, taken, hpoll, hresults, htaken, hbrought, hwarning, hfits⟩ :=
    poll_eq hjob now ackResultBatchId true
  obtain ⟨-, -, -, -, -, hdue, hwaiting⟩ := ResultsNode.getResults_spec hjob now ackResultBatchId
  generalize (s.node.getResults now ackResultBatchId).2 = n at hpoll htaken hwaiting
  have hcovered := fun i d => @Kept.covered _ s h response taken n.pendingLogs htaken hbrought
    hwarning i d
  have hlength : s.node.pendingLogs.length = taken.length + n.pendingLogs.length := by
    rw [htaken, List.length_append]
  have hle := h.pending.length_le
  have hfirst : s.queued.length - n.pendingLogs.length = s.first + taken.length := by
    rw [first]
    omega
  rw [hpoll, if_pos rfl]
  refine ⟨?_, ?_, fun i d hi hlt => ?_, h.closed, ?_, ?_, ?_⟩
  · show n.pendingLogs <:+ s.queued
    have hsuffix : n.pendingLogs <:+ s.node.pendingLogs := ⟨taken, htaken.symm⟩
    exact hsuffix.trans h.pending
  · show n.pendingLogs.length ≤ maxPendingLogs
    have hbounded := h.bounded
    omega
  · refine .inl (hcovered i d hi ?_)
    have hlt' : i < s.queued.length - n.pendingLogs.length := hlt
    omega
  · exact fun result hresult => h.waiting result (hwaiting hresult)
  · intro r hr result hresult
    rcases List.mem_append.1 hr with hr | hr
    · exact h.told r hr result hresult
    · rw [List.mem_singleton.1 hr] at hresult
      exact h.waiting result (hdue (hresults ▸ hresult))
  · intro j r hr result hresult hearly i d hi hd
    show ∃ r' ∈ (s.received ++ [s.receipt response taken.length]).take (j + 1), r'.Covers i d
    have hr' : (s.received ++ [s.receipt response taken.length])[j]? = some r := hr
    by_cases hj : j < s.received.length
    · rw [List.getElem?_append_left hj] at hr'
      rw [List.take_append_of_le_length hj]
      exact h.onTime j r hr' result hresult hearly i d hi hd
    · -- the result is in this response
      have hlt := (List.getElem?_eq_some_iff.1 hr').1
      rw [List.length_append, List.length_singleton] at hlt
      obtain rfl : j = s.received.length := by omega
      rw [List.take_of_length_le (by simp)]
      obtain rfl : s.receipt response taken.length = r := by simpa using hr'
      have hdueDoc : s.Due ackResultBatchId d := ⟨result, hresults ▸ hresult, hd, hearly⟩
      by_cases hfull : s.node.pendingLogs.length = maxPendingLogs
      · have hlast := (List.getElem?_eq_some_iff.1 hi).1
        exact ⟨s.receipt response taken.length, by simp, .inr ⟨hlast, hwarning hfull⟩⟩
      · have hfit := hfits hfull _ (List.rdropWhile_prefix ..) (hroom.resolve_left hfull)
        refine hcovered i d hi ?_
        by_contra hnot
        have hlt := h.lt_dueLogs hi (by omega) hdueDoc
        rw [dueLogs] at hlt
        omega

/-! ### Runs -/

section Runs

variable [DecidableEq ω] {t : LoggingNode ω} {e : LoggingEvent ω}

/-- A worker gets a writer without lines. -/
lemma Kept.openWriter (h : s.Kept) {w : ω} (hw : w ∉ s.order) :
    Kept { s.setWriter w .new with order := s.order ++ [w] } := by
  refine ⟨h.pending, h.bounded, h.gone, fun k hk hearly v hv => ?_, h.waiting, h.told, h.onTime⟩
  show ¬(Function.update s.writers w .new v).Open k
  rcases List.mem_append.1 hv with hv | hv
  · rw [Function.update_of_ne (ne_of_mem_of_not_mem hv hw)]
    exact h.closed k hk hearly v hv
  · rw [List.mem_singleton.1 hv, Function.update_self]
    exact JobLogWriter.not_holds_new

/-- A line is captured. -/
lemma Kept.line (h : s.Kept) {w : ω} (hw : w ∈ s.order) {line : ContainerLogLine} {now : ℚ}
    (hok : Timely s (.line w line now)) : (s.call w ((s.writers w).capture now line)).Kept := by
  by_cases hline : ∃ k, line = .startMarker k
  · obtain ⟨k, rfl⟩ := hline
    refine h.call (List.forall_mem_nil _) fun l hl hresulted => ?_
    by_contra hearly
    rcases JobLogWriter.open_capture_startMarker hl with rfl | hl
    · exact hearly (hok hresulted)
    · exact h.closed l hresulted hearly w hw hl
  · exact h.of_calls hw (JobLogWriter.calls_capture fun k hk => hline ⟨k, hk⟩)

/-- A result is queued once its input is finished. -/
lemma Kept.result (h : s.Kept) {w : ω} (hw : w ∈ s.order) {result : Result} {now : ℚ}
    (hok : Timely s (.result w result now)) :
    ((s.call w ((s.writers w).queueDocument now result.inputIndex false)).putResult
      result).Kept := by
  obtain ⟨horder, hwriters, hmarkers⟩ :=
    s.call_books w ((s.writers w).queueDocument now result.inputIndex false)
  refine (h.of_calls hw (JobLogWriter.calls_queueDocument false)).putResult ?_
  intro hmarker _ v hv
  rw [hwriters]
  rw [hmarkers] at hmarker
  rw [horder] at hv
  obtain ⟨hactive, hothers⟩ := hok hmarker v hv
  by_cases hvw : v = w
  · subst hvw
    rw [Function.update_self]
    rintro (ho | ho)
    · rw [JobLogWriter.activeInputIndex_queueDocument] at ho
      exact hactive ho
    · exact JobLogWriter.not_holds_queueDocument false ho
  · rw [Function.update_of_ne hvw]
    rintro (ho | ho)
    · exact hactive ho
    · exact hothers hvw ho

lemma Kept.step (h : s.Kept) (hok : Timely s e) (hstep : loggingStep s e = some t) : t.Kept := by
  cases e with
  | openWriter w =>
    simp only [loggingStep, Option.ite_none_left_eq_some, Option.some.injEq] at hstep
    obtain ⟨hw, rfl⟩ := hstep
    exact h.openWriter hw
  | line w line now =>
    simp only [loggingStep, Option.ite_none_right_eq_some] at hstep
    obtain ⟨hw, hstep⟩ := hstep
    have hline := h.line hw hok
    split at hstep
    · -- an end marker is only remembered
      obtain rfl := Option.some.inj hstep
      exact ⟨hline.pending, hline.bounded, hline.gone, hline.closed, hline.waiting, hline.told,
        hline.onTime⟩
    · obtain rfl := Option.some.inj hstep
      exact hline
  | flush w now =>
    simp only [loggingStep, Option.ite_none_right_eq_some, Option.some.injEq] at hstep
    obtain ⟨hw, rfl⟩ := hstep
    exact h.of_calls hw JobLogWriter.calls_queueAllBuffers
  | finish w inputIndex now =>
    simp only [loggingStep, Option.ite_none_right_eq_some, Option.some.injEq] at hstep
    obtain ⟨hw, rfl⟩ := hstep
    exact h.of_calls hw (JobLogWriter.calls_queueDocument false)
  | result w result now =>
    simp only [loggingStep, Option.ite_none_right_eq_some, Option.some.injEq] at hstep
    obtain ⟨hw, rfl⟩ := hstep
    exact h.result hw hok
  | put result =>
    obtain rfl := Option.some.inj hstep
    exact h.putResult fun hmarker _ => hok hmarker
  | report status =>
    obtain rfl := Option.some.inj hstep
    exact h.of_node rfl (List.Subset.refl _)
  | endJob =>
    obtain rfl := Option.some.inj hstep
    exact h.of_node rfl (List.Subset.refl _)
  | poll now ackResultBatchId received =>
    obtain rfl := Option.some.inj hstep
    cases received with
    | true => exact h.read now ackResultBatchId hok
    | false => exact h.lost now ackResultBatchId hok

end Runs

end LoggingNode

section Main

variable [DecidableEq ω]

lemma kept_invariant : (logging ω).Invariant Timely LoggingNode.Kept where
  init _ h := h.kept
  step _ _ _ h hok hstep := h.step hok hstep

/-- **Logs before results**: in runs whose steps keep logs on time, no response has a result
before the documents of its input, or an overflow warning, have come. -/
theorem onTime_of_timely {s : LoggingNode ω} (h : (logging ω).Reachable Timely s) : s.OnTime :=
  (kept_invariant.reachable h).onTime

end Main

/-! ### Runs of one worker -/

/-- The node of a job with one worker at the start. -/
def quietNode : LoggingNode ℕ where
  node :=
    { onJob := true, resultsQueue := [], pendingResultBatch := none, batchIds := 0
      pendingLogs := []
      status :=
        { currentParallelism := 1, workers := [false], dynamicFuncRam := false
          dynamicFuncCpu := false, pendingClusterShutdown := false
          pendingClusterRestarted := false, pendingDashboardCanceled := false } }
  order := []
  writers _ := .new
  queued := []
  endMarkers := []
  resulted := []
  early := []
  received := []

lemma started_quietNode : quietNode.Started := ⟨rfl, rfl, rfl, rfl, rfl, rfl, rfl⟩

/-- A response without documents is lost, two calls print and end, and the next response has
everything. -/
def deliveredNode : LoggingNode ℕ :=
  (((logging ℕ).guarded Timely).exec quietNode
    [.openWriter 0, .line 0 (.startMarker 0) 0, .poll 0 none false, .line 0 (.message "a" 0) 0,
      .line 0 (.endMarker 0) 0, .result 0 { inputIndex := 0, isError := false, resultPkl := [1] } 0,
      .line 0 (.startMarker 1) 1, .line 0 (.message "b" 1) 1, .line 0 (.endMarker 1) 1,
      .result 0 { inputIndex := 1, isError := false, resultPkl := [2] } 1,
      .poll 2 none true]).get (by decide +kernel)

/-- In that run both documents come with the results. -/
theorem onTime_of_timely_deliveredNode :
    deliveredNode.received.map (fun r => (r.documents, r.response.results.length)) =
      [([0, 1], 2)] ∧ deliveredNode.OnTime :=
  ⟨by decide +kernel,
    onTime_of_timely ⟨quietNode, _, started_quietNode,
      System.run_of_exec_guarded (Option.some_get _).symm⟩⟩

/-! ### A response that is full

Every call of a job prints a line and has a result; more calls than a response has room for
documents end between two polls. -/

/-- The result of call `k`. -/
def resultOf (k : ℕ) : Result := { inputIndex := k, isError := false, resultPkl := [1] }

/-- The document of call `k`. -/
def documentOf (k : ℕ) : LogDocument where
  logs := [{ timestamp := 0, message := "a" }]
  timestamp := 0
  inputIndex := some k
  isError := false

/-- A call: it is started, prints a line and ends, and its result is queued. -/
def callSteps (k : ℕ) : List (LoggingEvent ℕ) :=
  [.line 0 (.startMarker k) 0, .line 0 (.message "a" 0) 0, .line 0 (.endMarker k) 0,
    .result 0 (resultOf k) 0]

section Calls

variable {w : JobLogWriter} {k : ℕ}

/-- The writer after the line of call `k`. -/
def JobLogWriter.printed (w : JobLogWriter) (k : ℕ) : JobLogWriter :=
  { w with activeInputIndex := some k }.setLogBuffer k
    { logs := [{ timestamp := 0, message := "a" }], sizeBytes := 181 }

lemma capture_message (hempty : w.getLogBuffer k = { logs := [], sizeBytes := 0 }) :
    ({ w with activeInputIndex := some k } : JobLogWriter).capture 0 (.message "a" 0) =
      (w.printed k, []) := by
  have hblank : ("a".toList.all isSpace) = false := by decide +kernel
  have hsize : messageSize "a" = 181 := by decide +kernel
  have hsame : truncateMessage "a" = "a" := by
    rw [truncateMessage, if_pos (by rw [hsize]; decide)]
  have hbuffer : ({ w with activeInputIndex := some k } : JobLogWriter).getLogBuffer k =
      { logs := [], sizeBytes := 0 } := hempty
  have hroom : ({ w with activeInputIndex := some k } : JobLogWriter).makeRoom 0 k 181 =
      ({ w with activeInputIndex := some k }, []) := by
    simp [JobLogWriter.makeRoom, hbuffer]
  simp only [JobLogWriter.capture, JobLogWriter.write, hblank, hsame, hsize, hroom, hbuffer]
  rfl

lemma capture_endMarker : (w.printed k).capture 0 (.endMarker k) =
    ({ (w.printed k).setLogBuffer k { logs := [], sizeBytes := 0 } with activeInputIndex := none },
      [documentOf k]) := by
  have hget : (w.printed k).logBuffers.get k =
      some { logs := [{ timestamp := 0, message := "a" }], sizeBytes := 181 } :=
    Dict.get_set_self
  simp only [JobLogWriter.capture, JobLogWriter.queueDocument, hget]
  rfl

end Calls

/-- So many calls have ended since the last poll. -/
structure Backlog (n : ℕ) (s : LoggingNode ℕ) : Prop where
  order : s.order = [0]
  buffers : ∀ k, (s.writers 0).getLogBuffer k = { logs := [], sizeBytes := 0 }
  queued : s.queued = (List.range n).map documentOf
  pending : s.node.pendingLogs = s.queued
  resultsQueue : s.node.resultsQueue = (List.range n).map resultOf
  pendingResultBatch : s.node.pendingResultBatch = none
  onJob : s.node.onJob = true
  early : s.early = []
  received : s.received = []

/-- Another call ends. -/
lemma Backlog.call {n : ℕ} {s : LoggingNode ℕ} (h : Backlog n s) (hn : n < maxPendingLogs) :
    ∃ t, (logging ℕ).exec s (callSteps n) = some t ∧ Backlog (n + 1) t := by
  have hmem : 0 ∈ s.order := by rw [h.order]; exact List.mem_singleton_self 0
  set w := s.writers 0 with hw
  set w₁ : JobLogWriter := { w with activeInputIndex := some n }
  set w₃ : JobLogWriter :=
    { (w.printed n).setLogBuffer n { logs := [], sizeBytes := 0 } with activeInputIndex := none }
    with hw₃
  set s₁ := s.setWriter 0 w₁ with hs₁
  set s₂ := s₁.setWriter 0 (w.printed n) with hs₂
  set s₃ := (s₂.setWriter 0 w₃).queue (documentOf n) with hs₃
  have hstart : loggingStep s (.line 0 (.startMarker n) 0) = some s₁ := if_pos hmem
  have hprint : loggingStep s₁ (.line 0 (.message "a" 0) 0) = some s₂ := by
    have hcapture : (s₁.writers 0).capture 0 (.message "a" 0) = (w.printed n, []) := by
      rw [hs₁, LoggingNode.writers_setWriter_self]
      exact capture_message (h.buffers n)
    simp only [loggingStep, hcapture]
    exact if_pos hmem
  have hend : loggingStep s₂ (.line 0 (.endMarker n) 0) =
      some { s₃ with endMarkers := n :: s₃.endMarkers } := by
    have hwriter : s₂.writers 0 = w.printed n := by rw [hs₂, LoggingNode.writers_setWriter_self]
    simp only [loggingStep, hwriter, capture_endMarker]
    exact if_pos hmem
  have hbuffers : ∀ k, w₃.getLogBuffer k = { logs := [], sizeBytes := 0 } := by
    intro k
    have hset : w₃.getLogBuffer k =
        ((w.printed n).setLogBuffer n { logs := [], sizeBytes := 0 }).getLogBuffer k := rfl
    rw [hset, JobLogWriter.getLogBuffer_setLogBuffer]
    split_ifs with hk
    · rfl
    · have hprinted : (w.printed n).getLogBuffer k = w.getLogBuffer k := by
        rw [JobLogWriter.printed, JobLogWriter.getLogBuffer_setLogBuffer, if_neg hk]
        rfl
      rw [hprinted, hw, h.buffers]
  set s₄ : LoggingNode ℕ := { s₃ with endMarkers := n :: s₃.endMarkers } with hs₄
  have hwriters : s₄.writers 0 = w₃ := by
    show ((s₂.setWriter 0 w₃).queue (documentOf n)).writers 0 = w₃
    rw [LoggingNode.writers_queue, LoggingNode.writers_setWriter_self]
  have hnone : w₃.queueDocument 0 n false = (w₃, []) := by
    rcases JobLogWriter.queueDocument_cases w₃ 0 n false with ⟨hsame, -⟩ | ⟨-, hholds, -⟩
    · exact hsame
    · refine absurd ?_ hholds
      rw [hbuffers n]
  have horder : s₄.order = s.order := by
    show ((s₂.setWriter 0 w₃).queue (documentOf n)).order = s.order
    rw [LoggingNode.order_queue]
    rfl
  have hfinish : loggingStep s₄ (.result 0 (resultOf n) 0) =
      some ((s₄.setWriter 0 w₃).putResult (resultOf n)) := by
    have hcall : (s₄.writers 0).queueDocument 0 (resultOf n).inputIndex false = (w₃, []) := by
      rw [hwriters]
      exact hnone
    have hmem' : 0 ∈ s₄.order := by rw [horder]; exact hmem
    rw [loggingStep, hcall, if_pos hmem', LoggingNode.call, List.foldl_nil]
  have hnode : s₄.node = s.node.putLog (documentOf n) := by
    show ((s₂.setWriter 0 w₃).queue (documentOf n)).node = _
    rw [LoggingNode.node_queue]
    rfl
  have hlength : s.node.pendingLogs.length = n := by simp [h.pending, h.queued]
  have hput : (s.node.putLog (documentOf n)).pendingLogs =
      s.node.pendingLogs ++ [documentOf n] := by
    rcases s.node.pendingLogs_putLog (documentOf n) (by omega) with ⟨-, hput⟩ | ⟨heq, -⟩
    · exact hput
    · omega
  have hqueued : s₄.queued = s.queued ++ [documentOf n] := by
    show ((s₂.setWriter 0 w₃).queue (documentOf n)).queued = _
    rw [LoggingNode.queued_queue]
    rfl
  have hearly : s₄.early = s.early := by
    show ((s₂.setWriter 0 w₃).queue (documentOf n)).early = _
    rw [LoggingNode.early_queue]
    rfl
  have hreceived : s₄.received = s.received := by
    show ((s₂.setWriter 0 w₃).queue (documentOf n)).received = _
    rw [LoggingNode.received_queue]
    rfl
  refine ⟨(s₄.setWriter 0 w₃).putResult (resultOf n), ?_, ?_⟩
  · simp only [callSteps, System.exec, logging, hstart, hprint, hend, Option.bind_some]
    rw [hfinish]
    rfl
  · refine ⟨?_, fun k => ?_, ?_, ?_, ?_, ?_, ?_, ?_, ?_⟩
    · rw [LoggingNode.order_putResult, LoggingNode.order_setWriter, horder, h.order]
    · rw [LoggingNode.writers_putResult, LoggingNode.writers_setWriter_self]
      exact hbuffers k
    · rw [LoggingNode.queued_putResult, LoggingNode.queued_setWriter, hqueued, h.queued,
        List.range_succ, List.map_append, List.map_singleton]
    · rw [LoggingNode.node_putResult, LoggingNode.node_setWriter, hnode,
        ResultsNode.putResult_pendingLogs, hput, LoggingNode.queued_putResult,
        LoggingNode.queued_setWriter, hqueued, h.pending]
    · rw [LoggingNode.node_putResult, LoggingNode.node_setWriter, hnode,
        ResultsNode.putResult_resultsQueue, ResultsNode.putLog_resultsQueue, h.resultsQueue,
        List.range_succ, List.map_append, List.map_singleton]
    · rw [LoggingNode.node_putResult, LoggingNode.node_setWriter, hnode,
        ResultsNode.putResult_pendingResultBatch, ResultsNode.putLog_pendingResultBatch,
        h.pendingResultBatch]
    · rw [LoggingNode.node_putResult, LoggingNode.node_setWriter, hnode,
        ResultsNode.putResult_onJob, ResultsNode.putLog_onJob, h.onJob]
    · have hmarked : (resultOf n).inputIndex ∈ (s₄.setWriter 0 w₃).endMarkers := by
        simp [LoggingNode.setWriter, hs₄, resultOf]
      rw [LoggingNode.early_putResult hmarked, LoggingNode.early_setWriter, hearly, h.early]
    · rw [LoggingNode.received_putResult, LoggingNode.received_setWriter, hreceived, h.received]

/-- Calls end one after another. -/
lemma exists_backlog (n : ℕ) (hn : n ≤ maxPendingLogs) :
    ∃ s, (logging ℕ).Reachable System.always s ∧ Backlog n s := by
  induction n with
  | zero =>
    refine ⟨{ quietNode.setWriter 0 .new with order := [0] }, ?_, ?_⟩
    · refine ⟨quietNode, [.openWriter 0], started_quietNode, ?_⟩
      exact System.Run.nil.snoc trivial rfl
    · exact ⟨rfl, fun _ => rfl, rfl, rfl, rfl, rfl, rfl, rfl, rfl⟩
  | succ n ih =>
    obtain ⟨s, hreach, hbacklog⟩ := ih (by omega)
    obtain ⟨t, hexec, ht⟩ := hbacklog.call (by omega)
    exact ⟨t, hreach.exec hexec, ht⟩

/-- A response has no more documents than the cap. -/
lemma length_drainLogs_le {drained : List LogDocument} (totalBytes : ℕ)
    (pending : List LogDocument)
    (hdrained : drained.length ≤ maxLogDocumentsPerResultsResponse) :
    (drainLogs drained totalBytes pending).1.length ≤ maxLogDocumentsPerResultsResponse := by
  induction pending generalizing drained totalBytes with
  | nil => exact hdrained
  | cons d pending ih =>
    simp only [drainLogs]
    split_ifs with hlt hbig
    · exact hdrained
    · refine ih _ ?_
      rw [List.length_append, List.length_singleton]
      omega
    · exact hdrained

/-- **A full response**: of 501 calls that end between two polls all the results are in one
response, and the documents of 500 at most. -/
theorem result_before_logs :
    ∃ s : LoggingNode ℕ, (logging ℕ).Reachable System.always s ∧ ¬s.OnTime := by
  obtain ⟨s, hreach, h⟩ := exists_backlog 501 (by decide)
  refine ⟨s.poll 0 none true, hreach.snoc (a := .poll 0 none true) trivial rfl, fun hontime => ?_⟩
  have hjob : s.node.onJob ≠ false := by simp [h.onJob]
  have hlength : s.node.pendingLogs.length = 501 := by simp [h.pending, h.queued]
  obtain ⟨response, hresponse, hresults, hlogs, hrest, -, -⟩ :=
    ResultsNode.getResults_spec hjob 0 none
  obtain ⟨taken, rest, hdrain, htaken⟩ := drainLogs_eq [] 0 s.node.pendingLogs
  have hpop : popPendingLogs 0 s.node.pendingLogs = (taken, rest) := by
    rw [popPendingLogs, if_neg (by rw [hlength]; decide), hdrain, List.nil_append]
  have hcap : taken.length ≤ 500 := by
    have hle := length_drainLogs_le 0 s.node.pendingLogs
      (show ([] : List LogDocument).length ≤ _ from Nat.zero_le _)
    rw [hdrain] at hle
    exact hle
  rw [hpop] at hlogs hrest
  -- the last result is in the response, and its document is not
  have hdue : resultOf 500 ∈ response.results := by
    have hbatch : (s.node.acknowledge none).pendingResultBatch = none := by
      rw [ResultsNode.acknowledge, h.pendingResultBatch]
      exact h.pendingResultBatch
    rw [hresults, ResultsNode.dueResults, hbatch, h.resultsQueue]
    decide +kernel
  have hreceived : (s.poll 0 none true).received =
      [s.receipt response (s.node.pendingLogs.length - rest.length)] := by
    simp only [LoggingNode.poll, hresponse, h.received, hrest]
    rfl
  have hqueued : (s.poll 0 none true).queued[500]? = some (documentOf 500) := by
    have hsame : (s.poll 0 none true).queued = s.queued := by
      simp only [LoggingNode.poll, hresponse]
    rw [hsame, h.queued]
    simp
  have hearly : (resultOf 500).inputIndex ∉ (s.poll 0 none true).early := by
    have hsame : (s.poll 0 none true).early = s.early := by
      simp only [LoggingNode.poll, hresponse]
    simp [hsame, h.early]
  obtain ⟨r, hr, hcovers⟩ := hontime 0 _ (by rw [hreceived]; rfl) _ hdue hearly 500 _ hqueued rfl
  rw [hreceived] at hr
  obtain rfl : r = s.receipt response (s.node.pendingLogs.length - rest.length) := by simpa using hr
  rcases hcovers with ⟨hnumber, -⟩ | ⟨-, d, hd, hnone, -⟩
  · have hfirst : s.first = 0 := by simp [LoggingNode.first, h.pending]
    have hsum := congrArg List.length htaken
    rw [List.length_append] at hsum
    rw [LoggingNode.receipt, hfirst, List.mem_range'_1] at hnumber
    omega
  · have htook : d ∈ response.logs := hd
    rw [hlogs] at htook
    have hmem : d ∈ s.node.pendingLogs := htaken ▸ List.mem_append_left _ htook
    rw [h.pending, h.queued] at hmem
    obtain ⟨k, -, rfl⟩ := List.mem_map.1 hmem
    cases hnone

end Burla.Results
