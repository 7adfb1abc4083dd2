/-
What a function prints, on its way to the client (`JobLogWriter` in worker_client.py).

A writer keeps a buffer of lines for each input.  A buffer becomes a log document when it is full,
when the input's end marker is seen, when the writer is flushed, and when the input is finished;
the document goes into `pending_logs` at once.
-/
import Burla.Lib.Dict
import Burla.Results.Node

namespace Burla.Results

/-! ### Lines -/

def maxLogDocumentSizeBytes : ℕ := 100000

def truncatedLogSuffix : String := "<too-long--remaining-msg-truncated-due-to-length>"

/-- The characters that `str.strip` takes away. -/
def isSpace (c : Char) : Bool :=
  let n := c.toNat
  (9 ≤ n ∧ n ≤ 13) ∨ (28 ≤ n ∧ n ≤ 32) ∨ n = 0x85 ∨ n = 0xa0 ∨ n = 0x1680 ∨
    (0x2000 ≤ n ∧ n ≤ 0x200a) ∨ n = 0x2028 ∨ n = 0x2029 ∨ n = 0x202f ∨ n = 0x205f ∨ n = 0x3000

/-- The characters of the first so many bytes, without one that is cut in two. -/
def takeBytes (maxBytes : ℕ) : List Char → List Char
  | [] => []
  | c :: cs => if c.utf8Size ≤ maxBytes then c :: takeBytes (maxBytes - c.utf8Size) cs else []

/-- A line's share of a document's size. -/
def messageSize (message : String) : ℕ := message.utf8ByteSize + 180

/-- `_truncate_message` -/
def truncateMessage (message : String) : String :=
  if messageSize message ≤ maxLogDocumentSizeBytes then message
  else
    let maxBytes := maxLogDocumentSizeBytes - truncatedLogSuffix.utf8ByteSize
    String.ofList (takeBytes maxBytes message.toList) ++ truncatedLogSuffix

/-- What a line of a container's output is once its timestamp and markers have been read. -/
inductive ContainerLogLine
  | startMarker (inputIndex : ℕ)
  | endMarker (inputIndex : ℕ)
  /-- A line of the worker itself. -/
  | internal
  | message (message : String) (timestamp : ℚ)
  deriving DecidableEq, Repr

/-! ### The writer -/

structure LogBuffer where
  logs : List LogLine
  sizeBytes : ℕ
  deriving DecidableEq, Repr

/-- What a writer knows of the inputs' lines. -/
structure JobLogWriter where
  logBuffers : Dict ℕ LogBuffer
  activeInputIndex : Option ℕ

namespace JobLogWriter

def new : JobLogWriter := { logBuffers := .empty, activeInputIndex := none }

variable (w : JobLogWriter) (now : ℚ)

/-- `_get_log_buffer` -/
def getLogBuffer (inputIndex : ℕ) : LogBuffer :=
  (w.logBuffers.get inputIndex).getD { logs := [], sizeBytes := 0 }

def setLogBuffer (inputIndex : ℕ) (buffer : LogBuffer) : JobLogWriter :=
  { w with logBuffers := w.logBuffers.set inputIndex buffer }

/-- `_queue_document_locked`, with the documents that the client can fetch. -/
def queueDocument (inputIndex : ℕ) (isError : Bool) : JobLogWriter × List LogDocument :=
  match w.logBuffers.get inputIndex with
  | none => (w, [])
  | some buffer =>
    if buffer.logs = [] then (w, [])
    else
      let document : LogDocument :=
        { logs := buffer.logs, timestamp := now, inputIndex := some inputIndex, isError }
      (w.setLogBuffer inputIndex { logs := [], sizeBytes := 0 },
        if isError then [] else [document])

/-- `_queue_all_buffers_locked` -/
def queueAllBuffers : JobLogWriter × List LogDocument :=
  w.logBuffers.keys.foldl
    (fun p inputIndex =>
      let q := p.1.queueDocument now inputIndex false
      (q.1, p.2 ++ q.2))
    (w, [])

/-- A buffer that a line of this size does not fit into goes first. -/
def makeRoom (inputIndex size : ℕ) : JobLogWriter × List LogDocument :=
  let logBuffer := w.getLogBuffer inputIndex
  if logBuffer.sizeBytes ≠ 0 ∧ logBuffer.sizeBytes + size > maxLogDocumentSizeBytes then
    w.queueDocument now inputIndex false
  else (w, [])

/-- `_write_locked` -/
def write (inputIndex : ℕ) (message : String) (timestamp : ℚ) :
    JobLogWriter × List LogDocument :=
  if message.toList.all isSpace then (w, [])
  else
    let message := truncateMessage message
    let size := messageSize message
    let p := w.makeRoom now inputIndex size
    let logBuffer := p.1.getLogBuffer inputIndex
    let logBuffer : LogBuffer :=
      { logs := logBuffer.logs ++ [{ timestamp, message }], sizeBytes := logBuffer.sizeBytes + size }
    let w' := p.1.setLogBuffer inputIndex logBuffer
    if logBuffer.sizeBytes ≥ maxLogDocumentSizeBytes then
      let q := w'.queueDocument now inputIndex false
      (q.1, p.2 ++ q.2)
    else (w', p.2)

/-- `_capture_container_log_line_locked` -/
def capture : ContainerLogLine → JobLogWriter × List LogDocument
  | .startMarker inputIndex => ({ w with activeInputIndex := some inputIndex }, [])
  | .endMarker inputIndex =>
    let p := w.queueDocument now inputIndex false
    ({ p.1 with activeInputIndex := none }, p.2)
  | .internal => (w, [])
  | .message message timestamp =>
    match w.activeInputIndex with
    | none => (w, [])
    | some inputIndex => w.write now inputIndex message timestamp

/-- Lines of the input are in the writer's buffer. -/
def Holds (k : ℕ) : Prop := (w.getLogBuffer k).logs ≠ []

instance (k : ℕ) : Decidable (w.Holds k) := inferInstanceAs (Decidable (_ ≠ _))

/-- The input's lines are still coming in, or some are in the writer's buffer. -/
def Open (k : ℕ) : Prop := w.activeInputIndex = some k ∨ w.Holds k

instance (k : ℕ) : Decidable (w.Open k) := inferInstanceAs (Decidable (_ ∨ _))

/-! ### What a call does -/

/-- A call on a writer: the documents are of inputs that were open, and no other input is open
after it. -/
structure Calls (p : JobLogWriter × List LogDocument) : Prop where
  documents : ∀ d ∈ p.2, ∃ k, d.inputIndex = some k ∧ w.Open k
  stays : ∀ k, p.1.Open k → w.Open k

variable {w now} {p : JobLogWriter × List LogDocument} {k k' : ℕ}

lemma Calls.refl : w.Calls (w, []) where
  documents := by simp
  stays _ := id

lemma Calls.trans {q : JobLogWriter × List LogDocument} (h : w.Calls p) (h' : p.1.Calls q) :
    w.Calls (q.1, p.2 ++ q.2) where
  documents := by
    intro d hd
    rcases List.mem_append.1 hd with hd | hd
    · exact h.documents d hd
    · obtain ⟨k, hk, hopen⟩ := h'.documents d hd
      exact ⟨k, hk, h.stays k hopen⟩
  stays k hk := h.stays k (h'.stays k hk)

lemma getLogBuffer_setLogBuffer (buffer : LogBuffer) :
    (w.setLogBuffer k buffer).getLogBuffer k' = if k' = k then buffer else w.getLogBuffer k' := by
  simp only [getLogBuffer, setLogBuffer, Dict.get_set]
  split <;> rfl

lemma not_holds_new : ¬new.Open k := by
  rintro (h | h)
  · cases h
  · exact h rfl

/-- A document takes the input's lines out of the buffer. -/
lemma queueDocument_cases (w : JobLogWriter) (now : ℚ) (k : ℕ) (isError : Bool) :
    (w.queueDocument now k isError = (w, []) ∧ ¬w.Holds k) ∨
      (w.queueDocument now k isError).1 = w.setLogBuffer k { logs := [], sizeBytes := 0 } ∧
        w.Holds k ∧ ∀ d ∈ (w.queueDocument now k isError).2, d.inputIndex = some k := by
  unfold queueDocument Holds getLogBuffer
  cases hget : w.logBuffers.get k with
  | none => exact .inl ⟨rfl, by simp⟩
  | some buffer =>
    by_cases hlogs : buffer.logs = []
    · exact .inl ⟨by simp [hlogs], by simp [hlogs]⟩
    · refine .inr ⟨by simp [hlogs], by simpa using hlogs, ?_⟩
      simp only [hlogs, if_false]
      intro d hd
      split at hd
      · cases hd
      · rw [List.mem_singleton.1 hd]

lemma calls_queueDocument (isError : Bool) : w.Calls (w.queueDocument now k isError) := by
  rcases queueDocument_cases w now k isError with ⟨h, -⟩ | ⟨h, hholds, hdocuments⟩
  · rw [h]
    exact .refl
  · refine ⟨fun d hd => ⟨k, hdocuments d hd, .inr hholds⟩, fun l hl => ?_⟩
    rcases hl with hactive | hl
    · rw [h] at hactive
      exact .inl hactive
    · rw [Holds, h, getLogBuffer_setLogBuffer] at hl
      split at hl
      · exact absurd rfl hl
      · exact .inr hl

/-- After `_queue_document_locked` the buffer has no line of the input. -/
lemma not_holds_queueDocument (isError : Bool) : ¬(w.queueDocument now k isError).1.Holds k := by
  rcases queueDocument_cases w now k isError with ⟨h, hnot⟩ | ⟨h, -, -⟩
  · rwa [h]
  · rw [h, Holds, getLogBuffer_setLogBuffer, if_pos rfl]
    exact fun hne => hne rfl

lemma calls_queueAllBuffers : w.Calls (w.queueAllBuffers now) := by
  have hall : ∀ (keys : List ℕ) (p : JobLogWriter × List LogDocument), w.Calls p →
      w.Calls (keys.foldl
        (fun p inputIndex =>
          ((p.1.queueDocument now inputIndex false).1,
            p.2 ++ (p.1.queueDocument now inputIndex false).2)) p) := by
    intro keys
    induction keys with
    | nil => exact fun p h => h
    | cons key keys ih => exact fun p h => ih _ (h.trans (calls_queueDocument false))
  exact hall w.logBuffers.keys (w, []) .refl

/-- Writing a line of an input leaves it open, and opens no other. -/
lemma calls_setLogBuffer (hopen : w.Open k) (buffer : LogBuffer) :
    w.Calls (w.setLogBuffer k buffer, []) where
  documents := by simp
  stays l hl := by
    by_cases hlk : l = k
    · exact hlk ▸ hopen
    · rcases hl with hl | hl
      · exact .inl hl
      · refine .inr ?_
        rwa [Holds, getLogBuffer_setLogBuffer, if_neg hlk] at hl

@[simp] lemma activeInputIndex_queueDocument (isError : Bool) :
    (w.queueDocument now k isError).1.activeInputIndex = w.activeInputIndex := by
  rcases queueDocument_cases w now k isError with ⟨h, -⟩ | ⟨h, -, -⟩ <;> rw [h]
  rfl

lemma calls_makeRoom (w : JobLogWriter) (now : ℚ) (k size : ℕ) : w.Calls (w.makeRoom now k size) ∧
    (w.makeRoom now k size).1.activeInputIndex = w.activeInputIndex := by
  simp only [makeRoom]
  split
  · exact ⟨calls_queueDocument false, activeInputIndex_queueDocument false⟩
  · exact ⟨.refl, rfl⟩

lemma calls_write (hactive : w.activeInputIndex = some k) (message : String) (timestamp : ℚ) :
    w.Calls (w.write now k message timestamp) := by
  unfold write
  split
  · exact .refl
  obtain ⟨hroom, hsame⟩ := calls_makeRoom w now k (messageSize (truncateMessage message))
  have hset := fun buffer => hroom.trans (calls_setLogBuffer (.inl (hsame.trans hactive)) buffer)
  simp only [List.append_nil] at hset
  simp only
  split
  · exact (hset _).trans (calls_queueDocument false)
  · exact hset _

/-- A line opens at most the input that it starts. -/
lemma calls_capture {line : ContainerLogLine} (hline : ∀ k, line ≠ .startMarker k) :
    w.Calls (w.capture now line) := by
  cases line with
  | startMarker k => exact absurd rfl (hline k)
  | endMarker k =>
    have hcalls : w.Calls (w.queueDocument now k false) := calls_queueDocument false
    refine ⟨hcalls.documents, fun l hl => ?_⟩
    rcases hl with hl | hl
    · cases hl
    · exact hcalls.stays l (.inr hl)
  | internal => exact .refl
  | message message timestamp =>
    simp only [capture]
    cases hactive : w.activeInputIndex with
    | none => exact .refl
    | some k => exact calls_write hactive message timestamp

lemma open_capture_startMarker (h : (w.capture now (.startMarker k)).1.Open k') :
    k' = k ∨ w.Open k' := by
  rcases h with h | h
  · exact .inl (Option.some.inj h).symm
  · exact .inr (.inr h)

end JobLogWriter

end Burla.Results
