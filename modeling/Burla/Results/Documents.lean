/-
The lines that a log writer takes and the documents they end up in (`_write_locked`, `finish_input`
and `_flush_pending_documents` in worker_client.py).

`JobLogWriter.Records` says what a call adds to the lines of each input, in documents and in the
buffer together, and `JobLogWriter.Sized` that no buffer is full.  With them
`Burla.Results.documents_capped`: the lines that are not blank are kept, in order, and a document is
larger than the cap only when it is one line that is too long by itself.  Such a line is cut so
that it fits into the cap without the 180 bytes that it is counted with, and exceeds it still
(`messageSize_truncateMessage`), so the documents are within the cap exactly when no line is too long
(`within_cap_iff`).
-/
import Burla.Results.Logs
import Mathlib.Algebra.Order.Ring.Rat

namespace Burla.Results

/-! ### Sizes -/

/-- The sum of the lines' sizes. -/
def linesSize : List LogLine → ℕ
  | [] => 0
  | line :: lines => messageSize line.message + linesSize lines

/-- The lines of an input, in a list of documents. -/
def linesIn (documents : List LogDocument) (k : ℕ) : List LogLine :=
  (documents.filter fun d => d.inputIndex = some k).flatMap LogDocument.logs

lemma linesSize_append (l l' : List LogLine) : linesSize (l ++ l') = linesSize l + linesSize l' := by
  induction l with
  | nil => exact (Nat.zero_add _).symm
  | cons line l ih =>
    rw [List.cons_append, linesSize, ih, linesSize, Nat.add_assoc]

lemma linesSize_singleton (line : LogLine) : linesSize [line] = messageSize line.message := by
  rw [linesSize, linesSize, Nat.add_zero]

/-- A line counts for 180 at least. -/
lemma linesSize_eq_zero {l : List LogLine} : linesSize l = 0 ↔ l = [] := by
  cases l with
  | nil => exact ⟨fun _ => rfl, fun _ => rfl⟩
  | cons line l =>
    constructor
    · intro h
      rw [linesSize, messageSize] at h
      omega
    · exact nofun

lemma linesIn_append (documents documents' : List LogDocument) (k : ℕ) :
    linesIn (documents ++ documents') k = linesIn documents k ++ linesIn documents' k := by
  rw [linesIn, List.filter_append, List.flatMap_append]
  rfl

lemma mem_linesIn {documents : List LogDocument} {k : ℕ} {line : LogLine} :
    line ∈ linesIn documents k ↔ ∃ d ∈ documents, d.inputIndex = some k ∧ line ∈ d.logs := by
  simp [linesIn, and_assoc]

/-! ### Messages that are too long -/

lemma utf8ByteSize_ofList_cons (c : Char) (cs : List Char) :
    (String.ofList (c :: cs)).utf8ByteSize = c.utf8Size + (String.ofList cs).utf8ByteSize := by
  have hc : (String.ofList [c]).utf8ByteSize = c.utf8Size := String.utf8ByteSize_singleton
  rw [← List.singleton_append, String.ofList_append, String.utf8ByteSize_append, hc]

/-- Cutting takes away one character's bytes at most. -/
lemma utf8_takeBytes (n : ℕ) (cs : List Char) :
    takeBytes n cs = cs ∨ n < (String.ofList (takeBytes n cs)).utf8ByteSize + 4 := by
  induction cs generalizing n with
  | nil => exact .inl rfl
  | cons c cs ih =>
    have hc := c.utf8Size_le_four
    rw [takeBytes]
    split
    · rename_i hle
      rcases ih (n - c.utf8Size) with h | h
      · exact .inl (by rw [h])
      · refine .inr ?_
        rw [utf8ByteSize_ofList_cons]
        omega
    · exact .inr (by omega)

/-- A message that is too long is so after it has been cut. -/
lemma messageSize_truncateMessage {message : String}
    (h : maxLogDocumentSizeBytes < messageSize message) :
    maxLogDocumentSizeBytes < messageSize (truncateMessage message) := by
  have hsuffix : truncatedLogSuffix.utf8ByteSize = 49 := by decide +kernel
  have hcap : maxLogDocumentSizeBytes = 100000 := rfl
  rw [truncateMessage, if_neg (Nat.not_le.2 h)]
  simp only [messageSize, String.utf8ByteSize_append, hsuffix, hcap] at h ⊢
  rcases utf8_takeBytes (100000 - 49) message.toList with htake | htake
  · rw [htake, String.ofList_toList]
    omega
  · omega

lemma truncateMessage_of_le {message : String} (h : messageSize message ≤ maxLogDocumentSizeBytes) :
    truncateMessage message = message := if_pos h

namespace JobLogWriter

/-! ### What a call keeps and adds -/

/-- What a call adds to the lines of each input, in documents and in the buffer together. -/
def Records (w : JobLogWriter) (p : JobLogWriter × List LogDocument) (added : ℕ → List LogLine) :
    Prop :=
  ∀ k, linesIn p.2 k ++ (p.1.getLogBuffer k).logs = (w.getLogBuffer k).logs ++ added k

/-- Lines within the cap, or one line that was cut because it is too long by itself. -/
def Capped (logs : List LogLine) : Prop :=
  linesSize logs ≤ maxLogDocumentSizeBytes ∨
    ∃ line message, logs = [line] ∧ line.message = truncateMessage message ∧
      maxLogDocumentSizeBytes < messageSize message

/-- A document of an input's lines. -/
structure Queued (d : LogDocument) : Prop where
  ofInput : ∃ k, d.inputIndex = some k
  capped : Capped d.logs

/-- The sizes are those of the lines, and no buffer is full. -/
def Sized (w : JobLogWriter) : Prop :=
  ∀ k, (w.getLogBuffer k).sizeBytes = linesSize (w.getLogBuffer k).logs ∧
    (w.getLogBuffer k).sizeBytes < maxLogDocumentSizeBytes

section Calls

variable {w : JobLogWriter} {now : ℚ} {p q : JobLogWriter × List LogDocument} {k : ℕ}
  {added added' : ℕ → List LogLine}

lemma Records.refl : w.Records (w, []) fun _ => [] := fun _ => (List.append_nil _).symm

lemma Records.trans (h : w.Records p added) (h' : p.1.Records q added') :
    w.Records (q.1, p.2 ++ q.2) fun k => added k ++ added' k := by
  intro k
  calc linesIn (p.2 ++ q.2) k ++ (q.1.getLogBuffer k).logs
      = linesIn p.2 k ++ (linesIn q.2 k ++ (q.1.getLogBuffer k).logs) := by
        rw [linesIn_append, List.append_assoc]
    _ = linesIn p.2 k ++ (p.1.getLogBuffer k).logs ++ added' k := by
        rw [h' k, List.append_assoc]
    _ = (w.getLogBuffer k).logs ++ (added k ++ added' k) := by
        rw [h k, List.append_assoc]

/-- Nothing is added to nothing. -/
lemma Records.trans_nil (h : w.Records p fun _ => []) (h' : p.1.Records q fun _ => []) :
    w.Records (q.1, p.2 ++ q.2) fun _ => [] := h.trans h'

lemma sized_new : new.Sized := fun _ => ⟨rfl, Nat.zero_lt_succ _⟩

lemma Sized.setLogBuffer (h : w.Sized) {buffer : LogBuffer}
    (hsize : buffer.sizeBytes = linesSize buffer.logs)
    (hlt : buffer.sizeBytes < maxLogDocumentSizeBytes) : (w.setLogBuffer k buffer).Sized := by
  intro l
  rw [getLogBuffer_setLogBuffer]
  split
  · exact ⟨hsize, hlt⟩
  · exact h l

/-- Either there is nothing in the buffer, or there is now, and a document has what was. -/
lemma queueDocument_eq (w : JobLogWriter) (now : ℚ) (k : ℕ) :
    (w.queueDocument now k false = (w, []) ∧ (w.getLogBuffer k).logs = []) ∨
      w.queueDocument now k false =
        (w.setLogBuffer k { logs := [], sizeBytes := 0 },
          [{ logs := (w.getLogBuffer k).logs, timestamp := now, inputIndex := some k,
             isError := false }]) := by
  unfold queueDocument getLogBuffer
  cases w.logBuffers.get k with
  | none => exact .inl ⟨rfl, rfl⟩
  | some buffer =>
    by_cases hlogs : buffer.logs = []
    · exact .inl ⟨by simp [hlogs], hlogs⟩
    · exact .inr (by simp [hlogs])

/-- Lines that leave the buffer are in the document. -/
lemma records_queueDocument : w.Records (w.queueDocument now k false) fun _ => [] := by
  rcases queueDocument_eq w now k with ⟨h, -⟩ | h <;> rw [h]
  · exact .refl
  · intro l
    rw [getLogBuffer_setLogBuffer]
    by_cases hl : l = k
    · simp [linesIn, hl]
    · simp [linesIn, hl, Ne.symm hl]

lemma sized_queueDocument (h : w.Sized) : (w.queueDocument now k false).1.Sized := by
  rcases queueDocument_eq w now k with ⟨hq, -⟩ | hq <;> rw [hq]
  · exact h
  · exact h.setLogBuffer rfl (by decide)

lemma Sized.linesSize_le (h : w.Sized) :
    linesSize (w.getLogBuffer k).logs ≤ maxLogDocumentSizeBytes := (h k).1 ▸ (h k).2.le

lemma capped_queueDocument (h : Capped (w.getLogBuffer k).logs) :
    ∀ d ∈ (w.queueDocument now k false).2, Queued d := by
  rcases queueDocument_eq w now k with ⟨hq, -⟩ | hq <;> rw [hq]
  · exact nofun
  · intro d hd
    rw [List.mem_singleton.1 hd]
    exact ⟨⟨k, rfl⟩, h⟩

/-- The buffers are written out one after the other. -/
lemma queueAllBuffers_spec (h : w.Sized) (now : ℚ) :
    w.Records (w.queueAllBuffers now) (fun _ => []) ∧ (w.queueAllBuffers now).1.Sized ∧
      ∀ d ∈ (w.queueAllBuffers now).2, Queued d := by
  have hall : ∀ (keys : List ℕ) (p : JobLogWriter × List LogDocument),
      (w.Records p (fun _ => []) ∧ p.1.Sized ∧ ∀ d ∈ p.2, Queued d) →
      ∀ p', p' = keys.foldl
        (fun p inputIndex =>
          ((p.1.queueDocument now inputIndex false).1,
            p.2 ++ (p.1.queueDocument now inputIndex false).2)) p →
      w.Records p' (fun _ => []) ∧ p'.1.Sized ∧ ∀ d ∈ p'.2, Queued d := by
    intro keys
    induction keys with
    | nil =>
      rintro p hp p' rfl
      exact hp
    | cons key keys ih =>
      rintro p ⟨hrecords, hsized, hcapped⟩ p' rfl
      refine ih _ ⟨hrecords.trans_nil records_queueDocument, sized_queueDocument hsized, ?_⟩ _ rfl
      exact List.forall_mem_append.2 ⟨hcapped, capped_queueDocument (.inl hsized.linesSize_le)⟩
  exact hall w.logBuffers.keys (w, []) ⟨.refl, h, nofun⟩ _ rfl

/-- There is room for the line then, or the buffer is empty. -/
lemma makeRoom_spec (h : w.Sized) (now : ℚ) (k size : ℕ) :
    w.Records (w.makeRoom now k size) (fun _ => []) ∧ (w.makeRoom now k size).1.Sized ∧
      (∀ d ∈ (w.makeRoom now k size).2, Queued d) ∧
      (((w.makeRoom now k size).1.getLogBuffer k).logs = [] ∨
        ((w.makeRoom now k size).1.getLogBuffer k).sizeBytes + size ≤ maxLogDocumentSizeBytes) := by
  simp only [makeRoom]
  split
  · refine ⟨records_queueDocument, sized_queueDocument h,
      capped_queueDocument (.inl h.linesSize_le), .inl ?_⟩
    rcases queueDocument_eq w now k with ⟨hq, hnil⟩ | hq <;> rw [hq]
    · exact hnil
    · rw [getLogBuffer_setLogBuffer, if_pos rfl]
  · rename_i hfits
    refine ⟨.refl, h, List.forall_mem_nil _, ?_⟩
    by_cases hzero : (w.getLogBuffer k).sizeBytes = 0
    · exact .inl (linesSize_eq_zero.1 ((h k).1 ▸ hzero))
    · exact .inr (Nat.not_lt.1 fun hlt => hfits ⟨hzero, hlt⟩)

lemma records_setLogBuffer (line : LogLine) (size : ℕ) :
    w.Records
      (w.setLogBuffer k { logs := (w.getLogBuffer k).logs ++ [line], sizeBytes := size }, [])
      fun l => if l = k then [line] else [] := by
  intro l
  rw [getLogBuffer_setLogBuffer]
  by_cases hl : l = k
  · simp [linesIn, hl]
  · simp [linesIn, hl]

/-- A buffer with a line in it becomes a document. -/
lemma queueDocument_setLogBuffer (logs : List LogLine) (line : LogLine) (size : ℕ) :
    (w.setLogBuffer k { logs := logs ++ [line], sizeBytes := size }).queueDocument now k false =
      ((w.setLogBuffer k { logs := logs ++ [line], sizeBytes := size }).setLogBuffer k
          { logs := [], sizeBytes := 0 },
        [{ logs := logs ++ [line], timestamp := now, inputIndex := some k, isError := false }]) := by
  have hbuffer : (w.setLogBuffer k { logs := logs ++ [line], sizeBytes := size }).getLogBuffer k =
      { logs := logs ++ [line], sizeBytes := size } := by
    rw [getLogBuffer_setLogBuffer, if_pos rfl]
  rcases queueDocument_eq (w.setLogBuffer k { logs := logs ++ [line], sizeBytes := size }) now k with
    ⟨-, hnil⟩ | hq
  · rw [hbuffer] at hnil
    exact absurd hnil (List.append_ne_nil_of_right_ne_nil _ (List.cons_ne_nil _ _))
  · rw [hq, hbuffer]

/-- A line goes to the buffer, which is written out when it is full. -/
def appendLine (w : JobLogWriter) (now : ℚ) (k : ℕ) (line : LogLine) :
    JobLogWriter × List LogDocument :=
  let size := (w.getLogBuffer k).sizeBytes + messageSize line.message
  let w' := w.setLogBuffer k { logs := (w.getLogBuffer k).logs ++ [line], sizeBytes := size }
  if maxLogDocumentSizeBytes ≤ size then w'.queueDocument now k false else (w', [])

lemma write_eq {message : String} (h : message.toList.all isSpace = false) (timestamp : ℚ) :
    w.write now k message timestamp =
      let p := w.makeRoom now k (messageSize (truncateMessage message))
      let q := p.1.appendLine now k { timestamp, message := truncateMessage message }
      (q.1, p.2 ++ q.2) := by
  simp only [write, h, Bool.false_eq_true, if_false, appendLine, ge_iff_le]
  split
  · rfl
  · rw [List.append_nil]

lemma appendLine_spec (h : w.Sized) (now : ℚ) (k : ℕ) {line : LogLine} {message : String}
    (hline : line.message = truncateMessage message)
    (hfits : (w.getLogBuffer k).logs = [] ∨
      (w.getLogBuffer k).sizeBytes + messageSize line.message ≤ maxLogDocumentSizeBytes) :
    w.Records (w.appendLine now k line) (fun l => if l = k then [line] else []) ∧
      (w.appendLine now k line).1.Sized ∧ ∀ d ∈ (w.appendLine now k line).2, Queued d := by
  have hsum : (w.getLogBuffer k).sizeBytes + messageSize line.message =
      linesSize ((w.getLogBuffer k).logs ++ [line]) := by
    rw [linesSize_append, ← (h k).1, linesSize_singleton]
  have hwritten := records_setLogBuffer (w := w) (k := k) line
    ((w.getLogBuffer k).sizeBytes + messageSize line.message)
  unfold appendLine
  generalize (w.getLogBuffer k).sizeBytes + messageSize line.message = size at *
  simp only
  split
  · -- The buffer is full, and the line is the last in it.
    have hcapped : Capped ((w.getLogBuffer k).logs ++ [line]) := by
      rcases hfits with hnil | hle
      · rw [hnil, List.nil_append]
        rcases Nat.lt_or_ge maxLogDocumentSizeBytes (messageSize message) with hlt | hge
        · exact .inr ⟨line, message, rfl, hline, hlt⟩
        · refine .inl ?_
          rw [linesSize_singleton, hline, truncateMessage_of_le hge]
          exact hge
      · exact .inl (hsum ▸ hle)
    refine ⟨by simpa using hwritten.trans records_queueDocument, ?_, ?_⟩
    · rw [queueDocument_setLogBuffer]
      intro l
      rw [getLogBuffer_setLogBuffer]
      split
      · exact ⟨rfl, Nat.zero_lt_succ _⟩
      · rename_i hl
        rw [getLogBuffer_setLogBuffer, if_neg hl]
        exact h l
    · rw [queueDocument_setLogBuffer]
      intro d hd
      rw [List.mem_singleton.1 hd]
      exact ⟨⟨k, rfl⟩, hcapped⟩
  · rename_i hlt
    exact ⟨hwritten, h.setLogBuffer hsum (Nat.not_le.1 hlt), nofun⟩

/-- The line that a message is kept as, if it is not blank. -/
def kept (message : String) (timestamp : ℚ) : List LogLine :=
  if message.toList.all isSpace then [] else [{ timestamp, message := truncateMessage message }]

/-- **A message that is not blank is kept, and what is queued is within the cap, or one line.** -/
lemma write_spec (h : w.Sized) (now : ℚ) (k : ℕ) (message : String) (timestamp : ℚ) :
    w.Records (w.write now k message timestamp)
        (fun l => if l = k then kept message timestamp else []) ∧
      (w.write now k message timestamp).1.Sized ∧
      ∀ d ∈ (w.write now k message timestamp).2, Queued d := by
  cases hblank : message.toList.all isSpace with
  | true =>
    rw [write, if_pos hblank]
    simpa [kept, hblank] using ⟨Records.refl, h⟩
  | false =>
    obtain ⟨hrecords, hsized, hcapped, hfits⟩ :=
      makeRoom_spec h now k (messageSize (truncateMessage message))
    have hline : (⟨timestamp, truncateMessage message⟩ : LogLine).message =
        truncateMessage message := rfl
    obtain ⟨hrecords', hsized', hcapped'⟩ := appendLine_spec hsized now k hline hfits
    rw [write_eq hblank]
    refine ⟨?_, hsized', List.forall_mem_append.2 ⟨hcapped, hcapped'⟩⟩
    simpa [kept, hblank] using hrecords.trans hrecords'

/-- A message that is too long is queued at once. -/
lemma exists_over_write {message : String} (h : message.toList.all isSpace = false)
    (hlong : maxLogDocumentSizeBytes < messageSize message) (timestamp : ℚ) :
    ∃ d ∈ (w.write now k message timestamp).2, maxLogDocumentSizeBytes < linesSize d.logs := by
  rw [write_eq h]
  generalize w.makeRoom now k (messageSize (truncateMessage message)) = p
  set line : LogLine := { timestamp, message := truncateMessage message }
  have hline : maxLogDocumentSizeBytes < messageSize line.message :=
    messageSize_truncateMessage hlong
  simp only [appendLine, if_pos (hline.le.trans (Nat.le_add_left ..)), queueDocument_setLogBuffer,
    List.mem_append]
  refine ⟨_, .inr (List.mem_singleton_self _), ?_⟩
  rw [linesSize_append, linesSize_singleton]
  exact hline.trans_le (Nat.le_add_left ..)

lemma activeInputIndex_write {message : String} {timestamp : ℚ} :
    (w.write now k message timestamp).1.activeInputIndex = w.activeInputIndex := by
  cases hblank : message.toList.all isSpace with
  | true => rw [write, if_pos hblank]
  | false =>
    rw [write_eq hblank, ← (calls_makeRoom w now k (messageSize (truncateMessage message))).2]
    simp only [appendLine]
    split
    · exact activeInputIndex_queueDocument false
    · rfl

lemma activeInputIndex_queueAllBuffers :
    (w.queueAllBuffers now).1.activeInputIndex = w.activeInputIndex := by
  have hall : ∀ (keys : List ℕ) (p : JobLogWriter × List LogDocument),
      (keys.foldl
        (fun p inputIndex =>
          ((p.1.queueDocument now inputIndex false).1,
            p.2 ++ (p.1.queueDocument now inputIndex false).2)) p).1.activeInputIndex =
        p.1.activeInputIndex := by
    intro keys
    induction keys with
    | nil => exact fun _ => rfl
    | cons key keys ih => exact fun p => (ih _).trans (activeInputIndex_queueDocument false)
  exact hall w.logBuffers.keys (w, [])

end Calls

end JobLogWriter

/-! ### Sequences of calls -/

/-- `_write_locked`, a round of the flush loop, and `finish_input` once it has waited. -/
inductive WriterCall
  | write (inputIndex : ℕ) (message : String) (timestamp : ℚ)
  | flush
  | finishInput (inputIndex : ℕ)

namespace WriterCall

/-- A call at a time, and the documents that it queues. -/
def apply (w : JobLogWriter) (now : ℚ) : WriterCall → JobLogWriter × List LogDocument
  | write inputIndex message timestamp => w.write now inputIndex message timestamp
  | flush => w.queueAllBuffers now
  | finishInput inputIndex => w.queueDocument now inputIndex false

/-- The lines that a call has for an input: `keep` says how a message is kept. -/
def lines (keep : String → ℚ → List LogLine) (k : ℕ) : WriterCall → List LogLine
  | write inputIndex message timestamp => if k = inputIndex then keep message timestamp else []
  | flush | finishInput _ => []

/-- A call with a message that is not blank and too long by itself. -/
def IsLong : WriterCall → Prop
  | write _ message _ =>
    message.toList.all isSpace = false ∧ maxLogDocumentSizeBytes < messageSize message
  | flush | finishInput _ => False

/-- One call after the other. -/
def run : JobLogWriter → List (ℚ × WriterCall) → JobLogWriter × List LogDocument
  | w, [] => (w, [])
  | w, (now, c) :: calls =>
    let p := c.apply w now
    let q := run p.1 calls
    (q.1, p.2 ++ q.2)

end WriterCall

section Run

open JobLogWriter

variable {w : JobLogWriter} (calls : List (ℚ × WriterCall))

lemma apply_spec (h : w.Sized) (now : ℚ) (c : WriterCall) :
    w.Records (c.apply w now) (fun k => c.lines kept k) ∧ (c.apply w now).1.Sized ∧
      ∀ d ∈ (c.apply w now).2, Queued d := by
  cases c with
  | write k message timestamp => exact write_spec h now k message timestamp
  | flush => exact queueAllBuffers_spec h now
  | finishInput k =>
    exact ⟨records_queueDocument, sized_queueDocument h, capped_queueDocument (.inl h.linesSize_le)⟩

lemma run_spec (h : w.Sized) :
    w.Records (WriterCall.run w calls) (fun k => calls.flatMap fun c => c.2.lines kept k) ∧
      (WriterCall.run w calls).1.Sized ∧ ∀ d ∈ (WriterCall.run w calls).2, Queued d := by
  induction calls generalizing w with
  | nil => exact ⟨.refl, h, nofun⟩
  | cons c calls ih =>
    obtain ⟨hrecords, hsized, hcapped⟩ := apply_spec h c.1 c.2
    obtain ⟨hrecords', hsized', hcapped'⟩ := ih hsized
    exact ⟨hrecords.trans hrecords', hsized', List.forall_mem_append.2 ⟨hcapped, hcapped'⟩⟩

/-- The lines of an input that are in documents and in the buffer. -/
def linesOf (p : JobLogWriter × List LogDocument) (k : ℕ) : List LogLine :=
  linesIn p.2 k ++ (p.1.getLogBuffer k).logs

lemma linesOf_run (k : ℕ) :
    linesOf (WriterCall.run .new calls) k = calls.flatMap fun c => c.2.lines kept k :=
  (run_spec calls sized_new).1 k

/-- A call that is not long has lines within the cap. -/
lemma messageSize_le_of_lines {c : WriterCall} (h : ¬c.IsLong) {k : ℕ} {line : LogLine}
    (hline : line ∈ c.lines kept k) : messageSize line.message ≤ maxLogDocumentSizeBytes := by
  cases c with
  | write inputIndex message timestamp =>
    simp only [WriterCall.lines, kept] at hline
    split at hline
    · cases hblank : message.toList.all isSpace with
      | true => simp [hblank] at hline
      | false =>
        have hle : messageSize message ≤ maxLogDocumentSizeBytes :=
          Nat.not_lt.1 fun hlong => h ⟨hblank, hlong⟩
        simp only [hblank, Bool.false_eq_true, if_false, List.mem_singleton] at hline
        rw [hline, truncateMessage_of_le hle]
        exact hle
    · cases hline
  | flush => cases hline
  | finishInput => cases hline

/-- **The documents are within the cap exactly when no message that is not blank is too long by
itself.** -/
theorem within_cap_iff :
    (∀ d ∈ (WriterCall.run .new calls).2, linesSize d.logs ≤ maxLogDocumentSizeBytes) ↔
      ∀ c ∈ calls, ¬c.2.IsLong := by
  constructor
  · -- The call with a message that is too long queues it.
    have hrun : ∀ (w : JobLogWriter) (calls : List (ℚ × WriterCall)), ∀ c ∈ calls, c.2.IsLong →
        ∃ d ∈ (WriterCall.run w calls).2, maxLogDocumentSizeBytes < linesSize d.logs := by
      intro w calls
      induction calls generalizing w with
      | nil => exact nofun
      | cons c calls ih =>
        intro c' hc' hlong
        rcases List.mem_cons.1 hc' with rfl | hc'
        · obtain ⟨now, _ | _ | _⟩ := c'
          · obtain ⟨d, hd, hover⟩ := exists_over_write hlong.1 hlong.2 _
            exact ⟨d, List.mem_append_left _ hd, hover⟩
          · exact hlong.elim
          · exact hlong.elim
        · obtain ⟨d, hd, hover⟩ := ih _ c' hc' hlong
          exact ⟨d, List.mem_append_right _ hd, hover⟩
    intro h c hc hlong
    obtain ⟨d, hd, hover⟩ := hrun _ calls c hc hlong
    exact absurd (h d hd) (Nat.not_le.2 hover)
  · intro h d hd
    obtain ⟨⟨k, hk⟩, hle | ⟨line, -, hlogs, -⟩⟩ := (run_spec calls sized_new).2.2 d hd
    · exact hle
    · -- The line is that of a call.
      have hmem : line ∈ linesOf (WriterCall.run .new calls) k :=
        List.mem_append_left _ (mem_linesIn.2 ⟨d, hd, hk, hlogs ▸ List.mem_singleton_self _⟩)
      rw [linesOf_run] at hmem
      obtain ⟨c, hc, hline⟩ := List.mem_flatMap.1 hmem
      rw [hlogs, linesSize_singleton]
      exact messageSize_le_of_lines (h c hc) hline

end Run

/-! ### What is not kept -/

/-- What is said of the documents of a sequence of calls: they are within the cap, no message is
dropped, and a message is cut only when it is too long by itself. -/
def KeepsAll (calls : List (ℚ × WriterCall)) : Prop :=
  (∀ d ∈ (WriterCall.run .new calls).2, linesSize d.logs ≤ maxLogDocumentSizeBytes) ∧
    (∀ k, linesOf (WriterCall.run .new calls) k = calls.flatMap fun c =>
      c.2.lines (fun message timestamp => [{ timestamp, message := truncateMessage message }]) k) ∧
    ∀ message, truncateMessage message ≠ message → maxLogDocumentSizeBytes < messageSize message

end Burla.Results
