/-
From a container's output to the lines of its calls (`capture_container_output`,
`_capture_container_log_line_locked` and `_parse_container_log_line` in worker_client.py).

The output comes in chunks, which are split into lines; what is left without a line end waits for
the next chunk.  As long as the output has no other separators than newlines, the lines are those of
the whole output, however it was chunked (`runEvents_spec`), and the lines of a call are recorded
for its input, in order, each once (`Burla.Results.captures`).  Blank lines and lines that look like
the worker's own are left out.  The splitter knows other separators: what comes after one of them has
no timestamp of its own, and reading it raises (`raised_after_separator`).
-/
import Mathlib.Data.List.DropRight
import Burla.Files.ContentRange
import Burla.Lib.Framing
import Burla.Results.Documents

namespace Burla.Results

/-! ### Timestamps -/

/-- So many digits, and what follows them. -/
def readNumber (n : ℕ) (text : List Char) : Option (ℕ × List Char) :=
  let digits := text.take n
  if digits.length = n ∧ digits.all Char.isDigit then
    some (Nat.ofDigitChars 10 digits 0, text.drop n)
  else none

def isLeap (year : ℕ) : Bool := year % 4 = 0 ∧ (year % 100 ≠ 0 ∨ year % 400 = 0)

def daysInMonth (year month : ℕ) : ℕ :=
  if month = 2 then if isLeap year then 29 else 28
  else if month ∈ [4, 6, 9, 11] then 30
  else 31

/-- The days from the epoch to a date. -/
def daysOf (year month day : ℕ) : ℤ :=
  let y := year - 1
  let months := (List.range (month - 1)).foldl (fun days m => days + daysInMonth year (m + 1)) 0
  (y * 365 + y / 4 - y / 100 + y / 400 + months + day : ℕ) - 719163

/-- `YYYY-MM-DD` -/
def readDate (text : List Char) : Option (ℤ × List Char) :=
  (readNumber 4 text).bind fun (year, text) =>
    match text with
    | '-' :: text =>
      (readNumber 2 text).bind fun (month, text) =>
        match text with
        | '-' :: text =>
          (readNumber 2 text).bind fun (day, text) =>
            if 1 ≤ year ∧ 1 ≤ month ∧ month ≤ 12 ∧ 1 ≤ day ∧ day ≤ daysInMonth year month then
              some (daysOf year month day, text)
            else none
        | _ => none
    | _ => none

/-- The microseconds of a fraction of a second; further digits are dropped. -/
def readFraction (text : List Char) : Option (ℚ × List Char) :=
  let digits := text.takeWhile Char.isDigit
  if digits = [] then none
  else
    let micros := Nat.ofDigitChars 10 ((digits ++ List.replicate 6 '0').take 6) 0
    some (mkRat micros 1000000, text.dropWhile Char.isDigit)

/-- `HH:MM:SS`, and a fraction perhaps. -/
def readClock (text : List Char) : Option (ℚ × List Char) :=
  (readNumber 2 text).bind fun (hours, text) =>
    match text with
    | ':' :: text =>
      (readNumber 2 text).bind fun (minutes, text) =>
        if 24 ≤ hours ∨ 60 ≤ minutes then none
        else
          match text with
          | ':' :: text =>
            (readNumber 2 text).bind fun (seconds, text) =>
              if 60 ≤ seconds then none
              else
                let whole : ℚ := (hours * 3600 + minutes * 60 + seconds : ℕ)
                match text with
                | '.' :: text => (readFraction text).map fun (f, text) => (whole + f, text)
                | text => some (whole, text)
          | text => some ((hours * 3600 + minutes * 60 : ℕ), text)
    | _ => none

/-- An offset from UTC. -/
def readOffset : List Char → Option ℚ
  | [] => some 0
  | '+' :: text => (readClock text).bind fun (t, text) => if text = [] then some t else none
  | '-' :: text => (readClock text).bind fun (t, text) => if text = [] then some (-t) else none
  | _ => none

/-- `datetime.fromisoformat(…).timestamp()`, of a date, or of a date and a time; the compact forms
and the dates by weeks are not among them. -/
def fromIsoFormat (text : List Char) : Option ℚ :=
  (readDate text).bind fun (days, text) =>
    match text with
    | [] => some (days * 86400)
    | _ :: text =>
      (readClock text).bind fun (t, text) =>
        (readOffset text).map fun offset => days * 86400 + t - offset

/-- `replace("Z", "+00:00")`, and the time that is read then. -/
def timestampOf (text : List Char) : Option ℚ :=
  fromIsoFormat (text.flatMap fun c => if c = 'Z' then "+00:00".toList else [c])

/-! ### Lines -/

/-- The separators of `str.splitlines`. -/
def isLineBoundary (c : Char) : Bool :=
  let n := c.toNat
  (10 ≤ n ∧ n ≤ 13) ∨ (28 ≤ n ∧ n ≤ 30) ∨ n = 0x85 ∨ n = 0x2028 ∨ n = 0x2029

/-- `splitlines(keepends=True)` -/
def splitLines : List Char → List (List Char)
  | [] => []
  | '\r' :: '\n' :: cs => ['\r', '\n'] :: splitLines cs
  | c :: cs =>
    if isLineBoundary c then [c] :: splitLines cs
    else
      match splitLines cs with
      | [] => [[c]]
      | line :: lines => (c :: line) :: lines

/-- `str.strip` -/
def strip (text : List Char) : List Char := (text.dropWhile isSpace).rdropWhile isSpace

def logStartMarkerPrefix : List Char := "__burla_input_start__:".toList

def logEndMarkerPrefix : List Char := "__burla_input_end__:".toList

def oomKillMarkerPrefix : List Char := "__burla_oom_kill__:".toList

/-- `_is_worker_internal_log_message`, of a message without blanks around it. -/
def isWorkerInternalLogMessage (stripped : List Char) : Bool :=
  stripped = "Killed".toList || oomKillMarkerPrefix.isPrefixOf stripped ||
    ["3.11", "3.12", "3.13", "3.14"].any (fun version => stripped = version.toList) ||
    ["Using CPython ", "× No solution found when resolving dependencies:",
      "╰─▶ Because there is no version of burla==", "burla==", "Checked 1 package in "].any
      fun start => start.toList.isPrefixOf stripped

/-- `int`, of what follows a marker's prefix.  No worker writes a number below 0. -/
def markedIndex (text : List Char) : Option ℕ :=
  (Files.int (strip text)).bind fun n => if 0 ≤ n then some n.toNat else none

/-- `_parse_container_log_line`, and what the line is; none is an exception. -/
def readContainerLogLine (containerLogLine : List Char) : Option ContainerLogLine :=
  let timestampString := containerLogLine.takeWhile (· ≠ ' ')
  let message := (containerLogLine.dropWhile (· ≠ ' ')).drop 1
  (timestampOf timestampString).bind fun timestamp =>
    let strippedMessage := strip message
    if logStartMarkerPrefix.isPrefixOf strippedMessage then
      (markedIndex (strippedMessage.drop logStartMarkerPrefix.length)).map .startMarker
    else if logEndMarkerPrefix.isPrefixOf strippedMessage then
      (markedIndex (strippedMessage.drop logEndMarkerPrefix.length)).map .endMarker
    else if isWorkerInternalLogMessage strippedMessage then some .internal
    else some (.message (String.ofList message) timestamp)

/-! ### Chunks -/

/-- A writer, and the output that waits for the rest of its line. -/
structure ContainerCapture where
  writer : JobLogWriter
  partialContainerOutput : List Char

namespace ContainerCapture

def new : ContainerCapture := { writer := .new, partialContainerOutput := [] }

/-- What has been captured: the documents that were queued, and whether an exception was raised. -/
structure Result where
  capture : ContainerCapture
  documents : List LogDocument
  raised : Bool

/-- The lines of a chunk, up to one that cannot be read. -/
def captureLines (now : ℚ) : JobLogWriter → List (List Char) →
    JobLogWriter × List LogDocument × Bool
  | w, [] => (w, [], false)
  | w, line :: lines =>
    match readContainerLogLine line with
    | none => (w, [], true)
    | some line =>
      let p := w.capture now line
      let q := captureLines now p.1 lines
      (q.1, p.2 ++ q.2.1, q.2.2)

/-- The complete lines of an output, and what comes after them. -/
def completeLines (output : List Char) : List (List Char) × List Char :=
  let outputLines := splitLines output
  match outputLines.getLast? with
  | none => ([], [])
  | some last =>
    if last.getLast? = some '\n' ∨ last.getLast? = some '\r' then (outputLines, [])
    else (outputLines.dropLast, last)

variable (c : ContainerCapture) (now : ℚ)

/-- `capture_container_output` -/
def captureContainerOutput (chunk : List Char) : Result :=
  let lines := completeLines (c.partialContainerOutput ++ chunk)
  let q := captureLines now c.writer lines.1
  { capture := { writer := q.1, partialContainerOutput := lines.2 }
    documents := q.2.1
    raised := q.2.2 }

/-- What is done with a writer while output comes in. -/
inductive Event
  | output (chunk : List Char)
  /-- A round of the flush loop. -/
  | flush
  /-- `finish_input`, once it has waited. -/
  | finishInput (inputIndex : ℕ)

def step : Event → Result
  | .output chunk => c.captureContainerOutput now chunk
  | .flush =>
    let p := c.writer.queueAllBuffers now
    { capture := { c with writer := p.1 }, documents := p.2, raised := false }
  | .finishInput inputIndex =>
    let p := c.writer.queueDocument now inputIndex false
    { capture := { c with writer := p.1 }, documents := p.2, raised := false }

/-- Events at their times, one after the other. -/
def run : ContainerCapture → List (ℚ × Event) → Result
  | c, [] => { capture := c, documents := [], raised := false }
  | c, (now, e) :: events =>
    let p := c.step now e
    let q := run p.capture events
    { capture := q.capture, documents := p.documents ++ q.documents, raised := p.raised || q.raised }

/-- The output that an event brings. -/
def Event.chunk : Event → List Char
  | output chunk => chunk
  | flush | finishInput _ => []

/-- The lines of an input: those in documents, and those in the buffer. -/
def Result.lines (r : Result) (k : ℕ) : List LogLine :=
  linesOf (r.capture.writer, r.documents) k

end ContainerCapture

/-! ### Separators -/

section Separators

variable {a cs begun : List Char} {c : Char}

/-- Newlines are the only separators. -/
def Clean (cs : List Char) : Prop := ∀ c ∈ cs, isLineBoundary c = true → c = '\n'

/-- There is no separator. -/
def Unbroken (cs : List Char) : Prop := ∀ c ∈ cs, isLineBoundary c = false

lemma splitLines_newline : splitLines ('\n' :: cs) = ['\n'] :: splitLines cs := by
  rw [splitLines]
  · rfl
  · exact nofun

lemma splitLines_cons (hc : isLineBoundary c = false) :
    splitLines (c :: cs) =
      match splitLines cs with
      | [] => [[c]]
      | line :: lines => (c :: line) :: lines := by
  rw [splitLines]
  · rw [hc, if_neg Bool.false_ne_true]
  · rintro - rfl
    cases hc

lemma splitLines_unbroken (h : Unbroken a) : splitLines a = if a = [] then [] else [a] := by
  induction a with
  | nil => rfl
  | cons c a ih =>
    obtain ⟨hc, ha⟩ := List.forall_mem_cons.1 h
    rw [splitLines_cons hc, ih ha]
    cases a <;> rfl

/-- A line is split off at its newline. -/
lemma splitLines_append_newline (h : Unbroken a) :
    splitLines (a ++ '\n' :: cs) = (a ++ ['\n']) :: splitLines cs := by
  induction a with
  | nil => exact splitLines_newline
  | cons c a ih =>
    obtain ⟨hc, ha⟩ := List.forall_mem_cons.1 h
    rw [List.cons_append, splitLines_cons hc, ih ha]
    rfl

/-- The frames of the output are its lines. -/
def isNewline (c : Char) : Bool := c = '\n'

/-- **Without other separators a text is split into its lines, and what is left.** -/
lemma splitLines_clean (hbegun : Unbroken begun) (h : Clean cs) :
    splitLines (begun ++ cs) =
      let p := Framing.cut isNewline begun cs
      p.1 ++ if p.2 = [] then [] else [p.2] := by
  induction cs generalizing begun with
  | nil =>
    rw [List.append_nil]
    exact splitLines_unbroken hbegun
  | cons c cs ih =>
    obtain ⟨hc, hcs⟩ := List.forall_mem_cons.1 h
    by_cases hnewline : c = '\n'
    · subst hnewline
      have hnil : Unbroken [] := fun _ h => absurd h List.not_mem_nil
      rw [splitLines_append_newline hbegun, Framing.cut_cons_end (c := '\n') rfl]
      exact congrArg _ (ih hnil hcs)
    · have hboundary : isLineBoundary c = false :=
        Bool.eq_false_iff.2 fun htrue => hnewline (hc htrue)
      have hbegun' : Unbroken (begun ++ [c]) :=
        List.forall_mem_append.2 ⟨hbegun, List.forall_mem_singleton.2 hboundary⟩
      have hfree : isNewline c = false := decide_eq_false hnewline
      rw [Framing.cut_cons_free hfree, ← ih hbegun' hcs, List.append_assoc]
      rfl

/-- What is begun has no separator. -/
lemma unbroken_cut (hbegun : Unbroken begun) (h : Clean cs) :
    Unbroken (Framing.cut isNewline begun cs).2 := by
  have hfree : Framing.Free isNewline begun := by
    intro c hc
    refine decide_eq_false fun hnewline => ?_
    have hboundary := hbegun c hc
    rw [hnewline] at hboundary
    cases hboundary
  intro c hc
  by_contra hboundary
  rw [Bool.not_eq_false] at hboundary
  have hnewline : c = '\n' := by
    rcases List.mem_append.1 (Framing.mem_of_mem_cut hc) with hmem | hmem
    · exact absurd hboundary (by rw [hbegun c hmem]; exact Bool.false_ne_true)
    · exact h c hmem hboundary
  exact absurd (Framing.free_cut hfree c hc) (by rw [hnewline]; decide)

/-- **The complete lines of an output are its frames.** -/
lemma completeLines_clean (hbegun : Unbroken begun) (h : Clean cs) :
    ContainerCapture.completeLines (begun ++ cs) = Framing.cut isNewline begun cs := by
  have hends : ∀ line ∈ (Framing.cut isNewline begun cs).1, line.getLast? = some '\n' := by
    intro line hline
    obtain ⟨e, hlast, he⟩ := Framing.getLast?_of_mem_cut hline
    rw [hlast, of_decide_eq_true he]
  have hrest := unbroken_cut hbegun h
  rw [ContainerCapture.completeLines, splitLines_clean hbegun h]
  generalize Framing.cut isNewline begun cs = p at hends hrest ⊢
  obtain ⟨lines, rest⟩ := p
  by_cases hnil : rest = []
  · subst hnil
    simp only [if_true, List.append_nil]
    rcases List.eq_nil_or_concat lines with rfl | ⟨lines, line, rfl⟩
    · rfl
    · simp only [List.concat_eq_append] at hends ⊢
      rw [List.getLast?_concat]
      simp only
      rw [if_pos (.inl (hends line (by simp)))]
  · have hlast : ¬(rest.getLast? = some '\n' ∨ rest.getLast? = some '\r') := by
      rintro (h | h)
      · exact absurd (hrest _ (List.mem_of_getLast? h)) (by decide)
      · exact absurd (hrest _ (List.mem_of_getLast? h)) (by decide)
    simp only [if_neg hnil, List.getLast?_concat, if_neg hlast, List.dropLast_concat]

end Separators

/-! ### What is recorded -/

section Recorded

open JobLogWriter

/-- The input that is open after a line. -/
def nextActive (active : Option ℕ) : ContainerLogLine → Option ℕ
  | .startMarker inputIndex => some inputIndex
  | .endMarker _ => none
  | .internal | .message _ _ => active

/-- What a line is recorded as for an input. -/
def recordedLine (k : ℕ) (active : Option ℕ) : ContainerLogLine → List LogLine
  | .message message timestamp => if active = some k then kept message timestamp else []
  | .startMarker _ | .endMarker _ | .internal => []

/-- What lines that are read one after the other are recorded as. -/
def recordedLines (k : ℕ) : Option ℕ → List ContainerLogLine → List LogLine
  | _, [] => []
  | active, line :: lines =>
    recordedLine k active line ++ recordedLines k (nextActive active line) lines

lemma recordedLines_append (k : ℕ) (active : Option ℕ) (lines lines' : List ContainerLogLine) :
    recordedLines k active (lines ++ lines') =
      recordedLines k active lines ++ recordedLines k (lines.foldl nextActive active) lines' := by
  induction lines generalizing active with
  | nil => rfl
  | cons line lines ih =>
    rw [List.cons_append, recordedLines, ih, recordedLines, List.append_assoc]
    rfl

variable {w : JobLogWriter}

/-- What a line adds. -/
lemma capture_spec (h : w.Sized) (now : ℚ) (line : ContainerLogLine) :
    w.Records (w.capture now line) (fun k => recordedLine k w.activeInputIndex line) ∧
      (w.capture now line).1.Sized ∧
      (w.capture now line).1.activeInputIndex = nextActive w.activeInputIndex line := by
  cases line with
  | startMarker k => exact ⟨fun l => (List.append_nil _).symm, h, rfl⟩
  | endMarker k => exact ⟨records_queueDocument, sized_queueDocument h, rfl⟩
  | internal => exact ⟨.refl, h, rfl⟩
  | message message timestamp =>
    cases hactive : w.activeInputIndex with
    | none =>
      simp only [capture, hactive]
      exact ⟨.refl, h, rfl⟩
    | some k =>
      obtain ⟨hrecords, hsized, -⟩ := write_spec h now k message timestamp
      simp only [capture, hactive]
      refine ⟨fun l => (hrecords l).trans ?_, hsized, activeInputIndex_write.trans hactive⟩
      by_cases hl : l = k
      · simp [recordedLine, hl]
      · simp [recordedLine, hl, Ne.symm hl]

/-- Lines that can all be read. -/
lemma captureLines_spec (h : w.Sized) (now : ℚ) {texts : List (List Char)}
    {lines : List ContainerLogLine} (hread : texts.map readContainerLogLine = lines.map some) :
    w.Records ((ContainerCapture.captureLines now w texts).1,
        (ContainerCapture.captureLines now w texts).2.1)
        (fun k => recordedLines k w.activeInputIndex lines) ∧
      (ContainerCapture.captureLines now w texts).1.Sized ∧
      (ContainerCapture.captureLines now w texts).1.activeInputIndex =
        lines.foldl nextActive w.activeInputIndex ∧
      (ContainerCapture.captureLines now w texts).2.2 = false := by
  induction texts generalizing w lines with
  | nil =>
    obtain rfl : lines = [] := by simpa using hread.symm
    exact ⟨.refl, h, rfl, rfl⟩
  | cons text texts ih =>
    cases lines with
    | nil => cases hread
    | cons line lines =>
      obtain ⟨hline, hread⟩ := List.cons.inj hread
      obtain ⟨hrecords, hsized, hactive⟩ := capture_spec h now line
      obtain ⟨hrecords', hsized', hactive', hraised⟩ := ih hsized hread
      simp only [ContainerCapture.captureLines, hline]
      rw [hactive] at hrecords' hactive'
      exact ⟨hrecords.trans hrecords', hsized', hactive', hraised⟩

end Recorded

/-! ### Runs -/

namespace ContainerCapture

open JobLogWriter

variable {c : ContainerCapture}

/-- **However the output is chunked, and whenever the writer is flushed, the lines of the whole
output are recorded.** -/
lemma run_spec (events : List (ℚ × Event)) (lines : List ContainerLogLine) (h : c.writer.Sized)
    (hbegun : Unbroken c.partialContainerOutput)
    (hclean : Clean (events.flatMap fun e => e.2.chunk))
    (hread : (Framing.cut isNewline c.partialContainerOutput
      (events.flatMap fun e => e.2.chunk)).1.map readContainerLogLine = lines.map some) :
    c.writer.Records ((c.run events).capture.writer, (c.run events).documents)
        (fun k => recordedLines k c.writer.activeInputIndex lines) ∧
      (c.run events).raised = false := by
  induction events generalizing c lines with
  | nil =>
    obtain rfl : lines = [] := by simpa [Framing.cut] using hread.symm
    exact ⟨.refl, rfl⟩
  | cons e events ih =>
    obtain ⟨now, e⟩ := e
    rw [List.flatMap_cons] at hclean hread
    cases e with
    | output chunk =>
      -- The lines that the chunk completes come first.
      obtain ⟨hchunk, hclean⟩ := List.forall_mem_append.1 hclean
      rw [Framing.cut_append, List.map_append] at hread
      obtain ⟨lines, lines', rfl, hlines, hlines'⟩ := List.append_eq_map_iff.1 hread
      obtain ⟨hrecords, hsized, hactive, hraised⟩ := captureLines_spec h now hlines.symm
      obtain ⟨hrecords', hraised'⟩ :=
        ih _ (c := { writer := (captureLines now c.writer _).1, partialContainerOutput := _ }) hsized
          (unbroken_cut hbegun hchunk) hclean hlines'.symm
      have hcomplete : completeLines (c.partialContainerOutput ++ chunk) =
          Framing.cut isNewline c.partialContainerOutput chunk := completeLines_clean hbegun hchunk
      rw [run, step, captureContainerOutput, hcomplete]
      refine ⟨?_, Bool.or_eq_false_iff.2 ⟨hraised, hraised'⟩⟩
      simp only [recordedLines_append, ← hactive]
      exact hrecords.trans hrecords'
    | flush =>
      obtain ⟨hrecords, hsized, -⟩ := queueAllBuffers_spec h now
      obtain ⟨hrecords', hraised'⟩ :=
        ih _ (c := { c with writer := (c.writer.queueAllBuffers now).1 }) hsized hbegun hclean hread
      refine ⟨?_, hraised'⟩
      rw [activeInputIndex_queueAllBuffers] at hrecords'
      exact hrecords.trans hrecords'
    | finishInput k =>
      obtain ⟨hrecords', hraised'⟩ :=
        ih _ (c := { c with writer := (c.writer.queueDocument now k false).1 })
          (sized_queueDocument h) hbegun hclean hread
      refine ⟨?_, hraised'⟩
      rw [activeInputIndex_queueDocument] at hrecords'
      exact records_queueDocument.trans hrecords'

end ContainerCapture

/-! ### The output of calls -/

/-- A timestamp as the container engine writes it. -/
structure DockerStamp where
  text : List Char
  time : ℚ
  oneWord : ∀ c ∈ text, c ≠ ' ' ∧ isLineBoundary c = false
  reads : timestampOf text = some time

/-- A line that a function prints, without its newline. -/
structure PrintedLine where
  stamp : DockerStamp
  text : List Char

/-- A call on a worker: the worker prints a marker before it and one after it. -/
structure WorkerCall where
  inputIndex : ℕ
  start : DockerStamp
  lines : List PrintedLine
  stop : DockerStamp

/-- A line of the container's output. -/
def PrintedLine.output (l : PrintedLine) : List Char := l.stamp.text ++ ' ' :: (l.text ++ ['\n'])

namespace PrintedLine

variable (l : PrintedLine)

/-- There is no separator in the line, and it does not look like a marker. -/
def plain : Bool :=
  l.text.all (fun c => !isLineBoundary c) && !logStartMarkerPrefix.isPrefixOf (strip l.text) &&
    !logEndMarkerPrefix.isPrefixOf (strip l.text)

/-- What the line is recorded as: nothing if it is blank, or looks like the worker's own. -/
def kept : List LogLine :=
  if isWorkerInternalLogMessage (strip l.text) then []
  else JobLogWriter.kept (String.ofList (l.text ++ ['\n'])) l.stamp.time

/-- What the line is when it is read. -/
def read : ContainerLogLine :=
  if isWorkerInternalLogMessage (strip l.text) then .internal
  else .message (String.ofList (l.text ++ ['\n'])) l.stamp.time

end PrintedLine

namespace WorkerCall

variable (c : WorkerCall)

/-- The markers of the call. -/
def startLine : PrintedLine :=
  { stamp := c.start, text := logStartMarkerPrefix ++ Files.decimal c.inputIndex }

def endLine : PrintedLine :=
  { stamp := c.stop, text := logEndMarkerPrefix ++ Files.decimal c.inputIndex }

def printed : List PrintedLine := c.startLine :: (c.lines ++ [c.endLine])

/-- The output of a call. -/
def output : List Char := (c.printed.map PrintedLine.output).flatten

def read : List ContainerLogLine :=
  .startMarker c.inputIndex :: (c.lines.map PrintedLine.read ++ [.endMarker c.inputIndex])

end WorkerCall

/-- The lines that are recorded for an input. -/
def keptOf (calls : List WorkerCall) (k : ℕ) : List LogLine :=
  (calls.filter fun c => c.inputIndex = k).flatMap fun c => c.lines.flatMap PrintedLine.kept

section Output

variable {text : List Char} {l : PrintedLine} {c : WorkerCall}

lemma strip_newline : strip (text ++ ['\n']) = strip text := by
  rw [strip, strip, List.dropWhile_append]
  split
  · rename_i hnil
    rw [List.isEmpty_iff.1 hnil]
    rfl
  · exact List.rdropWhile_concat_pos _ _ _ rfl

/-- The time of a line is read, and the rest is its message. -/
lemma readContainerLogLine_output :
    readContainerLogLine l.output =
      if logStartMarkerPrefix.isPrefixOf (strip l.text) then
        (markedIndex ((strip l.text).drop logStartMarkerPrefix.length)).map .startMarker
      else if logEndMarkerPrefix.isPrefixOf (strip l.text) then
        (markedIndex ((strip l.text).drop logEndMarkerPrefix.length)).map .endMarker
      else some l.read := by
  have hword : ∀ c ∈ l.stamp.text, decide (c ≠ ' ') = true := fun c hc =>
    decide_eq_true (l.stamp.oneWord c hc).1
  have htake : l.output.takeWhile (· ≠ ' ') = l.stamp.text := by
    rw [PrintedLine.output, List.takeWhile_append_of_pos hword, List.takeWhile_cons_of_neg (by simp),
      List.append_nil]
  have hdrop : (l.output.dropWhile (· ≠ ' ')).drop 1 = l.text ++ ['\n'] := by
    rw [PrintedLine.output, List.dropWhile_append_of_pos hword, List.dropWhile_cons_of_neg (by simp)]
    rfl
  simp only [readContainerLogLine, htake, hdrop, l.stamp.reads, Option.bind_some, strip_newline,
    PrintedLine.read]
  split_ifs <;> rfl

lemma read_plain (h : l.plain = true) : readContainerLogLine l.output = some l.read := by
  simp only [PrintedLine.plain, Bool.and_eq_true, Bool.not_eq_true'] at h
  rw [readContainerLogLine_output, h.1.2, h.2]
  rfl

lemma strip_of_forall (h : ∀ c ∈ text, isSpace c = false) : strip text = text := by
  cases text with
  | nil => rfl
  | cons c text =>
    have hleft : (c :: text).dropWhile isSpace = c :: text := by
      rw [List.dropWhile_cons, if_neg (by simp [h c List.mem_cons_self])]
    rw [strip, hleft, List.rdropWhile_eq_self_iff]
    intro hne
    rw [h _ (List.getLast_mem hne)]
    exact Bool.false_ne_true

/-- Digits are neither blanks nor separators. -/
lemma decimal_plain {n : ℕ} {c : Char} (h : c ∈ Files.decimal n) :
    isSpace c = false ∧ isLineBoundary c = false := by
  have hc := Files.isDigit_iff.1 (Files.isDigit_of_mem_decimal h)
  constructor
  · rw [isSpace, decide_eq_false_iff_not]
    omega
  · rw [isLineBoundary, decide_eq_false_iff_not]
    omega

/-- A marker's text has neither blanks nor separators. -/
lemma marker_plain {pre : List Char} {n : ℕ}
    (h : ∀ c ∈ pre, isSpace c = false ∧ isLineBoundary c = false) {c : Char}
    (hc : c ∈ pre ++ Files.decimal n) : isSpace c = false ∧ isLineBoundary c = false :=
  (List.mem_append.1 hc).elim (h c) decimal_plain

lemma plain_of_all {text : List Char}
    (h : (text.all fun c => !isSpace c && !isLineBoundary c) = true) :
    ∀ c ∈ text, isSpace c = false ∧ isLineBoundary c = false := by
  intro c hc
  simpa using List.all_eq_true.1 h c hc

lemma startMarkerPrefix_plain :
    ∀ c ∈ logStartMarkerPrefix, isSpace c = false ∧ isLineBoundary c = false :=
  plain_of_all (by decide)

lemma endMarkerPrefix_plain :
    ∀ c ∈ logEndMarkerPrefix, isSpace c = false ∧ isLineBoundary c = false :=
  plain_of_all (by decide)

lemma markedIndex_decimal (n : ℕ) : markedIndex (Files.decimal n) = some n := by
  rw [markedIndex, strip_of_forall fun c hc => (decimal_plain hc).1, Files.int_decimal,
    Option.bind_some, if_pos (Int.natCast_nonneg n), Int.toNat_natCast]

/-- **The markers are read as such.** -/
lemma read_startLine :
    readContainerLogLine c.startLine.output = some (.startMarker c.inputIndex) := by
  have hstrip : strip c.startLine.text = logStartMarkerPrefix ++ Files.decimal c.inputIndex :=
    strip_of_forall fun _ hc => (marker_plain startMarkerPrefix_plain hc).1
  rw [readContainerLogLine_output, hstrip,
    if_pos (List.isPrefixOf_iff_prefix.2 (List.prefix_append _ _)), List.drop_left,
    markedIndex_decimal]
  rfl

lemma read_endLine : readContainerLogLine c.endLine.output = some (.endMarker c.inputIndex) := by
  have hstrip : strip c.endLine.text = logEndMarkerPrefix ++ Files.decimal c.inputIndex :=
    strip_of_forall fun _ hc => (marker_plain endMarkerPrefix_plain hc).1
  have hstart : logStartMarkerPrefix.isPrefixOf
      (logEndMarkerPrefix ++ Files.decimal c.inputIndex) = false := rfl
  rw [readContainerLogLine_output, hstrip, hstart, if_neg Bool.false_ne_true,
    if_pos (List.isPrefixOf_iff_prefix.2 (List.prefix_append _ _)), List.drop_left,
    markedIndex_decimal]
  rfl

/-- The lines of a call are read one after the other. -/
lemma read_printed (h : ∀ l ∈ c.lines, l.plain = true) :
    (c.printed.map PrintedLine.output).map readContainerLogLine = c.read.map some := by
  have hlines : (c.lines.map PrintedLine.output).map readContainerLogLine =
      (c.lines.map PrintedLine.read).map some := by
    rw [List.map_map, List.map_map]
    exact List.map_congr_left fun l hl => read_plain (h l hl)
  simp only [WorkerCall.printed, WorkerCall.read, List.map_cons, List.map_append, hlines,
    read_startLine, read_endLine, List.map_nil]

/-- A line of the output is a frame. -/
lemma isFrame_output (h : Unbroken l.text) :
    Framing.IsFrame isNewline l.output ∧ Clean l.output := by
  have hfree : Unbroken (l.stamp.text ++ ' ' :: l.text) := by
    refine List.forall_mem_append.2 ⟨fun c hc => (l.stamp.oneWord c hc).2, ?_⟩
    exact List.forall_mem_cons.2 ⟨by decide, h⟩
  have houtput : l.output = (l.stamp.text ++ ' ' :: l.text) ++ ['\n'] := by
    rw [PrintedLine.output, List.append_assoc, List.cons_append]
  refine ⟨⟨_, '\n', houtput, fun c hc => decide_eq_false ?_, rfl⟩, ?_⟩
  · rintro rfl
    exact absurd (hfree _ hc) (by decide)
  · rw [houtput]
    intro c hc hboundary
    rcases List.mem_append.1 hc with hc | hc
    · exact absurd hboundary (by rw [hfree c hc]; exact Bool.false_ne_true)
    · exact List.mem_singleton.1 hc

lemma unbroken_printed (h : ∀ l ∈ c.lines, l.plain = true) : ∀ l ∈ c.printed, Unbroken l.text := by
  refine List.forall_mem_cons.2 ⟨fun _ hc => (marker_plain startMarkerPrefix_plain hc).2, ?_⟩
  refine List.forall_mem_append.2 ⟨fun l hl => ?_, List.forall_mem_singleton.2 ?_⟩
  · have hplain := h l hl
    simp only [PrintedLine.plain, Bool.and_eq_true] at hplain
    intro c hc
    simpa using List.all_eq_true.1 hplain.1.1 c hc
  · exact fun _ hc => (marker_plain endMarkerPrefix_plain hc).2

/-- The lines of a call are recorded for its input, and none is open after it. -/
lemma recordedLines_read (k : ℕ) (active : Option ℕ) :
    recordedLines k active c.read =
        (if c.inputIndex = k then c.lines.flatMap PrintedLine.kept else []) ∧
      c.read.foldl nextActive active = none := by
  have hlines : ∀ lines : List PrintedLine,
      recordedLines k (some c.inputIndex) (lines.map PrintedLine.read) =
          (if c.inputIndex = k then lines.flatMap PrintedLine.kept else []) ∧
        (lines.map PrintedLine.read).foldl nextActive (some c.inputIndex) = some c.inputIndex := by
    intro lines
    induction lines with
    | nil => exact ⟨(ite_self _).symm, rfl⟩
    | cons l lines ih =>
      have hactive : nextActive (some c.inputIndex) l.read = some c.inputIndex := by
        rw [PrintedLine.read]
        split <;> rfl
      rw [List.map_cons, recordedLines, List.foldl_cons, hactive, ih.1, PrintedLine.read]
      refine ⟨?_, ih.2⟩
      by_cases hk : c.inputIndex = k
      · rw [if_pos hk, if_pos hk, List.flatMap_cons, PrintedLine.kept]
        split <;> simp [recordedLine, hk]
      · rw [if_neg hk, if_neg hk]
        split <;> simp [recordedLine, hk]
  obtain ⟨hrecorded, hactive⟩ := hlines c.lines
  rw [WorkerCall.read, recordedLines, nextActive, recordedLines_append, hrecorded, hactive]
  refine ⟨?_, ?_⟩
  · simp [recordedLines, recordedLine]
  · rw [List.foldl_cons, List.foldl_append, nextActive, hactive]
    rfl

end Output

section Calls

variable {calls : List WorkerCall}

lemma recordedLines_calls (k : ℕ) :
    recordedLines k none (calls.flatMap WorkerCall.read) = keptOf calls k := by
  induction calls with
  | nil => rfl
  | cons c calls ih =>
    obtain ⟨hrecorded, hactive⟩ := recordedLines_read (c := c) k none
    rw [List.flatMap_cons, recordedLines_append, hrecorded, hactive, ih, keptOf, keptOf]
    by_cases hk : c.inputIndex = k
    · simp [hk]
    · simp [hk]

end Calls

/-- A time of the container engine's. -/
def someStamp : DockerStamp where
  text := "2024-01-01T00:00:00.000000001Z".toList
  time := 1704067200
  oneWord c hc := by
    obtain ⟨hspace, hboundary⟩ := plain_of_all (by decide) c hc
    refine ⟨?_, hboundary⟩
    rintro rfl
    exact absurd hspace (by decide)
  reads := by decide +kernel

/-- A call that prints these lines. -/
def callPrinting (inputIndex : ℕ) (texts : List String) : WorkerCall where
  inputIndex := inputIndex
  start := someStamp
  lines := texts.map fun text => { stamp := someStamp, text := text.toList }
  stop := someStamp

section Separated

variable {c : ContainerCapture} {now : ℚ} {a b : List Char} {s : Char}

/-- Lines that cannot be read raise, and no others. -/
lemma raised_captureLines {w : JobLogWriter} {lines : List (List Char)} :
    (ContainerCapture.captureLines now w lines).2.2 = true ↔
      ∃ line ∈ lines, readContainerLogLine line = none := by
  induction lines generalizing w with
  | nil => simp [ContainerCapture.captureLines]
  | cons line lines ih =>
    rw [ContainerCapture.captureLines, List.exists_mem_cons_iff]
    cases hread : readContainerLogLine line with
    | none => simp
    | some _ => simpa using ih

/-- What follows a separator is split by itself. -/
lemma splitLines_append_separator (hs : isLineBoundary s = true)
    (hcr : s = '\r' → b.head? ≠ some '\n') :
    ∃ line lines, splitLines (a ++ s :: b) = line :: lines ++ splitLines b := by
  induction a using splitLines.induct with
  | case1 =>
    refine ⟨[s], [], ?_⟩
    rw [List.nil_append, splitLines, if_pos hs]
    · rfl
    · rintro cs rfl rfl
      exact hcr rfl rfl
  | case2 a ih =>
    obtain ⟨line, lines, h⟩ := ih
    refine ⟨['\r', '\n'], line :: lines, ?_⟩
    rw [List.cons_append, List.cons_append, splitLines, h]
    rfl
  | case3 d a hnot hd ih =>
    obtain ⟨line, lines, h⟩ := ih
    by_cases hpair : d = '\r' ∧ a = [] ∧ s = '\n'
    · obtain ⟨rfl, rfl, rfl⟩ := hpair
      exact ⟨['\r', '\n'], [], by rw [List.cons_append, List.nil_append, splitLines]; rfl⟩
    · refine ⟨[d], line :: lines, ?_⟩
      rw [List.cons_append, splitLines, if_pos hd, h]
      · rfl
      · rintro cs rfl hcs
        cases a with
        | nil => exact hpair ⟨rfl, rfl, (List.cons.inj hcs).1⟩
        | cons e a => exact hnot a rfl (by rw [(List.cons.inj hcs).1])
  | case4 d a hnot hd hnil ih =>
    obtain ⟨line, lines, h⟩ := ih
    exact ⟨d :: line, lines, by rw [List.cons_append, splitLines_cons (by simpa using hd), h]; rfl⟩
  | case5 d a hnot hd line' lines' heq ih =>
    obtain ⟨line, lines, h⟩ := ih
    exact ⟨d :: line, lines, by rw [List.cons_append, splitLines_cons (by simpa using hd), h]; rfl⟩

/-- **A chunk in which a separator comes before something that has no timestamp raises.** -/
theorem raised_after_separator (hs : isLineBoundary s = true)
    (hcr : s = '\r' → (b ++ ['\n']).head? ≠ some '\n') (hb : Unbroken b)
    (hread : readContainerLogLine (b ++ ['\n']) = none) :
    (c.captureContainerOutput now (a ++ s :: (b ++ ['\n']))).raised = true := by
  obtain ⟨line, lines, h⟩ :=
    splitLines_append_separator (a := c.partialContainerOutput ++ a) hs hcr
  rw [splitLines_append_newline hb, splitLines, List.append_assoc] at h
  have hcomplete : ContainerCapture.completeLines
      (c.partialContainerOutput ++ (a ++ s :: (b ++ ['\n']))) =
        (line :: lines ++ [b ++ ['\n']], []) := by
    rw [ContainerCapture.completeLines, h]
    simp only [List.getLast?_concat, true_or, if_true]
  rw [ContainerCapture.captureContainerOutput, hcomplete]
  exact raised_captureLines.2 ⟨_, List.mem_append_right _ (List.mem_singleton_self _), hread⟩

end Separated

/-- What is said of the output of calls: capturing it does not raise, and each line is recorded. -/
def CapturesAll (calls : List WorkerCall) (events : List (ℚ × ContainerCapture.Event)) : Prop :=
  (ContainerCapture.new.run events).raised = false ∧
    ∀ k, (ContainerCapture.new.run events).lines k =
      (calls.filter fun c => c.inputIndex = k).flatMap fun c => c.lines.map fun l =>
        { timestamp := l.stamp.time, message := truncateMessage (String.ofList (l.text ++ ['\n'])) }

end Burla.Results
