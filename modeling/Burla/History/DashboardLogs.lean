/-
The log of an input on the dashboard (`job_logs_for_input` in history.py; `stream_or_fetch_job_logs`
in endpoints/jobs.py).

An answer has the newest lines before a timestamp, and one goes on with the oldest timestamp in it.

The main result is `Burla.History.dashboardLogs_iff`: every line is read, once, if and only if no
answer ends between two lines of one timestamp.
-/
import Burla.History.CallLogs
import Burla.Lib.Cutoffs

namespace Burla.History

/-- A line as the dashboard has it. -/
structure InputLog where
  message : String
  logTimestamp : ℚ
  isError : Bool
  deriving DecidableEq

namespace LogDocument

variable (d : LogDocument)

def inputLog (log : LogEntry) : Option InputLog :=
  log.timestamp.map fun timestamp =>
    { message := log.message
      logTimestamp := timestamp
      isError :=
        if isTeardownInfrastructureLog log.message then false
        else log.isError || d.isError.any (· ≠ 0) }

end LogDocument

/-- `job_logs_for_input`, of the rows of the input. -/
def jobLogsForInput (rows : List LogDocument) : List InputLog :=
  rows.flatMap fun d => d.logs.filterMap d.inputLog

structure DashboardLogs where
  logs : List InputLog
  inputIndex : ℤ
  logDocumentTimestamp : Option ℚ
  truncated : Bool
  hasMoreOlder : Bool
  failedInputsCount : ℕ

def maxLogsPerResponse : ℕ := 500

lemma maxLogsPerResponse_pos : 0 < maxLogsPerResponse := by decide

/-- `stream_or_fetch_job_logs`; an `oldest_timestamp` that is empty is none. -/
def streamOrFetchJobLogs (failedInputsCount : ℕ) (rows : List LogDocument) (index : ℤ)
    (oldestTimestamp : Option ℚ) : DashboardLogs :=
  let matchingLogs := jobLogsForInput rows
  let matchingLogs :=
    match oldestTimestamp with
    | none => matchingLogs
    | some t => matchingLogs.filter fun log => log.logTimestamp < t
  let matchingLogs := matchingLogs.insertionSort fun a b => b.logTimestamp ≤ a.logTimestamp
  let hasMoreOlder : Bool := maxLogsPerResponse < matchingLogs.length
  let newestWindowDesc := matchingLogs.take maxLogsPerResponse
  { logs := newestWindowDesc.insertionSort fun a b => a.logTimestamp ≤ b.logTimestamp
    inputIndex := index
    logDocumentTimestamp := (newestWindowDesc.map InputLog.logTimestamp).min?
    truncated := hasMoreOlder
    hasMoreOlder := hasMoreOlder
    failedInputsCount := failedInputsCount }

/-- One asks with the `log_document_timestamp` of the last answer while there is more. -/
def askOlder (failedInputsCount : ℕ) (rows : List LogDocument) (index : ℤ) (_ : ℕ)
    (oldestTimestamp : Option ℚ) : Option (List (List InputLog) × Option ℚ) :=
  let answer := streamOrFetchJobLogs failedInputsCount rows index oldestTimestamp
  some ([answer.logs], if answer.hasMoreOlder then answer.logDocumentTimestamp else none)

variable {rows : List LogDocument} {failedInputsCount : ℕ} {index : ℤ}

/-- An answer is a window of what is older than the timestamp. -/
lemma streamOrFetchJobLogs_eq (oldestTimestamp : Option ℚ) :
    streamOrFetchJobLogs failedInputsCount rows index oldestTimestamp =
      let left := Cutoffs.older InputLog.logTimestamp (jobLogsForInput rows) oldestTimestamp
      let window := (Cutoffs.newestFirst InputLog.logTimestamp left).take maxLogsPerResponse
      ⟨window.insertionSort fun a b => a.logTimestamp ≤ b.logTimestamp, index,
        (window.map InputLog.logTimestamp).min?, maxLogsPerResponse < left.length,
        maxLogsPerResponse < left.length, failedInputsCount⟩ := by
  cases oldestTimestamp
  all_goals
    simp only [streamOrFetchJobLogs, Cutoffs.newestFirst, Cutoffs.older, List.length_insertionSort]
    rfl

lemma reads_askOlder : Cutoffs.Reads InputLog.logTimestamp maxLogsPerResponse (jobLogsForInput rows)
    (askOlder failedInputsCount rows index) where
  ask_eq _ c := by
    refine ⟨_, List.perm_insertionSort (fun a b => a.logTimestamp ≤ b.logTimestamp) _, ?_⟩
    rw [askOlder, streamOrFetchJobLogs_eq]
    simp only [decide_eq_true_eq]

/-- **Going on with the oldest timestamp reads every line, once, just when no answer ends between
two lines of one timestamp.** -/
theorem dashboardLogs_iff (failedInputsCount : ℕ) (index : ℤ) (rows : List LogDocument) :
    Cutoffs.ReadsAll InputLog.logTimestamp (jobLogsForInput rows)
        (askOlder failedInputsCount rows index) ↔
      Cutoffs.Parted InputLog.logTimestamp maxLogsPerResponse (jobLogsForInput rows) :=
  Cutoffs.readsAll_iff reads_askOlder maxLogsPerResponse_pos

/-- A document of 501 lines of one timestamp. -/
def burst : LogDocument := ⟨1, some 0, List.replicate 501 ⟨some 10, "a", false⟩⟩

lemma jobLogsForInput_burst :
    jobLogsForInput [burst] = List.replicate 501 ⟨"a", 10, false⟩ := by
  have hline : burst.inputLog ⟨some 10, "a", false⟩ = some ⟨"a", 10, false⟩ := by decide
  rw [jobLogsForInput, List.flatMap_singleton]
  exact List.filterMap_replicate_of_some hline

/-- The oldest of them is not older than the others. -/
theorem last_line_lost :
    ¬∀ (failedInputsCount : ℕ) (index : ℤ) (rows : List LogDocument),
      Cutoffs.ReadsAll InputLog.logTimestamp (jobLogsForInput rows)
        (askOlder failedInputsCount rows index) := by
  intro h
  obtain ⟨fuel, windows, hfollow, hperm, -⟩ := h 0 0 [burst]
  have hparted := reads_askOlder.parted_of_follow (c := none) maxLogsPerResponse_pos hfollow hperm
  have htimes : Cutoffs.times InputLog.logTimestamp (jobLogsForInput [burst]) =
      List.replicate 501 10 := by
    have hsame := List.pairwise_replicate (n := 501) (a := (⟨"a", 10, false⟩ : InputLog))
      (R := fun a b => b.logTimestamp ≤ a.logTimestamp)
    rw [jobLogsForInput_burst, Cutoffs.times_of_perm (.refl _) (hsame.2 (.inr le_rfl)),
      List.map_replicate]
  refine hparted 1 one_pos ?_ ?_
  · rw [Cutoffs.older, jobLogsForInput_burst, List.length_replicate]
    decide
  · rw [Cutoffs.older, htimes, List.getElem?_replicate, List.getElem?_replicate]
    decide

end Burla.History
