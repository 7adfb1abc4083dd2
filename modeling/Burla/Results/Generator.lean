/-
The results on their way to the caller (`_output_generator` in _remote_parallel_map.py).

A thread runs the job and puts its results on a queue; the caller's generator takes them off.  When
nothing has come for a while the generator looks whether the thread is still going on, and stops
waiting if it is not.  Between the two the thread may have put its last results on the queue and
have ended.

The main result is

* `Burla.Results.Generator.yields_all_iff`: a job that has put a result for each input on the queue
  makes the generator end as it should, and the generator has yielded all of them in exactly the
  runs in which nothing is on the queue when it stops waiting.
-/
import Burla.Lib.System

namespace Burla.Results.Generator

variable {β : Type*}

/-- What the generator raises. -/
inductive Failure
  /-- The exception that the job ended with. -/
  | job (exception : String)
  | jobCanceled (message : String)
  deriving DecidableEq, Repr

/-- How the generator ends. -/
inductive Outcome
  | normal
  /-- Without a word: a job in the background goes on, without the caller. -/
  | detached
  | raised (failure : Failure)
  deriving DecidableEq, Repr

/-- Where the generator is. -/
inductive Place
  /-- Before `n_results != len(inputs)`. -/
  | top
  /-- `get` has raised `Empty`. -/
  | timedOut
  /-- Before `job_thread.join()`. -/
  | joining
  /-- Before the checks after it. -/
  | joined
  | done (outcome : Outcome)
  deriving DecidableEq, Repr

/-- The job's thread and the generator, with the events that a signal or the job sets. -/
structure State (β : Type*) where
  nInputs : ℕ
  background : Bool
  returnQueue : List β
  /-- Nothing while the thread is alive; then the exception that it ended with, if any. -/
  threadEnd : Option (Option String)
  terminalCancel : Bool
  inputsDone : Bool
  place : Place
  nResults : ℕ
  /-- All that has been put on the queue. -/
  put : List β
  yielded : List β
  deriving DecidableEq

inductive Event (β : Type*)
  /-- The job puts a result on the queue. -/
  | put (output : β)
  /-- The job's thread ends, with an exception or without. -/
  | threadEnds (exception : Option String)
  /-- A signal to cancel. -/
  | cancel
  | inputsDone
  /-- The generator goes on. -/
  | next
  deriving DecidableEq

def canceledInBackground : String :=
  "\n\nBackground job canceled before all inputs finished uploading!" ++
    "\nPlease wait until the message \"Done uploading inputs!\" " ++
    "appears before canceling.\n\n-"

/-- What the generator comes to once the thread has been joined. -/
def outcome (s : State β) (exception : Option String) : Outcome :=
  match exception with
  | some e => .raised (.job e)
  | none =>
    if s.terminalCancel then
      if s.background && s.inputsDone then .detached
      else if s.background then .raised (.jobCanceled canceledInBackground)
      else .raised (.jobCanceled "Job canceled by user.")
    else .normal

/-- The generator's next step. -/
def next (s : State β) : Option (State β) :=
  match s.place with
  | .top =>
    if s.nResults = s.nInputs then some { s with place := .joining }
    else match s.returnQueue with
      | output :: rest =>
        some { s with returnQueue := rest, yielded := s.yielded ++ [output],
                      nResults := s.nResults + 1 }
      | [] => some { s with place := .timedOut }
  | .timedOut =>
    some { s with place := if s.threadEnd.isNone then .top else .joining }
  | .joining => if s.threadEnd.isNone then none else some { s with place := .joined }
  | .joined => s.threadEnd.map fun exception => { s with place := .done (outcome s exception) }
  | .done _ => none

def step (s : State β) : Event β → Option (State β)
  | .put output =>
    if s.threadEnd.isNone then
      some { s with returnQueue := s.returnQueue ++ [output], put := s.put ++ [output] }
    else none
  | .threadEnds exception =>
    if s.threadEnd.isNone then some { s with threadEnd := some exception } else none
  | .cancel => some { s with terminalCancel := true }
  | .inputsDone =>
    if s.threadEnd.isNone then some { s with inputsDone := true } else none
  | .next => next s

def start (nInputs : ℕ) (background : Bool) : State β where
  nInputs := nInputs
  background := background
  returnQueue := []
  threadEnd := none
  terminalCancel := false
  inputsDone := false
  place := .top
  nResults := 0
  put := []
  yielded := []

def sys : System (State β) (Event β) where
  init s := ∃ nInputs background, s = start nInputs background
  step := step

/-- The job has ended as it should: with a result for each input, and not canceled. -/
structure Complete (s : State β) : Prop where
  threadEnd : s.threadEnd = some none
  put : s.put.length = s.nInputs
  terminalCancel : s.terminalCancel = false

/-- When the generator stops waiting for a thread that has ended, the queue is empty. -/
def Drained (s : State β) : Event β → Prop
  | .next => s.place = .timedOut → s.threadEnd ≠ none → s.returnQueue = []
  | _ => True

/-! ### The loop -/

section Loop

variable {s t : State β} {e : Event β}

/-- The generator is past its loop. -/
def Place.PastLoop : Place → Prop
  | .top | .timedOut => False
  | _ => True

/-- What has been put is what was yielded and what is on the queue. -/
structure Accounts (s : State β) : Prop where
  put : s.yielded ++ s.returnQueue = s.put
  count : s.nResults = s.yielded.length

lemma next_cases (h : next s = some t) :
    (s.place = .top ∧ s.nResults = s.nInputs ∧ t = { s with place := .joining }) ∨
    (s.place = .top ∧ s.nResults ≠ s.nInputs ∧ ∃ output rest,
      s.returnQueue = output :: rest ∧
      t = { s with returnQueue := rest, yielded := s.yielded ++ [output],
                   nResults := s.nResults + 1 }) ∨
    (s.place = .top ∧ s.nResults ≠ s.nInputs ∧ s.returnQueue = [] ∧
      t = { s with place := .timedOut }) ∨
    (s.place = .timedOut ∧ s.threadEnd = none ∧ t = { s with place := .top }) ∨
    (s.place = .timedOut ∧ s.threadEnd ≠ none ∧ t = { s with place := .joining }) ∨
    (s.place.PastLoop ∧ ∃ place, place.PastLoop ∧ t = { s with place := place }) := by
  unfold next at h
  cases hplace : s.place with
  | top =>
    simp only [hplace] at h
    split_ifs at h with hn
    · exact .inl ⟨rfl, hn, (Option.some.inj h).symm⟩
    · cases hq : s.returnQueue with
      | nil =>
        simp only [hq] at h
        exact .inr (.inr (.inl ⟨rfl, hn, rfl, (Option.some.inj h).symm⟩))
      | cons output rest =>
        simp only [hq] at h
        exact .inr (.inl ⟨rfl, hn, output, rest, rfl, (Option.some.inj h).symm⟩)
  | timedOut =>
    simp only [hplace, Option.some.injEq] at h
    cases hend : s.threadEnd with
    | none => exact .inr (.inr (.inr (.inl ⟨rfl, rfl, by simp [← h, hend]⟩)))
    | some => exact .inr (.inr (.inr (.inr (.inl ⟨rfl, by simp, by simp [← h, hend]⟩))))
  | joining =>
    simp only [hplace] at h
    split_ifs at h
    exact .inr (.inr (.inr (.inr (.inr ⟨trivial, .joined, trivial, (Option.some.inj h).symm⟩))))
  | joined =>
    simp only [hplace, Option.map_eq_some_iff] at h
    obtain ⟨exception, -, rfl⟩ := h
    exact .inr (.inr (.inr (.inr (.inr ⟨trivial, .done (outcome s exception), trivial, rfl⟩))))
  | done o => simp [hplace] at h

lemma Accounts.step (hs : Accounts s) (hstep : sys.step s e = some t) : Accounts t := by
  obtain ⟨hput, hcount⟩ := hs
  cases e with
  | put output =>
    simp only [sys, Generator.step, Option.ite_none_right_eq_some, Option.some.injEq] at hstep
    obtain ⟨-, rfl⟩ := hstep
    exact ⟨by simp [← hput], hcount⟩
  | threadEnds exception =>
    simp only [sys, Generator.step, Option.ite_none_right_eq_some, Option.some.injEq] at hstep
    obtain ⟨-, rfl⟩ := hstep
    exact ⟨hput, hcount⟩
  | cancel =>
    obtain rfl := Option.some.inj hstep
    exact ⟨hput, hcount⟩
  | inputsDone =>
    simp only [sys, Generator.step, Option.ite_none_right_eq_some, Option.some.injEq] at hstep
    obtain ⟨-, rfl⟩ := hstep
    exact ⟨hput, hcount⟩
  | next =>
    obtain ⟨-, -, rfl⟩ | ⟨-, -, output, rest, hq, rfl⟩ | ⟨-, -, -, rfl⟩ | ⟨-, -, rfl⟩ |
      ⟨-, -, rfl⟩ | ⟨-, place, -, rfl⟩ := next_cases hstep
    · exact ⟨hput, hcount⟩
    · exact ⟨by simpa [hq] using hput, by simp [hcount]⟩
    all_goals exact ⟨hput, hcount⟩

/-- Past the loop, the generator has counted a result for each input or has seen the thread's end. -/
def Stopped (s : State β) : Prop :=
  s.place.PastLoop → s.nResults = s.nInputs ∨ s.threadEnd ≠ none ∧ s.returnQueue = []

/-- The generator has stopped waiting while results were on the queue. -/
structure Lost (s : State β) : Prop where
  pastLoop : s.place.PastLoop
  threadEnd : s.threadEnd ≠ none
  queue : s.returnQueue ≠ []

/-- A step that is drained leaves no result behind. -/
lemma Stopped.step (hs : Stopped s) (hok : Drained s e) (hstep : sys.step s e = some t) :
    Stopped t := by
  cases e with
  | put output =>
    simp only [sys, Generator.step, Option.ite_none_right_eq_some, Option.some.injEq] at hstep
    obtain ⟨halive, rfl⟩ := hstep
    intro hplace
    refine .inl ((hs hplace).resolve_right fun h => h.1 (by simpa using halive))
  | threadEnds exception =>
    simp only [sys, Generator.step, Option.ite_none_right_eq_some, Option.some.injEq] at hstep
    obtain ⟨halive, rfl⟩ := hstep
    intro hplace
    refine .inl ((hs hplace).resolve_right fun h => h.1 (by simpa using halive))
  | cancel =>
    obtain rfl := Option.some.inj hstep
    exact hs
  | inputsDone =>
    simp only [sys, Generator.step, Option.ite_none_right_eq_some, Option.some.injEq] at hstep
    obtain ⟨-, rfl⟩ := hstep
    exact hs
  | next =>
    obtain ⟨-, hn, rfl⟩ | ⟨hplace, -, _, _, -, rfl⟩ | ⟨-, -, -, rfl⟩ | ⟨-, -, rfl⟩ |
      ⟨hplace, hend, rfl⟩ | ⟨hpast, place, -, rfl⟩ := next_cases hstep
    · exact fun _ => .inl hn
    · intro h
      simp only [hplace] at h
      cases h
    · exact fun h => h.elim
    · exact fun h => h.elim
    · exact fun _ => .inr ⟨hend, hok hplace hend⟩
    · exact fun _ => hs hpast

/-- What is left behind stays where it is. -/
lemma Lost.step (hs : Lost s) (hstep : sys.step s e = some t) : Lost t := by
  obtain ⟨hpast, hend, hqueue⟩ := hs
  cases e with
  | put output =>
    simp only [sys, Generator.step, Option.ite_none_right_eq_some, Option.some.injEq] at hstep
    exact absurd (by simpa using hstep.1) hend
  | threadEnds exception =>
    simp only [sys, Generator.step, Option.ite_none_right_eq_some, Option.some.injEq] at hstep
    exact absurd (by simpa using hstep.1) hend
  | cancel =>
    obtain rfl := Option.some.inj hstep
    exact ⟨hpast, hend, hqueue⟩
  | inputsDone =>
    simp only [sys, Generator.step, Option.ite_none_right_eq_some, Option.some.injEq] at hstep
    exact absurd (by simpa using hstep.1) hend
  | next =>
    obtain ⟨hplace, -, -⟩ | ⟨hplace, -, -⟩ | ⟨hplace, -, -⟩ | ⟨hplace, -, -⟩ | ⟨hplace, -, -⟩ |
      ⟨-, place, hpast', rfl⟩ := next_cases hstep
    case inr.inr.inr.inr.inr => exact ⟨hpast', hend, hqueue⟩
    all_goals
      rw [hplace] at hpast
      exact hpast.elim

/-- A step that is not drained loses results. -/
lemma Lost.of_not_drained (hok : ¬Drained s e) (hstep : sys.step s e = some t) : Lost t := by
  cases e with
  | next =>
    simp only [Drained, Classical.not_imp] at hok
    obtain ⟨hplace, hend, hqueue⟩ := hok
    have ht : t = { s with place := .joining } := by
      have h : next s = some t := hstep
      simpa [next, hplace, hend] using h.symm
    subst ht
    exact ⟨trivial, hend, hqueue⟩
  | _ => exact absurd trivial hok

end Loop

/-! ### Runs -/

section Runs

variable {nInputs : ℕ} {background : Bool} {as : List (Event β)} {s t : State β}

lemma run_accounts (hrun : sys.Run System.always (start nInputs background) as s) : Accounts s :=
  System.Preserved.run (P := Accounts) (fun _ _ _ hs _ hstep => hs.step hstep) ⟨rfl, rfl⟩ hrun

lemma run_stopped (hrun : sys.Run Drained (start nInputs background) as s) : Stopped s :=
  System.Preserved.run (P := Stopped) (fun _ _ _ hs hok hstep => hs.step hok hstep)
    (show Stopped (start nInputs background : State β) from fun h => False.elim h) hrun

/-- A run is drained, or has lost results. -/
lemma run_drained_or_lost (hrun : sys.Run System.always (start nInputs background) as s) :
    sys.Run Drained (start nInputs background) as s ∨ Lost s := by
  induction hrun with
  | nil => exact .inl .nil
  | @snoc s t as e _ _ hstep ih =>
    rcases ih with hdrained | hlost
    · by_cases hok : Drained s e
      · exact .inl (hdrained.snoc hok hstep)
      · exact .inr (.of_not_drained hok hstep)
    · exact .inr (hlost.step hstep)

/-- A generator that is past its loop has yielded all the results of a complete job in exactly the
drained runs. -/
lemma yielded_eq_put_iff (hrun : sys.Run System.always (start nInputs background) as s)
    (hs : Complete s) (hpast : s.place.PastLoop) :
    s.yielded = s.put ↔ sys.Run Drained (start nInputs background) as s := by
  obtain ⟨hput, hcount⟩ := run_accounts hrun
  have hqueue : s.yielded = s.put ↔ s.returnQueue = [] := by
    rw [← hput]
    simp
  rw [hqueue]
  constructor
  · exact fun h => (run_drained_or_lost hrun).resolve_right fun hlost => hlost.queue h
  · intro hdrained
    rcases run_stopped hdrained hpast with hn | ⟨-, hempty⟩
    · have hlen := congrArg List.length hput
      rw [List.length_append, hs.put, ← hcount, hn] at hlen
      exact List.eq_nil_of_length_eq_zero (by omega)
    · exact hempty

/-! ### The generator's end -/

/-- The generator of a complete job has only ended as it should. -/
def EndedWell (s : State β) : Prop :=
  ∀ o, s.place = .done o →
    s.threadEnd ≠ none ∧ (s.threadEnd = some none → s.terminalCancel = false → o = .normal)

lemma EndedWell.next (h : Generator.next s = some t) : EndedWell t := by
  intro o ho
  unfold Generator.next at h
  cases hplace : s.place with
  | top =>
    simp only [hplace] at h
    split_ifs at h with hn
    · obtain rfl := Option.some.inj h
      cases ho
    · cases hq : s.returnQueue with
      | nil =>
        simp only [hq, Option.some.injEq] at h
        subst h
        cases ho
      | cons output rest =>
        simp only [hq, Option.some.injEq] at h
        subst h
        cases ho
  | timedOut =>
    obtain rfl : _ = t := by simpa [hplace] using h
    simp only at ho
    split_ifs at ho
  | joining =>
    simp only [hplace, Option.ite_none_left_eq_some, Option.some.injEq] at h
    obtain ⟨-, rfl⟩ := h
    cases ho
  | joined =>
    simp only [hplace, Option.map_eq_some_iff] at h
    obtain ⟨exception, hend, rfl⟩ := h
    obtain rfl : outcome s exception = o := by simpa using ho
    refine ⟨by simp [hend], fun hnone hcancel => ?_⟩
    simp only [hend, Option.some.injEq] at hnone hcancel
    simp [outcome, hnone, hcancel]
  | done o => simp [hplace] at h

lemma EndedWell.step {e : Event β} (hs : EndedWell s) (hstep : sys.step s e = some t) :
    EndedWell t := by
  cases e with
  | put output =>
    simp only [sys, Generator.step, Option.ite_none_right_eq_some, Option.some.injEq] at hstep
    obtain ⟨-, rfl⟩ := hstep
    exact hs
  | threadEnds exception =>
    simp only [sys, Generator.step, Option.ite_none_right_eq_some, Option.some.injEq] at hstep
    obtain ⟨halive, rfl⟩ := hstep
    exact fun o ho => absurd (by simpa using halive) (hs o ho).1
  | cancel =>
    obtain rfl := Option.some.inj hstep
    exact fun o ho => ⟨(hs o ho).1, fun _ hcancel => by cases hcancel⟩
  | inputsDone =>
    simp only [sys, Generator.step, Option.ite_none_right_eq_some, Option.some.injEq] at hstep
    obtain ⟨-, rfl⟩ := hstep
    exact hs
  | next => exact .next hstep

/-- The generator, going on by itself, comes to its end as it should. -/
def Ends (s : State β) : Prop :=
  ∃ k t, sys.exec s (List.replicate k .next) = some t ∧ t.place = .done .normal

lemma Ends.of_next (h : next s = some t) (ht : Ends t) : Ends s := by
  obtain ⟨k, u, hexec, hdone⟩ := ht
  refine ⟨k + 1, u, ?_, hdone⟩
  simp only [List.replicate_succ, System.exec, Option.bind_eq_some_iff]
  exact ⟨t, h, hexec⟩

lemma ends_of_joining (hs : Complete s) (hplace : s.place = .joining) : Ends s := by
  have hjoin : next s = some { s with place := .joined } := by simp [next, hplace, hs.threadEnd]
  have hcheck : next { s with place := .joined } = some { s with place := .done .normal } := by
    simp [next, hs.threadEnd, outcome, hs.terminalCancel]
  exact .of_next hjoin (.of_next hcheck ⟨0, _, rfl, rfl⟩)

/-- Each round of the loop takes a result off the queue, or is the last. -/
lemma ends_of_top (hs : Complete s) (hplace : s.place = .top) : Ends s := by
  induction hq : s.returnQueue generalizing s with
  | nil =>
    by_cases hn : s.nResults = s.nInputs
    · have hnext : next s = some { s with place := .joining } := by simp [next, hplace, hn]
      exact .of_next hnext (ends_of_joining ⟨hs.threadEnd, hs.put, hs.terminalCancel⟩ rfl)
    · have hnext : next s = some { s with place := .timedOut } := by simp [next, hplace, hn, hq]
      have hstop : next { s with place := .timedOut } = some { s with place := .joining } := by
        simp [next, hs.threadEnd]
      exact .of_next hnext
        (.of_next hstop (ends_of_joining ⟨hs.threadEnd, hs.put, hs.terminalCancel⟩ rfl))
  | cons output rest ih =>
    by_cases hn : s.nResults = s.nInputs
    · have hnext : next s = some { s with place := .joining } := by simp [next, hplace, hn]
      exact .of_next hnext (ends_of_joining ⟨hs.threadEnd, hs.put, hs.terminalCancel⟩ rfl)
    · have hnext : next s = some { s with
          returnQueue := rest, yielded := s.yielded ++ [output], nResults := s.nResults + 1 } := by
        simp [next, hplace, hn, hq]
      exact .of_next hnext (ih ⟨hs.threadEnd, hs.put, hs.terminalCancel⟩ hplace rfl)

lemma ends (hs : Complete s) (hwell : EndedWell s) : Ends s := by
  cases hplace : s.place with
  | top => exact ends_of_top hs hplace
  | timedOut =>
    have hstop : next s = some { s with place := .joining } := by
      simp [next, hplace, hs.threadEnd]
    exact .of_next hstop (ends_of_joining ⟨hs.threadEnd, hs.put, hs.terminalCancel⟩ rfl)
  | joining => exact ends_of_joining hs hplace
  | joined =>
    have hcheck : next s = some { s with place := .done .normal } := by
      simp [next, hplace, hs.threadEnd, outcome, hs.terminalCancel]
    exact .of_next hcheck ⟨0, _, rfl, rfl⟩
  | done o =>
    obtain rfl := (hwell o hplace).2 hs.threadEnd hs.terminalCancel
    exact ⟨0, s, rfl, hplace⟩

lemma Complete.next (hs : Complete s) (h : Generator.next s = some t) : Complete t := by
  obtain ⟨-, -, rfl⟩ | ⟨-, -, _, _, -, rfl⟩ | ⟨-, -, -, rfl⟩ | ⟨-, -, rfl⟩ | ⟨-, -, rfl⟩ |
    ⟨-, _, -, rfl⟩ := next_cases h
  all_goals exact ⟨hs.threadEnd, hs.put, hs.terminalCancel⟩

lemma Complete.exec {k : ℕ} (hs : Complete s)
    (h : sys.exec s (List.replicate k .next) = some t) : Complete t := by
  induction k generalizing s with
  | zero =>
    obtain rfl : s = t := by simpa [System.exec] using h
    exact hs
  | succ k ih =>
    simp only [List.replicate_succ, System.exec, Option.bind_eq_some_iff] at h
    obtain ⟨s', hstep, hrest⟩ := h
    exact ih (hs.next hstep) hrest

end Runs

/-- **The generator of a complete job ends as it should, with all results in exactly the drained
runs.** -/
theorem yields_all_iff {nInputs : ℕ} {background : Bool} {as : List (Event β)} {s : State β}
    (hrun : sys.Run System.always (start nInputs background) as s) (hs : Complete s) :
    ∃ k t, sys.exec s (List.replicate k .next) = some t ∧ t.place = .done .normal ∧
      (t.yielded = t.put ↔
        sys.Run Drained (start nInputs background) (as ++ List.replicate k .next) t) := by
  have hwell : EndedWell s :=
    System.Preserved.run (P := EndedWell) (fun _ _ _ hs _ hstep => hs.step hstep)
      (fun o h => by cases h) hrun
  obtain ⟨k, t, hexec, hdone⟩ := ends hs hwell
  refine ⟨k, t, hexec, hdone, ?_⟩
  exact yielded_eq_put_iff (hrun.exec hexec) (hs.exec hexec) (by rw [hdone]; trivial)

instance [DecidableEq β] (s : State β) : (e : Event β) → Decidable (Drained s e)
  | .next => inferInstanceAs (Decidable (_ → _ → _))
  | .put _ => .isTrue trivial
  | .threadEnds _ => .isTrue trivial
  | .cancel => .isTrue trivial
  | .inputsDone => .isTrue trivial

/-- The only result is on the queue before the generator looks at it. -/
def promptResult : List (Event ℕ) := [.put 7, .threadEnds none, .next, .next, .next, .next]

def prompt : State ℕ := ((sys.guarded Drained).exec (start 1 false) promptResult).get (by decide)

theorem yields_all_iff_prompt : prompt.place = .done .normal ∧ prompt.yielded = prompt.put := by
  have hrun : sys.Run Drained (start 1 false) promptResult prompt :=
    System.run_of_exec_guarded (Option.some_get _).symm
  obtain ⟨k, t, hexec, hdone, hiff⟩ :=
    yields_all_iff (hrun.mono fun _ _ _ => trivial) ⟨rfl, rfl, rfl⟩
  cases k with
  | zero =>
    obtain rfl : prompt = t := by simpa [System.exec] using hexec
    exact ⟨hdone, hiff.2 (by simpa using hrun)⟩
  | succ k =>
    have hstuck : sys.step prompt .next = none := rfl
    simp [List.replicate_succ, System.exec, hstuck] at hexec

/-- The thread puts its only result on the queue and ends, after the generator has looked at the
queue and before it looks at the thread. -/
def lateResult : List (Event ℕ) := [.next, .put 7, .threadEnds none, .next, .next, .next]

/-- The generator ends as if all were well, and has yielded nothing. -/
theorem result_left_on_queue :
    ∃ s : State ℕ, sys.Reachable System.always s ∧ Complete s ∧ s.put = [7] ∧
      s.place = .done .normal ∧ s.yielded = [] := by
  refine ⟨(sys.exec (start 1 false) lateResult).get (by decide), ?_, ⟨rfl, rfl, rfl⟩, rfl, rfl, rfl⟩
  exact System.Reachable.exec ⟨start 1 false, [], ⟨1, false, rfl⟩, .nil⟩ (Option.some_get _).symm

end Burla.Results.Generator
