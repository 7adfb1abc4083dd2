/-
A node that the head holds for a RUNNING job stays held for it, and is not given to another.

The pushes that clear a reservation name no job, so everything rests on what may still be under
way when a job is admitted: as long as nothing of an earlier job is left then, all that is under
way while a node is held is about the job that it is held for.

The main results are

* `Site.held_exclusively`: reservations are stable and exclusive, in every run in which a node is
  selected only when nothing is left there of a job whose part is over, and in which a request
  reaches the node only while the head has it reserved for that job;
* `Site.cleared_of_late`: a clear of another job that is under way when a node is reserved can
  take the reservation away.
-/
import Burla.Reserve.Site

namespace Burla.Reserve

open Burla.Assign (NodeStatus View)
open Burla.ClusterState (NodeRow StateFields)
open Burla.Jobs (JobStatus)

variable {κ : Type*}

namespace Site

variable (s : Site κ)

/-- The head holds the node for the job. -/
def Held (job : κ) : Prop := s.row.reservedForJob = some job ∨ s.row.currentJob = some job

/-- The job's part at the node is over: the job has ended, or its assignment there, or its
reservation there has been given up. -/
def Over (job : κ) : Prop := s.jobs job ≠ some .running ∨ job ∈ s.overJobs

/-- The jobs that something is left of, at the node or under way. -/
def present : List κ :=
  s.currentJob.toList ++ s.reservedForJob.toList ++ s.told.toList ++
    s.underway.filterMap Note.owner

section Decidable

variable [DecidableEq κ]

instance (job : κ) : Decidable (s.Held job) := inferInstanceAs (Decidable (_ ∨ _))

instance (job : κ) : Decidable (s.Over job) := inferInstanceAs (Decidable (_ ∨ _))

end Decidable

/-- A node is selected only when nothing is left there of a job whose part is over, and a request
reaches it only while the head has it reserved for that job and no reboot is about to begin. -/
def Settled (s : Site κ) : SiteEvent κ → Prop
  | .admitJob _ true => ∀ job ∈ s.present, ¬s.Over job
  | .post job => s.row.reservedForJob = some job ∧ .boot none ∉ s.underway
  | _ => True

instance [DecidableEq κ] (s : Site κ) (e : SiteEvent κ) : Decidable (s.Settled e) :=
  match e with
  | .admitJob _ true => inferInstanceAs (Decidable (∀ job ∈ s.present, ¬s.Over job))
  | .post job =>
    inferInstanceAs (Decidable (s.row.reservedForJob = some job ∧ Note.boot none ∉ s.underway))
  | .admitJob _ false | .tick _ | .endJob .. | .terminate _ | .refuse | .abort | .finish | .reboot
  | .booted | .bootFails | .loop | .giveUp | .shutDown _ | .send | .reach | .answer | .lose
  | .arrive _ | .drop _ => .isTrue trivial

variable {s} {t : Site κ} {n : Note κ} {job k : κ} {status : Option NodeStatus}

/-! ### What is under way -/

lemma mem_underway : n ∈ s.underway ↔
    n ∈ s.queue ∨ (∃ f ∈ s.flight, f.view = none ∧ f.note = n) ∨ ∃ p ∈ s.late, p.1 = n := by
  simp [underway, and_assoc]

lemma mem_present : job ∈ s.present ↔ s.currentJob = some job ∨ s.reservedForJob = some job ∨
    s.told = some job ∨ ∃ n ∈ s.underway, n.owner = some job := by
  simp [present]

@[simp] lemma mem_underway_enqueue {n' : Note κ} :
    n' ∈ (s.enqueue n).underway ↔ n' = n ∨ n' ∈ s.underway := by
  simp only [mem_underway, enqueue, List.mem_append, List.mem_singleton, or_assoc, or_left_comm]

@[simp] lemma underway_done {jobs : List κ} : (s.done jobs).underway = s.underway := rfl

@[simp] lemma told_enqueue : (s.enqueue n).told = s.told := rfl

@[simp] lemma told_done {jobs : List κ} : (s.done jobs).told = s.told := rfl

/-! ### The invariant -/

/-- Nothing of another job is left while the node is held for a job. -/
structure Sound (s : Site κ) : Prop where
  /-- A node is reserved or at work, not both. -/
  one : s.row.reservedForJob = none ∨ s.row.currentJob = none
  /-- The head knows every job that there is anything of. -/
  known : ∀ job, s.jobs job = none → job ∉ s.present ∧ job ∉ s.overJobs ∧ ¬s.Held job
  /-- What is left of a job whose part is not over is backed by the head. -/
  held : ∀ job ∈ s.present, ¬s.Over job → s.Held job
  only : ∀ job, s.Held job → ¬s.Over job → ∀ k ∈ s.present, k = job
  /-- The only push of a job whose part is not over is the one of its start. -/
  ended : ∀ n ∈ s.underway, ∀ job, n.owner = some job → n = .start job ∨ s.Over job
  /-- A job that has begun is at the node until its part is over. -/
  begun : ∀ job, .start job ∈ s.underway ∨ s.row.currentJob = some job →
    s.currentJob = some job ∨ s.Over job
  /-- A reboot that ends no job finds none. -/
  boots : .boot none ∈ s.underway → ∀ job, s.currentJob = some job → s.Over job

lemma Sound.of_fresh (h : s.Fresh) : s.Sound := by
  have hunder : s.underway = [] := by simp [underway, h.queue, h.flight, h.late]
  have hpresent : ∀ job, job ∈ s.present ↔ s.reservedForJob = some job := by
    intro job
    simp [mem_present, hunder, h.currentJob, told, h.flight]
  have hheld : ∀ job, s.Held job ↔ s.reservedForJob = some job := by
    intro job
    simp [Held, h.rowCurrentJob, h.rowReservedForJob]
  constructor
  · exact .inr h.rowCurrentJob
  · rintro job hjob
    rw [hpresent, hheld]
    have hnot : s.reservedForJob ≠ some job := fun hres => by simp [h.known job hres] at hjob
    exact ⟨hnot, by simp [h.overJobs], hnot⟩
  · rintro job hjob -
    rwa [hheld, ← hpresent]
  · rintro job hjob - k hk
    rw [hheld] at hjob
    rw [hpresent, hjob] at hk
    exact (Option.some.inj hk).symm
  · simp [hunder]
  · rintro job (hstart | hrow)
    · simp [hunder] at hstart
    · simp [h.rowCurrentJob] at hrow
  · simp [hunder]

/-- The node's own steps: the head knows nothing of them, what is new under way is quiet or about
a job whose part is over, and a job leaves the node when its part is over. -/
lemma Sound.of_local (h : s.Sound) (hjobs : t.jobs = s.jobs)
    (hreserved : t.row.reservedForJob = s.row.reservedForJob)
    (hcurrent : t.row.currentJob = s.row.currentJob)
    (hover : ∀ job ∈ s.overJobs, job ∈ t.overJobs)
    (hover' : ∀ job ∈ t.overJobs, job ∈ s.overJobs ∨ job ∈ s.present)
    (hpresent : ∀ job, t.currentJob = some job ∨ t.reservedForJob = some job ∨ t.told = some job →
      job ∈ s.present)
    (hunder : ∀ n ∈ t.underway, n ∈ s.underway ∨ n.quiet = true ∨
      (n = .boot none ∧ t.currentJob = none) ∨
      ∃ job ∈ t.overJobs, n.owner = some job ∧ job ∈ s.present)
    (hleave : ∀ job, s.currentJob = some job → t.currentJob = some job ∨ job ∈ t.overJobs)
    (henter : ∀ job, t.currentJob = some job → s.currentJob = some job) : t.Sound := by
  have hOver : ∀ job, s.Over job → t.Over job := fun job hjob => by
    rcases hjob with hjob | hjob
    · exact .inl (hjobs ▸ hjob)
    · exact .inr (hover job hjob)
  have hHeld : ∀ job, t.Held job ↔ s.Held job := fun job => by rw [Held, Held, hreserved, hcurrent]
  have hquiet : ∀ n : Note κ, n.quiet = true → n.owner = none := by
    intro n hn
    cases n <;> simp_all [Note.quiet, Note.owner]
  have hPresent : ∀ job ∈ t.present, job ∈ s.present := by
    intro job hjob
    rcases mem_present.1 hjob with hj | hj | hj | ⟨n, hn, howner⟩
    · exact hpresent job (.inl hj)
    · exact hpresent job (.inr (.inl hj))
    · exact hpresent job (.inr (.inr hj))
    · rcases hunder n hn with hn | hn | ⟨rfl, -⟩ | ⟨k, -, hk, hmem⟩
      · exact mem_present.2 (.inr (.inr (.inr ⟨n, hn, howner⟩)))
      · simp [hquiet n hn] at howner
      · simp [Note.owner] at howner
      · obtain rfl := Option.some.inj (hk.symm.trans howner)
        exact hmem
  constructor
  · rw [hreserved, hcurrent]
    exact h.one
  · intro job hjob
    obtain ⟨hp, ho, hh⟩ := h.known job (hjobs ▸ hjob)
    refine ⟨fun hmem => hp (hPresent job hmem), fun hmem => ?_, fun hheld => hh ((hHeld job).1 hheld)⟩
    rcases hover' job hmem with hmem | hmem
    · exact ho hmem
    · exact hp hmem
  · intro job hjob hnot
    exact (hHeld job).2 (h.held job (hPresent job hjob) fun hj => hnot (hOver job hj))
  · intro job hjob hnot k hk
    exact h.only job ((hHeld job).1 hjob) (fun hj => hnot (hOver job hj)) k (hPresent k hk)
  · intro n hn job howner
    rcases hunder n hn with hn | hn | ⟨rfl, -⟩ | ⟨k, hk, howner', -⟩
    · exact (h.ended n hn job howner).imp_right (hOver job)
    · simp [hquiet n hn] at howner
    · simp [Note.owner] at howner
    · obtain rfl := Option.some.inj (howner'.symm.trans howner)
      exact .inr (.inr hk)
  · intro job hjob
    have hbegun : s.currentJob = some job ∨ s.Over job ∨ t.Over job := by
      rcases hjob with hjob | hjob
      · rcases hunder _ hjob with hn | hn | ⟨hn, -⟩ | ⟨k, hk, howner, -⟩
        · exact (h.begun job (.inl hn)).imp_right .inl
        · simp [Note.quiet] at hn
        · cases hn
        · obtain rfl := Option.some.inj howner
          exact .inr (.inr (.inr hk))
      · exact (h.begun job (.inr (hcurrent ▸ hjob))).imp_right .inl
    rcases hbegun with hj | hj | hj
    · exact (hleave job hj).imp_right .inr
    · exact .inr (hOver job hj)
    · exact .inr hj
  · intro hboot job hjob
    rcases hunder _ hboot with hn | hn | ⟨-, hnone⟩ | ⟨k, -, howner, -⟩
    · exact hOver job (h.boots hn job (henter job hjob))
    · simp [Note.quiet] at hn
    · simp [hnone] at hjob
    · simp [Note.owner] at howner

/-! ### What the head makes of a push -/

lemma reservedForJob_record :
    (s.record n status).row.reservedForJob =
      (n.fields status).reservedForJob.getD s.row.reservedForJob := rfl

lemma currentJob_record :
    (s.record n status).row.currentJob = (n.fields status).currentJob.getD s.row.currentJob := rfl

/-- No push makes a reservation. -/
lemma reservedForJob_of_record (h : (s.record n status).row.reservedForJob = some job) :
    s.row.reservedForJob = some job := by
  rw [reservedForJob_record] at h
  cases n <;> simp_all [Note.fields]

/-- Only the push of a start makes a node RUNNING for a job. -/
lemma currentJob_of_record (h : (s.record n status).row.currentJob = some job) :
    s.row.currentJob = some job ∨ n = .start job := by
  rw [currentJob_record] at h
  cases n <;> simp_all [Note.fields]

/-- A push that is not about another job, and no clear, leaves a node held. -/
lemma held_record (h : s.Sound) (hn : n ∈ s.underway) (hheld : s.Held job) (hover : ¬s.Over job) :
    (s.record n status).Held job := by
  have howner : ∀ k, n.owner = some k → n = .start job := by
    intro k hk
    obtain rfl : k = job :=
      h.only job hheld hover k (mem_present.2 (.inr (.inr (.inr ⟨n, hn, hk⟩))))
    exact (h.ended n hn k hk).resolve_right hover
  rw [Held, reservedForJob_record, currentJob_record]
  cases n with
  | loop => exact hheld
  | booted => exact hheld
  | failed => exact hheld
  | deleted => exact hheld
  | start k => exact .inr (by rw [howner k rfl]; rfl)
  | refused k => cases howner k rfl
  | aborted k => cases howner k rfl
  | ended k => cases howner k rfl
  | gaveUp k => cases howner k rfl
  | boot k =>
    cases k with
    | some k => cases howner k rfl
    | none =>
      -- no reboot is about to begin while the job is at the node, so the job only waits
      refine .inl (hheld.resolve_right fun hcurrent => hover ?_)
      rcases h.begun job (.inr hcurrent) with hcur | hover'
      · exact h.boots hn job hcur
      · exact hover'

lemma one_record (h : s.row.reservedForJob = none ∨ s.row.currentJob = none) :
    (s.record n status).row.reservedForJob = none ∨ (s.record n status).row.currentJob = none := by
  rw [reservedForJob_record, currentJob_record]
  cases n with
  | start k => exact .inl rfl
  | aborted k => exact .inl rfl
  | ended k => exact .inl rfl
  | gaveUp k => exact .inl rfl
  | refused k => exact .inr rfl
  | boot k => exact .inr rfl
  | loop | booted | failed | deleted => exact h

/-- The head takes up a push that was under way; what it answers is the reservation that there is
then. -/
lemma Sound.of_record (h : s.Sound) (hn : n ∈ s.underway) (hjobs : t.jobs = s.jobs)
    (hrow : t.row = (s.record n status).row) (hover : t.overJobs = s.overJobs)
    (hcurrent : t.currentJob = s.currentJob) (hreserved : t.reservedForJob = s.reservedForJob)
    (htold : ∀ job, t.told = some job → s.told = some job ∨ t.row.reservedForJob = some job)
    (hunder : ∀ n' ∈ t.underway, n' ∈ s.underway) : t.Sound := by
  have hOver : ∀ job, t.Over job ↔ s.Over job := fun job => by rw [Over, Over, hjobs, hover]
  have hHeld : ∀ job, s.Held job → ¬s.Over job → t.Held job := fun job hheld hnot => by
    rw [Held, hrow]
    exact held_record h hn hheld hnot
  have hPresent : ∀ job ∈ t.present, job ∈ s.present ∨ s.row.reservedForJob = some job := by
    intro job hjob
    rcases mem_present.1 hjob with hj | hj | hj | ⟨n', hn', howner⟩
    · exact .inl (mem_present.2 (.inl (hcurrent ▸ hj)))
    · exact .inl (mem_present.2 (.inr (.inl (hreserved ▸ hj))))
    · rcases htold job hj with hj | hj
      · exact .inl (mem_present.2 (.inr (.inr (.inl hj))))
      · exact .inr (reservedForJob_of_record (hrow ▸ hj))
    · exact .inl (mem_present.2 (.inr (.inr (.inr ⟨n', hunder n' hn', howner⟩))))
  have hBack : ∀ job, t.Held job → s.Held job ∨ n = .start job := by
    rintro job (hj | hj)
    · exact .inl (.inl (reservedForJob_of_record (hrow ▸ hj)))
    · exact (currentJob_of_record (hrow ▸ hj)).imp_left .inr
  have hmem : ∀ job, n = .start job → job ∈ s.present := by
    rintro job rfl
    exact mem_present.2 (.inr (.inr (.inr ⟨_, hn, rfl⟩)))
  constructor
  · rw [hrow]
    exact one_record h.one
  · intro job hjob
    obtain ⟨hp, ho, hh⟩ := h.known job (hjobs ▸ hjob)
    refine ⟨fun hm => ?_, hover ▸ ho, fun hheld => ?_⟩
    · rcases hPresent job hm with hm | hm
      · exact hp hm
      · exact hh (.inl hm)
    · rcases hBack job hheld with hheld | hstart
      · exact hh hheld
      · exact hp (hmem job hstart)
  · intro job hjob hnot
    rw [hOver] at hnot
    rcases hPresent job hjob with hm | hm
    · exact hHeld job (h.held job hm hnot) hnot
    · exact hHeld job (.inl hm) hnot
  · intro job hjob hnot k hk
    rw [hOver] at hnot
    have hheld : s.Held job := by
      rcases hBack job hjob with hheld | hstart
      · exact hheld
      · exact h.held job (hmem job hstart) hnot
    rcases hPresent k hk with hk | hk
    · exact h.only job hheld hnot k hk
    · rcases hheld with hheld | hheld
      · exact Option.some.inj (hk.symm.trans hheld)
      · rcases h.one with hone | hone
        · rw [hone] at hk
          cases hk
        · rw [hone] at hheld
          cases hheld
  · intro n' hn' job howner
    rw [hOver]
    exact h.ended n' (hunder n' hn') job howner
  · intro job hjob
    rw [hcurrent, hOver]
    rcases hjob with hjob | hjob
    · exact h.begun job (.inl (hunder _ hjob))
    · rcases currentJob_of_record (hrow ▸ hjob) with hjob | rfl
      · exact h.begun job (.inr hjob)
      · exact h.begun job (.inl hn)
  · intro hboot job hjob
    rw [hOver]
    exact h.boots (hunder _ hboot) job (hcurrent ▸ hjob)

/-! ### What the head does of itself -/

section Head

variable [DecidableEq κ]

/-- A new job, without the node. -/
lemma Sound.of_new (h : s.Sound) (hnew : s.jobs job = none) :
    Sound { s with jobs := Function.update s.jobs job (some .running) } := by
  obtain ⟨hp, ho, hh⟩ := h.known job hnew
  have hOver : ∀ k, k ≠ job →
      (Over { s with jobs := Function.update s.jobs job (some .running) } k ↔ s.Over k) := by
    intro k hk
    simp [Over, Function.update_of_ne hk]
  have hheld : ∀ k, Held { s with jobs := Function.update s.jobs job (some .running) } k →
      k ≠ job := by
    rintro k hk rfl
    exact hh hk
  have hpresent : ∀ k ∈ present { s with jobs := Function.update s.jobs job (some .running) },
      k ≠ job := by
    rintro k hk rfl
    exact hp hk
  constructor
  · exact h.one
  · intro k hk
    have hne : k ≠ job := by
      rintro rfl
      simp at hk
    exact h.known k (by simpa [Function.update_of_ne hne] using hk)
  · intro k hk hnot
    rw [hOver k (hpresent k hk)] at hnot
    exact h.held k hk hnot
  · intro k hk hnot
    rw [hOver k (hheld k hk)] at hnot
    exact h.only k hk hnot
  · intro n hn k howner
    rw [hOver k (hpresent k (mem_present.2 (.inr (.inr (.inr ⟨n, hn, howner⟩)))))]
    exact h.ended n hn k howner
  · intro k hk
    by_cases hne : k = job
    · subst hne
      rcases hk with hk | hk
      · exact absurd (mem_present.2 (.inr (.inr (.inr ⟨_, hk, rfl⟩)))) hp
      · exact absurd (.inr hk) hh
    · rw [hOver k hne]
      exact h.begun k hk
  · intro hboot k hk
    rw [hOver k (hpresent k (mem_present.2 (.inl hk)))]
    exact h.boots hboot k hk

/-- A new job, for which the node is selected. -/
lemma Sound.of_select (h : s.Sound) (hnew : s.jobs job = none) (hfree : s.row.Free s.now)
    (hleft : ∀ k ∈ s.present, ¬s.Over k) :
    Sound { s with
      jobs := Function.update s.jobs job (some .running)
      row := { s.row with reservedForJob := some job } } := by
  obtain ⟨-, hcurrent, hreserved, -, -⟩ := hfree
  -- what is left is not over, so the head would hold the node for it
  have hnone : ∀ k, k ∉ s.present := by
    intro k hk
    rcases h.held k hk (hleft k hk) with hheld | hheld
    · simp [hreserved] at hheld
    · simp [hcurrent] at hheld
  have hunder : ∀ n ∈ s.underway, n.owner = none := by
    intro n hn
    cases howner : n.owner with
    | none => rfl
    | some k => exact absurd (mem_present.2 (.inr (.inr (.inr ⟨n, hn, howner⟩)))) (hnone k)
  have hidle : s.currentJob = none := by
    cases hcur : s.currentJob with
    | none => rfl
    | some k => exact absurd (mem_present.2 (.inl hcur)) (hnone k)
  constructor
  · exact .inr hcurrent
  · intro k hk
    have hne : k ≠ job := by
      rintro rfl
      simp at hk
    obtain ⟨hp, ho, -⟩ := h.known k (by simpa [Function.update_of_ne hne] using hk)
    refine ⟨hp, ho, ?_⟩
    rintro (hheld | hheld)
    · exact hne (Option.some.inj hheld).symm
    · simp [hcurrent] at hheld
  · intro k hk
    exact absurd hk (hnone k)
  · intro _ _ _ k hk
    exact absurd hk (hnone k)
  · intro n hn k howner
    simp [hunder n hn] at howner
  · rintro k (hk | hk)
    · simpa [Note.owner] using hunder _ hk
    · simp [hcurrent] at hk
  · intro _ k hk
    simp [hidle] at hk

/-- A job ends, and the node is released if it was reserved for it. -/
lemma Sound.of_endJob {after : JobStatus} (h : s.Sound) (hjob : s.jobs job ≠ none)
    (hafter : after ≠ .running) :
    Sound { s with
      jobs := Function.update s.jobs job (some after)
      row := s.row.release job } := by
  have hOver : ∀ k, s.Over k → Over { s with
      jobs := Function.update s.jobs job (some after)
      row := s.row.release job } k := by
    rintro k (hk | hk)
    · by_cases hne : k = job
      · subst hne
        exact .inl (by simpa using hafter)
      · exact .inl (by simpa [Function.update_of_ne hne] using hk)
    · exact .inr hk
  have hself : Over { s with
      jobs := Function.update s.jobs job (some after)
      row := s.row.release job } job := .inl (by simpa using hafter)
  have hHeld : ∀ k, k ≠ job → s.Held k → Held { s with
      jobs := Function.update s.jobs job (some after)
      row := s.row.release job } k := by
    rintro k hne (hk | hk)
    · left
      show (s.row.release job).reservedForJob = some k
      rw [NodeRow.release, if_neg]
      · exact hk
      · rw [hk]
        exact fun he => hne (Option.some.inj he)
    · right
      show (s.row.release job).currentJob = some k
      rw [NodeRow.release_currentJob]
      exact hk
  have hBack : ∀ k, Held { s with
      jobs := Function.update s.jobs job (some after)
      row := s.row.release job } k → s.Held k := by
    rintro k (hk | hk)
    · have hk : (s.row.release job).reservedForJob = some k := hk
      unfold NodeRow.release at hk
      split_ifs at hk
      exact .inl hk
    · exact .inr (by simpa using hk)
  constructor
  · show (s.row.release job).reservedForJob = none ∨ (s.row.release job).currentJob = none
    rw [NodeRow.release_currentJob]
    refine h.one.imp_left fun hone => ?_
    unfold NodeRow.release
    split_ifs
    · rfl
    · exact hone
  · intro k hk
    have hk : s.jobs k = none := by
      by_cases hne : k = job
      · subst hne
        simp at hk
      · simpa [Function.update_of_ne hne] using hk
    obtain ⟨hp, ho, hh⟩ := h.known k hk
    exact ⟨hp, ho, fun hheld => hh (hBack k hheld)⟩
  · intro k hk hnot
    have hne : k ≠ job := by
      rintro rfl
      exact hnot hself
    exact hHeld k hne (h.held k hk fun hk => hnot (hOver k hk))
  · intro k hk hnot
    exact h.only k (hBack k hk) fun hk => hnot (hOver k hk)
  · intro n hn k howner
    exact (h.ended n hn k howner).imp_right (hOver k)
  · intro k hk
    refine (h.begun k (hk.imp_right fun hk => ?_)).imp_right (hOver k)
    simpa using hk
  · intro hboot k hk
    exact hOver k (h.boots hboot k hk)

/-- A request reaches a node that the head has reserved for its job. -/
lemma Sound.of_start (h : s.Sound) (hreserved : s.row.reservedForJob = some job)
    (hboot : .boot none ∉ s.underway) : (s.onJobStart job).Sound := by
  have hheld : s.Held job := .inl hreserved
  have hcurrent : s.row.currentJob = none := by
    rcases h.one with hone | hone
    · rw [hreserved] at hone
      cases hone
    · exact hone
  have hPresent : ∀ k ∈ (s.onJobStart job).present, k = job ∨ k ∈ s.present := by
    intro k hk
    rcases mem_present.1 hk with hk | hk | hk | ⟨n, hn, howner⟩
    · exact .inl (Option.some.inj hk).symm
    · simp [onJobStart, enqueue] at hk
    · exact .inr (mem_present.2 (.inr (.inr (.inl hk))))
    · rcases mem_underway_enqueue.1 hn with rfl | hn
      · exact .inl (Option.some.inj howner).symm
      · exact .inr (mem_present.2 (.inr (.inr (.inr ⟨n, hn, howner⟩))))
  have honly : ∀ k, s.Held k → k = job := by
    rintro k (hk | hk)
    · exact Option.some.inj (hk.symm.trans hreserved)
    · simp [hcurrent] at hk
  have hunder : ∀ n ∈ (s.onJobStart job).underway, n = .start job ∨ n ∈ s.underway :=
    fun n hn => mem_underway_enqueue.1 hn
  constructor
  · exact h.one
  · intro k hk
    obtain ⟨hp, ho, hh⟩ := h.known k hk
    refine ⟨fun hmem => ?_, ho, hh⟩
    rcases hPresent k hmem with rfl | hmem
    · exact hh hheld
    · exact hp hmem
  · intro k hk hnot
    rcases hPresent k hk with rfl | hk
    · exact hheld
    · exact h.held k hk hnot
  · intro k hk hnot k' hk'
    rcases hPresent k' hk' with rfl | hk'
    · exact (honly k hk).symm
    · exact h.only k hk hnot k' hk'
  · intro n hn k howner
    rcases hunder n hn with rfl | hn
    · obtain rfl := Option.some.inj howner
      exact .inl rfl
    · exact h.ended n hn k howner
  · rintro k (hk | hk)
    · rcases hunder _ hk with hk | hk
      · obtain rfl := Note.start.inj hk
        exact .inl rfl
      · by_cases hnot : s.Over k
        · exact .inr hnot
        · have hmem : k ∈ s.present := mem_present.2 (.inr (.inr (.inr ⟨_, hk, rfl⟩)))
          obtain rfl := honly k (h.held k hmem hnot)
          exact .inl rfl
    · have hk : s.row.currentJob = some k := hk
      simp [hcurrent] at hk
  · intro hboot' k hk
    rcases hunder _ hboot' with hk' | hk'
    · cases hk'
    · exact absurd hk' hboot

end Head

/-! ### The steps -/

/-- Nothing comes in, and the job at the node, if it goes, is over. -/
lemma Sound.of_shrink (h : s.Sound) (hjobs : t.jobs = s.jobs)
    (hreserved : t.row.reservedForJob = s.row.reservedForJob)
    (hcurrent : t.row.currentJob = s.row.currentJob)
    (hover : ∃ l, t.overJobs = s.overJobs ++ l ∧ ∀ job ∈ l, s.currentJob = some job)
    (hcur : ∀ job, t.currentJob = some job → s.currentJob = some job)
    (hcur' : ∀ job, s.currentJob = some job → t.currentJob = some job ∨ job ∈ t.overJobs)
    (hres : ∀ job, t.reservedForJob = some job → s.reservedForJob = some job ∨ s.told = some job)
    (htold : ∀ job, t.told = some job → s.told = some job)
    (hunder : ∀ n ∈ t.underway, n ∈ s.underway) : t.Sound := by
  obtain ⟨l, hl, hlcur⟩ := hover
  refine h.of_local hjobs hreserved hcurrent ?_ ?_ ?_ (fun n hn => .inl (hunder n hn)) hcur' hcur
  · intro job hjob
    rw [hl]
    exact List.mem_append_left _ hjob
  · intro job hjob
    rw [hl, List.mem_append] at hjob
    exact hjob.imp_right fun hjob => mem_present.2 (.inl (hlcur job hjob))
  · rintro job (hjob | hjob | hjob)
    · exact mem_present.2 (.inl (hcur job hjob))
    · exact mem_present.2 (.inr ((hres job hjob).imp_right .inl))
    · exact mem_present.2 (.inr (.inr (.inl (htold job hjob))))

/-- A push that is quiet takes its place in the queue, and nothing else of note changes. -/
lemma Sound.of_quiet (h : s.Sound) (hn : n.quiet = true) (hjobs : t.jobs = s.jobs)
    (hrow : t.row = s.row) (hover : t.overJobs = s.overJobs) (hcur : t.currentJob = s.currentJob)
    (hres : t.reservedForJob = s.reservedForJob) (htold : t.told = s.told)
    (hunder : ∀ n' ∈ t.underway, n' = n ∨ n' ∈ s.underway) : t.Sound := by
  refine h.of_local hjobs (by rw [hrow]) (by rw [hrow]) (by simp [hover])
    (fun job hjob => .inl (hover ▸ hjob)) ?_ ?_ (fun job hjob => .inl (hcur ▸ hjob))
    (fun job hjob => hcur ▸ hjob)
  · intro job hjob
    rw [hcur, hres, htold] at hjob
    rcases hjob with hj | hj | hj
    · exact mem_present.2 (.inl hj)
    · exact mem_present.2 (.inr (.inl hj))
    · exact mem_present.2 (.inr (.inr (.inl hj)))
  · intro n' hn'
    rcases hunder n' hn' with rfl | hn'
    · exact .inr (.inl hn)
    · exact .inl hn'

/-- The part of the job at the node comes to its end, and the node says so. -/
lemma Sound.of_leave (h : s.Sound) (hjob : job ∈ s.present) (howner : n.owner = some job)
    (hjobs : t.jobs = s.jobs) (hrow : t.row = s.row) (hover : t.overJobs = s.overJobs ++ [job])
    (hcur : ∀ k, t.currentJob = some k → s.currentJob = some k)
    (hcur' : ∀ k, s.currentJob = some k → t.currentJob = some k ∨ k = job)
    (hres : ∀ k, t.reservedForJob = some k → s.reservedForJob = some k) (htold : t.told = s.told)
    (hunder : ∀ n' ∈ t.underway, n' = n ∨ n' ∈ s.underway) : t.Sound := by
  refine h.of_local hjobs (by rw [hrow]) (by rw [hrow]) ?_ ?_ ?_ ?_ ?_ hcur
  · intro k hk
    rw [hover]
    exact List.mem_append_left _ hk
  · intro k hk
    rw [hover, List.mem_append, List.mem_singleton] at hk
    rcases hk with hk | rfl
    · exact .inl hk
    · exact .inr hjob
  · rintro k (hk | hk | hk)
    · exact mem_present.2 (.inl (hcur k hk))
    · exact mem_present.2 (.inr (.inl (hres k hk)))
    · exact mem_present.2 (.inr (.inr (.inl (htold ▸ hk))))
  · intro n' hn'
    rcases hunder n' hn' with rfl | hn'
    · exact .inr (.inr (.inr ⟨job, by simp [hover], howner, hjob⟩))
    · exact .inl hn'
  · intro k hk
    rcases hcur' k hk with hk | rfl
    · exact .inl hk
    · exact .inr (by simp [hover])

lemma Sound.reboot (h : s.Sound) : s.rebootContainers.Sound := by
  cases hcur : s.currentJob with
  | none =>
    refine h.of_local rfl rfl rfl ?_ ?_ ?_ ?_ ?_ ?_
    · intro job hjob
      exact List.mem_append_left _ hjob
    · intro job hjob
      simpa [rebootContainers, done, enqueue, hcur] using Or.inl hjob
    · rintro job (hjob | hjob | hjob)
      · exact mem_present.2 (.inl hjob)
      · exact mem_present.2 (.inr (.inl hjob))
      · exact mem_present.2 (.inr (.inr (.inl hjob)))
    · intro n hn
      rcases mem_underway_enqueue.1 hn with rfl | hn
      · exact .inr (.inr (.inl ⟨by rw [hcur], hcur⟩))
      · exact .inl hn
    · intro job hjob
      exact .inl hjob
    · intro job hjob
      exact hjob
  | some job =>
    refine h.of_leave (mem_present.2 (.inl hcur)) (n := .boot (some job)) rfl rfl rfl ?_
      (fun k hk => hk) (fun k hk => .inl hk) (fun k hk => hk) rfl fun n hn => ?_
    · simp [rebootContainers, done, enqueue, hcur]
    · have hn : n ∈ (s.enqueue (.boot s.currentJob)).underway := hn
      rwa [hcur, mem_underway_enqueue] at hn

lemma Sound.fail (h : s.Sound) : s.failBoot.Sound :=
  h.of_quiet (n := .failed) rfl rfl rfl rfl rfl rfl rfl fun _ hn => mem_underway_enqueue.1 hn

lemma Sound.answered {view : View κ} {status : Option NodeStatus} (h : s.Sound)
    (hflight : s.flight = some ⟨n, status, some view⟩) :
    ({ s with flight := none }.answered n view).Sound := by
  have hunder : ∀ n' ∈ underway { s with flight := none }, n' ∈ s.underway := by
    intro n' hn'
    rw [mem_underway] at hn' ⊢
    simpa using hn'.imp_right (Or.imp_left fun hf => by simp at hf)
  have hread : Sound { s with flight := none } :=
    h.of_shrink rfl rfl rfl ⟨[], by simp, by simp⟩ (fun _ hj => hj) (fun _ hj => .inl hj)
      (fun _ hj => .inl hj) (by simp [told]) hunder
  unfold Site.answered
  split
  · refine h.of_shrink rfl rfl rfl ⟨[], by simp [follow], by simp⟩ (fun _ hj => hj)
      (fun _ hj => .inl hj) (fun job hj => ?_) (by simp [told, follow]) hunder
    have hj : (if s.currentJob.isNone then view.reservedForJob else s.reservedForJob) = some job :=
      hj
    split_ifs at hj
    · exact .inr (by simpa [told, hflight] using hj)
    · exact .inl hj
  · unfold bootContainers
    split_ifs
    · exact hread
    · refine h.of_shrink rfl rfl rfl ⟨s.currentJob.toList, rfl, by simp⟩ (fun _ hj => ?_)
        (fun job hj => .inr ?_) (fun _ hj => .inl hj) (by simp [told, done]) hunder
      · cases hj
      · exact List.mem_append_right _ (by simp [hj])
  all_goals exact hread

lemma Sound.pushFailed (h : s.Sound) (n : Note κ) : (s.pushFailed n).Sound := by
  unfold Site.pushFailed
  split
  · exact h.fail
  · exact h.fail
  all_goals exact h

section Steps

variable [DecidableEq κ] {e : SiteEvent κ}

/-- **One step**: what is left of other jobs stays away while a node is held for a job. -/
lemma Sound.step (h : s.Sound) (hok : s.Settled e) (hstep : s.step e = some t) : t.Sound := by
  cases e with
  | tick sec =>
    simp only [Site.step, Option.ite_none_right_eq_some, Option.some.injEq] at hstep
    obtain ⟨-, rfl⟩ := hstep
    exact h.of_shrink rfl rfl rfl ⟨[], by simp, by simp⟩ (fun _ hj => hj) (fun _ hj => .inl hj)
      (fun _ hj => .inl hj) (fun _ hj => hj) fun _ hn => hn
  | admitJob job selected =>
    simp only [Site.step] at hstep
    split at hstep
    · cases hstep
    · rename_i hnew
      split_ifs at hstep with hselected hfree
      · obtain rfl := Option.some.inj hstep
        subst hselected
        exact h.of_select hnew hfree hok
      · obtain rfl := Option.some.inj hstep
        exact h.of_new hnew
  | endJob job status =>
    simp only [Site.step] at hstep
    split at hstep
    · cases hstep
    · rename_i before hbefore
      rw [Option.ite_none_right_eq_some] at hstep
      obtain ⟨hterminal, hstep⟩ := hstep
      obtain rfl := Option.some.inj hstep
      refine h.of_endJob (by simp [hbefore]) ?_
      split_ifs with hkeep
      · exact hkeep.2
      · rintro rfl
        cases hterminal
  | terminate status =>
    simp only [Site.step, Option.ite_none_right_eq_some, Option.some.injEq] at hstep
    obtain ⟨-, rfl⟩ := hstep
    exact h.of_shrink rfl rfl rfl ⟨[], by simp, by simp⟩ (fun _ hj => hj) (fun _ hj => .inl hj)
      (fun _ hj => .inl hj) (fun _ hj => hj) fun _ hn => hn
  | post job =>
    simp only [Site.step, Option.ite_none_left_eq_some, Option.some.injEq] at hstep
    obtain ⟨-, rfl⟩ := hstep
    exact h.of_start hok.1 hok.2
  | refuse =>
    simp only [Site.step] at hstep
    split at hstep
    · cases hstep
    · rename_i job hcur
      rw [Option.ite_none_right_eq_some, Option.some.injEq] at hstep
      obtain ⟨-, rfl⟩ := hstep
      exact h.of_leave (mem_present.2 (.inl hcur)) rfl rfl rfl rfl (fun _ hk => by cases hk)
        (fun k hk => .inr (Option.some.inj (hk.symm.trans hcur))) (fun _ hk => hk) rfl
        fun _ hn => mem_underway_enqueue.1 hn
  | abort =>
    simp only [Site.step] at hstep
    split at hstep
    · cases hstep
    · rename_i job hcur
      rw [Option.ite_none_right_eq_some, Option.some.injEq] at hstep
      obtain ⟨-, rfl⟩ := hstep
      exact h.of_leave (mem_present.2 (.inl hcur)) rfl rfl rfl rfl (fun _ hk => by cases hk)
        (fun k hk => .inr (Option.some.inj (hk.symm.trans hcur))) (fun _ hk => hk) rfl
        fun _ hn => mem_underway_enqueue.1 hn
  | finish =>
    simp only [Site.step] at hstep
    split at hstep
    · cases hstep
    · rename_i job hcur
      obtain rfl := Option.some.inj hstep
      exact h.of_leave (mem_present.2 (.inl hcur)) rfl rfl rfl rfl (fun _ hk => by cases hk)
        (fun k hk => .inr (Option.some.inj (hk.symm.trans hcur))) (fun _ hk => by cases hk) rfl
        fun _ hn => mem_underway_enqueue.1 hn
  | reboot =>
    obtain rfl := Option.some.inj hstep
    exact h.reboot
  | booted =>
    simp only [Site.step, Option.ite_none_right_eq_some, Option.some.injEq] at hstep
    obtain ⟨-, rfl⟩ := hstep
    exact h.of_quiet (n := .booted) rfl rfl rfl rfl rfl rfl rfl fun _ hn => mem_underway_enqueue.1 hn
  | bootFails =>
    simp only [Site.step, Option.ite_none_right_eq_some, Option.some.injEq] at hstep
    obtain ⟨-, rfl⟩ := hstep
    exact h.fail
  | loop =>
    simp only [Site.step, Option.ite_none_left_eq_some, Option.some.injEq] at hstep
    obtain ⟨-, rfl⟩ := hstep
    exact h.of_quiet (n := .loop) rfl rfl rfl rfl rfl rfl rfl fun _ hn => mem_underway_enqueue.1 hn
  | giveUp =>
    simp only [Site.step] at hstep
    split at hstep
    · cases hstep
    · rename_i job hres
      obtain rfl := Option.some.inj hstep
      exact h.of_leave (n := .gaveUp job) (mem_present.2 (.inr (.inl hres))) rfl rfl rfl rfl
        (fun _ hk => hk) (fun _ hk => .inl hk) (fun _ hk => by cases hk) rfl
        fun _ hn => mem_underway_enqueue.1 hn
  | shutDown report =>
    simp only [Site.step] at hstep
    split_ifs at hstep
    · obtain rfl := Option.some.inj hstep
      exact h.of_quiet (n := .deleted) rfl rfl rfl rfl rfl rfl rfl
        fun _ hn => mem_underway_enqueue.1 hn
    · obtain rfl := Option.some.inj hstep
      exact h.of_shrink rfl rfl rfl ⟨[], by simp, by simp⟩ (fun _ hj => hj) (fun _ hj => .inl hj)
        (fun _ hj => .inl hj) (fun _ hj => hj) fun _ hn => hn
  | send =>
    simp only [Site.step] at hstep
    split at hstep
    · rename_i n queue hflight hqueue
      obtain rfl := Option.some.inj hstep
      refine h.of_shrink rfl rfl rfl ⟨[], by simp, by simp⟩ (fun _ hj => hj) (fun _ hj => .inl hj)
        (fun _ hj => .inl hj) (fun job hj => ?_) fun n' hn' => ?_
      · have hnone : told { s with queue, flight := some ⟨n, n.status s.reportedStatus, none⟩ } =
            none := by
          cases n <;> rfl
        rw [hnone] at hj
        cases hj
      · rw [mem_underway] at hn' ⊢
        rw [hqueue]
        rcases hn' with hn' | ⟨f, hf, -, rfl⟩ | hn'
        · exact .inl (List.mem_cons_of_mem _ hn')
        · obtain rfl := Option.some.inj hf
          exact .inl List.mem_cons_self
        · exact .inr (.inr hn')
    · cases hstep
  | reach =>
    simp only [Site.step] at hstep
    split at hstep
    · rename_i n status hflight
      obtain rfl := Option.some.inj hstep
      have hn : n ∈ s.underway := mem_underway.2 (.inr (.inl ⟨_, hflight, rfl, rfl⟩))
      refine h.of_record hn rfl rfl rfl rfl rfl (fun job hj => .inr ?_) fun n' hn' => ?_
      · cases n <;> first
          | exact hj
          | cases hj
      · rw [mem_underway] at hn' ⊢
        rcases hn' with hn' | ⟨f, hf, hview, -⟩ | hn'
        · exact .inl hn'
        · obtain rfl := Option.some.inj hf
          cases hview
        · exact .inr (.inr hn')
    · cases hstep
  | answer =>
    simp only [Site.step] at hstep
    split at hstep
    · rename_i hflight
      obtain rfl := Option.some.inj hstep
      exact h.answered hflight
    · cases hstep
  | lose =>
    simp only [Site.step] at hstep
    split at hstep
    · rename_i n status hflight
      obtain rfl := Option.some.inj hstep
      refine Sound.pushFailed ?_ n
      refine h.of_shrink rfl rfl rfl ⟨[], by simp, by simp⟩ (fun _ hj => hj) (fun _ hj => .inl hj)
        (fun _ hj => .inl hj) (by simp [told]) fun n' hn' => ?_
      rw [mem_underway] at hn' ⊢
      rcases hn' with hn' | ⟨f, hf, -⟩ | ⟨p, hp, rfl⟩
      · exact .inl hn'
      · cases hf
      · rcases List.mem_append.1 hp with hp | hp
        · exact .inr (.inr ⟨p, hp, rfl⟩)
        · obtain rfl := List.mem_singleton.1 hp
          exact .inr (.inl ⟨_, hflight, rfl, rfl⟩)
    · rename_i n _ _ hflight
      obtain rfl := Option.some.inj hstep
      refine Sound.pushFailed ?_ n
      refine h.of_shrink rfl rfl rfl ⟨[], by simp, by simp⟩ (fun _ hj => hj) (fun _ hj => .inl hj)
        (fun _ hj => .inl hj) (by simp [told]) fun n' hn' => ?_
      rw [mem_underway] at hn' ⊢
      rcases hn' with hn' | ⟨f, hf, -⟩ | hn'
      · exact .inl hn'
      · cases hf
      · exact .inr (.inr hn')
    · cases hstep
  | arrive i =>
    simp only [Site.step] at hstep
    split at hstep
    · cases hstep
    · rename_i note status late htake
      obtain rfl := Option.some.inj hstep
      have hn : note ∈ s.underway :=
        mem_underway.2 (.inr (.inr ⟨_, mem_of_takeAt htake, rfl⟩))
      refine h.of_record (n := note) hn rfl rfl rfl rfl rfl (fun job hj => .inl hj) fun n' hn' => ?_
      rw [mem_underway] at hn' ⊢
      refine hn'.imp_right (Or.imp_right ?_)
      rintro ⟨p, hp, rfl⟩
      exact ⟨p, mem_of_mem_rest htake hp, rfl⟩
  | drop i =>
    simp only [Site.step] at hstep
    split at hstep
    · cases hstep
    · rename_i p late htake
      obtain rfl := Option.some.inj hstep
      refine h.of_shrink rfl rfl rfl ⟨[], by simp, by simp⟩ (fun _ hj => hj) (fun _ hj => .inl hj)
        (fun _ hj => .inl hj) (fun _ hj => hj) fun n' hn' => ?_
      rw [mem_underway] at hn' ⊢
      refine hn'.imp_right (Or.imp_right ?_)
      rintro ⟨q, hq, rfl⟩
      exact ⟨q, mem_of_mem_rest htake hq, rfl⟩

lemma sound_invariant : (site κ).Invariant Settled Sound where
  init _ hs := Sound.of_fresh hs
  step _ _ _ h hok hstep := h.step hok hstep

/-! ### Stable and exclusive -/

/-- Steps that touch the head's row. -/
def atHead : SiteEvent κ → Bool
  | .admitJob .. | .endJob .. | .terminate _ | .reach | .arrive _ => true
  | _ => false

/-- The others do not. -/
lemma row_step (hstep : s.step e = some t) (he : atHead e = false) : t.row = s.row := by
  cases e with
  | admitJob _ _ => cases he
  | endJob _ _ => cases he
  | terminate _ => cases he
  | reach => cases he
  | arrive _ => cases he
  | answer =>
    simp only [Site.step] at hstep
    split at hstep
    · obtain rfl := Option.some.inj hstep
      unfold answered
      split
      · rfl
      · unfold bootContainers
        split_ifs <;> rfl
      all_goals rfl
    · cases hstep
  | lose =>
    simp only [Site.step] at hstep
    split at hstep
    · obtain rfl := Option.some.inj hstep
      unfold pushFailed
      split <;> rfl
    · obtain rfl := Option.some.inj hstep
      unfold pushFailed
      split <;> rfl
    · cases hstep
  | _ =>
    simp only [Site.step] at hstep
    (repeat' split at hstep) <;> first
      | (obtain rfl := Option.some.inj hstep; rfl)
      | cases hstep

/-- A node that is held for a job whose part is not over stays held for it, unless the step ends
the job. -/
lemma held_step (h : s.Sound) (hstep : s.step e = some t) {job : κ} (hheld : s.Held job)
    (hover : ¬s.Over job) : t.Held job ∨ t.jobs job ≠ some .running := by
  cases e with
  | admitJob k selected =>
    simp only [Site.step] at hstep
    split at hstep
    · cases hstep
    · split_ifs at hstep with hselected hfree
      · -- a node that is selected is held for nobody
        obtain ⟨-, hcurrent, hreserved, -⟩ := hfree
        rcases hheld with hheld | hheld
        · simp [hreserved] at hheld
        · simp [hcurrent] at hheld
      · obtain rfl := Option.some.inj hstep
        exact .inl hheld
  | endJob k status =>
    simp only [Site.step] at hstep
    split at hstep
    · cases hstep
    · rename_i before hbefore
      rw [Option.ite_none_right_eq_some] at hstep
      obtain ⟨hterminal, hstep⟩ := hstep
      obtain rfl := Option.some.inj hstep
      by_cases hne : job = k
      · subst hne
        right
        simp only [Function.update_self, ne_eq, Option.some.injEq]
        split_ifs with hkeep
        · exact hkeep.2
        · rintro rfl
          cases hterminal
      · left
        rcases hheld with hheld | hheld
        · left
          show (s.row.release k).reservedForJob = some job
          rw [NodeRow.release, if_neg]
          · exact hheld
          · rw [hheld]
            exact fun hk => hne (Option.some.inj hk)
        · exact .inr (by simpa using hheld)
  | terminate status =>
    simp only [Site.step, Option.ite_none_right_eq_some, Option.some.injEq] at hstep
    obtain ⟨-, rfl⟩ := hstep
    exact .inl hheld
  | reach =>
    simp only [Site.step] at hstep
    split at hstep
    · rename_i n status hflight
      obtain rfl := Option.some.inj hstep
      have hn : n ∈ s.underway := mem_underway.2 (.inr (.inl ⟨_, hflight, rfl, rfl⟩))
      exact .inl (held_record h hn hheld hover)
    · cases hstep
  | arrive i =>
    simp only [Site.step] at hstep
    split at hstep
    · cases hstep
    · rename_i note status late htake
      obtain rfl := Option.some.inj hstep
      have hn : note ∈ s.underway := mem_underway.2 (.inr (.inr ⟨_, mem_of_takeAt htake, rfl⟩))
      have hkept : (s.record note status).Held job := held_record h hn hheld hover
      exact .inl hkept
  | _ =>
    left
    rw [Held, row_step hstep rfl]
    exact hheld

/-- A node that is selected for a job is neither held for another one nor at work for one. -/
lemma exclusive_step (h : s.Sound) {job other : κ}
    (hok : s.Settled (.admitJob job true)) (hstep : s.step (.admitJob job true) = some t) :
    ¬s.Held other ∧ s.currentJob ≠ some other := by
  have hfree : s.row.Free s.now := by
    simp only [Site.step] at hstep
    split at hstep
    · cases hstep
    · rw [if_pos trivial, Option.ite_none_right_eq_some] at hstep
      exact hstep.1
  have hheld : ¬s.Held other := by
    obtain ⟨-, hcurrent, hreserved, -⟩ := hfree
    rintro (hheld | hheld)
    · simp [hreserved] at hheld
    · simp [hcurrent] at hheld
  refine ⟨hheld, fun hcur => ?_⟩
  have hmem : other ∈ s.present := mem_present.2 (.inl hcur)
  exact hheld (h.held other hmem (hok other hmem))

/-- **Reservations are stable and exclusive**: a node that the head holds for a RUNNING job, by a
reservation or as its node, stays held for it until the job's assignment there ends, its
reservation there is given up or the job ends; and a node is not selected for a job while it is
held for another RUNNING job or works for one.  This is so in every run in which a node is
selected only when nothing is left there of a job whose part is over, and in which a request
reaches it only while it is reserved for that job. -/
theorem held_exclusively (hr : (site κ).Reachable Settled s) (hok : s.Settled e)
    (hstep : s.step e = some t) :
    (∀ job, s.jobs job = some .running → s.Held job → job ∉ s.overJobs →
      t.Held job ∨ t.jobs job ≠ some .running ∨ job ∈ t.overJobs) ∧
    ∀ job, e = .admitJob job true → ∀ other, s.jobs other = some .running →
      ¬s.Held other ∧ s.currentJob ≠ some other := by
  have h : s.Sound := sound_invariant.reachable hr
  refine ⟨fun job hrunning hheld hover => ?_, ?_⟩
  · have hnot : ¬s.Over job := by
      rintro (hj | hj)
      · exact hj hrunning
      · exact hover hj
    exact (held_step h hstep hheld hnot).imp_right .inl
  · rintro job rfl other -
    exact exclusive_step h hok hstep

/-- A clear that is under way while a node waits for a job takes the reservation away, whosever it
is: that nothing must be left when a node is selected is not asked for in vain. -/
theorem cleared_of_late {i : ℕ} {late : List (Note κ × Option NodeStatus)} {job : κ}
    (hcurrent : s.row.currentJob = none)
    (htake : takeAt s.late i = some ((n, status), late))
    (hclear : (n.fields status).reservedForJob = some none) (hn : n ≠ .start job) :
    ∃ t, s.step (.arrive i) = some t ∧ ¬t.Held job := by
  refine ⟨Site.record { s with late } n status, by simp [Site.step, htake], ?_⟩
  rintro (hheld | hheld)
  · have hheld : (s.record n status).row.reservedForJob = some job := hheld
    rw [reservedForJob_record, hclear] at hheld
    cases hheld
  · rcases currentJob_of_record (s := s) hheld with hheld | hheld
    · simp [hcurrent] at hheld
    · exact hn hheld

end Steps

/-! ### A clear that crosses a reservation -/

section Runs

/-- A node that boots, and a head without jobs. -/
def bootingSite : Site ℕ where
  jobs _ := none
  row :=
    { NodeRow.new with
      status := some .booting }
  now := 100
  running := false
  booting := true
  failed := false
  shuttingDown := false
  currentJob := none
  reservedForJob := none
  reportedStatus := .booting
  queue := []
  flight := none
  late := []
  overJobs := []

lemma fresh_bootingSite : bootingSite.Fresh :=
  ⟨rfl, rfl, rfl, rfl, rfl, rfl, rfl, rfl, fun _ h => by cases h⟩

/-- The node is READY, has been reserved for job 0 and has taken that up. -/
def reservedSteps : List (SiteEvent ℕ) :=
  [.booted, .send, .reach, .answer, .admitJob 0 true, .loop, .send, .reach, .answer]

/-- Job 0 is at work on the node, and the push of its start is about to reach the head. -/
def startSteps : List (SiteEvent ℕ) := reservedSteps ++ [.post 0, .send]

def starting : Site ℕ :=
  (((site ℕ).guarded Settled).exec bootingSite startSteps).get (by decide +kernel)

def started : Site ℕ := (starting.step .reach).get (by decide +kernel)

/-- Job 0 has been canceled, the node gives its reservation up, and before the head hears of it,
it selects the node for job 1. -/
def crossSteps : List (SiteEvent ℕ) :=
  reservedSteps ++ [.endJob 0 .canceled, .giveUp, .send, .admitJob 1 true]

def crossed : Site ℕ :=
  (((site ℕ).guarded System.always).exec bootingSite crossSteps).get (by decide +kernel)

def cleared : Site ℕ := (crossed.step .reach).get (by decide +kernel)

theorem held_exclusively_starting : starting.Held 0 ∧ started.Held 0 ∧ 0 ∉ started.overJobs := by
  have hrun : (site ℕ).Run Settled bootingSite startSteps starting :=
    System.run_of_exec_guarded (Option.some_get _).symm
  have hheld : starting.Held 0 := by decide +kernel
  have hstep : starting.step .reach = some started := (Option.some_get _).symm
  have hnot : ¬(started.jobs 0 ≠ some .running ∨ 0 ∈ started.overJobs) := by decide +kernel
  have hok : starting.Settled .reach := trivial
  have hstable := (held_exclusively ⟨bootingSite, _, fresh_bootingSite, hrun⟩ hok hstep).1 0
    (by decide +kernel) hheld (by decide +kernel)
  exact ⟨hheld, hstable.resolve_right hnot, fun hover => hnot (.inr hover)⟩

/-- The clear that the node sends for an earlier job takes away the reservation of the next. -/
theorem clear_crosses_reservation :
    ¬∀ (s : Site ℕ) (e : SiteEvent ℕ) (t : Site ℕ), (site ℕ).Reachable System.always s →
      s.step e = some t →
        (∀ job, s.jobs job = some .running → s.Held job → job ∉ s.overJobs →
          t.Held job ∨ t.jobs job ≠ some .running ∨ job ∈ t.overJobs) ∧
        ∀ job, e = .admitJob job true → ∀ other, s.jobs other = some .running →
          ¬s.Held other ∧ s.currentJob ≠ some other := by
  intro h
  have hrun : (site ℕ).Run System.always bootingSite crossSteps crossed :=
    System.run_of_exec_guarded (Option.some_get _).symm
  have hstep : crossed.step .reach = some cleared := (Option.some_get _).symm
  have hstable := (h crossed .reach cleared ⟨bootingSite, _, fresh_bootingSite, hrun⟩ hstep).1 1
    (by decide +kernel) (by decide +kernel) (by decide +kernel)
  have hlost : ¬(cleared.Held 1 ∨ cleared.jobs 1 ≠ some .running ∨ 1 ∈ cleared.overJobs) := by
    decide +kernel
  exact hlost hstable

end Runs

end Site

end Burla.Reserve
