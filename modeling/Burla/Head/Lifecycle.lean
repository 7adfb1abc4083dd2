/-
How long the local head lives.

A job that joins a head leaves no trace of it for the others.  The job that started the head
stops it when it ends, whoever has joined; a start stops the head that is recorded when it does
not answer in time, though another process may be starting it; and a dashboard that fails does
not ask for jobs.  On the other side `dashboard.owner` keeps the job that started the head from
stopping it, and the file stays behind when the dashboard is closed while a job is running.

The main results are

* `Machine.head_outlives_users`: in every run in which none of this happens no head is taken from
  a running job, and a head that a job has started is gone when nobody looks after it any more;
* `Machine.owner_stops_joined_head`: a job that ends stops the head of another one;
* `Machine.closed_dashboard_leaves_head`: a head that everybody has left and that still runs.
-/
import Burla.Head.Care

namespace Burla.Head

namespace Phase

/-- The url that the call commits a job to with its next access. -/
def commitsTo : Phase → Option ℕ
  | .probing .job (some f) => some f.url
  | .returned .job url => some url
  | _ => none

/-- The recorded head that a start is about to find silent. -/
def supplants : Phase → Option ℕ
  | .found _ read => recordedPid read
  | _ => none

/-- What the call is about to write to `head.json`. -/
def writes : Phase → Option HeadState
  | .spawned _ f | .answered _ f | .running _ (some f) => some f
  | .clearing pid f _ => some (f.clear pid)
  | _ => none

/-- What the dashboard is about to write to `dashboard.owner`. -/
def restores : Phase → Option (Option ℕ)
  | .stopping _ (.dashboard previous) | .clearing _ _ (.dashboard previous) => previous
  | _ => none

end Phase

/-- The step does nothing to a head. -/
def MachineEvent.onFiles : MachineEvent → Bool
  | .serve _ | .exit _ | .terminate _ | .spawn _ _ | .admitJob _ | .completeJob _ | .shutdown _ _
  | .interrupt _ _ => false
  | _ => true

namespace Machine

variable {s t : Machine} {i pid url : ℕ} {ph ph' : Phase}

/-! ### The condition -/

/-- No other job runs at the url. -/
def FreeUrl (s : Machine) (i url : ℕ) : Prop := ∀ o ∈ s.others i, o.jobUrl ≠ some url

instance (s : Machine) (i url : ℕ) : Decidable (s.FreeUrl i url) :=
  inferInstanceAs (Decidable (∀ o ∈ s.others i, o.jobUrl ≠ some url))

/-- The head is dead, or no other job runs at its url. -/
def Free (s : Machine) (i pid : ℕ) : Prop := ∀ url ∈ s.alivePort pid, s.FreeUrl i url

instance (s : Machine) (i pid : ℕ) : Decidable (s.Free i pid) :=
  inferInstanceAs (Decidable (∀ url ∈ s.alivePort pid, s.FreeUrl i url))

/-- No other call has decided to stop the head at the url. -/
def Unthreatened (s : Machine) (i url : ℕ) : Prop := ∀ o ∈ s.others i, ¬ s.Threatens o url

instance (s : Machine) (i url : ℕ) : Decidable (s.Unthreatened i url) :=
  inferInstanceAs (Decidable (∀ o ∈ s.others i, ¬ s.Threatens o url))

/-- To write this to `head.json` drops no head that is alive. -/
def Keeps (s : Machine) (f : HeadState) : Prop :=
  ∀ p ∈ recordedPid s.file, s.Alive p → f.headPid = some p

instance (s : Machine) (f : HeadState) : Decidable (s.Keeps f) :=
  inferInstanceAs (Decidable (∀ p ∈ recordedPid s.file, s.Alive p → f.headPid = some p))

/-- `dashboard.owner` may name this head: it is dead, or another dashboard has claimed it. -/
def Claimed (s : Machine) (i : ℕ) (owner : Option ℕ) : Prop :=
  ∀ p ∈ owner, s.Alive p → ∃ o ∈ s.others i, o.claims = some p

instance (s : Machine) (i : ℕ) (owner : Option ℕ) : Decidable (s.Claimed i owner) :=
  inferInstanceAs (Decidable (∀ p ∈ owner, s.Alive p → ∃ o ∈ s.others i, o.claims = some p))

/-- The head is dead, or another call looks after it. -/
def Relieved (s : Machine) (i pid : ℕ) : Prop :=
  s.Alive pid → ∃ o ∈ s.others i, o.keeps = some pid

instance (s : Machine) (i pid : ℕ) : Decidable (s.Relieved i pid) :=
  inferInstanceAs (Decidable (s.Alive pid → ∃ o ∈ s.others i, o.keeps = some pid))

/-- A dashboard that fails leaves the head, or stops it. -/
def MayAbandon (s : Machine) (i : ℕ) : Option ℕ × Option ℕ × Option ℕ → Prop
  | ⟨pid, initial, previous⟩ =>
    (pid = none ∨ pid = initial → s.Claimed i previous) ∧
      ∀ p ∈ pid, if some p = initial then s.Relieved i p else s.Free i p

instance (s : Machine) (i : ℕ) (m : Option ℕ × Option ℕ × Option ℕ) :
    Decidable (s.MayAbandon i m) :=
  match m with
  | ⟨pid, initial, previous⟩ => inferInstanceAs (Decidable
      ((pid = none ∨ pid = initial → s.Claimed i previous) ∧
        ∀ p ∈ pid, if some p = initial then s.Relieved i p else s.Free i p))

/-- A dashboard that is closed stops the head, or leaves it running. -/
def MayInterrupt (s : Machine) (i pid : ℕ) : Pause → Prop
  | .paused => s.Free i pid
  | .refused | .lost _ => s.Relieved i pid ∧ (s.owner = some pid → s.Claimed i (some pid))

instance (s : Machine) (i pid : ℕ) (outcome : Pause) : Decidable (s.MayInterrupt i pid outcome) :=
  match outcome with
  | .paused => inferInstanceAs (Decidable (s.Free i pid))
  | .refused | .lost _ => inferInstanceAs (Decidable (_ ∧ _))

/-- A call decides to stop a head only when no other job runs on it, and no job commits to a head
that a call has decided to stop; no write of `head.json` drops a head that is alive; and a
dashboard lets go of a head only when somebody else looks after it. -/
def Calm (s : Machine) : MachineEvent → Prop
  | .answer i true _ | .claim i => ∀ ph ∈ s.procs[i]?, ∀ url ∈ ph.commitsTo, s.Unthreatened i url
  | .answer i false _ => ∀ ph ∈ s.procs[i]?, ∀ p ∈ ph.supplants, s.Free i p
  | .release i => ∀ ph ∈ s.procs[i]?, ∀ p ∈ ph.owns, s.owner ≠ some p →
      recordedPid s.file = some p → s.Free i p ∧ ∀ url ∈ ph.jobUrl, s.FreeUrl i url
  | .record i | .respawnFrpc i => ∀ ph ∈ s.procs[i]?, ∀ f ∈ ph.writes, s.Keeps f
  | .write i => ∀ ph ∈ s.procs[i]?, (∀ f ∈ ph.writes, s.Keeps f) ∧
      ∀ previous ∈ ph.restores, s.Claimed i previous
  | .stopRecordedHead i => ∀ ph ∈ s.procs[i]?, ph.target ≠ recordedPid s.file →
      ∀ previous ∈ ph.restores, s.Claimed i previous
  | .fail i => ∀ ph ∈ s.procs[i]?, ∀ m ∈ failing s.file ph, s.MayAbandon i m
  | .interrupt i outcome => ∀ ph ∈ s.procs[i]?, ∀ p ∈ ph.claims, s.MayInterrupt i p outcome
  | _ => True

instance (s : Machine) (e : MachineEvent) : Decidable (s.Calm e) :=
  match e with
  | .answer i true _ | .claim i => inferInstanceAs (Decidable
      (∀ ph ∈ s.procs[i]?, ∀ url ∈ ph.commitsTo, s.Unthreatened i url))
  | .answer i false _ => inferInstanceAs (Decidable
      (∀ ph ∈ s.procs[i]?, ∀ p ∈ ph.supplants, s.Free i p))
  | .release i => inferInstanceAs (Decidable (∀ ph ∈ s.procs[i]?, ∀ p ∈ ph.owns,
      s.owner ≠ some p → recordedPid s.file = some p →
        s.Free i p ∧ ∀ url ∈ ph.jobUrl, s.FreeUrl i url))
  | .record i | .respawnFrpc i => inferInstanceAs (Decidable
      (∀ ph ∈ s.procs[i]?, ∀ f ∈ ph.writes, s.Keeps f))
  | .write i => inferInstanceAs (Decidable (∀ ph ∈ s.procs[i]?, (∀ f ∈ ph.writes, s.Keeps f) ∧
      ∀ previous ∈ ph.restores, s.Claimed i previous))
  | .stopRecordedHead i => inferInstanceAs (Decidable (∀ ph ∈ s.procs[i]?,
      ph.target ≠ recordedPid s.file → ∀ previous ∈ ph.restores, s.Claimed i previous))
  | .fail i => inferInstanceAs (Decidable
      (∀ ph ∈ s.procs[i]?, ∀ m ∈ failing s.file ph, s.MayAbandon i m))
  | .interrupt i outcome => inferInstanceAs (Decidable
      (∀ ph ∈ s.procs[i]?, ∀ p ∈ ph.claims, s.MayInterrupt i p outcome))
  | .serve _ | .exit _ | .startJob _ | .lookUp _ | .openDashboard _ | .read _ | .terminate _
  | .spawn _ _ | .joinPinned _ _ | .admitJob _ | .completeJob _ | .shutdown _ _ | .clear _
  | .headExited _ | .leave _ | .die _ => .isTrue trivial

/-! ### The search for a head -/

lemma Sound.runningHeadUrl {c : Caller} (hc : c = .job ∨ c = .lookup) (h : s.Sound)
    (hstep : s.runningHeadUrl i c = some t) : t.Sound := by
  unfold Machine.runningHeadUrl at hstep
  split_ifs at hstep with hidle
  obtain rfl := Option.some.inj hstep
  rcases hc with rfl | rfl <;>
  · refine h.pass hidle rfl (.refl s) rfl rfl ⟨rfl, rfl, rfl, rfl⟩ (fun p hp => Or.inr ?_)
      ⟨rfl, rfl⟩ rfl
    simpa [Phase.pids, Caller.pids] using hp

lemma Sound.answer {ok respawn : Bool} (h : s.Sound) (hcalm : s.Calm (.answer i ok respawn))
    (hstep : s.answer i ok respawn = some t) : t.Sound := by
  unfold Machine.answer at hstep
  obtain ⟨ph, hph, hanswer⟩ := Option.bind_eq_some_iff.1 hstep
  clear hstep
  cases ok with
  | true =>
    rw [if_pos rfl] at hanswer
    obtain ⟨f, hasks, hanswered⟩ := Option.bind_eq_some_iff.1 hanswer
    clear hanswer
    split_ifs at hanswered with hmatches
    obtain ⟨ph', hafter, rfl⟩ := Option.map_eq_some_iff.1 hanswered
    clear hanswered
    have hfile : ∀ p, f.headPid = some p → p ∈ ph.pids := by
      intro p hp
      cases ph <;> simp_all [asks, Phase.pids, recordedPid]
    unfold afterAnswer at hafter
    split at hafter
    · next read =>
      -- the job has its handle now
      obtain rfl : read = some f := hasks
      obtain rfl := Option.some.inj hafter
      refine h.move hph rfl (.refl s) rfl rfl ⟨rfl, rfl, rfl, rfl⟩ (fun p hp => Or.inl ?_) ?_ ?_
      · cases respawn <;> simp_all [Phase.pids, recordedPid]
      · exact threat_none ⟨rfl, rfl⟩
      · intro url hurl
        exact Or.inr (hcalm _ hph url hurl)
    · obtain rfl := Option.some.inj hafter
      cases respawn
      · exact h.pass hph rfl (.refl s) rfl rfl ⟨rfl, rfl, rfl, rfl⟩
          (fun p hp => by simp [Phase.pids] at hp) ⟨rfl, rfl⟩ rfl
      · refine h.pass hph rfl (.refl s) rfl rfl ⟨rfl, rfl, rfl, rfl⟩ (fun p hp => Or.inl ?_)
          ⟨rfl, rfl⟩ rfl
        exact hfile p (by simpa [Phase.pids, Caller.pids] using hp)
    · next c read =>
      obtain rfl := Option.some.inj hafter
      cases respawn
      · refine h.pass hph rfl (.refl s) rfl rfl ⟨rfl, rfl, rfl, rfl⟩ (fun p hp => Or.inl ?_)
          ⟨rfl, rfl⟩ rfl
        exact List.mem_append_left _ hp
      · refine h.pass hph rfl (.refl s) rfl rfl ⟨rfl, rfl, rfl, rfl⟩ (fun p hp => Or.inl ?_)
          ⟨rfl, rfl⟩ rfl
        rcases List.mem_append.1 hp with hp | hp
        · exact List.mem_append_left _ hp
        · exact hfile p (by simpa using hp)
    · next c file =>
      obtain rfl := Option.some.inj hafter
      obtain rfl : file = f := Option.some.inj hasks
      exact h.pass hph rfl (.refl s) rfl rfl ⟨rfl, rfl, rfl, rfl⟩ (fun p hp => Or.inl hp)
        ⟨rfl, rfl⟩ rfl
    · simp at hafter
  | false =>
    rw [if_neg Bool.false_ne_true] at hanswer
    obtain ⟨ph', hafter, rfl⟩ := Option.map_eq_some_iff.1 hanswer
    clear hanswer
    unfold afterSilence at hafter
    split at hafter
    · obtain rfl := Option.some.inj hafter
      exact h.pass hph rfl (.refl s) rfl rfl ⟨rfl, rfl, rfl, rfl⟩
        (fun p hp => Or.inl (List.mem_append_left _ hp)) ⟨rfl, rfl⟩ rfl
    · next c read =>
      -- the start has decided to replace the head that it has read about
      obtain rfl := Option.some.inj hafter
      refine h.move hph rfl (.refl s) rfl rfl ⟨rfl, rfl, rfl, rfl⟩ (fun p hp => Or.inl hp) ?_ ?_
      · rintro url (⟨p, hp, hport⟩ | hshut)
        · exact hcalm _ hph p hp url hport
        · simp [Phase.shutUrl] at hshut
      · exact commit_none rfl
    · simp at hafter

lemma Sound.read (h : s.Sound) (hstep : s.read i = some t) : t.Sound := by
  unfold Machine.read at hstep
  split at hstep
  · next c hph =>
    obtain rfl := Option.some.inj hstep
    refine h.pass hph rfl (.refl s) rfl rfl ⟨rfl, rfl, rfl, rfl⟩ (fun p hp => ?_) ⟨rfl, rfl⟩ rfl
    rcases List.mem_append.1 hp with hp | hp
    · exact Or.inl hp
    · exact Or.inr (by simpa using hp)
  · simp at hstep

lemma Sound.spawn {port : ℕ} (h : s.Sound) (hstep : s.spawn i port = some t) : t.Sound := by
  unfold Machine.spawn at hstep
  split at hstep
  · next c hph =>
    obtain rfl := Option.some.inj hstep
    refine h.writes hph rfl (Outlasts.append rfl) rfl ⟨rfl, rfl, rfl, rfl⟩ (fun p hp => ?_)
      (fun p hp => ?_) ?_ ?_ fun p hp _ => hp
    · rcases List.mem_append.1 hp with hp | hp
      · have hlt := h.pid_lt hph (Or.inl hp)
        simp only [put, List.length_append]
        omega
      · obtain rfl : p = s.services.length := by simpa using hp
        simp [put]
    · have hlt := h.known.file p hp
      simp only [put, List.length_append]
      omega
    · exact threat_none ⟨rfl, rfl⟩
    · exact commit_none rfl
  · simp at hstep

/-- A call writes what it knows of `head.json`. -/
lemma Sound.write_file {f : HeadState} (h : s.Sound) (hph : s.procs[i]? = some ph)
    (hkeeps : s.Keeps f) (hcare : ph.SameCare ph')
    (hpids : ∀ p ∈ ph'.pids, p ∈ ph.pids) (hfile : ∀ p, f.headPid = some p → p ∈ ph.pids)
    (htarget : ph'.target = none ∧ ph'.shutUrl = none)
    (hjob : ph'.jobUrl = none ∨ ph'.jobUrl = ph.jobUrl) :
    ({ s with file := some f }.put i ph').Sound := by
  refine h.writes hph rfl (.refl s) rfl hcare (fun p hp => h.pid_lt hph (Or.inl (hpids p hp)))
    (fun p hp => h.pid_lt hph (Or.inl (hfile p hp))) ?_ ?_ hkeeps
  · exact threat_none htarget
  · intro url hurl
    rcases hjob with hjob | hjob
    · simp [hjob] at hurl
    · exact Or.inl (hjob ▸ hurl)

lemma Sound.record (h : s.Sound) (hcalm : s.Calm (.record i)) (hstep : s.record i = some t) :
    t.Sound := by
  unfold Machine.record at hstep
  split at hstep
  · next c f hph =>
    obtain rfl := Option.some.inj hstep
    exact h.write_file hph (hcalm _ hph f rfl) ⟨rfl, rfl, rfl, rfl⟩ (fun _ hp => hp)
      (fun p hp => List.mem_append_right _ (by simp [hp])) ⟨rfl, rfl⟩ (Or.inl rfl)
  · simp at hstep

lemma Sound.respawnFrpc (h : s.Sound) (hcalm : s.Calm (.respawnFrpc i))
    (hstep : s.respawnFrpc i = some t) : t.Sound := by
  unfold Machine.respawnFrpc at hstep
  split at hstep
  · next c f hph =>
    obtain rfl := Option.some.inj hstep
    exact h.write_file hph (hcalm _ hph f rfl) ⟨rfl, rfl, rfl, rfl⟩
      (fun _ hp => List.mem_append_left _ hp)
      (fun p hp => List.mem_append_right _ (by simp [hp])) ⟨rfl, rfl⟩ (Or.inl rfl)
  · next hd f hph =>
    obtain rfl := Option.some.inj hstep
    refine h.write_file hph (hcalm _ hph f rfl) ⟨rfl, rfl, rfl, rfl⟩ (fun p hp => ?_)
      (fun p hp => List.mem_append_right _ (by simp [recordedPid, hp])) ⟨rfl, rfl⟩ (Or.inr rfl)
    exact List.mem_append_left _ (by simpa [Phase.pids, recordedPid] using hp)
  · simp at hstep

/-- What is written down by a job or a dashboard that goes by the recorded head. -/
lemma Sound.claim (h : s.Sound) (hcalm : s.Calm (.claim i)) (hstep : s.claim i = some t) :
    t.Sound := by
  unfold Machine.claim at hstep
  split at hstep
  · next url hph =>
    obtain ⟨pid, hpid, rfl⟩ := Option.map_eq_some_iff.1 hstep
    refine h.change ⟨hph, rfl, .refl s, fun p hp => ?_, h.known.file, h.known.owner, ?_, ?_,
      fun p hp _ => hp, fun p hp _ => Or.inr ?_, fun p hp => Or.inr hp, fun p hp ht => ?_, ?_⟩
    · obtain rfl : p = pid := by simpa [Phase.pids, recordedPid] using hp
      exact h.known.file p hpid
    · exact threat_none ⟨rfl, rfl⟩
    · intro url' hurl
      obtain rfl : url = url' := Option.some.inj hurl
      exact Or.inr (hcalm _ hph url rfl)
    · obtain rfl : pid = p := Option.some.inj hp
      exact hpid
    · exact Or.inr (h.claimed_elsewhere hph rfl hp ht)
    · intro p hp _
      simp [Phase.keeps, Phase.caller, Caller.claims] at hp
  · next url hph =>
    obtain rfl := Option.some.inj hstep
    exact h.pass hph rfl (.refl s) rfl rfl ⟨rfl, rfl, rfl, rfl⟩
      (fun p hp => by simp [Phase.pids] at hp) ⟨rfl, rfl⟩ rfl
  · next initial previous url hph =>
    split_ifs at hstep with hlock
    obtain ⟨pid, hpid, rfl⟩ := Option.map_eq_some_iff.1 hstep
    have hlt : pid < s.services.length := h.known.file pid hpid
    refine h.change ⟨hph, rfl, .refl s, fun p hp => ?_, h.known.file, fun p hp => ?_, ?_, ?_,
      fun p hp _ => hp, fun p hp _ => Or.inr ?_, ?_, fun p hp _ => Or.inl hp, fun p hp _ => ?_⟩
    · rcases List.mem_cons.1 hp with rfl | hp
      · exact hlt
      · exact h.pid_lt hph (Or.inl hp)
    · obtain rfl : pid = p := Option.some.inj hp
      exact hlt
    · exact threat_none ⟨rfl, rfl⟩
    · exact commit_none rfl
    · obtain rfl : pid = p := Option.some.inj hp
      exact hpid
    · intro p hp
      simp [Phase.owns] at hp
    · -- the head that was claimed first is let go of, unless it is the one that is recorded
      by_cases heq : p = pid
      · exact Or.inl (heq ▸ rfl)
      · refine Or.inr (Or.inr fun hfile => heq ?_)
        exact Option.some.inj (hfile.symm.trans hpid)
  · simp at hstep

/-! ### Jobs -/

/-- A call ends. -/
lemma Sound.done (h : s.Sound) (hph : s.procs[i]? = some ph)
    (hprocs : t.procs = s.procs.set i ph') (houtlasts : s.Outlasts t)
    (hend : ph' = .left ∨ ∃ p, ph' = .ended (some p) ∧ ph.owns = some p)
    (hfilePid : ∀ p, recordedPid t.file = some p → p < s.services.length)
    (hownerPid : ∀ p, t.owner = some p → p < s.services.length)
    (hfile : ∀ p, recordedPid s.file = some p → s.Alive p → recordedPid t.file = some p)
    (howner : ∀ p, t.owner = some p → s.Alive p → ∃ o ∈ s.others i, o.claims = some p)
    (hkeeps : ∀ p, ph.keeps = some p → s.Alive p →
      (∃ o ∈ s.others i, o.keeps = some p) ∨ recordedPid s.file ≠ some p) : t.Sound := by
  have hphase : (∀ p ∈ ph'.pids, ph.owns = some p) ∧ (∀ p, ph'.has = some p → ph.has = some p) ∧
      (∀ p, ph'.owns = some p → ph.owns = some p) ∧
      ph'.target = none ∧ ph'.shutUrl = none ∧ ph'.jobUrl = none := by
    rcases hend with rfl | ⟨pid, rfl, howns⟩
    · refine ⟨fun p hp => by simp [Phase.pids] at hp, fun p hp => ?_, fun p hp => ?_, rfl, rfl, rfl⟩
      · simp [Phase.has, Phase.caller] at hp
      · simp [Phase.owns] at hp
    · refine ⟨fun p hp => ?_, fun p hp => ?_, fun p hp => ?_, rfl, rfl, rfl⟩
      · obtain rfl : p = pid := by simpa [Phase.pids] using hp
        exact howns
      · obtain rfl : pid = p := Option.some.inj hp
        exact Phase.has_of_owns howns
      · obtain rfl : pid = p := Option.some.inj hp
        exact howns
  obtain ⟨hpids, hhas, howns, htarget, hshut, hjob⟩ := hphase
  have hlt : ∀ {p}, p < s.services.length → p < t.services.length := fun hp =>
    Nat.lt_of_lt_of_le hp houtlasts.1
  have hown : ∀ p ∈ ph'.pids, p < s.services.length := fun p hp =>
    h.pid_lt hph (Or.inl (Phase.mem_pids_of_has (Phase.has_of_owns (hpids p hp))))
  refine h.change ⟨hph, hprocs, houtlasts, fun p hp => hlt (hown p hp),
    fun p hp => hlt (hfilePid p hp), fun p hp => hlt (hownerPid p hp), ?_, ?_,
    fun p hp ht => hfile p hp (houtlasts.alive (h.known.file p hp) ht),
    fun p hp _ => Or.inl (hhas p hp), fun p hp => Or.inl (howns p hp),
    fun p hp ht => Or.inr (howner p hp (houtlasts.alive (hownerPid p hp) ht)), fun p hp ht => ?_⟩
  · exact threat_none ⟨htarget, hshut⟩
  · exact commit_none hjob
  · have hpid : p < s.services.length := h.pid_lt hph (Or.inl (Phase.mem_pids_of_keeps hp))
    exact Or.inr (hkeeps p hp (houtlasts.alive hpid ht))

lemma Sound.joinPinned {k : ℕ} (h : s.Sound) (hstep : s.joinPinned i k = some t) : t.Sound := by
  unfold Machine.joinPinned at hstep
  split at hstep
  · next hd respawn hidle hjob =>
    obtain rfl := Option.some.inj hstep
    refine h.move hidle rfl (.refl s) rfl rfl ⟨rfl, rfl, rfl, rfl⟩
      (fun p hp => by simp [Phase.pids, recordedPid] at hp) ?_ ?_
    · exact threat_none ⟨rfl, rfl⟩
    · -- a job runs at the url already
      rintro url hurl
      refine Or.inr fun o ho hthreat => ?_
      exact h.threats o ((mem_procs hidle).2 (Or.inr ho)) url hthreat _
        (List.mem_of_getElem? hjob) hurl
  · simp at hstep

lemma Sound.release (h : s.Sound) (hcalm : s.Calm (.release i)) (hstep : s.release i = some t) :
    t.Sound := by
  unfold Machine.release at hstep
  split at hstep
  · next url hph =>
    obtain rfl := Option.some.inj hstep
    exact h.pass hph rfl (.refl s) rfl rfl ⟨rfl, rfl, rfl, rfl⟩
      (fun p hp => by simp [Phase.pids] at hp) ⟨rfl, rfl⟩ rfl
  · next url pid hph =>
    split_ifs at hstep with hlock hskip
    · obtain rfl := Option.some.inj hstep
      refine h.done hph rfl (.refl s) (Or.inr ⟨pid, rfl, rfl⟩) h.known.file h.known.owner
        (fun p hp _ => hp) (fun p hp halive => ?_) fun p hp halive => ?_
      · exact h.claimed_elsewhere hph rfl hp halive
      · obtain rfl : pid = p := Option.some.inj hp
        rcases hskip with howner | hfile
        · -- a dashboard has claimed the head
          obtain ⟨o, ho, hclaims⟩ := h.claimed_elsewhere hph rfl howner halive
          exact Or.inl ⟨o, ho, Phase.keeps_of_claims hclaims⟩
        · exact Or.inr hfile
    · obtain rfl := Option.some.inj hstep
      obtain ⟨howner, hfile⟩ := not_or.1 hskip
      obtain ⟨hfree, hurl⟩ := hcalm _ hph pid rfl howner (not_not.1 hfile)
      refine h.move hph rfl (.refl s) rfl rfl ⟨rfl, rfl, rfl, rfl⟩ (fun p hp => Or.inl ?_) ?_ ?_
      · obtain rfl : p = pid := by simpa [Phase.pids] using hp
        simp [Phase.pids]
      · rintro url' (⟨p, hp, hport⟩ | hshut)
        · obtain rfl : pid = p := Option.some.inj hp
          exact hfree url' hport
        · exact hurl url' hshut
      · exact commit_none rfl
  · simp at hstep

lemma Sound.shutdown {landed : Bool} (h : s.Sound) (hstep : s.shutdown i landed = some t) :
    t.Sound := by
  unfold Machine.shutdown at hstep
  split at hstep
  · next hd pid hph =>
    have houtlasts : s.Outlasts t ∧ t.procs = s.procs.set i (.stopping pid .job) ∧
        t.file = s.file ∧ t.owner = s.owner := by
      obtain rfl := Option.some.inj hstep
      cases landed
      · exact ⟨.refl s, rfl, rfl, rfl⟩
      · exact ⟨outlasts_request (s := s) _ fun _ => ⟨rfl, rfl⟩, rfl, rfl, rfl⟩
    obtain ⟨houtlasts, hprocs, hfile, howner⟩ := houtlasts
    refine h.move hph hprocs houtlasts hfile howner ⟨rfl, rfl, rfl, rfl⟩
      (fun p hp => Or.inl (by simpa [Phase.pids, Stopper.pids] using hp)) ?_ ?_
    · rintro url (hthreat | hshut)
      · exact h.free hph (Or.inl hthreat)
      · simp [Phase.shutUrl] at hshut
    · exact commit_none rfl
  · simp at hstep

/-! ### Heads that are stopped -/

lemma Sound.finish {pid : ℕ} {w : Stopper} {file : Option HeadState} (h : s.Sound)
    (hph : s.procs[i]? = some ph) (howns : w = .job → ph.owns = some pid)
    (hpids : ∀ p ∈ w.pids, p ∈ ph.pids)
    (hfilePid : ∀ p, recordedPid file = some p → p < s.services.length)
    (hfile : ∀ p, recordedPid s.file = some p → s.Alive p → recordedPid file = some p)
    (hrestore : ∀ previous, w = .dashboard (some previous) → s.Claimed i previous)
    (hkeeps : ∀ p, ph.keeps = some p → recordedPid s.file ≠ some p) :
    ({ s with file := file }.finish i pid w).Sound := by
  have hkept : ∀ p, ph.keeps = some p → s.Alive p →
      (∃ o ∈ s.others i, o.keeps = some p) ∨ recordedPid s.file ≠ some p := fun p hp _ =>
    Or.inr (hkeeps p hp)
  -- what this dashboard has claimed and is not recorded is dead
  have howner : ∀ p, s.owner = some p → s.Alive p → ∃ o ∈ s.others i, o.claims = some p := by
    intro p hp halive
    refine (h.claimed_or hph hp halive).resolve_left fun hclaims => ?_
    exact hkeeps p (Phase.keeps_of_claims hclaims)
      (h.recorded ph (List.mem_of_getElem? hph) p (Phase.has_of_claims hclaims) halive)
  cases w with
  | job =>
    exact h.done hph rfl (.refl s) (Or.inr ⟨pid, rfl, howns rfl⟩) hfilePid h.known.owner hfile
      howner hkept
  | dashboard restore =>
    cases restore with
    | none => exact h.done hph rfl (.refl s) (Or.inl rfl) hfilePid h.known.owner hfile howner hkept
    | some previous =>
      refine h.done hph rfl (.refl s) (Or.inl rfl) hfilePid (fun p hp => ?_) hfile
        (fun p hp => hrestore previous rfl p hp) hkept
      have hprevious : previous = some p := hp
      exact h.pid_lt hph (Or.inl (hpids p (by simp [Stopper.pids, hprevious])))

lemma Sound.stopRecordedHead (h : s.Sound) (hcalm : s.Calm (.stopRecordedHead i))
    (hstep : s.stopRecordedHead i = some t) : t.Sound := by
  unfold Machine.stopRecordedHead at hstep
  split at hstep
  · next pid w hph =>
    obtain rfl := Option.some.inj hstep
    split_ifs with hfile
    · refine h.move hph rfl (.refl s) rfl rfl ?_ (fun p hp => Or.inl hp)
        (fun url hthreat => h.free hph hthreat) ?_
      · cases w <;> exact ⟨rfl, rfl, rfl, rfl⟩
      · exact commit_none rfl
    · show ({ s with file := s.file }.finish i pid w).Sound
      refine h.finish hph ?_ (fun p hp => List.mem_cons_of_mem _ hp) h.known.file
        (fun p hp _ => hp) ?_ ?_
      · rintro rfl
        rfl
      · rintro previous rfl
        exact hcalm _ hph (fun heq => hfile heq.symm) previous rfl
      · intro p hp
        obtain rfl : pid = p := Option.some.inj hp
        exact hfile
  · simp at hstep

lemma Sound.terminate (h : s.Sound) (hstep : s.terminate i = some t) : t.Sound := by
  unfold Machine.terminate at hstep
  split at hstep
  · next c read hph =>
    obtain rfl := Option.some.inj hstep
    have hsame : ∀ pid, (s.terminatePid pid).procs = s.procs ∧
        (s.terminatePid pid).file = s.file ∧ (s.terminatePid pid).owner = s.owner := by
      intro pid
      cases pid <;> exact ⟨rfl, rfl, rfl⟩
    obtain ⟨hprocs, hfile, howner⟩ := hsame (recordedPid read)
    have hafter : (s.terminatePid (recordedPid read)).procs.set i (.vacant c) =
        s.procs.set i (.vacant c) := by rw [hprocs]
    exact h.pass hph hafter (outlasts_terminatePid s _) hfile howner ⟨rfl, rfl, rfl, rfl⟩
      (fun p hp => Or.inl (List.mem_append_left _ hp)) ⟨rfl, rfl⟩ rfl
  · next pid w hph =>
    obtain rfl := Option.some.inj hstep
    have hgone : ¬ (s.terminatePid (some pid)).Alive pid := not_alive_terminatePid s pid
    have hlt : ∀ {p}, p < s.services.length → p < (s.terminatePid (some pid)).services.length :=
      fun hp => Nat.lt_of_lt_of_le hp (outlasts_terminatePid s _).1
    refine h.change ⟨hph, rfl, outlasts_terminatePid s _, fun p hp => hlt (h.pid_lt hph (Or.inl hp)),
      fun p hp => hlt (h.known.file p hp), fun p hp => hlt (h.known.owner p hp), ?_, ?_,
      fun p hp _ => hp, fun p hp _ => Or.inl hp, fun p hp => Or.inl ?_, fun p hp ht => ?_,
      fun p hp ht => ?_⟩
    · exact threat_none ⟨rfl, rfl⟩
    · exact commit_none rfl
    · cases w <;> exact hp
    · have halive := (outlasts_terminatePid s _).alive (h.known.owner p hp) ht
      refine Or.inr ((h.claimed_or hph hp halive).resolve_left fun hclaims => ?_)
      obtain rfl : pid = p := Option.some.inj (Phase.has_of_claims hclaims)
      exact hgone ht
    · obtain rfl : pid = p := Option.some.inj hp
      exact absurd ht hgone
  · simp at hstep

lemma Sound.clear (h : s.Sound) (hstep : s.clear i = some t) : t.Sound := by
  unfold Machine.clear at hstep
  split at hstep
  · next pid w f hph hfile =>
    obtain rfl := Option.some.inj hstep
    refine h.pass hph rfl (.refl s) rfl rfl ?_ (fun p hp => ?_) ⟨rfl, rfl⟩ rfl
    · cases w <;> exact ⟨rfl, rfl, rfl, rfl⟩
    · simp only [Phase.pids, List.mem_cons, List.mem_append, Option.mem_toList] at hp ⊢
      rcases hp with hp | hp | hp
      · exact Or.inl (Or.inl hp)
      · exact Or.inr (by simpa [recordedPid, hfile] using hp)
      · exact Or.inl (Or.inr hp)
  · simp at hstep

lemma Sound.write (h : s.Sound) (hcalm : s.Calm (.write i)) (hstep : s.write i = some t) :
    t.Sound := by
  unfold Machine.write at hstep
  split at hstep
  · next pid f w hph =>
    obtain rfl := Option.some.inj hstep
    obtain ⟨hkeeps, hrestore⟩ := hcalm _ hph
    refine h.finish hph ?_ (fun p hp => ?_) (fun p hp => ?_) (hkeeps _ rfl) ?_ ?_
    · rintro rfl
      rfl
    · exact List.mem_cons_of_mem _ (List.mem_append_right _ hp)
    · refine h.pid_lt hph (Or.inl (List.mem_cons_of_mem _ (List.mem_append_left _ ?_)))
      simp only [recordedPid, Option.bind_some, HeadState.clear] at hp
      split_ifs at hp
      · simpa using hp
    · rintro previous rfl
      exact hrestore previous rfl
    · intro p hp
      simp [Phase.keeps, Phase.caller] at hp
  · simp at hstep

/-! ### Dashboards -/

lemma Sound.openDashboard (h : s.Sound) (hstep : s.openDashboard i = some t) : t.Sound := by
  unfold Machine.openDashboard at hstep
  split_ifs at hstep with hidle
  obtain rfl := Option.some.inj hstep
  obtain ⟨hph, -⟩ := hidle
  have hor : ∀ p, (recordedPid s.file).or s.owner = some p →
      recordedPid s.file = some p ∨ s.owner = some p := by
    intro p hp
    cases hfile : recordedPid s.file with
    | none => exact Or.inr (by simpa [hfile] using hp)
    | some q => exact Or.inl (by simpa [hfile] using hp)
  have hlt : ∀ p, recordedPid s.file = some p ∨ s.owner = some p → p < s.services.length :=
    fun p hp => h.pid_lt hph (Or.inr hp)
  refine h.change ⟨hph, rfl, .refl s, fun p hp => ?_, h.known.file, fun p hp => hlt p (hor p hp),
    ?_, ?_, fun p hp _ => hp, fun p hp _ => Or.inr hp, ?_, fun p hp ht => ?_, ?_⟩
  · refine hlt p ?_
    simpa [Phase.pids, Caller.pids] using hp
  · exact threat_none ⟨rfl, rfl⟩
  · exact commit_none rfl
  · intro p hp
    simp [Phase.owns] at hp
  · rcases hor p hp with hfile | howner
    · exact Or.inl hfile
    · exact Or.inr (h.claimed_elsewhere hph rfl howner ht)
  · intro p hp _
    simp [Phase.keeps, Phase.caller] at hp

lemma Sound.abandon {pid initial previous : Option ℕ} (h : s.Sound) (hph : s.procs[i]? = some ph)
    (hkeeps : ph.keeps = ph.claims) (hpid : pid = ph.claims ∨ pid = recordedPid s.file)
    (hprevious : ∀ p, previous = some p → p ∈ ph.pids)
    (hmay : s.MayAbandon i (pid, initial, previous))
    (hstep : s.abandon i pid initial previous = some t) : t.Sound := by
  unfold Machine.abandon at hstep
  obtain ⟨hclaimed, hhead⟩ := hmay
  have hlt : ∀ p, previous = some p → p < s.services.length := fun p hp =>
    h.pid_lt hph (Or.inl (hprevious p hp))
  -- a head that the dashboard has claimed and that is alive is the one it may have to stop
  have hsame : ∀ p, ph.claims = some p → s.Alive p → pid = some p := by
    intro p hp halive
    rcases hpid with rfl | rfl
    · exact hp
    · exact h.recorded ph (List.mem_of_getElem? hph) p (Phase.has_of_claims hp) halive
  split_ifs at hstep with hlock
  cases pid with
  | none =>
    obtain rfl := Option.some.inj hstep
    refine h.done hph rfl (.refl s) (Or.inl rfl) h.known.file hlt (fun p hp _ => hp)
      (hclaimed (Or.inl rfl)) fun p hp halive => ?_
    simpa using hsame p (hkeeps ▸ hp) halive
  | some pid =>
    have hhead := hhead pid rfl
    by_cases hinitial : some pid = initial
    · simp only [hinitial, if_true] at hstep
      obtain rfl := Option.some.inj hstep
      refine h.done hph rfl (.refl s) (Or.inl rfl) h.known.file hlt (fun p hp _ => hp)
        (hclaimed (Or.inr hinitial)) fun p hp halive => ?_
      obtain rfl := Option.some.inj (hsame p (hkeeps ▸ hp) halive)
      rw [if_pos hinitial] at hhead
      exact Or.inl (hhead halive)
    · simp only [hinitial, if_false] at hstep
      obtain rfl := Option.some.inj hstep
      rw [if_neg hinitial] at hhead
      refine h.change ⟨hph, rfl, .refl s, fun p hp => ?_, h.known.file, h.known.owner, ?_, ?_,
        fun p hp _ => hp, fun p hp _ => ?_, ?_, fun p hp halive => ?_, fun p hp halive => ?_⟩
      · rcases List.mem_cons.1 hp with rfl | hp
        · rcases hpid with hpid | hpid
          · exact h.pid_lt hph (Or.inl (Phase.mem_pids_of_has (Phase.has_of_claims hpid.symm)))
          · exact h.known.file p hpid.symm
        · exact hlt p (by simpa [Stopper.pids] using hp)
      · rintro url (⟨p, hp, hport⟩ | hshut)
        · obtain rfl : pid = p := Option.some.inj hp
          exact hhead url hport
        · simp [Phase.shutUrl] at hshut
      · exact commit_none rfl
      · obtain rfl : pid = p := Option.some.inj hp
        rcases hpid with hpid | hpid
        · exact Or.inl (Phase.has_of_claims hpid.symm)
        · exact Or.inr hpid.symm
      · intro p hp
        simp [Phase.owns] at hp
      · exact (h.claimed_or hph hp halive).imp_left fun hclaims => hsame p hclaims halive
      · exact Or.inl (hsame p (hkeeps ▸ hp) halive)

lemma Sound.fail (h : s.Sound) (hcalm : s.Calm (.fail i)) (hstep : s.fail i = some t) :
    t.Sound := by
  unfold Machine.fail at hstep
  obtain ⟨ph, hph, hfails⟩ := Option.bind_eq_some_iff.1 hstep
  obtain ⟨⟨pid, initial, previous⟩, hfailing, habandon⟩ := Option.bind_eq_some_iff.1 hfails
  have hmay := hcalm ph hph _ hfailing
  unfold failing at hfailing
  split at hfailing
  · obtain ⟨rfl, rfl, rfl⟩ : _ ∧ _ ∧ _ := by simpa using hfailing
    refine h.abandon hph rfl (Or.inl rfl) (fun p hp => ?_) hmay habandon
    simp [Phase.pids, hp]
  · split at hfailing
    · next c hcaller =>
      obtain ⟨rfl, rfl, rfl⟩ : _ ∧ _ ∧ _ := by simpa using hfailing
      refine h.abandon hph ?_ (Or.inr rfl) (fun p hp => ?_) hmay habandon
      · cases ph <;> simp_all [Phase.caller, Phase.keeps, Phase.claims]
      · cases ph <;> simp_all [Phase.caller, Phase.pids, Caller.pids]
    · simp at hfailing

lemma Sound.interrupt {outcome : Pause} (h : s.Sound) (hcalm : s.Calm (.interrupt i outcome))
    (hstep : s.interrupt i outcome = some t) : t.Sound := by
  unfold Machine.interrupt at hstep
  -- a dashboard that leaves its head running must be relieved
  have hleft : ∀ {pid url : ℕ} {initial previous : Option ℕ} {u : Machine},
      s.procs[i]? = some (.attached pid url initial previous) →
      s.Relieved i pid ∧ (s.owner = some pid → s.Claimed i (some pid)) →
      s.Outlasts u → u.procs = s.procs.set i .left → u.file = s.file → u.owner = s.owner →
      u.Sound := by
    intro pid url initial previous u hph hmay houtlasts hprocs hfile howner
    refine h.done hph hprocs houtlasts (Or.inl rfl) (hfile ▸ h.known.file)
      (howner ▸ h.known.owner) (fun p hp _ => hfile ▸ hp) (fun p hp halive => ?_)
      fun p hp halive => ?_
    · rw [howner] at hp
      rcases h.claimed_or hph hp halive with hclaims | hclaims
      · obtain rfl : pid = p := Option.some.inj hclaims
        exact hmay.2 hp pid rfl halive
      · exact hclaims
    · obtain rfl : pid = p := Option.some.inj hp
      exact Or.inl (hmay.1 halive)
  split at hstep
  · next pid url initial previous hph =>
    split_ifs at hstep with hidle
    obtain rfl := Option.some.inj hstep
    refine h.move hph rfl (outlasts_request (s := s) _ fun _ => ⟨rfl, rfl⟩) rfl rfl
      ⟨rfl, rfl, rfl, rfl⟩ (fun p hp => Or.inl ?_) ?_ ?_
    · obtain rfl : p = pid := by simpa [Phase.pids] using hp
      simp [Phase.pids]
    · rintro url' (⟨p, hp, hport⟩ | hshut)
      · obtain rfl : pid = p := Option.some.inj hp
        exact hcalm _ hph pid rfl url' hport
      · simp [Phase.shutUrl] at hshut
    · exact commit_none rfl
  · next pid url initial previous hph =>
    split_ifs at hstep with hbusy
    obtain rfl := Option.some.inj hstep
    exact hleft hph (hcalm _ hph pid rfl) (.refl s) rfl rfl rfl
  · next pid url initial previous resumed hph =>
    obtain rfl := Option.some.inj hstep
    cases resumed
    · exact hleft hph (hcalm _ hph pid rfl) (.refl s) rfl rfl rfl
    · exact hleft hph (hcalm _ hph pid rfl) (outlasts_request (s := s) _ fun _ => ⟨rfl, rfl⟩)
        rfl rfl rfl
  · simp at hstep

lemma Sound.headExited (h : s.Sound) (hstep : s.headExited i = some t) : t.Sound := by
  unfold Machine.headExited at hstep
  split at hstep
  · next pid url initial previous hph =>
    split_ifs at hstep with hgone
    obtain rfl := Option.some.inj hstep
    refine h.move hph rfl (.refl s) rfl rfl ⟨rfl, rfl, rfl, rfl⟩ (fun p hp => Or.inl ?_) ?_ ?_
    · obtain rfl : p = pid := by simpa [Phase.pids] using hp
      simp [Phase.pids]
    · rintro url' (⟨p, hp, hport⟩ | hshut)
      · obtain rfl : pid = p := Option.some.inj hp
        simp [hgone] at hport
      · simp [Phase.shutUrl] at hshut
    · exact commit_none rfl
  · simp at hstep

lemma Sound.leave (h : s.Sound) (hstep : s.leave i = some t) : t.Sound := by
  unfold Machine.leave at hstep
  split at hstep
  · next pid hph =>
    split_ifs at hstep with hlock
    obtain rfl := Option.some.inj hstep
    have howner : ∀ p, unlinked s.owner pid = some p → s.owner = some p ∧ p ≠ pid := by
      intro p hp
      unfold unlinked at hp
      split_ifs at hp with hmine
      exact ⟨hp, fun heq => hmine (heq ▸ hp)⟩
    refine h.change ⟨hph, rfl, .refl s, fun p hp => ?_, h.known.file,
      fun p hp => h.known.owner p (howner p hp).1, fun url hthreat => h.free hph hthreat, ?_,
      fun p hp _ => hp, fun p hp _ => Or.inl hp, ?_, fun p hp halive => ?_,
      fun p hp _ => Or.inl hp⟩
    · exact h.pid_lt hph (Or.inl (by simpa [Phase.pids, Stopper.pids] using hp))
    · exact commit_none rfl
    · intro p hp
      simp [Phase.owns] at hp
    · obtain ⟨hp, hne⟩ := howner p hp
      refine Or.inr ((h.claimed_or hph hp halive).resolve_left fun hclaims => hne ?_)
      exact (Option.some.inj hclaims).symm
  · simp at hstep

lemma Sound.die (h : s.Sound) (hstep : s.die i = some t) : t.Sound := by
  unfold Machine.die at hstep
  obtain ⟨ph, hph, hdies⟩ := Option.bind_eq_some_iff.1 hstep
  split_ifs at hdies with hactive
  obtain rfl := Option.some.inj hdies
  exact h.pass hph rfl (.refl s) rfl rfl ⟨rfl, rfl, rfl, rfl⟩ (fun p hp => Or.inl hp) ⟨rfl, rfl⟩ rfl

/-! ### Every run -/

lemma Sound.step {e : MachineEvent} (h : s.Sound) (hcalm : s.Calm e)
    (hstep : machineStep s e = some t) : t.Sound := by
  cases e with
  | serve pid =>
    change s.serve pid = some t at hstep
    unfold serve at hstep
    split at hstep
    · next v hv =>
      split_ifs at hstep with hbooting
      obtain rfl := Option.some.inj hstep
      -- the head that starts to serve is alive before
      refine h.of_services rfl ⟨by simp, fun p _ url hport => ?_⟩ rfl rfl
      simp only [alivePort, List.getElem?_modify] at hport ⊢
      by_cases hp : pid = p
      · subst hp
        simpa [hv, Service.alivePort, hbooting.1] using hport
      · simpa [hp] using hport
    · simp at hstep
  | exit pid =>
    obtain rfl := Option.some.inj hstep
    exact h.of_services rfl (outlasts_terminatePid s (some pid)) rfl rfl
  | startJob i => exact h.runningHeadUrl (Or.inl rfl) hstep
  | lookUp i => exact h.runningHeadUrl (Or.inr rfl) hstep
  | openDashboard i => exact h.openDashboard hstep
  | answer i ok respawn => exact h.answer hcalm hstep
  | read i => exact h.read hstep
  | terminate i => exact h.terminate hstep
  | spawn i port => exact h.spawn hstep
  | record i => exact h.record hcalm hstep
  | respawnFrpc i => exact h.respawnFrpc hcalm hstep
  | claim i => exact h.claim hcalm hstep
  | joinPinned i k => exact h.joinPinned hstep
  | admitJob i =>
    change s.admitJob i = some t at hstep
    unfold admitJob at hstep
    split at hstep
    · split_ifs at hstep
      obtain rfl := Option.some.inj hstep
      exact h.of_services rfl (outlasts_request _ fun _ => ⟨rfl, rfl⟩) rfl rfl
    · simp at hstep
  | completeJob i =>
    obtain rfl := Option.some.inj hstep
    have hfades : Fades fun v => { v with runningJobs := v.runningJobs.erase i } :=
      fades_of_same fun _ => ⟨rfl, rfl⟩
    exact h.of_services rfl (Outlasts.map hfades rfl) rfl rfl
  | release i => exact h.release hcalm hstep
  | shutdown i landed => exact h.shutdown hstep
  | stopRecordedHead i => exact h.stopRecordedHead hcalm hstep
  | clear i => exact h.clear hstep
  | write i => exact h.write hcalm hstep
  | fail i => exact h.fail hcalm hstep
  | interrupt i outcome => exact h.interrupt hcalm hstep
  | headExited i => exact h.headExited hstep
  | leave i => exact h.leave hstep
  | die i => exact h.die hstep

lemma sound_invariant : machine.Invariant Calm Sound where
  init s := by
    rintro ⟨hservices, hidle, hfile, howner, -⟩
    have hidle' : ∀ {ph}, ph ∈ s.procs → ph = .idle := fun hph => hidle _ hph
    refine ⟨⟨fun ph hph p hp => ?_, fun p hp => ?_, fun p hp => ?_⟩,
      fun ph hph url _ o ho hurl => ?_, fun ph hph p hp _ => ?_, fun p hp => ?_,
      fun ph hph p hp => ?_⟩
    · simp [hidle' hph, Phase.pids] at hp
    · simp [hfile, recordedPid] at hp
    · simp [howner] at hp
    · simp [hidle' ho, Phase.jobUrl] at hurl
    · simp [hidle' hph, Phase.has, Phase.caller] at hp
    · simp [howner] at hp
    · simp [hidle' hph, Phase.owns] at hp
  step _ _ _ h hcalm hstep := Sound.step h hcalm hstep

/-! ### What a step does to the heads of the jobs -/

/-- The head still answers at the url, and its nodes have not been shut down by now. -/
def Spares (s t : Machine) (pid url : ℕ) : Prop :=
  ∀ v ∈ s.services[pid]?, v.At url → ∃ v' ∈ t.services[pid]?, v'.At url ∧ v'.shutDown = v.shutDown

instance (s t : Machine) (pid url : ℕ) : Decidable (s.Spares t pid url) :=
  inferInstanceAs (Decidable (∀ v ∈ s.services[pid]?, v.At url →
    ∃ v' ∈ t.services[pid]?, v'.At url ∧ v'.shutDown = v.shutDown))

lemma Spares.of_eq (h : t.services = s.services) : s.Spares t pid url :=
  fun v hv hat => ⟨v, h ▸ hv, hat, rfl⟩

lemma Spares.map {f : Service → Service}
    (hf : ∀ v : Service, v.At url → (f v).At url ∧ (f v).shutDown = v.shutDown)
    (ht : t.services = s.services.map f) : s.Spares t pid url := by
  intro v hv hat
  refine ⟨f v, ?_, hf v hat⟩
  rw [ht, List.getElem?_map, Option.mem_def.1 hv]
  rfl

lemma spares_request {url' : ℕ} {f : Service → Service}
    (hf : ∀ v : Service, (f v).port = v.port ∧ (f v).health = v.health ∧
      (f v).shutDown = v.shutDown) : s.Spares (s.request url' f) pid url := by
  refine Spares.map (fun v hat => ?_) rfl
  obtain ⟨hport, hhealth, hshut⟩ := hf v
  split_ifs
  · exact ⟨⟨hport.trans hat.1, hhealth.trans hat.2⟩, hshut⟩
  · exact ⟨hat, rfl⟩

lemma spares_terminatePid {p : Option ℕ} (h : p ≠ some pid) :
    s.Spares (s.terminatePid p) pid url := by
  cases p with
  | none => exact Spares.of_eq rfl
  | some p =>
    intro v hv hat
    refine ⟨v, ?_, hat, rfl⟩
    have hne : p ≠ pid := fun heq => h (heq ▸ rfl)
    simpa [terminatePid, List.getElem?_modify, hne] using hv

/-- No head is taken from a running job, unless the head exits by itself. -/
def LeavesJobs (s : Machine) (e : MachineEvent) (t : Machine) : Prop :=
  ∀ ph ∈ s.procs, ∀ url ∈ ph.jobUrl, ∀ pid, e ≠ .exit pid → s.Spares t pid url

lemma services_finish {w : Stopper} : (s.finish i pid w).services = s.services := by
  rcases w with _ | _ | previous <;> rfl

/-- The steps that read and write only the files leave the heads as they are. -/
lemma services_of_step {e : MachineEvent} (he : e.onFiles = true)
    (hstep : machineStep s e = some t) : t.services = s.services := by
  cases e with
  | startJob i | lookUp i =>
    simp only [machineStep, runningHeadUrl] at hstep
    grind [put]
  | openDashboard i =>
    simp only [machineStep, openDashboard] at hstep
    grind [put]
  | answer i ok respawn =>
    obtain ⟨ph, -, hanswer⟩ := Option.bind_eq_some_iff.1 hstep
    split_ifs at hanswer
    · obtain ⟨f, -, hanswered⟩ := Option.bind_eq_some_iff.1 hanswer
      split_ifs at hanswered
      obtain ⟨ph', -, rfl⟩ := Option.map_eq_some_iff.1 hanswered
      rfl
    · obtain ⟨ph', -, rfl⟩ := Option.map_eq_some_iff.1 hanswer
      rfl
  | read i =>
    simp only [machineStep, read] at hstep
    grind [put]
  | record i =>
    simp only [machineStep, record] at hstep
    grind [put]
  | respawnFrpc i =>
    simp only [machineStep, respawnFrpc] at hstep
    grind [put]
  | claim i =>
    simp only [machineStep, claim] at hstep
    split at hstep
    · obtain ⟨p, -, rfl⟩ := Option.map_eq_some_iff.1 hstep
      rfl
    · obtain rfl := Option.some.inj hstep
      rfl
    · split_ifs at hstep
      obtain ⟨p, -, rfl⟩ := Option.map_eq_some_iff.1 hstep
      rfl
    · simp at hstep
  | joinPinned i k =>
    simp only [machineStep, joinPinned] at hstep
    grind [put]
  | release i =>
    simp only [machineStep, release] at hstep
    grind [put]
  | stopRecordedHead i =>
    simp only [machineStep, stopRecordedHead] at hstep
    grind [put, services_finish]
  | clear i =>
    simp only [machineStep, clear] at hstep
    grind [put]
  | write i =>
    simp only [machineStep, write] at hstep
    grind [put, services_finish]
  | fail i =>
    obtain ⟨ph, -, hfails⟩ := Option.bind_eq_some_iff.1 hstep
    obtain ⟨m, -, habandon⟩ := Option.bind_eq_some_iff.1 hfails
    simp only [abandon] at habandon
    grind [put]
  | headExited i =>
    simp only [machineStep, headExited] at hstep
    grind [put]
  | leave i =>
    simp only [machineStep, leave] at hstep
    grind [put]
  | die i =>
    simp only [machineStep, die] at hstep
    grind [put]
  | _ => exact absurd he Bool.false_ne_true

/-- What a call does to its own target only. -/
lemma Sound.leavesJobs {e : MachineEvent} (h : s.Sound) (hstep : machineStep s e = some t) :
    s.LeavesJobs e t := by
  intro o ho url hurl pid hexit
  -- a head that is about to be taken away is at a url where no job runs
  have hcalm : ∀ {i ph}, s.procs[i]? = some ph → ¬ s.Threatens ph url := fun hph hthreat =>
    h.threats _ (List.mem_of_getElem? hph) url hthreat o ho hurl
  cases e with
  | serve p =>
    change s.serve p = some t at hstep
    unfold serve at hstep
    split at hstep
    · next v hv =>
      split_ifs at hstep with hbooting
      obtain rfl := Option.some.inj hstep
      intro v' hv' hat
      refine ⟨v', ?_, hat, rfl⟩
      have hne : p ≠ pid := by
        rintro rfl
        obtain rfl := Option.some.inj (hv.symm.trans hv')
        simpa using hbooting.1.symm.trans hat.2
      simpa [List.getElem?_modify, hne] using hv'
    · simp at hstep
  | exit p =>
    obtain rfl := Option.some.inj hstep
    exact spares_terminatePid fun heq => hexit (Option.some.inj heq ▸ rfl)
  | terminate i =>
    have hsafe : ∀ {ph v}, s.procs[i]? = some ph → s.services[pid]? = some v → v.At url →
        ph.target ≠ some pid := by
      intro ph v hph hv hat htarget
      refine hcalm hph (Or.inl ⟨pid, htarget, ?_⟩)
      simp [alivePort, hv, Service.alivePort, hat.1, hat.2]
    change s.terminate i = some t at hstep
    unfold Machine.terminate at hstep
    intro v hv hat
    split at hstep
    · next c read hph =>
      obtain rfl := Option.some.inj hstep
      exact spares_terminatePid (hsafe hph hv hat) v hv hat
    · next p w hph =>
      obtain rfl := Option.some.inj hstep
      exact spares_terminatePid (hsafe hph hv hat) v hv hat
    · simp at hstep
  | spawn i port =>
    change s.spawn i port = some t at hstep
    unfold Machine.spawn at hstep
    split at hstep
    · obtain rfl := Option.some.inj hstep
      intro v hv hat
      refine ⟨v, ?_, hat, rfl⟩
      exact (List.getElem?_append_left (List.getElem?_eq_some_iff.1 hv).1).trans hv
    · simp at hstep
  | admitJob i =>
    change s.admitJob i = some t at hstep
    unfold admitJob at hstep
    split at hstep
    · split_ifs at hstep
      obtain rfl := Option.some.inj hstep
      exact spares_request fun _ => ⟨rfl, rfl, rfl⟩
    · simp at hstep
  | completeJob i =>
    obtain rfl := Option.some.inj hstep
    exact Spares.map (f := fun v => { v with runningJobs := v.runningJobs.erase i })
      (fun v hat => ⟨hat, rfl⟩) rfl
  | shutdown i landed =>
    change s.shutdown i landed = some t at hstep
    unfold Machine.shutdown at hstep
    split at hstep
    · next hd p hph =>
      obtain rfl := Option.some.inj hstep
      cases landed with
      | false => exact Spares.of_eq rfl
      | true =>
        -- the job runs elsewhere
        have hne : hd.url ≠ url := fun heq => hcalm hph (Or.inr (heq ▸ rfl))
        refine Spares.map (fun v hat => ?_) rfl
        rw [if_neg fun hat' => hne (hat'.1.symm.trans hat.1)]
        exact ⟨hat, rfl⟩
    · simp at hstep
  | interrupt i outcome =>
    change s.interrupt i outcome = some t at hstep
    unfold Machine.interrupt at hstep
    split at hstep
    · split_ifs at hstep
      obtain rfl := Option.some.inj hstep
      exact spares_request fun _ => ⟨rfl, rfl, rfl⟩
    · split_ifs at hstep
      obtain rfl := Option.some.inj hstep
      exact Spares.of_eq rfl
    · next resumed _ =>
      obtain rfl := Option.some.inj hstep
      cases resumed
      · exact Spares.of_eq rfl
      · exact spares_request fun _ => ⟨rfl, rfl, rfl⟩
    · simp at hstep
  | _ => exact Spares.of_eq (services_of_step rfl hstep)

/-- **The head outlives its users.** When calls decide to stop a head only while no other job runs
on it, and jobs commit only to heads that nobody has decided to stop, no step takes a head from a
running job. When besides no head that is alive is dropped from `head.json`, and no dashboard lets
go of a head that nobody else looks after, the head of a job that has released it is gone once
nobody looks after it any more. -/
theorem head_outlives_users (hreachable : machine.Reachable Calm s) :
    (∀ e t, machineStep s e = some t → s.LeavesJobs e t) ∧
      ∀ pid, .ended (some pid) ∈ s.procs → (∀ ph ∈ s.procs, ph.keeps ≠ some pid) →
        ¬ s.Alive pid := by
  have hsound : s.Sound := sound_invariant.reachable hreachable
  refine ⟨fun e t hstep => hsound.leavesJobs hstep, fun pid hended hnobody halive => ?_⟩
  obtain ⟨o, ho, hkeeps⟩ := hsound.kept _ hended pid rfl halive
  exact hnobody o ho hkeeps

/-- A machine with `n` calls to come. -/
def fresh (n : ℕ) : Machine := ⟨[], List.replicate n .idle, none, none, none⟩

lemma init_fresh (n : ℕ) : machine.init (fresh n) :=
  ⟨rfl, fun _ hph => List.eq_of_mem_replicate hph, rfl, rfl, rfl⟩

/-- The first job starts a head at port 5001. -/
def startEvents : List MachineEvent :=
  [.startJob 0, .answer 0 false false, .read 0, .answer 0 false false, .terminate 0,
    .spawn 0 5001, .record 0, .serve 0, .answer 0 true true, .respawnFrpc 0, .claim 0, .admitJob 0]

/-- A dashboard attaches, the job ends, and the dashboard stops the head. -/
def dashboardEvents : List MachineEvent :=
  startEvents ++ [.openDashboard 1, .read 1, .answer 1 true false, .claim 1, .completeJob 0,
    .release 0, .interrupt 1 .paused, .leave 1, .stopRecordedHead 1, .terminate 1, .clear 1,
    .write 1]

def closed : Machine :=
  ((machine.guarded Calm).exec (fresh 2) dashboardEvents).get (by decide +kernel)

theorem head_outlives_users_closed :
    closed.procs = [.ended (some 0), .left] ∧ ¬ closed.Alive 0 := by
  have hrun : machine.Run Calm (fresh 2) dashboardEvents closed :=
    System.run_of_exec_guarded (Option.some_get _).symm
  have hprocs : closed.procs = [.ended (some 0), .left] := by decide +kernel
  refine ⟨hprocs, (head_outlives_users ⟨_, _, init_fresh 2, hrun⟩).2 0 (by simp [hprocs]) ?_⟩
  intro ph hph
  simp only [hprocs, List.mem_cons, List.not_mem_nil, or_false] at hph
  rcases hph with rfl | rfl <;> exact nofun

/-- A second job joins the head, and the first one ends. -/
def joinedEvents : List MachineEvent :=
  startEvents ++ [.startJob 1, .answer 1 true false, .admitJob 1, .completeJob 0, .release 0,
    .shutdown 0 true, .stopRecordedHead 0]

def joined : Machine :=
  ((machine.guarded System.always).exec (fresh 2) joinedEvents).get (by decide +kernel)

def stopped : Machine := (machineStep joined (.terminate 0)).get (by decide +kernel)

theorem owner_stops_joined_head :
    ¬ ∀ s : Machine, machine.Reachable System.always s →
      (∀ e t, machineStep s e = some t → s.LeavesJobs e t) ∧
        ∀ pid, .ended (some pid) ∈ s.procs → (∀ ph ∈ s.procs, ph.keeps ≠ some pid) →
          ¬ s.Alive pid := by
  intro h
  have hrun : machine.Run System.always (fresh 2) joinedEvents joined :=
    System.run_of_exec_guarded (Option.some_get _).symm
  obtain ⟨hleaves, -⟩ := h joined ⟨_, _, init_fresh 2, hrun⟩
  have hspares : joined.Spares stopped 0 5001 :=
    hleaves (.terminate 0) stopped (Option.some_get _).symm (.running ⟨5001, none⟩ none)
      (by decide +kernel) 5001 rfl 0 nofun
  revert hspares
  decide +kernel

/-- The dashboard is closed while the job is running, and then the job ends. -/
def leftEvents : List MachineEvent :=
  startEvents ++ [.openDashboard 1, .read 1, .answer 1 true false, .claim 1,
    .interrupt 1 .refused, .completeJob 0, .release 0]

def deserted : Machine :=
  ((machine.guarded System.always).exec (fresh 2) leftEvents).get (by decide +kernel)

/-- The head is left running by everybody, and `dashboard.owner` keeps it. -/
theorem closed_dashboard_leaves_head :
    machine.Reachable System.always deserted ∧
      deserted.procs = [.ended (some 0), .left] ∧ deserted.owner = some 0 ∧ deserted.Alive 0 := by
  have hrun : machine.Run System.always (fresh 2) leftEvents deserted :=
    System.run_of_exec_guarded (Option.some_get _).symm
  exact ⟨⟨_, _, init_fresh 2, hrun⟩, by decide +kernel, by decide +kernel, by decide +kernel⟩

end Machine

end Burla.Head
