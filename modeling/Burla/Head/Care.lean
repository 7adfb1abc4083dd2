/-
Who looks after a head.

A job that started a head looks after it until it has released it, and a dashboard from when it
has put the head into `dashboard.owner` until it has stopped it.  A step moves one call, and a
sound machine stays sound when the step leaves every head that a job has had a handle of its own
for in somebody's care, as long as the head is alive.
-/
import Burla.Head.Machine

namespace Burla.Head

/-! ### What a call has to do with the heads -/

/-- The head that a dashboard has claimed before it attaches. -/
def Caller.claims : Caller → Option ℕ
  | .dashboard initial _ => initial
  | _ => none

def Caller.pids : Caller → List ℕ
  | .dashboard initial previous => initial.toList ++ previous.toList
  | _ => []

def Stopper.pids : Stopper → List ℕ
  | .dashboard (some previous) => previous.toList
  | _ => []

namespace Phase

/-- The url that a running job has committed to. -/
def jobUrl : Phase → Option ℕ
  | .running h _ => some h.url
  | _ => none

/-- The head that the call has decided to terminate. -/
def target : Phase → Option ℕ
  | .replacing _ read => recordedPid read
  | .releasing _ pid | .leaving pid | .stopping pid _ | .doomed pid _ => some pid
  | _ => none

/-- The url of the head whose nodes the call has decided to shut down. -/
def shutUrl : Phase → Option ℕ
  | .releasing h _ => some h.url
  | _ => none

/-- The head that the call goes by, as it has found it in `head.json`. -/
def has : Phase → Option ℕ
  | .running h _ => h.pid
  | .attached pid _ _ _ | .releasing _ pid | .leaving pid | .stopping pid _ | .doomed pid _
  | .terminated pid _ | .clearing pid _ _ => some pid
  | .ended pid => pid
  | .failed ph => ph.has
  | ph => ph.caller.bind Caller.claims

/-- The head that a job has, or has had, a handle of its own for. -/
def owns : Phase → Option ℕ
  | .running h _ => h.pid
  | .releasing _ pid | .stopping pid .job | .doomed pid .job | .terminated pid .job
  | .clearing pid _ .job => some pid
  | .ended pid => pid
  | .failed ph => ph.owns
  | _ => none

/-- The head that a dashboard has put into `dashboard.owner`, and has not stopped yet. -/
def claims : Phase → Option ℕ
  | .attached pid _ _ _ | .leaving pid | .stopping pid (.dashboard _)
  | .doomed pid (.dashboard _) => some pid
  | .failed ph => ph.claims
  | ph => ph.caller.bind Caller.claims

/-- The head that the call looks after. -/
def keeps : Phase → Option ℕ
  | .running h _ => h.pid
  | .attached pid _ _ _ | .releasing _ pid | .leaving pid | .stopping pid _
  | .doomed pid _ => some pid
  | .failed ph => ph.keeps
  | ph => ph.caller.bind Caller.claims

def pids : Phase → List ℕ
  | .idle | .left => []
  | .probing c read | .found c read | .replacing c read => c.pids ++ (recordedPid read).toList
  | .looking c | .vacant c | .returned c _ => c.pids
  | .spawned c f | .waiting c f | .answered c f => c.pids ++ f.headPid.toList
  | .running h respawn => h.pid.toList ++ (recordedPid respawn).toList
  | .attached pid _ initial previous => pid :: (initial.toList ++ previous.toList)
  | .releasing _ pid | .leaving pid => [pid]
  | .stopping pid w | .doomed pid w | .terminated pid w => pid :: w.pids
  | .clearing pid f w => pid :: (f.headPid.toList ++ w.pids)
  | .ended pid => pid.toList
  | .failed ph => ph.pids

variable {ph : Phase} {p url : ℕ}

lemma mem_pids_of_claims {c : Caller} (h : c.claims = some p) : p ∈ c.pids := by
  cases c <;> simp_all [Caller.claims, Caller.pids]

lemma mem_pids_of_target (h : ph.target = some p) : p ∈ ph.pids := by
  cases ph <;> simp_all [target, pids]

lemma mem_pids_of_has (h : ph.has = some p) : p ∈ ph.pids := by
  induction ph with
  | failed ph ih => exact ih h
  | _ => simp_all [has, pids, caller, mem_pids_of_claims]

lemma mem_pids_of_keeps (h : ph.keeps = some p) : p ∈ ph.pids := by
  induction ph with
  | failed ph ih => exact ih h
  | _ => simp_all [keeps, pids, caller, mem_pids_of_claims]

lemma has_of_owns (h : ph.owns = some p) : ph.has = some p := by
  induction ph with
  | failed ph ih => exact ih h
  | stopping pid w | doomed pid w | terminated pid w | clearing pid read w =>
    cases w <;> simp_all [owns, has]
  | _ => simp_all [owns, has]

lemma has_of_claims (h : ph.claims = some p) : ph.has = some p := by
  induction ph with
  | failed ph ih => exact ih h
  | stopping pid w | doomed pid w => cases w <;> simp_all [claims, has, caller]
  | _ => simp_all [claims, has, caller]

lemma keeps_of_claims (h : ph.claims = some p) : ph.keeps = some p := by
  induction ph with
  | failed ph ih => exact ih h
  | stopping pid w | doomed pid w => cases w <;> simp_all [claims, keeps, caller]
  | _ => simp_all [claims, keeps, caller]

/-- The call goes by the same head, and looks after it as before. -/
structure SameCare (ph ph' : Phase) : Prop where
  has : ph'.has = ph.has
  owns : ph'.owns = ph.owns
  claims : ph'.claims = ph.claims
  keeps : ph'.keeps = ph.keeps

/-- A running job is not about to stop a head. -/
lemma target_of_jobUrl (h : ph.jobUrl = some url) : ph.target = none ∧ ph.shutUrl = none := by
  cases ph <;> simp_all [jobUrl, target, shutUrl]

end Phase

namespace Machine

variable {s t : Machine} {i p url : ℕ} {ph ph' o : Phase}

/-! ### The other calls -/

def others (s : Machine) (i : ℕ) : List Phase := s.procs.eraseIdx i

lemma mem_procs (h : s.procs[i]? = some ph) : o ∈ s.procs ↔ o = ph ∨ o ∈ s.others i := by
  rw [others, List.mem_eraseIdx_iff_getElem?, List.mem_iff_getElem?]
  constructor
  · rintro ⟨k, hk⟩
    by_cases hki : k = i
    · subst hki
      exact Or.inl (Option.some.inj (hk.symm.trans h))
    · exact Or.inr ⟨k, hki, hk⟩
  · rintro (rfl | ⟨k, -, hk⟩)
    · exact ⟨i, h⟩
    · exact ⟨k, hk⟩

lemma mem_set (h : s.procs[i]? = some ph) :
    o ∈ s.procs.set i ph' ↔ o = ph' ∨ o ∈ s.others i := by
  have hi : i < s.procs.length := (List.getElem?_eq_some_iff.1 h).1
  rw [others, List.mem_eraseIdx_iff_getElem?, List.mem_iff_getElem?]
  constructor
  · rintro ⟨k, hk⟩
    by_cases hki : k = i
    · subst hki
      rw [List.getElem?_set_self hi] at hk
      exact Or.inl (Option.some.inj hk).symm
    · rw [List.getElem?_set_ne (Ne.symm hki)] at hk
      exact Or.inr ⟨k, hki, hk⟩
  · rintro (rfl | ⟨k, hki, hk⟩)
    · exact ⟨i, List.getElem?_set_self hi⟩
    · exact ⟨k, by rw [List.getElem?_set_ne (Ne.symm hki), hk]⟩

/-! ### Sound machines -/

def Alive (s : Machine) (pid : ℕ) : Prop := s.alivePort pid ≠ none

instance (s : Machine) (pid : ℕ) : Decidable (s.Alive pid) :=
  inferInstanceAs (Decidable (s.alivePort pid ≠ none))

/-- The call is about to take the head at the url away, or its nodes. -/
def Threatens (s : Machine) (ph : Phase) (url : ℕ) : Prop :=
  (∃ p ∈ ph.target, s.alivePort p = some url) ∨ ph.shutUrl = some url

instance (s : Machine) (ph : Phase) (url : ℕ) : Decidable (s.Threatens ph url) :=
  inferInstanceAs (Decidable (_ ∨ _))

/-- A call without a target threatens nobody. -/
lemma threat_none (h : ph.target = none ∧ ph.shutUrl = none) (url : ℕ)
    (hthreat : t.Threatens ph url) : ∀ o ∈ s.others i, o.jobUrl ≠ some url := by
  rcases hthreat with ⟨p, hp, -⟩ | hshut
  · simp [h.1] at hp
  · simp [h.2] at hshut

/-- A call that is no running job commits to nothing. -/
lemma commit_none (h : ph'.jobUrl = none) (url : ℕ) (hurl : ph'.jobUrl = some url) :
    ph.jobUrl = some url ∨ ∀ o ∈ s.others i, ¬ s.Threatens o url := by
  simp [h] at hurl

/-- No pid is ahead of its process. -/
structure Known (s : Machine) : Prop where
  procs : ∀ ph ∈ s.procs, ∀ p ∈ ph.pids, p < s.services.length
  file : ∀ p, recordedPid s.file = some p → p < s.services.length
  owner : ∀ p, s.owner = some p → p < s.services.length

structure Sound (s : Machine) : Prop where
  known : s.Known
  /-- No job runs at a url that is about to lose its head. -/
  threats : ∀ ph ∈ s.procs, ∀ url, s.Threatens ph url → ∀ o ∈ s.procs, o.jobUrl ≠ some url
  /-- What a call goes by is still recorded. -/
  recorded : ∀ ph ∈ s.procs, ∀ p, ph.has = some p → s.Alive p → recordedPid s.file = some p
  /-- `dashboard.owner` tells the truth. -/
  claimed : ∀ p, s.owner = some p → s.Alive p → ∃ ph ∈ s.procs, ph.claims = some p
  /-- A job's head is in somebody's care. -/
  kept : ∀ ph ∈ s.procs, ∀ p, ph.owns = some p → s.Alive p → ∃ o ∈ s.procs, o.keeps = some p

/-- The heads of `t` that `s` knows of are alive in `s`. -/
def Outlasts (s t : Machine) : Prop :=
  s.services.length ≤ t.services.length ∧
    ∀ p < s.services.length, ∀ url, t.alivePort p = some url → s.alivePort p = some url

lemma Outlasts.alive (h : s.Outlasts t) (hp : p < s.services.length) (halive : t.Alive p) :
    s.Alive p := by
  obtain ⟨url, hurl⟩ := Option.ne_none_iff_exists'.1 halive
  exact Option.ne_none_iff_exists'.2 ⟨url, h.2 p hp url hurl⟩

lemma Outlasts.refl (s : Machine) : s.Outlasts s := ⟨Nat.le_refl _, fun _ _ _ h => h⟩

lemma Outlasts.threatens (h : s.Outlasts t) (hph : ∀ p ∈ ph.pids, p < s.services.length)
    (hthreat : t.Threatens ph url) : s.Threatens ph url := by
  rcases hthreat with ⟨p, hp, hport⟩ | hshut
  · exact Or.inl ⟨p, hp, h.2 p (hph p (Phase.mem_pids_of_target hp)) url hport⟩
  · exact Or.inr hshut

/-- A change of a head that does not bring it back to life. -/
def Fades (f : Service → Service) : Prop :=
  ∀ v url, (f v).alivePort = some url → v.alivePort = some url

lemma fades_of_same {f : Service → Service}
    (h : ∀ v, (f v).port = v.port ∧ (f v).health = v.health) : Fades f := by
  intro v url hport
  simpa [Service.alivePort, h v] using hport

lemma Outlasts.map {f : Service → Service} (hf : Fades f)
    (ht : t.services = s.services.map f) : s.Outlasts t := by
  refine ⟨by simp [ht], fun p _ url hport => ?_⟩
  simp only [alivePort, ht, List.getElem?_map] at hport ⊢
  cases hv : s.services[p]? with
  | none => simp [hv] at hport
  | some v =>
    rw [hv] at hport
    exact hf v url hport

lemma Outlasts.modify {f : Service → Service} (hf : Fades f)
    (ht : t.services = s.services.modify i f) : s.Outlasts t := by
  refine ⟨by simp [ht], fun p _ url hport => ?_⟩
  simp only [alivePort, ht, List.getElem?_modify] at hport ⊢
  cases hv : s.services[p]? with
  | none => simp [hv] at hport
  | some v =>
    rw [hv] at hport
    by_cases hi : i = p
    · subst hi
      exact hf v url (by simpa using hport)
    · simpa [hi] using hport

lemma Outlasts.append {v : Service} (ht : t.services = s.services ++ [v]) : s.Outlasts t := by
  refine ⟨by simp [ht], fun p hp url hport => ?_⟩
  rw [alivePort, ht, List.getElem?_append_left hp] at hport
  exact hport

lemma outlasts_request (f : Service → Service)
    (h : ∀ v, (f v).port = v.port ∧ (f v).health = v.health) : s.Outlasts (s.request url f) := by
  refine Outlasts.map (fades_of_same fun v => ?_) rfl
  split_ifs
  · exact h v
  · exact ⟨rfl, rfl⟩

lemma outlasts_terminatePid (s : Machine) (pid : Option ℕ) : s.Outlasts (s.terminatePid pid) := by
  cases pid with
  | none => exact .refl s
  | some p =>
    refine Outlasts.modify (i := p) (fun v url hport => ?_) rfl
    simp [Service.alivePort] at hport

lemma not_alive_terminatePid (s : Machine) (p : ℕ) : ¬ (s.terminatePid (some p)).Alive p := by
  simp only [Alive, alivePort, terminatePid, List.getElem?_modify, not_not]
  cases s.services[p]? <;> simp [Service.alivePort]

/-- What a step of the call `i` may do to a sound machine. -/
structure Change (s t : Machine) (i : ℕ) (ph ph' : Phase) : Prop where
  before : s.procs[i]? = some ph
  after : t.procs = s.procs.set i ph'
  outlasts : s.Outlasts t
  pids : ∀ p ∈ ph'.pids, p < t.services.length
  filePid : ∀ p, recordedPid t.file = some p → p < t.services.length
  ownerPid : ∀ p, t.owner = some p → p < t.services.length
  /-- The call decides to stop a head only when no job runs on it. -/
  threat : ∀ url, t.Threatens ph' url → ∀ o ∈ s.others i, o.jobUrl ≠ some url
  /-- A job commits to a head only when nobody has decided to stop it. -/
  commit : ∀ url, ph'.jobUrl = some url →
    ph.jobUrl = some url ∨ ∀ o ∈ s.others i, ¬ s.Threatens o url
  /-- No head that is alive is dropped from `head.json`. -/
  file : ∀ p, recordedPid s.file = some p → t.Alive p → recordedPid t.file = some p
  has : ∀ p, ph'.has = some p → t.Alive p → ph.has = some p ∨ recordedPid t.file = some p
  owns : ∀ p, ph'.owns = some p → ph.owns = some p ∨ ph'.keeps = some p
  owner : ∀ p, t.owner = some p → t.Alive p →
    ph'.claims = some p ∨ ∃ o ∈ s.others i, o.claims = some p
  /-- A head is let go of only when somebody else looks after it, or it is not the recorded one. -/
  keeps : ∀ p, ph.keeps = some p → t.Alive p →
    ph'.keeps = some p ∨ (∃ o ∈ s.others i, o.keeps = some p) ∨ recordedPid s.file ≠ some p

theorem Sound.change (h : s.Sound) (hc : s.Change t i ph ph') : t.Sound := by
  obtain ⟨hknown, hthreats, hrecorded, hclaimed, hkept⟩ := h
  have hmem : ∀ {o}, o ∈ s.procs ↔ o = ph ∨ o ∈ s.others i := mem_procs hc.before
  have hmem' : ∀ {o}, o ∈ t.procs ↔ o = ph' ∨ o ∈ s.others i := by
    intro o
    rw [hc.after]
    exact mem_set hc.before
  have hother : ∀ {o}, o ∈ s.others i → o ∈ s.procs := fun ho => hmem.2 (Or.inr ho)
  -- what the others know of was there before
  have hpids : ∀ {o}, o ∈ s.procs → ∀ p ∈ o.pids, p < s.services.length := fun ho =>
    hknown.procs _ ho
  have halive : ∀ {o p}, o ∈ s.procs → o.has = some p → t.Alive p → s.Alive p :=
    fun ho hhas => hc.outlasts.alive (hpids ho _ (Phase.mem_pids_of_has hhas))
  -- a head that is looked after before is looked after later, if it is recorded
  have hcare : ∀ {p}, (∃ o ∈ s.procs, o.keeps = some p) → recordedPid s.file = some p →
      t.Alive p → ∃ o ∈ t.procs, o.keeps = some p := by
    rintro p ⟨o, ho, hkeeps⟩ hfile ht
    rcases hmem.1 ho with rfl | ho
    · rcases hc.keeps p hkeeps ht with hkeeps | ⟨o', ho', hkeeps⟩ | hgone
      · exact ⟨ph', hmem'.2 (Or.inl rfl), hkeeps⟩
      · exact ⟨o', hmem'.2 (Or.inr ho'), hkeeps⟩
      · exact absurd hfile hgone
    · exact ⟨o, hmem'.2 (Or.inr ho), hkeeps⟩
  refine ⟨⟨fun o ho p hp => ?_, hc.filePid, hc.ownerPid⟩, fun o ho url hthreat o' ho' hjob => ?_,
    fun o ho p hhas ht => ?_, fun p howner ht => ?_, fun o ho p howns ht => ?_⟩
  · rcases hmem'.1 ho with rfl | ho
    · exact hc.pids p hp
    · exact Nat.lt_of_lt_of_le (hpids (hother ho) p hp) hc.outlasts.1
  · rcases hmem'.1 ho with rfl | ho
    · rcases hmem'.1 ho' with rfl | ho'
      · have hnone := Phase.target_of_jobUrl hjob
        simp [Threatens, hnone] at hthreat
      · exact hc.threat url hthreat o' ho' hjob
    · have hbefore := hc.outlasts.threatens (hpids (hother ho)) hthreat
      rcases hmem'.1 ho' with rfl | ho'
      · rcases hc.commit url hjob with hjob | hcalm
        · exact hthreats o (hother ho) url hbefore ph (hmem.2 (Or.inl rfl)) hjob
        · exact hcalm o ho hbefore
      · exact hthreats o (hother ho) url hbefore o' (hother ho') hjob
  · rcases hmem'.1 ho with rfl | ho
    · rcases hc.has p hhas ht with hbefore | hfile
      · have hph := hmem.2 (Or.inl rfl)
        exact hc.file p (hrecorded ph hph p hbefore (halive hph hbefore ht)) ht
      · exact hfile
    · exact hc.file p (hrecorded o (hother ho) p hhas (halive (hother ho) hhas ht)) ht
  · rcases hc.owner p howner ht with hclaims | ⟨o, ho, hclaims⟩
    · exact ⟨ph', hmem'.2 (Or.inl rfl), hclaims⟩
    · exact ⟨o, hmem'.2 (Or.inr ho), hclaims⟩
  · have hbefore : ∀ {o}, o ∈ s.procs → o.owns = some p →
        ∃ o ∈ t.procs, o.keeps = some p := by
      intro o ho howns
      have hhas := Phase.has_of_owns howns
      have hs := halive ho hhas ht
      exact hcare (hkept o ho p howns hs) (hrecorded o ho p hhas hs) ht
    rcases hmem'.1 ho with rfl | ho
    · rcases hc.owns p howns with howns | hkeeps
      · exact hbefore (hmem.2 (Or.inl rfl)) howns
      · exact ⟨o, hmem'.2 (Or.inl rfl), hkeeps⟩
    · exact hbefore (hother ho) howns

/-! ### Steps that leave the care of the heads as it is -/

lemma Sound.pid_lt (h : s.Sound) (hph : s.procs[i]? = some ph)
    (hp : p ∈ ph.pids ∨ recordedPid s.file = some p ∨ s.owner = some p) :
    p < s.services.length := by
  rcases hp with hp | hp | hp
  · exact h.known.procs ph (List.mem_of_getElem? hph) p hp
  · exact h.known.file p hp
  · exact h.known.owner p hp

lemma Sound.claimed_or (h : s.Sound) (hph : s.procs[i]? = some ph) (howner : s.owner = some p)
    (halive : s.Alive p) : ph.claims = some p ∨ ∃ o ∈ s.others i, o.claims = some p := by
  obtain ⟨o, ho, hclaims⟩ := h.claimed p howner halive
  rcases (mem_procs hph).1 ho with rfl | ho
  · exact Or.inl hclaims
  · exact Or.inr ⟨o, ho, hclaims⟩

lemma Sound.claimed_elsewhere (h : s.Sound) (hph : s.procs[i]? = some ph) (hnone : ph.claims = none)
    (howner : s.owner = some p) (halive : s.Alive p) : ∃ o ∈ s.others i, o.claims = some p := by
  rcases h.claimed_or hph howner halive with hclaims | hclaims
  · simp [hnone] at hclaims
  · exact hclaims

/-- The url that the call has decided to take a head from is free of jobs. -/
lemma Sound.free (h : s.Sound) (hph : s.procs[i]? = some ph) (hthreat : s.Threatens ph url) :
    ∀ o ∈ s.others i, o.jobUrl ≠ some url := fun o ho =>
  h.threats ph (List.mem_of_getElem? hph) url hthreat o ((mem_procs hph).2 (Or.inr ho))

/-- A call moves on and writes `head.json`. -/
lemma Sound.writes (h : s.Sound) (before : s.procs[i]? = some ph)
    (after : t.procs = s.procs.set i ph') (outlasts : s.Outlasts t) (owner : t.owner = s.owner)
    (care : ph.SameCare ph') (pids : ∀ p ∈ ph'.pids, p < t.services.length)
    (filePid : ∀ p, recordedPid t.file = some p → p < t.services.length)
    (threat : ∀ url, t.Threatens ph' url → ∀ o ∈ s.others i, o.jobUrl ≠ some url)
    (commit : ∀ url, ph'.jobUrl = some url →
      ph.jobUrl = some url ∨ ∀ o ∈ s.others i, ¬ s.Threatens o url)
    (file : ∀ p, recordedPid s.file = some p → t.Alive p → recordedPid t.file = some p) :
    t.Sound := by
  have hlt : ∀ p, t.owner = some p → p < s.services.length := fun p hp =>
    h.known.owner p (owner ▸ hp)
  refine h.change ⟨before, after, outlasts, pids, filePid,
    fun p hp => Nat.lt_of_lt_of_le (hlt p hp) outlasts.1, threat, commit, file, ?_, ?_, ?_, ?_⟩
  · intro p hp _
    exact Or.inl (care.has ▸ hp)
  · intro p hp
    exact Or.inl (care.owns ▸ hp)
  · intro p hp ht
    rw [care.claims]
    exact h.claimed_or before (owner ▸ hp) (outlasts.alive (hlt p hp) ht)
  · intro p hp _
    exact Or.inl (care.keeps ▸ hp)

/-- A call moves on and writes no file. -/
lemma Sound.move (h : s.Sound) (before : s.procs[i]? = some ph)
    (after : t.procs = s.procs.set i ph') (outlasts : s.Outlasts t) (hfile : t.file = s.file)
    (owner : t.owner = s.owner) (care : ph.SameCare ph')
    (pids : ∀ p ∈ ph'.pids, p ∈ ph.pids ∨ recordedPid s.file = some p)
    (threat : ∀ url, s.Threatens ph' url → ∀ o ∈ s.others i, o.jobUrl ≠ some url)
    (commit : ∀ url, ph'.jobUrl = some url →
      ph.jobUrl = some url ∨ ∀ o ∈ s.others i, ¬ s.Threatens o url) : t.Sound := by
  have hlt : ∀ p ∈ ph'.pids, p < s.services.length := fun p hp =>
    h.pid_lt before ((pids p hp).imp_right Or.inl)
  refine h.writes before after outlasts owner care
    (fun p hp => Nat.lt_of_lt_of_le (hlt p hp) outlasts.1) (fun p hp => ?_)
    (fun url hthreat => threat url (outlasts.threatens hlt hthreat)) commit
    fun p hp _ => hfile ▸ hp
  rw [hfile] at hp
  exact Nat.lt_of_lt_of_le (h.known.file p hp) outlasts.1

/-- The call that moves on is not about to stop a head, and commits no job. -/
lemma Sound.pass (h : s.Sound) (before : s.procs[i]? = some ph)
    (after : t.procs = s.procs.set i ph') (outlasts : s.Outlasts t) (hfile : t.file = s.file)
    (owner : t.owner = s.owner) (care : ph.SameCare ph')
    (pids : ∀ p ∈ ph'.pids, p ∈ ph.pids ∨ recordedPid s.file = some p)
    (htarget : ph'.target = none ∧ ph'.shutUrl = none) (hjob : ph'.jobUrl = none) : t.Sound :=
  h.move before after outlasts hfile owner care pids (threat_none htarget) (commit_none hjob)

/-- Only the heads change. -/
lemma Sound.of_services (h : s.Sound) (hprocs : t.procs = s.procs) (outlasts : s.Outlasts t)
    (hfile : t.file = s.file) (howner : t.owner = s.owner) : t.Sound := by
  obtain ⟨hknown, hthreats, hrecorded, hclaimed, hkept⟩ := h
  have hpids : ∀ {o}, o ∈ s.procs → ∀ p ∈ o.pids, p < s.services.length := fun ho =>
    hknown.procs _ ho
  have halive : ∀ {o p}, o ∈ s.procs → o.has = some p → t.Alive p → s.Alive p :=
    fun ho hhas => outlasts.alive (hpids ho _ (Phase.mem_pids_of_has hhas))
  refine ⟨⟨fun o ho p hp => ?_, fun p hp => ?_, fun p hp => ?_⟩, ?_, ?_, ?_, ?_⟩
  · rw [hprocs] at ho
    exact Nat.lt_of_lt_of_le (hpids ho p hp) outlasts.1
  · rw [hfile] at hp
    exact Nat.lt_of_lt_of_le (hknown.file p hp) outlasts.1
  · rw [howner] at hp
    exact Nat.lt_of_lt_of_le (hknown.owner p hp) outlasts.1
  · rw [hprocs]
    exact fun o ho url hthreat => hthreats o ho url (outlasts.threatens (hpids ho) hthreat)
  · rw [hprocs, hfile]
    exact fun o ho p hhas ht => hrecorded o ho p hhas (halive ho hhas ht)
  · rw [hprocs, howner]
    exact fun p hp ht => hclaimed p hp (outlasts.alive (hknown.owner p hp) ht)
  · rw [hprocs]
    exact fun o ho p howns ht => hkept o ho p howns (halive ho (Phase.has_of_owns howns) ht)

end Machine

end Burla.Head
