/-
Retried uploads: `_upload_input_chunk` and `_post_with_retries` (_node.py) against
`upload_inputs` (job_endpoints.py).

The client sends a chunk again when it gets no response in time, and the node cannot tell the
second request from the first.  A chunk goes to the queue once exactly as long as the node does
not enqueue the chunk of a request that the client has given up (`uploaded_once`);
`response_lost_enqueues_twice` is a run with a lost response.
-/
import Burla.Upload.Client
import Mathlib.Data.List.Nodup

namespace Burla.Upload

open Burla.Steal (Input)

/-- The attempts of `_post_with_retries`. -/
def maxRetries : ℕ := 5

/-- The number of 404 and 409 responses that `_upload_input_chunk` puts up with. -/
def maxRefusals : ℕ := 60

/-! ### The two sides -/

/-- Where a request stands on the node. -/
inductive RequestPhase
  /-- Under way. -/
  | sent
  /-- Held back until workers drain the queue. -/
  | waiting
  /-- Unpickled, about to be put on the queue. -/
  | loaded
  | replied (status : ℕ)
  deriving DecidableEq, Repr

structure Request where
  chunk : List Input
  phase : RequestPhase
  deriving DecidableEq, Repr

/-- The client's task. -/
inductive Uploader
  | idle
  /-- Waits for the response to the last request that was sent. -/
  | posting (chunk : List Input) (attemptIndex retryCount : ℕ)
  /-- The upload has raised. -/
  | raised
  deriving DecidableEq, Repr

/-- A client's task and its node. -/
structure Post where
  uploader : Uploader
  /-- The chunks that the client takes for uploaded. -/
  uploaded : List (List Input)
  /-- The requests, oldest first. -/
  requests : List Request
  /-- `SELF["current_job"]` is the job. -/
  jobHere : Bool
  /-- `SELF["inputs_queue"].size_bytes`. -/
  sizeBytes : ℕ
  /-- What `upload_inputs` has put on the queue. -/
  queued : List ℕ
  deriving DecidableEq, Repr

inductive PostEvent
  /-- The task has popped a chunk. -/
  | start (chunk : List Input)
  /-- A request arrives. -/
  | arrive (r : ℕ)
  /-- A request that is held back looks again. -/
  | look (r : ℕ)
  | put (r : ℕ)
  /-- The client reads the response to its last request. -/
  | respond
  /-- The relay responds in the node's place. -/
  | gateway (status : ℕ)
  /-- The client gives up its last request: a network error, or no response in time. -/
  | giveUp
  /-- The node is assigned a job, or ends it. -/
  | assign (jobHere : Bool)
  /-- Workers and peers change the queue's size. -/
  | resize (sizeBytes : ℕ)
  deriving DecidableEq, Repr

/-- The chunk's size on the queue. -/
def chunkBytes (chunk : List Input) : ℕ := (chunk.map fun input => input.inputPkl.length).sum

namespace Post

variable (s : Post)

/-- The chunk is sent, for the first time or again. -/
def post (chunk : List Input) (attemptIndex retryCount : ℕ) : Post :=
  { s with
    uploader := .posting chunk attemptIndex retryCount
    requests := s.requests ++ [⟨chunk, .sent⟩] }

def setPhase (r : ℕ) (q : Request) (phase : RequestPhase) : Post :=
  { s with requests := s.requests.set r { q with phase } }

/-- Whether the job is still here, and then whether the queue has room. -/
def receive (inputsQueueRamLimitBytes : ℕ) (r : ℕ) (q : Request) : Post :=
  if s.jobHere = false then s.setPhase r q (.replied 404)
  else if inputsQueueRamLimitBytes < s.sizeBytes then s.setPhase r q .waiting
  else s.setPhase r q .loaded

/-- The inputs of the chunk go to the queue. -/
def put (r : ℕ) (q : Request) : Post :=
  { s.setPhase r q (.replied 200) with
    sizeBytes := s.sizeBytes + chunkBytes q.chunk
    queued := s.queued ++ indices q.chunk }

/-- What the client makes of a response. -/
def read (chunk : List Input) (retryCount status : ℕ) : Post :=
  if status = 404 ∨ status = 409 then
    if maxRefusals < retryCount + 1 then { s with uploader := .raised }
    else s.post chunk 0 (retryCount + 1)
  else if 400 ≤ status then { s with uploader := .raised }
  else { s with uploader := .idle, uploaded := s.uploaded ++ [chunk] }

/-- The request that the client waits for. -/
def current : ℕ := s.requests.length - 1

/-- The last request was the last attempt of `_post_with_retries`. -/
def lastAttempt : Bool :=
  match s.uploader with
  | .posting _ attemptIndex _ => attemptIndex + 1 = maxRetries
  | _ => false

/-- The inputs of the chunks that the client has begun to upload. -/
def begun : List ℕ :=
  match s.uploader with
  | .posting chunk _ _ => s.uploaded.flatMap indices ++ indices chunk
  | _ => s.uploaded.flatMap indices

/-- Before the first chunk. -/
structure Fresh : Prop where
  uploader : s.uploader = .idle
  uploaded : s.uploaded = []
  requests : s.requests = []
  queued : s.queued = []

end Post

/-- One step; a chunk is popped from lists in which no input is twice. -/
def postStep (inputsQueueRamLimitBytes : ℕ) (s : Post) : PostEvent → Option Post
  | .start chunk =>
    if s.uploader = .idle ∧ (s.begun ++ indices chunk).Nodup then some (s.post chunk 0 0) else none
  | .arrive r =>
    match s.requests[r]? with
    | some ⟨chunk, .sent⟩ => some (s.receive inputsQueueRamLimitBytes r ⟨chunk, .sent⟩)
    | _ => none
  | .look r =>
    match s.requests[r]? with
    | some ⟨chunk, .waiting⟩ => some (s.receive inputsQueueRamLimitBytes r ⟨chunk, .waiting⟩)
    | _ => none
  | .put r =>
    match s.requests[r]? with
    | some ⟨chunk, .loaded⟩ => some (s.put r ⟨chunk, .loaded⟩)
    | _ => none
  | .respond =>
    match s.uploader, s.requests[s.current]? with
    | .posting chunk _ retryCount, some ⟨_, .replied status⟩ => some (s.read chunk retryCount status)
    | _, _ => none
  | .gateway status =>
    match s.uploader with
    | .posting _ _ _ =>
      if 400 ≤ status ∧ status ≠ 404 ∧ status ≠ 409 then some { s with uploader := .raised }
      else none
    | _ => none
  | .giveUp =>
    match s.uploader with
    | .posting chunk attemptIndex retryCount =>
      if s.lastAttempt then some { s with uploader := .raised }
      else some (s.post chunk (attemptIndex + 1) retryCount)
    | _ => none
  | .assign jobHere => some { s with jobHere }
  | .resize sizeBytes => some { s with sizeBytes }

/-- The system of a client's task that uploads to its node. -/
def upload (inputsQueueRamLimitBytes : ℕ) : System Post PostEvent where
  init := Post.Fresh
  step := postStep inputsQueueRamLimitBytes

/-- The steps at which no request that the client has given up gets to the queue: the client
sends a chunk again only if it is not on the queue, and the node puts there the chunk of the
request that the client waits for, or of an upload that has raised. -/
def Answered (s : Post) : PostEvent → Prop
  | .giveUp =>
    (∀ q ∈ s.requests[s.current]?, q.phase ≠ .replied 200) ∨ s.lastAttempt = true
  | .put r =>
    s.uploader ≠ .raised ∧ s.uploader ≠ .idle ∧ r = s.current ∨
      s.uploader = .raised ∧ ∀ q ∈ s.requests[r]?, q.chunk ∉ s.uploaded
  | _ => True

instance (s : Post) : (e : PostEvent) → Decidable (Answered s e)
  | .giveUp | .put _ => inferInstanceAs (Decidable (_ ∨ _))
  | .start _ | .arrive _ | .look _ | .respond | .gateway _ | .assign _ | .resize _ =>
    .isTrue trivial

/-! ### The invariant -/

namespace Post

variable {s : Post} {chunk : List Input} {attemptIndex retryCount r : ℕ} {q : Request}
  {phase : RequestPhase}

/-- The chunk of the request that the client waits for is on the queue. -/
def Enqueued (s : Post) : Prop := ∃ q, s.requests[s.current]? = some q ∧ q.phase = .replied 200

/-- While the client goes on, the queue has got what is uploaded, and the chunk that is on its
way if its last request says so. -/
structure Sound (s : Post) : Prop where
  statuses : ∀ q ∈ s.requests, ∀ status, q.phase = .replied status → status = 200 ∨ status = 404
  nodup : s.begun.Nodup
  idle : s.uploader = .idle →
    s.queued = s.uploaded.flatMap indices ∧ ∀ q ∈ s.requests, q.chunk ∈ s.uploaded
  posting : ∀ chunk a n, s.uploader = .posting chunk a n →
    (s.Enqueued → s.queued = s.uploaded.flatMap indices ++ indices chunk) ∧
    (¬s.Enqueued → s.queued = s.uploaded.flatMap indices) ∧
    (∃ q, s.requests[s.current]? = some q ∧ q.chunk = chunk) ∧
    ∀ q ∈ s.requests, q.chunk ∈ s.uploaded ∨ q.chunk = chunk
  raised : s.uploader = .raised →
    (∀ k ∈ s.uploaded.flatMap indices, s.queued.count k = 1) ∧
    ∀ q ∈ s.requests, q.chunk ∈ s.uploaded ∨
      ∀ k ∈ indices q.chunk, k ∉ s.uploaded.flatMap indices

lemma Fresh.sound (h : s.Fresh) : s.Sound where
  statuses := by simp [h.requests]
  nodup := by simp [begun, h.uploader, h.uploaded]
  idle _ := by simp [h.queued, h.uploaded, h.requests]
  posting _ _ _ hp := by simp [h.uploader] at hp
  raised hr := by simp [h.uploader] at hr

/-- The request that is sent is the one that the client waits for. -/
lemma current_post :
    (s.post chunk attemptIndex retryCount).requests[(s.post chunk attemptIndex retryCount).current]? =
      some ⟨chunk, .sent⟩ := by
  simp [post, current]

/-- A chunk is sent that is not on the queue. -/
lemma Sound.post (h : s.Sound) (hnodup : (s.uploaded.flatMap indices ++ indices chunk).Nodup)
    (hqueued : s.queued = s.uploaded.flatMap indices)
    (hchunks : ∀ q ∈ s.requests, q.chunk ∈ s.uploaded ∨ q.chunk = chunk) :
    (s.post chunk attemptIndex retryCount).Sound where
  statuses q hq status hphase := by
    rcases List.mem_append.1 hq with hq | hq
    · exact h.statuses q hq status hphase
    · obtain rfl := List.mem_singleton.1 hq
      simp at hphase
  nodup := hnodup
  idle hidle := by simp [Post.post] at hidle
  posting chunk' a n hp := by
    obtain ⟨rfl, rfl, rfl⟩ : chunk = chunk' ∧ attemptIndex = a ∧ retryCount = n := by
      simpa [Post.post] using hp
    refine ⟨?_, fun _ => hqueued, ⟨_, current_post, rfl⟩, fun q hq => ?_⟩
    · rintro ⟨q, hq, hphase⟩
      rw [current_post] at hq
      obtain rfl := Option.some.inj hq
      simp at hphase
    · rcases List.mem_append.1 hq with hq | hq
      · exact hchunks q hq
      · obtain rfl := List.mem_singleton.1 hq
        exact .inr rfl
  raised hr := by simp [Post.post] at hr

/-- The upload raises. -/
lemma Sound.raise (h : s.Sound) (hposting : s.uploader = .posting chunk attemptIndex retryCount) :
    Sound { s with uploader := .raised } := by
  obtain ⟨hyes, hno, -, hchunks⟩ := h.posting _ _ _ hposting
  have hnodup := h.nodup
  simp only [begun, hposting] at hnodup
  obtain ⟨hnodup', -, hdisjoint⟩ := List.nodup_append.1 hnodup
  refine ⟨h.statuses, hnodup', by simp, by simp, fun _ => ⟨fun k hk => ?_, fun q hq => ?_⟩⟩
  · show s.queued.count k = 1
    by_cases hen : s.Enqueued
    · rw [hyes hen]
      exact List.count_eq_one_of_mem hnodup (List.mem_append_left _ hk)
    · rw [hno hen]
      exact List.count_eq_one_of_mem hnodup' hk
  · rcases hchunks q hq with hq | rfl
    · exact .inl hq
    · exact .inr fun k hk hk' => hdisjoint k hk' k hk rfl

/-! ### Requests on the node -/

lemma mem_setPhase {q' : Request} (hq' : q' ∈ (s.setPhase r q phase).requests) :
    q' ∈ s.requests ∨ q' = { q with phase } := List.mem_or_eq_of_mem_set hq'

@[simp] lemma current_setPhase : (s.setPhase r q phase).current = s.current := by
  simp [setPhase, current]

lemma getElem_setPhase (hr : s.requests[r]? = some q) :
    (s.setPhase r q phase).requests[r]? = some { q with phase } := by
  have hlt : r < s.requests.length := (List.getElem?_eq_some_iff.1 hr).1
  simp [setPhase, hlt]

lemma getElem_setPhase_of_ne {r' : ℕ} (hne : r ≠ r') :
    (s.setPhase r q phase).requests[r']? = s.requests[r']? := by
  simp [setPhase, hne]

/-- What holds of the chunks of all requests holds after a request has moved on. -/
lemma chunks_setPhase {Q : List Input → Prop} (hr : s.requests[r]? = some q)
    (h : ∀ q ∈ s.requests, Q q.chunk) : ∀ q' ∈ (s.setPhase r q phase).requests, Q q'.chunk := by
  intro q' hq'
  rcases mem_setPhase hq' with hq' | rfl
  · exact h q' hq'
  · exact h q (List.mem_of_getElem? hr)

/-- The request that the client waits for keeps its chunk. -/
lemma current_chunk_setPhase (hr : s.requests[r]? = some q)
    (h : ∃ q, s.requests[s.current]? = some q ∧ q.chunk = chunk) :
    ∃ q', (s.setPhase r q phase).requests[(s.setPhase r q phase).current]? = some q' ∧
      q'.chunk = chunk := by
  obtain ⟨q₀, hq₀, hchunk⟩ := h
  rw [current_setPhase]
  by_cases hrc : r = s.current
  · subst hrc
    obtain rfl : q = q₀ := Option.some.inj (hr.symm.trans hq₀)
    exact ⟨_, getElem_setPhase hr, hchunk⟩
  · exact ⟨q₀, by rw [getElem_setPhase_of_ne hrc, hq₀], hchunk⟩

/-- A request that has not been answered moves on without being enqueued. -/
lemma enqueued_setPhase (hr : s.requests[r]? = some q) (hold : q.phase ≠ .replied 200)
    (hnew : phase ≠ .replied 200) : (s.setPhase r q phase).Enqueued ↔ s.Enqueued := by
  simp only [Enqueued, current_setPhase]
  by_cases hrc : r = s.current
  · subst hrc
    rw [getElem_setPhase hr, hr]
    simp [hold, hnew]
  · rw [getElem_setPhase_of_ne hrc]

lemma Sound.setPhase (h : s.Sound) (hr : s.requests[r]? = some q)
    (hold : q.phase ≠ .replied 200)
    (hnew : phase = .waiting ∨ phase = .loaded ∨ phase = .replied 404) :
    (s.setPhase r q phase).Sound where
  statuses q' hq' status hphase := by
    rcases mem_setPhase hq' with hq' | rfl
    · exact h.statuses q' hq' status hphase
    · obtain rfl : phase = .replied status := hphase
      simp at hnew
      exact .inr hnew
  nodup := h.nodup
  idle hidle := ⟨(h.idle hidle).1, chunks_setPhase hr (h.idle hidle).2⟩
  posting chunk a n hp := by
    obtain ⟨hyes, hno, hcurrent, hchunks⟩ := h.posting chunk a n hp
    have hen : (s.setPhase r q phase).Enqueued ↔ s.Enqueued :=
      enqueued_setPhase hr hold (by rcases hnew with rfl | rfl | rfl <;> simp)
    exact ⟨fun he => hyes (hen.1 he), fun he => hno fun hs => he (hen.2 hs),
      current_chunk_setPhase hr hcurrent,
      chunks_setPhase (Q := fun c => c ∈ s.uploaded ∨ c = chunk) hr hchunks⟩
  raised hraised := ⟨(h.raised hraised).1,
    chunks_setPhase (Q := fun c => c ∈ s.uploaded ∨ ∀ k ∈ indices c, k ∉ s.uploaded.flatMap indices)
      hr (h.raised hraised).2⟩

lemma Sound.receive (h : s.Sound) (hr : s.requests[r]? = some q) (hold : q.phase ≠ .replied 200)
    (inputsQueueRamLimitBytes : ℕ) : (s.receive inputsQueueRamLimitBytes r q).Sound := by
  unfold Post.receive
  split_ifs
  · exact h.setPhase hr hold (.inr (.inr rfl))
  · exact h.setPhase hr hold (.inl rfl)
  · exact h.setPhase hr hold (.inr (.inl rfl))

/-- The chunk of the request that the client waits for, or of an upload that has raised, goes to
the queue. -/
lemma Sound.put (h : s.Sound) (hr : s.requests[r]? = some q) (hold : q.phase = .loaded)
    (hok : Answered s (.put r)) : (s.put r q).Sound where
  statuses q' hq' status hphase := by
    rcases mem_setPhase hq' with hq' | rfl
    · exact h.statuses q' hq' status hphase
    · exact .inl (RequestPhase.replied.inj hphase).symm
  nodup := h.nodup
  idle hidle := by
    have hidle' : s.uploader = .idle := hidle
    simp [Answered, hidle'] at hok
  posting chunk a n hp := by
    have hp' : s.uploader = .posting chunk a n := hp
    obtain ⟨hyes, hno, hcurrent, hchunks⟩ := h.posting chunk a n hp'
    obtain rfl : r = s.current := by simpa [Answered, hp'] using hok
    have hen : (s.put s.current q).Enqueued := by
      refine ⟨{ q with phase := .replied 200 }, ?_, rfl⟩
      show (s.setPhase s.current q (.replied 200)).requests[
        (s.setPhase _ q (.replied 200)).current]? = _
      rw [current_setPhase, getElem_setPhase hr]
    have hbefore : ¬s.Enqueued := by
      rintro ⟨q₀, hq₀, hphase⟩
      obtain rfl : q = q₀ := Option.some.inj (hr.symm.trans hq₀)
      simp [hold] at hphase
    have hqchunk : q.chunk = chunk := by
      obtain ⟨q₀, hq₀, hchunk⟩ := hcurrent
      obtain rfl : q = q₀ := Option.some.inj (hr.symm.trans hq₀)
      exact hchunk
    refine ⟨fun _ => ?_, fun he => absurd hen he, current_chunk_setPhase hr hcurrent,
      chunks_setPhase (Q := fun c => c ∈ s.uploaded ∨ c = chunk) hr hchunks⟩
    show s.queued ++ indices q.chunk = _
    rw [hno hbefore, hqchunk]
    rfl
  raised hraised := by
    have hraised' : s.uploader = .raised := hraised
    obtain ⟨hcount, hchunks⟩ := h.raised hraised'
    have hnew : q.chunk ∉ s.uploaded := by
      simp only [Answered, hraised'] at hok
      simpa [hr] using hok
    have hout := (hchunks q (List.mem_of_getElem? hr)).resolve_left hnew
    refine ⟨fun k hk => ?_,
      chunks_setPhase (Q := fun c => c ∈ s.uploaded ∨ ∀ k ∈ indices c, k ∉ s.uploaded.flatMap indices)
        hr hchunks⟩
    show (s.queued ++ indices q.chunk).count k = 1
    rw [List.count_append, hcount k hk, List.count_eq_zero_of_not_mem fun hk' => hout k hk' hk]

/-- The client reads the response to its last request. -/
lemma Sound.read (h : s.Sound) (hposting : s.uploader = .posting chunk attemptIndex retryCount)
    {status : ℕ} (hr : s.requests[s.current]? = some q) (hphase : q.phase = .replied status) :
    (s.read chunk retryCount status).Sound := by
  obtain ⟨hyes, hno, -, hchunks⟩ := h.posting _ _ _ hposting
  have hnodup := h.nodup
  simp only [begun, hposting] at hnodup
  rcases h.statuses q (List.mem_of_getElem? hr) status hphase with rfl | rfl
  · -- the chunk is on the queue, and the client takes it for uploaded
    have hqueued := hyes ⟨q, hr, hphase⟩
    have hread : s.read chunk retryCount 200 =
        { s with uploader := .idle, uploaded := s.uploaded ++ [chunk] } := by simp [Post.read]
    rw [hread]
    refine ⟨h.statuses, by simpa [begun] using hnodup, fun _ => ⟨?_, fun q hq => ?_⟩, by simp,
      by simp⟩
    · simpa using hqueued
    · rcases hchunks q hq with hq | rfl
      · exact List.mem_append_left _ hq
      · exact List.mem_append_right _ (List.mem_singleton_self _)
  · -- the job is not there (yet)
    have hbefore : ¬s.Enqueued := by
      rintro ⟨q₀, hq₀, hphase₀⟩
      obtain rfl : q = q₀ := Option.some.inj (hr.symm.trans hq₀)
      simp [hphase] at hphase₀
    unfold Post.read
    rw [if_pos (.inl rfl)]
    split_ifs
    · exact h.raise hposting
    · exact h.post hnodup (hno hbefore) hchunks

/-- No step duplicates or forgets a chunk, if every response counts. -/
lemma Sound.step {inputsQueueRamLimitBytes : ℕ} {t : Post} {e : PostEvent} (h : s.Sound)
    (hok : Answered s e) (hstep : postStep inputsQueueRamLimitBytes s e = some t) : t.Sound := by
  cases e with
  | start chunk =>
    simp only [postStep, Option.ite_none_right_eq_some, Option.some.injEq] at hstep
    obtain ⟨⟨hidle, hnodup⟩, rfl⟩ := hstep
    simp only [begun, hidle] at hnodup
    obtain ⟨hqueued, hchunks⟩ := h.idle hidle
    exact h.post hnodup hqueued fun q hq => .inl (hchunks q hq)
  | arrive r =>
    simp only [postStep] at hstep
    split at hstep
    · rename_i chunk hr
      obtain rfl := Option.some.inj hstep
      exact h.receive hr (by simp) _
    · cases hstep
  | look r =>
    simp only [postStep] at hstep
    split at hstep
    · rename_i chunk hr
      obtain rfl := Option.some.inj hstep
      exact h.receive hr (by simp) _
    · cases hstep
  | put r =>
    simp only [postStep] at hstep
    split at hstep
    · rename_i chunk hr
      obtain rfl := Option.some.inj hstep
      exact h.put hr rfl hok
    · cases hstep
  | respond =>
    simp only [postStep] at hstep
    split at hstep
    · rename_i chunk a retryCount c status hposting hr
      obtain rfl := Option.some.inj hstep
      exact h.read hposting hr rfl
    · cases hstep
  | gateway status =>
    simp only [postStep] at hstep
    split at hstep
    · rename_i chunk a n hposting
      simp only [Option.ite_none_right_eq_some, Option.some.injEq] at hstep
      obtain ⟨-, rfl⟩ := hstep
      exact h.raise hposting
    · cases hstep
  | giveUp =>
    simp only [postStep] at hstep
    split at hstep
    · rename_i chunk a n hposting
      split_ifs at hstep with hlast
      · obtain rfl := Option.some.inj hstep
        exact h.raise hposting
      · obtain rfl := Option.some.inj hstep
        obtain ⟨-, hno, -, hchunks⟩ := h.posting _ _ _ hposting
        have hbefore : ¬s.Enqueued := by
          rintro ⟨q, hq, hphase⟩
          exact hok.resolve_right hlast q hq hphase
        have hnodup := h.nodup
        simp only [begun, hposting] at hnodup
        exact h.post hnodup (hno hbefore) hchunks
    · cases hstep
  | assign jobHere | resize sizeBytes =>
    obtain rfl := Option.some.inj hstep
    exact ⟨h.statuses, h.nodup, h.idle, h.posting, h.raised⟩

end Post

section Runs

variable {inputsQueueRamLimitBytes : ℕ}

/-- **Retried uploads**: in runs in which the node puts no chunk on its queue for a request that
the client has given up, every input of a chunk that the client takes for uploaded has been put
there exactly once. -/
theorem uploaded_once {s : Post} (h : (upload inputsQueueRamLimitBytes).Reachable Answered s) :
    ∀ chunk ∈ s.uploaded, ∀ input ∈ chunk, s.queued.count input.inputIndex = 1 := by
  have hinv : (upload inputsQueueRamLimitBytes).Invariant Answered Post.Sound :=
    ⟨fun _ hs => hs.sound, fun _ _ _ hs hok hstep => hs.step hok hstep⟩
  have hsound := hinv.reachable h
  intro chunk hchunk input hinput
  have hmem : input.inputIndex ∈ s.uploaded.flatMap indices :=
    List.mem_flatMap.2 ⟨chunk, hchunk, List.mem_map_of_mem hinput⟩
  have hnodup := hsound.nodup
  cases huploader : s.uploader with
  | idle =>
    rw [(hsound.idle huploader).1]
    simp only [Post.begun, huploader] at hnodup
    exact List.count_eq_one_of_mem hnodup hmem
  | posting c a n =>
    obtain ⟨hyes, hno, -⟩ := hsound.posting c a n huploader
    simp only [Post.begun, huploader] at hnodup
    by_cases hen : s.Enqueued
    · rw [hyes hen]
      exact List.count_eq_one_of_mem hnodup (List.mem_append_left _ hmem)
    · rw [hno hen]
      exact List.count_eq_one_of_mem (List.nodup_append.1 hnodup).1 hmem
  | raised => exact (hsound.raised huploader).1 _ hmem

end Runs

/-! ### Two runs -/

/-- A node with the job, before the first chunk. -/
def noChunk : Post where
  uploader := .idle
  uploaded := []
  requests := []
  jobHere := true
  sizeBytes := 0
  queued := []

lemma fresh_noChunk : noChunk.Fresh := ⟨rfl, rfl, rfl, rfl⟩

/-- The first request gets lost, and the second is held back for a while. -/
def heldBackRun : List PostEvent :=
  [.start [⟨0, [1]⟩, ⟨1, [2]⟩], .resize 9, .giveUp, .arrive 1, .resize 0, .look 1, .put 1, .respond]

def heldBack : Post :=
  (((upload 8).guarded Answered).exec noChunk heldBackRun).get (by decide +kernel)

theorem uploaded_once_heldBack :
    heldBack.uploaded.length = 1 ∧
      ∀ chunk ∈ heldBack.uploaded, ∀ input ∈ chunk, heldBack.queued.count input.inputIndex = 1 := by
  have hrun : (upload 8).Run Answered noChunk heldBackRun heldBack :=
    System.run_of_exec_guarded (Option.some_get _).symm
  exact ⟨by decide +kernel, uploaded_once ⟨_, _, fresh_noChunk, hrun⟩⟩

/-- The response to the first request gets lost. -/
def responseLostRun : List PostEvent :=
  [.start [⟨0, [1]⟩], .arrive 0, .put 0, .giveUp, .arrive 1, .put 1, .respond]

def responseLost : Post :=
  (((upload 8).guarded System.always).exec noChunk responseLostRun).get (by decide +kernel)

theorem response_lost_enqueues_twice :
    ¬ ∀ (inputsQueueRamLimitBytes : ℕ) (s : Post),
      (upload inputsQueueRamLimitBytes).Reachable System.always s →
      ∀ chunk ∈ s.uploaded, ∀ input ∈ chunk, s.queued.count input.inputIndex = 1 := by
  intro h
  have hrun : (upload 8).Run System.always noChunk responseLostRun responseLost :=
    System.run_of_exec_guarded (Option.some_get _).symm
  have honce := h 8 _ ⟨_, _, fresh_noChunk, hrun⟩
  revert honce
  decide +kernel

end Burla.Upload
