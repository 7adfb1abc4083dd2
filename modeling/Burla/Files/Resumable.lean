/-
Uploads in chunks through the proxy of the head (`start_s3_upload_session` and `s3_upload_chunk` in
storage.py, `start_multipart`, `upload_part` and `complete_multipart` in blobstore.py).

A chunk comes with a header that says which bytes of the file it has; the request waits for its
body, and then the chunk is the next part of the upload, whatever the header says it begins with.
Any number of requests may be waiting, of any sessions, and they go on in any order; clients send
what they like again.  Each call to the cloud may be refused, and its answer may get lost.

The main result is `Burla.Files.answers_right`: as long as every chunk that is handled begins where
the session's last one ended, an upload that is answered with 200 has made the file, and every
range that is answered with 308 is held.
-/
import Burla.Files.ContentRange
import Burla.Lib.System
import Mathlib.Data.List.Sort

namespace Burla.Files

/-! ### The proxy -/

abbrev Bytes := List UInt8

/-- An entry of `S3_UPLOAD_SESSIONS`; parts are given by their numbers. -/
structure Session where
  objectName : Text
  parts : List ℕ
  bytesReceived : ℤ
  expiresAt : ℕ
  /-- The token is still in `S3_UPLOAD_SESSIONS`. -/
  known : Bool

/-- A request that waits for its body; it has its session already. -/
structure Waiting where
  session : ℕ
  range : ContentRange
  body : Bytes

inductive Answer
  /-- Status 200, and the object that there is now. -/
  | created (object : Option Bytes)
  /-- Status 308, with the last byte of the range, and the bytes of the session's parts. -/
  | incomplete (stop : ℤ) (held : Bytes)
  | notFound
  | badRange (contentRange : Text)
  | failed

/-- Sessions are numbered; the number stands for the token and for the upload's id. -/
structure Proxy where
  sessions : List Session
  waiting : List Waiting
  /-- What has been uploaded, by session and by part. -/
  uploaded : Dict (ℕ × ℕ) Bytes
  objects : Dict Text Bytes
  answers : List (ℕ × Answer)

namespace Proxy

def empty : Proxy := ⟨[], [], .empty, .empty, []⟩

variable (s : Proxy)

def answer (i : ℕ) (a : Answer) : Proxy := { s with answers := s.answers ++ [(i, a)] }

/-- `S3_UPLOAD_SESSION_TTL_SECONDS` -/
def sessionTtlSeconds : ℕ := 24 * 3600

/-- `_prune_expired_upload_sessions` -/
def pruneExpired (now : ℕ) (sessions : List Session) : List Session :=
  sessions.map fun session => { session with known := session.known && now < session.expiresAt }

/-- `start_s3_upload_session` -/
def start (objectName : Text) (now : ℕ) : Proxy :=
  { s with
    sessions := pruneExpired now s.sessions ++
      [⟨objectName, [], 0, now + sessionTtlSeconds, true⟩] }

/-- The bytes that the cloud makes an object of: those of the parts, by their numbers. -/
def held (i : ℕ) (parts : List ℕ) : Bytes :=
  (parts.insertionSort (· ≤ ·)).flatMap fun m => (s.uploaded.get (i, m)).getD []

/-- `s3_upload_chunk`, until it waits for the body. -/
def receive (i : ℕ) (contentRange : Text) (body : Bytes) : Proxy :=
  match s.sessions[i]? with
  | some ⟨_, _, _, _, true⟩ =>
    match parseContentRange contentRange with
    | some range => { s with waiting := s.waiting ++ [⟨i, range, body⟩] }
    | none => s.answer i (.badRange contentRange)
  | _ => s.answer i .notFound

/-- `upload_part` -/
def uploadPart (i partNumber : ℕ) (body : Bytes) : Proxy :=
  { s with uploaded := s.uploaded.set (i, partNumber) body }

/-- `complete_multipart` -/
def completeMultipart (objectName : Text) (i : ℕ) (parts : List ℕ) : Proxy :=
  { s with objects := s.objects.set objectName (s.held i parts) }

def setSession (i : ℕ) (session : Session) : Proxy :=
  { s with sessions := s.sessions.set i session }

/-- `s3_upload_chunk`, once the body is there. -/
def uploadChunk (r : Waiting) (session : Session) (upload complete : Outcome) : Proxy :=
  let partNumber := session.parts.length + 1
  let s' := s.uploadPart r.session partNumber r.body
  let session' : Session :=
    { session with
      parts         := session.parts ++ [partNumber]
      bytesReceived := r.range.stop + 1 }
  match upload with
  | .refused => s.answer r.session .failed
  | .lost => s'.answer r.session .failed
  | .done =>
    if r.range.total ≤ r.range.stop + 1 then
      let t := s'.completeMultipart session.objectName r.session session'.parts
      match complete with
      | .refused => (s'.setSession r.session session').answer r.session .failed
      | .lost => (t.setSession r.session session').answer r.session .failed
      | .done => (t.setSession r.session { session' with known := false }).answer r.session
        (.created (t.objects.get session.objectName))
    else
      (s'.setSession r.session session').answer r.session
        (.incomplete r.range.stop (s'.held r.session session'.parts))

end Proxy

/-! ### Its runs -/

inductive Event
  | start (objectName : Text) (now : ℕ)
  /-- A client sends the bytes from `start` to `stop` of the session's file. -/
  | put (i start stop : ℕ)
  /-- A request's body is there, and what becomes of the calls to the cloud. -/
  | chunk (k : ℕ) (upload complete : Outcome)
  /-- A client goes away before its request's body is there. -/
  | disconnect (k : ℕ)

/-- The bytes from `start` to `stop`. -/
def slice (file : Bytes) (start stop : ℕ) : Bytes := (file.take (stop + 1)).drop start

variable (files : ℕ → Bytes)

/-- `files` says which file a session is for. -/
def Proxy.step (s : Proxy) : Event → Option Proxy
  | .start objectName now => some (s.start objectName now)
  | .put i start stop =>
    if start ≤ stop ∧ stop < (files i).length then
      some (s.receive i (contentRangeOf start stop (files i).length) (slice (files i) start stop))
    else none
  | .chunk k upload complete =>
    match s.waiting[k]? with
    | some r =>
      (s.sessions[r.session]?).map fun session =>
        { s with waiting := s.waiting.eraseIdx k }.uploadChunk r session upload complete
    | none => none
  | .disconnect k =>
    if k < s.waiting.length then some { s with waiting := s.waiting.eraseIdx k } else none

/-- The proxy, with the clients that send the files to it. -/
def proxy : System Proxy Event := ⟨fun s => s = .empty, Proxy.step files⟩

/-- 200 means that the file is there, and the range of 308 that its bytes are. -/
def Answer.Right (file : Bytes) : Answer → Prop
  | created object => object = some file
  | incomplete stop held => stop < file.length ∧ file.take (stop + 1).toNat <+: held
  | notFound | badRange _ | failed => True

/-- Every answer so far is right. -/
def Proxy.Right (files : ℕ → Bytes) (s : Proxy) : Prop := ∀ p ∈ s.answers, p.2.Right (files p.1)

/-- A chunk begins where the last one of its session ended. -/
def InOrder (s : Proxy) : Event → Prop
  | .chunk k _ _ =>
    ∀ r ∈ s.waiting[k]?, ∀ session ∈ s.sessions[r.session]?,
      r.range.start = session.bytesReceived
  | _ => True

/-! ### The invariant -/

namespace Proxy

variable {s t : Proxy} {i : ℕ}

lemma range'_one_succ (n : ℕ) : List.range' 1 (n + 1) = List.range' 1 n ++ [n + 1] := by
  rw [List.range'_concat, Nat.one_mul, Nat.add_comm]

/-- The parts are numbered as they came. -/
lemma held_range' (n : ℕ) :
    s.held i (List.range' 1 n) =
      (List.range' 1 n).flatMap fun m => (s.uploaded.get (i, m)).getD [] := by
  rw [held, List.Pairwise.insertionSort_eq (List.pairwise_le_range')]

lemma held_congr {n : ℕ} (h : ∀ m ≤ n, t.uploaded.get (i, m) = s.uploaded.get (i, m)) :
    t.held i (List.range' 1 n) = s.held i (List.range' 1 n) := by
  rw [held_range', held_range']
  refine List.flatMap_congr fun m hm => ?_
  have hle : m ≤ n := by
    obtain ⟨j, hj, rfl⟩ := List.mem_range'.1 hm
    omega
  rw [h m hle]

/-- A new part's bytes come last. -/
lemma held_uploadPart {n : ℕ} {body : Bytes} :
    (s.uploadPart i (n + 1) body).held i (List.range' 1 n ++ [n + 1]) =
      s.held i (List.range' 1 n) ++ body := by
  have hold : (s.uploadPart i (n + 1) body).held i (List.range' 1 n) =
      s.held i (List.range' 1 n) := by
    refine held_congr fun m hm => Dict.get_set_of_ne ?_
    simp only [ne_eq, Prod.mk.injEq, not_and]
    omega
  rw [← range'_one_succ, held_range', range'_one_succ, List.flatMap_append, ← held_range', hold]
  simp [uploadPart]

end Proxy

/-- The session's parts are the first bytes of the file, as many as it says. -/
structure Session.Holds (file : Bytes) (held : List ℕ → Bytes) (session : Session) : Prop where
  parts : session.parts = List.range' 1 session.parts.length
  received : ∃ n : ℕ, session.bytesReceived = n ∧ held session.parts = file.take n

/-- The request has the bytes of the file that its header says. -/
def Waiting.IsChunk (file : Bytes) (r : Waiting) : Prop :=
  ∃ start stop : ℕ, start ≤ stop ∧ stop < file.length ∧
    r.range = ⟨start, stop, file.length⟩ ∧ r.body = slice file start stop

variable {files}

structure Proxy.Sound (files : ℕ → Bytes) (s : Proxy) : Prop where
  sessions : ∀ i (session : Session), s.sessions[i]? = some session →
    session.Holds (files i) (s.held i)
  waiting : ∀ r ∈ s.waiting, r.IsChunk (files r.session)
  answers : s.Right files

lemma take_append_slice {file : Bytes} {start stop : ℕ} (h : start ≤ stop) :
    file.take start ++ slice file start stop = file.take (stop + 1) := by
  have htake : file.take start = (file.take (stop + 1)).take start := by
    rw [List.take_take, Nat.min_eq_left (by omega)]
  rw [slice, htake, List.take_append_drop]

namespace Proxy

variable {s t : Proxy}

lemma sound_empty : empty.Sound files := ⟨nofun, nofun, nofun⟩

namespace Sound

lemma answer (h : s.Sound files) {i : ℕ} {a : Answer} (ha : a.Right (files i)) :
    (s.answer i a).Sound files := by
  refine ⟨h.sessions, h.waiting, fun p hp => ?_⟩
  rcases List.mem_append.1 hp with hp | hp
  · exact h.answers p hp
  · obtain rfl := List.mem_singleton.1 hp
    exact ha

lemma eraseIdx (h : s.Sound files) (k : ℕ) :
    { s with waiting := s.waiting.eraseIdx k }.Sound files :=
  ⟨h.sessions, fun r hr => h.waiting r (List.mem_of_mem_eraseIdx hr), h.answers⟩

lemma start (h : s.Sound files) (objectName : Text) (now : ℕ) :
    (s.start objectName now).Sound files := by
  refine ⟨fun i session hi => ?_, h.waiting, h.answers⟩
  simp only [Proxy.start, pruneExpired, List.getElem?_append, List.length_map] at hi
  split_ifs at hi with hlt
  · obtain ⟨old, hold, rfl⟩ := List.getElem?_map .. ▸ hi |> Option.map_eq_some_iff.1
    exact ⟨(h.sessions i old hold).parts, (h.sessions i old hold).received⟩
  · obtain rfl := List.mem_singleton.1 (List.mem_of_getElem? hi)
    exact ⟨rfl, 0, rfl, rfl⟩

lemma receive (h : s.Sound files) {i start stop : ℕ} (hle : start ≤ stop)
    (hlt : stop < (files i).length) :
    (s.receive i (contentRangeOf start stop (files i).length)
      (slice (files i) start stop)).Sound files := by
  unfold Proxy.receive
  split
  · rw [parse_contentRangeOf]
    refine ⟨h.sessions, fun r hr => ?_, h.answers⟩
    rcases List.mem_append.1 hr with hr | hr
    · exact h.waiting r hr
    · obtain rfl := List.mem_singleton.1 hr
      exact ⟨start, stop, hle, hlt, rfl, rfl⟩
  · exact h.answer trivial

/-- A part that no session has listed changes nothing. -/
lemma uploadPart (h : s.Sound files) {i : ℕ} {session : Session} {b : Bytes}
    (hi : s.sessions[i]? = some session) :
    (s.uploadPart i (session.parts.length + 1) b).Sound files := by
  refine ⟨fun j other hj => ?_, h.waiting, h.answers⟩
  obtain ⟨hparts, n, hn, hheld⟩ := h.sessions j other hj
  refine ⟨hparts, n, hn, ?_⟩
  rw [← hheld, hparts]
  refine held_congr fun m hm => Dict.get_set_of_ne ?_
  rintro hkey
  obtain ⟨rfl, rfl⟩ := Prod.mk.inj hkey
  obtain rfl : other = session := Option.some.inj (hj.symm.trans hi)
  omega

lemma setSession (h : s.Sound files) {i : ℕ} {session : Session}
    (hsession : session.Holds (files i) (s.held i)) : (s.setSession i session).Sound files := by
  refine ⟨fun j other hj => ?_, h.waiting, h.answers⟩
  rcases eq_or_ne i j with rfl | hne
  · rw [Proxy.setSession, List.getElem?_set_self'] at hj
    obtain ⟨_, -, rfl⟩ := Option.map_eq_some_iff.1 hj
    exact ⟨hsession.parts, hsession.received⟩
  · rw [Proxy.setSession, List.getElem?_set_ne hne] at hj
    exact ⟨(h.sessions j other hj).parts, (h.sessions j other hj).received⟩

lemma completeMultipart (h : s.Sound files) (objectName : Text) (i : ℕ) (parts : List ℕ) :
    (s.completeMultipart objectName i parts).Sound files :=
  ⟨fun j session hj => ⟨(h.sessions j session hj).parts, (h.sessions j session hj).received⟩,
    h.waiting, h.answers⟩

/-- **A chunk that begins where the last one ended keeps the session's parts the first bytes of
the file.** -/
lemma uploadChunk (h : s.Sound files) {r : Waiting} {session : Session}
    (hr : r.IsChunk (files r.session)) (hi : s.sessions[r.session]? = some session)
    (hstart : r.range.start = session.bytesReceived) (upload complete : Outcome) :
    (s.uploadChunk r session upload complete).Sound files := by
  obtain ⟨start, stop, hle, hlt, hrange, hbody⟩ := hr
  obtain ⟨hparts, n, hn, hheld⟩ := h.sessions _ _ hi
  obtain rfl : start = n := by
    rw [hn, hrange] at hstart
    exact Int.ofNat.inj hstart
  have hupload := h.uploadPart (b := r.body) hi
  set s' := s.uploadPart r.session (session.parts.length + 1) r.body with hs'
  have hheld' : s'.held r.session (session.parts ++ [session.parts.length + 1]) =
      (files r.session).take (stop + 1) := by
    rw [← take_append_slice hle, ← hheld, ← hbody, hparts, List.length_range', hs', hparts,
      List.length_range']
    exact held_uploadPart
  have hholds : ∀ known, Session.Holds (files r.session) (s'.held r.session)
      { session with
        parts         := session.parts ++ [session.parts.length + 1]
        bytesReceived := r.range.stop + 1
        known         := known } := by
    intro known
    refine ⟨?_, stop + 1, ?_, hheld'⟩
    · simp only [List.length_append, List.length_singleton]
      rw [range'_one_succ, ← hparts]
    · rw [hrange]
      rfl
  have hcomplete := hupload.completeMultipart session.objectName r.session
    (session.parts ++ [session.parts.length + 1])
  cases upload with
  | refused => exact h.answer trivial
  | lost => exact hupload.answer trivial
  | done =>
    unfold Proxy.uploadChunk
    dsimp only
    split_ifs with hlast
    · cases complete with
      | refused => exact (hupload.setSession (hholds _)).answer trivial
      | lost => exact (hcomplete.setSession (hholds _)).answer trivial
      | done =>
        refine (hcomplete.setSession (hholds false)).answer ?_
        -- this was the last chunk
        have hstop : stop + 1 = (files r.session).length := by
          rw [hrange] at hlast
          dsimp only at hlast
          omega
        have hfile : s'.held r.session (session.parts ++ [session.parts.length + 1]) =
            files r.session := by
          rw [hheld', hstop, List.take_length]
        exact Dict.get_set_self.trans (congrArg some hfile)
    · refine (hupload.setSession (hholds _)).answer ⟨?_, ?_⟩
      · rw [hrange]
        exact Int.ofNat_lt.2 hlt
      · rw [hheld', hrange]
        exact List.prefix_rfl

lemma step (h : s.Sound files) {e : Event} (hok : InOrder s e) (hstep : s.step files e = some t) :
    t.Sound files := by
  cases e with
  | start objectName now =>
    obtain rfl := Option.some.inj hstep
    exact h.start objectName now
  | put i start stop =>
    obtain ⟨⟨hle, hlt⟩, hstep⟩ := Option.ite_none_right_eq_some.1 hstep
    obtain rfl := Option.some.inj hstep
    exact h.receive hle hlt
  | chunk k upload complete =>
    simp only [Proxy.step] at hstep
    split at hstep
    · rename_i r hk
      obtain ⟨session, hi, rfl⟩ := Option.map_eq_some_iff.1 hstep
      exact (h.eraseIdx k).uploadChunk (h.waiting r (List.mem_of_getElem? hk)) hi
        (hok r hk session hi) upload complete
    · cases hstep
  | disconnect k =>
    obtain ⟨-, hstep⟩ := Option.ite_none_right_eq_some.1 hstep
    obtain rfl := Option.some.inj hstep
    exact h.eraseIdx k

end Sound

end Proxy

/-- **As long as every chunk that is handled begins where the last one of its session ended, 200
means that the object is the file, and the range of 308 that its bytes are held.** -/
theorem answers_right {s : Proxy} (h : (proxy files).Reachable InOrder s) : s.Right files := by
  have hsound : s.Sound files := by
    refine System.Invariant.reachable (P := Proxy.Sound files) ⟨?_, ?_⟩ h
    · rintro _ rfl
      exact Proxy.sound_empty
    · exact fun _ _ _ hsound hok hstep => hsound.step hok hstep
  exact hsound.answers

def threeBytes : ℕ → Bytes := fun _ => [1, 2, 3]

instance (s : Proxy) : (e : Event) → Decidable (InOrder s e)
  | .chunk _ _ _ => inferInstanceAs (Decidable (∀ r ∈ _, ∀ session ∈ _, _))
  | .start _ _ | .put _ _ _ | .disconnect _ => .isTrue trivial

/-- Two chunks are on their way at once; the first is sent again, since its part was not
acknowledged. -/
def twoChunks : List Event :=
  [.start "a".toList 0, .put 0 0 1, .put 0 2 2, .chunk 0 .lost .done, .put 0 0 1,
    .chunk 1 .done .done, .chunk 0 .done .done]

theorem answers_right_twoChunks :
    (((proxy threeBytes).exec .empty twoChunks).get (by decide +kernel)).Right threeBytes := by
  refine answers_right ⟨.empty, twoChunks, rfl, System.run_of_exec_guarded ?_⟩
  rfl

/-- The first chunk of an upload is left out; that of another one is sent again, since the answer
to it was lost. -/
def leftOutAndAgain : List Event :=
  [.start "a".toList 0, .put 0 1 1, .chunk 0 .done .done, .put 0 2 2, .chunk 0 .done .done,
    .start "b".toList 0, .put 1 0 1, .chunk 0 .done .done, .put 1 0 1, .chunk 0 .done .done,
    .put 1 2 2, .chunk 0 .done .done]

/-- **Both uploads are answered with 200, and neither object is the file; before, bytes are named
that are not held.** -/
theorem wrong_objects_created : ∃ s : Proxy, (proxy threeBytes).Reachable System.always s ∧
    s.answers = [(0, .incomplete 1 [2]), (0, .created (some [2, 3])), (1, .incomplete 1 [1, 2]),
      (1, .incomplete 1 [1, 2, 1, 2]), (1, .created (some [1, 2, 1, 2, 3]))] ∧
      ¬s.Right threeBytes := by
  have hanswers : (((proxy threeBytes).exec .empty leftOutAndAgain).get (by decide +kernel)).answers
      = [(0, .incomplete 1 [2]), (0, .created (some [2, 3])), (1, .incomplete 1 [1, 2]),
        (1, .incomplete 1 [1, 2, 1, 2]), (1, .created (some [1, 2, 1, 2, 3]))] := rfl
  refine ⟨_, System.Reachable.exec ⟨_, [], rfl, .nil⟩ (Option.some_get _).symm, hanswers,
    fun h => ?_⟩
  have hcreated : (some [1, 2, 1, 2, 3] : Option Bytes) = some (threeBytes 1) :=
    h (1, .created (some [1, 2, 1, 2, 3])) (by simp [hanswers])
  exact absurd hcreated (by decide)

end Burla.Files
