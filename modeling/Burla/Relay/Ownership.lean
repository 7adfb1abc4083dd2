/-
Who may open which tunnel at the relay (auth_plugin.py).

The relay asks before a client logs in and before it opens a tunnel, and tells the project and the
token of the login again with each tunnel.  Requests are handled side by side: a token that is not
in the cache is checked with the backend outside of the lock, and what the backend answers may
change at any time.

The main result is `Burla.Relay.tunnels_owned`: in every run, the client of each open tunnel has
logged in with a token that the backend had accepted for its project, at most as long before as the
cache keeps it, the tunnel's hostname is one of that project, and no hostname below the relay's own
is shared by tunnels of two projects.
-/
import Burla.Lib.Dict
import Burla.Lib.Messages
import Burla.Lib.System
import Mathlib.Algebra.Order.Ring.Rat
import Mathlib.Data.Rat.Init

namespace Burla.Relay

abbrev Text := List Char

-- One proof for every test of whether a text is among others.
local instance lawfulBEq_text : LawfulBEq Text := inferInstance

/-- `TOKEN_CACHE_TTL_SEC` -/
def tokenCacheTtlSec : ℚ := 10 * 60

/-! ### Hostnames -/

/-- `[0-9a-f]` -/
def isHex (c : Char) : Bool := ('0' ≤ c && c ≤ '9') || ('a' ≤ c && c ≤ 'f')

/-- Eight hexadecimal digits between two texts, and nothing else. -/
def isEphemeral (start rest subdomain : Text) : Bool :=
  let id := (subdomain.drop start.length).take 8
  subdomain.take start.length = start && id.length = 8 && id.all isHex &&
    subdomain.drop (start.length + 8) = rest

/-- `_subdomain_belongs_to_project` -/
def subdomainBelongsToProject (subdomain projectId : Text) : Bool :=
  let rest := '-' :: '-' :: projectId
  subdomain = "head".toList ++ rest || isEphemeral "head-".toList rest subdomain ||
    isEphemeral "burla-node-".toList rest subdomain

/-! ### The backend -/

/-- What the backend says of a cluster's dashboard. -/
structure RoutingState where
  relayDashboardUrl : Option Text
  dashboardUrl : Option Text
  pendingCustomHostname : Option Text
  deriving DecidableEq

/-- An answer of the backend; without a status, the request has failed. -/
structure Answer where
  status : Option ℕ
  routing : RoutingState
  deriving DecidableEq

/-- The token has been accepted, perhaps before a dashboard is registered. -/
def Answer.accepts (a : Answer) : Bool := a.status = some 200 || a.status = some 409

/-- `_routing_state` -/
def Answer.routingState (a : Answer) : Option RoutingState :=
  if a.status = some 200 then some a.routing else none

/-! ### Requests -/

/-- The content of a login. -/
structure LoginContent where
  user : Option Text
  token : Option Text
  deriving DecidableEq

/-- The content of a new tunnel, apart from the login. -/
structure ProxyContent where
  subdomain : Option Text
  customDomains : Option (List Text)
  proxyType : Option Text
  deriving DecidableEq

inductive Verdict
  | allow
  | reject (reason : Text)
  deriving DecidableEq

/-- The project and the token of a login, unless one is missing. -/
def LoginContent.credentials (content : LoginContent) : Option (Text × Text) :=
  let projectId := content.user.getD []
  let token := content.token.getD []
  if projectId = [] ∨ token = [] then none else some (projectId, token)

/-- The hostnames that are assigned to a cluster; `hostname` is that of `urlparse`. -/
def RoutingState.allowedHostnames (hostname : Text → Option Text) (r : RoutingState) :
    List (Option Text) :=
  let relayHostname := hostname (r.relayDashboardUrl.getD [])
  let activeHostname := hostname (r.dashboardUrl.getD [])
  r.pendingCustomHostname ::
    if (activeHostname.getD []) ≠ [] ∧ activeHostname ≠ relayHostname then [activeHostname] else []

/-- `handler`, for a new tunnel. -/
def newProxy (hostname : Text → Option Text) (answer : Answer) (projectId : Text)
    (content : ProxyContent) : Verdict :=
  let subdomain := content.subdomain.getD []
  let customDomains := content.customDomains.getD []
  if content.proxyType ≠ some "https".toList then
    .reject "only https (SNI passthrough) proxies are allowed".toList
  else if subdomain ≠ [] ∧ customDomains ≠ [] then
    .reject "canonical and custom hostnames require separate proxies".toList
  else
    match customDomains with
    | customHostname :: others =>
      if others ≠ [] ∨ '*' ∈ customHostname then
        .reject "custom proxies must set exactly one non-wildcard hostname".toList
      else
        match answer.routingState with
        | none => .reject ("custom hostname authorization failed for ".toList ++ projectId)
        | some routing =>
          if some customHostname ∈ routing.allowedHostnames hostname then .allow
          else .reject ("custom hostname ".toList ++ customHostname ++ " is not assigned to ".toList
            ++ projectId)
    | [] =>
      if subdomain = [] then .reject "proxies must set a subdomain".toList
      else if subdomainBelongsToProject subdomain projectId then .allow
      else .reject ("subdomain ".toList ++ subdomain ++ " does not belong to project ".toList ++
        projectId)

/-! ### The relay -/

/-- A login that is being checked with the backend. -/
structure Validation where
  projectId : Text
  token : Text
  /-- The backend has accepted it. -/
  accepted : Bool
  deriving DecidableEq

/-- A login that was allowed, and when. -/
structure Session where
  projectId : Text
  token : Text
  since : ℚ
  deriving DecidableEq

/-- A tunnel that was allowed: its login, what was asked for, and what the backend said then. -/
structure Tunnel where
  session : Session
  content : ProxyContent
  answer : Answer
  deriving DecidableEq

structure Gatekeeper where
  now : ℚ
  /-- What the backend answers for a project and a token. -/
  answers : Text → Text → Answer
  /-- `_token_cache` -/
  tokenCache : Dict (Text × Text) ℚ
  validating : List Validation
  sessions : List Session
  tunnels : List Tunnel
  /-- The projects and tokens that the backend has accepted, and when. -/
  accepted : List ((Text × Text) × ℚ)

inductive RelayEvent
  | tick (later : ℚ)
  /-- Tokens, dashboards or custom hostnames change. -/
  | change (answers : Text → Text → Answer)
  | login (content : LoginContent)
  /-- The backend answers a check. -/
  | answered (i : ℕ)
  /-- An accepted token is put into the cache, and its login allowed. -/
  | record (i : ℕ)
  | newProxy (session : Session) (content : ProxyContent)
  | close (i : ℕ)

namespace Gatekeeper

variable (hostname : Text → Option Text) (r : Gatekeeper)

/-- A token is in the cache, and has not expired. -/
def cached (key : Text × Text) : Bool :=
  (r.tokenCache.get key).any fun expiresAt => r.now < expiresAt

/-- The cache with one more token; a large one loses what has expired. -/
def recordToken (key : Text × Text) : Dict (Text × Text) ℚ :=
  let tokenCache := r.tokenCache.set key (r.now + tokenCacheTtlSec)
  if 10000 < tokenCache.keys.length then
    tokenCache.filterValues fun expiry => !decide (expiry ≤ r.now)
  else tokenCache

def step : RelayEvent → Option Gatekeeper
  | .tick later => if r.now ≤ later then some { r with now := later } else none
  | .change answers => some { r with answers }
  | .login content =>
    match content.credentials with
    | none => some r
    | some (projectId, token) =>
      if r.cached (projectId, token) then
        some { r with sessions := ⟨projectId, token, r.now⟩ :: r.sessions }
      else some { r with validating := ⟨projectId, token, false⟩ :: r.validating }
  | .answered i =>
    match takeAt r.validating i with
    | some (⟨projectId, token, false⟩, rest) =>
      if (r.answers projectId token).accepts then
        some { r with
          validating := ⟨projectId, token, true⟩ :: rest
          accepted := ((projectId, token), r.now) :: r.accepted }
      else some { r with validating := rest }
    | _ => none
  | .record i =>
    match takeAt r.validating i with
    | some (⟨projectId, token, true⟩, rest) =>
      some { r with
        validating := rest
        tokenCache := r.recordToken (projectId, token)
        sessions := ⟨projectId, token, r.now⟩ :: r.sessions }
    | _ => none
  | .newProxy session content =>
    if session ∈ r.sessions then
      let answer := r.answers session.projectId session.token
      match Relay.newProxy hostname answer session.projectId content with
      | .allow => some { r with tunnels := ⟨session, content, answer⟩ :: r.tunnels }
      | .reject _ => some r
    else none
  | .close i => (takeAt r.tunnels i).map fun (_, tunnels) => { r with tunnels }

/-- A relay that has just been started. -/
def sys : System Gatekeeper RelayEvent where
  init r := r.tokenCache = .empty ∧ r.validating = [] ∧ r.sessions = [] ∧ r.tunnels = [] ∧
    r.accepted = []
  step := step hostname

end Gatekeeper

/-! ### Hostnames and their projects -/

section Hostnames

variable {start rest subdomain p q : Text}

lemma isEphemeral_iff : isEphemeral start rest subdomain = true ↔
    ∃ id : Text, id.length = 8 ∧ id.all isHex = true ∧ subdomain = start ++ id ++ rest := by
  simp only [isEphemeral, Bool.and_eq_true, decide_eq_true_eq]
  constructor
  · rintro ⟨⟨⟨hstart, hlength⟩, hhex⟩, hrest⟩
    refine ⟨_, hlength, hhex, ?_⟩
    calc subdomain
        = subdomain.take start.length ++ subdomain.drop start.length :=
          (List.take_append_drop _ _).symm
      _ = subdomain.take start.length ++ ((subdomain.drop start.length).take 8 ++
            (subdomain.drop start.length).drop 8) := by rw [List.take_append_drop 8]
      _ = start ++ (subdomain.drop start.length).take 8 ++ rest := by
          rw [hstart, List.drop_drop, hrest, List.append_assoc]
  · rintro ⟨id, hlength, hhex, rfl⟩
    rw [List.append_assoc, List.take_left, List.drop_left, ← hlength, List.take_left,
      ← List.length_append, ← List.append_assoc, List.drop_left]
    exact ⟨⟨⟨rfl, rfl⟩, hhex⟩, rfl⟩

/-- The project that a hostname is read as one of. -/
def projectOf (subdomain : Text) : Text :=
  if "head--".toList <+: subdomain then subdomain.drop 6
  else if "head-".toList <+: subdomain then subdomain.drop 15
  else subdomain.drop 21

lemma projectOf_ephemeral {id : Text} (hlength : id.length = 8) (hhex : id.all isHex = true) :
    projectOf ("head-".toList ++ id ++ '-' :: '-' :: p) = p ∧
      projectOf ("burla-node-".toList ++ id ++ '-' :: '-' :: p) = p := by
  match id, hlength, hhex with
  | [a, b, c, d, e, f, g, h], _, hhex =>
    have ha : a ≠ '-' := by
      rintro rfl
      cases hhex
    constructor
    · simp [projectOf, ha.symm]
    · simp [projectOf]

/-- **A hostname is one of one project**: which one can be read off it. -/
lemma projectOf_eq (h : subdomainBelongsToProject subdomain p = true) :
    projectOf subdomain = p := by
  simp only [subdomainBelongsToProject, Bool.or_eq_true, decide_eq_true_eq, isEphemeral_iff] at h
  rcases h with (rfl | ⟨id, hlength, hhex, rfl⟩) | ⟨id, hlength, hhex, rfl⟩
  · simp [projectOf]
  · exact (projectOf_ephemeral hlength hhex).1
  · exact (projectOf_ephemeral hlength hhex).2

end Hostnames

/-! ### Along a run -/

namespace Gatekeeper

variable {hostname : Text → Option Text} {r r' : Gatekeeper} {e : RelayEvent} {key : Text × Text}
  {expiry t : ℚ}

/-- The backend has accepted the token, and what it said then holds until a time after `t`. -/
def Vouched (r : Gatekeeper) (key : Text × Text) (t : ℚ) : Prop :=
  ∃ answered recorded, (key, answered) ∈ r.accepted ∧ answered ≤ recorded ∧ recorded ≤ t ∧
    t < recorded + tokenCacheTtlSec

/-- The hostname of a tunnel is its project's: one below the relay's that has its name, or one that
the backend assigned to it when the tunnel was opened. -/
def Assigned (hostname : Text → Option Text) (tunnel : Tunnel) : Prop :=
  (∃ subdomain, tunnel.content.subdomain = some subdomain ∧
    tunnel.content.customDomains.getD [] = [] ∧
    subdomainBelongsToProject subdomain tunnel.session.projectId = true) ∨
  ∃ customHostname routing, tunnel.content.subdomain.getD [] = [] ∧
    tunnel.content.customDomains = some [customHostname] ∧ '*' ∉ customHostname ∧
    tunnel.answer.routingState = some routing ∧
    some customHostname ∈ routing.allowedHostnames hostname

/-- The invariant of the relay. -/
structure Sound (hostname : Text → Option Text) (r : Gatekeeper) : Prop where
  tokenCache : ∀ key expiry, r.tokenCache.get key = some expiry → ∃ answered recorded,
    (key, answered) ∈ r.accepted ∧ answered ≤ recorded ∧ recorded ≤ r.now ∧
      expiry = recorded + tokenCacheTtlSec
  validating : ∀ v ∈ r.validating, v.accepted = true →
    ∃ answered, ((v.projectId, v.token), answered) ∈ r.accepted ∧ answered ≤ r.now
  sessions : ∀ session ∈ r.sessions, r.Vouched (session.projectId, session.token) session.since
  tunnels : ∀ tunnel ∈ r.tunnels, Assigned hostname tunnel ∧
    r.Vouched (tunnel.session.projectId, tunnel.session.token) tunnel.session.since

lemma ttl_pos : 0 < tokenCacheTtlSec := by decide +kernel

/-- A tunnel is allowed for an assigned hostname only. -/
lemma assigned_of_allow {answer : Answer} {session : Session} {content : ProxyContent}
    (h : Relay.newProxy hostname answer session.projectId content = .allow) :
    Assigned hostname ⟨session, content, answer⟩ := by
  rw [Relay.newProxy] at h
  split at h
  · cases h
  · split at h
    · cases h
    · rename_i hboth
      split at h
      · rename_i customHostname others hdomains
        split at h
        · cases h
        · rename_i hone
          obtain ⟨hothers, hstar⟩ : others = [] ∧ '*' ∉ customHostname := by simpa using hone
          split at h
          · cases h
          · rename_i routing hrouting
            split at h
            · rename_i hallowed
              have hcustom : content.customDomains = some [customHostname] := by
                cases hc : content.customDomains with
                | none => simp [hc] at hdomains
                | some domains => simpa [hc, hothers] using hdomains
              have hsubdomain : content.subdomain.getD [] = [] := by
                by_contra hne
                exact hboth ⟨hne, by rw [hdomains]; exact List.cons_ne_nil _ _⟩
              exact .inr ⟨customHostname, routing, hsubdomain, hcustom, hstar, hrouting, hallowed⟩
            · cases h
      · rename_i hdomains
        split at h
        · cases h
        · rename_i hne
          split at h
          · rename_i hbelongs
            cases hsub : content.subdomain with
            | none => exact absurd (by rw [hsub]; rfl) hne
            | some subdomain =>
              exact .inl ⟨subdomain, hsub, hdomains, by simpa [hsub] using hbelongs⟩
          · cases h

/-- What is in the cache afterwards was there, or is the token that has been recorded. -/
lemma get_recordToken (h : (r.recordToken key).get key' = some expiry) :
    (key' = key ∧ expiry = r.now + tokenCacheTtlSec) ∨ r.tokenCache.get key' = some expiry := by
  have hset : (r.tokenCache.set key (r.now + tokenCacheTtlSec)).get key' = some expiry := by
    rw [recordToken] at h
    split at h
    · rw [Dict.get_filterValues] at h
      exact (Option.filter_eq_some_iff.1 h).1
    · exact h
  rw [Dict.get_set] at hset
  split at hset
  · rename_i hkey
    exact .inl ⟨hkey, (Option.some.inj hset).symm⟩
  · exact .inr hset

lemma Vouched.mono (h : r.Vouched key t) (haccepted : r.accepted ⊆ r'.accepted) :
    r'.Vouched key t := by
  obtain ⟨answered, recorded, hmem, hle, hle', hlt⟩ := h
  exact ⟨answered, recorded, haccepted hmem, hle, hle', hlt⟩

lemma Sound.step (h : Sound hostname r) (hstep : step hostname r e = some r') :
    Sound hostname r' := by
  cases e with
  | tick later =>
    simp only [Gatekeeper.step] at hstep
    split at hstep
    · rename_i hle
      obtain rfl := Option.some.inj hstep
      refine ⟨fun key expiry hget => ?_, fun v hv haccepted => ?_, h.sessions, h.tunnels⟩
      · obtain ⟨answered, recorded, hmem, hle₁, hle₂, hexpiry⟩ := h.tokenCache key expiry hget
        exact ⟨answered, recorded, hmem, hle₁, hle₂.trans hle, hexpiry⟩
      · obtain ⟨answered, hmem, hle₁⟩ := h.validating v hv haccepted
        exact ⟨answered, hmem, hle₁.trans hle⟩
    · cases hstep
  | change answers =>
    obtain rfl := Option.some.inj hstep
    exact ⟨h.tokenCache, h.validating, h.sessions, h.tunnels⟩
  | login content =>
    simp only [Gatekeeper.step] at hstep
    split at hstep
    · obtain rfl := Option.some.inj hstep
      exact h
    · rename_i projectId token _
      split at hstep
      · rename_i hcached
        obtain rfl := Option.some.inj hstep
        refine ⟨h.tokenCache, h.validating, fun session hsession => ?_, h.tunnels⟩
        rcases List.mem_cons.1 hsession with rfl | hsession
        · obtain ⟨expiry, hget, hlt⟩ := (Option.any_eq_true _ _).1 hcached
          obtain ⟨answered, recorded, hmem, hle₁, hle₂, rfl⟩ := h.tokenCache _ expiry hget
          exact ⟨answered, recorded, hmem, hle₁, hle₂, of_decide_eq_true hlt⟩
        · exact h.sessions session hsession
      · obtain rfl := Option.some.inj hstep
        refine ⟨h.tokenCache, fun v hv haccepted => ?_, h.sessions, h.tunnels⟩
        rcases List.mem_cons.1 hv with rfl | hv
        · cases haccepted
        · exact h.validating v hv haccepted
  | answered i =>
    simp only [Gatekeeper.step] at hstep
    split at hstep
    · rename_i projectId token rest htake
      split at hstep
      · obtain rfl := Option.some.inj hstep
        have hsubset : r.accepted ⊆ ((projectId, token), r.now) :: r.accepted :=
          List.subset_cons_self _ _
        refine ⟨fun key expiry hget => ?_, fun v hv haccepted => ?_, fun session hsession => ?_,
          fun tunnel htunnel => ⟨(h.tunnels tunnel htunnel).1, ?_⟩⟩
        · obtain ⟨answered, recorded, hmem, hrest⟩ := h.tokenCache key expiry hget
          exact ⟨answered, recorded, hsubset hmem, hrest⟩
        · rcases List.mem_cons.1 hv with rfl | hv
          · exact ⟨r.now, List.mem_cons_self, le_rfl⟩
          · obtain ⟨answered, hmem, hle⟩ := h.validating v (mem_of_mem_rest htake hv) haccepted
            exact ⟨answered, hsubset hmem, hle⟩
        · exact (h.sessions session hsession).mono hsubset
        · exact (h.tunnels tunnel htunnel).2.mono hsubset
      · obtain rfl := Option.some.inj hstep
        exact ⟨h.tokenCache, fun v hv => h.validating v (mem_of_mem_rest htake hv), h.sessions,
          h.tunnels⟩
    · cases hstep
  | record i =>
    simp only [Gatekeeper.step] at hstep
    split at hstep
    · rename_i projectId token rest htake
      obtain rfl := Option.some.inj hstep
      obtain ⟨answered, hmem, hle⟩ := h.validating _ (mem_of_takeAt htake) rfl
      refine ⟨fun key expiry hget => ?_, fun v hv => h.validating v (mem_of_mem_rest htake hv),
        fun session hsession => ?_, h.tunnels⟩
      · rcases get_recordToken hget with ⟨rfl, rfl⟩ | hget
        · exact ⟨answered, r.now, hmem, hle, le_rfl, rfl⟩
        · exact h.tokenCache key expiry hget
      · rcases List.mem_cons.1 hsession with rfl | hsession
        · exact ⟨answered, r.now, hmem, hle, le_rfl, lt_add_of_pos_right _ ttl_pos⟩
        · exact h.sessions session hsession
    · cases hstep
  | newProxy session content =>
    simp only [Gatekeeper.step] at hstep
    split at hstep
    · rename_i hsession
      split at hstep
      · rename_i hallow
        obtain rfl := Option.some.inj hstep
        refine ⟨h.tokenCache, h.validating, h.sessions, fun tunnel htunnel => ?_⟩
        rcases List.mem_cons.1 htunnel with rfl | htunnel
        · exact ⟨assigned_of_allow hallow, h.sessions session hsession⟩
        · exact h.tunnels tunnel htunnel
      · obtain rfl := Option.some.inj hstep
        exact h
    · cases hstep
  | close i =>
    obtain ⟨⟨tunnel, rest⟩, htake, rfl⟩ := Option.map_eq_some_iff.1 hstep
    exact ⟨h.tokenCache, h.validating, h.sessions,
      fun tunnel htunnel => h.tunnels tunnel (mem_of_mem_rest htake htunnel)⟩

lemma sound_invariant : (sys hostname).Invariant System.always (Sound hostname) where
  init r hr := by
    obtain ⟨hcache, hvalidating, hsessions, htunnels, -⟩ := hr
    refine ⟨fun key expiry hget => ?_, fun v hv => ?_, fun session hs => ?_, fun tunnel ht => ?_⟩
    · rw [hcache] at hget
      cases hget
    · rw [hvalidating] at hv
      cases hv
    · rw [hsessions] at hs
      cases hs
    · rw [htunnels] at ht
      cases ht
  step _ _ _ h _ hstep := h.step hstep

/-- **Tunnels are opened by their owners**: in every run, an open tunnel's client has logged in with
a token that the backend had accepted for the project, no longer before than the cache keeps it; the
tunnel's hostname is assigned to that project; and two tunnels with one name below the relay's own
hostname are of one project. -/
theorem tunnels_owned (hostname : Text → Option Text)
    (hr : (sys hostname).Reachable System.always r) :
    (∀ tunnel ∈ r.tunnels, Assigned hostname tunnel ∧
      r.Vouched (tunnel.session.projectId, tunnel.session.token) tunnel.session.since) ∧
    ∀ tunnel ∈ r.tunnels, ∀ tunnel' ∈ r.tunnels, tunnel.content.subdomain.getD [] ≠ [] →
      tunnel.content.subdomain = tunnel'.content.subdomain →
        tunnel.session.projectId = tunnel'.session.projectId := by
  have hsound := sound_invariant.reachable hr
  refine ⟨hsound.tunnels, fun tunnel ht tunnel' ht' hne heq => ?_⟩
  have hname : ∀ x ∈ r.tunnels, x.content.subdomain.getD [] ≠ [] →
      projectOf (x.content.subdomain.getD []) = x.session.projectId := by
    intro x hx hne
    rcases (hsound.tunnels x hx).1 with ⟨subdomain, hsub, -, hbelongs⟩ | ⟨_, _, hsub, -⟩
    · rw [hsub]
      exact projectOf_eq hbelongs
    · exact absurd hsub hne
  rw [← hname tunnel ht hne, ← hname tunnel' ht' (heq ▸ hne), heq]

/-! ### Two projects -/

section Example

def noRouting : RoutingState := ⟨none, none, none⟩

/-- A backend that knows one token of each of two projects. -/
def twoProjects (projectId token : Text) : Answer :=
  if (projectId, token) ∈ [(['p'], ['1']), (['q'], ['2'])] then ⟨some 200, noRouting⟩
  else ⟨some 401, noRouting⟩

def started : Gatekeeper := ⟨0, twoProjects, .empty, [], [], [], []⟩

def subdomainOf (subdomain : String) : ProxyContent :=
  ⟨some subdomain.toList, none, some "https".toList⟩

/-- Both log in, one of them again from the cache, and ask for each other's names too. -/
def steps : List RelayEvent :=
  [.login ⟨some ['p'], some ['1']⟩, .login ⟨some ['q'], some ['2']⟩,
    .login ⟨some ['q'], some ['1']⟩, .answered 2, .answered 1, .answered 1, .record 0, .record 0,
    .tick 60, .login ⟨some ['p'], some ['1']⟩, .newProxy ⟨['p'], ['1'], 60⟩ (subdomainOf "head--p"),
    .newProxy ⟨['q'], ['2'], 0⟩ (subdomainOf "burla-node-0123abcd--q"),
    .newProxy ⟨['q'], ['2'], 0⟩ (subdomainOf "head--p")]

theorem tunnels_owned_steps : ∃ r, (sys fun _ => none).exec started steps = some r ∧
    r.tunnels.length = 2 ∧ (∀ tunnel ∈ r.tunnels, Assigned (fun _ => none) tunnel ∧
      r.Vouched (tunnel.session.projectId, tunnel.session.token) tunnel.session.since) ∧
    ∀ tunnel ∈ r.tunnels, ∀ tunnel' ∈ r.tunnels, tunnel.content.subdomain.getD [] ≠ [] →
      tunnel.content.subdomain = tunnel'.content.subdomain →
        tunnel.session.projectId = tunnel'.session.projectId := by
  have hsome : ((sys fun _ => none).exec started steps).isSome = true := by decide +kernel
  have hlength : ((sys fun _ => none).exec started steps).all (·.tunnels.length = 2) := by
    decide +kernel
  obtain ⟨r, hexec⟩ := Option.isSome_iff_exists.1 hsome
  have hstart : (sys fun _ => none).Reachable System.always started :=
    ⟨started, [], ⟨rfl, rfl, rfl, rfl, rfl⟩, .nil⟩
  obtain ⟨howned, hshared⟩ := tunnels_owned (fun _ => none) (hstart.exec hexec)
  exact ⟨r, hexec, by simpa [hexec] using hlength, howned, hshared⟩

end Example

end Gatekeeper

end Burla.Relay
