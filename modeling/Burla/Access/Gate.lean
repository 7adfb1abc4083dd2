/-
The gate of the head: the middleware `validate_requests` (main_service/__init__.py), which sees
every request before the router does.

A request that carries the cluster's token passes, and so does one whose login the backend has
accepted.  Others pass unchecked by the look of their path: that of the storage helpers, of the
login redirects, or one whose last segment has a dot, as the static files' have.

The main results are

* `passed_iff`: a request without credentials passes exactly if its path looks so;
* `Gate.shielded_iff`: it gets to the cluster's state exactly if the route that it is given then
  is one of a storage helper, or one whose last segment is a parameter.
-/
import Burla.Access.Routes
import Burla.Lib.Dict
import Burla.Lib.System
import Mathlib.Data.Rat.Defs
import Mathlib.Algebra.Order.Ring.Unbundled.Rat
import Mathlib.Tactic.Linarith

namespace Burla.Access

/-! ### The exemptions -/

/-- The client is the owner of the machine that the head runs on. -/
def Request.IsMachineOwner (req : Request) : Bool :=
  req.fromLoopback && !req.fromRelay && req.originIsLocal

/-- A path that is let through unchecked. -/
def Exempt (path : List Char) : Bool :=
  "/api/sf/".toList.isPrefixOf path || path = "/signed-resumable".toList ||
    path = "/v3/login/dashboard".toList || path = "/v1/login/microsoft/dashboard".toList ||
    '.' ∈ Path.lastSegment '/' path

/-! ### The gate -/

/-- What the backend answers, by status; `none` is a failed connection. -/
structure Backend where
  /-- `GET /v2/login/dashboard/{client_id}/token`. -/
  dashboardToken : List Char → Option ℕ
  /-- `GET /v1/clusters/{project}/users:validate`. -/
  usersValidate : String → String → Option ℕ

/-- What becomes of a request at the gate. -/
inductive Outcome
  /-- It is passed on (`call_next`). -/
  | passed
  | redirect
  | loginPage (status : ℕ)
  /-- `AUTH_REQUIRED`. -/
  | authRequired
  /-- An exception. -/
  | raised
  deriving DecidableEq

/-- `_AUTH_CACHE_TTL_SEC`. -/
def authCacheTtlSec : ℚ := 60 * 60

/-- The gate's memory. -/
structure Gate where
  now : ℚ
  /-- `_auth_cache`: when an email and authorization are to be validated again. -/
  cache : Dict (String × String) ℚ
  /-- When the backend has accepted what. -/
  accepted : List (ℚ × String × String)

/-- The answer to a request that is not let in. -/
def refusal (req : Request) : Outcome :=
  if "/v1/management".toList.isPrefixOf req.urlPath then .authRequired else .loginPage 200

/-- A value of the query that is not empty. -/
def Request.clientId (req : Request) : Option (List Char) :=
  (req.queryParam "client_id").filter (· ≠ [])

namespace Gate

variable (s : Gate) (head : Head) (backend : Backend) (req : Request)

/-- `_cached_auth_ok`, as far as the answer goes. -/
def CachedAuthOk (key : String × String) : Bool :=
  match s.cache.get key with
  | none => false
  | some expiresAt => decide (s.now < expiresAt)

/-- A stale entry is dropped. -/
def dropStale (key : String × String) : Gate :=
  if s.CachedAuthOk key = true then s else { s with cache := s.cache.pop key }

/-- `_remember_auth_ok`. -/
def rememberAuthOk (key : String × String) : Gate :=
  let cache := s.cache.set key (s.now + authCacheTtlSec)
  { s with
    cache := if 500 < cache.items.length then cache.filterValues (s.now < ·) else cache
    accepted := (s.now, key) :: s.accepted }

/-- The login by a `client_id`, which never passes a request on. -/
def clientLogin (clientId : List Char) : Outcome :=
  match backend.dashboardToken clientId with
  | none => .raised
  | some status =>
    if status = 200 then .redirect else if status = 403 then .loginPage 403 else refusal req

/-- The login by an email and an authorization. -/
def validateUser (key : String × String) : Outcome × Gate :=
  if s.CachedAuthOk key = true then (.passed, s)
  else
    match backend.usersValidate key.1 key.2 with
    | none => (.raised, s.dropStale key)
    | some status =>
      if status = 200 then (.passed, (s.dropStale key).rememberAuthOk key)
      else if status ≠ 401 ∧ 400 ≤ status then (.raised, s.dropStale key)
      else (refusal req, s.dropStale key)

/-- A request that is not exempt. -/
def login : Outcome × Gate :=
  match req.clientId with
  | some clientId => (clientLogin backend req clientId, s)
  | none =>
    match req.email, req.authorization with
    | some email, some authorization => s.validateUser backend req (email, authorization)
    | _, _ => (refusal req, s)

/-- `validate_requests`. -/
def validateRequests : Outcome × Gate :=
  if req.HasToken head then (.passed, s)
  else if head.mode = .localDev then (.passed, s)
  else if head.mode = .clientHosted ∧ req.IsMachineOwner = true then (.passed, s)
  else if Exempt req.urlPath = true then (.passed, s)
  else s.login backend req

end Gate

/-! ### Runs -/

inductive GateEvent
  | tick (sec : ℚ)
  /-- A request comes, with what the backend would say at that moment. -/
  | request (req : Request) (backend : Backend)

/-- A head and its requests, one after another. -/
def gateSystem (head : Head) : System Gate GateEvent where
  init s := s.cache = Dict.empty ∧ s.accepted = []
  step s
    | .tick sec => if 0 ≤ sec then some { s with now := s.now + sec } else none
    | .request req backend => some (s.validateRequests head backend req).2

namespace Gate

variable (s : Gate) (head : Head) (backend : Backend) (req : Request)

/-- The request carries a login that the backend accepts: it would now, or it has within the time
for which that is trusted. -/
def AcceptedLogin : Prop :=
  ∃ email ∈ req.email, ∃ authorization ∈ req.authorization,
    backend.usersValidate email authorization = some 200 ∨
      ∃ since, (since, email, authorization) ∈ s.accepted ∧ s.now < since + authCacheTtlSec

/-- The handler that the request gets reads or changes the cluster's state for it. -/
def Reaches : Prop := ∃ r ∈ route req, r.Opens head req = true

/-- The gate answers the request itself, or passes it to a handler that leaves the cluster's state
alone. -/
def Shielded : Prop :=
  (s.validateRequests head backend req).1 = .passed → ¬Reaches head req

/-- A route that the exemptions of the storage helpers are about. -/
def StorageHelper (r : Route) : Bool :=
  "/api/sf/".toList.isPrefixOf r.path.toList || r.path = "/signed-resumable"

/-- An endpoint behind the gate that a request without credentials gets to: a storage helper's, or
one whose last segment is a parameter, for a text with a dot. -/
def Exposed : Prop :=
  ∃ r ∈ routes, r.matchesRequest req = true ∧ r.Opens head req = true ∧
    (StorageHelper r = true ∨ (r.EndsFree = true ∧ '.' ∈ Path.lastSegment '/' req.path))

/-! ### Who passes -/

/-- The cache holds what the backend has accepted, for as long as that is trusted. -/
def Trusted : Prop :=
  ∀ key expiresAt, s.cache.get key = some expiresAt →
    ∃ since, (since, key) ∈ s.accepted ∧ expiresAt = since + authCacheTtlSec

variable {s head backend req} {key : String × String}

lemma Trusted.dropStale (h : s.Trusted) : (s.dropStale key).Trusted := by
  unfold Gate.dropStale
  split_ifs
  · exact h
  · intro key' expiresAt hget
    simp only [Dict.get_pop] at hget
    split_ifs at hget
    exact h key' expiresAt hget

lemma Trusted.rememberAuthOk (h : s.Trusted) : (s.rememberAuthOk key).Trusted := by
  -- the pair at hand is accepted now, the others have been before
  have hset : ∀ key' expiresAt,
      (s.cache.set key (s.now + authCacheTtlSec)).get key' = some expiresAt →
        ∃ since, (since, key') ∈ (s.now, key) :: s.accepted ∧
          expiresAt = since + authCacheTtlSec := by
    intro key' expiresAt hget
    rw [Dict.get_set] at hget
    split_ifs at hget with heq
    · rw [heq]
      exact ⟨s.now, List.mem_cons_self, (Option.some.inj hget).symm⟩
    · obtain ⟨since, hmem, hexpires⟩ := h key' expiresAt hget
      exact ⟨since, List.mem_cons_of_mem _ hmem, hexpires⟩
  intro key' expiresAt hget
  simp only [Gate.rememberAuthOk] at hget ⊢
  split_ifs at hget
  · rw [Dict.get_filterValues] at hget
    exact hset key' expiresAt (Option.filter_eq_some_iff.1 hget).1
  · exact hset key' expiresAt hget

lemma Trusted.validateUser (h : s.Trusted) : (s.validateUser backend req key).2.Trusted := by
  unfold Gate.validateUser
  split_ifs
  · exact h
  · split
    · exact h.dropStale
    · split_ifs
      · exact h.dropStale.rememberAuthOk
      · exact h.dropStale
      · exact h.dropStale

lemma Trusted.validateRequests (h : s.Trusted) : (s.validateRequests head backend req).2.Trusted := by
  unfold Gate.validateRequests
  split_ifs
  · exact h
  · exact h
  · exact h
  · exact h
  · unfold login
    split
    · exact h
    · split
      · exact h.validateUser
      · exact h

lemma invariant_trusted (head : Head) : (gateSystem head).Invariant System.always Trusted where
  init s hs := by
    intro key expiresAt hget
    rw [hs.1] at hget
    cases hget
  step s a t h _ hstep := by
    cases a with
    | tick sec =>
      simp only [gateSystem] at hstep
      split_ifs at hstep
      cases hstep
      exact h
    | request req backend =>
      cases hstep
      exact h.validateRequests

lemma refusal_ne_passed : refusal req ≠ .passed := by
  unfold refusal
  split_ifs <;> nofun

/-- A login that passes has been accepted. -/
lemma acceptedLogin_of_login (h : s.Trusted) (hpass : (s.login backend req).1 = .passed) :
    s.AcceptedLogin backend req := by
  unfold login at hpass
  split at hpass
  · rename_i clientId hclient
    simp only [clientLogin] at hpass
    split at hpass
    · cases hpass
    · split_ifs at hpass
      exact absurd hpass refusal_ne_passed
  · split at hpass
    · rename_i email authorization hemail hauthorization
      refine ⟨email, hemail, authorization, hauthorization, ?_⟩
      unfold Gate.validateUser at hpass
      split_ifs at hpass with hcached
      · right
        unfold CachedAuthOk at hcached
        split at hcached
        · cases hcached
        · rename_i expiresAt hget
          obtain ⟨since, hmem, rfl⟩ := h _ _ hget
          exact ⟨since, hmem, of_decide_eq_true hcached⟩
      · left
        split at hpass
        · cases hpass
        · rename_i status hstatus
          split_ifs at hpass with hok
          · rw [← hok]
            exact hstatus
          · exact absurd hpass refusal_ne_passed
    · exact absurd hpass refusal_ne_passed

/-- **A request without credentials passes exactly if its path is exempt.** -/
theorem passed_iff (h : s.Trusted) (hmode : head.mode = .deployed) (htoken : ¬req.HasToken head)
    (hlogin : ¬s.AcceptedLogin backend req) :
    (s.validateRequests head backend req).1 = .passed ↔ Exempt req.urlPath = true := by
  unfold Gate.validateRequests
  rw [if_neg htoken, if_neg (by rw [hmode]; decide), if_neg (by rw [hmode]; simp)]
  split_ifs with hexempt
  · simp [hexempt]
  · constructor
    · intro hpass
      exact absurd (acceptedLogin_of_login h hpass) hlogin
    · intro hyes
      exact absurd hyes hexempt

/-! ### What is behind the exemptions -/

/-- What is checked of the table. -/
@[mk_iff checked_iff]
structure Checked (table : List Route) : Prop where
  /-- A route that ends with a parameter shares no path with a dot at its end with another route of
  its method. -/
  free_alone : ∀ r ∈ table, r.EndsFree = true → r.touches = true →
    ∀ q ∈ table, q.method = r.method → compatAll q.parts r.parts = true →
      (q.EndsFree = true ∨ q.EndsDotted = true) → q = r
  helper_alone : ∀ r ∈ table, StorageHelper r = true →
    ∀ q ∈ table, q.method = r.method → compatAll q.parts r.parts = true → q = r
  /-- What ends with a dotted name is static. -/
  touches_of_endsDotted : ∀ r ∈ table, r.EndsDotted = true → r.touches = false
  /-- What lies below `/api/sf/` is a storage helper. -/
  helper_of_below : ∀ r ∈ table,
    ((r.parts.zip ["".toList, "api".toList, "sf".toList]).all fun e => e.1.fits e.2) = true →
      2 < r.parts.length → StorageHelper r = true
  /-- At the other exempt paths there is another storage helper, and nothing else. -/
  helper_of_fits : ∀ r ∈ table, r.touches = true →
    ∀ path ∈ ["/signed-resumable".toList, "/v3/login/dashboard".toList,
      "/v1/login/microsoft/dashboard".toList],
      Route.fitsAll r.parts (Path.segments '/' path) = true → StorageHelper r = true
  /-- The storage helpers' own paths are exempt. -/
  exempt_helper : ∀ r ∈ table, StorageHelper r = true →
    Exempt r.path.toList = true ∧ r.parts = (Path.segments '/' r.path.toList).map .lit
  /-- The route whose last segment is empty is `/`. -/
  root_of_ends_empty : ∀ r ∈ table, r.parts.getLast? = some (.lit []) →
    r.parts = (Path.segments '/' "/".toList).map .lit

set_option maxRecDepth 4000 in
set_option synthInstance.maxSize 1024 in
/-- The routes are checked, and these of them are exposed. -/
lemma checked_routes_exposed : Checked routes ∧
    (routes.filter fun r => r.touches && (StorageHelper r || r.EndsFree)).map
      (fun r => (r.method, r.path)) =
    [(.delete, "/v1/cluster/{node_id}"),
      (.get, "/v1/jobs/{job_id}/metrics/tasks/{input_index}"),
      (.get, "/v1/management/nodes/{node_id}"), (.get, "/v1/management/jobs/{job_id}"),
      (.get, "/v1/management/jobs/{job_id}/calls/{input_index}"),
      (.post, "/api/sf/filemanager"), (.get, "/signed-resumable"),
      (.put, "/storage/s3-upload/{token}"), (.get, "/batch-download/{token}"),
      (.get, "/v1/jobs/{job_id}"), (.patch, "/v1/jobs/{job_id}"),
      (.get, "/v1/cluster/nodes/{node_id}"), (.get, "/jobs/{job_id}")] := by
  rw [checked_iff]
  -- one pass over the table's texts for all of them
  decide +kernel

lemma checked_routes : Checked routes := checked_routes_exposed.1

section Exposure

variable {r q : Route}

lemma fitsAll_of_matchesRequest (h : r.matchesRequest req = true) :
    Route.fitsAll r.parts req.segments = true :=
  (Bool.and_eq_true_iff.1 h).2

lemma method_of_matchesRequest (h : r.matchesRequest req = true) : r.method = req.method := by
  simpa using (Bool.and_eq_true_iff.1 h).1

/-- A route's last segment, when the path that it is given has a dot there. -/
lemma ends_of_dot (hr : r ∈ routes) (hmatch : r.matchesRequest req = true)
    (hdot : '.' ∈ Path.lastSegment '/' req.path) : r.EndsFree = true ∨ r.EndsDotted = true := by
  have hfits := fitsAll_of_matchesRequest hmatch
  have hne : r.parts ≠ [] := by
    intro hnil
    rw [hnil] at hfits
    have hseg := Path.segments_ne_nil '/' (p := req.path)
    cases hs : req.segments with
    | nil => exact hseg hs
    | cons _ _ =>
      rw [hs] at hfits
      cases hfits
  obtain ⟨part, hpart⟩ : ∃ part, r.parts.getLast? = some part :=
    ⟨_, List.getLast?_eq_some_getLast hne⟩
  have hlast : part.fits (req.segments.getLastD []) = true := fits_getLast hfits hpart
  cases part with
  | param kind =>
    left
    simp [Route.EndsFree, hpart]
  | lit text =>
    right
    have htext : req.segments.getLastD [] = text := by simpa [PathPart.fits] using hlast
    -- an empty last segment belongs to `/`, which has no dot
    by_cases hempty : text = []
    · rw [hempty] at hpart
      rw [checked_routes.root_of_ends_empty r hr hpart] at hfits
      have hroot : req.path = "/".toList := Path.eq_of_segments_eq '/' (eq_of_fitsAll_lit hfits)
      rw [hroot] at hdot
      exact absurd hdot (by decide +kernel)
    · have heq := Path.lastSegment_eq '/' (p := req.path) (by
        intro hnil
        exact hempty (htext.symm.trans hnil))
      rw [heq] at hdot
      simp only [Route.EndsDotted, hpart]
      have : text = (Path.segments '/' req.path).getLastD [] := htext.symm
      simpa [this] using hdot

/-- A request that gets to the cluster's state by an exempt path gets there by one of the exposed
routes. -/
lemma exposed_of_reaches (hexempt : Exempt req.path = true) (h : Reaches head req) :
    Exposed head req := by
  obtain ⟨r, hroute, hopens⟩ := h
  have hr : r ∈ routes := List.mem_of_find?_eq_some hroute
  have hmatch : r.matchesRequest req = true := by simpa using List.find?_some hroute
  have htouches : r.touches = true := (Bool.and_eq_true_iff.1 hopens).1
  have hfits := fitsAll_of_matchesRequest hmatch
  refine ⟨r, hr, hmatch, hopens, ?_⟩
  simp only [Exempt, Bool.or_eq_true, decide_eq_true_eq] at hexempt
  obtain (((hstart | hresumable) | hlogin) | hmicrosoft) | hdot := hexempt
  · -- below `/api/sf/`
    left
    obtain ⟨rest, hrest⟩ := List.isPrefixOf_iff_prefix.1 hstart
    have hsegments : req.segments =
        ["".toList, "api".toList, "sf".toList] ++ Path.segments '/' rest := by
      have htext : req.path = "/api/sf".toList ++ '/' :: rest := hrest.symm
      rw [Request.segments, htext, Path.segments_append]
      rfl
    rw [hsegments] at hfits
    refine checked_routes.helper_of_below r hr (fits_zip_of_append hfits) ?_
    rw [length_of_fitsAll hfits]
    have := List.length_pos_of_ne_nil (Path.segments_ne_nil '/' (p := rest))
    simp only [List.length_append, List.length_cons, List.length_nil]
    omega
  · left
    refine checked_routes.helper_of_fits r hr htouches "/signed-resumable".toList (by simp) ?_
    rw [← hresumable]
    exact hfits
  · left
    refine checked_routes.helper_of_fits r hr htouches "/v3/login/dashboard".toList (by simp) ?_
    rw [← hlogin]
    exact hfits
  · left
    refine checked_routes.helper_of_fits r hr htouches "/v1/login/microsoft/dashboard".toList
      (by simp) ?_
    rw [← hmicrosoft]
    exact hfits
  · -- a dot at the end
    rcases ends_of_dot hr hmatch hdot with hfree | hdotted
    · exact .inr ⟨hfree, hdot⟩
    · rw [checked_routes.touches_of_endsDotted r hr hdotted] at htouches
      cases htouches

/-- An exposed route is exempt, and no other route is in its way. -/
lemma reaches_of_exposed (h : Exposed head req) :
    Exempt req.path = true ∧ Reaches head req := by
  obtain ⟨r, hr, hmatch, hopens, hhow⟩ := h
  have htouches : r.touches = true := (Bool.and_eq_true_iff.1 hopens).1
  have hfits := fitsAll_of_matchesRequest hmatch
  have hsame : ∀ q : Route, q.matchesRequest req = true →
      q.method = r.method ∧ compatAll q.parts r.parts = true := fun q hq =>
    ⟨(method_of_matchesRequest hq).trans (method_of_matchesRequest hmatch).symm,
      compatAll_of_fitsAll (fitsAll_of_matchesRequest hq) hfits⟩
  rcases hhow with hhelper | ⟨hfree, hdot⟩
  · refine ⟨?_, r, route_eq hr hmatch fun q hq hqm => ?_, hopens⟩
    · obtain ⟨hexempt, hparts⟩ := checked_routes.exempt_helper r hr hhelper
      rw [hparts] at hfits
      rwa [Path.eq_of_segments_eq '/' (eq_of_fitsAll_lit hfits)]
    · obtain ⟨hmethod, hcompat⟩ := hsame q hqm
      exact checked_routes.helper_alone r hr hhelper q hq hmethod hcompat
  · refine ⟨by simp [Exempt, hdot], r, route_eq hr hmatch fun q hq hqm => ?_, hopens⟩
    obtain ⟨hmethod, hcompat⟩ := hsame q hqm
    exact checked_routes.free_alone r hr hfree htouches q hq hmethod hcompat (ends_of_dot hq hqm hdot)

end Exposure

/-- **In every run, a request without credentials is kept from the cluster's state exactly if its
path is not exempt or leads nowhere; with the same path for the gate and for the router, exactly
if it is for none of the exposed routes.** -/
theorem shielded_iff (hr : (gateSystem head).Reachable System.always s)
    (hmode : head.mode = .deployed) (htoken : ¬req.HasToken head)
    (hlogin : ¬s.AcceptedLogin backend req) :
    (s.Shielded head backend req ↔ ¬(Exempt req.urlPath = true ∧ Reaches head req)) ∧
      (req.urlPath = req.path → (s.Shielded head backend req ↔ ¬Exposed head req)) := by
  have hpassed := passed_iff ((invariant_trusted head).reachable hr) hmode htoken hlogin
  have hshielded : s.Shielded head backend req ↔
      ¬(Exempt req.urlPath = true ∧ Reaches head req) := by
    rw [Shielded, hpassed, not_and]
  refine ⟨hshielded, fun hpath => ?_⟩
  rw [hshielded, hpath, not_iff_not]
  constructor
  · rintro ⟨hexempt, hreaches⟩
    exact exposed_of_reaches hexempt hreaches
  · intro hexposed
    exact reaches_of_exposed hexposed

/-! ### Requests -/

/-- A head with a shared filesystem. -/
def deployedHead : Head where
  mode := .deployed
  clusterToken := "token"
  filesystemEnabled := true
  reads _ text := text.all Char.isDigit

/-- A request without credentials. -/
def anonymous (method : Method) (path : List Char) : Request where
  method := method
  path := path
  urlPath := path
  query := []
  sessionEmail := none
  sessionAuthorization := none
  headerEmail := none
  headerAuthorization := none
  fromLoopback := false
  fromRelay := false
  originIsLocal := true

/-- A gate before its first request. -/
def newGate : Gate := ⟨0, Dict.empty, []⟩

/-- A backend that accepts nobody. -/
def refusingBackend : Backend := ⟨fun _ => some 401, fun _ _ => some 401⟩

lemma not_acceptedLogin_anonymous (method : Method) (path : List Char) :
    ¬newGate.AcceptedLogin refusingBackend (anonymous method path) := by
  rintro ⟨email, hemail, -⟩
  cases hemail

theorem shielded_iff_settings :
    (newGate.Shielded deployedHead refusingBackend (anonymous .get "/v1/settings".toList) ↔
      ¬(Exempt "/v1/settings".toList = true ∧
        Reaches deployedHead (anonymous .get "/v1/settings".toList))) ∧
    ("/v1/settings".toList = "/v1/settings".toList →
      (newGate.Shielded deployedHead refusingBackend (anonymous .get "/v1/settings".toList) ↔
        ¬Exposed deployedHead (anonymous .get "/v1/settings".toList))) :=
  shielded_iff ⟨newGate, [], ⟨rfl, rfl⟩, System.Run.nil⟩ rfl (by decide +kernel)
    (not_acceptedLogin_anonymous .get "/v1/settings".toList)

/-- A request without credentials changes a job whose id has a dot. -/
theorem job_is_patched : ∃ (head : Head) (s : Gate) (backend : Backend) (req : Request),
    (gateSystem head).Reachable System.always s ∧ head.mode = .deployed ∧ ¬req.HasToken head ∧
      ¬s.AcceptedLogin backend req ∧ ¬s.Shielded head backend req := by
  refine ⟨deployedHead, newGate, refusingBackend, anonymous .patch "/v1/jobs/f.1".toList,
    ⟨newGate, [], ⟨rfl, rfl⟩, System.Run.nil⟩, rfl, by decide +kernel,
    not_acceptedLogin_anonymous .patch "/v1/jobs/f.1".toList, fun hshielded => ?_⟩
  have hroute : (route (anonymous .patch "/v1/jobs/f.1".toList)).any
      (·.Opens deployedHead (anonymous .patch "/v1/jobs/f.1".toList)) = true := by
    decide +kernel
  obtain ⟨r, hr, hopens⟩ := (Option.any_eq_true _ _).1 hroute
  exact hshielded (by decide +kernel) ⟨r, hr, hopens⟩

end Gate

end Burla.Access
