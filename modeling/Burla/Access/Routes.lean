/-
The routes of the head: the endpoints of main_service, in the order in which its routers are
included, with what each asks of a request before it reads or changes the cluster's state.

A route's path is the text of its decorator; a segment in braces is a parameter, and takes any
text that is not empty.  The router tries the routes one after another and takes the first that
has the request's method and path; the static files are mounted below all of them.
-/
import Burla.Lib.Paths
import Mathlib.Data.List.Basic

namespace Burla.Access

inductive Method
  | get | head | post | put | patch | delete | options
  /-- Any other. -/
  | extension (name : String)
  deriving DecidableEq

/-- What the text of a parameter is read as. -/
inductive Kind
  | text | int | bool | float
  deriving DecidableEq

/-! ### Requests -/

/-- A request, with the values that its session cookie and its headers have; an empty text counts
as missing. -/
structure Request where
  method : Method
  /-- The path that the router goes by. -/
  path : List Char
  /-- `request.url.path`, which the framework puts together anew, from the `Host` header too. -/
  urlPath : List Char
  query : List (String × List Char)
  sessionEmail : Option String
  sessionAuthorization : Option String
  headerEmail : Option String
  headerAuthorization : Option String
  /-- The client's address is 127.0.0.1. -/
  fromLoopback : Bool
  /-- The connection is one of the relay tunnel's (`RELAY_CLIENT_ADDRESSES`). -/
  fromRelay : Bool
  /-- The `Origin` header is missing or local. -/
  originIsLocal : Bool

namespace Request

variable (req : Request)

/-- The email of the session, or that of the header. -/
def email : Option String := req.sessionEmail <|> req.headerEmail

def authorization : Option String := req.sessionAuthorization <|> req.headerAuthorization

/-- The value of a query parameter: the last one counts. -/
def queryParam (name : String) : Option (List Char) :=
  (req.query.reverse.find? fun p => p.1 = name).map Prod.snd

def segments : List (List Char) := Path.segments '/' req.path

end Request

/-- How the head was set up. -/
inductive Mode
  | deployed
  | localDev
  | clientHosted
  deriving DecidableEq

structure Head where
  mode : Mode
  clusterToken : String
  /-- A bucket is configured (`STORE`). -/
  filesystemEnabled : Bool
  /-- Whether the framework can read a text as a number, or as a truth value. -/
  reads : Kind → List Char → Bool

/-- The header carries the cluster's token. -/
def Request.HasToken (req : Request) (head : Head) : Prop :=
  req.headerAuthorization = some ("Bearer " ++ head.clusterToken)

instance (req : Request) (head : Head) : Decidable (req.HasToken head) :=
  inferInstanceAs (Decidable (_ = _))

/-! ### Routes -/

/-- A parameter of the query. -/
structure QueryParam where
  name : String
  kind : Kind
  required : Bool
  deriving DecidableEq

/-- A route, and what its handler does. -/
structure Route where
  method : Method
  path : String
  /-- `_require_auth`: the request has an email and an authorization, whatever they are. -/
  signedIn : Bool := false
  /-- The handler asks for the cluster's token itself. -/
  clusterToken : Bool := false
  /-- `_require_filesystem`. -/
  filesystem : Bool := false
  query : List QueryParam := []
  /-- `_reject_unknown_query_params`. -/
  strict : Bool := false
  /-- The handler reads or changes jobs, nodes, settings or the shared storage. -/
  touches : Bool := true
  deriving DecidableEq

/-- A segment of a route's path. -/
inductive PathPart
  | lit (text : List Char)
  | param (kind : Kind)
  deriving DecidableEq

/-- The path parameters that the handlers declare as numbers. -/
def intParams : List (List Char) := ["{input_index}".toList, "{quantity}".toList]

def PathPart.of (segment : List Char) : PathPart :=
  if segment.head? = some '{' then .param (if segment ∈ intParams then .int else .text)
  else .lit segment

/-- A segment of a path fits a segment of a route. -/
def PathPart.fits : PathPart → List Char → Bool
  | lit text, segment => segment = text
  | param _, segment => segment ≠ []

/-- A parameter's text can be read. -/
def PathPart.readable (reads : Kind → List Char → Bool) : PathPart → List Char → Bool
  | lit _, _ | param .text, _ => true
  | param kind, segment => reads kind segment

namespace Route

variable (r : Route) (head : Head) (req : Request)

def parts : List PathPart := (Path.segments '/' r.path.toList).map PathPart.of

/-- Segment by segment, and no segment left over. -/
def fitsAll : List PathPart → List (List Char) → Bool
  | [], [] => true
  | part :: parts, segment :: segments => part.fits segment && fitsAll parts segments
  | _, _ => false

/-- The route is for the request. -/
def matchesRequest : Bool := r.method = req.method && fitsAll r.parts req.segments

/-- What is asked of the query. -/
def QueryOk : Bool :=
  (r.query.all fun p =>
    match req.queryParam p.name with
    | none => !p.required
    | some value => p.kind = .text || head.reads p.kind value) &&
    (!r.strict || req.query.all fun p => p.1 ∈ r.query.map QueryParam.name)

/-- The request gets past what stands before the handler's work. -/
def Admits : Bool :=
  (!r.signedIn || (req.email.isSome && req.authorization.isSome)) &&
    (!r.clusterToken || decide (req.HasToken head)) &&
    (!r.filesystem || head.filesystemEnabled) &&
    r.QueryOk head req &&
    ((r.parts.zip req.segments).all fun p => p.1.readable head.reads p.2)

/-- The handler reads or changes the cluster's state for the request, for some body of it. -/
def Opens : Bool := r.touches && r.Admits head req

/-- The last segment is a parameter. -/
def EndsFree : Bool :=
  match r.parts.getLast? with
  | some (.param _) => true
  | _ => false

/-- The last segment is a text with a dot. -/
def EndsDotted : Bool :=
  match r.parts.getLast? with
  | some (.lit text) => '.' ∈ text
  | _ => false

end Route

/-- The endpoints. -/
def routes : List Route :=
  [ -- the framework's own
    { method := .get, path := "/openapi.json", touches := false },
    -- cluster_lifecycle.py
    { method := .post, path := "/v1/local-dev/node-quantity/{quantity}", touches := false },
    { method := .post, path := "/v1/cluster/restart" },
    { method := .post, path := "/v1/cluster/shutdown" },
    { method := .post, path := "/v1/cluster/pause_job_admission" },
    { method := .post, path := "/v1/cluster/resume_job_admission" },
    { method := .post, path := "/v1/cluster/import_history", clusterToken := true },
    -- cluster_views.py
    { method := .get, path := "/v1/cluster", signedIn := true },
    { method := .delete, path := "/v1/cluster/{node_id}", signedIn := true },
    { method := .get, path := "/v1/cluster/{node_id}/logs", signedIn := true },
    { method := .get, path := "/v1/cluster/deleted_recent_paginated", signedIn := true,
      query := [⟨"page", .int, false⟩, ⟨"page_size", .int, false⟩, ⟨"offset", .int, false⟩,
        ⟨"limit", .int, false⟩] },
    -- usage.py
    { method := .get, path := "/v1/nodes/daily_hours", signedIn := true,
      query := [⟨"month", .text, false⟩] },
    { method := .get, path := "/v1/nodes/month_nodes", signedIn := true,
      query := [⟨"month", .text, false⟩, ⟨"limit", .int, false⟩,
        ⟨"cursor_ended_at", .float, false⟩, ⟨"cursor_id", .text, false⟩] },
    -- settings.py
    { method := .get, path := "/v1/settings" },
    { method := .post, path := "/v1/settings" },
    -- jobs.py
    { method := .get, path := "/v1/jobs",
      query := [⟨"page", .int, false⟩, ⟨"stream", .bool, false⟩] },
    { method := .post, path := "/v1/jobs/{job_id}/stop" },
    { method := .get, path := "/v1/jobs/{job_id}/result-stats" },
    { method := .get, path := "/v1/jobs/{job_id}/metrics" },
    { method := .get, path := "/v1/jobs/{job_id}/metrics/tasks/{input_index}" },
    { method := .get, path := "/v1/jobs/{job_id}/metrics/task-summaries",
      query := [⟨"sort", .text, false⟩, ⟨"dir", .text, false⟩, ⟨"failed_only", .bool, false⟩,
        ⟨"logs_only", .bool, false⟩, ⟨"index", .int, false⟩, ⟨"offset", .int, false⟩,
        ⟨"limit", .int, false⟩] },
    { method := .get, path := "/v1/jobs/{job_id}/events" },
    { method := .get, path := "/v1/jobs/{job_id}/logs",
      query := [⟨"index", .int, true⟩, ⟨"oldest_timestamp", .text, false⟩] },
    -- management.py
    { method := .get, path := "/v1/management/cluster", strict := true },
    { method := .get, path := "/v1/management/cluster/watch", strict := true },
    { method := .post, path := "/v1/management/cluster/start", strict := true },
    { method := .post, path := "/v1/management/cluster/restart", strict := true },
    { method := .post, path := "/v1/management/cluster/stop", strict := true },
    { method := .get, path := "/v1/management/nodes",
      query := [⟨"status", .text, false⟩, ⟨"region", .text, false⟩, ⟨"job_id", .text, false⟩,
        ⟨"started_after", .text, false⟩, ⟨"ended_after", .text, false⟩, ⟨"sort", .text, false⟩,
        ⟨"order", .text, false⟩, ⟨"limit", .int, false⟩, ⟨"cursor", .text, false⟩],
      strict := true },
    { method := .get, path := "/v1/management/nodes/{node_id}", strict := true },
    { method := .get, path := "/v1/management/nodes/{node_id}/logs",
      query := [⟨"before", .text, false⟩, ⟨"after", .text, false⟩, ⟨"limit", .int, false⟩],
      strict := true },
    { method := .get, path := "/v1/management/nodes/{node_id}/logs/stream",
      query := [⟨"after", .text, false⟩], strict := true },
    { method := .get, path := "/v1/management/jobs",
      query := [⟨"status", .text, false⟩, ⟨"user", .text, false⟩,
        ⟨"function_name", .text, false⟩, ⟨"parent_job_id", .text, false⟩,
        ⟨"started_after", .text, false⟩, ⟨"started_before", .text, false⟩,
        ⟨"sort", .text, false⟩, ⟨"order", .text, false⟩, ⟨"limit", .int, false⟩,
        ⟨"cursor", .text, false⟩], strict := true },
    { method := .get, path := "/v1/management/jobs/watch",
      query := [⟨"parent_job_id", .text, false⟩], strict := true },
    { method := .get, path := "/v1/management/jobs/{job_id}/tree", strict := true },
    { method := .get, path := "/v1/management/jobs/{job_id}/tree/members",
      query := [⟨"path", .text, true⟩, ⟨"status", .text, false⟩, ⟨"search", .text, false⟩,
        ⟨"offset", .int, false⟩, ⟨"limit", .int, false⟩], strict := true },
    { method := .get, path := "/v1/management/jobs/{job_id}", strict := true },
    { method := .get, path := "/v1/management/jobs/{job_id}/watch", strict := true },
    { method := .post, path := "/v1/management/jobs/{job_id}/cancel", strict := true },
    { method := .get, path := "/v1/management/jobs/{job_id}/errors",
      query := [⟨"limit", .int, false⟩, ⟨"cursor", .text, false⟩], strict := true },
    { method := .get, path := "/v1/management/jobs/{job_id}/metrics", strict := true },
    { method := .get, path := "/v1/management/jobs/{job_id}/metrics/raw",
      query := [⟨"limit", .int, false⟩, ⟨"cursor", .text, false⟩], strict := true },
    { method := .get, path := "/v1/management/jobs/{job_id}/calls",
      query := [⟨"input_index", .int, false⟩, ⟨"status", .text, false⟩,
        ⟨"failed_only", .bool, false⟩, ⟨"logs_only", .bool, false⟩,
        ⟨"has_metrics", .bool, false⟩, ⟨"sort", .text, false⟩, ⟨"order", .text, false⟩,
        ⟨"limit", .int, false⟩, ⟨"cursor", .text, false⟩], strict := true },
    { method := .get, path := "/v1/management/jobs/{job_id}/calls/{input_index}", strict := true },
    { method := .get, path := "/v1/management/jobs/{job_id}/calls/{input_index}/logs",
      query := [⟨"errors_only", .bool, false⟩, ⟨"before", .text, false⟩,
        ⟨"after", .text, false⟩, ⟨"limit", .int, false⟩], strict := true },
    { method := .get, path := "/v1/management/jobs/{job_id}/calls/{input_index}/metrics",
      strict := true },
    { method := .get, path := "/v1/management/jobs/{job_id}/calls/{input_index}/metrics/raw",
      query := [⟨"limit", .int, false⟩, ⟨"cursor", .text, false⟩], strict := true },
    { method := .get, path := "/v1/management/settings", strict := true },
    { method := .patch, path := "/v1/management/settings", strict := true },
    { method := .get, path := "/v1/management/usage", query := [⟨"month", .text, false⟩],
      strict := true },
    -- storage.py
    { method := .post, path := "/api/sf/filemanager", filesystem := true },
    { method := .post, path := "/api/sf/upload", filesystem := true, touches := false },
    { method := .get, path := "/signed-resumable", filesystem := true,
      query := [⟨"object_name", .text, true⟩, ⟨"content_type", .text, false⟩] },
    { method := .post, path := "/storage/s3-upload-session", filesystem := true,
      query := [⟨"object_name", .text, true⟩, ⟨"content_type", .text, false⟩] },
    { method := .put, path := "/storage/s3-upload/{token}", filesystem := true },
    { method := .get, path := "/signed-download", filesystem := true,
      query := [⟨"object_name", .text, true⟩, ⟨"download_name", .text, false⟩] },
    { method := .post, path := "/batch-download-ticket", filesystem := true },
    { method := .get, path := "/batch-download/{token}", filesystem := true },
    { method := .post, path := "/batch-download", filesystem := true },
    -- client.py
    { method := .get, path := "/v1/jobs/{job_id}" },
    { method := .patch, path := "/v1/jobs/{job_id}" },
    { method := .post, path := "/v1/jobs/{job_id}/start" },
    { method := .get, path := "/v1/cluster/state" },
    { method := .get, path := "/v1/cluster/nodes" },
    { method := .get, path := "/v1/cluster/nodes/{node_id}",
      query := [⟨"include_deleted", .bool, false⟩] },
    { method := .get, path := "/v1/jobs/{job_id}/nodes" },
    { method := .get, path := "/v1/cluster/nodes/{node_id}/fail_reason" },
    { method := .post, path := "/v1/cluster/nodes/{node_id}/fail" },
    -- nodes.py
    { method := .put, path := "/v1/nodes/{instance_name}/state", clusterToken := true },
    { method := .post, path := "/v1/nodes/{instance_name}/logs:batch", clusterToken := true },
    { method := .post, path := "/v1/nodes/{instance_name}/metrics:batch", clusterToken := true },
    { method := .post, path := "/v1/nodes/{instance_name}/certificate", clusterToken := true },
    { method := .get, path := "/v1/node-source", clusterToken := true, touches := false },
    { method := .post, path := "/v1/nodes/{instance_name}/self_delete", clusterToken := true },
    { method := .get, path := "/v1/jobs/{job_id}/peers", clusterToken := true },
    { method := .post, path := "/v1/jobs/{job_id}/mint", clusterToken := true },
    { method := .post, path := "/v1/jobs/{job_id}/replacement_nodes", clusterToken := true },
    { method := .post, path := "/v1/jobs/{job_id}/logs:batch", clusterToken := true },
    -- __init__.py
    { method := .get, path := "/api/user", touches := false },
    { method := .post, path := "/api/logout", touches := false },
    { method := .get, path := "/v3/login/dashboard", touches := false },
    { method := .get, path := "/v1/login/microsoft/dashboard", touches := false },
    { method := .get, path := "/version", touches := false },
    { method := .get, path := "/filesystem" },
    { method := .get, path := "/settings" },
    { method := .get, path := "/jobs/{job_id}" },
    { method := .get, path := "/jobs" },
    { method := .get, path := "/" },
    { method := .get, path := "/favicon.svg", touches := false } ]

/-- The route that a request gets, unless it gets a static file. -/
def route (req : Request) : Option Route := routes.find? (·.matchesRequest req)

/-! ### Paths that two routes fit -/

/-- Some text fits both. -/
def PathPart.compat : PathPart → PathPart → Bool
  | .lit s, .lit t => s = t
  | .lit s, .param _ | .param _, .lit s => s ≠ []
  | .param _, .param _ => true

/-- Some path fits both. -/
def compatAll : List PathPart → List PathPart → Bool
  | [], [] => true
  | p :: ps, q :: qs => p.compat q && compatAll ps qs
  | _, _ => false

section Fits

variable {p q : PathPart} {ps qs : List PathPart} {segment : List Char}
  {segments : List (List Char)}

lemma PathPart.compat_of_fits (hp : p.fits segment = true) (hq : q.fits segment = true) :
    p.compat q = true := by
  cases p with
  | lit s =>
    obtain rfl : segment = s := by simpa [fits] using hp
    cases q with
    | lit t => simpa [fits, compat] using hq
    | param _ => simpa [fits, compat] using hq
  | param _ =>
    cases q with
    | lit t =>
      obtain rfl : segment = t := by simpa [fits] using hq
      simpa [fits, compat] using hp
    | param _ => rfl

/-- **Two routes that fit one path fit each other.** -/
lemma compatAll_of_fitsAll (hp : Route.fitsAll ps segments = true)
    (hq : Route.fitsAll qs segments = true) : compatAll ps qs = true := by
  induction ps generalizing qs segments with
  | nil =>
    cases segments with
    | nil =>
      cases qs with
      | nil => rfl
      | cons _ _ => cases hq
    | cons _ _ => cases hp
  | cons p ps ih =>
    cases segments with
    | nil => cases hp
    | cons segment segments =>
      cases qs with
      | nil => cases hq
      | cons q qs =>
        simp only [Route.fitsAll, Bool.and_eq_true] at hp hq
        simp only [compatAll, Bool.and_eq_true]
        exact ⟨PathPart.compat_of_fits hp.1 hq.1, ih hp.2 hq.2⟩

/-- The last segments fit. -/
lemma fits_getLast (h : Route.fitsAll ps segments = true) (hlast : ps.getLast? = some p) :
    p.fits (segments.getLastD []) = true := by
  induction ps generalizing segments with
  | nil => cases hlast
  | cons q ps ih =>
    cases segments with
    | nil => cases h
    | cons segment segments =>
      simp only [Route.fitsAll, Bool.and_eq_true] at h
      cases ps with
      | nil =>
        obtain rfl : q = p := by simpa using hlast
        cases segments with
        | nil => simpa using h.1
        | cons _ _ => cases h.2
      | cons q' ps =>
        cases segments with
        | nil => cases h.2
        | cons segment' segments =>
          have := ih h.2 (by simpa using hlast)
          simpa using this

/-- A route without parameters is for one path. -/
lemma eq_of_fitsAll_lit {texts : List (List Char)}
    (h : Route.fitsAll (texts.map .lit) segments = true) : segments = texts := by
  induction texts generalizing segments with
  | nil =>
    cases segments with
    | nil => rfl
    | cons _ _ => cases h
  | cons text texts ih =>
    cases segments with
    | nil => cases h
    | cons segment segments =>
      simp only [List.map_cons, Route.fitsAll, Bool.and_eq_true, PathPart.fits,
        decide_eq_true_eq] at h
      rw [h.1, ih h.2]

lemma length_of_fitsAll (h : Route.fitsAll ps segments = true) :
    ps.length = segments.length := by
  induction ps generalizing segments with
  | nil =>
    cases segments with
    | nil => rfl
    | cons _ _ => cases h
  | cons p ps ih =>
    cases segments with
    | nil => cases h
    | cons segment segments =>
      simp only [Route.fitsAll, Bool.and_eq_true] at h
      simp [ih h.2]

/-- So do the segments that a path begins with. -/
lemma fits_zip_of_append {front rest : List (List Char)}
    (h : Route.fitsAll ps (front ++ rest) = true) :
    ((ps.zip front).all fun e => e.1.fits e.2) = true := by
  induction front generalizing ps with
  | nil => simp
  | cons segment front ih =>
    cases ps with
    | nil => rfl
    | cons p ps =>
      simp only [List.cons_append, Route.fitsAll, Bool.and_eq_true] at h
      simp only [List.zip_cons_cons, List.all_cons, Bool.and_eq_true]
      exact ⟨h.1, ih h.2⟩

end Fits

variable {r q : Route} {req : Request}

/-- **A route that no other one is in the way of is the one that the request gets.** -/
lemma route_eq (hr : r ∈ routes) (hmatch : r.matchesRequest req = true)
    (halone : ∀ q ∈ routes, q.matchesRequest req = true → q = r) : route req = some r := by
  have hsome : (route req).isSome = true := List.find?_isSome.2 ⟨r, hr, hmatch⟩
  obtain ⟨q, hq⟩ := Option.isSome_iff_exists.1 hsome
  have hmatch' : q.matchesRequest req = true := by simpa using List.find?_some hq
  rw [hq, halone q (List.mem_of_find?_eq_some hq) hmatch']

end Burla.Access
