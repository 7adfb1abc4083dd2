/-
The texts of cursors (`_fingerprint`, `_encode_cursor` and `_decode_cursor` in management.py), and
what the queries for the pages expect of the key in them (`list_jobs`, `list_nodes`, `list_calls`,
`node_logs`, `call_logs`, `job_errors` and `_raw_metrics_response`).

`json.loads`, `json.dumps` and `sha256` are parameters: whatever the reader makes of the bytes in a
text, the theorem says which texts are refused, read, or neither.

The main result is `Burla.History.Cursors.cursors_iff`.
-/
import Burla.History.Pages
import Burla.Lib.Base64

namespace Burla.History.Cursors

/-- A text, as its characters. -/
abbrev Text : Type := List Char

/-- A document as `json.loads` returns it.  The entries of an object have different names. -/
inductive Json
  | null
  | bool (b : Bool)
  | num (q : ℚ)
  /-- `NaN`, or an infinity. -/
  | nonFinite (name : Text)
  | str (s : Text)
  | arr (items : List Json)
  | obj (entries : List (Text × Json))

/-- The entry of an object (`.get`). -/
def lookup (entries : List (Text × Json)) (name : Text) : Option Json :=
  (entries.find? fun e => e.1 = name).map Prod.snd

/-- `== 1` -/
def Json.isOne : Json → Bool
  | .num q => q = 1
  | .bool b => b
  | _ => false

/-- `==`, for a text or `None`. -/
def Json.isText (text : Option Text) : Json → Bool
  | .null => text.isNone
  | .str s => text = some s
  | _ => false

/-- What a call with a cursor raises. -/
inductive Raised
  | management (e : ManagementError)
  | attributeError
  | keyError
  | typeError

/-- `tuple`: the items of a list, the characters of a text, the names of a dict. -/
def Json.tuple : Json → Except Raised (List Json)
  | .arr items => .ok items
  | .str s => .ok (s.map fun c => .str [c])
  | .obj entries => .ok (entries.map fun e => .str e.1)
  | _ => .error .typeError

/-- A request's filters, and how it is sorted. -/
abbrev Query : Type := List (Text × Json)

/-- `query.get("order")` -/
def order (query : Query) : Option Text :=
  match lookup query "order".toList with
  | some (.str s) => some s
  | _ => none

/-- How a text or `None` is written. -/
def ofText : Option Text → Json
  | none => .null
  | some s => .str s

def invalidCursor (message : String) : Raised := .management ⟨422, "INVALID_CURSOR", message⟩

section Codec

variable (loads : List UInt8 → Option Json) (dumps : (sortKeys : Bool) → Json → List UInt8)
  (sha256 : List UInt8 → Text)

/-- `_fingerprint` -/
def fingerprint (query : Query) : Text := (sha256 (dumps true (.obj query))).take 16

/-- What `_encode_cursor` writes down. -/
def payload (resource : Text) (query : Query) (key : List Json) : Json :=
  .obj [("v".toList, .num 1), ("resource".toList, .str resource),
    ("query".toList, .str (fingerprint dumps sha256 query)),
    ("direction".toList, ofText (order query)), ("key".toList, .arr key)]

/-- `_encode_cursor` -/
def encodeCursor (resource : Text) (query : Query) (key : List Json) : Text :=
  (Base64.encode (dumps false (payload dumps sha256 resource query key))).rdropWhile (· = '=')

/-- The document in a text, if one can be read. -/
def document (cursor : Text) : Option Json :=
  (Base64.decode (cursor ++ Base64.padding cursor)).bind loads

/-- `valid` -/
def valid (resource : Text) (query : Query) (entries : List (Text × Json)) : Bool :=
  ((lookup entries "v".toList).getD .null).isOne &&
    ((lookup entries "resource".toList).getD .null).isText (some resource) &&
    ((lookup entries "query".toList).getD .null).isText (some (fingerprint dumps sha256 query)) &&
    ((lookup entries "direction".toList).getD .null).isText (order query)

/-- `_decode_cursor` -/
def decodeCursor (cursor : Option Text) (resource : Text) (query : Query) :
    Except Raised (Option (List Json)) :=
  match cursor with
  | none => .ok none
  | some cursor =>
    match document loads cursor with
    | none => .error (invalidCursor "Invalid cursor.")
    | some (.obj entries) =>
      if valid dumps sha256 resource query entries then
        match lookup entries "key".toList with
        | none => .error .keyError
        | some key => key.tuple.map some
      else .error (invalidCursor "Cursor does not match this query.")
    | some _ => .error .attributeError

end Codec

/-! ### Keys -/

/-- What is listed in pages. -/
inductive Listing
  | jobs
  | nodes
  | calls
  | nodeLogs
  | callLogs
  | jobErrors
  | rawMetrics

/-- A value that rows are sorted by. -/
def Json.SortValue : Json → Prop
  | .null | .num _ | .str _ => True
  | _ => False

/-- The keys that the query for a page takes: the rank of nulls, the sort value and the row's name;
the id of a log and the offset in it; a count and the signature of an error; a time and an id. -/
def Listing.Expects : Listing → List Json → Prop
  | .jobs, key | .nodes, key => ∃ (rank : ℚ) (value : Json) (name : Text),
      key = [.num rank, value, .str name] ∧ (rank = 0 ∨ rank = 1) ∧ value.SortValue
  | .calls, key => ∃ (rank : ℚ) (value : Json) (index : ℤ),
      key = [.num rank, value, .num index] ∧ (rank = 0 ∨ rank = 1) ∧ value.SortValue
  | .nodeLogs, key | .callLogs, key => ∃ id offset : ℤ, key = [.num id, .num offset]
  | .jobErrors, key => ∃ (count : ℤ) (signature : Text), key = [.num count, .str signature]
  | .rawMetrics, key => ∃ (timestamp : ℚ) (id : ℤ), key = [.num timestamp, .num id]

/-- A cursor gives a key that the query takes, or it is refused. -/
def FailsClosed (listing : Listing) : Except Raised (Option (List Json)) → Prop
  | .ok (some key) => listing.Expects key
  | .ok none => False
  | .error (.management e) => e.status = 422 ∧ e.code = "INVALID_CURSOR"
  | .error _ => False

/-- A document that is read from a cursor is an object; and when it is for the request, its key is a
list of what the query takes. -/
def Proper (loads : List UInt8 → Option Json) (dumps : (sortKeys : Bool) → Json → List UInt8)
    (sha256 : List UInt8 → Text) (listing : Listing) (resource : Text) (query : Query)
    (cursor : Text) : Prop :=
  ∀ doc, document loads cursor = some doc → ∃ entries, doc = .obj entries ∧
    (valid dumps sha256 resource query entries = true →
      ∃ key, lookup entries "key".toList = some (.arr key) ∧ listing.Expects key)

section Keys

variable {listing : Listing} {key : List Json}

/-- Every key begins with a number. -/
lemma Listing.Expects.head (listing : Listing) (h : listing.Expects key) : ∃ q rest, key = .num q :: rest := by
  cases listing with
  | jobs =>
    obtain ⟨rank, value, name, rfl, -⟩ := h
    exact ⟨rank, _, rfl⟩
  | nodes =>
    obtain ⟨rank, value, name, rfl, -⟩ := h
    exact ⟨rank, _, rfl⟩
  | calls =>
    obtain ⟨rank, value, index, rfl, -⟩ := h
    exact ⟨rank, _, rfl⟩
  | nodeLogs =>
    obtain ⟨id, offset, rfl⟩ := h
    exact ⟨id, _, rfl⟩
  | callLogs =>
    obtain ⟨id, offset, rfl⟩ := h
    exact ⟨id, _, rfl⟩
  | jobErrors =>
    obtain ⟨count, signature, rfl⟩ := h
    exact ⟨count, _, rfl⟩
  | rawMetrics =>
    obtain ⟨timestamp, id, rfl⟩ := h
    exact ⟨timestamp, _, rfl⟩

/-- Only a list has a number for its first item. -/
lemma tuple_expects_iff {json : Json} : FailsClosed listing (json.tuple.map some) ↔
    ∃ key, json = .arr key ∧ listing.Expects key := by
  constructor
  · intro h
    cases json with
    | arr items => exact ⟨items, rfl, h⟩
    | str s =>
      obtain ⟨q, rest, hkey⟩ := Listing.Expects.head listing h
      cases s with
      | nil => cases hkey
      | cons c s => cases hkey
    | obj entries =>
      obtain ⟨q, rest, hkey⟩ := Listing.Expects.head listing h
      cases entries with
      | nil => cases hkey
      | cons e entries => cases hkey
    | null | bool | num | nonFinite => exact h.elim
  · rintro ⟨key, rfl, h⟩
    exact h

end Keys

/-! ### Reading -/

section Reading

variable {loads : List UInt8 → Option Json} {dumps : Bool → Json → List UInt8}
  {sha256 : List UInt8 → Text} {listing : Listing} {resource : Text} {query : Query}
  {cursor : Text} {key : List Json}

/-- **Which texts fail closed.** -/
lemma failsClosed_iff :
    FailsClosed listing (decodeCursor loads dumps sha256 (some cursor) resource query) ↔
      Proper loads dumps sha256 listing resource query cursor := by
  rw [decodeCursor, Proper]
  cases document loads cursor with
  | none => simp [FailsClosed, invalidCursor]
  | some doc =>
    cases doc with
    | obj entries =>
      have hproper : (∀ doc, some (Json.obj entries) = some doc → ∃ entries', doc = .obj entries' ∧
          (valid dumps sha256 resource query entries' = true →
            ∃ key, lookup entries' "key".toList = some (.arr key) ∧ listing.Expects key)) ↔
          (valid dumps sha256 resource query entries = true →
            ∃ key, lookup entries "key".toList = some (.arr key) ∧ listing.Expects key) := by
        constructor
        · intro h
          obtain ⟨_, heq, h⟩ := h _ rfl
          obtain rfl := Json.obj.inj heq
          exact h
        · rintro h _ ⟨⟩
          exact ⟨entries, rfl, h⟩
      rw [hproper]
      dsimp only
      by_cases hvalid : valid dumps sha256 resource query entries = true
      · rw [if_pos hvalid]
        cases hkey : lookup entries "key".toList with
        | none =>
          refine ⟨fun h => h.elim, fun h => ?_⟩
          obtain ⟨key, hkey', -⟩ := h hvalid
          cases hkey'
        | some json =>
          dsimp only
          rw [tuple_expects_iff]
          constructor
          · rintro ⟨key, rfl, h⟩ -
            exact ⟨key, rfl, h⟩
          · intro h
            obtain ⟨key, hkey', h⟩ := h hvalid
            exact ⟨key, Option.some.inj hkey', h⟩
      · rw [if_neg hvalid]
        exact ⟨fun _ h => absurd h hvalid, fun _ => ⟨rfl, rfl⟩⟩
    | null | bool | num | nonFinite | str | arr => simp [FailsClosed]

/-- What has been written is in the text. -/
lemma document_encodeCursor
    (h : loads (dumps false (payload dumps sha256 resource query key)) =
      some (payload dumps sha256 resource query key)) :
    document loads (encodeCursor dumps sha256 resource query key) =
      some (payload dumps sha256 resource query key) := by
  rw [document, encodeCursor, Base64.rdropWhile_encode, Base64.decode_padded, Option.bind_some, h]

lemma isText_ofText (text text' : Option Text) : (ofText text).isText text' = decide (text' = text) := by
  cases text with
  | none => cases text' <;> rfl
  | some s => rfl

/-- The entries of a cursor are those of its request. -/
lemma valid_payload (resource' : Text) (query' : Query) {entries : List (Text × Json)}
    (h : payload dumps sha256 resource query key = .obj entries) :
    (valid dumps sha256 resource' query' entries = true ↔ resource' = resource ∧
      fingerprint dumps sha256 query' = fingerprint dumps sha256 query ∧ order query' = order query) ∧
      lookup entries "key".toList = some (.arr key) := by
  obtain rfl := (Json.obj.inj h).symm
  refine ⟨?_, rfl⟩
  show (_ && _ && _ && (ofText (order query)).isText (order query')) = true ↔ _
  rw [isText_ofText, Bool.and_eq_true, Bool.and_eq_true, Bool.and_eq_true, decide_eq_true_eq]
  show (((decide ((1 : ℚ) = 1) = true ∧ decide (some resource' = some resource) = true) ∧
    decide (some (fingerprint dumps sha256 query') = some (fingerprint dumps sha256 query)) = true) ∧
      order query' = order query) ↔ _
  simp [and_assoc]

/-- **A cursor is read back for its own request**, and refused for any other one with another
fingerprint. -/
lemma decodeCursor_encodeCursor
    (h : loads (dumps false (payload dumps sha256 resource query key)) =
      some (payload dumps sha256 resource query key)) (resource' : Text) (query' : Query) :
    decodeCursor loads dumps sha256 (some (encodeCursor dumps sha256 resource query key))
      resource' query' =
        if resource' = resource ∧
            fingerprint dumps sha256 query' = fingerprint dumps sha256 query ∧
              order query' = order query then .ok (some key)
        else .error (invalidCursor "Cursor does not match this query.") := by
  rw [decodeCursor, document_encodeCursor h]
  cases hpayload : payload dumps sha256 resource query key with
  | obj entries =>
    obtain ⟨hvalid, hkey⟩ := valid_payload resource' query' hpayload
    dsimp only
    rw [hkey]
    by_cases hsame : resource' = resource ∧
        fingerprint dumps sha256 query' = fingerprint dumps sha256 query ∧
          order query' = order query
    · rw [if_pos (hvalid.2 hsame), if_pos hsame]
      rfl
    · rw [if_neg fun h => hsame (hvalid.1 h), if_neg hsame]
  | null | bool | num | nonFinite | str | arr => cases hpayload

/-- **Cursors fail closed if and only if the document in them is proper**: whatever the reader makes
of a text, a key that the query takes is read from it, or it is refused, just when what is read is an
object whose key, if it is for the request, is such a list.  And a key that was written comes back
for its own request, and for no other one whose fingerprint does not collide. -/
theorem cursors_iff (loads : List UInt8 → Option Json) (dumps : Bool → Json → List UInt8)
    (sha256 : List UInt8 → Text) (listing : Listing) (resource : Text) (query : Query) :
    (∀ cursor, FailsClosed listing (decodeCursor loads dumps sha256 (some cursor) resource query) ↔
      Proper loads dumps sha256 listing resource query cursor) ∧
    ∀ key, loads (dumps false (payload dumps sha256 resource query key)) =
        some (payload dumps sha256 resource query key) →
      decodeCursor loads dumps sha256 (some (encodeCursor dumps sha256 resource query key))
          resource query = .ok (some key) ∧
        ∀ resource' query', (resource', query') ≠ (resource, query) →
          (fingerprint dumps sha256 query' = fingerprint dumps sha256 query → query' = query) →
            decodeCursor loads dumps sha256 (some (encodeCursor dumps sha256 resource query key))
              resource' query' = .error (invalidCursor "Cursor does not match this query.") := by
  refine ⟨fun cursor => failsClosed_iff, fun key h => ⟨?_, fun resource' query' hne hcollision => ?_⟩⟩
  · rw [decodeCursor_encodeCursor h, if_pos ⟨rfl, rfl, rfl⟩]
  · rw [decodeCursor_encodeCursor h, if_neg]
    rintro ⟨rfl, hfingerprint, -⟩
    exact hne (Prod.ext rfl (hcollision hfingerprint))

end Reading

/-! ### The logs of a node -/

section Logs

def ascii (text : String) : List UInt8 := text.toList.map fun c => UInt8.ofNat c.toNat

/-- The logs of the node `n`, whose requests have no filters. -/
def logsOf : Text := "node_logs:n".toList

/-- The writer, on the two documents of a request for these logs. -/
def dumpsLogs (sortKeys : Bool) (_ : Json) : List UInt8 :=
  if sortKeys then ascii "\x7b\x7d"
  else ascii ("\x7b\"v\":1,\"resource\":\"node_logs:n\",\"query\":\"44136fa355b3678a\"," ++
    "\"direction\":null,\"key\":[7,0]\x7d")

def sha256Logs (_ : List UInt8) : Text :=
  "44136fa355b3678a1146ad16f7e8649e94fb4fc21fe77e8310c060f61caaff8a".toList

/-- The reader, on the cursor after the log 7 and on `null`. -/
def loadsLogs (bytes : List UInt8) : Option Json :=
  if bytes = dumpsLogs false .null then
    some (payload dumpsLogs sha256Logs logsOf [] [.num 7, .num 0])
  else if bytes = ascii "null" then some .null
  else none

theorem cursors_iff_logs :
    (∀ cursor, FailsClosed .nodeLogs
        (decodeCursor loadsLogs dumpsLogs sha256Logs (some cursor) logsOf []) ↔
      Proper loadsLogs dumpsLogs sha256Logs .nodeLogs logsOf [] cursor) ∧
    decodeCursor loadsLogs dumpsLogs sha256Logs
        (some (encodeCursor dumpsLogs sha256Logs logsOf [] [.num 7, .num 0])) logsOf [] =
      .ok (some [.num 7, .num 0]) ∧
    decodeCursor loadsLogs dumpsLogs sha256Logs
        (some (encodeCursor dumpsLogs sha256Logs logsOf [] [.num 7, .num 0])) "jobs".toList [] =
      .error (invalidCursor "Cursor does not match this query.") := by
  obtain ⟨hclosed, hkeys⟩ := cursors_iff loadsLogs dumpsLogs sha256Logs .nodeLogs logsOf []
  have hload : loadsLogs (dumpsLogs false (payload dumpsLogs sha256Logs logsOf [] [.num 7, .num 0])) =
      some (payload dumpsLogs sha256Logs logsOf [] [.num 7, .num 0]) := if_pos rfl
  have hother : ("jobs".toList, ([] : Query)) ≠ (logsOf, []) := fun h =>
    absurd (congrArg Prod.fst h) (by decide)
  obtain ⟨hsame, hrefused⟩ := hkeys [.num 7, .num 0] hload
  exact ⟨hclosed, hsame, hrefused _ _ hother fun _ => rfl⟩

/-- The text of `null`: there is no `.get` of what is read. -/
theorem null_not_failsClosed :
    decodeCursor loadsLogs dumpsLogs sha256Logs (some "bnVsbA".toList) logsOf [] =
      .error .attributeError ∧
    ¬∀ cursor, FailsClosed .nodeLogs
      (decodeCursor loadsLogs dumpsLogs sha256Logs (some cursor) logsOf []) := by
  have hbytes : Base64.decode ("bnVsbA".toList ++ Base64.padding "bnVsbA".toList) =
      some (ascii "null") := by decide +kernel
  have hne : ascii "null" ≠ dumpsLogs false .null := by decide +kernel
  have hdocument : document loadsLogs "bnVsbA".toList = some .null := by
    rw [document, hbytes, Option.bind_some, loadsLogs, if_neg hne, if_pos rfl]
  have hraised : decodeCursor loadsLogs dumpsLogs sha256Logs (some "bnVsbA".toList) logsOf [] =
      .error .attributeError := by
    rw [decodeCursor, hdocument]
  refine ⟨hraised, fun h => ?_⟩
  have hclosed := h "bnVsbA".toList
  rw [hraised] at hclosed
  exact hclosed

end Logs

end Burla.History.Cursors
