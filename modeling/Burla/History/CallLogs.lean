/-
The pages of a call's log (`management_job_logs` in history.py; `_log_page` and `call_logs` in
management.py).

The lines of a call are stored in documents.  A page is so many lines long, from one document more
than that, and a cursor names a line: its document is fetched again.

The main result is `Burla.History.pagesComplete_iff`: following the cursors gives every line that
matches, in both directions, if and only if every document with an error in it is flagged, where
errors are asked for, and the documents that are fetched for a page have more lines than the page
takes, or all that are left.
-/
import Burla.History.Pages
import Burla.Lib.Windows
import Mathlib.Data.Prod.Lex

namespace Burla.History

/-! ### Lines -/

/-- An item of a document's `logs`. -/
structure LogEntry where
  timestamp : Option ℚ
  message : String
  isError : Bool

/-- A row of `job_logs`, with what the JSON in it says. -/
structure LogDocument where
  id : ℕ
  isError : Option ℤ
  logs : List LogEntry

/-- The documents of a call, in the order of their ids. -/
structure CallDocuments where
  documents : List LogDocument
  sorted : documents.Pairwise fun d e => d.id < e.id

/-- A line as it is shown. -/
structure LogLine where
  id : ℕ
  offset : ℕ
  timestamp : ℚ
  message : String
  isError : Bool
  deriving DecidableEq

/-- `(entry["id"], entry["offset"])` -/
def LogLine.key (l : LogLine) : ℕ ×ₗ ℕ := toLex (l.id, l.offset)

/-- `_is_teardown_infrastructure_log` -/
def isTeardownInfrastructureLog (message : String) : Bool :=
  "Worker container stopped unexpectedly".toList <:+: message.toList ∨
    "Worker process ended unexpectedly while the container was still healthy".toList <:+:
      message.toList

namespace LogDocument

variable (d : LogDocument)

/-- A line without a timestamp is left out. -/
def line (log : LogEntry) (offset : ℕ) : Option LogLine :=
  log.timestamp.map fun timestamp =>
    { id := d.id
      offset := offset
      timestamp := iso timestamp
      message := log.message
      isError :=
        if isTeardownInfrastructureLog log.message then false
        else log.isError || d.isError.any (· ≠ 0) }

def lines : List LogLine := d.logs.zipIdx.filterMap fun (log, offset) => d.line log offset

/-- The lines that are asked for. -/
def matchingLines (errorsOnly : Bool) : List LogLine :=
  d.lines.filter fun l => !errorsOnly || l.isError

end LogDocument

namespace CallDocuments

variable (c : CallDocuments) (errorsOnly : Bool)

/-- `WHERE … AND is_error = 1` -/
def selected : List LogDocument := c.documents.filter fun d => !errorsOnly || d.isError = some 1

/-- `management_job_logs`; the cursor's document is among the rows. -/
def managementJobLogs (rowLimit : ℕ) (beforeRowId afterRowId : Option ℕ) : List LogLine :=
  let rows : List LogDocument :=
    match beforeRowId, afterRowId with
    | some id, _ =>
      (((c.selected errorsOnly).filter fun d => d.id ≤ id).reverse.take rowLimit).reverse
    | none, some id => ((c.selected errorsOnly).filter fun d => id ≤ d.id).take rowLimit
    | none, none => (c.selected errorsOnly).take rowLimit
  rows.flatMap LogDocument.lines

/-- Every line that matches. -/
def matchingLines : List LogLine := c.documents.flatMap (LogDocument.matchingLines · errorsOnly)

/-- Those in the documents that are selected. -/
def selectedLines : List LogLine :=
  (c.selected errorsOnly).flatMap (LogDocument.matchingLines · errorsOnly)

end CallDocuments

/-! ### Pages -/

/-- What `_encode_cursor` writes down of a line. -/
structure LogCursor where
  v : ℕ
  resource : String
  query : String
  direction : Option String
  key : ℕ ×ₗ ℕ

structure LogPage where
  items : List LogLine
  nextCursor : Option LogCursor
  hasMore : Bool

section Page

variable (resource query : String)

/-- `_encode_cursor`, for a query without an order. -/
def encodeLogCursor (key : ℕ ×ₗ ℕ) : LogCursor := ⟨1, resource, query, none, key⟩

/-- `_decode_cursor` -/
def decodeLogCursor : Option LogCursor → Except ManagementError (Option (ℕ ×ₗ ℕ))
  | none => .ok none
  | some c =>
    if c.v = 1 ∧ c.resource = resource ∧ c.query = query ∧ c.direction = none then .ok (some c.key)
    else .error ⟨422, "INVALID_CURSOR", "Cursor does not match this query."⟩

/-- `_log_page`; the limit is in its range. -/
def logPage (entries : List LogLine) (before after : Option LogCursor) (limit : ℕ) :
    Except ManagementError LogPage :=
  if before.isSome ∧ after.isSome then
    .error ⟨422, "INVALID_ARGUMENT", "Use only one of before or after."⟩
  else
    (decodeLogCursor resource query (before.or after)).map fun last =>
      let entries :=
        match last with
        | none => entries
        | some key =>
          entries.filter fun l => if before.isSome then l.key < key else key < l.key
      let entries :=
        if before.isSome then entries.insertionSort fun a b => b.key ≤ a.key
        else entries.insertionSort fun a b => a.key ≤ b.key
      let page := entries.take (limit + 1)
      let hasMore : Bool := limit < page.length
      let page := page.take limit
      let page := if before.isSome then page.reverse else page
      let edge := if before.isSome then page.head? else page.getLast?
      { items := page
        nextCursor :=
          if hasMore then edge.map fun l => encodeLogCursor resource query l.key else none
        hasMore := hasMore }

/-- `call_logs`, of a call that there is. -/
def callLogs (c : CallDocuments) (errorsOnly : Bool) (before after : Option LogCursor) (limit : ℤ) :
    Except ManagementError LogPage :=
  match decodeLogCursor resource query (before.or after) with
  | .error e => .error e
  | .ok decoded =>
    let cursorRowId := decoded.map fun key => (ofLex key).1
    let limit := (min (max 1 limit) 5000).toNat
    let beforeRowId := if before.isSome then cursorRowId else none
    let afterRowId := if after.isSome then cursorRowId else none
    let entries := (c.managementJobLogs errorsOnly (limit + 1) beforeRowId afterRowId).filter
      fun l => !errorsOnly || l.isError
    logPage resource query entries before after limit

/-- Following the cursors with `after` from the first page gives every line that matches, in order,
and following them with `before` from a line gives those before it. -/
structure PagesComplete (c : CallDocuments) (errorsOnly : Bool) (limit : ℤ) : Prop where
  after : ∃ fuel, Keyset.follow (fun _ cursor =>
    (callLogs resource query c errorsOnly none cursor limit).toOption.map
      fun page => (page.items, page.nextCursor)) fuel 0 none = some (c.matchingLines errorsOnly)
  /-- The pages come from the last to the first, and are read so. -/
  before : ∀ earlier l later, c.matchingLines errorsOnly = earlier ++ l :: later →
    ∃ fuel, Keyset.follow (fun _ cursor =>
      (callLogs resource query c errorsOnly cursor none limit).toOption.map
        fun page => (page.items.reverse, page.nextCursor)) fuel 0
          (some (encodeLogCursor resource query l.key)) = some earlier.reverse

end Page

/-! ### The condition -/

namespace CallDocuments

variable (c : CallDocuments) (errorsOnly : Bool)

/-- The lines after a line, in so many documents from its own on. -/
def linesAfter (n : ℕ) (l : LogLine) : List LogLine :=
  ((((c.selected errorsOnly).filter fun d => l.id ≤ d.id).take n).flatMap
    (LogDocument.matchingLines · errorsOnly)).filter fun l' => l.key < l'.key

/-- The lines before a line, in so many documents up to its own. -/
def linesBefore (n : ℕ) (l : LogLine) : List LogLine :=
  ((((c.selected errorsOnly).filter fun d => d.id ≤ l.id).reverse.take n).reverse.flatMap
    (LogDocument.matchingLines · errorsOnly)).filter fun l' => l'.key < l.key

/-- The documents that are fetched for a page have more lines than it takes, or all that are left.
A page after the first one begins after a multiple of `limit` lines. -/
structure Fetched (limit : ℕ) : Prop where
  flagged : errorsOnly = true → ∀ d ∈ c.documents, d.isError ≠ some 1 →
    ∀ l ∈ d.lines, l.isError = false
  first : limit < (((c.selected errorsOnly).take (limit + 1)).flatMap
      (LogDocument.matchingLines · errorsOnly)).length ∨
    ((c.selected errorsOnly).drop (limit + 1)).flatMap
      (LogDocument.matchingLines · errorsOnly) = []
  after : ∀ m earlier l later, c.selectedLines errorsOnly = earlier ++ l :: later →
    earlier.length + 1 = m * limit →
      limit < (c.linesAfter errorsOnly (limit + 1) l).length ∨
        c.linesAfter errorsOnly (limit + 1) l = later
  before : ∀ earlier l later, c.selectedLines errorsOnly = earlier ++ l :: later →
    limit < (c.linesBefore errorsOnly (limit + 1) l).length ∨
      c.linesBefore errorsOnly (limit + 1) l = earlier

end CallDocuments

/-! ### The order of the lines -/

instance : IsStrictOrder LogLine fun l l' => l.key < l'.key where
  irrefl _ := lt_irrefl _
  trans _ _ _ := lt_trans

instance : IsStrictOrder LogLine fun l l' => l'.key < l.key where
  irrefl _ := lt_irrefl _
  trans _ _ _ h h' := lt_trans h' h

section Order

variable {d : LogDocument} {c : CallDocuments} {errorsOnly : Bool}

lemma LogDocument.mem_lines {l : LogLine} : l ∈ d.lines ↔
    ∃ log offset, (log, offset) ∈ d.logs.zipIdx ∧ d.line log offset = some l := by
  rw [LogDocument.lines, List.mem_filterMap]
  constructor
  · rintro ⟨⟨log, offset⟩, hmem, hline⟩
    exact ⟨log, offset, hmem, hline⟩
  · rintro ⟨log, offset, hmem, hline⟩
    exact ⟨(log, offset), hmem, hline⟩

lemma LogDocument.line_eq {log : LogEntry} {offset : ℕ} {l : LogLine}
    (h : d.line log offset = some l) : l.id = d.id ∧ l.offset = offset := by
  obtain ⟨timestamp, -, rfl⟩ := Option.map_eq_some_iff.1 h
  exact ⟨rfl, rfl⟩

lemma LogDocument.id_of_mem_lines {l : LogLine} (h : l ∈ d.lines) : l.id = d.id := by
  obtain ⟨log, offset, -, hline⟩ := LogDocument.mem_lines.1 h
  exact (LogDocument.line_eq hline).1

lemma LogDocument.sorted_lines : d.lines.Pairwise fun l l' => l.key < l'.key := by
  have hoffsets : d.logs.zipIdx.Pairwise fun a b => a.2 < b.2 := by
    rw [← List.pairwise_map (f := Prod.snd) (R := (· < ·)), List.zipIdx_map_snd]
    exact List.pairwise_lt_range'
  rw [LogDocument.lines, List.pairwise_filterMap]
  refine hoffsets.imp fun {a b} hab l hl l' hl' => ?_
  obtain ⟨hid, hoffset⟩ := LogDocument.line_eq hl
  obtain ⟨hid', hoffset'⟩ := LogDocument.line_eq hl'
  refine Prod.Lex.toLex_lt_toLex.2 (.inr ⟨hid.trans hid'.symm, ?_⟩)
  rw [hoffset, hoffset']
  exact hab

lemma id_of_mem_matchingLines {l : LogLine} (h : l ∈ d.matchingLines errorsOnly) : l.id = d.id :=
  LogDocument.id_of_mem_lines (List.mem_filter.1 h).1

/-- The lines of documents in order are in order. -/
lemma sorted_flatMap {rows : List LogDocument} (h : rows.Pairwise fun d e => d.id < e.id) :
    (rows.flatMap (LogDocument.matchingLines · errorsOnly)).Pairwise
      fun l l' => l.key < l'.key := by
  rw [List.pairwise_flatMap]
  refine ⟨fun d _ => LogDocument.sorted_lines.sublist List.filter_sublist, ?_⟩
  refine h.imp fun {d e} hde l hl l' hl' => ?_
  refine Prod.Lex.toLex_lt_toLex.2 (.inl ?_)
  rw [id_of_mem_matchingLines hl, id_of_mem_matchingLines hl']
  exact hde

omit d in
/-- Nothing is lost by a selection just when there is nothing in what is not selected. -/
lemma flatMap_filter_eq_iff {ρ α : Type*} {rows : List ρ} {p : ρ → Bool} {f : ρ → List α} :
    (rows.filter p).flatMap f = rows.flatMap f ↔ ∀ row ∈ rows, p row = false → f row = [] := by
  constructor
  · intro h
    induction rows with
    | nil => simp
    | cons row rows ih =>
      have hsublist : ((rows.filter p).flatMap f).Sublist (rows.flatMap f) :=
        List.filter_sublist.flatMap f
      rw [List.flatMap_cons] at h
      cases hp : p row with
      | true =>
        rw [List.filter_cons_of_pos hp, List.flatMap_cons] at h
        exact List.forall_mem_cons.2
          ⟨fun hnot => absurd (hp.symm.trans hnot) (by decide), ih (List.append_cancel_left h)⟩
      | false =>
        rw [List.filter_cons_of_neg (by rw [hp]; decide)] at h
        have hlength := congrArg List.length h
        have hle := hsublist.length_le
        rw [List.length_append] at hlength
        have hnil : f row = [] := List.eq_nil_of_length_eq_zero (by omega)
        rw [hnil, List.nil_append] at h
        exact List.forall_mem_cons.2 ⟨fun _ => hnil, ih h⟩
  · intro h
    induction rows with
    | nil => rfl
    | cons row rows ih =>
      obtain ⟨hrow, hrows⟩ := List.forall_mem_cons.1 h
      cases hp : p row with
      | true => rw [List.filter_cons_of_pos hp, List.flatMap_cons, List.flatMap_cons, ih hrows]
      | false =>
        rw [List.filter_cons_of_neg (by rw [hp]; decide), List.flatMap_cons, hrow hp,
          List.nil_append, ih hrows]

namespace CallDocuments

lemma sorted_selected : (c.selected errorsOnly).Pairwise fun d e => d.id < e.id :=
  c.sorted.sublist List.filter_sublist

lemma sorted_selectedLines : (c.selectedLines errorsOnly).Pairwise fun l l' => l.key < l'.key :=
  sorted_flatMap sorted_selected

lemma selectedLines_sublist : (c.selectedLines errorsOnly).Sublist (c.matchingLines errorsOnly) :=
  List.filter_sublist.flatMap _

/-- No line is lost by the selection just when the documents with an error are flagged. -/
lemma selectedLines_eq_iff : c.selectedLines errorsOnly = c.matchingLines errorsOnly ↔
    (errorsOnly = true → ∀ d ∈ c.documents, d.isError ≠ some 1 →
      ∀ l ∈ d.lines, l.isError = false) := by
  rw [selectedLines, selected, matchingLines, flatMap_filter_eq_iff]
  constructor
  · intro h herrors d hd hflag l hl
    have hnil := h d hd (by simp [herrors, hflag])
    rw [LogDocument.matchingLines, List.filter_eq_nil_iff] at hnil
    simpa [herrors] using hnil l hl
  · intro h d hd hnot
    simp only [Bool.or_eq_false_iff, Bool.not_eq_false', decide_eq_false_iff_not] at hnot
    rw [LogDocument.matchingLines, List.filter_eq_nil_iff]
    intro l hl
    simp [hnot.1, h hnot.1 d hd hnot.2 l hl]

end CallDocuments

end Order

/-! ### One page -/

section Page

variable {resource query : String} {entries : List LogLine}

lemma decodeLogCursor_encodeLogCursor (key : ℕ ×ₗ ℕ) :
    decodeLogCursor resource query (some (encodeLogCursor resource query key)) = .ok (some key) :=
  if_pos ⟨rfl, rfl, rfl, rfl⟩

lemma insertionSort_of_sorted (h : entries.Pairwise fun l l' => l.key < l'.key) :
    entries.insertionSort (fun l l' => l.key ≤ l'.key) = entries :=
  (h.imp le_of_lt).insertionSort_eq

/-- Lines in order are put in the other order. -/
lemma insertionSort_ge_of_sorted (h : entries.Pairwise fun l l' => l.key < l'.key) :
    entries.insertionSort (fun l l' => l'.key ≤ l.key) = entries.reverse := by
  have hkeys : (entries.map LogLine.key).Nodup := List.pairwise_map.2 (h.imp fun hlt => hlt.ne)
  have htotal : Std.Total fun l l' : LogLine => l'.key ≤ l.key :=
    ⟨fun l l' => le_total l'.key l.key⟩
  have htrans : IsTrans LogLine fun l l' => l'.key ≤ l.key := ⟨fun _ _ _ h h' => h'.trans h⟩
  have hreverse : entries.reverse.Pairwise fun l l' => l'.key ≤ l.key := by
    rw [List.pairwise_reverse]
    exact h.imp le_of_lt
  refine List.Perm.eq_of_pairwise (fun l l' hl hl' hle hge => ?_)
    (List.pairwise_insertionSort _ entries) hreverse
    ((List.perm_insertionSort _ entries).trans entries.reverse_perm.symm)
  exact List.inj_on_of_nodup_map hkeys ((List.mem_insertionSort _).1 hl) (List.mem_reverse.1 hl')
    (le_antisymm hge hle)

/-- A page is cut out of one line more than it is long. -/
lemma take_succ_page {α : Type*} (l : List α) (limit : ℕ) :
    (l.take (limit + 1)).take limit = l.take limit ∧
      (limit < (l.take (limit + 1)).length ↔ limit < l.length) := by
  rw [List.take_take, Nat.min_eq_left (Nat.le_succ limit), List.length_take]
  refine ⟨rfl, ?_⟩
  omega

/-- The page after a line, or the first one. -/
lemma logPage_after (limit : ℕ) (hsorted : entries.Pairwise fun l l' => l.key < l'.key)
    (last : Option (ℕ ×ₗ ℕ)) {found : List LogLine}
    (hfound : entries.filter (fun l => last.all fun key => key < l.key) = found) :
    ((logPage resource query entries none (last.map (encodeLogCursor resource query))
        limit).toOption.map fun page => (page.items, page.nextCursor)) =
      some (found.take limit,
        if limit < found.length then
          (found.take limit).getLast?.map fun l => encodeLogCursor resource query l.key
        else none) := by
  have hpairwise : found.Pairwise fun l l' => l.key < l'.key := by
    rw [← hfound]
    exact hsorted.sublist List.filter_sublist
  cases last with
  | none =>
    simp only [Option.all_none, List.filter_true] at hfound
    subst hfound
    simp [logPage, decodeLogCursor, Except.map, Except.toOption, insertionSort_of_sorted hpairwise,
      take_succ_page]
  | some key =>
    simp only [Option.all_some] at hfound
    simp [logPage, decodeLogCursor_encodeLogCursor, Except.map, Except.toOption, hfound,
      insertionSort_of_sorted hpairwise, take_succ_page]

/-- The page before a line. -/
lemma logPage_before (limit : ℕ) (hsorted : entries.Pairwise fun l l' => l.key < l'.key)
    (key : ℕ ×ₗ ℕ) {found : List LogLine} (hfound : (entries.filter fun l => l.key < key) = found) :
    ((logPage resource query entries (some (encodeLogCursor resource query key)) none
        limit).toOption.map fun page => (page.items.reverse, page.nextCursor)) =
      some (found.reverse.take limit,
        if limit < found.reverse.length then
          (found.reverse.take limit).getLast?.map fun l => encodeLogCursor resource query l.key
        else none) := by
  have hpairwise : found.Pairwise fun l l' => l.key < l'.key := by
    rw [← hfound]
    exact hsorted.sublist List.filter_sublist
  simp [logPage, decodeLogCursor_encodeLogCursor, Except.map, Except.toOption, hfound,
    insertionSort_ge_of_sorted hpairwise, take_succ_page]

end Page

/-! ### The two readings -/

section Readings

variable {resource query : String} {c : CallDocuments} {errorsOnly : Bool}

lemma filter_lines {rows : List LogDocument} :
    (rows.flatMap LogDocument.lines).filter (fun l => !errorsOnly || l.isError) =
      rows.flatMap (LogDocument.matchingLines · errorsOnly) := by
  rw [List.filter_flatMap]
  rfl

namespace CallDocuments

/-- What is fetched for the page after so many lines. -/
def fetchedAfter (c : CallDocuments) (errorsOnly : Bool) (limit : ℕ) : ℕ → List LogLine
  | 0 => ((c.selected errorsOnly).take (limit + 1)).flatMap (LogDocument.matchingLines · errorsOnly)
  | k + 1 => ((c.selectedLines errorsOnly)[k]?.map (c.linesAfter errorsOnly (limit + 1))).getD []

/-- The rows from a line's on. -/
lemma filter_fromRow {rows₁ rows₂ : List LogDocument} {d : LogDocument} {l : LogLine}
    (hrows : c.selected errorsOnly = rows₁ ++ d :: rows₂)
    (hl : l ∈ d.matchingLines errorsOnly) :
    (c.selected errorsOnly).filter (fun e => l.id ≤ e.id) = d :: rows₂ := by
  have hsorted : (c.selected errorsOnly).Pairwise fun d e => d.id < e.id := sorted_selected
  rw [hrows] at hsorted ⊢
  obtain ⟨-, hafter, hbefore⟩ := List.pairwise_append.1 hsorted
  rw [id_of_mem_matchingLines hl, List.filter_append]
  have hnil : rows₁.filter (fun e => decide (d.id ≤ e.id)) = [] := by
    rw [List.filter_eq_nil_iff]
    intro e he
    have := hbefore e he d List.mem_cons_self
    simpa using this
  have hself : (d :: rows₂).filter (fun e => decide (d.id ≤ e.id)) = d :: rows₂ := by
    rw [List.filter_eq_self]
    intro e he
    rcases List.mem_cons.1 he with rfl | he
    · exact decide_eq_true le_rfl
    · exact decide_eq_true (List.rel_of_pairwise_cons hafter he).le
  rw [hnil, hself, List.nil_append]

lemma fetchedAfter_isPrefix (limit : ℕ) {k : ℕ} (hk : k ≤ (c.selectedLines errorsOnly).length) :
    c.fetchedAfter errorsOnly limit k <+: (c.selectedLines errorsOnly).drop k := by
  cases k with
  | zero =>
    rw [List.drop_zero, selectedLines, fetchedAfter]
    exact ⟨((c.selected errorsOnly).drop (limit + 1)).flatMap _, by
      rw [← List.flatMap_append, List.take_append_drop]⟩
  | succ k =>
    have hl := List.getElem?_eq_getElem (Nat.lt_of_succ_le hk)
    rw [fetchedAfter, hl, Option.map_some, Option.getD_some]
    have hwindow : Windows.window (c.selected errorsOnly) (LogDocument.matchingLines · errorsOnly)
        (fun l l' => l.key < l'.key) (fun l d => l.id ≤ d.id) (limit + 1)
        (c.selectedLines errorsOnly)[k] <+: (c.selectedLines errorsOnly).drop (k + 1) :=
      Windows.window_isPrefix sorted_selectedLines hl
        fun rows₁ d rows₂ hrows hmem => filter_fromRow hrows hmem
    exact hwindow

/-- The documents from a cursor's on, or from the first one. -/
def rowsAfter (c : CallDocuments) (errorsOnly : Bool) (n : ℕ) (last : Option (ℕ ×ₗ ℕ)) :
    List LogDocument :=
  (match last with
    | none => c.selected errorsOnly
    | some key => (c.selected errorsOnly).filter fun d => (ofLex key).1 ≤ d.id).take n

lemma rowsAfter_sublist (n : ℕ) (last : Option (ℕ ×ₗ ℕ)) :
    (c.rowsAfter errorsOnly n last).Sublist (c.selected errorsOnly) := by
  cases last with
  | none => exact List.take_sublist _ _
  | some key => exact (List.take_sublist _ _).trans List.filter_sublist

/-- A page after a line, or the first one, is cut out of what is fetched. -/
lemma callLogs_after (limit : ℤ) (last : Option (ℕ ×ₗ ℕ)) {found : List LogLine}
    (hfound : ((c.rowsAfter errorsOnly ((min (max 1 limit) 5000).toNat + 1) last).flatMap
      (LogDocument.matchingLines · errorsOnly)).filter (fun l => last.all fun key => key < l.key) =
        found) :
    ((callLogs resource query c errorsOnly none (last.map (encodeLogCursor resource query))
        limit).toOption.map fun page => (page.items, page.nextCursor)) =
      some (found.take (min (max 1 limit) 5000).toNat,
        if (min (max 1 limit) 5000).toNat < found.length then
          (found.take (min (max 1 limit) 5000).toNat).getLast?.map
            fun l => encodeLogCursor resource query l.key
        else none) := by
  rw [← logPage_after _ (sorted_flatMap (sorted_selected.sublist (rowsAfter_sublist _ last))) last
    hfound, ← filter_lines]
  cases last with
  | none => rfl
  | some key =>
    rw [callLogs, Option.none_or, Option.map_some, decodeLogCursor_encodeLogCursor]
    rfl

/-- **The pages that come after each other read the lines of the selected documents.** -/
lemma reads_after (limit : ℤ) :
    Windows.Reads (c.selectedLines errorsOnly)
      (c.fetchedAfter errorsOnly (min (max 1 limit) 5000).toNat) (min (max 1 limit) 5000).toNat none
      (fun l => encodeLogCursor resource query l.key) fun _ cursor =>
        (callLogs resource query c errorsOnly none cursor limit).toOption.map
          fun page => (page.items, page.nextCursor) where
  fetched_isPrefix _ hk := fetchedAfter_isPrefix _ hk
  ask_eq _ k hk := by
    cases k with
    | zero => exact callLogs_after limit none (by simp [fetchedAfter, rowsAfter])
    | succ k =>
      rw [Windows.cursorAt, fetchedAfter, List.getElem?_eq_getElem (Nat.lt_of_succ_le hk)]
      exact callLogs_after limit (some (c.selectedLines errorsOnly)[k].key) rfl

/-- What is fetched for the page that begins so many lines back from a line. -/
def fetchedBefore (c : CallDocuments) (errorsOnly : Bool) (limit : ℕ) (lines : List LogLine)
    (k : ℕ) : List LogLine :=
  (lines[k]?.map fun l => (c.linesBefore errorsOnly (limit + 1) l).reverse).getD []

/-- The rows up to a line's, backwards. -/
lemma filter_toRow {rows₁ rows₂ : List LogDocument} {d : LogDocument} {l : LogLine}
    (hrows : (c.selected errorsOnly).reverse = rows₁ ++ d :: rows₂)
    (hl : l ∈ d.matchingLines errorsOnly) :
    (c.selected errorsOnly).reverse.filter (fun e => e.id ≤ l.id) = d :: rows₂ := by
  have hsorted : (c.selected errorsOnly).reverse.Pairwise fun d e => e.id < d.id :=
    List.pairwise_reverse.2 sorted_selected
  rw [hrows] at hsorted ⊢
  obtain ⟨-, hafter, hbefore⟩ := List.pairwise_append.1 hsorted
  rw [id_of_mem_matchingLines hl, List.filter_append]
  have hnil : rows₁.filter (fun e => decide (e.id ≤ d.id)) = [] := by
    rw [List.filter_eq_nil_iff]
    intro e he
    have := hbefore e he d List.mem_cons_self
    simpa using this
  have hself : (d :: rows₂).filter (fun e => decide (e.id ≤ d.id)) = d :: rows₂ := by
    rw [List.filter_eq_self]
    intro e he
    rcases List.mem_cons.1 he with rfl | he
    · exact decide_eq_true le_rfl
    · exact decide_eq_true (List.rel_of_pairwise_cons hafter he).le
  rw [hnil, hself, List.nil_append]

/-- The lines before a line, backwards, are a window of the documents backwards. -/
lemma reverse_linesBefore (n : ℕ) (l : LogLine) :
    (c.linesBefore errorsOnly n l).reverse =
      Windows.window (c.selected errorsOnly).reverse
        (fun d => (d.matchingLines errorsOnly).reverse) (fun l l' => l'.key < l.key)
        (fun l d => d.id ≤ l.id) n l := by
  rw [linesBefore, Windows.window, ← List.filter_reverse, List.reverse_flatMap,
    List.reverse_reverse, ← List.filter_reverse]
  rfl

lemma fetchedBefore_isPrefix (limit : ℕ) {earlier later : List LogLine} {l : LogLine}
    (h : c.selectedLines errorsOnly = earlier ++ l :: later) {k : ℕ} (hk : k ≤ earlier.length) :
    c.fetchedBefore errorsOnly limit (l :: earlier.reverse) k <+: earlier.reverse.drop k := by
  have hlength : k < (l :: earlier.reverse).length := by
    rw [List.length_cons, List.length_reverse]
    omega
  have hlines : (c.selected errorsOnly).reverse.flatMap
      (fun d => (d.matchingLines errorsOnly).reverse) = (c.selectedLines errorsOnly).reverse := by
    rw [selectedLines, List.reverse_flatMap]
    rfl
  have hsplit : (c.selectedLines errorsOnly).reverse = later.reverse ++ l :: earlier.reverse := by
    rw [h, List.reverse_append, List.reverse_cons, List.append_assoc, List.singleton_append]
  have hl : ((c.selected errorsOnly).reverse.flatMap fun d =>
      (d.matchingLines errorsOnly).reverse)[later.reverse.length + k]? =
        some (l :: earlier.reverse)[k] := by
    rw [hlines, hsplit, List.getElem?_append_right (Nat.le_add_right _ _), Nat.add_sub_cancel_left,
      List.getElem?_eq_getElem hlength]
  have hsorted : ((c.selected errorsOnly).reverse.flatMap fun d =>
      (d.matchingLines errorsOnly).reverse).Pairwise fun l l' => l'.key < l.key := by
    rw [hlines]
    exact List.pairwise_reverse.2 sorted_selectedLines
  have hdrop : earlier.reverse.drop k = ((c.selected errorsOnly).reverse.flatMap fun d =>
      (d.matchingLines errorsOnly).reverse).drop (later.reverse.length + k + 1) := by
    rw [hlines, hsplit, Nat.add_assoc, ← List.drop_drop, List.drop_left, List.drop_succ_cons]
  rw [fetchedBefore, List.getElem?_eq_getElem hlength, Option.map_some, Option.getD_some,
    reverse_linesBefore, hdrop]
  exact Windows.window_isPrefix hsorted hl
    fun rows₁ d rows₂ hrows hmem => filter_toRow hrows (List.mem_reverse.1 hmem)

/-- A page before a line is cut out of what is fetched. -/
lemma callLogs_before (limit : ℤ) (l : LogLine) :
    ((callLogs resource query c errorsOnly (some (encodeLogCursor resource query l.key)) none
        limit).toOption.map fun page => (page.items.reverse, page.nextCursor)) =
      some (((c.linesBefore errorsOnly ((min (max 1 limit) 5000).toNat + 1) l).reverse).take
          (min (max 1 limit) 5000).toNat,
        if (min (max 1 limit) 5000).toNat <
            (c.linesBefore errorsOnly ((min (max 1 limit) 5000).toNat + 1) l).reverse.length then
          ((c.linesBefore errorsOnly ((min (max 1 limit) 5000).toNat + 1) l).reverse.take
            (min (max 1 limit) 5000).toNat).getLast?.map
              fun l => encodeLogCursor resource query l.key
        else none) := by
  have hsorted : ((((c.selected errorsOnly).filter fun d => d.id ≤ l.id).reverse.take
      ((min (max 1 limit) 5000).toNat + 1)).reverse).Pairwise fun d e => d.id < e.id := by
    refine List.pairwise_reverse.2 (List.Pairwise.sublist (List.take_sublist _ _) ?_)
    exact List.pairwise_reverse.2 (sorted_selected.sublist List.filter_sublist)
  refine Eq.trans ?_ (logPage_before _ (sorted_flatMap hsorted) l.key rfl)
  rw [← filter_lines, callLogs, Option.some_or, decodeLogCursor_encodeLogCursor]
  rfl

/-- **The pages that come before each other read the lines before a line, backwards.** -/
lemma reads_before (limit : ℤ) {earlier later : List LogLine} {l : LogLine}
    (h : c.selectedLines errorsOnly = earlier ++ l :: later) :
    Windows.Reads earlier.reverse
      (c.fetchedBefore errorsOnly (min (max 1 limit) 5000).toNat (l :: earlier.reverse))
      (min (max 1 limit) 5000).toNat (some (encodeLogCursor resource query l.key))
      (fun l => encodeLogCursor resource query l.key) fun _ cursor =>
        (callLogs resource query c errorsOnly cursor none limit).toOption.map
          fun page => (page.items.reverse, page.nextCursor) where
  fetched_isPrefix k hk := fetchedBefore_isPrefix _ h (by rwa [List.length_reverse] at hk)
  ask_eq _ k hk := by
    have hlength : k < (l :: earlier.reverse).length := Nat.lt_succ_of_le hk
    have hcursor : Windows.cursorAt earlier.reverse (some (encodeLogCursor resource query l.key))
        (fun l => encodeLogCursor resource query l.key) k =
          some (encodeLogCursor resource query (l :: earlier.reverse)[k].key) := by
      cases k with
      | zero => rfl
      | succ k =>
        rw [Windows.cursorAt, List.getElem?_eq_getElem (Nat.lt_of_succ_le hk)]
        rfl
    rw [hcursor, fetchedBefore, List.getElem?_eq_getElem hlength]
    exact callLogs_before limit _

end CallDocuments

/-! ### The condition -/

lemma pageLimit_pos (limit : ℤ) : 0 < (min (max 1 limit) 5000).toNat := by omega

/-- Nothing is read that is not selected. -/
lemma PagesComplete.selectedLines_eq {limit : ℤ}
    (h : PagesComplete resource query c errorsOnly limit) :
    c.selectedLines errorsOnly = c.matchingLines errorsOnly := by
  obtain ⟨fuel, hfollow⟩ := h.after
  have hprefix := (CallDocuments.reads_after limit).follow_isPrefix (k := 0) (pageLimit_pos limit)
    (Nat.zero_le _) hfollow
  exact CallDocuments.selectedLines_sublist.eq_of_length_le hprefix.length_le

/-- The first page. -/
lemma first_iff {limit : ℕ} :
    (0 < (c.selectedLines errorsOnly).length →
      Windows.Reaches (c.selectedLines errorsOnly) (c.fetchedAfter errorsOnly limit) limit 0) ↔
    (limit < (((c.selected errorsOnly).take (limit + 1)).flatMap
        (LogDocument.matchingLines · errorsOnly)).length ∨
      ((c.selected errorsOnly).drop (limit + 1)).flatMap
        (LogDocument.matchingLines · errorsOnly) = []) := by
  have hsplit : c.selectedLines errorsOnly =
      c.fetchedAfter errorsOnly limit 0 ++ ((c.selected errorsOnly).drop (limit + 1)).flatMap
        (LogDocument.matchingLines · errorsOnly) := by
    rw [CallDocuments.fetchedAfter, ← List.flatMap_append, List.take_append_drop,
      CallDocuments.selectedLines]
  generalize ((c.selected errorsOnly).drop (limit + 1)).flatMap
    (LogDocument.matchingLines · errorsOnly) = rest at hsplit ⊢
  rw [Windows.Reaches, List.drop_zero, hsplit]
  constructor
  · intro h
    rcases List.eq_nil_or_concat rest with rfl | ⟨_, _, rfl⟩
    · exact .inr rfl
    · refine (h (by simp)).imp id fun heq => ?_
      exact List.append_right_eq_self.1 heq.symm
  · rintro (h | rfl) -
    · exact .inl h
    · exact .inr (List.append_nil _).symm

/-- A page after a line. -/
lemma reaches_after {limit : ℕ} {earlier later : List LogLine} {l : LogLine}
    (h : c.selectedLines errorsOnly = earlier ++ l :: later) :
    Windows.Reaches (c.selectedLines errorsOnly) (c.fetchedAfter errorsOnly limit) limit
        (earlier.length + 1) ↔
      limit < (c.linesAfter errorsOnly (limit + 1) l).length ∨
        c.linesAfter errorsOnly (limit + 1) l = later := by
  have hl : (c.selectedLines errorsOnly)[earlier.length]? = some l := by
    rw [h, List.getElem?_append_right le_rfl, Nat.sub_self, List.getElem?_cons_zero]
  have hlater : (c.selectedLines errorsOnly).drop (earlier.length + 1) = later := by
    rw [h, ← List.drop_drop, List.drop_left, List.drop_succ_cons, List.drop_zero]
  rw [Windows.Reaches, CallDocuments.fetchedAfter, hl, Option.map_some, Option.getD_some, hlater]

lemma linesAfter_isPrefix (limit : ℕ) {earlier later : List LogLine} {l : LogLine}
    (h : c.selectedLines errorsOnly = earlier ++ l :: later) :
    c.linesAfter errorsOnly (limit + 1) l <+: later := by
  have hl : (c.selectedLines errorsOnly)[earlier.length]? = some l := by
    rw [h, List.getElem?_append_right le_rfl, Nat.sub_self, List.getElem?_cons_zero]
  have hprefix : c.fetchedAfter errorsOnly limit (earlier.length + 1) <+:
      (c.selectedLines errorsOnly).drop (earlier.length + 1) :=
    CallDocuments.fetchedAfter_isPrefix limit (by simp [h])
  rwa [CallDocuments.fetchedAfter, hl, Option.map_some, Option.getD_some, h, ← List.drop_drop,
    List.drop_left, List.drop_succ_cons, List.drop_zero] at hprefix

lemma linesBefore_suffix (limit : ℕ) {earlier later : List LogLine} {l : LogLine}
    (h : c.selectedLines errorsOnly = earlier ++ l :: later) :
    c.linesBefore errorsOnly (limit + 1) l <:+ earlier :=
  List.reverse_prefix.1 (CallDocuments.fetchedBefore_isPrefix limit h (Nat.zero_le _))

/-- A page before a line. -/
lemma reaches_before {limit : ℕ} {earlier : List LogLine} {l : LogLine} {lines : List LogLine}
    {k : ℕ} (hl : lines[k]? = some l) {items : List LogLine}
    (hitems : items.drop k = earlier.reverse) :
    Windows.Reaches items (c.fetchedBefore errorsOnly limit lines) limit k ↔
      limit < (c.linesBefore errorsOnly (limit + 1) l).length ∨
        c.linesBefore errorsOnly (limit + 1) l = earlier := by
  rw [Windows.Reaches, CallDocuments.fetchedBefore, hl, Option.map_some, Option.getD_some, hitems,
    List.length_reverse, List.reverse_inj]

/-- Some lines back from a line there is another one, with those before it. -/
lemma exists_back {earlier later : List LogLine} {l : LogLine}
    (h : c.selectedLines errorsOnly = earlier ++ l :: later) {k : ℕ} (hk : k ≤ earlier.length) :
    ∃ earlier' l' later', c.selectedLines errorsOnly = earlier' ++ l' :: later' ∧
      (l :: earlier.reverse)[k]? = some l' ∧ earlier.reverse.drop k = earlier'.reverse := by
  cases k with
  | zero => exact ⟨earlier, l, later, h, rfl, rfl⟩
  | succ k =>
    have hlt : earlier.length - (k + 1) < earlier.length := by omega
    refine ⟨earlier.take (earlier.length - (k + 1)), earlier[earlier.length - (k + 1)],
      earlier.drop (earlier.length - (k + 1) + 1) ++ l :: later, ?_, ?_, ?_⟩
    · rw [h, ← List.cons_append, ← List.append_assoc, ← List.drop_eq_getElem_cons hlt,
        List.take_append_drop]
    · have hindex : earlier.length - 1 - k = earlier.length - (k + 1) := by omega
      rw [List.getElem?_cons_succ, List.getElem?_reverse (by omega), hindex,
        List.getElem?_eq_getElem hlt]
    · rw [List.drop_reverse]

/-- The condition is necessary. -/
lemma PagesComplete.fetched {limit : ℤ} (h : PagesComplete resource query c errorsOnly limit) :
    c.Fetched errorsOnly (min (max 1 limit) 5000).toNat := by
  have hlimit := pageLimit_pos limit
  have hlines := h.selectedLines_eq
  have hafter := (Windows.follow_iff (CallDocuments.reads_after limit) hlimit).1 (hlines ▸ h.after)
  constructor
  case flagged => exact CallDocuments.selectedLines_eq_iff.1 hlines
  case first =>
    refine first_iff.1 fun hpos => ?_
    have hzero := hafter 0
    rw [Nat.zero_mul] at hzero
    exact hzero hpos
  case after =>
    intro m earlier l later hsplit hm
    rcases later.eq_nil_or_concat with rfl | ⟨_, _, rfl⟩
    · exact .inr (List.prefix_nil.1 (linesAfter_isPrefix _ hsplit))
    · rw [← reaches_after hsplit, hm]
      refine hafter m ?_
      rw [← hm, hsplit]
      simp
  case before =>
    intro earlier l later hsplit
    have hbefore := (Windows.follow_iff (CallDocuments.reads_before limit hsplit) hlimit).1
      (h.before earlier l later (hlines ▸ hsplit)) 0
    rw [Nat.zero_mul, reaches_before rfl rfl, List.length_reverse] at hbefore
    rcases earlier.eq_nil_or_concat with rfl | ⟨_, _, rfl⟩
    · exact .inr (List.suffix_nil.1 (linesBefore_suffix _ hsplit))
    · exact hbefore (by simp)

/-- **Following the cursors gives every line just when the documents with an error are flagged and
enough of them are fetched.** -/
theorem pagesComplete_iff (limit : ℤ) :
    PagesComplete resource query c errorsOnly limit ↔
      c.Fetched errorsOnly (min (max 1 limit) 5000).toNat := by
  have hlimit := pageLimit_pos limit
  constructor
  · exact PagesComplete.fetched
  · intro h
    have hlines := CallDocuments.selectedLines_eq_iff.2 h.flagged
    constructor
    case after =>
      rw [← hlines]
      refine (Windows.follow_iff (CallDocuments.reads_after limit) hlimit).2 fun m hm => ?_
      cases m with
      | zero =>
        rw [Nat.zero_mul] at hm ⊢
        exact first_iff.2 h.first hm
      | succ m =>
        -- The page comes after the line before its position.
        obtain ⟨k, hk⟩ : ∃ k, (m + 1) * (min (max 1 limit) 5000).toNat = k + 1 :=
          ⟨_, (Nat.succ_pred_eq_of_pos (Nat.mul_pos (Nat.succ_pos m) hlimit)).symm⟩
        rw [hk] at hm ⊢
        have hlt : k < (c.selectedLines errorsOnly).length := by omega
        have hsplit : c.selectedLines errorsOnly = (c.selectedLines errorsOnly).take k ++
            (c.selectedLines errorsOnly)[k] :: (c.selectedLines errorsOnly).drop (k + 1) := by
          rw [← List.drop_eq_getElem_cons hlt, List.take_append_drop]
        have hlength : ((c.selectedLines errorsOnly).take k).length = k :=
          List.length_take_of_le hlt.le
        have hreaches := (reaches_after hsplit).2
          (h.after (m + 1) _ _ _ hsplit (by rw [hlength, hk]))
        rwa [hlength] at hreaches
    case before =>
      intro earlier l later hsplit
      rw [← hlines] at hsplit
      refine (Windows.follow_iff (CallDocuments.reads_before limit hsplit) hlimit).2 fun m hm => ?_
      rw [List.length_reverse] at hm
      obtain ⟨earlier', l', later', hsplit', hl', hdrop⟩ := exists_back hsplit hm.le
      exact (reaches_before hl' hdrop).2 (h.before earlier' l' later' hsplit')

end Readings

/-- Three documents of a line each. -/
def threeDocuments : CallDocuments where
  documents := [⟨1, some 0, [⟨some 10, "a", false⟩]⟩, ⟨2, some 0, [⟨some 11, "b", false⟩]⟩,
    ⟨3, some 0, [⟨some 12, "c", false⟩]⟩]
  sorted := by simp

/-- With pages of one line, the second page is of the second document and is taken for the last. -/
theorem third_line_lost :
    ¬∀ (resource query : String) (c : CallDocuments) (errorsOnly : Bool) (limit : ℤ),
      PagesComplete resource query c errorsOnly limit := by
  intro h
  have hfetched := (h "" "" threeDocuments false 1).fetched
  have hafter := hfetched.after 1 [] ⟨1, 0, 10, "a", false⟩
    [⟨2, 0, 11, "b", false⟩, ⟨3, 0, 12, "c", false⟩] (by decide +kernel) rfl
  exact absurd hafter (by decide +kernel)

end Burla.History
