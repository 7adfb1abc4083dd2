/-
The text of an event stream: `_sse` in management.py, and its reader, `stream_sse` in
_management_client.py.

The reader is handed the lines of what has been delivered, as they are completed, and what comes
after the last of them when the stream ends.  The documents are written and read by `json`, of which
only this is used: a document is read back, and its text is one line that begins without a blank.

The main result is `Burla.Follow.readBody_streamText`: wherever a stream of events is cut off, its
reader yields exactly those events whose texts have been delivered whole, as they were sent.
-/
import Burla.Lib.Framing
import Burla.Results.Capture
import Mathlib.Data.Bool.AllAny

namespace Burla.Follow

open Burla.Results (isLineBoundary isSpace strip)

abbrev Text := List Char

/-- `json.dumps` and `json.loads`. -/
structure Json (δ : Type*) where
  dumps : δ → Text
  loads : Text → Option δ
  loads_dumps : ∀ d, loads (dumps d) = some d
  /-- Control characters and what is not ASCII are escaped. -/
  oneLine : ∀ d, Framing.Free isLineBoundary (dumps d)
  noBlank : ∀ d, (dumps d).dropWhile isSpace = dumps d

variable {δ : Type*}

/-! ### Writing -/

/-- The arguments of `_sse`. -/
structure Event (δ : Type*) where
  event : Text
  data : δ
  eventId : Option Text

/-- The lines of an event. -/
def Event.lines (json : Json δ) (e : Event δ) : List Text :=
  (e.eventId.map fun eventId => "id: ".toList ++ eventId).toList ++
    ["event: ".toList ++ e.event, "data: ".toList ++ json.dumps e.data]

/-- `_sse` -/
def sse (json : Json δ) (e : Event δ) : Text :=
  ['\n'].intercalate (e.lines json) ++ ['\n', '\n']

/-- What a generator of events sends. -/
def streamText (json : Json δ) (es : List (Event δ)) : Text := es.flatMap (sse json)

/-- A name or an id that is read as it was written. -/
def Trim (text : Text) : Prop := Framing.Free isLineBoundary text ∧ strip text = text

/-- What an event's name and id may be. -/
structure Event.Plain (e : Event δ) : Prop where
  event : Trim e.event
  eventId : ∀ eventId ∈ e.eventId, Trim eventId

/-! ### Reading -/

/-- What is yielded for an event. -/
structure Item (δ : Type*) where
  event : Text
  cursor : Option Text
  data : δ
  deriving DecidableEq

/-- What is yielded for an event that has been sent. -/
def Event.item (e : Event δ) : Item δ := ⟨e.event, e.eventId, e.data⟩

/-- `event_name`, `event_id` and `data_lines`. -/
structure Reading where
  eventName : Text
  eventId : Option Text
  dataLines : List Text
  deriving DecidableEq

/-- Before the first line of an event. -/
def Reading.start : Reading := ⟨"update".toList, none, []⟩

/-- `line.removeprefix(start)`, of a line that begins with it. -/
def removePrefix (start line : Text) : Option Text :=
  if start <+: line then some (line.drop start.length) else none

/-- A line: what has been read after it, and what is yielded; nothing if `json.loads` raises. -/
def readLine (json : Json δ) (r : Reading) (line : Text) : Option (Reading × List (Item δ)) :=
  if line = [] then
    if r.dataLines = [] then some (.start, [])
    else (json.loads (['\n'].intercalate r.dataLines)).map fun payload =>
      (.start, [⟨r.eventName, r.eventId, payload⟩])
  else if (removePrefix [':'] line).isSome ∨ (removePrefix "retry:".toList line).isSome then
    some (r, [])
  else
    match removePrefix "event:".toList line with
    | some rest => some ({ r with eventName := strip rest }, [])
    | none =>
      match removePrefix "id:".toList line with
      | some rest => some ({ r with eventId := some (strip rest) }, [])
      | none =>
        match removePrefix "data:".toList line with
        | some rest => some ({ r with dataLines := r.dataLines ++ [rest.dropWhile isSpace] }, [])
        | none => some (r, [])

/-- The lines of a stream. -/
def readLines (json : Json δ) : Reading → List Text → Option (Reading × List (Item δ))
  | r, [] => some (r, [])
  | r, line :: lines =>
    (readLine json r line).bind fun (r, items) =>
      (readLines json r lines).map fun (r, items') => (r, items ++ items')

/-- The lines that have been completed, and, when the stream ends, what has been begun. -/
def bodyLines (delivered : Text) (ended : Bool) : List Text :=
  let (lines, begun) := Framing.cut isLineBoundary [] delivered
  lines.map List.dropLast ++ if ended = true ∧ begun ≠ [] then [begun] else []

/-- What is yielded for what has been delivered on a connection. -/
def readBody (json : Json δ) (delivered : Text) (ended : Bool) : Option (List (Item δ)) :=
  (readLines json .start (bodyLines delivered ended)).map Prod.snd

/-- The events whose texts are among the first `n` letters. -/
def delivered (json : Json δ) : List (Event δ) → ℕ → List (Event δ)
  | [], _ => []
  | e :: es, n =>
    if (sse json e).length ≤ n then e :: delivered json es (n - (sse json e).length) else []

section Lines

variable {json : Json δ} {r r' : Reading} {line rest start : Text} {lines lines' : List Text}
  {items : List (Item δ)} {c d : Char}

lemma removePrefix_append : removePrefix start (start ++ rest) = some rest := by
  rw [removePrefix, if_pos (List.prefix_append _ _), List.drop_left]

lemma removePrefix_of_head (hstart : start.head? = some c) (hline : line.head? = some d)
    (h : c ≠ d) : removePrefix start line = none := by
  obtain ⟨start, rfl⟩ := List.head?_eq_some_iff.1 hstart
  obtain ⟨line, rfl⟩ := List.head?_eq_some_iff.1 hline
  refine if_neg fun hprefix => h ?_
  exact (List.cons_prefix_cons.1 hprefix).1

/-- A line that is not empty yields nothing. -/
lemma readLine_of_ne_nil (h : line ≠ []) : ∃ r', readLine json r line = some (r', []) := by
  rw [readLine, if_neg h]
  split
  · exact ⟨r, rfl⟩
  · split
    · exact ⟨_, rfl⟩
    · split
      · exact ⟨_, rfl⟩
      · split
        · exact ⟨_, rfl⟩
        · exact ⟨r, rfl⟩

lemma readLines_of_ne_nil (h : ∀ line ∈ lines, line ≠ []) :
    ∃ r', readLines json r lines = some (r', []) := by
  induction lines generalizing r with
  | nil => exact ⟨r, rfl⟩
  | cons line lines ih =>
    obtain ⟨hline, hlines⟩ := List.forall_mem_cons.1 h
    obtain ⟨r₁, h₁⟩ : ∃ r₁, readLine json r line = some (r₁, []) := readLine_of_ne_nil hline
    obtain ⟨r₂, h₂⟩ := ih hlines (r := r₁)
    exact ⟨r₂, by simp [readLines, h₁, h₂]⟩

lemma readLines_append (h : readLines json r lines = some (r', items)) :
    readLines json r (lines ++ lines') =
      (readLines json r' lines').map fun (r, items') => (r, items ++ items') := by
  induction lines generalizing r items with
  | nil =>
    obtain ⟨rfl, rfl⟩ := Prod.mk.inj (Option.some.inj h)
    cases hrest : readLines json r lines' <;> simp [hrest]
  | cons line lines ih =>
    simp only [readLines, Option.bind_eq_some_iff, Option.map_eq_some_iff, Prod.exists,
      Prod.mk.injEq] at h
    obtain ⟨r₁, items₁, h₁, r₂, items₂, h₂, rfl, rfl⟩ := h
    rw [List.cons_append, readLines, h₁, Option.bind_some]
    dsimp only
    rw [ih h₂, Option.map_map]
    congr 1
    funext p
    exact Prod.ext rfl (List.append_assoc _ _ _).symm

end Lines

section Fields

variable {json : Json δ} {r : Reading} {text line : Text} {c : Char}

lemma strip_blank (h : strip text = text) : strip (' ' :: text) = text := by
  rw [strip, List.dropWhile_cons_of_pos (by decide)]
  exact h

/-- A line that is no comment and sets no waiting time. -/
lemma readLine_of_head (hline : line.head? = some c) (hcolon : ':' ≠ c) (hr : 'r' ≠ c) :
    readLine json r line =
      match removePrefix "event:".toList line with
      | some rest => some ({ r with eventName := strip rest }, [])
      | none =>
        match removePrefix "id:".toList line with
        | some rest => some ({ r with eventId := some (strip rest) }, [])
        | none =>
          match removePrefix "data:".toList line with
          | some rest => some ({ r with dataLines := r.dataLines ++ [rest.dropWhile isSpace] }, [])
          | none => some (r, []) := by
  have hne : line ≠ [] := by
    rintro rfl
    cases hline
  rw [readLine, if_neg hne, if_neg]
  rw [removePrefix_of_head rfl hline hcolon, removePrefix_of_head (c := 'r') rfl hline hr]
  simp

/-- The line with the name. -/
lemma readLine_event (h : Trim text) :
    readLine json r ("event: ".toList ++ text) = some ({ r with eventName := text }, []) := by
  have hline : "event: ".toList ++ text = "event:".toList ++ ' ' :: text := rfl
  rw [readLine_of_head (c := 'e') rfl (by decide) (by decide), hline, removePrefix_append]
  dsimp only
  rw [strip_blank h.2]

/-- The line with the id. -/
lemma readLine_id (h : Trim text) :
    readLine json r ("id: ".toList ++ text) = some ({ r with eventId := some text }, []) := by
  have hline : "id: ".toList ++ text = "id:".toList ++ ' ' :: text := rfl
  rw [readLine_of_head (c := 'i') rfl (by decide) (by decide),
    removePrefix_of_head (c := 'e') (d := 'i') rfl rfl (by decide), hline, removePrefix_append]
  dsimp only
  rw [strip_blank h.2]

/-- The line with the document. -/
lemma readLine_data (h : text.dropWhile isSpace = text) :
    readLine json r ("data: ".toList ++ text) =
      some ({ r with dataLines := r.dataLines ++ [text] }, []) := by
  have hline : "data: ".toList ++ text = "data:".toList ++ ' ' :: text := rfl
  rw [readLine_of_head (c := 'd') rfl (by decide) (by decide),
    removePrefix_of_head (c := 'e') (d := 'd') rfl rfl (by decide),
    removePrefix_of_head (c := 'i') (d := 'd') rfl rfl (by decide), hline, removePrefix_append]
  dsimp only
  rw [List.dropWhile_cons_of_pos (by decide), h]

lemma trim_of_forall
    (h : ∀ c ∈ text, isLineBoundary c = false ∧ isSpace c = false) : Trim text :=
  ⟨fun c hc => (h c hc).1, Burla.Results.strip_of_forall fun c hc => (h c hc).2⟩

lemma trim_of_all (h : text.all fun c => isLineBoundary c = false ∧ isSpace c = false) :
    Trim text :=
  trim_of_forall (List.all_iff_forall_prop.1 h)

end Fields

section Events

variable {json : Json δ} {e : Event δ} {es : List (Event δ)} {lines : List Text} {text : Text}

lemma readLines_lines (h : e.Plain) :
    readLines json .start (e.lines json) =
      some (⟨e.event, e.eventId, [json.dumps e.data]⟩, []) := by
  have hdata (r : Reading) : readLine json r ("data: ".toList ++ json.dumps e.data) =
      some ({ r with dataLines := r.dataLines ++ [json.dumps e.data] }, []) :=
    readLine_data (json.noBlank e.data)
  have hevent (r : Reading) : readLine json r ("event: ".toList ++ e.event) =
      some ({ r with eventName := e.event }, []) := readLine_event h.event
  rw [Event.lines]
  cases hid : e.eventId with
  | none =>
    rw [Option.map_none, Option.toList_none, List.nil_append]
    simp only [readLines, hevent, hdata]
    rfl
  | some eventId =>
    have hread (r : Reading) : readLine json r ("id: ".toList ++ eventId) =
        some ({ r with eventId := some eventId }, []) := readLine_id (h.eventId _ hid)
    rw [Option.map_some, Option.toList_some, List.singleton_append]
    simp only [readLines, hread, hevent, hdata]
    rfl

/-- The empty line after an event yields it. -/
lemma readLines_event (h : e.Plain) :
    readLines json .start (e.lines json ++ [[]]) = some (.start, [e.item]) := by
  rw [readLines_append (readLines_lines h)]
  simp [readLines, readLine, List.intercalate, json.loads_dumps, Event.item]

lemma mem_lines : text ∈ e.lines json ↔ (∃ eventId ∈ e.eventId, "id: ".toList ++ eventId = text) ∨
    text = "event: ".toList ++ e.event ∨ text = "data: ".toList ++ json.dumps e.data := by
  rw [Event.lines, List.mem_append, Option.mem_toList, Option.map_eq_some_iff, List.mem_pair]
  rfl

lemma lines_ne_nil (h : text ∈ e.lines json) : text ≠ [] := by
  rcases mem_lines.1 h with ⟨_, -, rfl⟩ | rfl | rfl <;> exact List.cons_ne_nil _ _

/-- No line of an event is broken. -/
lemma free_lines (h : e.Plain) (htext : text ∈ e.lines json) :
    Framing.Free isLineBoundary text := by
  rcases mem_lines.1 htext with ⟨eventId, hid, rfl⟩ | rfl | rfl
  · have hlabel : ∀ c ∈ "id: ".toList, isLineBoundary c = false :=
      List.all_iff_forall_prop.1 (by decide)
    exact Framing.Free.append hlabel (h.eventId _ hid).1
  · have hlabel : ∀ c ∈ "event: ".toList, isLineBoundary c = false :=
      List.all_iff_forall_prop.1 (by decide)
    exact Framing.Free.append hlabel h.event.1
  · have hlabel : ∀ c ∈ "data: ".toList, isLineBoundary c = false :=
      List.all_iff_forall_prop.1 (by decide)
    exact Framing.Free.append hlabel (json.oneLine e.data)

/-- Lines that are joined, with an end after the last. -/
lemma intercalate_append (h : lines ≠ []) :
    ['\n'].intercalate lines ++ ['\n'] = (lines.map (· ++ ['\n'])).flatten := by
  induction lines with
  | nil => exact absurd rfl h
  | cons line lines ih =>
    cases lines with
    | nil => simp [List.intercalate]
    | cons line' lines =>
      have hrest := ih (List.cons_ne_nil _ _)
      rw [List.map_cons, List.flatten_cons, ← hrest]
      simp [List.intercalate, List.intersperse]

/-- The lines of an event, with their ends. -/
def Event.frames (json : Json δ) (e : Event δ) : List Text := (e.lines json).map (· ++ ['\n'])

lemma sse_eq : sse json e = (e.frames json).flatten ++ ['\n'] := by
  have hne : e.lines json ≠ [] := by simp [Event.lines]
  rw [Event.frames, ← intercalate_append hne, sse]
  simp

lemma isFrame_frames (h : e.Plain) (htext : text ∈ e.frames json) :
    Framing.IsFrame isLineBoundary text := by
  obtain ⟨line, hline, rfl⟩ := List.mem_map.1 htext
  exact ⟨line, '\n', rfl, free_lines h hline, rfl⟩

/-- The lines of a text that begins with an event. -/
lemma cut_sse (h : e.Plain) :
    Framing.cut isLineBoundary [] (sse json e ++ text) =
      (e.frames json ++ ['\n'] :: (Framing.cut isLineBoundary [] text).1,
        (Framing.cut isLineBoundary [] text).2) := by
  rw [sse_eq, List.append_assoc, Framing.cut_append,
    Framing.cut_flatten fun _ htext => isFrame_frames h htext, List.singleton_append]
  rfl

lemma dropLast_frames : (e.frames json).map List.dropLast = e.lines json := by
  rw [Event.frames, List.map_map]
  refine (List.map_congr_left fun line _ => ?_).trans (List.map_id _)
  exact List.dropLast_concat

/-- What is read of a text that begins with an event. -/
lemma readBody_sse (h : e.Plain) (ended : Bool) :
    readBody json (sse json e ++ text) ended = (readBody json text ended).map (e.item :: ·) := by
  have hlines : bodyLines (sse json e ++ text) ended =
      e.lines json ++ [[]] ++ bodyLines text ended := by
    rw [bodyLines, cut_sse h]
    simp only [List.map_append, List.map_cons, dropLast_frames, bodyLines, List.append_assoc]
    rfl
  rw [readBody, hlines, readLines_append (readLines_event h), readBody, Option.map_map,
    Option.map_map]
  rfl

/-- What has been delivered of an event in part has no empty line. -/
lemma bodyLines_part (h : e.Plain) {n : ℕ} (hn : n < (sse json e).length) (ended : Bool) :
    ∀ line ∈ bodyLines ((sse json e ++ text).take n) ended, line ≠ [] := by
  obtain ⟨rest, hrest⟩ : (sse json e ++ text).take n <+: (e.frames json).flatten := by
    rw [List.take_append_of_le_length hn.le, sse_eq, List.take_append_of_le_length]
    · exact List.take_prefix _ _
    · rw [sse_eq, List.length_append, List.length_singleton] at hn
      omega
  have hframe : ∀ frame ∈ e.frames json, Framing.IsFrame isLineBoundary frame :=
    fun _ hframe => isFrame_frames h hframe
  have hcut := Framing.cut_flatten hframe
  rw [← hrest, Framing.cut_append] at hcut
  obtain ⟨hframes, -⟩ := Prod.mk.inj hcut
  intro line hline
  rw [bodyLines] at hline
  dsimp only at hline
  rcases List.mem_append.1 hline with hline | hline
  · have hmem : line ∈ e.lines json := by
      rw [← dropLast_frames, ← hframes, List.map_append]
      exact List.mem_append_left _ hline
    exact lines_ne_nil hmem
  · split at hline
    · rename_i hbegun
      rw [List.mem_singleton.1 hline]
      exact hbegun.2
    · cases hline

/-- **Wherever a stream is cut off, the events that have been delivered whole are yielded**, as they
were sent, and nothing else, also when what is left of a line is handed over. -/
theorem readBody_streamText (json : Json δ) (es : List (Event δ)) (hes : ∀ e ∈ es, e.Plain) (n : ℕ)
    (ended : Bool) :
    readBody json ((streamText json es).take n) ended =
      some ((delivered json es n).map Event.item) := by
  induction es generalizing n with
  | nil => simp [streamText, readBody, bodyLines, Framing.cut, readLines, delivered]
  | cons e es ih =>
    obtain ⟨he, hes⟩ := List.forall_mem_cons.1 hes
    have htext : streamText json (e :: es) = sse json e ++ streamText json es := rfl
    rw [htext, delivered]
    by_cases hn : (sse json e).length ≤ n
    · have htake : (sse json e ++ streamText json es).take n =
          sse json e ++ (streamText json es).take (n - (sse json e).length) := by
        rw [List.take_append, List.take_of_length_le hn]
      rw [if_pos hn, htake, readBody_sse he, ih hes]
      rfl
    · rw [if_neg hn, readBody]
      have hlines : ∀ line ∈ bodyLines ((sse json e ++ streamText json es).take n) ended,
          line ≠ [] := bodyLines_part he (Nat.lt_of_not_le hn) ended
      obtain ⟨r, hr⟩ := readLines_of_ne_nil hlines (r := .start)
      rw [hr]
      rfl

lemma delivered_isPrefix (n : ℕ) : delivered json es n <+: es := by
  induction es generalizing n with
  | nil => exact List.prefix_rfl
  | cons e es ih =>
    rw [delivered]
    split
    · exact List.cons_prefix_cons.2 ⟨rfl, ih _⟩
    · exact List.nil_prefix

/-- When everything has been delivered, no event is left. -/
lemma delivered_length : delivered json es (streamText json es).length = es := by
  induction es with
  | nil => rfl
  | cons e es ih =>
    have hlength : (streamText json (e :: es)).length =
        (sse json e).length + (streamText json es).length := List.length_append
    rw [delivered, if_pos (by omega), hlength, Nat.add_sub_cancel_left, ih]

end Events

/-! ### Two events -/

section Up

open Burla.Files (decimal int)

/-- The text of a number. -/
def numberText (start : Text) (id : ℕ) (rest : Text) : Text := start ++ decimal id ++ rest

/-- The number in such a text. -/
def readNumber (start text : Text) : ℕ :=
  ((int ((text.drop start.length).takeWhile Char.isDigit)).getD 0).toNat

lemma readNumber_numberText {start rest : Text} (h : rest.head?.all fun c => !c.isDigit) (id : ℕ) :
    readNumber start (numberText start id rest) = id := by
  have hdigits : (decimal id ++ rest).takeWhile Char.isDigit = decimal id := by
    rw [List.takeWhile_append_of_pos fun c hc => Burla.Files.isDigit_of_mem_decimal hc]
    cases rest with
    | nil => simp
    | cons c rest => simpa using h
  rw [readNumber, numberText, List.append_assoc, List.drop_left, hdigits, Burla.Files.int_decimal]
  rfl

/-- The rows of a log whose lines are all the same, and without a time. -/
def dumpsUp : Option ℕ → Text
  | none => "\x7b\x7d".toList
  | some id =>
    numberText "\x7b\"id\":".toList id ",\"timestamp\":null,\"message\":\"up\"\x7d".toList

def loadsUp (text : Text) : Option (Option ℕ) :=
  [none, some (readNumber "\x7b\"id\":".toList text)].find? fun d => dumpsUp d = text

lemma dumpsUp_ne (id : ℕ) : dumpsUp none ≠ dumpsUp (some id) := by
  intro h
  have hsecond := congrArg (fun text : Text => text[1]?) h
  cases hsecond

def upJson : Json (Option ℕ) where
  dumps := dumpsUp
  loads := loadsUp
  loads_dumps
    | none => by simp [loadsUp]
    | some id => by
      have hid : readNumber "\x7b\"id\":".toList (dumpsUp (some id)) = id :=
        readNumber_numberText rfl id
      rw [loadsUp, hid]
      simp [dumpsUp_ne id]
  oneLine
    | none => List.all_iff_forall_prop.1 (by decide)
    | some id => by
      refine Framing.Free.append (Framing.Free.append ?_ fun c hc => ?_) ?_
      · exact List.all_iff_forall_prop.1 (by decide)
      · exact (Burla.Results.decimal_plain hc).2
      · exact List.all_iff_forall_prop.1 (by decide)
  noBlank
    | none => rfl
    | some _ => rfl

/-- A line of a log, and a sign of life. -/
def upEvents : List (Event (Option ℕ)) :=
  [⟨"log".toList, some 1, some ['a']⟩, ⟨"keepalive".toList, none, none⟩]

theorem readBody_streamText_up :
    readBody upJson ((streamText upJson upEvents).take 80) true =
      some ((delivered upJson upEvents 80).map Event.item) ∧
    (delivered upJson upEvents 80).map Event.item = [⟨"log".toList, some ['a'], some 1⟩] := by
  have hplain : ∀ e ∈ upEvents, e.Plain := by
    intro e he
    rcases List.mem_pair.1 he with rfl | rfl
    · refine ⟨trim_of_all rfl, ?_⟩
      rintro _ ⟨⟩
      exact trim_of_all rfl
    · refine ⟨trim_of_all rfl, ?_⟩
      rintro _ ⟨⟩
  exact ⟨readBody_streamText upJson upEvents hplain 80 true, by decide⟩

end Up

end Burla.Follow
