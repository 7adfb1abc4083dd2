/-
The pages of a directory (`extract_paging`, `get_directory_page` and `read_action` in storage.py;
`GCSBlobStore.iter_pages` in blobstore.py).

The store lists, in the order of the keys, the objects of a directory and the common prefixes of
those below it, and so many of them: one more than what is shown to the end of a page.  They come in
pages of its own, and of each of these the folders are shown before the files.  A folder may have an
object of its own name, its marker, which is not shown.

The main result is `Burla.Files.pagesAgree_iff`: whatever the pages of the store are, every child is
shown, once, if and only if no page shows a folder that comes after a file of an earlier page, and
the directory has no marker or only one page.
-/
import Burla.Files.Actions
import Burla.Files.ContentRange
import Burla.Lib.Grouped
import Burla.Lib.Paths
import Mathlib.Data.Char
import Mathlib.Data.List.Dedup
import Mathlib.Data.List.Lex
import Mathlib.Data.Rat.Init

namespace Burla.Files

/-! ### The listing -/

/-- What a listing says about an object; the time is as `isoformat_value` writes it. -/
structure BlobMeta where
  name : Text
  size : ℕ
  updated : Option Text
  deriving DecidableEq

/-- The size and the time of an object. -/
structure StoredObject where
  size : ℕ
  updated : Option Text

abbrev ObjectStore := Dict Text StoredObject

/-- An item of a listing with a delimiter. -/
inductive Listed
  | commonPrefix (name : Text)
  | object (blob : BlobMeta)
  deriving DecidableEq

namespace Listed

def name : Listed → Text
  | commonPrefix name => name
  | object blob => blob.name

def commonPrefix? : Listed → Option Text
  | commonPrefix name => some name
  | object _ => none

def object? : Listed → Option BlobMeta
  | commonPrefix _ => none
  | object blob => some blob

end Listed

/-- A key under a prefix, up to the first delimiter. -/
def listed (pre key : Text) (stored : StoredObject) : Listed :=
  if '/' ∈ key.drop pre.length then
    .commonPrefix (pre ++ (key.drop pre.length).takeWhile (· ≠ '/') ++ ['/'])
  else .object ⟨key, stored.size, stored.updated⟩

/-- `list_blobs` with `delimiter="/"`, in the order of the names. -/
def listing (store : ObjectStore) (pre : Text) : List Listed :=
  ((store.items.filter fun e => pre.isPrefixOf e.1).map fun e =>
    listed pre e.1 e.2).dedup.insertionSort fun a b => a.name ≤ b.name

/-- `iter_pages` -/
def iterPages (pages : List (List Listed)) : List (List Text × List BlobMeta) :=
  pages.map fun page => (page.filterMap Listed.commonPrefix?, page.filterMap Listed.object?)

/-! ### A page -/

/-- What the response says about an entry, with its size and its time. -/
structure ListedEntry extends Entry where
  size : ℕ
  dateModified : Text

/-- `build_directory_metadata` -/
def folderEntry (directory pre : Text) : ListedEntry where
  toEntry := buildDirectoryMetadata pre directory true
  size := 0
  dateModified := []

/-- `build_file_metadata` -/
def fileEntry (directory : Text) (blob : BlobMeta) : ListedEntry where
  toEntry := buildFileMetadata blob.name directory
  size := blob.size
  dateModified := blob.updated.getD []

/-- `build_cwd_metadata` -/
def buildCwdMetadata (directory : Text) (hasChildren : Bool) : ListedEntry where
  name := if directory = [] then "/workspace/shared".toList else Path.lastSegment '/' directory
  isFile := false
  hasChild := hasChildren
  path := directoryPathForResponse directory
  size := 0
  dateModified := []

/-- How far `get_directory_page` has come; once there is more, nothing is gone through. -/
structure Scan where
  entries : List ListedEntry
  seen : ℕ
  hasMore : Bool

def Scan.add (skip take : ℕ) (s : Scan) (entry : ListedEntry) : Scan :=
  if s.hasMore then s
  else if skip + take ≤ s.seen then { s with hasMore := true }
  else
    { s with
      entries := if skip ≤ s.seen then s.entries ++ [entry] else s.entries
      seen := s.seen + 1 }

/-- An object that is not shown. -/
def isMarker (directory : Text) (blob : BlobMeta) : Bool :=
  blob.name = directory || ['/'].isSuffixOf blob.name

/-- A page of the store: its folders, and then its files. -/
def Scan.addPage (directory : Text) (skip take : ℕ) (s : Scan)
    (page : List Text × List BlobMeta) : Scan :=
  let s := page.1.foldl (fun s pre => s.add skip take (folderEntry directory pre)) s
  page.2.foldl
    (fun s blob =>
      if isMarker directory blob then s else s.add skip take (fileEntry directory blob)) s

/-- `get_directory_page`; the store's pages are a function of `max_results`. -/
def getDirectoryPage (pages : ℕ → List (List Listed)) (directory : Text) (skip take : ℕ) :
    List ListedEntry × ℕ × Bool :=
  let needed := skip + take + 1
  let s := (iterPages (pages (max needed 1))).foldl (Scan.addPage directory skip take) ⟨[], 0, false⟩
  (s.entries, if s.hasMore then skip + s.entries.length + 1 else s.seen, s.hasMore)

/-! ### The request -/

/-- What a request may have for a number. -/
inductive PagingValue
  | null
  | int (n : ℤ)
  | float (q : ℚ)
  | bool (b : Bool)
  | text (t : Text)
  /-- A list or an object. -/
  | other
  deriving DecidableEq

/-- `to_int` -/
def PagingValue.toInt (default : ℤ) : PagingValue → ℤ
  | null | other => default
  | int n => n
  | float q => q.num.tdiv q.den
  | bool b => if b then 1 else 0
  | text t => (Files.int t).getD default

structure ReadPayload where
  path : Option Text
  skip : PagingValue
  take : PagingValue
  /-- `skip` and `take` in `data`, when it is an object. -/
  data : Option (PagingValue × PagingValue)

/-- `extract_paging` -/
def extractPaging (payload : ReadPayload) : ℕ × ℕ :=
  let rawSkip := if payload.skip = .null then (payload.data.map Prod.fst).getD .null else payload.skip
  let rawTake := if payload.take = .null then (payload.data.map Prod.snd).getD .null else payload.take
  let skip := max (rawSkip.toInt 0) 0
  let take := rawTake.toInt 1000
  let take := if take ≤ 0 then 1000 else take
  let take := if 5000 < take then 5000 else take
  (skip.toNat, take.toNat)

structure ReadResponse where
  cwd : ListedEntry
  files : List ListedEntry
  count : ℕ
  hasMore : Bool

/-- `read_action` -/
def readAction (pages : Text → ℕ → List (List Listed)) (payload : ReadPayload) : ReadResponse :=
  let directory := normalizeDirectoryPath payload.path
  let (skip, take) := extractPaging payload
  let (files, totalCount, hasMore) := getDirectoryPage (pages directory) directory skip take
  { cwd := buildCwdMetadata directory (0 < totalCount)
    files := files
    count := totalCount
    hasMore := hasMore }

/-! ### All pages -/

/-- The folders in a directory. -/
def childFolders (store : ObjectStore) (directory : Text) : List Text :=
  ((store.keys.filter fun key =>
    directory.isPrefixOf key && '/' ∈ key.drop directory.length).map fun key =>
      directory ++ (key.drop directory.length).takeWhile (· ≠ '/') ++ ['/']).dedup

/-- The files in a directory: its marker is none. -/
def childFiles (store : ObjectStore) (directory : Text) : List BlobMeta :=
  (store.items.filter fun e => directory.isPrefixOf e.1 && e.1 ≠ directory &&
    '/' ∉ e.1.drop directory.length).map fun e => ⟨e.1, e.2.size, e.2.updated⟩

/-- The full listing. -/
def children (store : ObjectStore) (directory : Text) : List ListedEntry :=
  (childFolders store directory).map (folderEntry directory) ++
    (childFiles store directory).map (fileEntry directory)

/-- The request for a page, and the `skip` of the next one when there is more. -/
def askPage (pages : ℕ → Text → ℕ → List (List Listed)) (path : Option Text)
    (data : Option (PagingValue × PagingValue)) (take j : ℕ) (skip : Option ℕ) :
    Option (List ListedEntry × Option ℕ) :=
  let response := readAction (pages j) ⟨path, .int (skip.getD 0), .int take, data⟩
  some (response.files, if response.hasMore then some (skip.getD 0 + take) else none)

/-- Each request sees the first items of the same listing, in pages of any size. -/
def ListsStore (store : ObjectStore) (pages : ℕ → Text → ℕ → List (List Listed)) : Prop :=
  ∀ j pre n, (pages j pre n).flatten = (listing store pre).take n

/-- Asking for page after page ends, with every child once and nothing else. -/
def PagesAgree (store : ObjectStore) (path : Option Text)
    (data : Option (PagingValue × PagingValue)) (take : ℕ) : Prop :=
  ∀ pages, ListsStore store pages →
    ∃ fuel entries, Keyset.follow (askPage pages path data take) fuel 0 none = some entries ∧
      entries.Perm (children store (normalizeDirectoryPath path))

/-! ### What a page shows -/

namespace Listed

variable (directory : Text)

def shown : Listed → Bool
  | commonPrefix _ => true
  | object blob => !isMarker directory blob

def entry : Listed → ListedEntry
  | commonPrefix pre => folderEntry directory pre
  | object blob => fileEntry directory blob

end Listed

def isFolder (entry : ListedEntry) : Bool := !entry.isFile

/-- The children in the order of the listing. -/
def inListingOrder (store : ObjectStore) (directory : Text) : List ListedEntry :=
  ((listing store directory).filter (Listed.shown directory)).map (Listed.entry directory)

/-- What is shown of a page of the store. -/
def shownGroup (directory : Text) (page : List Listed) : List ListedEntry :=
  (page.filter (Listed.shown directory)).map (Listed.entry directory)

section Page

variable {directory : Text} {skip take : ℕ}

lemma filter_shownGroup (page : List Listed) : (shownGroup directory page).filter isFolder =
    (page.filterMap Listed.commonPrefix?).map (folderEntry directory) := by
  induction page with
  | nil => rfl
  | cons item page ih =>
    rw [shownGroup] at ih ⊢
    cases item with
    | commonPrefix pre =>
      rw [List.filter_cons_of_pos rfl, List.map_cons, List.filter_cons_of_pos rfl, ih]
      rfl
    | object blob =>
      rw [List.filterMap_cons_none rfl, ← ih, List.filter_cons]
      split_ifs
      · rw [List.map_cons]
        exact List.filter_cons_of_neg Bool.false_ne_true
      · rfl

lemma filter_not_shownGroup (page : List Listed) :
    (shownGroup directory page).filter (fun e => !isFolder e) =
      ((page.filterMap Listed.object?).filter fun blob => !isMarker directory blob).map
        (fileEntry directory) := by
  induction page with
  | nil => rfl
  | cons item page ih =>
    rw [shownGroup] at ih ⊢
    cases item with
    | commonPrefix pre =>
      rw [List.filterMap_cons_none rfl, ← ih, List.filter_cons_of_pos rfl, List.map_cons]
      exact List.filter_cons_of_neg Bool.false_ne_true
    | object blob =>
      have hobjects : (Listed.object blob :: page).filterMap Listed.object? =
          blob :: page.filterMap Listed.object? := rfl
      rw [hobjects, List.filter_cons, List.filter_cons, Listed.shown]
      split_ifs
      · rw [List.map_cons, List.map_cons, ← ih]
        exact List.filter_cons_of_pos rfl
      · exact ih

/-- A page of the store is gone through entry by entry. -/
lemma addPage_eq (s : Scan) (page : List Listed) :
    s.addPage directory skip take
        (page.filterMap Listed.commonPrefix?, page.filterMap Listed.object?) =
      ((shownGroup directory page).filter isFolder ++
        (shownGroup directory page).filter fun e => !isFolder e).foldl (Scan.add skip take) s := by
  rw [filter_shownGroup, filter_not_shownGroup, List.foldl_append, List.foldl_map, List.foldl_map,
    List.foldl_filter, Scan.addPage]
  dsimp only
  congr 1
  funext s blob
  cases isMarker directory blob <;> rfl

lemma foldl_addPage (pages : List (List Listed)) (s : Scan) :
    (iterPages pages).foldl (Scan.addPage directory skip take) s =
      (Grouped.regroup isFolder (pages.map (shownGroup directory))).foldl (Scan.add skip take) s := by
  induction pages generalizing s with
  | nil => rfl
  | cons page pages ih =>
    rw [iterPages] at ih ⊢
    rw [List.map_cons, List.foldl_cons, addPage_eq, ih, ← List.foldl_append]
    rfl

/-- What is shown is between `skip` and `skip + take`. -/
lemma foldl_add (l : List ListedEntry) : l.foldl (Scan.add skip take) ⟨[], 0, false⟩ =
    ⟨(l.take (skip + take)).drop skip, min l.length (skip + take), skip + take < l.length⟩ := by
  induction l using List.reverseRecOn with
  | nil => simp
  | append_singleton l a ih =>
    rw [List.foldl_append, ih, List.foldl_cons, List.foldl_nil, Scan.add, List.length_append,
      List.length_singleton]
    dsimp only
    rcases Nat.lt_trichotomy (skip + take) l.length with hlt | heq | hgt
    · have hmore : decide (skip + take < l.length) = true := decide_eq_true hlt
      have hmore' : decide (skip + take < l.length + 1) = true := decide_eq_true (by omega)
      rw [hmore, if_pos rfl, hmore', List.take_append_of_le_length hlt.le, Nat.min_eq_right hlt.le,
        Nat.min_eq_right (by omega)]
    · have hmore : decide (skip + take < l.length) = false := decide_eq_false (by omega)
      have hmore' : decide (skip + take < l.length + 1) = true := decide_eq_true (by omega)
      rw [hmore, if_neg Bool.false_ne_true, if_pos (by omega), hmore',
        List.take_append_of_le_length heq.le, Nat.min_eq_right heq.le, Nat.min_eq_right (by omega)]
    · have hmore : decide (skip + take < l.length) = false := decide_eq_false (by omega)
      have hmore' : decide (skip + take < l.length + 1) = false := decide_eq_false (by omega)
      rw [hmore, if_neg Bool.false_ne_true, Nat.min_eq_left hgt.le, if_neg (by omega), hmore',
        Nat.min_eq_left (by omega), List.take_of_length_le hgt.le, List.take_of_length_le (by simpa)]
      congr 1
      split_ifs with hskip
      · rw [List.drop_append_of_le_length hskip]
      · rw [List.drop_eq_nil_of_le (by omega), List.drop_eq_nil_of_le (by simp; omega)]

/-- A page is cut out of what the store's pages show. -/
lemma getDirectoryPage_eq (pages : ℕ → List (List Listed)) :
    ((getDirectoryPage pages directory skip take).1,
        if (getDirectoryPage pages directory skip take).2.2 then some (skip + take) else none) =
      Grouped.page isFolder ((pages (skip + take + 1)).map (shownGroup directory)) skip take := by
  rw [getDirectoryPage, Nat.max_eq_left (Nat.le_add_left 1 _), foldl_addPage, foldl_add, Grouped.page]
  simp only [decide_eq_true_eq]

end Page

/-! ### What the listing has -/

section Listing

variable {store : ObjectStore} {directory pre : Text}

lemma mem_listing {item : Listed} : item ∈ listing store pre ↔
    ∃ key stored, store.get key = some stored ∧ pre <+: key ∧ listed pre key stored = item := by
  rw [listing, List.mem_insertionSort, List.mem_dedup, List.mem_map]
  constructor
  · rintro ⟨⟨key, stored⟩, hmem, rfl⟩
    obtain ⟨hmem, hpre⟩ := List.mem_filter.1 hmem
    exact ⟨key, stored, Dict.mem_items.1 hmem, List.isPrefixOf_iff_prefix.1 hpre, rfl⟩
  · rintro ⟨key, stored, hget, hpre, rfl⟩
    exact ⟨(key, stored),
      List.mem_filter.2 ⟨Dict.mem_items.2 hget, List.isPrefixOf_iff_prefix.2 hpre⟩, rfl⟩

lemma nodup_listing : (listing store pre).Nodup :=
  (List.perm_insertionSort _ _).nodup_iff.2 (List.nodup_dedup _)

lemma sorted_listing : (listing store pre).Pairwise fun a b => a.name ≤ b.name := by
  have htotal : Std.Total fun a b : Listed => a.name ≤ b.name :=
    ⟨fun a b => le_total a.name b.name⟩
  have htrans : IsTrans Listed fun a b => a.name ≤ b.name := ⟨fun _ _ _ h h' => h.trans h'⟩
  exact List.pairwise_insertionSort _ _

/-- The names in a directory begin with its own. -/
lemma isPrefix_name {item : Listed} (h : item ∈ listing store pre) : pre <+: item.name := by
  obtain ⟨key, stored, -, hpre, rfl⟩ := mem_listing.1 h
  rw [listed]
  split_ifs
  · exact ⟨_, (List.append_assoc _ _ _).symm⟩
  · exact hpre

/-- An object in the directory itself is not shown when it has the directory's name. -/
lemma isMarker_iff {rest : Text} (hslash : '/' ∉ rest) {blob : BlobMeta}
    (hname : blob.name = directory ++ rest) : isMarker directory blob = true ↔ rest = [] := by
  rw [isMarker, hname, Bool.or_eq_true, decide_eq_true_eq, List.append_right_eq_self,
    List.isSuffixOf_iff_suffix]
  refine ⟨fun h => h.elim id fun hsuffix => ?_, .inl⟩
  rcases List.eq_nil_or_concat rest with hnil | ⟨rest', c, rfl⟩
  · exact hnil
  · obtain ⟨text, htext⟩ := hsuffix
    rw [List.concat_eq_append, ← List.append_assoc] at htext
    obtain rfl := List.singleton_inj.1 (List.append_inj_right' htext rfl)
    exact absurd (by simp) hslash

/-- What is not shown is the marker. -/
lemma mem_listing_not_shown {item : Listed} :
    item ∈ listing store directory ∧ item.shown directory = false ↔
      ∃ stored, store.get directory = some stored ∧
        item = .object ⟨directory, stored.size, stored.updated⟩ := by
  constructor
  · rintro ⟨hmem, hshown⟩
    obtain ⟨key, stored, hget, ⟨rest, rfl⟩, rfl⟩ := mem_listing.1 hmem
    rw [listed, List.drop_left] at hshown ⊢
    split_ifs at hshown ⊢ with hslash
    · cases hshown
    · have hmarker : isMarker directory ⟨directory ++ rest, stored.size, stored.updated⟩ = true := by
        simpa [Listed.shown] using hshown
      obtain rfl := (isMarker_iff hslash rfl).1 hmarker
      rw [List.append_nil] at hget ⊢
      exact ⟨stored, hget, rfl⟩
  · rintro ⟨stored, hget, rfl⟩
    refine ⟨mem_listing.2 ⟨directory, stored, hget, List.prefix_rfl, ?_⟩, ?_⟩
    · rw [listed, List.drop_length, if_neg List.not_mem_nil]
    · have hmarker : isMarker directory ⟨directory, stored.size, stored.updated⟩ = true :=
        (isMarker_iff List.not_mem_nil (List.append_nil _).symm).2 rfl
      rw [Listed.shown, hmarker]
      rfl

omit store directory pre in
/-- What comes first can be taken out. -/
lemma filter_append_filter {α : Type*} {p : α → Bool} {l : List α}
    (h : l.Pairwise fun a b => p b = false → p a = false) :
    l.filter (fun a => !p a) ++ l.filter p = l := by
  induction l with
  | nil => rfl
  | cons a l ih =>
    obtain ⟨ha, hl⟩ := List.pairwise_cons.1 h
    cases hp : p a with
    | false =>
      rw [List.filter_cons_of_pos (by rw [hp]; rfl), List.filter_cons_of_neg (by rw [hp]; simp),
        List.cons_append, ih hl]
    | true =>
      have hall : ∀ b ∈ l, p b = true := by
        intro b hb
        by_contra hnot
        exact absurd (hp.symm.trans (ha b hb (Bool.eq_false_of_not_eq_true hnot))) (by decide)
      rw [List.filter_cons_of_neg (by rw [hp]; simp), List.filter_cons_of_pos hp,
        List.filter_eq_self.2 hall, List.filter_eq_nil_iff.2 fun b hb => by simp [hall b hb],
        List.nil_append]

/-- The marker comes first. -/
lemma listing_eq : (listing store directory).filter (fun item => !item.shown directory) ++
    (listing store directory).filter (Listed.shown directory) = listing store directory := by
  refine filter_append_filter (sorted_listing.imp_of_mem fun {a b} ha hb hle hshown => ?_)
  obtain ⟨stored, hget, rfl⟩ := mem_listing_not_shown.1 ⟨hb, hshown⟩
  obtain ⟨key, stored', hget', ⟨rest, rfl⟩, rfl⟩ := mem_listing.1 ha
  -- Nothing but the marker is before it: every name begins with its own.
  have hname : (listed directory (directory ++ rest) stored').name = directory :=
    le_antisymm hle (not_lt.1 (isPrefix_name ha).le)
  rw [listed, List.drop_left] at hname ⊢
  split_ifs at hname ⊢ with hslash
  · have hlength := congrArg List.length hname
    simp only [Listed.name, List.length_append, List.length_singleton] at hlength
    omega
  · have hrest : rest = [] := List.append_right_eq_self.1 hname
    rw [Listed.shown, (isMarker_iff hslash rfl).2 hrest]
    rfl

/-- There is one marker at most. -/
lemma length_markers : ((listing store directory).filter fun item => !item.shown directory).length =
    if directory ∈ store.keys then 1 else 0 := by
  have hmem : ∀ item, item ∈ (listing store directory).filter (fun item => !item.shown directory) ↔
      ∃ stored, store.get directory = some stored ∧
        item = .object ⟨directory, stored.size, stored.updated⟩ := by
    intro item
    rw [List.mem_filter, Bool.not_eq_true', mem_listing_not_shown]
  split_ifs with hkey
  · obtain ⟨stored, hget⟩ := Dict.mem_keys.1 hkey
    rw [List.length_eq_one_iff]
    refine ⟨.object ⟨directory, stored.size, stored.updated⟩,
      List.perm_singleton.1 ((List.perm_ext_iff_of_nodup (nodup_listing.filter _)
        (List.nodup_singleton _)).2 fun item => ?_)⟩
    rw [hmem, List.mem_singleton]
    constructor
    · rintro ⟨stored', hget', rfl⟩
      obtain rfl := Option.some.inj (hget.symm.trans hget')
      rfl
    · exact fun hitem => ⟨stored, hget, hitem⟩
  · rw [List.length_eq_zero_iff, List.eq_nil_iff_forall_not_mem]
    rintro item hitem
    obtain ⟨stored, hget, -⟩ := (hmem item).1 hitem
    exact hkey (Dict.mem_keys.2 ⟨stored, hget⟩)

/-- What is shown of the listing are the children. -/
lemma inListingOrder_perm : (inListingOrder store directory).Perm (children store directory) := by
  have hchildren : children store directory =
      ((childFolders store directory).map Listed.commonPrefix ++
        (childFiles store directory).map Listed.object).map (Listed.entry directory) := by
    rw [List.map_append, List.map_map, List.map_map]
    rfl
  have hnodup : ((childFolders store directory).map Listed.commonPrefix ++
      (childFiles store directory).map Listed.object).Nodup := by
    have hobjects : (childFiles store directory).Nodup := by
      refine List.Nodup.of_map BlobMeta.name ?_
      rw [childFiles, List.map_map]
      exact store.nodup.sublist (List.filter_sublist.map _)
    rw [List.nodup_append]
    refine ⟨(List.nodup_dedup _).map fun _ _ => Listed.commonPrefix.inj,
      hobjects.map fun _ _ => Listed.object.inj, ?_⟩
    rintro a ha b hb rfl
    obtain ⟨pre, -, rfl⟩ := List.mem_map.1 ha
    obtain ⟨blob, -, hblob⟩ := List.mem_map.1 hb
    cases hblob
  rw [hchildren, inListingOrder]
  refine ((List.perm_ext_iff_of_nodup (nodup_listing.filter _) hnodup).2 fun item => ?_).map _
  rw [List.mem_filter, mem_listing, List.mem_append, List.mem_map, List.mem_map]
  constructor
  · rintro ⟨⟨key, stored, hget, ⟨rest, rfl⟩, rfl⟩, hshown⟩
    rw [listed, List.drop_left] at hshown ⊢
    split_ifs at hshown ⊢ with hslash
    · refine .inl ⟨_, List.mem_dedup.2 (List.mem_map.2 ⟨directory ++ rest, ?_, rfl⟩), ?_⟩
      · simpa [hslash] using Dict.mem_keys.2 ⟨stored, hget⟩
      · rw [List.drop_left]
    · have hrest : rest ≠ [] := by
        intro hnil
        have hmarker : isMarker directory ⟨directory ++ rest, stored.size, stored.updated⟩ = true :=
          (isMarker_iff hslash rfl).2 hnil
        rw [Listed.shown, hmarker] at hshown
        exact absurd hshown (by decide)
      refine .inr ⟨_, List.mem_map.2 ⟨(directory ++ rest, stored), ?_, rfl⟩, rfl⟩
      simpa [hslash, hrest] using Dict.mem_items.2 hget
  · rintro (⟨pre, hpre, rfl⟩ | ⟨blob, hblob, rfl⟩)
    · obtain ⟨key, hkey, rfl⟩ := List.mem_map.1 (List.mem_dedup.1 hpre)
      obtain ⟨hkey, hsome⟩ := List.mem_filter.1 hkey
      obtain ⟨stored, hget⟩ := Dict.mem_keys.1 hkey
      rw [Bool.and_eq_true, List.isPrefixOf_iff_prefix, decide_eq_true_eq] at hsome
      exact ⟨⟨key, stored, hget, hsome.1, if_pos hsome.2⟩, rfl⟩
    · obtain ⟨⟨key, stored⟩, hmem, rfl⟩ := List.mem_map.1 hblob
      obtain ⟨hmem, hsome⟩ := List.mem_filter.1 hmem
      simp only [Bool.and_eq_true, List.isPrefixOf_iff_prefix, decide_eq_true_eq] at hsome
      obtain ⟨⟨⟨rest, rfl⟩, hne⟩, hslash⟩ := hsome
      rw [List.drop_left] at hslash
      refine ⟨⟨directory ++ rest, stored, Dict.mem_items.1 hmem, ⟨rest, rfl⟩, ?_⟩, ?_⟩
      · rw [listed, List.drop_left, if_neg hslash]
      · have hmarker : isMarker directory ⟨directory ++ rest, stored.size, stored.updated⟩ = false := by
          refine Bool.eq_false_of_not_eq_true fun h => hne ?_
          rw [(isMarker_iff hslash rfl).1 h, List.append_nil]
        rw [Listed.shown, hmarker]
        rfl

end Listing

/-! ### All pages -/

section Pages

variable {store : ObjectStore} {path : Option Text} {data : Option (PagingValue × PagingValue)}
  {take : ℕ}

/-- The requests' `skip` and `take` are as they are given. -/
lemma extractPaging_eq (htake : 1 ≤ take ∧ take ≤ 5000) (skip : ℕ) :
    extractPaging ⟨path, .int skip, .int take, data⟩ = (skip, take) := by
  have hpos : ¬(take : ℤ) ≤ 0 := by omega
  have hle : ¬(5000 : ℤ) < take := by omega
  simp only [extractPaging, reduceCtorEq, if_false, PagingValue.toInt, if_neg hpos, if_neg hle]
  simp

/-- A request reads a page of what is shown. -/
lemma askPage_eq (htake : 1 ≤ take ∧ take ≤ 5000) (pages : ℕ → Text → ℕ → List (List Listed)) :
    askPage pages path data take =
      Grouped.ask isFolder take fun j n =>
        (pages j (normalizeDirectoryPath path) n).map (shownGroup (normalizeDirectoryPath path)) := by
  funext j skip
  rw [askPage, readAction, extractPaging_eq htake, Grouped.ask, ← getDirectoryPage_eq]

/-- The number of items that are counted and not shown. -/
def markers (store : ObjectStore) (directory : Text) : ℕ :=
  ((listing store directory).filter fun item => !item.shown directory).length

variable {directory : Text}

lemma shownGroup_append (page page' : List Listed) : shownGroup directory (page ++ page') =
    shownGroup directory page ++ shownGroup directory page' := by
  rw [shownGroup, List.filter_append, List.map_append, shownGroup, shownGroup]

lemma flatten_map_shownGroup (pages : List (List Listed)) :
    (pages.map (shownGroup directory)).flatten = shownGroup directory pages.flatten := by
  induction pages with
  | nil => rfl
  | cons page pages ih =>
    rw [List.map_cons, List.flatten_cons, List.flatten_cons, shownGroup_append, ih]

lemma shownGroup_of_forall {page : List Listed} (h : ∀ item ∈ page, item.shown directory = true) :
    shownGroup directory page = page.map (Listed.entry directory) := by
  rw [shownGroup, List.filter_eq_self.2 h]

/-- Nothing is shown of the marker. -/
lemma shownGroup_markers (n : ℕ) : shownGroup directory
    (((listing store directory).filter fun item => !item.shown directory).take n) = [] := by
  rw [shownGroup, List.map_eq_nil_iff, List.filter_eq_nil_iff]
  intro item hitem
  simpa using (List.mem_filter.1 (List.mem_of_mem_take hitem)).2

/-- The first items of the listing are the marker and the first children. -/
lemma take_listing (n : ℕ) : (listing store directory).take n =
    ((listing store directory).filter fun item => !item.shown directory).take n ++
      ((listing store directory).filter (Listed.shown directory)).take
        (n - markers store directory) := by
  conv_lhs => rw [← listing_eq]
  rw [List.take_append, markers]

lemma shownGroup_take_listing (n : ℕ) : shownGroup directory ((listing store directory).take n) =
    (inListingOrder store directory).take (n - markers store directory) := by
  rw [take_listing, shownGroup_append, shownGroup_markers, List.nil_append, inListingOrder,
    ← List.map_take]
  exact shownGroup_of_forall fun item hitem => (List.mem_filter.1 (List.mem_of_mem_take hitem)).2

omit store path data take directory in
/-- Groups of what is shown are shown of groups. -/
lemma exists_map_eq {α β : Type*} {f : α → β} {groups : List (List β)} {l : List α}
    (h : groups.flatten = l.map f) :
    ∃ pages : List (List α), pages.flatten = l ∧ pages.map (List.map f) = groups := by
  induction groups generalizing l with
  | nil =>
    obtain rfl := List.map_eq_nil_iff.1 h.symm
    exact ⟨[], rfl, rfl⟩
  | cons g groups ih =>
    obtain ⟨l₁, l₂, rfl, rfl, hrest⟩ := List.map_eq_append_iff.1 h.symm
    obtain ⟨pages, rfl, rfl⟩ := ih hrest.symm
    exact ⟨l₁ :: pages, rfl, rfl⟩

/-- **The pages of a directory are those of what is shown, in groups.** -/
lemma pagesAgree_iff_readsAll (htake : 1 ≤ take ∧ take ≤ 5000) :
    PagesAgree store path data take ↔
      Grouped.ReadsAll isFolder (inListingOrder store (normalizeDirectoryPath path)) take
        (markers store (normalizeDirectoryPath path)) := by
  rw [PagesAgree]
  simp only [askPage_eq htake]
  generalize normalizeDirectoryPath path = directory
  constructor
  · intro h groups hgroups
    -- The marker is a page of its own, on which nothing is shown.
    have hexists := fun j n => exists_map_eq ((hgroups j n).trans (List.map_take ..).symm)
    choose pages hflatten hmap using hexists
    let marked : ℕ → Text → ℕ → List (List Listed) := fun j pre n =>
      if pre = directory then
        ((listing store directory).filter fun item => !item.shown directory).take n :: pages j n
      else [(listing store pre).take n]
    have hmarked : ListsStore store marked := by
      intro j pre n
      simp only [marked]
      split_ifs with hpre
      · rw [hpre, List.flatten_cons, hflatten, take_listing]
      · rw [List.flatten_singleton]
    obtain ⟨fuel, entries, hfollow, hperm⟩ := h marked hmarked
    refine ⟨fuel, entries, ?_, hperm.trans inListingOrder_perm.symm⟩
    rw [← hfollow]
    congr 1
    funext j skip
    have hgroup : ∀ n, (marked j directory n).map (shownGroup directory) = [] :: groups j n := by
      intro n
      simp only [marked, if_true]
      rw [List.map_cons, shownGroup_markers, ← hmap]
      congr 1
      refine List.map_congr_left fun page hpage => shownGroup_of_forall fun item hitem => ?_
      have hmem : item ∈ (pages j n).flatten := List.mem_flatten_of_mem hpage hitem
      rw [hflatten] at hmem
      exact (List.mem_filter.1 (List.mem_of_mem_take hmem)).2
    rw [Grouped.ask, Grouped.ask, hgroup]
    rfl
  · intro h pages hpages
    have hgroups : Grouped.IsGroups (inListingOrder store directory) (markers store directory)
        fun j n => (pages j directory n).map (shownGroup directory) := by
      intro j n
      rw [flatten_map_shownGroup, hpages, shownGroup_take_listing]
    obtain ⟨fuel, entries, hfollow, hperm⟩ := h _ hgroups
    exact ⟨fuel, entries, hfollow, hperm.trans inListingOrder_perm⟩

/-- When there is no marker or only one page, and the folders are aligned. -/
lemma readsAll_iff (htake : 0 < take) :
    Grouped.ReadsAll isFolder (inListingOrder store directory) take (markers store directory) ↔
      ((children store directory).length ≤ take ∨ directory ∉ store.keys) ∧
        Grouped.Aligned isFolder (inListingOrder store directory) take := by
  have hmarkers : markers store directory = if directory ∈ store.keys then 1 else 0 :=
    length_markers
  have hle : markers store directory ≤ 1 := by
    rw [hmarkers]
    split_ifs <;> omega
  have hzero : markers store directory = 0 ↔ directory ∉ store.keys := by
    rw [hmarkers]
    split_ifs with hkey <;> simp [hkey]
  rw [Grouped.readsAll_iff htake hle, hzero, inListingOrder_perm.length_eq]

end Pages

/-- A folder that has been made, and two files in it. -/
def markedStore : ObjectStore :=
  ((Dict.empty.set "d/".toList ⟨0, none⟩).set "d/a".toList ⟨1, none⟩).set "d/b".toList ⟨1, none⟩

end Burla.Files
