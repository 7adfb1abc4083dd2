/-
The names in an archive of several files and folders.

What an archive needs, an entry for each object and for the folders above it, is known from the
request and the store alone.  Each needed entry is written if no entry of its name has been written
(`Burla.Files.does_writeArchive`).

The main result is `Burla.Files.archiveCorrect_iff`: the names are safe and different and everything
is in an archive that comes without an error if and only if no folder has a name that leads out of
the archive, null characters make no name unsafe and no two names the same, and of each object some
entry is the first of its name.
-/
import Burla.Files.Archive

namespace Burla.Files

/-! ### What an archive needs -/

/-- A part of an archive: a folder that is asked for, or an object and its path, for what is under a
folder with that folder's name. -/
inductive Part
  | folder (root : EntryName)
  | object (root : Option EntryName) (relative : ArchivePath) (key : Text) (content : List UInt8)

namespace Part

/-- The segments of the path. -/
def segments : Part → List Text
  | folder root => [root.text]
  | object root relative _ _ => (root.map EntryName.text).toList ++ relative.segments

def path (part : Part) : Text := joinSlash part.segments

def folderEntry (name : Text) : ZipEntry := ⟨name, none, []⟩

/-- The entries for a part: the folders above it come first. -/
def entries : Part → List ZipEntry
  | folder root => [folderEntry (root.text ++ ['/'])]
  | object root relative key content =>
    (Path.parents '/' (object root relative key content).segments).map folderEntry ++
      [⟨(object root relative key content).path, some key, content⟩]

end Part

section Needed

variable (objects : Dict Text (List UInt8))

def neededFile (request : FileRequest) : List Part × Option DownloadError :=
  match objects.get request.objectName with
  | none => ([], some (.http 404 ("File '".toList ++ request.objectName ++ "' not found".toList)))
  | some content => ([.object none request.archivePath request.objectName content], none)

def neededObject (pre : Text) (root : EntryName) (object : Text × List UInt8) :
    List Part × Option DownloadError :=
  if object.1 = pre ∨ object.1.drop pre.length = [] then ([], none)
  else
    match sanitizeArchiveItemPath (some (object.1.drop pre.length))
        (object.1.drop pre.length) with
    | .error e => ([], some e)
    | .ok relative => ([.object (some root) relative object.1 object.2], none)

def neededFolder (request : FolderRequest) : List Part × Option DownloadError :=
  match request.archiveRoot with
  | none => ([], some .attributeError)
  | some root =>
    (.folder root :: (Once.inTurn (neededObject request.folderPrefix root)
        (listObjects objects request.folderPrefix)).1,
      (Once.inTurn (neededObject request.folderPrefix root)
        (listObjects objects request.folderPrefix)).2)

/-- The parts up to the first that fails. -/
def Requests.needed (requests : Requests) : List Part × Option DownloadError :=
  match Once.inTurn (neededFile objects) requests.files with
  | (parts, some e) => (parts, some e)
  | (parts, none) =>
    (parts ++ (Once.inTurn (neededFolder objects) requests.folders).1,
      (Once.inTurn (neededFolder objects) requests.folders).2)

def Requests.neededEntries (requests : Requests) : List ZipEntry :=
  (requests.needed objects).1.flatMap Part.entries

/-- When an archive is as it should be. -/
structure Requests.Unambiguous (requests : Requests) : Prop where
  /-- No folder's name leads out of the archive. -/
  folderNames : ∀ root, .folder root ∈ (requests.needed objects).1 → Safe (cutAtNull root.text)
  /-- No object's path does when it is cut. -/
  nullPaths : ∀ root relative key content,
    .object root relative key content ∈ (requests.needed objects).1 →
      '\x00' ∈ (Part.object root relative key content).path →
        Safe (cutAtNull (Part.object root relative key content).path)
  /-- No two names become the same when they are cut. -/
  nullNames : ∀ entry ∈ requests.neededEntries objects, ∀ entry' ∈ requests.neededEntries objects,
    '\x00' ∈ entry.arcname → entry.filename = entry'.filename → entry.arcname = entry'.arcname
  /-- Some entry of each object is the first of its name. -/
  firstEntries : (requests.needed objects).2 = none → ∀ key, requests.Asked objects key →
    ∃ before entry after, requests.neededEntries objects = before ++ entry :: after ∧
      entry.source = some key ∧ ∀ e ∈ before, e.arcname ≠ entry.arcname

end Needed

/-! ### Segments -/

/-- A list of segments that can be told from the text. -/
structure Segments (segments : List Text) : Prop where
  ne_nil : segments ≠ []
  ne_nil_of_mem : ∀ s ∈ segments, s ≠ []
  noSlash : ∀ s ∈ segments, '/' ∉ s

section Segments

variable {segments l₁ l₂ : List Text}

lemma Segments.segments_joinSlash (h : Segments segments) :
    Path.segments '/' (joinSlash segments) = segments :=
  Path.segments_intercalate '/' h.ne_nil h.noSlash

lemma Segments.left (h : Segments (l₁ ++ l₂)) (hne : l₁ ≠ []) : Segments l₁ where
  ne_nil := hne
  ne_nil_of_mem s hs := h.ne_nil_of_mem s (List.mem_append_left l₂ hs)
  noSlash s hs := h.noSlash s (List.mem_append_left l₂ hs)

lemma ArchivePath.toSegments (path : ArchivePath) : Segments path.segments where
  ne_nil := path.ne_nil
  ne_nil_of_mem s hs := (path.clean s hs).1.1
  noSlash s hs := (path.clean s hs).2.1

lemma Part.toSegments (part : Part) : Segments part.segments := by
  cases part with
  | folder root =>
    exact ⟨List.cons_ne_nil _ _, by simpa [Part.segments] using root.ne_nil,
      by simpa [Part.segments] using root.noSlash⟩
  | object root relative key content =>
    have hrelative := relative.toSegments
    cases root with
    | none => exact hrelative
    | some root =>
      exact ⟨List.cons_ne_nil _ _, List.forall_mem_cons.2 ⟨root.ne_nil, hrelative.ne_nil_of_mem⟩,
        List.forall_mem_cons.2 ⟨root.noSlash, hrelative.noSlash⟩⟩

lemma Segments.ne_of_mem (h : Segments segments) :
    [] ∉ Path.segments '/' (joinSlash segments) := by
  rw [h.segments_joinSlash]
  exact fun hmem => h.ne_nil_of_mem [] hmem rfl

lemma Segments.joinSlash_ne_nil (h : Segments segments) : joinSlash segments ≠ [] := by
  intro hnil
  refine h.ne_of_mem ?_
  rw [hnil, Path.segments_of_notMem '/' List.not_mem_nil]
  exact List.mem_singleton_self []

lemma Segments.head_ne (h : Segments segments) : (joinSlash segments).head? ≠ some '/' := by
  intro hhead
  obtain ⟨rest, hrest⟩ := List.head?_eq_some_iff.1 hhead
  refine h.ne_of_mem ?_
  rw [hrest, ← List.nil_append ('/' :: rest), Path.segments_append,
    Path.segments_of_notMem '/' List.not_mem_nil]
  exact List.mem_append_left _ (List.mem_singleton_self [])

lemma Segments.getLast_ne (h : Segments segments) : (joinSlash segments).getLast? ≠ some '/' := by
  intro hlast
  obtain ⟨text, htext⟩ := List.getLast?_eq_some_iff.1 hlast
  refine h.ne_of_mem ?_
  rw [htext, Path.segments_append, Path.segments_of_notMem '/' List.not_mem_nil]
  exact List.mem_append_right _ (List.mem_singleton_self [])

/-- There is nothing to strip. -/
lemma Segments.strip (h : Segments segments) :
    ((joinSlash segments).dropWhile (· = '/')).rdropWhile (· = '/') = joinSlash segments := by
  have hhead := h.head_ne
  have hlast := h.getLast_ne
  generalize joinSlash segments = text at hhead hlast
  have hdrop : text.dropWhile (· = '/') = text := by
    cases text with
    | nil => rfl
    | cons c text =>
      refine List.dropWhile_cons_of_neg ?_
      simpa using hhead
  rw [hdrop, List.rdropWhile_eq_self_iff]
  intro hne hslash
  rw [List.getLast?_eq_some_getLast hne] at hlast
  exact hlast (congrArg some (by simpa using hslash))

end Segments

/-! ### Folders -/

section Folders

variable {segments : List Text} {archive : Archive}

lemma ensureDirectoryEntry_joinSlash (h : Segments segments) :
    archive.ensureDirectoryEntry (joinSlash segments) =
      Once.put ZipEntry.arcname archive (Part.folderEntry (joinSlash segments ++ ['/'])) := by
  rw [Archive.ensureDirectoryEntry, h.strip, if_neg h.joinSlash_ne_nil, Once.put]
  by_cases hmem : joinSlash segments ++ ['/'] ∈ archive.writtenEntries
  · exact (if_pos hmem).trans (if_pos hmem).symm
  · exact (if_neg hmem).trans (if_neg hmem).symm

/-- The name of a folder, as the writer passes it on. -/
def rootText (root : Option EntryName) : Text := (root.map EntryName.text).getD []

def rootSegments (root : Option EntryName) : List Text := (root.map EntryName.text).toList

/-- A path under a folder, or in no folder. -/
lemma archivePathFor_eq (root : Option EntryName) (h : Segments segments) :
    Archive.archivePathFor (rootText root) (joinSlash segments) =
      joinSlash (rootSegments root ++ segments) := by
  cases root with
  | none => exact if_pos rfl
  | some root =>
    have hjoin : joinSlash (root.text :: segments) = root.text ++ '/' :: joinSlash segments := by
      rw [joinSlash, List.intercalate_cons_of_ne_nil h.ne_nil, List.append_assoc]
      rfl
    exact (if_neg root.ne_nil).trans ((if_neg h.joinSlash_ne_nil).trans hjoin.symm)

lemma Segments.cons_root (root : Option EntryName) (h : Segments segments) :
    Segments (rootSegments root ++ segments) := by
  cases root with
  | none => exact h
  | some root =>
    exact ⟨List.cons_ne_nil _ _, List.forall_mem_cons.2 ⟨root.ne_nil, h.ne_nil_of_mem⟩,
      List.forall_mem_cons.2 ⟨root.noSlash, h.noSlash⟩⟩

/-- The folders on the way down from a beginning of a path. -/
def folderEntries (root : Option EntryName) (accumulated segments : List Text) : List ZipEntry :=
  (List.range segments.length).map fun i =>
    Part.folderEntry
      (joinSlash (rootSegments root ++ (accumulated ++ segments.take (i + 1))) ++ ['/'])

lemma folderEntries_cons (root : Option EntryName) (accumulated rest : List Text) (segment : Text) :
    folderEntries root accumulated (segment :: rest) =
      Part.folderEntry (joinSlash (rootSegments root ++ (accumulated ++ [segment])) ++ ['/']) ::
        folderEntries root (accumulated ++ [segment]) rest := by
  rw [folderEntries, List.length_cons, List.range_succ_eq_map, List.map_cons, List.map_map,
    folderEntries]
  congr 1
  refine List.map_congr_left fun i _ => ?_
  rw [Function.comp_apply, List.take_succ_cons, List.append_assoc, List.singleton_append]

lemma ensureSegments_eq (root : Option EntryName) {accumulated : List Text}
    (h : Segments (accumulated ++ segments)) :
    Archive.ensureSegments (rootText root) accumulated segments archive =
      Once.putAll ZipEntry.arcname archive (folderEntries root accumulated segments) := by
  induction segments generalizing accumulated archive with
  | nil => rfl
  | cons segment rest ih =>
    rw [← List.singleton_append, ← List.append_assoc] at h
    have hhere : Segments (accumulated ++ [segment]) := h.left (by simp)
    rw [Archive.ensureSegments, archivePathFor_eq root hhere,
      ensureDirectoryEntry_joinSlash (hhere.cons_root root), ih h, folderEntries_cons]
    rfl

/-- The folders above an object, but for the one that is asked for. -/
lemma ensureParentDirectories_eq (root : Option EntryName) (relative : ArchivePath) :
    archive.ensureParentDirectories (rootText root) relative.text =
      Once.putAll ZipEntry.arcname archive (folderEntries root [] relative.segments.dropLast) := by
  have hrelative := relative.toSegments
  rw [Archive.ensureParentDirectories, ArchivePath.text, hrelative.segments_joinSlash]
  by_cases hnil : relative.segments.dropLast = []
  · rw [if_pos hnil, hnil]
    rfl
  · have hparents : Segments relative.segments.dropLast := by
      rw [← List.dropLast_concat_getLast relative.ne_nil] at hrelative
      exact hrelative.left hnil
    have hfilter : relative.segments.dropLast.filter (· ≠ []) = relative.segments.dropLast :=
      List.filter_eq_self.2 fun s hs => by simpa using hparents.ne_nil_of_mem s hs
    rw [if_neg hnil, Archive.ensureDirectoryHierarchy, hparents.segments_joinSlash, hfilter,
      if_neg hnil]
    exact ensureSegments_eq root hparents

/-- With the folder that is asked for, these are all folders above the object. -/
lemma parents_eq (root : Option EntryName) (relative : ArchivePath) :
    (Path.parents '/' (rootSegments root ++ relative.segments)).map Part.folderEntry =
      (root.toList.map fun root => Part.folderEntry (root.text ++ ['/'])) ++
        folderEntries root [] relative.segments.dropLast := by
  have hpos := List.length_pos_of_ne_nil relative.ne_nil
  have htake : ∀ i ∈ List.range (relative.segments.length - 1),
      relative.segments.dropLast.take (i + 1) = relative.segments.take (i + 1) := by
    intro i hi
    rw [List.mem_range] at hi
    rw [List.dropLast_eq_take, List.take_take, Nat.min_eq_left (by omega)]
  cases root with
  | none =>
    rw [Path.parents, folderEntries, List.map_map, List.length_dropLast]
    refine List.map_congr_left fun i hi => ?_
    rw [htake i hi]
    rfl
  | some root =>
    obtain ⟨n, hn⟩ : ∃ n, relative.segments.length = n + 1 := ⟨_, (Nat.sub_add_cancel hpos).symm⟩
    have hlength : (rootSegments (some root) ++ relative.segments).length - 1 = n + 1 := by
      rw [List.length_append, hn]
      exact Nat.add_sub_cancel_left 1 (n + 1)
    rw [Path.parents, hlength, List.range_succ_eq_map, List.map_cons, List.map_map, List.map_cons,
      folderEntries, List.length_dropLast, hn, List.map_map]
    rw [hn] at htake
    refine List.cons_eq_cons.2 ⟨?_, List.map_congr_left fun i hi => ?_⟩
    · exact congrArg (fun name => Part.folderEntry (name ++ ['/'])) List.intercalate_singleton
    · rw [htake i hi]
      rfl

end Folders

/-! ### The writer -/

lemma copyChunks_eq (source : List UInt8) : copyChunks source = source := by
  induction source using copyChunks.induct with
  | case1 source h =>
    rw [copyChunks, if_pos h]
    refine (List.take_eq_nil_iff.1 h).elim (fun hzero => absurd hzero (by decide)) Eq.symm
  | case2 source h ih => rw [copyChunks, if_neg h, ih, List.take_append_drop]

/-- With an object, the folders above it are in the archive. -/
def Closed (archive : Archive) : Prop :=
  ∀ segments, Segments segments → joinSlash segments ∈ archive.writtenEntries →
    ∀ name ∈ Path.parents '/' segments, name ∈ archive.writtenEntries

lemma closed_nil : Closed [] := fun _ _ hmem => absurd hmem List.not_mem_nil

section Writer

variable {segments : List Text} {archive : Archive} {part : Part}

lemma Segments.ne_concat (h : Segments segments) (text : Text) :
    joinSlash segments ≠ text ++ ['/'] := by
  intro heq
  refine h.getLast_ne ?_
  rw [heq, List.getLast?_concat]

lemma Segments.notMem_parents (h : Segments segments) (l : List Text) :
    joinSlash segments ∉ Path.parents '/' l := by
  intro hmem
  obtain ⟨l₁, -, -, -, -, heq⟩ := (Path.mem_parents '/').1 hmem
  exact h.ne_concat _ heq

lemma Segments.eq_of_joinSlash_eq {segments' : List Text} (h : Segments segments)
    (h' : Segments segments') (heq : joinSlash segments = joinSlash segments') :
    segments = segments' := by
  rw [← h.segments_joinSlash, heq, h'.segments_joinSlash]

/-- The names of the entries for a part. -/
lemma map_arcname_entries : part.entries.map ZipEntry.arcname =
    match part with
    | .folder root => [root.text ++ ['/']]
    | .object .. => Path.parents '/' part.segments ++ [part.path] := by
  cases part with
  | folder root => rfl
  | object root relative key content =>
    rw [Part.entries, List.map_append, List.map_map]
    exact congrArg (· ++ [_]) (List.map_id _)

lemma Closed.putAll_entries (h : Closed archive) :
    Closed (Once.putAll ZipEntry.arcname archive part.entries) := by
  intro segments hsegments hmem name hname
  rw [Archive.writtenEntries, Once.mem_names_putAll, map_arcname_entries] at hmem ⊢
  rcases hmem with hmem | hmem
  · exact .inl (h segments hsegments hmem name hname)
  · cases part with
    | folder root => exact absurd (List.mem_singleton.1 hmem) (hsegments.ne_concat _)
    | object root relative key content =>
      rcases List.mem_append.1 hmem with hmem | hmem
      · exact absurd hmem (hsegments.notMem_parents _)
      · have hpath := hsegments.eq_of_joinSlash_eq (Part.toSegments _) (List.mem_singleton.1 hmem)
        rw [hpath] at hname
        exact .inr (List.mem_append_left _ hname)

/-- Nothing comes for an object whose path has been taken. -/
lemma Closed.putAll_of_mem (h : Closed archive) {root : Option EntryName} {relative : ArchivePath}
    {key : Text} {content : List UInt8}
    (hmem : (Part.object root relative key content).path ∈ archive.writtenEntries) :
    Once.putAll ZipEntry.arcname archive (Part.object root relative key content).entries =
      archive := by
  refine Once.putAll_of_forall fun entry hentry => ?_
  have hname := List.mem_map_of_mem (f := ZipEntry.arcname) hentry
  rw [map_arcname_entries] at hname
  rcases List.mem_append.1 hname with hname | hname
  · exact h _ (Part.toSegments _) hmem _ hname
  · rw [List.mem_singleton.1 hname]
    exact hmem

/-- An object is copied, after the folders above it. -/
lemma copyObject_eq (root : Option EntryName) (relative : ArchivePath) (key : Text)
    (content : List UInt8)
    (hroot : ∀ name ∈ root, name.text ++ ['/'] ∈ archive.writtenEntries)
    (hmem : (Part.object root relative key content).path ∉ archive.writtenEntries) :
    archive.copyObject (rootText root) relative.text key content =
      Once.putAll ZipEntry.arcname archive (Part.object root relative key content).entries := by
  have hpath : Archive.archivePathFor (rootText root) relative.text =
      (Part.object root relative key content).path := archivePathFor_eq root relative.toSegments
  have hasked : Once.putAll ZipEntry.arcname archive
      (root.toList.map fun root => Part.folderEntry (root.text ++ ['/'])) = archive := by
    refine Once.putAll_of_forall fun entry hentry => ?_
    obtain ⟨name, hname, rfl⟩ := List.mem_map.1 hentry
    exact hroot name (Option.mem_toList.1 hname)
  have hparents := parents_eq root relative
  have hfree : (Part.object root relative key content).path ∉
      (Once.putAll ZipEntry.arcname archive
        (folderEntries root [] relative.segments.dropLast)).map ZipEntry.arcname := by
    rw [Once.mem_names_putAll]
    rintro (htaken | htaken)
    · exact hmem htaken
    · obtain ⟨entry, hentry, hname⟩ := List.mem_map.1 htaken
      obtain ⟨i, -, rfl⟩ := List.mem_map.1 hentry
      exact (Part.toSegments _).ne_concat _ hname.symm
  rw [Archive.copyObject, ensureParentDirectories_eq, hpath, copyChunks_eq, Part.entries,
    Once.putAll_append]
  have hsegments : (Part.object root relative key content).segments =
      rootSegments root ++ relative.segments := rfl
  rw [hsegments, hparents, Once.putAll_append, hasked]
  exact (if_neg hfree).symm

variable {objects : Dict Text (List UInt8)}

lemma does_addFile (request : FileRequest) :
    Once.Does ZipEntry.arcname Part.entries Closed (addFile objects request)
      (neededFile objects request) := by
  intro (archive : Archive) hclosed
  rw [addFile, neededFile]
  cases hget : objects.get request.objectName with
  | none => exact ⟨rfl, rfl, hclosed⟩
  | some content =>
    dsimp only
    rw [List.flatMap_singleton]
    refine ⟨?_, rfl, hclosed.putAll_entries⟩
    by_cases hmem : request.archivePath.text ∈ archive.writtenEntries
    · have hsame : Once.putAll ZipEntry.arcname archive
          (Part.object none request.archivePath request.objectName content).entries = archive :=
        hclosed.putAll_of_mem hmem
      exact (if_pos hmem).trans hsame.symm
    · exact (if_neg hmem).trans
        (copyObject_eq none request.archivePath _ content (fun _ h => by cases h) hmem)

/-- The folder that is asked for is in the archive before what is under it. -/
def Entered (root : EntryName) (archive : Archive) : Prop :=
  Closed archive ∧ root.text ++ ['/'] ∈ archive.writtenEntries

lemma Entered.putAll {root : EntryName} (h : Entered root archive) :
    Entered root (Once.putAll ZipEntry.arcname archive part.entries) :=
  ⟨h.1.putAll_entries, Once.mem_names_putAll.2 (.inl h.2)⟩

lemma does_addObject (pre : Text) (root : EntryName) (object : Text × List UInt8) :
    Once.Does ZipEntry.arcname Part.entries (Entered root) (addObject pre root.text object)
      (neededObject pre root object) := by
  intro (archive : Archive) hentered
  rw [addObject, neededObject]
  by_cases hmarker : object.1 = pre
  · rw [if_pos hmarker, if_pos (.inl hmarker)]
    exact ⟨rfl, rfl, hentered⟩
  by_cases hnil : object.1.drop pre.length = []
  · rw [if_neg hmarker, if_pos hnil, if_pos (.inr hnil)]
    exact ⟨rfl, rfl, hentered⟩
  rw [if_neg hmarker, if_neg hnil, if_neg (not_or_intro hmarker hnil)]
  cases sanitizeArchiveItemPath (some (object.1.drop pre.length))
      (object.1.drop pre.length) with
  | error e => exact ⟨rfl, rfl, hentered⟩
  | ok relative =>
    dsimp only
    rw [List.flatMap_singleton, Effect.read_bind]
    have hpath : Archive.archivePathFor root.text relative.text =
        (Part.object (some root) relative object.1 object.2).path :=
      archivePathFor_eq (some root) relative.toSegments
    rw [hpath]
    by_cases hmem : (Part.object (some root) relative object.1 object.2).path ∈
        archive.writtenEntries
    · rw [if_pos hmem]
      exact ⟨(hentered.1.putAll_of_mem hmem).symm, rfl, hentered.putAll⟩
    · rw [if_neg hmem]
      refine ⟨copyObject_eq (some root) relative _ _ (fun name hname => ?_) hmem, rfl,
        hentered.putAll⟩
      rw [← Option.some.inj hname]
      exact hentered.2

lemma does_addFolder (request : FolderRequest) :
    Once.Does ZipEntry.arcname Part.entries Closed (addFolder objects request)
      (neededFolder objects request) := by
  intro (archive : Archive) hclosed
  rw [addFolder, neededFolder]
  cases request.archiveRoot with
  | none => exact ⟨rfl, rfl, hclosed⟩
  | some root =>
    dsimp only
    have hroot : ∀ a : Archive, a.ensureDirectoryEntry root.text =
        Once.putAll ZipEntry.arcname a (Part.folder root).entries := by
      intro a
      have hentry : a.ensureDirectoryEntry (joinSlash [root.text]) = _ :=
        ensureDirectoryEntry_joinSlash (Part.toSegments (.folder root))
      rwa [joinSlash, List.intercalate_singleton] at hentry
    have hentered : Entered root (archive.ensureDirectoryEntry root.text) := by
      rw [hroot]
      exact ⟨hclosed.putAll_entries, Once.mem_names_putAll.2 (.inr (List.mem_singleton_self _))⟩
    obtain ⟨hstate, herror, hafter⟩ := Once.Does.forEach (fun object _ =>
      does_addObject request.folderPrefix root object) _ hentered
    rw [Effect.modify_bind, List.flatMap_cons, Once.putAll_append, ← hroot]
    rcases hrun : Effect.forEach (addObject request.folderPrefix root.text)
        (listObjects objects request.folderPrefix) (archive.ensureDirectoryEntry root.text) with
      ⟨e | added, archive'⟩ <;> rw [hrun] at hstate herror
    · rw [Effect.bind_of_error hrun]
      exact ⟨hstate, herror, hafter.1⟩
    · -- The folder has been entered before, so that nothing comes at the end.
      have hagain : archive'.ensureDirectoryEntry root.text = archive' := by
        rw [hroot]
        refine Once.putAll_of_forall fun entry hentry => ?_
        rw [List.mem_singleton.1 hentry]
        obtain rfl : archive' = _ := hstate
        exact hafter.2
      rw [Effect.bind_of_ok hrun]
      split_ifs
      · exact ⟨hstate, herror, hafter.1⟩
      · exact ⟨hagain.trans hstate, herror, hafter.1⟩

/-- **Each needed entry is written if none of its name has been.** -/
lemma does_writeArchive (requests : Requests) :
    (writeArchive objects requests []).2 =
        Once.putAll ZipEntry.arcname [] (requests.neededEntries objects) ∧
      Once.errorOf (writeArchive objects requests []).1 = (requests.needed objects).2 := by
  have hfiles : Once.Does ZipEntry.arcname Part.entries Closed
      (Effect.forEach (addFile objects) requests.files)
      (Once.inTurn (neededFile objects) requests.files) :=
    Once.Does.forEach fun request _ => does_addFile request
  have hfolders : Once.Does ZipEntry.arcname Part.entries Closed
      (Effect.forEach (addFolder objects) requests.folders)
      (Once.inTurn (neededFolder objects) requests.folders) :=
    Once.Does.forEach fun request _ => does_addFolder request
  obtain ⟨hstate, herror, hclosed⟩ := hfiles [] closed_nil
  rw [writeArchive, Requests.neededEntries, Requests.needed]
  rcases hplan : Once.inTurn (neededFile objects) requests.files with ⟨parts, _ | e⟩ <;>
    rw [hplan] at hstate herror hclosed <;>
    rcases hrun : Effect.forEach (addFile objects) requests.files [] with ⟨e' | units, archive⟩ <;>
    rw [hrun] at hstate herror
  · cases herror
  · obtain rfl : archive = _ := hstate
    obtain ⟨hstate', herror', -⟩ := hfolders _ hclosed
    rw [Effect.bind_of_ok hrun]
    dsimp only
    rw [List.flatMap_append, Once.putAll_append]
    rcases hrest : Effect.forEach (addFolder objects) requests.folders
        (Once.putAll ZipEntry.arcname [] (parts.flatMap Part.entries)) with ⟨e' | units', archive⟩ <;>
      rw [hrest] at hstate' herror'
    · rw [Effect.bind_of_error hrest]
      exact ⟨hstate', herror'⟩
    · rw [Effect.bind_of_ok hrest]
      exact ⟨hstate', herror'⟩
  · rw [Effect.bind_of_error hrun]
    exact ⟨hstate, herror⟩
  · cases herror

end Writer

/-! ### Safe names -/

section Safe

variable {name rest : Text}

lemma cutAtNull_of_notMem (h : '\x00' ∉ name) : cutAtNull name = name := by
  refine List.takeWhile_eq_self_iff.2 fun c hc => decide_eq_true ?_
  rintro rfl
  exact h hc

lemma cutAtNull_append_of_notMem (h : '\x00' ∉ name) :
    cutAtNull (name ++ rest) = name ++ cutAtNull rest := by
  refine List.takeWhile_append_of_pos fun c hc => decide_eq_true ?_
  rintro rfl
  exact h hc

lemma cutAtNull_append_of_mem (h : '\x00' ∈ name) :
    cutAtNull (name ++ rest) = cutAtNull name := by
  rw [cutAtNull, List.takeWhile_append, if_neg, cutAtNull]
  intro hlength
  have hall := List.takeWhile_eq_self_iff.1 ((List.takeWhile_prefix _).eq_of_length hlength) _ h
  exact absurd hall (by decide)

lemma toSlash_append : toSlash (name ++ rest) = toSlash name ++ toSlash rest := List.map_append

lemma toSlash_cons_slash : toSlash ('/' :: rest) = '/' :: toSlash rest := rfl

/-- The segments of a name that goes on after a slash. -/
lemma segments_toSlash : Path.segments '/' (toSlash (name ++ '/' :: rest)) =
    Path.segments '/' (toSlash name) ++ Path.segments '/' (toSlash rest) := by
  rw [toSlash_append, toSlash_cons_slash, Path.segments_append]

lemma head?_toSlash (hne : name ≠ []) :
    (toSlash (name ++ rest)).head? = (toSlash name).head? := by
  cases name with
  | nil => exact absurd rfl hne
  | cons c name => rfl

/-- A folder is safe with its name. -/
lemma safe_concat_iff (hne : name ≠ []) : Safe (name ++ ['/']) ↔ Safe name := by
  have hsegments : Path.segments '/' (toSlash (name ++ ['/'])) =
      Path.segments '/' (toSlash name) ++ Path.segments '/' (toSlash []) := segments_toSlash
  constructor
  · rintro ⟨hparent, hrelative⟩
    rw [hsegments] at hparent
    rw [head?_toSlash hne] at hrelative
    exact ⟨fun hmem => hparent (List.mem_append_left _ hmem), hrelative⟩
  · rintro ⟨hparent, hrelative⟩
    refine ⟨?_, by rwa [head?_toSlash hne]⟩
    rw [hsegments, List.mem_append]
    rintro (hmem | hmem)
    · exact hparent hmem
    · exact absurd (List.mem_singleton.1 hmem) (by decide)

/-- The folders above what is safe are safe. -/
lemma Safe.parent (h : Safe (name ++ '/' :: rest)) : Safe (name ++ ['/']) := by
  have hne : name ≠ [] := by
    rintro rfl
    exact h.relative rfl
  refine (safe_concat_iff hne).2 ⟨fun hmem => h.noParent ?_, ?_⟩
  · rw [segments_toSlash]
    exact List.mem_append_left _ hmem
  · rw [← head?_toSlash hne]
    exact h.relative

lemma mem_joinSlash {l : List Text} {c : Char} (h : c ∈ joinSlash l) :
    c = '/' ∨ ∃ s ∈ l, c ∈ s := by
  induction l with
  | nil => cases h
  | cons s l ih =>
    rcases l with _ | ⟨t, l⟩
    · rw [joinSlash, List.intercalate_singleton] at h
      exact .inr ⟨s, List.mem_cons_self, h⟩
    · rw [joinSlash, List.intercalate_cons_cons, List.mem_append, List.mem_append,
        List.mem_singleton] at h
      rcases h with (h | h) | h
      · exact .inr ⟨s, List.mem_cons_self, h⟩
      · exact .inl h
      · exact (ih h).imp_right fun ⟨u, hu, hc⟩ => ⟨u, List.mem_cons_of_mem s hu, hc⟩

/-- There is no backslash in a path. -/
lemma toSlash_text (path : ArchivePath) : toSlash path.text = path.text := by
  refine (List.map_congr_left fun c hc => if_neg ?_).trans (List.map_id _)
  rintro rfl
  rcases mem_joinSlash hc with h | ⟨s, hs, h⟩
  · exact absurd h (by decide)
  · exact (path.clean s hs).2.2 h

lemma notMem_segments_text (path : ArchivePath) :
    ['.', '.'] ∉ Path.segments '/' (toSlash path.text) := by
  rw [toSlash_text, ArchivePath.text, path.toSegments.segments_joinSlash]
  exact fun hmem => (path.clean _ hmem).1.2.2 rfl

/-- **What the sanitizers let through is safe.** -/
lemma safe_archivePath (path : ArchivePath) : Safe path.text where
  noParent := notMem_segments_text path
  relative := by
    rw [toSlash_text]
    exact path.toSegments.head_ne

/-- A path in a safe folder is safe. -/
lemma Safe.append (h : Safe name) (hne : name ≠ []) (path : ArchivePath) :
    Safe (name ++ '/' :: path.text) where
  noParent := by
    rw [segments_toSlash, List.mem_append]
    exact not_or_intro h.noParent (notMem_segments_text path)
  relative := by
    rw [head?_toSlash hne]
    exact h.relative

/-- A folder is safe up to a null with its name. -/
lemma safe_cutAtNull_concat_iff (hne : name ≠ []) :
    Safe (cutAtNull (name ++ ['/'])) ↔ Safe (cutAtNull name) := by
  by_cases hnull : '\x00' ∈ name
  · rw [cutAtNull_append_of_mem hnull]
  · have hslash : cutAtNull ['/'] = ['/'] := by decide
    rw [cutAtNull_append_of_notMem hnull, cutAtNull_of_notMem hnull, hslash, safe_concat_iff hne]

/-- So are the folders above it. -/
lemma Safe.parent_cutAtNull (h : Safe (cutAtNull (name ++ '/' :: rest))) :
    Safe (cutAtNull (name ++ ['/'])) := by
  by_cases hnull : '\x00' ∈ name
  · rw [cutAtNull_append_of_mem hnull] at h ⊢
    exact h
  · have hslash : cutAtNull ('/' :: rest) = '/' :: cutAtNull rest :=
      List.takeWhile_cons_of_pos (by decide)
    have hslash' : cutAtNull ['/'] = ['/'] := by decide
    rw [cutAtNull_append_of_notMem hnull] at h ⊢
    rw [hslash] at h
    rw [hslash']
    exact h.parent

end Safe

/-! ### The condition -/

section Condition

variable {objects : Dict Text (List UInt8)} {requests : Requests}

/-- A part is that of a file, or of a folder whose parts are all needed. -/
lemma mem_needed {part : Part} (h : part ∈ (requests.needed objects).1) :
    (∃ request ∈ requests.files, part ∈ (neededFile objects request).1) ∨
      ∃ request ∈ requests.folders, part ∈ (neededFolder objects request).1 ∧
        (neededFolder objects request).1 ⊆ (requests.needed objects).1 := by
  rw [Requests.needed] at h ⊢
  rcases hplan : Once.inTurn (neededFile objects) requests.files with ⟨parts, _ | e⟩ <;>
    rw [hplan] at h <;> dsimp only at h ⊢
  · rcases List.mem_append.1 h with h | h
    · obtain ⟨request, hrequest, hmem, -⟩ := Once.mem_inTurn
        (show part ∈ (Once.inTurn (neededFile objects) requests.files).1 by rwa [hplan])
      exact .inl ⟨request, hrequest, hmem⟩
    · obtain ⟨request, hrequest, hmem, hsubset⟩ := Once.mem_inTurn h
      exact .inr ⟨request, hrequest, hmem,
        List.Subset.trans hsubset (List.subset_append_right _ _)⟩
  · obtain ⟨request, hrequest, hmem, -⟩ := Once.mem_inTurn
      (show part ∈ (Once.inTurn (neededFile objects) requests.files).1 by rwa [hplan])
    exact .inl ⟨request, hrequest, hmem⟩

/-- A part of a file is the object. -/
lemma mem_neededFile {request : FileRequest} {part : Part}
    (h : part ∈ (neededFile objects request).1) : ∃ content,
      objects.get request.objectName = some content ∧
        part = .object none request.archivePath request.objectName content := by
  rw [neededFile] at h
  cases hget : objects.get request.objectName with
  | none =>
    rw [hget] at h
    cases h
  | some content =>
    rw [hget] at h
    exact ⟨content, rfl, List.mem_singleton.1 h⟩

/-- A part of a folder is the folder or an object under it. -/
lemma mem_neededFolder {request : FolderRequest} {part : Part}
    (h : part ∈ (neededFolder objects request).1) : ∃ root, request.archiveRoot = some root ∧
      .folder root ∈ (neededFolder objects request).1 ∧
        (part = .folder root ∨ ∃ relative key content, objects.get key = some content ∧
          part = .object (some root) relative key content) := by
  rw [neededFolder] at h ⊢
  cases hroot : request.archiveRoot with
  | none =>
    rw [hroot] at h
    cases h
  | some root =>
    rw [hroot] at h
    refine ⟨root, rfl, List.mem_cons_self, (List.mem_cons.1 h).imp_right fun h => ?_⟩
    obtain ⟨⟨key, content⟩, hobject, hmem, -⟩ := Once.mem_inTurn h
    have hget : objects.get key = some content := by
      rw [listObjects, List.mem_insertionSort] at hobject
      exact Dict.mem_items.1 (List.mem_of_mem_filter hobject)
    rw [neededObject] at hmem
    split_ifs at hmem with hnone
    · cases hmem
    · cases hrelative : sanitizeArchiveItemPath (some (key.drop request.folderPrefix.length))
          (key.drop request.folderPrefix.length) with
      | error e =>
        simp only [hrelative, List.not_mem_nil] at hmem
      | ok relative =>
        simp only [hrelative, List.mem_singleton] at hmem
        exact ⟨relative, key, content, hget, hmem⟩

/-- The entries of an object have its content. -/
lemma get_of_source {entry : ZipEntry} (h : entry ∈ requests.neededEntries objects) {key : Text}
    (hsource : entry.source = some key) : objects.get key = some entry.content := by
  obtain ⟨part, hpart, hentry⟩ := List.mem_flatMap.1 h
  have hobject : ∀ root relative key' content, objects.get key' = some content →
      part = .object root relative key' content → objects.get key = some entry.content := by
    rintro root relative key' content hget rfl
    rcases List.mem_append.1 hentry with hentry | hentry
    · obtain ⟨name, -, rfl⟩ := List.mem_map.1 hentry
      cases hsource
    · obtain rfl := List.mem_singleton.1 hentry
      obtain rfl : key' = key := Option.some.inj hsource
      exact hget
  rcases mem_needed hpart with ⟨request, -, hmem⟩ | ⟨request, -, hmem, -⟩
  · obtain ⟨content, hget, hpart⟩ := mem_neededFile hmem
    exact hobject _ _ _ _ hget hpart
  · obtain ⟨root, -, -, rfl | ⟨relative, key', content, hget, hpart⟩⟩ := mem_neededFolder hmem
    · rw [List.mem_singleton.1 hentry] at hsource
      cases hsource
    · exact hobject _ _ _ _ hget hpart

/-- An object under a folder comes with the folder. -/
lemma folder_mem_needed {root : EntryName} {relative : ArchivePath} {key : Text}
    {content : List UInt8}
    (h : .object (some root) relative key content ∈ (requests.needed objects).1) :
    .folder root ∈ (requests.needed objects).1 := by
  rcases mem_needed h with ⟨request, -, hmem⟩ | ⟨request, -, hmem, hsubset⟩
  · obtain ⟨content', -, hpart⟩ := mem_neededFile hmem
    cases hpart
  · obtain ⟨root', -, hfolder, hpart | ⟨relative', key', content', -, hpart⟩⟩ :=
      mem_neededFolder hmem
    · cases hpart
    · cases hpart
      exact hsubset hfolder

/-- The names in the archive are the needed ones. -/
lemma mem_names_iff {name : Text} :
    name ∈ (writeArchive objects requests []).2.map ZipEntry.arcname ↔
      name ∈ (requests.neededEntries objects).map ZipEntry.arcname := by
  rw [(does_writeArchive requests).1, Once.mem_names_putAll]
  exact or_iff_right List.not_mem_nil

lemma safe_iff : (∀ entry ∈ (writeArchive objects requests []).2, Safe entry.filename) ↔
    ∀ entry ∈ requests.neededEntries objects, Safe entry.filename := by
  have hnames : ∀ l : Archive, (∀ entry ∈ l, Safe entry.filename) ↔
      ∀ name ∈ l.map ZipEntry.arcname, Safe (cutAtNull name) := by
    intro l
    rw [List.forall_mem_map]
    rfl
  rw [hnames, hnames]
  simp only [mem_names_iff]

/-- The needed names are safe when the folders' names and the paths that are cut are. -/
lemma safe_needed_iff : (∀ entry ∈ requests.neededEntries objects, Safe entry.filename) ↔
    (∀ root, .folder root ∈ (requests.needed objects).1 → Safe (cutAtNull root.text)) ∧
      ∀ root relative key content,
        .object root relative key content ∈ (requests.needed objects).1 →
          '\x00' ∈ (Part.object root relative key content).path →
            Safe (cutAtNull (Part.object root relative key content).path) := by
  constructor
  · intro h
    constructor
    · intro root hroot
      exact (safe_cutAtNull_concat_iff root.ne_nil).1
        (h _ (List.mem_flatMap.2 ⟨_, hroot, List.mem_singleton_self _⟩))
    · intro root relative key content hpart _
      exact h _ (List.mem_flatMap.2
        ⟨_, hpart, List.mem_append_right _ (List.mem_singleton_self _)⟩)
  · rintro ⟨hfolders, hnull⟩ entry hentry
    obtain ⟨part, hpart, hentry⟩ := List.mem_flatMap.1 hentry
    cases part with
    | folder root =>
      rw [List.mem_singleton.1 hentry]
      exact (safe_cutAtNull_concat_iff root.ne_nil).2 (hfolders root hpart)
    | object root relative key content =>
      -- A path that is not cut is safe with the folder that is asked for.
      have hpath : Safe (cutAtNull (Part.object root relative key content).path) := by
        by_cases hmem : '\x00' ∈ (Part.object root relative key content).path
        · exact hnull _ _ _ _ hpart hmem
        · rw [cutAtNull_of_notMem hmem]
          cases root with
          | none => exact safe_archivePath relative
          | some root =>
            have hjoin : (Part.object (some root) relative key content).path =
                root.text ++ '/' :: relative.text := by
              rw [Part.path, Part.segments, joinSlash]
              exact (List.intercalate_cons_of_ne_nil relative.ne_nil).trans
                (List.append_assoc _ _ _)
            rw [hjoin] at hmem ⊢
            have hroot := hfolders root (folder_mem_needed hpart)
            rw [cutAtNull_of_notMem fun h => hmem (List.mem_append_left _ h)] at hroot
            exact hroot.append root.ne_nil relative
      rcases List.mem_append.1 hentry with hentry | hentry
      · obtain ⟨name, hname, rfl⟩ := List.mem_map.1 hentry
        obtain ⟨l₁, l₂, hsplit, h₁, h₂, rfl⟩ := (Path.mem_parents '/').1 hname
        rw [Part.path, joinSlash, hsplit, Path.intercalate_append '/' h₁ h₂] at hpath
        exact hpath.parent_cutAtNull
      · rw [List.mem_singleton.1 hentry]
        exact hpath

lemma nodup_iff : ((writeArchive objects requests []).2.map ZipEntry.filename).Nodup ↔
    ∀ entry ∈ requests.neededEntries objects, ∀ entry' ∈ requests.neededEntries objects,
      '\x00' ∈ entry.arcname → entry.filename = entry'.filename →
        entry.arcname = entry'.arcname := by
  have hnodup : ((writeArchive objects requests []).2.map ZipEntry.arcname).Nodup := by
    rw [(does_writeArchive requests).1]
    exact Once.nodup_putAll List.nodup_nil
  have hfilename : (writeArchive objects requests []).2.map ZipEntry.filename =
      ((writeArchive objects requests []).2.map ZipEntry.arcname).map cutAtNull :=
    List.map_map.symm
  rw [hfilename, List.nodup_map_iff_inj_on hnodup]
  simp only [mem_names_iff, List.forall_mem_map]
  constructor
  · exact fun h entry hentry entry' hentry' _ heq => h entry hentry entry' hentry' heq
  · intro h entry hentry entry' hentry' heq
    by_cases hnull : '\x00' ∈ entry.arcname
    · exact h entry hentry entry' hentry' hnull heq
    · by_cases hnull' : '\x00' ∈ entry'.arcname
      · exact (h entry' hentry' entry hentry hnull' heq.symm).symm
      · rwa [cutAtNull_of_notMem hnull, cutAtNull_of_notMem hnull'] at heq

/-- An object is in the archive when some entry of it is the first of its name. -/
lemma stored_iff {key : Text} : (∃ entry ∈ (writeArchive objects requests []).2,
      entry.source = some key ∧ objects.get key = some entry.content) ↔
    ∃ before entry after, requests.neededEntries objects = before ++ entry :: after ∧
      entry.source = some key ∧ ∀ e ∈ before, e.arcname ≠ entry.arcname := by
  rw [(does_writeArchive requests).1]
  constructor
  · rintro ⟨entry, hentry, hsource, -⟩
    obtain ⟨-, before, after, hsplit, hbefore⟩ :=
      List.find?_eq_some_iff_append.1 (Once.mem_putAll_nil.1 hentry)
    exact ⟨before, entry, after, hsplit, hsource, fun e he => by simpa using hbefore e he⟩
  · rintro ⟨before, entry, after, hsplit, hsource, hbefore⟩
    have hmem : entry ∈ requests.neededEntries objects := by
      rw [hsplit]
      exact List.mem_append_right _ List.mem_cons_self
    refine ⟨entry, Once.mem_putAll_nil.2 (List.find?_eq_some_iff_append.2 ?_), hsource,
      get_of_source hmem hsource⟩
    exact ⟨decide_eq_true rfl, before, after, hsplit, fun e he => by simpa using hbefore e he⟩

lemma ok_iff : (writeArchive objects requests []).1 = .ok () ↔
    (requests.needed objects).2 = none := by
  rw [← (does_writeArchive requests).2]
  rcases (writeArchive objects requests []).1 with e | u <;> simp [Once.errorOf]

/-- What was asked for is as it should be just when the parts are unambiguous. -/
lemma archiveCorrect_iff_unambiguous :
    requests.ArchiveCorrect objects ↔ requests.Unambiguous objects := by
  constructor
  · rintro ⟨hsafe, hnodup, hcomplete⟩
    obtain ⟨hfolders, hnull⟩ := safe_needed_iff.1 (safe_iff.1 hsafe)
    exact ⟨hfolders, hnull, nodup_iff.1 hnodup,
      fun hok key hasked => stored_iff.1 (hcomplete (ok_iff.2 hok) key hasked)⟩
  · rintro ⟨hfolders, hnull, hnames, hfirst⟩
    exact ⟨safe_iff.2 (safe_needed_iff.2 ⟨hfolders, hnull⟩), nodup_iff.2 hnames,
      fun hok key hasked => stored_iff.2 (hfirst (ok_iff.1 hok) key hasked)⟩

end Condition

/-- **An archive is as it should be just when what it needs is unambiguous.** -/
theorem archiveCorrect_iff (objects : Dict Text (List UInt8)) (payload : DownloadPayload) :
    (∀ requests archiveName, parseBatchDownloadPayload payload = .ok (requests, archiveName) →
        requests.ArchiveCorrect objects) ↔
      ∀ requests archiveName, parseBatchDownloadPayload payload = .ok (requests, archiveName) →
        requests.Unambiguous objects :=
  forall₃_congr fun _ _ _ => archiveCorrect_iff_unambiguous

/-- A folder is asked for under a name with a backslash. -/
def leadingOut : DownloadPayload where
  items := some [some ⟨true, .text "d".toList, .text "..\\x".toList, .falsy, .falsy⟩]
  archiveName := .falsy

def leadingOutRequests : Requests where
  files := []
  folders := [⟨⟨["d".toList], by decide, by decide⟩, some ⟨"..\\x".toList, by decide, by decide⟩⟩]

lemma parse_leadingOut :
    parseBatchDownloadPayload leadingOut = .ok (leadingOutRequests, "files.zip".toList) := rfl

/-- The archive has a folder of this name. -/
theorem name_leads_out :
    ¬∀ (objects : Dict Text (List UInt8)) (payload : DownloadPayload) (requests : Requests)
      (archiveName : Text), parseBatchDownloadPayload payload = .ok (requests, archiveName) →
        requests.ArchiveCorrect objects := by
  intro h
  have hcorrect := h Dict.empty leadingOut leadingOutRequests _ parse_leadingOut
  have hsafe := (archiveCorrect_iff_unambiguous.1 hcorrect).folderNames _ List.mem_cons_self
  exact hsafe.noParent (by decide)

end Burla.Files
