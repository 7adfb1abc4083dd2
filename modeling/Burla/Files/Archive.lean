/-
Downloads of several files and folders as one archive (`parse_batch_download_payload` and
`write_archive_to_stream` in storage.py).

The paths in the archive come from the request, for a file, and from the keys, for what is under a
folder.  An object whose path has been taken is left out, and `zipfile` cuts a name at the first
null character.
-/
import Burla.Files.Bucket
import Burla.Files.ContentRange
import Burla.Lib.Once
import Burla.Lib.Paths
import Mathlib.Data.Char
import Mathlib.Data.List.DropRight
import Mathlib.Data.List.Lex
import Mathlib.Data.List.Sort

namespace Burla.Files

/-! ### Paths -/

inductive DownloadError
  | http (status : ℕ) (detail : Text)
  | typeError
  | attributeError
  deriving DecidableEq

/-- What `str.strip` takes off. -/
def isSpace (c : Char) : Bool :=
  isBlank c || c.toNat = 5760 || (8192 ≤ c.toNat && c.toNat ≤ 8202) || c.toNat = 8232 ||
    c.toNat = 8233 || c.toNat = 8239 || c.toNat = 8287 || c.toNat = 12288

def stripSpace (text : Text) : Text := (text.dropWhile isSpace).rdropWhile isSpace

/-- `replace("\\", "/")` -/
def toSlash (text : Text) : Text := text.map fun c => if c = '\\' then '/' else c

/-- A segment as the sanitizers leave it. -/
def Clean (segment : Text) : Prop := segment ≠ [] ∧ segment ≠ ['.'] ∧ segment ≠ ['.', '.']

instance (segment : Text) : Decidable (Clean segment) :=
  inferInstanceAs (Decidable (_ ∧ _ ∧ _))

/-- The loop of the sanitizers. -/
def cleanSegments (detail : Text) : List Text → Except DownloadError (List Text)
  | [] => .ok []
  | segment :: rest =>
    if segment = [] ∨ segment = ['.'] then cleanSegments detail rest
    else if segment = ['.', '.'] then .error (.http 400 detail)
    else (cleanSegments detail rest).map (segment :: ·)

lemma clean_of_cleanSegments {detail : Text} {l segments : List Text}
    (h : cleanSegments detail l = .ok segments) :
    (∀ s ∈ segments, Clean s) ∧ segments ⊆ l := by
  induction l generalizing segments with
  | nil =>
    cases h
    exact ⟨List.forall_mem_nil _, List.nil_subset _⟩
  | cons segment rest ih =>
    rw [cleanSegments] at h
    split_ifs at h with hskip hup
    · exact ⟨(ih h).1, List.subset_cons_of_subset _ (ih h).2⟩
    · cases hrest : cleanSegments detail rest with
      | error e =>
        rw [hrest] at h
        cases h
      | ok segments' =>
        rw [hrest] at h
        cases h
        obtain ⟨hclean, hsubset⟩ := ih hrest
        refine ⟨List.forall_mem_cons.2 ⟨⟨fun hnil => hskip (.inl hnil),
          fun hdot => hskip (.inr hdot), hup⟩, hclean⟩, ?_⟩
        exact List.cons_subset_cons _ hsubset

/-- `"/".join(segments)` -/
def joinSlash (segments : List Text) : Text := ['/'].intercalate segments

/-- A path of segments that the sanitizers let through. -/
structure ArchivePath where
  segments : List Text
  ne_nil : segments ≠ []
  clean : ∀ s ∈ segments, Clean s ∧ '/' ∉ s ∧ '\\' ∉ s

def ArchivePath.text (path : ArchivePath) : Text := joinSlash path.segments

lemma notMem_toSlash (text : Text) : '\\' ∉ toSlash text := by
  rw [toSlash, List.mem_map]
  rintro ⟨c, -, hc⟩
  split_ifs at hc with h
  · exact absurd hc (by decide)
  · exact h hc

/-- A text without backslashes is cut at its slashes. -/
def archivePath (detail empty : Text) (normalized : Text) (hnormalized : '\\' ∉ normalized) :
    Except DownloadError ArchivePath :=
  match h : cleanSegments detail (Path.segments '/' normalized) with
  | .error e => .error e
  | .ok segments =>
    if hne : segments = [] then .error (.http 400 empty)
    else
      .ok
        { segments := segments
          ne_nil := hne
          clean := fun s hs => by
            obtain ⟨hclean, hsubset⟩ := clean_of_cleanSegments h
            obtain ⟨hslash, hpart⟩ := Path.of_mem_segments '/' (hsubset hs)
            exact ⟨hclean s hs, hslash, fun hmem => hnormalized (hpart hmem)⟩ }

/-- `sanitize_object_name`; a backslash is a character like another here. -/
def sanitizeObjectName (rawName : Text) : Except DownloadError Text :=
  let normalized := rawName.dropWhile (· = '/')
  if normalized.getLast? = some '/' then .error (.http 400 "Cannot download a folder path".toList)
  else if normalized = [] then .error (.http 400 "Object name is required".toList)
  else do
    let segments ← cleanSegments "Invalid object path".toList (Path.segments '/' normalized)
    if segments = [] then .error (.http 400 "Object name is required".toList)
    else .ok (joinSlash segments)

/-- `sanitize_archive_item_path` -/
def sanitizeArchiveItemPath (rawPath : Option Text) (fallback : Text) :
    Except DownloadError ArchivePath :=
  let candidate := stripSpace (rawPath.getD [])
  let selected := if candidate = [] then fallback else candidate
  archivePath "Invalid archive path".toList "Invalid archive path".toList (toSlash selected)
    (notMem_toSlash selected)

/-- `sanitize_folder_prefix`, without the slash at the end; the prefix may be no text. -/
def sanitizeFolderPrefix : Option Text → Except DownloadError ArchivePath
  | none => .error (.http 400 "Folder path is required".toList)
  | some rawPrefix =>
    archivePath "Invalid folder path".toList "Folder path is required".toList
      (toSlash (stripSpace rawPrefix)) (notMem_toSlash _)

/-! ### The request -/

/-- A value in a request. -/
inductive Given
  /-- `null`, `false`, zero or an empty list or object, or nothing. -/
  | falsy
  | text (t : Text)
  /-- A number or `true`. -/
  | number
  /-- A list or an object, and whether a slash is among its items or keys. -/
  | container (hasSlash : Bool)

namespace Given

/-- `or` -/
def or : Given → Given → Given
  | falsy, other | text [], other => other
  | value, _ => value

/-- `isinstance(value, str)` -/
def text? : Given → Option Text
  | text t => some t
  | falsy | number | container _ => none

/-- Texts are stripped. -/
def strip : Given → Given
  | text t => text (stripSpace t)
  | value => value

end Given

/-- A name that `validate_entry_name` lets through. -/
structure EntryName where
  text : Text
  ne_nil : text ≠ []
  noSlash : '/' ∉ text

/-- `validate_entry_name`, of any value: a list or an object may pass, and is no text. -/
def Given.validateEntryName : Given → Except DownloadError (Option EntryName)
  | falsy | text [] => .error (.http 400 "Name is required".toList)
  | text (c :: rest) =>
    if h : '/' ∈ c :: rest then .error (.http 400 "Name cannot contain path separators".toList)
    else if c :: rest = ['.'] ∨ c :: rest = ['.', '.'] then
      .error (.http 400 "Name is not allowed".toList)
    else .ok (some ⟨c :: rest, List.cons_ne_nil c rest, h⟩)
  | number => .error .typeError
  | container true => .error (.http 400 "Name cannot contain path separators".toList)
  | container false => .ok none

/-- An item of a request. -/
structure DownloadItem where
  /-- `item_type == "folder"` -/
  isFolder : Bool
  folderPrefix : Given
  archivePath : Given
  name : Given
  objectName : Given

structure DownloadPayload where
  /-- The items, when there is a list of them; some may be no objects. -/
  items : Option (List (Option DownloadItem))
  archiveName : Given

structure FileRequest where
  objectName : Text
  archivePath : ArchivePath

structure FolderRequest where
  folder : ArchivePath
  /-- The name may be no text. -/
  archiveRoot : Option EntryName

/-- The prefix ends with a slash. -/
def FolderRequest.folderPrefix (request : FolderRequest) : Text := request.folder.text ++ ['/']

/-- The last part of a path, for `Path(candidate).name`. -/
def pathName (candidate : Text) : Text :=
  ((Path.segments '/' candidate).filter fun s => s ≠ [] ∧ s ≠ ['.']).getLastD []

/-- `sanitize_archive_filename` -/
def sanitizeArchiveFilename (rawName : Text) : Text :=
  let candidate := stripSpace rawName
  let candidate := if candidate = [] then "files.zip".toList else candidate
  let sanitized := if pathName candidate = [] then "files.zip".toList else pathName candidate
  let sanitized :=
    if ".zip".toList.isSuffixOf (sanitized.map Char.toLower) then sanitized
    else sanitized ++ ".zip".toList
  sanitized.filter fun c => c ≠ '"' ∧ c ≠ '\''

/-- What has been read of the items. -/
structure Requests where
  files : List FileRequest
  folders : List FolderRequest

/-- One item; the same object or prefix is asked for once. -/
def parseItem (requests : Requests) : Option DownloadItem → Except DownloadError Requests
  | none => .ok requests
  | some item =>
    if item.isFolder then do
      let archiveRootName := (item.archivePath.or item.name).strip
      let folder ← sanitizeFolderPrefix item.folderPrefix.text?
      if requests.folders.any fun r => r.folder.text = folder.text then .ok requests
      else do
        let archiveRoot ← archiveRootName.validateEntryName
        .ok { requests with folders := requests.folders ++ [⟨folder, archiveRoot⟩] }
    else
      match item.objectName.text? with
      | none => .ok requests
      | some objectName => do
        let objectName ← sanitizeObjectName objectName
        if requests.files.any fun r => r.objectName = objectName then .ok requests
        else do
          let archivePath ← sanitizeArchiveItemPath item.archivePath.text? objectName
          .ok { requests with files := requests.files ++ [⟨objectName, archivePath⟩] }

/-- `parse_batch_download_payload` -/
def parseBatchDownloadPayload (payload : DownloadPayload) :
    Except DownloadError (Requests × Text) :=
  match payload.items with
  | none | some [] => .error (.http 400 "No files provided for download".toList)
  | some items => do
    let requests ← items.foldlM parseItem ⟨[], []⟩
    if requests.files.isEmpty && requests.folders.isEmpty then
      .error (.http 400 "No files provided for download".toList)
    else
      match payload.archiveName with
      | .falsy => .ok (requests, sanitizeArchiveFilename [])
      | .text t => .ok (requests, sanitizeArchiveFilename t)
      | .number | .container _ => .error .attributeError

/-! ### The archive -/

/-- An entry of the archive, under the name that is given to `zipfile`. -/
structure ZipEntry where
  arcname : Text
  /-- The object it is a copy of; a folder has none. -/
  source : Option Text
  content : List UInt8

/-- The part of a name that `zipfile` keeps. -/
def cutAtNull (name : Text) : Text := name.takeWhile (· ≠ '\x00')

def ZipEntry.filename (entry : ZipEntry) : Text := cutAtNull entry.arcname

/-- The entries; `written_entries` has the names they were given. -/
abbrev Archive := List ZipEntry

-- One proof for every test of whether a path is among others.
local instance lawfulBEq_text : LawfulBEq Text := inferInstance

namespace Archive

variable (archive : Archive)

def writtenEntries : List Text := archive.map ZipEntry.arcname

/-- `archive_path_for` -/
def archivePathFor (root relativePath : Text) : Text :=
  if root = [] then relativePath
  else if relativePath = [] then root
  else root ++ '/' :: relativePath

/-- `ensure_directory_entry` -/
def ensureDirectoryEntry (path : Text) : Archive :=
  let normalized := (path.dropWhile (· = '/')).rdropWhile (· = '/')
  if normalized = [] then archive
  else if normalized ++ ['/'] ∈ archive.writtenEntries then archive
  else archive ++ [⟨normalized ++ ['/'], none, []⟩]

/-- The loop of `ensure_directory_hierarchy`. -/
def ensureSegments (root : Text) (accumulated : List Text) : List Text → Archive → Archive
  | [], archive => archive
  | segment :: rest, archive =>
    ensureSegments root (accumulated ++ [segment]) rest
      (archive.ensureDirectoryEntry (archivePathFor root (joinSlash (accumulated ++ [segment]))))

/-- `ensure_directory_hierarchy` -/
def ensureDirectoryHierarchy (root directoryPath : Text) : Archive :=
  let segments := (Path.segments '/' directoryPath).filter (· ≠ [])
  if segments = [] then archive.ensureDirectoryEntry root
  else ensureSegments root [] segments archive

/-- `ensure_parent_directories` -/
def ensureParentDirectories (root relativeFilePath : Text) : Archive :=
  let parents := (Path.segments '/' relativeFilePath).dropLast
  if parents = [] then archive else archive.ensureDirectoryHierarchy root (joinSlash parents)

end Archive

/-- The loop of `copy_blob_into_archive`: what is read until nothing comes. -/
def copyChunks (source : List UInt8) : List UInt8 :=
  if source.take (1024 * 1024) = [] then []
  else source.take (1024 * 1024) ++ copyChunks (source.drop (1024 * 1024))
termination_by source.length
decreasing_by
  rename_i h
  have hpos : 0 < source.length := by
    refine List.length_pos_of_ne_nil fun hnil => h ?_
    rw [hnil, List.take_nil]
  rw [List.length_drop]
  omega

/-- `copy_blob_into_archive`, after the parents of the path. -/
def Archive.copyObject (archive : Archive) (root relativePath key : Text)
    (content : List UInt8) : Archive :=
  archive.ensureParentDirectories root relativePath ++
    [⟨Archive.archivePathFor root relativePath, some key, copyChunks content⟩]

abbrev Download (α : Type) := Effect DownloadError Archive α

variable (objects : Dict Text (List UInt8))

/-- `list_prefix`, in the order of the keys, with what is in the objects. -/
def listObjects (pre : Text) : List (Text × List UInt8) :=
  (objects.items.filter fun e => pre.isPrefixOf e.1).insertionSort fun a b => a.1 ≤ b.1

/-- The pass for a file that is asked for. -/
def addFile (request : FileRequest) : Download Unit :=
  match objects.get request.objectName with
  | none =>
    Effect.raise (.http 404 ("File '".toList ++ request.objectName ++ "' not found".toList))
  | some content =>
    Effect.modify fun archive =>
      if request.archivePath.text ∈ archive.writtenEntries then archive
      else archive.copyObject [] request.archivePath.text request.objectName content

/-- The pass for an object under a folder: whether it has been added. -/
def addObject (pre root : Text) (object : Text × List UInt8) : Download Bool :=
  if object.1 = pre then pure false
  else if object.1.drop pre.length = [] then pure false
  else
    match sanitizeArchiveItemPath (some (object.1.drop pre.length))
        (object.1.drop pre.length) with
    | .error e => Effect.raise e
    | .ok relative => do
      let archive ← Effect.read
      if Archive.archivePathFor root relative.text ∈ archive.writtenEntries then pure false
      else do
        Effect.modify fun archive => archive.copyObject root relative.text object.1 object.2
        pure true

/-- The pass for a folder; a name that is no text has no `strip`. -/
def addFolder (request : FolderRequest) : Download Unit :=
  match request.archiveRoot with
  | none => Effect.raise .attributeError
  | some root => do
    Effect.modify fun archive => archive.ensureDirectoryEntry root.text
    let added ← Effect.forEach (addObject request.folderPrefix root.text)
      (listObjects objects request.folderPrefix)
    if added.any id then pure ()
    else Effect.modify fun archive => archive.ensureDirectoryEntry root.text

/-- `write_archive_to_stream` -/
def writeArchive (requests : Requests) : Download Unit := do
  let _ ← Effect.forEach (addFile objects) requests.files
  let _ ← Effect.forEach (addFolder objects) requests.folders
  pure ()

/-! ### What is asked of an archive -/

/-- With both separators, no segment is `..` and the name does not begin with a separator. -/
structure Safe (name : Text) : Prop where
  noParent : ['.', '.'] ∉ Path.segments '/' (toSlash name)
  relative : (toSlash name).head? ≠ some '/'

/-- The marker of a folder. -/
def isFolderMarker (key : Text) : Bool := key.getLast? = some '/'

/-- The objects that are asked for. -/
def Requests.Asked (requests : Requests) (key : Text) : Prop :=
  (∃ r ∈ requests.files, r.objectName = key) ∨
    ∃ r ∈ requests.folders, key ∈ objects.keys ∧ r.folderPrefix <+: key ∧ isFolderMarker key = false

/-- Whatever becomes of the archive, its names are safe and different; and when there is no error,
everything that is asked for is in it. -/
structure Requests.ArchiveCorrect (requests : Requests) : Prop where
  safe : ∀ entry ∈ (writeArchive objects requests []).2, Safe entry.filename
  nodup : ((writeArchive objects requests []).2.map ZipEntry.filename).Nodup
  complete : (writeArchive objects requests []).1 = .ok () →
    ∀ key, requests.Asked objects key →
      ∃ entry ∈ (writeArchive objects requests []).2,
        entry.source = some key ∧ objects.get key = some entry.content

end Burla.Files
