/-
The file manager's create, move and rename (storage.py).

Files and folders share one flat key space: a folder is a prefix that ends with a slash, with or
without an object of that name.  A request may have several items, which are gone through in
order, and stops at the first that fails.
-/
import Burla.Files.Bucket

namespace Burla.Files

/-! ### Paths and names -/

/-- `normalize_directory_path`, one segment on: `..` takes the last one away. -/
def addSegment (segments : List Text) (segment : Text) : List Text :=
  if segment = [] ∨ segment = ['.'] then segments
  else if segment = ['.', '.'] then segments.dropLast
  else segments ++ [segment]

/-- `normalize_directory_path` -/
def normalizeDirectoryPath (rawPath : Option Text) : Text :=
  let normalized := (rawPath.getD []).map fun c => if c = '\\' then '/' else c
  let segments := (normalized.splitOn '/').foldl addSegment []
  segments.flatMap fun segment => segment ++ ['/']

/-- `validate_entry_name` -/
def validateEntryName (name : Option Text) : Action Text :=
  match name with
  | none | some [] => Effect.raise (.valueError "Name is required".toList)
  | some name =>
    if '/' ∈ name then Effect.raise (.valueError "Name cannot contain path separators".toList)
    else if name = ['.'] ∨ name = ['.', '.'] then
      Effect.raise (.valueError "Name is not allowed".toList)
    else pure name

/-- An item of the request's `data`. -/
structure Item where
  name : Option Text
  isFile : Option Bool
  type : Option Text

/-- The request. -/
structure Payload where
  path : Option Text
  name : Option Text
  newName : Option Text
  targetPath : Option Text
  data : List Item
  names : List Text

/-- What the response says about an entry; sizes and dates are left out. -/
structure Entry where
  name : Text
  isFile : Bool
  hasChild : Bool
  path : Text

/-- `directory_path_for_response` -/
def directoryPathForResponse (directory : Text) : Text := '/' :: directory

/-- `build_directory_metadata`, for a prefix that ends with a slash. -/
def buildDirectoryMetadata (pre parent : Text) (hasChildren : Bool) : Entry where
  name :=
    if parent ≠ [] then (pre.drop parent.length).dropLast
    else if pre.dropLast = [] then "/workspace/shared".toList
    else pre.dropLast
  isFile := false
  hasChild := hasChildren
  path := directoryPathForResponse parent

/-- `build_file_metadata` -/
def buildFileMetadata (key directory : Text) : Entry where
  name := key.drop directory.length
  isFile := true
  hasChild := false
  path := directoryPathForResponse directory

/-- `is_file_entry` -/
def Item.isFileEntry (item : Item) : Bool := item.isFile.getD (item.type ≠ some "folder".toList)

/-- `folder_exists` -/
def folderExists (pre : Text) : Action Bool := do
  if ← getBlobMetadata pre then pure true
  else do
    let names ← listSome pre 2
    pure (names.any fun name => name ≠ pre)

/-- `move_prefix` -/
def movePrefix (source destination : Text) : Action (List Unit) := do
  let names ← listPrefix source
  Effect.forEach (fun name => renameBlob name (destination ++ name.drop source.length)) names

def alreadyExists (kind name tail : Text) : FileError :=
  .valueError (kind ++ '\'' :: name ++ "' already exists".toList ++ tail)

/-! ### The actions -/

/-- The names that a create request gives. -/
def Payload.candidateNames (payload : Payload) : List Text :=
  match payload.name with
  | some (c :: name) => [c :: name]
  | _ => payload.data.filterMap fun item : Item =>
    item.name.filter fun name => name ≠ [] ∧ '/' ∉ name ∧ '\\' ∉ name

/-- `unique_names` -/
def Payload.uniqueNames (payload : Payload) : List Text :=
  payload.candidateNames.foldl
    (fun names name => if names.contains name then names else names ++ [name]) []

def createItem (directory rawName : Text) : Action Entry := do
  let name ← validateEntryName (some rawName)
  let folder := directory ++ name ++ ['/']
  if ← getBlobMetadata (directory ++ name) then
    Effect.raise (alreadyExists "A file named ".toList name [])
  else if ← folderExists folder then pure (buildDirectoryMetadata folder directory true)
  else if ← getBlobMetadata folder then pure (buildDirectoryMetadata folder directory false)
  else do
    uploadEmpty folder
    pure (buildDirectoryMetadata folder directory false)

/-- `create_action` -/
def createAction (payload : Payload) : Action (List Entry) :=
  let directory := normalizeDirectoryPath payload.path
  if payload.uniqueNames = [] then
    Effect.raise (.valueError "No items provided for create action".toList)
  else Effect.forEach (createItem directory) payload.uniqueNames

/-- The items of a request. -/
def Payload.items (payload : Payload) : List Item :=
  if payload.data = [] then payload.names.map fun name => ⟨some name, none, none⟩ else payload.data

def moveItem (source target : Text) (item : Item) : Action Entry := do
  let name ← validateEntryName item.name
  if item.isFileEntry then do
    if source ++ name = target ++ name then do
      if ← getBlobMetadata (source ++ name) then pure (buildFileMetadata (source ++ name) target)
      else Effect.raise (.blobNotFound ("File '".toList ++ name ++ "' not found".toList))
    else if ← getBlobMetadata (target ++ name) then
      Effect.raise (alreadyExists "A file named ".toList name " at the destination".toList)
    else do
      renameBlob (source ++ name) (target ++ name)
      if ← getBlobMetadata (target ++ name) then pure (buildFileMetadata (target ++ name) target)
      else Effect.raise (.blobNotFound ("File '".toList ++ name ++ "' not found after move".toList))
  else do
    let sourceFolder := source ++ name ++ ['/']
    let targetFolder := target ++ name ++ ['/']
    if sourceFolder = targetFolder then pure (buildDirectoryMetadata targetFolder target true)
    else if sourceFolder.isPrefixOf targetFolder then
      Effect.raise (.valueError "Cannot move a folder into itself or its subfolders".toList)
    else if ← folderExists targetFolder then
      Effect.raise (alreadyExists "A folder named ".toList name " at the destination".toList)
    else do
      let _ ← movePrefix sourceFolder targetFolder
      pure (buildDirectoryMetadata targetFolder target true)

/-- `move_action` -/
def moveAction (payload : Payload) : Action (List Entry) :=
  match payload.targetPath with
  | none => Effect.raise (.valueError "Target path is required for move action".toList)
  | some targetPath =>
    if payload.items = [] then
      Effect.raise (.valueError "No items provided for move action".toList)
    else
      Effect.forEach
        (moveItem (normalizeDirectoryPath payload.path) (normalizeDirectoryPath (some targetPath)))
        payload.items

def renameFile (directory currentName newName : Text) : Action Entry := do
  renameBlob (directory ++ currentName) (directory ++ newName)
  if ← getBlobMetadata (directory ++ newName) then
    pure (buildFileMetadata (directory ++ newName) directory)
  else
    Effect.raise (.blobNotFound ("File '".toList ++ newName ++ "' not found after rename".toList))

def renameFolder (directory currentName newName : Text) : Action Entry := do
  let source := directory ++ currentName ++ ['/']
  let destination := directory ++ newName ++ ['/']
  if ← folderExists destination then Effect.raise (alreadyExists "Folder ".toList newName [])
  else do
    let _ ← movePrefix source destination
    pure (buildDirectoryMetadata destination directory true)

/-- `rename_action` -/
def renameAction (payload : Payload) : Action (List Entry) :=
  let directory := normalizeDirectoryPath payload.path
  match payload.data with
  | [] => Effect.raise (.valueError "No source item found for rename action".toList)
  | item :: _ => do
    let currentName ← validateEntryName item.name
    let newName ← validateEntryName payload.newName
    if currentName = newName then
      Effect.raise (.valueError "New name matches the existing name".toList)
    else do
      let entry ←
        if item.isFileEntry then renameFile directory currentName newName
        else renameFolder directory currentName newName
      pure [entry]

/-- The actions of `filemanager_endpoint` that write without being asked to delete. -/
inductive Request
  | create (payload : Payload)
  | move (payload : Payload)
  | rename (payload : Payload)

def Request.run : Request → Action (List Entry)
  | create payload => createAction payload
  | move payload => moveAction payload
  | rename payload => renameAction payload

end Burla.Files
