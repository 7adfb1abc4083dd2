/-
The distributions that a client finds installed (`_scan` in _env_scan.py).

A host says what is on disk apart from the order in which directories are listed: which paths are
directories, what files hold, and where paths lead to.  The order of the listings is an argument of
the scan; a directory that cannot be read lists nothing.  What is only used to tell modules apart
later on (directories with metadata, top-level modules, the standard library) is left out.
-/
import Burla.Lib.Dict
import Burla.Results.Capture

namespace Burla.Env

open Burla.Results (strip splitLines)

abbrev Text := List Char

-- One proof for every test of whether a text is among others.
local instance lawfulBEq_text : LawfulBEq Text := inferInstance

/-! ### Texts -/

def startsWith (start text : Text) : Bool := decide (start <+: text)

def endsWith (ending text : Text) : Bool := decide (ending <:+ text)

/-- `text[: -len(ending)]` -/
def dropEnd (ending text : Text) : Text := text.take (text.length - ending.length)

/-- `text.split(sep, 1)[0]` -/
def before (sep : Char) (text : Text) : Text := text.takeWhile (· != sep)

/-- `text.partition(sep)`, without the separator. -/
def partition (sep : Char) (text : Text) : Text × Text :=
  (before sep text, (text.dropWhile (· != sep)).drop 1)

/-- `text.rpartition(sep)`, without the separator. -/
def rpartition (sep : Char) (text : Text) : Text × Text :=
  (((text.reverse.dropWhile (· != sep)).drop 1).reverse, (before sep text.reverse).reverse)

/-- A text that is not empty. -/
def given (text : Option Text) : Option Text := text.filter (· ≠ [])

def isNameSeparator (c : Char) : Bool := c == '-' || c == '_' || c == '.'

/-- `re.sub(r"[-_.]+", "-", name)`, with whether the last character was a separator. -/
def collapse : Bool → Text → Text
  | _, [] => []
  | inRun, c :: cs =>
    if isNameSeparator c then (if inRun then collapse true cs else '-' :: collapse true cs)
    else c :: collapse false cs

/-! ### The host -/

structure VcsInfo where
  vcs : Option Text
  commitId : Option Text
  deriving DecidableEq

/-- What `direct_url.json` says. -/
structure DirectUrl where
  url : Option Text
  vcsInfo : Option VcsInfo
  subdirectory : Option Text
  /-- Whether a directory is editable. -/
  dirInfo : Option Bool
  /-- Whether there is an `archive_info`. -/
  archiveInfo : Bool
  deriving DecidableEq

structure Host (π : Type*) where
  isDir : π → Bool
  /-- `_resolve(os.path.join(location, path))` -/
  resolve : π → Text → π
  /-- `_file_uri_to_path` -/
  fileUriToPath : Text → π
  realPath : π → π
  /-- Whether an entry of a directory is one itself. -/
  isDirEntry : π → Text → Bool
  /-- The text of a file, by the names that lead to it from a directory. -/
  read : π → List Text → Option Text
  /-- What is read from the `direct_url.json` of a metadata directory. -/
  directUrl : π → Text → Option DirectUrl
  /-- `str.lower` -/
  lower : Text → Text
  isDigit : Char → Bool

variable {π : Type*}

/-- `_canonical` -/
def canonical (lower : Text → Text) (name : Text) : Text := lower (collapse false name)

def distInfo : Text := ".dist-info".toList

def eggInfo : Text := ".egg-info".toList

def pth : Text := ".pth".toList

def eggLink : Text := ".egg-link".toList

/-! ### Metadata -/

/-- `_parse_metadata_dirname` -/
def parseMetadataDirname (entryName : Text) : Option Text × Option Text :=
  if endsWith distInfo entryName then
    let (name, version) := rpartition '-' (dropEnd distInfo entryName)
    (given (some name), given (some version))
  else
    let (name, rest) := partition '-' (dropEnd eggInfo entryName)
    (given (some name), given (some (before '-' rest)))

/-- The lines of a text. -/
def lines (text : Text) : List Text := text.splitOn '\n'

/-- The headers, up to those that are looked for or to a blank line. -/
def readHeaders : List Text → Option Text → Option Text → Option Text × Option Text
  | [], name, version => (name, version)
  | line :: rest, name, version =>
    let name' := if startsWith "Name:".toList line then some (strip (line.drop 5)) else name
    let version' :=
      if startsWith "Name:".toList line then version
      else if startsWith "Version:".toList line then some (strip (line.drop 8))
      else version
    if (given name').isSome ∧ (given version').isSome ∨ strip line = [] then (name', version')
    else readHeaders rest name' version'

/-- `_read_name_version` -/
def readNameVersion (h : Host π) (location : π) (entryName : Text) (isDistInfo : Bool) :
    Option Text × Option Text :=
  let path :=
    if h.isDirEntry location entryName then
      [entryName, if isDistInfo then "METADATA".toList else "PKG-INFO".toList]
    else [entryName]
  match h.read location path with
  | none => (none, none)
  | some text => readHeaders (lines text) none none

/-- The name and the version that metadata has, or nothing that can be used. -/
def nameVersion (h : Host π) (location : π) (entryName : Text) : Option (Text × Text) :=
  let (rawName, version) := parseMetadataDirname entryName
  match rawName, version with
  | some rawName, some version =>
    if (version.head?.any h.isDigit) then some (rawName, version) else fallback
  | _, _ => fallback
where
  /-- The headers are read. -/
  fallback : Option (Text × Text) :=
    let (rawName, version) := readNameVersion h location entryName (endsWith distInfo entryName)
    match given rawName, given version with
    | some rawName, some version => some (rawName, version)
    | _, _ => none

def excludedDists : List Text :=
  ["burla", "ipython", "google-colab", "pywin32", "pywinpty"].map String.toList

/-- `_is_excluded` -/
def isExcluded (name : Text) : Bool :=
  decide (name ∈ excludedDists) || startsWith "pyobjc".toList name

/-- `_version_pin` -/
def versionPin (rawName version : Text) : Text := rawName ++ "==".toList ++ before '+' version

/-! ### Where a distribution comes from -/

/-- What can come before the colon of a scheme. -/
def isSchemeChar (c : Char) : Bool := c.isAlphanum || c == '+' || c == '-' || c == '.'

/-- `urlparse(url).scheme` -/
def urlScheme (url : Text) : Text :=
  let url := (url.dropWhile fun c => decide (c.toNat ≤ 32)).filter
    fun c => !(c == '\t' || c == '\r' || c == '\n')
  let scheme := before ':' url
  if scheme.length < url.length ∧ scheme.head?.any Char.isAlpha ∧ scheme.all isSchemeChar then
    scheme.map Char.toLower
  else []

/-- `part in text` -/
def contains (part text : Text) : Bool := decide (part <:+: text)

/-- `replace("\\", "/")` -/
def toSlash (text : Text) : Text := text.map fun c => if c == '\\' then '/' else c

inductive Classification (π : Type*)
  | req (spec : Text)
  | localDir (sourceDir : π) (editable : Bool)

/-- `{vcs}+{url}@{commit}` -/
def vcsSpec (vcs url : Text) (commit : Option Text) : Text :=
  vcs ++ '+' :: url ++ ((given commit).map ('@' :: ·)).getD []

/-- `f"{raw_name} @ {spec}"` -/
def atSpec (rawName spec : Text) : Text := rawName ++ " @ ".toList ++ spec

/-- `_read_installer` -/
def readInstaller (h : Host π) (location : π) (entryName : Text) : Text :=
  ((h.read location [entryName, "INSTALLER".toList]).map fun text => h.lower (strip text)).getD []

/-- `_classify_from_direct_url` -/
def classifyFromDirectUrl (h : Host π) (location : π) (entryName rawName : Text) :
    Option (Classification π) :=
  match h.directUrl location entryName with
  | none => none
  | some directUrl =>
    let url := directUrl.url.getD []
    if readInstaller h location entryName = "conda".toList then none
    else if url = [] ∨ contains "pypoetry/artifacts".toList (toSlash url) = true then none
    else
      match directUrl.vcsInfo.bind fun info => (given info.vcs).map fun vcs => (vcs, info.commitId) with
      | some (vcs, commit) => some (.req (atSpec rawName (vcsSpec vcs url commit)))
      | none =>
        match directUrl.dirInfo with
        | some editable =>
          if h.isDir (h.fileUriToPath url) then
            some (.localDir (h.realPath (h.fileUriToPath url)) editable)
          else none
        | none =>
          if directUrl.archiveInfo = true ∧
              (urlScheme url = "http".toList ∨ urlScheme url = "https".toList) then
            some (.req (atSpec rawName url))
          else none

/-! ### Looking through the locations -/

structure Candidate (π : Type*) where
  locationIndex : ℕ
  location : π
  entryName : Text

/-- `_paths_from_pth_file` -/
def pathsFromPthFile (h : Host π) (location : π) (entryName : Text) : List π :=
  match h.read location [entryName] with
  | none => []
  | some text =>
    (((splitLines text).map strip).filter fun line =>
        !(line.isEmpty || startsWith ['#'] line || startsWith "import ".toList line ||
          startsWith "import\t".toList line || line == ['.'])).filterMap fun line =>
      if h.isDir (h.resolve location line) then some (h.resolve location line) else none

/-- `_egg_link_target` -/
def eggLinkTarget (h : Host π) (location : π) (entryName : Text) : Option π :=
  (h.read location [entryName]).bind fun text =>
    if strip (before '\n' text) = [] then none
    else some (h.resolve location (strip (before '\n' text)))

/-- What has been found, and what is still to be looked through. -/
structure Found (π : Type*) where
  metadataCandidates : List (Candidate π)
  eggLinkRoots : Dict Text π
  scanQueue : List (π × Bool)
  seenLocations : List π

/-- Names that are passed over. -/
def isHidden (entryName : Text) : Bool := startsWith ['~'] entryName || startsWith ['.'] entryName

def isMetadata (entryName : Text) : Bool := endsWith distInfo entryName || endsWith eggInfo entryName

/-- How many directories of a queue may let it grow. -/
def growth (queue : List (π × Bool)) : ℕ := queue.countP Prod.snd

section Scan

variable [DecidableEq π]

/-- A directory comes to the queue, unless it has been there. -/
def Found.graft (f : Found π) (directory : π) : Found π :=
  if directory ∈ f.seenLocations then f
  else
    { f with
      scanQueue := f.scanQueue ++ [(directory, false)]
      seenLocations := f.seenLocations ++ [directory] }

/-- One entry of a directory. -/
def scanEntry (h : Host π) (index : ℕ) (location : π) (mayExpand : Bool) (f : Found π)
    (entryName : Text) : Found π :=
  if isHidden entryName then f
  else if isMetadata entryName then
    { f with metadataCandidates := f.metadataCandidates ++ [⟨index, location, entryName⟩] }
  else if mayExpand && endsWith pth entryName then
    (pathsFromPthFile h location entryName).foldl Found.graft f
  else if mayExpand && endsWith eggLink entryName then
    match eggLinkTarget h location entryName with
    | none => f
    | some target =>
      let f := { f with eggLinkRoots :=
        f.eggLinkRoots.set (canonical h.lower (dropEnd eggLink entryName)) target }
      if h.isDir target then f.graft target else f
  else f

lemma growth_graft (f : Found π) (directory : π) :
    growth (f.graft directory).scanQueue = growth f.scanQueue := by
  rw [Found.graft]
  split_ifs
  · rfl
  · rw [growth, List.countP_append]
    rfl

lemma growth_scanEntry (h : Host π) (index : ℕ) (location : π) (mayExpand : Bool) (f : Found π)
    (entryName : Text) :
    growth (scanEntry h index location mayExpand f entryName).scanQueue = growth f.scanQueue := by
  have hall : ∀ (directories : List π) (f : Found π),
      growth (directories.foldl Found.graft f).scanQueue = growth f.scanQueue := by
    intro directories
    induction directories with
    | nil => exact fun _ => rfl
    | cons d ds ih => exact fun f => (ih _).trans (growth_graft f d)
  rw [scanEntry]
  split_ifs
  · rfl
  · rfl
  · exact hall _ _
  · split
    · rfl
    · split_ifs
      · exact growth_graft _ _
      · rfl
  · rfl

lemma growth_foldl (h : Host π) (index : ℕ) (location : π) (mayExpand : Bool)
    (entryNames : List Text) (f : Found π) :
    growth (entryNames.foldl (scanEntry h index location mayExpand) f).scanQueue =
      growth f.scanQueue := by
  induction entryNames generalizing f with
  | nil => rfl
  | cons e es ih => exact (ih _).trans (growth_scanEntry h index location mayExpand f e)

/-- A directory that may not expand leaves the queue alone. -/
lemma scanQueue_foldl_false (h : Host π) (index : ℕ) (location : π) (entryNames : List Text)
    (f : Found π) :
    (entryNames.foldl (scanEntry h index location false) f).scanQueue = f.scanQueue := by
  induction entryNames generalizing f with
  | nil => rfl
  | cons e es ih =>
    rw [List.foldl_cons, ih, scanEntry]
    split_ifs with _ _ hfalse hfalse
    · rfl
    · rfl
    · exact absurd hfalse Bool.false_ne_true
    · exact absurd hfalse Bool.false_ne_true
    · rfl

/-- The directories of the queue are looked through, with those that come to it. -/
def scanLoop (h : Host π) (listed : π → List Text) (index : ℕ) (f : Found π) : Found π :=
  match hqueue : f.scanQueue with
  | [] => f
  | (location, mayExpand) :: queue =>
    scanLoop h listed (index + 1)
      ((listed location).foldl (scanEntry h index location mayExpand) { f with scanQueue := queue })
termination_by (growth f.scanQueue, f.scanQueue.length)
decreasing_by
  rw [growth_foldl, hqueue]
  cases mayExpand with
  | true =>
    refine Prod.Lex.left _ _ ?_
    show growth queue < growth ((location, true) :: queue)
    rw [growth, growth, List.countP_cons_of_pos rfl]
    exact Nat.lt_succ_self _
  | false =>
    rw [scanQueue_foldl_false]
    exact Prod.Lex.right _ (Nat.lt_succ_self _)

/-! ### Which copy is taken -/

/-- The distributions that are taken, and from which location each is, with whether as an
egg-info. -/
structure Scanned (π : Type*) where
  requirements : Dict Text Text
  localDists : Dict Text π
  chosenFrom : Dict Text (ℕ × Bool)

/-- Whether another copy has been taken that this one does not replace. -/
def isShadowed (previous : Option (ℕ × Bool)) (locationIndex : ℕ) (isDistInfo : Bool) : Bool :=
  match previous with
  | none => false
  | some (previousIndex, previousWasEggInfo) =>
    !(previousIndex == locationIndex && previousWasEggInfo && isDistInfo)

/-- How a copy is classified, when its distribution is not linked to. -/
def classify (h : Host π) (location : π) (entryName rawName : Text) : Option (Classification π) :=
  if endsWith distInfo entryName then classifyFromDirectUrl h location entryName rawName else none

/-- A copy is written in place of another one. -/
def Scanned.take (s : Scanned π) (name rawName version : Text) (index : ℕ) (isDistInfo : Bool)
    (classification : Option (Classification π)) : Scanned π :=
  let s := { s with
    chosenFrom := s.chosenFrom.set name (index, !isDistInfo)
    requirements := s.requirements.pop name
    localDists := s.localDists.pop name }
  match classification with
  | none => { s with requirements := s.requirements.set name (versionPin rawName version) }
  | some (.req spec) => { s with requirements := s.requirements.set name spec }
  | some (.localDir sourceDir _) => { s with localDists := s.localDists.set name sourceDir }

/-- One candidate. -/
def addCandidate (h : Host π) (eggLinkRoots : Dict Text π) (s : Scanned π) (c : Candidate π) :
    Scanned π :=
  match nameVersion h c.location c.entryName with
  | none => s
  | some (rawName, version) =>
    let isDistInfo := endsWith distInfo c.entryName
    let name := canonical h.lower rawName
    if isExcluded name then s
    else if isShadowed (s.chosenFrom.get name) c.locationIndex isDistInfo then s
    else
      s.take name rawName version c.locationIndex isDistInfo <|
        match eggLinkRoots.get name with
        | some root => some (.localDir root true)
        | none => classify h c.location c.entryName rawName

/-- `_scan` -/
def scan (h : Host π) (listed : π → List Text) (locations : List π) : Scanned π :=
  let found := scanLoop h listed 0 ⟨[], .empty, locations.map (·, true), locations⟩
  found.metadataCandidates.foldl (addCandidate h found.eggLinkRoots) ⟨.empty, .empty, .empty⟩

end Scan

end Burla.Env
