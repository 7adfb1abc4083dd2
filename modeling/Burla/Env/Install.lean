/-
What a worker installs of the environment that a client asks for (`install_client_environment` in
worker_server.py).

The directory that it installs into is a list of entries, with what is read from the
`direct_url.json` of each.  A distribution that is not in it may still be importable: then it is
part of the image, and is left alone.
-/
import Burla.Env.Scan

namespace Burla.Env

/-- `text.split(sep, 1)[1]`, if the separator is in the text. -/
def splitAfter (sep : Text) : Text → Option Text
  | [] => none
  | c :: cs =>
    if startsWith sep (c :: cs) then some ((c :: cs).drop sep.length) else splitAfter sep cs

/-! ### What is installed -/

/-- The kind of a repository and the commit, if a distribution comes from one. -/
def DirectUrl.repository (directUrl : DirectUrl) : Option (Text × Option Text) :=
  directUrl.vcsInfo.bind fun info => (given info.vcs).map fun vcs => (vcs, info.commitId)

/-- The direct-url spec of a distribution. -/
def directUrlSpec (directUrl : DirectUrl) : Option Text :=
  match directUrl.repository with
  | some (vcs, commit) => some (vcsSpec vcs (directUrl.url.getD []) commit)
  | none => given (some (directUrl.url.getD []))

/-- The name of a directory, with its `direct_url.json`. -/
abbrev EnvEntry := Text × Option DirectUrl

/-- The canonical name, the version and the direct-url spec that an entry has. -/
def envDirDist (lower : Text → Text) (entry : EnvEntry) :
    Option (Text × Text × Option Text) :=
  if isHidden entry.1 || !endsWith distInfo entry.1 then none
  else
    let (name, version) := rpartition '-' (dropEnd distInfo entry.1)
    if name = [] then none
    else some (canonical lower name, before '+' version, entry.2.bind directUrlSpec)

/-- `env_dir_distributions` -/
def envDirDistributions (lower : Text → Text) (entries : List EnvEntry) :
    Dict Text (Text × Option Text) :=
  (entries.filterMap (envDirDist lower)).foldl (fun dists e => dists.set e.1 e.2) .empty

/-! ### What is to be installed -/

/-- What is installed, and what is uninstalled before. -/
structure Install where
  packagesToInstall : List (Text × Text)
  packagesToUninstall : List Text
  deriving DecidableEq

def atSign : Text := " @ ".toList

def twoEquals : Text := "==".toList

/-- Whether a package is not there as it is required; without a version to compare with, an
`IndexError`. -/
def needsInstall (importable : Text → Bool) (envDirDist : Option (Text × Option Text))
    (packageName requirement : Text) : Option Bool :=
  match envDirDist with
  | none => some (!importable packageName)
  | some (version, spec) =>
    if contains atSign requirement then
      (splitAfter atSign requirement).map fun requestedSpec => decide (spec ≠ some requestedSpec)
    else
      (splitAfter twoEquals requirement).map fun requestedVersion =>
        (given spec).isSome || decide (version ≠ requestedVersion)

/-- One package. -/
def addPackage (importable : Text → Bool) (dists : Dict Text (Text × Option Text)) (i : Install)
    (package : Text × Text) : Option Install :=
  (needsInstall importable (dists.get package.1) package.1 package.2).map fun needs =>
    if needs then
      { packagesToInstall := i.packagesToInstall ++ [package]
        packagesToUninstall := i.packagesToUninstall ++
          if (dists.get package.1).isSome then [package.1] else [] }
    else i

/-- `sort(key=lambda item: item[0] != "pyspark")` -/
def pysparkFirst (packages : List (Text × Text)) : List (Text × Text) :=
  packages.filter (fun package => decide (package.1 = "pyspark".toList)) ++
    packages.filter (fun package => !decide (package.1 = "pyspark".toList))

/-- What `install_client_environment` decides to do; nothing at all when both lists are empty. -/
def installClientEnvironment (lower : Text → Text) (importable : Text → Bool)
    (entries : List EnvEntry) (packages : Dict Text Text) : Option Install :=
  (packages.items.foldlM (addPackage importable (envDirDistributions lower entries)) ⟨[], []⟩).map
    fun i => { i with packagesToInstall := pysparkFirst i.packagesToInstall }

end Burla.Env
