/-
How staged packages are merged into the environment of a worker (`_merge_stage` in
worker_server.py).

Each package is staged in a directory of its own, and the directories are merged one after another.
They and the environment are given by their locations, so no link is on the way to them; below them
there may be links to anywhere.  An entry of a stage is looked at as it was when its directory was
read.  The recursion is on fuel: when it runs out there is no result, as after a failed call.
-/
import Burla.Lib.FileSystem

namespace Burla.Env

open Posix (Location Entry Name FileSystem)

/-- `_remove_path` -/
def removePath (path : Location) (fs : FileSystem) : Option FileSystem :=
  if fs.islink path || !fs.isdir path then fs.unlink path else fs.rmtree path

/-- One entry of the loop of `_merge_stage`. -/
def mergeEntry (mergeStage : Location → Location → FileSystem → Option FileSystem) (entry : Entry)
    (sourcePath destinationPath : Location) (fs : FileSystem) : Option FileSystem :=
  match entry with
  | .link _ =>
    (if fs.lexists destinationPath then removePath destinationPath fs else some fs).bind fun fs =>
      (fs.readlink sourcePath).bind fun target => fs.symlink target destinationPath
  | .directory =>
    let destinationIsNotDirectory := fs.islink destinationPath || !fs.isdir destinationPath
    (if fs.lexists destinationPath && destinationIsNotDirectory then removePath destinationPath fs
      else some fs).bind fun fs => mergeStage sourcePath destinationPath fs
  | .file _ =>
    (if fs.lexists destinationPath then removePath destinationPath fs else some fs).bind fun fs =>
      fs.link sourcePath destinationPath

/-- `_merge_stage` -/
def mergeStage (listing : FileSystem.Listing) :
    ℕ → Location → Location → FileSystem → Option FileSystem
  | 0, _, _, _ => none
  | fuel + 1, sourceDir, destinationDir, fs =>
    (fs.makedirs destinationDir).bind fun fs =>
      (fs.scandir listing sourceDir).bind fun entries =>
        entries.foldlM (fun fs entry => mergeEntry (mergeStage listing fuel) entry.2
          (sourceDir ++ [entry.1]) (destinationDir ++ [entry.1]) fs) fs

/-- The stages of an installation are merged. -/
def mergeStages (listing : FileSystem.Listing) (fuel : ℕ) (stages : List Location)
    (destinationDir : Location) (fs : FileSystem) : Option FileSystem :=
  stages.foldlM (fun fs stage => mergeStage listing fuel stage destinationDir fs) fs

end Burla.Env
