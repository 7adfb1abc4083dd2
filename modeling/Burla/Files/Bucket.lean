/-
The bucket behind the file manager (`S3BlobStore` in blobstore.py).

Texts are lists of characters.  Each call to the cloud is numbered; it may be refused, and its
answer may get lost after it has been done.  What is written over an object is recorded.
-/
import Burla.Lib.Dict
import Burla.Lib.Effects
import Mathlib.Data.List.Infix

namespace Burla.Files

abbrev Text := List Char

/-- What becomes of a call to the cloud. -/
inductive Outcome
  | done
  | refused
  /-- It has been done, and its answer is lost. -/
  | lost
  deriving DecidableEq

structure Bucket where
  objects : Dict Text (List UInt8)
  outcomes : ℕ → Outcome
  /-- How many calls there have been. -/
  calls : ℕ
  /-- The keys of objects that have been written over. -/
  overwritten : List Text

inductive FileError
  | blobNotFound (message : Text)
  | valueError (message : Text)
  | cloud
  deriving DecidableEq

abbrev Action (α : Type) := Effect FileError Bucket α

namespace Bucket

variable (b : Bucket)

def has (key : Text) : Bool := (b.objects.get key).isSome

/-- The keys that begin with a prefix. -/
def keysWith (pre : Text) : List Text := b.objects.keys.filter fun key => pre.isPrefixOf key

/-- An object is written. -/
def put (key : Text) (content : List UInt8) : Bucket :=
  { b with
    objects := b.objects.set key content
    overwritten := if b.has key then b.overwritten ++ [key] else b.overwritten }

def delete (key : Text) : Bucket := { b with objects := b.objects.pop key }

/-- `CopySource` -/
def copy (source destination : Text) : Bucket :=
  match b.objects.get source with
  | some content => b.put destination content
  | none => b

def tick : Bucket := { b with calls := b.calls + 1 }

end Bucket

/-- A call that changes the bucket. -/
def change (f : Bucket → Bucket) : Action Unit := fun b =>
  match b.outcomes b.calls with
  | .done => (.ok (), (f b).tick)
  | .refused => (.error .cloud, b.tick)
  | .lost => (.error .cloud, (f b).tick)

/-- A call that reads the bucket. -/
def ask {α : Type} (f : Bucket → α) : Action α := fun b =>
  match b.outcomes b.calls with
  | .done => (.ok (f b), b.tick)
  | .refused | .lost => (.error .cloud, b.tick)

/-- `get_blob_metadata`, as whether there is the object. -/
def getBlobMetadata (name : Text) : Action Bool := ask fun b => b.has name

/-- `list_prefix` -/
def listPrefix (pre : Text) : Action (List Text) := ask fun b => b.keysWith pre

/-- `list_prefix` with `max_results`. -/
def listSome (pre : Text) (maxResults : ℕ) : Action (List Text) :=
  ask fun b => (b.keysWith pre).take maxResults

def uploadEmpty (name : Text) : Action Unit := change fun b => b.put name []

/-- `rename`: a copy, and then the source is deleted. -/
def renameBlob (source destination : Text) : Action Unit := do
  if ← getBlobMetadata source then do
    change fun b => b.copy source destination
    change fun b => b.delete source
  else Effect.raise (.blobNotFound ('\'' :: source ++ "' not found".toList))

end Burla.Files
