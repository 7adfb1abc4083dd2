/-
File systems: directories, files and symbolic links, and the calls that read and change them.

An entry is known by its location: the names that lead to it from the root, through directories
only.  A call is given a path, and goes through the links on its way (`Posix.FileSystem.resolve`);
whether it goes through a link at the end depends on the call.  A call that fails gives nothing.

At a location that is there, no link is on the way: the calls find the entry itself
(`Posix.FileSystem.resolve_eq`, `Posix.FileSystem.last_concat`), and what they make of it is said by
the lemmas after them.
-/
import Burla.Lib.Overlay
import Burla.Lib.Paths
import Mathlib.Data.Set.Finite.Basic
import Mathlib.Data.Set.Finite.List
import Mathlib.Tactic.Common

namespace Posix

abbrev Text := List Char

/-! ### Names and entries -/

def IsName (t : Text) : Prop := t ≠ [] ∧ t ≠ ['.'] ∧ t ≠ ['.', '.'] ∧ '/' ∉ t

instance (t : Text) : Decidable (IsName t) :=
  inferInstanceAs (Decidable (t ≠ [] ∧ t ≠ ['.'] ∧ t ≠ ['.', '.'] ∧ '/' ∉ t))

abbrev Name := {t : Text // IsName t}

abbrev Location := List Name

inductive Entry
  /-- A file is known by its inode, which holds its content: no call here writes to one. -/
  | file (inode : ℕ)
  | link (target : Text)
  | directory
  deriving DecidableEq

/-- What there is at each location. -/
@[ext]
structure FileSystem where
  entry : Location → Option Entry
  root : entry [] = some .directory
  closed : Overlay.Closed .directory entry
  finite : {p | entry p ≠ none}.Finite

/-- A part of a path. -/
inductive Part
  | stay
  | up
  | down (name : Name)

def part (t : Text) : Part :=
  if t = ['.', '.'] then .up else if h : IsName t then .down ⟨t, h⟩ else .stay

def parts (t : Text) : List Part := (Path.segments '/' t).map part

/-! ### Resolution -/

/-- The way from a directory, up to the first link: from there it goes on by `onLink`. -/
def walk (entry : Location → Option Entry) (onLink : Location → List Part → Option Location) :
    Location → List Part → Option Location
  | dir, [] => some dir
  | dir, .stay :: rest => walk entry onLink dir rest
  | dir, .up :: rest => walk entry onLink dir.dropLast rest
  | dir, .down name :: rest =>
    match entry (dir ++ [name]) with
    | none => none
    | some (.file _) => if rest.isEmpty then some (dir ++ [name]) else none
    | some (.link target) =>
      onLink (if target.head? = some '/' then [] else dir) (parts target ++ rest)
    | some .directory => walk entry onLink (dir ++ [name]) rest

/-- The way through so many links. -/
def follow (entry : Location → Option Entry) : ℕ → Location → List Part → Option Location
  | 0 => walk entry fun _ _ => none
  | n + 1 => walk entry (follow entry n)

def maxLinks : ℕ := 40

namespace FileSystem

variable (fs : FileSystem)

/-- What there is below a location. -/
def below (p : Location) : Overlay.Tree Name Entry := fun q => fs.entry (p ++ q)

/-- The location that a path leads to. -/
def resolve (p : Location) : Option Location := follow fs.entry maxLinks [] (p.map .down)

/-- The directory in which the last name of a path is looked up, and this name. -/
def last (p : Location) : Option (Location × Name) :=
  p.getLast?.bind fun name => (fs.resolve p.dropLast).map fun dir => (dir, name)

/-! ### Reading -/

def stat (p : Location) : Option Entry := (fs.resolve p).bind fs.entry

/-- The entry at a path, which may be a link. -/
def lstat (p : Location) : Option Entry :=
  if p = [] then fs.entry [] else (fs.last p).bind fun l => fs.entry (l.1 ++ [l.2])

def pathExists (p : Location) : Bool := (fs.stat p).isSome

def lexists (p : Location) : Bool := (fs.lstat p).isSome

def isdir (p : Location) : Bool := decide (fs.stat p = some .directory)

def readlink (p : Location) : Option Text :=
  match fs.lstat p with
  | some (.link target) => some target
  | _ => none

def islink (p : Location) : Bool := (fs.readlink p).isSome

/-- In which order a host lists directories. -/
abbrev Listing := FileSystem → Location → List (Name × Entry)

/-- A directory is listed completely, each name once. -/
def Lists (listing : Listing) : Prop :=
  ∀ fs dir, ((listing fs dir).map Prod.fst).Nodup ∧
    ∀ name e, (name, e) ∈ listing fs dir ↔ fs.entry (dir ++ [name]) = some e

lemma finite_entries (dir : Location) :
    {l : Name × Entry | fs.entry (dir ++ [l.1]) = some l.2}.Finite := by
  refine Set.Finite.of_injOn (f := fun l => dir ++ [l.1]) (fun l hl => ?_) ?_ fs.finite
  · rw [Set.mem_ofPred_eq] at hl ⊢
    rw [hl]
    exact Option.some_ne_none _
  · rintro ⟨x, e⟩ hl ⟨x', e'⟩ hl' heq
    rw [Set.mem_ofPred_eq] at hl hl'
    beta_reduce at heq
    rw [heq, hl'] at hl
    exact Prod.ext (List.singleton_inj.1 (List.append_cancel_left heq)) (Option.some.inj hl).symm

/-- A directory listed in some order. -/
noncomputable def anyListing : Listing := fun fs dir => (fs.finite_entries dir).toFinset.toList

lemma lists_anyListing : Lists anyListing := by
  intro fs dir
  have hmem : ∀ l, l ∈ anyListing fs dir ↔ fs.entry (dir ++ [l.1]) = some l.2 := by
    intro l
    rw [anyListing, Finset.mem_toList, Set.Finite.mem_toFinset, Set.mem_ofPred_eq]
  refine ⟨List.Nodup.map_on (fun l hl l' hl' heq => ?_) (Finset.nodup_toList _),
    fun x e => hmem (x, e)⟩
  rw [hmem, heq] at hl
  exact Prod.ext heq (Option.some.inj (hl.symm.trans ((hmem l').1 hl')))

def scandir (listing : Listing) (p : Location) : Option (List (Name × Entry)) :=
  (fs.resolve p).bind fun dir =>
    if fs.entry dir = some .directory then some (listing fs dir) else none

/-! ### Changes -/

section Changes

variable {fs} {dir : Location} {name : Name}

lemma add_closed (hdir : fs.entry dir = some .directory)
    (habsent : fs.entry (dir ++ [name]) = none) (e : Entry) :
    Overlay.Closed .directory fun p => if p = dir ++ [name] then some e else fs.entry p := by
  intro p x hx
  beta_reduce at hx ⊢
  by_cases hp : p = dir ++ [name]
  · -- Nothing is below an absent entry.
    rw [hp] at hx
    have hne : dir ++ [name] ++ [x] ≠ dir ++ [name] := by simp
    rw [if_neg hne] at hx
    cases habsent.symm.trans (fs.closed _ _ hx)
  · rw [if_neg hp]
    by_cases hpx : p ++ [x] = dir ++ [name]
    · rw [(List.append_inj' hpx rfl).1]
      exact hdir
    · rw [if_neg hpx] at hx
      exact fs.closed p x hx

lemma add_finite (fs : FileSystem) (loc : Location) (e : Entry) :
    {p | (if p = loc then some e else fs.entry p) ≠ none}.Finite := by
  refine (fs.finite.insert loc).subset fun p hp => ?_
  by_cases hloc : p = loc
  · exact .inl hloc
  · exact .inr (by rwa [Set.mem_ofPred_eq, if_neg hloc] at hp)

lemma without_closed (fs : FileSystem) (loc : Location) :
    Overlay.Closed .directory fun p => if loc <+: p then none else fs.entry p := by
  intro p x hx
  beta_reduce at hx ⊢
  by_cases hpx : loc <+: p ++ [x]
  · rw [if_pos hpx] at hx
    exact absurd rfl hx
  · rw [if_neg hpx] at hx
    rw [if_neg fun hp => hpx (hp.trans (List.prefix_append p [x]))]
    exact fs.closed p x hx

lemma without_finite (fs : FileSystem) (loc : Location) :
    {p | (if loc <+: p then none else fs.entry p) ≠ none}.Finite := by
  refine fs.finite.subset fun p hp => ?_
  by_cases hloc : loc <+: p
  · rw [Set.mem_ofPred_eq, if_pos hloc] at hp
    exact absurd rfl hp
  · rwa [Set.mem_ofPred_eq, if_neg hloc] at hp

end Changes

lemma mem_table {table : List (Location × Entry)} {p : Location} {e : Entry}
    (h : (table.findSome? fun l => if l.1 = p then some l.2 else none) = some e) :
    (p, e) ∈ table := by
  obtain ⟨l, hl, hsome⟩ := List.exists_of_findSome?_eq_some h
  split_ifs at hsome with hp
  obtain rfl := Option.some.inj hsome
  exact hp ▸ hl

/-- The file system with the entries of a table. -/
def ofTable (table : List (Location × Entry))
    (hroot : (table.findSome? fun l => if l.1 = [] then some l.2 else none) = some .directory)
    (hclosed : ∀ l ∈ table, l.1 ≠ [] →
      (table.findSome? fun l' => if l'.1 = l.1.dropLast then some l'.2 else none) =
        some .directory) : FileSystem where
  entry p := table.findSome? fun l => if l.1 = p then some l.2 else none
  root := hroot
  closed p x hx := by
    obtain ⟨e, he⟩ := Option.ne_none_iff_exists'.1 hx
    have hparent := hclosed _ (mem_table he) (by simp)
    rwa [List.dropLast_concat] at hparent
  finite := by
    refine (List.finite_toSet (table.map Prod.fst)).subset fun p hp => ?_
    obtain ⟨e, he⟩ := Option.ne_none_iff_exists'.1 hp
    exact List.mem_map_of_mem (f := Prod.fst) (mem_table he)

/-- A new entry in a directory. -/
def add (dir : Location) (name : Name) (e : Entry) : Option FileSystem :=
  if h : fs.entry dir = some .directory ∧ fs.entry (dir ++ [name]) = none then
    some {
      entry := fun p => if p = dir ++ [name] then some e else fs.entry p
      root := by rw [if_neg (by simp), fs.root]
      closed := add_closed h.1 h.2 e
      finite := fs.add_finite (dir ++ [name]) e }
  else none

/-- An entry of a directory is removed, with everything below it. -/
def without (dir : Location) (name : Name) : FileSystem where
  entry p := if dir ++ [name] <+: p then none else fs.entry p
  root := by rw [if_neg (by simp), fs.root]
  closed := fs.without_closed (dir ++ [name])
  finite := fs.without_finite (dir ++ [name])

/-- A new entry at a path. -/
def create (p : Location) (e : Entry) : Option FileSystem :=
  (fs.last p).bind fun l => fs.add l.1 l.2 e

def mkdir (p : Location) : Option FileSystem := fs.create p .directory

def symlink (target : Text) (p : Location) : Option FileSystem := fs.create p (.link target)

/-- A second name for an entry, which is no directory; a link is not followed. -/
def link (source p : Location) : Option FileSystem :=
  match fs.lstat source with
  | none | some .directory => none
  | some e => fs.create p e

/-- An entry is removed; nothing is below it, since it is no directory. -/
def unlink (p : Location) : Option FileSystem :=
  (fs.last p).bind fun l =>
    match fs.entry (l.1 ++ [l.2]) with
    | none | some .directory => none
    | some _ => some (fs.without l.1 l.2)

/-- A directory is removed with everything below it; links are not followed. -/
def rmtree (p : Location) : Option FileSystem :=
  (fs.last p).bind fun l =>
    if fs.entry (l.1 ++ [l.2]) = some .directory then some (fs.without l.1 l.2) else none

/-- A directory is made, if it is not there. -/
def mkdirExistOk (p : Location) : Option FileSystem :=
  match fs.mkdir p with
  | some fs' => some fs'
  | none => if fs.isdir p then some fs else none

/-- A directory is made, with those above it; the path is given from its last name. -/
def makedirsUp : List Name → FileSystem → Option FileSystem
  | [], fs => fs.mkdirExistOk []
  | name :: up, fs =>
    (if up.isEmpty || fs.pathExists up.reverse then some fs else makedirsUp up fs).bind fun fs =>
      fs.mkdirExistOk (name :: up).reverse

/-- `makedirs`, where the directory may exist. -/
def makedirs (p : Location) : Option FileSystem := makedirsUp p.reverse fs

end FileSystem

/-! ### Locations that are there -/

section There

variable {fs : FileSystem} {onLink : Location → List Part → Option Location}
  {dir p q : Location} {name : Name} {e : Entry}

/-- No link is on the way to an entry, except perhaps itself. -/
lemma walk_eq (hq : fs.entry (dir ++ q) = some e) (he : ∀ target, e ≠ .link target) :
    walk fs.entry onLink dir (q.map .down) = some (dir ++ q) := by
  induction q generalizing dir with
  | nil => rw [List.map_nil, walk, List.append_nil]
  | cons name q ih =>
    have hsplit : dir ++ name :: q = dir ++ [name] ++ q := by simp
    rw [hsplit] at hq ⊢
    rw [List.map_cons, walk]
    by_cases hnil : q = []
    · subst hnil
      rw [List.append_nil] at hq ⊢
      rw [hq]
      cases e with
      | file inode => rfl
      | link target => exact absurd rfl (he target)
      | directory => rfl
    · have hdirectory : fs.entry (dir ++ [name]) = some .directory :=
        fs.closed.of_append hnil (Overlay.ne_none hq)
      rw [hdirectory]
      exact ih hq

namespace FileSystem

/-- **An entry is found at its location.** -/
lemma resolve_eq (hp : fs.entry p = some e) (he : ∀ target, e ≠ .link target) :
    fs.resolve p = some p := @walk_eq fs _ [] p e hp he

lemma resolve_directory (hp : fs.entry p = some .directory) : fs.resolve p = some p :=
  resolve_eq hp fun _ h => nomatch h

lemma stat_eq (hp : fs.entry p = some e) (he : ∀ target, e ≠ .link target) :
    fs.stat p = some e := by
  rw [stat, resolve_eq hp he, Option.bind_some, hp]

lemma isdir_directory (hp : fs.entry p = some .directory) : fs.isdir p = true := by
  rw [isdir, stat_eq hp fun _ h => nomatch h]
  rfl

lemma isdir_file {inode : ℕ} (hp : fs.entry p = some (.file inode)) : fs.isdir p = false := by
  rw [isdir, stat_eq hp fun _ h => nomatch h]
  exact decide_eq_false (by simp)

lemma pathExists_directory (hp : fs.entry p = some .directory) : fs.pathExists p = true := by
  rw [pathExists, stat_eq hp fun _ h => nomatch h]
  rfl

lemma scandir_directory {listing : Listing} (hp : fs.entry p = some .directory) :
    fs.scandir listing p = some (listing fs p) := by
  rw [scandir, resolve_directory hp, Option.bind_some, if_pos hp]

variable (hdir : fs.entry dir = some .directory)
include hdir

lemma last_concat : fs.last (dir ++ [name]) = some (dir, name) := by
  rw [last, List.getLast?_concat, List.dropLast_concat, resolve_directory hdir]
  rfl

lemma lstat_concat : fs.lstat (dir ++ [name]) = fs.entry (dir ++ [name]) := by
  rw [lstat, if_neg (by simp), last_concat hdir]
  rfl

lemma lexists_concat : fs.lexists (dir ++ [name]) = (fs.entry (dir ++ [name])).isSome := by
  rw [lexists, lstat_concat hdir]

lemma readlink_link {target : Text} (he : fs.entry (dir ++ [name]) = some (.link target)) :
    fs.readlink (dir ++ [name]) = some target := by
  rw [readlink, lstat_concat hdir, he]

lemma islink_link {target : Text} (he : fs.entry (dir ++ [name]) = some (.link target)) :
    fs.islink (dir ++ [name]) = true := by
  rw [islink, readlink_link hdir he]
  rfl

lemma islink_directory (he : fs.entry (dir ++ [name]) = some .directory) :
    fs.islink (dir ++ [name]) = false := by
  rw [islink, readlink, lstat_concat hdir, he]
  rfl

/-- A new entry changes nothing else. -/
lemma create_concat (habsent : fs.entry (dir ++ [name]) = none) (e : Entry) :
    ∃ fs', fs.create (dir ++ [name]) e = some fs' ∧
      ∀ p, fs'.entry p = if p = dir ++ [name] then some e else fs.entry p := by
  rw [create, last_concat hdir, Option.bind_some, add, dif_pos ⟨hdir, habsent⟩]
  exact ⟨_, rfl, fun _ => rfl⟩

lemma create_of_exists (hexists : fs.entry (dir ++ [name]) ≠ none) (e : Entry) :
    fs.create (dir ++ [name]) e = none := by
  rw [create, last_concat hdir, Option.bind_some, add, dif_neg fun h => hexists h.2]

lemma unlink_concat (he : fs.entry (dir ++ [name]) = some e) (hne : e ≠ .directory) :
    fs.unlink (dir ++ [name]) = some (fs.without dir name) := by
  rw [unlink, last_concat hdir, Option.bind_some, he]
  cases e with
  | file inode => rfl
  | link target => rfl
  | directory => exact absurd rfl hne

lemma rmtree_concat (he : fs.entry (dir ++ [name]) = some .directory) :
    fs.rmtree (dir ++ [name]) = some (fs.without dir name) := by
  rw [rmtree, last_concat hdir, Option.bind_some, if_pos he]

omit hdir

lemma create_root (e : Entry) : fs.create [] e = none := rfl

/-- `makedirs` leaves a directory that is there as it is, -/
lemma makedirs_directory (hp : fs.entry p = some .directory) : fs.makedirs p = some fs := by
  rw [makedirs]
  rcases List.eq_nil_or_concat p with rfl | ⟨up, name, rfl⟩
  · rw [List.reverse_nil, makedirsUp, mkdirExistOk, mkdir, create_root]
    exact if_pos (isdir_directory hp)
  · rw [List.concat_eq_append] at hp ⊢
    have hup : fs.entry up = some .directory :=
      fs.closed up name (Overlay.ne_none hp)
    rw [List.reverse_append, List.reverse_singleton, List.singleton_append, makedirsUp,
      List.reverse_reverse, pathExists_directory hup, Bool.or_true, if_pos rfl, Option.bind_some,
      List.reverse_cons, List.reverse_reverse, mkdirExistOk, mkdir,
      create_of_exists hup (Overlay.ne_none hp)]
    exact if_pos (isdir_directory hp)

/-- and makes one that is not there. -/
lemma makedirs_absent (hdir : fs.entry dir = some .directory)
    (habsent : fs.entry (dir ++ [name]) = none) :
    ∃ fs', fs.makedirs (dir ++ [name]) = some fs' ∧
      ∀ p, fs'.entry p = if p = dir ++ [name] then some .directory else fs.entry p := by
  obtain ⟨fs', hcreate, hentry⟩ := create_concat hdir habsent .directory
  refine ⟨fs', ?_, hentry⟩
  rw [makedirs, List.reverse_append, List.reverse_singleton, List.singleton_append, makedirsUp,
    List.reverse_reverse, pathExists_directory hdir, Bool.or_true, if_pos rfl, Option.bind_some,
    List.reverse_cons, List.reverse_reverse, mkdirExistOk, mkdir, hcreate]

end FileSystem

end There

end Posix
