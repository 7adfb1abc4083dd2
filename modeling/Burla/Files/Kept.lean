/-
What requests to the file manager leave of the objects in the bucket.

The main result is `Burla.Files.kept_iff`: a create, move or rename request keeps every object,
under its own key or where it takes it, also when it fails part-way, except for renaming a file to
the name of another one: the name is not checked there, as it is by the other actions, and the
other file is written over.
-/
import Burla.Files.Actions
import Mathlib.Logic.Relation

namespace Burla.Files

/-! ### The claim and the condition -/

/-- Where an item takes an object. -/
def Item.Relocates (item : Item) (source destination k k' : Text) : Prop :=
  if item.isFileEntry then k = source ∧ k' = destination
  else ∃ rest, k = source ++ ['/'] ++ rest ∧ k' = destination ++ ['/'] ++ rest

/-- Where a request takes an object. -/
def Request.Relocates : Request → Text → Text → Prop
  | create _, _, _ => False
  | move payload, k, k' =>
    ∃ item ∈ payload.items, ∃ name target,
      item.name = some name ∧ payload.targetPath = some target ∧
      item.Relocates (normalizeDirectoryPath payload.path ++ name)
        (normalizeDirectoryPath (some target) ++ name) k k'
  | rename payload, k, k' =>
    ∃ item rest name newName,
      payload.data = item :: rest ∧ item.name = some name ∧ payload.newName = some newName ∧
      item.Relocates (normalizeDirectoryPath payload.path ++ name)
        (normalizeDirectoryPath payload.path ++ newName) k k'

/-- Every object has its content where it was or where the request has taken it, and none has been
written over. -/
structure Kept (request : Request) (b t : Bucket) : Prop where
  content : ∀ k c, b.objects.get k = some c →
    ∃ k', Relation.ReflTransGen request.Relocates k k' ∧ t.objects.get k' = some c
  overwritten : t.overwritten = b.overwritten

/-- The names that the validators accept. -/
def ValidName (name : Text) : Prop :=
  name ≠ [] ∧ '/' ∉ name ∧ name ≠ ['.'] ∧ name ≠ ['.', '.']

/-- A file is renamed to the name of another one, and the cloud answers the lookup and does the
copy. -/
def Request.Overwrites (b : Bucket) : Request → Prop
  | rename payload =>
    ∃ item rest name newName,
      payload.data = item :: rest ∧ item.name = some name ∧ payload.newName = some newName ∧
      ValidName name ∧ ValidName newName ∧ name ≠ newName ∧ item.isFileEntry = true ∧
      b.has (normalizeDirectoryPath payload.path ++ name) = true ∧
      b.has (normalizeDirectoryPath payload.path ++ newName) = true ∧
      b.outcomes b.calls = .done ∧ b.outcomes (b.calls + 1) ≠ .refused
  | _ => False

/-! ### Calls to the cloud -/

section Calls

variable {P E : Bucket → Prop}

/-- A reading call changes nothing but the number of calls. -/
lemma triple_ask {α : Type} {f : Bucket → α} (hP : ∀ s, P s → P s.tick) (hE : ∀ s, P s → E s)
    (hf : ∀ s, f s.tick = f s) : Effect.Triple P (ask f) (fun a s => P s ∧ a = f s) E := by
  intro s hs
  unfold ask
  cases s.outcomes s.calls with
  | done => exact ⟨hP s hs, (hf s).symm⟩
  | refused => exact hE _ (hP s hs)
  | lost => exact hE _ (hP s hs)

/-- A changing call is done or not, whatever the answer is. -/
lemma triple_change {Q : Bucket → Prop} {f : Bucket → Bucket} (hf : ∀ s, P s → Q (f s).tick)
    (hP : ∀ s, P s → E s.tick) (hQ : ∀ s, Q s → E s) :
    Effect.Triple P (change f) (fun _ => Q) E := by
  intro s hs
  unfold change
  cases s.outcomes s.calls with
  | done => exact hf s hs
  | refused => exact hP s hs
  | lost => exact hQ _ (hf s hs)

lemma triple_metadata {name : Text} (hP : ∀ s, P s → P s.tick) (hE : ∀ s, P s → E s) :
    Effect.Triple P (getBlobMetadata name) (fun a s => P s ∧ a = s.has name) E :=
  triple_ask hP hE fun _ => rfl

lemma has_eq_false {b : Bucket} {key : Text} : b.has key = false ↔ b.objects.get key = none := by
  rw [Bucket.has, Option.isSome_eq_false_iff, Option.isNone_iff_eq_none]

/-- There is no key that begins with the prefix. -/
def Free (pre : Text) (b : Bucket) : Prop := ∀ rest, b.objects.get (pre ++ rest) = none

lemma mem_keysWith {b : Bucket} {pre key : Text} :
    key ∈ b.keysWith pre ↔ pre <+: key ∧ b.objects.get key ≠ none := by
  rw [Bucket.keysWith, List.mem_filter, List.isPrefixOf_iff_prefix, ne_eq, Dict.get_eq_none,
    not_not, and_comm]

lemma nodup_keysWith {b : Bucket} {pre : Text} : (b.keysWith pre).Nodup :=
  b.objects.nodup.sublist List.filter_sublist

/-- Two keys are enough to see one below the folder. -/
lemma free_of_take {b : Bucket} {pre : Text} (hpre : b.has pre = false)
    (hnames : (((b.keysWith pre).take 2).any fun name => name ≠ pre) = false) : Free pre b := by
  have hnil : b.keysWith pre = [] := by
    cases hkeys : b.keysWith pre with
    | nil => rfl
    | cons key keys =>
      rw [hkeys, List.any_eq_false] at hnames
      have hkey : key = pre := by simpa using hnames key List.mem_cons_self
      have hmem : key ∈ b.keysWith pre := by
        rw [hkeys]
        exact List.mem_cons_self
      exact absurd (hkey ▸ has_eq_false.1 hpre) (mem_keysWith.1 hmem).2
  intro rest
  by_contra hne
  have hmem : pre ++ rest ∈ b.keysWith pre := mem_keysWith.2 ⟨List.prefix_append _ _, hne⟩
  rw [hnil] at hmem
  cases hmem

/-- **`folder_exists` sees every key below the folder.** -/
lemma triple_folderExists {pre : Text} (hP : ∀ s, P s → P s.tick) (hE : ∀ s, P s → E s) :
    Effect.Triple P (folderExists pre) (fun a s => P s ∧ (a = false → Free pre s)) E := by
  refine (triple_metadata hP hE).bind fun a => ?_
  cases a with
  | true => exact Effect.Triple.pure fun s hs => ⟨hs.1, nofun⟩
  | false =>
    refine (triple_ask (fun s hs => ⟨hP s hs.1, hs.2⟩) (fun s hs => hE s hs.1) fun _ => rfl).bind
      fun names => ?_
    refine Effect.Triple.pure ?_
    rintro s ⟨⟨hs, hpre⟩, rfl⟩
    exact ⟨hs, free_of_take hpre.symm⟩

/-- The copy leaves the other keys alone, and the object in both places. -/
lemma get_copy {b : Bucket} {source destination key : Text} (hsource : b.has source = true) :
    (b.copy source destination).objects.get key =
      if key = destination then b.objects.get source else b.objects.get key := by
  obtain ⟨c, hc⟩ := Option.isSome_iff_exists.1 hsource
  simp only [Bucket.copy, hc, Bucket.put, Dict.get_set]

lemma get_copy_of_ne {b : Bucket} {source destination key : Text} (h : key ≠ destination) :
    (b.copy source destination).objects.get key = b.objects.get key := by
  unfold Bucket.copy
  split
  · exact Dict.get_set_of_ne h
  · rfl

lemma get_delete_of_none {b : Bucket} {source key : Text} (h : b.objects.get key = none) :
    (b.delete source).objects.get key = none := by
  rw [Bucket.delete, Dict.get_pop, h, ite_self]

lemma overwritten_copy {b : Bucket} {source destination : Text}
    (hdestination : b.objects.get destination = none) :
    (b.copy source destination).overwritten = b.overwritten := by
  unfold Bucket.copy
  split
  · exact if_neg (by rw [has_eq_false.2 hdestination]; exact Bool.false_ne_true)
  · rfl

end Calls

/-! ### Objects on their way -/

section Moving

variable {request : Request} {b : Bucket} {source destination : Text}

lemma Kept.refl (request : Request) (b : Bucket) : Kept request b b :=
  ⟨fun k _ h => ⟨k, .refl, h⟩, rfl⟩

/-- An object that is in both places may be deleted where it came from. -/
lemma Kept.delete {s : Bucket} (h : Kept request b s) (hne : source ≠ destination)
    (hrel : request.Relocates source destination)
    (hboth : s.objects.get destination = s.objects.get source) :
    Kept request b (s.delete source) where
  content k c hk := by
    obtain ⟨k', hreach, hk'⟩ := h.content k c hk
    by_cases hsource : k' = source
    · subst hsource
      refine ⟨destination, hreach.tail hrel, ?_⟩
      rw [Bucket.delete, Dict.get_pop, if_neg (Ne.symm hne), hboth, hk']
    · exact ⟨k', hreach, by rw [Bucket.delete, Dict.get_pop, if_neg hsource, hk']⟩
  overwritten := h.overwritten

lemma Kept.copy {s : Bucket} (h : Kept request b s) (hsource : s.has source = true)
    (hdestination : s.objects.get destination = none) :
    Kept request b (s.copy source destination) where
  content k c hk := by
    obtain ⟨k', hreach, hk'⟩ := h.content k c hk
    refine ⟨k', hreach, ?_⟩
    rw [get_copy hsource, if_neg, hk']
    rintro rfl
    rw [hdestination] at hk'
    cases hk'
  overwritten := (overwritten_copy hdestination).trans h.overwritten

/-- **Renaming to a key that is free keeps every object, at every point where it can fail.** -/
lemma triple_renameBlob {F : Bucket → Prop} (hrel : request.Relocates source destination)
    (hF : ∀ s, F s → F s.tick) (hcopy : ∀ s, F s → F (s.copy source destination))
    (hdelete : ∀ s, F s → F (s.delete source)) :
    Effect.Triple (fun s => (Kept request b s ∧ s.objects.get destination = none) ∧ F s)
      (renameBlob source destination) (fun _ s => Kept request b s ∧ F s) (Kept request b) := by
  have hkept : ∀ s : Bucket, Kept request b s → Kept request b s.tick :=
    fun s hs => ⟨hs.content, hs.overwritten⟩
  refine (triple_metadata (fun s hs => ⟨⟨hkept s hs.1.1, hs.1.2⟩, hF s hs.2⟩)
    fun s hs => hs.1.1).bind fun a => ?_
  cases a with
  | false => exact Effect.Triple.raise fun s hs => hs.1.1.1
  | true =>
    -- Between the copy and the deletion the object is in both places.
    refine Effect.Triple.bind (Q := fun _ s => ((Kept request b s ∧ source ≠ destination) ∧
      s.objects.get destination = s.objects.get source) ∧ F s) (triple_change ?_ ?_ ?_)
      fun _ => triple_change ?_ ?_ ?_
    · rintro s ⟨⟨⟨hs, hfree⟩, hf⟩, hsource⟩
      have hne : source ≠ destination := by
        rintro rfl
        rw [has_eq_false.2 hfree] at hsource
        cases hsource
      refine ⟨⟨⟨hkept _ (hs.copy hsource.symm hfree), hne⟩, ?_⟩, hF _ (hcopy s hf)⟩
      show (s.copy source destination).objects.get destination =
        (s.copy source destination).objects.get source
      rw [get_copy hsource.symm, get_copy hsource.symm, if_pos rfl, if_neg hne]
    · exact fun s hs => hkept s hs.1.1.1
    · exact fun s hs => hs.1.1.1
    · exact fun s hs => ⟨hkept _ (hs.1.1.1.delete hs.1.1.2 hrel hs.1.2), hF _ (hdelete s hs.2)⟩
    · exact fun s hs => hkept s hs.1.1.1
    · exact fun s hs => hs.1

/-- **Moving a prefix to one that is free keeps every object.** -/
lemma triple_movePrefix (hrel : ∀ rest, request.Relocates (source ++ rest) (destination ++ rest)) :
    Effect.Triple (fun s => Kept request b s ∧ Free destination s) (movePrefix source destination)
      (fun _ => Kept request b) (Kept request b) := by
  have htick : ∀ s : Bucket, Kept request b s → Kept request b s.tick :=
    fun s hs => ⟨hs.content, hs.overwritten⟩
  refine (triple_ask (fun s hs => ⟨htick s hs.1, hs.2⟩) (fun s hs => hs.1) fun _ => rfl).bind
    fun names => ?_
  -- The keys to come are different, and each has its place free.
  refine Effect.Triple.mono (W := fun s => Kept request b s ∧ names.Nodup ∧
      (∀ name ∈ names, source <+: name) ∧
      ∀ name ∈ names, s.objects.get (destination ++ name.drop source.length) = none)
    (Effect.Triple.forEach (I := fun names s => Kept request b s ∧ names.Nodup ∧
      (∀ name ∈ names, source <+: name) ∧
      ∀ name ∈ names, s.objects.get (destination ++ name.drop source.length) = none) ?_ names)
    ?_ (fun _ s hs => hs.1) fun s hs => hs
  · rintro name names s ⟨hs, hnodup, hprefixes, hfree⟩
    obtain ⟨hnotin, hrest⟩ := List.nodup_cons.1 hnodup
    obtain ⟨rest, rfl⟩ := hprefixes name List.mem_cons_self
    have hprefixes' : ∀ name ∈ names, source <+: name :=
      fun name hname => hprefixes name (List.mem_cons_of_mem _ hname)
    rw [List.drop_left]
    refine Effect.Triple.mono (triple_renameBlob (F := fun s => ∀ name ∈ names,
      s.objects.get (destination ++ name.drop source.length) = none) (hrel rest)
      (fun _ h => h) ?_ ?_) (fun _ h => h)
      (fun _ t ht => ⟨ht.1, hrest, hprefixes', ht.2⟩) (fun _ h => h) s ⟨⟨hs, ?_⟩, ?_⟩
    · intro s h name hname
      obtain ⟨rest', rfl⟩ := hprefixes' name hname
      rw [get_copy_of_ne, h _ hname]
      rw [List.drop_left]
      rintro heq
      rw [List.append_cancel_left heq] at hname
      exact hnotin hname
    · exact fun s h name hname => get_delete_of_none (h name hname)
    · have hdestination := hfree _ List.mem_cons_self
      rwa [List.drop_left] at hdestination
    · exact fun name hname => hfree name (List.mem_cons_of_mem _ hname)
  · rintro s ⟨⟨hs, hfree⟩, rfl⟩
    exact ⟨hs, nodup_keysWith, fun name hname => (mem_keysWith.1 hname).1, fun name _ => hfree _⟩

/-- A file that is moved to a key where there is none. -/
lemma triple_renameBlob_free (hrel : request.Relocates source destination) :
    Effect.Triple (fun s => Kept request b s ∧ s.objects.get destination = none)
      (renameBlob source destination) (fun _ => Kept request b) (Kept request b) :=
  Effect.Triple.mono (triple_renameBlob (F := fun _ => True) hrel (fun _ h => h) (fun _ h => h)
    fun _ h => h) (fun _ h => ⟨h, trivial⟩) (fun _ _ h => h.1) fun _ h => h

end Moving

/-! ### The actions -/

section Actions

variable {request : Request} {b : Bucket}

lemma Kept.tick {s : Bucket} (hs : Kept request b s) : Kept request b s.tick :=
  ⟨hs.content, hs.overwritten⟩

lemma Kept.put {s : Bucket} {key : Text} {content : List UInt8} (hs : Kept request b s)
    (hkey : s.objects.get key = none) : Kept request b (s.put key content) where
  content k c hk := by
    obtain ⟨k', hreach, hk'⟩ := hs.content k c hk
    refine ⟨k', hreach, (Dict.get_set_of_ne ?_).trans hk'⟩
    rintro rfl
    rw [hkey] at hk'
    cases hk'
  overwritten := by
    refine (if_neg ?_).trans hs.overwritten
    rw [has_eq_false.2 hkey]
    exact Bool.false_ne_true

lemma triple_validateEntryName {P E : Bucket → Prop} {name : Option Text} (hE : ∀ s, P s → E s) :
    Effect.Triple P (validateEntryName name) (fun a s => P s ∧ name = some a ∧ ValidName a) E := by
  unfold validateEntryName
  split
  · exact Effect.Triple.raise hE
  · exact Effect.Triple.raise hE
  · rename_i name hne
    split_ifs with hslash hdots
    · exact Effect.Triple.raise hE
    · exact Effect.Triple.raise hE
    · refine Effect.Triple.pure fun s h => ⟨h, rfl, ?_, hslash, ?_, ?_⟩
      · rintro rfl
        exact hne rfl
      · exact fun h => hdots (.inl h)
      · exact fun h => hdots (.inr h)

/-- A new folder's object is at a key where there is none. -/
lemma triple_createItem {directory rawName : Text} :
    Effect.Triple (Kept request b) (createItem directory rawName) (fun _ => Kept request b)
      (Kept request b) := by
  refine (triple_validateEntryName fun _ h => h).bind fun name => ?_
  refine Effect.Triple.mono (W := Kept request b) ?_ (fun s hs => hs.1) (fun _ _ h => h)
    fun _ h => h
  refine (triple_metadata (fun s (hs : Kept request b s) => hs.tick) fun _ h => h).bind fun a => ?_
  cases a with
  | true => exact Effect.Triple.raise fun s hs => hs.1
  | false =>
    refine (triple_folderExists (fun s hs => ⟨hs.1.tick, hs.2⟩) fun s hs => hs.1).bind fun a => ?_
    cases a with
    | true => exact Effect.Triple.pure fun s hs => hs.1.1
    | false =>
      refine (triple_metadata (fun s hs => ⟨⟨hs.1.1.tick, hs.1.2⟩, hs.2⟩)
        fun s hs => hs.1.1).bind fun a => ?_
      cases a with
      | true => exact Effect.Triple.pure fun s hs => hs.1.1.1
      | false =>
        refine Effect.Triple.bind (triple_change ?_ (fun s hs => hs.1.1.1.tick) fun s hs => hs)
          fun _ => Effect.Triple.pure fun s hs => hs
        rintro s ⟨⟨⟨hs, -⟩, -⟩, hfolder⟩
        exact (hs.put (has_eq_false.1 hfolder.symm)).tick

/-- An item's keys are free where it is moved to, or it stays. -/
lemma triple_moveItem {source target : Text} {item : Item}
    (hrel : ∀ name, item.name = some name → ∀ k k',
      item.Relocates (source ++ name) (target ++ name) k k' → request.Relocates k k') :
    Effect.Triple (Kept request b) (moveItem source target item) (fun _ => Kept request b)
      (Kept request b) := by
  refine (triple_validateEntryName fun _ h => h).bind fun name => ?_
  refine Effect.Triple.mono (W := fun s => Kept request b s ∧ item.name = some name) ?_
    (fun s hs => ⟨hs.1, hs.2.1⟩) (fun _ _ h => h) fun _ h => h
  by_cases hfile : item.isFileEntry = true
  · rw [if_pos hfile]
    split_ifs
    · refine (triple_metadata (fun s hs => ⟨hs.1.tick, hs.2⟩) fun _ h => h.1).bind fun a => ?_
      cases a with
      | true => exact Effect.Triple.pure fun s hs => hs.1.1
      | false => exact Effect.Triple.raise fun s hs => hs.1.1
    · refine (triple_metadata (fun s hs => ⟨hs.1.tick, hs.2⟩) fun _ h => h.1).bind fun a => ?_
      cases a with
      | true => exact Effect.Triple.raise fun s hs => hs.1.1
      | false =>
        rintro s ⟨⟨hs, hname⟩, hfree⟩
        have hitem : request.Relocates (source ++ name) (target ++ name) :=
          hrel name hname _ _ ((if_pos hfile).mpr ⟨rfl, rfl⟩)
        refine ((triple_renameBlob_free hitem).bind fun _ => ?_) s ⟨hs, has_eq_false.1 hfree.symm⟩
        refine (triple_metadata (fun s (hs : Kept request b s) => hs.tick) fun _ h => h).bind
          fun a => ?_
        cases a with
        | true => exact Effect.Triple.pure fun s hs => hs.1
        | false => exact Effect.Triple.raise fun s hs => hs.1
  · rw [if_neg hfile]
    dsimp only
    split_ifs
    · exact Effect.Triple.pure fun s hs => hs.1
    · exact Effect.Triple.raise fun s hs => hs.1
    · refine (triple_folderExists (fun s hs => ⟨hs.1.tick, hs.2⟩) fun _ h => h.1).bind fun a => ?_
      cases a with
      | true => exact Effect.Triple.raise fun s hs => hs.1.1
      | false =>
        rintro s ⟨⟨hs, hname⟩, hfree⟩
        have hfolder : ∀ rest, request.Relocates (source ++ name ++ ['/'] ++ rest)
            (target ++ name ++ ['/'] ++ rest) :=
          fun rest => hrel name hname _ _ ((if_neg hfile).mpr ⟨rest, rfl, rfl⟩)
        refine ((triple_movePrefix hfolder).bind fun _ => ?_) s ⟨hs, hfree rfl⟩
        exact Effect.Triple.pure fun _ h => h

/-- A loop over items that each keep the objects. -/
lemma triple_items {α : Type} {f : α → Action Entry} {l : List α}
    (h : ∀ a ∈ l, Effect.Triple (Kept request b) (f a) (fun _ => Kept request b) (Kept request b)) :
    Effect.Triple (Kept request b) (Effect.forEach f l) (fun _ => Kept request b)
      (Kept request b) := by
  refine Effect.Triple.mono (Effect.Triple.forEach (I := fun rest s => Kept request b s ∧
    ∀ a ∈ rest, a ∈ l) ?_ l) (fun s hs => ⟨hs, fun _ h => h⟩) (fun _ _ h => h.1) fun _ h => h
  rintro a rest s ⟨hs, hmem⟩
  exact Effect.Triple.mono (h a (hmem a List.mem_cons_self)) (fun _ h => h)
    (fun _ t ht => ⟨ht, fun a' ha' => hmem a' (List.mem_cons_of_mem _ ha')⟩) (fun _ h => h) s hs

lemma triple_createAction (payload : Payload) :
    Effect.Triple (Kept (.create payload) b) (createAction payload)
      (fun _ => Kept (.create payload) b) (Kept (.create payload) b) := by
  unfold createAction
  dsimp only
  split_ifs
  · exact Effect.Triple.raise fun _ h => h
  · exact triple_items fun _ _ => triple_createItem

lemma triple_moveAction (payload : Payload) :
    Effect.Triple (Kept (.move payload) b) (moveAction payload)
      (fun _ => Kept (.move payload) b) (Kept (.move payload) b) := by
  unfold moveAction
  split
  · exact Effect.Triple.raise fun _ h => h
  · rename_i target htarget
    split_ifs
    · exact Effect.Triple.raise fun _ h => h
    · exact triple_items fun item hitem => triple_moveItem fun name hname k k' hrel =>
        ⟨item, hitem, name, target, hname, htarget, hrel⟩

/-! ### Renaming -/

section Rename

variable {source destination : Text} {E : Bucket → Prop}

/-- The lookup that a rename starts with. -/
lemma triple_lookup (hE : E b.tick) :
    Effect.Triple (fun s => s = b) (getBlobMetadata source)
      (fun a s => (s = b.tick ∧ a = b.has source) ∧ b.outcomes b.calls = .done) E := by
  rintro s rfl
  unfold getBlobMetadata ask
  cases houtcome : s.outcomes s.calls with
  | done => exact ⟨⟨rfl, rfl⟩, rfl⟩
  | refused => exact hE
  | lost => exact hE

/-- **A rename that cannot write over an object keeps them all.** -/
lemma triple_renameBlob_of_not (hrel : request.Relocates source destination)
    (h : b.has source = true → b.has destination = true → b.outcomes b.calls = .done →
      b.outcomes (b.calls + 1) = .refused) :
    Effect.Triple (fun s => s = b) (renameBlob source destination) (fun _ => Kept request b)
      (Kept request b) := by
  cases hdestination : b.has destination with
  | false =>
    refine Effect.Triple.mono (triple_renameBlob_free hrel) ?_ (fun _ _ h => h) fun _ h => h
    rintro s rfl
    exact ⟨Kept.refl _ _, has_eq_false.1 hdestination⟩
  | true =>
    refine (triple_lookup (Kept.refl request b).tick).bind fun a => ?_
    cases a with
    | false =>
      refine Effect.Triple.raise ?_
      rintro s ⟨⟨rfl, -⟩, -⟩
      exact (Kept.refl request b).tick
    | true =>
      rintro s ⟨⟨rfl, hsource⟩, hdone⟩
      have hrefused : b.tick.outcomes b.tick.calls = .refused := h hsource.symm hdestination hdone
      refine Effect.Triple.bind (P := fun s => s = b.tick) (Q := fun _ _ => False) ?_
        (fun _ _ hs => hs.elim) _ rfl
      rintro s rfl
      unfold change
      rw [hrefused]
      exact (Kept.refl request b).tick.tick

/-- Otherwise the object at the new name is written over. -/
lemma triple_renameFile_overwrites {directory name newName : Text}
    (hsource : b.has (directory ++ name) = true)
    (hdestination : b.has (directory ++ newName) = true) (hdone : b.outcomes b.calls = .done)
    (hcopied : b.outcomes (b.calls + 1) ≠ .refused) :
    Effect.Triple (fun s => s = b) (renameFile directory name newName)
      (fun _ s => s.overwritten = b.overwritten ++ [directory ++ newName])
      (fun s => s.overwritten = b.overwritten ++ [directory ++ newName]) := by
  have hcopy : (b.tick.copy (directory ++ name) (directory ++ newName)).overwritten =
      b.overwritten ++ [directory ++ newName] := by
    obtain ⟨c, hc⟩ := Option.isSome_iff_exists.1 hsource
    have hget : b.tick.objects.get (directory ++ name) = some c := hc
    have hhas : b.tick.has (directory ++ newName) = true := hdestination
    simp only [Bucket.copy, hget, Bucket.put, if_pos hhas]
    rfl
  have hrename : Effect.Triple (fun s => s = b) (renameBlob (directory ++ name)
      (directory ++ newName)) (fun _ s => s.overwritten = b.overwritten ++ [directory ++ newName])
      (fun s => s.overwritten = b.overwritten ++ [directory ++ newName]) := by
    rintro s rfl
    have hlookup : getBlobMetadata (directory ++ name) s = (.ok true, s.tick) := by
      simp only [getBlobMetadata, ask, hdone, hsource]
    unfold renameBlob
    rw [Effect.bind_of_ok hlookup]
    refine (Effect.Triple.bind (P := fun s' => s' = s.tick) (Q := fun _ s' =>
      s'.overwritten = s.overwritten ++ [directory ++ newName]) ?_ fun _ =>
        triple_change (fun _ h => h) (fun _ h => h) fun _ h => h) _ rfl
    rintro s' rfl
    unfold change
    cases houtcome : s.tick.outcomes s.tick.calls with
    | done => exact hcopy
    | refused => exact absurd houtcome hcopied
    | lost => exact hcopy
  refine hrename.bind fun _ => (triple_metadata (fun _ h => h) fun _ h => h).bind fun a => ?_
  cases a with
  | true => exact Effect.Triple.pure fun s hs => hs.1
  | false => exact Effect.Triple.raise fun s hs => hs.1

lemma validateEntryName_of_valid {name : Text} (h : ValidName name) :
    validateEntryName (some name) = pure name := by
  obtain ⟨hne, hslash, hdot, hdots⟩ := h
  cases name with
  | nil => exact absurd rfl hne
  | cons c name =>
    unfold validateEntryName
    simp only [if_neg hslash, hdot, hdots, or_self, if_false]

/-- **Renaming keeps the objects, unless the new name is that of a file that is there.** -/
lemma kept_renameAction {payload : Payload} (h : ¬(Request.rename payload).Overwrites b) :
    Kept (.rename payload) b ((renameAction payload) b).2 := by
  suffices Effect.Triple (fun s => s = b) (renameAction payload)
      (fun _ => Kept (.rename payload) b) (Kept (.rename payload) b) from this.ends rfl
  have hrefl : ∀ s, s = b → Kept (.rename payload) b s := by
    rintro s rfl
    exact Kept.refl _ _
  unfold renameAction
  dsimp only
  split
  · exact Effect.Triple.raise hrefl
  · rename_i item rest hdata
    refine (triple_validateEntryName hrefl).bind fun name => ?_
    refine (triple_validateEntryName fun s hs => hrefl s hs.1).bind fun newName => ?_
    by_cases hsame : name = newName
    · rw [if_pos hsame]
      exact Effect.Triple.raise fun s hs => hrefl s hs.1.1
    rw [if_neg hsame]
    rintro s ⟨⟨rfl, hname, hvalid⟩, hnewName, hnewValid⟩
    have hrel : ∀ k k', item.Relocates (normalizeDirectoryPath payload.path ++ name)
        (normalizeDirectoryPath payload.path ++ newName) k k' →
        (Request.rename payload).Relocates k k' :=
      fun k k' hk => ⟨item, rest, name, newName, hdata, hname, hnewName, hk⟩
    by_cases hfile : item.isFileEntry = true
    · rw [if_pos hfile]
      suffices Effect.Triple (fun t => t = s)
          (renameFile (normalizeDirectoryPath payload.path) name newName)
          (fun _ => Kept (.rename payload) s) (Kept (.rename payload) s) by
        refine (this.bind fun _ => ?_) s rfl
        exact Effect.Triple.pure fun _ h => h
      refine (triple_renameBlob_of_not (hrel _ _ ((if_pos hfile).mpr ⟨rfl, rfl⟩)) ?_).bind
        fun _ => ?_
      · intro hsource hdestination hdone
        by_contra hcopied
        exact h ⟨item, rest, name, newName, hdata, hname, hnewName, hvalid, hnewValid, hsame, hfile,
          hsource, hdestination, hdone, hcopied⟩
      · refine (triple_metadata (fun t (ht : Kept _ s t) => ht.tick) fun _ h => h).bind fun a => ?_
        cases a with
        | true => exact Effect.Triple.pure fun t ht => ht.1
        | false => exact Effect.Triple.raise fun t ht => ht.1
    · rw [if_neg hfile]
      suffices Effect.Triple (Kept (.rename payload) s)
          (renameFolder (normalizeDirectoryPath payload.path) name newName)
          (fun _ => Kept (.rename payload) s) (Kept (.rename payload) s) by
        refine (this.bind fun _ => ?_) s (Kept.refl _ _)
        exact Effect.Triple.pure fun _ h => h
      refine (triple_folderExists (fun t (ht : Kept _ s t) => ht.tick) fun _ h => h).bind
        fun a => ?_
      cases a with
      | true => exact Effect.Triple.raise fun t ht => ht.1
      | false =>
        rintro t ⟨ht, hfree⟩
        have hfolder : ∀ rest, (Request.rename payload).Relocates
            (normalizeDirectoryPath payload.path ++ name ++ ['/'] ++ rest)
            (normalizeDirectoryPath payload.path ++ newName ++ ['/'] ++ rest) :=
          fun rest => hrel _ _ ((if_neg hfile).mpr ⟨rest, rfl, rfl⟩)
        refine ((triple_movePrefix hfolder).bind fun _ => ?_) t ⟨ht, hfree rfl⟩
        exact Effect.Triple.pure fun _ h => h

/-- An object that is written over is not kept. -/
lemma overwritten_renameAction {payload : Payload} (h : (Request.rename payload).Overwrites b) :
    ¬Kept (.rename payload) b ((renameAction payload) b).2 := by
  obtain ⟨item, rest, name, newName, hdata, hname, hnewName, hvalid, hnewValid, hne, hfile,
    hsource, hdestination, hdone, hcopied⟩ := h
  intro hkept
  have hover : ((renameAction payload) b).2.overwritten =
      b.overwritten ++ [normalizeDirectoryPath payload.path ++ newName] := by
    refine Effect.Triple.ends (P := fun s => s = b)
      (R := fun s =>
        s.overwritten = b.overwritten ++ [normalizeDirectoryPath payload.path ++ newName])
      ?_ rfl
    unfold renameAction
    simp only [hdata, hname, hnewName, validateEntryName_of_valid hvalid,
      validateEntryName_of_valid hnewValid]
    refine Effect.Triple.bind (Effect.Triple.pure (Q := fun a s => s = b ∧ a = name)
      fun s hs => ⟨hs, rfl⟩) fun a => ?_
    refine Effect.Triple.bind (Effect.Triple.pure (Q := fun a' s => (s = b ∧ a = name) ∧
      a' = newName) fun s hs => ⟨hs, rfl⟩) fun a' => ?_
    rintro s ⟨⟨rfl, rfl⟩, rfl⟩
    rw [if_neg hne, if_pos hfile]
    refine ((triple_renameFile_overwrites hsource hdestination hdone hcopied).bind
      fun _ => ?_) s rfl
    exact Effect.Triple.pure fun _ h => h
  rw [hkept.overwritten] at hover
  exact absurd (congrArg List.length hover) (by simp)

end Rename

end Actions

/-- **A request keeps every object, also when it fails part-way, if and only if it does not rename
a file to the name of another one.** -/
theorem kept_iff (request : Request) (b : Bucket) :
    Kept request b (request.run b).2 ↔ ¬request.Overwrites b := by
  cases request with
  | create payload =>
    exact ⟨fun _ h => h, fun _ => (triple_createAction payload).ends (Kept.refl _ _)⟩
  | move payload => exact ⟨fun _ h => h, fun _ => (triple_moveAction payload).ends (Kept.refl _ _)⟩
  | rename payload => exact ⟨fun hkept h => overwritten_renameAction h hkept, kept_renameAction⟩

section Counterexample

/-- Two files. -/
def twoFiles : Bucket where
  objects := (Dict.empty.set "a".toList [1]).set "b".toList [2]
  outcomes := fun _ => .done
  calls := 0
  overwritten := []

/-- The first one is to have the second one's name. -/
def renameToTaken : Request :=
  .rename ⟨none, none, some "b".toList, none, [⟨some "a".toList, some true, none⟩], []⟩

/-- **The rename succeeds, and the second file is gone.** -/
theorem renamed_over_file :
    ((renameToTaken.run twoFiles).1.toOption.isSome = true ∧
      (renameToTaken.run twoFiles).2.objects.get "a".toList = none ∧
      (renameToTaken.run twoFiles).2.objects.get "b".toList = some [1] ∧
      (renameToTaken.run twoFiles).2.overwritten = ["b".toList]) ∧
      ¬Kept renameToTaken twoFiles (renameToTaken.run twoFiles).2 := by
  refine ⟨by decide, fun hkept => ?_⟩
  exact absurd hkept.overwritten (by decide)

end Counterexample

end Burla.Files
