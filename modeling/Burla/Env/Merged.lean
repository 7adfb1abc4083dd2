/-
What the merge of staged packages comes to.

* `mergeEntry_merges`: one entry of a stage is laid over what is at its place, whatever the two are.
* `mergeStage_merges`: by recursion, so is a stage.
* `merge_is_overlay`: the result is the stage laid over the environment, nothing else is changed,
  and stages that have only directories in common can be merged in any order.
-/
import Burla.Env.Merge
import Mathlib.Order.Bounds.Basic
import Mathlib.Data.Set.Finite.Lattice

namespace Burla.Env

open Posix (Location Entry Name FileSystem)
open Overlay (lay)

/-- Two locations of which neither is below the other. -/
def Apart (p q : Location) : Prop := ¬p <+: q ∧ ¬q <+: p

/-- A location that can be a directory: it is one, or is absent from one. -/
def Place (fs : FileSystem) (d : Location) : Prop :=
  fs.entry d = some .directory ∨
    ∃ dir name, d = dir ++ [name] ∧ fs.entry dir = some .directory ∧ fs.entry d = none

/-- What is below a location is laid over what is below another one, and nothing else changes. -/
structure Merges (fs : FileSystem) (s d : Location) (fs' : FileSystem) : Prop where
  laid : fs'.below d = lay .directory (fs.below s) (fs.below d)
  outside : ∀ p, ¬d <+: p → fs'.entry p = fs.entry p

section Merges

variable {fs fs₁ fs' fs'' : FileSystem} {s d p dir : Location} {name x : Name} {e : Entry}

/-! ### Locations -/

lemma Apart.append (h : Apart s d) (a b : Location) : Apart (s ++ a) (d ++ b) := by
  have hcomparable : ∀ r, s <+: r → d <+: r → False := by
    intro r hs hd
    rcases List.prefix_or_prefix_of_prefix hs hd with hsd | hds
    · exact h.1 hsd
    · exact h.2 hds
  constructor
  · intro hbelow
    exact hcomparable (d ++ b) ((List.prefix_append s a).trans hbelow) (List.prefix_append d b)
  · intro hbelow
    exact hcomparable (s ++ a) (List.prefix_append s a) ((List.prefix_append d b).trans hbelow)

lemma Apart.append_left (h : Apart s d) (a : Location) : Apart (s ++ a) d := by
  have happend := h.append a []
  rwa [List.append_nil] at happend

lemma Apart.not_below (h : Apart s d) (q : Location) : ¬d <+: s ++ q := (h.append_left q).2

lemma not_below_self (d : Location) (x : Name) : ¬d ++ [x] <+: d := by
  intro h
  have hlength := h.length_le
  rw [List.length_append, List.length_singleton] at hlength
  omega

lemma not_below_cons {y : Name} (hne : y ≠ x) (q : Location) :
    ¬d ++ [x] <+: d ++ y :: q := by
  intro h
  rw [List.prefix_append_right_inj, List.cons_prefix_cons] at h
  exact hne h.1.symm

lemma below_cons (fs : FileSystem) (d : Location) (x : Name) (q : Location) :
    fs.below d (x :: q) = fs.below (d ++ [x]) q := by
  rw [FileSystem.below, FileSystem.below, List.append_assoc, List.singleton_append]

lemma below_nil (fs : FileSystem) (d : Location) : fs.below d [] = fs.entry d := by
  rw [FileSystem.below, List.append_nil]

lemma closed_below (fs : FileSystem) (d : Location) :
    Overlay.Closed .directory (fs.below d) := fs.closed.below d

/-- What is apart from a location is as it was when nothing outside that location has changed. -/
lemma below_eq (happart : Apart s d) (h : ∀ p, ¬d <+: p → fs'.entry p = fs.entry p) :
    fs'.below s = fs.below s := by
  funext q
  exact h _ (happart.not_below q)

/-! ### Merges -/

/-- What is below a location and what is not make up everything. -/
lemma eq_of_below (hbelow : fs'.below d = fs''.below d)
    (houtside : ∀ p, ¬d <+: p → fs'.entry p = fs''.entry p) : fs' = fs'' := by
  ext1
  funext p
  by_cases hp : d <+: p
  · obtain ⟨q, rfl⟩ := hp
    exact congrFun hbelow q
  · exact houtside p hp

/-- A merge has one result. -/
lemma Merges.unique (h : Merges fs s d fs') (h' : Merges fs s d fs'') : fs' = fs'' :=
  eq_of_below (h.laid.trans h'.laid.symm) fun p hp => (h.outside p hp).trans (h'.outside p hp).symm

/-- The root of the destination makes no difference. -/
lemma Merges.of_root (h : Merges fs₁ s d fs') (hs : fs.entry s ≠ none) (happart : Apart s d)
    (houtside : ∀ p, ¬d <+: p → fs₁.entry p = fs.entry p)
    (hbelow : ∀ q, q ≠ [] → fs₁.below d q = fs.below d q) : Merges fs s d fs' where
  laid := by
    rw [h.laid, below_eq happart houtside]
    refine Overlay.lay_congr ?_ hbelow
    rwa [below_nil]
  outside p hp := (h.outside p hp).trans (houtside p hp)

/-- An entry that is no directory takes the place of everything at the destination. -/
lemma merges_of_leaf (hs : fs.entry s = some e) (hne : e ≠ .directory)
    (hclear : ∀ p, fs₁.entry p = if d <+: p then none else fs.entry p)
    (hput : ∀ p, fs'.entry p = if p = d then some e else fs₁.entry p) : Merges fs s d fs' where
  laid := by
    funext q
    rw [Overlay.lay_of_root (closed_below fs s) ((below_nil fs s).trans hs) hne, FileSystem.below,
      hput, hclear, if_pos (List.prefix_append d q)]
    simp only [List.append_right_eq_self]
  outside p hp := by
    have hpd : p ≠ d := by
      rintro rfl
      exact hp List.prefix_rfl
    rw [hput, if_neg hpd, hclear, if_neg hp]

/-! ### One entry -/

lemma removePath_concat (hdir : fs.entry dir = some .directory)
    (he : fs.entry (dir ++ [name]) = some e) :
    removePath (dir ++ [name]) fs = some (fs.without dir name) := by
  rw [removePath]
  cases e with
  | file inode =>
    rw [FileSystem.isdir_file he, Bool.not_false, Bool.or_true, if_pos rfl]
    exact FileSystem.unlink_concat hdir he (by simp)
  | link target =>
    rw [FileSystem.islink_link hdir he, Bool.true_or, if_pos rfl]
    exact FileSystem.unlink_concat hdir he (by simp)
  | directory =>
    rw [FileSystem.islink_directory hdir he, FileSystem.isdir_directory he]
    exact FileSystem.rmtree_concat hdir he

/-- What is at a location is out of the way. -/
lemma exists_clear (hdir : fs.entry dir = some .directory) (name : Name) :
    ∃ fs₁, (if fs.lexists (dir ++ [name]) then removePath (dir ++ [name]) fs else some fs) =
        some fs₁ ∧
      ∀ p, fs₁.entry p = if dir ++ [name] <+: p then none else fs.entry p := by
  rw [FileSystem.lexists_concat hdir]
  cases he : fs.entry (dir ++ [name]) with
  | some e => exact ⟨_, removePath_concat hdir he, fun _ => rfl⟩
  | none =>
    refine ⟨fs, rfl, fun p => ?_⟩
    split_ifs with hp
    · obtain ⟨q, rfl⟩ := hp
      by_cases hq : q = []
      · rw [hq, List.append_nil, he]
      · exact fs.closed.eq_none hq (by rw [he]; exact (Option.some_ne_none _).symm)
    · rfl

/-- What is no directory is out of the way for one, if it is there. -/
lemma lexists_and_notDirectory (hdir : fs.entry dir = some .directory)
    (hne : fs.entry (dir ++ [name]) ≠ some .directory) :
    (fs.lexists (dir ++ [name]) && (fs.islink (dir ++ [name]) || !fs.isdir (dir ++ [name]))) =
      fs.lexists (dir ++ [name]) := by
  rw [FileSystem.lexists_concat hdir]
  cases he : fs.entry (dir ++ [name]) with
  | none => rfl
  | some e =>
    cases e with
    | file inode => rw [FileSystem.isdir_file he, Bool.not_false, Bool.or_true, Bool.and_true]
    | link target => rw [FileSystem.islink_link hdir he, Bool.true_or, Bool.and_true]
    | directory => exact absurd he hne

variable {merge : Location → Location → FileSystem → Option FileSystem}

/-- **One entry of a stage** is laid over what is at its place. -/
lemma mergeEntry_merges (hsource : fs.entry (s ++ [x]) = some e)
    (hdir : fs.entry d = some .directory) (happart : Apart s d)
    (hmerge : e = .directory → ∀ fs₁, fs₁.below (s ++ [x]) = fs.below (s ++ [x]) →
      Place fs₁ (d ++ [x]) →
        ∃ fs', merge (s ++ [x]) (d ++ [x]) fs₁ = some fs' ∧
          Merges fs₁ (s ++ [x]) (d ++ [x]) fs') :
    ∃ fs', mergeEntry merge e (s ++ [x]) (d ++ [x]) fs = some fs' ∧
      Merges fs (s ++ [x]) (d ++ [x]) fs' := by
  have hapart' := happart.append [x] [x]
  obtain ⟨fs₁, hremove, hclear⟩ := exists_clear hdir x
  -- What is left when the destination is out of the way.
  have houtside : ∀ p, ¬d ++ [x] <+: p → fs₁.entry p = fs.entry p := by
    intro p hp
    rw [hclear, if_neg hp]
  have hdir₁ : fs₁.entry d = some .directory := (houtside d (not_below_self d x)).trans hdir
  have habsent₁ : fs₁.entry (d ++ [x]) = none := by rw [hclear, if_pos List.prefix_rfl]
  have hsource₁ : fs₁.entry (s ++ [x]) = some e := (houtside _ hapart'.2).trans hsource
  have hparent₁ : fs₁.entry s = some .directory :=
    fs₁.closed s x (Overlay.ne_none hsource₁)
  cases e with
  | link target =>
    obtain ⟨fs', hcreate, hput⟩ := FileSystem.create_concat hdir₁ habsent₁ (.link target)
    refine ⟨fs', ?_, merges_of_leaf hsource (by simp) hclear hput⟩
    rw [mergeEntry, hremove, Option.bind_some, FileSystem.readlink_link hparent₁ hsource₁]
    exact hcreate
  | file inode =>
    obtain ⟨fs', hcreate, hput⟩ := FileSystem.create_concat hdir₁ habsent₁ (.file inode)
    refine ⟨fs', ?_, merges_of_leaf hsource (by simp) hclear hput⟩
    rw [mergeEntry, hremove, Option.bind_some, FileSystem.link,
      FileSystem.lstat_concat hparent₁, hsource₁]
    exact hcreate
  | directory =>
    rw [mergeEntry]
    by_cases hthere : fs.entry (d ++ [x]) = some .directory
    · -- A directory is merged into the one that is there.
      obtain ⟨fs', hmerged, hmerges⟩ := hmerge rfl fs rfl (.inl hthere)
      refine ⟨fs', ?_, hmerges⟩
      rw [FileSystem.islink_directory hdir hthere, FileSystem.isdir_directory hthere]
      simpa using hmerged
    · -- Anything else is out of the way, and nothing was below it.
      have hplace : Place fs₁ (d ++ [x]) := .inr ⟨d, x, rfl, hdir₁, habsent₁⟩
      obtain ⟨fs', hmerged, hmerges⟩ := hmerge rfl fs₁ (below_eq hapart' houtside) hplace
      refine ⟨fs', ?_, hmerges.of_root (Overlay.ne_none hsource) hapart'
        houtside fun q hq => ?_⟩
      · have hremoved := lexists_and_notDirectory hdir hthere
        simp only [hremoved]
        rw [hremove, Option.bind_some, hmerged]
      · have hnone : fs.below (d ++ [x]) q = none := fs.closed.eq_none hq hthere
        rw [hnone, FileSystem.below, hclear, if_pos (List.prefix_append _ q)]

/-! ### A directory -/

/-- Some names of a directory have been merged. -/
structure Partly (fs : FileSystem) (s d : Location) (names : List Name) (fs' : FileSystem) :
    Prop where
  root : fs'.entry d = some .directory
  outside : ∀ p, ¬d <+: p → fs'.entry p = fs.entry p
  merged : ∀ x ∈ names,
    fs'.below (d ++ [x]) = lay .directory (fs.below (s ++ [x])) (fs.below (d ++ [x]))
  rest : ∀ x, x ∉ names → fs'.below (d ++ [x]) = fs.below (d ++ [x])

lemma partly_nil (hdir : fs.entry d = some .directory) : Partly fs s d [] fs where
  root := hdir
  outside _ _ := rfl
  merged _ hx := absurd hx List.not_mem_nil
  rest _ _ := rfl

/-- The next name. -/
lemma Partly.cons {names : List Name} (h : Partly fs s d names fs') (happart : Apart s d)
    (hx : x ∉ names) (hmerges : Merges fs' (s ++ [x]) (d ++ [x]) fs'') :
    Partly fs s d (x :: names) fs'' := by
  have hothers : ∀ y, y ≠ x → fs''.below (d ++ [y]) = fs'.below (d ++ [y]) := by
    intro y hne
    funext q
    rw [← below_cons, ← below_cons]
    exact hmerges.outside _ (not_below_cons hne q)
  refine ⟨?_, ?_, ?_, ?_⟩
  · rw [hmerges.outside d (not_below_self d x), h.root]
  · intro p hp
    rw [hmerges.outside p fun hbelow => hp ((List.prefix_append d [x]).trans hbelow),
      h.outside p hp]
  · intro y hy
    by_cases hyx : y = x
    · subst hyx
      have hsource : fs'.below (s ++ [y]) = fs.below (s ++ [y]) :=
        below_eq (happart.append_left [y]) h.outside
      rw [hmerges.laid, hsource, h.rest y hx]
    · rw [hothers y hyx]
      exact h.merged y ((List.mem_cons.1 hy).resolve_left hyx)
  · intro y hy
    obtain ⟨hyx, hy⟩ := not_or.1 (fun h => hy (List.mem_cons.2 h))
    rw [hothers y hyx, h.rest y hy]

/-- All names. -/
lemma Partly.merges {names : List Name} (h : Partly fs s d names fs')
    (hs : fs.entry s = some .directory) (hall : ∀ x, x ∉ names → fs.entry (s ++ [x]) = none) :
    Merges fs s d fs' where
  laid := by
    have hroot : fs.below s [] = some .directory := (below_nil fs s).trans hs
    funext q
    cases q with
    | nil => rw [below_nil, h.root, Overlay.lay_of_some hroot]
    | cons x q =>
      by_cases hx : x ∈ names
      · rw [below_cons, h.merged x hx, Overlay.lay_cons hroot]
        simp only [below_cons]
      · rw [below_cons, h.rest x hx,
          Overlay.lay_cons_of_none (closed_below fs s) hroot (hall x hx), below_cons]
  outside := h.outside

/-- The loop over the entries of a directory. -/
lemma foldlM_partly (happart : Apart s d)
    (hmerge : ∀ fs₁ x, fs.entry (s ++ [x]) = some .directory →
      fs₁.below (s ++ [x]) = fs.below (s ++ [x]) → Place fs₁ (d ++ [x]) →
        ∃ fs', merge (s ++ [x]) (d ++ [x]) fs₁ = some fs' ∧
          Merges fs₁ (s ++ [x]) (d ++ [x]) fs')
    {entries : List (Name × Entry)} (hnodup : (entries.map Prod.fst).Nodup)
    (hentries : ∀ l ∈ entries, fs.entry (s ++ [l.1]) = some l.2) {names : List Name}
    (hnames : ∀ l ∈ entries, l.1 ∉ names) (h : Partly fs s d names fs') :
    ∃ fs'', entries.foldlM (fun fs l =>
        mergeEntry merge l.2 (s ++ [l.1]) (d ++ [l.1]) fs) fs' = some fs'' ∧
      ∃ names', (∀ x, x ∈ names' ↔ x ∈ entries.map Prod.fst ∨ x ∈ names) ∧
        Partly fs s d names' fs'' := by
  induction entries generalizing fs' names with
  | nil => exact ⟨fs', rfl, names, fun x => by simp, h⟩
  | cons l entries ih =>
    obtain ⟨x, e⟩ := l
    rw [List.map_cons, List.nodup_cons] at hnodup
    have hx : x ∉ names := hnames (x, e) List.mem_cons_self
    have hbelow : fs'.below (s ++ [x]) = fs.below (s ++ [x]) :=
      below_eq (happart.append_left [x]) h.outside
    have hsource : fs.entry (s ++ [x]) = some e := hentries (x, e) List.mem_cons_self
    have hsource' : fs'.entry (s ++ [x]) = some e := by
      rw [← below_nil, hbelow, below_nil, hsource]
    obtain ⟨fs₂, hentry, hmerges⟩ := mergeEntry_merges hsource' h.root happart
      (fun he fs₁ hsame hplace => hmerge fs₁ x (he ▸ hsource) (hsame.trans hbelow) hplace)
    have hothers : ∀ l ∈ entries, l.1 ∉ x :: names := by
      intro l hl hmem
      rcases List.mem_cons.1 hmem with hlx | hmem
      · have hname : l.1 ∈ entries.map Prod.fst := List.mem_map_of_mem hl
        rw [hlx] at hname
        exact hnodup.1 hname
      · exact hnames l (List.mem_cons_of_mem _ hl) hmem
    obtain ⟨fs₃, hfold, names', hmem, hpartly⟩ := ih hnodup.2
      (fun l hl => hentries l (List.mem_cons_of_mem _ hl)) hothers (h.cons happart hx hmerges)
    refine ⟨fs₃, ?_, names', fun y => ?_, hpartly⟩
    · rw [List.foldlM_cons, hentry]
      exact hfold
    · rw [hmem, List.map_cons, List.mem_cons, List.mem_cons]
      tauto

/-- `makedirs` makes a directory of a place, and changes nothing else. -/
lemma makedirs_place (hplace : Place fs d) :
    ∃ fs₁, fs.makedirs d = some fs₁ ∧ fs₁.entry d = some .directory ∧
      ∀ p, p ≠ d → fs₁.entry p = fs.entry p := by
  rcases hplace with hd | ⟨dir, name, rfl, hdir, habsent⟩
  · exact ⟨fs, FileSystem.makedirs_directory hd, hd, fun _ _ => rfl⟩
  · obtain ⟨fs₁, hmake, hentry⟩ := FileSystem.makedirs_absent hdir habsent
    refine ⟨fs₁, hmake, ?_, fun p hp => ?_⟩
    · rw [hentry, if_pos rfl]
    · rw [hentry, if_neg hp]

/-! ### A stage -/

variable {listing : FileSystem.Listing}

/-- **A stage is laid over the destination**, when there is more fuel than the stage is high. -/
lemma mergeStage_merges (hlisting : FileSystem.Lists listing) {fuel : ℕ}
    (hs : fs.entry s = some .directory) (hplace : Place fs d) (happart : Apart s d)
    (hfuel : ∀ q, fs.below s q ≠ none → q.length < fuel) :
    ∃ fs', mergeStage listing fuel s d fs = some fs' ∧ Merges fs s d fs' := by
  induction fuel generalizing fs s d with
  | zero =>
    have hroot := hfuel [] (Overlay.ne_none ((below_nil fs s).trans hs))
    exact absurd hroot (Nat.not_lt_zero _)
  | succ fuel ih =>
    obtain ⟨fs₀, hmake, hd, hothers⟩ := makedirs_place hplace
    have houtside : ∀ p, ¬d <+: p → fs₀.entry p = fs.entry p := by
      intro p hp
      refine hothers p ?_
      rintro rfl
      exact hp List.prefix_rfl
    have hbelow : fs₀.below s = fs.below s := below_eq happart houtside
    have hs₀ : fs₀.entry s = some .directory := by rw [← below_nil, hbelow, below_nil, hs]
    obtain ⟨hnodup, hlists⟩ := hlisting fs₀ s
    -- A directory of the stage is less high.
    have hmerge : ∀ fs₁ x, fs₀.entry (s ++ [x]) = some .directory →
        fs₁.below (s ++ [x]) = fs₀.below (s ++ [x]) → Place fs₁ (d ++ [x]) →
          ∃ fs', mergeStage listing fuel (s ++ [x]) (d ++ [x]) fs₁ = some fs' ∧
            Merges fs₁ (s ++ [x]) (d ++ [x]) fs' := by
      intro fs₁ x hx hsame hplace'
      refine ih ?_ hplace' (happart.append [x] [x]) fun q hq => ?_
      · rw [← below_nil, hsame, below_nil, hx]
      · rw [hsame, ← below_cons, hbelow] at hq
        exact Nat.lt_of_succ_lt_succ (hfuel (x :: q) hq)
    obtain ⟨fs', hfold, names, hmem, hpartly⟩ := foldlM_partly happart hmerge hnodup
      (fun l hl => (hlists l.1 l.2).1 hl) (fun _ _ => List.not_mem_nil) (partly_nil hd)
    have hall : ∀ x, x ∉ names → fs₀.entry (s ++ [x]) = none := by
      intro x hx
      by_contra hthere
      obtain ⟨e, he⟩ := Option.ne_none_iff_exists'.1 hthere
      exact hx ((hmem x).2 (.inl (List.mem_map_of_mem ((hlists x e).2 he))))
    refine ⟨fs', ?_, (hpartly.merges hs₀ hall).of_root (Overlay.ne_none hs)
      happart houtside fun q hq => hothers _ (by simpa using hq)⟩
    rw [mergeStage, hmake, Option.bind_some, FileSystem.scandir_directory hs₀,
      Option.bind_some]
    exact hfold

/-- The height of everything that is below a location. -/
lemma exists_height (fs : FileSystem) :
    ∃ height, ∀ s q, fs.below s q ≠ none → q.length < height := by
  obtain ⟨height, hheight⟩ := (fs.finite.image List.length).bddAbove
  refine ⟨height + 1, fun s q hq => ?_⟩
  have hle : (s ++ q).length ≤ height := hheight ⟨s ++ q, hq, rfl⟩
  rw [List.length_append] at hle
  omega

/-! ### Stages -/

/-- **Stages** are laid over the destination one after another. -/
lemma mergeStages_merges (hlisting : FileSystem.Lists listing) {fuel : ℕ} {stages : List Location}
    (hplace : Place fs d) (hstages : ∀ s ∈ stages, fs.entry s = some .directory ∧ Apart s d)
    (hfuel : ∀ s ∈ stages, ∀ q, fs.below s q ≠ none → q.length < fuel) :
    ∃ fs', mergeStages listing fuel stages d fs = some fs' ∧
      fs'.below d = (stages.map fs.below).foldl (fun t s => lay .directory s t) (fs.below d) ∧
        ∀ p, ¬d <+: p → fs'.entry p = fs.entry p := by
  induction stages generalizing fs with
  | nil => exact ⟨fs, rfl, rfl, fun _ _ => rfl⟩
  | cons s stages ih =>
    obtain ⟨hs, happart⟩ := hstages s List.mem_cons_self
    obtain ⟨fs₁, hmerge, hmerges⟩ := mergeStage_merges hlisting hs hplace happart
      (hfuel s List.mem_cons_self)
    have hbelow : ∀ s' ∈ stages, fs₁.below s' = fs.below s' := fun s' hs' =>
      below_eq (hstages s' (List.mem_cons_of_mem _ hs')).2 hmerges.outside
    have hplace₁ : Place fs₁ d := by
      refine .inl ?_
      rw [← below_nil, hmerges.laid]
      exact Overlay.lay_of_some ((below_nil fs s).trans hs)
    obtain ⟨fs', hrest, hlaid, houtside⟩ := ih hplace₁
      (fun s' hs' => ⟨by
        rw [← below_nil, hbelow s' hs', below_nil]
        exact (hstages s' (List.mem_cons_of_mem _ hs')).1,
        (hstages s' (List.mem_cons_of_mem _ hs')).2⟩)
      (fun s' hs' q hq => hfuel s' (List.mem_cons_of_mem _ hs') q (by rwa [hbelow s' hs'] at hq))
    refine ⟨fs', ?_, ?_, fun p hp => (houtside p hp).trans (hmerges.outside p hp)⟩
    · rw [mergeStages, List.foldlM_cons, hmerge]
      exact hrest
    · rw [hlaid, List.map_congr_left hbelow, hmerges.laid]
      rfl

/-- **The merge of staged packages is an overlay**: a stage is laid over the destination, which is
all that changes, and stages with nothing but directories in common give the same result in any
order. -/
theorem merge_is_overlay (hlisting : FileSystem.Lists listing) (hplace : Place fs d) :
    (∀ s, fs.entry s = some .directory → Apart s d →
      ∃ fs', (∃ enough, ∀ fuel, enough ≤ fuel → mergeStage listing fuel s d fs = some fs') ∧
        Overlay.Laid .directory (fs.below s) (fs.below d) (fs'.below d) ∧
          (∀ p, ¬d <+: p → fs'.entry p = fs.entry p) ∧ fs'.below s = fs.below s) ∧
    ∀ stages stages' : List Location, stages.Perm stages' →
      (∀ s ∈ stages, fs.entry s = some .directory ∧ Apart s d) →
        stages.Pairwise (fun s s' => Overlay.Compatible .directory (fs.below s) (fs.below s')) →
          ∃ fs' enough, ∀ fuel, enough ≤ fuel →
            mergeStages listing fuel stages d fs = some fs' ∧
              mergeStages listing fuel stages' d fs = some fs' := by
  obtain ⟨height, hheight⟩ := exists_height fs
  constructor
  · intro s hs happart
    obtain ⟨fs', -, hmerges⟩ := mergeStage_merges hlisting hs hplace happart (hheight s)
    refine ⟨fs', ⟨height, fun fuel hfuel => ?_⟩, ?_, hmerges.outside,
      below_eq happart hmerges.outside⟩
    · obtain ⟨fs'', hmerge, hmerges'⟩ := mergeStage_merges hlisting hs hplace happart
        fun q hq => (hheight s q hq).trans_le hfuel
      rw [hmerge, hmerges'.unique hmerges]
    · rw [hmerges.laid]
      exact Overlay.laid_lay (closed_below fs d)
  · intro stages stages' hperm hstages hcompatible
    have hlay : (stages'.map fs.below).foldl (fun t s => lay .directory s t) (fs.below d) =
        (stages.map fs.below).foldl (fun t s => lay .directory s t) (fs.below d) := by
      refine (Overlay.foldl_lay_perm (hperm.map fs.below) (fun t ht => ?_) ?_ _).symm
      · obtain ⟨s, -, rfl⟩ := List.mem_map.1 ht
        exact closed_below fs s
      · exact List.pairwise_map.2 hcompatible
    obtain ⟨fs', -, hlaid, houtside⟩ := mergeStages_merges hlisting hplace hstages
      fun s _ => hheight s
    refine ⟨fs', height, fun fuel hfuel => ⟨?_, ?_⟩⟩
    · obtain ⟨fs'', hmerge, hlaid', houtside'⟩ := mergeStages_merges hlisting hplace hstages
        fun s _ q hq => (hheight s q hq).trans_le hfuel
      rw [hmerge, eq_of_below (hlaid'.trans hlaid.symm) fun p hp =>
        (houtside' p hp).trans (houtside p hp).symm]
    · obtain ⟨fs'', hmerge, hlaid', houtside'⟩ := mergeStages_merges hlisting hplace
        (fun s hs => hstages s (hperm.mem_iff.2 hs))
        fun s _ q hq => (hheight s q hq).trans_le hfuel
      rw [hmerge, eq_of_below ((hlaid'.trans hlay).trans hlaid.symm) fun p hp =>
        (houtside' p hp).trans (houtside p hp).symm]

end Merges

/-! ### Two packages -/

namespace Small

def nameOf (t : Posix.Text) (h : Posix.IsName t) : Name := ⟨t, h⟩

def stage₀ : Name := nameOf "0".toList (by decide)
def stage₁ : Name := nameOf "1".toList (by decide)
def env : Name := nameOf "env".toList (by decide)
def home : Name := nameOf "home".toList (by decide)
def bin : Name := nameOf "bin".toList (by decide)
def lib : Name := nameOf "lib".toList (by decide)

/-- Two stages with a directory in common; in the environment there is a link at its place, which
leads out of the environment, and a file where the first stage has a link. -/
def smallTable : List (Location × Entry) :=
  [([], .directory),
    ([stage₀], .directory), ([stage₀, lib], .link "/home".toList), ([stage₀, bin], .directory),
    ([stage₀, bin, home], .file 1),
    ([stage₁], .directory), ([stage₁, bin], .directory), ([stage₁, bin, env], .file 2),
    ([env], .directory), ([env, bin], .link "/home".toList), ([env, lib], .file 3),
    ([home], .directory), ([home, home], .file 4)]

def small : FileSystem := .ofTable smallTable (by decide +kernel) (by decide +kernel)

/-- The two stages have only directories in common. -/
lemma compatible_small :
    Overlay.Compatible .directory (small.below [stage₀]) (small.below [stage₁]) := by
  have hall : ∀ l ∈ smallTable, ∀ l' ∈ smallTable, l.1 = stage₀ :: l.1.tail →
      l'.1 = stage₁ :: l.1.tail → l.2 = .directory ∧ l'.2 = .directory := by
    decide +kernel
  intro p hp hp'
  obtain ⟨e, he⟩ := Option.ne_none_iff_exists'.1 hp
  obtain ⟨e', he'⟩ := Option.ne_none_iff_exists'.1 hp'
  have hmem : (stage₀ :: p, e) ∈ smallTable := FileSystem.mem_table he
  have hmem' : (stage₁ :: p, e') ∈ smallTable := FileSystem.mem_table he'
  obtain ⟨hdir, hdir'⟩ := hall _ hmem _ hmem' rfl rfl
  rw [he, he']
  exact ⟨congrArg some hdir, congrArg some hdir'⟩

/-- What becomes of them. -/
theorem merge_is_overlay_small :
    (∃ fs', (∃ enough, ∀ fuel, enough ≤ fuel →
        mergeStage FileSystem.anyListing fuel [stage₀] [env] small = some fs') ∧
      fs'.entry [env, lib] = some (.link "/home".toList) ∧
        fs'.entry [env, bin] = some .directory ∧ fs'.entry [env, bin, home] = some (.file 1) ∧
          fs'.entry [home, home] = some (.file 4)) ∧
    ∃ fs' enough, ∀ fuel, enough ≤ fuel →
      mergeStages FileSystem.anyListing fuel [[stage₀], [stage₁]] [env] small = some fs' ∧
        mergeStages FileSystem.anyListing fuel [[stage₁], [stage₀]] [env] small = some fs' := by
  have hsmall := @merge_is_overlay small [env] _ FileSystem.lists_anyListing
    (.inl (by decide +kernel))
  constructor
  · obtain ⟨fs', hreturns, hlaid, houtside, -⟩ := hsmall.1 [stage₀] (by decide +kernel)
      (by unfold Apart; decide +kernel)
    refine ⟨fs', hreturns, ?_, ?_, ?_, ?_⟩
    · exact hlaid.source [lib] _ (by decide +kernel)
    · exact hlaid.source [bin] _ (by decide +kernel)
    · exact hlaid.source [bin, home] _ (by decide +kernel)
    · rw [houtside _ (by decide +kernel)]
      decide +kernel
  · refine hsmall.2 _ _ (List.Perm.swap _ _ _) (fun s hs => ?_) ?_
    · rcases List.mem_cons.1 hs with rfl | hs
      · exact ⟨by decide +kernel, by unfold Apart; decide +kernel⟩
      · obtain rfl := List.mem_singleton.1 hs
        exact ⟨by decide +kernel, by unfold Apart; decide +kernel⟩
    · exact List.pairwise_pair.2 compatible_small

end Small

end Burla.Env
