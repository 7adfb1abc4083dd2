/-
A client's environment, replicated on a worker.

An installer is taken to leave a dist-info directory behind, `{name}-{version}.dist-info`, with a
record of the source as PEP 610 has it (`Dist.Records`).

* `needsInstall_eq_false_iff`: what has been installed is not installed again, unless it comes from a
  repository without a commit.
* `replicates_iff`: when every requirement names its source and nothing is installed again.
-/
import Burla.Env.Shipped

namespace Burla.Env

/-! ### Texts -/

section Texts

variable {sep : Char} {text rest part : Text}

lemma splitAfter_append (seps : Text) (hsep : sep ∉ text) :
    splitAfter (sep :: seps) (text ++ sep :: seps ++ rest) = some rest := by
  induction text with
  | nil =>
    rw [List.nil_append, List.cons_append, splitAfter, startsWith,
      if_pos (decide_eq_true ⟨rest, rfl⟩), ← List.cons_append, List.drop_left]
  | cons c text ih =>
    obtain ⟨hc, htext⟩ := not_or.1 (List.mem_cons.not.1 hsep)
    have hstart : startsWith (sep :: seps) (c :: (text ++ sep :: seps ++ rest)) = false := by
      refine decide_eq_false ?_
      rintro ⟨_, heq⟩
      exact hc (List.cons.inj heq).1
    rw [List.cons_append, List.cons_append, splitAfter, hstart, if_neg Bool.false_ne_true, ih htext]

lemma contains_append : contains part (text ++ part ++ rest) = true :=
  decide_eq_true ⟨text, rest, rfl⟩

lemma contains_eq_false (hpart : sep ∈ part) (htext : sep ∉ text) : contains part text = false :=
  decide_eq_false fun hpart' => htext (hpart'.subset hpart)

/-- The last part of a text, with what is before it. -/
lemma rpartition_append (hrest : sep ∉ rest) :
    rpartition sep (text ++ sep :: rest) = (text, rest) := by
  have hall : ∀ c ∈ rest.reverse, (c != sep) = true := by
    intro c hc
    rw [bne_iff_ne]
    rintro rfl
    exact hrest (List.mem_reverse.1 hc)
  rw [rpartition, before, List.reverse_append, List.reverse_cons, List.append_assoc,
    List.dropWhile_append_of_pos hall, List.takeWhile_append_of_pos hall]
  simp

/-- What a last part is taken from. -/
lemma eq_append_of_rpartition (hne : (rpartition sep text).1 ≠ []) :
    text = (rpartition sep text).1 ++ sep :: (rpartition sep text).2 ∧
      sep ∉ (rpartition sep text).2 := by
  have hsplit : text.reverse.takeWhile (· != sep) ++ text.reverse.dropWhile (· != sep) =
    text.reverse := List.takeWhile_append_dropWhile
  cases hdrop : text.reverse.dropWhile (· != sep) with
  | nil =>
    refine absurd ?_ hne
    rw [rpartition, hdrop]
    rfl
  | cons c cs =>
    have hc : c = sep := by
      have hhead := List.head?_dropWhile_not (· != sep) text.reverse
      rw [hdrop] at hhead
      simpa using hhead
    subst hc
    rw [rpartition, before, hdrop]
    constructor
    · have hreverse := congrArg List.reverse hsplit
      rw [hdrop, List.reverse_append, List.reverse_reverse, List.reverse_cons,
        List.append_assoc] at hreverse
      exact hreverse.symm
    · intro hmem
      have hne := List.mem_takeWhile_imp (List.mem_reverse.1 hmem)
      simp at hne

end Texts

/-! ### Installed distributions -/

/-- A distribution in the directory that a worker installs into. -/
structure Dist where
  name : Text
  version : Text
  directUrl : Option DirectUrl
  name_ne : name ≠ []
  name_visible : isHidden name = false
  version_dash : '-' ∉ version

/-- `{name}-{version}.dist-info` -/
def Dist.entry (dist : Dist) : EnvEntry :=
  (dist.name ++ '-' :: dist.version ++ distInfo, dist.directUrl)

section Entries

variable {lower : Text → Text}

lemma isHidden_append {name : Text} (hname : name ≠ []) (rest : Text) :
    isHidden (name ++ rest) = isHidden name := by
  obtain ⟨c, cs, rfl⟩ := List.exists_cons_of_ne_nil hname
  simp [isHidden, startsWith, List.cons_prefix_cons]

lemma dropEnd_append (ending text : Text) : dropEnd ending (text ++ ending) = text := by
  rw [dropEnd, List.length_append, Nat.add_sub_cancel, List.take_left]

lemma envDirDist_eq (entry : EnvEntry) : envDirDist lower entry =
    if isHidden entry.1 || !endsWith distInfo entry.1 then none
    else if (rpartition '-' (dropEnd distInfo entry.1)).1 = [] then none
    else some (canonical lower (rpartition '-' (dropEnd distInfo entry.1)).1,
      before '+' (rpartition '-' (dropEnd distInfo entry.1)).2, entry.2.bind directUrlSpec) := rfl

/-- What a worker reads of a distribution. -/
lemma Dist.envDirDist_entry (dist : Dist) : envDirDist lower dist.entry =
    some (canonical lower dist.name, before '+' dist.version,
      dist.directUrl.bind directUrlSpec) := by
  have hhidden : isHidden dist.entry.1 = false := by
    rw [Dist.entry, List.append_assoc, isHidden_append dist.name_ne, dist.name_visible]
  have hending : endsWith distInfo dist.entry.1 = true := decide_eq_true ⟨_, rfl⟩
  have hparts : rpartition '-' (dropEnd distInfo dist.entry.1) = (dist.name, dist.version) := by
    rw [Dist.entry, dropEnd_append, rpartition_append dist.version_dash]
  rw [envDirDist_eq, hhidden, hending, hparts, if_neg dist.name_ne]
  rfl

/-- Nothing else is read as one. -/
lemma exists_dist_of_envDirDist {entry : EnvEntry} {e : Text × Text × Option Text}
    (hread : envDirDist lower entry = some e) : ∃ dist : Dist, entry = dist.entry := by
  rw [envDirDist_eq] at hread
  split_ifs at hread with hskip hname
  obtain ⟨hhidden, hending⟩ := Bool.or_eq_false_iff.1 (Bool.eq_false_iff.2 hskip)
  obtain ⟨stem, hstem⟩ := of_decide_eq_true (Bool.not_eq_eq_eq_not.1 hending)
  rw [← hstem, dropEnd_append] at hname
  obtain ⟨hsplit, hdash⟩ := eq_append_of_rpartition hname
  refine ⟨⟨_, _, entry.2, hname, ?_, hdash⟩, Prod.ext ?_ rfl⟩
  · rw [← isHidden_append hname ('-' :: (rpartition '-' stem).2 ++ distInfo), ← List.append_assoc,
      ← hsplit, hstem, hhidden]
  · show entry.1 = _ ++ '-' :: _ ++ distInfo
    rw [← hsplit, hstem]

/-- **What a worker knows of a distribution** is read from one with the name. -/
lemma get_envDirDistributions {entries : List EnvEntry} {name : Text} {dist : Dist}
    (hmem : dist.entry ∈ entries) (hname : canonical lower dist.name = name) :
    ∃ dist : Dist, dist.entry ∈ entries ∧ canonical lower dist.name = name ∧
      (envDirDistributions lower entries).get name =
        some (before '+' dist.version, dist.directUrl.bind directUrlSpec) := by
  have hread : (name, before '+' dist.version, dist.directUrl.bind directUrlSpec) ∈
      entries.filterMap (envDirDist lower) :=
    List.mem_filterMap.2 ⟨_, hmem, hname ▸ dist.envDirDist_entry⟩
  have hget := get_setAll name (entries.filterMap (envDirDist lower)) .empty
  rw [Dict.get_empty, Option.or_none] at hget
  cases hfind : (entries.filterMap (envDirDist lower)).reverse.findSome? fun e =>
      if e.1 = name then some e.2 else none with
  | none =>
    have hnone := List.findSome?_eq_none_iff.1 hfind _ (List.mem_reverse.2 hread)
    rw [if_pos rfl] at hnone
    cases hnone
  | some found =>
    obtain ⟨e, he, heq⟩ := List.exists_of_findSome?_eq_some hfind
    split_ifs at heq with hename
    obtain ⟨entry, hentry, hreadentry⟩ := List.mem_filterMap.1 (List.mem_reverse.1 he)
    obtain ⟨dist', rfl⟩ := exists_dist_of_envDirDist hreadentry
    rw [dist'.envDirDist_entry] at hreadentry
    obtain rfl := Option.some.inj hreadentry
    refine ⟨dist', hentry, hename, ?_⟩
    rw [envDirDistributions, ← setAll, hget, hfind, ← heq]

end Entries

/-! ### Deciding -/

section Decide

variable {importable : Text → Bool} {dists : Dict Text (Text × Option Text)}

/-- Nothing to do. -/
def Install.nothing : Install := ⟨[], []⟩

/-- **One package** leaves nothing to do when nothing was, and it is not needed. -/
lemma addPackage_eq_nothing_iff {i : Install} {package : Text × Text} :
    addPackage importable dists i package = some .nothing ↔
      i = .nothing ∧ needsInstall importable (dists.get package.1) package.1 package.2 =
        some false := by
  rw [addPackage]
  cases hneeds : needsInstall importable (dists.get package.1) package.1 package.2 with
  | none =>
    constructor
    · intro h
      cases h
    · rintro ⟨-, h⟩
      cases h
  | some needs =>
    cases needs with
    | false =>
      constructor
      · intro h
        exact ⟨Option.some.inj h, rfl⟩
      · rintro ⟨rfl, -⟩
        rfl
    | true =>
      constructor
      · intro h
        have hinstall := congrArg Install.packagesToInstall (Option.some.inj h)
        exact absurd hinstall (List.append_ne_nil_of_right_ne_nil _ (List.cons_ne_nil _ _))
      · rintro ⟨-, h⟩
        cases h

/-- **All packages.** -/
lemma foldlM_eq_nothing_iff {i : Install} {packages : List (Text × Text)} :
    packages.foldlM (addPackage importable dists) i = some .nothing ↔
      i = .nothing ∧ ∀ package ∈ packages,
        needsInstall importable (dists.get package.1) package.1 package.2 = some false := by
  induction packages generalizing i with
  | nil => exact ⟨fun h => ⟨Option.some.inj h, fun _ hmem => by cases hmem⟩, fun h => congrArg _ h.1⟩
  | cons package packages ih =>
    rw [List.foldlM_cons, List.forall_mem_cons, ← and_assoc, ← addPackage_eq_nothing_iff]
    cases addPackage importable dists i package with
    | none =>
      constructor
      · intro h
        cases h
      · rintro ⟨h, -⟩
        cases h
    | some j =>
      rw [Option.some.injEq]
      exact ih

lemma pysparkFirst_eq_nil_iff {packages : List (Text × Text)} :
    pysparkFirst packages = [] ↔ packages = [] := by
  constructor
  · intro h
    obtain ⟨hpyspark, hothers⟩ := List.append_eq_nil_iff.1 h
    refine List.eq_nil_iff_forall_not_mem.2 fun package hmem => ?_
    by_cases hname : package.1 = "pyspark".toList
    · exact absurd (decide_eq_true hname) (List.filter_eq_nil_iff.1 hpyspark package hmem)
    · exact absurd (by rw [decide_eq_false hname]; rfl)
        (List.filter_eq_nil_iff.1 hothers package hmem)
  · rintro rfl
    rfl

/-- **Nothing is installed** when no package is needed. -/
lemma installClientEnvironment_eq_nothing_iff {lower : Text → Text} {entries : List EnvEntry}
    {packages : Dict Text Text} :
    installClientEnvironment lower importable entries packages = some .nothing ↔
      ∀ package ∈ packages.items, needsInstall importable
        ((envDirDistributions lower entries).get package.1) package.1 package.2 = some false := by
  rw [installClientEnvironment, Option.map_eq_some_iff]
  constructor
  · rintro ⟨⟨installs, uninstalls⟩, hfold, heq⟩
    obtain rfl : uninstalls = [] := congrArg Install.packagesToUninstall heq
    obtain rfl : installs = [] :=
      pysparkFirst_eq_nil_iff.1 (congrArg Install.packagesToInstall heq)
    exact (foldlM_eq_nothing_iff.1 hfold).2
  · intro hall
    exact ⟨.nothing, foldlM_eq_nothing_iff.2 ⟨rfl, hall⟩, rfl⟩

end Decide

/-! ### Records of installers -/

/-- A record of a source: its URL, and for a repository the kind and a commit, which is the one that
was asked for. -/
def Source.RecordedAs (s : Source) (record : DirectUrl) : Prop :=
  record.url = some s.url ∧
    match s.repository with
    | none => record.repository = none
    | some (vcs, commit) => ∃ commit', commit' ≠ [] ∧ record.repository = some (vcs, some commit') ∧
        ∀ asked, given commit = some asked → commit' = asked

/-- A version is recorded in the name of the directory, and a source in `direct_url.json`. -/
def Dist.Records (dist : Dist) : Requirement → Prop
  | .version publicVersion => dist.directUrl = none ∧ before '+' dist.version = publicVersion
  | .direct source => ∃ record, dist.directUrl = some record ∧ source.RecordedAs record

/-- A commit belongs to a location. -/
lemma vcsSpec_eq_iff {vcs url : Text} {commit commit' : Option Text} :
    vcsSpec vcs url commit = vcsSpec vcs url commit' ↔ given commit = given commit' := by
  rw [vcsSpec, vcsSpec, List.append_cancel_left_eq]
  cases given commit with
  | none =>
    cases given commit' with
    | none => simp
    | some c' => simp
  | some c =>
    cases given commit' with
    | none => simp
    | some c' => simp

/-- **A source is found again** in the record of it, unless it is a repository without a commit. -/
lemma Source.RecordedAs.directUrlSpec_eq_iff {s : Source} {record : DirectUrl}
    (hrecorded : s.RecordedAs record) (hurl : s.url ≠ []) :
    directUrlSpec record = some s.location ↔
      ∀ vcs commit, s.repository = some (vcs, commit) → given commit ≠ none := by
  obtain ⟨repository, url, subdirectory⟩ := s
  obtain ⟨hrecordurl, hkind⟩ := hrecorded
  rw [directUrlSpec, hrecordurl, Source.location]
  cases repository with
  | none =>
    simp only at hkind
    rw [hkind]
    constructor
    · intro _ vcs commit hrepository
      cases hrepository
    · intro _
      exact Option.filter_some_pos (decide_eq_true hurl)
  | some repository =>
    obtain ⟨vcs, commit⟩ := repository
    obtain ⟨commit', hne, hrepository, hasked⟩ := hkind
    have hgiven : given (some commit') = some commit' := Option.filter_some_pos (decide_eq_true hne)
    rw [hrepository]
    simp only [Option.some.injEq, Option.getD_some]
    rw [vcsSpec_eq_iff, hgiven]
    constructor
    · rintro hcommit _ _ heq
      obtain ⟨rfl, rfl⟩ := Prod.mk.inj heq
      rw [← hcommit]
      exact Option.some_ne_none _
    · intro hcommit
      obtain ⟨asked, heq⟩ := Option.ne_none_iff_exists'.1 (hcommit vcs commit rfl)
      rw [heq, hasked asked heq]

/-! ### Installing again -/

section Again

variable {π : Type} [DecidableEq π] {h : Host π} {listed : π → List Text} {locations : List π}
  {entries : List EnvEntry} {importable : Text → Bool} {d : Shipped h listed locations}

namespace Shipped

/-- A distribution that a worker has installed from its requirement, which an installer can read. -/
structure Installed (entries : List EnvEntry) (d : Shipped h listed locations) : Prop where
  rawName_space : ' ' ∉ d.rawName
  rawName_equals : '=' ∉ d.rawName
  version_space : ' ' ∉ d.version
  present : ∃ dist : Dist, dist.entry ∈ entries ∧ canonical h.lower dist.name = d.name
  records : ∀ dist : Dist, dist.entry ∈ entries → canonical h.lower dist.name = d.name →
    dist.Records d.asked

/-- A repository comes with a commit. -/
def HasCommit (d : Shipped h listed locations) : Prop :=
  ∀ record, d.referred = some record → ∀ vcs commit, record.repository = some (vcs, commit) →
    given commit ≠ none

/-- **What has been installed** is not needed again, when a repository comes with a commit. -/
lemma Installed.needsInstall_eq_false_iff (hinstalled : d.Installed entries) :
    needsInstall importable ((envDirDistributions h.lower entries).get d.name) d.name
      d.requirement = some false ↔ d.HasCommit := by
  obtain ⟨dist, hmem, hname⟩ := hinstalled.present
  obtain ⟨dist, hmem, hname, hget⟩ := get_envDirDistributions hmem hname
  have hrecords := hinstalled.records dist hmem hname
  rw [hget, d.text_asked, needsInstall, HasCommit]
  rw [asked] at hrecords ⊢
  cases hreferred : d.referred with
  | none =>
    rw [hreferred] at hrecords
    obtain ⟨hdirect, hversion⟩ := hrecords
    have hspace : ' ' ∉ (Requirement.version (before '+' d.version)).text d.rawName := by
      intro hmem
      rcases List.mem_append.1 hmem with hmem | hmem
      · rcases List.mem_append.1 hmem with hmem | hmem
        · exact hinstalled.rawName_space hmem
        · exact absurd hmem (by decide)
      · exact hinstalled.version_space (List.takeWhile_subset _ hmem)
    have hafter : splitAfter twoEquals ((Requirement.version (before '+' d.version)).text d.rawName) =
        some (before '+' d.version) := splitAfter_append ['='] hinstalled.rawName_equals
    simp only
    rw [contains_eq_false (by decide : ' ' ∈ atSign) hspace, if_neg Bool.false_ne_true, hafter,
      hdirect, hversion]
    constructor
    · intro _ record hrecord
      cases hrecord
    · intro _
      simp [given]
  | some record =>
    rw [hreferred] at hrecords
    obtain ⟨record', hdirect, hrecorded⟩ := hrecords
    obtain ⟨-, -, hurl, -⟩ := referred_eq_some_iff.1 hreferred
    have hafter : splitAfter atSign (atSpec d.rawName (Source.location
        ⟨record.repository, record.url.getD [], none⟩)) = some (Source.location
          ⟨record.repository, record.url.getD [], none⟩) :=
      splitAfter_append ['@', ' '] hinstalled.rawName_space
    have htext : (Requirement.direct ⟨record.repository, record.url.getD [], none⟩).text d.rawName =
        atSpec d.rawName (Source.location ⟨record.repository, record.url.getD [], none⟩) :=
      congrArg (atSpec d.rawName) (List.append_nil _)
    have hcontains : contains atSign (atSpec d.rawName (Source.location
      ⟨record.repository, record.url.getD [], none⟩)) = true := contains_append
    simp only
    rw [htext, hcontains, if_pos rfl, hafter, hdirect, Option.map_some, Option.some.injEq,
      decide_eq_false_iff_not, not_not, Option.bind_some, hrecorded.directUrlSpec_eq_iff hurl]
    constructor
    · rintro hcommit _ heq
      obtain rfl := Option.some.inj heq
      exact hcommit
    · intro hcommit
      exact hcommit record rfl

/-- **The distributions that are replicated**: those required by their version, and those whose
record has no subdirectory, and with a repository also a commit. -/
def Replicable (d : Shipped h listed locations) : Prop :=
  ∀ record, d.referred = some record → given record.subdirectory = none ∧
    ∀ vcs commit, record.repository = some (vcs, commit) → given commit ≠ none

lemma replicable_iff : d.Replicable ↔ d.NamesSource ∧ d.HasCommit := by
  rw [namesSource_iff, HasCommit, Replicable]
  exact forall₂_and

end Shipped

variable {packages : Dict Text Text}

/-- **The environment is replicated**: every requirement names the source of its distribution, or
its public version, and once all are installed nothing is installed again, exactly when no record
that is used has a subdirectory, or a repository without a commit. -/
theorem replicates_iff
    (hpackages : ∀ package ∈ packages.items,
      (scan h listed locations).requirements.get package.1 = some package.2)
    (hinstalled : ∀ d : Shipped h listed locations, d.name ∈ packages.keys → d.Installed entries) :
    ((∀ d : Shipped h listed locations, d.name ∈ packages.keys → d.NamesSource) ∧
      installClientEnvironment h.lower importable entries packages = some .nothing) ↔
      ∀ d : Shipped h listed locations, d.name ∈ packages.keys → d.Replicable := by
  have hsteady : installClientEnvironment h.lower importable entries packages = some .nothing ↔
      ∀ d : Shipped h listed locations, d.name ∈ packages.keys → d.HasCommit := by
    rw [installClientEnvironment_eq_nothing_iff]
    constructor
    · intro hall d hkey
      obtain ⟨requirement, hget⟩ := Dict.mem_keys.1 hkey
      have hmem := Dict.mem_items.2 hget
      obtain rfl : d.requirement = requirement :=
        Option.some.inj (d.shipped.symm.trans (hpackages _ hmem))
      exact (hinstalled d hkey).needsInstall_eq_false_iff.1 (hall _ hmem)
    · intro hall package hmem
      obtain ⟨d, hname, hrequirement⟩ := exists_shipped (hpackages package hmem)
      have hkey : d.name ∈ packages.keys :=
        Dict.mem_keys.2 ⟨package.2, hname ▸ Dict.mem_items.1 hmem⟩
      rw [← hname, ← hrequirement]
      exact (hinstalled d hkey).needsInstall_eq_false_iff.2 (hall d hkey)
  rw [hsteady]
  simp only [Shipped.replicable_iff]
  exact forall₂_and.symm

end Again

/-! ### A distribution from a repository -/

/-- A host with one distribution, of which this record says where it comes from. -/
def flaskFrom (record : DirectUrl) : Host Unit where
  isDir _ := true
  resolve _ _ := ()
  fileUriToPath _ := ()
  realPath d := d
  isDirEntry _ _ := true
  read _ _ := none
  directUrl _ _ := some record
  lower name := name.map Char.toLower
  isDigit := Char.isDigit

def flaskOnly (_ : Unit) : List Text := ["flask-1.0.dist-info".toList]

def pallets : Text := "https://github.com/pallets/flask".toList

/-- A record of a repository. -/
def fromRepository (commit subdirectory : Option Text) : DirectUrl :=
  ⟨some pallets, some ⟨some "git".toList, commit⟩, subdirectory, none, false⟩

def abc123 : Text := "abc123".toList

def flask : Text := "flask".toList

/-- What a worker has, once the repository has been installed. -/
def flaskInstalled : List EnvEntry :=
  [("flask-1.0.dist-info".toList, some (fromRepository (some abc123) none))]

def onlyFlask (requirement : Text) : Dict Text Text := ⟨[(flask, requirement)], List.nodup_singleton _⟩

/-- The distribution is the one of the directory. -/
lemma flask_eq {commit subdirectory : Option Text}
    (d : Shipped (flaskFrom (fromRepository commit subdirectory)) flaskOnly [()])
    (hname : d.name = flask) : d.rawName = flask ∧ d.version = "1.0".toList ∧
      d.referred = some (fromRepository commit subdirectory) := by
  obtain ⟨name, location, entryName, rawName, version, requirement, hfirst, hnamed, hshipped⟩ := d
  obtain rfl : name = flask := hname
  have hentry : firstEntry (flaskFrom (fromRepository commit subdirectory)) flaskOnly [()] flask =
      some ((), "flask-1.0.dist-info".toList) := rfl
  obtain ⟨-, rfl⟩ := Prod.mk.inj (Option.some.inj (hfirst.symm.trans hentry))
  have hversion : nameVersion (flaskFrom (fromRepository commit subdirectory)) location
      "flask-1.0.dist-info".toList = some (flask, "1.0".toList) := rfl
  obtain ⟨rfl, rfl⟩ := Prod.mk.inj (Option.some.inj (hnamed.symm.trans hversion))
  refine ⟨rfl, rfl, Shipped.referred_eq_some_iff.2 ⟨rfl, ?_⟩⟩
  have hurl : pallets ≠ [] := by decide
  have hpoetry : contains "pypoetry/artifacts".toList (toSlash pallets) = false := by decide
  exact ⟨(by decide : ([] : Text) ≠ "conda".toList), hurl, hpoetry, Or.inl rfl⟩

/-- The distribution has been installed, from this commit if there is one. -/
lemma flask_installed {commit subdirectory : Option Text}
    (hcommit : ∀ asked, given commit = some asked → abc123 = asked)
    (d : Shipped (flaskFrom (fromRepository commit subdirectory)) flaskOnly [()])
    (hname : d.name = flask) : d.Installed flaskInstalled := by
  obtain ⟨hrawName, hversion, hreferred⟩ := flask_eq d hname
  refine ⟨?_, ?_, ?_, ⟨⟨flask, "1.0".toList, _, by decide, by decide, by decide⟩,
    List.mem_singleton.2 rfl, ?_⟩, ?_⟩
  · rw [hrawName]
    decide
  · rw [hrawName]
    decide
  · rw [hversion]
    decide
  · rw [hname]
    exact (by decide : canonical (List.map Char.toLower) flask = flask)
  · intro dist hmem _
    have hdirect : dist.directUrl = some (fromRepository (some abc123) none) :=
      congrArg Prod.snd (List.mem_singleton.1 hmem)
    rw [Shipped.asked, hreferred]
    exact ⟨_, hdirect, rfl, abc123, by decide, rfl, hcommit⟩

/-- With its commit it is replicated. -/
theorem replicates_iff_commit :
    (∀ d : Shipped (flaskFrom (fromRepository (some abc123) none)) flaskOnly [()],
      d.name ∈ (onlyFlask "flask @ git+https://github.com/pallets/flask@abc123".toList).keys →
        d.NamesSource) ∧
      installClientEnvironment (List.map Char.toLower) (fun _ => false) flaskInstalled
        (onlyFlask "flask @ git+https://github.com/pallets/flask@abc123".toList) =
          some .nothing := by
  refine (replicates_iff (h := flaskFrom (fromRepository (some abc123) none)) ?_ ?_).2 ?_
  · intro package hmem
    obtain rfl := List.mem_singleton.1 hmem
    rw [(get_scan _ _ _ _).1, outcome_scan]
    decide
  · intro d hkey
    have hgiven : some abc123 = given (some abc123) := by decide
    exact flask_installed (fun asked heq => Option.some.inj (hgiven.trans heq)) d
      (List.mem_singleton.1 hkey)
  · intro d hkey record hreferred
    obtain ⟨-, -, hrecord⟩ := flask_eq d (List.mem_singleton.1 hkey)
    obtain rfl := Option.some.inj (hreferred.symm.trans hrecord)
    refine ⟨rfl, fun vcs commit hrepository => ?_⟩
    obtain ⟨-, rfl⟩ := Prod.mk.inj (Option.some.inj hrepository)
    exact Option.some_ne_none _

/-- From a subdirectory the requirement is that of the whole repository; and without a commit the
same requirement is installed once more. -/
theorem flask_not_replicated :
    ((scan (flaskFrom (fromRepository (some abc123) (some "src".toList))) flaskOnly
        [()]).requirements.get flask =
          some "flask @ git+https://github.com/pallets/flask@abc123".toList ∧
      ∀ d : Shipped (flaskFrom (fromRepository (some abc123) (some "src".toList))) flaskOnly [()],
        d.name = flask → ¬d.NamesSource) ∧
    ((scan (flaskFrom (fromRepository none none)) flaskOnly [()]).requirements.get flask =
        some "flask @ git+https://github.com/pallets/flask".toList ∧
      (∀ d : Shipped (flaskFrom (fromRepository none none)) flaskOnly [()],
        d.name = flask → d.Installed flaskInstalled) ∧
      installClientEnvironment (List.map Char.toLower) (fun _ => false) flaskInstalled
        (onlyFlask "flask @ git+https://github.com/pallets/flask".toList) =
          some ⟨[(flask, "flask @ git+https://github.com/pallets/flask".toList)], [flask]⟩) := by
  refine ⟨⟨?_, ?_⟩, ?_, ?_, ?_⟩
  · rw [(get_scan _ _ _ _).1, outcome_scan]
    decide
  · intro d hname hnames
    obtain ⟨-, -, hreferred⟩ := flask_eq d hname
    exact absurd (d.namesSource_iff.1 hnames _ hreferred) (by decide)
  · rw [(get_scan _ _ _ _).1, outcome_scan]
    decide
  · exact flask_installed fun asked heq => by cases heq
  · decide

end Burla.Env
