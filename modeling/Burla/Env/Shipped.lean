/-
What the requirement of a distribution asks for.

A `Source` is what PEP 610 says of where a distribution comes from, and a `Requirement` is that, or
a version.  The scan emits texts; `Shipped.text_asked` says of which requirement each is the text,
and `Shipped.namesSource_iff` when that one has the whole source.
-/
import Burla.Env.Found
import Burla.Env.Install

namespace Burla.Env

variable {π : Type}

/-! ### The entry of a distribution -/

section Entry

variable (h : Host π) (listed : π → List Text) (locations : List π) (name : Text)

/-- The entry of a directory that gives its copy of a distribution. -/
def preferredEntry (location : π) : Option Text :=
  ((listed location).find? fun entryName =>
    (copyOf h location entryName).any fun c => decide (c.name = name) && c.isDistInfo).or
  ((listed location).find? fun entryName =>
    (copyOf h location entryName).any fun c => decide (c.name = name))

/-- The entry that the first copy of a distribution is. -/
def firstEntry : Option (π × Text) :=
  (locations ++ locations.flatMap (graftsIn h listed)).findSome? fun location =>
    (preferredEntry h listed name location).map fun entryName => (location, entryName)

variable {h} in
lemma exists_of_find?_any {location : π} {entryNames : List Text} {entryName : Text}
    {p : Copy π → Bool}
    (hfind : entryNames.find? (fun e => (copyOf h location e).any p) = some entryName) :
    ∃ c, copyOf h location entryName = some c ∧ p c = true := by
  have hany := List.find?_some hfind
  exact (Option.any_eq_true _ _).1 hany

lemma pick_eq (location : π) : pick h listed name location =
    (preferredEntry h listed name location).bind (copyOf h location) := by
  rw [pick, preferred, copiesIn, List.find?_filterMap, List.find?_filterMap, preferredEntry]
  cases hdist : (listed location).find? fun entryName =>
      (copyOf h location entryName).any fun c => decide (c.name = name) && c.isDistInfo with
  | none => rfl
  | some entryName =>
    obtain ⟨c, hc, -⟩ := exists_of_find?_any hdist
    rw [Option.some_or, Option.bind_some, hc]
    rfl

variable {h listed locations name} {location : π} {entryName : Text}

/-- An entry that gives a copy has one, under the name. -/
lemma copyOf_of_preferredEntry (hentry : preferredEntry h listed name location = some entryName) :
    ∃ c, copyOf h location entryName = some c ∧ c.name = name := by
  rcases Option.or_eq_some_iff.1 hentry with hdist | ⟨-, hegg⟩
  · obtain ⟨c, hc, hname⟩ := exists_of_find?_any hdist
    exact ⟨c, hc, of_decide_eq_true (Bool.and_eq_true_iff.1 hname).1⟩
  · obtain ⟨c, hc, hname⟩ := exists_of_find?_any hegg
    exact ⟨c, hc, of_decide_eq_true hname⟩

/-- **The first copy** is that of the first entry. -/
lemma firstCopy_eq :
    firstCopy h listed locations name =
      (firstEntry h listed locations name).bind fun e => copyOf h e.1 e.2 := by
  rw [firstCopy, firstEntry]
  induction locations ++ locations.flatMap (graftsIn h listed) with
  | nil => rfl
  | cons d ds ih =>
    rw [List.findSome?_cons, List.findSome?_cons, pick_eq]
    cases hentry : preferredEntry h listed name d with
    | none => exact ih
    | some entryName =>
      obtain ⟨c, hc, -⟩ := copyOf_of_preferredEntry hentry
      rw [Option.bind_some, hc]
      exact hc.symm

lemma copyOf_of_firstEntry
    (hentry : firstEntry h listed locations name = some (location, entryName)) :
    ∃ c, copyOf h location entryName = some c ∧ c.name = name := by
  obtain ⟨d, -, hd⟩ := List.exists_of_findSome?_eq_some hentry
  obtain ⟨e, he, heq⟩ := Option.map_eq_some_iff.1 hd
  obtain ⟨rfl, rfl⟩ := Prod.mk.inj heq
  exact copyOf_of_preferredEntry he

end Entry

/-! ### Requirements -/

/-- Where a distribution comes from. -/
structure Source where
  /-- The kind of the repository, and the commit. -/
  repository : Option (Text × Option Text)
  url : Text
  subdirectory : Option Text
  deriving DecidableEq

/-- The URL of a source, with the repository. -/
def Source.location (s : Source) : Text :=
  match s.repository with
  | some (vcs, commit) => vcsSpec vcs s.url commit
  | none => s.url

/-- The direct reference to a source. -/
def Source.reference (s : Source) : Text :=
  s.location ++ ((given s.subdirectory).map ("#subdirectory=".toList ++ ·)).getD []

/-- The source that a record has: a repository, or an archive. -/
def DirectUrl.source (record : DirectUrl) : Option Source :=
  if record.repository.isSome || record.archiveInfo then
    (given record.url).map fun url => ⟨record.repository, url, record.subdirectory⟩
  else none

/-- What a requirement asks for. -/
inductive Requirement
  | version (publicVersion : Text)
  | direct (source : Source)
  deriving DecidableEq

def Requirement.text (rawName : Text) : Requirement → Text
  | .version publicVersion => rawName ++ twoEquals ++ publicVersion
  | .direct source => atSpec rawName source.reference

/-- The text of a version is none of a direct reference. -/
lemma Requirement.text_version_ne (rawName publicVersion spec : Text) :
    (Requirement.version publicVersion).text rawName ≠ atSpec rawName spec := by
  intro heq
  rw [text, atSpec, List.append_assoc, List.append_assoc, List.append_cancel_left_eq] at heq
  exact absurd (List.cons.inj heq).1 (by decide)

/-- **A subdirectory is part of the direct reference**, unless it is empty. -/
lemma Source.reference_eq_location_iff (s : Source) :
    s.reference = s.location ↔ given s.subdirectory = none := by
  rw [Source.reference, List.append_right_eq_self]
  cases given s.subdirectory with
  | none => exact ⟨fun _ => rfl, fun _ => rfl⟩
  | some subdirectory =>
    constructor
    · intro hnil
      exact absurd (List.append_eq_nil_iff.1 hnil).1 (by decide)
    · intro hnone
      cases hnone

/-! ### Records -/

/-- A record that is used: of an installer that keeps it right, and with a repository, or with an
archive on the web. -/
def IsReferred (installer : Text) (record : DirectUrl) : Prop :=
  installer ≠ "conda".toList ∧ record.url.getD [] ≠ [] ∧
    contains "pypoetry/artifacts".toList (toSlash (record.url.getD [])) = false ∧
      (record.repository.isSome = true ∨
        record.dirInfo = none ∧ record.archiveInfo = true ∧
          (urlScheme (record.url.getD []) = "http".toList ∨
            urlScheme (record.url.getD []) = "https".toList))

instance (installer : Text) (record : DirectUrl) : Decidable (IsReferred installer record) :=
  inferInstanceAs (Decidable (_ ∧ _ ∧ _ ∧ (_ ∨ _ ∧ _ ∧ (_ ∨ _))))

section Classify

variable {h : Host π} {location : π} {entryName rawName : Text} {record : DirectUrl}

/-- The source of a record that is used. -/
lemma IsReferred.source {installer : Text} (hreferred : IsReferred installer record) :
    record.source = some ⟨record.repository, record.url.getD [], record.subdirectory⟩ := by
  obtain ⟨-, hurl, -, hkind⟩ := hreferred
  have hany : (record.repository.isSome || record.archiveInfo) = true := by
    rcases hkind with hvcs | ⟨-, harchive, -⟩
    · rw [hvcs, Bool.true_or]
    · rw [harchive, Bool.or_true]
  rw [DirectUrl.source, if_pos hany]
  cases hsome : record.url with
  | none =>
    rw [hsome] at hurl
    exact absurd rfl hurl
  | some url =>
    rw [hsome] at hurl
    rw [given, Option.filter_some_pos (by simpa using hurl)]
    rfl

/-- **A record that is used** gives the location of its source. -/
lemma classifyFromDirectUrl_of_isReferred (hrecord : h.directUrl location entryName = some record)
    (hreferred : IsReferred (readInstaller h location entryName) record) :
    classifyFromDirectUrl h location entryName rawName = some (.req (atSpec rawName
      (Source.location ⟨record.repository, record.url.getD [], record.subdirectory⟩))) := by
  obtain ⟨hconda, hurl, hpoetry, hkind⟩ := hreferred
  rw [classifyFromDirectUrl, hrecord]
  simp only
  rw [if_neg hconda, if_neg (by rw [hpoetry]; simpa using hurl), ← DirectUrl.repository]
  rcases hkind with hvcs | ⟨hdir, harchive, hscheme⟩
  · obtain ⟨⟨vcs, commit⟩, hrepository⟩ := Option.isSome_iff_exists.1 hvcs
    rw [hrepository]
    rfl
  · cases hrepository : record.repository with
    | some repository => rfl
    | none =>
      rw [hdir]
      exact if_pos ⟨harchive, hscheme⟩

/-- Any other record gives no requirement. -/
lemma isReferred_of_classifyFromDirectUrl {spec : Text}
    (hrecord : h.directUrl location entryName = some record)
    (hclassify : classifyFromDirectUrl h location entryName rawName = some (.req spec)) :
    IsReferred (readInstaller h location entryName) record := by
  rw [classifyFromDirectUrl, hrecord] at hclassify
  simp only at hclassify
  rw [← DirectUrl.repository] at hclassify
  by_cases hconda : readInstaller h location entryName = "conda".toList
  · rw [if_pos hconda] at hclassify
    cases hclassify
  rw [if_neg hconda] at hclassify
  by_cases hskip : record.url.getD [] = [] ∨
      contains "pypoetry/artifacts".toList (toSlash (record.url.getD [])) = true
  · rw [if_pos hskip] at hclassify
    cases hclassify
  rw [if_neg hskip] at hclassify
  obtain ⟨hurl, hpoetry⟩ := not_or.1 hskip
  refine ⟨hconda, hurl, Bool.eq_false_iff.2 hpoetry, ?_⟩
  cases hrepository : record.repository with
  | some repository => exact Or.inl rfl
  | none =>
    rw [hrepository] at hclassify
    cases hdir : record.dirInfo with
    | some editable =>
      -- A directory is local, or has its version.
      rw [hdir] at hclassify
      simp only at hclassify
      split_ifs at hclassify
      cases hclassify
    | none =>
      rw [hdir] at hclassify
      simp only at hclassify
      split_ifs at hclassify with harchive
      exact Or.inr ⟨rfl, harchive⟩

end Classify

/-! ### Distributions -/

section Distributions

variable [DecidableEq π]

/-- A distribution that a requirement is emitted for, with the entry that the requirement comes
from. -/
structure Shipped (h : Host π) (listed : π → List Text) (locations : List π) where
  name : Text
  location : π
  entryName : Text
  rawName : Text
  version : Text
  requirement : Text
  first : firstEntry h listed locations name = some (location, entryName)
  named : nameVersion h location entryName = some (rawName, version)
  shipped : (scan h listed locations).requirements.get name = some requirement

variable {h : Host π} {listed : π → List Text} {locations : List π}

namespace Shipped

variable (d : Shipped h listed locations)

/-- What `direct_url.json` says; an egg-info has none. -/
def record : Option DirectUrl :=
  if endsWith distInfo d.entryName then h.directUrl d.location d.entryName else none

/-- The record, if it is one that is used. -/
def referred : Option DirectUrl :=
  d.record.filter fun record => decide (IsReferred (readInstaller h d.location d.entryName) record)

/-- What the requirement asks for. -/
def asked : Requirement :=
  match d.referred with
  | some record => .direct ⟨record.repository, record.url.getD [], none⟩
  | none => .version (before '+' d.version)

lemma copyOf_eq : copyOf h d.location d.entryName =
    some ⟨d.name, d.rawName, d.version, endsWith distInfo d.entryName,
      classify h d.location d.entryName d.rawName⟩ := by
  obtain ⟨c, hc, hname⟩ := copyOf_of_firstEntry d.first
  rw [hc, ← hname]
  rw [copyOf, readCopy, d.named] at hc
  simp only at hc
  split_ifs at hc
  cases hc
  rfl

/-- **Where the requirement comes from**: the version, or a record. -/
lemma requirement_eq :
    (classify h d.location d.entryName d.rawName = none ∧
      d.requirement = versionPin d.rawName d.version) ∨
    classify h d.location d.entryName d.rawName = some (.req d.requirement) := by
  have hget := d.shipped
  rw [(get_scan h listed locations d.name).1, outcome_scan, firstCopy_eq, d.first,
    Option.bind_some, d.copyOf_eq, Option.map_some, Option.bind_some] at hget
  cases hroot : rootOf h listed locations d.name with
  | some target =>
    rw [hroot] at hget
    cases hget
  | none =>
    rw [hroot] at hget
    obtain hnone | ⟨spec | ⟨sourceDir, editable⟩, hsome⟩ :=
      (classify h d.location d.entryName d.rawName).eq_none_or_eq_some
    · rw [hnone] at hget
      exact Or.inl ⟨hnone, (Option.some.inj hget).symm⟩
    · rw [hsome] at hget
      exact Or.inr (hsome.trans (congrArg _ (congrArg _ (Option.some.inj hget))))
    · rw [hsome] at hget
      cases hget

variable {d} {record : DirectUrl}

lemma referred_eq_some_iff : d.referred = some record ↔
    d.record = some record ∧ IsReferred (readInstaller h d.location d.entryName) record := by
  rw [referred, Option.filter_eq_some_iff, decide_eq_true_eq]

/-- A record that is used is looked at by the scan. -/
lemma classify_of_referred (hreferred : d.referred = some record) :
    classify h d.location d.entryName d.rawName = some (.req (atSpec d.rawName
      (Source.location ⟨record.repository, record.url.getD [], record.subdirectory⟩))) := by
  obtain ⟨hrecord, hused⟩ := referred_eq_some_iff.1 hreferred
  rw [Shipped.record] at hrecord
  rw [classify]
  split_ifs at hrecord ⊢
  exact classifyFromDirectUrl_of_isReferred hrecord hused

/-- A direct reference comes from a record. -/
lemma exists_referred {spec : Text}
    (hclassify : classify h d.location d.entryName d.rawName = some (.req spec)) :
    ∃ record, d.referred = some record := by
  rw [classify] at hclassify
  split_ifs at hclassify with hdist
  cases hrecord : h.directUrl d.location d.entryName with
  | none =>
    rw [classifyFromDirectUrl, hrecord] at hclassify
    cases hclassify
  | some record =>
    refine ⟨record, referred_eq_some_iff.2 ⟨?_, isReferred_of_classifyFromDirectUrl hrecord
      hclassify⟩⟩
    rw [Shipped.record, if_pos hdist, hrecord]

variable (d)

/-- **What each requirement asks for**: the source of the record, but for its subdirectory, or the
public version. -/
lemma text_asked : d.requirement = d.asked.text d.rawName := by
  rw [asked]
  cases hreferred : d.referred with
  | some record =>
    have hclassify := classify_of_referred hreferred
    rcases d.requirement_eq with ⟨hnone, -⟩ | hsome
    · rw [hnone] at hclassify
      cases hclassify
    · rw [hsome] at hclassify
      obtain hspec : d.requirement = atSpec d.rawName _ := by
        injection hclassify with hreq
        injection hreq
      rw [hspec]
      show _ = atSpec d.rawName (Source.location _ ++ [])
      rw [List.append_nil]
      rfl
  | none =>
    rcases d.requirement_eq with ⟨-, hversion⟩ | hsome
    · exact hversion
    · obtain ⟨record, hrecord⟩ := exists_referred hsome
      rw [hreferred] at hrecord
      cases hrecord

/-! ### The whole source -/

/-- The requirement is that of the source that the record has, or of the public version. -/
def NamesSource : Prop :=
  ∃ named : Requirement, d.requirement = named.text d.rawName ∧
    (named = .version (before '+' d.version) ∨
      ∃ record source, d.record = some record ∧ record.source = some source ∧ named = .direct source)

/-- **The source is named** when there is no subdirectory. -/
lemma namesSource_iff :
    d.NamesSource ↔ ∀ record, d.referred = some record → given record.subdirectory = none := by
  rw [NamesSource, d.text_asked, asked]
  cases hreferred : d.referred with
  | none =>
    constructor
    · intro _ record hrecord
      cases hrecord
    · intro _
      exact ⟨_, rfl, Or.inl rfl⟩
  | some record =>
    obtain ⟨hrecord, hused⟩ := referred_eq_some_iff.1 hreferred
    have hasked : (Requirement.direct ⟨record.repository, record.url.getD [], none⟩).text d.rawName =
        atSpec d.rawName
          (Source.location ⟨record.repository, record.url.getD [], record.subdirectory⟩) :=
      congrArg (atSpec d.rawName) (List.append_nil _)
    have hreference := Source.reference_eq_location_iff
      ⟨record.repository, record.url.getD [], record.subdirectory⟩
    simp only [hasked]
    constructor
    · rintro ⟨named, htext, rfl | ⟨record', source, hrecord', hsource, rfl⟩⟩ _ heq
      · exact absurd htext.symm (Requirement.text_version_ne _ _ _)
      · obtain rfl := Option.some.inj heq
        obtain rfl : record = record' := Option.some.inj (hrecord.symm.trans hrecord')
        obtain rfl := Option.some.inj (hused.source.symm.trans hsource)
        exact hreference.1 (List.append_cancel_left htext).symm
    · intro hnone
      refine ⟨.direct _, ?_, Or.inr ⟨record, _, hrecord, hused.source, rfl⟩⟩
      exact congrArg (atSpec d.rawName) (hreference.2 (hnone record rfl)).symm

end Shipped

/-- **Every requirement** that the scan emits is one of these. -/
lemma exists_shipped {name requirement : Text}
    (hget : (scan h listed locations).requirements.get name = some requirement) :
    ∃ d : Shipped h listed locations, d.name = name ∧ d.requirement = requirement := by
  have hfirst := hget
  rw [(get_scan h listed locations name).1, outcome_scan, firstCopy_eq] at hfirst
  cases hentry : firstEntry h listed locations name with
  | none =>
    rw [hentry] at hfirst
    cases hfirst
  | some e =>
    obtain ⟨location, entryName⟩ := e
    obtain ⟨c, hc, -⟩ := copyOf_of_firstEntry hentry
    cases hnamed : nameVersion h location entryName with
    | none =>
      rw [copyOf, readCopy, hnamed] at hc
      split_ifs at hc
    | some e =>
      exact ⟨⟨name, location, entryName, e.1, e.2, requirement, hentry, hnamed, hget⟩, rfl, rfl⟩

end Distributions

end Burla.Env
