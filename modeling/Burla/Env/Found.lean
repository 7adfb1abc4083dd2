/-
What a scan finds, told without its queue.

* `scanLoop_spec`: the directories that are looked through, in which order, and where the egg-links
  lead to.
* `get_scan`: what is found of a distribution is its first copy, in the first directory that has
  one; an egg-link for it stands in for what the copy says.
-/
import Burla.Env.Scan
import Burla.Lib.Firsts

namespace Burla.Env

variable {π : Type}

/-! ### Entries -/

/-- What metadata says of a distribution. -/
structure Copy (π : Type) where
  name : Text
  rawName : Text
  version : Text
  isDistInfo : Bool
  classification : Option (Classification π)

/-- A requirement, or the directory of a local distribution. -/
abbrev Outcome (π : Type) := Text ⊕ π

/-- What is found of a distribution, if this copy is taken. -/
def Copy.outcome (c : Copy π) : Outcome π :=
  match c.classification with
  | none => .inl (versionPin c.rawName c.version)
  | some (.req spec) => .inl spec
  | some (.localDir sourceDir _) => .inr sourceDir

section Entries

variable (h : Host π) (location : π) (entryName : Text)

/-- The distribution that an entry of a directory has the metadata of. -/
def readCopy : Option (Copy π) :=
  match nameVersion h location entryName with
  | none => none
  | some (rawName, version) =>
    if isExcluded (canonical h.lower rawName) then none
    else some ⟨canonical h.lower rawName, rawName, version, endsWith distInfo entryName,
      classify h location entryName rawName⟩

/-- An entry that is a candidate. -/
def isCandidate (entryName : Text) : Bool := !isHidden entryName && isMetadata entryName

def copyOf : Option (Copy π) := if isCandidate entryName then readCopy h location entryName else none

def isPthFile (entryName : Text) : Bool :=
  !isHidden entryName && !isMetadata entryName && endsWith pth entryName

def isEggLink (entryName : Text) : Bool :=
  !isHidden entryName && !isMetadata entryName && !endsWith pth entryName &&
    endsWith eggLink entryName

/-- The directories that an entry grafts. -/
def graftsOf : List π :=
  if isPthFile entryName then pathsFromPthFile h location entryName
  else if isEggLink entryName then
    ((eggLinkTarget h location entryName).filter h.isDir).toList
  else []

/-- Where an egg-link leads to. -/
def linkOf : Option (Text × π) :=
  if isEggLink entryName then
    (eggLinkTarget h location entryName).map fun target =>
      (canonical h.lower (dropEnd eggLink entryName), target)
  else none

end Entries

/-! ### The directories -/

/-- The candidates of a directory. -/
def candidatesIn (listed : π → List Text) (index : ℕ) (location : π) : List (Candidate π) :=
  ((listed location).filter isCandidate).map fun entryName => ⟨index, location, entryName⟩

/-- The candidates of directories, one after another. -/
def candidatesFrom (listed : π → List Text) : ℕ → List π → List (Candidate π)
  | _, [] => []
  | index, d :: ds => candidatesIn listed index d ++ candidatesFrom listed (index + 1) ds

/-- The directories that the entries of a location graft. -/
def graftsIn (h : Host π) (listed : π → List Text) (location : π) : List π :=
  (listed location).flatMap (graftsOf h location)

/-- The egg-links of a location. -/
def linksIn (h : Host π) (listed : π → List Text) (location : π) : List (Text × π) :=
  (listed location).filterMap (linkOf h location)

/-- Entries are written, one after another. -/
def setAll (d : Dict Text π) (links : List (Text × π)) : Dict Text π :=
  links.foldl (fun d e => d.set e.1 e.2) d

section Phases

variable [DecidableEq π] {h : Host π} {listed : π → List Text} {f : Found π}

/-- Grafting some directories. -/
lemma foldl_graft (grafts : List π) (f : Found π) {queue : List (π × Bool)} {seen extra : List π}
    (hqueue : f.scanQueue = queue ++ extra.map (·, false)) (hseen : f.seenLocations = seen ++ extra) :
    ∃ extra', Once.putAll id (seen ++ extra) grafts = seen ++ extra' ∧
      grafts.foldl Found.graft f = { f with
        scanQueue := queue ++ extra'.map (·, false), seenLocations := seen ++ extra' } := by
  induction grafts generalizing f extra with
  | nil =>
    refine ⟨extra, rfl, ?_⟩
    rw [List.foldl_nil, ← hqueue, ← hseen]
  | cons d ds ih =>
    rw [List.foldl_cons, Found.graft, hseen, Once.putAll, List.foldl_cons, ← Once.putAll, Once.put,
      List.map_id, id_eq]
    by_cases hmem : d ∈ seen ++ extra
    · rw [if_pos hmem, if_pos hmem]
      exact ih f hqueue hseen
    · rw [if_neg hmem, if_neg hmem, List.append_assoc]
      refine ih { f with
        scanQueue := f.scanQueue ++ [(d, false)]
        seenLocations := seen ++ (extra ++ [d]) } ?_ rfl
      rw [hqueue, List.map_append, List.append_assoc]
      rfl

/-- One entry of a location. -/
lemma scanEntry_true (index : ℕ) (location : π) (entryName : Text) (f : Found π)
    {queue : List (π × Bool)} {seen extra : List π}
    (hqueue : f.scanQueue = queue ++ extra.map (·, false)) (hseen : f.seenLocations = seen ++ extra) :
    ∃ extra', Once.putAll id (seen ++ extra) (graftsOf h location entryName) = seen ++ extra' ∧
      scanEntry h index location true f entryName = {
        metadataCandidates := f.metadataCandidates ++
          if isCandidate entryName then [⟨index, location, entryName⟩] else []
        eggLinkRoots := setAll f.eggLinkRoots (linkOf h location entryName).toList
        scanQueue := queue ++ extra'.map (·, false)
        seenLocations := seen ++ extra' } := by
  have hsame : f = { f with
      scanQueue := queue ++ extra.map (·, false), seenLocations := seen ++ extra } := by
    rw [← hqueue, ← hseen]
  rw [scanEntry, isCandidate, graftsOf, linkOf, isPthFile, isEggLink]
  cases hhidden : isHidden entryName with
  | true =>
    refine ⟨extra, rfl, ?_⟩
    rw [if_pos rfl]
    simpa [setAll] using hsame
  | false =>
    cases hmetadata : isMetadata entryName with
    | true =>
      refine ⟨extra, rfl, ?_⟩
      simp [setAll, hqueue, hseen]
    | false =>
      cases hpth : endsWith pth entryName with
      | true =>
        obtain ⟨extra', hput, heq⟩ :=
          foldl_graft (pathsFromPthFile h location entryName) f hqueue hseen
        refine ⟨extra', hput, ?_⟩
        simpa [setAll] using heq
      | false =>
        cases hlink : endsWith eggLink entryName with
        | false =>
          refine ⟨extra, rfl, ?_⟩
          simpa [setAll] using hsame
        | true =>
          cases htarget : eggLinkTarget h location entryName with
          | none =>
            refine ⟨extra, rfl, ?_⟩
            simpa [setAll] using hsame
          | some target =>
            cases hdir : h.isDir target with
            | false =>
              have hnone : (some target).filter h.isDir = none := Option.filter_some_neg hdir
              refine ⟨extra, by simp [hnone, Once.putAll], ?_⟩
              simp [setAll, hdir, hqueue, hseen]
            | true =>
              have hsome : (some target).filter h.isDir = some target :=
                Option.filter_some_pos hdir
              obtain ⟨extra', hput, heq⟩ := foldl_graft [target]
                { f with eggLinkRoots :=
                  f.eggLinkRoots.set (canonical h.lower (dropEnd eggLink entryName)) target }
                hqueue hseen
              refine ⟨extra', by simpa [hsome] using hput, ?_⟩
              simpa [setAll, hdir] using heq

/-- The entries of a location. -/
lemma foldl_scanEntry_true (index : ℕ) (location : π) (entryNames : List Text) (f : Found π)
    {queue : List (π × Bool)} {seen extra : List π}
    (hqueue : f.scanQueue = queue ++ extra.map (·, false)) (hseen : f.seenLocations = seen ++ extra) :
    ∃ extra', Once.putAll id (seen ++ extra) (entryNames.flatMap (graftsOf h location)) =
        seen ++ extra' ∧
      entryNames.foldl (scanEntry h index location true) f = {
        metadataCandidates := f.metadataCandidates ++
          (entryNames.filter isCandidate).map fun entryName => ⟨index, location, entryName⟩
        eggLinkRoots := setAll f.eggLinkRoots (entryNames.filterMap (linkOf h location))
        scanQueue := queue ++ extra'.map (·, false)
        seenLocations := seen ++ extra' } := by
  induction entryNames generalizing f extra with
  | nil =>
    refine ⟨extra, rfl, ?_⟩
    rw [List.foldl_nil, ← hqueue, ← hseen, List.filter_nil, List.map_nil, List.append_nil]
    rfl
  | cons e es ih =>
    obtain ⟨extra₁, hput₁, heq₁⟩ := scanEntry_true index location e f hqueue hseen
    obtain ⟨extra₂, hput₂, heq₂⟩ := ih (scanEntry h index location true f e)
      (by rw [heq₁]) (by rw [heq₁])
    refine ⟨extra₂, ?_, ?_⟩
    · rw [List.flatMap_cons, Once.putAll_append, hput₁, hput₂]
    · rw [List.foldl_cons, heq₂, heq₁]
      congr 1
      · rw [List.append_assoc, List.filter_cons]
        cases isCandidate e with
        | true => rfl
        | false => rfl
      · rw [List.filterMap_cons]
        cases linkOf h location e with
        | none => rfl
        | some link => rfl

/-- The entries of a directory that has been grafted. -/
lemma foldl_scanEntry_false (index : ℕ) (location : π) (entryNames : List Text) (f : Found π) :
    entryNames.foldl (scanEntry h index location false) f = { f with
      metadataCandidates := f.metadataCandidates ++
        (entryNames.filter isCandidate).map fun entryName => ⟨index, location, entryName⟩ } := by
  induction entryNames generalizing f with
  | nil =>
    rw [List.filter_nil, List.map_nil, List.append_nil]
    rfl
  | cons e es ih =>
    rw [List.foldl_cons, ih, scanEntry, List.filter_cons, isCandidate]
    cases isHidden e with
    | true => rfl
    | false =>
      cases isMetadata e with
      | true => simp
      | false => rfl

variable (listed)

/-- The queue without locations. -/
lemma scanLoop_grafted (index : ℕ) (extra : List π) (f : Found π)
    (hqueue : f.scanQueue = extra.map (·, false)) :
    (scanLoop h listed index f).eggLinkRoots = f.eggLinkRoots ∧
      (scanLoop h listed index f).metadataCandidates =
        f.metadataCandidates ++ candidatesFrom listed index extra := by
  induction extra generalizing index f with
  | nil =>
    rw [scanLoop]
    split
    · exact ⟨rfl, (List.append_nil _).symm⟩
    · rename_i hcons
      rw [hqueue] at hcons
      cases hcons
  | cons d ds ih =>
    rw [scanLoop]
    split
    · rename_i hnil
      rw [hqueue] at hnil
      cases hnil
    · rename_i location mayExpand queue hcons
      rw [hqueue] at hcons
      obtain ⟨hd, rfl⟩ := List.cons.inj hcons
      obtain ⟨rfl, rfl⟩ := Prod.mk.inj hd
      rw [foldl_scanEntry_false]
      obtain ⟨hroots, hcandidates⟩ := ih (index + 1) { f with
        scanQueue := ds.map (·, false)
        metadataCandidates := f.metadataCandidates ++ candidatesIn listed index d } rfl
      refine ⟨hroots, hcandidates.trans ?_⟩
      rw [candidatesFrom, List.append_assoc]

/-- **What is looked through**: the locations, and then what they graft, once each. -/
lemma scanLoop_spec (index : ℕ) (locations : List π) (f : Found π) (seen extra : List π)
    (hqueue : f.scanQueue = locations.map (·, true) ++ extra.map (·, false))
    (hseen : f.seenLocations = seen ++ extra) :
    (scanLoop h listed index f).eggLinkRoots =
        setAll f.eggLinkRoots (locations.flatMap (linksIn h listed)) ∧
      ∃ extra', Once.putAll id (seen ++ extra) (locations.flatMap (graftsIn h listed)) =
          seen ++ extra' ∧
        (scanLoop h listed index f).metadataCandidates =
          f.metadataCandidates ++ candidatesFrom listed index (locations ++ extra') := by
  induction locations generalizing index f extra with
  | nil =>
    obtain ⟨hroots, hcandidates⟩ := scanLoop_grafted (h := h) listed index extra f hqueue
    exact ⟨hroots, extra, rfl, hcandidates⟩
  | cons d ds ih =>
    rw [scanLoop]
    split
    · rename_i hnil
      rw [hqueue] at hnil
      cases hnil
    · rename_i location mayExpand queue hcons
      rw [hqueue] at hcons
      obtain ⟨hd, rfl⟩ := List.cons.inj hcons
      obtain ⟨rfl, rfl⟩ := Prod.mk.inj hd
      obtain ⟨extra₁, hput₁, heq₁⟩ := foldl_scanEntry_true (h := h) index d (listed d)
        { f with scanQueue := ds.map (·, true) ++ extra.map (·, false) } rfl hseen
      obtain ⟨hroots, extra₂, hput₂, hcandidates⟩ := ih (index + 1)
        ((listed d).foldl (scanEntry h index d true)
          { f with scanQueue := ds.map (·, true) ++ extra.map (·, false) })
        extra₁ (by rw [heq₁]) (by rw [heq₁])
      refine ⟨?_, extra₂, ?_, ?_⟩
      · refine hroots.trans ?_
        rw [heq₁, List.flatMap_cons, setAll, setAll, setAll, List.foldl_append]
        rfl
      · rw [List.flatMap_cons, Once.putAll_append]
        show Once.putAll id (Once.putAll id _ ((listed d).flatMap (graftsOf h d))) _ = _
        rw [hput₁, hput₂]
      · refine hcandidates.trans ?_
        rw [heq₁, List.cons_append, candidatesFrom, List.append_assoc]
        rfl

end Phases

/-! ### The copies of a distribution -/

/-- The next copy of a distribution, beside the one that has been taken. -/
def pickStep (name : Text) (taken : Option (ℕ × Copy π)) (index : ℕ) (c : Copy π) :
    Option (ℕ × Copy π) :=
  if c.name = name then
    if isShadowed (taken.map fun t => (t.1, !t.2.isDistInfo)) index c.isDistInfo then taken
    else some (index, c)
  else taken

/-- The candidates as copies. -/
def pickAll (h : Host π) (name : Text) (taken : Option (ℕ × Copy π)) (cs : List (Candidate π)) :
    Option (ℕ × Copy π) :=
  cs.foldl (fun taken c =>
    match readCopy h c.location c.entryName with
    | none => taken
    | some copy => pickStep name taken c.locationIndex copy) taken

/-- What is found of a distribution with this copy: where its egg-link leads to, or what the copy
says. -/
def outcomeWith (root : Option π) (c : Copy π) : Outcome π :=
  match root with
  | some target => .inr target
  | none => c.outcome

/-- What a scan has found of a distribution. -/
def Scanned.outcome (s : Scanned π) (name : Text) : Option (Outcome π) :=
  ((s.requirements.get name).map .inl).or ((s.localDists.get name).map .inr)

/-- What is written down about the copy that has been taken. -/
structure Holds (roots : Dict Text π) (s : Scanned π) (name : Text) (taken : Option (ℕ × Copy π)) :
    Prop where
  chosenFrom : s.chosenFrom.get name = taken.map fun t => (t.1, !t.2.isDistInfo)
  requirements : s.requirements.get name =
    taken.bind fun t => (outcomeWith (roots.get name) t.2).getLeft?
  localDists : s.localDists.get name =
    taken.bind fun t => (outcomeWith (roots.get name) t.2).getRight?

section Picks

variable {h : Host π} {roots : Dict Text π} {s : Scanned π} {name : Text}
  {taken : Option (ℕ × Copy π)}

/-- Another distribution is taken. -/
lemma Holds.take_of_ne (hholds : Holds roots s name taken) {name' rawName version : Text}
    {index : ℕ} {isDistInfo : Bool} {classification : Option (Classification π)}
    (hname : name' ≠ name) :
    Holds roots (s.take name' rawName version index isDistInfo classification) name taken := by
  have hchosen : (s.chosenFrom.set name' (index, !isDistInfo)).get name = s.chosenFrom.get name :=
    Dict.get_set_of_ne hname.symm
  have hrequirements : (s.requirements.pop name').get name = s.requirements.get name :=
    Dict.get_pop.trans (if_neg hname.symm)
  have hlocal : (s.localDists.pop name').get name = s.localDists.get name :=
    Dict.get_pop.trans (if_neg hname.symm)
  obtain _ | (spec | ⟨sourceDir, editable⟩) := classification
  · exact ⟨hchosen.trans hholds.chosenFrom,
      ((Dict.get_set_of_ne hname.symm).trans hrequirements).trans hholds.requirements,
      hlocal.trans hholds.localDists⟩
  · exact ⟨hchosen.trans hholds.chosenFrom,
      ((Dict.get_set_of_ne hname.symm).trans hrequirements).trans hholds.requirements,
      hlocal.trans hholds.localDists⟩
  · exact ⟨hchosen.trans hholds.chosenFrom, hrequirements.trans hholds.requirements,
      ((Dict.get_set_of_ne hname.symm).trans hlocal).trans hholds.localDists⟩

/-- A copy is taken. -/
lemma Holds.take (s : Scanned π) (index : ℕ) (c : Copy π) :
    Holds roots (s.take c.name c.rawName c.version index c.isDistInfo
      (match roots.get c.name with
        | some root => some (.localDir root true)
        | none => c.classification)) c.name (some (index, c)) := by
  have hrequirements : (s.requirements.pop c.name).get c.name = none :=
    Dict.get_pop.trans (if_pos rfl)
  have hlocal : (s.localDists.pop c.name).get c.name = none :=
    Dict.get_pop.trans (if_pos rfl)
  cases hroot : roots.get c.name with
  | some root =>
    refine ⟨Dict.get_set_self, hrequirements.trans ?_, Dict.get_set_self.trans ?_⟩
    all_goals
      rw [hroot]
      rfl
  | none =>
    obtain ⟨name, rawName, version, isDistInfo, _ | (spec | ⟨sourceDir, editable⟩)⟩ := c
    · refine ⟨Dict.get_set_self, Dict.get_set_self.trans ?_, hlocal.trans ?_⟩
      all_goals
        rw [hroot]
        rfl
    · refine ⟨Dict.get_set_self, Dict.get_set_self.trans ?_, hlocal.trans ?_⟩
      all_goals
        rw [hroot]
        rfl
    · refine ⟨Dict.get_set_self, hrequirements.trans ?_, Dict.get_set_self.trans ?_⟩
      all_goals
        rw [hroot]
        rfl

/-- One candidate. -/
lemma Holds.addCandidate (hholds : Holds roots s name taken) (c : Candidate π) :
    Holds roots (addCandidate h roots s c) name
      (match readCopy h c.location c.entryName with
        | none => taken
        | some copy => pickStep name taken c.locationIndex copy) := by
  rw [Env.addCandidate, readCopy]
  cases nameVersion h c.location c.entryName with
  | none => exact hholds
  | some e =>
    obtain ⟨rawName, version⟩ := e
    simp only
    by_cases hexcluded : isExcluded (canonical h.lower rawName) = true
    · rw [if_pos hexcluded, if_pos hexcluded]
      exact hholds
    · rw [if_neg hexcluded, if_neg hexcluded]
      simp only [pickStep]
      by_cases hname : canonical h.lower rawName = name
      · subst hname
        rw [if_pos rfl, hholds.chosenFrom]
        by_cases hshadowed : isShadowed (taken.map fun t => (t.1, !t.2.isDistInfo)) c.locationIndex
            (endsWith distInfo c.entryName) = true
        · rw [if_pos hshadowed, if_pos hshadowed]
          exact hholds
        · rw [if_neg hshadowed, if_neg hshadowed]
          exact .take s c.locationIndex ⟨canonical h.lower rawName, rawName, version,
            endsWith distInfo c.entryName, classify h c.location c.entryName rawName⟩
      · rw [if_neg hname]
        split_ifs
        · exact hholds
        · exact hholds.take_of_ne hname

/-- All candidates. -/
lemma Holds.foldl (hholds : Holds roots s name taken) (cs : List (Candidate π)) :
    Holds roots (cs.foldl (Env.addCandidate h roots) s) name (pickAll h name taken cs) := by
  induction cs generalizing s taken with
  | nil => exact hholds
  | cons c cs ih => exact ih (hholds.addCandidate c)

lemma Holds.outcome (hholds : Holds roots s name taken) :
    s.outcome name = taken.map fun t => outcomeWith (roots.get name) t.2 := by
  rw [Scanned.outcome, hholds.requirements, hholds.localDists]
  cases taken with
  | none => rfl
  | some t =>
    show (((outcomeWith (roots.get name) t.2).getLeft?).map Sum.inl).or
      (((outcomeWith (roots.get name) t.2).getRight?).map Sum.inr) =
        some (outcomeWith (roots.get name) t.2)
    cases outcomeWith (roots.get name) t.2 with
    | inl requirement => rfl
    | inr sourceDir => rfl

end Picks

/-! ### The first copy -/

/-- The copies that the entries of a directory are. -/
def copiesIn (h : Host π) (listed : π → List Text) (location : π) : List (Copy π) :=
  (listed location).filterMap (copyOf h location)

/-- Of the copies in one directory, the first dist-info, or without one the first egg-info. -/
def preferred (name : Text) (cs : List (Copy π)) : Option (Copy π) :=
  (cs.find? fun c => decide (c.name = name) && c.isDistInfo).or
    (cs.find? fun c => decide (c.name = name))

/-- The copy of a distribution that a directory gives. -/
def pick (h : Host π) (listed : π → List Text) (name : Text) (location : π) : Option (Copy π) :=
  preferred name (copiesIn h listed location)

section First

variable {h : Host π} {listed : π → List Text} {name : Text} {index : ℕ} {taken : Option (ℕ × Copy π)}

/-- The copies of a directory, after another one has been taken. -/
def pickCopies (name : Text) (index : ℕ) (taken : Option (ℕ × Copy π)) (cs : List (Copy π)) :
    Option (ℕ × Copy π) :=
  cs.foldl (fun taken c => pickStep name taken index c) taken

lemma pickAll_candidatesIn (location : π) : pickAll h name taken (candidatesIn listed index location) =
    pickCopies name index taken (copiesIn h listed location) := by
  rw [candidatesIn, copiesIn]
  generalize listed location = entryNames
  induction entryNames generalizing taken with
  | nil => rfl
  | cons e es ih =>
    rw [List.filter_cons, List.filterMap_cons, copyOf]
    cases isCandidate e with
    | false => exact ih
    | true =>
      rw [if_pos rfl, if_pos rfl, List.map_cons, pickAll, List.foldl_cons, ← pickAll, ih]
      cases readCopy h location e with
      | none => rfl
      | some c => rfl

/-- What has been taken from an earlier directory stays. -/
lemma pickCopies_of_ne {t : ℕ × Copy π} (hindex : t.1 ≠ index) (cs : List (Copy π)) :
    pickCopies name index (some t) cs = some t := by
  induction cs with
  | nil => rfl
  | cons c cs ih =>
    rw [pickCopies, List.foldl_cons, ← pickCopies]
    have hstep : pickStep name (some t) index c = some t := by
      rw [pickStep]
      split_ifs with hname hshadowed
      · rfl
      · refine absurd ?_ hshadowed
        show (!(t.1 == index && _ && _)) = true
        rw [beq_eq_false_iff_ne.2 hindex]
        rfl
      · rfl
    rw [hstep, ih]

/-- A dist-info stays. -/
lemma pickCopies_of_distInfo {c : Copy π} (hc : c.isDistInfo = true) (cs : List (Copy π)) :
    pickCopies name index (some (index, c)) cs = some (index, c) := by
  induction cs with
  | nil => rfl
  | cons c' cs ih =>
    rw [pickCopies, List.foldl_cons, ← pickCopies]
    have hstep : pickStep name (some (index, c)) index c' = some (index, c) := by
      rw [pickStep]
      split_ifs with hname hshadowed
      · rfl
      · refine absurd ?_ hshadowed
        show (!(index == index && (!c.isDistInfo) && c'.isDistInfo)) = true
        rw [hc, Bool.not_true, Bool.and_false]
        rfl
      · rfl
    rw [hstep, ih]

/-- An egg-info is replaced by a dist-info of the same directory. -/
lemma pickCopies_of_eggInfo {c : Copy π} (hc : c.isDistInfo = false) (cs : List (Copy π)) :
    pickCopies name index (some (index, c)) cs =
      some (index, (cs.find? fun c => decide (c.name = name) && c.isDistInfo).getD c) := by
  induction cs with
  | nil => rfl
  | cons c' cs ih =>
    rw [pickCopies, List.foldl_cons, ← pickCopies, List.find?_cons, pickStep]
    by_cases hname : c'.name = name
    · have hshadowed : isShadowed ((some (index, c)).map fun t => (t.1, !t.2.isDistInfo)) index
          c'.isDistInfo = !c'.isDistInfo := by
        show (!(index == index && (!c.isDistInfo) && c'.isDistInfo)) = !c'.isDistInfo
        rw [hc, beq_self_eq_true]
        rfl
      rw [if_pos hname, hshadowed, decide_eq_true hname]
      cases hdist : c'.isDistInfo with
      | true => exact pickCopies_of_distInfo hdist cs
      | false => exact ih
    · rw [if_neg hname, decide_eq_false hname]
      exact ih

/-- **Of a directory** the preferred copy is taken. -/
lemma pickCopies_none (cs : List (Copy π)) :
    pickCopies name index none cs = (preferred name cs).map fun c => (index, c) := by
  induction cs with
  | nil => rfl
  | cons c cs ih =>
    rw [pickCopies, List.foldl_cons, ← pickCopies, preferred, List.find?_cons, List.find?_cons,
      pickStep]
    by_cases hname : c.name = name
    · rw [if_pos hname, decide_eq_true hname]
      show pickCopies name index (some (index, c)) cs = _
      cases hdist : c.isDistInfo with
      | true => exact pickCopies_of_distInfo hdist cs
      | false =>
        rw [pickCopies_of_eggInfo hdist]
        cases cs.find? fun c => decide (c.name = name) && c.isDistInfo with
        | none => rfl
        | some c' => rfl
    · rw [if_neg hname, decide_eq_false hname]
      exact ih

/-- What has been taken stays. -/
lemma pickAll_of_lt {t : ℕ × Copy π} (hindex : t.1 < index) (ds : List π) :
    pickAll h name (some t) (candidatesFrom listed index ds) = some t := by
  induction ds generalizing index with
  | nil => rfl
  | cons d ds ih =>
    rw [candidatesFrom, pickAll, List.foldl_append, ← pickAll, ← pickAll, pickAll_candidatesIn,
      pickCopies_of_ne hindex.ne, ih (Nat.lt_succ_of_lt hindex)]

/-- **The first directory** that has a copy gives it. -/
lemma pickAll_none (index : ℕ) (ds : List π) :
    (pickAll h name none (candidatesFrom listed index ds)).map Prod.snd =
      ds.findSome? (pick h listed name) := by
  induction ds generalizing index with
  | nil => rfl
  | cons d ds ih =>
    rw [candidatesFrom, pickAll, List.foldl_append, ← pickAll, ← pickAll, pickAll_candidatesIn,
      pickCopies_none, List.findSome?_cons]
    simp only [pick]
    cases preferred name (copiesIn h listed d) with
    | none => exact ih (index + 1)
    | some c => exact congrArg _ (pickAll_of_lt (Nat.lt_succ_self index) ds)

end First

/-! ### What is found -/

section Found

variable (h : Host π) (listed : π → List Text) (locations : List π) (name : Text)

/-- Where the last egg-link of a distribution leads to. -/
def rootOf : Option π :=
  (locations.flatMap (linksIn h listed)).reverse.findSome? fun e =>
    if e.1 = name then some e.2 else none

/-- The first copy of a distribution, in the locations or in what they graft. -/
def firstCopy : Option (Copy π) :=
  (locations ++ locations.flatMap (graftsIn h listed)).findSome? (pick h listed name)

lemma get_setAll (links : List (Text × π)) (d : Dict Text π) : (setAll d links).get name =
    (links.reverse.findSome? fun e => if e.1 = name then some e.2 else none).or (d.get name) := by
  induction links generalizing d with
  | nil => rfl
  | cons e links ih =>
    rw [setAll, List.foldl_cons, ← setAll, ih, List.reverse_cons, List.findSome?_append,
      Option.or_assoc, Dict.get_set, List.findSome?_singleton]
    by_cases hname : e.1 = name
    · rw [if_pos hname, if_pos hname.symm]
      rfl
    · rw [if_neg hname, if_neg (Ne.symm hname)]
      rfl

variable [DecidableEq π]

/-- What a scan has written down of a distribution. -/
lemma holds_scan : ∃ roots taken, Holds roots (scan h listed locations) name taken ∧
    roots.get name = rootOf h listed locations name ∧
      taken.map Prod.snd = firstCopy h listed locations name := by
  obtain ⟨hroots, extra, hput, hcandidates⟩ := scanLoop_spec (h := h) listed 0 locations
    ⟨[], .empty, locations.map (·, true), locations⟩ locations []
    (List.append_nil _).symm (List.append_nil _).symm
  have hempty : Holds (scanLoop h listed 0 ⟨[], .empty, locations.map (·, true), locations⟩).eggLinkRoots
      (⟨.empty, .empty, .empty⟩ : Scanned π) name none := ⟨rfl, rfl, rfl⟩
  refine ⟨_, _, hempty.foldl _, ?_, ?_⟩
  · rw [hroots, get_setAll, Dict.get_empty, Option.or_none, rootOf]
  · rw [List.append_nil] at hput
    rw [hcandidates, List.nil_append, pickAll_none, firstCopy, ← hput, Firsts.findSome?_putAll]

/-- **What a scan finds of a distribution**: where its last egg-link leads to, or what its first
copy says. -/
lemma outcome_scan : (scan h listed locations).outcome name =
    (firstCopy h listed locations name).map (outcomeWith (rootOf h listed locations name)) := by
  obtain ⟨roots, taken, hholds, hroot, htaken⟩ := holds_scan h listed locations name
  rw [hholds.outcome, hroot, ← htaken, Option.map_map]
  rfl

/-- A distribution has a requirement, or a directory, by what is found of it. -/
lemma get_scan :
    (scan h listed locations).requirements.get name =
        ((scan h listed locations).outcome name).bind Sum.getLeft? ∧
      (scan h listed locations).localDists.get name =
        ((scan h listed locations).outcome name).bind Sum.getRight? := by
  obtain ⟨roots, taken, hholds, -, -⟩ := holds_scan h listed locations name
  rw [hholds.outcome, hholds.requirements, hholds.localDists]
  cases taken with
  | none => exact ⟨rfl, rfl⟩
  | some t => exact ⟨rfl, rfl⟩

end Found

end Burla.Env
