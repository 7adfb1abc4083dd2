/-
Whether a scan depends on the order in which directories are listed, and whether a distribution of
an earlier location is replaced by one of a later one.

* `winner_iff`: what can be found of a distribution, over all orders.
* `scansAlike_iff`: all orders give the same, and no location replaces what an earlier one has, if
  and only if the egg-links of each distribution agree with each other and with the first location
  that has it, and its leading copies with each other.
-/
import Burla.Env.Found
import Mathlib.Algebra.GroupWithZero.Nat

namespace Burla.Env

open Firsts (First)

variable {π : Type}

/-! ### What directories have -/

section Directories

variable (h : Host π) (listed : π → List Text) (d : π) (name : Text)

/-- A copy of a distribution in a directory. -/
def HasCopy (c : Copy π) : Prop := ∃ e ∈ listed d, copyOf h d e = some c ∧ c.name = name

/-- A copy that may be preferred: a dist-info, or an egg-info when there is no dist-info. -/
def MayPrefer (c : Copy π) : Prop :=
  HasCopy h listed d name c ∧ (c.isDistInfo = true ∨ ∀ c', HasCopy h listed d name c' →
    c'.isDistInfo = false)

def HasAny : Prop := ∃ c, HasCopy h listed d name c

/-- An egg-link for a distribution in a directory. -/
def LinksTo (target : π) : Prop := ∃ e ∈ listed d, linkOf h d e = some (name, target)

/-- An entry of a directory grafts directories, of which this is the first one with a copy. -/
def GraftsFirst (g : π) : Prop := ∃ e ∈ listed d, First (HasAny h listed · name) (graftsOf h d e) g

end Directories

/-! ### What locations have -/

section Locations

variable (h : Host π) (listed : π → List Text) (locations : List π) (name : Text)

/-- A copy that some order of the listings makes the first one: a preferred one of the first
location with a copy, or without such a location a preferred one of a directory that the first
location which grafts any with a copy grafts. -/
def Leads (c : Copy π) : Prop :=
  (∃ d, First (HasAny h listed · name) locations d ∧ MayPrefer h listed d name c) ∨
    (∀ d ∈ locations, ¬HasAny h listed d name) ∧ ∃ d g,
      First (fun d => ∃ g, GraftsFirst h listed d name g) locations d ∧
        GraftsFirst h listed d name g ∧ MayPrefer h listed g name c

/-- An egg-link of the last location that has one. -/
def LastLink (target : π) : Prop :=
  ∃ d, First (fun d => ∃ target, LinksTo h listed d name target) locations.reverse d ∧
    LinksTo h listed d name target

/-- What some order of the listings makes a scan find. -/
def Winner (o : Outcome π) : Prop :=
  (∃ target, LastLink h listed locations name target ∧ o = .inr target ∧
      ∃ c, Leads h listed locations name c) ∨
    (∀ target, ¬LastLink h listed locations name target) ∧
      ∃ c, Leads h listed locations name c ∧ c.outcome = o

end Locations

/-! ### Orders -/

/-- Another order of the same listings. -/
def Reorders (listed listed' : π → List Text) : Prop := ∀ d, (listed' d).Perm (listed d)

section Orders

variable {h : Host π} {listed listed' : π → List Text} {d : π} {name : Text} {c : Copy π}
  {target : π}

lemma Reorders.hasCopy (hre : Reorders listed listed') :
    HasCopy h listed' d name c ↔ HasCopy h listed d name c :=
  exists_congr fun _ => and_congr_left' (hre d).mem_iff

lemma Reorders.hasAny (hre : Reorders listed listed') :
    HasAny h listed' d name ↔ HasAny h listed d name := exists_congr fun _ => hre.hasCopy

lemma Reorders.mayPrefer (hre : Reorders listed listed') :
    MayPrefer h listed' d name c ↔ MayPrefer h listed d name c :=
  and_congr hre.hasCopy (or_congr_right (forall_congr' fun _ => imp_congr_left hre.hasCopy))

lemma Reorders.linksTo (hre : Reorders listed listed') :
    LinksTo h listed' d name target ↔ LinksTo h listed d name target :=
  exists_congr fun _ => and_congr_left' (hre d).mem_iff

lemma mem_copiesIn : c ∈ copiesIn h listed d ∧ c.name = name ↔ HasCopy h listed d name c := by
  rw [copiesIn, List.mem_filterMap, HasCopy]
  constructor
  · rintro ⟨⟨e, he, hcopy⟩, hname⟩
    exact ⟨e, he, hcopy, hname⟩
  · rintro ⟨e, he, hcopy, hname⟩
    exact ⟨⟨e, he, hcopy⟩, hname⟩

/-- A directory gives a copy that may be preferred. -/
lemma mayPrefer_of_pick (hpick : pick h listed name d = some c) : MayPrefer h listed d name c := by
  rw [pick, preferred, Option.or_eq_some_iff] at hpick
  rcases hpick with hdist | ⟨hnone, hany⟩
  · have hc := List.find?_some hdist
    rw [Bool.and_eq_true, decide_eq_true_iff] at hc
    exact ⟨mem_copiesIn.1 ⟨List.mem_of_find?_eq_some hdist, hc.1⟩, .inl hc.2⟩
  · have hc := List.find?_some hany
    rw [decide_eq_true_iff] at hc
    refine ⟨mem_copiesIn.1 ⟨List.mem_of_find?_eq_some hany, hc⟩, .inr fun c' hc' => ?_⟩
    obtain ⟨hmem, hname⟩ := mem_copiesIn.2 hc'
    have hnot := List.find?_eq_none.1 hnone c' hmem
    rw [decide_eq_true hname, Bool.true_and] at hnot
    exact Bool.eq_false_iff.2 hnot

/-- A directory gives a copy if it has one. -/
lemma pick_ne_none : pick h listed name d ≠ none ↔ HasAny h listed d name := by
  constructor
  · intro hne
    obtain ⟨c, hc⟩ := Option.ne_none_iff_exists'.1 hne
    exact ⟨c, (mayPrefer_of_pick hc).1⟩
  · rintro ⟨c, hc⟩ hnone
    obtain ⟨hmem, hname⟩ := mem_copiesIn.2 hc
    rw [pick, preferred, Option.or_eq_none_iff] at hnone
    have hnot := List.find?_eq_none.1 hnone.2 c hmem
    exact hnot (decide_eq_true hname)

/-- A directory gives the copy that comes first and may be preferred. -/
lemma pick_of_head {e : Text} {es : List Text} (hhead : listed d = e :: es)
    (hcopy : copyOf h d e = some c) (hname : c.name = name)
    (hprefer : MayPrefer h listed d name c) : pick h listed name d = some c := by
  have hcopies : copiesIn h listed d = c :: es.filterMap (copyOf h d) := by
    rw [copiesIn, hhead, List.filterMap_cons, hcopy]
  rw [pick, preferred, hcopies, List.find?_cons, List.find?_cons, decide_eq_true hname]
  cases hdist : c.isDistInfo with
  | true => rfl
  | false =>
    have hnone : ∀ c', HasCopy h listed d name c' → c'.isDistInfo = false := by
      rcases hprefer.2 with htrue | hnone
      · exact absurd (hdist.symm.trans htrue) Bool.false_ne_true
      · exact hnone
    have hfind : (es.filterMap (copyOf h d)).find?
        (fun c => decide (c.name = name) && c.isDistInfo) = none := by
      refine List.find?_eq_none.2 fun c' hc' htrue => ?_
      rw [Bool.and_eq_true, decide_eq_true_iff] at htrue
      have hmem : c' ∈ copiesIn h listed d := by
        rw [hcopies]
        exact List.mem_cons_of_mem _ hc'
      exact absurd ((hnone c' (mem_copiesIn.1 ⟨hmem, htrue.1⟩)).symm.trans htrue.2)
        Bool.false_ne_true
    show ((es.filterMap (copyOf h d)).find? _).or (some c) = some c
    rw [hfind]
    rfl

lemma Reorders.refl (listed : π → List Text) : Reorders listed listed := fun _ => .refl _

lemma Reorders.trans {listed'' : π → List Text} (hre : Reorders listed listed')
    (hre' : Reorders listed' listed'') : Reorders listed listed'' :=
  fun d => (hre' d).trans (hre d)

variable [DecidableEq π]

/-- One directory is listed in another order. -/
lemma reorders_update {entryNames : List Text} (hperm : entryNames.Perm (listed d)) :
    Reorders listed (Function.update listed d entryNames) := by
  intro d'
  by_cases hd : d' = d
  · subst hd
    rw [Function.update_self]
    exact hperm
  · rw [Function.update_of_ne hd]

/-- Any entry of a directory may be listed first. -/
lemma exists_reorders_cons {e : Text} (he : e ∈ listed d) : ∃ listed', Reorders listed listed' ∧
    (∃ es, listed' d = e :: es) ∧ ∀ d', d' ≠ d → listed' d' = listed d' := by
  obtain ⟨es, hperm⟩ := Firsts.exists_perm_cons he
  exact ⟨Function.update listed d (e :: es), reorders_update hperm,
    ⟨es, Function.update_self _ _ _⟩, fun _ hd => Function.update_of_ne hd _ _⟩

/-- And last. -/
lemma exists_reorders_concat {e : Text} (he : e ∈ listed d) : ∃ listed', Reorders listed listed' ∧
    ∃ es, listed' d = es ++ [e] := by
  obtain ⟨es, hperm⟩ := Firsts.exists_perm_concat he
  exact ⟨Function.update listed d (es ++ [e]), reorders_update hperm, es,
    Function.update_self _ _ _⟩

end Orders

/-! ### The first copy -/

section FirstCopy

variable {h : Host π} {listed listed' : π → List Text} {locations : List π} {d g : π} {name : Text}
  {c : Copy π}

/-- A location grafts a directory with a copy. -/
lemma graftsIn_ne_none : (graftsIn h listed d).findSome? (pick h listed name) ≠ none ↔
    ∃ g, GraftsFirst h listed d name g := by
  constructor
  · intro hne
    obtain ⟨c, hc⟩ := Option.ne_none_iff_exists'.1 hne
    rw [graftsIn, Firsts.findSome?_flatMap, Firsts.findSome?_eq_some_iff] at hc
    obtain ⟨e, hfirst, hc⟩ := hc
    obtain ⟨g, hg, -⟩ := Firsts.findSome?_eq_some_iff.1 hc
    exact ⟨g, e, hfirst.mem, hg.congr fun _ _ => pick_ne_none⟩
  · rintro ⟨g, e, he, hg⟩ hnone
    have hmem : g ∈ graftsIn h listed d := List.mem_flatMap.2 ⟨e, he, hg.mem⟩
    exact pick_ne_none.2 hg.prop (List.findSome?_eq_none_iff.1 hnone g hmem)

lemma Reorders.graftsFirst (hre : Reorders listed listed') :
    GraftsFirst h listed' d name g ↔ GraftsFirst h listed d name g :=
  exists_congr fun _ => and_congr (hre d).mem_iff
    ⟨fun hfirst => hfirst.congr fun _ _ => hre.hasAny,
      fun hfirst => hfirst.congr fun _ _ => hre.hasAny.symm⟩

/-- **The first copy leads**, in whatever order the directories are listed. -/
lemma leads_of_firstCopy (hre : Reorders listed listed')
    (hfirst : firstCopy h listed' locations name = some c) : Leads h listed locations name c := by
  rw [firstCopy, List.findSome?_append, Option.or_eq_some_iff] at hfirst
  rcases hfirst with hlocation | ⟨hnone, hgrafted⟩
  · obtain ⟨d, hd, hpick⟩ := Firsts.findSome?_eq_some_iff.1 hlocation
    exact .inl ⟨d, hd.congr fun _ _ => pick_ne_none.trans hre.hasAny,
      hre.mayPrefer.1 (mayPrefer_of_pick hpick)⟩
  · rw [Firsts.findSome?_flatMap] at hgrafted
    obtain ⟨d, hd, hgrafts⟩ := Firsts.findSome?_eq_some_iff.1 hgrafted
    rw [graftsIn, Firsts.findSome?_flatMap] at hgrafts
    obtain ⟨e, he, hpicks⟩ := Firsts.findSome?_eq_some_iff.1 hgrafts
    obtain ⟨g, hg, hpick⟩ := Firsts.findSome?_eq_some_iff.1 hpicks
    have hgrafts' : GraftsFirst h listed' d name g :=
      ⟨e, he.mem, hg.congr fun _ _ => pick_ne_none⟩
    refine .inr ⟨fun d hd hany => ?_, d, g, ?_, hre.graftsFirst.1 hgrafts',
      hre.mayPrefer.1 (mayPrefer_of_pick hpick)⟩
    · exact pick_ne_none.2 (hre.hasAny.2 hany) (List.findSome?_eq_none_iff.1 hnone d hd)
    · exact hd.congr fun _ _ =>
        graftsIn_ne_none.trans (exists_congr fun _ => hre.graftsFirst)

/-- Whether there is a first copy does not depend on the order. -/
lemma Reorders.firstCopy_eq_none (hre : Reorders listed listed') :
    firstCopy h listed' locations name = none ↔ firstCopy h listed locations name = none := by
  have hgrafts : ∀ d, d ∈ locations ++ locations.flatMap (graftsIn h listed') ↔
      d ∈ locations ++ locations.flatMap (graftsIn h listed) := by
    intro d
    rw [List.mem_append, List.mem_append, List.mem_flatMap, List.mem_flatMap]
    refine or_congr_right (exists_congr fun l => and_congr_right fun _ => ?_)
    rw [graftsIn, graftsIn, List.mem_flatMap, List.mem_flatMap]
    exact exists_congr fun e => and_congr_left' (hre l).mem_iff
  rw [firstCopy, firstCopy, List.findSome?_eq_none_iff, List.findSome?_eq_none_iff]
  refine forall_congr' fun d => ?_
  rw [hgrafts d]
  refine imp_congr_right fun _ => ?_
  rw [← not_iff_not]
  exact (pick_ne_none.trans hre.hasAny).trans pick_ne_none.symm

variable [DecidableEq π]

/-- **Each leading copy is the first one**, in some order. -/
lemma exists_firstCopy (hleads : Leads h listed locations name c) :
    ∃ listed', Reorders listed listed' ∧ firstCopy h listed' locations name = some c := by
  rcases hleads with ⟨d, hd, hprefer⟩ | ⟨hnone, d, g, hd, ⟨e, he, hg⟩, hprefer⟩
  · obtain ⟨e, he, hcopy, hname⟩ := hprefer.1
    obtain ⟨listed', hre, ⟨es, hhead⟩, -⟩ := exists_reorders_cons he
    refine ⟨listed', hre, ?_⟩
    have hpick : pick h listed' name d = some c :=
      pick_of_head hhead hcopy hname (hre.mayPrefer.2 hprefer)
    rw [firstCopy, List.findSome?_append, Option.or_eq_some_iff]
    exact .inl (Firsts.findSome?_eq_some_iff.2
      ⟨d, hd.congr fun _ _ => (pick_ne_none.trans hre.hasAny).symm, hpick⟩)
  · have hgd : g ≠ d := by
      rintro rfl
      exact hnone g hd.mem hg.prop
    obtain ⟨listed₁, hre₁, ⟨es, hhead⟩, -⟩ := exists_reorders_cons he
    obtain ⟨e', he', hcopy, hname⟩ := hprefer.1
    obtain ⟨listed₂, hre₂, ⟨es', hhead'⟩, hsame⟩ :=
      exists_reorders_cons ((hre₁ g).mem_iff.2 he')
    have hre := hre₁.trans hre₂
    refine ⟨listed₂, hre, ?_⟩
    have hpick : pick h listed₂ name g = some c :=
      pick_of_head hhead' hcopy hname (hre.mayPrefer.2 hprefer)
    have hgrafts : (graftsIn h listed₂ d).findSome? (pick h listed₂ name) = some c := by
      rw [graftsIn, hsame d hgd.symm, hhead, List.flatMap_cons, List.findSome?_append,
        Option.or_eq_some_iff]
      exact .inl (Firsts.findSome?_eq_some_iff.2
        ⟨g, hg.congr fun _ _ => (pick_ne_none.trans hre.hasAny).symm, hpick⟩)
    rw [firstCopy, List.findSome?_append, Option.or_eq_some_iff, Firsts.findSome?_flatMap]
    refine .inr ⟨List.findSome?_eq_none_iff.2 fun l hl => ?_, Firsts.findSome?_eq_some_iff.2
      ⟨d, hd.congr fun _ _ => ?_, hgrafts⟩⟩
    · by_contra hne
      exact hnone l hl (hre.hasAny.1 (pick_ne_none.1 hne))
    · exact (graftsIn_ne_none.trans (exists_congr fun _ => hre.graftsFirst)).symm

end FirstCopy

/-! ### The last egg-link -/

section LastLinks

variable {h : Host π} {listed listed' : π → List Text} {locations : List π} {d : π} {name : Text}
  {target : π}

/-- Where the last egg-link of one location leads to. -/
def rootIn (h : Host π) (listed : π → List Text) (name : Text) (d : π) : Option π :=
  (linksIn h listed d).reverse.findSome? fun e => if e.1 = name then some e.2 else none

lemma rootOf_eq :
    rootOf h listed locations name = locations.reverse.findSome? (rootIn h listed name) := by
  rw [rootOf, List.reverse_flatMap, Firsts.findSome?_flatMap]
  rfl

lemma linksTo_of_rootIn (hroot : rootIn h listed name d = some target) :
    LinksTo h listed d name target := by
  obtain ⟨e, he, hlink⟩ := List.exists_of_findSome?_eq_some hroot
  rw [List.mem_reverse, linksIn, List.mem_filterMap] at he
  obtain ⟨entryName, hmem, hentry⟩ := he
  split_ifs at hlink with hname
  obtain rfl := Option.some.inj hlink
  exact ⟨entryName, hmem, hname ▸ hentry⟩

lemma rootIn_ne_none :
    rootIn h listed name d ≠ none ↔ ∃ target, LinksTo h listed d name target := by
  constructor
  · intro hne
    obtain ⟨target, htarget⟩ := Option.ne_none_iff_exists'.1 hne
    exact ⟨target, linksTo_of_rootIn htarget⟩
  · rintro ⟨target, entryName, hmem, hentry⟩ hnone
    have he : (name, target) ∈ (linksIn h listed d).reverse :=
      List.mem_reverse.2 (List.mem_filterMap.2 ⟨entryName, hmem, hentry⟩)
    have hnot := List.findSome?_eq_none_iff.1 hnone _ he
    rw [if_pos rfl] at hnot
    cases hnot

/-- **The last egg-link**, in whatever order the directories are listed. -/
lemma lastLink_of_rootOf (hre : Reorders listed listed')
    (hroot : rootOf h listed' locations name = some target) :
    LastLink h listed locations name target := by
  rw [rootOf_eq] at hroot
  obtain ⟨d, hd, htarget⟩ := Firsts.findSome?_eq_some_iff.1 hroot
  exact ⟨d, hd.congr fun _ _ => rootIn_ne_none.trans (exists_congr fun _ => hre.linksTo),
    hre.linksTo.1 (linksTo_of_rootIn htarget)⟩

/-- Without egg-links there is no last one, in any order. -/
lemma rootOf_eq_none (hre : Reorders listed listed')
    (hnone : ∀ target, ¬LastLink h listed locations name target) :
    rootOf h listed' locations name = none := by
  by_contra hne
  obtain ⟨target, htarget⟩ := Option.ne_none_iff_exists'.1 hne
  exact hnone target (lastLink_of_rootOf hre htarget)

/-- Each egg-link of the last location with one is the last one, in some order. -/
lemma exists_rootOf [DecidableEq π] (hlast : LastLink h listed locations name target) :
    ∃ listed', Reorders listed listed' ∧ rootOf h listed' locations name = some target := by
  obtain ⟨d, hd, e, he, hlink⟩ := hlast
  obtain ⟨listed', hre, es, hconcat⟩ := exists_reorders_concat he
  refine ⟨listed', hre, ?_⟩
  have htarget : rootIn h listed' name d = some target := by
    rw [rootIn, linksIn, hconcat, List.filterMap_append, List.reverse_append, List.filterMap_cons,
      hlink]
    show ((name, target) :: (es.filterMap (linkOf h d)).reverse).findSome? _ = some target
    rw [List.findSome?_cons, if_pos rfl]
  rw [rootOf_eq]
  exact Firsts.findSome?_eq_some_iff.2 ⟨d, hd.congr fun _ _ =>
    (rootIn_ne_none.trans (exists_congr fun _ => hre.linksTo)).symm, htarget⟩

end LastLinks

/-! ### What can be found -/

section Winners

variable [DecidableEq π] {h : Host π} {listed : π → List Text} {locations : List π} {name : Text}
  {o : Outcome π}

/-- **What can be found of a distribution**, in some order of the listings. -/
lemma winner_iff : (∃ listed', Reorders listed listed' ∧
    (scan h listed' locations).outcome name = some o) ↔ Winner h listed locations name o := by
  constructor
  · rintro ⟨listed', hre, houtcome⟩
    rw [outcome_scan, Option.map_eq_some_iff] at houtcome
    obtain ⟨c, hc, rfl⟩ := houtcome
    have hleads := leads_of_firstCopy hre hc
    cases hroot : rootOf h listed' locations name with
    | some target => exact .inl ⟨target, lastLink_of_rootOf hre hroot, rfl, c, hleads⟩
    | none =>
      refine .inr ⟨fun target hlast => ?_, c, hleads, rfl⟩
      obtain ⟨d, hd, hlink⟩ := hlast
      rw [rootOf_eq, List.findSome?_eq_none_iff] at hroot
      exact rootIn_ne_none.2 ⟨target, hre.linksTo.2 hlink⟩ (hroot d hd.mem)
  · rintro (⟨target, hlast, rfl, c, hleads⟩ | ⟨hnone, c, hleads, rfl⟩)
    · obtain ⟨listed', hre, hroot⟩ := exists_rootOf hlast
      obtain ⟨listed'', hre', hfirst⟩ := exists_firstCopy hleads
      have hne : firstCopy h listed' locations name ≠ none := by
        rw [Ne, hre.firstCopy_eq_none, ← hre'.firstCopy_eq_none, hfirst]
        exact Option.some_ne_none c
      obtain ⟨c', hc'⟩ := Option.ne_none_iff_exists'.1 hne
      refine ⟨listed', hre, ?_⟩
      rw [outcome_scan, hc', hroot]
      rfl
    · obtain ⟨listed', hre, hfirst⟩ := exists_firstCopy hleads
      refine ⟨listed', hre, ?_⟩
      rw [outcome_scan, hfirst, rootOf_eq_none hre hnone]
      rfl

/-- Whether a distribution is found does not depend on the order. -/
lemma outcome_eq_none_iff {listed' : π → List Text} (hre : Reorders listed listed') :
    (scan h listed' locations).outcome name = none ↔
      (scan h listed locations).outcome name = none := by
  rw [outcome_scan, outcome_scan, Option.map_eq_none_iff, Option.map_eq_none_iff,
    hre.firstCopy_eq_none]

end Winners

/-! ### Scans that agree -/

section Main

variable [DecidableEq π] (h : Host π) (listed : π → List Text) (locations : List π)

/-- Every order of the listings gives the same requirements and local distributions. -/
def OrderFree : Prop := ∀ listed' listed'', Reorders listed listed' → Reorders listed listed'' →
  ∀ name, (scan h listed' locations).requirements.get name =
      (scan h listed'' locations).requirements.get name ∧
    (scan h listed' locations).localDists.get name = (scan h listed'' locations).localDists.get name

omit [DecidableEq π] in
/-- A location has a distribution: metadata of it, or an egg-link. -/
def Offers (d : π) (name : Text) : Prop :=
  HasAny h listed d name ∨ ∃ target, LinksTo h listed d name target

omit [DecidableEq π] in
/-- An outcome that an entry of a location gives. -/
def Gives (d : π) (name : Text) (o : Outcome π) : Prop :=
  (∃ target, LinksTo h listed d name target ∧ o = .inr target) ∨
    ∃ c, HasCopy h listed d name c ∧ c.outcome = o

/-- What is found of a distribution comes from the first location that has it. -/
def KeepsEarlier : Prop := ∀ listed', Reorders listed listed' → ∀ name d,
  First (Offers h listed · name) locations d →
    (∀ requirement, (scan h listed' locations).requirements.get name = some requirement →
      Gives h listed d name (.inl requirement)) ∧
    ∀ sourceDir, (scan h listed' locations).localDists.get name = some sourceDir →
      Gives h listed d name (.inr sourceDir)

omit [DecidableEq π] in
/-- The entries for a distribution agree: the egg-links of the last location with one lead to one
directory, which the first location that has the distribution gives too; and without egg-links the
copies that may come first say the same. -/
structure Agrees (name : Text) : Prop where
  links : ∀ target target', LastLink h listed locations name target →
    LastLink h listed locations name target' → target = target'
  earlier : ∀ target d, LastLink h listed locations name target →
    First (Offers h listed · name) locations d → Gives h listed d name (.inr target)
  copies : (∀ target, ¬LastLink h listed locations name target) → ∀ c c',
    Leads h listed locations name c → Leads h listed locations name c' → c.outcome = c'.outcome

variable {h listed locations} {name : Text} {o o' : Outcome π}

omit [DecidableEq π] in
/-- A location with an egg-link makes a last one. -/
lemma exists_lastLink {d : π} {target : π} (hd : d ∈ locations)
    (hlink : LinksTo h listed d name target) :
    ∃ target, LastLink h listed locations name target := by
  obtain ⟨l, hl⟩ := Firsts.exists_first
    (p := fun d => ∃ target, LinksTo h listed d name target)
    ⟨d, List.mem_reverse.2 hd, target, hlink⟩
  obtain ⟨target', hlink'⟩ := hl.prop
  exact ⟨target', l, hl, hlink'⟩

omit [DecidableEq π] in
/-- Entries that agree leave one outcome. -/
lemma Agrees.eq_of_winner (hagrees : Agrees h listed locations name)
    (hwinner : Winner h listed locations name o) (hwinner' : Winner h listed locations name o') :
    o = o' := by
  rcases hwinner with ⟨target, hlast, rfl, -⟩ | ⟨hnone, c, hc, rfl⟩
  · rcases hwinner' with ⟨target', hlast', rfl, -⟩ | ⟨hnone', -⟩
    · exact congrArg _ (hagrees.links target target' hlast hlast')
    · exact absurd hlast (hnone' target)
  · rcases hwinner' with ⟨target', hlast', -⟩ | ⟨-, c', hc', rfl⟩
    · exact absurd hlast' (hnone target')
    · exact hagrees.copies hnone c c' hc hc'

omit [DecidableEq π] in
/-- Entries that agree give what the first location has. -/
lemma Agrees.gives_of_winner (hagrees : Agrees h listed locations name)
    (hwinner : Winner h listed locations name o) {d : π}
    (hd : First (Offers h listed · name) locations d) : Gives h listed d name o := by
  rcases hwinner with ⟨target, hlast, rfl, -⟩ | ⟨hnone, c, hc, rfl⟩
  · exact hagrees.earlier target d hlast hd
  · have hoffers : ∀ l ∈ locations, Offers h listed l name ↔ HasAny h listed l name := by
      intro l hl
      refine ⟨fun hoffers => hoffers.resolve_right ?_, .inl⟩
      rintro ⟨target, hlink⟩
      obtain ⟨target', hlast⟩ := exists_lastLink hl hlink
      exact hnone target' hlast
    rcases hc with ⟨d', hd', hprefer⟩ | ⟨hno, -⟩
    · obtain rfl := (hd.congr hoffers).unique hd'
      exact .inr ⟨c, hprefer.1, rfl⟩
    · exact absurd ((hoffers d hd.mem).1 hd.prop) (hno d hd.mem)

/-- Scans that find the same of a distribution. -/
lemma OrderFree.outcome_eq {listed' listed'' : π → List Text} (hfree : OrderFree h listed locations)
    (hre : Reorders listed listed') (hre' : Reorders listed listed'') :
    (scan h listed' locations).outcome name = (scan h listed'' locations).outcome name := by
  obtain ⟨hrequirements, hlocal⟩ := hfree listed' listed'' hre hre' name
  rw [Scanned.outcome, Scanned.outcome, hrequirements, hlocal]

/-- Only one outcome is left when the order does not matter. -/
lemma OrderFree.winner_unique (hfree : OrderFree h listed locations)
    (hwinner : Winner h listed locations name o) (hwinner' : Winner h listed locations name o') :
    o = o' := by
  obtain ⟨listed', hre, houtcome⟩ := winner_iff.2 hwinner
  obtain ⟨listed'', hre', houtcome'⟩ := winner_iff.2 hwinner'
  have heq : (scan h listed' locations).outcome name = (scan h listed'' locations).outcome name :=
    hfree.outcome_eq hre hre'
  rw [houtcome, houtcome'] at heq
  exact Option.some.inj heq

/-- When neither matters, the entries for each distribution that is found agree. -/
lemma agrees_of_alike (hfree : OrderFree h listed locations)
    (hkeeps : KeepsEarlier h listed locations) {c₀ : Copy π}
    (hc₀ : Leads h listed locations name c₀) :
    Agrees h listed locations name := by
  constructor
  · intro target target' hlast hlast'
    exact Sum.inr.inj (hfree.winner_unique (.inl ⟨target, hlast, rfl, c₀, hc₀⟩)
      (.inl ⟨target', hlast', rfl, c₀, hc₀⟩))
  · intro target d hlast hd
    obtain ⟨listed', hre, houtcome⟩ := winner_iff.2 (.inl ⟨target, hlast, rfl, c₀, hc₀⟩)
    refine (hkeeps listed' hre name d hd).2 target ?_
    rw [(get_scan h listed' locations name).2, houtcome]
    rfl
  · intro hnone c c' hc hc'
    exact hfree.winner_unique (.inr ⟨hnone, c, hc, rfl⟩) (.inr ⟨hnone, c', hc', rfl⟩)

section Agree

variable (hagrees : ∀ name, (∃ c, Leads h listed locations name c) →
  Agrees h listed locations name)
include hagrees

/-- The entries agree for whatever a scan has found. -/
lemma agrees_of_outcome {listed' : π → List Text} (hre : Reorders listed listed')
    (houtcome : (scan h listed' locations).outcome name = some o) :
    Winner h listed locations name o ∧ Agrees h listed locations name := by
  have hwinner := winner_iff.1 ⟨listed', hre, houtcome⟩
  refine ⟨hwinner, hagrees name ?_⟩
  rcases hwinner with ⟨-, -, -, c, hc⟩ | ⟨-, c, hc, -⟩
  · exact ⟨c, hc⟩
  · exact ⟨c, hc⟩

lemma orderFree_of_agrees : OrderFree h listed locations := by
  intro listed' listed'' hre hre' name
  have heq : (scan h listed' locations).outcome name =
      (scan h listed'' locations).outcome name := by
    cases houtcome : (scan h listed' locations).outcome name with
    | none =>
      rw [outcome_eq_none_iff hre, ← outcome_eq_none_iff hre'] at houtcome
      exact houtcome.symm
    | some o =>
      obtain ⟨hwinner, hagree⟩ := agrees_of_outcome hagrees hre houtcome
      cases houtcome' : (scan h listed'' locations).outcome name with
      | none =>
        rw [outcome_eq_none_iff hre', ← outcome_eq_none_iff hre, houtcome] at houtcome'
        cases houtcome'
      | some o' =>
        obtain ⟨hwinner', -⟩ := agrees_of_outcome hagrees hre' houtcome'
        exact congrArg some (hagree.eq_of_winner hwinner hwinner')
  rw [(get_scan h listed' locations name).1, (get_scan h listed' locations name).2, heq,
    (get_scan h listed'' locations name).1, (get_scan h listed'' locations name).2]
  exact ⟨rfl, rfl⟩

lemma keepsEarlier_of_agrees : KeepsEarlier h listed locations := by
  intro listed' hre name d hd
  constructor
  · intro requirement hget
    rw [(get_scan h listed' locations name).1, Option.bind_eq_some_iff] at hget
    obtain ⟨o, houtcome, ho⟩ := hget
    obtain ⟨hwinner, hagree⟩ := agrees_of_outcome hagrees hre houtcome
    obtain rfl := Sum.getLeft?_eq_some_iff.1 ho
    exact hagree.gives_of_winner hwinner hd
  · intro sourceDir hget
    rw [(get_scan h listed' locations name).2, Option.bind_eq_some_iff] at hget
    obtain ⟨o, houtcome, ho⟩ := hget
    obtain ⟨hwinner, hagree⟩ := agrees_of_outcome hagrees hre houtcome
    obtain rfl := Sum.getRight?_eq_some_iff.1 ho
    exact hagree.gives_of_winner hwinner hd

end Agree

variable (h listed locations)

/-- **Whether the order of the listings matters, or an earlier location is replaced**: every order
gives the same, and from the first location that has a distribution, if and only if the entries for
each distribution that is found agree. -/
theorem scansAlike_iff : OrderFree h listed locations ∧ KeepsEarlier h listed locations ↔
    ∀ name, (∃ c, Leads h listed locations name c) → Agrees h listed locations name := by
  constructor
  · rintro ⟨hfree, hkeeps⟩ name ⟨c₀, hc₀⟩
    exact agrees_of_alike hfree hkeeps hc₀
  · intro hagrees
    exact ⟨orderFree_of_agrees hagrees, keepsEarlier_of_agrees hagrees⟩

end Main

/-! ### Two environments -/

section Two

-- One proof for every number of a directory.
local instance neZero_three : NeZero 3 := ⟨by decide⟩

/-- A host with three directories, and an egg-link in the second one that leads to the third. -/
def twoLocations : Host (Fin 3) where
  isDir _ := true
  resolve _ _ := 2
  fileUriToPath _ := 0
  realPath d := d
  isDirEntry _ _ := true
  read d path := if d = 1 ∧ path = ["numpy.egg-link".toList] then some "/src/numpy".toList else none
  directUrl _ _ := none
  lower name := name.map Char.toLower
  isDigit := Char.isDigit

/-- Two versions of a distribution in the first location. -/
def twoVersions (d : Fin 3) : List Text :=
  if d = 0 then ["numpy-1.0.dist-info".toList, "numpy-2.0.dist-info".toList] else []

/-- A distribution in the first location, and an egg-link for it in the second one. -/
def linkedLater (d : Fin 3) : List Text :=
  if d = 0 then ["numpy-1.0.dist-info".toList]
  else if d = 1 then ["numpy.egg-link".toList] else []

/-- Of two versions in one directory the one that is listed first is found; and an egg-link of a
later location replaces what an earlier one has. -/
theorem order_matters : ¬(OrderFree twoLocations twoVersions [0] ∧
      KeepsEarlier twoLocations twoVersions [0]) ∧
    ¬(OrderFree twoLocations linkedLater [0, 1] ∧ KeepsEarlier twoLocations linkedLater [0, 1]) := by
  constructor
  · rintro ⟨hfree, -⟩
    have hfirst : (scan twoLocations twoVersions [0]).requirements.get "numpy".toList =
        some "numpy==1.0".toList := by
      rw [(get_scan _ _ _ _).1, outcome_scan]
      decide
    have hlast : (scan twoLocations (fun d => (twoVersions d).reverse) [0]).requirements.get
        "numpy".toList = some "numpy==2.0".toList := by
      rw [(get_scan _ _ _ _).1, outcome_scan]
      decide
    have heq := (hfree twoVersions (fun d => (twoVersions d).reverse) (.refl _)
      (fun d => (twoVersions d).reverse_perm) "numpy".toList).1
    rw [hfirst, hlast] at heq
    exact absurd heq (by decide)
  · rintro ⟨-, hkeeps⟩
    have hlink : (scan twoLocations linkedLater [0, 1]).localDists.get "numpy".toList =
        some (2 : Fin 3) := by
      rw [(get_scan _ _ _ _).2, outcome_scan]
      decide
    have hdist : copyOf twoLocations 0 "numpy-1.0.dist-info".toList = some
        ⟨"numpy".toList, "numpy".toList, "1.0".toList, true, none⟩ := rfl
    have hfirst : First (Offers twoLocations linkedLater · "numpy".toList) [0, 1] 0 :=
      ⟨[], [1], rfl, .inl ⟨_, _, List.mem_cons_self, hdist, rfl⟩, fun _ hmem => by cases hmem⟩
    rcases (hkeeps linkedLater (.refl _) _ 0 hfirst).2 2 hlink with
      ⟨target, ⟨e, he, hentry⟩, -⟩ | ⟨c, ⟨e, he, hcopy, -⟩, houtcome⟩
    · obtain rfl := List.mem_singleton.1 he
      cases hentry
    · obtain rfl := List.mem_singleton.1 he
      obtain rfl := Option.some.inj (hdist.symm.trans hcopy)
      exact absurd houtcome (by decide)

end Two

end Burla.Env
