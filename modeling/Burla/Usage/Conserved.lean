/-
Usage hours are neither lost nor counted twice.

* `buildNodesDailyHours_spec`: the hours of the days and groups are the overlaps of the nodes with
  the month.
* `followMonthNodes_eq`: following the cursors gives every ended node, in pages of any sizes.
* `usage_hours`: both are the same hours, of the same nodes.
-/
import Burla.Lib.Sweep
import Burla.Usage.Daily

namespace Burla.Usage

open Burla.Files (Text)
open Calendar (Date)

/-! ### What is compared -/

/-- The sum over days and groups. -/
def DailyHours.nodeHours (r : DailyHours) : ℚ :=
  (r.days.map fun day => (day.groups.map GroupHours.totalNodeHours).sum).sum

def DailyHours.computeHours (r : DailyHours) : ℚ :=
  (r.days.map fun day => (day.groups.map GroupHours.totalComputeHours).sum).sum

/-- The nodes with a machine type and a region. -/
def NodesTable.placed (t : NodesTable) : List Node :=
  t.rows.filter fun d => Placed d.machineType d.gcpRegion

/-- Those of the nodes that are shown. -/
def placedOut (nodes : List NodeHours) : List NodeHours :=
  nodes.filter fun n => Placed n.machineType n.gcpRegion

/-- Asking for the nodes of a month until there is no cursor, with a limit for each request. -/
def followMonthNodes (t : NodesTable) (month : Option Text) (now : ℚ) (limit : ℕ → ℤ) (fuel : ℕ) :
    Option (List NodeHours) :=
  Keyset.follow (fun k c => (nodesMonthNodes t month now (limit k) (c.map Prod.fst)
    (c.map Prod.snd)).toOption.map fun page => (page.nodes, page.nextCursor)) fuel 0 none

/-- The times of a node are dates, and its machine type has a number of CPUs. -/
def Node.Readable (d : Node) : Prop :=
  (∃ period, d.period = .ok period) ∧ ∃ cpus, cpuHourMultiplier d.machineType = .ok cpus

section Sums

variable {t : NodesTable} {first last : Month}

lemma sum_filter {α : Type*} (p : α → Bool) (f : α → ℚ) (l : List α) :
    ((l.filter p).map f).sum = (l.map fun a => if p a then f a else 0).sum := by
  induction l with
  | nil => rfl
  | cons a l ih =>
    rw [List.map_cons, List.sum_cons, ← ih]
    cases hp : p a with
    | false =>
      rw [List.filter_cons_of_neg (by rw [hp]; decide)]
      exact (zero_add _).symm
    | true =>
      rw [List.filter_cons_of_pos hp, List.map_cons, List.sum_cons]
      rfl

/-- The nodes that ended before the month add nothing. -/
lemma sum_nodesEndedAfter (k : Node → ℚ) :
    ((t.nodesEndedAfter first.start).map fun d => Buckets.placedHours first last d * k d).sum =
      (t.placed.map fun d => d.overlap first.start last.start * k d).sum := by
  rw [NodesTable.nodesEndedAfter, ((List.perm_insertionSort _ _).map _).sum_eq, sum_filter,
    NodesTable.placed, sum_filter]
  refine congrArg List.sum (List.map_congr_left fun d _ => ?_)
  rw [Buckets.placedHours]
  cases hended : d.endedAt.any fun ended => decide (first.start ≤ ended) with
  | false => simp [overlap_of_ended_before hended]
  | true =>
    rw [if_pos rfl]
    split_ifs
    · rfl
    · exact zero_mul _

lemma sum_nodesEndedAfter_one :
    ((t.nodesEndedAfter first.start).map (Buckets.placedHours first last)).sum =
      (t.placed.map fun d => d.overlap first.start last.start).sum := by
  have hone : ((t.nodesEndedAfter first.start).map fun d =>
      Buckets.placedHours first last d * 1).sum = _ := sum_nodesEndedAfter fun _ => 1
  simpa using hone

end Sums

/-! ### By days -/

section ByDays

variable {t : NodesTable} {month : Option Text} {now : ℚ} {first last : Month} {r : DailyHours}
  {b : Buckets}

/-- What is shown of the days has the hours of both tables. -/
lemma exists_daysOut (h : b.Sound (Buckets.labelsOf first last)) : ∃ daysOut,
    (Buckets.labelsOf first last).mapM (dayOut b) = .ok daysOut ∧
      (daysOut.map Prod.fst).sum = hoursOf b.hours ∧
      (daysOut.map fun e => e.2.1).sum = hoursOf b.compute ∧
      ((daysOut.map fun e => e.2.2).map fun day =>
        (day.groups.map GroupHours.totalNodeHours).sum).sum = hoursOf b.hours ∧
      ((daysOut.map fun e => e.2.2).map fun day =>
        (day.groups.map GroupHours.totalComputeHours).sum).sum = hoursOf b.compute := by
  have hday : ∀ label ∈ Buckets.labelsOf first last, ∃ e, dayOut b label = .ok e ∧
      e.1 = ((b.hours.get label).getD .empty).total ∧
      e.2.1 = ((b.compute.get label).getD .empty).total ∧
      (e.2.2.groups.map GroupHours.totalNodeHours).sum = e.1 ∧
      (e.2.2.groups.map GroupHours.totalComputeHours).sum = e.2.1 := by
    intro label hlabel
    obtain ⟨groups, hgroups⟩ := Dict.mem_keys.1 (h.hoursKeys ▸ hlabel)
    obtain ⟨computeGroups, hcompute⟩ := Dict.mem_keys.1 (h.computeKeys ▸ hlabel)
    obtain ⟨day, hok, hhours, hcomputeHours⟩ := h.dayOut hgroups hcompute
    refine ⟨_, hok, ?_, ?_, hhours, hcomputeHours⟩
    · rw [hgroups, Option.getD_some]
    · rw [hcompute, Option.getD_some]
  obtain ⟨daysOut, hout⟩ := Passes.exists_forall₂_iff.2 fun label hlabel =>
    (hday label hlabel).imp fun e he => he.1
  have hresult : ∀ label ∈ Buckets.labelsOf first last, ∀ e, dayOut b label = .ok e →
      e.1 = ((b.hours.get label).getD .empty).total ∧
      e.2.1 = ((b.compute.get label).getD .empty).total ∧
      (e.2.2.groups.map GroupHours.totalNodeHours).sum = e.1 ∧
      (e.2.2.groups.map GroupHours.totalComputeHours).sum = e.2.1 := by
    intro label hlabel e he
    obtain ⟨e', he', hspec⟩ := hday label hlabel
    obtain rfl := Except.ok.inj (he.symm.trans he')
    exact hspec
  -- the sum over the days of a month is the one over a table that has these days
  have htotal : ∀ buckets : Dict Date (Dict Text ℚ), buckets.keys = Buckets.labelsOf first last →
      ((Buckets.labelsOf first last).map fun label =>
        ((buckets.get label).getD .empty).total).sum = hoursOf buckets := by
    intro buckets hkeys
    rw [← hkeys, hoursOf]
    have hmap := congrArg (List.map fun o : Option (Dict Text ℚ) => (o.getD .empty).total)
      (Dict.map_get_keys (d := buckets))
    rw [List.map_map, List.map_map] at hmap
    exact congrArg List.sum hmap
  refine ⟨daysOut, Passes.mapM_eq_ok_iff.2 hout, ?_, ?_, ?_, ?_⟩
  · rw [← htotal b.hours h.hoursKeys, Passes.map_eq_map hout]
    exact fun label hlabel e he => (hresult label hlabel e he).1
  · rw [← htotal b.compute h.computeKeys, Passes.map_eq_map hout]
    exact fun label hlabel e he => (hresult label hlabel e he).2.1
  · rw [← htotal b.hours h.hoursKeys, List.map_map, Passes.map_eq_map hout]
    intro label hlabel e he
    obtain ⟨h₁, -, h₂, -⟩ := hresult label hlabel e he
    exact h₂.trans h₁
  · rw [← htotal b.compute h.computeKeys, List.map_map, Passes.map_eq_map hout]
    intro label hlabel e he
    obtain ⟨-, h₁, -, h₂⟩ := hresult label hlabel e he
    exact h₂.trans h₁

lemma buildNodesDailyHours_eq (hfirst : monthOf month now = .ok first)
    (hlast : addMonth first = .ok last) : buildNodesDailyHours t month now =
      ((t.nodesEndedAfter first.start).foldlM (addNode first.start last.start)
        ⟨emptyDays (Buckets.labelsOf first last), emptyDays (Buckets.labelsOf first last)⟩ >>=
      fun buckets => (Buckets.labelsOf first last).mapM (dayOut buckets) >>= fun daysOut =>
        .ok ⟨first, daysOut.map fun e => e.2.2, quantizeHours (daysOut.map Prod.fst).sum,
          quantizeHours (daysOut.map fun e => e.2.1).sum,
          (t.nodesEndedAfter first.start).length⟩) := by
  rw [buildNodesDailyHours, hfirst]
  dsimp only [bind, Except.bind]
  rw [hlast]
  rfl

/-- **The hours of the days and groups are the overlaps** of the nodes with the month. -/
lemma buildNodesDailyHours_spec (hfirst : monthOf month now = .ok first)
    (hlast : addMonth first = .ok last) (h : buildNodesDailyHours t month now = .ok r) :
    r.nodeHours = (t.placed.map fun d => d.overlap first.start last.start).sum ∧
      r.computeHours = (t.placed.map fun d => d.overlap first.start last.start * d.cpus).sum ∧
      r.totalNodeHours = quantizeHours r.nodeHours ∧
      r.totalComputeHours = quantizeHours r.computeHours := by
  rw [buildNodesDailyHours_eq hfirst hlast] at h
  cases hfold : (t.nodesEndedAfter first.start).foldlM (addNode first.start last.start)
      ⟨emptyDays (Buckets.labelsOf first last), emptyDays (Buckets.labelsOf first last)⟩ with
  | error err =>
    rw [hfold] at h
    cases h
  | ok b =>
    rw [hfold] at h
    obtain ⟨hsound, hhours, hcompute⟩ :=
      Buckets.foldlM_addNode_spec (Buckets.sound_empty Buckets.nodup_labelsOf) hfold
    rw [hoursOf_emptyDays, zero_add, sum_nodesEndedAfter_one] at hhours
    rw [hoursOf_emptyDays, zero_add, sum_nodesEndedAfter] at hcompute
    obtain ⟨daysOut, hdays, hraw, hrawCompute, hgroups, hgroupsCompute⟩ := exists_daysOut hsound
    dsimp only [bind, Except.bind] at h
    rw [hdays] at h
    obtain rfl := Except.ok.inj h
    have hnode : (daysOut.map Prod.fst).sum = _ := hraw.trans hgroups.symm
    have hcomp : (daysOut.map fun e => e.2.1).sum = _ := hrawCompute.trans hgroupsCompute.symm
    refine ⟨hgroups.trans hhours, hgroupsCompute.trans hcompute, ?_, ?_⟩
    · exact congrArg quantizeHours hnode
    · exact congrArg quantizeHours hcomp

lemma exists_addNode {d : Node} (h : d.Readable) (s e : ℚ) (b : Buckets) :
    ∃ b', addNode s e b d = .ok b' := by
  obtain ⟨⟨o, hperiod⟩, cpus, hcpus⟩ := h
  rw [addNode, hperiod]
  dsimp only [bind, Except.bind]
  cases o with
  | none => exact ⟨b, rfl⟩
  | some period =>
    dsimp only
    cases hmt : given d.machineType with
    | none => exact ⟨b, rfl⟩
    | some machineType =>
      cases hreg : given d.gcpRegion with
      | none => exact ⟨b, rfl⟩
      | some gcpRegion =>
        dsimp only
        cases hwindow : window s e period with
        | none => exact ⟨b, rfl⟩
        | some w =>
          dsimp only
          rw [← (Option.filter_eq_some_iff.1 hmt).1, hcpus]
          exact ⟨_, rfl⟩

/-- The days are returned when every node can be read. -/
lemma exists_buildNodesDailyHours (hfirst : monthOf month now = .ok first)
    (hlast : addMonth first = .ok last) (h : ∀ d ∈ t.rows, d.Readable) :
    ∃ r, buildNodesDailyHours t month now = .ok r := by
  have hfold : ∀ (l : List Node) (b : Buckets), (∀ d ∈ l, d.Readable) →
      ∃ b', l.foldlM (addNode first.start last.start) b = .ok b' := by
    intro l
    induction l with
    | nil => exact fun b _ => ⟨b, rfl⟩
    | cons d l ih =>
      intro b hl
      obtain ⟨b', hb'⟩ := exists_addNode (hl d List.mem_cons_self) first.start last.start b
      obtain ⟨b'', hb''⟩ := ih b' fun d hd => hl d (List.mem_cons_of_mem _ hd)
      refine ⟨b'', ?_⟩
      rw [List.foldlM_cons, hb']
      exact hb''
  have hrows : ∀ d ∈ t.nodesEndedAfter first.start, d.Readable := by
    intro d hd
    exact h d (List.mem_filter.1 ((List.perm_insertionSort _ _).mem_iff.1 hd)).1
  obtain ⟨b, hb⟩ := hfold _ ⟨emptyDays (Buckets.labelsOf first last),
    emptyDays (Buckets.labelsOf first last)⟩ hrows
  have hsound := (Buckets.foldlM_addNode_spec (Buckets.sound_empty Buckets.nodup_labelsOf) hb).1
  obtain ⟨daysOut, hdays, -⟩ := exists_daysOut hsound
  rw [buildNodesDailyHours_eq hfirst hlast, hb]
  dsimp only [bind, Except.bind]
  rw [hdays]
  exact ⟨_, rfl⟩

end ByDays

/-! ### By nodes -/

section ByNodes

/-- The keys of the pages go down. -/
def Down (a b : ℚ × Text) : Prop := KeyLt b a

instance (a b : ℚ × Text) : Decidable (Down a b) := inferInstanceAs (Decidable (KeyLt b a))

lemma keyLt_irrefl (a : ℚ × Text) : ¬KeyLt a a := by
  rintro (h | ⟨-, h⟩)
  · exact lt_irrefl _ h
  · exact List.lt_irrefl _ h

lemma keyLt_trans {a b c : ℚ × Text} (hab : KeyLt a b) (hbc : KeyLt b c) : KeyLt a c := by
  rcases hab with hab | ⟨hab, hab'⟩ <;> rcases hbc with hbc | ⟨hbc, hbc'⟩
  · exact .inl (hab.trans hbc)
  · exact .inl (hab.trans_eq hbc)
  · exact .inl (hab.trans_lt hbc)
  · exact .inr ⟨hab.trans hbc, List.lt_trans hab' hbc'⟩

lemma keyLt_trichotomy (a b : ℚ × Text) : KeyLt a b ∨ a = b ∨ KeyLt b a := by
  rcases lt_trichotomy a.1 b.1 with h | h | h
  · exact .inl (.inl h)
  · by_cases hab : a.2 < b.2
    · exact .inl (.inr ⟨h, hab⟩)
    · by_cases hba : b.2 < a.2
      · exact .inr (.inr (.inr ⟨h.symm, hba⟩))
      · have heq : a.2 = b.2 := List.le_antisymm (List.not_lt.1 hba) (List.not_lt.1 hab)
        exact .inr (.inl (Prod.ext h heq))
  · exact .inr (.inr (.inl h))

instance : IsStrictOrder (ℚ × Text) Down where
  irrefl := keyLt_irrefl
  trans _ _ _ hab hbc := keyLt_trans hbc hab

variable {t : NodesTable} {month : Option Text} {now : ℚ} {first last : Month} {limit : ℕ → ℤ}
  {fuel : ℕ} {nodes : List NodeHours}

/-- The ended nodes, with the last one first. -/
def sortedNodes (t : NodesTable) (first : Month) : List Node :=
  (t.nodesEndedAfter first.start).insertionSort fun a b => ¬KeyLt a.sortKey b.sortKey

lemma sortedNodes_perm : (sortedNodes t first).Perm (t.nodesEndedAfter first.start) :=
  List.perm_insertionSort _ _

lemma mem_sortedNodes {d : Node} : d ∈ sortedNodes t first ↔
    d ∈ t.rows ∧ (d.endedAt.any fun ended => decide (first.start ≤ ended)) = true := by
  rw [sortedNodes_perm.mem_iff, NodesTable.nodesEndedAfter, (List.perm_insertionSort _ _).mem_iff,
    List.mem_filter]

lemma nodup_sortedNodes : ((sortedNodes t first).map Node.instanceName).Nodup := by
  rw [(sortedNodes_perm.map _).nodup_iff, NodesTable.nodesEndedAfter,
    ((List.perm_insertionSort _ _).map _).nodup_iff]
  exact (List.filter_sublist.map _).nodup t.nodup

/-- Nodes of different names have different keys. -/
lemma pairwise_sortedNodes :
    (sortedNodes t first).Pairwise fun a b => Down a.sortKey b.sortKey := by
  have htotal : Std.Total fun a b : Node => ¬KeyLt a.sortKey b.sortKey :=
    ⟨fun a b => by
      by_contra h
      rw [not_or, not_not, not_not] at h
      exact keyLt_irrefl _ (keyLt_trans h.1 h.2)⟩
  have htrans : IsTrans Node fun a b => ¬KeyLt a.sortKey b.sortKey := by
    refine ⟨fun a b c hab hbc hac => ?_⟩
    rcases keyLt_trichotomy a.sortKey b.sortKey with h | h | h
    · exact hab h
    · exact hbc (h ▸ hac)
    · exact hbc (keyLt_trans h hac)
  have hle : (sortedNodes t first).Pairwise fun a b => ¬KeyLt a.sortKey b.sortKey :=
    List.pairwise_insertionSort _ _
  have hne : (sortedNodes t first).Pairwise fun a b => a.instanceName ≠ b.instanceName :=
    List.pairwise_map.1 nodup_sortedNodes
  refine (hle.and hne).imp fun {a b} h => ?_
  rcases keyLt_trichotomy a.sortKey b.sortKey with hlt | heq | hlt
  · exact absurd hlt h.1
  · exact absurd (congrArg Prod.snd heq) h.2
  · exact hlt

/-- What is shown of a list of nodes. -/
def shown (first last : Month) (l : List Node) : Option (List NodeHours) :=
  (l.mapM (nodeOut first.start last.start)).toOption.map List.reduceOption

lemma shown_append (l l' : List Node) : shown first last (l ++ l') =
    (shown first last l).bind fun s => (shown first last l').map (s ++ ·) := by
  rw [shown, shown, shown, List.mapM_append]
  cases l.mapM (nodeOut first.start last.start) with
  | error err => rfl
  | ok out =>
    cases l'.mapM (nodeOut first.start last.start) with
    | error err => rfl
    | ok out' =>
      show some (out ++ out').reduceOption = some (out.reduceOption ++ out'.reduceOption)
      rw [List.reduceOption_append]

/-- The limit that a request has. -/
def clamped (limit : ℤ) : ℕ := (max 1 (min limit 5000)).toNat

/-- A request's page is shown, with the key of its last node when it is full. -/
lemma nodesMonthNodes_eq (hfirst : monthOf month now = .ok first)
    (hlast : addMonth first = .ok last) (n : ℤ) (c : Option (ℚ × Text)) :
    ((nodesMonthNodes t month now n (c.map Prod.fst) (c.map Prod.snd)).toOption.map fun page =>
        (page.nodes, page.nextCursor)) =
      (shown first last
        (Keyset.filled Down Node.sortKey (sortedNodes t first) c (clamped n)).1).map fun s =>
          (s, (Keyset.filled Down Node.sortKey (sortedNodes t first) c (clamped n)).2) := by
  have hafter : afterCursor (sortedNodes t first) (c.map Prod.fst) (c.map Prod.snd) = Keyset.afterKey Down Node.sortKey (sortedNodes t first) c := by
    cases c <;> rfl
  rw [nodesMonthNodes, hfirst]
  dsimp only [bind, Except.bind]
  rw [hlast]
  dsimp only
  rw [← sortedNodes, hafter, Keyset.filled, shown, clamped]
  dsimp only
  -- the last node of the page has ended
  have hcursor : ∀ page : List Node, page ⊆ sortedNodes t first →
      (page.getLast?.bind fun last => last.endedAt.map fun ended => (ended, last.instanceName)) =
        page.getLast?.map Node.sortKey := by
    intro page hpage
    cases hget : page.getLast? with
    | none => rfl
    | some d =>
      have hd := (mem_sortedNodes.1 (hpage (List.mem_of_getLast? hget))).2
      obtain ⟨ended, hended⟩ : ∃ ended, d.endedAt = some ended := by
        cases hended : d.endedAt with
        | none =>
          rw [hended] at hd
          cases hd
        | some ended => exact ⟨ended, rfl⟩
      rw [Option.bind_some, Option.map_some, hended, Node.sortKey, hended]
      rfl
  have hsub : (Keyset.afterKey Down Node.sortKey (sortedNodes t first) c).take
      (max 1 (min n 5000)).toNat ⊆ sortedNodes t first := by
    refine List.Subset.trans (List.take_subset _ _) ?_
    cases c with
    | none => exact fun _ h => h
    | some k => exact List.filter_sublist.subset
  rw [hcursor _ hsub]
  cases ((Keyset.afterKey Down Node.sortKey (sortedNodes t first) c).take
      (max 1 (min n 5000)).toNat).mapM (nodeOut first.start last.start) with
  | error err => rfl
  | ok out => rfl

/-- The pages of the nodes, as they are before they are shown. -/
def nodePages (t : NodesTable) (first : Month) (limit : ℕ → ℤ) (k : ℕ) (c : Option (ℚ × Text)) :
    Option (List Node × Option (ℚ × Text)) :=
  some (Keyset.filled Down Node.sortKey (sortedNodes t first) c (clamped (limit k)))

lemma follow_nodePages (hfuel : (sortedNodes t first).length < fuel) :
    Keyset.follow (nodePages t first limit) fuel 0 none = some (sortedNodes t first) := by
  refine Keyset.follow_filled id (fun k => clamped (limit k)) pairwise_sortedNodes (fun k => ?_)
    (fun k c => ?_) hfuel
  · rw [clamped]
    omega
  · rw [Option.map_id_fun]
    rfl

lemma followMonthNodes_eq_bind (hfirst : monthOf month now = .ok first)
    (hlast : addMonth first = .ok last) : followMonthNodes t month now limit fuel =
      (Keyset.follow (nodePages t first limit) fuel 0 none).bind (shown first last) := by
  rw [← Keyset.follow_bind shown_append, followMonthNodes]
  congr 1
  funext k c
  rw [nodesMonthNodes_eq hfirst hlast]
  rfl

/-- **Following the cursors gives every ended node**, and ends. -/
lemma followMonthNodes_eq (hfirst : monthOf month now = .ok first)
    (hlast : addMonth first = .ok last) (hfuel : (sortedNodes t first).length < fuel) :
    followMonthNodes t month now limit fuel = shown first last (sortedNodes t first) := by
  rw [followMonthNodes_eq_bind hfirst hlast, follow_nodePages hfuel, Option.bind_some]

/-- However far one is ready to follow, what is got is all there is. -/
lemma shown_of_followMonthNodes (hfirst : monthOf month now = .ok first)
    (hlast : addMonth first = .ok last) (h : followMonthNodes t month now limit fuel = some nodes) :
    shown first last (sortedNodes t first) = some nodes := by
  rw [followMonthNodes_eq_bind hfirst hlast] at h
  obtain ⟨l, hl, hshown⟩ := Option.bind_eq_some_iff.1 h
  have hall : Keyset.follow (nodePages t first limit) ((sortedNodes t first).length + 1) 0 none =
      some (sortedNodes t first) := follow_nodePages (Nat.lt_succ_self _)
  rwa [Keyset.follow_unique hl hall] at hshown

/-! ### What is shown of the nodes -/

variable {d : Node} {o : Option NodeHours}

/-- What is shown of a node: nothing, when it has no hours in the month. -/
lemma nodeOut_spec (h : nodeOut first.start last.start d = .ok o) :
    (o = none ∧ d.overlap first.start last.start = 0) ∨
      ∃ n, o = some n ∧ n.id = d.instanceName ∧ n.machineType = d.machineType ∧
        n.gcpRegion = d.gcpRegion ∧ n.durationHours = d.overlap first.start last.start ∧
        n.durationComputeHours = d.overlap first.start last.start * d.cpus := by
  rw [nodeOut] at h
  cases hperiod : d.period with
  | error err =>
    rw [hperiod] at h
    cases h
  | ok p =>
    rw [hperiod] at h
    dsimp only [bind, Except.bind] at h
    cases p with
    | none =>
      obtain rfl := Except.ok.inj h
      exact .inl ⟨rfl, overlap_of_none hperiod⟩
    | some period =>
      dsimp only at h
      cases hwindow : window first.start last.start period with
      | none =>
        rw [hwindow] at h
        obtain rfl := Except.ok.inj h
        rw [overlap_of_period hperiod, window_eq_none hwindow, zero_div]
        exact .inl ⟨rfl, rfl⟩
      | some w =>
        rw [hwindow] at h
        obtain ⟨-, -, hlt, hpiece⟩ := window_eq_some hwindow
        have hpos : 0 < (w.2 - w.1) / 3600 := div_pos (sub_pos.2 hlt) (by norm_num)
        dsimp only at h
        rw [if_neg (not_le.2 hpos)] at h
        rw [overlap_of_period hperiod, hpiece]
        cases hcpus : cpuHourMultiplier d.machineType with
        | error err =>
          rw [hcpus] at h
          cases h
        | ok cpus =>
          rw [hcpus] at h
          obtain rfl := Except.ok.inj h
          refine .inr ⟨_, rfl, rfl, rfl, rfl, Buckets.quantizeHours_of_nonneg hpos.le, ?_⟩
          rw [Node.cpus, hcpus]
          exact Buckets.quantizeHours_of_nonneg (mul_nonneg hpos.le (Nat.cast_nonneg cpus))

lemma exists_nodeOut (h : d.Readable) (s e : ℚ) : ∃ o, nodeOut s e d = .ok o := by
  obtain ⟨⟨p, hperiod⟩, cpus, hcpus⟩ := h
  rw [nodeOut, hperiod]
  dsimp only [bind, Except.bind]
  cases p with
  | none => exact ⟨none, rfl⟩
  | some period =>
    dsimp only
    cases hwindow : window s e period with
    | none => exact ⟨none, rfl⟩
    | some w =>
      dsimp only
      rw [hcpus]
      split_ifs
      · exact ⟨none, rfl⟩
      · exact ⟨_, rfl⟩

lemma exists_shown (h : ∀ d ∈ t.rows, d.Readable) :
    ∃ nodes, shown first last (sortedNodes t first) = some nodes := by
  obtain ⟨out, hout⟩ := Passes.exists_forall₂_iff.2 fun d hd =>
    exists_nodeOut (h d (mem_sortedNodes.1 hd).1) first.start last.start
  rw [shown, Passes.mapM_eq_ok_iff.2 hout]
  exact ⟨_, rfl⟩

/-- The ids that are shown are names of the nodes, in their order. -/
lemma sublist_ids {l : List Node} {out : List (Option NodeHours)}
    (h : List.Forall₂ (fun d o => nodeOut first.start last.start d = .ok o) l out) :
    (out.reduceOption.map NodeHours.id).Sublist (l.map Node.instanceName) := by
  induction h with
  | nil => exact .slnil
  | cons hd _ ih =>
    rcases nodeOut_spec hd with ⟨rfl, -⟩ | ⟨n, rfl, hid, -⟩
    · rw [List.reduceOption_cons_of_none, List.map_cons]
      exact ih.cons _
    · rw [List.reduceOption_cons_of_some, List.map_cons, List.map_cons, hid]
      exact ih.cons_cons _

/-- **Each node is shown once**, with its overlap with the month. -/
lemma shown_spec (h : shown first last (sortedNodes t first) = some nodes) :
    (nodes.map NodeHours.id).Nodup ∧
      (∀ d ∈ t.rows, 0 < d.overlap first.start last.start → 
        d.instanceName ∈ nodes.map NodeHours.id) ∧
      ((placedOut nodes).map NodeHours.durationHours).sum =
        (t.placed.map fun d => d.overlap first.start last.start).sum ∧
      ((placedOut nodes).map NodeHours.durationComputeHours).sum =
        (t.placed.map fun d => d.overlap first.start last.start * d.cpus).sum := by
  rw [shown] at h
  cases hmap : (sortedNodes t first).mapM (nodeOut first.start last.start) with
  | error err =>
    rw [hmap] at h
    cases h
  | ok out =>
    rw [hmap] at h
    obtain rfl := Option.some.inj h
    have hout := Passes.mapM_eq_ok_iff.1 hmap
    have hsum : ∀ (g : NodeHours → ℚ) (k : Node → ℚ), (∀ d ∈ sortedNodes t first, ∀ n,
        n.durationHours = d.overlap first.start last.start →
          n.durationComputeHours = d.overlap first.start last.start * d.cpus →
            g n = d.overlap first.start last.start * k d) →
        ((placedOut out.reduceOption).map g).sum =
          (t.placed.map fun d => d.overlap first.start last.start * k d).sum := by
      intro g k hg
      rw [placedOut, sum_filter, Buckets.sum_map_reduceOption,
        Passes.map_eq_map hout (k := fun d => Buckets.placedHours first last d * k d),
        (sortedNodes_perm.map _).sum_eq, sum_nodesEndedAfter]
      intro d hd o ho
      rw [Buckets.placedHours]
      rcases nodeOut_spec ho with ⟨rfl, hzero⟩ | ⟨n, rfl, -, hmt, hreg, hhours, hcompute⟩
      · rw [hzero, ite_self, zero_mul]
        rfl
      · rw [Option.map_some, Option.getD_some, hmt, hreg, hg d hd n hhours hcompute]
        split_ifs
        · rfl
        · exact (zero_mul _).symm
    refine ⟨(sublist_ids hout).nodup nodup_sortedNodes, fun d hd hpos => ?_, ?_, ?_⟩
    · -- a node with hours in the month ended after its beginning
      have hmem : d ∈ sortedNodes t first := by
        rw [mem_sortedNodes]
        refine ⟨hd, ?_⟩
        by_contra hbefore
        rw [overlap_of_ended_before (Bool.not_eq_true _ ▸ hbefore)] at hpos
        exact lt_irrefl 0 hpos
      obtain ⟨o, ho, hok⟩ := Passes.exists_of_mem_left hout hmem
      rcases nodeOut_spec hok with ⟨rfl, hzero⟩ | ⟨n, rfl, hid, -⟩
      · exact absurd hzero hpos.ne'
      · exact List.mem_map.2 ⟨n, List.reduceOption_mem_iff.2 ho, hid⟩
    · have h := hsum NodeHours.durationHours (fun _ => 1) fun d _ n hhours _ => by
        rw [hhours, mul_one]
      simpa using h
    · exact hsum NodeHours.durationComputeHours Node.cpus fun d _ n _ hcompute => hcompute

end ByNodes

/-! ### Both -/

/-- **Usage hours are neither lost nor counted twice.**  Whatever is returned for a month, by days
and groups or by nodes in pages of any sizes, has the hours that the nodes ran in the month, those of
each node once; and it is returned when the table can be read. -/
theorem usage_hours (t : NodesTable) (month : Option Text) (now : ℚ) {first last : Month}
    (hfirst : monthOf month now = .ok first) (hlast : addMonth first = .ok last) :
    (∀ r, buildNodesDailyHours t month now = .ok r →
      r.nodeHours = (t.placed.map fun d => d.overlap first.start last.start).sum ∧
      r.computeHours = (t.placed.map fun d => d.overlap first.start last.start * d.cpus).sum) ∧
    (∀ limit fuel nodes, followMonthNodes t month now limit fuel = some nodes →
      (nodes.map NodeHours.id).Nodup ∧
      (∀ d ∈ t.rows, 0 < d.overlap first.start last.start →
        d.instanceName ∈ nodes.map NodeHours.id) ∧
      ((placedOut nodes).map NodeHours.durationHours).sum =
        (t.placed.map fun d => d.overlap first.start last.start).sum ∧
      ((placedOut nodes).map NodeHours.durationComputeHours).sum =
        (t.placed.map fun d => d.overlap first.start last.start * d.cpus).sum) ∧
    ((∀ d ∈ t.rows, d.Readable) → (∃ r, buildNodesDailyHours t month now = .ok r) ∧
      ∀ limit, ∃ N, ∀ fuel, N ≤ fuel → ∃ nodes,
        followMonthNodes t month now limit fuel = some nodes) := by
  refine ⟨fun r h => ?_, fun limit fuel nodes h => ?_, fun hread => ⟨?_, fun limit => ?_⟩⟩
  · obtain ⟨hhours, hcompute, -⟩ := buildNodesDailyHours_spec hfirst hlast h
    exact ⟨hhours, hcompute⟩
  · exact shown_spec (shown_of_followMonthNodes hfirst hlast h)
  · exact exists_buildNodesDailyHours hfirst hlast hread
  · refine ⟨(sortedNodes t first).length + 1, fun fuel hfuel => ?_⟩
    rw [followMonthNodes_eq hfirst hlast hfuel]
    exact exists_shown hread

/-- A node that ran over the end of January 2024, for 26 hours. -/
def februaryNodes : NodesTable where
  rows := [⟨"a".toList, some "n4-standard-4".toList, some "us-central1".toList, none, none,
    some 1706742000, some 1706835600⟩]
  nodup := by decide

lemma period_februaryNodes {d : Node} (h : d ∈ februaryNodes.rows) :
    d.period = .ok (some (1706742000, 1706835600)) := by
  obtain rfl := List.mem_singleton.1 h
  norm_num [Node.period, Node.startedRaw, asUtcDatetime, fromTimestamp, bind, Except.bind]

lemma readable_februaryNodes : ∀ d ∈ februaryNodes.rows, d.Readable := by
  intro d hd
  refine ⟨⟨_, period_februaryNodes hd⟩, 4, ?_⟩
  obtain rfl := List.mem_singleton.1 hd
  decide

lemma start_february : (⟨2024, 2, by decide⟩ : Month).start = 1706745600 := by
  have hday : (⟨2024, 2, by decide⟩ : Month).firstDay = 19754 := by decide
  rw [Month.start, hday]
  norm_num [days, secondsPerDay]

lemma start_march : (⟨2024, 3, by decide⟩ : Month).start = 1709251200 := by
  have hday : (⟨2024, 3, by decide⟩ : Month).firstDay = 19783 := by decide
  rw [Month.start, hday]
  norm_num [days, secondsPerDay]

/-- Of these hours, 25 are in February. -/
theorem usage_hours_february : ∃ r,
    buildNodesDailyHours februaryNodes (some "2024-02".toList) 0 = .ok r ∧ r.nodeHours = 25 := by
  have h := usage_hours februaryNodes (some "2024-02".toList) 0
    (show monthOf _ _ = .ok ⟨2024, 2, by decide⟩ by decide)
    (show addMonth _ = .ok ⟨2024, 3, by decide⟩ by decide)
  obtain ⟨r, hr⟩ := (h.2.2 readable_februaryNodes).1
  refine ⟨r, hr, (h.1 r hr).1.trans ?_⟩
  have hplaced : februaryNodes.placed = februaryNodes.rows := by decide
  rw [hplaced, start_february, start_march]
  have hoverlap : ∀ d ∈ februaryNodes.rows, d.overlap 1706745600 1709251200 = 25 := by
    intro d hd
    rw [overlap_of_period (period_februaryNodes hd)]
    norm_num [Cuts.piece]
  rw [List.map_congr_left hoverlap]
  exact add_zero 25
end Burla.Usage
