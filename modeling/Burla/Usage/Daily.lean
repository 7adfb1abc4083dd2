/-
The hours by days and groups.

The invariant of the loop over the nodes is `Buckets.Sound`: both tables have the days of the month
and the same groups in each of them, and no group is without hours.  Each node adds its overlap with
the month to the sum (`Buckets.addNode_spec`), since the days cut its window.
-/
import Burla.Lib.Passes
import Burla.Usage.Nodes
import Mathlib.Data.List.ReduceOption

namespace Burla.Usage

open Burla.Files (Text)
open Calendar (Date)
open Cuts (piece)

/-! ### What a node adds -/

/-- The hours of a node within a time. -/
def Node.overlap (monthStart monthEnd : ℚ) (d : Node) : ℚ :=
  match d.period with
  | .ok (some period) => piece period.1 period.2 monthStart monthEnd / 3600
  | _ => 0

/-- The CPUs that a node's hours are weighted by. -/
def Node.cpus (d : Node) : ℚ :=
  match cpuHourMultiplier d.machineType with
  | .ok cpus => cpus
  | .error _ => 0

/-- There are a machine type and a region. -/
def Placed (machineType gcpRegion : Option Text) : Bool :=
  (given machineType).isSome && (given gcpRegion).isSome

section Times

variable {d : Node} {period w : ℚ × ℚ} {s e ts time : ℚ}

lemma asUtcDatetime_le (h : asUtcDatetime ts = .ok time) : time ≤ ts := by
  rw [asUtcDatetime, fromTimestamp] at h
  split_ifs at h with hms hrange hrange
  · obtain rfl := Except.ok.inj h
    linarith
  · obtain rfl := Except.ok.inj h
    exact le_rfl

lemma period_eq (h : d.period = .ok (some period)) : ∃ started ended, d.startedRaw = some started ∧
    d.endedAt = some ended ∧ asUtcDatetime started = .ok period.1 ∧
      asUtcDatetime ended = .ok period.2 ∧ period.1 < period.2 := by
  rw [Node.period] at h
  cases hended : d.endedAt with
  | none =>
    rw [hended] at h
    cases h
  | some ended =>
    cases hstarted : d.startedRaw with
    | none =>
      rw [hended, hstarted] at h
      cases h
    | some started =>
      rw [hended, hstarted] at h
      dsimp only [bind, Except.bind] at h
      cases hstart : asUtcDatetime started with
      | error err =>
        rw [hstart] at h
        cases h
      | ok startDt =>
        cases hend : asUtcDatetime ended with
        | error err =>
          rw [hstart, hend] at h
          cases h
        | ok endDt =>
          rw [hstart, hend] at h
          dsimp only at h
          split_ifs at h with hle
          · cases Except.ok.inj h
          · obtain rfl := Option.some.inj (Except.ok.inj h)
            exact ⟨started, ended, rfl, rfl, hstart, hend, not_le.1 hle⟩

lemma overlap_of_period (h : d.period = .ok (some period)) :
    d.overlap s e = piece period.1 period.2 s e / 3600 := by
  rw [Node.overlap, h]

lemma overlap_of_none (h : d.period = .ok none) : d.overlap s e = 0 := by
  rw [Node.overlap, h]

lemma window_eq_none (h : window s e period = none) : piece period.1 period.2 s e = 0 := by
  rw [window] at h
  split_ifs at h with hle
  exact Cuts.piece_eq_zero hle

lemma window_eq_some (h : window s e period = some w) : w.1 = max period.1 s ∧ w.2 = min period.2 e ∧
    w.1 < w.2 ∧ piece period.1 period.2 s e = w.2 - w.1 := by
  rw [window] at h
  split_ifs at h with hle
  obtain rfl := Option.some.inj h
  have hlt := not_le.1 hle
  exact ⟨rfl, rfl, hlt, Cuts.piece_eq_sub hlt.le⟩

/-- A node that ended before has no hours in the time, in whatever unit its end is given. -/
lemma overlap_of_ended_before (h : (d.endedAt.any fun ended => decide (s ≤ ended)) = false) :
    d.overlap s e = 0 := by
  rw [Node.overlap]
  split
  · rename_i period hperiod
    obtain ⟨started, ended, -, hended, -, hend, -⟩ := period_eq hperiod
    rw [hended, Option.any_some, decide_eq_false_iff_not, not_le] at h
    have hle := asUtcDatetime_le hend
    rw [Cuts.piece_eq_zero, zero_div]
    exact (min_le_left _ _).trans ((hle.trans h.le).trans (le_max_right _ _))
  · rfl

end Times

/-! ### Days and groups -/

section Groups

variable {buckets : Dict Date (Dict Text ℚ)} {label label' : Date} {groups : Dict Text ℚ}
  {key : Text} {x : ℚ}

/-- The sum over all days and groups. -/
def hoursOf (buckets : Dict Date (Dict Text ℚ)) : ℚ :=
  (buckets.items.map fun e => e.2.total).sum

lemma addHours_of_mem (h : buckets.get label = some groups) :
    addHours buckets label key x = buckets.set label (groups.addAmount key x) := by
  rw [addHours, h]

lemma keys_addHours (h : buckets.get label = some groups) :
    (addHours buckets label key x).keys = buckets.keys := by
  rw [addHours_of_mem h]
  exact Dict.keys_set_of_mem (Dict.mem_keys.2 ⟨groups, h⟩)

lemma get_addHours (h : buckets.get label = some groups) :
    (addHours buckets label key x).get label' =
      if label' = label then some (groups.addAmount key x) else buckets.get label' := by
  rw [addHours_of_mem h, Dict.get_set]

lemma hoursOf_addHours (h : buckets.get label = some groups) :
    hoursOf (addHours buckets label key x) = hoursOf buckets + x := by
  rw [addHours_of_mem h, hoursOf, hoursOf]
  refine (Dict.sum_set (f := Dict.total) h).trans ?_
  rw [Dict.total_addAmount, add_sub_cancel_left]

end Groups

section Empty

variable {labels : List Date}

lemma keys_emptyDays (h : labels.Nodup) : (emptyDays labels).keys = labels := Dict.keys_ofKeys h

lemma eq_empty_of_get_emptyDays {label : Date} {groups : Dict Text ℚ}
    (h : (emptyDays labels).get label = some groups) : groups = .empty := by
  rw [emptyDays, Dict.get_ofKeys] at h
  split_ifs at h
  exact (Option.some.inj h).symm

lemma hoursOf_emptyDays : hoursOf (emptyDays labels) = 0 := by
  rw [hoursOf]
  refine List.sum_eq_zero fun total htotal => ?_
  obtain ⟨e, he, rfl⟩ := List.mem_map.1 htotal
  rw [eq_empty_of_get_emptyDays (Dict.mem_items.1 he), Dict.total_empty]

end Empty

/-! ### The key of a group -/

/-- A text with a separator is split at the first one. -/
lemma exists_splitAtMost {sep : Char} {text : Text} (h : sep ∈ text) (n : ℕ) :
    ∃ a b, text = a ++ sep :: b ∧ sep ∉ a ∧ splitAtMost sep (n + 1) text = a :: splitAtMost sep n b := by
  induction text with
  | nil => cases h
  | cons c text ih =>
    by_cases hc : c = sep
    · subst hc
      refine ⟨[], text, rfl, List.not_mem_nil, ?_⟩
      rw [splitAtMost, List.dropWhile_cons_of_neg (by simp), List.takeWhile_cons_of_neg (by simp)]
    · have hmem := (List.mem_cons.1 h).resolve_left (Ne.symm hc)
      obtain ⟨a, b, rfl, hnot, hsplit⟩ := ih hmem
      refine ⟨c :: a, b, rfl, ?_, ?_⟩
      · rw [List.mem_cons, not_or]
        exact ⟨Ne.symm hc, hnot⟩
      · rw [splitAtMost, List.dropWhile_cons_of_pos (by simpa using hc),
          List.takeWhile_cons_of_pos (by simpa using hc)]
        have hdrop : (a ++ sep :: b).dropWhile (· ≠ sep) = sep :: b := by
          rw [List.dropWhile_append_of_pos]
          · rw [List.dropWhile_cons_of_neg (by simp)]
          · intro x hx
            rw [decide_eq_true_eq]
            rintro rfl
            exact hnot hx
        have htake : (a ++ sep :: b).takeWhile (· ≠ sep) = a := by
          rw [List.takeWhile_append_of_pos]
          · rw [List.takeWhile_cons_of_neg (by simp), List.append_nil]
          · intro x hx
            rw [decide_eq_true_eq]
            rintro rfl
            exact hnot hx
        rw [hdrop, htake]

/-- **The key of a group has three parts**, whatever the machine type and the region are. -/
lemma splitAtMost_groupKeyOf (machineType gcpRegion : Text) (spot : Bool) : ∃ a b c,
    splitAtMost '|' 2 (groupKeyOf machineType gcpRegion spot) = [a, b, c] := by
  have hmem : '|' ∈ groupKeyOf machineType gcpRegion spot :=
    List.mem_append_right _ List.mem_cons_self
  obtain ⟨a, rest, heq, hnot, hsplit⟩ := exists_splitAtMost hmem 1
  have hrest : '|' ∈ rest := by
    rw [groupKeyOf] at heq
    rcases List.append_eq_append_iff.1 heq with ⟨as, ha, hb⟩ | ⟨bs, ha, hb⟩
    · cases as with
      | nil =>
        rw [List.nil_append] at hb
        obtain ⟨-, hb⟩ := List.cons.inj hb
        rw [← hb]
        exact List.mem_append_right _ List.mem_cons_self
      | cons x as =>
        refine absurd ?_ hnot
        obtain ⟨rfl, -⟩ := List.cons.inj hb
        rw [ha]
        exact List.mem_append_right _ List.mem_cons_self
    · cases bs with
      | nil =>
        rw [List.nil_append] at hb
        obtain ⟨-, hb⟩ := List.cons.inj hb
        rw [hb]
        exact List.mem_append_right _ List.mem_cons_self
      | cons x bs =>
        obtain ⟨-, hb⟩ := List.cons.inj hb
        rw [hb]
        exact List.mem_append_right _ List.mem_cons_self
  obtain ⟨b, c, -, -, hsplit'⟩ := exists_splitAtMost hrest 0
  exact ⟨a, b, c, by rw [hsplit, hsplit', splitAtMost]⟩

/-! ### The loop over the nodes -/

/-- What holds of the tables between two nodes. -/
structure Buckets.Sound (labels : List Date) (b : Buckets) : Prop where
  hoursKeys : b.hours.keys = labels
  computeKeys : b.compute.keys = labels
  sameGroups : ∀ label groups computeGroups, b.hours.get label = some groups →
    b.compute.get label = some computeGroups → computeGroups.keys = groups.keys
  hasHours : ∀ label groups, b.hours.get label = some groups → ∀ e ∈ groups.items, 0 < e.2
  computeNonneg : ∀ label groups, b.compute.get label = some groups → ∀ e ∈ groups.items, 0 ≤ e.2
  threeParts : ∀ label groups, b.hours.get label = some groups → ∀ e ∈ groups.items,
    ∃ machineType gcpRegion spot, splitAtMost '|' 2 e.1 = [machineType, gcpRegion, spot]

namespace Buckets

section Steps

variable {labels : List Date} {b b' : Buckets} {label : Date} {key : Text} {x y s e : ℚ}
  {w : ℚ × ℚ} {mult : ℕ} {day : ℤ} {d : Node}

lemma sound_empty (h : labels.Nodup) : Sound labels ⟨emptyDays labels, emptyDays labels⟩ where
  hoursKeys := keys_emptyDays h
  computeKeys := keys_emptyDays h
  sameGroups _ _ _ hg hc := by
    rw [eq_empty_of_get_emptyDays hg, eq_empty_of_get_emptyDays hc]
  hasHours _ _ hg e he := by
    rw [eq_empty_of_get_emptyDays hg] at he
    cases he
  computeNonneg _ _ hg e he := by
    rw [eq_empty_of_get_emptyDays hg] at he
    cases he
  threeParts _ _ hg e he := by
    rw [eq_empty_of_get_emptyDays hg] at he
    cases he

lemma amount_nonneg {groups : Dict Text ℚ} (h : ∀ e ∈ groups.items, 0 ≤ e.2) (k : Text) :
    0 ≤ groups.amount k := by
  rw [Dict.amount]
  cases hget : groups.get k with
  | none => exact le_refl 0
  | some v => exact h (k, v) (Dict.mem_items.2 hget)

/-- An entry of the groups is the one that has been added to, or one of the old ones. -/
lemma mem_items_addAmount {groups : Dict Text ℚ} {e : Text × ℚ}
    (he : e ∈ (groups.addAmount key x).items) :
    (e.1 = key ∧ e.2 = groups.amount key + x) ∨ e ∈ groups.items := by
  obtain ⟨k, v⟩ := e
  rw [Dict.mem_items, Dict.get_addAmount] at he
  split_ifs at he with hk
  · exact .inl ⟨hk, (Option.some.inj he).symm⟩
  · exact .inr (Dict.mem_items.2 he)

/-- Hours of a group of a day are added in both tables. -/
lemma Sound.addHours (h : Sound labels b) (hlabel : label ∈ labels) (hx : 0 < x) (hy : 0 ≤ y)
    (hkey : ∃ m r t, splitAtMost '|' 2 key = [m, r, t]) :
    Sound labels ⟨addHours b.hours label key x, addHours b.compute label key y⟩ ∧
      hoursOf (Usage.addHours b.hours label key x) = hoursOf b.hours + x ∧
        hoursOf (Usage.addHours b.compute label key y) = hoursOf b.compute + y := by
  obtain ⟨groups, hgroups⟩ := Dict.mem_keys.1 (h.hoursKeys ▸ hlabel)
  obtain ⟨computeGroups, hcompute⟩ := Dict.mem_keys.1 (h.computeKeys ▸ hlabel)
  have hsame := h.sameGroups label groups computeGroups hgroups hcompute
  have hamount := amount_nonneg (fun e he => (h.hasHours label groups hgroups e he).le) key
  have hcomputeAmount := amount_nonneg (h.computeNonneg label computeGroups hcompute) key
  refine ⟨⟨?_, ?_, ?_, ?_, ?_, ?_⟩, hoursOf_addHours hgroups, hoursOf_addHours hcompute⟩
  · exact (keys_addHours hgroups).trans h.hoursKeys
  · exact (keys_addHours hcompute).trans h.computeKeys
  · intro label' g c hg hc
    rw [get_addHours hgroups] at hg
    rw [get_addHours hcompute] at hc
    split_ifs at hg hc with heq
    · obtain rfl := Option.some.inj hg
      obtain rfl := Option.some.inj hc
      rw [Dict.keys_addAmount, Dict.keys_addAmount, hsame]
    · exact h.sameGroups label' g c hg hc
  · intro label' g hg e he
    rw [get_addHours hgroups] at hg
    split_ifs at hg with heq
    · obtain rfl := Option.some.inj hg
      rcases mem_items_addAmount he with ⟨-, hvalue⟩ | hold
      · rw [hvalue]
        linarith
      · exact h.hasHours label groups hgroups e hold
    · exact h.hasHours label' g hg e he
  · intro label' c hc e he
    rw [get_addHours hcompute] at hc
    split_ifs at hc with heq
    · obtain rfl := Option.some.inj hc
      rcases mem_items_addAmount he with ⟨-, hvalue⟩ | hold
      · rw [hvalue]
        linarith
      · exact h.computeNonneg label computeGroups hcompute e hold
    · exact h.computeNonneg label' c hc e he
  · intro label' g hg e he
    rw [get_addHours hgroups] at hg
    split_ifs at hg with heq
    · obtain rfl := Option.some.inj hg
      rcases mem_items_addAmount he with ⟨hk, -⟩ | hold
      · rw [hk]
        exact hkey
      · exact h.threeParts label groups hgroups e hold
    · exact h.threeParts label' g hg e he

/-- What of a window is in a day is added to the day. -/
lemma Sound.addSegment (h : Sound labels b) (hlabel : dateKey day ∈ labels)
    (hkey : ∃ m r t, splitAtMost '|' 2 key = [m, r, t]) :
    Sound labels (addSegment w key mult b day) ∧
      hoursOf (Usage.addSegment w key mult b day).hours =
        hoursOf b.hours + piece w.1 w.2 (days.border day) (days.border (day + 1)) / 3600 ∧
      hoursOf (Usage.addSegment w key mult b day).compute = hoursOf b.compute +
        piece w.1 w.2 (days.border day) (days.border (day + 1)) / 3600 * mult := by
  rw [Usage.addSegment]
  dsimp only
  split_ifs with hlt
  · rw [Cuts.piece_eq_sub hlt.le]
    have hpos := div_pos (sub_pos.2 hlt) (show (0 : ℚ) < 3600 by norm_num)
    exact h.addHours hlabel hpos (mul_nonneg hpos.le (Nat.cast_nonneg mult)) hkey
  · rw [Cuts.piece_eq_zero (not_lt.1 hlt), zero_div, zero_mul, add_zero, add_zero]
    exact ⟨h, rfl, rfl⟩

lemma Sound.foldl_addSegment {l : List ℤ} (h : Sound labels b)
    (hlabel : ∀ day ∈ l, dateKey day ∈ labels)
    (hkey : ∃ m r t, splitAtMost '|' 2 key = [m, r, t]) :
    Sound labels (l.foldl (Usage.addSegment w key mult) b) ∧
      hoursOf (l.foldl (Usage.addSegment w key mult) b).hours = hoursOf b.hours +
        (l.map fun day => piece w.1 w.2 (days.border day) (days.border (day + 1))).sum / 3600 ∧
      hoursOf (l.foldl (Usage.addSegment w key mult) b).compute = hoursOf b.compute +
        (l.map fun day => piece w.1 w.2 (days.border day) (days.border (day + 1))).sum / 3600 *
          mult := by
  induction l generalizing b with
  | nil =>
    refine ⟨h, ?_, ?_⟩
    · rw [List.map_nil, List.sum_nil, zero_div, add_zero]
      rfl
    · rw [List.map_nil, List.sum_nil, zero_div, zero_mul, add_zero]
      rfl
  | cons day l ih =>
    obtain ⟨hsound, hhours, hcompute⟩ : _ ∧
        hoursOf (Usage.addSegment w key mult b day).hours = _ ∧ _ :=
      h.addSegment (hlabel day List.mem_cons_self) hkey
    obtain ⟨hsound', hhours', hcompute'⟩ :=
      ih hsound fun day hday => hlabel day (List.mem_cons_of_mem _ hday)
    rw [List.foldl_cons, List.map_cons, List.sum_cons]
    refine ⟨hsound', ?_, ?_⟩
    · rw [hhours', hhours]
      ring
    · rw [hcompute', hcompute]
      ring

/-- **A window is cut into its days**, and all of it is added. -/
lemma Sound.addWindow (h : Sound labels b) (hw : w.1 ≤ w.2)
    (hlabel : ∀ day ∈ days.upTo w.2 (days.index w.1), dateKey day ∈ labels)
    (hkey : ∃ m r t, splitAtMost '|' 2 key = [m, r, t]) :
    Sound labels (addWindow w key mult b) ∧
      hoursOf (Usage.addWindow w key mult b).hours = hoursOf b.hours + (w.2 - w.1) / 3600 ∧
      hoursOf (Usage.addWindow w key mult b).compute =
        hoursOf b.compute + (w.2 - w.1) / 3600 * mult := by
  have hpieces := Borders.sum_piece_upTo (B := days) hw
  rw [← hpieces]
  exact h.foldl_addSegment hlabel hkey

end Steps

/-! ### A run over the nodes -/

section Run

variable {first last : Month} {labels : List Date} {b b' : Buckets} {d : Node} {l : List Node}

/-- The labels of the days of a month. -/
def labelsOf (first last : Month) : List Date :=
  (days.upTo last.start first.firstDay).map dateKey

lemma dateKey_injective {j k : ℤ} (h : dateKey j = dateKey k) : j = k := by
  have := Date.ofOrdinal_injective h
  omega

lemma nodup_labelsOf : (labelsOf first last).Nodup :=
  Borders.nodup_upTo.map fun _ _ => dateKey_injective

/-- The days of a window in the month are days of the month. -/
lemma dateKey_mem_labelsOf {w : ℚ × ℚ} {day : ℤ} (hstart : first.start ≤ w.1)
    (hend : w.2 ≤ last.start) (h : day ∈ days.upTo w.2 (days.index w.1)) :
    dateKey day ∈ labelsOf first last := by
  obtain ⟨hle, hlt⟩ := Borders.mem_upTo.1 h
  refine List.mem_map_of_mem (Borders.mem_upTo.2 ⟨?_, hlt.trans_le hend⟩)
  exact (days.le_index hstart).trans hle

/-- What a node adds to the hours. -/
def placedHours (first last : Month) (d : Node) : ℚ :=
  if Placed d.machineType d.gcpRegion then d.overlap first.start last.start else 0

/-- **A node adds its overlap with the month**, when it has a machine type and a region. -/
lemma addNode_spec (h : Sound (labelsOf first last) b)
    (hok : addNode first.start last.start b d = .ok b') :
    Sound (labelsOf first last) b' ∧
      hoursOf b'.hours = hoursOf b.hours + placedHours first last d ∧
      hoursOf b'.compute = hoursOf b.compute + placedHours first last d * d.cpus := by
  have hskip : placedHours first last d = 0 → b' = b → Sound (labelsOf first last) b' ∧
      hoursOf b'.hours = hoursOf b.hours + placedHours first last d ∧
      hoursOf b'.compute = hoursOf b.compute + placedHours first last d * d.cpus := by
    rintro hzero rfl
    rw [hzero, zero_mul, add_zero, add_zero]
    exact ⟨h, rfl, rfl⟩
  rw [addNode] at hok
  cases hperiod : d.period with
  | error err =>
    rw [hperiod] at hok
    cases hok
  | ok o =>
    rw [hperiod] at hok
    cases o with
    | none =>
      refine hskip ?_ (Except.ok.inj hok).symm
      rw [placedHours, overlap_of_none hperiod, ite_self]
    | some period =>
      dsimp only [bind, Except.bind] at hok
      cases hmt : given d.machineType with
      | none =>
        rw [hmt] at hok
        refine hskip ?_ (Except.ok.inj hok).symm
        rw [placedHours, Placed, hmt]
        rfl
      | some machineType =>
        cases hreg : given d.gcpRegion with
        | none =>
          rw [hmt, hreg] at hok
          refine hskip ?_ (Except.ok.inj hok).symm
          rw [placedHours, Placed, hmt, hreg]
          rfl
        | some gcpRegion =>
          rw [hmt, hreg] at hok
          dsimp only at hok
          have hplaced : placedHours first last d =
              piece period.1 period.2 first.start last.start / 3600 := by
            rw [placedHours, Placed, hmt, hreg, overlap_of_period hperiod]
            rfl
          cases hwindow : window first.start last.start period with
          | none =>
            rw [hwindow] at hok
            refine hskip ?_ (Except.ok.inj hok).symm
            rw [hplaced, window_eq_none hwindow, zero_div]
          | some w =>
            rw [hwindow] at hok
            dsimp only at hok
            obtain ⟨hstart, hend, hlt, hpiece⟩ := window_eq_some hwindow
            have hmt' : d.machineType = some machineType := (Option.filter_eq_some_iff.1 hmt).1
            cases hmult : cpuHourMultiplier (some machineType) with
            | error err =>
              rw [hmult] at hok
              cases hok
            | ok mult =>
              rw [hmult] at hok
              obtain rfl := Except.ok.inj hok
              have hcpus : d.cpus = mult := by
                rw [Node.cpus, hmt', hmult]
              rw [hplaced, hpiece, hcpus]
              refine h.addWindow hlt.le (fun day => dateKey_mem_labelsOf ?_ ?_)
                (splitAtMost_groupKeyOf _ _ _)
              · rw [hstart]
                exact le_max_right _ _
              · rw [hend]
                exact min_le_right _ _

/-- **Each of the nodes adds its overlap.** -/
lemma foldlM_addNode_spec (h : Sound (labelsOf first last) b)
    (hok : l.foldlM (addNode first.start last.start) b = .ok b') :
    Sound (labelsOf first last) b' ∧
      hoursOf b'.hours = hoursOf b.hours + (l.map (placedHours first last)).sum ∧
      hoursOf b'.compute =
        hoursOf b.compute + (l.map fun d => placedHours first last d * d.cpus).sum := by
  induction l generalizing b with
  | nil =>
    obtain rfl := Except.ok.inj hok
    rw [List.map_nil, List.sum_nil, add_zero]
    exact ⟨h, rfl, (add_zero _).symm⟩
  | cons d l ih =>
    rw [List.foldlM_cons] at hok
    cases hstep : addNode first.start last.start b d with
    | error err =>
      rw [hstep] at hok
      cases hok
    | ok mid =>
      rw [hstep] at hok
      obtain ⟨hsound, hhours, hcompute⟩ := addNode_spec h hstep
      obtain ⟨hsound', hhours', hcompute'⟩ := ih hsound hok
      refine ⟨hsound', ?_, ?_⟩
      · rw [hhours', hhours, List.map_cons, List.sum_cons, add_assoc]
      · rw [hcompute', hcompute, List.map_cons, List.sum_cons, add_assoc]

end Run

/-! ### What is returned -/

section Output

variable {labels : List Date} {b : Buckets} {label : Date} {groups computeGroups : Dict Text ℚ}
  {e : Text × ℚ} {o : ℚ × ℚ × DayHours}

lemma quantizeHours_of_nonneg {x : ℚ} (h : 0 ≤ x) : quantizeHours x = x := by
  rw [quantizeHours]
  split_ifs with hle
  · exact le_antisymm h hle
  · rfl

/-- A sum over what is there of some options. -/
lemma sum_map_reduceOption {α : Type*} (g : α → ℚ) (l : List (Option α)) :
    (l.reduceOption.map g).sum = (l.map fun o => (o.map g).getD 0).sum := by
  induction l with
  | nil => rfl
  | cons o l ih =>
    cases o with
    | none => rw [List.reduceOption_cons_of_none, ih, List.map_cons, List.sum_cons, Option.map_none,
        Option.getD_none, zero_add]
    | some a => rw [List.reduceOption_cons_of_some, List.map_cons, List.sum_cons, ih, List.map_cons,
        List.sum_cons, Option.map_some, Option.getD_some]

/-- The hours of a group, as they are shown. -/
lemma exists_groupOut (hpos : 0 < e.2) (hcompute : 0 ≤ computeGroups.amount e.1)
    (hkey : ∃ m r t, splitAtMost '|' 2 e.1 = [m, r, t]) : ∃ g,
    groupOut computeGroups e = .ok (some (e.2, computeGroups.amount e.1, g)) ∧
      g.totalNodeHours = e.2 ∧ g.totalComputeHours = computeGroups.amount e.1 := by
  obtain ⟨m, r, t, hsplit⟩ := hkey
  rw [groupOut, hsplit]
  dsimp only
  rw [if_neg (not_le.2 hpos), quantizeHours_of_nonneg hpos.le, quantizeHours_of_nonneg hcompute]
  exact ⟨_, rfl, rfl, rfl⟩

/-- **A day shows the hours of its groups.** -/
lemma Sound.dayOut (h : Sound labels b) (hhours : b.hours.get label = some groups)
    (hcompute : b.compute.get label = some computeGroups) : ∃ day,
    dayOut b label = .ok (groups.total, computeGroups.total, day) ∧
      (day.groups.map GroupHours.totalNodeHours).sum = groups.total ∧
      (day.groups.map GroupHours.totalComputeHours).sum = computeGroups.total := by
  have hgroup : ∀ e ∈ groups.items, ∃ o, groupOut computeGroups e = .ok o ∧
      ∃ g, o = some (e.2, computeGroups.amount e.1, g) ∧ g.totalNodeHours = e.2 ∧
        g.totalComputeHours = computeGroups.amount e.1 := by
    intro e he
    obtain ⟨g, hok, hg⟩ := exists_groupOut (h.hasHours label groups hhours e he)
      (amount_nonneg (h.computeNonneg label computeGroups hcompute) e.1)
      (h.threeParts label groups hhours e he)
    exact ⟨_, hok, g, rfl, hg⟩
  obtain ⟨out, hout⟩ := Passes.exists_forall₂_iff.2 fun e he =>
    (hgroup e he).imp fun o ho => ho.1
  have hresult : ∀ e ∈ groups.items, ∀ o, groupOut computeGroups e = .ok o →
      ∃ g, o = some (e.2, computeGroups.amount e.1, g) ∧ g.totalNodeHours = e.2 ∧
        g.totalComputeHours = computeGroups.amount e.1 := by
    intro e he o ho
    obtain ⟨o', ho', hg⟩ := hgroup e he
    obtain rfl := Except.ok.inj (ho.symm.trans ho')
    exact hg
  -- every sum over what is shown is one over the entries
  have hsum : ∀ (g : ℚ × ℚ × GroupHours → ℚ) (k : Text × ℚ → ℚ),
      (∀ e ∈ groups.items, ∀ o, groupOut computeGroups e = .ok o → (o.map g).getD 0 = k e) →
        (out.reduceOption.map g).sum = (groups.items.map k).sum := by
    intro g k hstep
    rw [sum_map_reduceOption, Passes.map_eq_map hout hstep]
  have hkeys := h.sameGroups label groups computeGroups hhours hcompute
  have hraw : (out.reduceOption.map Prod.fst).sum = groups.total := by
    refine hsum _ _ fun e he o ho => ?_
    obtain ⟨g, rfl, -⟩ := hresult e he o ho
    rfl
  have hrawCompute : (out.reduceOption.map fun e => e.2.1).sum = computeGroups.total := by
    refine (hsum _ (fun e => computeGroups.amount e.1) fun e he o ho => ?_).trans
      (Dict.sum_amount_keys hkeys)
    obtain ⟨g, rfl, -⟩ := hresult e he o ho
    rfl
  refine ⟨⟨label, quantizeHours groups.total, quantizeHours computeGroups.total,
    (out.reduceOption.map fun e => e.2.2).insertionSort fun a b =>
      b.totalNodeHours ≤ a.totalNodeHours⟩, ?_, ?_, ?_⟩
  · rw [Usage.dayOut, hhours, hcompute]
    show ((groups.items.mapM (groupOut computeGroups)) >>= _) = _
    rw [Passes.mapM_eq_ok_iff.2 hout]
    dsimp only [bind, Except.bind]
    rw [hraw, hrawCompute]
  · dsimp only
    rw [(((List.perm_insertionSort _ _).map _).sum_eq), List.map_map]
    refine hsum _ _ fun e he o ho => ?_
    obtain ⟨g, rfl, hg, -⟩ := hresult e he o ho
    exact hg
  · dsimp only
    rw [(((List.perm_insertionSort _ _).map _).sum_eq), List.map_map]
    refine (hsum _ (fun e => computeGroups.amount e.1) fun e he o ho => ?_).trans
      (Dict.sum_amount_keys hkeys)
    obtain ⟨g, rfl, -, hg⟩ := hresult e he o ho
    exact hg

end Output

end Buckets

end Burla.Usage
