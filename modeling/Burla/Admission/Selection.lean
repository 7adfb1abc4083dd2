/-
Which warm nodes a job starts on: `_select_ready_nodes_from_state`, and the refusals of `start_job`
when there are none and the cluster may not grow (endpoints/client.py).

The nodes are gone through in the order of the table until the calls have slots.  The main result
is `Burla.Admission.selected_rightly`: the slots are as many as the suitable nodes have, or as are
wanted; the nodes may all be reserved; and when none is selected, the reason that is given is the
true one.
-/
import Burla.ClusterState.Nodes
import Burla.Scaling.Plan
import Mathlib.Algebra.Order.BigOperators.Group.List
import Mathlib.Data.List.Dedup
import Mathlib.Data.List.Sort

namespace Burla.Admission

open Burla.ClusterState (NodeRow admitNodes)
open Burla.Scaling (CloudProvider FuncSize PlanError gpuMachineType parallelismCapacity startsWith)

abbrev Text := Scaling.Text

variable {κ ι : Type*}

/-! ### Selection -/

/-- A node's row, with what a job may ask for; empty texts are none. -/
structure LiveRow (κ : Type*) extends NodeRow κ where
  /-- The key is written with `machine_type`, at first with no address. -/
  host : Option Text
  machineType : Option Text
  /-- The images of its `containers`. -/
  images : List Text

/-- What a start request asks for; empty texts are none. -/
structure StartRequest where
  funcCpu : FuncSize
  funcRam : FuncSize
  maxParallelism : ℤ
  image : Option Text
  funcGpu : Option Text
  region : Option String

/-- An entry of `selected`. -/
structure SelectedNode (ι : Type*) where
  instanceName : ι
  host : Option Text
  machineType : Text
  targetParallelism : ℤ
  deriving DecidableEq

/-- The part of a machine type that names its family. -/
def familyOf : CloudProvider → Text → Text
  | .aws, machineType => machineType.takeWhile (· ≠ '.') ++ ['.']
  | _, machineType =>
    match machineType.reverse.dropWhile (· ≠ '-') with
    | [] => machineType ++ ['-']
    | dash :: rest => rest.reverse ++ [dash]

/-- `gpu_machine_prefix` -/
def gpuMachinePrefix (funcGpu : Option Text) (provider : CloudProvider) :
    Except PlanError (Option Text) :=
  (gpuMachineType funcGpu provider).map fun machineType => machineType.map (familyOf provider)

/-- `list_nodes` -/
def listNodes (nodes : Dict ι (LiveRow κ)) : List (ι × LiveRow κ) :=
  nodes.items.filter fun e => e.2.status ≠ some .deleted

/-- `unfiltered_ready` -/
def readyNodes [DecidableEq κ] (nodes : Dict ι (LiveRow κ)) (now : ℚ) : List (ι × LiveRow κ) :=
  (listNodes nodes).filter fun e => e.2.Free now

/-- The nodes that have what is asked for, if something is. -/
def keepIfAsked {β : Type} (asked : Option β) (has : β → LiveRow κ → Bool)
    (l : List (ι × LiveRow κ)) : List (ι × LiveRow κ) :=
  match asked with
  | none => l
  | some b => l.filter fun e => has b e.2

/-- What `_select_ready_nodes_from_state` returns. -/
structure Selection (κ ι : Type*) where
  selected : List (SelectedNode ι)
  totalParallelism : ℤ
  readyAfterFilters : List (ι × LiveRow κ)
  readyAfterGpu : List (ι × LiveRow κ)
  readyAfterImage : List (ι × LiveRow κ)
  unfilteredReady : List (ι × LiveRow κ)

def hasImage (image : Text) (row : LiveRow κ) : Bool := row.images.contains image

def inFamily (family : Text) (row : LiveRow κ) : Bool := startsWith family (row.machineType.getD [])

def inRegion (region : String) (row : LiveRow κ) : Bool := row.gcpRegion = some region

namespace StartRequest

variable (q : StartRequest)

/-- The loop over the nodes, from a number of slots. -/
def pick (total : ℤ) : List (ι × LiveRow κ) → Except PlanError (List (SelectedNode ι) × ℤ)
  | [] => .ok ([], total)
  | (name, row) :: nodes =>
    if q.maxParallelism - total ≤ 0 then .ok ([], total)
    else
      match row.machineType with
      | none => .error (.keyError "machine_type".toList)
      | some machineType =>
        match parallelismCapacity machineType q.funcCpu q.funcRam with
        | .error e => .error e
        | .ok capacity =>
          let parallelism := min (q.maxParallelism - total) capacity
          if parallelism ≤ 0 then pick total nodes
          else
            (pick (total + parallelism) nodes).map fun (selected, t) =>
              (⟨name, row.host, machineType, parallelism⟩ :: selected, t)

variable [DecidableEq κ] (provider : CloudProvider) (nodes : Dict ι (LiveRow κ)) (now : ℚ)

/-- `_select_ready_nodes_from_state` -/
def selectReadyNodes : Except PlanError (Selection κ ι) :=
  match gpuMachinePrefix q.funcGpu provider with
  | .error e => .error e
  | .ok machinePrefix =>
    let unfilteredReady := readyNodes nodes now
    let readyAfterImage := keepIfAsked q.image hasImage unfilteredReady
    let readyAfterGpu := keepIfAsked machinePrefix inFamily readyAfterImage
    let readyAfterFilters := keepIfAsked q.region inRegion readyAfterGpu
    (q.pick 0 readyAfterFilters).map fun (selected, totalParallelism) =>
      { selected, totalParallelism, readyAfterFilters, readyAfterGpu, readyAfterImage,
        unfilteredReady }

end StartRequest

/-! ### Refusals -/

inductive Mismatch
  | image
  | gpu
  | region
  | capacity
  deriving DecidableEq

/-- What `start_job` raises when no node is selected and the cluster may not grow. -/
inductive StartRefusal
  /-- 503 -/
  | nodesBusy (bootingCount runningCount : ℕ)
  /-- 404 -/
  | noNodes
  /-- 409, with what there is instead. -/
  | noCompatibleNodes (reason : Mismatch) (available : List Text)
  deriving DecidableEq

/-- `sorted(set(…))` -/
def sortedSet (l : List Text) : List Text :=
  l.dedup.insertionSort fun a b => Scaling.Text.le a b = true

/-- How many nodes have a status. -/
def countStatus (nodes : Dict ι (LiveRow κ)) (status : Assign.NodeStatus) : ℕ :=
  (listNodes nodes).countP fun e => e.2.status = some status

/-- The refusal, from the selection. -/
def StartRequest.refusal (q : StartRequest) (nodes : Dict ι (LiveRow κ)) (s : Selection κ ι) :
    StartRefusal :=
  let booting := countStatus nodes .booting
  let running := countStatus nodes .running
  if booting ≠ 0 ∨ running ≠ 0 then .nodesBusy booting running
  else if s.unfilteredReady.isEmpty then .noNodes
  else if q.image.isSome ∧ s.readyAfterImage.isEmpty then
    .noCompatibleNodes .image (sortedSet (s.unfilteredReady.flatMap fun e => e.2.images))
  else if q.funcGpu.isSome ∧ ¬s.readyAfterImage.isEmpty ∧ s.readyAfterGpu.isEmpty then
    .noCompatibleNodes .gpu (sortedSet (s.readyAfterImage.filterMap fun e => e.2.machineType))
  else if q.region.isSome ∧ ¬s.readyAfterGpu.isEmpty ∧ s.readyAfterFilters.isEmpty then
    .noCompatibleNodes .region
      (sortedSet (s.readyAfterGpu.filterMap fun e => e.2.gcpRegion.map String.toList))
  else .noCompatibleNodes .capacity []

/-! ### What is selected -/

section Selected

variable {q : StartRequest} {total t : ℤ} {l : List (ι × LiveRow κ)}
  {selected : List (SelectedNode ι)}

/-- The calls that a node has room for; where this cannot be told, there is none. -/
def StartRequest.room (q : StartRequest) (row : LiveRow κ) : ℤ :=
  match row.machineType with
  | none => 0
  | some machineType =>
    match parallelismCapacity machineType q.funcCpu q.funcRam with
    | .error _ => 0
    | .ok capacity => max 0 capacity

lemma room_nonneg (row : LiveRow κ) : 0 ≤ q.room row := by
  rw [StartRequest.room]
  split
  · exact le_rfl
  · split
    · exact le_rfl
    · exact le_max_left _ _

lemma sum_room_nonneg : 0 ≤ (l.map fun e => q.room e.2).sum :=
  List.sum_nonneg fun x hx => by
    obtain ⟨e, -, rfl⟩ := List.mem_map.1 hx
    exact room_nonneg _

/-- **The loop takes the slots of its nodes in turn**, up to the slots that are wanted. -/
lemma pick_spec (h : q.pick total l = .ok (selected, t)) (htotal : total ≤ q.maxParallelism) :
    t = min q.maxParallelism (total + (l.map fun e => q.room e.2).sum) ∧
    t = total + (selected.map SelectedNode.targetParallelism).sum ∧
    (selected.map SelectedNode.instanceName).Sublist (l.map Prod.fst) ∧
    ∀ n ∈ selected, 0 < n.targetParallelism ∧
      ∃ row, (n.instanceName, row) ∈ l ∧ n.targetParallelism ≤ q.room row := by
  induction l generalizing total selected t with
  | nil =>
    obtain ⟨rfl, rfl⟩ := Prod.mk.inj (Except.ok.inj h)
    simp [htotal]
  | cons e l ih =>
    obtain ⟨name, row⟩ := e
    have hsum : 0 ≤ (l.map fun e => q.room e.2).sum := sum_room_nonneg
    have hroom : 0 ≤ q.room row := room_nonneg row
    rw [List.map_cons, List.map_cons, List.sum_cons]
    dsimp only
    rw [StartRequest.pick] at h
    split at h
    · -- there are slots enough
      obtain ⟨rfl, rfl⟩ := Prod.mk.inj (Except.ok.inj h)
      exact ⟨by omega, by simp, List.nil_sublist _, fun _ hn => absurd hn List.not_mem_nil⟩
    · split at h
      · cases h
      · rename_i machineType hmachine
        split at h
        · cases h
        · rename_i capacity hcapacity
          have hcapacity' : q.room row = max 0 capacity := by
            rw [StartRequest.room, hmachine]
            dsimp only
            rw [hcapacity]
          dsimp only at h
          split at h
          · -- the node has no room
            obtain ⟨hmin, htargets, hnames, hall⟩ := ih h htotal
            refine ⟨by omega, htargets, hnames.cons _, fun n hn => ?_⟩
            obtain ⟨hpos, row', hmem, hle⟩ := hall n hn
            exact ⟨hpos, row', List.mem_cons_of_mem _ hmem, hle⟩
          · cases hrest : q.pick (total + min (q.maxParallelism - total) capacity) l with
            | error e => rw [hrest] at h; cases h
            | ok rest =>
              obtain ⟨selected', t'⟩ := rest
              rw [hrest] at h
              obtain ⟨rfl, rfl⟩ := Prod.mk.inj (Except.ok.inj h)
              obtain ⟨hmin, htargets, hnames, hall⟩ := ih hrest (by omega)
              refine ⟨by omega, ?_, hnames.cons_cons _,
                List.forall_mem_cons.2 ⟨?_, fun n hn => ?_⟩⟩
              · rw [List.map_cons, List.sum_cons, htargets, add_assoc]
              · dsimp only
                exact ⟨by omega, row, List.mem_cons_self, by omega⟩
              · obtain ⟨hpos, row', hmem, hle⟩ := hall n hn
                exact ⟨hpos, row', List.mem_cons_of_mem _ hmem, hle⟩

end Selected

/-! ### The reason of a refusal -/

namespace StartRequest

def OfImage (q : StartRequest) (row : LiveRow κ) : Prop := ∀ image ∈ q.image, hasImage image row

def OfRegion (q : StartRequest) (row : LiveRow κ) : Prop := ∀ region ∈ q.region, inRegion region row

end StartRequest

def OfFamily (family : Option Text) (row : LiveRow κ) : Prop := ∀ f ∈ family, inFamily f row

/-- There is a node that nothing holds, with a property. -/
def HasFree (nodes : Dict ι (LiveRow κ)) (now : ℚ) (P : LiveRow κ → Prop) : Prop :=
  ∃ e ∈ nodes.items, e.2.Free now ∧ P e.2

/-- What a refusal says is so: what it names is missing, what comes before it is not, and what it
lists is what there is. -/
def StartRequest.Justified (q : StartRequest) (family : Option Text) (nodes : Dict ι (LiveRow κ))
    (now : ℚ) : StartRefusal → Prop
  | .nodesBusy _ _ =>
    ∃ e ∈ nodes.items, e.2.status = some .booting ∨ e.2.status = some .running
  | .noNodes => ¬HasFree nodes now fun _ => True
  | .noCompatibleNodes .image available =>
    (HasFree nodes now fun _ => True) ∧ ¬HasFree nodes now q.OfImage ∧
      ∀ x, x ∈ available ↔ HasFree nodes now fun row => x ∈ row.images
  | .noCompatibleNodes .gpu available =>
    HasFree nodes now q.OfImage ∧
      (¬HasFree nodes now fun row => q.OfImage row ∧ OfFamily family row) ∧
      ∀ x, x ∈ available ↔ HasFree nodes now fun row => q.OfImage row ∧ row.machineType = some x
  | .noCompatibleNodes .region available =>
    (HasFree nodes now fun row => q.OfImage row ∧ OfFamily family row) ∧
      (¬HasFree nodes now fun row => (q.OfImage row ∧ OfFamily family row) ∧ q.OfRegion row) ∧
      ∀ x, x ∈ available ↔ HasFree nodes now fun row =>
        (q.OfImage row ∧ OfFamily family row) ∧ row.gcpRegion.map String.toList = some x
  | .noCompatibleNodes .capacity _ =>
    (HasFree nodes now fun row => (q.OfImage row ∧ OfFamily family row) ∧ q.OfRegion row) ∧
      ¬HasFree nodes now fun row =>
        ((q.OfImage row ∧ OfFamily family row) ∧ q.OfRegion row) ∧ 0 < q.room row

section Reason

variable [DecidableEq κ] {q : StartRequest} {provider : CloudProvider} {family : Option Text}
  {nodes : Dict ι (LiveRow κ)} {now : ℚ} {l : List (ι × LiveRow κ)} {e : ι × LiveRow κ}
  {P : LiveRow κ → Prop} {s : Selection κ ι}

lemma mem_readyNodes : e ∈ readyNodes nodes now ↔ e ∈ nodes.items ∧ e.2.Free now := by
  rw [readyNodes, listNodes, List.mem_filter, List.mem_filter, decide_eq_true_iff,
    decide_eq_true_iff]
  constructor
  · rintro ⟨⟨he, -⟩, hfree⟩
    exact ⟨he, hfree⟩
  · rintro ⟨he, hfree⟩
    exact ⟨⟨he, by rw [hfree.1]; decide⟩, hfree⟩

omit [DecidableEq κ] in
lemma mem_keepIfAsked {β : Type} {asked : Option β} {has : β → LiveRow κ → Bool} :
    e ∈ keepIfAsked asked has l ↔ e ∈ l ∧ ∀ b ∈ asked, has b e.2 := by
  cases asked with
  | none => simp [keepIfAsked]
  | some b => simp [keepIfAsked]

omit [DecidableEq κ] in
/-- What has been kept is not there exactly when no free node has the property. -/
lemma isEmpty_iff (h : ∀ e, e ∈ l ↔ (e ∈ nodes.items ∧ e.2.Free now) ∧ P e.2) :
    l.isEmpty = true ↔ ¬HasFree nodes now P := by
  rw [List.isEmpty_iff, List.eq_nil_iff_forall_not_mem]
  refine ⟨fun hnil ⟨e, he, hfree, hP⟩ => hnil e ((h e).2 ⟨⟨he, hfree⟩, hP⟩), fun hnot e he => ?_⟩
  obtain ⟨⟨hmem, hfree⟩, hP⟩ := (h e).1 he
  exact hnot ⟨e, hmem, hfree, hP⟩

lemma mem_sortedSet {texts : List Text} {x : Text} : x ∈ sortedSet texts ↔ x ∈ texts := by
  rw [sortedSet, List.mem_insertionSort, List.mem_dedup]

omit [DecidableEq κ] in
/-- What is listed of the nodes that are kept. -/
lemma mem_available (h : ∀ e, e ∈ l ↔ (e ∈ nodes.items ∧ e.2.Free now) ∧ P e.2)
    {f : LiveRow κ → Option Text} {x : Text} :
    x ∈ sortedSet (l.filterMap fun e => f e.2) ↔
      HasFree nodes now fun row => P row ∧ f row = some x := by
  rw [mem_sortedSet, List.mem_filterMap]
  constructor
  · rintro ⟨e, he, hx⟩
    obtain ⟨⟨hmem, hfree⟩, hP⟩ := (h e).1 he
    exact ⟨e, hmem, hfree, hP, hx⟩
  · rintro ⟨e, hmem, hfree, hP, hx⟩
    exact ⟨e, (h e).2 ⟨⟨hmem, hfree⟩, hP⟩, hx⟩

omit [DecidableEq κ] in
/-- No node is lost where nothing is asked for. -/
lemma isSome_of_lost {β : Type} {asked : Option β} {Q : LiveRow κ → Prop}
    (hbefore : HasFree nodes now P) (hafter : ¬HasFree nodes now Q)
    (h : asked = none → ∀ row, P row → Q row) : asked.isSome = true := by
  cases hasked : asked with
  | none =>
    obtain ⟨e, he, hfree, hP⟩ := hbefore
    exact absurd ⟨e, he, hfree, h hasked _ hP⟩ hafter
  | some b => rfl

omit [DecidableEq κ] in
lemma countStatus_ne_zero {status : Assign.NodeStatus} (h : countStatus nodes status ≠ 0) :
    ∃ e ∈ nodes.items, e.2.status = some status := by
  obtain ⟨e, he, hstatus⟩ := List.countP_pos_iff.1 (Nat.pos_of_ne_zero h)
  exact ⟨e, List.mem_of_mem_filter he, of_decide_eq_true hstatus⟩

/-- A family is asked for exactly when a GPU is. -/
lemma family_isSome (h : gpuMachinePrefix q.funcGpu provider = .ok family) :
    family.isSome = q.funcGpu.isSome := by
  cases hgpu : q.funcGpu with
  | none =>
    rw [hgpu] at h
    obtain rfl := Except.ok.inj h
    rfl
  | some gpu =>
    rw [hgpu, gpuMachinePrefix, gpuMachineType] at h
    split at h
    · obtain rfl := Except.ok.inj h
      rfl
    · cases h

omit [DecidableEq κ] in
/-- The refusal says what is so, when no node that suits has room. -/
lemma justified (hfamily : gpuMachinePrefix q.funcGpu provider = .ok family)
    (hready : ∀ e, e ∈ s.unfilteredReady ↔ e ∈ nodes.items ∧ e.2.Free now)
    (himage : ∀ e, e ∈ s.readyAfterImage ↔ (e ∈ nodes.items ∧ e.2.Free now) ∧ q.OfImage e.2)
    (hgpu : ∀ e, e ∈ s.readyAfterGpu ↔ (e ∈ nodes.items ∧ e.2.Free now) ∧
      (q.OfImage e.2 ∧ OfFamily family e.2))
    (hregion : ∀ e, e ∈ s.readyAfterFilters ↔ (e ∈ nodes.items ∧ e.2.Free now) ∧
      (q.OfImage e.2 ∧ OfFamily family e.2) ∧ q.OfRegion e.2)
    (hroom : ∀ e ∈ s.readyAfterFilters, ¬0 < q.room e.2) :
    q.Justified family nodes now (q.refusal nodes s) := by
  have hfree : ∀ e, e ∈ s.unfilteredReady ↔ (e ∈ nodes.items ∧ e.2.Free now) ∧ True := fun e =>
    (hready e).trans (and_true _).to_iff.symm
  have hnone := isEmpty_iff (P := fun _ => True) hfree
  have hnoImage := isEmpty_iff himage
  have hnoGpu := isEmpty_iff (P := fun row => q.OfImage row ∧ OfFamily family row) hgpu
  have hnoRegion := isEmpty_iff
    (P := fun row => (q.OfImage row ∧ OfFamily family row) ∧ q.OfRegion row) hregion
  rw [StartRequest.refusal]
  split_ifs with hbusy hempty himg hgp hreg
  · rcases hbusy with hbusy | hbusy
    · obtain ⟨e, he, hstatus⟩ := countStatus_ne_zero hbusy
      exact ⟨e, he, .inl hstatus⟩
    · obtain ⟨e, he, hstatus⟩ := countStatus_ne_zero hbusy
      exact ⟨e, he, .inr hstatus⟩
  · exact hnone.1 hempty
  · refine ⟨not_not.1 (mt hnone.2 hempty), hnoImage.1 himg.2, fun x => ?_⟩
    rw [mem_sortedSet, List.mem_flatMap]
    exact ⟨fun ⟨e, he, hx⟩ => ⟨e, ((hready e).1 he).1, ((hready e).1 he).2, hx⟩,
      fun ⟨e, he, hheld, hx⟩ => ⟨e, (hready e).2 ⟨he, hheld⟩, hx⟩⟩
  · exact ⟨not_not.1 (mt hnoImage.2 hgp.2.1), hnoGpu.1 hgp.2.2, fun x => mem_available himage⟩
  · exact ⟨not_not.1 (mt hnoGpu.2 hreg.2.1), hnoRegion.1 hreg.2.2,
      fun x => mem_available (P := fun row => q.OfImage row ∧ OfFamily family row)
        (f := fun row => row.gcpRegion.map String.toList) hgpu⟩
  · -- each filter leaves something, or it would have been the reason
    have hsome := not_not.1 (mt hnone.2 hempty)
    have hkeptImage : ¬s.readyAfterImage.isEmpty = true := fun hlost => himg
      ⟨isSome_of_lost hsome (hnoImage.1 hlost) fun hq row _ image hasked => by
        simp [hq] at hasked, hlost⟩
    have hkeptGpu : ¬s.readyAfterGpu.isEmpty = true := fun hlost => by
      refine hgp ⟨?_, hkeptImage, hlost⟩
      rw [← family_isSome hfamily]
      refine isSome_of_lost (not_not.1 (mt hnoImage.2 hkeptImage)) (hnoGpu.1 hlost) ?_
      rintro rfl row hrow
      exact ⟨hrow, nofun⟩
    have hkeptRegion : ¬s.readyAfterFilters.isEmpty = true := fun hlost => by
      refine hreg ⟨?_, hkeptGpu, hlost⟩
      refine isSome_of_lost (not_not.1 (mt hnoGpu.2 hkeptGpu)) (hnoRegion.1 hlost) ?_
      intro hq row hrow
      exact ⟨hrow, fun region hregion => by simp [hq] at hregion⟩
    refine ⟨not_not.1 (mt hnoRegion.2 hkeptRegion), ?_⟩
    rintro ⟨e, he, hheld, hsuits, hpos⟩
    exact hroom e ((hregion e).2 ⟨⟨he, hheld⟩, hsuits⟩) hpos

/-- **Warm nodes are selected rightly**: the slots are as many as all suitable free nodes have room
for, or as many as are wanted; each selected node has room for its own; all of them may be
reserved; and if there are none, what `start_job` refuses the job with is so. -/
theorem selected_rightly [DecidableEq ι] (h : q.selectReadyNodes provider nodes now = .ok s)
    (hwanted : 0 < q.maxParallelism) :
    ∃ family, gpuMachinePrefix q.funcGpu provider = .ok family ∧
    (∀ e, e ∈ s.readyAfterFilters ↔ (e ∈ nodes.items ∧ e.2.Free now) ∧
      (q.OfImage e.2 ∧ OfFamily family e.2) ∧ q.OfRegion e.2) ∧
    s.totalParallelism =
      min q.maxParallelism ((s.readyAfterFilters.map fun e => q.room e.2).sum) ∧
    s.totalParallelism = (s.selected.map SelectedNode.targetParallelism).sum ∧
    (∀ n ∈ s.selected, 0 < n.targetParallelism ∧ ∃ row,
      (n.instanceName, row) ∈ s.readyAfterFilters ∧ n.targetParallelism ≤ q.room row) ∧
    (∀ job, (admitNodes (nodes.map LiveRow.toNodeRow) job
      (s.selected.map SelectedNode.instanceName) now).isSome) ∧
    (s.selected = [] → q.Justified family nodes now (q.refusal nodes s)) := by
  rw [StartRequest.selectReadyNodes] at h
  split at h
  · cases h
  · rename_i family hfamily
    cases hpick : q.pick 0 (keepIfAsked q.region inRegion (keepIfAsked family inFamily
        (keepIfAsked q.image hasImage (readyNodes nodes now)))) with
    | error e =>
      dsimp only at h
      rw [hpick] at h
      cases h
    | ok picked =>
      dsimp only at h
      rw [hpick] at h
      obtain ⟨selected, t⟩ := picked
      obtain rfl := Except.ok.inj h
      obtain ⟨hmin, htargets, hnames, hall⟩ := pick_spec hpick hwanted.le
      rw [zero_add] at hmin htargets
      have himage : ∀ e, e ∈ keepIfAsked q.image hasImage (readyNodes nodes now) ↔
          (e ∈ nodes.items ∧ e.2.Free now) ∧ q.OfImage e.2 := fun e => by
        rw [mem_keepIfAsked, mem_readyNodes]
        rfl
      have hgpu : ∀ e, e ∈ keepIfAsked family inFamily (keepIfAsked q.image hasImage
          (readyNodes nodes now)) ↔ (e ∈ nodes.items ∧ e.2.Free now) ∧
            (q.OfImage e.2 ∧ OfFamily family e.2) := fun e => by
        rw [mem_keepIfAsked, himage, and_assoc]
        rfl
      have hregion : ∀ e, e ∈ keepIfAsked q.region inRegion (keepIfAsked family inFamily
          (keepIfAsked q.image hasImage (readyNodes nodes now))) ↔
            (e ∈ nodes.items ∧ e.2.Free now) ∧
              (q.OfImage e.2 ∧ OfFamily family e.2) ∧ q.OfRegion e.2 := fun e => by
        rw [mem_keepIfAsked, hgpu, and_assoc]
        rfl
      refine ⟨family, hfamily, hregion, hmin, htargets, hall, fun job => ?_, fun hnone => ?_⟩
      · rw [admitNodes, if_pos]
        · rfl
        · intro name hname
          obtain ⟨n, hn, rfl⟩ := List.mem_map.1 hname
          obtain ⟨-, row, hrow, -⟩ := hall n hn
          obtain ⟨⟨hmem, hfree⟩, -⟩ := (hregion _).1 hrow
          refine ⟨row.toNodeRow, ?_, hfree⟩
          rw [Dict.get_map, Dict.mem_items.1 hmem]
          rfl
      · refine justified hfamily (fun _ => mem_readyNodes) himage hgpu hregion fun e he hpos => ?_
        -- without a selected node there are no slots, and so no room
        subst hnone
        rw [List.map_nil, List.sum_nil] at htargets
        have hmem := List.mem_map_of_mem (f := fun e : ι × LiveRow κ => q.room e.2) he
        have hle := List.single_le_sum (List.forall_mem_map.2 fun e _ => room_nonneg e.2) _ hmem
        dsimp only at hle
        omega

/-- A free node with an image. -/
def warmNode (machineType : String) : LiveRow ℕ where
  toNodeRow := { NodeRow.new with status := some .ready, lastPushAt := some 100 }
  host := some ['h']
  machineType := some machineType.toList
  images := [['i']]

/-- Two machines, with room for two calls and for four. -/
def warmNodes : Dict ℕ (LiveRow ℕ) :=
  (Dict.empty.set 0 (warmNode "n4-standard-2")).set 1 (warmNode "n4-standard-4")

/-- Five calls of one CPU. -/
def fiveCalls (funcGpu : Option Text) : StartRequest :=
  ⟨.size 1, .dynamic, 5, some ['i'], funcGpu, none⟩

theorem selected_rightly_warmNodes :
    (∃ s, (fiveCalls none).selectReadyNodes .gcp warmNodes 110 = .ok s ∧ s.totalParallelism = 5 ∧
      (admitNodes (warmNodes.map LiveRow.toNodeRow) 7
        (s.selected.map SelectedNode.instanceName) 110).isSome) ∧
    ∃ s family, (fiveCalls (some "A100".toList)).selectReadyNodes .gcp warmNodes 110 = .ok s ∧
      (fiveCalls (some "A100".toList)).Justified family warmNodes 110
        ((fiveCalls (some "A100".toList)).refusal warmNodes s) := by
  constructor
  · have hall : ((fiveCalls none).selectReadyNodes .gcp warmNodes 110).toOption.any
        (fun s => s.totalParallelism = 5) = true := by decide +kernel
    cases hs : (fiveCalls none).selectReadyNodes .gcp warmNodes 110 with
    | error e => rw [hs] at hall; cases hall
    | ok s =>
      rw [hs] at hall
      obtain ⟨-, -, -, -, -, -, hadmit, -⟩ := selected_rightly hs (by decide)
      exact ⟨s, rfl, of_decide_eq_true hall, hadmit 7⟩
  · have hall : ((fiveCalls (some "A100".toList)).selectReadyNodes .gcp warmNodes 110).toOption.any
        (fun s => s.selected = []) = true := by decide +kernel
    cases hs : (fiveCalls (some "A100".toList)).selectReadyNodes .gcp warmNodes 110 with
    | error e => rw [hs] at hall; cases hall
    | ok s =>
      rw [hs] at hall
      obtain ⟨family, -, -, -, -, -, -, hrefused⟩ := selected_rightly hs (by decide)
      exact ⟨s, family, rfl, hrefused (of_decide_eq_true hall)⟩

end Reason

end Burla.Admission
