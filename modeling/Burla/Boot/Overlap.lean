/-
Runs of `reboot_containers` that overlap.

A run that lists the containers while another one boots its workers kills some of these and never
learns of the others.  Where no two runs are between their listing and the end of their boots, the
last one to list is the one whose workers stay: whatever an earlier one has booted it finds and
kills, and no later one has put another configuration into `SELF`.
-/
import Burla.Boot.Containers
import Mathlib.Data.Bool.Basic

namespace Burla.Boot.Containers

open Burla.Assign (NodeStatus)

variable {ι : Type*}

/-! ### Where the runs stand -/

namespace Stage

/-- `SELF` is new, and the containers are not listed yet. -/
def entered : Stage ι → Bool
  | .refreshing | .listing => true
  | _ => false

/-- Between the listing of the containers and the end of the boots. -/
def inside : Stage ι → Bool
  | .killing _ | .pulling _ _ | .booting _ _ _ _ => true
  | _ => false

/-- The run has still to boot workers. -/
def unfinished : Stage ι → Bool
  | .scheduled | .asking | .refreshing | .listing | .killing _ | .pulling _ _
  | .booting _ _ _ _ => true
  | _ => false

/-- The run has still to report READY. -/
def unreported (stage : Stage ι) : Bool :=
  stage.unfinished ||
    match stage with
    | .calibrating | .hosting | .sleeping => true
    | _ => false

/-- In the handler of an exception. -/
def handling : Stage ι → Bool
  | .marking | .logging | .deleting => true
  | _ => false

end Stage

/-- A run at a stage of a kind. -/
def Task.runs (kind : Stage ι → Bool) : Task ι → Bool
  | .reboot _ _ stage => kind stage
  | .boot _ _ | .pushLoop => false

/-- No exception has been raised. -/
def Task.regular : Task ι → Bool
  | .reboot _ _ stage => !stage.handling
  | .boot _ _ => false
  | .pushLoop => true

/-- No run lists the containers while another is between its listing and the end of its boots; a
run boots some workers, no call that it makes raises, the head answers with no status that ends the
node, and it is neither cancelled nor given up on. -/
def Stage.orderly (rest : List (Task ι)) : Stage ι → Choice → Bool
  | .listing, .go => rest.all fun u => !u.runs Stage.inside
  | .pulling [] workers, .go => !workers.isEmpty
  | .asking, .answered terminal _ | .hosting, .answered terminal _ => !terminal
  | .arrived, .cancelled | .finishing, .cancelled => true
  | _, .raises | _, .expires | _, .cancelled => false
  | _, _ => true

def Task.orderly (rest : List (Task ι)) : Task ι → Choice → Bool
  | .reboot _ _ stage, a => stage.orderly rest a
  | .boot _ _, _ | .pushLoop, _ => true

/-- The runs of the node do not overlap where it matters, and none is broken off. -/
def Orderly (_ : Node ι) (rest : List (Task ι)) (t : Task ι) (a : Choice) : Prop :=
  t.orderly rest a = true

instance (s : Node ι) (rest : List (Task ι)) (t : Task ι) (a : Choice) :
    Decidable (Orderly s rest t a) :=
  inferInstanceAs (Decidable (_ = true))

/-! ### The invariant -/

/-- The workers are those of the images. -/
def Images (n : ℕ) (s : Node ι) (workers : List ℕ) (images : List ι) : Prop :=
  workers.map (s.made[·]?) = (images.flatMap (List.replicate n)).map some

/-- The workers in `SELF` are those that are configured, each of them is connected to its running
container, and no other container runs. -/
structure Converged (n : ℕ) (s : Node ι) : Prop where
  images : Images n s s.workers s.currentContainerConfig
  nodup : s.workers.Nodup
  live : ∀ w ∈ s.workers, w ∈ s.connected ∧ w ∈ s.running
  alone : ∀ w ∈ s.running, w ∈ s.workers

/-- A run boots its workers, which are in `SELF` unless another run has `entered` since. -/
structure Boots (n : ℕ) (s : Node ι) (entered : Prop) (workers starting connecting later : List ℕ) :
    Prop where
  own : entered ∨ s.workers = workers ∧ Images n s workers s.currentContainerConfig
  nodup : workers.Nodup
  alone : ∀ w ∈ s.running, w ∈ workers
  waiting : ∀ w, w ∈ starting ∨ w ∈ later → w ∈ workers
  started : ∀ w ∈ connecting, w ∈ s.running
  live : ∀ w ∈ workers, w ∈ starting ∨ w ∈ connecting ∨ w ∈ later ∨ w ∈ s.connected ∧ w ∈ s.running

/-- The images of the configuration up to those that are still to be pulled have their workers, and
no container runs. -/
structure Pulls (n : ℕ) (s : Node ι) (entered : Prop) (images : List ι) (workers : List ℕ) :
    Prop where
  own : ∃ pulled, Images n s workers pulled ∧
    (entered ∨ s.currentContainerConfig = pulled ++ images)
  nodup : workers.Nodup
  made : ∀ w ∈ workers, w < s.made.length
  running : s.running = []

/-- What a run knows at its stage. -/
def StageOk (n : ℕ) (s : Node ι) (entered : Prop) : Stage ι → Prop
  | .killing left => ∀ w ∈ s.running, w ∈ left
  | .pulling images workers => Pulls n s entered images workers
  | .booting workers starting connecting later =>
    Boots n s entered workers starting connecting later
  | .arrived | .scheduled | .asking | .refreshing | .listing | .calibrating | .hosting | .sleeping
  | .reporting | .finishing | .marking | .logging | .deleting => True

def TaskOk (n : ℕ) (s : Node ι) (entered : Prop) : Task ι → Prop
  | .reboot _ _ stage => StageOk n s entered stage
  | .boot _ _ | .pushLoop => True

/-- A run at a stage of a kind. -/
def Has (kind : Stage ι → Bool) (tasks : List (Task ι)) : Prop :=
  ∃ t ∈ tasks, t.runs kind = true

/-- One run at most is between its listing and the end of its boots, and the workers have converged
unless some run has still to boot its own. -/
structure Converging (n : ℕ) (s : Node ι) (tasks : List (Task ι)) : Prop where
  regular : ∀ t ∈ tasks, t.regular = true
  single : (tasks.filter (Task.runs Stage.inside)).length ≤ 1
  ok : ∀ t ∈ tasks, TaskOk n s (Has Stage.entered tasks) t
  settled : Converged n s ∨ Has Stage.unfinished tasks
  ready : s.reportedStatus = .ready ∨ Has Stage.unreported tasks

section Tasks

variable {n : ℕ} {s t : Node ι} {task task' : Task ι} {rest tasks tasks' : List (Task ι)}
  {kind : Stage ι → Bool} {p q : Prop}

lemma Has.perm (hperm : tasks.Perm tasks') (h : Has kind tasks) : Has kind tasks' :=
  let ⟨u, hu, hkind⟩ := h
  ⟨u, hperm.mem_iff.1 hu, hkind⟩

lemma has_cons : Has kind (task :: rest) ↔ task.runs kind = true ∨ Has kind rest := by
  simp only [Has, List.mem_cons, exists_eq_or_imp]

lemma Has.over (h : Has kind (task :: rest)) (hkind : task.runs kind = false) :
    Has kind rest := by
  rcases has_cons.1 h with htask | hrest
  · rw [hkind] at htask
    cases htask
  · exact hrest

/-- The nodes agree about the workers and their containers. -/
structure SameWorkers (s t : Node ι) : Prop where
  config : t.currentContainerConfig = s.currentContainerConfig
  workers : t.workers = s.workers
  made : t.made = s.made
  running : t.running = s.running
  connected : t.connected = s.connected

lemma Images.congr {workers : List ℕ} {images : List ι} (h : Images n s workers images)
    (hmade : t.made = s.made) : Images n t workers images := by
  unfold Images
  rw [hmade]
  exact h

lemma Converged.congr (h : Converged n s) (hsame : SameWorkers s t) : Converged n t where
  images := by
    rw [hsame.workers, hsame.config]
    exact h.images.congr hsame.made
  nodup := by
    rw [hsame.workers]
    exact h.nodup
  live := by
    rw [hsame.workers, hsame.connected, hsame.running]
    exact h.live
  alone := by
    rw [hsame.workers, hsame.running]
    exact h.alone

/-- `SELF` may be new once a run has entered. -/
lemma TaskOk.congr (h : TaskOk n s p task) (hmade : t.made = s.made)
    (hrunning : t.running = s.running) (hconnected : t.connected = s.connected)
    (hself : q ∨ (p → q) ∧ t.workers = s.workers ∧
      t.currentContainerConfig = s.currentContainerConfig) : TaskOk n t q task := by
  cases task with
  | reboot caller config stage =>
    cases stage with
    | killing left =>
      show ∀ w ∈ t.running, w ∈ left
      rw [hrunning]
      exact h
    | pulling images workers =>
      obtain ⟨pulled, himages, hown⟩ := Pulls.own h
      refine ⟨⟨pulled, himages.congr hmade, ?_⟩, Pulls.nodup h, ?_,
        hrunning.trans (Pulls.running h)⟩
      · rcases hself with hq | ⟨hpq, -, hconfig⟩
        · exact .inl hq
        · rw [hconfig]
          exact hown.imp hpq id
      · rw [hmade]
        exact Pulls.made h
    | booting workers starting connecting later =>
      refine ⟨?_, Boots.nodup h, ?_, Boots.waiting h, ?_, ?_⟩
      · rcases hself with hq | ⟨hpq, hworkers, hconfig⟩
        · exact .inl hq
        · rw [hworkers, hconfig]
          exact (Boots.own h).imp hpq fun hown => ⟨hown.1, hown.2.congr hmade⟩
      · rw [hrunning]
        exact Boots.alone h
      · rw [hrunning]
        exact Boots.started h
      · rw [hconnected, hrunning]
        exact Boots.live h
    | _ => trivial
  | boot w started => trivial
  | pushLoop => trivial

lemma taskOk_of_not_inside (h : task.runs Stage.inside = false) : TaskOk n s p task := by
  cases task with
  | reboot caller config stage =>
    cases stage with
    | killing left => cases h
    | pulling images workers => cases h
    | booting workers starting connecting later => cases h
    | _ => trivial
  | boot w started => trivial
  | pushLoop => trivial

/-! ### The tasks as one moves -/

lemma Converging.perm (hperm : tasks.Perm tasks') (h : Converging n s tasks) :
    Converging n s tasks' where
  regular u hu := h.regular u (hperm.mem_iff.2 hu)
  single := (hperm.filter _).length_eq ▸ h.single
  ok u hu := (h.ok u (hperm.mem_iff.2 hu)).congr rfl rfl rfl
    (.inr ⟨Has.perm hperm, rfl, rfl⟩)
  settled := h.settled.imp id (Has.perm hperm)
  ready := h.ready.imp id (Has.perm hperm)

/-- While a run is between its listing and the end of its boots, no other is. -/
lemma Converging.others_outside (h : Converging n s (task :: rest))
    (htask : task.runs Stage.inside = true) : ∀ u ∈ rest, u.runs Stage.inside = false := by
  have hsingle := h.single
  rw [List.filter_cons_of_pos htask, List.length_cons] at hsingle
  have hnil : rest.filter (Task.runs Stage.inside) = [] :=
    List.length_eq_zero_iff.1 (by omega)
  intro u hu
  exact Bool.eq_false_iff.2 (List.filter_eq_nil_iff.1 hnil u hu)

/-- A task moves that is not inside, and stays outside: what the runs inside know stays. -/
lemma Converging.outside (h : Converging n s (task :: rest))
    (hmade : t.made = s.made) (hrunning : t.running = s.running)
    (hconnected : t.connected = s.connected)
    (hself : task'.runs Stage.entered = true ∨
      (task.runs Stage.entered = false ∧ t.workers = s.workers ∧
        t.currentContainerConfig = s.currentContainerConfig))
    (htask : task.runs Stage.inside = false) (htask' : task'.runs Stage.inside = false)
    (hregular : task'.regular = true)
    (hsettled : task'.runs Stage.unfinished = true ∨
      task.runs Stage.unfinished = false ∧ SameWorkers s t)
    (hready : t.reportedStatus = .ready ∨ task'.runs Stage.unreported = true ∨
      task.runs Stage.unreported = false ∧ t.reportedStatus = s.reportedStatus) :
    Converging n t (task' :: rest) where
  regular u hu := by
    rcases List.mem_cons.1 hu with rfl | hu
    · exact hregular
    · exact h.regular u (List.mem_cons_of_mem _ hu)
  single := by
    have hsingle := h.single
    rw [List.filter_cons_of_neg (by rw [htask]; exact Bool.false_ne_true)] at hsingle
    rwa [List.filter_cons_of_neg (by rw [htask']; exact Bool.false_ne_true)]
  ok u hu := by
    rcases List.mem_cons.1 hu with rfl | hu
    · exact taskOk_of_not_inside htask'
    · refine (h.ok u (List.mem_cons_of_mem _ hu)).congr hmade hrunning hconnected ?_
      rcases hself with hentered | ⟨hnot, hworkers, hconfig⟩
      · exact .inl (has_cons.2 (.inl hentered))
      · exact .inr ⟨fun hhas => has_cons.2 (.inr (hhas.over hnot)), hworkers, hconfig⟩
  settled := by
    rcases hsettled with hunfinished | ⟨hnot, hsame⟩
    · exact .inr (has_cons.2 (.inl hunfinished))
    · exact h.settled.imp (Converged.congr · hsame) fun hhas => has_cons.2 (.inr (hhas.over hnot))
  ready := by
    rcases hready with hready | hunreported | ⟨hnot, hstatus⟩
    · exact .inl hready
    · exact .inr (has_cons.2 (.inl hunreported))
    · exact h.ready.imp hstatus.trans fun hhas => has_cons.2 (.inr (hhas.over hnot))

/-- The run that is to be inside, or was, moves while no other is. -/
lemma Converging.inside (h : Converging n s (task :: rest))
    (hothers : ∀ u ∈ rest, u.runs Stage.inside = false) (hregular : task'.regular = true)
    (hok : TaskOk n t (Has Stage.entered (task' :: rest)) task')
    (hsettled : Converged n t ∨ Has Stage.unfinished (task' :: rest))
    (hunreported : task'.runs Stage.unreported = true) : Converging n t (task' :: rest) where
  regular u hu := by
    rcases List.mem_cons.1 hu with rfl | hu
    · exact hregular
    · exact h.regular u (List.mem_cons_of_mem _ hu)
  single := by
    have hnil : rest.filter (Task.runs Stage.inside) = [] :=
      List.filter_eq_nil_iff.2 fun u hu => Bool.eq_false_iff.1 (hothers u hu)
    rw [List.filter_cons, hnil]
    split_ifs
    · exact Nat.le_refl 1
    · exact Nat.zero_le 1
  ok u hu := by
    rcases List.mem_cons.1 hu with rfl | hu
    · exact hok
    · exact taskOk_of_not_inside (hothers u hu)
  settled := hsettled
  ready := .inr (has_cons.2 (.inl hunreported))

/-- A run is over that has booted its workers and reported READY, or has not begun. -/
lemma Converging.over (h : Converging n s (task :: rest)) (hsame : SameWorkers s t)
    (hstatus : t.reportedStatus = s.reportedStatus) (hinside : task.runs Stage.inside = false)
    (hentered : task.runs Stage.entered = false) (hunreported : task.runs Stage.unreported = false)
    (hunfinished : task.runs Stage.unfinished = false) : Converging n t rest where
  regular u hu := h.regular u (List.mem_cons_of_mem _ hu)
  single := by
    have hsingle := h.single
    rwa [List.filter_cons_of_neg (by rw [hinside]; exact Bool.false_ne_true)] at hsingle
  ok u hu := (h.ok u (List.mem_cons_of_mem _ hu)).congr hsame.made hsame.running hsame.connected
    (.inr ⟨fun hhas => hhas.over hentered, hsame.workers, hsame.config⟩)
  settled := h.settled.imp (Converged.congr · hsame) fun hhas => hhas.over hunfinished
  ready := h.ready.imp hstatus.trans fun hhas => hhas.over hunreported

end Tasks

/-! ### One segment -/

/-- What a segment leaves, with the tasks that it was not about. -/
def ConvergingAfter (n : ℕ) (y : Outturn ι) (rest : List (Task ι)) : Prop :=
  Converging n y.shared ((rest.filter fun u => !y.cancels u) ++ y.tasks)

section Segments

variable {n : ℕ} {s t : Node ι} {y : Outturn ι} {rest : List (Task ι)} {caller : Caller}
  {newConfig : List ι} {stage stage' : Stage ι}

lemma convergingAfter_next {task : Task ι} (h : Converging n t (task :: rest)) :
    ConvergingAfter n (t.next task) rest := by
  refine h.perm ?_
  have hkept : (rest.filter fun u => !(t.next task).cancels u) = rest :=
    List.filter_eq_self.2 fun _ _ => rfl
  rw [hkept]
  exact (List.perm_append_singleton task rest).symm

lemma convergingAfter_done (h : Converging n t rest) : ConvergingAfter n t.done rest := by
  refine h.perm ?_
  have hkept : (rest.filter fun u => !(t.done).cancels u) = rest :=
    List.filter_eq_self.2 fun _ _ => rfl
  rw [hkept]
  exact (List.append_nil rest).symm ▸ List.Perm.refl rest

lemma sameWorkers_refl : SameWorkers s s := ⟨rfl, rfl, rfl, rfl, rfl⟩

/-- A run goes on that has touched neither the workers nor their containers. -/
lemma Converging.goOn (h : Converging n s (.reboot caller newConfig stage :: rest))
    (hsame : SameWorkers s t) (hinside : stage.inside = false) (hinside' : stage'.inside = false)
    (hregular : stage'.handling = false) (hentered : stage.entered = false ∨ stage'.entered = true)
    (hsettled : stage'.unfinished = true ∨ stage.unfinished = false)
    (hready : t.reportedStatus = .ready ∨ stage'.unreported = true ∨
      stage.unreported = false ∧ t.reportedStatus = s.reportedStatus) :
    ConvergingAfter n (t.goOn caller newConfig stage') rest := by
  refine convergingAfter_next (h.outside hsame.made hsame.running hsame.connected ?_ hinside
    hinside' ?_ (hsettled.imp id fun hnot => ⟨hnot, hsame⟩) hready)
  · rcases hentered with hnot | hentered
    · exact .inr ⟨hnot, hsame.workers, hsame.config⟩
    · exact .inl hentered
  · show (!stage'.handling) = true
    rw [hregular]
    rfl

lemma Converging.returned (h : Converging n s (.reboot caller newConfig stage :: rest))
    (hsame : SameWorkers s t) (hstatus : t.reportedStatus = s.reportedStatus)
    (hinside : stage.inside = false) (hentered : stage.entered = false)
    (hunreported : stage.unreported = false) : ConvergingAfter n (t.returned caller) rest := by
  have hunfinished : stage.unfinished = false := (Bool.or_eq_false_iff.1 hunreported).1
  have hover : ∀ serving, Converging n { t with serving } rest := fun _ =>
    h.over ⟨hsame.config, hsame.workers, hsame.made, hsame.running, hsame.connected⟩ hstatus
      hinside hentered hunreported hunfinished
  cases caller with
  | startup => exact convergingAfter_done (hover true)
  | endpoint => exact convergingAfter_done (hover t.serving)
  | background => exact convergingAfter_done (hover t.serving)
  | jobEnd crashed => exact convergingAfter_done (hover t.serving)

lemma Converging.awaitHost (h : Converging n s (.reboot caller newConfig stage :: rest))
    (hsame : SameWorkers s t) (hinside : stage.inside = false) (hentered : stage.entered = false)
    (hunfinished : stage.unfinished = false) :
    ConvergingAfter n (t.awaitHost caller newConfig) rest := by
  unfold Node.awaitHost
  split_ifs
  · exact h.goOn ⟨hsame.config, hsame.workers, hsame.made, hsame.running, hsame.connected⟩ hinside
      rfl rfl (.inl hentered) (.inr hunfinished) (.inl rfl)
  · exact h.goOn hsame hinside rfl rfl (.inl hentered) (.inr hunfinished) (.inr (.inl rfl))

/-- The run goes on that is inside, or lists the containers while no other is. -/
lemma Converging.goInside (h : Converging n s (.reboot caller newConfig stage :: rest))
    (hothers : ∀ u ∈ rest, u.runs Stage.inside = false)
    (hok : StageOk n t (Has Stage.entered (.reboot caller newConfig stage' :: rest)) stage')
    (hinside : stage'.inside = true) : ConvergingAfter n (t.goOn caller newConfig stage') rest := by
  have hstage : stage'.handling = false ∧ stage'.unfinished = true := by
    cases stage' <;> first | exact ⟨rfl, rfl⟩ | cases hinside
  have hunreported : stage'.unreported = true := Bool.or_eq_true_iff.2 (.inl hstage.2)
  refine convergingAfter_next (h.inside hothers ?_ hok (.inr (has_cons.2 (.inl hstage.2)))
    hunreported)
  show (!stage'.handling) = true
  rw [hstage.1]
  rfl

/-- What a run inside knows of the others does not change as it moves. -/
lemma Has.entered_move (h : Has Stage.entered (.reboot caller newConfig stage :: rest))
    (hstage : stage.entered = false) :
    Has Stage.entered (.reboot caller newConfig stage' :: rest) :=
  has_cons.2 (.inr (h.over hstage))

lemma Converging.kill {w : ℕ} {left : List ℕ}
    (h : Converging n s (.reboot caller newConfig (.killing (w :: left)) :: rest)) :
    ConvergingAfter n ((s.kill w).goOn caller newConfig (.killing left)) rest := by
  refine h.goInside (h.others_outside rfl) (fun v hv => ?_) rfl
  have hleft : ∀ v ∈ s.running, v ∈ w :: left := h.ok _ List.mem_cons_self
  obtain ⟨hrunning, hne⟩ := List.mem_filter.1 hv
  exact (List.mem_cons.1 (hleft v hrunning)).resolve_left (of_decide_eq_true hne)

lemma Converging.killed
    (h : Converging n s (.reboot caller newConfig (.killing []) :: rest)) :
    ConvergingAfter n (s.goOn caller newConfig (.pulling s.currentContainerConfig [])) rest := by
  have hleft : ∀ v ∈ s.running, v ∈ [] := h.ok _ List.mem_cons_self
  refine h.goInside (h.others_outside rfl) ⟨⟨[], rfl, .inr rfl⟩, List.nodup_nil, nofun, ?_⟩ rfl
  exact List.eq_nil_iff_forall_not_mem.2 fun v hv => List.not_mem_nil (hleft v hv)

lemma images_makeWorkers {workers : List ℕ} {pulled : List ι} {image : ι}
    (h : Images n s workers pulled) (hmade : ∀ w ∈ workers, w < s.made.length) :
    Images n (s.makeWorkers n image) (workers ++ s.newWorkers n) (pulled ++ [image]) := by
  have hold : workers.map ((s.made ++ List.replicate n image)[·]?) = workers.map (s.made[·]?) :=
    List.map_congr_left fun w hw => List.getElem?_append_left (hmade w hw)
  have hnew : (s.newWorkers n).map ((s.made ++ List.replicate n image)[·]?) =
      (List.replicate n image).map some := by
    rw [List.map_replicate]
    refine List.eq_replicate_iff.2 ⟨by rw [List.length_map, Node.newWorkers, List.length_range'],
      fun found hfound => ?_⟩
    obtain ⟨w, hw, rfl⟩ := List.mem_map.1 hfound
    obtain ⟨hge, hlt⟩ := List.mem_range'_1.1 hw
    rw [List.getElem?_append_right hge, List.getElem?_replicate, if_pos (by omega)]
  show (workers ++ s.newWorkers n).map ((s.made ++ List.replicate n image)[·]?) = _
  rw [List.map_append, hold, hnew, List.flatMap_append, List.map_append, List.flatMap_singleton]
  exact congrArg (· ++ _) h

lemma Converging.pull {image : ι} {images : List ι} {workers : List ℕ}
    (h : Converging n s (.reboot caller newConfig (.pulling (image :: images) workers) :: rest)) :
    ConvergingAfter n ((s.makeWorkers n image).goOn caller newConfig
      (.pulling images (workers ++ s.newWorkers n))) rest := by
  have hpulls : Pulls n s _ (image :: images) workers := h.ok _ List.mem_cons_self
  obtain ⟨pulled, himages, hown⟩ := hpulls.own
  refine h.goInside (h.others_outside rfl) ⟨⟨pulled ++ [image],
    images_makeWorkers himages hpulls.made, hown.imp (·.entered_move rfl) fun hconfig => ?_⟩,
    ?_, ?_, hpulls.running⟩ rfl
  · rw [List.append_assoc]
    exact hconfig
  · refine List.nodup_append.2 ⟨hpulls.nodup, List.nodup_range', fun w hw v hnew heq => ?_⟩
    subst heq
    have hlt := hpulls.made w hw
    have hge := (List.mem_range'_1.1 hnew).1
    omega
  · intro w hw
    show w < (s.made ++ List.replicate n image).length
    rw [List.length_append, List.length_replicate]
    rcases List.mem_append.1 hw with hold | hnew
    · have hlt := hpulls.made w hold
      omega
    · exact (List.mem_range'_1.1 hnew).2

lemma Converging.setWorkers {workers : List ℕ}
    (h : Converging n s (.reboot caller newConfig (.pulling [] workers) :: rest))
    (hworkers : workers ≠ []) :
    ConvergingAfter n (s.setWorkersSegment caller newConfig workers) rest := by
  have hpulls : Pulls n s _ [] workers := h.ok _ List.mem_cons_self
  obtain ⟨pulled, himages, hown⟩ := hpulls.own
  cases workers with
  | nil => exact absurd rfl hworkers
  | cons w later =>
    refine h.goInside (h.others_outside rfl) ?_ rfl
    refine ⟨hown.imp (·.entered_move rfl) fun hconfig => ⟨rfl, ?_⟩, hpulls.nodup, ?_, ?_, nofun, ?_⟩
    · show Images n _ (w :: later) s.currentContainerConfig
      rw [hconfig, List.append_nil]
      exact himages.congr rfl
    · show ∀ v ∈ s.running, v ∈ w :: later
      rw [hpulls.running]
      exact nofun
    · rintro v (hv | hv)
      · rw [List.mem_singleton.1 hv]
        exact List.mem_cons_self
      · exact List.mem_cons_of_mem w hv
    · intro v hv
      rcases List.mem_cons.1 hv with rfl | hv
      · exact .inl (List.mem_singleton.2 rfl)
      · exact .inr (.inr (.inl hv))

variable {workers starting connecting later : List ℕ} {w : ℕ}

/-- A container is started. -/
lemma Boots.start {p : Prop} (h : Boots n s p workers starting connecting later)
    (hw : w ∈ starting) :
    Boots n (s.start w) p workers (starting.erase w) (w :: connecting) later where
  own := h.own.imp id fun hown => ⟨hown.1, hown.2.congr rfl⟩
  nodup := h.nodup
  alone v hv := by
    rcases List.mem_cons.1 hv with rfl | hv
    · exact h.waiting v (.inl hw)
    · exact h.alone v hv
  waiting v hv := h.waiting v (hv.imp List.mem_of_mem_erase id)
  started v hv := by
    rcases List.mem_cons.1 hv with rfl | hv
    · exact List.mem_cons_self
    · exact List.mem_cons_of_mem w (h.started v hv)
  live v hv := by
    rcases h.live v hv with hstarting | hconnecting | hlater | ⟨hconnected, hrunning⟩
    · by_cases hne : v = w
      · subst hne
        exact .inr (.inl List.mem_cons_self)
      · exact .inl ((List.mem_erase_of_ne hne).2 hstarting)
    · exact .inr (.inl (List.mem_cons_of_mem w hconnecting))
    · exact .inr (.inr (.inl hlater))
    · exact .inr (.inr (.inr ⟨hconnected, List.mem_cons_of_mem w hrunning⟩))

/-- A worker is connected to. -/
lemma Boots.connect {p : Prop} (h : Boots n s p workers starting connecting later)
    (hw : w ∈ s.running) :
    Boots n (s.connect w) p workers starting (connecting.erase w) later where
  own := h.own.imp id fun hown => ⟨hown.1, hown.2.congr rfl⟩
  nodup := h.nodup
  alone := h.alone
  waiting := h.waiting
  started v hv := h.started v (List.mem_of_mem_erase hv)
  live v hv := by
    rcases h.live v hv with hstarting | hconnecting | hlater | ⟨hconnected, hrunning⟩
    · exact .inl hstarting
    · by_cases hne : v = w
      · subst hne
        exact .inr (.inr (.inr ⟨List.mem_cons_self, hw⟩))
      · exact .inr (.inl ((List.mem_erase_of_ne hne).2 hconnecting))
    · exact .inr (.inr (.inl hlater))
    · exact .inr (.inr (.inr ⟨List.mem_cons_of_mem w hconnected, hrunning⟩))

lemma Boots.move {p q : Prop} (h : Boots n s p workers starting connecting later) (hpq : p → q) :
    Boots n s q workers starting connecting later :=
  ⟨h.own.imp hpq id, h.nodup, h.alone, h.waiting, h.started, h.live⟩

lemma Converging.boots
    (h : Converging n s
      (.reboot caller newConfig (.booting workers starting connecting later) :: rest))
    (hstep : s.bootSegment caller newConfig workers starting connecting later w = some y) :
    ConvergingAfter n y rest := by
  have hboots : Boots n s _ workers starting connecting later := h.ok _ List.mem_cons_self
  unfold Node.bootSegment at hstep
  split_ifs at hstep with hstarting hconnecting hrunning
  · obtain rfl := Option.some.inj hstep
    exact h.goInside (h.others_outside rfl)
      ((hboots.start hstarting).move (·.entered_move rfl)) rfl
  · obtain rfl := Option.some.inj hstep
    exact h.goInside (h.others_outside rfl)
      ((hboots.connect hrunning).move (·.entered_move rfl)) rfl
  · -- no other run kills a container in the meantime
    exact absurd (hboots.started w hconnecting) hrunning

lemma unfinished_of_entered (h : stage.entered = true) : stage.unfinished = true := by
  cases stage <;> first | rfl | cases h

lemma Has.unfinished (h : Has Stage.entered rest) : Has Stage.unfinished rest := by
  obtain ⟨u, hu, hentered⟩ := h
  refine ⟨u, hu, ?_⟩
  cases u with
  | reboot caller newConfig stage => exact unfinished_of_entered hentered
  | boot w started => cases hentered
  | pushLoop => cases hentered

/-- The workers have converged once they are booted, unless another run has entered. -/
lemma Boots.converged {p : Prop} (h : Boots n s p workers [] [] []) : p ∨ Converged n s := by
  refine h.own.imp id fun hown => ?_
  have hlive : ∀ v ∈ workers, v ∈ s.connected ∧ v ∈ s.running := by
    intro v hv
    rcases h.live v hv with hnone | hnone | hnone | hlive
    · cases hnone
    · cases hnone
    · cases hnone
    · exact hlive
  refine ⟨?_, ?_, ?_, ?_⟩
  · rw [hown.1]
    exact hown.2
  · rw [hown.1]
    exact h.nodup
  · rw [hown.1]
    exact hlive
  · rw [hown.1]
    exact h.alone

lemma Converging.booted
    (h : Converging n s (.reboot caller newConfig (.booting workers [] [] later) :: rest)) :
    ConvergingAfter n (s.bootedSegment caller newConfig workers later) rest := by
  have hboots : Boots n s _ workers [] [] later := h.ok _ List.mem_cons_self
  unfold Node.bootedSegment
  cases later with
  | nil =>
    have hconverged := hboots.converged
    have hall : ∀ w ∈ workers, w ∈ s.running := by
      intro v hv
      rcases hboots.live v hv with hnone | hnone | hnone | hlive
      · cases hnone
      · cases hnone
      · cases hnone
      · exact hlive.2
    simp only
    rw [if_pos hall]
    refine convergingAfter_next (h.inside (h.others_outside rfl) rfl trivial ?_ rfl)
    exact hconverged.symm.imp id fun hhas => has_cons.2 (.inr (hhas.over rfl).unfinished)
  | cons w later =>
    refine h.goInside (h.others_outside rfl) ⟨hboots.own.imp (·.entered_move rfl) id, hboots.nodup,
      hboots.alone, ?_, nofun, ?_⟩ rfl
    · rintro v (hv | hv)
      · exact hboots.waiting v (.inr hv)
      · cases hv
    · intro v hv
      rcases hboots.live v hv with hnone | hnone | hlater | hlive
      · cases hnone
      · cases hnone
      · exact .inl hlater
      · exact .inr (.inr (.inr hlive))

/-- A run that is not in its handler moves. -/
lemma Converging.stageSegment {a : Choice}
    (h : Converging n s (.reboot caller newConfig stage :: rest)) (hok : stage.orderly rest a = true)
    (hstep : s.stageSegment caller newConfig n stage a = some y) : ConvergingAfter n y rest := by
  have hregular : (!stage.handling) = true := h.regular _ List.mem_cons_self
  unfold Node.stageSegment at hstep
  split at hstep
  -- at the endpoint, and scheduled
  · split_ifs at hstep
    · obtain rfl := Option.some.inj hstep
      exact convergingAfter_done (h.over sameWorkers_refl rfl rfl rfl rfl rfl)
    · obtain rfl := Option.some.inj hstep
      exact h.goOn ⟨rfl, rfl, rfl, rfl, rfl⟩ rfl rfl rfl (.inl rfl) (.inl rfl) (.inr (.inl rfl))
  · obtain rfl := Option.some.inj hstep
    exact h.goOn ⟨rfl, rfl, rfl, rfl, rfl⟩ rfl rfl rfl (.inl rfl) (.inl rfl) (.inr (.inl rfl))
  -- `SELF` is new
  · cases Bool.eq_false_of_not_eq_true' hok
    rw [if_neg Bool.false_ne_true] at hstep
    obtain rfl := Option.some.inj hstep
    exact convergingAfter_next (h.outside rfl rfl rfl (.inl rfl) rfl rfl rfl (.inl rfl)
      (.inr (.inl rfl)))
  · obtain rfl := Option.some.inj hstep
    exact h.goOn sameWorkers_refl rfl rfl rfl (.inr rfl) (.inl rfl) (.inr (.inl rfl))
  -- from the listing to the end of the boots
  · obtain rfl := Option.some.inj hstep
    exact h.goInside (fun u hu => Bool.eq_false_of_not_eq_true' (List.all_eq_true.1 hok u hu))
      (fun _ hw => hw) rfl
  · obtain rfl := Option.some.inj hstep
    exact h.kill
  · obtain rfl := Option.some.inj hstep
    exact h.killed
  · obtain rfl := Option.some.inj hstep
    exact h.pull
  · obtain rfl := Option.some.inj hstep
    exact h.setWorkers fun hnil => by
      rw [hnil] at hok
      cases hok
  · exact h.boots hstep
  · obtain rfl := Option.some.inj hstep
    exact h.booted
  -- the workers are booted
  · obtain rfl := Option.some.inj hstep
    exact h.awaitHost ⟨rfl, rfl, rfl, rfl, rfl⟩ rfl rfl rfl
  · cases Bool.eq_false_of_not_eq_true' hok
    simp only [Bool.false_eq_true, if_false] at hstep
    split_ifs at hstep
    · obtain rfl := Option.some.inj hstep
      exact h.goOn ⟨rfl, rfl, rfl, rfl, rfl⟩ rfl rfl rfl (.inl rfl) (.inr rfl) (.inl rfl)
    · obtain rfl := Option.some.inj hstep
      exact h.goOn ⟨rfl, rfl, rfl, rfl, rfl⟩ rfl rfl rfl (.inl rfl) (.inr rfl)
        (.inr (.inl rfl))
  · obtain rfl := Option.some.inj hstep
    exact h.awaitHost sameWorkers_refl rfl rfl rfl
  · obtain rfl := Option.some.inj hstep
    exact h.goOn sameWorkers_refl rfl rfl rfl (.inl rfl) (.inr rfl) (.inr (.inr ⟨rfl, rfl⟩))
  · obtain rfl := Option.some.inj hstep
    exact h.returned sameWorkers_refl rfl rfl rfl rfl
  -- no exception has been raised, and none is
  all_goals
    first
      | exact absurd hok Bool.false_ne_true
      | exact absurd hregular Bool.false_ne_true
      | cases hstep

lemma Converging.cancelled (h : Converging n s (.reboot caller newConfig stage :: rest))
    (hok : stage.orderly rest .cancelled = true) : ConvergingAfter n s.done rest := by
  cases stage with
  | arrived => exact convergingAfter_done (h.over sameWorkers_refl rfl rfl rfl rfl rfl)
  | finishing => exact convergingAfter_done (h.over sameWorkers_refl rfl rfl rfl rfl rfl)
  | pulling images workers => cases images <;> cases hok
  | _ => cases hok

lemma not_orderly_expires : stage.orderly rest .expires = false := by
  cases stage with
  | pulling images workers => cases images <;> rfl
  | _ => rfl

lemma Converging.pushLoop {host : Bool} (h : Converging n s (.pushLoop :: rest)) :
    ConvergingAfter n ({ s with host }.next .pushLoop) rest :=
  convergingAfter_next (h.outside rfl rfl rfl (.inr ⟨rfl, rfl, rfl⟩) rfl rfl rfl
    (.inr ⟨rfl, rfl, rfl, rfl, rfl, rfl⟩) (.inr (.inr ⟨rfl, rfl⟩)))

theorem Converging.segment {task : Task ι} {a : Choice} (h : Converging n s (task :: rest))
    (hok : Orderly s rest task a) (hstep : s.segment n task a = some y) :
    ConvergingAfter n y rest := by
  cases task with
  | reboot caller newConfig stage =>
    cases a with
    | cancelled =>
      simp only [Node.segment] at hstep
      split_ifs at hstep
      obtain rfl := Option.some.inj hstep
      exact h.cancelled hok
    | expires => exact absurd (hok.symm.trans not_orderly_expires) (Bool.false_ne_true ·.symm)
    | go => exact h.stageSegment hok hstep
    | raises => exact h.stageSegment hok hstep
    | answered terminal host => exact h.stageSegment hok hstep
    | boots w => exact h.stageSegment hok hstep
  | boot w started => exact absurd (h.regular _ List.mem_cons_self) Bool.false_ne_true
  | pushLoop =>
    cases a with
    | answered terminal host =>
      obtain rfl := Option.some.inj hstep
      exact h.pushLoop
    | _ => cases hstep

end Segments

/-! ### A whole run -/

section Run

variable {n : ℕ}

lemma outside_regular {t : Task ι} (h : t.outside = true) :
    t.runs Stage.inside = false ∧ t.regular = true := by
  cases t with
  | reboot caller newConfig stage =>
    cases stage <;> first | exact ⟨rfl, rfl⟩ | (cases caller <;> cases newConfig <;> cases h)
  | boot w started => cases h
  | pushLoop => cases h

lemma Converging.arrive {s : Node ι} {t : Task ι} {tasks : List (Task ι)}
    (h : Converging n s tasks) (ht : t.outside = true) : Converging n s (t :: tasks) where
  regular u hu := by
    rcases List.mem_cons.1 hu with rfl | hu
    · exact (outside_regular ht).2
    · exact h.regular u hu
  single := by
    rw [List.filter_cons_of_neg (by rw [(outside_regular ht).1]; exact Bool.false_ne_true)]
    exact h.single
  ok u hu := by
    rcases List.mem_cons.1 hu with rfl | hu
    · exact taskOk_of_not_inside (outside_regular ht).1
    · exact (h.ok u hu).congr rfl rfl rfl (.inr ⟨fun hhas => has_cons.2 (.inr hhas), rfl, rfl⟩)
  settled := h.settled.imp id fun hhas => has_cons.2 (.inr hhas)
  ready := h.ready.imp id fun hhas => has_cons.2 (.inr hhas)

lemma converging_started {s : Node ι} {tasks : List (Task ι)} (h : Started s tasks) :
    Converging n s tasks := by
  obtain ⟨containers, rfl⟩ := h.tasks
  have hscheduled : ∀ kind : Stage ι → Bool, kind .scheduled = true →
      Has kind [.pushLoop, .reboot .startup containers .scheduled] := fun kind hkind =>
    ⟨_, List.mem_cons_of_mem _ (List.mem_singleton.2 rfl), hkind⟩
  refine ⟨?_, Nat.zero_le 1, ?_, .inr (hscheduled _ rfl), .inr (hscheduled _ rfl)⟩
  · intro u hu
    simp only [List.mem_cons, List.not_mem_nil, or_false] at hu
    rcases hu with rfl | rfl <;> rfl
  · intro u hu
    simp only [List.mem_cons, List.not_mem_nil, or_false] at hu
    rcases hu with rfl | rfl <;> trivial

lemma upheld_converging : (nodeContainers ι n).Upheld Orderly (Converging n) where
  perm _ _ _ hperm h := h.perm hperm
  init _ _ h := converging_started h
  arrive _ _ _ h harrives := h.arrive (Bool.and_eq_true_iff.1 harrives).2
  segment _ _ _ _ _ h hok hstep := h.segment hok hstep

/-- **The reboots converge** in every orderly run: after all of them have ended the node is READY,
`SELF` has the configured number of workers of every image, each of them is connected to its
running container, and no other worker container runs. -/
theorem reboots_converge {s : Node ι × List (Task ι)}
    (h : (nodeContainers ι n).system.Reachable (EventLoop.During Orderly) s)
    (hended : ∀ caller newConfig stage, .reboot caller newConfig stage ∉ s.2) :
    s.1.reportedStatus = .ready ∧ s.1.workers.Nodup ∧
      s.1.workers.map (s.1.made[·]?) =
        (s.1.currentContainerConfig.flatMap (List.replicate n)).map some ∧
      (∀ w ∈ s.1.workers, w ∈ s.1.connected ∧ w ∈ s.1.running) ∧
      ∀ w ∈ s.1.running, w ∈ s.1.workers := by
  have hnone : ∀ kind, ¬Has kind s.2 := by
    rintro kind ⟨u, hu, hkind⟩
    cases u with
    | reboot caller newConfig stage => exact hended caller newConfig stage hu
    | boot w started => cases hkind
    | pushLoop => cases hkind
  have hconverging := upheld_converging.reachable h
  have hready := hconverging.ready.resolve_right (hnone _)
  have hconverged := hconverging.settled.resolve_right (hnone _)
  exact ⟨hready, hconverged.nodup, hconverged.images, hconverged.live, hconverged.alone⟩

end Run

/-- A service that has just been started, on a machine with one image and one CPU. -/
def fresh : Node Unit × List (Task Unit) where
  fst := ⟨[], [], false, false, .booting, false, [], [], []⟩
  snd := [.pushLoop, .reboot .startup [()] .scheduled]

lemma init_fresh : (nodeContainers Unit 1).system.init fresh :=
  ⟨rfl, rfl, rfl, rfl, nofun, rfl, ⟨[()], rfl⟩⟩

/-- The first boot. -/
def bootEvents : List (LoopEvent (Task Unit) Choice) :=
  [.run 1 .go, .run 1 (.answered false false), .run 1 .go, .run 1 .go, .run 1 .go, .run 1 .go,
    .run 1 .go, .run 1 (.boots 0), .run 1 (.boots 0), .run 1 .go, .run 1 .go,
    .run 1 (.answered false true), .run 1 (.answered false true), .run 1 .go]

def booted : Node Unit × List (Task Unit) where
  fst := ⟨[()], [0], false, true, .ready, true, [()], [0], [0]⟩
  snd := [.pushLoop]

theorem reboots_converge_booted :
    booted.1.reportedStatus = .ready ∧ booted.1.workers.Nodup ∧
      booted.1.workers.map (booted.1.made[·]?) =
        (booted.1.currentContainerConfig.flatMap (List.replicate 1)).map some ∧
      (∀ w ∈ booted.1.workers, w ∈ booted.1.connected ∧ w ∈ booted.1.running) ∧
      ∀ w ∈ booted.1.running, w ∈ booted.1.workers :=
  reboots_converge
    ⟨fresh, bootEvents, init_fresh, System.run_of_exec_guarded (by decide +kernel)⟩
    fun _ _ _ hmem => nomatch List.mem_singleton.1 hmem

/-- Two requests are answered with 500.  The second one's reboot lists the containers; that of the
first one boots its worker; the second one goes on. -/
def overlapping : List (LoopEvent (Task Unit) Choice) :=
  [.arrive (.reboot .background [] .scheduled), .arrive (.reboot .background [] .scheduled),
    .run 2 .go, .run 2 (.answered false true), .run 2 .go, .run 2 .go,
    .run 1 .go, .run 2 (.answered false true), .run 2 .go, .run 2 .go, .run 2 .go, .run 2 .go,
    .run 2 .go, .run 2 .go, .run 2 (.boots 1), .run 2 (.boots 1), .run 2 .go, .run 2 .go,
    .run 2 (.answered false true), .run 2 (.answered false true), .run 2 .go,
    .run 1 .go, .run 1 .go, .run 1 .go, .run 1 .go, .run 1 (.boots 2), .run 1 (.boots 2),
    .run 1 .go, .run 1 .go, .run 1 (.answered false true), .run 1 .go]

def doubled : Node Unit × List (Task Unit) where
  fst := ⟨[()], [2], false, true, .ready, true, [(), (), ()], [2, 1], [2, 1, 0]⟩
  snd := [.pushLoop]

/-- **A worker container is left running** that is not in `SELF`, though no reboot has failed. -/
theorem container_left :
    ¬∀ s : Node Unit × List (Task Unit), (nodeContainers Unit 1).system.Reachable System.always s →
      (∀ caller newConfig stage, .reboot caller newConfig stage ∉ s.2) →
        s.1.reportedStatus = .ready ∧ s.1.workers.Nodup ∧
          s.1.workers.map (s.1.made[·]?) =
            (s.1.currentContainerConfig.flatMap (List.replicate 1)).map some ∧
          (∀ w ∈ s.1.workers, w ∈ s.1.connected ∧ w ∈ s.1.running) ∧
          ∀ w ∈ s.1.running, w ∈ s.1.workers := by
  intro h
  have hfresh : (nodeContainers Unit 1).system.Reachable System.always fresh :=
    ⟨fresh, [], init_fresh, .nil⟩
  have hexec : (nodeContainers Unit 1).system.exec fresh (bootEvents ++ overlapping) =
      some doubled := by decide +kernel
  have halone := (h doubled (hfresh.exec hexec) fun _ _ _ hmem =>
    nomatch List.mem_singleton.1 hmem).2.2.2.2
  exact absurd (halone 1 (by decide)) (by decide)

end Burla.Boot.Containers
