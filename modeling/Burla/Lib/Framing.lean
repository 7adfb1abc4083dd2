/-
A text that comes in chunks, cut into frames at the letters that end one.

`Framing.cut` reads a text with what has been begun before it.  However a text is chunked, the
chunks complete the same frames as the whole (`cut_append`), and a text made of frames is cut into
these (`cut_flatten`).
-/
import Mathlib.Data.List.Basic
import Mathlib.Tactic.Common

namespace Framing

variable {α : Type*} (isEnd : α → Bool)

/-- The frames that a text completes, and what it begins; `begun` has been read before it. -/
def cut : List α → List α → List (List α) × List α
  | begun, [] => ([], begun)
  | begun, c :: cs =>
    if isEnd c then ((begun ++ [c]) :: (cut [] cs).1, (cut [] cs).2) else cut (begun ++ [c]) cs

/-- No letter ends a frame. -/
def Free (a : List α) : Prop := ∀ c ∈ a, isEnd c = false

/-- A text with one end, which is its last letter. -/
def IsFrame (f : List α) : Prop := ∃ a e, f = a ++ [e] ∧ Free isEnd a ∧ isEnd e = true

section Cut

variable {isEnd} {begun a b : List α} {c : α} {frames : List (List α)}

lemma cut_cons_end (h : isEnd c = true) :
    cut isEnd begun (c :: a) = ((begun ++ [c]) :: (cut isEnd [] a).1, (cut isEnd [] a).2) := by
  rw [cut, if_pos h]

lemma cut_cons_free (h : isEnd c = false) :
    cut isEnd begun (c :: a) = cut isEnd (begun ++ [c]) a := by
  rw [cut, if_neg (by rw [h]; exact Bool.false_ne_true)]

/-- **A text that comes in two pieces is cut as the whole.** -/
lemma cut_append :
    cut isEnd begun (a ++ b) =
      ((cut isEnd begun a).1 ++ (cut isEnd (cut isEnd begun a).2 b).1,
        (cut isEnd (cut isEnd begun a).2 b).2) := by
  induction a generalizing begun with
  | nil => rfl
  | cons c a ih =>
    rw [List.cons_append]
    cases hc : isEnd c with
    | true =>
      rw [cut_cons_end hc, cut_cons_end hc, ih]
      rfl
    | false =>
      rw [cut_cons_free hc, cut_cons_free hc]
      exact ih

lemma Free.append (ha : Free isEnd a) (hb : Free isEnd b) : Free isEnd (a ++ b) :=
  List.forall_mem_append.2 ⟨ha, hb⟩

/-- A text without an end goes to what has been begun. -/
lemma cut_of_free (ha : Free isEnd a) : cut isEnd begun a = ([], begun ++ a) := by
  induction a generalizing begun with
  | nil => rw [cut, List.append_nil]
  | cons c a ih =>
    obtain ⟨hc, ha⟩ := List.forall_mem_cons.1 ha
    rw [cut_cons_free hc, ih ha, List.append_assoc]
    rfl

/-- What has been begun has no end. -/
lemma free_cut (h : Free isEnd begun) : Free isEnd (cut isEnd begun a).2 := by
  induction a generalizing begun with
  | nil => exact h
  | cons c a ih =>
    cases hc : isEnd c with
    | true =>
      rw [cut_cons_end hc]
      exact ih (fun _ hc => absurd hc List.not_mem_nil)
    | false =>
      rw [cut_cons_free hc]
      exact ih (h.append (List.forall_mem_singleton.2 hc))

/-- Nothing is lost. -/
lemma flatten_cut : (cut isEnd begun a).1.flatten ++ (cut isEnd begun a).2 = begun ++ a := by
  induction a generalizing begun with
  | nil => rw [cut, List.append_nil]; rfl
  | cons c a ih =>
    cases hc : isEnd c with
    | true =>
      rw [cut_cons_end hc, List.flatten_cons, List.append_assoc, ih, List.nil_append,
        List.append_assoc]
      rfl
    | false =>
      rw [cut_cons_free hc, ih, List.append_assoc]
      rfl

lemma mem_of_mem_cut (h : c ∈ (cut isEnd begun a).2) : c ∈ begun ++ a := by
  rw [← flatten_cut]
  exact List.mem_append_right _ h

/-- What is completed ends with an end. -/
lemma getLast?_of_mem_cut {f : List α} (hf : f ∈ (cut isEnd begun a).1) :
    ∃ e, f.getLast? = some e ∧ isEnd e = true := by
  induction a generalizing begun with
  | nil => cases hf
  | cons c a ih =>
    cases hc : isEnd c with
    | true =>
      rw [cut_cons_end hc] at hf
      rcases List.mem_cons.1 hf with rfl | hf
      · exact ⟨c, List.getLast?_concat, hc⟩
      · exact ih hf
    | false =>
      rw [cut_cons_free hc] at hf
      exact ih hf

lemma cut_isFrame {f : List α} (hf : IsFrame isEnd f) : cut isEnd [] f = ([f], []) := by
  obtain ⟨a, e, rfl, ha, he⟩ := hf
  rw [cut_append, cut_of_free ha]
  simp [cut, he]

/-- **A text made of frames is cut into them.** -/
lemma cut_flatten (h : ∀ f ∈ frames, IsFrame isEnd f) :
    cut isEnd [] frames.flatten = (frames, []) := by
  induction frames with
  | nil => rfl
  | cons f frames ih =>
    obtain ⟨hf, hframes⟩ := List.forall_mem_cons.1 h
    rw [List.flatten_cons, cut_append, cut_isFrame hf, ih hframes]
    rfl

end Cut

end Framing
