/-
Texts that are cut at a separator: the segments, and the last one once trailing separators are
gone.

When the last segment is not empty there is nothing to take off, and the two agree
(`Path.lastSegment_eq`).  A text that begins with a text closed by the separator begins with its
segments (`Path.segments_append`).  The parents of a path are its beginnings, each closed by the
separator (`Path.mem_parents`).
-/
import Mathlib.Data.List.Basic
import Mathlib.Tactic.Common

namespace Path

variable {α : Type*} [DecidableEq α] (sep : α) {p q s : List α}

/-- The segments of a text. -/
def segments (p : List α) : List (List α) := p.splitOn sep

/-- The text without the separators at its end. -/
def rstrip (p : List α) : List α := (p.reverse.dropWhile (· = sep)).reverse

/-- The last segment of what is left then. -/
def lastSegment (p : List α) : List α := (segments sep (rstrip sep p)).getLastD []

lemma segments_ne_nil : segments sep p ≠ [] := List.splitOn_ne_nil sep p

lemma intercalate_segments : [sep].intercalate (segments sep p) = p := List.intercalate_splitOn sep

/-- A text is determined by its segments. -/
lemma eq_of_segments_eq (h : segments sep p = segments sep q) : p = q := by
  rw [← intercalate_segments sep (p := p), h, intercalate_segments]

lemma segments_append : segments sep (p ++ sep :: q) = segments sep p ++ segments sep q :=
  List.splitOn_append_cons_self p q

lemma segments_of_notMem (h : sep ∉ p) : segments sep p = [p] :=
  List.splitOn_eq_singleton h

/-- A text that ends with the separator has an empty last segment. -/
lemma getLastD_segments_concat : (segments sep (p ++ [sep])).getLastD [] = [] := by
  rw [segments_append, segments_of_notMem sep List.not_mem_nil]
  simp

lemma rstrip_eq (h : (segments sep p).getLastD [] ≠ []) : rstrip sep p = p := by
  rcases List.eq_nil_or_concat p with rfl | ⟨q, c, rfl⟩
  · rfl
  · have hc : c ≠ sep := by
      rintro rfl
      exact h (by rw [List.concat_eq_append, getLastD_segments_concat])
    simp [rstrip, hc]

/-- **Without a separator at the end the last segment is the last of the segments.** -/
lemma lastSegment_eq (h : (segments sep p).getLastD [] ≠ []) :
    lastSegment sep p = (segments sep p).getLastD [] := by
  rw [lastSegment, rstrip_eq sep h]

/-- A segment is a part of the text, without separators. -/
lemma of_mem_segments (h : s ∈ segments sep p) : sep ∉ s ∧ s ⊆ p := by
  induction p generalizing s with
  | nil =>
    rw [segments_of_notMem sep List.not_mem_nil, List.mem_singleton] at h
    subst h
    exact ⟨List.not_mem_nil, List.nil_subset _⟩
  | cons c p ih =>
    rw [segments, List.splitOn_cons_eq_if_modifyHead] at h
    split_ifs at h with hc
    · rcases List.mem_cons.1 h with rfl | h
      · exact ⟨List.not_mem_nil, List.nil_subset _⟩
      · exact ⟨(ih h).1, List.subset_cons_of_subset _ (ih h).2⟩
    · obtain ⟨t, l, hsegments⟩ := List.exists_cons_of_ne_nil (segments_ne_nil sep (p := p))
      have ht := ih (s := t) (by rw [hsegments]; exact List.mem_cons_self)
      rw [segments] at hsegments
      rw [hsegments, List.modifyHead_cons] at h
      rcases List.mem_cons.1 h with rfl | h
      · refine ⟨fun hmem => ?_, List.cons_subset_cons _ ht.2⟩
        rcases List.mem_cons.1 hmem with rfl | hmem
        · exact hc (by simp)
        · exact ht.1 hmem
      · have hs := ih (s := s) (by rw [segments, hsegments]; exact List.mem_cons_of_mem t h)
        exact ⟨hs.1, List.subset_cons_of_subset _ hs.2⟩

/-! ### Paths of segments -/

variable {l l₁ l₂ : List (List α)}

lemma segments_intercalate (hne : l ≠ []) (h : ∀ s ∈ l, sep ∉ s) :
    segments sep ([sep].intercalate l) = l := List.splitOn_intercalate sep h hne

omit [DecidableEq α] in
lemma intercalate_append (h₁ : l₁ ≠ []) (h₂ : l₂ ≠ []) :
    [sep].intercalate (l₁ ++ l₂) = [sep].intercalate l₁ ++ sep :: [sep].intercalate l₂ := by
  induction l₁ with
  | nil => exact absurd rfl h₁
  | cons s l₁ ih =>
    rcases l₁ with _ | ⟨t, l₁⟩
    · rw [List.singleton_append, List.intercalate_cons_of_ne_nil h₂, List.intercalate_singleton,
        List.append_assoc, List.singleton_append]
    · rw [List.cons_append, List.cons_append, List.intercalate_cons_cons,
        List.intercalate_cons_cons, ← List.cons_append, ih (List.cons_ne_nil t l₁)]
      simp only [List.append_assoc, List.cons_append]

/-- The beginnings of a path, but for the whole of it. -/
def parents (l : List (List α)) : List (List α) :=
  (List.range (l.length - 1)).map fun i => [sep].intercalate (l.take (i + 1)) ++ [sep]

omit [DecidableEq α] in
lemma mem_parents : p ∈ parents sep l ↔
    ∃ l₁ l₂, l = l₁ ++ l₂ ∧ l₁ ≠ [] ∧ l₂ ≠ [] ∧ p = [sep].intercalate l₁ ++ [sep] := by
  rw [parents, List.mem_map]
  constructor
  · rintro ⟨i, hi, rfl⟩
    rw [List.mem_range] at hi
    refine ⟨l.take (i + 1), l.drop (i + 1), (List.take_append_drop _ _).symm, ?_, ?_, rfl⟩
    · refine List.ne_nil_of_length_pos ?_
      rw [List.length_take]
      omega
    · refine List.ne_nil_of_length_pos ?_
      rw [List.length_drop]
      omega
  · rintro ⟨l₁, l₂, rfl, h₁, h₂, rfl⟩
    have hpos₁ := List.length_pos_of_ne_nil h₁
    have hpos₂ := List.length_pos_of_ne_nil h₂
    refine ⟨l₁.length - 1, ?_, ?_⟩
    · rw [List.mem_range, List.length_append]
      omega
    · rw [Nat.sub_add_cancel hpos₁, List.take_left]

end Path
