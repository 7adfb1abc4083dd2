/-
Things that are put down under names, where a name that has been taken is not taken again.

* `Once.putAll`: what is there after several things have been put down, one after another.
* `Once.mem_putAll_nil`: of the things of one name the first is there.
* `Once.inTurn`: what is to be put down, one list after another, up to the first that fails.
* `Once.Does`: a program that puts down what is planned, and fails as planned; `Once.Does.forEach`
  is the rule for loops.
-/
import Burla.Lib.Effects
import Mathlib.Data.List.Basic
import Mathlib.Data.List.Nodup

namespace Once

variable {α β ν ε : Type} [DecidableEq ν] (name : β → ν)

/-- A thing is put down when its name has not been taken. -/
def put (l : List β) (b : β) : List β := if name b ∈ l.map name then l else l ++ [b]

def putAll (l bs : List β) : List β := bs.foldl (put name) l

/-! ### What is there -/

section Put

variable {name} {l bs bs' : List β} {b : β} {x : ν}

lemma mem_names_put : x ∈ (put name l b).map name ↔ x ∈ l.map name ∨ x = name b := by
  rw [put]
  split_ifs with h
  · constructor
    · exact .inl
    · rintro (hx | rfl)
      · exact hx
      · exact h
  · rw [List.map_append, List.mem_append, List.map_singleton, List.mem_singleton]

lemma mem_names_putAll : x ∈ (putAll name l bs).map name ↔ x ∈ l.map name ∨ x ∈ bs.map name := by
  induction bs generalizing l with
  | nil => simp [putAll]
  | cons b bs ih =>
    rw [putAll, List.foldl_cons, ← putAll, ih, mem_names_put, List.map_cons, List.mem_cons, or_assoc]

lemma nodup_put (h : (l.map name).Nodup) : ((put name l b).map name).Nodup := by
  rw [put]
  split_ifs with hb
  · exact h
  · rw [List.map_append, List.map_singleton, ← List.concat_eq_append]
    exact h.concat hb

/-- **No name is taken twice.** -/
lemma nodup_putAll (h : (l.map name).Nodup) : ((putAll name l bs).map name).Nodup := by
  induction bs generalizing l with
  | nil => exact h
  | cons b bs ih => exact ih (nodup_put h)

lemma putAll_append : putAll name l (bs ++ bs') = putAll name (putAll name l bs) bs' :=
  List.foldl_append

/-- Nothing comes to what has all the names. -/
lemma putAll_of_forall (h : ∀ b ∈ bs, name b ∈ l.map name) : putAll name l bs = l := by
  induction bs with
  | nil => rfl
  | cons b bs ih =>
    rw [putAll, List.foldl_cons, put, if_pos (h b List.mem_cons_self)]
    exact ih fun b' hb' => h b' (List.mem_cons_of_mem b hb')

lemma mem_putAll : b ∈ putAll name l bs ↔
    b ∈ l ∨ (name b ∉ l.map name ∧ bs.find? (fun b' => name b' = name b) = some b) := by
  induction bs generalizing l with
  | nil => simp [putAll]
  | cons c bs ih =>
    rw [putAll, List.foldl_cons, ← putAll, ih, mem_names_put, put, List.find?_cons]
    by_cases heq : name c = name b
    · rw [decide_eq_true heq]
      split_ifs with hc
      · have hb : name b ∈ l.map name := heq ▸ hc
        simp [hb]
      · have hb : name b ∉ l.map name := heq ▸ hc
        simp only [hb, heq, or_true, not_true_eq_false, false_and, or_false, not_false_eq_true,
          true_and, List.mem_append, List.mem_singleton, Option.some.injEq, eq_comm]
    · have hne : b ≠ c := by
        rintro rfl
        exact heq rfl
      rw [decide_eq_false heq]
      split_ifs with hc
      · simp only [Ne.symm heq, or_false]
      · simp only [Ne.symm heq, or_false, List.mem_append, List.mem_singleton, hne]

/-- **Of the things of one name the first is there.** -/
lemma mem_putAll_nil :
    b ∈ putAll name [] bs ↔ bs.find? (fun b' => name b' = name b) = some b := by
  simp [mem_putAll]

end Put

/-! ### Programs that put things down -/

section Programs

variable {γ : Type}

/-- One list after another, up to the first that fails. -/
def inTurn (f : α → List γ × Option ε) : List α → List γ × Option ε
  | [] => ([], none)
  | a :: as =>
    match f a with
    | (cs, some e) => (cs, some e)
    | (cs, none) => (cs ++ (inTurn f as).1, (inTurn f as).2)

lemma mem_inTurn {f : α → List γ × Option ε} {as : List α} {c : γ} (h : c ∈ (inTurn f as).1) :
    ∃ a ∈ as, c ∈ (f a).1 ∧ (f a).1 ⊆ (inTurn f as).1 := by
  induction as with
  | nil => cases h
  | cons a as ih =>
    rw [inTurn] at h ⊢
    rcases hplan : f a with ⟨cs, _ | e⟩ <;> rw [hplan] at h
    · rcases List.mem_append.1 h with h | h
      · refine ⟨a, List.mem_cons_self, ?_⟩
        rw [hplan]
        exact ⟨h, List.subset_append_left _ _⟩
      · obtain ⟨a', ha', hc, hsubset⟩ := ih h
        exact ⟨a', List.mem_cons_of_mem a ha', hc, List.Subset.trans hsubset (List.subset_append_right _ _)⟩
    · refine ⟨a, List.mem_cons_self, ?_⟩
      rw [hplan]
      exact ⟨h, List.Subset.refl _⟩

/-- What a program raises. -/
def errorOf : Except ε α → Option ε
  | .ok _ => none
  | .error e => some e

variable (parts : γ → List β)

/-- From every state with the invariant, the program puts down the parts of what is planned, raises
what is planned, and keeps the invariant. -/
def Does (I : List β → Prop) (m : Effect ε (List β) α) (plan : List γ × Option ε) : Prop :=
  ∀ l, I l → (m l).2 = putAll name l (plan.1.flatMap parts) ∧ errorOf (m l).1 = plan.2 ∧
    I (putAll name l (plan.1.flatMap parts))

variable {name parts} {I : List β → Prop}

/-- A loop does one pass's plan after another. -/
lemma Does.forEach {δ : Type} {f : α → Effect ε (List β) δ} {g : α → List γ × Option ε}
    {as : List α} (h : ∀ a ∈ as, Does name parts I (f a) (g a)) :
    Does name parts I (Effect.forEach f as) (inTurn g as) := by
  induction as with
  | nil => exact fun l hl => ⟨rfl, rfl, hl⟩
  | cons a as ih =>
    intro l hl
    obtain ⟨hstate, herror, hI⟩ := h a List.mem_cons_self l hl
    rw [Effect.forEach, inTurn]
    rcases hplan : g a with ⟨cs, _ | e⟩ <;> rw [hplan] at hstate herror hI
    · rcases hrun : f a l with ⟨_ | d, t⟩ <;> rw [hrun] at hstate herror
      · cases herror
      · obtain rfl : t = putAll name l (cs.flatMap parts) := hstate
        obtain ⟨hstate', herror', hI'⟩ := ih (fun a' ha' => h a' (List.mem_cons_of_mem a ha')) _ hI
        rw [Effect.bind_of_ok hrun]
        dsimp only
        rw [List.flatMap_append, putAll_append]
        rcases hrest : Effect.forEach f as (putAll name l (cs.flatMap parts)) with ⟨_ | ds, t⟩ <;>
          rw [hrest] at hstate' herror'
        · rw [Effect.bind_of_error hrest]
          exact ⟨hstate', herror', hI'⟩
        · rw [Effect.bind_of_ok hrest]
          exact ⟨hstate', herror', hI'⟩
    · rcases hrun : f a l with ⟨e' | d, t⟩ <;> rw [hrun] at hstate herror
      · rw [Effect.bind_of_error hrun]
        exact ⟨hstate, herror, hI⟩
      · cases herror

end Programs

end Once
