/-
A stream of packets: each is a tag, the length of its payload in eight bytes, and the payload.

* `Packets.value_bigEndian`: a length is read back from its bytes.
* `Packets.complete`: the packets that are complete in so many bytes of a stream.
* `Packets.complete_cases`: a beginning of a stream ends between two packets, or within one.
-/
import Mathlib.Data.List.Basic
import Mathlib.Data.List.Infix
import Mathlib.Tactic.Common
import Mathlib.Tactic.Ring

namespace Packets

/-! ### Lengths -/

/-- `n.to_bytes(k, "big")`, for an `n` that has so many bytes. -/
def bigEndian : ℕ → ℕ → List UInt8
  | 0, _ => []
  | k + 1, n => bigEndian k (n / 256) ++ [UInt8.ofNat (n % 256)]

/-- `int.from_bytes(bytes, "big")` -/
def value (bytes : List UInt8) : ℕ := bytes.foldl (fun n b => 256 * n + b.toNat) 0

lemma length_bigEndian (k n : ℕ) : (bigEndian k n).length = k := by
  induction k generalizing n with
  | zero => rfl
  | succ k ih => rw [bigEndian, List.length_append, ih, List.length_singleton]

/-- **A length is read back.** -/
lemma value_bigEndian {k n : ℕ} (h : n < 256 ^ k) : value (bigEndian k n) = n := by
  induction k generalizing n with
  | zero =>
    rw [pow_zero, Nat.lt_one_iff] at h
    exact h.symm
  | succ k ih =>
    have hdiv : n / 256 < 256 ^ k := by
      rw [pow_succ] at h
      omega
    have hbyte : (UInt8.ofNat (n % 256)).toNat = n % 256 :=
      UInt8.toNat_ofNat_of_lt' (by show n % 256 < 256; omega)
    rw [bigEndian, value, List.foldl_append, ← value, ih hdiv, List.foldl_cons, List.foldl_nil,
      hbyte]
    omega

/-! ### Packets -/

structure Packet where
  tag : UInt8
  payload : List UInt8
  length_lt : payload.length < 256 ^ 8

/-- A packet as it is written. -/
def Packet.bytes (q : Packet) : List UInt8 :=
  q.tag :: (bigEndian 8 q.payload.length ++ q.payload)

/-- The packets that are complete in the first `n` bytes of a stream. -/
def complete : List Packet → ℕ → List Packet
  | [], _ => []
  | q :: qs, n => if q.bytes.length ≤ n then q :: complete qs (n - q.bytes.length) else []

section Stream

variable {q : Packet} {qs : List Packet} {p : List UInt8}

lemma length_bytes : q.bytes.length = 9 + q.payload.length := by
  rw [Packet.bytes, List.length_cons, List.length_append, length_bigEndian]
  omega

lemma complete_append {n : ℕ} :
    complete (q :: qs) (q.bytes.length + n) = q :: complete qs n := by
  rw [complete, if_pos (Nat.le_add_right _ _), Nat.add_sub_cancel_left]

/-- In the whole stream all packets are complete. -/
lemma complete_all : complete qs (qs.flatMap Packet.bytes).length = qs := by
  induction qs with
  | nil => rfl
  | cons q qs ih => rw [List.flatMap_cons, List.length_append, complete_append, ih]

lemma complete_zero : complete qs 0 = [] := by
  cases qs with
  | nil => rfl
  | cons q qs =>
    rw [complete, if_neg]
    rw [length_bytes]
    omega

/-- The complete packets are the first ones. -/
lemma complete_eq_take (n : ℕ) : ∃ k, complete qs n = qs.take k := by
  induction qs generalizing n with
  | nil => exact ⟨0, rfl⟩
  | cons q qs ih =>
    rw [complete]
    split_ifs with hle
    · obtain ⟨k, hk⟩ := ih (n - q.bytes.length)
      exact ⟨k + 1, by rw [hk, List.take_succ_cons]⟩
    · exact ⟨0, rfl⟩

/-- In the stream of the first packets just these are complete. -/
lemma complete_take (k : ℕ) :
    complete qs ((qs.take k).flatMap Packet.bytes).length = qs.take k := by
  induction k generalizing qs with
  | zero => exact complete_zero
  | succ k ih =>
    cases qs with
    | nil => rfl
    | cons q qs =>
      rw [List.take_succ_cons, List.flatMap_cons, List.length_append, complete_append, ih]

/-- A beginning ends between two packets. -/
def AtBorder (qs : List Packet) (p : List UInt8) : Prop :=
  p = (complete qs p.length).flatMap Packet.bytes

lemma atBorder_iff : AtBorder qs p ↔ ∃ k, p = (qs.take k).flatMap Packet.bytes := by
  constructor
  · intro h
    obtain ⟨k, hk⟩ : ∃ k, complete qs p.length = qs.take k := complete_eq_take p.length
    exact ⟨k, by rw [← hk]; exact h⟩
  · rintro ⟨k, rfl⟩
    rw [AtBorder, complete_take]

/-- A part of a packet: not nothing, and not all of it. -/
def Part (q : Packet) (part : List UInt8) : Prop :=
  part ≠ [] ∧ part <+: q.bytes ∧ part.length < q.bytes.length

/-- **A beginning of a stream** ends between two packets, or it has a part of one at its end. -/
lemma complete_cases (h : p <+: qs.flatMap Packet.bytes) :
    AtBorder qs p ∨ ∃ q part, Part q part ∧
      p = (complete qs p.length).flatMap Packet.bytes ++ part := by
  induction qs generalizing p with
  | nil =>
    left
    exact List.prefix_nil.1 h
  | cons q qs ih =>
    rw [List.flatMap_cons] at h
    by_cases hlength : q.bytes.length ≤ p.length
    · obtain ⟨rest, rfl⟩ : ∃ rest, p = q.bytes ++ rest := by
        obtain ⟨rest, hrest⟩ := List.prefix_of_prefix_length_le (List.prefix_append _ _) h hlength
        exact ⟨rest, hrest.symm⟩
      have hprefix : rest <+: qs.flatMap Packet.bytes := (List.prefix_append_right_inj _).1 h
      rw [AtBorder, List.length_append, complete_append, List.flatMap_cons]
      rcases ih hprefix with hborder | ⟨q', part, hpart, hrest⟩
      · exact .inl (congrArg (q.bytes ++ ·) hborder)
      · refine .inr ⟨q', part, hpart, ?_⟩
        rw [List.append_assoc]
        exact congrArg (q.bytes ++ ·) hrest
    · have hnone : complete (q :: qs) p.length = [] := by
        rw [complete, if_neg hlength]
      rw [AtBorder, hnone]
      by_cases hnil : p = []
      · exact .inl hnil
      · have hprefix : p <+: q.bytes :=
          List.prefix_of_prefix_length_le h (List.prefix_append _ _) (not_le.1 hlength).le
        exact .inr ⟨q, p, ⟨hnil, hprefix, not_le.1 hlength⟩, rfl⟩

/-- A part of a packet is no packets. -/
lemma not_atBorder_of_part {part : List UInt8} (hpart : part ≠ [])
    (h : p = (complete qs p.length).flatMap Packet.bytes ++ part) : ¬AtBorder qs p := by
  intro hborder
  rw [AtBorder] at hborder
  exact hpart (List.append_right_eq_self.1 (h.symm.trans hborder))

/-- What a part of a packet has after its tag, cut as a packet is: it has not eight bytes, or fewer
than these say. -/
lemma part_cases {part : List UInt8} (h : Part q part) : ∃ rest, part = q.tag :: rest ∧
    (rest.length < 8 ∨ ∃ begun, rest = bigEndian 8 q.payload.length ++ begun ∧
      begun.length < q.payload.length) := by
  obtain ⟨hne, hprefix, hlt⟩ := h
  cases part with
  | nil => exact absurd rfl hne
  | cons tag rest =>
    rw [Packet.bytes] at hprefix
    obtain ⟨rfl, hrest⟩ := List.cons_prefix_cons.1 hprefix
    refine ⟨rest, rfl, ?_⟩
    by_cases hshort : rest.length < 8
    · exact .inl hshort
    · have hle : (bigEndian 8 q.payload.length).length ≤ rest.length := by
        rw [length_bigEndian]
        omega
      obtain ⟨begun, hbegun⟩ :=
        List.prefix_of_prefix_length_le (List.prefix_append _ _) hrest hle
      refine .inr ⟨begun, hbegun.symm, ?_⟩
      rw [length_bytes, List.length_cons, ← hbegun, List.length_append, length_bigEndian] at hlt
      omega

end Stream

end Packets
