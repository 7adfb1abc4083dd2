/-
The header that says where a chunk of an upload belongs: as the dashboard writes it, and as
`s3_upload_chunk` in storage.py reads it.

The main result is `Burla.Files.parse_contentRangeOf`: what is written is read back.  Numbers are
read as Python's `int` does, so other texts are accepted too, with blanks around a number or
underscores in it.
-/
import Burla.Files.Bucket
import Mathlib.Data.List.DropRight

namespace Burla.Files

/-! ### Numbers -/

def digitValue (c : Char) : Option ℕ := if c.isDigit then some (c.toNat - 48) else none

/-- The blanks among the characters of a header. -/
def isBlank (c : Char) : Bool :=
  (9 ≤ c.toNat ∧ c.toNat ≤ 13) ∨ (28 ≤ c.toNat ∧ c.toNat ≤ 32) ∨ c.toNat = 133 ∨ c.toNat = 160

/-- The digits that follow; an underscore stands between two of them. -/
def readDigits (n : ℕ) (afterDigit : Bool) : Text → Option ℕ
  | [] => if afterDigit then some n else none
  | c :: text =>
    if c = '_' then if afterDigit then readDigits n false text else none
    else (digitValue c).bind fun d => readDigits (10 * n + d) true text

def strip (text : Text) : Text :=
  (text.dropWhile isBlank).rdropWhile isBlank

/-- `int` -/
def int (text : Text) : Option ℤ :=
  match strip text with
  | '-' :: digits => (readDigits 0 false digits).map fun n : ℕ => -(n : ℤ)
  | '+' :: digits => (readDigits 0 false digits).map fun n : ℕ => (n : ℤ)
  | digits => (readDigits 0 false digits).map fun n : ℕ => (n : ℤ)

/-- A number as it is written into a text. -/
def decimal (n : ℕ) : Text := Nat.toDigits 10 n

lemma isDigit_of_mem_decimal {n : ℕ} {c : Char} (h : c ∈ decimal n) : c.isDigit = true :=
  Nat.isDigit_of_mem_toDigits (by decide) (by decide) h

lemma digitValue_digitChar {d : ℕ} (h : d < 10) : digitValue d.digitChar = some d := by
  have hdigit : d.digitChar.isDigit = true := by rw [Nat.isDigit_digitChar, decide_eq_true h]
  rw [digitValue, if_pos hdigit, Nat.toNat_digitChar_sub_48_of_lt_ten h]

lemma readDigits_append_digit {text : Text} {n m d : ℕ} {b : Bool} (hd : d < 10)
    (h : readDigits n b text = some m) :
    readDigits n b (text ++ [d.digitChar]) = some (10 * m + d) := by
  induction text generalizing n b with
  | nil =>
    have hne : d.digitChar ≠ '_' := Nat.digitChar_ne '_' rfl
    cases b with
    | false => cases h
    | true =>
      obtain rfl : n = m := Option.some.inj h
      simp [readDigits, hne, digitValue_digitChar hd]
  | cons c text ih =>
    rw [readDigits] at h
    rw [List.cons_append, readDigits]
    split_ifs at h ⊢ with hc hb
    · exact ih h
    · obtain ⟨e, he, h⟩ := Option.bind_eq_some_iff.1 h
      rw [he]
      exact ih h

/-- The digits of a number are read as that number. -/
lemma readDigits_decimal (n : ℕ) : readDigits 0 false (decimal n) = some n := by
  induction n using Nat.strong_induction_on with
  | _ n ih =>
    by_cases hn : n < 10
    · have hne : n.digitChar ≠ '_' := Nat.digitChar_ne '_' rfl
      rw [decimal, Nat.toDigits_of_lt_base hn]
      simp [readDigits, hne, digitValue_digitChar hn]
    · have hlt : n / 10 < n := by omega
      have happend := readDigits_append_digit (Nat.mod_lt n (by decide)) (ih (n / 10) hlt)
      rw [decimal, Nat.toDigits_of_base_le (by decide) (by omega)]
      exact happend.trans (congrArg some (Nat.div_add_mod n 10))

lemma strip_of_forall {text : Text} (h : ∀ c ∈ text, isBlank c = false) : strip text = text := by
  cases text with
  | nil => rfl
  | cons c text =>
    have hleft : (c :: text).dropWhile isBlank = c :: text := by
      rw [List.dropWhile_cons, if_neg (by simp [h c List.mem_cons_self])]
    rw [strip, hleft, List.rdropWhile_eq_self_iff]
    intro hne
    rw [h _ (List.getLast_mem hne)]
    exact Bool.false_ne_true

lemma isDigit_iff {c : Char} : c.isDigit = true ↔ 48 ≤ c.toNat ∧ c.toNat ≤ 57 := by
  rw [Char.isDigit, Bool.and_eq_true, decide_eq_true_eq, decide_eq_true_eq]
  exact Iff.rfl

/-- `int` reads a number back. -/
lemma int_decimal (n : ℕ) : int (decimal n) = some (n : ℤ) := by
  have hdigit : ∀ c ∈ decimal n, c.isDigit = true := fun c hc => isDigit_of_mem_decimal hc
  have hstrip : strip (decimal n) = decimal n := by
    refine strip_of_forall fun c hc => ?_
    have hc := isDigit_iff.1 (hdigit c hc)
    rw [isBlank, decide_eq_false_iff_not]
    omega
  have hread := readDigits_decimal n
  rw [int, hstrip]
  cases hdecimal : decimal n with
  | nil => simp [decimal] at hdecimal
  | cons c text =>
    rw [hdecimal] at hread hdigit
    have hc := hdigit c List.mem_cons_self
    split
    · rename_i heq
      obtain rfl : c = '-' := (List.cons.inj heq).1
      cases hc
    · rename_i heq
      obtain rfl : c = '+' := (List.cons.inj heq).1
      cases hc
    · rw [hread]
      rfl

/-! ### The header -/

structure ContentRange where
  start : ℤ
  stop : ℤ
  total : ℤ
  deriving DecidableEq

/-- `replace("bytes ", "")` -/
def removeBytes : Text → Text
  | 'b' :: 'y' :: 't' :: 'e' :: 's' :: ' ' :: text => removeBytes text
  | c :: text => c :: removeBytes text
  | [] => []

/-- The header's numbers, when there are three of them. -/
def parseContentRange (contentRange : Text) : Option ContentRange :=
  match (removeBytes contentRange).splitOn '/' with
  | [byteRange, totalStr] =>
    match byteRange.splitOn '-' with
    | [startStr, endStr] => do
      let start ← int startStr
      let stop ← int endStr
      let total ← int totalStr
      some ⟨start, stop, total⟩
    | _ => none
  | _ => none

/-- The header that the dashboard sends with the bytes from `start` to `stop`. -/
def contentRangeOf (start stop total : ℕ) : Text :=
  "bytes ".toList ++ (decimal start ++ '-' :: (decimal stop ++ '/' :: decimal total))

lemma removeBytes_of_notMem {text : Text} (h : 'b' ∉ text) : removeBytes text = text := by
  induction text with
  | nil => rfl
  | cons c text ih =>
    obtain ⟨hc, htext⟩ := not_or.1 (mt List.mem_cons.2 h)
    rw [removeBytes, ih htext]
    rintro _ rfl _
    exact hc rfl

lemma notMem_decimal {n : ℕ} {c : Char} (hc : c.isDigit = false) : c ∉ decimal n := by
  intro h
  rw [isDigit_of_mem_decimal h] at hc
  cases hc

lemma splitOn_pair {c : Char} {a b : Text} (ha : c ∉ a) (hb : c ∉ b) :
    (a ++ c :: b).splitOn c = [a, b] := by
  rw [List.splitOn_append_cons_self_of_not_mem ha, List.splitOn_eq_singleton hb]

/-- **The header that the dashboard writes is read back.** -/
lemma parse_contentRangeOf (start stop total : ℕ) :
    parseContentRange (contentRangeOf start stop total) = some ⟨start, stop, total⟩ := by
  have hb : 'b' ∉ decimal start ++ '-' :: (decimal stop ++ '/' :: decimal total) := by
    simp [notMem_decimal]
  have hslash : '/' ∉ decimal start ++ '-' :: decimal stop := by simp [notMem_decimal]
  have hremove : removeBytes (contentRangeOf start stop total) =
      decimal start ++ '-' :: decimal stop ++ '/' :: decimal total := by
    show removeBytes (decimal start ++ '-' :: (decimal stop ++ '/' :: decimal total)) = _
    rw [removeBytes_of_notMem hb, List.append_assoc, List.cons_append]
  rw [parseContentRange, hremove, splitOn_pair hslash (notMem_decimal rfl)]
  dsimp only
  rw [splitOn_pair (notMem_decimal rfl) (notMem_decimal rfl)]
  dsimp only
  rw [int_decimal, int_decimal, int_decimal]
  rfl

end Burla.Files
