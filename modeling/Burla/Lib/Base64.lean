/-
Base64 with the alphabet for URLs, read as leniently as Python's `binascii.a2b_base64` does: what
is not in the alphabet is passed over, and what follows a complete padding is not read.

* `Base64.decode_encode`: what has been written is read back.
* `Base64.encode_eq_body`: a text is its digits and the padding that makes its length a multiple
  of four.
* `Base64.decode_padded`: the digits, padded, are read back.
-/
import Mathlib.Data.List.DropRight
import Mathlib.Tactic.Common

namespace Base64

/-- The digits, by their values. -/
def alphabet : List Char :=
  "ABCDEFGHIJKLMNOPQRSTUVWXYZabcdefghijklmnopqrstuvwxyz0123456789-_".toList

def digit (n : ℕ) : Char := alphabet.getD n 'A'

/-- The value of a digit; those of the other alphabet are read too. -/
def value (c : Char) : Option ℕ :=
  if c = '+' then some 62 else if c = '/' then some 63
  else if c ∈ alphabet then some (alphabet.idxOf c) else none

/-- The digits of some bytes, without a padding. -/
def body : List UInt8 → List Char
  | [] => []
  | [a] => [digit (a.toNat / 4), digit (a.toNat % 4 * 16)]
  | [a, b] =>
    [digit (a.toNat / 4), digit (a.toNat % 4 * 16 + b.toNat / 16), digit (b.toNat % 16 * 4)]
  | a :: b :: c :: rest =>
    digit (a.toNat / 4) :: digit (a.toNat % 4 * 16 + b.toNat / 16) ::
      digit (b.toNat % 16 * 4 + c.toNat / 64) :: digit (c.toNat % 64) :: body rest

/-- `urlsafe_b64encode` -/
def encode : List UInt8 → List Char
  | [] => []
  | [a] => [digit (a.toNat / 4), digit (a.toNat % 4 * 16), '=', '=']
  | [a, b] =>
    [digit (a.toNat / 4), digit (a.toNat % 4 * 16 + b.toNat / 16), digit (b.toNat % 16 * 4), '=']
  | a :: b :: c :: rest =>
    digit (a.toNat / 4) :: digit (a.toNat % 4 * 16 + b.toNat / 16) ::
      digit (b.toNat % 16 * 4 + c.toNat / 64) :: digit (c.toNat % 64) :: encode rest

/-- The reader: how many digits of four have come, the bits of the last that are left, and the
padding so far. -/
def decodeLoop (position left pads : ℕ) : List Char → Option (List UInt8)
  | [] => if position = 0 then some [] else none
  | c :: cs =>
    if c = '=' then
      if 2 ≤ position then
        if 4 ≤ position + (pads + 1) then some [] else decodeLoop position left (pads + 1) cs
      else decodeLoop position left pads cs
    else
      match value c with
      | none => decodeLoop position left pads cs
      | some v =>
        match position with
        | 0 => decodeLoop 1 v 0 cs
        | 1 => (decodeLoop 2 (v % 16) 0 cs).map (UInt8.ofNat (left * 4 + v / 16) :: ·)
        | 2 => (decodeLoop 3 (v % 4) 0 cs).map (UInt8.ofNat (left * 16 + v / 4) :: ·)
        | _ => (decodeLoop 0 0 0 cs).map (UInt8.ofNat (left * 64 + v) :: ·)

/-- `urlsafe_b64decode`; only ASCII texts are read. -/
def decode (text : List Char) : Option (List UInt8) :=
  if text.all fun c => c.toNat < 128 then decodeLoop 0 0 0 text else none

/-! ### Digits -/

section Digits

variable {n : ℕ}

lemma value_digit (h : n < 64) : value (digit n) = some n := by
  have hall : ∀ i : Fin 64, value (digit i) = some i.1 := by decide +kernel
  exact hall ⟨n, h⟩

lemma digit_ne (h : n < 64) : digit n ≠ '=' := by
  have hall : ∀ i : Fin 64, digit i ≠ '=' := by decide +kernel
  exact hall ⟨n, h⟩

lemma toNat_digit_lt (h : n < 64) : (digit n).toNat < 128 := by
  have hall : ∀ i : Fin 64, (digit i).toNat < 128 := by decide +kernel
  exact hall ⟨n, h⟩

end Digits

section Reading

variable {v left pads : ℕ} {cs : List Char} {a b c : UInt8}

lemma decodeLoop_first (h : v < 64) :
    decodeLoop 0 left pads (digit v :: cs) = decodeLoop 1 v 0 cs := by
  rw [decodeLoop, if_neg (digit_ne h), value_digit h]
  rfl

lemma decodeLoop_second (h : v < 64) : decodeLoop 1 left pads (digit v :: cs) =
    (decodeLoop 2 (v % 16) 0 cs).map (UInt8.ofNat (left * 4 + v / 16) :: ·) := by
  rw [decodeLoop, if_neg (digit_ne h), value_digit h]
  rfl

lemma decodeLoop_third (h : v < 64) : decodeLoop 2 left pads (digit v :: cs) =
    (decodeLoop 3 (v % 4) 0 cs).map (UInt8.ofNat (left * 16 + v / 4) :: ·) := by
  rw [decodeLoop, if_neg (digit_ne h), value_digit h]
  rfl

lemma decodeLoop_fourth (h : v < 64) : decodeLoop 3 left pads (digit v :: cs) =
    (decodeLoop 0 0 0 cs).map (UInt8.ofNat (left * 64 + v) :: ·) := by
  rw [decodeLoop, if_neg (digit_ne h), value_digit h]
  rfl

lemma toNat_lt : a.toNat < 256 := a.toNat_lt

/-- The bits of a byte that are in two digits. -/
lemma first_byte (a : UInt8) (left : ℕ) (h : left < 16) :
    UInt8.ofNat (a.toNat / 4 * 4 + (a.toNat % 4 * 16 + left) / 16) = a := by
  have hsum : a.toNat / 4 * 4 + (a.toNat % 4 * 16 + left) / 16 = a.toNat := by omega
  rw [hsum, UInt8.ofNat_toNat]

lemma second_byte (v : ℕ) (b : UInt8) (left : ℕ) (h : left < 4) :
    UInt8.ofNat ((v * 16 + b.toNat / 16) % 16 * 16 + (b.toNat % 16 * 4 + left) / 4) = b := by
  have hlt := toNat_lt (a := b)
  have hsum : (v * 16 + b.toNat / 16) % 16 * 16 + (b.toNat % 16 * 4 + left) / 4 = b.toNat := by omega
  rw [hsum, UInt8.ofNat_toNat]

lemma third_byte : UInt8.ofNat ((v * 4 + c.toNat / 64) % 4 * 64 + c.toNat % 64) = c := by
  have hlt := toNat_lt (a := c)
  have hsum : (v * 4 + c.toNat / 64) % 4 * 64 + c.toNat % 64 = c.toNat := by omega
  rw [hsum, UInt8.ofNat_toNat]

end Reading

/-! ### What has been written -/

lemma decodeLoop_encode (bytes : List UInt8) (pads : ℕ) :
    decodeLoop 0 0 pads (encode bytes) = some bytes := by
  induction bytes using encode.induct generalizing pads with
  | case1 => rfl
  | case2 a =>
    have ha := toNat_lt (a := a)
    have hbyte := first_byte a 0 (by omega)
    rw [encode, decodeLoop_first (by omega), decodeLoop_second (by omega)]
    simpa [decodeLoop] using hbyte
  | case3 a b =>
    have ha := toNat_lt (a := a)
    have hb := toNat_lt (a := b)
    have hfirst := first_byte a (b.toNat / 16) (by omega)
    have hsecond := second_byte (a.toNat % 4) b 0 (by omega)
    rw [encode, decodeLoop_first (by omega), decodeLoop_second (by omega),
      decodeLoop_third (by omega)]
    simpa [decodeLoop, hfirst] using hsecond
  | case4 a b c rest ih =>
    have ha := toNat_lt (a := a)
    have hb := toNat_lt (a := b)
    have hc := toNat_lt (a := c)
    have hfirst := first_byte a (b.toNat / 16) (by omega)
    have hsecond := second_byte (a.toNat % 4) b (c.toNat / 64) (by omega)
    have hthird := third_byte (v := b.toNat % 16) (c := c)
    rw [encode, decodeLoop_first (by omega), decodeLoop_second (by omega),
      decodeLoop_third (by omega), decodeLoop_fourth (by omega), ih 0, hfirst, hsecond, hthird]
    rfl

lemma all_encode (bytes : List UInt8) : (encode bytes).all fun c => c.toNat < 128 := by
  induction bytes using encode.induct with
  | case1 => rfl
  | case2 a =>
    have ha := toNat_lt (a := a)
    simp [encode, toNat_digit_lt (n := a.toNat / 4) (by omega),
      toNat_digit_lt (n := a.toNat % 4 * 16) (by omega)]
  | case3 a b =>
    have ha := toNat_lt (a := a)
    have hb := toNat_lt (a := b)
    simp [encode, toNat_digit_lt (n := a.toNat / 4) (by omega),
      toNat_digit_lt (n := a.toNat % 4 * 16 + b.toNat / 16) (by omega),
      toNat_digit_lt (n := b.toNat % 16 * 4) (by omega)]
  | case4 a b c rest ih =>
    have ha := toNat_lt (a := a)
    have hb := toNat_lt (a := b)
    have hc := toNat_lt (a := c)
    rw [encode]
    simp only [List.all_cons, ih, toNat_digit_lt (n := a.toNat / 4) (by omega),
      toNat_digit_lt (n := a.toNat % 4 * 16 + b.toNat / 16) (by omega),
      toNat_digit_lt (n := b.toNat % 16 * 4 + c.toNat / 64) (by omega),
      toNat_digit_lt (n := c.toNat % 64) (by omega), decide_true, Bool.and_true]

/-- **What has been written is read back.** -/
lemma decode_encode (bytes : List UInt8) : decode (encode bytes) = some bytes := by
  rw [decode, if_pos (all_encode bytes), decodeLoop_encode]

/-! ### The padding -/

/-- As many signs as a text is short of a multiple of four. -/
def padding (text : List Char) : List Char := List.replicate ((4 - text.length % 4) % 4) '='

lemma encode_eq_body (bytes : List UInt8) : encode bytes = body bytes ++ padding (body bytes) := by
  induction bytes using encode.induct with
  | case1 => rfl
  | case2 a => rfl
  | case3 a b => rfl
  | case4 a b c rest ih =>
    have hlength : (body (a :: b :: c :: rest)).length % 4 = (body rest).length % 4 := by
      simp only [body, List.length_cons]
      omega
    have hpadding : padding (body (a :: b :: c :: rest)) = padding (body rest) := by
      rw [padding, padding, hlength]
    rw [hpadding, encode, body, ih]
    rfl

lemma notMem_body (bytes : List UInt8) : '=' ∉ body bytes := by
  induction bytes using body.induct with
  | case1 => exact List.not_mem_nil
  | case2 a =>
    have ha := toNat_lt (a := a)
    simp [body, (digit_ne (n := a.toNat / 4) (by omega)).symm,
      (digit_ne (n := a.toNat % 4 * 16) (by omega)).symm]
  | case3 a b =>
    have ha := toNat_lt (a := a)
    have hb := toNat_lt (a := b)
    simp [body, (digit_ne (n := a.toNat / 4) (by omega)).symm,
      (digit_ne (n := a.toNat % 4 * 16 + b.toNat / 16) (by omega)).symm,
      (digit_ne (n := b.toNat % 16 * 4) (by omega)).symm]
  | case4 a b c rest ih =>
    have ha := toNat_lt (a := a)
    have hb := toNat_lt (a := b)
    have hc := toNat_lt (a := c)
    simp [body, ih, (digit_ne (n := a.toNat / 4) (by omega)).symm,
      (digit_ne (n := a.toNat % 4 * 16 + b.toNat / 16) (by omega)).symm,
      (digit_ne (n := b.toNat % 16 * 4 + c.toNat / 64) (by omega)).symm,
      (digit_ne (n := c.toNat % 64) (by omega)).symm]

/-- Without its padding a text is its digits. -/
lemma rdropWhile_encode (bytes : List UInt8) :
    (encode bytes).rdropWhile (· = '=') = body bytes := by
  have hpadding : ∀ n, (body bytes ++ List.replicate n '=').rdropWhile (· = '=') = body bytes := by
    intro n
    induction n with
    | zero =>
      rw [List.replicate_zero, List.append_nil, List.rdropWhile_eq_self_iff]
      intro hne h
      exact notMem_body bytes (of_decide_eq_true h ▸ List.getLast_mem hne)
    | succ n ih =>
      rw [List.replicate_succ', ← List.append_assoc, List.rdropWhile_concat_pos _ _ _ rfl, ih]
  rw [encode_eq_body, padding]
  exact hpadding _

/-- **The digits, padded, are read back.** -/
lemma decode_padded (bytes : List UInt8) :
    decode (body bytes ++ padding (body bytes)) = some bytes := by
  rw [← encode_eq_body, decode_encode]

end Base64
