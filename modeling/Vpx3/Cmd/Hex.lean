import Vpx3.Lib.Bits
import Vpx3.Cmd.Handlers

namespace Vpx3.Cmd

open Vpx3.CStr

/-!
# Commands — hexadecimal tokens and their values

* `positional` — what a string of any characters counts for, those that are no digits as 0;
* `foldl_hexDigit_ofNat` — `str2hex` computes this value modulo 2^32;
* `Digit`, `HexToken` — a token of at most eight digits of either case, with a `0x` in front
  or without;
* `str2hex_text` — the value of a token.
-/

/-! ### The value of a string -/

/-- What the characters of a string count for, behind the value `n`. -/
def positionalFrom (n : Nat) (s : Str) : Nat :=
  s.foldl (fun n c => 16 * n + (str2hexnum c).toNat) n

/-- The positional value of a string. -/
def positional (s : Str) : Nat := positionalFrom 0 s

/-- The first characters stand in front of all others. -/
theorem positionalFrom_eq (s : Str) (n : Nat) :
    positionalFrom n s = n * 16 ^ s.length + positional s := by
  induction s generalizing n with
  | nil => simp [positionalFrom, positional]
  | cons c s ih =>
    have hcons (n : Nat) : positionalFrom n (c :: s)
        = positionalFrom (16 * n + (str2hexnum c).toNat) s := rfl
    rw [positional, hcons, hcons, ih, ih (16 * 0 + (str2hexnum c).toNat), List.length_cons,
      Nat.pow_succ]
    ring

/-- A character counts for less than 16. -/
theorem str2hexnum_lt (c : Byte) : (str2hexnum c).toNat < 16 := by
  revert c
  decide +kernel

/-- One character more, modulo 2^32. -/
theorem hexDigit_ofNat (n : Nat) (c : Byte) :
    hexDigit (BitVec.ofNat 32 n) c = BitVec.ofNat 32 (16 * n + (str2hexnum c).toNat) := by
  have hlt := str2hexnum_lt c
  have hsmall : (str2hexnum c).toNat % 2 ^ 32 = (str2hexnum c).toNat :=
    Nat.mod_eq_of_lt (by omega)
  have hshift : (n % 2 ^ 32) <<< 4 % 2 ^ 32 = (n % 2 ^ 28) <<< 4 := by
    rw [Nat.shiftLeft_eq, Nat.shiftLeft_eq]
    omega
  apply BitVec.eq_of_toNat_eq
  rw [hexDigit]
  simp only [BitVec.toNat_or, BitVec.toNat_shiftLeft, BitVec.toNat_ofNat,
    BitVec.truncate_eq_setWidth, BitVec.toNat_setWidth]
  -- the four low bits of the shifted value are clear
  rw [hsmall, hshift, Bits.shift_or _ hlt]
  omega

/-- **The accumulator** holds the value of the characters modulo 2^32. -/
theorem foldl_hexDigit_ofNat (s : Str) (n : Nat) :
    s.foldl hexDigit (BitVec.ofNat 32 n) = BitVec.ofNat 32 (positionalFrom n s) := by
  induction s generalizing n with
  | nil => rfl
  | cons c s ih =>
    rw [List.foldl_cons, hexDigit_ofNat, ih]
    rfl

/-! ### Tokens -/

/-- A digit and its case. -/
structure Digit where
  val : Fin 16
  upper : Bool
deriving DecidableEq, Repr

/-- The character of a digit. -/
def Digit.char (d : Digit) : Byte :=
  (bytes (if d.upper then "0123456789ABCDEF" else "0123456789abcdef")).getD d.val 0

/-- The value of a sequence of digits behind the value `n`. -/
def digitsValue (n : Nat) (ds : List Digit) : Nat := ds.foldl (fun n d => 16 * n + d.val) n

/-- A hexadecimal token: one to eight digits, and perhaps `0x` in front. -/
structure HexToken where
  marked : Bool
  digits : List Digit
  nonempty : digits ≠ []
  short : digits.length ≤ 8

namespace HexToken

/-- The characters of a token. -/
def text (t : HexToken) : Str :=
  (if t.marked then bytes "0x" else []) ++ t.digits.map Digit.char

/-- The number a token stands for. -/
def number (t : HexToken) : Nat := digitsValue 0 t.digits

/-- The number as the 32-bit value of a parameter. -/
def value (t : HexToken) : Word := BitVec.ofNat 32 t.number

end HexToken

/-! ### The value of a token -/

/-- The table of digits: each character counts for its place in the table, is no blank and
    neither newline nor NUL. -/
theorem Digit.char_ok (d : Digit) :
    str2hexnum d.char = BitVec.ofNat 8 d.val ∧ d.char ≠ blank ∧ d.char ≠ 0x0a ∧ d.char ≠ 0
      ∧ (d.char = 0x30 ↔ d.val = 0) := by
  obtain ⟨val, upper⟩ := d
  revert val upper
  decide +kernel

/-- Digits count for their values. -/
theorem positionalFrom_digits (ds : List Digit) (n : Nat) :
    positionalFrom n (ds.map Digit.char) = digitsValue n ds := by
  have hval (d : Digit) : (str2hexnum d.char).toNat = d.val := by
    rw [d.char_ok.1, BitVec.toNat_ofNat]
    exact Nat.mod_eq_of_lt (by omega)
  rw [positionalFrom, List.foldl_map, digitsValue]
  simp only [hval]

/-- **The digits behind a value**, modulo 2^32. -/
theorem foldl_hexDigit (ds : List Digit) (n : Nat) :
    (ds.map Digit.char).foldl hexDigit (BitVec.ofNat 32 n)
      = BitVec.ofNat 32 (digitsValue n ds) := by
  rw [foldl_hexDigit_ofNat, positionalFrom_digits]

/-- Digits alone. -/
theorem str2hex_digits (ds : List Digit) :
    str2hex (ds.map Digit.char) = BitVec.ofNat 32 (digitsValue 0 ds) := foldl_hexDigit ds 0

/-- A prefix that counts for nothing. -/
theorem str2hex_append_of_zero {pre : Str} (hpre : pre.foldl hexDigit 0 = 0) (s : Str) :
    str2hex (pre ++ s) = str2hex s := by
  rw [str2hex, List.foldl_append, hpre]
  rfl

/-- The `0x` in front counts for nothing. -/
theorem str2hex_text (t : HexToken) : str2hex t.text = t.value := by
  rw [HexToken.text]
  split
  · rw [str2hex_append_of_zero (by decide), str2hex_digits]
    rfl
  · rw [List.nil_append, str2hex_digits]
    rfl

/-! ### Numbers of at most eight digits -/

/-- The digits behind a value. -/
theorem digitsValue_eq (ds : List Digit) (n : Nat) :
    digitsValue n ds = n * 16 ^ ds.length + digitsValue 0 ds := by
  rw [← positionalFrom_digits, positionalFrom_eq, List.length_map, positional,
    positionalFrom_digits]

/-- One digit in front. -/
theorem digitsValue_cons (d : Digit) (ds : List Digit) :
    digitsValue 0 (d :: ds) = d.val * 16 ^ ds.length + digitsValue 0 ds := by
  have hcons : digitsValue 0 (d :: ds) = digitsValue (16 * 0 + d.val) ds := rfl
  rw [hcons, digitsValue_eq, Nat.mul_zero, Nat.zero_add]

theorem digitsValue_lt (ds : List Digit) : digitsValue 0 ds < 16 ^ ds.length := by
  induction ds with
  | nil => simp [digitsValue]
  | cons d ds ih =>
    have hd := d.val.isLt
    rw [digitsValue_cons, List.length_cons, Nat.pow_succ]
    nlinarith

/-- The number of a token fits its parameter. -/
theorem HexToken.number_lt (t : HexToken) : t.number < 2 ^ 32 :=
  calc t.number < 16 ^ t.digits.length := digitsValue_lt t.digits
    _ ≤ 16 ^ 8 := Nat.pow_le_pow_right (by decide) t.short
    _ = 2 ^ 32 := by decide

/-- Tokens have the same value only for the same number. -/
theorem HexToken.value_eq_iff (t u : HexToken) : t.value = u.value ↔ t.number = u.number := by
  have ht := t.number_lt
  have hu := u.number_lt
  constructor
  · intro h
    have hnat := congrArg BitVec.toNat h
    simp only [HexToken.value, BitVec.toNat_ofNat] at hnat
    rwa [Nat.mod_eq_of_lt ht, Nat.mod_eq_of_lt hu] at hnat
  · intro h
    rw [HexToken.value, HexToken.value, h]

/-- Without its first digit a number of 32 bits is the same exactly when that digit is 0. -/
theorem digitsValue_tail_iff {d : Digit} {ds : List Digit}
    (hlt : digitsValue 0 (d :: ds) < 2 ^ 32) :
    BitVec.ofNat 32 (digitsValue 0 ds) = BitVec.ofNat 32 (digitsValue 0 (d :: ds))
      ↔ d.val = 0 := by
  rw [digitsValue_cons] at hlt ⊢
  have hpow : 0 < 16 ^ ds.length := Nat.pow_pos (by decide)
  constructor
  · -- the digit dropped counts for a positive amount, unless it is 0
    intro h
    have hnat := congrArg BitVec.toNat h
    simp only [BitVec.toNat_ofNat] at hnat
    rw [Nat.mod_eq_of_lt (by omega), Nat.mod_eq_of_lt hlt] at hnat
    have hprod : d.val.val * 16 ^ ds.length = 0 := by omega
    exact Fin.ext ((Nat.mul_eq_zero.mp hprod).resolve_right (by omega))
  · intro h
    simp [h]

/-- Without its first character a token keeps its value exactly when that character is 0. -/
theorem HexToken.str2hex_tail (t : HexToken) :
    str2hex t.text.tail = t.value ↔ t.text.head? = some 0x30 := by
  obtain ⟨marked, digits, hne, hshort⟩ := t
  cases marked with
  | true =>
    -- of `0x` the `x` is left, which counts for nothing either
    have htail : str2hex (HexToken.text ⟨true, digits, hne, hshort⟩).tail
        = HexToken.value ⟨true, digits, hne, hshort⟩ := by
      have hbytes : bytes "0x" = [0x30, 0x78] := by decide
      rw [HexToken.text, if_pos rfl, hbytes, List.cons_append, List.tail_cons,
        str2hex_append_of_zero (by decide), str2hex_digits]
      rfl
    exact iff_of_true htail rfl
  | false =>
    obtain ⟨d, ds, rfl⟩ := List.exists_cons_of_ne_nil hne
    have hlt := HexToken.number_lt ⟨false, d :: ds, hne, hshort⟩
    rw [HexToken.text, if_neg Bool.false_ne_true, List.nil_append, List.map_cons, List.tail_cons,
      List.head?_cons, Option.some.injEq, d.char_ok.2.2.2.2, str2hex_digits]
    exact digitsValue_tail_iff hlt

end Vpx3.Cmd
