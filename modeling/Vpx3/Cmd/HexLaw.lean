import Vpx3.Cmd.Hex

namespace Vpx3.Cmd

open Vpx3.CStr

/-!
# Commands — the law of hexadecimal parsing

`rionet.c`, `fsl_rio.c` and the test program `str2hex.c` each have their own copy of `str2hex`.

* `str2hexLoop` — the loop over the memory, and `Rionet.str2hex`, `FslRio.str2hex`,
  `FunTest.str2hex` — the copies;
* `positional_append` — the value of two strings, one behind the other;
* `str2hexLoop_eq` — the loop folds the string up to its NUL into the accumulator;
* `rendering` — a number written down;
* `HexLaw`, `hexLaw` — digits, renderings and concatenations parse to their values.
-/

/-! ### The copies -/

/-- `while (*str) { value = value << 4; value |= str2hexnum(*str++); }`, then the `int` as an
    `unsigned long`. -/
def str2hexLoop : Nat → List Byte → Nat → Word → Except Fault Word
  | 0, _, _, _ => .error .fuel
  | fuel + 1, mem, str, value => do
    let c ← load mem str
    if c = 0 then return value else str2hexLoop fuel mem (str + 1) (hexDigit value c)

/-- `str2hex` of `rionet.c`, on the string at `str`. -/
def Rionet.str2hex (mem : List Byte) (str : Nat) : Except Fault Word :=
  str2hexLoop mem.length mem str 0

/-- `str2hex` of `fsl_rio.c`. -/
def FslRio.str2hex (mem : List Byte) (str : Nat) : Except Fault Word :=
  str2hexLoop mem.length mem str 0

/-- `str2hex` of `fun_test/str2hex.c`. -/
def FunTest.str2hex (mem : List Byte) (str : Nat) : Except Fault Word :=
  str2hexLoop mem.length mem str 0

/-! ### The value of a string -/

/-- Strings one behind the other. -/
theorem positional_append (s t : Str) :
    positional (s ++ t) = positional s * 16 ^ t.length + positional t := by
  rw [positional, positionalFrom, List.foldl_append]
  exact positionalFrom_eq t (positional s)

/-- Digits count for their values. -/
theorem positional_digits (ds : List Digit) :
    positional (ds.map Digit.char) = digitsValue 0 ds := positionalFrom_digits ds 0

/-- The mark `0x` counts for nothing. -/
theorem positional_mark : positional (bytes "0x") = 0 := by decide

/-- **The loop** folds the characters up to the NUL into the accumulator. -/
theorem str2hexLoop_eq (s : Str) (fuel : Nat) (pre post : List Byte) (str : Nat) (value : Word)
    (hstr : str = pre.length) (hs : 0 ∉ s) (hfuel : s.length < fuel) :
    str2hexLoop fuel (pre ++ (s ++ 0 :: post)) str value = .ok (s.foldl hexDigit value) := by
  induction s generalizing fuel pre str value with
  | nil =>
    obtain ⟨fuel, rfl⟩ := Nat.exists_eq_add_one.mpr (Nat.zero_lt_of_lt hfuel)
    rw [List.nil_append, str2hexLoop, load_append _ _ _ _ hstr, ok_bind, if_pos rfl]
    rfl
  | cons c s ih =>
    obtain ⟨fuel, rfl⟩ := Nat.exists_eq_add_one.mpr (Nat.zero_lt_of_lt hfuel)
    have hc : c ≠ 0 := fun h => hs (by simp [h])
    have hmem : pre ++ (c :: s ++ 0 :: post) = (pre ++ [c]) ++ (s ++ 0 :: post) := by simp
    rw [str2hexLoop, List.cons_append, load_append _ _ _ _ hstr, ok_bind, if_neg hc,
      ← List.cons_append, hmem]
    exact ih fuel (pre ++ [c]) (str + 1) _ (by simp [hstr])
      (fun h => hs (List.mem_cons_of_mem _ h)) (Nat.lt_of_succ_lt_succ hfuel)

/-! ### Numbers written down -/

/-- The digits of a number, the highest first; 0 has one digit. -/
def rendering (n : Nat) : List Nat := if n = 0 then [0] else (Nat.digits 16 n).reverse

/-- The digits of either case that write down `n`. -/
def Renders (ds : List Digit) (n : Nat) : Prop := ds.map (fun d => d.val.val) = rendering n

/-- Digits as a number in base 16. -/
theorem digitsValue_eq_ofDigits (ds : List Digit) :
    digitsValue 0 ds = Nat.ofDigits 16 (ds.map (fun d => d.val.val)).reverse := by
  rw [Nat.ofDigits_eq_foldr, List.foldr_reverse, List.foldl_map, digitsValue]
  congr 1
  funext n d
  exact Nat.add_comm _ _

/-- What is written down is read back. -/
theorem Renders.digitsValue_eq {ds : List Digit} {n : Nat} (h : Renders ds n) :
    digitsValue 0 ds = n := by
  rw [digitsValue_eq_ofDigits, show ds.map (fun d => d.val.val) = rendering n from h, rendering]
  split
  · next hzero => exact hzero.symm
  · rw [List.reverse_reverse, Nat.ofDigits_digits]

/-- Zeros in front count for nothing. -/
theorem digitsValue_zeros (k : Nat) (upper : Bool) (ds : List Digit) :
    digitsValue 0 (List.replicate k ⟨0, upper⟩ ++ ds) = digitsValue 0 ds := by
  induction k with
  | zero => rfl
  | succ k ih =>
    rw [List.replicate_succ, List.cons_append]
    exact ih

/-! ### The law -/

/-- Digits, with a `0x` in front or without. -/
def hexText (marked : Bool) (ds : List Digit) : Str :=
  (if marked then bytes "0x" else []) ++ ds.map Digit.char

theorem zero_notMem_hexText (marked : Bool) (ds : List Digit) : 0 ∉ hexText marked ds := by
  have hmark : (0 : Byte) ∉ bytes "0x" := by decide
  have hdigits : (0 : Byte) ∉ ds.map Digit.char := by
    intro h
    obtain ⟨d, -, hd⟩ := List.mem_map.mp h
    exact d.char_ok.2.2.2.1 hd
  rw [hexText, List.mem_append, not_or]
  refine ⟨?_, hdigits⟩
  split
  · exact hmark
  · exact List.not_mem_nil

theorem positional_hexText (marked : Bool) (ds : List Digit) :
    positional (hexText marked ds) = digitsValue 0 ds := by
  rw [hexText, positional_append, positional_digits]
  split
  · rw [positional_mark, Nat.zero_mul, Nat.zero_add]
  · simp [positional, positionalFrom]

/-- Wherever the string stands in memory, it parses to `v`. -/
def Parses (parse : List Byte → Nat → Except Fault Word) (s : Str) (v : Word) : Prop :=
  ∀ pre post, parse (pre ++ (s ++ 0 :: post)) pre.length = .ok v

/-- What a parser of hexadecimal numbers does. -/
structure HexLaw (parse : List Byte → Nat → Except Fault Word) : Prop where
  /-- Any number of digits, marked or not: their value modulo 2^32. -/
  digits : ∀ marked ds, Parses parse (hexText marked ds) (BitVec.ofNat 32 (digitsValue 0 ds))
  /-- A 32-bit number written down in either case, behind any number of zeros. -/
  rendered : ∀ marked k upper (n : Word) ds, Renders ds n.toNat →
    Parses parse (hexText marked (List.replicate k ⟨0, upper⟩ ++ ds)) n
  /-- Any two strings, one behind the other. -/
  append : ∀ s t, 0 ∉ s → 0 ∉ t →
    Parses parse s (BitVec.ofNat 32 (positional s))
      ∧ Parses parse t (BitVec.ofNat 32 (positional t))
      ∧ Parses parse (s ++ t) (BitVec.ofNat 32 (positional s * 16 ^ t.length + positional t))

/-- A parser that computes the positional value obeys the law. -/
theorem HexLaw.of_positional {parse : List Byte → Nat → Except Fault Word}
    (h : ∀ s, 0 ∉ s → Parses parse s (BitVec.ofNat 32 (positional s))) : HexLaw parse := by
  have hdigits (marked : Bool) (ds : List Digit) :
      Parses parse (hexText marked ds) (BitVec.ofNat 32 (digitsValue 0 ds)) := by
    rw [← positional_hexText marked ds]
    exact h _ (zero_notMem_hexText marked ds)
  refine ⟨hdigits, fun marked k upper n ds hrenders => ?_, fun s t hs ht => ⟨h s hs, h t ht, ?_⟩⟩
  · have hvalue := hdigits marked (List.replicate k ⟨0, upper⟩ ++ ds)
    rwa [digitsValue_zeros, hrenders.digitsValue_eq, BitVec.ofNat_toNat,
      BitVec.setWidth_eq] at hvalue
  · rw [← positional_append]
    refine h (s ++ t) fun hmem => ?_
    rcases List.mem_append.mp hmem with hmem | hmem
    · exact hs hmem
    · exact ht hmem

/-- The copies compute the positional value, as the handlers' `str2hex` does. -/
theorem parses_str2hexLoop (s : Str) (hs : 0 ∉ s) :
    Parses (fun mem str => str2hexLoop mem.length mem str 0) s
      (BitVec.ofNat 32 (positional s)) := by
  intro pre post
  have hfuel : s.length < (pre ++ (s ++ 0 :: post)).length := by
    simp only [List.length_append, List.length_cons]
    omega
  have hvalue : str2hex s = BitVec.ofNat 32 (positional s) := foldl_hexDigit_ofNat s 0
  rw [← hvalue]
  exact str2hexLoop_eq s _ pre post _ 0 rfl hs hfuel

/-- **Hexadecimal parsing.**  Each copy of `str2hex` obeys the law, and the copies do the same on
    every memory. -/
theorem hexLaw :
    HexLaw Rionet.str2hex ∧ HexLaw FslRio.str2hex ∧ HexLaw FunTest.str2hex
      ∧ ∀ mem str, Rionet.str2hex mem str = FslRio.str2hex mem str
        ∧ FslRio.str2hex mem str = FunTest.str2hex mem str := by
  refine ⟨?_, ?_, ?_, fun mem str => ⟨rfl, rfl⟩⟩
  · exact HexLaw.of_positional parses_str2hexLoop
  · exact HexLaw.of_positional parses_str2hexLoop
  · exact HexLaw.of_positional parses_str2hexLoop

end Vpx3.Cmd
