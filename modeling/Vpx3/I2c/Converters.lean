import Vpx3.I2c.ThreadMain
import Vpx3.Lib.Checked

namespace Vpx3.I2c

open Checked

/-!
# Voltage converters — the three functions of `LTC2991.c` in C arithmetic

The converters for single-ended, supply and differential voltages take a 15-bit code apart
into sign and magnitude and multiply.  Here each step is an operation of `int16_t` or `int`
that has no result when it overflows.

* `codeToVoltage` — the body they share; they differ in the mask on the magnitude and in an
  offset;
* `signedVoltages_iff` — they give the signed code times the weight, agree and are monotone
  exactly when no code is `0x4000` (or the weight is zero): the mask of the single-ended
  converter is one bit short.
-/

/-- The code without its sign: with bit 14 set, `(adc_code ^ 0x7FFF) + 1` stored to an
    `int16_t`. -/
def toBinary (adcCode : Word) : Option Word :=
  if adcCode.sshiftRight 14 ≠ 0 then
    (add 16 (adcCode ^^^ 0x7FFF).toInt 1).map (BitVec.ofInt 16)
  else some adcCode

/-- The body of the voltage converters: `keep` is what becomes of the magnitude before the
    multiplications. -/
def codeToVoltage (keep : Word → Word) (offset : Int) (adcCode : Word) (lsb : Int) :
    Option Int := do
  let sign : Int := if adcCode.sshiftRight 14 ≠ 0 then -1 else 1
  let adcCode ← toBinary adcCode
  let product ← mul 32 (keep adcCode).toInt lsb
  let voltage ← mul 32 product sign
  add 32 voltage offset

/-- `LTC2991_code_to_single_ended_voltage` in C arithmetic. -/
def ltc2991CodeToSingleEndedVoltageChecked (adcCode : Word) (lsb : Int) : Option Int :=
  codeToVoltage (· &&& 0x3FFF) 0 adcCode lsb

/-- `LTC2991_code_to_vcc_voltage`. -/
def ltc2991CodeToVccVoltage (adcCode : Word) (lsb : Int) : Option Int :=
  codeToVoltage id 2 adcCode lsb

/-- `LTC2991_code_to_differential_voltage`. -/
def ltc2991CodeToDifferentialVoltage (adcCode : Word) (lsb : Int) : Option Int :=
  codeToVoltage id 0 adcCode lsb

/-! ### Sign and magnitude -/

/-- The magnitude of a 15-bit code: the code, or what is missing to `2 ^ 15`. -/
def magnitude (code : BitVec 15) : ℕ :=
  if code.toNat < 2 ^ 14 then code.toNat else 2 ^ 15 - code.toNat

theorem magnitude_le (code : BitVec 15) : magnitude code ≤ 2 ^ 14 := by
  rw [magnitude]
  split <;> omega

/-- Sign times magnitude is the value of the code. -/
theorem toInt_eq_magnitude (code : BitVec 15) :
    code.toInt = (magnitude code : Int) * if code.toNat < 2 ^ 14 then 1 else -1 := by
  have hlt := code.isLt
  rw [BitVec.toInt_eq_toNat_cond, magnitude]
  split <;> split <;> omega

/-- Only the most negative code has a magnitude that does not fit the mask. -/
theorem magnitude_mod (code : BitVec 15) :
    magnitude code % 2 ^ 14 = if code = 0x4000 then 0 else magnitude code := by
  have hlt := code.isLt
  have hcode : code = 0x4000 ↔ code.toNat = 2 ^ 14 := by
    rw [← BitVec.toNat_inj]
    rfl
  rw [magnitude]
  by_cases h : code = 0x4000
  · rw [if_pos h, hcode.mp h]
    rfl
  · have hne := mt hcode.mpr h
    rw [if_neg h]
    split
    · exact Nat.mod_eq_of_lt ‹_›
    · exact Nat.mod_eq_of_lt (by omega)

/-- A code in an `int16_t`. -/
theorem setWidth_toNat (code : BitVec 15) : (code.setWidth 16).toNat = code.toNat := by
  have hlt := code.isLt
  rw [BitVec.toNat_setWidth]
  omega

/-- The sign test of the converters is the one of the code. -/
theorem sign_iff (code : BitVec 15) :
    (code.setWidth 16).sshiftRight 14 ≠ 0 ↔ ¬code.toNat < 2 ^ 14 := by
  have hlt : (code.setWidth 16).toNat < 2 ^ 15 := by
    rw [setWidth_toNat]
    exact code.isLt
  rw [sshiftRight_14_ne_zero hlt, setWidth_toNat, Nat.not_lt]

/-- Without its sign a code is its magnitude, and `int16_t` holds it. -/
theorem toBinary_eq (code : BitVec 15) :
    toBinary (code.setWidth 16) = some (BitVec.ofNat 16 (magnitude code)) := by
  have hlt := code.isLt
  have hle := magnitude_le code
  rw [toBinary]
  by_cases hpos : code.toNat < 2 ^ 14
  · rw [if_neg (mt (sign_iff code).mp (not_not.mpr hpos)), magnitude, if_pos hpos]
    congr 1
    apply BitVec.eq_of_toNat_eq
    rw [setWidth_toNat, BitVec.toNat_ofNat, Nat.mod_eq_of_lt (by omega)]
  · have hflip : (code.setWidth 16 ^^^ 0x7FFF).toNat = 2 ^ 15 - 1 - code.toNat := by
      rw [BitVec.toNat_xor, setWidth_toNat]
      exact Bits.xor_mask hlt
    have hint : (code.setWidth 16 ^^^ 0x7FFF).toInt = ((2 ^ 15 - 1 - code.toNat : ℕ) : Int) := by
      rw [BitVec.toInt_eq_toNat_of_lt (by rw [hflip]; omega), hflip]
    -- complement and one: what is missing to `2 ^ 15`
    have hmag : ((2 ^ 15 - 1 - code.toNat : ℕ) : Int) + 1 = (magnitude code : Int) := by
      rw [magnitude, if_neg hpos]
      omega
    rw [if_pos ((sign_iff code).mpr hpos), hint, add_of_abs (by rw [hmag, Nat.abs_cast]; omega),
      hmag, Option.map_some, BitVec.ofInt_natCast]

/-- **The shared body.**  Whatever of the magnitude is kept, the result is sign times kept
    magnitude times weight plus offset, and no step overflows. -/
theorem codeToVoltage_eq (keep : Word → Word) (offset : Int) (code : BitVec 15) (lsb : Int)
    {kept : ℕ} (hkeep : (keep (BitVec.ofNat 16 (magnitude code))).toInt = kept)
    (hkept : kept ≤ 2 ^ 14) (hlsb : 2 ^ 14 * |lsb| < 2 ^ 31) (hoffset : |offset| < 2 ^ 14) :
    codeToVoltage keep offset (code.setWidth 16) lsb
      = some (kept * lsb * (if code.toNat < 2 ^ 14 then 1 else -1) + offset) := by
  have hone : (if (code.setWidth 16).sshiftRight 14 ≠ 0 then (-1 : Int) else 1)
      = if code.toNat < 2 ^ 14 then 1 else -1 := by
    by_cases hpos : code.toNat < 2 ^ 14
    · rw [if_neg (mt (sign_iff code).mp (not_not.mpr hpos)), if_pos hpos]
    · rw [if_pos ((sign_iff code).mpr hpos), if_neg hpos]
  -- the weight leaves room for the offset
  have hweight : |lsb| ≤ 2 ^ 17 - 1 := by omega
  have hkeptAbs : |(kept : Int)| ≤ 2 ^ 14 := by
    rw [Nat.abs_cast]
    exact_mod_cast hkept
  have hproduct : |(kept : Int) * lsb| ≤ 2 ^ 14 * (2 ^ 17 - 1) := by
    rw [abs_mul]
    exact mul_le_mul hkeptAbs hweight (abs_nonneg _) (by norm_num)
  have hsigned : |(kept : Int) * lsb * (if code.toNat < 2 ^ 14 then 1 else -1)|
      = |(kept : Int) * lsb| := by
    split
    · rw [mul_one]
    · rw [mul_neg_one, abs_neg]
  have hsum := abs_add_le ((kept : Int) * lsb * (if code.toNat < 2 ^ 14 then 1 else -1)) offset
  rw [codeToVoltage]
  simp only [toBinary_eq, hone, Option.bind_eq_bind, Option.bind_some, hkeep]
  rw [mul_of_abs_le hkeptAbs hweight (by norm_num), Option.bind_some, mul, checked_of_abs
    (by rw [hsigned]; omega), Option.bind_some, add_of_abs (by omega)]

/-! ### The three converters -/

section
variable (code : BitVec 15) {lsb : Int} (hlsb : 2 ^ 14 * |lsb| < 2 ^ 31)
include hlsb

/-- Without a mask the magnitude is kept as it is. -/
theorem codeToVoltage_id {offset : Int} (hoffset : |offset| < 2 ^ 14) :
    codeToVoltage id offset (code.setWidth 16) lsb = some (code.toInt * lsb + offset) := by
  have hle := magnitude_le code
  have hkeep : (id (BitVec.ofNat 16 (magnitude code))).toInt = (magnitude code : Int) := by
    have hnat : (BitVec.ofNat 16 (magnitude code)).toNat = magnitude code := by
      rw [BitVec.toNat_ofNat, Nat.mod_eq_of_lt (by omega)]
    rw [id, BitVec.toInt_eq_toNat_of_lt (by rw [hnat]; omega), hnat]
  rw [codeToVoltage_eq id offset code lsb hkeep hle hlsb hoffset, toInt_eq_magnitude]
  congr 2
  ring

/-- The mask keeps 14 bits of the magnitude. -/
theorem codeToSingleEndedVoltage_eq :
    ltc2991CodeToSingleEndedVoltageChecked (code.setWidth 16) lsb
      = some ((magnitude code % 2 ^ 14 : ℕ) * lsb * if code.toNat < 2 ^ 14 then 1 else -1) := by
  have hle := magnitude_le code
  have hnat : (BitVec.ofNat 16 (magnitude code)).toNat = magnitude code := by
    rw [BitVec.toNat_ofNat, Nat.mod_eq_of_lt (by omega)]
  have hkeep := toInt_and_mask (BitVec.ofNat 16 (magnitude code)) 0x3FFF 14 (by omega) (by decide)
  rw [hnat] at hkeep
  rw [ltc2991CodeToSingleEndedVoltageChecked, codeToVoltage_eq (· &&& 0x3FFF) 0 code lsb hkeep
    ((Nat.mod_le _ _).trans hle) hlsb (by norm_num), add_zero]

/-- It computes what the converter without overflow does. -/
theorem codeToSingleEndedVoltage_checked :
    ltc2991CodeToSingleEndedVoltageChecked (code.setWidth 16) lsb
      = some (ltc2991CodeToSingleEndedVoltage (code.setWidth 16) lsb) := by
  have hlt := code.isLt
  rw [codeToSingleEndedVoltage_eq code hlsb,
    ltc2991CodeToSingleEndedVoltage_eq lsb (by rw [setWidth_toNat]; exact hlt), setWidth_toNat,
    magnitude]
  split
  · rename_i hpos
    rw [Nat.mod_eq_of_lt hpos, mul_one]
  · rw [mul_neg_one]

/-- It loses the magnitude of the code `0x4000`, and no other. -/
theorem codeToSingleEndedVoltage_iff :
    ltc2991CodeToSingleEndedVoltageChecked (code.setWidth 16) lsb = some (code.toInt * lsb)
      ↔ lsb = 0 ∨ code ≠ 0x4000 := by
  rw [codeToSingleEndedVoltage_eq code hlsb, Option.some.injEq, magnitude_mod]
  by_cases hcode : code = 0x4000
  · rw [if_pos hcode, hcode, Nat.cast_zero, zero_mul, zero_mul,
      show (0x4000 : BitVec 15).toInt = -2 ^ 14 by decide]
    constructor
    · exact fun h => Or.inl (by omega)
    · rintro (h | h)
      · omega
      · exact absurd rfl h
  · rw [if_neg hcode, toInt_eq_magnitude]
    exact iff_of_true (by ring) (Or.inr hcode)

end

/-- The converters with their offsets. -/
def voltageConverters : List ((Word → Int → Option Int) × Int) :=
  [(ltc2991CodeToSingleEndedVoltageChecked, 0), (ltc2991CodeToDifferentialVoltage, 0),
    (ltc2991CodeToVccVoltage, 2)]

/-- Without overflow each converter gives the value of the code times the weight, plus its
    offset. -/
def Converts (code : BitVec 15) (lsb : Int) : Prop :=
  ∀ f ∈ voltageConverters, f.1 (code.setWidth 16) lsb = some (code.toInt * lsb + f.2)

/-- Only the single-ended converter can miss that. -/
theorem converts_iff (code : BitVec 15) {lsb : Int} (hlsb : 2 ^ 14 * |lsb| < 2 ^ 31) :
    Converts code lsb ↔ lsb = 0 ∨ code ≠ 0x4000 := by
  rw [← codeToSingleEndedVoltage_iff code hlsb, Converts]
  simp only [voltageConverters, List.forall_mem_cons, List.not_mem_nil, false_imp_iff,
    implies_true, and_true, add_zero]
  refine and_iff_left ⟨?_, codeToVoltage_id code hlsb (by norm_num)⟩
  rw [ltc2991CodeToDifferentialVoltage, codeToVoltage_id code hlsb (by norm_num), add_zero]

/-- The converters on two codes: each gives the signed value, the two without an offset agree,
    and each is monotone in the value of the code, in the direction of the weight. -/
structure SignedVoltages (code code' : BitVec 15) (lsb : Int) : Prop where
  converts : Converts code lsb
  converts' : Converts code' lsb
  agree : ltc2991CodeToSingleEndedVoltageChecked (code.setWidth 16) lsb
    = ltc2991CodeToDifferentialVoltage (code.setWidth 16) lsb
  monotone : ∀ f ∈ voltageConverters, ∀ v v', f.1 (code.setWidth 16) lsb = some v →
    f.1 (code'.setWidth 16) lsb = some v' → code.toInt ≤ code'.toInt →
      (0 ≤ lsb → v ≤ v') ∧ (lsb ≤ 0 → v' ≤ v)

/-- **Signed conversion.**  For every weight of which `2 ^ 14` times the magnitude fits an
    `int` and every two codes, the converters treat the codes as signed quantities if and only
    if neither is the most negative one, `0x4000`, or the weight is zero. -/
theorem signedVoltages_iff (code code' : BitVec 15) (lsb : Int)
    (hlsb : 2 ^ 14 * |lsb| < 2 ^ 31) :
    SignedVoltages code code' lsb ↔ lsb = 0 ∨ (code ≠ 0x4000 ∧ code' ≠ 0x4000) := by
  rw [or_and_left, ← converts_iff code hlsb, ← converts_iff code' hlsb]
  constructor
  · exact fun h => ⟨h.converts, h.converts'⟩
  · rintro ⟨h, h'⟩
    refine ⟨h, h', ?_, fun f hf v v' hv hv' hle => ?_⟩
    · have hsingle := h _ (List.mem_cons_self ..)
      have hdiff := h _ (List.mem_cons_of_mem _ (List.mem_cons_self ..))
      exact hsingle.trans hdiff.symm
    · -- both values are products with the weight
      obtain rfl := Option.some.inj ((h f hf).symm.trans hv)
      obtain rfl := Option.some.inj ((h' f hf).symm.trans hv')
      refine ⟨fun hpos => ?_, fun hneg => ?_⟩
      · have := mul_le_mul_of_nonneg_right hle hpos
        omega
      · have := mul_le_mul_of_nonpos_right hle hneg
        omega

/-- One volt and its negative, at the weight in use. -/
theorem signedVoltages_volt : SignedVoltages 0x7332 0x0CCE ltc2991SingleEndedLsb :=
  (signedVoltages_iff 0x7332 0x0CCE ltc2991SingleEndedLsb (by decide)).mpr (Or.inr (by decide))

/-- The most negative code is five volts below zero for the differential converter and zero
    volts for the single-ended one. -/
theorem not_signedVoltages :
    ¬SignedVoltages 0x4000 0x7FFF ltc2991SingleEndedLsb
      ∧ ltc2991CodeToSingleEndedVoltageChecked 0x4000 ltc2991SingleEndedLsb = some 0
      ∧ ltc2991CodeToDifferentialVoltage 0x4000 ltc2991SingleEndedLsb = some (-4997120) := by
  refine ⟨fun h => ?_, by decide, by decide⟩
  exact absurd h.agree (by decide)

end Vpx3.I2c
