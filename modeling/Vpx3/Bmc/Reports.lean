import Vpx3.Bmc.Publish
import Vpx3.I2c.Converters

namespace Vpx3.Bmc

open I2c Checked

/-!
# Reports — the records of a healthy pass of `sensor_read`

* `sensorinfoChecked` — sign and digits of a converted value in C arithmetic;
* `Digits` — a record that shows a value truncated to hundredths;
* `FaithfulRecord` — the record of a converted value: computed without overflow, showing it,
  and monotone in its magnitude;
* `sensorRead_faithful` — in a pass in which every channel has a first good word in time, the
  records are those of these words, read from the registers V1, V3, V5, V7 of the temperature
  chip and V1 to V6 of the voltage chip.
-/

/-! ### The records in C arithmetic -/

/-- The record of a converted value, with the negation of an `int`. -/
def sensorinfoChecked (value whole part : Int) : Option StSensorinfo := do
  let sign := if value < 0 then negative else positive
  let value ← if value < 0 then sub 32 0 value else some value
  some { sign := sign
         hvtemp := value.tdiv whole
         lvtemp := (value.tmod whole).tdiv part }

/-- `LTC2991_temperature` called with `unit = 1`. -/
def ltc2991TemperatureChecked (adcCode : Word) (lsb : Int) : Option Int :=
  mul 32 (adcCode &&& 0x1FFF).toInt lsb

/-- The record of a temperature code, every step in C arithmetic. -/
def temperatureRecordChecked (adcCode : Word) : Option StSensorinfo := do
  let temperature ← ltc2991TemperatureChecked adcCode ltc2991TemperatureLsb
  sensorinfoChecked temperature 10000 100

/-- The record of a voltage code. -/
def voltageRecordChecked (adcCode : Word) : Option StSensorinfo := do
  let voltage ← ltc2991CodeToSingleEndedVoltageChecked adcCode ltc2991SingleEndedLsb
  sensorinfoChecked voltage 1000000 10000

/-- A value above the bottom of `int` has a record. -/
theorem sensorinfoChecked_eq {value : Int} (h : |value| < 2 ^ 31) (whole part : Int) :
    sensorinfoChecked value whole part = some (sensorinfoOf value whole part) := by
  have hneg : sub 32 0 value = some (0 - value) := by
    refine sub_of_abs ?_
    rw [zero_sub, abs_neg]
    exact h
  rw [sensorinfoChecked, sensorinfoOf]
  by_cases hsign : value < 0
  · simp only [if_pos hsign, hneg, Option.bind_eq_bind, Option.bind_some]
  · simp only [if_neg hsign, Option.bind_eq_bind, Option.bind_some]

/-- The temperature of a word, in ten-thousandths. -/
def temperatureOf (word : Word) : Int :=
  ltc2991Temperature (AdcOut.ofWord word).adcCode ltc2991TemperatureLsb 1

/-- The voltage of a word, in microvolts. -/
def voltageOf (word : Word) : Int :=
  ltc2991CodeToSingleEndedVoltage (AdcOut.ofWord word).adcCode ltc2991SingleEndedLsb

theorem abs_temperatureOf_lt (word : Word) : |temperatureOf word| < 2 ^ 31 := by
  have hlsb : ltc2991TemperatureLsb = 625 := rfl
  rw [temperatureOf, ltc2991Temperature_kelvin, hlsb, abs_lt]
  omega

theorem abs_voltageOf_lt (word : Word) : |voltageOf word| < 2 ^ 31 := by
  have hlsb : ltc2991SingleEndedLsb = 305 := rfl
  rw [voltageOf, ltc2991CodeToSingleEndedVoltage_eq _ (AdcOut.ofWord_adcCode_lt word), hlsb, abs_lt]
  split <;> omega

/-- No step from a temperature code to its record overflows. -/
theorem temperatureRecordChecked_eq (word : Word) :
    temperatureRecordChecked (AdcOut.ofWord word).adcCode
      = some (temperatureRecord (AdcOut.ofWord word).adcCode) := by
  have hvalue : ((AdcOut.ofWord word).adcCode &&& 0x1FFF).toInt * ltc2991TemperatureLsb
      = temperatureOf word := by
    rw [temperatureOf, ltc2991Temperature_kelvin, toInt_and_mask _ 0x1FFF 13 (by omega) (by decide)]
  have habs := abs_temperatureOf_lt word
  rw [temperatureRecordChecked, ltc2991TemperatureChecked, mul, hvalue, checked_of_abs habs]
  exact sensorinfoChecked_eq habs 10000 100

/-- No step from a voltage code to its record overflows. -/
theorem voltageRecordChecked_eq (word : Word) :
    voltageRecordChecked (AdcOut.ofWord word).adcCode
      = some (voltageRecord (AdcOut.ofWord word).adcCode) := by
  have hlt := AdcOut.ofWord_adcCode_lt word
  have hcode : (AdcOut.ofWord word).adcCode
      = ((AdcOut.ofWord word).adcCode.setWidth 15).setWidth 16 := by
    apply BitVec.eq_of_toNat_eq
    rw [BitVec.toNat_setWidth, BitVec.toNat_setWidth]
    omega
  have hvalue : ltc2991CodeToSingleEndedVoltageChecked (AdcOut.ofWord word).adcCode
      ltc2991SingleEndedLsb = some (voltageOf word) := by
    rw [voltageOf, hcode, codeToSingleEndedVoltage_checked _ (by decide)]
  rw [voltageRecordChecked, hvalue]
  exact sensorinfoChecked_eq (abs_voltageOf_lt word) 1000000 10000

/-! ### Digits -/

/-- The magnitude a record shows, in hundredths. -/
def hundredths (r : StSensorinfo) : Int := 100 * r.hvtemp + r.lvtemp

/-- The record shows the value `v`, of which `S` units are one: sign apart, the magnitude
    truncated to hundredths. -/
structure Digits (v S : Int) (r : StSensorinfo) : Prop where
  negative_iff : r.sign = negative ↔ v < 0
  positive_iff : r.sign = positive ↔ 0 ≤ v
  hvtemp_nonneg : 0 ≤ r.hvtemp
  lvtemp_nonneg : 0 ≤ r.lvtemp
  lvtemp_le : r.lvtemp ≤ 99
  lower : r.hvtemp * S + r.lvtemp * (S / 100) ≤ |v|
  upper : |v| < r.hvtemp * S + (r.lvtemp + 1) * (S / 100)

/-- The two digits a magnitude `n` is split into bracket it. -/
theorem digits_bracket (n : ℕ) {part : ℕ} (hpart : 0 < part) :
    n % (100 * part) / part ≤ 99
      ∧ n / (100 * part) * (100 * part) + n % (100 * part) / part * part ≤ n
      ∧ n < n / (100 * part) * (100 * part) + (n % (100 * part) / part + 1) * part := by
  have hsplit := Nat.div_add_mod' n (100 * part)
  have hrest := Nat.div_add_mod' (n % (100 * part)) part
  have hmod := Nat.mod_lt n (show 0 < 100 * part by omega)
  have hlast := Nat.mod_lt (n % (100 * part)) hpart
  have hlv : n % (100 * part) / part < 100 := (Nat.div_lt_iff_lt_mul hpart).mpr hmod
  rw [Nat.add_mul, Nat.one_mul]
  omega

/-- The record both loops build shows its value. -/
theorem Digits.sensorinfoOf (v : Int) {part : ℕ} (hpart : 0 < part) :
    Digits v (100 * part : ℕ) (sensorinfoOf v (100 * part : ℕ) part) := by
  obtain ⟨hlv, hlower, hupper⟩ := digits_bracket v.natAbs hpart
  have hscale : ((100 * part : ℕ) : Int) / 100 = part := by omega
  rw [sensorinfoOf_eq]
  generalize v.natAbs / (100 * part) = hv at hlower hupper ⊢
  generalize v.natAbs % (100 * part) / part = lv at hlv hlower hupper ⊢
  refine ⟨?_, ?_, Int.natCast_nonneg _, Int.natCast_nonneg _, ?_, ?_, ?_⟩
  · dsimp only
    split
    · exact iff_of_true rfl ‹_›
    · exact iff_of_false (by decide) ‹_›
  · dsimp only
    split
    · exact iff_of_false (by decide) (by omega)
    · exact iff_of_true rfl (by omega)
  · show (lv : Int) ≤ 99
    exact_mod_cast hlv
  · rw [hscale, Int.abs_eq_natAbs]
    show (hv : Int) * (100 * part : ℕ) + (lv : Int) * part ≤ v.natAbs
    exact_mod_cast hlower
  · rw [hscale, Int.abs_eq_natAbs]
    show (v.natAbs : Int) < (hv : Int) * (100 * part : ℕ) + ((lv : Int) + 1) * part
    exact_mod_cast hupper

/-- The larger magnitude is not shown as the smaller. -/
theorem Digits.mono {v v' S : Int} {r r' : StSensorinfo} (hS : 0 < S) (hS' : S % 100 = 0)
    (h : Digits v S r) (h' : Digits v' S r') (hle : |v| ≤ |v'|) : hundredths r ≤ hundredths r' := by
  obtain ⟨part, rfl⟩ : ∃ part, S = 100 * part := ⟨S / 100, by omega⟩
  have hlower := h.lower
  have hupper := h'.upper
  rw [Int.mul_ediv_cancel_left _ (by decide)] at hlower hupper
  by_contra hgt
  -- otherwise the larger magnitude would lie below the smaller one's hundredth
  have hstep : hundredths r' + 1 ≤ hundredths r := by omega
  have hmul := mul_le_mul_of_nonneg_right hstep (show 0 ≤ part by omega)
  simp only [hundredths] at hmul
  nlinarith

/-! ### A healthy pass -/

/-- The registers `LTC2991_V1_MSB_REG` to `LTC2991_V8_MSB_REG`. -/
def ltc2991VMsbReg : ℕ → Byte
  | 1 => 0x0A
  | 2 => 0x0C
  | 3 => 0x0E
  | 4 => 0x10
  | 5 => 0x12
  | 6 => 0x14
  | 7 => 0x16
  | _ => 0x18

/-- Word `k i` after the flush is the first good one of channel `i`, in time: of V(2i+1) of the
    temperature chip for the first four, of V(i+1) of the voltage chip for the other six. -/
structure HealthyPass (env : RegEnv) (k : ℕ → ℕ) : Prop where
  temp : ∀ i < 4,
    FirstGood (fun j => env ltc2991I2cTempAddress (ltc2991VMsbReg (2 * i + 1)) (1 + j))
      ltc2991TempDelayMs.toNat (k i)
  volt : ∀ i < 6,
    FirstGood (fun j => env ltc2991I2cVAddress (ltc2991VMsbReg (i + 1)) (1 + j))
      ltc2991VDelayMs.toNat (k (4 + i))

/-- A record of the value `v`: each step in C arithmetic has a result, `recordChecked` is what
    they come to, the record shows the value, and no record of a value of at least that
    magnitude shows less. -/
structure FaithfulRecord (v S : Int) (recordChecked : Option StSensorinfo) (r : StSensorinfo) :
    Prop where
  checked : recordChecked = some r
  digits : Digits v S r
  monotone : ∀ v' r', Digits v' S r' → |v| ≤ |v'| → hundredths r ≤ hundredths r'

/-- A record that shows its value is faithful. -/
theorem FaithfulRecord.of_digits {v S : Int} {recordChecked : Option StSensorinfo}
    {r : StSensorinfo} (hchecked : recordChecked = some r) (hdigits : Digits v S r) (hS : 0 < S)
    (hS' : S % 100 = 0) : FaithfulRecord v S recordChecked r :=
  ⟨hchecked, hdigits, fun _ _ h' hle => hdigits.mono hS hS' h' hle⟩

/-- The record of a temperature word. -/
theorem temperatureRecord_faithful (word : Word) :
    FaithfulRecord (temperatureOf word) 10000
      (temperatureRecordChecked (AdcOut.ofWord word).adcCode)
      (temperatureRecord (AdcOut.ofWord word).adcCode) := by
  apply FaithfulRecord.of_digits (temperatureRecordChecked_eq word)
  · exact Digits.sensorinfoOf (temperatureOf word) (show 0 < 100 by omega)
  · omega
  · omega

/-- The record of a voltage word. -/
theorem voltageRecord_faithful (word : Word) :
    FaithfulRecord (voltageOf word) 1000000 (voltageRecordChecked (AdcOut.ofWord word).adcCode)
      (voltageRecord (AdcOut.ofWord word).adcCode) := by
  apply FaithfulRecord.of_digits (voltageRecordChecked_eq word)
  · exact Digits.sensorinfoOf (voltageOf word) (show 0 < 10000 by omega)
  · omega
  · omega

/-- The registers the two loops step through. -/
theorem sensorMsbReg_eq :
    (∀ i < 4, sensorAddress i = ltc2991I2cTempAddress ∧ sensorTimeout i = ltc2991TempDelayMs
      ∧ sensorMsbReg i = ltc2991VMsbReg (2 * i + 1))
    ∧ ∀ i < 6, sensorAddress (4 + i) = ltc2991I2cVAddress ∧ sensorTimeout (4 + i) = ltc2991VDelayMs
      ∧ sensorMsbReg (4 + i) = ltc2991VMsbReg (i + 1) := by
  decide

/-- The code delivered for a temperature in a healthy pass. -/
theorem HealthyPass.temp_code {env : RegEnv} {k : ℕ → ℕ} (h : HealthyPass env k) {i : ℕ}
    (hi : i < 4) : deliveredCode (envBus env) (fun _ _ => 0) i
      = (AdcOut.ofWord
          (env ltc2991I2cTempAddress (ltc2991VMsbReg (2 * i + 1)) (1 + k i)).word).adcCode := by
  obtain ⟨haddr, htimeout, hreg⟩ := sensorMsbReg_eq.1 i hi
  have hgood := h.temp i hi
  rw [← haddr, ← htimeout, ← hreg] at hgood
  rw [deliveredCode_firstGood env (by omega) hgood, haddr, hreg]

/-- The code delivered for a voltage. -/
theorem HealthyPass.volt_code {env : RegEnv} {k : ℕ → ℕ} (h : HealthyPass env k) {i : ℕ}
    (hi : i < 6) : deliveredCode (envBus env) (fun _ _ => 0) (4 + i)
      = (AdcOut.ofWord
          (env ltc2991I2cVAddress (ltc2991VMsbReg (i + 1)) (1 + k (4 + i))).word).adcCode := by
  obtain ⟨haddr, htimeout, hreg⟩ := sensorMsbReg_eq.2 i hi
  have hgood := h.volt i hi
  rw [← haddr, ← htimeout, ← hreg] at hgood
  rw [deliveredCode_firstGood env (by omega) hgood, haddr, hreg]

/-- **Faithful reports.**  For every behaviour of the two chips in which each channel has a
    first good word in time after its flush, record `i < 4` shows the temperature of that word
    of V(2i+1), record `4 + i` the voltage of that word of V(i+1), and nothing overflows. -/
theorem sensorRead_faithful (env : RegEnv) (table : SensorTable) (k : ℕ → ℕ)
    (h : HealthyPass env k) :
    (∀ i < 4,
      let word := (env ltc2991I2cTempAddress (ltc2991VMsbReg (2 * i + 1)) (1 + k i)).word
      FaithfulRecord (temperatureOf word) 10000
        (temperatureRecordChecked (AdcOut.ofWord word).adcCode)
        ((sensorRead (envBus env) table fun _ _ => 0).1 i))
    ∧ ∀ i < 6,
      let word := (env ltc2991I2cVAddress (ltc2991VMsbReg (i + 1)) (1 + k (4 + i))).word
      FaithfulRecord (voltageOf word) 1000000
        (voltageRecordChecked (AdcOut.ofWord word).adcCode)
        ((sensorRead (envBus env) table fun _ _ => 0).1 (4 + i)) := by
  refine ⟨fun i hi => ?_, fun i hi => ?_⟩
  · dsimp only
    rw [sensorRead_temp _ _ _ hi, h.temp_code hi]
    exact temperatureRecord_faithful _
  · dsimp only
    rw [sensorRead_volt _ _ _ hi, h.volt_code hi]
    exact voltageRecord_faithful _

/-- Chips that are not ready at the first read after the flush, then answer with code 16. -/
def slowChips : RegEnv := fun _ _ n => ⟨true, if n = 1 then [0x00, 0x10] else [0x80, 0x10]⟩

/-- A pass over them, one word late on every channel: ten degrees on the first sensor. -/
theorem sensorRead_faithful_slow :
    FaithfulRecord 10000 10000 (temperatureRecordChecked 16)
      ((sensorRead (envBus slowChips) (fun _ => ⟨positive, 0, 0⟩) fun _ _ => 0).1 0) := by
  have hfirst : ∀ a r n, 1 < n → FirstGood (fun j => slowChips a r (1 + j)) n 1 := by
    intro a r n hn
    refine ⟨hn, show (⟨true, [0x80, 0x10]⟩ : XferReply).Good by decide, fun j hj => ?_⟩
    obtain rfl : j = 0 := by omega
    exact (show (⟨true, [0x00, 0x10]⟩ : XferReply).NotReady by decide)
  have hpass : HealthyPass slowChips fun _ => 1 :=
    ⟨fun i _ => hfirst _ _ _ (by decide), fun i _ => hfirst _ _ _ (by decide)⟩
  exact (sensorRead_faithful slowChips (fun _ => ⟨positive, 0, 0⟩) (fun _ => 1) hpass).1 0
    (by omega)

end Vpx3.Bmc
