import Vpx3.I2c.Ltc2991
import Vpx3.Lib.Bits

namespace Vpx3.I2c

/-!
# Sensor module — `ThreadMain.c`

* `creatThreadMain` — the set-up at module load: two read-modify-writes of control registers
  on each of the two chips, then the channel enables;
* `sensorRead` — one pass over the ten channels.  Both of its loops have one shape,
  `readChannels`: they differ in the chip, the register stride, the timeout, the converter
  and the first record they fill;
* `deliveredCode` — the ADC code a pass works with for each channel, and
  `sensorRead_temp` / `sensorRead_volt`: record `i` is the conversion of code `i`.

`sensor_read` collects acknowledges in `ack` and the valid bits in `data_valid` and looks at
neither, so the model drops both.
-/

/-! ### Registers and bits of the chips -/

def ltc2991I2cTempAddress : Byte := 0x4D
def ltc2991I2cVAddress : Byte := 0x4B

def ltc2991ChannelEnableReg : Byte := 0x01
def ltc2991ControlV1234Reg : Byte := 0x06
def ltc2991ControlV5678Reg : Byte := 0x07
def ltc2991V1MsbReg : Byte := 0x0A

def ltc2991V3V4KelvinEnable : Byte := 0x40
def ltc2991V3V4TempEnable : Byte := 0x20
def ltc2991V3V4DifferentialEnable : Byte := 0x10
def ltc2991V1V2KelvinEnable : Byte := 0x04
def ltc2991V1V2TempEnable : Byte := 0x02
def ltc2991V1V2DifferentialEnable : Byte := 0x01

def ltc2991V7V8KelvinEnable : Byte := 0x40
def ltc2991V7V8TempEnable : Byte := 0x20
def ltc2991V5V6KelvinEnable : Byte := 0x04
def ltc2991V5V6TempEnable : Byte := 0x02
def ltc2991V5V6DifferentialEnable : Byte := 0x01

def ltc2991SingleEndedLsb : Int := 305
def ltc2991TemperatureLsb : Int := 625

def ltc2991VDelayMs : Word := 2
def ltc2991TempDelayMs : Word := 10

def sensorTMaxNum : ℕ := 4
def sensorVMaxNum : ℕ := 6
def sensorTempTotal : ℕ := 4

/-- `NEGATIVE` and `POSITIVE`, the two values of a record's sign. -/
def negative : Byte := 1
def positive : Byte := 0

variable {σ : Type}

/-! ### Set-up at module load -/

/-- `CreatThreadMain`: the state of the bus after it.  Its acknowledges only reach error
    messages. -/
def creatThreadMain (bus : I2cBus σ) (s : σ) : σ :=
  let s := (ltc2991RegisterSetClearBits bus ltc2991I2cVAddress ltc2991ControlV1234Reg 0x00
    (ltc2991V1V2DifferentialEnable ||| ltc2991V1V2TempEnable
      ||| ltc2991V3V4DifferentialEnable ||| ltc2991V3V4TempEnable) s).2
  let s := (ltc2991RegisterSetClearBits bus ltc2991I2cVAddress ltc2991ControlV5678Reg 0x00
    (ltc2991V5V6DifferentialEnable ||| ltc2991V5V6TempEnable) s).2
  let s := (ltc2991RegisterSetClearBits bus ltc2991I2cTempAddress ltc2991ControlV1234Reg
    (ltc2991V1V2TempEnable ||| ltc2991V3V4TempEnable) 0x00 s).2
  let s := (ltc2991RegisterSetClearBits bus ltc2991I2cTempAddress ltc2991ControlV5678Reg
    (ltc2991V5V6TempEnable ||| ltc2991V7V8TempEnable) 0x00 s).2
  let s := (i2cWriteByteData bus ltc2991I2cVAddress ltc2991ChannelEnableReg 0xf0 s).2
  (i2cWriteByteData bus ltc2991I2cTempAddress ltc2991ChannelEnableReg 0xf0 s).2

/-! ### The records -/

/-- `st_sensorinfo`: one entry of `stasensor_value`. -/
@[ext] structure StSensorinfo where
  sign : Byte
  hvtemp : Int
  lvtemp : Int
  deriving DecidableEq, Repr

/-- The array `stasensor_value`: four temperatures, then six voltages. -/
abbrev SensorTable := ℕ → StSensorinfo

/-- The record both loops build from a converted value: sign, then the magnitude split at
    `whole` and the rest at `part`. -/
def sensorinfoOf (value whole part : Int) : StSensorinfo :=
  let sign := if value < 0 then negative else positive
  -- division and remainder of C, on a magnitude
  let value := if value < 0 then 0 - value else value
  { sign := sign
    hvtemp := value.tdiv whole
    lvtemp := (value.tmod whole).tdiv part }

/-- The record of a temperature code: `LTC2991_temperature` called with `unit = 1`. -/
def temperatureRecord (adcCode : Word) : StSensorinfo :=
  sensorinfoOf (ltc2991Temperature adcCode ltc2991TemperatureLsb 1) 10000 100

/-- The record of a voltage code. -/
def voltageRecord (adcCode : Word) : StSensorinfo :=
  sensorinfoOf (ltc2991CodeToSingleEndedVoltage adcCode ltc2991SingleEndedLsb) 1000000 10000

/-! ### One pass over the channels -/

/-- A loop of `sensor_read` with `n` channels to go: the next one is read at register `reg`
    and fills record `index`. -/
def readChannels (bus : I2cBus σ) (address stride : Byte) (timeout : Word)
    (record : Word → StSensorinfo) :
    ℕ → ℕ → Byte → SensorTable → σ → SensorTable × σ
  | 0, _, _, table, s => (table, s)
  | n + 1, index, reg, table, s =>
    let (_, out, s) := ltc2991AdcReadNewData bus address reg timeout s
    readChannels bus address stride timeout record n (index + 1) (reg + stride)
      (Function.update table index (record out.adcCode)) s

/-- The temperature loop. -/
def readTemperatures (bus : I2cBus σ) (table : SensorTable) (s : σ) : SensorTable × σ :=
  readChannels bus ltc2991I2cTempAddress 0x04 ltc2991TempDelayMs temperatureRecord
    sensorTMaxNum 0 ltc2991V1MsbReg table s

/-- The voltage loop. -/
def readVoltages (bus : I2cBus σ) (table : SensorTable) (s : σ) : SensorTable × σ :=
  readChannels bus ltc2991I2cVAddress 0x02 ltc2991VDelayMs voltageRecord
    sensorVMaxNum sensorTempTotal ltc2991V1MsbReg table s

/-- `sensor_read` up to `copy_to_user`: the module's table and the bus afterwards. -/
def sensorRead (bus : I2cBus σ) (table : SensorTable) (s : σ) : SensorTable × σ :=
  let (table, s) := readTemperatures bus table s
  readVoltages bus table s

/-! ### The code delivered for each channel -/

/-- The state in which a loop that starts at `reg` in state `s` comes to its `i`-th channel. -/
def channelState (bus : I2cBus σ) (address stride : Byte) (timeout : Word) (reg : Byte) (s : σ) :
    ℕ → σ
  | 0 => s
  | i + 1 =>
    channelState bus address stride timeout (reg + stride)
      (ltc2991AdcReadNewData bus address reg timeout s).2.2 i

/-- The code a loop gets for its `i`-th channel. -/
def channelCode (bus : I2cBus σ) (address stride : Byte) (timeout : Word) (reg : Byte) (s : σ) :
    ℕ → Word
  | 0 => (ltc2991AdcReadNewData bus address reg timeout s).2.1.adcCode
  | i + 1 =>
    channelCode bus address stride timeout (reg + stride)
      (ltc2991AdcReadNewData bus address reg timeout s).2.2 i

/-- The loop fills the records of its channels with the conversions of their codes, leaves
    the other records alone and ends in the state after its last channel. -/
theorem readChannels_spec (bus : I2cBus σ) (address stride : Byte) (timeout : Word)
    (record : Word → StSensorinfo) (n index : ℕ) (reg : Byte) (table : SensorTable) (s : σ) :
    (∀ i, (readChannels bus address stride timeout record n index reg table s).1 i =
      if index ≤ i ∧ i < index + n then
        record (channelCode bus address stride timeout reg s (i - index))
      else table i) ∧
    (readChannels bus address stride timeout record n index reg table s).2
      = channelState bus address stride timeout reg s n := by
  induction n generalizing index reg table s with
  | zero =>
    refine ⟨fun i => ?_, rfl⟩
    rw [if_neg (by omega)]
    rfl
  | succ n ih =>
    rw [readChannels]
    dsimp only
    obtain ⟨htable, hstate⟩ := ih (index + 1) (reg + stride)
      (Function.update table index
        (record (ltc2991AdcReadNewData bus address reg timeout s).2.1.adcCode))
      (ltc2991AdcReadNewData bus address reg timeout s).2.2
    refine ⟨fun i => ?_, hstate⟩
    rw [htable i]
    rcases Nat.lt_trichotomy i index with hlt | rfl | hgt
    · -- a record before the loop's first channel
      rw [if_neg (by omega), if_neg (by omega), Function.update_of_ne (by omega)]
    · -- the record of the channel just read
      rw [if_neg (by omega), if_pos (by omega), Function.update_self, Nat.sub_self]
      rfl
    · -- a record of the channels still to go, or beyond them
      obtain ⟨k, rfl⟩ : ∃ k, i = index + 1 + k := ⟨i - (index + 1), by omega⟩
      rw [show index + 1 + k - (index + 1) = k by omega,
        show index + 1 + k - index = k + 1 by omega, Function.update_of_ne (by omega)]
      by_cases hk : k < n
      · rw [if_pos (by omega), if_pos (by omega)]
        rfl
      · rw [if_neg (by omega), if_neg (by omega)]

/-- The bus after the temperature loop of a pass that starts in `s`. -/
def afterTemperatures (bus : I2cBus σ) (s : σ) : σ :=
  channelState bus ltc2991I2cTempAddress 0x04 ltc2991TempDelayMs ltc2991V1MsbReg s sensorTMaxNum

/-- The ADC code a pass of `sensor_read` that starts in `s` gets for the sensor of record `i`. -/
def deliveredCode (bus : I2cBus σ) (s : σ) (i : ℕ) : Word :=
  if i < sensorTempTotal then
    channelCode bus ltc2991I2cTempAddress 0x04 ltc2991TempDelayMs ltc2991V1MsbReg s i
  else
    channelCode bus ltc2991I2cVAddress 0x02 ltc2991VDelayMs ltc2991V1MsbReg
      (afterTemperatures bus s) (i - sensorTempTotal)

/-- **Temperature records.**  After a pass record `i < 4` is the conversion of code `i`. -/
theorem sensorRead_temp (bus : I2cBus σ) (table : SensorTable) (s : σ) {i : ℕ} (hi : i < 4) :
    (sensorRead bus table s).1 i = temperatureRecord (deliveredCode bus s i) := by
  unfold sensorRead readTemperatures readVoltages
  dsimp only
  -- the voltage loop comes later and fills other records
  have hvolt : ¬(sensorTempTotal ≤ i ∧ i < sensorTempTotal + sensorVMaxNum) :=
    fun h => absurd h.1 (Nat.not_le.mpr hi)
  have htemp : 0 ≤ i ∧ i < 0 + sensorTMaxNum := ⟨Nat.zero_le i, by rw [Nat.zero_add]; exact hi⟩
  rw [(readChannels_spec ..).1 i, if_neg hvolt, (readChannels_spec ..).1 i, if_pos htemp,
    deliveredCode, if_pos (show i < sensorTempTotal from hi), Nat.sub_zero]

/-- **Voltage records.**  After a pass record `4 + i` with `i < 6` is the conversion of its
    code. -/
theorem sensorRead_volt (bus : I2cBus σ) (table : SensorTable) (s : σ) {i : ℕ} (hi : i < 6) :
    (sensorRead bus table s).1 (4 + i) = voltageRecord (deliveredCode bus s (4 + i)) := by
  unfold sensorRead readTemperatures readVoltages
  dsimp only
  have hvolt : sensorTempTotal ≤ 4 + i ∧ 4 + i < sensorTempTotal + sensorVMaxNum :=
    ⟨Nat.le_add_right 4 i, Nat.add_lt_add_left hi 4⟩
  rw [(readChannels_spec ..).1 (4 + i), if_pos hvolt, (readChannels_spec ..).2, deliveredCode,
    if_neg (Nat.not_lt.mpr hvolt.1), afterTemperatures]

/-- The code of a channel always has its top bit clear. -/
theorem channelCode_lt (bus : I2cBus σ) (address stride : Byte) (timeout : Word) (reg : Byte)
    (s : σ) (i : ℕ) : (channelCode bus address stride timeout reg s i).toNat < 2 ^ 15 := by
  induction i generalizing reg s with
  | zero => exact ltc2991AdcReadNewData_adcCode_lt bus address reg timeout s
  | succ i ih => exact ih _ _

/-- Whatever the bus does, every delivered code has its top bit clear. -/
theorem deliveredCode_lt (bus : I2cBus σ) (s : σ) (i : ℕ) :
    (deliveredCode bus s i).toNat < 2 ^ 15 := by
  unfold deliveredCode
  split
  · exact channelCode_lt ..
  · exact channelCode_lt ..

/-! ### The converters as arithmetic -/

/-- Masking a word with `2 ^ k - 1`, `k ≤ 15`, leaves a non-negative number. -/
theorem toInt_and_mask (x mask : Word) (k : ℕ) (hk : k ≤ 15) (hmask : mask.toNat = 2 ^ k - 1) :
    (x &&& mask).toInt = ((x.toNat % 2 ^ k : ℕ) : Int) := by
  have hnat : (x &&& mask).toNat = x.toNat % 2 ^ k := by
    rw [BitVec.toNat_and, hmask, Nat.and_two_pow_sub_one_eq_mod]
  have hlt : x.toNat % 2 ^ k < 2 ^ k := Nat.mod_lt _ (Nat.two_pow_pos k)
  have hpow : (2 : ℕ) ^ k ≤ 2 ^ 15 := Nat.pow_le_pow_right (by omega) hk
  rw [BitVec.toInt_eq_toNat_of_lt (by rw [hnat]; omega), hnat]

/-- With `unit = 1` the temperature converter takes the low 13 bits as an unsigned number. -/
theorem ltc2991Temperature_kelvin (adcCode : Word) (lsb : Int) :
    ltc2991Temperature adcCode lsb 1 = ((adcCode.toNat % 2 ^ 13 : ℕ) : Int) * lsb := by
  unfold ltc2991Temperature
  dsimp only
  rw [if_neg (by decide), toInt_and_mask adcCode 0x1FFF 13 (by omega) (by decide)]

/-- A code with its top bit clear survives the arithmetic shift by 14 exactly when bit 14 is
    set. -/
theorem sshiftRight_14_ne_zero {adcCode : Word} (h : adcCode.toNat < 2 ^ 15) :
    adcCode.sshiftRight 14 ≠ 0 ↔ 2 ^ 14 ≤ adcCode.toNat := by
  have hmsb : adcCode.msb = false := by
    rw [BitVec.msb_eq_false_iff_two_mul_lt]; omega
  rw [BitVec.sshiftRight_eq_of_msb_false hmsb, Ne, ← BitVec.toNat_inj, BitVec.toNat_ushiftRight,
    Nat.shiftRight_eq_div_pow]
  show ¬ adcCode.toNat / 2 ^ 14 = 0 ↔ _
  omega

/-- The voltage converter reads the low 15 bits as a sign bit and a two's complement rest. -/
theorem ltc2991CodeToSingleEndedVoltage_eq {adcCode : Word} (lsb : Int)
    (h : adcCode.toNat < 2 ^ 15) :
    ltc2991CodeToSingleEndedVoltage adcCode lsb
      = if adcCode.toNat < 2 ^ 14 then (adcCode.toNat : Int) * lsb
        else -(((2 ^ 15 - adcCode.toNat) % 2 ^ 14 : ℕ) * lsb) := by
  unfold ltc2991CodeToSingleEndedVoltage
  dsimp only
  by_cases hneg : adcCode.toNat < 2 ^ 14
  · -- bit 14 clear: the code itself
    rw [if_pos hneg, if_neg (by rw [sshiftRight_14_ne_zero h]; omega),
      if_neg (by rw [sshiftRight_14_ne_zero h]; omega),
      toInt_and_mask adcCode 0x3FFF 14 (by omega) (by decide), Nat.mod_eq_of_lt hneg, mul_one]
  · -- bit 14 set: complement and one, of which the converter keeps 14 bits
    have hset : adcCode.sshiftRight 14 ≠ 0 := (sshiftRight_14_ne_zero h).mpr (by omega)
    have hflip : ((adcCode ^^^ 0x7FFF) + 1).toNat = 2 ^ 15 - adcCode.toNat := by
      rw [BitVec.toNat_add, BitVec.toNat_xor]
      show ((adcCode.toNat ^^^ (2 ^ 15 - 1)) + 1) % 2 ^ 16 = _
      rw [Bits.xor_mask h]
      omega
    rw [if_neg hneg, if_pos hset, if_pos hset,
      toInt_and_mask _ 0x3FFF 14 (by omega) (by decide), hflip]
    omega

/-- The record of a value as natural numbers: its sign and the digits of its magnitude. -/
theorem sensorinfoOf_eq (value : Int) (whole part : ℕ) :
    sensorinfoOf value whole part
      = { sign := if value < 0 then negative else positive
          hvtemp := (value.natAbs / whole : ℕ)
          lvtemp := (value.natAbs % whole / part : ℕ) } := by
  have hmag : (if value < 0 then 0 - value else value) = (value.natAbs : Int) := by
    split <;> omega
  unfold sensorinfoOf
  dsimp only
  rw [hmag]
  rfl

/-- A temperature record: never negative, the 13-bit code times 625 split into digits. -/
theorem temperatureRecord_eq (adcCode : Word) :
    temperatureRecord adcCode
      = { sign := positive
          hvtemp := (adcCode.toNat % 2 ^ 13 * 625 / 10000 : ℕ)
          lvtemp := (adcCode.toNat % 2 ^ 13 * 625 % 10000 / 100 : ℕ) } := by
  have hval : ltc2991Temperature adcCode ltc2991TemperatureLsb 1
      = ((adcCode.toNat % 2 ^ 13 * 625 : ℕ) : Int) := by
    rw [ltc2991Temperature_kelvin, Int.natCast_mul]
    rfl
  rw [temperatureRecord, hval]
  exact (sensorinfoOf_eq _ 10000 100).trans (by
    rw [if_neg (by omega), Int.natAbs_natCast])

/-- A voltage record: negative exactly for the codes above `0x4000`, of a magnitude below
    five volts. -/
theorem voltageRecord_bounds {adcCode : Word} (h : adcCode.toNat < 2 ^ 15) :
    (voltageRecord adcCode).sign = (if 2 ^ 14 < adcCode.toNat then negative else positive) ∧
    ∃ hv lv : ℕ, hv < 5 ∧ lv < 100 ∧ (voltageRecord adcCode).hvtemp = hv ∧
      (voltageRecord adcCode).lvtemp = lv := by
  have hval := ltc2991CodeToSingleEndedVoltage_eq ltc2991SingleEndedLsb h
  have hrec := sensorinfoOf_eq (ltc2991CodeToSingleEndedVoltage adcCode ltc2991SingleEndedLsb)
    1000000 10000
  rw [show ((1000000 : ℕ) : Int) = 1000000 from rfl, show ((10000 : ℕ) : Int) = 10000 from rfl]
    at hrec
  rw [voltageRecord, hrec]
  have hlsb : ltc2991SingleEndedLsb = 305 := rfl
  rw [hlsb] at hval
  rw [hlsb]
  refine ⟨?_, _, _, ?_, ?_, rfl, rfl⟩
  · -- of the codes with bit 14 set only 0x4000 has magnitude 0
    refine if_congr ?_ rfl rfl
    rw [hval]
    split <;> omega
  · rw [hval]
    split <;> omega
  · omega

end Vpx3.I2c
