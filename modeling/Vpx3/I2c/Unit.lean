import Vpx3.I2c.ThreadMain

namespace Vpx3.I2c

/-!
# Temperature unit — the set-up against the decoder

Each pair of inputs of the temperature chip has a KELVIN bit in one of the two control
registers.  `creatThreadMain` sets the TEMP bits by a read-modify-write that keeps whatever
the KELVIN bits were, while `sensorRead` decodes every code as unsigned Kelvin.

* `reportedTemperature` — what the chip reports, in the unit its own register selects;
* `sensorRead_reported_iff` — the record agrees with the report exactly when the pair came
  up in Kelvin or the code is not below zero Celsius.
-/

/-! ### What the chip reports -/

/-- The control register that holds the KELVIN bit of pair `i`. -/
def kelvinReg (i : ℕ) : Byte :=
  if i < 2 then ltc2991ControlV1234Reg else ltc2991ControlV5678Reg

/-- The KELVIN bit of pair `i` in its control register. -/
def kelvinEnable : ℕ → Byte
  | 0 => ltc2991V1V2KelvinEnable
  | 1 => ltc2991V3V4KelvinEnable
  | 2 => ltc2991V5V6KelvinEnable
  | _ => ltc2991V7V8KelvinEnable

/-- The temperature chip reports pair `i` in Kelvin. -/
def KelvinSelected (c : Chips) (i : ℕ) : Prop :=
  c ltc2991I2cTempAddress (kelvinReg i) &&& kelvinEnable i ≠ 0

instance (c : Chips) (i : ℕ) : Decidable (KelvinSelected c i) :=
  inferInstanceAs (Decidable (_ ≠ _))

/-- The temperature behind a 13-bit code of pair `i`, in ten-thousandths of the unit selected
    by the control register: unsigned Kelvin, or Celsius in two's complement. -/
def reportedTemperature (c : Chips) (i : ℕ) (adcCode : Word) : Int :=
  if KelvinSelected c i then (adcCode.setWidth 13).toNat * 625
  else (adcCode.setWidth 13).toInt * 625

/-- Sign and magnitude of a temperature in ten-thousandths, truncated to hundredths. -/
def signMagnitude (t : Int) : StSensorinfo where
  sign := if t < 0 then negative else positive
  hvtemp := (t.natAbs / 10000 : ℕ)
  lvtemp := (t.natAbs % 10000 / 100 : ℕ)

/-! ### The set-up keeps the KELVIN bits -/

/-- The set-up adds the four TEMP bits to the control registers of the temperature chip. -/
theorem creatThreadMain_control (c : Chips) :
    creatThreadMain chipBus c ltc2991I2cTempAddress ltc2991ControlV1234Reg
      = c ltc2991I2cTempAddress ltc2991ControlV1234Reg ||| 0x22 ∧
    creatThreadMain chipBus c ltc2991I2cTempAddress ltc2991ControlV5678Reg
      = c ltc2991I2cTempAddress ltc2991ControlV5678Reg ||| 0x22 := by
  have haddr : ltc2991I2cTempAddress ≠ ltc2991I2cVAddress := by decide
  have h61 : ltc2991ControlV1234Reg ≠ ltc2991ChannelEnableReg := by decide
  have h71 : ltc2991ControlV5678Reg ≠ ltc2991ChannelEnableReg := by decide
  have h67 : ltc2991ControlV1234Reg ≠ ltc2991ControlV5678Reg := by decide
  simp only [creatThreadMain, ltc2991RegisterSetClearBits_chipBus, i2cWriteByteData_chipBus]
  -- each register keeps the one store meant for it
  constructor
  · rw [Chips.set_of_reg_ne _ h61, Chips.set_of_addr_ne _ haddr, Chips.set_of_reg_ne _ h67,
      Chips.set_same, Chips.set_of_addr_ne _ haddr, Chips.set_of_addr_ne _ haddr]
    rw [show ~~~(0x00 : Byte) = BitVec.allOnes 8 from by decide, BitVec.and_allOnes]
    rfl
  · rw [Chips.set_of_reg_ne _ h71, Chips.set_of_addr_ne _ haddr, Chips.set_same,
      Chips.set_of_reg_ne _ h67.symm, Chips.set_of_addr_ne _ haddr, Chips.set_of_addr_ne _ haddr]
    rw [show ~~~(0x00 : Byte) = BitVec.allOnes 8 from by decide, BitVec.and_allOnes]
    rfl

/-- Adding bits outside a mask does not change what the mask selects. -/
theorem or_and_of_disjoint {x set mask : Byte} (h : set &&& mask = 0) :
    (x ||| set) &&& mask = x &&& mask := by
  rw [BitVec.and_or_distrib_right, h]
  exact BitVec.or_zero

/-- The TEMP bits are none of the KELVIN bits. -/
theorem tempEnable_disjoint (i : ℕ) : (0x22 : Byte) &&& kelvinEnable i = 0 := by
  match i with
  | 0 => rfl
  | 1 => rfl
  | 2 => rfl
  | _ + 3 => exact (rfl : (0x22 : Byte) &&& ltc2991V7V8KelvinEnable = 0)

/-- After the set-up each pair reports in the unit it came up with. -/
theorem creatThreadMain_kelvinSelected (c : Chips) (i : ℕ) :
    KelvinSelected (creatThreadMain chipBus c) i ↔ KelvinSelected c i := by
  unfold KelvinSelected kelvinReg
  obtain ⟨h6, h7⟩ := creatThreadMain_control c
  split
  · rw [h6, or_and_of_disjoint (tempEnable_disjoint i)]
  · rw [h7, or_and_of_disjoint (tempEnable_disjoint i)]

/-! ### The record against the report -/

/-- A temperature record is the sign and magnitude of the unsigned reading. -/
theorem temperatureRecord_eq_signMagnitude (adcCode : Word) :
    temperatureRecord adcCode = signMagnitude ((adcCode.setWidth 13).toNat * 625) := by
  rw [temperatureRecord_eq, signMagnitude, BitVec.toNat_setWidth, if_neg (by omega)]
  have habs : (((adcCode.toNat % 2 ^ 13 : ℕ) : Int) * 625).natAbs
      = adcCode.toNat % 2 ^ 13 * 625 := by omega
  rw [habs]

/-- The unsigned and the signed reading of a code agree when its bit 12 is clear. -/
theorem setWidth_toInt_eq_toNat {adcCode : Word} (h : adcCode.toNat % 2 ^ 13 < 2 ^ 12) :
    (adcCode.setWidth 13).toInt = (adcCode.setWidth 13).toNat := by
  apply BitVec.toInt_eq_toNat_of_lt
  rw [BitVec.toNat_setWidth]
  omega

/-- With bit 12 set the signed reading is below zero. -/
theorem setWidth_toInt_neg {adcCode : Word} (h : ¬adcCode.toNat % 2 ^ 13 < 2 ^ 12) :
    (adcCode.setWidth 13).toInt < 0 := by
  rw [BitVec.toInt_eq_toNat_cond, BitVec.toNat_setWidth, if_neg (by omega)]
  omega

/-- A code decoded for a pair agrees with the chip's report of it when the pair is in Kelvin;
    in Celsius only when bit 12 of the code is clear. -/
theorem temperatureRecord_reported_iff (c : Chips) (i : ℕ) (adcCode : Word) :
    temperatureRecord adcCode = signMagnitude (reportedTemperature c i adcCode)
      ↔ KelvinSelected c i ∨ adcCode.toNat % 2 ^ 13 < 2 ^ 12 := by
  rw [temperatureRecord_eq_signMagnitude, reportedTemperature]
  by_cases hk : KelvinSelected c i
  · rw [if_pos hk]
    simp only [hk, true_or]
  -- in Celsius the two readings are compared
  rw [if_neg hk]
  simp only [hk, false_or]
  constructor
  · -- below zero Celsius the two signs differ
    intro h
    by_contra hcold
    have hneg := setWidth_toInt_neg hcold
    have hsign := congrArg StSensorinfo.sign h
    simp only [signMagnitude] at hsign
    rw [if_neg (by omega), if_pos (by omega)] at hsign
    exact absurd hsign (by decide)
  · intro h
    rw [setWidth_toInt_eq_toNat h]

/-- **Unit agreement.**  For every initial content of the registers, every pass of
    `sensorRead` after the set-up and every pair, the record is the sign and magnitude of the
    temperature the chip reports if and only if the pair came up in Kelvin or bit 12 of the
    code is clear. -/
theorem sensorRead_reported_iff {σ : Type} (c : Chips) (bus : I2cBus σ) (table : SensorTable)
    (s : σ) (i : Fin 4) :
    (sensorRead bus table s).1 i
        = signMagnitude (reportedTemperature (creatThreadMain chipBus c) i (deliveredCode bus s i))
      ↔ KelvinSelected c i ∨ (deliveredCode bus s i).toNat % 2 ^ 13 < 2 ^ 12 := by
  rw [sensorRead_temp bus table s i.isLt, temperatureRecord_reported_iff,
    creatThreadMain_kelvinSelected]

/-- Control registers that come up as zero and a healthy reading of one degree below zero
    Celsius (code `-16`): the record says 511 degrees above. -/
theorem sensorRead_minus_one_celsius :
    (sensorRead (envBus fun _ _ _ => ⟨true, [0x9F, 0xF0]⟩) (fun _ => ⟨positive, 0, 0⟩)
        (fun _ _ => 0)).1 0
      ≠ signMagnitude (reportedTemperature (creatThreadMain chipBus fun _ _ => 0) 0 0x1FF0) := by
  rw [sensorRead_temp _ _ _ (by omega)]
  have hcode : deliveredCode (envBus fun _ _ _ => ⟨true, [0x9F, 0xF0]⟩) (fun _ _ => 0) 0
      = 0x1FF0 := by decide
  rw [hcode]
  decide

end Vpx3.I2c
