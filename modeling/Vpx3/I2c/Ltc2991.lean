import Vpx3.I2c.I2cLtc2991

namespace Vpx3.I2c

/-!
# LTC2991 library — reads, register updates and converters of `LTC2991.c`

* `ltc2991AdcRead`, `ltc2991AdcReadTimeout`, `ltc2991AdcReadNewData` — one reading, the
  polling loop and the flush-then-poll sequence.  `*adc_code` and `*data_valid` are the
  in/out record `AdcOut`; every function also returns the `int8_t` acknowledge.
* `ltc2991RegisterSetClearBits` — read, modify, write of one control register;
* `ltc2991CodeToSingleEndedVoltage`, `ltc2991Temperature` — the converters in use;
* `FirstGood` — the replies after the flush whose first word with the valid bit arrives in
  time and before any failed transfer, and `ltc2991AdcReadNewData_firstGood`: such replies decide
  the outcome.
-/

/-- The variables behind `adc_code` and `data_valid`. -/
structure AdcOut where
  adcCode : Word
  dataValid : Byte
  deriving DecidableEq, Repr

variable {σ : Type}

/-- The two outputs an ADC word splits into: the low 15 bits and the valid bit. -/
def AdcOut.ofWord (code : Word) : AdcOut where
  adcCode := code &&& 0x7FFF
  dataValid := ((code >>> 15) &&& 0x01).setWidth 8

/-- `LTC2991_adc_read`.  The word is split whatever the acknowledge says. -/
def ltc2991AdcRead (bus : I2cBus σ) (i2cAddress msbRegisterAddress : Byte) (s : σ) :
    Byte × AdcOut × σ :=
  let (ack, code, s) := i2cReadWordData bus i2cAddress msbRegisterAddress s
  (ack, .ofWord code, s)

/-- The retry loop of `LTC2991_adc_read_timeout` with `n` iterations to go.  The source
    leaves the loop on a valid word only; its no-acknowledge exit is commented out. -/
def adcReadLoop (bus : I2cBus σ) (i2cAddress msbRegisterAddress : Byte) :
    Nat → Byte → AdcOut → σ → Byte × AdcOut × σ
  | 0, ack, out, s => (ack, out, s)
  | n + 1, ack, _, s =>
    let (a, out, s) := ltc2991AdcRead bus i2cAddress msbRegisterAddress s
    if out.dataValid = 1 then (ack ||| a, out, s)
    else adcReadLoop bus i2cAddress msbRegisterAddress n (ack ||| a) out s

/-- `LTC2991_adc_read_timeout`. -/
def ltc2991AdcReadTimeout (bus : I2cBus σ) (i2cAddress msbRegisterAddress : Byte)
    (out : AdcOut) (timeout : Word) (s : σ) : Byte × AdcOut × σ :=
  adcReadLoop bus i2cAddress msbRegisterAddress timeout.toNat 0 out s

/-- `LTC2991_adc_read_new_data`: flush one reading, then poll for a new one. -/
def ltc2991AdcReadNewData (bus : I2cBus σ) (i2cAddress msbRegisterAddress : Byte)
    (timeout : Word) (s : σ) : Byte × AdcOut × σ :=
  let (a₁, out, s) := ltc2991AdcRead bus i2cAddress msbRegisterAddress s
  let (a₂, out, s) := ltc2991AdcReadTimeout bus i2cAddress msbRegisterAddress out timeout s
  (a₁ ||| a₂, out, s)

/-- `LTC2991_register_set_clear_bits`: the register is written back even when the read
    failed. -/
def ltc2991RegisterSetClearBits (bus : I2cBus σ)
    (i2cAddress registerAddress bitsToSet bitsToClear : Byte) (s : σ) : Byte × σ :=
  let (a₁, registerData, s) := i2cReadByteData bus i2cAddress registerAddress s
  let registerData := registerData &&& ~~~bitsToClear
  let registerData := registerData ||| bitsToSet
  let (a₂, s) := i2cWriteByteData bus i2cAddress registerAddress registerData s
  (a₁ ||| a₂, s)

@[simp] theorem ltc2991RegisterSetClearBits_chipBus (a r set clear : Byte) (c : Chips) :
    ltc2991RegisterSetClearBits chipBus a r set clear c
      = (0, c.set a r ((c a r &&& ~~~clear) ||| set)) := by
  simp [ltc2991RegisterSetClearBits]

/-! ### Converters -/

/-- `LTC2991_code_to_single_ended_voltage`, the result in units of the weight. -/
def ltc2991CodeToSingleEndedVoltage (adcCode : Word) (lsb : Int) : Int :=
  let neg := adcCode.sshiftRight 14 ≠ 0
  let sign : Int := if neg then -1 else 1
  let adcCode := if neg then (adcCode ^^^ 0x7FFF) + 1 else adcCode
  let adcCode := adcCode &&& 0x3FFF
  adcCode.toInt * lsb * sign

/-- `LTC2991_temperature`; `unit` is the C flag (nonzero for Kelvin). -/
def ltc2991Temperature (adcCode : Word) (lsb : Int) (unit : Int) : Int :=
  let adcCode := adcCode &&& 0x1FFF
  let adcCode :=
    if unit = 0 then
      -- Celsius: bit 12 is extended
      if adcCode.sshiftRight 12 ≠ 0 then adcCode ||| 0xE000 else adcCode
    else adcCode
  adcCode.toInt * lsb

/-! ### What one reading leaves behind -/

@[simp] theorem ltc2991AdcRead_envBus (env : RegEnv) (a r : Byte) (c : Counts) :
    ltc2991AdcRead (envBus env) a r c
      = ((env a r (c a r)).ack, .ofWord (env a r (c a r)).word, c.bump a r) := rfl

/-- What every word read of a register preserves, the retry loop preserves. -/
theorem adcReadLoop_preserves {bus : I2cBus σ} {a r : Byte} {P : σ → Prop}
    (hP : ∀ s, P s → P (bus.transfer (wordReadMsgs a r) s).2)
    (n : Nat) (ack : Byte) (out : AdcOut) (s : σ) (hs : P s) :
    P (adcReadLoop bus a r n ack out s).2.2 := by
  induction n generalizing ack out s with
  | zero => exact hs
  | succ n ih =>
    rw [adcReadLoop]
    dsimp only
    split
    · exact hP s hs
    · exact ih _ _ _ (hP s hs)

/-- What every word read of a register preserves, reading new data preserves. -/
theorem ltc2991AdcReadNewData_preserves {bus : I2cBus σ} {a r : Byte} {P : σ → Prop}
    (hP : ∀ s, P s → P (bus.transfer (wordReadMsgs a r) s).2)
    (timeout : Word) (s : σ) (hs : P s) :
    P (ltc2991AdcReadNewData bus a r timeout s).2.2 :=
  adcReadLoop_preserves hP _ _ _ _ (hP s hs)

/-- The ADC code of a reading has its top bit clear. -/
theorem AdcOut.ofWord_adcCode_lt (code : Word) : (AdcOut.ofWord code).adcCode.toNat < 2 ^ 15 := by
  show (code &&& 0x7FFF).toNat < 2 ^ 15
  rw [BitVec.toNat_and]
  exact Nat.lt_of_le_of_lt Nat.and_le_right (by decide)

/-- The loop leaves the code of its last reading behind, so its top bit stays clear. -/
theorem adcReadLoop_adcCode_lt (bus : I2cBus σ) (a r : Byte) (n : Nat) (ack : Byte)
    (out : AdcOut) (s : σ) (h : out.adcCode.toNat < 2 ^ 15) :
    (adcReadLoop bus a r n ack out s).2.1.adcCode.toNat < 2 ^ 15 := by
  induction n generalizing ack out s with
  | zero => exact h
  | succ n ih =>
    rw [adcReadLoop]
    dsimp only
    split
    · exact AdcOut.ofWord_adcCode_lt _
    · exact ih _ _ _ (AdcOut.ofWord_adcCode_lt _)

/-- Whatever the bus does, the code delivered for a channel has its top bit clear. -/
theorem ltc2991AdcReadNewData_adcCode_lt (bus : I2cBus σ) (a r : Byte) (timeout : Word) (s : σ) :
    (ltc2991AdcReadNewData bus a r timeout s).2.1.adcCode.toNat < 2 ^ 15 :=
  adcReadLoop_adcCode_lt bus a r _ _ _ _ (AdcOut.ofWord_adcCode_lt _)

/-! ### Replies that decide the reading -/

/-- A reply that is a successful transfer of a word with its data-valid bit set. -/
def XferReply.Good (r : XferReply) : Prop := r.ok = true ∧ (AdcOut.ofWord r.word).dataValid = 1

/-- A reply that is a successful transfer of a word whose data-valid bit is clear. -/
def XferReply.NotReady (r : XferReply) : Prop :=
  r.ok = true ∧ (AdcOut.ofWord r.word).dataValid ≠ 1

instance (r : XferReply) : Decidable r.Good := inferInstanceAs (Decidable (_ ∧ _))
instance (r : XferReply) : Decidable r.NotReady := inferInstanceAs (Decidable (_ ∧ _))

/-- Among the replies `rs 0, …, rs (n-1)` the `k`-th is good and all before it are healthy
    not-ready words: the poll ends at reply `k` and no transfer of it has failed. -/
def FirstGood (rs : Nat → XferReply) (n k : Nat) : Prop :=
  k < n ∧ (rs k).Good ∧ ∀ j, j < k → (rs j).NotReady

/-- The poll over replies with a first good one delivers the code of that reply and moves
    the read count just past it. -/
theorem adcReadLoop_firstGood (env : RegEnv) (a r : Byte) (n k : Nat) (ack : Byte)
    (out : AdcOut) (c : Counts)
    (h : FirstGood (fun j => env a r (c a r + j)) n k) :
    (adcReadLoop (envBus env) a r n ack out c).2.1 = .ofWord (env a r (c a r + k)).word := by
  induction n generalizing k ack out c with
  | zero => exact absurd h.1 (by omega)
  | succ n ih =>
    obtain ⟨hk, hgood, hbefore⟩ := h
    rw [adcReadLoop, ltc2991AdcRead_envBus]
    dsimp only
    cases k with
    | zero =>
      -- the poll ends here
      have hvalid : (AdcOut.ofWord (env a r (c a r)).word).dataValid = 1 := hgood.2
      rw [if_pos hvalid]
      rfl
    | succ k =>
      -- one read more, and the good reply is one step nearer
      have hwait : (AdcOut.ofWord (env a r (c a r)).word).dataValid ≠ 1 :=
        (hbefore 0 (Nat.succ_pos k)).2
      rw [if_neg hwait]
      have hrest : FirstGood (fun j => env a r ((c.bump a r) a r + j)) n k := by
        refine ⟨by omega, ?_, fun j hj => ?_⟩
        · simpa [Nat.add_comm, Nat.add_left_comm] using hgood
        · simpa [Nat.add_comm, Nat.add_left_comm] using hbefore (j + 1) (by omega)
      rw [ih k _ _ _ hrest, Counts.bump_same, Nat.add_right_comm, Nat.add_assoc]

/-- **New data.**  If the replies after the flush have a first good one within the timeout,
    its code is the one delivered, whatever the flush read returned. -/
theorem ltc2991AdcReadNewData_firstGood (env : RegEnv) (a r : Byte) (timeout : Word) (k : Nat)
    (c : Counts) (h : FirstGood (fun j => env a r (c a r + 1 + j)) timeout.toNat k) :
    (ltc2991AdcReadNewData (envBus env) a r timeout c).2.1
      = .ofWord (env a r (c a r + 1 + k)).word := by
  have h' : FirstGood (fun j => env a r ((c.bump a r) a r + j)) timeout.toNat k := by
    simpa using h
  show (adcReadLoop (envBus env) a r timeout.toNat 0 _ (c.bump a r)).2.1 = _
  rw [adcReadLoop_firstGood env a r _ k _ _ _ h', Counts.bump_same]

/-- Reading a register leaves the read counts of the other registers alone. -/
theorem ltc2991AdcReadNewData_counts (env : RegEnv) (a r : Byte) (timeout : Word) (c : Counts)
    {a' r' : Byte} (hne : a' ≠ a ∨ r' ≠ r) :
    (ltc2991AdcReadNewData (envBus env) a r timeout c).2.2 a' r' = c a' r' := by
  refine ltc2991AdcReadNewData_preserves (P := fun s => s a' r' = c a' r') ?_ timeout c rfl
  intro s hs
  rw [envBus_wordRead]
  rcases hne with h | h
  · rw [← hs]; exact s.bump_of_addr_ne h
  · rw [← hs]; exact s.bump_of_reg_ne h

end Vpx3.I2c
