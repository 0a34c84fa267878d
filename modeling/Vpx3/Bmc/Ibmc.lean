import Vpx3.Bmc.Access
import Vpx3.I2c.ThreadMain

namespace Vpx3.Bmc

open I2c

/-!
# Monitoring daemon — `TempVInfoUpdata` of `ibmc.c`

The daemon copies the ten records of `/dev/read_sensor` into FPGA registers, one packed word
a record.  Its comment gives the storage rule: the top bit of the 16 is the sign; below it
stand the integer part and the hundredths.

* `vtempV` — the packed word as the source computes it;
* `tempVInfoCalls` — the `fpgaRegWrite` calls of one update, in order;
* `decodeStored` — the record a stored word stands for under the storage rule;
* `roundTrip_iff` — the words of a snapshot decode to its records exactly when no temperature
  reaches 128 and no voltage is negative.
-/

def fpgaTemp0Reg : Word32 := 0x7C
def fpgaVolt0Reg : Word32 := 0xA0

/-! ### Packing -/

/-- `vtemp_v` for a record, under the sign the source tests for it. -/
def vtempV (sign : Byte) (r : StSensorinfo) : Word32 :=
  let vtempV := (BitVec.ofInt 32 r.hvtemp <<< 8) ||| BitVec.ofInt 32 r.lvtemp
  -- `vtemp_v &= 0x8000`, which keeps the sign bit and clears the digits
  if sign = negative then vtempV &&& 0x8000 else vtempV

/-- The calls of one of the two loops of `TempVInfoUpdata`: `n` registers from `reg` on, with
    the records from `base` on.  Both loops test the sign of `stasensor_value[index]`. -/
def infoCalls (reg : Word32) (base n : ℕ) (stasensorValue : SensorTable) :
    List (Word32 × Word32) :=
  (List.range n).map fun index =>
    (reg + BitVec.ofNat 32 (index * 4),
      vtempV (stasensorValue index).sign (stasensorValue (index + base)))

/-- The addresses and values `TempVInfoUpdata` hands to `fpgaRegWrite`, in order. -/
def tempVInfoCalls (stasensorValue : SensorTable) : List (Word32 × Word32) :=
  infoCalls fpgaTemp0Reg 0 sensorTempTotal stasensorValue
    ++ infoCalls fpgaVolt0Reg sensorTempTotal sensorVMaxNum stasensorValue

/-- `TempVInfoUpdata` with the device open; `read` is the table the read of `/dev/read_sensor`
    delivers, `none` when it fails and the cleared array stays.  `junk` is the ioctl's
    leftover for each register. -/
def tempVInfoUpdata (dev : FpgaDev) (read : Option SensorTable) (junk : Word32 → Int) : FpgaDev :=
  let stasensorValue := read.getD fun _ => ⟨0, 0, 0⟩
  afterCalls dev ((tempVInfoCalls stasensorValue).map fun c => .write c.1 c.2 (junk c.1))

/-- The register of record `i`. -/
def sensorReg (i : ℕ) : Word32 :=
  if i < 4 then fpgaTemp0Reg + BitVec.ofNat 32 (i * 4)
  else fpgaVolt0Reg + BitVec.ofNat 32 ((i - 4) * 4)

/-- The record whose sign decides the word of record `i`. -/
def signIndex (i : ℕ) : ℕ := if i < 4 then i else i - 4

theorem signIndex_lt {i : ℕ} (hi : i < 10) : signIndex i < 10 := by
  rw [signIndex]
  split <;> omega

/-- The word of record `i`. -/
def infoWord (t : SensorTable) (i : ℕ) : Word32 := vtempV (t (signIndex i)).sign (t i)

/-- The ten calls: register and word of each record. -/
theorem tempVInfoCalls_eq (t : SensorTable) :
    tempVInfoCalls t = (List.range 10).map fun i => (sensorReg i, infoWord t i) := rfl

/-- Different records have different registers. -/
theorem sensorReg_injOn {i j : ℕ} (hi : i < 10) (hj : j < 10) (h : sensorReg i = sensorReg j) :
    i = j := by
  have hnat : ∀ k < 10, (sensorReg k).toNat = if k < 4 then 124 + k * 4 else 144 + k * 4 := by
    decide
  have := congrArg BitVec.toNat h
  rw [hnat i hi, hnat j hj] at this
  split at this <;> split at this <;> omega

/-- A register gets one word in an update, the one of its record. -/
theorem mem_tempVInfoCalls {t : SensorTable} {i : ℕ} (hi : i < 10) {w : Word32} :
    (sensorReg i, w) ∈ tempVInfoCalls t ↔ w = infoWord t i := by
  rw [tempVInfoCalls_eq, List.mem_map]
  constructor
  · rintro ⟨j, hj, heq⟩
    rw [List.mem_range] at hj
    obtain ⟨hreg, hword⟩ := Prod.mk.inj heq
    obtain rfl := sensorReg_injOn hj hi hreg
    exact hword.symm
  · rintro rfl
    exact ⟨i, List.mem_range.mpr hi, rfl⟩

/-! ### The storage rule -/

/-- The record a stored word stands for: sign in bit 15, integer part in bits 14..8,
    hundredths in bits 7..0. -/
def decodeStored (w : Word32) : StSensorinfo where
  sign := if w.toNat / 2 ^ 15 % 2 = 1 then negative else positive
  hvtemp := (w.toNat / 2 ^ 8 % 2 ^ 7 : ℕ)
  lvtemp := (w.toNat % 2 ^ 8 : ℕ)

/-- Every word handed to `fpgaRegWrite` decodes to the record of its register. -/
def RoundTrip (t : SensorTable) : Prop :=
  ∀ i < 10, ∃ w, (sensorReg i, w) ∈ tempVInfoCalls t ∧ decodeStored w = t i

/-- In terms of the words: each record's word decodes to it. -/
theorem roundTrip_iff_infoWord (t : SensorTable) :
    RoundTrip t ↔ ∀ i < 10, decodeStored (infoWord t i) = t i := by
  refine forall₂_congr fun i hi => ?_
  constructor
  · rintro ⟨w, hw, hdecode⟩
    rwa [(mem_tempVInfoCalls hi).mp hw] at hdecode
  · exact fun h => ⟨_, (mem_tempVInfoCalls hi).mpr rfl, h⟩

/-! ### The packed word as arithmetic -/

section
variable {r : StSensorinfo} {hv lv : ℕ}

/-- The word before the sign is applied. -/
theorem packed_toNat (hhv : hv < 2 ^ 9) (hlv : lv < 2 ^ 8) :
    ((BitVec.ofInt 32 hv <<< 8) ||| BitVec.ofInt 32 lv).toNat = hv * 2 ^ 8 + lv := by
  have hshift : (BitVec.ofInt 32 hv <<< 8).toNat = hv <<< 8 := by
    rw [BitVec.ofInt_natCast, BitVec.toNat_shiftLeft, BitVec.toNat_ofNat,
      Nat.mod_eq_of_lt (show hv < 2 ^ 32 by omega), Nat.shiftLeft_eq, Nat.mod_eq_of_lt (by omega)]
  rw [BitVec.toNat_or, hshift, BitVec.ofInt_natCast, BitVec.toNat_ofNat,
    Nat.mod_eq_of_lt (show lv < 2 ^ 32 by omega), Bits.shift_or hv hlv]

/-- A record that is not stored as negative is stored as its digits. -/
theorem vtempV_toNat {sign : Byte} (hsign : sign ≠ negative) (hr : r.hvtemp = hv)
    (hr' : r.lvtemp = lv) (hhv : hv < 2 ^ 9) (hlv : lv < 2 ^ 8) :
    (vtempV sign r).toNat = hv * 2 ^ 8 + lv := by
  rw [vtempV]
  rw [if_neg hsign, hr, hr', packed_toNat hhv hlv]

/-- A record stored as negative with an integer part below 128 is stored as zero: the mask
    clears everything but the sign bit, which was not set. -/
theorem vtempV_negative (hr : r.hvtemp = hv) (hr' : r.lvtemp = lv) (hhv : hv < 2 ^ 7)
    (hlv : lv < 2 ^ 8) : (vtempV negative r).toNat = 0 := by
  rw [vtempV]
  rw [if_pos rfl, hr, hr', BitVec.toNat_and, packed_toNat (by omega) hlv]
  show (hv * 2 ^ 8 + lv) &&& 2 ^ 15 = 0
  rw [Bits.and_bit]
  omega

/-- Whatever sign the source tested, a record with an integer part below 128 reads back as
    positive. -/
theorem decodeStored_vtempV_sign (sign : Byte) (hr : r.hvtemp = hv) (hr' : r.lvtemp = lv)
    (hhv : hv < 2 ^ 7) (hlv : lv < 2 ^ 8) : (decodeStored (vtempV sign r)).sign = positive := by
  have hlt : (vtempV sign r).toNat < 2 ^ 15 := by
    by_cases hsign : sign = negative
    · rw [hsign, vtempV_negative hr hr' hhv hlv]
      omega
    · rw [vtempV_toNat hsign hr hr' (by omega) hlv]
      omega
  exact if_neg (by omega)

/-- A positive record stored as positive with an integer part below 128 reads back. -/
theorem decodeStored_vtempV {sign : Byte} (hsign : sign ≠ negative) (hpos : r.sign = positive)
    (hr : r.hvtemp = hv) (hr' : r.lvtemp = lv) (hhv : hv < 2 ^ 7) (hlv : lv < 2 ^ 8) :
    decodeStored (vtempV sign r) = r := by
  have hnat := vtempV_toNat hsign hr hr' (by omega) hlv
  ext1
  · rw [hpos, decodeStored_vtempV_sign sign hr hr' hhv hlv]
  · rw [hr, decodeStored, hnat]
    show ((_ : ℕ) : Int) = hv
    congr 1
    omega
  · rw [hr', decodeStored, hnat]
    show ((_ : ℕ) : Int) = lv
    congr 1
    omega

end

/-! ### The snapshots of `sensor_read` -/

variable {σ : Type}

/-- The conditions under which the words of a pass survive: no temperature code reaches 2048
    (128 degrees), no voltage code is above `0x4000` (below zero volts). -/
def Storable (codes : ℕ → Word) : Prop :=
  (∀ i < 4, (codes i).toNat % 2 ^ 13 < 2 ^ 11) ∧ ∀ i < 6, (codes (4 + i)).toNat ≤ 2 ^ 14

/-- A temperature record's word comes back exactly when its integer part is below 128. -/
theorem infoWord_temp_iff (bus : I2cBus σ) (table : SensorTable) (s : σ) {i : ℕ} (hi : i < 4) :
    decodeStored (infoWord (sensorRead bus table s).1 i) = (sensorRead bus table s).1 i
      ↔ (deliveredCode bus s i).toNat % 2 ^ 13 < 2 ^ 11 := by
  rw [infoWord, signIndex, if_pos hi, sensorRead_temp bus table s hi, temperatureRecord_eq]
  set code := (deliveredCode bus s i).toNat % 2 ^ 13 with hcode
  have hlt : code < 2 ^ 13 := Nat.mod_lt _ (by omega)
  have hpos : positive ≠ negative := by decide
  constructor
  · -- the integer part read back is the one of seven bits
    intro h
    have hword : (vtempV positive ⟨positive, (code * 625 / 10000 : ℕ),
        (code * 625 % 10000 / 100 : ℕ)⟩).toNat
          = code * 625 / 10000 * 2 ^ 8 + code * 625 % 10000 / 100 :=
      vtempV_toNat hpos rfl rfl (by omega) (by omega)
    have hhv := congrArg StSensorinfo.hvtemp h
    simp only [decodeStored] at hhv
    rw [hword] at hhv
    omega
  · intro h
    exact decodeStored_vtempV hpos rfl rfl rfl (by omega) (by omega)

/-- The record that decides the sign of a register is positive when the codes are storable. -/
theorem sign_of_storable (bus : I2cBus σ) (table : SensorTable) (s : σ)
    (h : ∀ i < 6, (deliveredCode bus s (4 + i)).toNat ≤ 2 ^ 14) {i : ℕ} (hi : i < 10) :
    ((sensorRead bus table s).1 i).sign = positive := by
  rcases Nat.lt_or_ge i 4 with htemp | hvolt
  · rw [sensorRead_temp bus table s htemp, temperatureRecord_eq]
  · obtain ⟨j, rfl⟩ := Nat.exists_eq_add_of_le hvolt
    have hj : j < 6 := by omega
    rw [sensorRead_volt bus table s hj, (voltageRecord_bounds (deliveredCode_lt bus s _)).1,
      if_neg (Nat.not_lt.mpr (h j hj))]

/-- **Round trip.**  For every bus and every pass of `sensorRead`, the words handed to the FPGA
    decode to the ten records if and only if the codes of the pass are storable. -/
theorem roundTrip_iff (bus : I2cBus σ) (table : SensorTable) (s : σ) :
    RoundTrip (sensorRead bus table s).1 ↔ Storable (deliveredCode bus s) := by
  rw [roundTrip_iff_infoWord]
  constructor
  · intro h
    refine ⟨fun i hi => (infoWord_temp_iff bus table s hi).mp (h i (by omega)), fun i hi => ?_⟩
    obtain ⟨hsign, hv, lv, hhv, hlv, hr, hr'⟩ :=
      voltageRecord_bounds (deliveredCode_lt bus s (4 + i))
    have hread := congrArg StSensorinfo.sign (h (4 + i) (by omega))
    rw [infoWord, sensorRead_volt bus table s hi,
      decodeStored_vtempV_sign _ hr hr' (by omega) (by omega), hsign] at hread
    -- a word always reads back as positive
    by_contra hneg
    rw [if_pos (by omega)] at hread
    exact absurd hread (by decide)
  · rintro ⟨htemp, hvolt⟩ i hi
    rcases Nat.lt_or_ge i 4 with hi4 | hi4
    · exact (infoWord_temp_iff bus table s hi4).mpr (htemp i hi4)
    · obtain ⟨j, rfl⟩ := Nat.exists_eq_add_of_le hi4
      have hj : j < 6 := by omega
      -- the sign tested is that of another record
      have hsrc : ((sensorRead bus table s).1 (signIndex (4 + j))).sign ≠ negative := by
        rw [sign_of_storable bus table s hvolt (signIndex_lt hi)]
        decide
      have hown := sign_of_storable bus table s hvolt hi
      obtain ⟨-, hv, lv, hhv, hlv, hr, hr'⟩ :=
        voltageRecord_bounds (deliveredCode_lt bus s (4 + j))
      rw [← sensorRead_volt bus table s hj] at hr hr'
      exact decodeStored_vtempV hsrc hown hr hr' (by omega) (by omega)

/-- A healthy pass that reads `-2.49` volts on the first voltage channel (code `0x6000`, every
    other code zero) is stored as `+2.49`. -/
theorem not_roundTrip_negative_volt :
    ¬RoundTrip (sensorRead (envBus fun a r _ =>
        ⟨true, if a = ltc2991I2cVAddress ∧ r = ltc2991V1MsbReg then [0xE0, 0] else [0x80, 0]⟩)
      (fun _ => ⟨positive, 0, 0⟩) (fun _ _ => 0)).1 := by
  rw [roundTrip_iff_infoWord]
  intro h
  have h4 := h (4 + 0) (by omega)
  rw [infoWord, show signIndex (4 + 0) = 0 from rfl, sensorRead_temp _ _ _ (by omega),
    sensorRead_volt _ _ _ (by omega)] at h4
  have hcode : deliveredCode (envBus fun a r _ =>
        ⟨true, if a = ltc2991I2cVAddress ∧ r = ltc2991V1MsbReg then [0xE0, 0] else [0x80, 0]⟩)
      (fun _ _ => 0) (4 + 0) = 0x6000 := by decide
  rw [hcode, temperatureRecord_eq] at h4
  exact absurd h4 (by decide)

end Vpx3.Bmc
