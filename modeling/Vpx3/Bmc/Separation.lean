import Vpx3.Bmc.Publish

namespace Vpx3.Bmc

open I2c

/-!
# Separation — what the records of other sensors do to a published register

* `touchedBy` — the words of the FPGA mapping a list of calls accesses, in order;
* `WritesEachOnce` — an update accesses the ten sensor registers, one time each;
* `Separated` — two snapshots with the same record of a sensor leave the same word in its
  register;
* `separated_iff` — that holds for the temperatures; for a voltage exactly when the snapshots
  agree on the sign of the record four places before it, which the code tests by mistake, or
  the digits survive the mask.
-/

/-! ### The accesses of an update -/

/-- The words of the mapping a list of calls touches. -/
def touchedBy (dev : FpgaDev) : List RegCall → List ℕ
  | [] => []
  | c :: cs => (c.run dev).touched ++ touchedBy (c.run dev).dev cs

/-- With the FPGA mapped every call touches the word of its address. -/
theorem touchedBy_mapped (calls : List RegCall) (base : ℕ → Word32) :
    touchedBy ⟨some base⟩ calls = calls.map fun c => wordIndex c.addr := by
  induction calls generalizing base with
  | nil => rfl
  | cons c cs ih =>
    obtain ⟨htouched, hdev, -⟩ := run_mapped c base
    rw [touchedBy, htouched, hdev, ih]
    rfl

/-- The calls of `TempVInfoUpdata` on a snapshot. -/
def updateCalls (t : SensorTable) (junk : Word32 → Int) : List RegCall :=
  (tempVInfoCalls t).map fun c => .write c.1 c.2 (junk c.1)

/-- An update with the FPGA mapped accesses each sensor register once and nothing else. -/
def WritesEachOnce (t : SensorTable) : Prop :=
  ∀ base junk, (∀ i < 10, (touchedBy ⟨some base⟩ (updateCalls t junk)).count
      (wordIndex (sensorReg i)) = 1)
    ∧ ∀ k ∈ touchedBy ⟨some base⟩ (updateCalls t junk), ∃ i < 10, k = wordIndex (sensorReg i)

/-- It always does: the addresses do not depend on the records. -/
theorem writesEachOnce (t : SensorTable) : WritesEachOnce t := by
  intro base junk
  have htouched : touchedBy ⟨some base⟩ (updateCalls t junk)
      = (List.range 10).map fun i => wordIndex (sensorReg i) := by
    rw [touchedBy_mapped, updateCalls, tempVInfoCalls_eq, List.map_map, List.map_map]
    rfl
  rw [htouched]
  refine ⟨by decide, fun k hk => ?_⟩
  obtain ⟨i, hi, rfl⟩ := List.mem_map.mp hk
  exact ⟨i, List.mem_range.mp hi, rfl⟩

/-! ### Two snapshots -/

/-- The record of sensor `i` alone decides the word left in its register. -/
def Separated (i : ℕ) (t t' : SensorTable) : Prop :=
  t i = t' i → ∀ dev junk junk',
    (tempVInfoUpdata dev (some t) junk).word (wordIndex (sensorReg i))
      = (tempVInfoUpdata dev (some t') junk').word (wordIndex (sensorReg i))

/-- The digits of a record, before its sign is looked at. -/
def digitsWord (r : StSensorinfo) : Word32 :=
  (BitVec.ofInt 32 r.hvtemp <<< 8) ||| BitVec.ofInt 32 r.lvtemp

/-- Two signs give a record the same word if both or none of them are negative, or if the mask
    does not change the digits. -/
theorem vtempV_eq_iff (sign sign' : Byte) (r : StSensorinfo) :
    vtempV sign r = vtempV sign' r
      ↔ (sign = negative ↔ sign' = negative) ∨ digitsWord r &&& 0x8000 = digitsWord r := by
  have hword : ∀ s, vtempV s r
      = if s = negative then digitsWord r &&& 0x8000 else digitsWord r := fun _ => rfl
  rw [hword, hword]
  by_cases h : sign = negative
  · by_cases h' : sign' = negative
    · rw [if_pos h, if_pos h']
      exact iff_of_true rfl (Or.inl (iff_of_true h h'))
    · rw [if_pos h, if_neg h']
      exact ⟨Or.inr, fun hmask => hmask.resolve_left fun hsign => h' (hsign.mp h)⟩
  · by_cases h' : sign' = negative
    · rw [if_neg h, if_pos h', eq_comm]
      exact ⟨Or.inr, fun hmask => hmask.resolve_left fun hsign => h (hsign.mpr h')⟩
    · rw [if_neg h, if_neg h']
      exact iff_of_true rfl (Or.inl (iff_of_false h h'))

/-- In the registers: the words the two snapshots give sensor `i`. -/
theorem separated_iff_infoWord {i : ℕ} (hi : i < 10) (t t' : SensorTable) :
    Separated i t t' ↔ (t i = t' i → infoWord t i = infoWord t' i) := by
  refine forall_congr' fun _ => ⟨fun h => ?_, fun h dev junk junk' => ?_⟩
  · have hreg := h ⟨some fun _ => 0⟩ (fun _ => 0) fun _ => 0
    rw [tempVInfoUpdata_word _ _ _ hi, tempVInfoUpdata_word _ _ _ hi] at hreg
    exact Option.some.inj hreg
  · obtain ⟨_ | base⟩ := dev
    · -- without a mapping nothing is written
      rw [tempVInfoUpdata, tempVInfoUpdata, afterCalls_unmapped, afterCalls_unmapped]
    · rw [tempVInfoUpdata_word _ _ _ hi, tempVInfoUpdata_word _ _ _ hi]
      exact congrArg some h

/-- The snapshots agree on whether the record four places before voltage record `i` is
    negative, or the mask of a negative record leaves the digits of record `i` as they are. -/
def SameNeighbour (i : ℕ) (t t' : SensorTable) : Prop :=
  ((t (i - 4)).sign = negative ↔ (t' (i - 4)).sign = negative)
    ∨ digitsWord (t i) &&& 0x8000 = digitsWord (t i)

/-- **Separation of sensors.**  For every two snapshots and every sensor: updates access each
    sensor register exactly once and nothing else, and the snapshots leave the same word in
    the sensor's register when they agree on its record, if and only if the sensor is a
    temperature or the snapshots also have the same neighbour. -/
theorem separated_iff (i : Fin 10) (t t' : SensorTable) :
    (Separated i t t' ∧ WritesEachOnce t ∧ WritesEachOnce t')
      ↔ (t i = t' i → i.val < 4 ∨ SameNeighbour i t t') := by
  rw [and_iff_left ⟨writesEachOnce t, writesEachOnce t'⟩, separated_iff_infoWord i.isLt]
  refine forall_congr' fun hrecord => ?_
  rw [infoWord, infoWord, ← hrecord, vtempV_eq_iff, signIndex]
  by_cases htemp : i.val < 4
  · -- a temperature's own sign is tested
    rw [if_pos htemp]
    exact iff_of_true (Or.inl (by rw [hrecord])) (Or.inl htemp)
  · rw [if_neg htemp]
    exact (or_iff_right htemp).symm

/-- Twelve volts in record `i`, and the sign of record `j`. -/
def twelveVolts (i j : ℕ) (sign : Byte) : SensorTable :=
  fun k => ⟨if k = j then sign else positive, if k = i then 12 else 0, 0⟩

/-- The first voltage depends on the sign of the first temperature, and the fifth voltage on that
    of the first one. -/
theorem not_separated :
    ¬Separated 4 (twelveVolts 4 0 positive) (twelveVolts 4 0 negative)
      ∧ ¬Separated 8 (twelveVolts 8 4 positive) (twelveVolts 8 4 negative) := by
  rw [separated_iff_infoWord (by omega), separated_iff_infoWord (by omega)]
  exact ⟨fun h => absurd (h rfl) (by decide), fun h => absurd (h rfl) (by decide)⟩

end Vpx3.Bmc
