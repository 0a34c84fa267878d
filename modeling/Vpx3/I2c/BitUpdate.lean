import Vpx3.I2c.Ltc2991

namespace Vpx3.I2c

/-!
# Bit updates — `LTC2991_register_set_clear_bits` on a bus that fails

* `faultyBus` — register files behind a bus on which each transfer has its own fate; a failed
  read leaves anything in its buffer, a failed write may or may not have reached the chip;
* `registerSetClearBits_faultyBus` — the call makes both transfers in every case;
* `atomicUpdate_iff` — the update is atomic exactly when the read transfer succeeds.
-/

/-- The fate of a transfer: `ok`, or a failure with what it leaves in a read buffer and whether
    a write was stored all the same. -/
structure Fate where
  ok : Bool
  junk : List Byte
  stored : Bool

/-- The register files, and the transfers made so far. -/
structure FaultyChips where
  chips : Chips
  log : List (List I2cMsg)

/-- The bus of register files on which the `n`-th transfer has the fate `fate n`. -/
def faultyBus (fate : ℕ → Fate) : I2cBus FaultyChips where
  transfer msgs s :=
    let f := fate s.log.length
    let (reply, chips) := chipBus.transfer msgs s.chips
    let log := s.log ++ [msgs]
    if f.ok then (reply, ⟨chips, log⟩)
    else (⟨false, f.junk⟩, ⟨if f.stored then chips else s.chips, log⟩)

/-- The messages of a byte read, and of a byte write. -/
def byteReadMsgs (address command : Byte) : List I2cMsg :=
  [.write address [command], .read address 1]

def byteWriteMsgs (address command value : Byte) : List I2cMsg :=
  [.write address [command, value]]

/-- The byte the update works on: the register, or the undefined byte of a failed read. -/
def readByte (fate : ℕ → Fate) (c : Chips) (a r : Byte) : Byte :=
  if (fate 0).ok then c a r else (fate 0).junk.getD 0 0

/-- What it writes back. -/
def updatedByte (old set clear : Byte) : Byte := (old &&& ~~~clear) ||| set

section
variable (fate : ℕ → Fate) (c : Chips) (a r set clear : Byte)

/-- A byte read leaves the registers alone. -/
theorem i2cReadByteData_faultyBus :
    i2cReadByteData (faultyBus fate) a r ⟨c, []⟩
      = (if (fate 0).ok then 0 else 0xFF, readByte fate c a r, ⟨c, [byteReadMsgs a r]⟩) := by
  have hread : chipBus.transfer (byteReadMsgs a r) c = (⟨true, [c a r]⟩, c) := by
    simp [chipBus, byteReadMsgs]
  have hcall : i2cReadByteData (faultyBus fate) a r ⟨c, []⟩
      = (((faultyBus fate).transfer (byteReadMsgs a r) ⟨c, []⟩).1.ack,
          ((faultyBus fate).transfer (byteReadMsgs a r) ⟨c, []⟩).1.byte,
          ((faultyBus fate).transfer (byteReadMsgs a r) ⟨c, []⟩).2) := rfl
  rw [hcall]
  simp only [faultyBus, hread, List.length_nil, List.nil_append, readByte]
  cases hok : (fate 0).ok with
  | true => rfl
  | false => simp [XferReply.ack, XferReply.byte]

/-- A byte write as the second transfer. -/
theorem i2cWriteByteData_faultyBus (v : Byte) (msgs : List I2cMsg) :
    i2cWriteByteData (faultyBus fate) a r v ⟨c, [msgs]⟩
      = (if (fate 1).ok then 0 else 0xFF,
          ⟨if (fate 1).ok = true ∨ (fate 1).stored = true then c.set a r v else c,
            [msgs, byteWriteMsgs a r v]⟩) := by
  have hcall : i2cWriteByteData (faultyBus fate) a r v ⟨c, [msgs]⟩
      = (((faultyBus fate).transfer (byteWriteMsgs a r v) ⟨c, [msgs]⟩).1.ack,
          ((faultyBus fate).transfer (byteWriteMsgs a r v) ⟨c, [msgs]⟩).2) := rfl
  have hwrite : chipBus.transfer (byteWriteMsgs a r v) c = (⟨true, []⟩, c.set a r v) := rfl
  rw [hcall]
  simp only [faultyBus, hwrite, List.length_singleton, List.singleton_append]
  cases hok : (fate 1).ok with
  | true => simp [XferReply.ack]
  | false => simp [XferReply.ack]

/-- Both transfers are made, whatever becomes of the first. -/
theorem registerSetClearBits_faultyBus :
    ltc2991RegisterSetClearBits (faultyBus fate) a r set clear ⟨c, []⟩
      = ((if (fate 0).ok then 0 else 0xFF) ||| (if (fate 1).ok then 0 else 0xFF),
          ⟨if (fate 1).ok = true ∨ (fate 1).stored = true then
              c.set a r (updatedByte (readByte fate c a r) set clear)
            else c,
            [byteReadMsgs a r,
              byteWriteMsgs a r (updatedByte (readByte fate c a r) set clear)]⟩) := by
  rw [ltc2991RegisterSetClearBits, i2cReadByteData_faultyBus]
  dsimp only
  rw [i2cWriteByteData_faultyBus]
  rfl

/-- The update is atomic: other registers keep their contents; with both transfers good it
    returns 0 and the register has its bits set and cleared; with a failed read it returns
    nonzero and writes nothing; what is stored never depends on what a failed read left. -/
structure AtomicUpdate : Prop where
  frame : ∀ a' r', ¬(a' = a ∧ r' = r) →
    (ltc2991RegisterSetClearBits (faultyBus fate) a r set clear ⟨c, []⟩).2.chips a' r' = c a' r'
  success : (fate 0).ok = true → (fate 1).ok = true →
    (ltc2991RegisterSetClearBits (faultyBus fate) a r set clear ⟨c, []⟩).1 = 0
      ∧ (ltc2991RegisterSetClearBits (faultyBus fate) a r set clear ⟨c, []⟩).2.chips a r
        = (c a r &&& ~~~clear) ||| set
  failed_read : (fate 0).ok = false →
    (ltc2991RegisterSetClearBits (faultyBus fate) a r set clear ⟨c, []⟩).1 ≠ 0
      ∧ (ltc2991RegisterSetClearBits (faultyBus fate) a r set clear ⟨c, []⟩).2
        = ⟨c, [byteReadMsgs a r]⟩
  defined : ∀ junk,
    (ltc2991RegisterSetClearBits
        (faultyBus (Function.update fate 0 { fate 0 with junk := junk })) a r set clear
        ⟨c, []⟩).2.chips
      = (ltc2991RegisterSetClearBits (faultyBus fate) a r set clear ⟨c, []⟩).2.chips

/-- **Atomic bit updates.**  For every content of the registers, all masks and every fate of
    the two transfers, the update is atomic if and only if the read succeeds. -/
theorem atomicUpdate_iff : AtomicUpdate fate c a r set clear ↔ (fate 0).ok = true := by
  constructor
  · intro h
    by_contra hfail
    -- the write is in the log
    have hlog := (h.failed_read (Bool.eq_false_of_not_eq_true hfail)).2
    rw [registerSetClearBits_faultyBus, FaultyChips.mk.injEq] at hlog
    exact absurd hlog.2 (by simp)
  · intro hok
    refine ⟨fun a' r' hne => ?_, fun _ hok' => ?_, fun hfail => ?_, fun junk => ?_⟩
    · rw [registerSetClearBits_faultyBus]
      dsimp only
      split
      · by_cases ha : a' = a
        · exact ha ▸ Chips.set_of_reg_ne _ fun hr => hne ⟨ha, hr⟩
        · exact Chips.set_of_addr_ne _ ha
      · rfl
    · rw [registerSetClearBits_faultyBus, if_pos hok, if_pos hok', if_pos (Or.inl hok')]
      dsimp only
      rw [Chips.set_same, readByte, if_pos hok]
      exact ⟨rfl, rfl⟩
    · rw [hok] at hfail
      exact absurd hfail.symm Bool.false_ne_true
    · -- after a good read the junk is not looked at
      have hread : readByte (Function.update fate 0 { fate 0 with junk := junk }) c a r
          = readByte fate c a r := by
        rw [readByte, readByte, Function.update_self, if_pos hok, if_pos hok]
      rw [registerSetClearBits_faultyBus, registerSetClearBits_faultyBus, hread,
        Function.update_of_ne Nat.one_ne_zero]

end

/-- The control register reads `0x22`, the read fails and leaves `0x11`: what is stored with
    bit 7 set is `0x91`. -/
theorem not_atomicUpdate :
    ¬AtomicUpdate (fun n => ⟨n ≠ 0, [0x11], false⟩) (fun _ _ => 0x22) 0x4D 0x06 0x80 0x00
      ∧ (ltc2991RegisterSetClearBits (faultyBus fun n => ⟨n ≠ 0, [0x11], false⟩) 0x4D 0x06 0x80
          0x00 ⟨fun _ _ => 0x22, []⟩).2.chips 0x4D 0x06 = 0x91 := by
  refine ⟨fun h => ?_, by decide⟩
  have hlog := congrArg FaultyChips.log (h.failed_read rfl).2
  exact absurd hlog (by decide)

end Vpx3.I2c
