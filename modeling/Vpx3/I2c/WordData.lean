import Vpx3.I2c.Client
import Vpx3.Lib.Bits

namespace Vpx3.I2c

/-!
# Word data — `i2c_write_word_data` against `i2c_read_word_data`

* `I2cBus.logged` — a bus with a record of the messages sent over it;
* `StoresBytes` — a device on a bus that keeps the two data bytes of a write in the register
  addressed and the one behind it, and returns them in that order;
* `wordRoundTrip_iff` — a word written is read back, and its bytes go over the bus in order,
  exactly when its high byte is zero.
-/

variable {σ : Type}

/-- The bus with a record of the messages of its transfers. -/
def I2cBus.logged (bus : I2cBus σ) : I2cBus (σ × List (List I2cMsg)) where
  transfer msgs s :=
    let (r, t) := bus.transfer msgs s.1
    (r, t, s.2 ++ [msgs])

/-- A device whose registers are `regs`: a transfer of a register address and two bytes that
    succeeds stores the bytes in that register and the next, and a word read that succeeds
    returns the two.  What a failed transfer does is open. -/
structure StoresBytes (bus : I2cBus σ) (regs : σ → Chips) : Prop where
  write : ∀ a r x y s, (bus.transfer [.write a [r, x, y]] s).1.ok = true →
    regs (bus.transfer [.write a [r, x, y]] s).2 = ((regs s).set a r x).set a (r + 1) y
  read : ∀ a r s, (bus.transfer (wordReadMsgs a r) s).1.ok = true →
    (bus.transfer (wordReadMsgs a r) s).1.data = [regs s a r, regs s a (r + 1)]

section
variable (bus : I2cBus σ) (a r : Byte) (value : Word) (s : σ)

/-- The state behind the write. -/
def afterWordWrite : σ × List (List I2cMsg) := (i2cWriteWordData bus.logged a r value (s, [])).2

/-- The outcome of the read behind it. -/
def wordReadBack : Byte × Word × σ × List (List I2cMsg) :=
  i2cReadWordData bus.logged a r (afterWordWrite bus a r value s)

/-- The word comes back, and the bytes on the bus were the command, the high byte of the word
    and its low byte. -/
structure WordRoundTrip : Prop where
  value_eq : (wordReadBack bus a r value s).2.1 = value
  bytes_eq : (afterWordWrite bus a r value s).2
    = [[.write a [r, value.extractLsb' 8 8, value.extractLsb' 0 8]]]

end

/-- The one message of the write: the byte sent for the high byte is zero. -/
def lowWordMsgs (a r : Byte) (value : Word) : List I2cMsg :=
  [.write a [r, 0, value.extractLsb' 0 8]]

/-- A write is the transfer of that message. -/
theorem i2cWriteWordData_eq (bus : I2cBus σ) (a r : Byte) (value : Word) (s : σ) :
    i2cWriteWordData bus a r value s
      = ((bus.transfer (lowWordMsgs a r value) s).1.ack,
          (bus.transfer (lowWordMsgs a r value) s).2) := by
  have hhigh : value.truncate 8 >>> 8 = 0#8 := by
    apply BitVec.eq_of_toNat_eq
    rw [BitVec.toNat_ushiftRight, Nat.shiftRight_eq_div_pow]
    exact Nat.div_eq_of_lt (BitVec.isLt _)
  have hlow : value.truncate 8 = value.extractLsb' 0 8 := by
    apply BitVec.eq_of_toNat_eq
    rw [BitVec.truncate_eq_setWidth, BitVec.toNat_setWidth, Bits.toNat_extractLsb', Nat.pow_zero,
      Nat.div_one]
  rw [i2cWriteWordData, hhigh, hlow]
  rfl

/-- The register behind the one addressed is another. -/
theorem reg_ne_succ (r : Byte) : r ≠ r + 1 := by
  bv_omega

/-- What a good write and a good read of the same register give: the low byte alone. -/
theorem wordReadBack_value {bus : I2cBus σ} {regs : σ → Chips} (hdev : StoresBytes bus regs)
    {a r : Byte} {value : Word} {s : σ}
    (hwrite : (i2cWriteWordData bus.logged a r value (s, [])).1 = 0)
    (hread : (wordReadBack bus a r value s).1 = 0) :
    (wordReadBack bus a r value s).2.1 = 0#8 ++ value.extractLsb' 0 8 := by
  have hlow : afterWordWrite bus a r value s
      = (bus.logged.transfer (lowWordMsgs a r value) (s, [])).2 := by
    rw [afterWordWrite, i2cWriteWordData_eq]
  rw [i2cWriteWordData_eq] at hwrite
  -- the two transfers, without the record
  have hregs := hdev.write a r 0 (value.extractLsb' 0 8) s ((XferReply.ack_eq_zero _).mp hwrite)
  rw [wordReadBack, hlow] at hread ⊢
  have hdata := hdev.read a r (bus.transfer (lowWordMsgs a r value) s).2
    ((XferReply.ack_eq_zero _).mp hread)
  rw [lowWordMsgs, hregs, Chips.set_of_reg_ne _ (reg_ne_succ r), Chips.set_same,
    Chips.set_same] at hdata
  show (bus.transfer (wordReadMsgs a r) (bus.transfer (lowWordMsgs a r value) s).2).1.word = _
  rw [lowWordMsgs, XferReply.word, hdata]
  rfl

/-- A word is its two bytes, so its low byte with a zero in front is the word only if its high
    byte is zero. -/
theorem zero_append_low_eq_iff (value : Word) :
    0#8 ++ value.extractLsb' 0 8 = value ↔ value.extractLsb' 8 8 = 0 := by
  have hbytes : value.extractLsb' 8 8 ++ value.extractLsb' 0 8 = value := by
    apply BitVec.eq_of_toNat_eq
    rw [Bits.toNat_append, Bits.toNat_extractLsb', Bits.toNat_extractLsb']
    omega
  constructor
  · intro h
    have hhigh := congrArg (BitVec.extractLsb' 8 8) h
    rw [BitVec.extractLsb'_append_eq_left] at hhigh
    exact hhigh.symm
  · intro h
    rw [h] at hbytes
    exact hbytes

/-- **Words written and read.**  On every bus with such a device, for every device address,
    register, value and prior state, if the write and the read behind it succeed, then the
    word comes back and its bytes were on the bus in order if and only if its high byte is
    zero. -/
theorem wordRoundTrip_iff {bus : I2cBus σ} {regs : σ → Chips} (hdev : StoresBytes bus regs)
    (a r : Byte) (value : Word) (s : σ)
    (hwrite : (i2cWriteWordData bus.logged a r value (s, [])).1 = 0)
    (hread : (wordReadBack bus a r value s).1 = 0) :
    WordRoundTrip bus a r value s ↔ value.extractLsb' 8 8 = 0 := by
  have hvalue := wordReadBack_value hdev hwrite hread
  have hlog : (afterWordWrite bus a r value s).2
      = [[.write a [r, 0, value.extractLsb' 0 8]]] := by
    rw [afterWordWrite, i2cWriteWordData_eq]
    rfl
  rw [← zero_append_low_eq_iff]
  constructor
  · intro h
    rw [← hvalue]
    exact h.value_eq
  · intro h
    refine ⟨hvalue.trans h, ?_⟩
    rw [hlog, (zero_append_low_eq_iff value).mp h]

/-- A bus of register files that take two bytes at a time. -/
def wordBus : I2cBus Chips where
  transfer
    | [.write a [r, x, y]], c => (⟨true, []⟩, (c.set a r x).set a (r + 1) y)
    | [.write _ [r], .read a 2], c => (⟨true, [c a r, c a (r + 1)]⟩, c)
    | _, c => (⟨false, []⟩, c)

theorem storesBytes_wordBus : StoresBytes wordBus id :=
  ⟨fun _ _ _ _ _ _ => rfl, fun _ _ _ _ => rfl⟩

/-- A word below `0x100`. -/
theorem wordRoundTrip_low : WordRoundTrip wordBus 0x4D 0x06 0x0042 fun _ _ => 0xFF :=
  (wordRoundTrip_iff storesBytes_wordBus 0x4D 0x06 0x0042 (fun _ _ => 0xFF) rfl rfl).mpr (by decide)

/-- Of `0x1234` the high byte is lost on the way out. -/
theorem not_wordRoundTrip :
    ¬WordRoundTrip wordBus 0x4D 0x06 0x1234 (fun _ _ => 0xFF)
      ∧ (wordReadBack wordBus 0x4D 0x06 0x1234 fun _ _ => 0xFF).2.1 = 0x0034 := by
  have hread : (wordReadBack wordBus 0x4D 0x06 0x1234 fun _ _ => 0xFF).2.1 = 0x0034 := by decide
  refine ⟨fun h => ?_, hread⟩
  rw [h.value_eq] at hread
  exact absurd hread (by decide)

end Vpx3.I2c
