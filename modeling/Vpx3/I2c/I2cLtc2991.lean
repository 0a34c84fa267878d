import Mathlib

namespace Vpx3.I2c

/-!
# I2C driver — the byte and word helpers of `i2c_ltc2991.c`

The helpers build the `i2c_msg` array of one transfer and hand it to the adapter of
`new_client`.  The adapter and the chips behind it are outside the driver: `I2cBus σ` is
any of them, with a hidden state of type `σ`.

* `I2cBus.transfer` — one call of `i2c_transfer`: does it return a negative number, and
  what does the read buffer hold afterwards (after a failed transfer: whatever happened
  to be there);
* `i2cReadWordData`, `i2cReadByteData`, `i2cWriteByteData` — the helpers,
  returning the `int8_t` acknowledge (`0`, or `-1` as a byte), the value and the new state;
* `envBus` — the bus whose chips answer the `k`-th read of each register by a table;
* `chipBus` — the bus of healthy chips that are plain register files.
-/

abbrev Byte := BitVec 8
abbrev Word := BitVec 16

/-- `struct i2c_msg`: a write message carries its bytes, a read message (`I2C_M_RD`) the
    number of bytes it wants. -/
inductive I2cMsg where
  | write (addr : Byte) (buf : List Byte)
  | read (addr : Byte) (len : Nat)
  deriving DecidableEq, Repr

/-- The outcome of one `i2c_transfer`: `ok` when the return value is not negative, and the
    bytes the read buffer holds afterwards. -/
structure XferReply where
  ok : Bool
  data : List Byte
  deriving DecidableEq, Repr

/-- The 16-bit variable behind a two-byte read buffer: a big-endian CPU reads the first
    byte as the high one. -/
def XferReply.word (r : XferReply) : Word := r.data.getD 0 0 ++ r.data.getD 1 0

/-- The byte variable behind a one-byte read buffer. -/
def XferReply.byte (r : XferReply) : Byte := r.data.getD 0 0

/-- An I2C adapter with the chips behind it. -/
structure I2cBus (σ : Type) where
  transfer : List I2cMsg → σ → XferReply × σ

/-- The value the helpers return: `0`, or `-1` when `i2c_transfer` failed. -/
def XferReply.ack (r : XferReply) : Byte := if r.ok then 0 else 0xFF

/-- An acknowledge is zero exactly for a transfer that succeeded. -/
theorem XferReply.ack_eq_zero (r : XferReply) : r.ack = 0 ↔ r.ok = true := by
  rw [XferReply.ack]
  split
  · exact iff_of_true rfl ‹_›
  · exact iff_of_false (by decide) ‹_›

variable {σ : Type}

/-- The messages of a word read: the command byte, then a two-byte read. -/
def wordReadMsgs (address command : Byte) : List I2cMsg :=
  [.write address [command], .read address 2]

/-- `i2c_read_word_data`: the acknowledge, the content of `*value`, the new state. -/
def i2cReadWordData (bus : I2cBus σ) (address command : Byte) (s : σ) : Byte × Word × σ :=
  let (r, s) := bus.transfer (wordReadMsgs address command) s
  (r.ack, r.word, s)

/-- `i2c_read_byte_data`. -/
def i2cReadByteData (bus : I2cBus σ) (address command : Byte) (s : σ) : Byte × Byte × σ :=
  let (r, s) := bus.transfer [.write address [command], .read address 1] s
  (r.ack, r.byte, s)

/-- `i2c_write_byte_data`. -/
def i2cWriteByteData (bus : I2cBus σ) (address command value : Byte) (s : σ) : Byte × σ :=
  let (r, s) := bus.transfer [.write address [command, value]] s
  (r.ack, s)

/-! ### Chips that answer reads from a table -/

/-- What the chips answer: the reply to the `k`-th word read of a chip's register. -/
abbrev RegEnv := Byte → Byte → ℕ → XferReply

/-- How often each register of each chip has been read so far. -/
abbrev Counts := Byte → Byte → ℕ

/-- One more read of a register. -/
def Counts.bump (c : Counts) (address reg : Byte) : Counts :=
  Function.update c address (Function.update (c address) reg (c address reg + 1))

@[simp] theorem Counts.bump_same (c : Counts) (a r : Byte) : c.bump a r a r = c a r + 1 := by
  simp [Counts.bump]

theorem Counts.bump_of_addr_ne (c : Counts) {a r a' r' : Byte} (h : a' ≠ a) :
    c.bump a r a' r' = c a' r' := by
  simp [Counts.bump, Function.update_of_ne h]

theorem Counts.bump_of_reg_ne (c : Counts) {a r a' r' : Byte} (h : r' ≠ r) :
    c.bump a r a' r' = c a' r' := by
  by_cases ha : a' = a
  · subst ha
    simp [Counts.bump, Function.update_of_ne h]
  · exact c.bump_of_addr_ne ha

/-- The bus of chips that answer word reads from the table `env`; nothing else is on it. -/
def envBus (env : RegEnv) : I2cBus Counts where
  transfer
    | [.write _ [command], .read address 2], c =>
      (env address command (c address command), c.bump address command)
    | _, c => (⟨false, []⟩, c)

@[simp] theorem envBus_wordRead (env : RegEnv) (a r : Byte) (c : Counts) :
    (envBus env).transfer (wordReadMsgs a r) c = (env a r (c a r), c.bump a r) := rfl

/-! ### Chips that are register files -/

/-- The register files of the chips on the bus. -/
abbrev Chips := Byte → Byte → Byte

/-- Store one byte in a register of one chip. -/
def Chips.set (c : Chips) (address reg value : Byte) : Chips :=
  Function.update c address (Function.update (c address) reg value)

@[simp] theorem Chips.set_same (c : Chips) (a r v : Byte) : c.set a r v a r = v := by
  simp [Chips.set]

theorem Chips.set_of_addr_ne (c : Chips) {a r v a' r' : Byte} (h : a' ≠ a) :
    c.set a r v a' r' = c a' r' := by
  simp [Chips.set, Function.update_of_ne h]

theorem Chips.set_of_reg_ne (c : Chips) {a r v a' r' : Byte} (h : r' ≠ r) :
    c.set a r v a' r' = c a' r' := by
  by_cases ha : a' = a
  · subst ha
    simp [Chips.set, Function.update_of_ne h]
  · exact c.set_of_addr_ne ha

/-- The bus of healthy chips: no transfer fails, a write stores the byte, a read of `len`
    bytes returns the addressed register and the ones after it. -/
def chipBus : I2cBus Chips where
  transfer
    | [.write address [reg, value]], c => (⟨true, []⟩, c.set address reg value)
    | [.write _ [reg], .read address len], c =>
      (⟨true, (List.range len).map (fun k => c address (reg + BitVec.ofNat 8 k))⟩, c)
    | _, c => (⟨false, []⟩, c)

@[simp] theorem i2cWriteByteData_chipBus (a r v : Byte) (c : Chips) :
    i2cWriteByteData chipBus a r v c = (0, c.set a r v) := rfl

@[simp] theorem i2cReadByteData_chipBus (a r : Byte) (c : Chips) :
    i2cReadByteData chipBus a r c = (0, c a r, c) := by
  simp [i2cReadByteData, chipBus, XferReply.ack, XferReply.byte]

end Vpx3.I2c
