import Vpx3.Lib.Bits
import Mathlib.Logic.Function.Basic

namespace Vpx3.Bmc

/-!
# FPGA driver — the ioctl of `fpga.c`

The command word of an access is a packed `FPGA_CONTROL_CMD`, reinterpreted as an `int` by
the caller and back by the driver; the CPU is big-endian.  `guipFpga` is the mapping made by
`fpga_init`: `none` when `ioremap` failed, else the 32-bit words found from its base on.
Nothing bounds an index into it, so the model's words go on past the window, and every
access records the word it touched.
-/

abbrev Word32 := BitVec 32

/-- `FPGA_CONTROL_CMD`. -/
@[ext] structure FpgaControlCmd where
  usRegAddr : BitVec 16
  ucReseved : BitVec 8
  ucCmd : BitVec 8
  deriving DecidableEq, Repr

/-- `*(int *)&stcmd`: the first member is the high half. -/
def FpgaControlCmd.toCmd (c : FpgaControlCmd) : Word32 := c.usRegAddr ++ c.ucReseved ++ c.ucCmd

/-- `(FPGA_CONTROL_CMD *)&cmd`. -/
def FpgaControlCmd.ofCmd (cmd : Word32) : FpgaControlCmd where
  usRegAddr := cmd.extractLsb' 16 16
  ucReseved := cmd.extractLsb' 8 8
  ucCmd := cmd.extractLsb' 0 8

/-- The driver decodes the command its caller packed. -/
@[simp] theorem FpgaControlCmd.ofCmd_toCmd (c : FpgaControlCmd) :
    FpgaControlCmd.ofCmd c.toCmd = c := by
  obtain ⟨a, r, k⟩ := c
  have hcmd : (a ++ r ++ k).toNat = (a.toNat * 2 ^ 8 + r.toNat) * 2 ^ 8 + k.toNat := by
    rw [BitVec.toNat_append, BitVec.toNat_append, Bits.shift_or _ r.isLt,
      Bits.shift_or _ k.isLt]
  have ha := a.isLt
  have hr := r.isLt
  have hk := k.isLt
  ext1
  all_goals
    simp only [ofCmd, toCmd]
    apply BitVec.eq_of_toNat_eq
    rw [BitVec.extractLsb'_toNat, hcmd, Nat.shiftRight_eq_div_pow]
    omega

def fpgaWrite : BitVec 8 := 1
def fpgaRead : BitVec 8 := 0

/-- The driver's global `guipFpga`. -/
structure FpgaDev where
  guipFpga : Option (ℕ → Word32)

/-- The user's word behind `arg`: a NULL pointer, a pointer that faults, or a valid word. -/
inductive UserWord where
  | null
  | fault
  | valid (w : Word32)
  deriving DecidableEq, Repr

/-- What one call of the ioctl does: its return value, the user's word behind `arg`
    afterwards, the words of the mapping it touched and the driver's state. -/
structure IoctlResult where
  ret : Int
  arg : UserWord
  touched : List ℕ
  dev : FpgaDev

/-- `fpga_info_ioctl`.  The switch is followed by no `return`, so past the checks the return
    value is the leftover `junk`; the results of the user copies are not looked at. -/
def fpgaInfoIoctl (dev : FpgaDev) (cmd : Word32) (arg : UserWord) (junk : Int) : IoctlResult :=
  let pstFpgaCtl := FpgaControlCmd.ofCmd cmd
  let offset := pstFpgaCtl.usRegAddr.toNat / 4
  if arg = .null then { ret := -1, arg := arg, touched := [], dev := dev }
  else
    match dev.guipFpga with
    | none => { ret := -1, arg := arg, touched := [], dev := dev }
    | some base =>
      if pstFpgaCtl.ucCmd = fpgaWrite then
        -- a faulting `__get_user` leaves zero in its destination
        let uiValue := match arg with
          | .valid w => w
          | _ => 0
        { ret := junk, arg := arg, touched := [offset],
          dev := ⟨some (Function.update base offset uiValue)⟩ }
      else if pstFpgaCtl.ucCmd = fpgaRead then
        let arg := match arg with
          | .valid _ => .valid (base offset)
          | other => other
        { ret := junk, arg := arg, touched := [offset], dev := dev }
      else { ret := junk, arg := arg, touched := [], dev := dev }

end Vpx3.Bmc
