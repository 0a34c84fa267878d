import Vpx3.Bmc.Fpga

namespace Vpx3.Bmc

/-!
# FPGA ioctl — all or nothing

* `Completes` — the call does the read or write that was asked for and returns 0;
* `Refuses` — it returns a negative number and leaves the registers as they were;
* `allOrNothing_iff` — one of the two holds exactly when the value that happens to be left in
  the return register tells what has been done.
-/

/-- The word of the mapping a command names. -/
def ioctlOffset (cmd : Word32) : ℕ := (FpgaControlCmd.ofCmd cmd).usRegAddr.toNat / 4

/-- The word lies in the `0xff` bytes that are mapped. -/
def InMapping (k : ℕ) : Prop := 4 * k + 4 ≤ 0xff

instance (k : ℕ) : Decidable (InMapping k) := inferInstanceAs (Decidable (_ ≤ _))

/-- The request of a call is a read or a write of a mapped word, through a good pointer. -/
structure Accessible (cmd : Word32) (arg : UserWord) : Prop where
  code : (FpgaControlCmd.ofCmd cmd).ucCmd = fpgaWrite ∨ (FpgaControlCmd.ofCmd cmd).ucCmd = fpgaRead
  pointer : ∃ w, arg = .valid w
  mapped : InMapping (ioctlOffset cmd)

/-- The requested access is done: a write has stored the user's word and nothing else, a read
    has delivered the register and stored nothing. -/
def Performed (base : ℕ → Word32) (cmd : Word32) (arg : UserWord) (r : IoctlResult) : Prop :=
  ((FpgaControlCmd.ofCmd cmd).ucCmd = fpgaWrite ∧ r.arg = arg
      ∧ ∃ w, arg = .valid w ∧ r.dev = ⟨some (Function.update base (ioctlOffset cmd) w)⟩)
    ∨ ((FpgaControlCmd.ofCmd cmd).ucCmd = fpgaRead ∧ r.arg = .valid (base (ioctlOffset cmd))
      ∧ r.dev = ⟨some base⟩)

/-- An accessible request was performed, and the call returns 0. -/
def Completes (dev : FpgaDev) (cmd : Word32) (arg : UserWord) (r : IoctlResult) : Prop :=
  r.ret = 0 ∧ Accessible cmd arg ∧ ∃ base, dev.guipFpga = some base ∧ Performed base cmd arg r

/-- The call returns a negative number and every register is unchanged. -/
def Refuses (dev : FpgaDev) (r : IoctlResult) : Prop := r.ret < 0 ∧ r.dev = dev

/-- The word a write stores: a faulting pointer gives zero. -/
def UserWord.fetched : UserWord → Word32
  | .valid w => w
  | _ => 0

section
variable {cmd : Word32} {arg : UserWord} (base : ℕ → Word32) (junk : Int) (harg : arg ≠ .null)
include harg

/-- A write is made whatever the pointer and the offset. -/
theorem fpgaInfoIoctl_write (hcmd : (FpgaControlCmd.ofCmd cmd).ucCmd = fpgaWrite) :
    fpgaInfoIoctl ⟨some base⟩ cmd arg junk
      = ⟨junk, arg, [ioctlOffset cmd],
          ⟨some (Function.update base (ioctlOffset cmd) arg.fetched)⟩⟩ := by
  unfold fpgaInfoIoctl
  rw [if_neg harg]
  dsimp only
  rw [if_pos hcmd]
  cases arg <;> rfl

/-- A call with any other code stores nothing. -/
theorem fpgaInfoIoctl_dev (hcmd : (FpgaControlCmd.ofCmd cmd).ucCmd ≠ fpgaWrite) :
    (fpgaInfoIoctl ⟨some base⟩ cmd arg junk).ret = junk
      ∧ (fpgaInfoIoctl ⟨some base⟩ cmd arg junk).dev = ⟨some base⟩ := by
  unfold fpgaInfoIoctl
  rw [if_neg harg]
  dsimp only
  rw [if_neg hcmd]
  split <;> exact ⟨rfl, rfl⟩

/-- A read through a good pointer delivers the register. -/
theorem fpgaInfoIoctl_read (hcmd : (FpgaControlCmd.ofCmd cmd).ucCmd = fpgaRead)
    (hvalid : ∃ w, arg = .valid w) :
    (fpgaInfoIoctl ⟨some base⟩ cmd arg junk).arg = .valid (base (ioctlOffset cmd)) := by
  obtain ⟨w, rfl⟩ := hvalid
  have hwrite : (FpgaControlCmd.ofCmd cmd).ucCmd ≠ fpgaWrite := by
    rw [hcmd]
    decide
  unfold fpgaInfoIoctl
  rw [if_neg harg]
  dsimp only
  rw [if_neg hwrite, if_pos hcmd]
  rfl

end

/-- What must be left in the return register for a call that reaches the switch: zero when the
    request is accessible, or a negative number when nothing changes by it. -/
def JunkFits (base : ℕ → Word32) (cmd : Word32) (arg : UserWord) (junk : Int) : Prop :=
  (junk = 0 ∧ Accessible cmd arg)
    ∨ (junk < 0 ∧ ((FpgaControlCmd.ofCmd cmd).ucCmd = fpgaWrite →
        base (ioctlOffset cmd) = arg.fetched))

/-- Without a pointer or a mapping the call refuses. -/
theorem fpgaInfoIoctl_refuses {dev : FpgaDev} {cmd : Word32} {arg : UserWord} {junk : Int}
    (h : arg = .null ∨ dev.guipFpga = none) : Refuses dev (fpgaInfoIoctl dev cmd arg junk) := by
  unfold fpgaInfoIoctl
  by_cases harg : arg = .null
  · rw [if_pos harg]
    exact ⟨show (-1 : Int) < 0 by decide, rfl⟩
  · rw [if_neg harg, h.resolve_left harg]
    exact ⟨show (-1 : Int) < 0 by decide, rfl⟩

section
variable {cmd : Word32} {arg : UserWord} (base : ℕ → Word32) (junk : Int) (harg : arg ≠ .null)
include harg

/-- A write is all or nothing exactly when the leftover fits. -/
theorem allOrNothing_write (hcmd : (FpgaControlCmd.ofCmd cmd).ucCmd = fpgaWrite) :
    (Completes ⟨some base⟩ cmd arg (fpgaInfoIoctl ⟨some base⟩ cmd arg junk)
        ∨ Refuses ⟨some base⟩ (fpgaInfoIoctl ⟨some base⟩ cmd arg junk))
      ↔ JunkFits base cmd arg junk := by
  rw [fpgaInfoIoctl_write base junk harg hcmd]
  apply or_congr
  · constructor
    · rintro ⟨hret, hacc, -⟩
      exact ⟨hret, hacc⟩
    · rintro ⟨hret, hacc⟩
      obtain ⟨w, rfl⟩ := hacc.pointer
      exact ⟨hret, hacc, base, rfl, Or.inl ⟨hcmd, rfl, w, rfl, rfl⟩⟩
  · -- a store changes nothing exactly when the register holds the word already
    refine and_congr_right fun _ => ?_
    rw [FpgaDev.mk.injEq, Option.some.injEq, Function.update_eq_self_iff]
    exact ⟨fun h _ => h.symm, fun h => (h hcmd).symm⟩

/-- So is a call with any other code. -/
theorem allOrNothing_other (hcmd : (FpgaControlCmd.ofCmd cmd).ucCmd ≠ fpgaWrite) :
    (Completes ⟨some base⟩ cmd arg (fpgaInfoIoctl ⟨some base⟩ cmd arg junk)
        ∨ Refuses ⟨some base⟩ (fpgaInfoIoctl ⟨some base⟩ cmd arg junk))
      ↔ JunkFits base cmd arg junk := by
  obtain ⟨hret, hdev⟩ := fpgaInfoIoctl_dev base junk harg hcmd
  apply or_congr
  · rw [Completes, hret]
    refine and_congr_right fun _ => and_iff_left_of_imp fun hacc => ?_
    have hread := hacc.code.resolve_left hcmd
    exact ⟨base, rfl, Or.inr ⟨hread, fpgaInfoIoctl_read base junk harg hread hacc.pointer, hdev⟩⟩
  · rw [Refuses, hret, hdev]
    exact and_congr_right fun _ => iff_of_true rfl fun h => absurd h hcmd

end

/-- **All or nothing.**  For every command word, every pointer, every state of the FPGA and
    every leftover, the ioctl completes the request and returns 0, or returns a negative number
    and changes nothing, if and only if the pointer is NULL, the FPGA is not mapped, or the
    leftover fits. -/
theorem allOrNothing_iff (dev : FpgaDev) (cmd : Word32) (arg : UserWord) (junk : Int) :
    (Completes dev cmd arg (fpgaInfoIoctl dev cmd arg junk)
        ∨ Refuses dev (fpgaInfoIoctl dev cmd arg junk))
      ↔ arg = .null ∨ dev.guipFpga = none
        ∨ ∃ base, dev.guipFpga = some base ∧ JunkFits base cmd arg junk := by
  by_cases harg : arg = .null
  · exact iff_of_true (Or.inr (fpgaInfoIoctl_refuses (Or.inl harg))) (Or.inl harg)
  obtain ⟨_ | base⟩ := dev
  · exact iff_of_true (Or.inr (fpgaInfoIoctl_refuses (Or.inr rfl))) (Or.inr (Or.inl rfl))
  have hcond : (arg = .null ∨ (⟨some base⟩ : FpgaDev).guipFpga = none
      ∨ ∃ base', (⟨some base⟩ : FpgaDev).guipFpga = some base' ∧ JunkFits base' cmd arg junk)
      ↔ JunkFits base cmd arg junk := by
    simp [harg]
  rw [hcond]
  by_cases hcmd : (FpgaControlCmd.ofCmd cmd).ucCmd = fpgaWrite
  · exact allOrNothing_write base junk harg hcmd
  · exact allOrNothing_other base junk harg hcmd

/-- With zero left in the return register: an unknown command code succeeds, and a pointer
    that faults clears the register at `0x10`. -/
theorem not_allOrNothing :
    ¬(Completes ⟨some fun _ => 9⟩ 0x00100007 (.valid 5)
          (fpgaInfoIoctl ⟨some fun _ => 9⟩ 0x00100007 (.valid 5) 0)
        ∨ Refuses ⟨some fun _ => 9⟩ (fpgaInfoIoctl ⟨some fun _ => 9⟩ 0x00100007 (.valid 5) 0))
      ∧ ¬(Completes ⟨some fun _ => 9⟩ 0x00100001 .fault
          (fpgaInfoIoctl ⟨some fun _ => 9⟩ 0x00100001 .fault 0)
        ∨ Refuses ⟨some fun _ => 9⟩ (fpgaInfoIoctl ⟨some fun _ => 9⟩ 0x00100001 .fault 0)) := by
  constructor
  · rintro (⟨-, hacc, -⟩ | ⟨hneg, -⟩)
    · exact absurd hacc.code (by decide)
    · exact absurd hneg (by decide)
  · rintro (⟨-, hacc, -⟩ | ⟨hneg, -⟩)
    · obtain ⟨w, hw⟩ := hacc.pointer
      nomatch hw
    · exact absurd hneg (by decide)

end Vpx3.Bmc
