import Mathlib
import Vpx3.Lib.Exec
import Vpx3.Dma.Chan

namespace Vpx3.Dma

open Exec

/-!
# Slave configuration — the request count of a channel

`DMA_SLAVE_CONFIG` sets how many bytes a channel moves before it pauses.  The count is a field of
the mode register, which the driver sets bits of and never clears.

* `fslChanSetRequestCount` — the write of the field, and the `BUG_ON` before it;
* `slaveStep` — the machine: a channel is configured again and again, from its reset on;
* `ConfigState.Gathered` — the field is the union of what the reset and every count wrote to it;
* `slaveConfigs_programmed_iff` — when each configuration comes out as asked.
-/

/-- `FSL_DMA_MR_BWC`, which lies in the field of the count. -/
def fslDmaMrBwc : Word := 0x08000000
def fslDmaMrEie : Word := 0x00000040
def fslDmaMrEolnie : Word := 0x00000100
def fslDmaMrEotie : Word := 0x00000080
def fslDmaMrPrcRm : Word := 0x00000800

/-- `dma_init`: the mode register behind it. -/
def dmaInit : Ip → Word
  | .ip85xx => fslDmaMrBwc ||| fslDmaMrEie ||| fslDmaMrEolnie
  | .ip83xx => fslDmaMrEotie ||| fslDmaMrPrcRm

/-- `__ilog2`: what `cntlzw` leaves of 31. -/
def ilog2 (x : Word) : Word := 31 - x.clz

/-- `fsl_chan_set_request_count`, on the mode register; `none` is `BUG_ON`. -/
def fslChanSetRequestCount (mode size : Word) : Option Word :=
  if (1024 : Word).slt size then none
  else some (mode ||| ((ilog2 size <<< 24) &&& 0x0f000000))

/-- `struct dma_slave_config`, as far as it is read. -/
structure DmaSlaveConfig where
  memToDev : Bool
  srcAddrWidth : Word
  dstAddrWidth : Word
  srcMaxburst : Word
  dstMaxburst : Word

/-- The burst size depends on the direction. -/
def DmaSlaveConfig.size (config : DmaSlaveConfig) : Word :=
  if config.memToDev then config.dstAddrWidth * config.dstMaxburst
  else config.srcAddrWidth * config.srcMaxburst

/-- The mode register, and the counts that were asked for, the last one first. -/
structure ConfigState where
  mr : Word
  asked : List Word

/-- `fsl_dma_device_control` with `DMA_SLAVE_CONFIG`. -/
def slaveStep (s : ConfigState) (config : DmaSlaveConfig) : Option ConfigState :=
  (fslChanSetRequestCount s.mr config.size).map fun mr => ⟨mr, config.size :: s.asked⟩

def configInit (ip : Ip) : ConfigState := ⟨dmaInit ip, []⟩

/-- The field of the mode register: the channel pauses after two to this power bytes, or never if
    all its bits are set. -/
def requestField (mode : Word) : BitVec 4 := mode.extractLsb' 24 4

/-- What the field has to be for a count; for 0 it is all ones. -/
def countLog (size : Word) : BitVec 4 := (ilog2 size).setWidth 4

/-- **Programmed.**  The field is that of the last count. -/
def ConfigState.Programmed (s : ConfigState) : Prop :=
  ∀ size ∈ s.asked.head?, requestField s.mr = countLog size

/-- The new count has all the bits of the reset and of the counts before it. -/
def Fits (ip : Ip) (s : ConfigState) (config : DmaSlaveConfig) : Prop :=
  ∀ old ∈ requestField (dmaInit ip) :: s.asked.map countLog,
    old ||| countLog config.size = countLog config.size

instance (ip : Ip) (s : ConfigState) (config : DmaSlaveConfig) : Decidable (Fits ip s config) :=
  inferInstanceAs (Decidable (∀ old ∈ _, _))

/-! ### The field -/

/-- All bits of a list. -/
def orAll (bits : List (BitVec 4)) : BitVec 4 := bits.foldr (· ||| ·) 0

/-- Bits are added to a word without effect exactly if it has them all. -/
theorem orAll_or_eq_iff (bits : List (BitVec 4)) (x : BitVec 4) :
    x ||| orAll bits = x ↔ ∀ old ∈ bits, old ||| x = x := by
  induction bits with
  | nil => simp [orAll]
  | cons b bits ih =>
    have hsplit : x ||| orAll (b :: bits) = x ↔ b ||| x = x ∧ x ||| orAll bits = x := by
      have hall : ∀ x b c : BitVec 4, x ||| (b ||| c) = x ↔ b ||| x = x ∧ x ||| c = x := by
        decide +kernel
      exact hall x b (orAll bits)
    rw [hsplit, ih, List.forall_mem_cons]

/-- The write adds the bits of the count to the field. -/
theorem requestField_set {mode size mode' : Word}
    (h : fslChanSetRequestCount mode size = some mode') :
    requestField mode' = countLog size ||| requestField mode := by
  unfold fslChanSetRequestCount at h
  split at h
  · cases h
  · obtain rfl := Option.some.inj h
    have hadded : ((ilog2 size <<< 24) &&& 0x0f000000).extractLsb' 24 4 = countLog size := by
      unfold countLog
      generalize ilog2 size = log
      apply BitVec.eq_of_getLsbD_eq
      intro i hi
      interval_cases i <;> simp
    unfold requestField
    rw [BitVec.extractLsb'_or, hadded, BitVec.or_comm]

/-! ### Runs -/

variable {ip : Ip} {s s' : ConfigState} {config : DmaSlaveConfig}

/-- **The field** is the union of what has ever been written to it. -/
def ConfigState.Gathered (ip : Ip) (s : ConfigState) : Prop :=
  requestField s.mr = orAll (s.asked.map countLog ++ [requestField (dmaInit ip)])

/-- What guarded runs keep. -/
structure ConfigInv (ip : Ip) (s : ConfigState) : Prop where
  field : s.Gathered ip
  programmed : s.Programmed

/-- A step adds a count, -/
theorem slaveStep_some (h : slaveStep s config = some s') :
    s'.asked = config.size :: s.asked
      ∧ requestField s'.mr = countLog config.size ||| requestField s.mr := by
  obtain ⟨mode, hset, rfl⟩ := Option.map_eq_some_iff.mp h
  exact ⟨rfl, requestField_set hset⟩

/-- whether it fits or not; -/
theorem gathered_step (hfield : s.Gathered ip) (h : slaveStep s config = some s') :
    s'.Gathered ip := by
  obtain ⟨hasked, hset⟩ := slaveStep_some h
  unfold ConfigState.Gathered at *
  rw [hset, hasked, hfield]
  rfl

/-- and the field is that of the count exactly if it does. -/
theorem programmed_step_iff (hfield : s.Gathered ip) (h : slaveStep s config = some s') :
    s'.Programmed ↔ Fits ip s config := by
  obtain ⟨hasked, hset⟩ := slaveStep_some h
  -- the guard has the reset in front, the field has it behind
  have hmem : ∀ old, old ∈ s.asked.map countLog ++ [requestField (dmaInit ip)]
      ↔ old ∈ requestField (dmaInit ip) :: s.asked.map countLog := by
    intro old
    rw [List.mem_append, List.mem_singleton, List.mem_cons, or_comm]
  unfold ConfigState.Programmed Fits
  rw [hasked, hset, hfield, List.head?_cons]
  simp only [Option.mem_def, Option.some.injEq, forall_eq', orAll_or_eq_iff, hmem]

theorem configInv_init (ip : Ip) : ConfigInv ip (configInit ip) where
  field := BitVec.or_zero.symm
  programmed size hsize := by cases hsize

/-- A run gathers as well, whatever it asks for. -/
theorem gathered_exec (run : List DmaSlaveConfig) (hfield : s.Gathered ip)
    (hrun : exec slaveStep s run = some s') : s'.Gathered ip :=
  exec_invariant (fun _ _ _ h _ hstep => gathered_step h hstep) run s s' hfield
    (Guarded.of_labels run (fun _ _ => trivial) s) hrun

/-- **Request counts.**  From the reset of a channel on and along every run of slave
    configurations: every count is programmed as it was asked for, if and only if the field of each
    has all the bits of those before it, and on the 85xx of the bandwidth control; there no count
    below 256 bytes is ever programmed, whatever is asked for. -/
theorem slaveConfigs_programmed_iff (ip : Ip) (run : List DmaSlaveConfig) (s : ConfigState)
    (hrun : exec slaveStep (configInit ip) run = some s) :
    (Always slaveStep ConfigState.Programmed (configInit ip) run
        ↔ Guarded slaveStep (Fits ip) (configInit ip) run)
      ∧ (ip = .ip85xx → 256 ≤ 2 ^ (requestField s.mr).toNat) := by
  refine ⟨?_, ?_⟩
  · refine always_iff_guarded (fun _ h => ConfigInv.programmed h) ?_ ?_ (configInv_init ip) hrun
    · intro t config t' h hfits hstep
      exact ⟨gathered_step h.field hstep, (programmed_step_iff h.field hstep).mpr hfits⟩
    · intro t config t' h hstep hprogrammed
      exact (programmed_step_iff h.field hstep).mp hprogrammed
  · -- the bandwidth control is bit 3 of the field, and stays
    rintro rfl
    have hfield : requestField s.mr = _ := gathered_exec run (configInv_init .ip85xx).field hrun
    have hreset : requestField s.mr ||| requestField (dmaInit .ip85xx) = requestField s.mr := by
      have hself : requestField s.mr ||| orAll (s.asked.map countLog
          ++ [requestField (dmaInit .ip85xx)]) = requestField s.mr := by
        rw [← hfield, BitVec.or_self]
      have hin := (orAll_or_eq_iff _ _).mp hself (requestField (dmaInit .ip85xx))
        (List.mem_append_right _ List.mem_cons_self)
      rw [BitVec.or_comm]
      exact hin
    have hlarge : ∀ x : BitVec 4, x ||| requestField (dmaInit .ip85xx) = x → 8 ≤ x.toNat := by
      decide +kernel
    exact Nat.pow_le_pow_right Nat.two_pos (hlarge _ hreset)

/-- Bursts of 256, of 512 and of 4 bytes. -/
def threeConfigs : List DmaSlaveConfig :=
  [⟨true, 1, 4, 16, 64⟩, ⟨false, 8, 4, 64, 64⟩, ⟨true, 4, 4, 1, 1⟩]

/-- The third comes out as 2048 bytes. -/
theorem not_programmed_threeConfigs :
    ¬Always slaveStep ConfigState.Programmed (configInit .ip85xx) threeConfigs := by
  have hsome : (exec slaveStep (configInit .ip85xx) threeConfigs).isSome = true := by
    decide +kernel
  obtain ⟨s, hs⟩ := Option.isSome_iff_exists.mp hsome
  rw [(slaveConfigs_programmed_iff .ip85xx threeConfigs s hs).1]
  decide +kernel

end Vpx3.Dma
