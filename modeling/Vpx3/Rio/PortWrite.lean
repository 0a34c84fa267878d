import Vpx3.Lib.Exec
import Vpx3.Lib.Fifo
import Vpx3.Lib.Flags
import Vpx3.Rio.Atmu

namespace Vpx3.Rio

open Exec Fifos Flags

/-!
# Port-writes — the interrupt of `fsl_rmu.c` and its work item

The port-write controller has one buffer.  A port-write that it takes fills the buffer, and none
is taken until `fsl_rio_port_write_handler` has cleared the queue.  The handler copies the buffer
to a FIFO, or counts the message as discarded; `fsl_pw_dpc` takes messages out and hands them to
the RapidIO core.

* `pwStep` — the machine: port-writes arrive between any two register accesses of the handler,
  and the work item runs at any time;
* `PwInv` — what every state keeps: no message is lost between the buffer, the handler, the FIFO
  and the core, no one twice, all whole and in order, and what waits will be looked at;
* `portWrites_delivered` — the same for every run;
* `Deaf` — the controller waits for a handler that will not look: `msg_unit_error_handler` clears
  the interrupt of a port-write that came behind the handler's last look, or to an interrupt in
  which it takes none;
* `hears_iff_guarded` — in every state something can still be heard, exactly along the runs in
  which no port-write comes there.
-/

/-! ### Registers -/

def rioIpwmrSen : Reg32 := 0x00100000
def rioIpwmrQfie : Reg32 := 0x00000100
def rioIpwmrEie : Reg32 := 0x00000020
def rioIpwmrCq : Reg32 := 0x00000002
def rioIpwmrPwe : Reg32 := 0x00000001

def rioIpwsrQf : Reg32 := 0x00100000
def rioIpwsrTe : Reg32 := 0x00000080
def rioIpwsrQfi : Reg32 := 0x00000010
def rioIpwsrPwd : Reg32 := 0x00000008

def rioEpwisrMu : Reg32 := 0x00000002
def rioEpwisrPw : Reg32 := 0x00000001

def ipwsrClear : Reg32 := 0x98

def rioPwMsgSize : ℕ := 64

/-- A port-write. -/
structure PwMsg where
  bytes : List (BitVec 8)
  size : bytes.length = rioPwMsgSize

/-! ### The machine -/

/-- What the handler has read. -/
structure PwLocals where
  epwisr : Reg32
  ipwmr : Reg32
  ipwsr : Reg32

/-- Where the handler is: before which of its register accesses. -/
inductive PwPc where
  | idle
  | readMr (epwisr : Reg32)
  | readSr (epwisr ipwmr : Reg32)
  /-- Before the tests of `RIO_IPWSR_QFI` and of the room in the FIFO. -/
  | testQfi (l : PwLocals)
  | clearQfi (l : PwLocals)
  | clearQueue (l : PwLocals)
  | testTe (l : PwLocals)
  | errClear (l : PwLocals)
  | errRestore (l : PwLocals)
  | testPwd (l : PwLocals)
  | clearPwd (l : PwLocals)
  /-- `pw_done`. -/
  | done (epwisr : Reg32)
  /-- In `msg_unit_error_handler`, before it clears the port-write status. -/
  | clearUnit

/-- `struct fsl_rio_pw` with its registers and the work item.  What the core was handed, the
    port-writes that the controller took, and those that the handler looked at, with whether it
    kept them, are recorded. -/
structure PwState where
  pwmr : Reg32
  pwsr : Reg32
  virt : PwMsg
  msgCount : Reg32
  errCount : Reg32
  discardCount : Reg32
  pwFifo : Fifo (BitVec 8)
  pwWork : Bool
  dpc : Bool
  pc : PwPc
  arrived : List PwMsg
  seen : List (PwMsg × Bool)
  delivered : List (List (BitVec 8))

/-- Write of `pwsr`: ones clear. -/
def PwState.writePwsr (s : PwState) (v : Reg32) : PwState :=
  { s with pwsr := s.pwsr &&& ~~~v }

/-- Write of `pwmr`: `RIO_IPWMR_CQ` clears the queue, and is not kept. -/
def PwState.writePwmr (s : PwState) (v : Reg32) : PwState :=
  { s with
    pwmr := v &&& ~~~rioIpwmrCq
    pwsr := if isSet v rioIpwmrCq then s.pwsr &&& ~~~rioIpwsrQf else s.pwsr }

/-- The message is saved if there is room in the FIFO, otherwise it is discarded. -/
def PwState.save (s : PwState) : PwState :=
  if rioPwMsgSize ≤ s.pwFifo.avail then
    { s with
      msgCount := s.msgCount + 1
      pwFifo := s.pwFifo.put s.virt.bytes
      seen := s.seen ++ [(s.virt, true)] }
  else { s with discardCount := s.discardCount + 1, seen := s.seen ++ [(s.virt, false)] }

/-- One step of `fsl_rio_port_write_handler`, which calls `msg_unit_error_handler` last. -/
def portWriteHandler (s : PwState) : Option PwState :=
  match s.pc with
  | .idle => none
  | .readMr epwisr => some { s with pc := .readSr epwisr s.pwmr }
  | .readSr epwisr ipwmr => some { s with pc := .testQfi ⟨epwisr, ipwmr, s.pwsr⟩ }
  | .testQfi l =>
    if isSet l.ipwsr rioIpwsrQfi then some { s.save with pc := .clearQfi l }
    else some { s with pc := .testTe l }
  | .clearQfi l => some { s.writePwsr rioIpwsrQfi with pc := .clearQueue l }
  -- the queue is cleared, and the work item scheduled
  | .clearQueue l =>
    some { s.writePwmr (l.ipwmr ||| rioIpwmrCq) with pwWork := true, pc := .testTe l }
  | .testTe l =>
    if isSet l.ipwmr rioIpwmrEie && isSet l.ipwsr rioIpwsrTe then
      some { s.writePwmr (l.ipwmr &&& ~~~rioIpwmrPwe) with
        errCount := s.errCount + 1
        pc := .errClear l }
    else some { s with pc := .testPwd l }
  | .errClear l => some { s.writePwsr rioIpwsrTe with pc := .errRestore l }
  | .errRestore l => some { s.writePwmr l.ipwmr with pc := .testPwd l }
  | .testPwd l =>
    if isSet l.ipwsr rioIpwsrPwd then
      some { s with discardCount := s.discardCount + 1, pc := .clearPwd l }
    else some { s with pc := .done l.epwisr }
  | .clearPwd l => some { s.writePwsr rioIpwsrPwd with pc := .done l.epwisr }
  -- the port errors are another unit's
  | .done epwisr =>
    if isSet epwisr rioEpwisrMu then some { s with pc := .clearUnit }
    else some { s with pc := .idle }
  | .clearUnit => some { s.writePwsr ipwsrClear with pc := .idle }

/-- The controller receives a port-write: into its buffer, or it is discarded. -/
def PwState.arrive (s : PwState) (m : PwMsg) : PwState :=
  if isSet s.pwsr rioIpwsrQf then { s with pwsr := s.pwsr ||| rioIpwsrPwd }
  else { s with
    virt := m
    pwsr := s.pwsr ||| (rioIpwsrQf ||| rioIpwsrQfi)
    arrived := s.arrived ++ [m] }

/-- One round of `fsl_pw_dpc`. -/
def PwState.dpcRound (s : PwState) : PwState :=
  if s.pwFifo.contents = [] then { s with dpc := false }
  else { s with
    pwFifo := (s.pwFifo.take rioPwMsgSize).2
    delivered := s.delivered ++ [(s.pwFifo.take rioPwMsgSize).1] }

/-- `fsl_rio_pw_enable`. -/
def PwState.enable (s : PwState) (enable : Bool) : PwState :=
  s.writePwmr (if enable then s.pwmr ||| rioIpwmrPwe else s.pwmr &&& ~~~rioIpwmrPwe)

/-- What can happen: a port-write or an error reaches the controller, the interrupt is raised, the
    handler takes a step, the work item starts and goes on, port-writes are enabled or not. -/
inductive PwEvent where
  | arrive (m : PwMsg)
  | error
  | irq (epwisr : Reg32)
  | tick
  | dpcStart
  | dpcRound
  | enable (enable : Bool)

/-- Whether the handler runs. -/
def PwPc.running : PwPc → Bool
  | .idle => false
  | _ => true

/-- The machine. -/
def pwStep (s : PwState) : PwEvent → Option PwState
  | .arrive m => if isSet s.pwmr rioIpwmrPwe then some (s.arrive m) else none
  | .error => some { s with pwsr := s.pwsr ||| rioIpwsrTe }
  | .irq epwisr =>
    if s.pc.running then none
    else if isSet epwisr rioEpwisrPw then some { s with pc := .readMr epwisr }
    else some { s with pc := .done epwisr }
  | .tick => portWriteHandler s
  | .dpcStart =>
    if s.pwWork && !s.dpc then some { s with pwWork := false, dpc := true } else none
  | .dpcRound => if s.dpc then some s.dpcRound else none
  | .enable enable => if s.pc.running then none else some (s.enable enable)

/-- Behind `fsl_rio_port_write_init`, with whatever is in the buffer. -/
def pwInit (virt : PwMsg) : PwState where
  pwmr := rioIpwmrSen ||| rioIpwmrQfie ||| rioIpwmrEie
  pwsr := 0
  virt := virt
  msgCount := 0
  errCount := 0
  discardCount := 0
  pwFifo := Fifo.empty (rioPwMsgSize * 32)
  pwWork := false
  dpc := false
  pc := .idle
  arrived := []
  seen := []
  delivered := []

/-! ### The queue's status -/

/-- The buffer is full. -/
abbrev PwState.full (s : PwState) : Bool := isSet s.pwsr rioIpwsrQf

/-- The interrupt of a full buffer is raised. -/
abbrev PwState.raised (s : PwState) : Bool := isSet s.pwsr rioIpwsrQfi

/-- The handler has looked at the buffer, and has not cleared the queue. -/
def PwPc.copied : PwPc → Bool
  | .clearQfi _ => true
  | .clearQueue _ => true
  | _ => false

/-- The handler is about to look at the buffer. -/
def PwPc.looks : PwPc → Bool
  | .testQfi _ => true
  | _ => false

/-- The mode word that the handler has read. -/
def PwPc.mr : PwPc → Option Reg32
  | .readSr _ ipwmr => some ipwmr
  | .testQfi l | .clearQfi l | .clearQueue l | .testTe l | .errClear l | .errRestore l
  | .testPwd l | .clearPwd l => some l.ipwmr
  | _ => none

/-- The interrupt of a port-write that comes now is cleared with the unit's status, before the
    handler looks again: it has found no port-write in the status it read, or has cleared the
    queue, or does not look because `PW` is not set in what it was taken with. -/
def PwPc.misses : PwPc → Bool
  | .testQfi l => isSet l.epwisr rioEpwisrMu && !isSet l.ipwsr rioIpwsrQfi
  | .testTe l | .errClear l | .errRestore l | .testPwd l | .clearPwd l =>
    isSet l.epwisr rioEpwisrMu
  | .done epwisr => isSet epwisr rioEpwisrMu
  | .clearUnit => true
  | _ => false

/-- Steps to the end of the handler, at most. -/
def PwPc.rank : PwPc → ℕ
  | .idle => 0
  | .clearUnit => 1
  | .done _ => 2
  | .clearPwd _ => 3
  | .testPwd _ => 4
  | .errRestore _ => 5
  | .errClear _ => 6
  | .testTe _ => 7
  | .clearQueue _ => 8
  | .clearQfi _ => 9
  | .testQfi _ => 10
  | .readSr _ _ => 11
  | .readMr _ => 12

/-- The port-write in the buffer that the handler has not looked at. -/
def PwState.waiting (s : PwState) : List PwMsg :=
  if s.full && !s.pc.copied then [s.virt] else []

/-- What the handler put into the FIFO, of the port-writes that it looked at. -/
def kept (seen : List (PwMsg × Bool)) : List (List (BitVec 8)) :=
  (seen.filter (·.2)).map (·.1.bytes)

theorem kept_append_kept (seen : List (PwMsg × Bool)) (m : PwMsg) :
    kept (seen ++ [(m, true)]) = kept seen ++ [m.bytes] := by
  simp [kept]

theorem kept_append_discarded (seen : List (PwMsg × Bool)) (m : PwMsg) :
    kept (seen ++ [(m, false)]) = kept seen := by
  simp [kept]

variable {s s' : PwState}

theorem full_writePwsr {v : Reg32} (h : v &&& rioIpwsrQf = 0) : (s.writePwsr v).full = s.full :=
  isSet_clear_of_disjoint s.pwsr h

theorem raised_writePwsr {v : Reg32} (h : v &&& rioIpwsrQfi = 0) :
    (s.writePwsr v).raised = s.raised :=
  isSet_clear_of_disjoint s.pwsr h

/-- A mode word leaves the interrupt as it is, -/
theorem raised_writePwmr (v : Reg32) : (s.writePwmr v).raised = s.raised := by
  unfold PwState.writePwmr PwState.raised
  dsimp only
  split
  · exact isSet_clear_of_disjoint s.pwsr (by decide)
  · rfl

/-- and the queue, unless it clears it. -/
theorem full_writePwmr {v : Reg32} (h : isSet v rioIpwmrCq = false) :
    (s.writePwmr v).full = s.full := by
  unfold PwState.writePwmr PwState.full
  rw [h]
  rfl

theorem full_writePwmr_cq (v : Reg32) : (s.writePwmr (v ||| rioIpwmrCq)).full = false := by
  have hcq : isSet (v ||| rioIpwmrCq) rioIpwmrCq = true := by
    rw [isSet_or]
    exact Bool.or_eq_true_iff.mpr (Or.inr (by decide))
  unfold PwState.writePwmr PwState.full
  rw [hcq]
  exact isSet_clear s.pwsr rioIpwsrQf

theorem cq_writePwmr (v : Reg32) : isSet (s.writePwmr v).pwmr rioIpwmrCq = false :=
  isSet_clear v rioIpwmrCq

/-! ### What every state keeps -/

/-- **Port-writes** between the controller, the handler, the FIFO and the core. -/
structure PwInv (s : PwState) : Prop where
  arrived : s.arrived = s.seen.map Prod.fst ++ s.waiting
  fifo : ∃ rs, Records rioPwMsgSize rs s.pwFifo ∧ kept s.seen = s.delivered ++ rs
  size : s.pwFifo.size = rioPwMsgSize * 32
  msgCount : s.msgCount = BitVec.ofNat 32 (kept s.seen).length
  work : s.pwFifo.contents ≠ [] → s.pwWork = true ∨ s.dpc = true ∨ s.pc.copied = true
  raised : s.raised = true → s.full = true
  looked : ∀ l, s.pc = .testQfi l → isSet l.ipwsr rioIpwsrQfi = true → s.raised = true
  clearQfi : ∀ l, s.pc = .clearQfi l → s.raised = true
  clearQueue : ∀ l, s.pc = .clearQueue l → s.full = true ∧ s.raised = false
  cq : isSet s.pwmr rioIpwmrCq = false
  mr : ∀ m, s.pc.mr = some m → isSet m rioIpwmrCq = false

theorem pwInv_init (virt : PwMsg) : PwInv (pwInit virt) where
  arrived := by
    unfold PwState.waiting
    rw [show (pwInit virt).full = false from isSet_zero rioIpwsrQf]
    rfl
  fifo := ⟨[], Records.empty _ _, rfl⟩
  size := rfl
  msgCount := rfl
  work h := absurd rfl h
  raised h := absurd (h.symm.trans (isSet_zero rioIpwsrQfi)) Bool.noConfusion
  looked _ h := PwPc.noConfusion h
  clearQfi _ h := PwPc.noConfusion h
  clearQueue _ h := PwPc.noConfusion h
  cq := by
    show isSet (rioIpwmrSen ||| rioIpwmrQfie ||| rioIpwmrEie) rioIpwmrCq = false
    decide
  mr _ h := by cases h

/-- A step that has nothing to do with the buffer. -/
structure Aside (s s' : PwState) : Prop where
  full : s'.full = s.full
  raised : s'.raised = s.raised
  virt : s'.virt = s.virt
  arrived : s'.arrived = s.arrived
  seen : s'.seen = s.seen
  delivered : s'.delivered = s.delivered
  pwFifo : s'.pwFifo = s.pwFifo
  msgCount : s'.msgCount = s.msgCount
  pwWork : s'.pwWork = s.pwWork
  dpc : s'.dpc = s.dpc

/-- Such a step of the handler, between two points where nothing is copied. -/
theorem PwInv.aside (h : PwInv s) (ha : Aside s s') (hpc : s.pc.copied = false)
    (hpc' : s'.pc.copied = false)
    (hlooked : ∀ l, s'.pc = .testQfi l → isSet l.ipwsr rioIpwsrQfi = true → s'.raised = true)
    (hcq : isSet s'.pwmr rioIpwmrCq = false)
    (hmr : ∀ m, s'.pc.mr = some m → isSet m rioIpwmrCq = false) : PwInv s' where
  arrived := by
    have hwaiting : s'.waiting = s.waiting := by
      unfold PwState.waiting
      rw [hpc, hpc', ha.full, ha.virt]
    rw [ha.arrived, ha.seen, hwaiting]
    exact h.arrived
  fifo := by
    rw [ha.pwFifo, ha.delivered, ha.seen]
    exact h.fifo
  size := by
    rw [ha.pwFifo]
    exact h.size
  msgCount := by
    rw [ha.msgCount, ha.seen]
    exact h.msgCount
  work hne := by
    rw [ha.pwFifo] at hne
    rw [ha.pwWork, ha.dpc, hpc']
    exact hpc ▸ h.work hne
  raised hraised := by
    rw [ha.raised] at hraised
    rw [ha.full]
    exact h.raised hraised
  looked := hlooked
  clearQfi l hl := by
    rw [hl] at hpc'
    cases hpc'
  clearQueue l hl := by
    rw [hl] at hpc'
    cases hpc'
  cq := hcq
  mr := hmr

/-- A look at the buffer. -/
theorem PwInv.save (h : PwInv s) (l : PwLocals) (hpc : s.pc = .testQfi l)
    (hl : isSet l.ipwsr rioIpwsrQfi = true) : PwInv { s.save with pc := .clearQfi l } := by
  have hraised := h.looked l hpc hl
  have hfull := h.raised hraised
  have hwaiting : s.waiting = [s.virt] := by
    unfold PwState.waiting
    rw [hfull, hpc]
    rfl
  have harrived := h.arrived
  rw [hwaiting] at harrived
  have hmr : ∀ m, PwPc.mr (.clearQfi l) = some m → isSet m rioIpwmrCq = false := by
    intro m hm
    exact h.mr m (hpc ▸ hm)
  obtain ⟨rs, hrs, hkept⟩ := h.fifo
  unfold PwState.save
  by_cases hroom : rioPwMsgSize ≤ s.pwFifo.avail
  · rw [if_pos hroom]
    have hnow := kept_append_kept s.seen s.virt
    refine ⟨?_, ⟨rs ++ [s.virt.bytes], hrs.put s.virt.size hroom, ?_⟩, h.size, ?_,
      fun _ => Or.inr (Or.inr rfl), h.raised, ?_, fun _ _ => hraised, ?_, h.cq, hmr⟩
    · rw [harrived]
      simp [PwState.waiting, PwPc.copied]
    · refine hnow.trans ?_
      rw [hkept, List.append_assoc]
    · show s.msgCount + 1 = BitVec.ofNat 32 (kept (s.seen ++ [(s.virt, true)])).length
      rw [h.msgCount, hnow, List.length_append, BitVec.ofNat_add]
      rfl
    · intro l' hl'
      cases hl'
    · intro l' hl'
      cases hl'
  · rw [if_neg hroom]
    have hnow := kept_append_discarded s.seen s.virt
    refine ⟨?_, ⟨rs, hrs, hnow.trans hkept⟩, h.size, ?_, fun _ => Or.inr (Or.inr rfl), h.raised,
      ?_, fun _ _ => hraised, ?_, h.cq, hmr⟩
    · rw [harrived]
      simp [PwState.waiting, PwPc.copied]
    · exact h.msgCount.trans (congrArg (fun l => BitVec.ofNat 32 (List.length l)) hnow.symm)
    · intro l' hl'
      cases hl'
    · intro l' hl'
      cases hl'

/-- The interrupt of the buffer is cleared, while it is full. -/
theorem PwInv.clearInterrupt (h : PwInv s) (l : PwLocals) (hpc : s.pc = .clearQfi l) :
    PwInv { s.writePwsr rioIpwsrQfi with pc := .clearQueue l } where
  arrived := by
    have hwaiting : s.waiting = [] := by
      unfold PwState.waiting
      rw [hpc, PwPc.copied, Bool.not_true, Bool.and_false]
      rfl
    have harrived := h.arrived
    rw [hwaiting] at harrived
    refine harrived.trans ?_
    simp [PwState.waiting, PwPc.copied, PwState.writePwsr]
  fifo := h.fifo
  size := h.size
  msgCount := h.msgCount
  work _ := Or.inr (Or.inr rfl)
  raised hraised := absurd (hraised.symm.trans (isSet_clear s.pwsr rioIpwsrQfi)) Bool.noConfusion
  looked l' hl' := by cases hl'
  clearQfi l' hl' := by cases hl'
  clearQueue _ _ :=
    ⟨(full_writePwsr (by decide)).trans (h.raised (h.clearQfi l hpc)),
      isSet_clear s.pwsr rioIpwsrQfi⟩
  cq := h.cq
  mr m hm := h.mr m (hpc ▸ hm)

/-- The queue is cleared. -/
theorem PwInv.clearBuffer (h : PwInv s) (l : PwLocals) (hpc : s.pc = .clearQueue l) :
    PwInv { s.writePwmr (l.ipwmr ||| rioIpwmrCq) with pwWork := true, pc := .testTe l } where
  arrived := by
    have hwaiting : s.waiting = [] := by
      unfold PwState.waiting
      rw [hpc, PwPc.copied, Bool.not_true, Bool.and_false]
      rfl
    have hfull := full_writePwmr_cq (s := s) l.ipwmr
    have harrived := h.arrived
    rw [hwaiting] at harrived
    refine harrived.trans (congrArg _ ?_)
    unfold PwState.waiting
    rw [show PwState.full _ = false from hfull]
    rfl
  fifo := h.fifo
  size := h.size
  msgCount := h.msgCount
  work _ := Or.inl rfl
  raised hraised := by
    have hsame : (s.writePwmr (l.ipwmr ||| rioIpwmrCq)).raised = true := hraised
    rw [raised_writePwmr, (h.clearQueue l hpc).2] at hsame
    cases hsame
  looked l' hl' := by cases hl'
  clearQfi l' hl' := by cases hl'
  clearQueue l' hl' := by cases hl'
  cq := cq_writePwmr (s := s) _
  mr m hm := h.mr m (hpc ▸ hm)

/-- A step to another point of the handler. -/
theorem Aside.move (s : PwState) (pc : PwPc) : Aside s { s with pc := pc } :=
  ⟨rfl, rfl, rfl, rfl, rfl, rfl, rfl, rfl, rfl, rfl⟩

/-- A write of the status that keeps queue and interrupt. -/
theorem Aside.writePwsr (s : PwState) (pc : PwPc) {v : Reg32} (hfull : v &&& rioIpwsrQf = 0)
    (hraised : v &&& rioIpwsrQfi = 0) : Aside s { s.writePwsr v with pc := pc } :=
  ⟨full_writePwsr hfull, raised_writePwsr hraised, rfl, rfl, rfl, rfl, rfl, rfl, rfl, rfl⟩

/-- The unit's status is cleared. -/
theorem PwInv.clearStatus (h : PwInv s) (hpc : s.pc = .clearUnit) :
    PwInv { s.writePwsr ipwsrClear with pc := .idle } where
  arrived := by
    have hwaiting :
        PwState.waiting { s.writePwsr ipwsrClear with pc := .idle } = s.waiting := by
      unfold PwState.waiting
      rw [hpc, show PwState.full _ = s.full from full_writePwsr (by decide)]
      rfl
    rw [hwaiting]
    exact h.arrived
  fifo := h.fifo
  size := h.size
  msgCount := h.msgCount
  work hne := by
    have hwork := h.work hne
    rw [hpc] at hwork
    exact hwork
  raised hraised :=
    absurd (hraised.symm.trans (isSet_clear_of_subset s.pwsr (by decide))) Bool.noConfusion
  looked l hl := by cases hl
  clearQfi l hl := by cases hl
  clearQueue l hl := by cases hl
  cq := h.cq
  mr m hm := by cases hm

/-- What a step of the handler can be. -/
inductive Tick (s : PwState) : PwState → Prop where
  | aside {s' : PwState} (ha : Aside s s') (hpc : s.pc.copied = false) (hpc' : s'.pc.copied = false)
      (hlook : s'.pc.looks = false) (hmisses : s'.pc.misses = s.pc.misses)
      (hcq : isSet s'.pwmr rioIpwmrCq = false)
      (hmr : ∀ m, s'.pc.mr = some m → isSet m rioIpwmrCq = false) : Tick s s'
  | look {epwisr ipwmr : Reg32} (hpc : s.pc = .readSr epwisr ipwmr) :
      Tick s { s with pc := .testQfi ⟨epwisr, ipwmr, s.pwsr⟩ }
  | save {l : PwLocals} (hpc : s.pc = .testQfi l) (hl : isSet l.ipwsr rioIpwsrQfi = true) :
      Tick s { s.save with pc := .clearQfi l }
  | clearInterrupt {l : PwLocals} (hpc : s.pc = .clearQfi l) :
      Tick s { s.writePwsr rioIpwsrQfi with pc := .clearQueue l }
  | clearBuffer {l : PwLocals} (hpc : s.pc = .clearQueue l) :
      Tick s { s.writePwmr (l.ipwmr ||| rioIpwmrCq) with pwWork := true, pc := .testTe l }
  | clearStatus (hpc : s.pc = .clearUnit) : Tick s { s.writePwsr ipwsrClear with pc := .idle }

/-- A step to another point of the handler, with the same mode word at hand. -/
theorem Tick.move (h : PwInv s) {pc : PwPc} (hpc : s.pc.copied = false) (hpc' : pc.copied = false)
    (hlook : pc.looks = false) (hmisses : pc.misses = s.pc.misses)
    (hmr : ∀ m, pc.mr = some m → s.pc.mr = some m ∨ m = s.pwmr) : Tick s { s with pc := pc } := by
  refine .aside (Aside.move s pc) hpc hpc' hlook hmisses h.cq fun m hm => ?_
  rcases hmr m hm with hsame | rfl
  · exact h.mr m hsame
  · exact h.cq

/-- **Every step of the handler** is one of these, and leads on. -/
theorem tick_of (h : PwInv s) (hstep : portWriteHandler s = some s') :
    Tick s s' ∧ s'.pc.rank < s.pc.rank := by
  have hmr := h.mr
  unfold portWriteHandler at hstep
  cases hpc : s.pc with
  | idle =>
    rw [hpc] at hstep
    cases hstep
  | readMr epwisr =>
    rw [hpc] at hstep
    obtain rfl := Option.some.inj hstep
    refine ⟨Tick.move h (by rw [hpc]; rfl) rfl rfl (by rw [hpc]; rfl) ?_, by simp [PwPc.rank]⟩
    rintro m hm
    exact Or.inr (Option.some.inj hm).symm
  | readSr epwisr ipwmr =>
    rw [hpc] at hstep
    obtain rfl := Option.some.inj hstep
    exact ⟨.look hpc, by simp [PwPc.rank]⟩
  | testQfi l =>
    simp only [hpc] at hstep
    by_cases hl : isSet l.ipwsr rioIpwsrQfi = true
    · rw [if_pos hl] at hstep
      obtain rfl := Option.some.inj hstep
      exact ⟨.save hpc hl, by simp [PwPc.rank]⟩
    · rw [if_neg hl] at hstep
      obtain rfl := Option.some.inj hstep
      rw [Bool.not_eq_true] at hl
      refine ⟨Tick.move h (by rw [hpc]; rfl) rfl rfl ?_ fun m hm => Or.inl (hpc ▸ hm),
        by simp [PwPc.rank]⟩
      rw [hpc, PwPc.misses, PwPc.misses, hl, Bool.not_false, Bool.and_true]
  | clearQfi l =>
    rw [hpc] at hstep
    obtain rfl := Option.some.inj hstep
    exact ⟨.clearInterrupt hpc, by simp [PwPc.rank]⟩
  | clearQueue l =>
    rw [hpc] at hstep
    obtain rfl := Option.some.inj hstep
    exact ⟨.clearBuffer hpc, by simp [PwPc.rank]⟩
  | testTe l =>
    have hcq : isSet (l.ipwmr &&& ~~~rioIpwmrPwe) rioIpwmrCq = false := by
      rw [isSet_clear_of_disjoint _ (by decide)]
      exact hmr _ (hpc ▸ rfl)
    simp only [hpc] at hstep
    split at hstep
    · obtain rfl := Option.some.inj hstep
      refine ⟨.aside ⟨full_writePwmr hcq, raised_writePwmr _, rfl, rfl, rfl, rfl, rfl, rfl, rfl,
        rfl⟩ (by rw [hpc]; rfl) rfl rfl (by rw [hpc]; rfl) (cq_writePwmr (s := s) _)
        fun m hm => hmr m (hpc ▸ hm), by simp [PwPc.rank]⟩
    · obtain rfl := Option.some.inj hstep
      exact ⟨Tick.move h (by rw [hpc]; rfl) rfl rfl (by rw [hpc]; rfl)
        fun m hm => Or.inl (hpc ▸ hm), by simp [PwPc.rank]⟩
  | errClear l =>
    rw [hpc] at hstep
    obtain rfl := Option.some.inj hstep
    exact ⟨.aside (Aside.writePwsr s _ (by decide) (by decide)) (by rw [hpc]; rfl) rfl rfl
      (by rw [hpc]; rfl) h.cq fun m hm => hmr m (hpc ▸ hm), by simp [PwPc.rank]⟩
  | errRestore l =>
    rw [hpc] at hstep
    obtain rfl := Option.some.inj hstep
    exact ⟨.aside ⟨full_writePwmr (hmr _ (hpc ▸ rfl)), raised_writePwmr _, rfl, rfl, rfl, rfl, rfl,
      rfl, rfl, rfl⟩ (by rw [hpc]; rfl) rfl rfl (by rw [hpc]; rfl) (cq_writePwmr (s := s) _)
      fun m hm => hmr m (hpc ▸ hm), by simp [PwPc.rank]⟩
  | testPwd l =>
    simp only [hpc] at hstep
    split at hstep
    · obtain rfl := Option.some.inj hstep
      exact ⟨.aside ⟨rfl, rfl, rfl, rfl, rfl, rfl, rfl, rfl, rfl, rfl⟩ (by rw [hpc]; rfl) rfl rfl
        (by rw [hpc]; rfl) h.cq fun m hm => hmr m (hpc ▸ hm), by simp [PwPc.rank]⟩
    · obtain rfl := Option.some.inj hstep
      exact ⟨Tick.move h (by rw [hpc]; rfl) rfl rfl (by rw [hpc]; rfl)
        (fun m hm => by cases hm), by simp [PwPc.rank]⟩
  | clearPwd l =>
    rw [hpc] at hstep
    obtain rfl := Option.some.inj hstep
    exact ⟨.aside (Aside.writePwsr s _ (by decide) (by decide)) (by rw [hpc]; rfl) rfl rfl
      (by rw [hpc]; rfl) h.cq
      (fun m hm => by cases hm), by simp [PwPc.rank]⟩
  | done epwisr =>
    simp only [hpc] at hstep
    split at hstep
    · rename_i hmu
      obtain rfl := Option.some.inj hstep
      refine ⟨Tick.move h (by rw [hpc]; rfl) rfl rfl ?_ (fun m hm => by cases hm),
        by simp [PwPc.rank]⟩
      rw [hpc, PwPc.misses, PwPc.misses, hmu]
    · rename_i hmu
      obtain rfl := Option.some.inj hstep
      rw [Bool.not_eq_true] at hmu
      refine ⟨Tick.move h (by rw [hpc]; rfl) rfl rfl ?_ (fun m hm => by cases hm),
        by simp [PwPc.rank]⟩
      rw [hpc]
      exact hmu.symm
  | clearUnit =>
    rw [hpc] at hstep
    obtain rfl := Option.some.inj hstep
    exact ⟨.clearStatus hpc, by simp [PwPc.rank]⟩

/-- **One step of the handler.** -/
theorem PwInv.tick (h : PwInv s) (htick : Tick s s') : PwInv s' := by
  cases htick with
  | aside ha hpc hpc' hlook hmisses hcq hmr =>
    refine h.aside ha hpc hpc' (fun l hl => ?_) hcq hmr
    rw [hl] at hlook
    cases hlook
  | look hpc =>
    refine h.aside (Aside.move s _) (by rw [hpc]; rfl) rfl ?_ h.cq fun m hm => h.mr m (hpc ▸ hm)
    -- what it has read is what the status is now
    intro l hl hset
    cases hl
    exact hset
  | save hpc hl => exact h.save _ hpc hl
  | clearInterrupt hpc => exact h.clearInterrupt _ hpc
  | clearBuffer hpc => exact h.clearBuffer _ hpc
  | clearStatus hpc => exact h.clearStatus hpc

/-- Another status, with queue and interrupt as they are. -/
theorem PwInv.status (h : PwInv s) {v : Reg32} (hfull : isSet v rioIpwsrQf = s.full)
    (hraised : isSet v rioIpwsrQfi = s.raised) : PwInv { s with pwsr := v } where
  arrived := by
    unfold PwState.waiting PwState.full
    rw [hfull]
    exact h.arrived
  fifo := h.fifo
  size := h.size
  msgCount := h.msgCount
  work := h.work
  raised := by
    rw [PwState.raised, PwState.full, hfull, hraised]
    exact h.raised
  looked := by
    rw [PwState.raised, hraised]
    exact h.looked
  clearQfi := by
    rw [PwState.raised, hraised]
    exact h.clearQfi
  clearQueue := by
    rw [PwState.raised, PwState.full, hfull, hraised]
    exact h.clearQueue
  cq := h.cq
  mr := h.mr

/-- The status behind a port-write that was taken. -/
theorem isSet_taken_qf (v : Reg32) :
    isSet (v ||| (rioIpwsrQf ||| rioIpwsrQfi)) rioIpwsrQf = true := by
  rw [isSet_or]
  exact Bool.or_true _

theorem isSet_taken_qfi (v : Reg32) :
    isSet (v ||| (rioIpwsrQf ||| rioIpwsrQfi)) rioIpwsrQfi = true := by
  rw [isSet_or]
  exact Bool.or_true _

/-- A port-write that is taken. -/
theorem arrive_of_empty (hfull : s.full = false) (m : PwMsg) :
    s.arrive m = { s with
      virt := m
      pwsr := s.pwsr ||| (rioIpwsrQf ||| rioIpwsrQfi)
      arrived := s.arrived ++ [m] } := by
  rw [PwState.arrive, if_neg]
  rw [Bool.not_eq_true]
  exact hfull

/-- Nothing has been copied from an empty buffer. -/
theorem PwInv.copied_of_empty (h : PwInv s) (hfull : s.full = false) : s.pc.copied = false := by
  cases hpc : s.pc with
  | clearQfi l =>
    have hcontra := h.raised (h.clearQfi l hpc)
    rw [hfull] at hcontra
    cases hcontra
  | clearQueue l =>
    have hcontra := (h.clearQueue l hpc).1
    rw [hfull] at hcontra
    cases hcontra
  | _ => rfl

/-- **A port-write** comes to an empty buffer, or is discarded. -/
theorem PwInv.arrive (h : PwInv s) (m : PwMsg) : PwInv (s.arrive m) := by
  unfold PwState.arrive
  by_cases hfull : s.full = true
  · rw [if_pos hfull]
    apply h.status
    · rw [isSet_or]
      exact Bool.or_false _
    · rw [isSet_or]
      exact Bool.or_false _
  · rw [if_neg hfull]
    rw [Bool.not_eq_true] at hfull
    have hqf := isSet_taken_qf s.pwsr
    have hqfi := isSet_taken_qfi s.pwsr
    have hcopied := h.copied_of_empty hfull
    refine ⟨?_, h.fifo, h.size, h.msgCount, h.work, fun _ => hqf, fun _ _ _ => hqfi,
      fun _ _ => hqfi, ?_, h.cq, h.mr⟩
    · have harrived := h.arrived
      unfold PwState.waiting at harrived ⊢
      rw [hfull, Bool.false_and, if_neg Bool.false_ne_true, List.append_nil] at harrived
      rw [PwState.full, hqf, hcopied, harrived]
      rfl
    · intro l hl
      have hcontra := (h.clearQueue l hl).1
      rw [hfull] at hcontra
      cases hcontra

/-- **One round** of the work item. -/
theorem PwInv.dpcRound (h : PwInv s) : PwInv s.dpcRound := by
  unfold PwState.dpcRound
  by_cases hempty : s.pwFifo.contents = []
  · rw [if_pos hempty]
    exact ⟨h.arrived, h.fifo, h.size, h.msgCount, fun hne => absurd hempty hne, h.raised, h.looked,
      h.clearQfi, h.clearQueue, h.cq, h.mr⟩
  · rw [if_neg hempty]
    obtain ⟨rs, hrs, hkept⟩ := h.fifo
    cases rs with
    | nil => exact absurd hrs.contents hempty
    | cons r rs =>
      obtain ⟨hout, hrest⟩ := hrs.take
      refine ⟨h.arrived, ⟨rs, hrest, ?_⟩, h.size, h.msgCount, ?_, h.raised, h.looked, h.clearQfi,
        h.clearQueue, h.cq, h.mr⟩
      · rw [hout, hkept, List.append_assoc]
        rfl
      · intro _
        exact h.work hempty

/-- Port-writes are enabled or not, with the queue as it is. -/
theorem PwInv.enable_aside (h : PwInv s) (enable : Bool) : Aside s (s.enable enable) := by
  have hcq : isSet (if enable then s.pwmr ||| rioIpwmrPwe else s.pwmr &&& ~~~rioIpwmrPwe)
      rioIpwmrCq = false := by
    split
    · rw [isSet_or, h.cq]
      decide
    · rw [isSet_clear_of_disjoint _ (by decide), h.cq]
  exact ⟨full_writePwmr hcq, raised_writePwmr _, rfl, rfl, rfl, rfl, rfl, rfl, rfl, rfl⟩

/-- Where the handler does not run. -/
theorem pc_of_not_running {pc : PwPc} (h : ¬pc.running = true) : pc = .idle := by
  cases pc with
  | idle => rfl
  | _ => exact absurd rfl h

theorem copied_of_not_running {pc : PwPc} (h : ¬pc.running = true) : pc.copied = false := by
  rw [pc_of_not_running h]
  rfl

/-- **One step** keeps it all. -/
theorem PwInv.step (h : PwInv s) {e : PwEvent} (hstep : pwStep s e = some s') : PwInv s' := by
  cases e with
  | arrive m =>
    rw [pwStep, Option.ite_none_right_eq_some] at hstep
    obtain rfl := Option.some.inj hstep.2
    exact h.arrive m
  | error =>
    obtain rfl := Option.some.inj hstep
    apply h.status
    · rw [isSet_or]
      exact Bool.or_false _
    · rw [isSet_or]
      exact Bool.or_false _
  | irq epwisr =>
    simp only [pwStep] at hstep
    split at hstep
    · cases hstep
    · rename_i hrunning
      have hcopied := copied_of_not_running hrunning
      split at hstep
      · obtain rfl := Option.some.inj hstep
        refine h.aside (Aside.move s _) hcopied rfl ?_ h.cq ?_
        · intro l hl
          cases hl
        · intro m hm
          cases hm
      · obtain rfl := Option.some.inj hstep
        refine h.aside (Aside.move s _) hcopied rfl ?_ h.cq ?_
        · intro l hl
          cases hl
        · intro m hm
          cases hm
  | tick => exact h.tick (tick_of h hstep).1
  | dpcStart =>
    rw [pwStep, Option.ite_none_right_eq_some] at hstep
    obtain rfl := Option.some.inj hstep.2
    exact ⟨h.arrived, h.fifo, h.size, h.msgCount, fun _ => Or.inr (Or.inl rfl), h.raised, h.looked,
      h.clearQfi, h.clearQueue, h.cq, h.mr⟩
  | dpcRound =>
    rw [pwStep, Option.ite_none_right_eq_some] at hstep
    obtain rfl := Option.some.inj hstep.2
    exact h.dpcRound
  | enable enable =>
    simp only [pwStep] at hstep
    split at hstep
    · cases hstep
    · rename_i hrunning
      obtain rfl := Option.some.inj hstep
      have hcopied := copied_of_not_running hrunning
      exact h.aside (h.enable_aside enable) hcopied hcopied
        (fun l hl hset => (h.enable_aside enable).raised.trans (h.looked l hl hset))
        (cq_writePwmr (s := s) _) h.mr

/-- **What a step looks at**: nothing, or the buffer. -/
theorem PwInv.seen (h : PwInv s) {e : PwEvent} (hstep : pwStep s e = some s') :
    s'.seen = s.seen ∨ ∃ l, s.pc = .testQfi l ∧ s' = { s.save with pc := .clearQfi l } := by
  cases e with
  | arrive m =>
    rw [pwStep, Option.ite_none_right_eq_some] at hstep
    obtain rfl := Option.some.inj hstep.2
    refine Or.inl ?_
    unfold PwState.arrive
    split
    · rfl
    · rfl
  | error =>
    obtain rfl := Option.some.inj hstep
    exact Or.inl rfl
  | irq epwisr =>
    simp only [pwStep] at hstep
    split at hstep
    · cases hstep
    · split at hstep
      · obtain rfl := Option.some.inj hstep
        exact Or.inl rfl
      · obtain rfl := Option.some.inj hstep
        exact Or.inl rfl
  | tick =>
    cases (tick_of h hstep).1 with
    | aside ha => exact Or.inl ha.seen
    | save hpc => exact Or.inr ⟨_, hpc, rfl⟩
    | _ => exact Or.inl rfl
  | dpcStart =>
    rw [pwStep, Option.ite_none_right_eq_some] at hstep
    obtain rfl := Option.some.inj hstep.2
    exact Or.inl rfl
  | dpcRound =>
    rw [pwStep, Option.ite_none_right_eq_some] at hstep
    obtain rfl := Option.some.inj hstep.2
    refine Or.inl ?_
    unfold PwState.dpcRound
    split
    · rfl
    · rfl
  | enable enable =>
    simp only [pwStep] at hstep
    split at hstep
    · cases hstep
    · obtain rfl := Option.some.inj hstep
      exact Or.inl rfl

/-- The invariant along a run. -/
theorem pwInv_run (virt : PwMsg) (run : List PwEvent) {s : PwState}
    (hrun : exec pwStep (pwInit virt) run = some s) : PwInv s :=
  exec_invariant (fun _ _ _ h (_ : True) hstep => h.step hstep) run _ _ (pwInv_init virt)
    (Guarded.of_labels run (fun _ _ => trivial) _) hrun

/-- A look at the buffer discards what is there only when the FIFO is full. -/
theorem PwInv.discarded (h : PwInv s) {rs : List (List (BitVec 8))}
    (hrs : Records rioPwMsgSize rs s.pwFifo) {e : PwEvent} {m : PwMsg}
    (hstep : pwStep s e = some s') (hseen : s'.seen = s.seen ++ [(m, false)]) :
    rs.length = 32 := by
  rcases h.seen hstep with hsame | ⟨l, -, rfl⟩
  · rw [hsame] at hseen
    exact absurd hseen.symm (by simp)
  · have hspace := hrs.space
    have hfits := s.pwFifo.fits
    have hsize := h.size
    by_cases hroom : rioPwMsgSize ≤ s.pwFifo.avail
    · simp [PwState.save, if_pos hroom] at hseen
    · unfold Fifo.avail rioPwMsgSize at hroom
      unfold rioPwMsgSize at hspace hsize
      omega

/-- **Port-writes, in every state of every run.**  The core was handed the first of the messages
    that the handler kept, whole, in order and each once; the others are in the FIFO, no more than
    32, and the work item will look there; the handler has looked at the port-writes that came, in
    order, but for the one in the buffer; `msg_count` counts what it kept, and it discards one only
    when 32 messages wait. -/
theorem portWrites_delivered (virt : PwMsg) (run : List PwEvent) (s : PwState)
    (hrun : exec pwStep (pwInit virt) run = some s) :
    ∃ rest, kept s.seen = s.delivered ++ rest ∧ s.pwFifo.contents = rest.flatten
      ∧ rest.length ≤ 32
      ∧ (rest ≠ [] → s.pwWork = true ∨ s.dpc = true ∨ s.pc.copied = true)
      ∧ s.arrived = s.seen.map Prod.fst ++ s.waiting
      ∧ s.msgCount = BitVec.ofNat 32 (kept s.seen).length
      ∧ ∀ e s' m, pwStep s e = some s' → s'.seen = s.seen ++ [(m, false)] → rest.length = 32 := by
  have h := pwInv_run virt run hrun
  obtain ⟨rest, hrs, hkept⟩ := h.fifo
  refine ⟨rest, hkept, hrs.contents, ?_, ?_, h.arrived, h.msgCount, fun e s' m hstep hseen =>
    h.discarded hrs hstep hseen⟩
  · have hle := hrs.length_le (by decide)
    rw [h.size] at hle
    exact hle
  · intro hne
    exact h.work fun hnil => hne ((hrs.contents_eq_nil (by decide)).mp hnil)

/-! ### What is never looked at -/

/-- A port-write is in the buffer, and the handler will not look at it. -/
def Deaf (s : PwState) : Prop :=
  s.full = true ∧ s.pc.copied = false ∧ (s.raised = false ∨ s.pc.misses = true)

/-- A port-write does not come to an empty buffer at a point where the handler misses it; and
    while one is raised, an interrupt that clears the unit's status has `PW` set. -/
def Timely (s : PwState) : PwEvent → Prop
  | .arrive _ => s.full = false → s.pc.misses = false
  | .irq epwisr =>
    s.raised = true → isSet epwisr rioEpwisrPw = true ∨ isSet epwisr rioEpwisrMu = false
  | _ => True

theorem deaf_congr (hfull : s'.full = s.full) (hraised : s'.raised = s.raised)
    (hcopied : s'.pc.copied = s.pc.copied) (hmisses : s'.pc.misses = s.pc.misses) :
    Deaf s' ↔ Deaf s := by
  unfold Deaf
  rw [hfull, hraised, hcopied, hmisses]

/-- The handler neither makes the controller deaf, nor does it help. -/
theorem Tick.deaf_iff (htick : Tick s s') (h : PwInv s) : Deaf s' ↔ Deaf s := by
  cases htick with
  | aside ha hpc hpc' hlook hmisses hcq hmr =>
    exact deaf_congr ha.full ha.raised (hpc'.trans hpc.symm) hmisses
  | @look epwisr ipwmr hpc =>
    -- what it has read is what was raised
    have hcopied : s.pc.copied = false := by
      rw [hpc]
      rfl
    have hmisses : s.pc.misses = false := by
      rw [hpc]
      rfl
    unfold Deaf
    rw [hcopied, hmisses]
    show (s.full = true ∧ false = false
      ∧ (s.raised = false ∨ (isSet epwisr rioEpwisrMu && !s.raised) = true)) ↔ _
    cases s.raised with
    | false => simp
    | true => simp
  | @save l hpc hl =>
    have hraised := h.looked l hpc hl
    unfold Deaf
    rw [hraised, hpc]
    simp [PwPc.copied, PwPc.misses, hl]
  | clearInterrupt hpc =>
    unfold Deaf
    rw [hpc]
    simp [PwPc.copied]
  | @clearBuffer l hpc =>
    have hfull := full_writePwmr_cq (s := s) l.ipwmr
    unfold Deaf
    rw [hpc, show PwState.full _ = false from hfull]
    simp [PwPc.copied]
  | clearStatus hpc =>
    have hraised : (s.writePwsr ipwsrClear).raised = false :=
      isSet_clear_of_subset s.pwsr (by decide)
    have hfull : (s.writePwsr ipwsrClear).full = s.full := full_writePwsr (by decide)
    unfold Deaf
    rw [hpc, show PwState.full _ = s.full from hfull, show PwState.raised _ = false from hraised]
    simp [PwPc.copied, PwPc.misses]

/-- A step at the right time that changes nothing. -/
theorem deaf_iff_of_timely {e : PwEvent} (hiff : Deaf s' ↔ Deaf s) (ht : Timely s e) :
    Deaf s' ↔ Deaf s ∨ ¬Timely s e := by
  rw [hiff, or_iff_left (not_not.mpr ht)]

/-- **Getting deaf**: a step leads there exactly when it comes at the wrong time. -/
theorem deaf_step_iff (h : PwInv s) {e : PwEvent} (hstep : pwStep s e = some s') :
    Deaf s' ↔ Deaf s ∨ ¬Timely s e := by
  cases e with
  | arrive m =>
    rw [pwStep, Option.ite_none_right_eq_some] at hstep
    obtain rfl := Option.some.inj hstep.2
    unfold PwState.arrive
    by_cases hfull : s.full = true
    · rw [if_pos hfull]
      apply deaf_iff_of_timely
      · refine deaf_congr ?_ ?_ rfl rfl
        · exact (isSet_or _ _ _).trans (Bool.or_false _)
        · exact (isSet_or _ _ _).trans (Bool.or_false _)
      · intro hempty
        rw [hfull] at hempty
        cases hempty
    · rw [if_neg hfull]
      rw [Bool.not_eq_true] at hfull
      have hcopied := h.copied_of_empty hfull
      have hnot : ¬Deaf s := by
        rintro ⟨hdeaf, -⟩
        rw [hfull] at hdeaf
        cases hdeaf
      rw [or_iff_right hnot]
      unfold Deaf Timely
      rw [PwState.full, PwState.raised, isSet_taken_qf, isSet_taken_qfi, hcopied]
      simp [hfull]
  | irq epwisr =>
    simp only [pwStep] at hstep
    split at hstep
    · cases hstep
    · rename_i hrunning
      have hpc := pc_of_not_running hrunning
      split at hstep
      · rename_i hpw
        obtain rfl := Option.some.inj hstep
        refine deaf_iff_of_timely (deaf_congr rfl rfl ?_ ?_) fun _ => Or.inl hpw
        · rw [hpc]
          rfl
        · rw [hpc]
          rfl
      · rename_i hpw
        obtain rfl := Option.some.inj hstep
        rw [Bool.not_eq_true] at hpw
        have hraised := h.raised
        have htimely : Timely s (.irq epwisr)
            ↔ (s.raised = true → isSet epwisr rioEpwisrMu = false) := by
          unfold Timely
          simp only [hpw, Bool.false_eq_true, false_or]
        rw [htimely]
        unfold Deaf
        rw [hpc]
        show (s.full = true ∧ false = false
          ∧ (s.raised = false ∨ isSet epwisr rioEpwisrMu = true)) ↔ _
        cases hr : s.raised with
        | false => simp [PwPc.copied]
        | true => simp [hraised hr, PwPc.misses]
  | tick => exact deaf_iff_of_timely ((tick_of h hstep).1.deaf_iff h) trivial
  | error =>
    obtain rfl := Option.some.inj hstep
    refine deaf_iff_of_timely (deaf_congr ?_ ?_ rfl rfl) trivial
    · exact (isSet_or _ _ _).trans (Bool.or_false _)
    · exact (isSet_or _ _ _).trans (Bool.or_false _)
  | dpcStart =>
    rw [pwStep, Option.ite_none_right_eq_some] at hstep
    obtain rfl := Option.some.inj hstep.2
    exact deaf_iff_of_timely (deaf_congr rfl rfl rfl rfl) trivial
  | dpcRound =>
    rw [pwStep, Option.ite_none_right_eq_some] at hstep
    obtain rfl := Option.some.inj hstep.2
    refine deaf_iff_of_timely (e := .dpcRound) ?_ trivial
    unfold PwState.dpcRound
    split
    · exact deaf_congr rfl rfl rfl rfl
    · exact deaf_congr rfl rfl rfl rfl
  | enable enable =>
    simp only [pwStep] at hstep
    split at hstep
    · cases hstep
    · obtain rfl := Option.some.inj hstep
      have haside := h.enable_aside enable
      refine deaf_iff_of_timely (deaf_congr haside.full haside.raised rfl rfl) ?_
      trivial

/-! ### What can still be heard -/

/-- The handler can still look at a port-write. -/
def Hears (s : PwState) : Prop :=
  ∃ later t, exec pwStep s later = some t ∧ s.seen.length < t.seen.length

/-- Nothing more is looked at. -/
theorem not_hears_of_deaf (h : PwInv s) (hdeaf : Deaf s) : ¬Hears s := by
  rintro ⟨later, t, hlater, hseen⟩
  have hinv : PwInv t ∧ Deaf t ∧ t.seen = s.seen := by
    refine @exec_invariant _ _ pwStep (fun _ _ => True)
      (fun u => PwInv u ∧ Deaf u ∧ u.seen = s.seen) ?_ later s t ⟨h, hdeaf, rfl⟩
      (Guarded.of_labels later (fun _ _ => trivial) s) hlater
    rintro u e u' ⟨hu, hudeaf, huseen⟩ (_ : True) hstep
    have hdeaf' := (deaf_step_iff hu hstep).mpr (Or.inl hudeaf)
    refine ⟨hu.step hstep, hdeaf', ?_⟩
    rcases hu.seen hstep with hsame | ⟨l, -, rfl⟩
    · rw [hsame, huseen]
    · -- behind a look it is not deaf
      cases hdeaf'.2.1
  rw [hinv.2.2] at hseen
  exact lt_irrefl _ hseen

/-- The handler goes on while it runs. -/
theorem exists_tick (hrunning : s.pc.running = true) : ∃ s', portWriteHandler s = some s' := by
  unfold portWriteHandler
  cases hpc : s.pc with
  | idle =>
    rw [hpc] at hrunning
    cases hrunning
  | testQfi l =>
    simp only
    split
    · exact ⟨_, rfl⟩
    · exact ⟨_, rfl⟩
  | testTe l =>
    simp only
    split
    · exact ⟨_, rfl⟩
    · exact ⟨_, rfl⟩
  | testPwd l =>
    simp only
    split
    · exact ⟨_, rfl⟩
    · exact ⟨_, rfl⟩
  | done epwisr =>
    simp only
    split
    · exact ⟨_, rfl⟩
    · exact ⟨_, rfl⟩
  | _ => exact ⟨_, rfl⟩

/-- The handler returns. -/
theorem exists_return (h : PwInv s) (hdeaf : ¬Deaf s) :
    ∃ run t, exec pwStep s run = some t ∧ PwInv t ∧ ¬Deaf t ∧ t.pc = .idle
      ∧ s.seen.length ≤ t.seen.length := by
  obtain ⟨n, hn⟩ : ∃ n, s.pc.rank < n := ⟨_, Nat.lt_succ_self _⟩
  induction n generalizing s with
  | zero => exact absurd hn (Nat.not_lt_zero _)
  | succ n ih =>
    by_cases hrunning : s.pc.running = true
    · obtain ⟨s', hs'⟩ := exists_tick hrunning
      have hstep : pwStep s .tick = some s' := hs'
      obtain ⟨htick, hrank⟩ := tick_of h hs'
      have hseen : s.seen.length ≤ s'.seen.length := by
        rcases h.seen hstep with hsame | ⟨l, -, rfl⟩
        · rw [hsame]
        · unfold PwState.save
          split
          · simp
          · simp
      obtain ⟨run, t, hrun, ht, htdeaf, hidle, hle⟩ :=
        ih (h.tick htick) (fun hd => hdeaf ((htick.deaf_iff h).mp hd)) (by omega)
      refine ⟨.tick :: run, t, ?_, ht, htdeaf, hidle, hseen.trans hle⟩
      rw [exec_cons, hstep]
      exact hrun
    · exact ⟨[], s, rfl, h, hdeaf, pc_of_not_running hrunning, le_rfl⟩

/-- The interrupt of a port-write that is raised. -/
theorem hears_of_raised (hidle : s.pc = .idle) (hraised : s.raised = true) : Hears s := by
  refine ⟨[.irq rioEpwisrPw, .tick, .tick, .tick],
    { PwState.save { s with pc := .testQfi ⟨rioEpwisrPw, s.pwmr, s.pwsr⟩ } with
      pc := .clearQfi ⟨rioEpwisrPw, s.pwmr, s.pwsr⟩ }, ?_, ?_⟩
  · have hirq : pwStep s (.irq rioEpwisrPw) = some { s with pc := .readMr rioEpwisrPw } := by
      rw [pwStep, hidle]
      rfl
    have hlook : pwStep { s with pc := .testQfi ⟨rioEpwisrPw, s.pwmr, s.pwsr⟩ } .tick
        = some { PwState.save { s with pc := .testQfi ⟨rioEpwisrPw, s.pwmr, s.pwsr⟩ } with
            pc := .clearQfi ⟨rioEpwisrPw, s.pwmr, s.pwsr⟩ } := by
      rw [pwStep, portWriteHandler]
      exact if_pos hraised
    rw [exec_cons, hirq]
    show exec pwStep { s with pc := .testQfi ⟨rioEpwisrPw, s.pwmr, s.pwsr⟩ } [.tick] = _
    rw [exec_cons, hlook]
    rfl
  · unfold PwState.save
    split
    · simp
    · simp

/-- **Not deaf.** -/
theorem hears_iff_not_deaf (h : PwInv s) : Hears s ↔ ¬Deaf s := by
  refine ⟨fun hhears hdeaf => not_hears_of_deaf h hdeaf hhears, fun hdeaf => ?_⟩
  obtain ⟨run, t, hrun, ht, htdeaf, hidle, hle⟩ := exists_return h hdeaf
  suffices hnow : Hears t by
    obtain ⟨later, u, hlater, hlt⟩ := hnow
    refine ⟨run ++ later, u, ?_, hle.trans_lt hlt⟩
    rw [exec_append, hrun]
    exact hlater
  by_cases hfull : t.full = true
  · -- what is there is raised
    apply hears_of_raised hidle
    by_contra hraised
    refine htdeaf ⟨hfull, ?_, Or.inl ((Bool.not_eq_true _).mp hraised)⟩
    rw [hidle]
    rfl
  · -- another one comes
    rw [Bool.not_eq_true] at hfull
    have henable : pwStep t (.enable true) = some (t.enable true) := by
      rw [pwStep, hidle]
      rfl
    have hempty : (t.enable true).full = false := (ht.enable_aside true).full.trans hfull
    have hpwe : isSet (t.enable true).pwmr rioIpwmrPwe = true := by
      show isSet ((t.pwmr ||| rioIpwmrPwe) &&& ~~~rioIpwmrCq) rioIpwmrPwe = true
      rw [isSet_clear_of_disjoint _ (by decide), isSet_or]
      exact Bool.or_true _
    have harrive : pwStep (t.enable true) (.arrive t.virt)
        = some ((t.enable true).arrive t.virt) := by
      rw [pwStep, if_pos hpwe]
    have htaken := arrive_of_empty hempty t.virt
    obtain ⟨later, u, hlater, hlt⟩ :
        ∃ later u, exec pwStep ((t.enable true).arrive t.virt) later = some u
          ∧ t.seen.length < u.seen.length := by
      rw [htaken]
      exact hears_of_raised hidle (isSet_taken_qfi _)
    refine ⟨.enable true :: .arrive t.virt :: later, u, ?_, hlt⟩
    rw [exec_cons, henable, Option.bind_some, exec_cons, harrive]
    exact hlater

/-- **Port-writes are heard**: along a run, there is no state behind which the handler looks at no
    port-write any more, if and only if every step comes at the right time. -/
theorem hears_iff_guarded (virt : PwMsg) (run : List PwEvent) (s : PwState)
    (hrun : exec pwStep (pwInit virt) run = some s) :
    Always pwStep Hears (pwInit virt) run ↔ Guarded pwStep Timely (pwInit virt) run := by
  refine @always_iff_guarded _ _ pwStep Timely (fun u => PwInv u ∧ ¬Deaf u) Hears ?_ ?_ ?_ run _ s
    ⟨pwInv_init virt, ?_⟩ hrun
  · rintro u ⟨hu, hdeaf⟩
    exact (hears_iff_not_deaf hu).mpr hdeaf
  · rintro u e u' ⟨hu, hdeaf⟩ htimely hstep
    refine ⟨hu.step hstep, fun hdeaf' => ?_⟩
    exact ((deaf_step_iff hu hstep).mp hdeaf').elim hdeaf (absurd htimely)
  · rintro u e u' ⟨hu, -⟩ hstep hhears
    by_contra hlate
    exact not_hears_of_deaf (hu.step hstep) ((deaf_step_iff hu hstep).mpr (Or.inr hlate)) hhears
  · rintro ⟨hfull, -⟩
    exact absurd (hfull.symm.trans (isSet_zero rioIpwsrQf)) Bool.noConfusion

/-- A port-write that carries nothing. -/
def blankPw : PwMsg := ⟨List.replicate rioPwMsgSize 0, List.length_replicate⟩

/-- An interrupt of the message unit, and a port-write that comes before its status is cleared. -/
def lateRun : List PwEvent :=
  [.enable true, .irq rioEpwisrMu, .arrive blankPw]

/-- One port-write after the other is delivered. -/
def twoPortWrites : List PwEvent :=
  [.enable true, .arrive blankPw, .irq rioEpwisrPw, .tick, .tick, .tick, .tick, .arrive blankPw,
    .tick, .arrive blankPw, .dpcStart, .dpcRound, .tick, .tick, .tick]

theorem portWrites_delivered_two :
    ∃ s, exec pwStep (pwInit blankPw) twoPortWrites = some s ∧ ∃ rest,
      kept s.seen = s.delivered ++ rest ∧ rest.length ≤ 32 := by
  have hsome : (exec pwStep (pwInit blankPw) twoPortWrites).isSome = true := rfl
  obtain ⟨s, hs⟩ := Option.isSome_iff_exists.mp hsome
  obtain ⟨rest, hkept, -, hlength, -⟩ := portWrites_delivered blankPw twoPortWrites s hs
  exact ⟨s, hs, rest, hkept, hlength⟩

theorem not_hears_late : ¬Always pwStep Hears (pwInit blankPw) lateRun := by
  intro halways
  have hguard := (hears_iff_guarded blankPw lateRun _ rfl).mp halways
  have henable : pwStep (pwInit blankPw) (.enable true) = some ((pwInit blankPw).enable true) := rfl
  have hirq : pwStep ((pwInit blankPw).enable true) (.irq rioEpwisrMu)
      = some { (pwInit blankPw).enable true with pc := .done rioEpwisrMu } := rfl
  have htimely := ((hguard.2 _ henable).2 _ hirq).1
  have hmisses : isSet rioEpwisrMu rioEpwisrMu = false := htimely rfl
  exact absurd hmisses (by decide)

end Vpx3.Rio
