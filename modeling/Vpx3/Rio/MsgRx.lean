import Vpx3.Lib.Exec
import Vpx3.Lib.Slots

namespace Vpx3.Rio

open Exec Slots

/-!
# Inbound messages — the receive interrupt of `fsl_rmu.c`

The message unit appends arriving frames to a ring of `size` frames and advances `ifqepar`;
each write of `IMR[MI]` makes it advance `ifqdpar` by one frame.  The interrupt handler has
two consumers of that ring: `InboundRecvMsgPro`, run first, and the mailbox callback, which
fetches with `fsl_get_inb_message`.

The model is a step machine.  Frames arrive between any two steps; the handler takes one
register access or copy a step, at the program points `Pc`.

* `rxStep` — the machine; `RxAct` — an arrival, an interrupt, a step of the handler, what
  the callback and the network driver do;
* `Delivered` — the copies made so far are the first arrived frames, each once and in order,
  and no frame was dequeued without its copy;
* `RxGuard` — the branches that dequeue without a copy are not taken;
* `delivered_of_guarded` — `Delivered` holds in every state such a run reaches.
-/

/-- The frame ring and the callback: number of frames, bus address, and whether a mailbox
    callback is registered. -/
structure RxRing where
  size : ℕ
  phys : ℕ
  mcback : Bool

/-- `RIO_MAX_MSG_SIZE`, the bytes of a frame, and of a transmit buffer. -/
def rioMaxMsgSize : ℕ := 4096

/-- `RIO_MSG_ISR_TE` and `RIO_MSG_ISR_DIQI`. -/
def rioMsgIsrTe : BitVec 32 := 0x00000080
def rioMsgIsrDiqi : BitVec 32 := 0x00000001

/-- Where the handler is.  A program point carries the locals that are live there. -/
inductive Pc where
  | idle
  /-- `InboundRecvMsgPro`: before it reads `ifqdpar`, before it compares with `ifqepar`, and
      before it writes `IMR[MI]`. -/
  | recvStart (isr : BitVec 32)
  | recvCompare (isr : BitVec 32) (physBuf : ℕ)
  | recvMi (isr : BitVec 32)
  /-- Back in the handler, before it tests `RIO_MSG_ISR_DIQI`. -/
  | testDiqi (isr : BitVec 32)
  /-- In the mailbox callback, between its calls. -/
  | callback
  /-- `fsl_get_inb_message`: the same three points, with the lookup and copy in between. -/
  | getStart
  | getCompare (physBuf : ℕ)
  | getCopy (bufIdx : ℕ)
  | getMi
  deriving DecidableEq, Repr

/-- The message unit, the receive ring and what the handler has done.  `F` is a frame, `B` a
    client buffer. -/
structure RxState (F B : Type) where
  /-- every frame that has arrived, in order -/
  arrived : List F
  /-- the number of frames dequeued -/
  deq : ℕ
  /-- the content of the frame slots -/
  virt : ℕ → F
  virtBuffer : ℕ → Option B
  rxSlot : ℕ
  /-- the copies into client buffers, in order -/
  copies : List (B × F)
  pc : Pc

/-- What can happen next: a frame arrives, the interrupt is raised with some status, the
    handler takes a step, the callback calls `fsl_get_inb_message` or returns, the driver adds
    a client buffer. -/
inductive RxAct (F B : Type) where
  | arrive (frame : F)
  | irq (isr : BitVec 32)
  | tick
  | fetch
  | ret
  | addBuffer (buf : B)

variable {F B : Type}

/-- The bus address of the frame with number `k`. -/
def RxRing.frameAddr (ring : RxRing) (k : ℕ) : ℕ := ring.phys + k % ring.size * rioMaxMsgSize

/-- `ifqdpar` and `ifqepar`. -/
def RxState.ifqdpar (ring : RxRing) (s : RxState F B) : ℕ := ring.frameAddr s.deq
def RxState.ifqepar (ring : RxRing) (s : RxState F B) : ℕ := ring.frameAddr s.arrived.length

/-- `fsl_add_inb_buffer`: refused when the next place is taken. -/
def fslAddInbBuffer (ring : RxRing) (buf : B) (s : RxState F B) : RxState F B :=
  match s.virtBuffer s.rxSlot with
  | some _ => s
  | none =>
    { s with
      virtBuffer := Function.update s.virtBuffer s.rxSlot (some buf)
      rxSlot := if s.rxSlot + 1 = ring.size then 0 else s.rxSlot + 1 }

/-- One step of `fsl_rio_rx_handler` at the program point it is at. -/
def handlerStep (ring : RxRing) (s : RxState F B) : Option (RxState F B) :=
  match s.pc with
  | .idle => none
  | .recvStart isr => some { s with pc := .recvCompare isr (s.ifqdpar ring) }
  | .recvCompare isr physBuf =>
    if physBuf = s.ifqepar ring then some { s with pc := .testDiqi isr }
    else some { s with pc := .recvMi isr }
  -- `InboundRecvMsgPro` looks at the client buffer and copies nothing into it
  | .recvMi isr => some { s with deq := s.deq + 1, pc := .testDiqi isr }
  | .testDiqi isr =>
    if isr &&& rioMsgIsrDiqi ≠ 0 ∧ ring.mcback = true then some { s with pc := .callback }
    else some { s with pc := .idle }
  | .callback => none
  | .getStart => some { s with pc := .getCompare (s.ifqdpar ring) }
  | .getCompare physBuf =>
    if physBuf = s.ifqepar ring then some { s with pc := .callback }
    else some { s with pc := .getCopy ((physBuf - ring.phys) / rioMaxMsgSize) }
  | .getCopy bufIdx =>
    match s.virtBuffer bufIdx with
    -- without a client buffer the frame is dequeued all the same
    | none => some { s with pc := .getMi }
    | some buf =>
      some { s with
        copies := s.copies ++ [(buf, s.virt bufIdx)]
        virtBuffer := Function.update s.virtBuffer bufIdx none
        pc := .getMi }
  | .getMi => some { s with deq := s.deq + 1, pc := .callback }

/-- The machine.  A frame arrives only while the unit has room for it; an interrupt starts the
    handler when it is not running; after a transmission error the handler only acknowledges. -/
def rxStep (ring : RxRing) (s : RxState F B) : RxAct F B → Option (RxState F B)
  | .arrive frame =>
    if s.arrived.length < s.deq + ring.size then
      some { s with
        arrived := s.arrived ++ [frame]
        virt := Function.update s.virt (s.arrived.length % ring.size) frame }
    else none
  | .irq isr =>
    if s.pc ≠ .idle then none
    else if isr &&& rioMsgIsrTe ≠ 0 then some s
    else some { s with pc := .recvStart isr }
  | .tick => handlerStep ring s
  | .fetch => if s.pc = .callback then some { s with pc := .getStart } else none
  | .ret => if s.pc = .callback then some { s with pc := .idle } else none
  | .addBuffer buf =>
    if s.pc = .callback ∨ s.pc = .idle then some (fslAddInbBuffer ring buf s) else none

/-- The ring as `fsl_open_inb_mbox` leaves it, with whatever its memory holds. -/
def rxInit (virt : ℕ → F) : RxState F B where
  arrived := []
  deq := 0
  virt := virt
  virtBuffer := fun _ => none
  rxSlot := 0
  copies := []
  pc := .idle

/-! ### Exactly once, in order -/

/-- The copies are the first arrived frames, one copy each and in order; every dequeued frame
    is among them; at most the frame just copied is not yet dequeued. -/
def Delivered (s : RxState F B) : Prop :=
  s.copies.map Prod.snd = s.arrived.take s.copies.length ∧
  s.deq ≤ s.copies.length ∧ s.copies.length ≤ s.deq + 1 ∧
  (s.pc ≠ .getMi → s.copies.length = s.deq)

/-- At the comparison of `InboundRecvMsgPro` the queue is empty; where `fsl_get_inb_message`
    looks for a client buffer there is one. -/
def PointGuard (ring : RxRing) (s : RxState F B) : Pc → Prop
  | .recvCompare _ physBuf => physBuf = s.ifqepar ring
  | .getCopy bufIdx => (s.virtBuffer bufIdx).isSome
  | _ => True

/-- The two branches that dequeue without a copy are not taken. -/
def RxGuard (ring : RxRing) (s : RxState F B) : RxAct F B → Prop
  | .tick => PointGuard ring s s.pc
  | _ => True

instance (ring : RxRing) (s : RxState F B) : ∀ pc, Decidable (PointGuard ring s pc)
  | .recvCompare _ physBuf => inferInstanceAs (Decidable (physBuf = s.ifqepar ring))
  | .getCopy bufIdx => inferInstanceAs (Decidable ((s.virtBuffer bufIdx).isSome = true))
  | .idle | .recvStart _ | .recvMi _ | .testDiqi _ | .callback | .getStart | .getCompare _
  | .getMi => isTrue trivial

instance (ring : RxRing) (s : RxState F B) : ∀ a, Decidable (RxGuard ring s a)
  | .tick => inferInstanceAs (Decidable (PointGuard ring s s.pc))
  | .arrive _ | .irq _ | .fetch | .ret | .addBuffer _ => isTrue trivial

/-- What holds at a program point, for `deq` frames dequeued, `enq` arrived and `done` copied:
    the copies are the dequeued frames except between a copy and its dequeue, and an address
    or index the handler holds is that of the next frame. -/
def PointInv (ring : RxRing) (deq enq done : ℕ) : Pc → Prop
  | .recvMi _ => False
  | .recvCompare _ physBuf => done = deq ∧ physBuf = ring.frameAddr deq
  | .getCompare physBuf => done = deq ∧ physBuf = ring.frameAddr deq
  | .getCopy bufIdx => done = deq ∧ bufIdx = deq % ring.size ∧ deq < enq
  | .getMi => done = deq + 1 ∧ deq < enq
  | .idle | .recvStart _ | .testDiqi _ | .callback | .getStart => done = deq

/-- The invariant of guarded runs: the frames not yet dequeued are in their slots, the copies
    are the first arrivals, and the handler is where it should be. -/
structure RxInv (ring : RxRing) (s : RxState F B) : Prop where
  window : Holds ring.size s.virt s.arrived s.deq
  room : s.arrived.length ≤ s.deq + ring.size
  deq_le : s.deq ≤ s.arrived.length
  copied : s.copies.map Prod.snd = s.arrived.take s.copies.length
  point : PointInv ring s.deq s.arrived.length s.copies.length s.pc

/-- The index the source computes from the address of frame `k`. -/
theorem bufIdx_frameAddr (ring : RxRing) (k : ℕ) :
    (ring.frameAddr k - ring.phys) / rioMaxMsgSize = k % ring.size := by
  have hpos : 0 < rioMaxMsgSize := by decide
  rw [RxRing.frameAddr, Nat.add_sub_cancel_left, Nat.mul_div_cancel _ hpos]

/-- Frames at different addresses have different numbers. -/
theorem ne_of_frameAddr_ne {ring : RxRing} {j k : ℕ} (h : ring.frameAddr j ≠ ring.frameAddr k) :
    j ≠ k :=
  fun heq => h (congrArg ring.frameAddr heq)

/-- More arrivals do not matter at a program point. -/
theorem PointInv.mono {ring : RxRing} {deq enq enq' done : ℕ} {pc : Pc} (hle : enq ≤ enq')
    (h : PointInv ring deq enq done pc) : PointInv ring deq enq' done pc := by
  cases pc with
  | getCopy => exact ⟨h.1, h.2.1, by have := h.2.2; omega⟩
  | getMi => exact ⟨h.1, by have := h.2; omega⟩
  | _ => exact h

/-- Between zero and one copy is ahead of the dequeues. -/
theorem PointInv.bounds {ring : RxRing} {deq enq done : ℕ} {pc : Pc}
    (h : PointInv ring deq enq done pc) :
    deq ≤ done ∧ done ≤ deq + 1 ∧ (pc ≠ .getMi → done = deq) := by
  cases pc with
  | recvMi => exact h.elim
  | getMi => exact ⟨by have := h.1; omega, by have := h.1; omega, fun hne => absurd rfl hne⟩
  | recvCompare | getCompare | getCopy =>
    exact ⟨by have := h.1; omega, by have := h.1; omega, fun _ => h.1⟩
  | _ =>
    have h : done = deq := h
    exact ⟨by omega, by omega, fun _ => h⟩

/-- The invariant gives exactly-once delivery. -/
theorem RxInv.delivered {ring : RxRing} {s : RxState F B} (h : RxInv ring s) : Delivered s :=
  ⟨h.copied, h.point.bounds⟩

/-- An opened ring satisfies the invariant. -/
theorem rxInv_init (ring : RxRing) (virt : ℕ → F) : RxInv ring (rxInit virt : RxState F B) :=
  ⟨Holds.empty le_rfl, Nat.zero_le _, le_rfl, rfl, rfl⟩

/-- There are never more copies than arrivals. -/
theorem RxInv.copies_le {ring : RxRing} {s : RxState F B} (h : RxInv ring s) :
    s.copies.length ≤ s.arrived.length := by
  have hlen := congrArg List.length h.copied
  rw [List.length_map, List.length_take] at hlen
  omega

/-- An arrival keeps the invariant: it disturbs no frame still queued and moves no pointer the
    handler holds. -/
theorem RxInv.arrive {ring : RxRing} {s : RxState F B} (h : RxInv ring s)
    (hroom : s.arrived.length < s.deq + ring.size) (frame : F) :
    RxInv ring { s with
      arrived := s.arrived ++ [frame]
      virt := Function.update s.virt (s.arrived.length % ring.size) frame } := by
  have hlen : (s.arrived ++ [frame]).length = s.arrived.length + 1 := by simp
  have hdeq := h.deq_le
  refine ⟨h.window.store hroom frame, ?_, ?_, ?_, ?_⟩
  · show (s.arrived ++ [frame]).length ≤ s.deq + ring.size
    omega
  · show s.deq ≤ (s.arrived ++ [frame]).length
    omega
  · -- the new frame is behind all that have been copied
    show s.copies.map Prod.snd = (s.arrived ++ [frame]).take s.copies.length
    rw [List.take_append_of_le_length h.copies_le]
    exact h.copied
  · refine h.point.mono ?_
    show s.arrived.length ≤ (s.arrived ++ [frame]).length
    omega

/-- Moving to another program point keeps the invariant when that point's part of it holds. -/
theorem RxInv.goto {ring : RxRing} {s : RxState F B} (h : RxInv ring s) {pc : Pc}
    (hpc : PointInv ring s.deq s.arrived.length s.copies.length pc) :
    RxInv ring { s with pc := pc } :=
  ⟨h.window, h.room, h.deq_le, h.copied, hpc⟩

/-- Adding a client buffer keeps the invariant. -/
theorem RxInv.addBuffer {ring : RxRing} {s : RxState F B} (h : RxInv ring s) (buf : B) :
    RxInv ring (fslAddInbBuffer ring buf s) := by
  unfold fslAddInbBuffer
  split
  · exact h
  · exact ⟨h.window, h.room, h.deq_le, h.copied, h.point⟩

/-- The copy of the next frame into the client buffer of its slot keeps the invariant. -/
theorem RxInv.copy {ring : RxRing} {s : RxState F B} (h : RxInv ring s)
    (hdone : s.copies.length = s.deq) (hlt : s.deq < s.arrived.length) (buf : B)
    (virtBuffer : ℕ → Option B) :
    RxInv ring { s with
      copies := s.copies ++ [(buf, s.virt (s.deq % ring.size))]
      virtBuffer := virtBuffer
      pc := .getMi } := by
  refine ⟨h.window, h.room, h.deq_le, ?_, ?_⟩
  · show (s.copies ++ [(buf, s.virt (s.deq % ring.size))]).map Prod.snd
      = s.arrived.take (s.copies ++ [(buf, s.virt (s.deq % ring.size))]).length
    rw [List.map_append, h.copied, List.length_append, List.length_singleton, hdone,
      List.take_succ_eq_append_getElem hlt, List.map_singleton, h.window.front hlt]
  · show PointInv ring s.deq s.arrived.length _ .getMi
    exact ⟨by simp [hdone], hlt⟩

/-- The dequeue that follows a copy keeps the invariant. -/
theorem RxInv.dequeue {ring : RxRing} {s : RxState F B} (h : RxInv ring s)
    (hdone : s.copies.length = s.deq + 1) (hlt : s.deq < s.arrived.length) :
    RxInv ring { s with deq := s.deq + 1, pc := .callback } := by
  have hroom := h.room
  refine ⟨h.window.advance (Nat.le_succ _), ?_, hlt, h.copied, hdone⟩
  show s.arrived.length ≤ s.deq + 1 + ring.size
  omega

/-- A guarded step of the handler keeps the invariant. -/
theorem RxInv.handlerStep {ring : RxRing} {s t : RxState F B} (h : RxInv ring s)
    (hg : RxGuard ring s .tick) (ht : handlerStep ring s = some t) : RxInv ring t := by
  have hpoint := h.point
  have hdeq := h.deq_le
  unfold Rio.handlerStep at ht
  unfold RxGuard PointGuard at hg
  cases hpc : s.pc with
  | idle | callback => simp [hpc] at ht
  | recvStart isr =>
    simp only [hpc, Option.some.injEq] at ht hpoint
    subst ht
    exact h.goto ⟨hpoint, rfl⟩
  | recvCompare isr physBuf =>
    simp only [hpc] at ht hg hpoint
    rw [if_pos hg, Option.some.injEq] at ht
    subst ht
    exact h.goto hpoint.1
  | recvMi isr =>
    -- the guard keeps the handler from this point
    rw [hpc] at hpoint
    exact hpoint.elim
  | testDiqi isr =>
    simp only [hpc] at ht hpoint
    split at ht <;> obtain rfl := Option.some.inj ht <;> exact h.goto hpoint
  | getStart =>
    simp only [hpc, Option.some.injEq] at ht hpoint
    subst ht
    exact h.goto ⟨hpoint, rfl⟩
  | getCompare physBuf =>
    simp only [hpc] at ht hpoint
    obtain ⟨hdone, rfl⟩ := hpoint
    split at ht <;> obtain rfl := Option.some.inj ht
    · exact h.goto hdone
    · -- the addresses differ, so a frame is queued
      rename_i hne
      have hlt : s.deq ≠ s.arrived.length := ne_of_frameAddr_ne hne
      exact h.goto ⟨hdone, bufIdx_frameAddr ring s.deq, by omega⟩
  | getCopy bufIdx =>
    -- there is a client buffer, and the frame copied is the next one
    simp only [hpc] at ht hg hpoint
    obtain ⟨hdone, rfl, hlt⟩ := hpoint
    obtain ⟨buf, hbuf⟩ := Option.isSome_iff_exists.mp hg
    simp only [hbuf, Option.some.injEq] at ht
    subst ht
    exact h.copy hdone hlt buf _
  | getMi =>
    simp only [hpc, Option.some.injEq] at ht hpoint
    subst ht
    exact h.dequeue hpoint.1 hpoint.2

/-- A guarded step of the machine keeps the invariant. -/
theorem rxStep_inv {ring : RxRing} (s : RxState F B) (a : RxAct F B) (t : RxState F B)
    (h : RxInv ring s) (hg : RxGuard ring s a) (ht : rxStep ring s a = some t) :
    RxInv ring t := by
  cases a with
  | arrive frame =>
    simp only [rxStep, Option.ite_none_right_eq_some, Option.some.injEq] at ht
    obtain ⟨hroom, rfl⟩ := ht
    exact h.arrive hroom frame
  | irq isr =>
    simp only [rxStep] at ht
    split at ht
    · exact absurd ht (by simp)
    · rename_i hidle
      have hpoint := h.point
      rw [not_not.mp hidle] at hpoint
      split at ht <;> obtain rfl := Option.some.inj ht
      · exact h
      · exact h.goto hpoint
  | tick => exact h.handlerStep hg ht
  | fetch =>
    simp only [rxStep, Option.ite_none_right_eq_some, Option.some.injEq] at ht
    obtain ⟨hpc, rfl⟩ := ht
    have hpoint := h.point
    rw [hpc] at hpoint
    exact h.goto hpoint
  | ret =>
    simp only [rxStep, Option.ite_none_right_eq_some, Option.some.injEq] at ht
    obtain ⟨hpc, rfl⟩ := ht
    have hpoint := h.point
    rw [hpc] at hpoint
    exact h.goto hpoint
  | addBuffer buf =>
    simp only [rxStep, Option.ite_none_right_eq_some, Option.some.injEq] at ht
    obtain ⟨-, rfl⟩ := ht
    exact h.addBuffer buf

/-- **Exactly once, in order.**  In every run from an opened ring in which the comparison of
    `InboundRecvMsgPro` always finds the queue empty and every fetch finds a client buffer,
    every state reached has delivered the dequeued frames exactly once and in order. -/
theorem delivered_of_guarded (ring : RxRing) (virt : ℕ → F) (run : List (RxAct F B))
    (t : RxState F B) (hg : Guarded (rxStep ring) (RxGuard ring) (rxInit virt) run)
    (ht : exec (rxStep ring) (rxInit virt) run = some t) : Delivered t :=
  (exec_invariant rxStep_inv run _ t (rxInv_init ring virt) hg ht).delivered

/-- A run in which a frame arrives between the comparison of `InboundRecvMsgPro` and the
    callback. -/
def lateFrameRun : List (RxAct ℕ ℕ) :=
  [.addBuffer 7, .irq 1, .tick, .tick, .arrive 5, .tick, .fetch, .tick, .tick, .tick, .tick, .ret]

/-- A late frame is delivered. -/
theorem delivered_lateFrameRun :
    ∃ t, exec (rxStep ⟨2, 0x1000, true⟩) (rxInit fun _ => 0) lateFrameRun = some t ∧
      t.copies = [(7, 5)] ∧ t.deq = 1 ∧ Delivered t := by
  have hrun : (exec (rxStep ⟨2, 0x1000, true⟩) (rxInit fun _ => 0) lateFrameRun).map
      (fun t => (t.copies, t.deq)) = some ([(7, 5)], 1) := by decide +kernel
  obtain ⟨t, ht, hres⟩ := Option.map_eq_some_iff.mp hrun
  obtain ⟨hcopies, hdeq⟩ := Prod.mk.inj hres
  exact ⟨t, ht, hcopies, hdeq,
    delivered_of_guarded ⟨2, 0x1000, true⟩ (fun _ => 0) lateFrameRun t (by decide +kernel) ht⟩

/-- A frame that has arrived when the interrupt is taken is dequeued by `InboundRecvMsgPro` and
    never copied. -/
theorem not_delivered_early_frame :
    ¬∀ (run : List (RxAct ℕ ℕ)) (t : RxState ℕ ℕ),
      exec (rxStep ⟨2, 0x1000, true⟩) (rxInit fun _ => 0) run = some t → Delivered t := by
  intro h
  have hrun : (exec (rxStep ⟨2, 0x1000, true⟩) (rxInit fun _ => 0)
      [RxAct.addBuffer 7, .arrive 5, .irq 1, .tick, .tick, .tick]).map
      (fun t => (t.copies, t.deq)) = some ([], 1) := by decide +kernel
  obtain ⟨t, ht, hres⟩ := Option.map_eq_some_iff.mp hrun
  obtain ⟨hcopies, hdeq⟩ := Prod.mk.inj hres
  have hle := (h _ t ht).2.1
  rw [hcopies, hdeq] at hle
  exact absurd hle (by decide)

end Vpx3.Rio
