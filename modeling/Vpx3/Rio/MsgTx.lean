import Mathlib
import Vpx3.Rio.MsgRx

namespace Vpx3.Rio

/-!
# Outbound messages — the transmit ring of `fsl_rmu.c`

The ring has a descriptor and a 4 KiB buffer per slot.  A send fills buffer and descriptor of
`tx_slot`, writes `OMR[MUI]`, on which the message unit advances its enqueue pointer, and
moves `tx_slot` on.

* `fslOpenOutbMbox` — the allocation of a ring, with every exit it has;
* `fslAddOutbMessage` — the send path of the mailbox operations;
* `outBoundSendMsg` — the send path of the command interface, an edited copy of it;
* `outBoundSendMsg_eq_iff` — when the two leave the same state.

Both sends are built from the same four moves on the ring, `storeBuffer`, `storeDesc`,
`writeMui` and `nextSlot`; what differs is what they store.
-/

/-- `struct rio_tx_desc` without its padding. -/
@[ext] structure TxDesc where
  saddr : BitVec 32
  dport : BitVec 32
  dattr : BitVec 32
  dwcnt : BitVec 32
  deriving DecidableEq, Repr

/-- Where a DMA pointer of the ring points. -/
inductive DmaPtr where
  | null
  | live
  | freed
  deriving DecidableEq, Repr

/-- `struct rio_msg_tx_ring`, with the content of the memory its pointers name. -/
structure TxRing where
  virtPtr : DmaPtr
  virt : ℕ → TxDesc
  phys : BitVec 32
  bufferPtr : ℕ → DmaPtr
  virtBuffer : ℕ → ℕ → BitVec 8
  physBuffer : ℕ → BitVec 32
  txSlot : ℕ
  size : ℕ
  devId : ℕ

/-- The message unit and what belongs to it: the ring, the registers the sends use, the number
    of writes of `OMR[MUI]` so far, the static open flag of `OutBoundSendMsg`, and whether
    something was stored through a ring pointer that is not live. -/
structure Rmu where
  msgTxRing : TxRing
  omr : BitVec 32
  odqdpar : BitVec 32
  odqepar : BitVec 32
  mui : ℕ
  uiOpenFlag : Bool
  wild : Bool

def rioMinTxRingSize : ℕ := 2
def rioMaxTxRingSize : ℕ := 2048
def rioMsgOmrMui : BitVec 32 := 0x00000002

def einval : Int := 22
def enomem : Int := 12

/-- `is_power_of_2`. -/
def isPowerOf2 (n : ℕ) : Prop := n ≠ 0 ∧ n &&& (n - 1) = 0

instance (n : ℕ) : Decidable (isPowerOf2 n) := inferInstanceAs (Decidable (_ ∧ _))

/-- `get_bitmask_order`: the position of the highest set bit, counted from one. -/
def getBitmaskOrder (n : ℕ) : ℕ := if n = 0 then 0 else Nat.log2 n + 1

/-! ### Opening the ring -/

/-- What `fsl_open_outb_mbox` gets from outside: for each buffer its bus address and content,
    the descriptor ring's bus address, and the result of `request_irq`. -/
structure OpenEnv where
  buffer : ℕ → Option (BitVec 32 × (ℕ → BitVec 8))
  desc : Option (BitVec 32)
  requestIrq : Int

/-- Free a buffer pointer unless it is NULL. -/
def DmaPtr.free : DmaPtr → DmaPtr
  | .null => .null
  | _ => .freed

/-- The buffer loop after its first `n` allocations have succeeded. -/
def TxRing.allocBuffers (ring : TxRing) (env : OpenEnv) (n : ℕ) : TxRing :=
  { ring with
    bufferPtr := fun j => if j < n then .live else ring.bufferPtr j
    virtBuffer := fun j =>
      if j < n then ((env.buffer j).map Prod.snd).getD (ring.virtBuffer j) else ring.virtBuffer j
    physBuffer := fun j =>
      if j < n then ((env.buffer j).map Prod.fst).getD (ring.physBuffer j)
      else ring.physBuffer j }

/-- The buffer loop when allocation `i` fails: its pointer is NULL, and every pointer of the
    ring that is not NULL is freed, behind `i` those of an earlier ring. -/
def TxRing.failBuffer (ring : TxRing) (i : ℕ) : TxRing :=
  { ring with
    bufferPtr := fun j =>
      if j = i then .null
      else if j < ring.size then (ring.bufferPtr j).free
      else ring.bufferPtr j }

/-- The buffers of a ring that is given up. -/
def TxRing.freeBuffers (ring : TxRing) : TxRing :=
  { ring with bufferPtr := fun j => if j < ring.size then .freed else ring.bufferPtr j }

/-- `fsl_open_outb_mbox`. -/
def fslOpenOutbMbox (env : OpenEnv) (devId entries : ℕ) (s : Rmu) : Int × Rmu :=
  if entries < rioMinTxRingSize ∨ entries > rioMaxTxRingSize ∨ ¬isPowerOf2 entries then
    (-einval, s)
  else
    let ring := { s.msgTxRing with devId := devId, size := entries }
    match (List.range entries).find? fun i => (env.buffer i).isNone with
    | some i => (-enomem, { s with msgTxRing := (ring.allocBuffers env i).failBuffer i })
    | none =>
      -- all buffers are there; then the descriptor ring, then the interrupt
      let ring := ring.allocBuffers env entries
      match env.desc with
      | none => (-enomem, { s with msgTxRing := { ring.freeBuffers with virtPtr := .null } })
      | some phys =>
        let ring := { ring with
          virtPtr := .live, virt := fun _ => ⟨0, 0, 0, 0⟩, phys := phys, txSlot := 0 }
        let s := { s with msgTxRing := ring, odqdpar := phys, odqepar := phys }
        if env.requestIrq < 0 then
          (env.requestIrq,
            { s with msgTxRing := { ring.freeBuffers with virtPtr := .freed } })
        else
          let omr : BitVec 32 := 0x00100220
          let omr := omr ||| BitVec.ofNat 32 ((getBitmaskOrder entries - 2) * 2 ^ 12)
          (env.requestIrq, { s with omr := omr ||| 0x1 })

/-! ### The moves of a send -/

/-- A transmit buffer after `memcpy` of `size` bytes of `src` and the clearing of its rest. -/
def copyAndClear (src : ℕ → BitVec 8) (size : ℕ) (old : ℕ → BitVec 8) : ℕ → BitVec 8 := fun k =>
  if k < size then src k
  else if size < rioMaxMsgSize - 4 ∧ k < rioMaxMsgSize then 0
  else old k

/-- Store a message in the buffer of the current slot. -/
def storeBuffer (src : ℕ → BitVec 8) (size : ℕ) (s : Rmu) : Rmu :=
  let ring := s.msgTxRing
  let content := copyAndClear src size (ring.virtBuffer ring.txSlot)
  { s with
    msgTxRing := { ring with virtBuffer := Function.update ring.virtBuffer ring.txSlot content }
    wild := s.wild || decide (ring.bufferPtr ring.txSlot ≠ .live) }

/-- Store into the descriptor of the current slot. -/
def storeDesc (fill : TxDesc → TxDesc) (s : Rmu) : Rmu :=
  let ring := s.msgTxRing
  { s with
    msgTxRing :=
      { ring with virt := Function.update ring.virt ring.txSlot (fill (ring.virt ring.txSlot)) }
    wild := s.wild || decide (ring.virtPtr ≠ .live) }

/-- Read `omr` and write it back with `RIO_MSG_OMR_MUI` set. -/
def writeMui (s : Rmu) : Rmu := { s with omr := s.omr ||| rioMsgOmrMui, mui := s.mui + 1 }

/-- `if (++tx_slot == size) tx_slot = 0`. -/
def nextSlot (s : Rmu) : Rmu :=
  let ring := s.msgTxRing
  { s with
    msgTxRing :=
      { ring with txSlot := if ring.txSlot + 1 = ring.size then 0 else ring.txSlot + 1 } }

/-- The descriptor fields both paths set: target and mailbox, interrupt and port, and the size
    rounded to a power of two. -/
def fillDesc (index : BitVec 8) (destid : BitVec 16) (mbox : BitVec 32) (size : ℕ)
    (desc : TxDesc) : TxDesc :=
  { desc with
    dport := (destid.setWidth 32 <<< 16) ||| (mbox &&& 0x3)
    dattr := 0x28000000 ||| (index.setWidth 32 <<< 20)
    dwcnt := BitVec.ofNat 32 (if isPowerOf2 size then size else 2 ^ getBitmaskOrder size) }

/-! ### The two send paths -/

/-- `fsl_add_outb_message` for a device with id `destid` on the port with number `index`. -/
def fslAddOutbMessage (index : BitVec 8) (destid : BitVec 16) (mbox : BitVec 32)
    (buffer : ℕ → BitVec 8) (len : ℕ) (s : Rmu) : Int × Rmu :=
  if len < 8 ∨ len > rioMaxMsgSize then (-einval, s)
  else
    let s := storeBuffer buffer len s
    -- the one field the edited copy leaves as it is
    let saddr := 0x00000004 ||| s.msgTxRing.physBuffer s.msgTxRing.txSlot
    let s := storeDesc (fun desc => { fillDesc index destid mbox len desc with saddr := saddr }) s
    (0, nextSlot (writeMui s))

/-- What `OutBoundSendMsg` gets from outside: whether `kmalloc` succeeds, the address of its
    local `uiOpenId`, and the environment of the open it may perform. -/
structure SendEnv where
  kmalloc : Bool
  uiOpenId : ℕ
  openEnv : OpenEnv

/-- The open `OutBoundSendMsg` performs on its first accepted call; the result is not looked
    at and the flag is set in any case. -/
def openOnce (env : SendEnv) (s : Rmu) : Rmu :=
  if s.uiOpenFlag then s
  else { (fslOpenOutbMbox env.openEnv env.uiOpenId 1024 s).2 with uiOpenFlag := true }

/-- `OutBoundSendMsg`.  The parameter `v_pbuffer` is overwritten by the pointer `kmalloc`
    returns, and what is sent is that memory filled with `0x1`.  The store of `saddr` is
    commented out. -/
def outBoundSendMsg (env : SendEnv) (index : BitVec 8) (vUsDestId : BitVec 16)
    (vUMbox : BitVec 32) (_vPbuffer : ℕ → BitVec 8) (vUiSize : ℕ) (s : Rmu) : Int × Rmu :=
  if env.kmalloc = false then (-1, s)
  else if vUiSize < 8 ∨ vUiSize > rioMaxMsgSize then (-einval, s)
  else
    let s := openOnce env s
    let s := storeBuffer (fun _ => 0x1) vUiSize s
    let s := storeDesc (fillDesc index vUsDestId vUMbox vUiSize) s
    (0, nextSlot (writeMui s))

/-! ### When the two paths agree -/

/-- Two messages of one size leave the same buffer exactly when their bytes are the same. -/
theorem copyAndClear_eq_iff (src src' : ℕ → BitVec 8) (size : ℕ) (old : ℕ → BitVec 8) :
    copyAndClear src size old = copyAndClear src' size old ↔ ∀ k < size, src k = src' k := by
  constructor
  · intro h k hk
    have hk' := congrFun h k
    rwa [copyAndClear, copyAndClear, if_pos hk, if_pos hk] at hk'
  · intro h
    funext k
    rw [copyAndClear, copyAndClear]
    split
    · exact h k ‹_›
    · rfl

/-- Updates of one place are equal exactly when they store the same. -/
theorem update_eq_update_iff {β : Type} (f : ℕ → β) (i : ℕ) (x y : β) :
    Function.update f i x = Function.update f i y ↔ x = y := by
  constructor
  · intro h
    have hi := congrFun h i
    rwa [Function.update_self, Function.update_self] at hi
  · rintro rfl
    rfl

/-- The stores of the two paths agree when the message is the fill pattern and the descriptor
    already names the slot's buffer. -/
theorem stores_eq_iff (fill : TxDesc → TxDesc) (buffer : ℕ → BitVec 8) (size : ℕ) (s : Rmu)
    (hfill : ∀ desc, (fill desc).saddr = desc.saddr) :
    nextSlot (writeMui (storeDesc fill (storeBuffer (fun _ => 0x1) size s)))
        = nextSlot (writeMui (storeDesc
            (fun desc => { fill desc with
              saddr := 0x00000004 ||| s.msgTxRing.physBuffer s.msgTxRing.txSlot })
            (storeBuffer buffer size s)))
      ↔ (∀ k < size, buffer k = 0x1) ∧
        (s.msgTxRing.virt s.msgTxRing.txSlot).saddr
          = 0x00000004 ||| s.msgTxRing.physBuffer s.msgTxRing.txSlot := by
  simp only [nextSlot, writeMui, storeDesc, storeBuffer, Rmu.mk.injEq, TxRing.mk.injEq, true_and,
    and_true, update_eq_update_iff, copyAndClear_eq_iff, TxDesc.ext_iff, hfill]
  constructor
  · rintro ⟨⟨hsaddr, hbuffer, -⟩, -⟩
    exact ⟨fun k hk => (hbuffer k hk).symm, hsaddr⟩
  · rintro ⟨hbuffer, hsaddr⟩
    exact ⟨⟨hsaddr, fun k hk => (hbuffer k hk).symm, rfl⟩, rfl⟩

/-- **The two send paths.**  With the open flag set, for every state of the ring and every
    call, `OutBoundSendMsg` and `fsl_add_outb_message` return the same and leave the same state
    if and only if `kmalloc` succeeds and, for a size in range, the message is the fill pattern
    `0x01` and the descriptor of the slot already names the slot's buffer. -/
theorem outBoundSendMsg_eq_iff (env : SendEnv) (s : Rmu) (hopen : s.uiOpenFlag = true)
    (index : BitVec 8) (destid : BitVec 16) (mbox : BitVec 32) (buffer : ℕ → BitVec 8)
    (size : ℕ) :
    outBoundSendMsg env index destid mbox buffer size s
        = fslAddOutbMessage index destid mbox buffer size s
      ↔ env.kmalloc = true ∧
        (8 ≤ size → size ≤ rioMaxMsgSize → (∀ k < size, buffer k = 0x1) ∧
          (s.msgTxRing.virt s.msgTxRing.txSlot).saddr
            = 0x00000004 ||| s.msgTxRing.physBuffer s.msgTxRing.txSlot) := by
  have honce : openOnce env s = s := by rw [openOnce, if_pos hopen]
  unfold outBoundSendMsg fslAddOutbMessage
  cases hk : env.kmalloc with
  | false =>
    -- the return values differ: `-1` against `-EINVAL` or `0`
    refine iff_of_false (fun h => ?_) (fun h => Bool.false_ne_true h.1)
    rw [if_pos rfl] at h
    have hret := congrArg Prod.fst h
    split at hret
    · exact absurd (show (-1 : Int) = -einval from hret) (by decide)
    · exact absurd (show (-1 : Int) = 0 from hret) (by decide)
  | true =>
    rw [if_neg (by decide)]
    by_cases hsize : size < 8 ∨ size > rioMaxMsgSize
    · -- both refuse the size
      rw [if_pos hsize, if_pos hsize]
      refine iff_of_true rfl ⟨rfl, fun h8 hmax => ?_⟩
      rcases hsize with hsmall | hlarge <;> omega
    · rw [if_neg hsize, if_neg hsize, honce]
      obtain ⟨h8, hmax⟩ := not_or.mp hsize
      have hstores := stores_eq_iff (fillDesc index destid mbox size) buffer size s fun _ => rfl
      rw [Prod.mk.injEq]
      constructor
      · rintro ⟨-, hstate⟩
        exact ⟨rfl, fun _ _ => hstores.mp hstate⟩
      · rintro ⟨-, hcond⟩
        exact ⟨rfl, hstores.mpr (hcond (Nat.not_lt.mp h8) (Nat.not_lt.mp hmax))⟩

/-- An open ring of two slots at slot 0, with a given source address in its descriptors. -/
def smallRing (saddr : BitVec 32) : Rmu where
  msgTxRing :=
    { virtPtr := .live, virt := fun _ => ⟨saddr, 0, 0, 0⟩, phys := 0x10000
      bufferPtr := fun _ => .live, virtBuffer := fun _ _ => 0
      physBuffer := fun i => BitVec.ofNat 32 (0x20000 + i * 0x1000)
      txSlot := 0, size := 2, devId := 0 }
  omr := 0x00100221
  odqdpar := 0x10000
  odqepar := 0x10000
  mui := 0
  uiOpenFlag := true
  wild := false

/-- The fill pattern as message, with a descriptor left from an earlier use of the slot. -/
theorem outBoundSendMsg_eq_pattern :
    outBoundSendMsg ⟨true, 0, ⟨fun _ => none, none, 0⟩⟩ 0 1 0 (fun _ => 0x1) 8 (smallRing 0x20004)
      = fslAddOutbMessage 0 1 0 (fun _ => 0x1) 8 (smallRing 0x20004) :=
  (outBoundSendMsg_eq_iff _ (smallRing 0x20004) rfl 0 1 0 (fun _ => 0x1) 8).mpr
    ⟨rfl, fun _ _ => ⟨fun _ _ => rfl, by decide⟩⟩

/-- A message of eight bytes `0x55` on a fresh ring: the one path stores them, the other stores
    `0x01`. -/
theorem outBoundSendMsg_ne_payload :
    outBoundSendMsg ⟨true, 0, ⟨fun _ => none, none, 0⟩⟩ 0 1 0 (fun _ => 0x55) 8 (smallRing 0)
      ≠ fslAddOutbMessage 0 1 0 (fun _ => 0x55) 8 (smallRing 0) := by
  intro h
  have hbyte := congrArg (fun r : Int × Rmu => r.2.msgTxRing.virtBuffer 0 0) h
  exact absurd hbyte (by decide)

end Vpx3.Rio
