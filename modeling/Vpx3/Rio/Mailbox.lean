import Vpx3.Rio.MsgRx
import Vpx3.Rio.TxQueue

namespace Vpx3.Rio

open Exec

/-!
# Mailboxes — who has opened which ring

Both rings are opened by two users: the network driver, through the RapidIO core, and the
functions `OutBoundSendMsg` and `InBoundGetMsg`, which each look at a static flag of their
own.  They name a local variable as the device of the ring, which is gone when they return.

* `fslOpenInbMbox`, `fslCloseInbMbox`, `inBoundGetMsg` — the inbound side; the outbound side is
  that of the transmit ring;
* `mboxStep` — the machine: opens and closes of the driver, sends and receives, and the
  registration of devices;
* `OneOwner` — opens run on closed rings only, an open ring has the memory that its open gave it,
  and its device is alive;
* `MboxGuard` — no open meets an open ring, the two functions never succeed in opening one,
  and no device goes away while a ring names it;
* `oneOwner_iff` — a mailbox has one owner throughout a run exactly when the run is guarded.
-/

/-! ### The inbound side -/

/-- `struct rio_msg_rx_ring` with the registers its functions use, and the static open flag of
    `InBoundGetMsg`.  Client buffers are addresses, NULL is `none`. -/
structure RxMbox where
  virtPtr : DmaPtr
  phys : BitVec 32
  virtBuffer : ℕ → Option ℕ
  rxSlot : ℕ
  size : ℕ
  devId : ℕ
  ifqdpar : BitVec 32
  ifqepar : BitVec 32
  imr : BitVec 32
  uiOpenFlag : Bool

/-- `struct fsl_rmu`: the rings of both directions. -/
structure FslRmu where
  tx : Rmu
  rx : RxMbox

def rioMinRxRingSize : ℕ := 2
def rioMaxRxRingSize : ℕ := 2048
def rioMsgImrMi : BitVec 32 := 0x00000002

/-- What `fsl_open_inb_mbox` gets from outside: the ring's bus address and the result of
    `request_irq`. -/
structure OpenInbEnv where
  desc : Option (BitVec 32)
  requestIrq : Int

/-- `fsl_open_inb_mbox`.  When the interrupt is refused it frees a buffer of the other ring, and
    keeps its own. -/
def fslOpenInbMbox (env : OpenInbEnv) (devId entries : ℕ) (s : FslRmu) : Int × FslRmu :=
  if entries < rioMinRxRingSize ∨ entries > rioMaxRxRingSize ∨ ¬isPowerOf2 entries then
    (-einval, s)
  else
    let rx := { s.rx with
      devId := devId, size := entries, rxSlot := 0
      virtBuffer := fun i => if i < entries then none else s.rx.virtBuffer i }
    match env.desc with
    | none => (-enomem, { s with rx := { rx with virtPtr := .null } })
    | some phys =>
      let rx := { rx with virtPtr := .live, phys := phys, ifqdpar := phys, ifqepar := phys }
      if env.requestIrq < 0 then
        -- `msg_tx_ring` where `msg_rx_ring` is meant, and `entries` as the index
        let ring := s.tx.msgTxRing
        let bufferPtr := Function.update ring.bufferPtr entries (ring.bufferPtr entries).free
        (env.requestIrq,
          { tx := { s.tx with msgTxRing := { ring with bufferPtr := bufferPtr } }, rx := rx })
      else
        let imr : BitVec 32 := 0x001b0060
        let imr := imr ||| BitVec.ofNat 32 ((getBitmaskOrder entries - 2) * 2 ^ 12)
        (env.requestIrq, { s with rx := { rx with imr := imr ||| 0x1 } })

/-- `fsl_close_inb_mbox`. -/
def fslCloseInbMbox (s : FslRmu) : FslRmu :=
  { s with rx := { s.rx with imr := 0, virtPtr := .freed } }

/-- `fsl_close_outb_mbox`; the buffers are not freed. -/
def fslCloseOutbMbox (s : FslRmu) : FslRmu :=
  { s with tx := { s.tx with
      omr := 0, msgTxRing := { s.tx.msgTxRing with virtPtr := .freed } } }

/-- `fsl_add_inb_buffer`. -/
def RxMbox.fslAddInbBuffer (buf : ℕ) (rx : RxMbox) : Int × RxMbox :=
  if (rx.virtBuffer rx.rxSlot).isSome then (-einval, rx)
  else
    (0, { rx with
      virtBuffer := Function.update rx.virtBuffer rx.rxSlot (some buf)
      rxSlot := if rx.rxSlot + 1 = rx.size then 0 else rx.rxSlot + 1 })

/-- The loop of `InBoundGetMsg` that adds a buffer for each slot; `none` when `fuel` rounds do
    not end it. -/
def addLoop (buf : ℕ) : ℕ → RxMbox → Option RxMbox
  | 0, _ => none
  | fuel + 1, rx =>
    if rx.rxSlot < rx.size then
      let rx := (rx.fslAddInbBuffer (buf + rx.rxSlot * rioMaxMsgSize)).2
      if rx.rxSlot = 0 then some rx else addLoop buf fuel rx
    else some rx

/-- What `InBoundGetMsg` gets from outside: the address of its local `uiOpenId`, the
    environment of the open, and the memory for eight buffers. -/
structure GetEnv where
  uiOpenId : ℕ
  openEnv : OpenInbEnv
  kmalloc : Option ℕ

/-- `InBoundGetMsg`.  The statement that would set the flag is commented out.  Behind it stands
    the fetch; its copy goes to client memory. -/
def inBoundGetMsg (env : GetEnv) (s : FslRmu) : Option (Int × FslRmu) :=
  if s.rx.uiOpenFlag = false then
    let s := (fslOpenInbMbox env.openEnv env.uiOpenId 8 s).2
    match env.kmalloc with
    | none => some (-1, fslCloseInbMbox s)
    | some buf => (addLoop buf 8 s.rx).map fun rx => (0, { s with rx := rx })
  else if s.rx.ifqdpar = s.rx.ifqepar then some (0, s)
  else some (0, { s with rx := { s.rx with imr := s.rx.imr ||| rioMsgImrMi } })

/-! ### The machine -/

/-- The memory of a ring: its own, and that of its buffers.  Whether a buffer has been freed
    meanwhile is not part of it. -/
structure RingMemory where
  virtPtr : DmaPtr
  phys : BitVec 32
  buffers : List (BitVec 32)
  deriving DecidableEq

/-- The outbound ring: descriptors and buffers. -/
def Rmu.memory (tx : Rmu) : RingMemory :=
  ⟨tx.msgTxRing.virtPtr, tx.msgTxRing.phys,
    (List.range tx.msgTxRing.size).map tx.msgTxRing.physBuffer⟩

/-- The inbound ring: frames. -/
def RxMbox.memory (rx : RxMbox) : RingMemory := ⟨rx.virtPtr, rx.phys, []⟩

/-- Both rings and what is known about them.  `alive` are the device objects that exist;
    `netOutb` and `netInb` say which mailboxes the network driver holds, `txOpen` and `rxOpen`
    which rings are open; `reopened` says that an open has run on an open ring; `txMemory` and
    `rxMemory` are what the open of a ring that was closed has left it. -/
structure MboxState where
  unit : FslRmu
  alive : List ℕ
  netOutb : Bool
  netInb : Bool
  txOpen : Bool
  rxOpen : Bool
  reopened : Bool
  txMemory : RingMemory
  rxMemory : RingMemory

/-- What can happen. -/
inductive MboxEvent where
  | register (dev : ℕ)
  | unregister (dev : ℕ)
  | openOutb (env : OpenEnv) (dev entries : ℕ)
  | closeOutb
  | openInb (env : OpenInbEnv) (dev entries : ℕ)
  | closeInb
  | sendMsg (env : SendEnv) (args : SendArgs) (buffer : ℕ → BitVec 8)
  | getMsg (env : GetEnv)

/-- The check of the ring size, the same for both directions. -/
def EntriesOk (entries : ℕ) : Prop :=
  ¬(entries < rioMinTxRingSize ∨ entries > rioMaxTxRingSize ∨ ¬isPowerOf2 entries)

instance (entries : ℕ) : Decidable (EntriesOk entries) := inferInstanceAs (Decidable (¬_))

/-- An open of the outbound ring, with its result and the unit that it leaves. -/
def MboxState.noteOutb (s : MboxState) (result : Int × Rmu) : MboxState :=
  { s with
    txOpen := s.txOpen || decide (0 ≤ result.1)
    reopened := s.reopened || s.txOpen
    txMemory := if s.txOpen then s.txMemory else result.2.memory }

/-- The same for the inbound ring. -/
def MboxState.noteInb (s : MboxState) (result : Int × FslRmu) : MboxState :=
  { s with
    rxOpen := s.rxOpen || decide (0 ≤ result.1)
    reopened := s.reopened || s.rxOpen
    rxMemory := if s.rxOpen then s.rxMemory else result.2.rx.memory }

/-- `OutBoundSendMsg` gets as far as its open. -/
def SendEnv.Opens (env : SendEnv) (args : SendArgs) (tx : Rmu) : Prop :=
  env.kmalloc = true ∧ args.Sized ∧ tx.uiOpenFlag = false

instance (env : SendEnv) (args : SendArgs) (tx : Rmu) : Decidable (env.Opens args tx) :=
  inferInstanceAs (Decidable (_ ∧ _ ∧ _))

/-- A call of `OutBoundSendMsg`. -/
def MboxState.sendMsg (s : MboxState) (env : SendEnv) (args : SendArgs)
    (buffer : ℕ → BitVec 8) : MboxState :=
  let tx := (outBoundSendMsg env args.index args.destid args.mbox buffer args.size s.unit.tx).2
  let noted :=
    if env.Opens args s.unit.tx then
      s.noteOutb (fslOpenOutbMbox env.openEnv env.uiOpenId 1024 s.unit.tx)
    else s
  { noted with unit := { s.unit with tx := tx } }

/-- A call of `InBoundGetMsg`: without memory for its buffers it closes the ring again. -/
def MboxState.getMsg (s : MboxState) (env : GetEnv) : Option MboxState :=
  (inBoundGetMsg env s.unit).map fun result =>
    let noted :=
      if s.unit.rx.uiOpenFlag = false then
        let opened := s.noteInb (fslOpenInbMbox env.openEnv env.uiOpenId 8 s.unit)
        if env.kmalloc = none then { opened with rxOpen := false } else opened
      else s
    { noted with unit := result.2 }

/-- The machine.  The core hands a mailbox out once at a time; a new object has an address no
    living object has. -/
def mboxStep (s : MboxState) : MboxEvent → Option MboxState
  | .register dev => if dev ∈ s.alive then none else some { s with alive := dev :: s.alive }
  | .unregister dev => some { s with alive := s.alive.filter (· ≠ dev) }
  | .openOutb env dev entries =>
    if s.netOutb = false ∧ dev ∈ s.alive then
      let result := fslOpenOutbMbox env dev entries s.unit.tx
      some { s.noteOutb result with
        unit := { s.unit with tx := result.2 }, netOutb := decide (0 ≤ result.1) }
    else none
  | .closeOutb =>
    if s.netOutb then
      some { s with unit := fslCloseOutbMbox s.unit, netOutb := false, txOpen := false }
    else none
  | .openInb env dev entries =>
    if s.netInb = false ∧ dev ∈ s.alive then
      let result := fslOpenInbMbox env dev entries s.unit
      some { s.noteInb result with
        unit := result.2, netInb := decide (0 ≤ result.1) }
    else none
  | .closeInb =>
    if s.netInb then
      some { s with unit := fslCloseInbMbox s.unit, netInb := false, rxOpen := false }
    else none
  | .sendMsg env args buffer =>
    if env.uiOpenId ∈ s.alive then none else some (s.sendMsg env args buffer)
  | .getMsg env => if env.uiOpenId ∈ s.alive then none else s.getMsg env

/-- Closed rings, whatever their fields hold, and flags that are not set. -/
def mboxInit (tx : Rmu) (rx : RxMbox) : MboxState where
  unit := { tx := { tx with uiOpenFlag := false }, rx := { rx with uiOpenFlag := false } }
  alive := []
  netOutb := false
  netInb := false
  txOpen := false
  rxOpen := false
  reopened := false
  txMemory := tx.memory
  rxMemory := rx.memory

/-! ### The property and the condition -/

/-- A mailbox has one owner at a time.  A transmit buffer that the error path of
    `fsl_open_inb_mbox` frees is not covered: it is freed, but not replaced. -/
structure OneOwner (s : MboxState) : Prop where
  /-- every open so far ran on a ring that was not open -/
  opened : s.reopened = false
  /-- an open ring has the memory that its open gave it -/
  txKept : s.txOpen = true → s.unit.tx.memory = s.txMemory
  rxKept : s.rxOpen = true → s.unit.rx.memory = s.rxMemory
  /-- the devices of open rings exist -/
  txAlive : s.txOpen = true → s.unit.tx.msgTxRing.devId ∈ s.alive
  rxAlive : s.rxOpen = true → s.unit.rx.devId ∈ s.alive

/-- An outbound open fails: a buffer, the descriptor ring or the interrupt is refused. -/
def OpenEnv.Fails (env : OpenEnv) (entries : ℕ) : Prop :=
  (∃ i < entries, env.buffer i = none) ∨ env.desc = none ∨ env.requestIrq < 0

/-- An inbound open fails. -/
def OpenInbEnv.Fails (env : OpenInbEnv) : Prop := env.desc = none ∨ env.requestIrq < 0

/-- The condition on a step. -/
def MboxGuard (s : MboxState) : MboxEvent → Prop
  | .unregister dev =>
    ¬(s.txOpen = true ∧ s.unit.tx.msgTxRing.devId = dev)
      ∧ ¬(s.rxOpen = true ∧ s.unit.rx.devId = dev)
  | .openOutb _ _ _ => s.txOpen = false
  | .openInb _ _ _ => s.rxOpen = false
  | .sendMsg env args _ =>
    env.Opens args s.unit.tx → s.txOpen = false ∧ env.openEnv.Fails 1024
  | .getMsg env =>
    s.unit.rx.uiOpenFlag = false → s.rxOpen = false ∧ (env.openEnv.Fails ∨ env.kmalloc = none)
  | .register _ | .closeOutb | .closeInb => True

instance (env : OpenEnv) (entries : ℕ) : Decidable (env.Fails entries) :=
  inferInstanceAs (Decidable (_ ∨ _ ∨ _))

instance (env : OpenInbEnv) : Decidable env.Fails := inferInstanceAs (Decidable (_ ∨ _))

instance (s : MboxState) : ∀ e, Decidable (MboxGuard s e)
  | .register _ | .closeOutb | .closeInb => inferInstanceAs (Decidable True)
  | .unregister _ => inferInstanceAs (Decidable (¬_ ∧ ¬_))
  | .openOutb _ _ _ | .openInb _ _ _ => inferInstanceAs (Decidable (_ = _))
  | .sendMsg _ _ _ => inferInstanceAs (Decidable (_ → _ ∧ _))
  | .getMsg _ => inferInstanceAs (Decidable (_ → _ ∧ (_ ∨ _)))

/-! ### The open functions -/

theorem neg_errno : -einval < 0 ∧ -enomem < 0 := by decide

/-- `fsl_open_outb_mbox` refuses the size and does nothing, or names its device and succeeds
    exactly when nothing is refused. -/
theorem fslOpenOutbMbox_cases (env : OpenEnv) (devId entries : ℕ) (s : Rmu) :
    (¬EntriesOk entries ∧ fslOpenOutbMbox env devId entries s = (-einval, s))
      ∨ (EntriesOk entries
        ∧ (fslOpenOutbMbox env devId entries s).2.msgTxRing.devId = devId
        ∧ (0 ≤ (fslOpenOutbMbox env devId entries s).1 ↔ ¬env.Fails entries)) := by
  have hnomem : ¬0 ≤ -enomem := by decide
  rw [fslOpenOutbMbox]
  by_cases hsize : EntriesOk entries
  · refine Or.inr ⟨hsize, ?_⟩
    rw [if_neg hsize]
    dsimp only
    cases hfind : (List.range entries).find? fun i => (env.buffer i).isNone with
    | some i =>
      -- the first buffer refused ends the open
      have hi : i < entries := List.mem_range.mp (List.mem_of_find?_eq_some hfind)
      have hnone : env.buffer i = none := Option.isNone_iff_eq_none.mp
        (List.find?_some (p := fun i => (env.buffer i).isNone) hfind)
      exact ⟨rfl, iff_of_false hnomem (not_not.mpr (Or.inl ⟨i, hi, hnone⟩))⟩
    | none =>
      -- every buffer was there: the descriptor ring and the interrupt decide
      have hbuffers : ¬∃ i < entries, env.buffer i = none := by
        rintro ⟨i, hi, hnone⟩
        exact List.find?_eq_none.mp hfind i (List.mem_range.mpr hi) (by rw [hnone]; rfl)
      cases hdesc : env.desc with
      | none => exact ⟨rfl, iff_of_false hnomem (not_not.mpr (Or.inr (Or.inl hdesc)))⟩
      | some phys =>
        dsimp only
        by_cases hirq : env.requestIrq < 0
        · rw [if_pos hirq]
          exact ⟨rfl, iff_of_false (not_le.mpr hirq) (not_not.mpr (Or.inr (Or.inr hirq)))⟩
        · rw [if_neg hirq]
          refine ⟨rfl, iff_of_true (not_lt.mp hirq) ?_⟩
          rintro (hbuffer | hnone | hneg)
          · exact hbuffers hbuffer
          · rw [hdesc] at hnone
            nomatch hnone
          · exact hirq hneg
  · exact Or.inl ⟨hsize, if_pos (not_not.mp hsize)⟩

/-- The same of `fsl_open_inb_mbox`, which starts from an empty ring. -/
theorem fslOpenInbMbox_cases (env : OpenInbEnv) (devId entries : ℕ) (s : FslRmu) :
    (¬EntriesOk entries ∧ fslOpenInbMbox env devId entries s = (-einval, s))
      ∨ (EntriesOk entries
        ∧ (fslOpenInbMbox env devId entries s).2.rx.devId = devId
        ∧ (0 ≤ (fslOpenInbMbox env devId entries s).1 ↔ ¬env.Fails)
        ∧ (fslOpenInbMbox env devId entries s).2.rx.size = entries
        ∧ (fslOpenInbMbox env devId entries s).2.rx.rxSlot = 0
        ∧ ∀ i < entries, (fslOpenInbMbox env devId entries s).2.rx.virtBuffer i = none) := by
  have hnomem : ¬0 ≤ -enomem := by decide
  rw [fslOpenInbMbox]
  by_cases hsize : EntriesOk entries
  · have hempty : ∀ i < entries, (if i < entries then none else s.rx.virtBuffer i) = none :=
      fun i hi => if_pos hi
    have hcheck : ¬(entries < rioMinRxRingSize ∨ entries > rioMaxRxRingSize
        ∨ ¬isPowerOf2 entries) := hsize
    refine Or.inr ⟨hsize, ?_⟩
    rw [if_neg hcheck]
    dsimp only
    cases hdesc : env.desc with
    | none =>
      exact ⟨rfl, iff_of_false hnomem (not_not.mpr (Or.inl hdesc)), rfl, rfl, hempty⟩
    | some phys =>
      dsimp only
      by_cases hirq : env.requestIrq < 0
      · rw [if_pos hirq]
        exact ⟨rfl, iff_of_false (not_le.mpr hirq) (not_not.mpr (Or.inr hirq)), rfl, rfl, hempty⟩
      · rw [if_neg hirq]
        refine ⟨rfl, iff_of_true (not_lt.mp hirq) ?_, rfl, rfl, hempty⟩
        rintro (hnone | hneg)
        · rw [hdesc] at hnone
          nomatch hnone
        · exact hirq hneg
  · exact Or.inl ⟨hsize, if_pos (not_not.mp hsize)⟩

/-- An inbound open leaves device and memory of the other ring. -/
theorem fslOpenInbMbox_frame (env : OpenInbEnv) (devId entries : ℕ) (s : FslRmu) :
    (fslOpenInbMbox env devId entries s).2.tx.msgTxRing.devId = s.tx.msgTxRing.devId
      ∧ (fslOpenInbMbox env devId entries s).2.tx.memory = s.tx.memory := by
  rw [fslOpenInbMbox]
  split
  · exact ⟨rfl, rfl⟩
  · dsimp only
    split
    · exact ⟨rfl, rfl⟩
    · split
      · exact ⟨rfl, rfl⟩
      · exact ⟨rfl, rfl⟩

/-! ### The loop of `InBoundGetMsg` -/

/-- With empty slots from the current one on, the loop fills them and ends. -/
theorem addLoop_of_empty (buf fuel : ℕ) (rx : RxMbox) (hfuel : rx.rxSlot + fuel = rx.size)
    (hpos : 0 < fuel) (hempty : ∀ i, rx.rxSlot ≤ i → i < rx.size → rx.virtBuffer i = none) :
    ∃ rx', addLoop buf fuel rx = some rx' ∧ rx'.devId = rx.devId := by
  induction fuel generalizing rx with
  | zero => exact absurd hpos (Nat.lt_irrefl 0)
  | succ fuel ih =>
    have hslot : rx.rxSlot < rx.size := by omega
    have hnone : rx.virtBuffer rx.rxSlot = none := hempty _ (Nat.le_refl _) hslot
    rw [addLoop, if_pos hslot, RxMbox.fslAddInbBuffer, hnone]
    simp only [Option.isSome_none, Bool.false_eq_true, if_false]
    by_cases hlast : rx.rxSlot + 1 = rx.size
    · -- the slot wraps around and the loop breaks
      rw [if_pos hlast, if_pos rfl]
      exact ⟨_, rfl, rfl⟩
    · -- the slots behind this one are still empty
      rw [if_neg hlast, if_neg (Nat.succ_ne_zero _)]
      obtain ⟨rx', hrun, hdev⟩ := ih { rx with
          virtBuffer := Function.update rx.virtBuffer rx.rxSlot
            (some (buf + rx.rxSlot * rioMaxMsgSize))
          rxSlot := rx.rxSlot + 1 } (by dsimp only; omega) (by omega) (by
        intro i hi hlt
        dsimp only at hi hlt ⊢
        rw [Function.update_of_ne (by omega)]
        exact hempty i (by omega) hlt)
      exact ⟨rx', hrun, hdev⟩

/-- The size of the ring `InBoundGetMsg` opens, and that of `OutBoundSendMsg`, are in order. -/
theorem entriesOk_fixed : EntriesOk 8 ∧ EntriesOk 1024 := by decide

/-- The open in `OutBoundSendMsg`. -/
theorem fslOpenOutbMbox_fixed (env : OpenEnv) (devId : ℕ) (s : Rmu) :
    (fslOpenOutbMbox env devId 1024 s).2.msgTxRing.devId = devId
      ∧ (0 ≤ (fslOpenOutbMbox env devId 1024 s).1 ↔ ¬env.Fails 1024) := by
  rcases fslOpenOutbMbox_cases env devId 1024 s with ⟨hsize, -⟩ | ⟨-, hopen⟩
  · exact absurd entriesOk_fixed.2 hsize
  · exact hopen

/-- The open in `InBoundGetMsg`. -/
theorem fslOpenInbMbox_fixed (env : OpenInbEnv) (devId : ℕ) (s : FslRmu) :
    (fslOpenInbMbox env devId 8 s).2.rx.devId = devId
      ∧ (0 ≤ (fslOpenInbMbox env devId 8 s).1 ↔ ¬env.Fails)
      ∧ (fslOpenInbMbox env devId 8 s).2.rx.size = 8
      ∧ (fslOpenInbMbox env devId 8 s).2.rx.rxSlot = 0
      ∧ ∀ i < 8, (fslOpenInbMbox env devId 8 s).2.rx.virtBuffer i = none := by
  rcases fslOpenInbMbox_cases env devId 8 s with ⟨hsize, -⟩ | ⟨-, hopen⟩
  · exact absurd entriesOk_fixed.1 hsize
  · exact hopen

/-- An open that succeeds makes its device that of the ring. -/
theorem devId_of_openOutb {env : OpenEnv} {devId entries : ℕ} {s : Rmu}
    (hrc : 0 ≤ (fslOpenOutbMbox env devId entries s).1) :
    (fslOpenOutbMbox env devId entries s).2.msgTxRing.devId = devId := by
  rcases fslOpenOutbMbox_cases env devId entries s with ⟨-, hrun⟩ | ⟨-, hdev, -⟩
  · rw [hrun] at hrc
    exact absurd hrc (show ¬(0 : Int) ≤ -einval by decide)
  · exact hdev

theorem devId_of_openInb {env : OpenInbEnv} {devId entries : ℕ} {s : FslRmu}
    (hrc : 0 ≤ (fslOpenInbMbox env devId entries s).1) :
    (fslOpenInbMbox env devId entries s).2.rx.devId = devId := by
  rcases fslOpenInbMbox_cases env devId entries s with ⟨-, hrun⟩ | ⟨-, hdev, -⟩
  · rw [hrun] at hrc
    exact absurd hrc (show ¬(0 : Int) ≤ -einval by decide)
  · exact hdev

/-- `InBoundGetMsg` always returns, and leaves the other ring alone.  Where it opens the ring, its
    local is the ring's device afterwards; otherwise the ring keeps device and memory. -/
theorem inBoundGetMsg_returns (env : GetEnv) (s : FslRmu) :
    ∃ rc s', inBoundGetMsg env s = some (rc, s')
      ∧ (s'.tx.msgTxRing.devId = s.tx.msgTxRing.devId ∧ s'.tx.memory = s.tx.memory)
      ∧ s'.rx.devId = (if s.rx.uiOpenFlag = false then env.uiOpenId else s.rx.devId)
      ∧ (s.rx.uiOpenFlag ≠ false → s'.rx.memory = s.rx.memory) := by
  rw [inBoundGetMsg]
  by_cases hflag : s.rx.uiOpenFlag = false
  · -- the branch taken on every call, as nobody sets the flag
    obtain ⟨hdev, -, hsize, hslot, hempty⟩ := fslOpenInbMbox_fixed env.openEnv env.uiOpenId s
    have htx := fslOpenInbMbox_frame env.openEnv env.uiOpenId 8 s
    rw [if_pos hflag, if_pos hflag]
    dsimp only
    cases env.kmalloc with
    | none => exact ⟨_, _, rfl, htx, hdev, fun h => absurd hflag h⟩
    | some buf =>
      obtain ⟨rx', hloop, hdev'⟩ := addLoop_of_empty buf 8 _ (by rw [hslot, hsize])
        (by decide) (fun i _ hi => hempty i (by rwa [hsize] at hi))
      dsimp only
      rw [hloop]
      exact ⟨_, _, rfl, htx, hdev'.trans hdev, fun h => absurd hflag h⟩
  · rw [if_neg hflag, if_neg hflag]
    split
    · exact ⟨_, _, rfl, ⟨rfl, rfl⟩, rfl, fun _ => rfl⟩
    · exact ⟨_, _, rfl, ⟨rfl, rfl⟩, rfl, fun _ => rfl⟩

/-- What a call of `OutBoundSendMsg` leaves of whatever its moves keep: the moves themselves change
    nothing of it, and its open does if the call comes to it. -/
theorem outBoundSendMsg_keeps {β : Type} (keep : Rmu → β)
    (hmoves : ∀ (fill : TxDesc → TxDesc) (size : ℕ) (t : Rmu),
      keep (nextSlot (writeMui (storeDesc fill (storeBuffer (fun _ => 0x1) size t)))) = keep t)
    (hopen : ∀ (t : Rmu) (flag : Bool), keep { t with uiOpenFlag := flag } = keep t)
    (env : SendEnv) (args : SendArgs) (buffer : ℕ → BitVec 8) (tx : Rmu) :
    keep (outBoundSendMsg env args.index args.destid args.mbox buffer args.size tx).2
      = if env.Opens args tx then keep (fslOpenOutbMbox env.openEnv env.uiOpenId 1024 tx).2
        else keep tx := by
  rw [outBoundSendMsg]
  by_cases hk : env.kmalloc = false
  · have hopens : ¬env.Opens args tx := fun h => Bool.false_ne_true (hk.symm.trans h.1)
    rw [if_pos hk, if_neg hopens]
  · by_cases hsize : args.Sized
    · rw [if_neg hk, if_neg hsize]
      dsimp only
      rw [hmoves, openOnce]
      cases hflag : tx.uiOpenFlag with
      | false =>
        rw [if_neg Bool.false_ne_true, if_pos ⟨Bool.eq_true_of_not_eq_false hk, hsize, hflag⟩,
          hopen]
      | true =>
        have hopens : ¬env.Opens args tx := fun h => Bool.false_ne_true (h.2.2.symm.trans hflag)
        rw [if_pos rfl, if_neg hopens]
    · have hopens : ¬env.Opens args tx := fun h => hsize h.2.1
      rw [if_neg hk, if_pos (not_not.mp hsize), if_neg hopens]

/-- `OutBoundSendMsg` stores no device but through its open. -/
theorem outBoundSendMsg_devId (env : SendEnv) (args : SendArgs) (buffer : ℕ → BitVec 8)
    (tx : Rmu) :
    (outBoundSendMsg env args.index args.destid args.mbox buffer args.size tx).2.msgTxRing.devId
      = if env.Opens args tx then
          (fslOpenOutbMbox env.openEnv env.uiOpenId 1024 tx).2.msgTxRing.devId
        else tx.msgTxRing.devId :=
  outBoundSendMsg_keeps (fun tx => tx.msgTxRing.devId) (fun _ _ _ => rfl) (fun _ _ => rfl) env args
    buffer tx

/-- Nor does it give the ring other memory. -/
theorem outBoundSendMsg_memory (env : SendEnv) (args : SendArgs) (buffer : ℕ → BitVec 8)
    (tx : Rmu) :
    (outBoundSendMsg env args.index args.destid args.mbox buffer args.size tx).2.memory
      = if env.Opens args tx then (fslOpenOutbMbox env.openEnv env.uiOpenId 1024 tx).2.memory
        else tx.memory :=
  outBoundSendMsg_keeps Rmu.memory (fun _ _ _ => rfl) (fun _ _ => rfl) env args buffer tx

/-! ### One step -/

variable {s s' : MboxState}

/-- An open leaves the record clean only if it finds the ring closed. -/
theorem txClosed_of_noteOutb (result : Int × Rmu) (h : (s.noteOutb result).reopened = false) :
    s.txOpen = false :=
  (Bool.or_eq_false_iff.mp h).2

theorem rxClosed_of_noteInb (result : Int × FslRmu) (h : (s.noteInb result).reopened = false) :
    s.rxOpen = false :=
  (Bool.or_eq_false_iff.mp h).2

/-- Then it does, the ring is open afterwards exactly if the open has succeeded, and what the open
    leaves is the ring's memory. -/
theorem OneOwner.noteOutb (hinv : OneOwner s) (hclosed : s.txOpen = false) (result : Int × Rmu) :
    (s.noteOutb result).reopened = false
      ∧ ((s.noteOutb result).txOpen = true ↔ 0 ≤ result.1)
      ∧ (s.noteOutb result).txMemory = result.2.memory := by
  simp [MboxState.noteOutb, hinv.opened, hclosed]

theorem OneOwner.noteInb (hinv : OneOwner s) (hclosed : s.rxOpen = false)
    (result : Int × FslRmu) :
    (s.noteInb result).reopened = false
      ∧ ((s.noteInb result).rxOpen = true ↔ 0 ≤ result.1)
      ∧ (s.noteInb result).rxMemory = result.2.rx.memory := by
  simp [MboxState.noteInb, hinv.opened, hclosed]

/-- An open of the outbound ring for a device that is alive keeps the owner exactly if the
    ring was closed. -/
theorem openOutb_iff (hinv : OneOwner s) {env : OpenEnv} {dev entries : ℕ}
    (h : mboxStep s (.openOutb env dev entries) = some s') :
    OneOwner s' ↔ s.txOpen = false := by
  rw [mboxStep] at h
  split at h
  · rename_i hcore
    obtain rfl := Option.some.inj h
    refine ⟨fun h' => txClosed_of_noteOutb (fslOpenOutbMbox env dev entries s.unit.tx) h'.opened,
      fun hclosed => ?_⟩
    obtain ⟨hopened, hopen, hmemory⟩ := hinv.noteOutb hclosed
      (fslOpenOutbMbox env dev entries s.unit.tx)
    refine ⟨hopened, fun _ => hmemory.symm, hinv.rxKept, fun h => ?_, hinv.rxAlive⟩
    -- the ring is open now only if the open succeeded, for the device it was called for
    dsimp only
    rw [devId_of_openOutb (hopen.mp h)]
    exact hcore.2
  · nomatch h

/-- The same for the inbound ring. -/
theorem openInb_iff (hinv : OneOwner s) {env : OpenInbEnv} {dev entries : ℕ}
    (h : mboxStep s (.openInb env dev entries) = some s') :
    OneOwner s' ↔ s.rxOpen = false := by
  rw [mboxStep] at h
  split at h
  · rename_i hcore
    obtain rfl := Option.some.inj h
    refine ⟨fun h' => rxClosed_of_noteInb (fslOpenInbMbox env dev entries s.unit) h'.opened,
      fun hclosed => ?_⟩
    obtain ⟨hopened, hopen, hmemory⟩ := hinv.noteInb hclosed
      (fslOpenInbMbox env dev entries s.unit)
    -- the other ring keeps its device and its memory
    obtain ⟨hdev, hkept⟩ := fslOpenInbMbox_frame env dev entries s.unit
    refine ⟨hopened, fun h => hkept.trans (hinv.txKept h), fun _ => hmemory.symm, fun h => ?_,
      fun h => ?_⟩
    · dsimp only
      rw [hdev]
      exact hinv.txAlive h
    · dsimp only
      rw [devId_of_openInb (hopen.mp h)]
      exact hcore.2
  · nomatch h

/-- A device may go away exactly if no open ring names it. -/
theorem unregister_iff (hinv : OneOwner s) {dev : ℕ}
    (h : mboxStep s (.unregister dev) = some s') :
    OneOwner s' ↔ MboxGuard s (.unregister dev) := by
  obtain rfl := Option.some.inj h
  constructor
  · intro h'
    constructor
    · rintro ⟨hopen, rfl⟩
      have hmem := List.mem_filter.mp (h'.txAlive hopen)
      exact absurd hmem.2 (by simp)
    · rintro ⟨hopen, rfl⟩
      have hmem := List.mem_filter.mp (h'.rxAlive hopen)
      exact absurd hmem.2 (by simp)
  · rintro ⟨htx, hrx⟩
    refine ⟨hinv.opened, hinv.txKept, hinv.rxKept, fun hopen => ?_, fun hopen => ?_⟩
    · exact List.mem_filter.mpr ⟨hinv.txAlive hopen, by simpa using fun hdev => htx ⟨hopen, hdev⟩⟩
    · exact List.mem_filter.mpr ⟨hinv.rxAlive hopen, by simpa using fun hdev => hrx ⟨hopen, hdev⟩⟩

/-- A send that comes to its open must find a closed ring, and leave it closed: otherwise its
    local is the device of an open ring when it returns. -/
theorem sendMsg_iff (hinv : OneOwner s) {env : SendEnv} {args : SendArgs}
    {buffer : ℕ → BitVec 8} (h : mboxStep s (.sendMsg env args buffer) = some s') :
    OneOwner s' ↔ MboxGuard s (.sendMsg env args buffer) := by
  rw [mboxStep] at h
  split at h
  · nomatch h
  · rename_i hlocal
    obtain rfl := Option.some.inj h
    have hdev := outBoundSendMsg_devId env args buffer s.unit.tx
    have hmemory := outBoundSendMsg_memory env args buffer s.unit.tx
    rw [MboxGuard, MboxState.sendMsg]
    by_cases hopens : env.Opens args s.unit.tx
    · rw [if_pos hopens] at hdev ⊢
      obtain ⟨hopenDev, hrc⟩ := fslOpenOutbMbox_fixed env.openEnv env.uiOpenId s.unit.tx
      rw [hopenDev] at hdev
      constructor
      · intro h' _
        have hclosed := txClosed_of_noteOutb
          (fslOpenOutbMbox env.openEnv env.uiOpenId 1024 s.unit.tx) h'.opened
        refine ⟨hclosed, ?_⟩
        -- a ring left open names the local, which is gone
        by_contra hsuccess
        have hopen := (hinv.noteOutb hclosed _).2.1.mpr (hrc.mpr hsuccess)
        have hmem := h'.txAlive hopen
        exact hlocal (hdev ▸ hmem)
      · intro hguard
        obtain ⟨hclosed, hfails⟩ := hguard hopens
        obtain ⟨hopened, hopen, -⟩ := hinv.noteOutb hclosed
          (fslOpenOutbMbox env.openEnv env.uiOpenId 1024 s.unit.tx)
        -- the ring stays closed
        have hstays (h : (s.noteOutb (fslOpenOutbMbox env.openEnv env.uiOpenId 1024
            s.unit.tx)).txOpen = true) : False := absurd hfails (hrc.mp (hopen.mp h))
        exact ⟨hopened, fun h => (hstays h).elim, hinv.rxKept, fun h => (hstays h).elim,
          hinv.rxAlive⟩
    · -- without an open the ring keeps its device and its memory
      rw [if_neg hopens] at hdev hmemory ⊢
      refine iff_of_true ⟨hinv.opened, fun hopen => hmemory.trans (hinv.txKept hopen), hinv.rxKept,
        fun hopen => ?_, hinv.rxAlive⟩ (fun hopens' => absurd hopens' hopens)
      have hmem := hinv.txAlive hopen
      rw [← hdev] at hmem
      exact hmem

/-- A receive must find a closed ring and leave it closed: it opens the ring on every call. -/
theorem getMsg_iff (hinv : OneOwner s) {env : GetEnv}
    (h : mboxStep s (.getMsg env) = some s') : OneOwner s' ↔ MboxGuard s (.getMsg env) := by
  rw [mboxStep] at h
  split at h
  · nomatch h
  · rename_i hlocal
    obtain ⟨rc, unit', hrun, ⟨htx, htxMemory⟩, hdev, hrxMemory⟩ :=
      inBoundGetMsg_returns env s.unit
    rw [MboxState.getMsg, hrun, Option.map_some] at h
    obtain rfl := Option.some.inj h
    rw [MboxGuard]
    by_cases hflag : s.unit.rx.uiOpenFlag = false
    · rw [if_pos hflag] at hdev ⊢
      obtain ⟨-, hrc, -⟩ := fslOpenInbMbox_fixed env.openEnv env.uiOpenId s.unit
      constructor
      · intro h' _
        have hclosed : s.rxOpen = false := by
          have hopened := h'.opened
          dsimp only at hopened
          split at hopened <;>
            exact rxClosed_of_noteInb
              (fslOpenInbMbox env.openEnv env.uiOpenId 8 s.unit) hopened
        refine ⟨hclosed, ?_⟩
        -- a ring left open names the local, which is gone
        by_contra hstays
        obtain ⟨hsuccess, hmemory⟩ := not_or.mp hstays
        have hmem := h'.rxAlive (by
          dsimp only
          rw [if_neg hmemory]
          exact (hinv.noteInb hclosed _).2.1.mpr (hrc.mpr hsuccess))
        dsimp only at hmem
        rw [hdev, if_neg hmemory] at hmem
        exact hlocal hmem
      · intro hguard
        obtain ⟨hclosed, hends⟩ := hguard hflag
        obtain ⟨hopened, hopen, -⟩ := hinv.noteInb hclosed
          (fslOpenInbMbox env.openEnv env.uiOpenId 8 s.unit)
        have hkept : s.txOpen = true → unit'.tx.memory = s.txMemory :=
          fun h => htxMemory.trans (hinv.txKept h)
        have halive : s.txOpen = true → unit'.tx.msgTxRing.devId ∈ s.alive :=
          fun h => htx ▸ hinv.txAlive h
        by_cases hmemory : env.kmalloc = none
        · -- closed again for want of memory
          rw [if_pos hmemory]
          exact ⟨hopened, hkept, fun h => absurd h Bool.false_ne_true, halive,
            fun h => absurd h Bool.false_ne_true⟩
        · have hfails := hends.resolve_right hmemory
          have hstays (h : (s.noteInb (fslOpenInbMbox env.openEnv env.uiOpenId 8
              s.unit)).rxOpen = true) : False := absurd hfails (hrc.mp (hopen.mp h))
          rw [if_neg hmemory]
          exact ⟨hopened, hkept, fun h => (hstays h).elim, halive, fun h => (hstays h).elim⟩
    · rw [if_neg hflag] at hdev ⊢
      refine iff_of_true ⟨hinv.opened, fun hopen => htxMemory.trans (hinv.txKept hopen),
        fun hopen => (hrxMemory hflag).trans (hinv.rxKept hopen), fun hopen => ?_,
        fun hopen => ?_⟩ (fun hflag' => absurd hflag' hflag)
      · exact htx ▸ hinv.txAlive hopen
      · exact hdev ▸ hinv.rxAlive hopen

/-- **One step.**  From a state with one owner, a step leads to such a state exactly if it is
    guarded. -/
theorem mboxStep_iff (hinv : OneOwner s) {e : MboxEvent} (h : mboxStep s e = some s') :
    OneOwner s' ↔ MboxGuard s e := by
  cases e with
  | register dev =>
    rw [mboxStep] at h
    split at h
    · nomatch h
    · obtain rfl := Option.some.inj h
      refine iff_of_true ⟨hinv.opened, hinv.txKept, hinv.rxKept, fun hopen => ?_,
        fun hopen => ?_⟩ trivial
      · exact List.mem_cons_of_mem dev (hinv.txAlive hopen)
      · exact List.mem_cons_of_mem dev (hinv.rxAlive hopen)
  | unregister dev => exact unregister_iff hinv h
  | openOutb env dev entries => exact openOutb_iff hinv h
  | closeOutb =>
    rw [mboxStep] at h
    split at h
    · obtain rfl := Option.some.inj h
      exact iff_of_true ⟨hinv.opened, fun hopen => absurd hopen Bool.false_ne_true, hinv.rxKept,
        fun hopen => absurd hopen Bool.false_ne_true, hinv.rxAlive⟩ trivial
    · nomatch h
  | openInb env dev entries => exact openInb_iff hinv h
  | closeInb =>
    rw [mboxStep] at h
    split at h
    · obtain rfl := Option.some.inj h
      exact iff_of_true ⟨hinv.opened, hinv.txKept, fun hopen => absurd hopen Bool.false_ne_true,
        hinv.txAlive, fun hopen => absurd hopen Bool.false_ne_true⟩ trivial
    · nomatch h
  | sendMsg env args buffer => exact sendMsg_iff hinv h
  | getMsg env => exact getMsg_iff hinv h

/-! ### Runs -/

/-- Closed rings have no owner. -/
theorem oneOwner_init (tx : Rmu) (rx : RxMbox) : OneOwner (mboxInit tx rx) where
  opened := rfl
  txKept hopen := absurd hopen Bool.false_ne_true
  rxKept hopen := absurd hopen Bool.false_ne_true
  txAlive hopen := absurd hopen Bool.false_ne_true
  rxAlive hopen := absurd hopen Bool.false_ne_true

/-- **One owner.**  A mailbox has one owner in every state of a run exactly when every step of
    the run is guarded. -/
theorem oneOwner_iff (tx : Rmu) (rx : RxMbox) (run : List MboxEvent) {t : MboxState}
    (hrun : exec mboxStep (mboxInit tx rx) run = some t) :
    Always mboxStep OneOwner (mboxInit tx rx) run
      ↔ Guarded mboxStep MboxGuard (mboxInit tx rx) run := by
  refine always_iff_guarded (fun _ hinv => hinv) ?_ ?_ (oneOwner_init tx rx) hrun
  · exact fun s e s' hinv hguard h => (mboxStep_iff hinv h).mpr hguard
  · exact fun s e s' hinv h hinv' => (mboxStep_iff hinv h).mp hinv'

/-- A ring that has never been open. -/
def closedRx : RxMbox where
  virtPtr := .null
  phys := 0
  virtBuffer := fun _ => none
  rxSlot := 0
  size := 0
  devId := 0
  ifqdpar := 0
  ifqepar := 0
  imr := 0
  uiOpenFlag := false

/-- The driver opens both mailboxes, closes them and goes away. -/
def driverRun : List MboxEvent :=
  [.register 1, .openOutb goodOpen 1 4, .openInb ⟨some 0x10000, 0⟩ 1 4, .closeInb, .closeOutb,
    .unregister 1]

/-- The driver alone is the owner of what it opens. -/
theorem oneOwner_driver : Always mboxStep OneOwner (mboxInit (smallRing 0) closedRx) driverRun :=
  (oneOwner_iff (smallRing 0) closedRx driverRun rfl).mpr (by decide +kernel)

/-- A receive into memory for eight buffers, with the ring at `phys`. -/
def goodGet (phys : BitVec 32) : GetEnv := ⟨9, ⟨some phys, 0⟩, some 0x20000⟩

/-- A receive leaves its local as the device of the open ring, a second one opens that ring
    again and replaces its memory, and a send opens the ring the driver has open. -/
theorem not_oneOwner :
    ¬Always mboxStep OneOwner (mboxInit (smallRing 0) closedRx) [.getMsg (goodGet 0x10000)]
      ∧ (exec mboxStep (mboxInit (smallRing 0) closedRx)
          [.getMsg (goodGet 0x10000), .getMsg (goodGet 0x40000)]).map
          (fun s => (s.rxOpen, s.reopened, s.rxMemory.phys, s.unit.rx.memory.phys))
        = some (true, true, 0x10000, 0x40000)
      ∧ ¬Always mboxStep OneOwner (mboxInit (smallRing 0) closedRx)
        [.register 1, .openOutb goodOpen 1 4,
          .sendMsg ⟨true, 9, goodOpen⟩ ⟨0, 1, 0, 8⟩ fun _ => 0] := by
  refine ⟨fun h => ?_, by decide +kernel, fun h => ?_⟩
  · have hmem := (h [.getMsg (goodGet 0x10000)] [] _ rfl rfl).rxAlive rfl
    exact absurd hmem List.not_mem_nil
  · have hopened := (h _ [] _ (List.append_nil _).symm rfl).opened
    exact absurd hopened (by decide +kernel)

end Vpx3.Rio
