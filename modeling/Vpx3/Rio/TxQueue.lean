import Vpx3.Rio.MsgTx
import Vpx3.Lib.Exec
import Vpx3.Lib.Slots

namespace Vpx3.Rio

open Exec Slots

/-!
# Outbound queue — sends against the message unit's dequeues

The message unit consumes descriptors in order and advances its dequeue pointer on its own;
`OutBoundSendMsg` never looks at that pointer.  The model runs the send as the four moves it
consists of, one step each, so that a dequeue may fall between any two of them.

* `txStep` — the machine; `queued` are the messages the accepted sends stored, `found` what
  the unit finds at its dequeue position each time;
* `QueueSafe` — what was found is what was queued, in order; no message still queued is
  overwritten; no send was accepted without a free slot;
* `queueSafe_of_guarded` — that holds in every state of a run whose accepted sends start with
  a free slot;
* `overflow_unsafe` — one send more than the ring has slots, without a dequeue, breaks it.
-/

/-- A descriptor and the content of its slot's buffer. -/
abbrev TxMsg := TxDesc × (ℕ → BitVec 8)

/-- What stands in a slot. -/
def Rmu.slotMsg (s : Rmu) (slot : ℕ) : TxMsg := (s.msgTxRing.virt slot, s.msgTxRing.virtBuffer slot)

/-- The arguments of a send; the port's number is one of them. -/
structure SendArgs where
  index : BitVec 8
  destid : BitVec 16
  mbox : BitVec 32
  size : ℕ

/-- What a send makes of the descriptor of its slot. -/
def SendArgs.fill (a : SendArgs) : TxDesc → TxDesc := fillDesc a.index a.destid a.mbox a.size

/-- The size check of `OutBoundSendMsg`. -/
def SendArgs.Sized (a : SendArgs) : Prop := ¬(a.size < 8 ∨ a.size > rioMaxMsgSize)

instance (a : SendArgs) : Decidable a.Sized := inferInstanceAs (Decidable (¬_))

/-- Where a running send is: before the store of the buffer, of the descriptor, of `OMR[MUI]`
    and of `tx_slot`.  The points carry what the send has stored so far. -/
inductive TxPc where
  | idle
  | store (args : SendArgs)
  | desc (args : SendArgs) (content : ℕ → BitVec 8)
  | mui (msg : TxMsg)
  | next

/-- The message unit with a possibly running send. -/
structure TxState where
  rmu : Rmu
  queued : List TxMsg
  deq : ℕ
  found : List TxMsg
  /-- how many messages were outstanding when each accepted send started -/
  outstanding : List ℕ
  /-- the values the finished calls returned -/
  returned : List Int
  pc : TxPc

/-- A call of `OutBoundSendMsg`, one of its moves, a dequeue by the unit. -/
inductive TxAct where
  | call (env : SendEnv) (args : SendArgs)
  | step
  | dequeue

/-- One move of the running send. -/
def sendMove (s : TxState) : Option TxState :=
  match s.pc with
  | .idle => none
  | .store args =>
    let rmu := storeBuffer (fun _ => 0x1) args.size s.rmu
    some { s with
      rmu := rmu, pc := .desc args (rmu.msgTxRing.virtBuffer rmu.msgTxRing.txSlot) }
  | .desc args content =>
    let rmu := storeDesc args.fill s.rmu
    some { s with rmu := rmu, pc := .mui (rmu.msgTxRing.virt rmu.msgTxRing.txSlot, content) }
  | .mui msg => some { s with rmu := writeMui s.rmu, queued := s.queued ++ [msg], pc := .next }
  | .next => some { s with rmu := nextSlot s.rmu, returned := s.returned ++ [0], pc := .idle }

/-- The machine. -/
def txStep (s : TxState) : TxAct → Option TxState
  | .call env args =>
    match s.pc with
    | .idle =>
      if env.kmalloc = false then some { s with returned := s.returned ++ [-1] }
      else if ¬args.Sized then some { s with returned := s.returned ++ [-einval] }
      else some { s with
        rmu := openOnce env s.rmu
        outstanding := s.outstanding ++ [s.queued.length - s.deq]
        pc := .store args }
    | _ => none
  | .step => sendMove s
  | .dequeue =>
    if s.deq < s.queued.length then
      some { s with
        found := s.found ++ [s.rmu.slotMsg (s.deq % s.rmu.msgTxRing.size)]
        deq := s.deq + 1 }
    else none

/-- An open ring with nothing queued yet. -/
def txInit (rmu : Rmu) : TxState where
  rmu := rmu
  queued := []
  deq := 0
  found := []
  outstanding := []
  returned := []
  pc := .idle

/-! ### The moves are the function -/

/-- The actions of one undisturbed accepted send. -/
def sendActs (env : SendEnv) (args : SendArgs) : List TxAct :=
  [.call env args, .step, .step, .step, .step]

/-- The state after one undisturbed accepted send. -/
def TxState.send (s : TxState) (env : SendEnv) (args : SendArgs) : TxState :=
  let stored := storeDesc args.fill (storeBuffer (fun _ => 0x1) args.size (openOnce env s.rmu))
  { s with
    rmu := nextSlot (writeMui stored)
    queued := s.queued ++ [stored.slotMsg stored.msgTxRing.txSlot]
    outstanding := s.outstanding ++ [s.queued.length - s.deq]
    returned := s.returned ++ [0] }

/-- Undisturbed, the moves of a send end where `OutBoundSendMsg` does. -/
theorem exec_sendActs (s : TxState) (hidle : s.pc = .idle) (env : SendEnv)
    (hk : env.kmalloc = true) (args : SendArgs) (hsize : args.Sized) :
    exec txStep s (sendActs env args) = some (s.send env args) ∧
    outBoundSendMsg env args.index args.destid args.mbox (fun _ => 0) args.size s.rmu
      = (0, (s.send env args).rmu) := by
  obtain ⟨rmu, queued, deq, found, outstanding, returned, pc⟩ := s
  obtain rfl : pc = .idle := hidle
  constructor
  · rw [sendActs, exec_cons]
    simp only [txStep, hk, hsize, not_true, if_false, Bool.true_eq_false, Option.bind_some]
    rfl
  · rw [outBoundSendMsg, if_neg (by simp [hk]), if_neg hsize]
    rfl

/-! ### The queue is safe -/

/-- What the unit found at its dequeues are the first queued messages, in order; the messages
    not yet dequeued stand in their slots; every accepted send started with a free slot. -/
def QueueSafe (s : TxState) : Prop :=
  s.found = s.queued.take s.deq ∧
  Holds s.rmu.msgTxRing.size s.rmu.slotMsg s.queued s.deq ∧
  ∀ n ∈ s.outstanding, n < s.rmu.msgTxRing.size

/-- A send that will be accepted starts with a free slot. -/
def TxGuard (s : TxState) : TxAct → Prop
  | .call env args =>
    env.kmalloc = true → args.Sized → s.queued.length < s.deq + s.rmu.msgTxRing.size
  | _ => True

instance (s : TxState) : ∀ a, Decidable (TxGuard s a)
  | .call env args => inferInstanceAs (Decidable
      (env.kmalloc = true → args.Sized → s.queued.length < s.deq + s.rmu.msgTxRing.size))
  | .step | .dequeue => isTrue trivial

/-- What holds at the points of a send when `enq` messages are queued and `deq` dequeued: up to
    `OMR[MUI]` the slot in use is the free slot of the next message and holds what the send has
    stored, after it `tx_slot` still stands at the message just queued. -/
def TxPoint (rmu : Rmu) (enq deq : ℕ) : TxPc → Prop
  | .idle => rmu.msgTxRing.txSlot = enq % rmu.msgTxRing.size
  | .store _ => rmu.msgTxRing.txSlot = enq % rmu.msgTxRing.size ∧ enq < deq + rmu.msgTxRing.size
  | .desc _ content =>
    rmu.msgTxRing.txSlot = enq % rmu.msgTxRing.size ∧ enq < deq + rmu.msgTxRing.size ∧
    rmu.msgTxRing.virtBuffer rmu.msgTxRing.txSlot = content
  | .mui msg =>
    rmu.msgTxRing.txSlot = enq % rmu.msgTxRing.size ∧ enq < deq + rmu.msgTxRing.size ∧
    rmu.slotMsg rmu.msgTxRing.txSlot = msg
  | .next => ∃ k, enq = k + 1 ∧ rmu.msgTxRing.txSlot = k % rmu.msgTxRing.size

/-- A dequeue only makes room. -/
theorem TxPoint.mono {rmu : Rmu} {enq deq deq' : ℕ} {pc : TxPc} (hle : deq ≤ deq')
    (h : TxPoint rmu enq deq pc) : TxPoint rmu enq deq' pc := by
  cases pc with
  | idle | next => exact h
  | store =>
    obtain ⟨hslot, hroom⟩ := h
    exact ⟨hslot, by omega⟩
  | desc | mui =>
    obtain ⟨hslot, hroom, hstored⟩ := h
    exact ⟨hslot, by omega, hstored⟩

/-- The invariant of guarded runs. -/
structure TxInv (s : TxState) : Prop where
  size_pos : 0 < s.rmu.msgTxRing.size
  flag : s.rmu.uiOpenFlag = true
  found : s.found = s.queued.take s.deq
  deq_le : s.deq ≤ s.queued.length
  window : Holds s.rmu.msgTxRing.size s.rmu.slotMsg s.queued s.deq
  room : s.queued.length ≤ s.deq + s.rmu.msgTxRing.size
  accepted : ∀ n ∈ s.outstanding, n < s.rmu.msgTxRing.size
  point : TxPoint s.rmu s.queued.length s.deq s.pc

/-- The invariant gives a safe queue. -/
theorem TxInv.queueSafe {s : TxState} (h : TxInv s) : QueueSafe s :=
  ⟨h.found, h.window, h.accepted⟩

/-- Filling a buffer changes one slot. -/
theorem slotMsg_storeBuffer (src : ℕ → BitVec 8) (size : ℕ) (s : Rmu) :
    (storeBuffer src size s).slotMsg = Function.update s.slotMsg s.msgTxRing.txSlot
      (s.msgTxRing.virt s.msgTxRing.txSlot,
        copyAndClear src size (s.msgTxRing.virtBuffer s.msgTxRing.txSlot)) := by
  funext slot
  simp only [storeBuffer, Rmu.slotMsg]
  by_cases hslot : slot = s.msgTxRing.txSlot
  · subst hslot
    simp
  · rw [Function.update_of_ne hslot, Function.update_of_ne hslot]
    rfl

/-- Filling a descriptor changes one slot. -/
theorem slotMsg_storeDesc (fill : TxDesc → TxDesc) (s : Rmu) :
    (storeDesc fill s).slotMsg = Function.update s.slotMsg s.msgTxRing.txSlot
      (fill (s.msgTxRing.virt s.msgTxRing.txSlot),
        s.msgTxRing.virtBuffer s.msgTxRing.txSlot) := by
  funext slot
  simp only [storeDesc, Rmu.slotMsg]
  by_cases hslot : slot = s.msgTxRing.txSlot
  · subst hslot
    simp
  · rw [Function.update_of_ne hslot, Function.update_of_ne hslot]
    rfl

/-- A store into the free slot of the next message keeps the invariant, whatever point it leads
    to, when that point's part of it holds. -/
theorem TxInv.scratch {s : TxState} (h : TxInv s) {rmu : Rmu} {pc : TxPc} (msg : TxMsg)
    (hsize : rmu.msgTxRing.size = s.rmu.msgTxRing.size) (hflag : rmu.uiOpenFlag = s.rmu.uiOpenFlag)
    (hslot : s.rmu.msgTxRing.txSlot = s.queued.length % s.rmu.msgTxRing.size)
    (hroom : s.queued.length < s.deq + s.rmu.msgTxRing.size)
    (hmem : rmu.slotMsg = Function.update s.rmu.slotMsg s.rmu.msgTxRing.txSlot msg)
    (hpoint : TxPoint rmu s.queued.length s.deq pc) :
    TxInv { s with rmu := rmu, pc := pc } := by
  refine ⟨?_, ?_, h.found, h.deq_le, ?_, ?_, ?_, hpoint⟩
  · exact hsize ▸ h.size_pos
  · exact hflag.trans h.flag
  · show Holds rmu.msgTxRing.size rmu.slotMsg s.queued s.deq
    rw [hmem, hsize, hslot]
    exact h.window.scratch hroom msg
  · exact hsize ▸ h.room
  · exact hsize ▸ h.accepted

/-- A move of a running send keeps the invariant. -/
theorem TxInv.sendMove {s t : TxState} (h : TxInv s) (ht : sendMove s = some t) : TxInv t := by
  have hpoint := h.point
  unfold Rio.sendMove at ht
  cases hpc : s.pc with
  | idle => simp [hpc] at ht
  | store args =>
    simp only [hpc, Option.some.injEq] at ht hpoint
    obtain ⟨hslot, hroom⟩ := hpoint
    subst ht
    exact h.scratch _ rfl rfl hslot hroom (slotMsg_storeBuffer _ _ _) ⟨hslot, hroom, rfl⟩
  | desc args content =>
    simp only [hpc, Option.some.injEq] at ht hpoint
    obtain ⟨hslot, hroom, hcontent⟩ := hpoint
    subst ht
    refine h.scratch _ rfl rfl hslot hroom (slotMsg_storeDesc _ _) ⟨hslot, hroom, ?_⟩
    exact Prod.ext rfl hcontent
  | mui msg =>
    -- the message is queued as it stands in its slot
    simp only [hpc, Option.some.injEq] at ht hpoint
    obtain ⟨hslot, hroom, hmsg⟩ := hpoint
    subst ht
    have hlen : (s.queued ++ [msg]).length = s.queued.length + 1 := by simp
    refine ⟨h.size_pos, h.flag, ?_, ?_, ?_, ?_, h.accepted, ⟨s.queued.length, hlen, hslot⟩⟩
    · show s.found = (s.queued ++ [msg]).take s.deq
      rw [List.take_append_of_le_length h.deq_le]
      exact h.found
    · show s.deq ≤ (s.queued ++ [msg]).length
      have := h.deq_le
      omega
    · rw [hslot] at hmsg
      exact h.window.publish hmsg
    · show (s.queued ++ [msg]).length ≤ s.deq + s.rmu.msgTxRing.size
      omega
  | next =>
    -- `tx_slot` follows to the slot of the next message
    simp only [hpc, Option.some.injEq] at ht hpoint
    obtain ⟨k, hlen, hslot⟩ := hpoint
    subst ht
    refine ⟨h.size_pos, h.flag, h.found, h.deq_le, h.window, h.room, h.accepted, ?_⟩
    show (if s.rmu.msgTxRing.txSlot + 1 = s.rmu.msgTxRing.size then 0
      else s.rmu.msgTxRing.txSlot + 1) = s.queued.length % s.rmu.msgTxRing.size
    rw [hslot, hlen]
    exact next_mod k h.size_pos

/-- A dequeue keeps the invariant and finds the next queued message. -/
theorem TxInv.dequeue {s : TxState} (h : TxInv s) (hlt : s.deq < s.queued.length) :
    TxInv { s with
      found := s.found ++ [s.rmu.slotMsg (s.deq % s.rmu.msgTxRing.size)]
      deq := s.deq + 1 } := by
  have hroom := h.room
  have hpoint := h.point
  refine ⟨h.size_pos, h.flag, ?_, hlt, h.window.advance (Nat.le_succ _), ?_, h.accepted, ?_⟩
  · show s.found ++ [s.rmu.slotMsg (s.deq % s.rmu.msgTxRing.size)] = s.queued.take (s.deq + 1)
    rw [h.found, h.window.front hlt, List.take_succ_eq_append_getElem hlt]
  · show s.queued.length ≤ s.deq + 1 + s.rmu.msgTxRing.size
    omega
  · exact hpoint.mono (Nat.le_succ _)

/-- A step of the machine whose send, if it is accepted, starts with a free slot keeps the
    invariant. -/
theorem txStep_inv (s : TxState) (a : TxAct) (t : TxState) (h : TxInv s) (hg : TxGuard s a)
    (ht : txStep s a = some t) : TxInv t := by
  cases a with
  | call env args =>
    simp only [txStep] at ht
    cases hpc : s.pc with
    | store | desc | mui | next => simp [hpc] at ht
    | idle =>
      simp only [hpc] at ht
      have hslot := h.point
      rw [hpc] at hslot
      split at ht
      · obtain rfl := Option.some.inj ht
        exact ⟨h.size_pos, h.flag, h.found, h.deq_le, h.window, h.room, h.accepted, hslot⟩
      split at ht
      · obtain rfl := Option.some.inj ht
        exact ⟨h.size_pos, h.flag, h.found, h.deq_le, h.window, h.room, h.accepted, hslot⟩
      · -- accepted: the guard provides the free slot
        rename_i hk hsized
        have hfree := hg (Bool.eq_true_of_not_eq_false hk) (not_not.mp hsized)
        have honce : openOnce env s.rmu = s.rmu := by rw [openOnce, if_pos h.flag]
        rw [honce] at ht
        obtain rfl := Option.some.inj ht
        refine ⟨h.size_pos, h.flag, h.found, h.deq_le, h.window, h.room, ?_, ⟨hslot, hfree⟩⟩
        intro n hn
        rcases List.mem_append.mp hn with hold | hnew
        · exact h.accepted n hold
        · rw [List.mem_singleton.mp hnew]
          have hsize := h.size_pos
          show s.queued.length - s.deq < s.rmu.msgTxRing.size
          omega
  | step => exact h.sendMove ht
  | dequeue =>
    simp only [txStep, Option.ite_none_right_eq_some, Option.some.injEq] at ht
    obtain ⟨hlt, rfl⟩ := ht
    exact h.dequeue hlt

/-- A successful open leaves an empty ring of the requested size at slot 0. -/
theorem fslOpenOutbMbox_ok {env : OpenEnv} {devId entries : ℕ} {s t : Rmu} {rc : Int}
    (h : fslOpenOutbMbox env devId entries s = (rc, t)) (hrc : 0 ≤ rc) :
    t.msgTxRing.txSlot = 0 ∧ t.msgTxRing.size = entries ∧ 2 ≤ entries := by
  unfold fslOpenOutbMbox at h
  split at h
  · obtain ⟨rfl, -⟩ := Prod.mk.inj h
    exact absurd hrc (by decide)
  rename_i hentries
  dsimp only at h
  -- no buffer, no descriptor ring, no interrupt
  split at h
  · obtain ⟨rfl, -⟩ := Prod.mk.inj h
    exact absurd hrc (by decide)
  split at h
  · obtain ⟨rfl, -⟩ := Prod.mk.inj h
    exact absurd hrc (by decide)
  split at h
  · rename_i hirq
    obtain ⟨rfl, -⟩ := Prod.mk.inj h
    exact absurd hrc (not_le.mpr hirq)
  · obtain ⟨-, rfl⟩ := Prod.mk.inj h
    refine ⟨rfl, rfl, ?_⟩
    have := (not_or.mp hentries).1
    unfold rioMinTxRingSize at this
    omega

/-- An open ring satisfies the invariant. -/
theorem txInv_init {env : OpenEnv} {devId entries : ℕ} {s t : Rmu} {rc : Int}
    (h : fslOpenOutbMbox env devId entries s = (rc, t)) (hrc : 0 ≤ rc) :
    TxInv (txInit { t with uiOpenFlag := true }) := by
  obtain ⟨hslot, hsize, h2⟩ := fslOpenOutbMbox_ok h hrc
  refine ⟨?_, rfl, rfl, le_rfl, Holds.empty le_rfl, Nat.zero_le _, by simp [txInit], ?_⟩
  · show 0 < t.msgTxRing.size
    omega
  · show t.msgTxRing.txSlot = 0 % t.msgTxRing.size
    rw [hslot, Nat.zero_mod]

/-- **Nothing is lost.**  Once the ring is open, in every run of sends and dequeues whose
    accepted sends start with a free slot, the queue is safe in every state reached. -/
theorem queueSafe_of_guarded (env : OpenEnv) (devId entries : ℕ) (s t : Rmu) (rc : Int)
    (hopen : fslOpenOutbMbox env devId entries s = (rc, t)) (hrc : 0 ≤ rc) (run : List TxAct)
    (u : TxState) (hg : Guarded txStep TxGuard (txInit { t with uiOpenFlag := true }) run)
    (hu : exec txStep (txInit { t with uiOpenFlag := true }) run = some u) : QueueSafe u :=
  (exec_invariant txStep_inv run _ u (txInv_init hopen hrc) hg hu).queueSafe

/-- Memory for a ring and a free interrupt line. -/
def goodOpen : OpenEnv where
  buffer := fun i => some (BitVec.ofNat 32 (0x100000 + i * 0x1000), fun _ => 0)
  desc := some 0x80000
  requestIrq := 0

/-- A send and its dequeue on a ring of two slots. -/
theorem queueSafe_one_send :
    ∃ u, exec txStep (txInit { (fslOpenOutbMbox goodOpen 0 2 (smallRing 0)).2 with
        uiOpenFlag := true }) (sendActs ⟨true, 0, goodOpen⟩ ⟨0, 1, 0, 8⟩ ++ [.dequeue]) = some u ∧
      u.deq = 1 ∧ QueueSafe u := by
  have hrun : (exec txStep (txInit { (fslOpenOutbMbox goodOpen 0 2 (smallRing 0)).2 with
      uiOpenFlag := true }) (sendActs ⟨true, 0, goodOpen⟩ ⟨0, 1, 0, 8⟩ ++ [.dequeue])).map
      (fun u => u.deq) = some 1 := by decide +kernel
  obtain ⟨u, hu, hdeq⟩ := Option.map_eq_some_iff.mp hrun
  refine ⟨u, hu, hdeq, ?_⟩
  exact queueSafe_of_guarded goodOpen 0 2 (smallRing 0) _ 0 rfl le_rfl _ u (by decide +kernel) hu

/-! ### A full ring -/

/-- Between sends, with `m` messages queued and none dequeued. -/
structure Filled (m : ℕ) (s : TxState) : Prop where
  idle : s.pc = .idle
  flag : s.rmu.uiOpenFlag = true
  deq : s.deq = 0
  length : s.queued.length = m
  slot : s.rmu.msgTxRing.txSlot = m % s.rmu.msgTxRing.size

section Overflow
variable {env : SendEnv} {args : SendArgs} {m : ℕ} {s : TxState}

/-- On an open ring a send is its four moves. -/
theorem Filled.send_rmu (h : Filled m s) (env : SendEnv) (args : SendArgs) :
    (s.send env args).rmu = nextSlot (writeMui
      (storeDesc args.fill (storeBuffer (fun _ => 0x1) args.size s.rmu))) := by
  have honce : openOnce env s.rmu = s.rmu := by rw [openOnce, if_pos h.flag]
  unfold TxState.send
  rw [honce]

/-- What a send queues is what stands in the slot it used. -/
theorem Filled.send_queued (h : Filled m s) (env : SendEnv) (args : SendArgs) :
    (s.send env args).queued
      = s.queued ++ [(s.send env args).rmu.slotMsg s.rmu.msgTxRing.txSlot] := by
  have honce : openOnce env s.rmu = s.rmu := by rw [openOnce, if_pos h.flag]
  unfold TxState.send
  rw [honce]
  rfl

/-- The descriptor of the slot a send used is its own. -/
theorem Filled.send_dport (h : Filled m s) (env : SendEnv) (args : SendArgs) :
    ((s.send env args).rmu.slotMsg s.rmu.msgTxRing.txSlot).1.dport
      = (args.destid.setWidth 32 <<< 16) ||| (args.mbox &&& 0x3) := by
  rw [h.send_rmu]
  have hslot := congrFun
    (slotMsg_storeDesc args.fill (storeBuffer (fun _ => 0x1) args.size s.rmu))
    s.rmu.msgTxRing.txSlot
  rw [show s.rmu.msgTxRing.txSlot
    = (storeBuffer (fun _ => 0x1) args.size s.rmu).msgTxRing.txSlot from rfl,
    Function.update_self] at hslot
  exact congrArg (fun msg : TxMsg => msg.1.dport) hslot

/-- One send more. -/
theorem Filled.send (h : Filled m s) (hsize : 0 < s.rmu.msgTxRing.size) (env : SendEnv)
    (args : SendArgs) : Filled (m + 1) (s.send env args) := by
  have hrmu := h.send_rmu env args
  refine ⟨h.idle, ?_, h.deq, ?_, ?_⟩
  · rw [hrmu]
    exact h.flag
  · rw [h.send_queued, List.length_append, h.length, List.length_singleton]
  · rw [hrmu]
    show (if s.rmu.msgTxRing.txSlot + 1 = s.rmu.msgTxRing.size then 0
      else s.rmu.msgTxRing.txSlot + 1) = (m + 1) % s.rmu.msgTxRing.size
    rw [h.slot]
    exact next_mod m hsize

/-- A run of sends, all alike and none of them dequeued. -/
theorem Filled.exec_sends (env : SendEnv) (args : SendArgs) (h : Filled m s)
    (hsize : 0 < s.rmu.msgTxRing.size)
    (hk : env.kmalloc = true) (hsized : args.Sized) (n : ℕ) :
    ∃ t, exec txStep s (List.replicate n (sendActs env args)).flatten = some t ∧
      Filled (m + n) t ∧ t.rmu.msgTxRing.size = s.rmu.msgTxRing.size ∧ s.queued <+: t.queued := by
  induction n generalizing m s with
  | zero => exact ⟨s, rfl, h, rfl, List.prefix_rfl⟩
  | succ n ih =>
    have hkeep : (s.send env args).rmu.msgTxRing.size = s.rmu.msgTxRing.size := by
      rw [h.send_rmu]
      rfl
    obtain ⟨t, ht, hfilled, hsame, hfront⟩ := ih (h.send hsize env args) (hkeep ▸ hsize)
    refine ⟨t, ?_, ?_, hsame.trans hkeep, ?_⟩
    · rw [List.replicate_succ, List.flatten_cons, exec_append,
        (exec_sendActs s h.idle env hk args hsized).1]
      exact ht
    · rwa [show m + (n + 1) = m + 1 + n by omega]
    · rw [h.send_queued] at hfront
      exact (List.prefix_append _ _).trans hfront

end Overflow

/-- On an open ring with nothing queued, one message to device 1 followed by as many messages
    to device 2 as the ring has slots overwrites the first message before it is dequeued. -/
theorem overflow_unsafe (env : SendEnv) (hk : env.kmalloc = true) (rmu : Rmu)
    (hflag : rmu.uiOpenFlag = true) (hslot : rmu.msgTxRing.txSlot = 0)
    (hsize : 0 < rmu.msgTxRing.size) :
    ∃ run u, exec txStep (txInit rmu) run = some u ∧ ¬QueueSafe u := by
  let one : SendArgs := ⟨0, 1, 0, 8⟩
  let two : SendArgs := ⟨0, 2, 0, 8⟩
  obtain ⟨k, hk1⟩ : ∃ k, rmu.msgTxRing.size = k + 1 := ⟨_, (Nat.succ_pred_eq_of_pos hsize).symm⟩
  have h0 : Filled 0 (txInit rmu) := ⟨rfl, hflag, rfl, rfl, by rw [Nat.zero_mod]; exact hslot⟩
  have h1 := h0.send hsize env one
  have hsize1 : ((txInit rmu).send env one).rmu.msgTxRing.size = k + 1 := by
    rw [h0.send_rmu, ← hk1]
    rfl
  obtain ⟨t, ht, hfilled, hsame, hfront⟩ :=
    h1.exec_sends env two (by omega) hk (by decide) k
  -- the ring is full and `tx_slot` is back at slot 0
  have hslot0 : t.rmu.msgTxRing.txSlot = 0 := by
    rw [hfilled.slot, hsame, hsize1, show 0 + 1 + k = k + 1 by omega, Nat.mod_self]
  refine ⟨sendActs env one ++ ((List.replicate k (sendActs env two)).flatten ++ sendActs env two),
    t.send env two, ?_, ?_⟩
  · rw [exec_append, (exec_sendActs _ rfl env hk one (by decide)).1, Option.bind_some, exec_append,
      ht, Option.bind_some]
    exact (exec_sendActs t hfilled.idle env hk two (by decide)).1
  · -- a safe queue would still hold the first message in slot 0
    rintro ⟨-, hwindow, -⟩
    obtain ⟨rest, hrest⟩ := hfront
    rw [h0.send_queued] at hrest
    set first := ((txInit rmu).send env one).rmu.slotMsg (txInit rmu).rmu.msgTxRing.txSlot
      with hfirst
    have hhead : (t.send env two).queued
        = first :: (rest ++ [(t.send env two).rmu.slotMsg t.rmu.msgTxRing.txSlot]) := by
      rw [hfilled.send_queued, ← hrest]
      rfl
    have hfront := hwindow 0 hfilled.deq.le (by simp [hhead])
    rw [Nat.zero_mod, List.getElem_of_eq hhead, List.getElem_cons_zero] at hfront
    -- slot 0 now has the descriptor of the last message, not of the first
    have hlast := hfilled.send_dport env two
    rw [hslot0, hfront, hfirst, h0.send_dport] at hlast
    exact absurd hlast (by decide)

/-- With enough memory the open of 1024 slots succeeds. -/
theorem fslOpenOutbMbox_goodOpen (s : Rmu) : (fslOpenOutbMbox goodOpen 0 1024 s).1 = 0 := by
  have hall : (List.range 1024).find? (fun i => (goodOpen.buffer i).isNone) = none :=
    List.find?_eq_none.mpr fun i _ => by simp [goodOpen]
  unfold fslOpenOutbMbox
  rw [if_neg (by decide +kernel), hall]
  rfl

/-- The ring `OutBoundSendMsg` opens for itself, 1024 slots, is not safe. -/
theorem not_queueSafe_1024 :
    ¬∀ (run : List TxAct) (u : TxState),
      exec txStep (txInit { (fslOpenOutbMbox goodOpen 0 1024 (smallRing 0)).2 with
        uiOpenFlag := true }) run = some u → QueueSafe u := by
  have hrc := fslOpenOutbMbox_goodOpen (smallRing 0)
  generalize hopen : fslOpenOutbMbox goodOpen 0 1024 (smallRing 0) = r at hrc ⊢
  obtain ⟨rc, t⟩ := r
  obtain ⟨hslot, hsize, -⟩ := fslOpenOutbMbox_ok hopen hrc.ge
  intro h
  obtain ⟨run, u, hu, hunsafe⟩ := overflow_unsafe ⟨true, 0, goodOpen⟩ rfl
    { t with uiOpenFlag := true } rfl hslot (by show 0 < t.msgTxRing.size; omega)
  exact hunsafe (h run u hu)

end Vpx3.Rio
