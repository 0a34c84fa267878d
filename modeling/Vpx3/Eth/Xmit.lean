import Vpx3.Eth.Node
import Vpx3.Lib.Slots

namespace Vpx3.Eth

open Exec Slots

/-!
# Ethernet over RapidIO — transmission

The driver keeps the frames it has handed to the outbound mailbox in a ring, until an interrupt
tells it up to which slot the mailbox has got.  A multicast frame is handed over once for each
active device.

* `TxDev` — the ring, the queue of the network stack, the mailbox and the references to frames;
* `rionetStartXmit`, `rionetOutbMsgEvent` — the two functions; `txStep` — the machine of them, of
  the mailbox and of its interrupt handler;
* `TxInv` — ring, order and references; `txInv_iff_guarded` — they are exact in every state of a
  run if and only if every multicast that is let in finds room for each active device;
* `rionetStartXmit_devAddr` — the address that a device takes leads to that device.

The size of the ring is a power of two, as the mailbox demands.
-/

/-! ### Addresses -/

/-- The bytes of an address. -/
abbrev Mac := ℕ → BitVec 8

/-- `is_multicast_ether_addr`. -/
def isMulticastEtherAddr (a : Mac) : Bool := a 0 &&& 0x01 != 0

/-- `RIONET_MAC_MATCH`. -/
def rionetMacMatch (a : Mac) : Bool := a 0 == 0x00 && a 1 == 0x01 && a 2 == 0x00 && a 3 == 0x01

/-- `RIONET_GET_DESTID`. -/
def rionetGetDestid (a : Mac) : ℕ := (a 4).toNat <<< 8 ||| (a 5).toNat

/-- The default address of `rionet_setup_netdev`. -/
def devAddr (deviceId : BitVec 16) : Mac := fun k =>
  match k with
  | 0 => 0x00
  | 1 => 0x01
  | 2 => 0x00
  | 3 => 0x01
  | 4 => (deviceId >>> 8).setWidth 8
  | 5 => (deviceId &&& 0xff).setWidth 8
  | _ => 0

/-! ### The functions -/

/-- The transmit side of `rionet_private`, whether the queue of the network stack is stopped, and
    the references to each frame that are the driver's.  Behind it the mailbox: every message
    handed to it, how many of them it has not sent yet, the slot it has got to, its interrupt and
    whether the handler is at work.  `freed` are the frames given back, in order, and `lost` those
    that were taken and handed to no device. -/
structure TxDev (S : Type) (n : ℕ) where
  txSkb : ℕ → Option S
  txSlot : ℕ
  txCnt : ℕ
  ackSlot : ℕ
  stopped : Bool
  users : S → ℤ
  outb : List (Fin n × S)
  todo : ℕ
  deq : ℕ
  irq : Bool
  handling : Bool
  freed : List S
  lost : List S

/-- What `rionet_start_xmit` returns. -/
inductive NetdevTx where
  | ok
  | busy
  | locked
deriving DecidableEq

variable {S : Type} [DecidableEq S] {n : ℕ}

/-- `rionet_queue_tx_msg`. -/
def rionetQueueTxMsg (size : ℕ) (skb : S) (s : TxDev S n) (rdev : Fin n) : TxDev S n :=
  { s with
    outb := s.outb ++ [(rdev, skb)]
    todo := s.todo + 1
    txSkb := Function.update s.txSkb s.txSlot (some skb)
    txCnt := s.txCnt + 1
    stopped := if s.txCnt + 1 = size then true else s.stopped
    txSlot := (s.txSlot + 1) &&& (size - 1) }

/-- `atomic_inc(&skb->users)` and its counterpart. -/
def TxDev.refer (s : TxDev S n) (skb : S) (d : ℤ) : TxDev S n :=
  { s with users := Function.update s.users skb (s.users skb + d) }

/-- One round of the loop of a multicast, with `count`. -/
def multicastRound (size : ℕ) (active : Fin n → Bool) (skb : S) (st : TxDev S n × ℕ)
    (i : Fin n) : TxDev S n × ℕ :=
  if active i then
    (if st.2 ≠ 0 then (rionetQueueTxMsg size skb st.1 i).refer skb 1
      else rionetQueueTxMsg size skb st.1 i, st.2 + 1)
  else st

/-- `rionet_start_xmit`; `none` where `rionet_active` is read behind its end. -/
def rionetStartXmit (size : ℕ) (node : Rionet n) (trylock : Bool) (skb : S) (hDest : Mac)
    (s : TxDev S n) : Option (NetdevTx × TxDev S n) :=
  if trylock = false then some (.locked, s)
  else
    let addNum : ℤ := if isMulticastEtherAddr hDest then node.nact else 1
    if s.txCnt + addNum > size then some (.busy, { s with stopped := true })
    else if isMulticastEtherAddr hDest then
      some (.ok, ((List.finRange n).foldl (multicastRound size node.active skb) (s, 0)).1)
    else if rionetMacMatch hDest then
      if h : rionetGetDestid hDest < n then
        if node.active ⟨rionetGetDestid hDest, h⟩ then
          some (.ok, rionetQueueTxMsg size skb s ⟨rionetGetDestid hDest, h⟩)
        else some (.ok, s)
      else none
    else some (.ok, s)

/-- The frame of `ack_slot` is given back. -/
def TxDev.ack (size : ℕ) (s : TxDev S n) (skb : S) : TxDev S n :=
  { s.refer skb (-1) with
    txSkb := Function.update s.txSkb s.ackSlot none
    ackSlot := (s.ackSlot + 1) &&& (size - 1)
    txCnt := s.txCnt - 1
    freed := s.freed ++ [skb] }

/-- The loop of `rionet_outb_msg_event`, of which no round is made without a frame counted; `none`
    where the slot is empty. -/
def ackWhile (size slot : ℕ) : ℕ → TxDev S n → Option (TxDev S n)
  | 0, s => some s
  | fuel + 1, s =>
    if s.txCnt ≠ 0 ∧ s.ackSlot ≠ slot then
      match s.txSkb s.ackSlot with
      | none => none
      | some skb => ackWhile size slot fuel (s.ack size skb)
    else some s

/-- `rionet_outb_msg_event`. -/
def rionetOutbMsgEvent (size slot : ℕ) (s : TxDev S n) : Option (TxDev S n) :=
  match ackWhile size slot s.txCnt s with
  | none => none
  | some s => some (if s.txCnt < size then { s with stopped := false } else s)

/-! ### The machine -/

/-- What can happen: the stack hands over a frame, the mailbox has sent a message, its handler
    calls the driver with the slot that the mailbox has got to, and acks the interrupt. -/
inductive TxEvent (S : Type) (n : ℕ) where
  | xmit (node : Rionet n) (trylock : Bool) (skb : S) (hDest : Mac)
  | sent
  | event
  | ackIrq

/-- A frame that is taken comes with a reference. -/
def TxDev.take (s : TxDev S n) (skb : S) : NetdevTx × TxDev S n → TxDev S n
  | (.ok, t) => { t.refer skb 1 with
      lost := if t.outb.length = s.outb.length then s.lost ++ [skb] else s.lost }
  | (_, t) => t

/-- The machine.  The stack hands no frame to a queue that is stopped. -/
def txStep (size : ℕ) (s : TxDev S n) : TxEvent S n → Option (TxDev S n)
  | .xmit node trylock skb hDest =>
    if s.stopped then none
    else (rionetStartXmit size node trylock skb hDest s).map (s.take skb)
  | .sent =>
    if s.todo = 0 then none
    else some { s with todo := s.todo - 1, deq := (s.deq + 1) % size, irq := true }
  | .event =>
    if s.irq = true ∧ s.handling = false then
      (rionetOutbMsgEvent size s.deq s).map fun t => { t with handling := true }
    else none
  | .ackIrq => if s.handling then some { s with irq := false, handling := false } else none

/-- Behind `rionet_open`. -/
def txInit : TxDev S n where
  txSkb := fun _ => none
  txSlot := 0
  txCnt := 0
  ackSlot := 0
  stopped := false
  users := fun _ => 0
  outb := []
  todo := 0
  deq := 0
  irq := false
  handling := false
  freed := []
  lost := []

/-- The frames handed to the mailbox, once for each message. -/
def TxDev.frames (s : TxDev S n) : List S := s.outb.map Prod.snd

/-- The ring, the frames given back and the mailbox. -/
structure TxRing (size : ℕ) (s : TxDev S n) : Prop where
  /-- The ring holds what it has room for, -/
  room : s.txCnt ≤ size
  full : s.txCnt = size → s.stopped = true
  /-- frames are given back in the order in which they were handed over, none twice, -/
  order : s.freed = s.frames.take s.freed.length
  count : s.freed.length + s.txCnt = s.frames.length
  /-- the others are in their slots, -/
  held : Holds size s.txSkb (s.frames.map some) s.freed.length
  ackSlot : s.ackSlot = s.freed.length % size
  txSlot : s.txSlot = s.frames.length % size
  /-- and the mailbox has sent some of them. -/
  todo : s.todo ≤ s.txCnt
  deq : s.deq = (s.frames.length - s.todo) % size

/-- Each frame has as many references as there are messages with it that are not given back, and
    those that went nowhere; `owed` more are still to be made of `skb`. -/
def Referred (s : TxDev S n) (skb : S) (owed : ℤ) : Prop :=
  ∀ x, s.users x + (if x = skb then owed else 0)
    = (s.frames.drop s.freed.length).count x + s.lost.count x

/-- What the machine should keep. -/
structure TxInv (size : ℕ) (s : TxDev S n) : Prop where
  ring : TxRing size s
  users : ∀ skb, s.users skb = (s.frames.drop s.freed.length).count skb + s.lost.count skb

/-- A multicast that is let in finds room for every active device. -/
def XmitGuard (size : ℕ) (s : TxDev S n) : TxEvent S n → Prop
  | .xmit node trylock _ hDest =>
    trylock = true → isMulticastEtherAddr hDest = true → s.txCnt + node.nact ≤ size →
      s.txCnt + tableCount node.active ≤ size
  | _ => True

variable {k size : ℕ} {s t : TxDev S n}

/-! ### Handing over -/

/-- The next slot. -/
theorem and_mask_succ (m k : ℕ) : (m % 2 ^ k + 1) &&& (2 ^ k - 1) = (m + 1) % 2 ^ k := by
  rw [Nat.and_two_pow_sub_one_eq_mod, Nat.mod_add_mod]

@[simp] theorem refer_frames (s : TxDev S n) (skb : S) (d : ℤ) :
    (s.refer skb d).frames = s.frames := rfl

omit [DecidableEq S] in
@[simp] theorem frames_queue (size : ℕ) (skb : S) (s : TxDev S n) (i : Fin n) :
    (rionetQueueTxMsg size skb s i).frames = s.frames ++ [skb] :=
  List.map_append

omit [DecidableEq S] in
/-- The frame goes to the slot of its number. -/
theorem TxRing.queue (h : TxRing (2 ^ k) s) (hroom : s.txCnt < 2 ^ k) (skb : S) (i : Fin n) :
    TxRing (2 ^ k) (rionetQueueTxMsg (2 ^ k) skb s i) where
  room := hroom
  full := fun hfull => if_pos hfull
  order := by
    have hle : s.freed.length ≤ s.frames.length := by
      have := h.count
      omega
    rw [frames_queue]
    show s.freed = (s.frames ++ [skb]).take s.freed.length
    rw [List.take_append_of_le_length hle]
    exact h.order
  count := by
    rw [frames_queue, List.length_append, List.length_singleton]
    show s.freed.length + (s.txCnt + 1) = _
    rw [← h.count, Nat.add_assoc]
  held := by
    have hcount := h.count
    have hlt : (s.frames.map some).length < s.freed.length + 2 ^ k := by
      rw [List.length_map]
      omega
    have hstore := h.held.store hlt (some skb)
    rw [List.length_map, ← h.txSlot] at hstore
    rw [frames_queue, List.map_append]
    exact hstore
  ackSlot := h.ackSlot
  txSlot := by
    rw [frames_queue, List.length_append, List.length_singleton, ← and_mask_succ, ← h.txSlot]
    rfl
  todo := Nat.succ_le_succ h.todo
  deq := by
    rw [frames_queue, List.length_append, List.length_singleton]
    show s.deq = (s.frames.length + 1 - (s.todo + 1)) % 2 ^ k
    rw [Nat.add_sub_add_right]
    exact h.deq

omit [DecidableEq S] in
/-- References and the interrupt do not matter to it. -/
theorem TxRing.aside (h : TxRing size s) (users : S → ℤ) (lost : List S) (irq handling : Bool) :
    TxRing size { s with users := users, lost := lost, irq := irq, handling := handling } :=
  ⟨h.room, h.full, h.order, h.count, h.held, h.ackSlot, h.txSlot, h.todo, h.deq⟩

/-- A message more needs a reference more. -/
theorem Referred.queue (h : TxRing size s) {skb : S} {owed : ℤ} (husers : Referred s skb owed)
    (i : Fin n) : Referred (rionetQueueTxMsg size skb s i) skb (owed + 1) := by
  intro x
  have hle : s.freed.length ≤ s.frames.length := by
    have := h.count
    omega
  have hx := husers x
  rw [frames_queue]
  show s.users x + (if x = skb then owed + 1 else 0)
    = ((s.frames ++ [skb]).drop s.freed.length).count x + s.lost.count x
  rw [List.drop_append_of_le_length hle, List.count_append]
  by_cases hskb : x = skb
  · subst hskb
    rw [if_pos rfl] at hx ⊢
    rw [List.count_singleton_self]
    push_cast
    omega
  · rw [if_neg hskb] at hx ⊢
    have hnone : List.count x [skb] = 0 := List.count_eq_zero_of_not_mem (by simpa using hskb)
    rw [hnone, Nat.add_zero]
    exact hx

/-- A reference that is made is not owed any more. -/
theorem Referred.refer {skb : S} {owed : ℤ} (husers : Referred s skb owed) (d : ℤ) :
    Referred (s.refer skb d) skb (owed - d) := by
  intro x
  have hx := husers x
  show Function.update s.users skb (s.users skb + d) x + (if x = skb then owed - d else 0)
    = (s.frames.drop s.freed.length).count x + s.lost.count x
  by_cases hskb : x = skb
  · subst hskb
    rw [if_pos rfl] at hx ⊢
    rw [Function.update_self]
    omega
  · rw [if_neg hskb] at hx ⊢
    rw [Function.update_of_ne hskb]
    exact hx

/-- Nothing is owed. -/
theorem TxInv.referred (h : TxInv size s) (skb : S) : Referred s skb 0 := by
  intro x
  rw [ite_self, add_zero]
  exact h.users x

theorem Referred.users {skb : S} (h : Referred s skb 0) (x : S) :
    s.users x = (s.frames.drop s.freed.length).count x + s.lost.count x := by
  have hx := h x
  rwa [ite_self, add_zero] at hx

/-! ### Multicasts -/

/-- The count, whatever room there is. -/
theorem foldl_multicast_txCnt (active : Fin n → Bool) (skb : S) (l : List (Fin n))
    (st : TxDev S n × ℕ) :
    (l.foldl (multicastRound size active skb) st).1.txCnt
      = st.1.txCnt + (l.filter active).length := by
  induction l generalizing st with
  | nil => rfl
  | cons i l ih =>
    rw [List.foldl_cons, ih, multicastRound]
    by_cases hi : active i = true
    · rw [if_pos hi, List.filter_cons_of_pos hi, List.length_cons]
      have hround : (if st.2 ≠ 0 then (rionetQueueTxMsg size skb st.1 i).refer skb 1
          else rionetQueueTxMsg size skb st.1 i).txCnt = st.1.txCnt + 1 := by
        split
        · rfl
        · rfl
      rw [hround]
      omega
    · rw [if_neg hi, List.filter_cons_of_neg hi]

/-- What the loop has handed over: one message to each active device. -/
theorem foldl_multicast_outb (active : Fin n → Bool) (skb : S) (l : List (Fin n))
    (st : TxDev S n × ℕ) :
    (l.foldl (multicastRound size active skb) st).1.outb
      = st.1.outb ++ (l.filter active).map fun i => (i, skb) := by
  induction l generalizing st with
  | nil => exact (List.append_nil _).symm
  | cons i l ih =>
    rw [List.foldl_cons, ih, multicastRound]
    by_cases hi : active i = true
    · rw [if_pos hi, List.filter_cons_of_pos hi, List.map_cons]
      have hround : (if st.2 ≠ 0 then (rionetQueueTxMsg size skb st.1 i).refer skb 1
          else rionetQueueTxMsg size skb st.1 i).outb = st.1.outb ++ [(i, skb)] := by
        split
        · rfl
        · rfl
      rw [hround, List.append_assoc]
      rfl
    · rw [if_neg hi, List.filter_cons_of_neg hi]

/-- **The loop** keeps the ring where there is room for all, and makes one reference less than it
    hands over messages. -/
theorem foldl_multicast_inv {active : Fin n → Bool} {skb : S} (l : List (Fin n))
    (st : TxDev S n × ℕ) (h : TxRing (2 ^ k) st.1)
    (husers : Referred st.1 skb (if st.2 = 0 then 0 else 1))
    (hroom : st.1.txCnt + (l.filter active).length ≤ 2 ^ k) :
    TxRing (2 ^ k) (l.foldl (multicastRound (2 ^ k) active skb) st).1
      ∧ Referred (l.foldl (multicastRound (2 ^ k) active skb) st).1 skb
        (if st.2 + (l.filter active).length = 0 then 0 else 1) := by
  induction l generalizing st with
  | nil => exact ⟨h, husers⟩
  | cons i l ih =>
    rw [List.foldl_cons]
    by_cases hi : active i = true
    · rw [List.filter_cons_of_pos hi, List.length_cons] at hroom ⊢
      have hqueue := h.queue (by omega) skb i
      have howed := husers.queue h i
      have hround : TxRing (2 ^ k) (multicastRound (2 ^ k) active skb st i).1
          ∧ Referred (multicastRound (2 ^ k) active skb st i).1 skb 1 := by
        rw [multicastRound, if_pos hi]
        by_cases hfirst : st.2 = 0
        · -- the first message takes the reference that came with the frame
          rw [if_neg (not_not.mpr hfirst)]
          rw [if_pos hfirst] at howed
          exact ⟨hqueue, howed⟩
        · rw [if_pos hfirst]
          rw [if_neg hfirst] at howed
          exact ⟨hqueue.aside .., howed.refer 1⟩
      have hcount : (multicastRound (2 ^ k) active skb st i).2 = st.2 + 1 := by
        rw [multicastRound, if_pos hi]
      have hcnt : (multicastRound (2 ^ k) active skb st i).1.txCnt = st.1.txCnt + 1 := by
        rw [multicastRound, if_pos hi]
        dsimp only
        split
        · rfl
        · rfl
      have hrest := ih (multicastRound (2 ^ k) active skb st i) hround.1
        (by rw [hcount, if_neg (Nat.succ_ne_zero _)]; exact hround.2) (by omega)
      rw [hcount] at hrest
      rw [if_neg (by omega)] at hrest ⊢
      exact hrest
    · rw [List.filter_cons_of_neg hi] at hroom ⊢
      have hround : multicastRound (2 ^ k) active skb st i = st := by
        rw [multicastRound, if_neg hi]
      rw [hround]
      exact ih st h husers hroom

/-- The devices of a table, in order. -/
theorem length_filter_finRange (active : Fin n → Bool) :
    ((List.finRange n).filter active).length = tableCount active := by
  have hfilter : (List.finRange n).filter active
      = (List.finRange n).filter fun i => decide (active i = true) := by
    simp only [Bool.decide_eq_true]
  rw [hfilter]
  rfl

/-! ### The two functions and the machine -/

omit [DecidableEq S] in
/-- The stopped queue of a full ring. -/
theorem TxRing.stop (h : TxRing size s) : TxRing size { s with stopped := true } :=
  ⟨h.room, fun _ => rfl, h.order, h.count, h.held, h.ackSlot, h.txSlot, h.todo, h.deq⟩

/-- What a frame that is taken leaves behind. -/
structure Taken (size : ℕ) (skb : S) (s t : TxDev S n) : Prop where
  ring : TxRing size t
  users : Referred t skb (if t.outb.length = s.outb.length then 0 else 1)
  freed : t.freed = s.freed
  lost : t.lost = s.lost

/-- The reference that comes with a frame is that of its first message, or is lost. -/
theorem Taken.inv {skb : S} (h : Taken size skb s t) : TxInv size (s.take skb (.ok, t)) := by
  have hreferred := h.users.refer 1
  refine ⟨h.ring.aside .., fun x => ?_⟩
  · have hx := hreferred x
    show (t.refer skb 1).users x = (t.frames.drop t.freed.length).count x
      + (if t.outb.length = s.outb.length then s.lost ++ [skb] else s.lost).count x
    rw [refer_frames] at hx
    change (t.refer skb 1).users x + _
      = (t.frames.drop t.freed.length).count x + t.lost.count x at hx
    rw [h.lost] at hx
    by_cases hnone : t.outb.length = s.outb.length
    · rw [if_pos hnone] at hx ⊢
      rw [List.count_append]
      by_cases hskb : x = skb
      · subst hskb
        rw [if_pos rfl] at hx
        rw [List.count_singleton_self]
        push_cast
        omega
      · have hzero : List.count x [skb] = 0 :=
          List.count_eq_zero_of_not_mem (by simpa using hskb)
        rw [if_neg hskb] at hx
        rw [hzero, Nat.add_zero]
        omega
    · rw [if_neg hnone] at hx ⊢
      rw [sub_self, ite_self, add_zero] at hx
      exact hx

/-- The loop over all devices. -/
theorem foldl_multicast_taken (h : TxInv (2 ^ k) s) (active : Fin n → Bool) (skb : S)
    (hroom : s.txCnt + tableCount active ≤ 2 ^ k) :
    Taken (2 ^ k) skb s ((List.finRange n).foldl (multicastRound (2 ^ k) active skb) (s, 0)).1 := by
  rw [← length_filter_finRange] at hroom
  obtain ⟨hring, husers⟩ := foldl_multicast_inv (List.finRange n) (s, 0) h.ring
    (h.referred skb) hroom
  have hkeep (l : List (Fin n)) (st : TxDev S n × ℕ) :
      (l.foldl (multicastRound (2 ^ k) active skb) st).1.freed = st.1.freed
        ∧ (l.foldl (multicastRound (2 ^ k) active skb) st).1.lost = st.1.lost := by
    induction l generalizing st with
    | nil => exact ⟨rfl, rfl⟩
    | cons i l ih =>
      rw [List.foldl_cons]
      refine ⟨(ih _).1.trans ?_, (ih _).2.trans ?_⟩
      all_goals
        rw [multicastRound]
        split
        · dsimp only
          split
          · rfl
          · rfl
        · rfl
  refine ⟨hring, ?_, (hkeep _ _).1, (hkeep _ _).2⟩
  rw [foldl_multicast_outb, List.length_append, List.length_map]
  simpa using husers

/-- A frame for one device. -/
theorem queue_taken (h : TxInv (2 ^ k) s) (hroom : s.txCnt < 2 ^ k) (skb : S) (i : Fin n) :
    Taken (2 ^ k) skb s (rionetQueueTxMsg (2 ^ k) skb s i) := by
  refine ⟨h.ring.queue hroom skb i, ?_, rfl, rfl⟩
  have hlength : (rionetQueueTxMsg (2 ^ k) skb s i).outb.length ≠ s.outb.length := by
    show (s.outb ++ [(i, skb)]).length ≠ s.outb.length
    rw [List.length_append]
    exact Nat.succ_ne_self _
  rw [if_neg hlength]
  exact (h.referred skb).queue h.ring i

/-- A frame for nobody. -/
theorem TxInv.taken (h : TxInv size s) (skb : S) : Taken size skb s s :=
  ⟨h.ring, by rw [if_pos rfl]; exact h.referred skb, rfl, rfl⟩

/-- **`rionet_start_xmit`** keeps everything exact if and only if a multicast finds room. -/
theorem xmit_inv_iff (h : TxInv (2 ^ k) s) {node : Rionet n} {trylock : Bool} {skb : S}
    {hDest : Mac} (hstep : txStep (2 ^ k) s (.xmit node trylock skb hDest) = some t) :
    TxInv (2 ^ k) t ↔ XmitGuard (2 ^ k) s (.xmit node trylock skb hDest) := by
  rw [txStep] at hstep
  split at hstep
  · cases hstep
  obtain ⟨⟨rc, u⟩, hxmit, rfl⟩ := Option.map_eq_some_iff.mp hstep
  rw [rionetStartXmit] at hxmit
  rw [XmitGuard]
  cases htry : trylock with
  | false =>
    rw [htry, if_pos rfl] at hxmit
    obtain ⟨rfl, rfl⟩ := Prod.mk.inj (Option.some.inj hxmit)
    exact iff_of_true h fun hfalse => absurd hfalse Bool.false_ne_true
  | true =>
    rw [htry, if_neg Bool.noConfusion] at hxmit
    simp only [true_imp_iff]
    dsimp only at hxmit
    by_cases hmulti : isMulticastEtherAddr hDest = true
    · rw [if_pos hmulti] at hxmit
      simp only [hmulti, true_imp_iff]
      split at hxmit
      · -- refused
        rename_i hfull
        obtain ⟨rfl, rfl⟩ := Prod.mk.inj (Option.some.inj hxmit)
        refine iff_of_true ⟨h.ring.stop, h.users⟩ fun hle => ?_
        push_cast at hfull hle
        omega
      · rename_i hadmitted
        obtain ⟨rfl, rfl⟩ := Prod.mk.inj (Option.some.inj hxmit)
        constructor
        · intro hinv _
          have hroom := hinv.ring.room
          change (List.foldl (multicastRound (2 ^ k) node.active skb) (s, 0)
            (List.finRange n)).1.txCnt ≤ 2 ^ k at hroom
          rw [foldl_multicast_txCnt, length_filter_finRange] at hroom
          exact hroom
        · intro hguard
          exact (foldl_multicast_taken h node.active skb (hguard (not_lt.mp hadmitted))).inv
    · rw [if_neg hmulti] at hxmit
      refine iff_of_true ?_ fun hfalse => absurd hfalse hmulti
      split at hxmit
      · obtain ⟨rfl, rfl⟩ := Prod.mk.inj (Option.some.inj hxmit)
        exact ⟨h.ring.stop, h.users⟩
      · rename_i hadmitted
        have hroom : s.txCnt < 2 ^ k := by
          push_cast at hadmitted
          zify
          omega
        split at hxmit
        · split at hxmit
          · split at hxmit
            · obtain ⟨rfl, rfl⟩ := Prod.mk.inj (Option.some.inj hxmit)
              exact (queue_taken h hroom skb _).inv
            · obtain ⟨rfl, rfl⟩ := Prod.mk.inj (Option.some.inj hxmit)
              exact (h.taken skb).inv
          · cases hxmit
        · obtain ⟨rfl, rfl⟩ := Prod.mk.inj (Option.some.inj hxmit)
          exact (h.taken skb).inv

omit [DecidableEq S] in
/-- The mailbox has sent a message. -/
theorem TxRing.sent (h : TxRing size s) (htodo : s.todo ≠ 0) :
    TxRing size { s with todo := s.todo - 1, deq := (s.deq + 1) % size, irq := true } := by
  have hle := h.todo
  have hcount := h.count
  refine ⟨h.room, h.full, h.order, h.count, h.held, h.ackSlot, h.txSlot, ?_, ?_⟩
  · exact (Nat.sub_le _ _).trans hle
  · show (s.deq + 1) % size = (s.frames.length - (s.todo - 1)) % size
    rw [h.deq, Nat.mod_add_mod]
    congr 1
    omega

omit [DecidableEq S] in
/-- The oldest frame in the ring is the next one to be given back. -/
theorem TxRing.front (h : TxRing size s) (hcnt : s.txCnt ≠ 0) :
    ∃ skb rest, s.txSkb s.ackSlot = some skb ∧ s.frames.drop s.freed.length = skb :: rest := by
  have hcount := h.count
  have hlt : s.freed.length < s.frames.length := by omega
  refine ⟨s.frames[s.freed.length], s.frames.drop (s.freed.length + 1), ?_,
    List.drop_eq_getElem_cons hlt⟩
  rw [h.ackSlot, h.held.front (by rw [List.length_map]; exact hlt), List.getElem_map]

/-- **A frame that is given back** is the oldest one, and one reference less. -/
theorem TxInv.ack (h : TxInv (2 ^ k) s) {skb : S} {rest : List S}
    (hfront : s.frames.drop s.freed.length = skb :: rest) (hsent : s.todo < s.txCnt) :
    TxInv (2 ^ k) (s.ack (2 ^ k) skb) := by
  have hcount := h.ring.count
  have hroom := h.ring.room
  have hlt : s.freed.length < s.frames.length := by omega
  have hlength : (s.ack (2 ^ k) skb).freed.length = s.freed.length + 1 := by
    show (s.freed ++ [skb]).length = _
    rw [List.length_append, List.length_singleton]
  have hframes : (s.ack (2 ^ k) skb).frames = s.frames := rfl
  have hskb : s.frames[s.freed.length] = skb := by
    rw [List.drop_eq_getElem_cons hlt] at hfront
    exact (List.cons.inj hfront).1
  have hrest : s.frames.drop (s.freed.length + 1) = rest := by
    rw [← List.drop_drop, hfront]
    rfl
  refine ⟨⟨?_, fun hfull => ?_, ?_, ?_, ?_, ?_, h.ring.txSlot, ?_, h.ring.deq⟩, fun x => ?_⟩
  · exact (Nat.sub_le _ _).trans hroom
  · -- the ring has room now
    have hsub : s.txCnt - 1 = 2 ^ k := hfull
    omega
  · rw [hlength, hframes, List.take_add_one, ← h.ring.order, List.getElem?_eq_getElem hlt, hskb]
    rfl
  · rw [hlength, hframes]
    show s.freed.length + 1 + (s.txCnt - 1) = _
    omega
  · -- the slots of the others are not touched
    intro m hm hmlt
    have hne : m % 2 ^ k ≠ s.ackSlot := by
      rw [List.length_map, hframes] at hmlt
      rw [hlength] at hm
      rw [h.ring.ackSlot]
      exact (mod_ne_mod (by omega) (by omega)).symm
    show Function.update s.txSkb s.ackSlot none (m % 2 ^ k) = _
    rw [Function.update_of_ne hne]
    exact h.ring.held m (by omega) hmlt
  · rw [hlength]
    show (s.ackSlot + 1) &&& (2 ^ k - 1) = _
    rw [h.ring.ackSlot, and_mask_succ]
  · show s.todo ≤ s.txCnt - 1
    omega
  · have hx := h.users x
    rw [hlength, hframes, hrest]
    rw [hfront] at hx
    show Function.update s.users skb (s.users skb + -1) x = rest.count x + s.lost.count x
    by_cases hxs : x = skb
    · subst hxs
      rw [List.count_cons_self] at hx
      rw [Function.update_self]
      push_cast at hx
      omega
    · rw [List.count_cons_of_ne (Ne.symm hxs)] at hx
      rw [Function.update_of_ne hxs]
      exact hx

/-- What the loop does with `j` frames, if the slot it is told is that many behind `ack_slot`. -/
structure Acked (size j : ℕ) (s t : TxDev S n) : Prop where
  inv : TxInv size t
  txCnt : t.txCnt + j = s.txCnt
  stopped : t.stopped = s.stopped
  todo : t.todo = s.todo
  deq : t.deq = s.deq

/-- **The loop** gives back as many frames as the slot is behind `ack_slot`. -/
theorem ackWhile_acked (j fuel : ℕ) (s : TxDev S n) (h : TxInv (2 ^ k) s) (hj : j < 2 ^ k)
    (hsent : s.todo + j ≤ s.txCnt) (hfuel : j ≤ fuel) :
    ∃ t, ackWhile (2 ^ k) ((s.freed.length + j) % 2 ^ k) fuel s = some t ∧ Acked (2 ^ k) j s t := by
  induction j generalizing s fuel with
  | zero =>
    refine ⟨s, ?_, h, rfl, rfl, rfl, rfl⟩
    cases fuel with
    | zero => rfl
    | succ fuel =>
      rw [ackWhile, if_neg]
      rw [h.ring.ackSlot]
      exact fun hne => hne.2 rfl
  | succ j ih =>
    cases fuel with
    | zero => cases hfuel
    | succ fuel =>
      obtain ⟨skb, rest, hslot, hfront⟩ := h.ring.front (by omega)
      have hne : s.ackSlot ≠ (s.freed.length + (j + 1)) % 2 ^ k := by
        rw [h.ring.ackSlot]
        exact mod_ne_mod (by omega) (by omega)
      have hack := h.ack hfront (by omega)
      have hlength : (s.ack (2 ^ k) skb).freed.length = s.freed.length + 1 := by
        show (s.freed ++ [skb]).length = _
        rw [List.length_append, List.length_singleton]
      have hcnt : (s.ack (2 ^ k) skb).txCnt = s.txCnt - 1 := rfl
      have htodo : (s.ack (2 ^ k) skb).todo = s.todo := rfl
      obtain ⟨t, ht, hinv, htxCnt, hstopped, htodo', hdeq⟩ :=
        ih fuel (s.ack (2 ^ k) skb) hack (by omega) (by omega) (by omega)
      refine ⟨t, ?_, hinv, by omega, hstopped, htodo', hdeq⟩
      rw [ackWhile, if_pos ⟨by omega, hne⟩, hslot]
      dsimp only
      rw [← ht, hlength, Nat.add_assoc, Nat.add_comm 1 j]

/-- Told the slot of `ack_slot`, it gives back none. -/
theorem ackWhile_same (size fuel : ℕ) (s : TxDev S n) :
    ackWhile size s.ackSlot fuel s = some s := by
  cases fuel with
  | zero => rfl
  | succ fuel => rw [ackWhile, if_neg fun h => h.2 rfl]

/-- How many frames an interrupt gives back: those the mailbox has sent, unless it has sent all of
    a full ring. -/
def TxDev.givenBack (size : ℕ) (s : TxDev S n) : ℕ :=
  if s.txCnt - s.todo = size then 0 else s.txCnt - s.todo

/-- **`rionet_outb_msg_event`** never finds an empty slot, and wakes the queue if there is room. -/
theorem rionetOutbMsgEvent_acked (h : TxInv (2 ^ k) s) :
    ∃ t, Acked (2 ^ k) (s.givenBack (2 ^ k)) s t
      ∧ rionetOutbMsgEvent (2 ^ k) s.deq s
        = some (if t.txCnt < 2 ^ k then { t with stopped := false } else t) := by
  have hroom := h.ring.room
  have htodo := h.ring.todo
  have hcount := h.ring.count
  rw [TxDev.givenBack]
  by_cases hall : s.txCnt - s.todo = 2 ^ k
  · -- the mailbox has got back to `ack_slot`
    rw [if_pos hall]
    have hdeq : s.deq = s.ackSlot := by
      have hlast : s.frames.length - s.todo = s.freed.length + 2 ^ k := by omega
      rw [h.ring.deq, h.ring.ackSlot, hlast, Nat.add_mod_right]
    refine ⟨s, ⟨h, rfl, rfl, rfl, rfl⟩, ?_⟩
    have hnone := ackWhile_same (2 ^ k) s.txCnt s
    rw [← hdeq] at hnone
    rw [rionetOutbMsgEvent, hnone]
  · rw [if_neg hall]
    have hdeq : s.deq = (s.freed.length + (s.txCnt - s.todo)) % 2 ^ k := by
      rw [h.ring.deq]
      congr 1
      omega
    obtain ⟨t, ht, hacked⟩ := ackWhile_acked (s.txCnt - s.todo) s.txCnt s h (by omega) (by omega)
      (by omega)
    refine ⟨t, hacked, ?_⟩
    rw [rionetOutbMsgEvent, hdeq, ht]

/-- A queue that is woken has a ring with room. -/
theorem TxInv.wake (h : TxInv size s) (hroom : s.txCnt < size) :
    TxInv size { s with stopped := false } :=
  ⟨⟨h.ring.room, fun hfull => absurd hfull hroom.ne, h.ring.order, h.ring.count, h.ring.held,
    h.ring.ackSlot, h.ring.txSlot, h.ring.todo, h.ring.deq⟩, h.users⟩

/-- **One step** keeps everything exact if and only if it is guarded. -/
theorem txStep_inv_iff (h : TxInv (2 ^ k) s) {e : TxEvent S n}
    (hstep : txStep (2 ^ k) s e = some t) : TxInv (2 ^ k) t ↔ XmitGuard (2 ^ k) s e := by
  cases e with
  | xmit node trylock skb hDest => exact xmit_inv_iff h hstep
  | sent =>
    refine iff_of_true ?_ trivial
    rw [txStep] at hstep
    split at hstep
    · cases hstep
    · rename_i htodo
      obtain rfl := Option.some.inj hstep
      exact ⟨h.ring.sent htodo, h.users⟩
  | event =>
    refine iff_of_true ?_ trivial
    rw [txStep, Option.ite_none_right_eq_some] at hstep
    obtain ⟨u, hacked, hevent⟩ := rionetOutbMsgEvent_acked h
    rw [hevent] at hstep
    obtain rfl := Option.some.inj hstep.2
    have hinv := hacked.inv
    split
    · rename_i hroom
      exact ⟨(hinv.wake hroom).ring.aside .., hinv.users⟩
    · exact ⟨hinv.ring.aside .., hinv.users⟩
  | ackIrq =>
    refine iff_of_true ?_ trivial
    rw [txStep, Option.ite_none_right_eq_some] at hstep
    obtain rfl := Option.some.inj hstep.2
    exact ⟨h.ring.aside .., h.users⟩

theorem txInv_init : TxInv (2 ^ k) (txInit : TxDev S n) := by
  refine ⟨⟨Nat.zero_le _, fun hfull => ?_, rfl, rfl, Holds.empty (Nat.le_refl _), ?_, ?_,
    Nat.le_refl _, ?_⟩, fun _ => rfl⟩
  · exact absurd hfull (Nat.two_pow_pos k).ne
  · exact (Nat.zero_mod _).symm
  · exact (Nat.zero_mod _).symm
  · exact (Nat.zero_mod _).symm

/-- **Transmission.**  On every ring of a power of two, along every run behind `rionet_open`: ring,
    order, mailbox and references are exact in every state if and only if every multicast that is
    let in finds room for every active device. -/
theorem txInv_iff_guarded (k : ℕ) (run : List (TxEvent S n)) (t : TxDev S n)
    (hrun : exec (txStep (2 ^ k)) txInit run = some t) :
    Always (txStep (2 ^ k)) (TxInv (2 ^ k)) txInit run
      ↔ Guarded (txStep (2 ^ k)) (XmitGuard (2 ^ k)) txInit run :=
  always_iff_guarded (fun _ => id) (fun _ _ _ hs hg hstep => (txStep_inv_iff hs hstep).mpr hg)
    (fun _ _ _ hs hstep ht => (txStep_inv_iff hs hstep).mp ht) txInv_init hrun

instance (size : ℕ) (s : TxDev S n) : ∀ e, Decidable (XmitGuard size s e)
  | .xmit _ _ _ _ => inferInstanceAs (Decidable (_ → _ → _ → _))
  | .sent => isTrue trivial
  | .event => isTrue trivial
  | .ackIrq => isTrue trivial

/-- Two devices are active, of which the number knows `nact`. -/
def bothActive (nact : ℤ) : Rionet 2 := ⟨[], fun _ => true, nact, true, true⟩

/-- A broadcast is sent, and another one where there is room for one frame. -/
def twoBroadcasts (nact : ℤ) : List (TxEvent ℕ 2) :=
  [.xmit (bothActive 2) true 7 fun _ => 0xff, .sent, .event, .ackIrq,
    .xmit (bothActive nact) true 8 fun _ => 0xff]

/-- The second one is refused if the number is right. -/
theorem txInv_twoBroadcasts :
    Always (txStep (2 ^ 1)) (TxInv (2 ^ 1)) txInit (twoBroadcasts 2)
      ∧ ¬Always (txStep (2 ^ 1)) (TxInv (2 ^ 1)) txInit (twoBroadcasts 1) := by
  constructor
  · exact (txInv_iff_guarded 1 (twoBroadcasts 2)
      ((exec (txStep (2 ^ 1)) txInit (twoBroadcasts 2)).get (by decide))
      (Option.some_get _).symm).mpr (by decide)
  · exact fun h => absurd ((txInv_iff_guarded 1 (twoBroadcasts 1)
      ((exec (txStep (2 ^ 1)) txInit (twoBroadcasts 1)).get (by decide))
      (Option.some_get _).symm).mp h) (by decide)

/-! ### Whom a frame is for -/

/-- The device id of an address is the one it was made of. -/
theorem rionetGetDestid_devAddr (deviceId : BitVec 16) :
    rionetGetDestid (devAddr deviceId) = deviceId.toNat := by
  have hlow : (deviceId &&& 0xff).toNat % 2 ^ 8 < 2 ^ 8 := Nat.mod_lt _ (by decide)
  have hlt := deviceId.isLt
  have hmask : (deviceId &&& 0xff).toNat = deviceId.toNat % 2 ^ 8 := by
    rw [BitVec.toNat_and]
    exact Nat.and_two_pow_sub_one_eq_mod _ 8
  show ((deviceId >>> 8).setWidth 8).toNat <<< 8 ||| ((deviceId &&& 0xff).setWidth 8).toNat = _
  rw [BitVec.toNat_setWidth, BitVec.toNat_setWidth, ← Nat.shiftLeft_add_eq_or_of_lt hlow,
    Nat.shiftLeft_eq, hmask, BitVec.toNat_ushiftRight, Nat.shiftRight_eq_div_pow]
  omega

/-- **Unicast.**  A frame to the address that a device takes is queued for that device if it is
    active, and for nobody otherwise; an id behind the end of the table is looked up there. -/
theorem rionetStartXmit_devAddr (node : Rionet n) (skb : S) (deviceId : BitVec 16)
    (hroom : s.txCnt < size) :
    rionetStartXmit size node true skb (devAddr deviceId) s
      = if h : deviceId.toNat < n then
          if node.active ⟨deviceId.toNat, h⟩ then
            some (.ok, rionetQueueTxMsg size skb s ⟨deviceId.toNat, h⟩)
          else some (.ok, s)
        else none := by
  have hmulti : isMulticastEtherAddr (devAddr deviceId) = false := by
    show ((0x00 : BitVec 8) &&& 0x01 != 0) = false
    decide
  have hmatch : rionetMacMatch (devAddr deviceId) = true := rfl
  have hadmitted : ¬((s.txCnt : ℤ) + 1 > size) := by omega
  simp only [rionetStartXmit, hmulti, hmatch, rionetGetDestid_devAddr, Bool.true_eq_false,
    Bool.false_eq_true, if_false, if_true, hadmitted]

end Vpx3.Eth
