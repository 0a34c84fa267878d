import Mathlib
import Vpx3.Rio.MsgRx

namespace Vpx3.Eth

open Exec Slots Rio

/-!
# Ethernet over RapidIO — reception

The driver keeps a ring of socket buffers, whose memory it gives to the inbound mailbox, and the
mailbox keeps a ring of buffers of its own, in the order in which the hardware fills its slots.  The
two rings stay in step by counting alone.

* `fslGetInbMessage`, `inboundRecvMsgPro` — the mailbox's functions; `exec_fetch`, `exec_irq` —
  they are what the machine of `Rio.MsgRx` does in several steps;
* `RxDev` — the mailbox and the driver's ring; `rionetRxClean`, `rionetRxFill` — one round of each
  loop; `receiveStep` — frames arrive between any two rounds;
* `RxDev.Sound` — what is handed to the network stack is handed to it once, with its own memory;
* `sound_iff_guarded` — this holds along a run exactly if frames are only handed up while the
  number of frames that `InboundRecvMsgPro` has taken is a multiple of the ring's size;
* `receives_iff` — when nothing can be received any more.
-/

variable {F B : Type} {ring : RxRing}

/-! ### The mailbox -/

/-- `fsl_get_inb_message`. -/
def fslGetInbMessage (ring : RxRing) (s : RxState F B) : Option B × RxState F B :=
  if s.ifqdpar ring = s.ifqepar ring then (none, s)
  else
    let bufIdx := (s.ifqdpar ring - ring.phys) / rioMaxMsgSize
    match s.virtBuffer bufIdx with
    | none => (none, { s with deq := s.deq + 1 })
    | some buf =>
      (some buf, { s with
        copies := s.copies ++ [(buf, s.virt bufIdx)]
        virtBuffer := Function.update s.virtBuffer bufIdx none
        deq := s.deq + 1 })

/-- `InboundRecvMsgPro`. -/
def inboundRecvMsgPro (ring : RxRing) (s : RxState F B) : RxState F B :=
  if s.ifqdpar ring = s.ifqepar ring then s else { s with deq := s.deq + 1 }

/-- `fsl_get_inb_message`, step by step. -/
theorem exec_fetch (ring : RxRing) {s : RxState F B} (hpc : s.pc = .callback) :
    ∃ n, exec (rxStep ring) s (.fetch :: List.replicate n .tick)
      = some (fslGetInbMessage ring s).2 := by
  have hfetch : rxStep ring s .fetch = some { s with pc := .getStart } := by
    rw [rxStep, if_pos hpc]
  have hstart : rxStep ring { s with pc := .getStart } .tick
      = some { s with pc := .getCompare (s.ifqdpar ring) } := rfl
  unfold fslGetInbMessage
  by_cases hempty : s.ifqdpar ring = s.ifqepar ring
  · refine ⟨2, ?_⟩
    have hcompare : rxStep ring { s with pc := .getCompare (s.ifqdpar ring) } .tick
        = some { s with pc := .callback } := if_pos hempty
    rw [if_pos hempty, exec_cons, hfetch, Option.bind_some, List.replicate_succ, exec_cons, hstart,
      Option.bind_some, List.replicate_succ, exec_cons, hcompare, ← hpc]
    rfl
  · refine ⟨4, ?_⟩
    have hcompare : rxStep ring { s with pc := .getCompare (s.ifqdpar ring) } .tick
        = some { s with pc := .getCopy ((s.ifqdpar ring - ring.phys) / rioMaxMsgSize) } :=
      if_neg hempty
    rw [if_neg hempty, exec_cons, hfetch, Option.bind_some, List.replicate_succ, exec_cons, hstart,
      Option.bind_some, List.replicate_succ, exec_cons, hcompare, Option.bind_some]
    cases hbuf : s.virtBuffer ((s.ifqdpar ring - ring.phys) / rioMaxMsgSize) with
    | none =>
      have hcopy : rxStep ring
          { s with pc := .getCopy ((s.ifqdpar ring - ring.phys) / rioMaxMsgSize) } .tick
          = some { s with pc := .getMi } := by
        simp only [rxStep, handlerStep, hbuf]
      rw [List.replicate_succ, exec_cons, hcopy]
      simp only [hbuf, hpc]
      rfl
    | some buf =>
      have hcopy : rxStep ring
          { s with pc := .getCopy ((s.ifqdpar ring - ring.phys) / rioMaxMsgSize) } .tick
          = some { s with
              copies := s.copies
                ++ [(buf, s.virt ((s.ifqdpar ring - ring.phys) / rioMaxMsgSize))]
              virtBuffer := Function.update s.virtBuffer
                ((s.ifqdpar ring - ring.phys) / rioMaxMsgSize) none
              pc := .getMi } := by
        simp only [rxStep, handlerStep, hbuf]
      rw [List.replicate_succ, exec_cons, hcopy]
      simp only [hbuf, hpc]
      rfl

/-- The interrupt handler up to the callback: `InboundRecvMsgPro`, step by step. -/
theorem exec_irq (ring : RxRing) {s : RxState F B} (hpc : s.pc = .idle) {isr : BitVec 32}
    (hte : isr &&& rioMsgIsrTe = 0) :
    ∃ n, exec (rxStep ring) s (.irq isr :: List.replicate n .tick)
      = some { inboundRecvMsgPro ring s with
          pc := if isr &&& rioMsgIsrDiqi ≠ 0 ∧ ring.mcback = true then .callback else .idle } := by
  have hirq : rxStep ring s (.irq isr) = some { s with pc := .recvStart isr } := by
    rw [rxStep, if_neg (not_not.mpr hpc), if_neg (not_not.mpr hte)]
  have hstart : rxStep ring { s with pc := .recvStart isr } .tick
      = some { s with pc := .recvCompare isr (s.ifqdpar ring) } := rfl
  have htest : ∀ t : RxState F B, rxStep ring { t with pc := .testDiqi isr } .tick
      = some { t with
          pc := if isr &&& rioMsgIsrDiqi ≠ 0 ∧ ring.mcback = true then .callback else .idle } := by
    intro t
    simp only [rxStep, handlerStep]
    split
    · rfl
    · rfl
  unfold inboundRecvMsgPro
  by_cases hempty : s.ifqdpar ring = s.ifqepar ring
  · refine ⟨3, ?_⟩
    have hcompare : rxStep ring { s with pc := .recvCompare isr (s.ifqdpar ring) } .tick
        = some { s with pc := .testDiqi isr } := if_pos hempty
    rw [if_pos hempty, exec_cons, hirq, Option.bind_some, List.replicate_succ, exec_cons, hstart,
      Option.bind_some, List.replicate_succ, exec_cons, hcompare, Option.bind_some,
      List.replicate_succ, exec_cons, htest]
    rfl
  · refine ⟨4, ?_⟩
    have hcompare : rxStep ring { s with pc := .recvCompare isr (s.ifqdpar ring) } .tick
        = some { s with pc := .recvMi isr } := if_neg hempty
    have hmi : rxStep ring { s with pc := .recvMi isr } .tick
        = some { s with deq := s.deq + 1, pc := .testDiqi isr } := rfl
    rw [if_neg hempty, exec_cons, hirq, Option.bind_some, List.replicate_succ, exec_cons, hstart,
      Option.bind_some, List.replicate_succ, exec_cons, hcompare, Option.bind_some,
      List.replicate_succ, exec_cons, hmi, Option.bind_some, List.replicate_succ, exec_cons]
    exact congrArg (Option.bind · _) (htest { s with deq := s.deq + 1 })

/-! ### The driver -/

/-- Where the interrupt handler is in the driver: in a round of `rionet_rx_clean` or of
    `rionet_rx_fill`. -/
inductive RxPc where
  | idle
  | clean (i : ℕ)
  | fill (i last : ℕ)
deriving DecidableEq

/-- The mailbox, and the receive side of `rionet_private`.  Socket buffers are numbered by the
    calls of `dev_alloc_skb` that made them, and memory by the socket buffer that it belongs to;
    `handed` are those handed to `netif_rx`, with the memory they pointed to, and `taken` counts the
    frames that `InboundRecvMsgPro` took. -/
structure RxDev (F : Type) where
  mbox : RxState F ℕ
  rxSkb : ℕ → Option ℕ
  rxSlot : ℕ
  allocs : ℕ
  handed : List (ℕ × ℕ)
  taken : ℕ
  pc : RxPc

/-- `rionet_rx_clean` has returned `n`: `rionet_inb_msg_event` goes on. -/
def RxDev.cleaned (s : RxDev F) (n : ℕ) : RxDev F :=
  { s with pc := if n = s.rxSlot then .idle else .fill s.rxSlot n }

/-- The end of a round of `rionet_rx_clean`. -/
def RxDev.nextClean (ring : RxRing) (s : RxDev F) (i : ℕ) : RxDev F :=
  if (i + 1) % ring.size = s.rxSlot then s.cleaned ((i + 1) % ring.size)
  else { s with pc := .clean ((i + 1) % ring.size) }

/-- A round of `rionet_rx_clean`. -/
def rionetRxClean (ring : RxRing) (s : RxDev F) (i : ℕ) : RxDev F :=
  match s.rxSkb i with
  | none => s.nextClean ring i
  | some skb =>
    match fslGetInbMessage ring s.mbox with
    | (none, mbox) => { s with mbox := mbox }.cleaned i
    | (some data, mbox) =>
      RxDev.nextClean ring { s with mbox := mbox, handed := s.handed ++ [(skb, data)] } i

/-- A round of `rionet_rx_fill`; `alloc` tells whether `dev_alloc_skb` succeeds. -/
def rionetRxFill (ring : RxRing) (alloc : Bool) (s : RxDev F) (i last : ℕ) : RxDev F :=
  if alloc then
    { s with
      rxSkb := Function.update s.rxSkb i (some s.allocs)
      mbox := fslAddInbBuffer ring s.allocs s.mbox
      allocs := s.allocs + 1
      rxSlot := if (i + 1) % ring.size = last then (i + 1) % ring.size else s.rxSlot
      pc := if (i + 1) % ring.size = last then .idle else .fill ((i + 1) % ring.size) last }
  else
    { s with
      rxSkb := Function.update s.rxSkb i none
      allocs := s.allocs + 1
      rxSlot := i
      pc := .idle }

/-- What can happen. -/
inductive RxEvent (F : Type) where
  | arrive (frame : F)
  | irq (isr : BitVec 32)
  | clean
  | fill

/-- The machine behind `rionet_open`, which has registered its callback; `alloc` tells which calls
    of `dev_alloc_skb` succeed. -/
def receiveStep (ring : RxRing) (alloc : ℕ → Bool) (s : RxDev F) :
    RxEvent F → Option (RxDev F)
  | .arrive frame => (rxStep ring s.mbox (.arrive frame)).map fun mbox => { s with mbox := mbox }
  | .irq isr =>
    if s.pc ≠ .idle then none
    else if isr &&& rioMsgIsrTe ≠ 0 then some s
    else some { s with
      mbox := inboundRecvMsgPro ring s.mbox
      taken := s.taken + ((inboundRecvMsgPro ring s.mbox).deq - s.mbox.deq)
      pc := if isr &&& rioMsgIsrDiqi ≠ 0 then .clean s.rxSlot else .idle }
  | .clean =>
    match s.pc with
    | .clean i => some (rionetRxClean ring s i)
    | _ => none
  | .fill =>
    match s.pc with
    | .fill i last => some (rionetRxFill ring (alloc s.allocs) s i last)
    | _ => none

/-- `rionet_open`, before it fills the ring. -/
def receiveInit (virt : ℕ → F) : RxDev F where
  mbox := rxInit virt
  rxSkb := fun _ => none
  rxSlot := 0
  allocs := 0
  handed := []
  taken := 0
  pc := .fill 0 0

/-- **What is handed up** is handed up once, with its own memory. -/
def RxDev.Sound (s : RxDev F) : Prop :=
  (s.handed.map Prod.fst).Nodup ∧ ∀ x ∈ s.handed, x.2 = x.1

/-! ### The two rings in step -/

/-- The driver fills its ring. -/
def RxPc.filling : RxPc → Bool
  | .fill _ _ => true
  | _ => false

/-- Every socket buffer of the ring has been handed up, and none has been put in its place. -/
def RxDev.Dead (s : RxDev F) : Prop :=
  s.handed.length = s.allocs ∧ s.pc.filling = false

/-- What holds at a program point. -/
def RxDev.Point (ring : RxRing) (s : RxDev F) : RxPc → Prop
  | .idle => s.rxSlot = s.allocs % ring.size ∧ ring.size ≤ s.allocs
      ∧ (s.allocs = s.handed.length + ring.size ∨ s.handed.length = s.allocs)
  | .clean i => s.rxSlot = s.allocs % ring.size ∧ ring.size ≤ s.allocs
      ∧ i = s.handed.length % ring.size
      ∧ (s.allocs = s.handed.length + ring.size ∨ s.handed.length = s.allocs
        ∨ s.taken % ring.size = 0)
  | .fill i last => i = s.allocs % ring.size ∧ last = s.handed.length % ring.size
      ∧ s.allocs < s.handed.length + ring.size

/-- **The rings in step.**  Socket buffers are used in the order of their numbers: those handed up
    come first, and the mailbox has the memory of the others, each in the slot that its number
    says. -/
structure ReceiveInv (ring : RxRing) (s : RxDev F) : Prop where
  le : s.handed.length ≤ s.allocs
  room : s.allocs ≤ s.handed.length + ring.size
  handed : s.handed = (List.range s.handed.length).map fun p => (p, p)
  skb : ∀ p, p < s.allocs → s.allocs ≤ p + ring.size → s.rxSkb (p % ring.size) = some p
  buffer : ∀ p, s.handed.length ≤ p → p < s.allocs →
    s.mbox.virtBuffer (p % ring.size) = some p
  free : ∀ p, s.allocs ≤ p → p < s.handed.length + ring.size →
    s.mbox.virtBuffer (p % ring.size) = none
  slot : s.mbox.rxSlot = s.allocs % ring.size
  deq_le : s.mbox.deq ≤ s.mbox.arrived.length
  queue : s.mbox.arrived.length ≤ s.mbox.deq + ring.size
  step : s.Dead ∨ s.mbox.deq % ring.size = (s.taken + s.handed.length) % ring.size
  point : s.Point ring s.pc

variable {s t : RxDev F} {alloc : ℕ → Bool}

theorem receiveInv_init (hN : 0 < ring.size) (virt : ℕ → F) :
    ReceiveInv ring (receiveInit virt) where
  le := le_rfl
  room := Nat.zero_le _
  handed := rfl
  skb _ h := absurd h (Nat.not_lt_zero _)
  buffer _ _ h := absurd h (Nat.not_lt_zero _)
  free _ _ _ := rfl
  slot := (Nat.zero_mod _).symm
  deq_le := le_rfl
  queue := Nat.zero_le _
  step := Or.inr rfl
  point := ⟨(Nat.zero_mod _).symm, (Nat.zero_mod _).symm, (Nat.zero_add _).symm ▸ hN⟩

/-- The pointers are equal when the queue is empty or full. -/
theorem ifqdpar_eq_iff (m : RxState F B) :
    m.ifqdpar ring = m.ifqepar ring ↔ m.deq % ring.size = m.arrived.length % ring.size := by
  have hpos : 0 < rioMaxMsgSize := by decide
  unfold RxState.ifqdpar RxState.ifqepar RxRing.frameAddr
  rw [Nat.add_left_cancel_iff, Nat.mul_right_cancel_iff hpos]

/-- A frame that is dequeued has arrived. -/
theorem lt_of_ifqdpar_ne {m : RxState F B} (hle : m.deq ≤ m.arrived.length)
    (hne : ¬m.ifqdpar ring = m.ifqepar ring) : m.deq < m.arrived.length := by
  rw [ifqdpar_eq_iff] at hne
  rcases Nat.lt_or_eq_of_le hle with hlt | heq
  · exact hlt
  · exact absurd (congrArg (· % ring.size) heq) hne

/-- Numbers in one window of the ring with one slot. -/
theorem eq_of_mod_eq (lo : ℕ) {a b N : ℕ} (ha : lo ≤ a) (ha' : a < lo + N) (hb : lo ≤ b)
    (hb' : b < lo + N) (h : a % N = b % N) : a = b := by
  rcases Nat.lt_trichotomy a b with hlt | heq | hlt
  · exact absurd h (mod_ne_mod hlt (by omega))
  · exact heq
  · exact absurd h.symm (mod_ne_mod hlt (by omega))

/-- Every slot has a number in a window. -/
theorem exists_mod_eq {N : ℕ} (hN : 0 < N) (lo k : ℕ) :
    ∃ p, lo ≤ p ∧ p < lo + N ∧ p % N = k % N := by
  refine ⟨lo + (k + N * lo - lo) % N, Nat.le_add_right _ _, ?_, ?_⟩
  · have hlt := Nat.mod_lt (k + N * lo - lo) hN
    omega
  · have hle : lo ≤ N * lo := Nat.le_mul_of_pos_left lo hN
    have hsum : lo + (k + N * lo - lo) = k + N * lo := by omega
    rw [Nat.add_mod_mod, hsum, Nat.add_mul_mod_self_left]

/-- What is handed up in step is handed up soundly. -/
theorem ReceiveInv.sound (h : ReceiveInv ring s) : s.Sound := by
  unfold RxDev.Sound
  rw [h.handed]
  refine ⟨?_, ?_⟩
  · rw [List.map_map]
    exact List.Nodup.map (fun _ _ heq => heq) List.nodup_range
  · intro x hx
    obtain ⟨p, -, rfl⟩ := List.mem_map.mp hx
    rfl

/-! ### What a round finds -/

/-- With nothing left the mailbox has no memory. -/
theorem ReceiveInv.free_of_dead (h : ReceiveInv ring s) (hN : 0 < ring.size)
    (hdead : s.handed.length = s.allocs) (k : ℕ) : s.mbox.virtBuffer (k % ring.size) = none := by
  obtain ⟨p, hle, hlt, hp⟩ := exists_mod_eq hN s.allocs k
  rw [← hp]
  exact h.free p hle (hdead ▸ hlt)

/-- Otherwise it has memory at the next frame. -/
theorem ReceiveInv.exists_buffer (h : ReceiveInv ring s) (hN : 0 < ring.size) {i : ℕ}
    (hpc : s.pc = .clean i) (hlive : s.handed.length ≠ s.allocs) :
    ∃ q, s.mbox.virtBuffer (s.mbox.deq % ring.size) = some q := by
  have hle := h.le
  have hpoint := h.point
  rw [hpc] at hpoint
  obtain ⟨-, -, -, hfull | hdead | htaken⟩ := hpoint
  · obtain ⟨p, hp, hp', hmod⟩ := exists_mod_eq hN s.handed.length s.mbox.deq
    exact ⟨p, hmod ▸ h.buffer p hp (hfull ▸ hp')⟩
  · exact absurd hdead hlive
  · have hstep := h.step.resolve_left fun hd => hlive hd.1
    rw [Nat.add_mod, htaken, Nat.zero_add, Nat.mod_mod] at hstep
    exact ⟨_, hstep ▸ h.buffer _ le_rfl (by omega)⟩

/-- The driver always finds a socket buffer in its ring. -/
theorem ReceiveInv.exists_skb (h : ReceiveInv ring s) (hN : 0 < ring.size) {i : ℕ}
    (hpc : s.pc = .clean i) :
    ∃ p, s.rxSkb i = some p ∧ (s.handed.length ≠ s.allocs → p = s.handed.length) := by
  have hle := h.le
  have hpoint := h.point
  rw [hpc] at hpoint
  obtain ⟨-, hfilled, hi, -⟩ := hpoint
  by_cases hdead : s.handed.length = s.allocs
  · refine ⟨s.handed.length - ring.size, ?_, fun hlive => absurd hdead hlive⟩
    have hmod : (s.handed.length - ring.size) % ring.size = i := by
      rw [hi, ← Nat.mod_eq_sub_mod (hdead ▸ hfilled)]
    rw [← hmod]
    exact h.skb _ (by omega) (by omega)
  · exact ⟨s.handed.length, hi ▸ h.skb _ (by omega) h.room, fun _ => rfl⟩

/-! ### The steps -/

/-- A frame arrives. -/
theorem ReceiveInv.arrive (h : ReceiveInv ring s) {frame : F} {m : RxState F ℕ}
    (hm : rxStep ring s.mbox (.arrive frame) = some m) : ReceiveInv ring { s with mbox := m } := by
  rw [rxStep, Option.ite_none_right_eq_some] at hm
  obtain ⟨hroom, heq⟩ := hm
  obtain rfl := Option.some.inj heq
  have hle := h.deq_le
  have hlen : (s.mbox.arrived ++ [frame]).length = s.mbox.arrived.length + 1 := by simp
  refine ⟨h.le, h.room, h.handed, h.skb, h.buffer, h.free, h.slot, ?_, ?_, h.step, h.point⟩
  · show s.mbox.deq ≤ (s.mbox.arrived ++ [frame]).length
    omega
  · show (s.mbox.arrived ++ [frame]).length ≤ s.mbox.deq + ring.size
    omega

/-- An interrupt takes a frame, and may call the driver. -/
theorem ReceiveInv.irq (h : ReceiveInv ring s) (hpc : s.pc = .idle) {pc : RxPc}
    (hpc' : pc = .idle ∨ pc = .clean s.rxSlot) :
    ReceiveInv ring { s with
      mbox := inboundRecvMsgPro ring s.mbox
      taken := s.taken + ((inboundRecvMsgPro ring s.mbox).deq - s.mbox.deq)
      pc := pc } := by
  have hpoint := h.point
  rw [hpc] at hpoint
  obtain ⟨hslot, hfilled, hfull⟩ := hpoint
  have hfilling : pc.filling = s.pc.filling := by
    rw [hpc]
    rcases hpc' with rfl | rfl
    · rfl
    · rfl
  have hnew : ∀ (m : RxState F ℕ) (taken : ℕ), RxDev.Point ring
      { s with mbox := m, taken := taken, pc := pc } pc := by
    intro m taken
    rcases hpc' with rfl | rfl
    · exact ⟨hslot, hfilled, hfull⟩
    · refine ⟨hslot, hfilled, hslot.trans ?_, hfull.imp_right Or.inl⟩
      rcases hfull with hfull | hdead
      · rw [hfull, Nat.add_mod_right]
      · rw [hdead]
  have hstep : ∀ d, (s.Dead ∨ (s.mbox.deq + d) % ring.size
      = (s.taken + d + s.handed.length) % ring.size) := by
    intro d
    refine h.step.imp_right fun heq => ?_
    rw [Nat.add_right_comm, Nat.add_mod, heq, ← Nat.add_mod]
  unfold inboundRecvMsgPro
  by_cases hempty : s.mbox.ifqdpar ring = s.mbox.ifqepar ring
  · rw [if_pos hempty, Nat.sub_self]
    refine ⟨h.le, h.room, h.handed, h.skb, h.buffer, h.free, h.slot, h.deq_le, h.queue, ?_,
      hnew _ _⟩
    unfold RxDev.Dead
    rw [hfilling]
    exact hstep 0
  · have hlt := lt_of_ifqdpar_ne h.deq_le hempty
    have hqueue := h.queue
    rw [if_neg hempty]
    refine ⟨h.le, h.room, h.handed, h.skb, h.buffer, h.free, h.slot, hlt, ?_, ?_, hnew _ _⟩
    · show s.mbox.arrived.length ≤ s.mbox.deq + 1 + ring.size
      omega
    · show RxDev.Dead _ ∨ (s.mbox.deq + 1) % ring.size
        = (s.taken + (s.mbox.deq + 1 - s.mbox.deq) + s.handed.length) % ring.size
      rw [Nat.add_sub_cancel_left]
      unfold RxDev.Dead
      rw [hfilling]
      exact hstep 1

/-- A round of `rionet_rx_fill` that finds memory. -/
theorem ReceiveInv.fill (h : ReceiveInv ring s) (hN : 0 < ring.size) {i last : ℕ}
    (hpc : s.pc = .fill i last) : ReceiveInv ring (rionetRxFill ring true s i last) := by
  have hle := h.le
  have hpoint := h.point
  rw [hpc] at hpoint
  obtain ⟨rfl, rfl, hroom⟩ := hpoint
  -- the slot is free
  have hfree := h.free s.allocs le_rfl hroom
  have hmbox : fslAddInbBuffer ring s.allocs s.mbox = { s.mbox with
      virtBuffer := Function.update s.mbox.virtBuffer (s.allocs % ring.size) (some s.allocs)
      rxSlot := (s.allocs + 1) % ring.size } := by
    unfold fslAddInbBuffer
    rw [h.slot, hfree]
    simp only [next_mod s.allocs hN]
  have hmod : (s.allocs % ring.size + 1) % ring.size = (s.allocs + 1) % ring.size := by
    rw [Nat.mod_add_mod]
  have hlive : s.mbox.deq % ring.size = (s.taken + s.handed.length) % ring.size := by
    refine h.step.resolve_left fun hdead => ?_
    have hfilling := hdead.2
    rw [hpc] at hfilling
    cases hfilling
  unfold rionetRxFill
  rw [if_pos rfl, hmbox, hmod]
  refine ⟨?_, ?_, h.handed, ?_, ?_, ?_, rfl, h.deq_le, h.queue, Or.inr hlive, ?_⟩
  · show s.handed.length ≤ s.allocs + 1
    omega
  · show s.allocs + 1 ≤ s.handed.length + ring.size
    omega
  · intro p hp hp'
    change p < s.allocs + 1 at hp
    change s.allocs + 1 ≤ p + ring.size at hp'
    show Function.update s.rxSkb (s.allocs % ring.size) (some s.allocs) (p % ring.size) = some p
    rcases Nat.lt_or_eq_of_le (Nat.le_of_lt_succ hp) with hlt | rfl
    · have hne : p % ring.size ≠ s.allocs % ring.size := mod_ne_mod hlt (by omega)
      rw [Function.update_of_ne hne]
      exact h.skb p hlt (by omega)
    · rw [Function.update_self]
  · intro p hp hp'
    change s.handed.length ≤ p at hp
    change p < s.allocs + 1 at hp'
    show Function.update s.mbox.virtBuffer (s.allocs % ring.size) (some s.allocs)
      (p % ring.size) = some p
    rcases Nat.lt_or_eq_of_le (Nat.le_of_lt_succ hp') with hlt | rfl
    · have hne : p % ring.size ≠ s.allocs % ring.size := mod_ne_mod hlt (by omega)
      rw [Function.update_of_ne hne]
      exact h.buffer p hp hlt
    · rw [Function.update_self]
  · intro p hp hp'
    change s.allocs + 1 ≤ p at hp
    change p < s.handed.length + ring.size at hp'
    show Function.update s.mbox.virtBuffer (s.allocs % ring.size) (some s.allocs)
      (p % ring.size) = none
    have hne : s.allocs % ring.size ≠ p % ring.size := mod_ne_mod hp (by omega)
    rw [Function.update_of_ne hne.symm]
    exact h.free p (by omega) hp'
  · by_cases hlast : (s.allocs + 1) % ring.size = s.handed.length % ring.size
    · -- the ring is full
      have hfull : s.allocs + 1 = s.handed.length + ring.size := by
        have hmod' : (s.allocs + 1) % ring.size = (s.handed.length + ring.size) % ring.size := by
          rw [hlast, Nat.add_mod_right]
        exact eq_of_mod_eq (s.handed.length + 1) (by omega) (by omega) (by omega) (by omega) hmod'
      simp only [if_pos hlast]
      refine ⟨rfl, ?_, Or.inl hfull⟩
      show ring.size ≤ s.allocs + 1
      omega
    · simp only [if_neg hlast]
      refine ⟨rfl, rfl, ?_⟩
      show s.allocs + 1 < s.handed.length + ring.size
      rcases Nat.lt_or_eq_of_le (show s.allocs + 1 ≤ s.handed.length + ring.size by omega) with
        hlt | heq
      · exact hlt
      · exact absurd (by rw [heq, Nat.add_mod_right]) hlast

/-- Whether a round of `rionet_rx_clean` hands up a socket buffer. -/
def RxDev.handsUp (ring : RxRing) (s : RxDev F) : Bool :=
  match s.pc with
  | .clean i => (s.rxSkb i).isSome && (fslGetInbMessage ring s.mbox).1.isSome
  | _ => false

/-- Frames are handed up in step: `InboundRecvMsgPro` has taken a multiple of the ring's size. -/
def InStep (ring : RxRing) (s : RxDev F) : RxEvent F → Prop
  | .clean => s.handsUp ring = true → s.taken % ring.size = 0
  | _ => True

instance (ring : RxRing) (s : RxDev F) : ∀ e, Decidable (InStep ring s e)
  | .clean => inferInstanceAs (Decidable (s.handsUp ring = true → s.taken % ring.size = 0))
  | .arrive _ | .irq _ | .fill => isTrue trivial

/-- The mailbox's index of the next frame. -/
theorem bufIdx_eq (m : RxState F B) :
    (m.ifqdpar ring - ring.phys) / rioMaxMsgSize = m.deq % ring.size :=
  bufIdx_frameAddr ring m.deq

/-- The end of `rionet_rx_clean`, at the slot of the next socket buffer. -/
theorem point_cleaned {u : RxDev F} (hle : u.handed.length ≤ u.allocs)
    (hroom : u.allocs ≤ u.handed.length + ring.size) (hslot : u.rxSlot = u.allocs % ring.size)
    (hfilled : ring.size ≤ u.allocs) :
    RxDev.Point ring (u.cleaned (u.handed.length % ring.size))
        (u.cleaned (u.handed.length % ring.size)).pc
      ∧ (u.handed.length = u.allocs →
        (u.cleaned (u.handed.length % ring.size)).pc.filling = false) := by
  unfold RxDev.cleaned
  by_cases heq : u.handed.length % ring.size = u.rxSlot
  · simp only [if_pos heq]
    refine ⟨⟨hslot, hfilled, ?_⟩, fun _ => rfl⟩
    show u.allocs = u.handed.length + ring.size ∨ u.handed.length = u.allocs
    rw [hslot] at heq
    rcases Nat.lt_or_eq_of_le hroom with hlt | hfull
    · exact Or.inr (eq_of_mod_eq u.handed.length le_rfl (by omega) hle hlt heq)
    · exact Or.inl hfull
  · simp only [if_neg heq]
    rw [hslot] at heq
    refine ⟨⟨hslot, rfl, ?_⟩, fun hdead => absurd (by rw [hdead]) heq⟩
    show u.allocs < u.handed.length + ring.size
    rcases Nat.lt_or_eq_of_le hroom with hlt | hfull
    · exact hlt
    · exact absurd (by rw [hfull, Nat.add_mod_right]) heq

/-- A round of `rionet_rx_clean` that hands up nothing. -/
theorem ReceiveInv.clean_none (h : ReceiveInv ring s) (hN : 0 < ring.size) {i : ℕ}
    (hpc : s.pc = .clean i) (hnone : (fslGetInbMessage ring s.mbox).1 = none) :
    ReceiveInv ring (rionetRxClean ring s i) ∧ (rionetRxClean ring s i).handed = s.handed
      ∧ (s.Dead → (rionetRxClean ring s i).Dead)
      ∧ (s.mbox.arrived.length = s.mbox.deq + ring.size →
          (rionetRxClean ring s i).mbox = s.mbox) := by
  have hpoint := h.point
  rw [hpc] at hpoint
  obtain ⟨hslot, hfilled, rfl, -⟩ := hpoint
  obtain ⟨p, hskb, -⟩ := h.exists_skb hN hpc
  unfold rionetRxClean
  rw [hskb]
  unfold fslGetInbMessage at hnone ⊢
  by_cases hempty : s.mbox.ifqdpar ring = s.mbox.ifqepar ring
  · rw [if_pos hempty]
    obtain ⟨hdone, hidle⟩ := point_cleaned h.le h.room hslot hfilled
    have hdead : s.Dead → RxDev.Dead (s.cleaned (s.handed.length % ring.size)) := fun hdead =>
      ⟨hdead.1, hidle hdead.1⟩
    exact ⟨⟨h.le, h.room, h.handed, h.skb, h.buffer, h.free, h.slot, h.deq_le, h.queue,
      h.step.imp_left hdead, hdone⟩, rfl, hdead, fun _ => rfl⟩
  · rw [if_neg hempty] at hnone ⊢
    have hlt := lt_of_ifqdpar_ne h.deq_le hempty
    have hqueue := h.queue
    rw [bufIdx_eq] at hnone ⊢
    -- only an empty ring has no memory for a frame
    have hdead : s.handed.length = s.allocs := by
      by_contra hlive
      obtain ⟨q, hq⟩ := h.exists_buffer hN hpc hlive
      simp only [hq] at hnone
      cases hnone
    have hfree := h.free_of_dead hN hdead s.mbox.deq
    simp only [hfree]
    obtain ⟨hdone, hidle⟩ := point_cleaned h.le h.room hslot hfilled
    refine ⟨⟨h.le, h.room, h.handed, h.skb, h.buffer, h.free, h.slot, hlt, ?_,
      Or.inl ⟨hdead, hidle hdead⟩, hdone⟩, rfl, fun _ => ⟨hdead, hidle hdead⟩, fun hfull => ?_⟩
    · show s.mbox.arrived.length ≤ s.mbox.deq + 1 + ring.size
      omega
    · -- the pointers of a full queue are equal
      exact absurd (by rw [ifqdpar_eq_iff, hfull, Nat.add_mod_right]) hempty

/-- A round of `rionet_rx_clean` that hands up a socket buffer: with which memory. -/
theorem ReceiveInv.clean_some (h : ReceiveInv ring s) (hN : 0 < ring.size) {i q : ℕ}
    (hpc : s.pc = .clean i) (hsome : (fslGetInbMessage ring s.mbox).1 = some q) :
    s.handed.length < s.allocs ∧ s.mbox.deq < s.mbox.arrived.length
      ∧ s.mbox.virtBuffer (s.mbox.deq % ring.size) = some q
      ∧ rionetRxClean ring s i = RxDev.nextClean ring { s with
          mbox := { s.mbox with
            copies := s.mbox.copies ++ [(q, s.mbox.virt (s.mbox.deq % ring.size))]
            virtBuffer := Function.update s.mbox.virtBuffer (s.mbox.deq % ring.size) none
            deq := s.mbox.deq + 1 }
          handed := s.handed ++ [(s.handed.length, q)] } i := by
  obtain ⟨p, hskb, hp⟩ := h.exists_skb hN hpc
  have hle := h.le
  unfold rionetRxClean
  rw [hskb]
  unfold fslGetInbMessage at hsome ⊢
  by_cases hempty : s.mbox.ifqdpar ring = s.mbox.ifqepar ring
  · rw [if_pos hempty] at hsome
    cases hsome
  · rw [if_neg hempty, bufIdx_eq] at hsome
    have hlt := lt_of_ifqdpar_ne h.deq_le hempty
    cases hbuf : s.mbox.virtBuffer (s.mbox.deq % ring.size) with
    | none =>
      simp only [hbuf] at hsome
      cases hsome
    | some q' =>
      simp only [hbuf] at hsome
      obtain rfl := Option.some.inj hsome
      have hlive : s.handed.length ≠ s.allocs := by
        intro hdead
        rw [h.free_of_dead hN hdead] at hbuf
        cases hbuf
      rw [if_neg hempty, bufIdx_eq, hp hlive]
      simp only [hbuf]
      exact ⟨by omega, hlt, trivial, trivial⟩

/-- A socket buffer that is handed up in step. -/
theorem ReceiveInv.clean_some_inStep (h : ReceiveInv ring s) (hN : 0 < ring.size) {i q : ℕ}
    (hpc : s.pc = .clean i) (hsome : (fslGetInbMessage ring s.mbox).1 = some q)
    (htaken : s.taken % ring.size = 0) : ReceiveInv ring (rionetRxClean ring s i) := by
  obtain ⟨hlive, hlt, hq, heq⟩ := h.clean_some hN hpc hsome
  have hpoint := h.point
  rw [hpc] at hpoint
  obtain ⟨hslot, hfilled, rfl, -⟩ := hpoint
  have hroom := h.room
  have hqueue := h.queue
  have hstep := h.step.resolve_left fun hdead => Nat.ne_of_lt hlive hdead.1
  have hdeq : s.mbox.deq % ring.size = s.handed.length % ring.size := by
    rw [hstep, Nat.add_mod, htaken, Nat.zero_add, Nat.mod_mod]
  -- it is its own memory
  obtain rfl : s.handed.length = q := by
    rw [hdeq, h.buffer _ le_rfl hlive] at hq
    exact Option.some.inj hq
  have hlen : (s.handed ++ [(s.handed.length, s.handed.length)]).length = s.handed.length + 1 := by
    simp
  have hmod : (s.handed.length % ring.size + 1) % ring.size
      = (s.handed.length + 1) % ring.size := by
    rw [Nat.mod_add_mod]
  have hnext : (s.mbox.deq + 1) % ring.size = (s.taken + (s.handed.length + 1)) % ring.size := by
    rw [Nat.add_mod, hstep, ← Nat.add_mod, Nat.add_assoc]
  rw [heq, hdeq]
  -- the ring behind it, wherever the driver goes on
  have hring : ∀ pc : RxPc, RxDev.Point ring { s with
        handed := s.handed ++ [(s.handed.length, s.handed.length)] } pc →
      ReceiveInv ring { s with
        mbox := { s.mbox with
          copies := s.mbox.copies
            ++ [(s.handed.length, s.mbox.virt (s.handed.length % ring.size))]
          virtBuffer := Function.update s.mbox.virtBuffer (s.handed.length % ring.size) none
          deq := s.mbox.deq + 1 }
        handed := s.handed ++ [(s.handed.length, s.handed.length)]
        pc := pc } := by
    intro pc hpoint
    refine ⟨?_, ?_, ?_, h.skb, ?_, ?_, h.slot, hlt, ?_, Or.inr ?_, hpoint⟩
    · show (s.handed ++ [(s.handed.length, s.handed.length)]).length ≤ s.allocs
      omega
    · show s.allocs ≤ (s.handed ++ [(s.handed.length, s.handed.length)]).length + ring.size
      omega
    · show s.handed ++ [(s.handed.length, s.handed.length)]
        = (List.range (s.handed ++ [(s.handed.length, s.handed.length)]).length).map _
      rw [hlen, List.range_succ, List.map_append, ← h.handed]
      rfl
    · intro p hp hp'
      change (s.handed ++ [(s.handed.length, s.handed.length)]).length ≤ p at hp
      change p < s.allocs at hp'
      have hne : s.handed.length % ring.size ≠ p % ring.size := mod_ne_mod (by omega) (by omega)
      show Function.update s.mbox.virtBuffer (s.handed.length % ring.size) none _ = _
      rw [Function.update_of_ne hne.symm]
      exact h.buffer p (by omega) hp'
    · intro p hp hp'
      change s.allocs ≤ p at hp
      change p < (s.handed ++ [(s.handed.length, s.handed.length)]).length + ring.size at hp'
      show Function.update s.mbox.virtBuffer (s.handed.length % ring.size) none _ = none
      by_cases hlast : p = s.handed.length + ring.size
      · rw [hlast, Nat.add_mod_right, Function.update_self]
      · have hne : s.handed.length % ring.size ≠ p % ring.size := mod_ne_mod (by omega) (by omega)
        rw [Function.update_of_ne hne.symm]
        exact h.free p hp (by omega)
    · show s.mbox.arrived.length ≤ s.mbox.deq + 1 + ring.size
      omega
    · show (s.mbox.deq + 1) % ring.size
        = (s.taken + (s.handed ++ [(s.handed.length, s.handed.length)]).length) % ring.size
      rw [hlen]
      exact hnext
  unfold RxDev.nextClean RxDev.cleaned
  dsimp only
  rw [hmod]
  by_cases hlast : (s.handed.length + 1) % ring.size = s.rxSlot
  · -- the last one: the ring is empty
    rw [if_pos hlast, if_pos hlast]
    apply hring
    refine ⟨hslot, hfilled, Or.inr ?_⟩
    rw [hslot] at hlast
    show (s.handed ++ [(s.handed.length, s.handed.length)]).length = s.allocs
    rw [hlen]
    exact eq_of_mod_eq (s.handed.length + 1) le_rfl (by omega) (by omega) (by omega) hlast
  · rw [if_neg hlast]
    apply hring
    refine ⟨hslot, hfilled, ?_, Or.inr (Or.inr htaken)⟩
    show _ = (s.handed ++ [(s.handed.length, s.handed.length)]).length % ring.size
    rw [hlen]

/-- Where a round of `rionet_rx_clean` is taken. -/
theorem clean_of_step (hstep : receiveStep ring alloc s .clean = some t) :
    ∃ i, s.pc = .clean i ∧ t = rionetRxClean ring s i := by
  cases hpc : s.pc with
  | clean i =>
    simp only [receiveStep, hpc] at hstep
    exact ⟨i, rfl, (Option.some.inj hstep).symm⟩
  | idle =>
    simp only [receiveStep, hpc] at hstep
    cases hstep
  | fill i last =>
    simp only [receiveStep, hpc] at hstep
    cases hstep

/-- Where a round of `rionet_rx_fill` is taken. -/
theorem fill_of_step (halloc : ∀ n, alloc n = true)
    (hstep : receiveStep ring alloc s .fill = some t) :
    ∃ i last, s.pc = .fill i last ∧ t = rionetRxFill ring true s i last := by
  cases hpc : s.pc with
  | fill i last =>
    simp only [receiveStep, hpc, halloc] at hstep
    exact ⟨i, last, rfl, (Option.some.inj hstep).symm⟩
  | idle =>
    simp only [receiveStep, hpc] at hstep
    cases hstep
  | clean i =>
    simp only [receiveStep, hpc] at hstep
    cases hstep

/-- What a round finds in the mailbox is handed up. -/
theorem ReceiveInv.handsUp_iff (h : ReceiveInv ring s) (hN : 0 < ring.size) {i : ℕ}
    (hpc : s.pc = .clean i) :
    s.handsUp ring = true ↔ ∃ q, (fslGetInbMessage ring s.mbox).1 = some q := by
  obtain ⟨p, hskb, -⟩ := h.exists_skb hN hpc
  unfold RxDev.handsUp
  simp only [hpc, hskb, Option.isSome_some, Bool.true_and, Option.isSome_iff_exists]

/-- **One step** in step keeps the rings in step. -/
theorem ReceiveInv.receive (h : ReceiveInv ring s) (hN : 0 < ring.size)
    (halloc : ∀ n, alloc n = true) {e : RxEvent F} (hg : InStep ring s e)
    (hstep : receiveStep ring alloc s e = some t) : ReceiveInv ring t := by
  cases e with
  | arrive frame =>
    obtain ⟨m, hm, rfl⟩ := Option.map_eq_some_iff.mp hstep
    exact h.arrive hm
  | irq isr =>
    simp only [receiveStep] at hstep
    split at hstep
    · cases hstep
    · rename_i hpc
      rw [not_not] at hpc
      split at hstep
      · obtain rfl := Option.some.inj hstep
        exact h
      · obtain rfl := Option.some.inj hstep
        apply h.irq hpc
        split
        · exact Or.inr rfl
        · exact Or.inl rfl
  | clean =>
    obtain ⟨i, hpc, rfl⟩ := clean_of_step hstep
    cases hget : (fslGetInbMessage ring s.mbox).1 with
    | none => exact (h.clean_none hN hpc hget).1
    | some q =>
      exact h.clean_some_inStep hN hpc hget (hg ((h.handsUp_iff hN hpc).mpr ⟨q, hget⟩))
  | fill =>
    obtain ⟨i, last, hpc, rfl⟩ := fill_of_step halloc hstep
    exact h.fill hN hpc

/-- What a round of `rionet_rx_clean` hands up. -/
theorem ReceiveInv.handed_clean (h : ReceiveInv ring s) (hN : 0 < ring.size) {i q : ℕ}
    (hpc : s.pc = .clean i) (hsome : (fslGetInbMessage ring s.mbox).1 = some q) :
    (rionetRxClean ring s i).handed = s.handed ++ [(s.handed.length, q)] := by
  obtain ⟨-, -, -, heq⟩ := h.clean_some hN hpc hsome
  rw [heq]
  unfold RxDev.nextClean RxDev.cleaned
  split
  · rfl
  · rfl

/-- **Out of step** a socket buffer is handed up with the memory of another one. -/
theorem ReceiveInv.inStep_of_own (h : ReceiveInv ring s) (hN : 0 < ring.size) {e : RxEvent F}
    (hstep : receiveStep ring alloc s e = some t) (howned : ∀ x ∈ t.handed, x.2 = x.1) :
    InStep ring s e := by
  cases e with
  | arrive | irq | fill => trivial
  | clean =>
    intro hhands
    obtain ⟨i, hpc, rfl⟩ := clean_of_step hstep
    obtain ⟨q, hget⟩ := (h.handsUp_iff hN hpc).mp hhands
    obtain ⟨hlive, -, hq, -⟩ := h.clean_some hN hpc hget
    have hroom := h.room
    have hown : q = s.handed.length := by
      refine howned (s.handed.length, q) ?_
      rw [h.handed_clean hN hpc hget]
      simp
    -- the memory tells the mailbox's slot
    obtain ⟨p, hp, hp', hmod⟩ := exists_mod_eq hN s.handed.length s.mbox.deq
    have hps : p = s.handed.length := by
      by_cases hlt : p < s.allocs
      · have hbuf := h.buffer p hp hlt
        rw [hmod, hq] at hbuf
        exact (Option.some.inj hbuf).symm.trans hown
      · have hfree := h.free p (Nat.le_of_not_lt hlt) hp'
        rw [hmod, hq] at hfree
        cases hfree
    have hdeq := h.step.resolve_left fun hdead => Nat.ne_of_lt hlive hdead.1
    rw [← hmod, hps] at hdeq
    have hzero : 0 + s.handed.length ≡ s.taken + s.handed.length [MOD ring.size] := by
      rw [Nat.zero_add]
      exact hdeq
    have htaken : 0 % ring.size = s.taken % ring.size := Nat.ModEq.add_right_cancel' _ hzero
    rw [← htaken, Nat.zero_mod]

/-- **Receiving soundly.**  On every ring, while `dev_alloc_skb` succeeds, in every state of a run
    each socket buffer that was handed up was handed up once and with its own memory, if and only
    if frames are handed up only while the number of those that `InboundRecvMsgPro` has taken is a
    multiple of the ring's size; if not, some state of the run has handed one up with the memory of
    another. -/
theorem sound_iff_guarded (hN : 0 < ring.size) (halloc : ∀ n, alloc n = true) (virt : ℕ → F)
    (run : List (RxEvent F)) (s : RxDev F)
    (hrun : exec (receiveStep ring alloc) (receiveInit virt) run = some s) :
    (Always (receiveStep ring alloc) RxDev.Sound (receiveInit virt) run
        ↔ Guarded (receiveStep ring alloc) (InStep ring) (receiveInit virt) run)
      ∧ (¬Guarded (receiveStep ring alloc) (InStep ring) (receiveInit virt) run →
        ∃ pre post t, run = pre ++ post
          ∧ exec (receiveStep ring alloc) (receiveInit virt) pre = some t
          ∧ ∃ x ∈ t.handed, x.2 ≠ x.1) := by
  have hinit := receiveInv_init hN virt
  constructor
  · exact always_iff_guarded (fun _ h => h.sound)
      (fun _ _ _ h hg hstep => ReceiveInv.receive h hN halloc hg hstep)
      (fun _ _ _ h hstep hsound => ReceiveInv.inStep_of_own h hN hstep hsound.2) hinit hrun
  · -- the memory alone tells whether the run is in step
    have hown : Always (receiveStep ring alloc) (fun t => ∀ x ∈ t.handed, x.2 = x.1)
        (receiveInit virt) run
          ↔ Guarded (receiveStep ring alloc) (InStep ring) (receiveInit virt) run :=
      always_iff_guarded (fun _ h => h.sound.2)
        (fun _ _ _ h hg hstep => ReceiveInv.receive h hN halloc hg hstep)
        (fun _ _ _ h hstep howned => ReceiveInv.inStep_of_own h hN hstep howned) hinit hrun
    intro hnot
    by_contra hnone
    refine hnot (hown.mp fun pre post t hsplit ht x hx => ?_)
    by_contra hother
    exact hnone ⟨pre, post, t, hsplit, ht, x, hx, hother⟩

/-- The smallest ring, its callback registered. -/
def ringOfTwo : RxRing := ⟨2, 0, true⟩

/-- Two frames are there when the first interrupt comes. -/
def twoAtOnce : List (RxEvent Unit) :=
  [.fill, .fill, .arrive (), .irq rioMsgIsrDiqi, .arrive (), .clean]

theorem not_sound_twoAtOnce :
    ¬Always (receiveStep ringOfTwo fun _ => true) RxDev.Sound (receiveInit fun _ => ())
      twoAtOnce := by
  have hsome : (exec (receiveStep ringOfTwo fun _ => true) (receiveInit fun _ => ())
      twoAtOnce).isSome = true := by decide +kernel
  obtain ⟨s, hs⟩ := Option.isSome_iff_exists.mp hsome
  rw [(sound_iff_guarded (by decide) (fun _ => rfl) (fun _ => ()) twoAtOnce s hs).1]
  decide +kernel

/-! ### When nothing is received any more -/

/-- A socket buffer can still be handed up. -/
def Receives (ring : RxRing) (alloc : ℕ → Bool) (s : RxDev F) : Prop :=
  ∃ later t, exec (receiveStep ring alloc) s later = some t
    ∧ s.handed.length < t.handed.length

/-- The ring is empty for ever, or the queue is full, which looks as if it were empty. -/
def RxDev.Lost (ring : RxRing) (s : RxDev F) : Prop :=
  s.Dead ∨ s.mbox.arrived.length = s.mbox.deq + ring.size

/-- There, nothing is found in the mailbox. -/
theorem ReceiveInv.get_of_lost (h : ReceiveInv ring s) (hN : 0 < ring.size)
    (hlost : s.Lost ring) : (fslGetInbMessage ring s.mbox).1 = none := by
  unfold fslGetInbMessage
  by_cases hempty : s.mbox.ifqdpar ring = s.mbox.ifqepar ring
  · rw [if_pos hempty]
  · rw [if_neg hempty, bufIdx_eq]
    rcases hlost with hdead | hfull
    · simp only [h.free_of_dead hN hdead.1]
    · exact absurd (by rw [ifqdpar_eq_iff, hfull, Nat.add_mod_right]) hempty

/-- **Every step** from there leads there, and hands up nothing. -/
theorem ReceiveInv.lost_step (h : ReceiveInv ring s) (hN : 0 < ring.size)
    (halloc : ∀ n, alloc n = true) (hlost : s.Lost ring) {e : RxEvent F}
    (hstep : receiveStep ring alloc s e = some t) :
    ReceiveInv ring t ∧ t.Lost ring ∧ t.handed = s.handed := by
  have hget := h.get_of_lost hN hlost
  have hg : InStep ring s e := by
    cases e with
    | arrive | irq | fill => trivial
    | clean =>
      intro hhands
      unfold RxDev.handsUp at hhands
      rw [hget] at hhands
      split at hhands
      · rw [Option.isSome_none, Bool.and_false] at hhands
        cases hhands
      · cases hhands
  refine ⟨h.receive hN halloc hg hstep, ?_⟩
  cases e with
  | arrive frame =>
    obtain ⟨m, hm, rfl⟩ := Option.map_eq_some_iff.mp hstep
    rw [rxStep, Option.ite_none_right_eq_some] at hm
    rcases hlost with hdead | hfull
    · exact ⟨Or.inl hdead, rfl⟩
    · exact absurd hfull (Nat.ne_of_lt hm.1)
  | irq isr =>
    simp only [receiveStep] at hstep
    split at hstep
    · cases hstep
    · split at hstep
      · obtain rfl := Option.some.inj hstep
        exact ⟨hlost, rfl⟩
      · obtain rfl := Option.some.inj hstep
        refine ⟨?_, rfl⟩
        rcases hlost with hdead | hfull
        · refine Or.inl ⟨hdead.1, ?_⟩
          dsimp only
          split
          · rfl
          · rfl
        · have hempty : s.mbox.ifqdpar ring = s.mbox.ifqepar ring := by
            rw [ifqdpar_eq_iff, hfull, Nat.add_mod_right]
          unfold inboundRecvMsgPro
          rw [if_pos hempty]
          exact Or.inr hfull
  | clean =>
    obtain ⟨i, hpc, rfl⟩ := clean_of_step hstep
    obtain ⟨-, hhanded, hdead', hfull'⟩ := h.clean_none hN hpc hget
    refine ⟨?_, hhanded⟩
    rcases hlost with hdead | hfull
    · exact Or.inl (hdead' hdead)
    · refine Or.inr ?_
      rw [hfull' hfull]
      exact hfull
  | fill =>
    obtain ⟨i, last, hpc, rfl⟩ := fill_of_step halloc hstep
    refine ⟨?_, rfl⟩
    rcases hlost with hdead | hfull
    · have hfilling := hdead.2
      rw [hpc] at hfilling
      cases hfilling
    · refine Or.inr ?_
      unfold rionetRxFill fslAddInbBuffer
      rw [if_pos rfl]
      split
      · exact hfull
      · exact hfull

/-- The driver hands up what comes while it looks. -/
theorem ReceiveInv.receives_of_clean (h : ReceiveInv ring s) (alloc : ℕ → Bool)
    (hN : 2 ≤ ring.size) {i : ℕ} (hpc : s.pc = .clean i) (hlive : s.handed.length ≠ s.allocs)
    (hroom : s.mbox.arrived.length < s.mbox.deq + ring.size) : Receives ring alloc s := by
  have hclean : ∀ u : RxDev F, u.pc = .clean i →
      receiveStep ring alloc u .clean = some (rionetRxClean ring u i) := by
    intro u hu
    simp only [receiveStep, hu]
  cases hget : (fslGetInbMessage ring s.mbox).1 with
  | some q =>
    refine ⟨[.clean], rionetRxClean ring s i, ?_, ?_⟩
    · rw [exec_cons, hclean s hpc]
      rfl
    · rw [h.handed_clean (by omega) hpc hget]
      simp
  | none =>
    obtain ⟨q, hq⟩ := h.exists_buffer (by omega) hpc hlive
    -- nothing has arrived
    have hempty : s.mbox.arrived.length = s.mbox.deq := by
      unfold fslGetInbMessage at hget
      by_cases hptr : s.mbox.ifqdpar ring = s.mbox.ifqepar ring
      · rw [ifqdpar_eq_iff] at hptr
        exact (eq_of_mod_eq s.mbox.deq le_rfl (by omega) h.deq_le hroom hptr).symm
      · rw [if_neg hptr, bufIdx_eq] at hget
        simp only [hq] at hget
        cases hget
    obtain ⟨m, hm⟩ : ∃ m, rxStep ring s.mbox (.arrive (s.mbox.virt 0)) = some m := by
      rw [rxStep, if_pos hroom]
      exact ⟨_, rfl⟩
    have harrive : receiveStep ring alloc s (.arrive (s.mbox.virt 0))
        = some { s with mbox := m } := by
      rw [receiveStep, hm]
      rfl
    have hinv := h.arrive hm
    obtain ⟨q', hget'⟩ : ∃ q', (fslGetInbMessage ring m).1 = some q' := by
      rw [rxStep, if_pos hroom] at hm
      obtain rfl := Option.some.inj hm
      have hne : s.mbox.deq % ring.size
          ≠ (s.mbox.arrived ++ [s.mbox.virt 0]).length % ring.size := by
        rw [List.length_append, hempty]
        exact mod_ne_mod (Nat.lt_succ_self _) (Nat.add_lt_add_left (Nat.lt_of_succ_le hN) _)
      unfold fslGetInbMessage
      rw [if_neg ((ifqdpar_eq_iff _).not.mpr hne), bufIdx_eq]
      simp only [hq]
      exact ⟨q, rfl⟩
    refine ⟨[.arrive (s.mbox.virt 0), .clean], rionetRxClean ring { s with mbox := m } i, ?_, ?_⟩
    · rw [exec_cons, harrive, Option.bind_some, exec_cons, hclean { s with mbox := m } hpc]
      rfl
    · rw [hinv.handed_clean (by omega) hpc hget']
      simp

/-- The driver fills its ring to the end. -/
theorem ReceiveInv.exists_filled (h : ReceiveInv ring s) (hN : 0 < ring.size)
    (halloc : ∀ n, alloc n = true) {i last : ℕ} (hpc : s.pc = .fill i last) :
    ∃ run t, exec (receiveStep ring alloc) s run = some t ∧ ReceiveInv ring t ∧ t.pc = .idle
      ∧ t.handed = s.handed ∧ t.mbox.arrived = s.mbox.arrived ∧ t.mbox.deq = s.mbox.deq
      ∧ s.allocs < t.allocs := by
  obtain ⟨n, hn⟩ : ∃ n, s.handed.length + ring.size ≤ s.allocs + n :=
    ⟨s.handed.length + ring.size, Nat.le_add_left _ _⟩
  induction n generalizing s i last with
  | zero =>
    have hpoint := h.point
    rw [hpc] at hpoint
    have hlt := hpoint.2.2
    omega
  | succ n ih =>
    have hstep : receiveStep ring alloc s .fill = some (rionetRxFill ring true s i last) := by
      simp only [receiveStep, hpc, halloc]
    have hinv := h.fill hN hpc
    have harrived : (rionetRxFill ring true s i last).mbox.arrived = s.mbox.arrived
        ∧ (rionetRxFill ring true s i last).mbox.deq = s.mbox.deq := by
      unfold rionetRxFill fslAddInbBuffer
      rw [if_pos rfl]
      split
      · exact ⟨rfl, rfl⟩
      · exact ⟨rfl, rfl⟩
    by_cases hlast : (i + 1) % ring.size = last
    · refine ⟨[.fill], _, ?_, hinv, ?_, rfl, harrived.1, harrived.2, Nat.lt_succ_self _⟩
      · rw [exec_cons, hstep]
        rfl
      · exact if_pos hlast
    · have hpc' : (rionetRxFill ring true s i last).pc = .fill ((i + 1) % ring.size) last :=
        if_neg hlast
      obtain ⟨run, t, hrun, ht, hidle, hhanded, harr, hdeq, hlt⟩ := ih hinv hpc' (by
        show s.handed.length + ring.size ≤ s.allocs + 1 + n
        omega)
      refine ⟨.fill :: run, t, ?_, ht, hidle, hhanded, harr.trans harrived.1,
        hdeq.trans harrived.2, (Nat.lt_succ_self _).trans hlt⟩
      rw [exec_cons, hstep]
      exact hrun

/-- An interrupt in which nothing is lost. -/
theorem ReceiveInv.receives_of_idle (h : ReceiveInv ring s) (alloc : ℕ → Bool)
    (hN : 2 ≤ ring.size) (hpc : s.pc = .idle) (hlive : s.handed.length ≠ s.allocs)
    (hroom : s.mbox.arrived.length < s.mbox.deq + ring.size) : Receives ring alloc s := by
  have hirq : receiveStep ring alloc s (.irq rioMsgIsrDiqi) = some { s with
      mbox := inboundRecvMsgPro ring s.mbox
      taken := s.taken + ((inboundRecvMsgPro ring s.mbox).deq - s.mbox.deq)
      pc := .clean s.rxSlot } := by
    rw [receiveStep, if_neg (not_not.mpr hpc), if_neg (by decide), if_pos (by decide)]
  have hinv := h.irq hpc (Or.inr rfl)
  have hroom' : (inboundRecvMsgPro ring s.mbox).arrived.length
      < (inboundRecvMsgPro ring s.mbox).deq + ring.size := by
    unfold inboundRecvMsgPro
    split
    · exact hroom
    · show s.mbox.arrived.length < s.mbox.deq + 1 + ring.size
      omega
  obtain ⟨later, t, hlater, hlt⟩ := hinv.receives_of_clean alloc hN rfl hlive hroom'
  refine ⟨.irq rioMsgIsrDiqi :: later, t, ?_, hlt⟩
  rw [exec_cons, hirq]
  exact hlater

/-- **Receiving for ever.**  On every ring that the mailbox accepts, in every state of a run in
    step: a socket buffer can still be handed up if and only if the driver's ring has not been
    emptied as a whole, and the mailbox's queue is not full. -/
theorem receives_iff (hN : 2 ≤ ring.size) (halloc : ∀ n, alloc n = true) (virt : ℕ → F)
    (run : List (RxEvent F)) (s : RxDev F)
    (hguard : Guarded (receiveStep ring alloc) (InStep ring) (receiveInit virt) run)
    (hrun : exec (receiveStep ring alloc) (receiveInit virt) run = some s) :
    Receives ring alloc s ↔ ¬s.Dead ∧ s.mbox.arrived.length < s.mbox.deq + ring.size := by
  have hpos : 0 < ring.size := by omega
  have h : ReceiveInv ring s := exec_invariant
    (fun _ _ _ h hg hstep => ReceiveInv.receive h hpos halloc hg hstep) run _ s
    (receiveInv_init hpos virt) hguard hrun
  constructor
  · rintro ⟨later, t, hlater, hlt⟩
    by_contra hnot
    have hlost : s.Lost ring := by
      have hqueue := h.queue
      unfold RxDev.Lost
      by_cases hdead : s.Dead
      · exact Or.inl hdead
      · refine Or.inr ?_
        have hroom : ¬s.mbox.arrived.length < s.mbox.deq + ring.size := fun hroom =>
          hnot ⟨hdead, hroom⟩
        omega
    have hend := @exec_invariant _ _ (receiveStep ring alloc) (fun _ _ => True)
      (fun u => ReceiveInv ring u ∧ u.Lost ring ∧ u.handed = s.handed)
      (fun u _ v hu _ hstep => by
        obtain ⟨hv, hvlost, hsame⟩ := hu.1.lost_step hpos halloc hu.2.1 hstep
        exact ⟨hv, hvlost, hsame.trans hu.2.2⟩)
      later s t ⟨h, hlost, rfl⟩ (Guarded.of_labels later (fun _ _ => trivial) s) hlater
    rw [hend.2.2] at hlt
    exact lt_irrefl _ hlt
  · rintro ⟨hdead, hroom⟩
    cases hpc : s.pc with
    | idle =>
      refine h.receives_of_idle alloc hN hpc (fun heq => hdead ⟨heq, ?_⟩) hroom
      rw [hpc]
      rfl
    | clean i =>
      refine h.receives_of_clean alloc hN hpc (fun heq => hdead ⟨heq, ?_⟩) hroom
      rw [hpc]
      rfl
    | fill i last =>
      obtain ⟨run', t, hrun', ht, hidle, hhanded, harrived, hdeq, hlt⟩ :=
        h.exists_filled hpos halloc hpc
      have hle := h.le
      have hlive : t.handed.length ≠ t.allocs := by
        rw [hhanded]
        omega
      have hroom' : t.mbox.arrived.length < t.mbox.deq + ring.size := by
        rw [harrived, hdeq]
        exact hroom
      obtain ⟨later, u, hlater, hgrow⟩ := ht.receives_of_idle alloc hN hidle hlive hroom'
      refine ⟨run' ++ later, u, ?_, hhanded ▸ hgrow⟩
      rw [exec_append, hrun']
      exact hlater

/-- In the second interrupt a whole ring of frames is handed up. -/
def ringEmptied : List (RxEvent Unit) :=
  [.fill, .fill, .arrive (), .irq rioMsgIsrDiqi, .clean, .arrive (), .irq rioMsgIsrDiqi, .arrive (),
    .clean, .arrive (), .clean]

theorem not_receives_ringEmptied :
    ∃ s, exec (receiveStep ringOfTwo fun _ => true) (receiveInit fun _ => ()) ringEmptied = some s
      ∧ ¬Receives ringOfTwo (fun _ => true) s := by
  have hend : (exec (receiveStep ringOfTwo fun _ => true) (receiveInit fun _ => ())
      ringEmptied).map (fun s => (s.handed.length, s.allocs, s.pc)) = some (2, 2, .idle) := by
    decide +kernel
  obtain ⟨s, hs, hvalues⟩ := Option.map_eq_some_iff.mp hend
  obtain ⟨hhanded, hallocs, hpc⟩ := Prod.mk.inj hvalues |>.imp_right Prod.mk.inj
  refine ⟨s, hs, ?_⟩
  rw [receives_iff (by decide) (fun _ => rfl) (fun _ => ()) ringEmptied s (by decide +kernel) hs]
  rintro ⟨hlive, -⟩
  refine hlive ⟨hhanded.trans hallocs.symm, ?_⟩
  rw [hpc]
  rfl

end Vpx3.Eth
