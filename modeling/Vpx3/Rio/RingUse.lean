import Vpx3.Rio.Residue

namespace Vpx3.Rio

open Exec Slots

/-!
# Outbound ring — two functions, one cursor

`OutBoundSendMsg` and `fsl_add_outb_message` fill the same ring and advance the same `tx_slot`.

* `RingCall` — a call of either; `RingCall.send` — what an accepted one does;
* `ringStep` — the machine of such calls, which counts those that were accepted;
* `Placed` — a message and its descriptor stand in one slot, and nothing else has changed;
* `RingUse` — the bookkeeping around one call;
* `ringUse` — it is right for every call of every run on a ring once opened.
-/

/-- A call of one of the two functions. -/
inductive RingCall where
  | outBoundSendMsg (call : SendCall)
  | fslAddOutbMessage (args : SendArgs) (buffer : ℕ → BitVec 8)

namespace RingCall

/-- The return value of a call and the state it leaves. -/
def run : RingCall → Rmu → Int × Rmu
  | outBoundSendMsg call, s => call.run s
  | fslAddOutbMessage args buffer, s =>
    Rio.fslAddOutbMessage args.index args.destid args.mbox buffer args.size s

/-- The bytes that a call sends. -/
def src : RingCall → ℕ → BitVec 8
  | outBoundSendMsg _ => fun _ => 0x1
  | fslAddOutbMessage _ buffer => buffer

def args : RingCall → SendArgs
  | outBoundSendMsg call => call.args
  | fslAddOutbMessage args _ => args

/-- What a call leaves as the descriptor's source address: `OutBoundSendMsg` does not store it,
    and `phys` is the address of the slot's buffer. -/
def saddr : RingCall → BitVec 32 → TxDesc → BitVec 32
  | outBoundSendMsg _, _, desc => desc.saddr
  | fslAddOutbMessage _ _, phys, _ => 0x00000004 ||| phys

/-- What an accepted call does to an open ring. -/
def send (c : RingCall) (s : Rmu) : Rmu :=
  let phys := s.msgTxRing.physBuffer s.msgTxRing.txSlot
  let fill := fun desc => { c.args.fill desc with saddr := c.saddr phys desc }
  nextSlot (writeMui (storeDesc fill (storeBuffer c.src c.args.size s)))

/-- A call is refused and changes nothing, or it is accepted and sends. -/
theorem run_cases (c : RingCall) {s : Rmu} (hflag : s.uiOpenFlag = true) :
    ((c.run s).1 < 0 ∧ (c.run s).2 = s) ∨ c.args.Sized ∧ c.run s = (0, c.send s) := by
  cases c with
  | outBoundSendMsg call =>
    rcases call.run_cases s with ⟨-, hneg, hsame⟩ | ⟨hacc, -⟩
    · exact Or.inl ⟨hneg, hsame⟩
    · exact Or.inr ⟨hacc.2, SendCall.run_of_open hacc hflag⟩
  | fslAddOutbMessage args buffer =>
    by_cases hsized : args.Sized
    · exact Or.inr ⟨hsized, if_neg hsized⟩
    · have hrun : Rio.fslAddOutbMessage args.index args.destid args.mbox buffer args.size s
          = (-einval, s) := if_pos (not_not.mp hsized)
      rw [run, hrun]
      exact Or.inl ⟨neg_errno.1, rfl⟩

end RingCall

/-! ### The machine -/

/-- The message unit, and how many messages have been accepted. -/
structure RingState where
  rmu : Rmu
  accepted : ℕ

/-- One call more. -/
def RingState.after (s : RingState) (c : RingCall) : RingState where
  rmu := (c.run s.rmu).2
  accepted := if (c.run s.rmu).1 = 0 then s.accepted + 1 else s.accepted

/-- The machine. -/
def ringStep (s : RingState) (c : RingCall) : Option RingState := some (s.after c)

/-- Behind the open, with the flag set by which `OutBoundSendMsg` does not open the ring again. -/
def ringInit (rmu : Rmu) : RingState where
  rmu := { rmu with uiOpenFlag := true }
  accepted := 0

/-- The message of a call stands in `slot`, and `OMR[MUI]` has been written once for it.  The
    other slots, and the fields of the ring but its cursor, are as they were. -/
structure Placed (c : RingCall) (slot : ℕ) (s t : Rmu) : Prop where
  /-- The buffer starts with the bytes of the message. -/
  message : ∀ k < c.args.size, t.msgTxRing.virtBuffer slot k = c.src k
  /-- Behind a message that leaves more than four bytes it is zero to its end. -/
  cleared : c.args.size < rioMaxMsgSize - 4 → ∀ k, c.args.size ≤ k → k < rioMaxMsgSize →
    t.msgTxRing.virtBuffer slot k = 0
  /-- The memory behind a longer message, and that behind the buffer, is as it was. -/
  behind : ∀ k, c.args.size ≤ k → rioMaxMsgSize - 4 ≤ c.args.size ∨ rioMaxMsgSize ≤ k →
    t.msgTxRing.virtBuffer slot k = s.msgTxRing.virtBuffer slot k
  dport : (t.msgTxRing.virt slot).dport
    = (c.args.destid.setWidth 32 <<< 16) ||| (c.args.mbox &&& 0x3)
  dattr : (t.msgTxRing.virt slot).dattr = 0x28000000 ||| (c.args.index.setWidth 32 <<< 20)
  /-- The transfer length is the least power of two not below the size. -/
  dwcnt : IsLeast {n | c.args.size ≤ n ∧ n.isPowerOfTwo} (t.msgTxRing.virt slot).dwcnt.toNat
  saddr : (t.msgTxRing.virt slot).saddr
    = c.saddr (s.msgTxRing.physBuffer slot) (s.msgTxRing.virt slot)
  others : ∀ j, j ≠ slot → t.msgTxRing.virtBuffer j = s.msgTxRing.virtBuffer j
    ∧ t.msgTxRing.virt j = s.msgTxRing.virt j
  fields : t.msgTxRing = { s.msgTxRing with
    virtBuffer := t.msgTxRing.virtBuffer, virt := t.msgTxRing.virt, txSlot := t.msgTxRing.txSlot }
  omr : t.omr = s.omr ||| rioMsgOmrMui
  mui : t.mui = s.mui + 1

/-- The bookkeeping around one call on a ring of `entries` slots. -/
structure RingUse (entries : ℕ) (s : RingState) (c : RingCall) : Prop where
  size : s.rmu.msgTxRing.size = entries
  slot : s.rmu.msgTxRing.txSlot < entries
  /-- An accepted message goes to the slot of its number. -/
  accepted : (c.run s.rmu).1 = 0 → Placed c (s.accepted % entries) s.rmu (c.run s.rmu).2
  /-- A call that returns `-EINVAL`, or gets no scratch buffer, changes nothing. -/
  refused : (c.run s.rmu).1 ≠ 0 → (c.run s.rmu).2 = s.rmu

/-! ### The invariant -/

/-- The cursor follows the count. -/
structure RingInv (entries mui : ℕ) (s : RingState) : Prop where
  flag : s.rmu.uiOpenFlag = true
  size : s.rmu.msgTxRing.size = entries
  pos : 0 < entries
  slot : s.rmu.msgTxRing.txSlot = s.accepted % entries
  mui : s.rmu.mui = mui + s.accepted

variable {entries mui : ℕ} {s : RingState} {c : RingCall}

/-- The slot at the cursor behind a send. -/
theorem RingCall.virtBuffer_send (c : RingCall) (s : Rmu) :
    (c.send s).msgTxRing.virtBuffer s.msgTxRing.txSlot
      = copyAndClear c.src c.args.size (s.msgTxRing.virtBuffer s.msgTxRing.txSlot) :=
  Function.update_self ..

theorem RingCall.virt_send (c : RingCall) (s : Rmu) :
    (c.send s).msgTxRing.virt s.msgTxRing.txSlot
      = { c.args.fill (s.msgTxRing.virt s.msgTxRing.txSlot) with
          saddr := c.saddr (s.msgTxRing.physBuffer s.msgTxRing.txSlot)
            (s.msgTxRing.virt s.msgTxRing.txSlot) } :=
  Function.update_self ..

/-- An accepted call places its message where the cursor stands. -/
theorem placed_send {c : RingCall} (hsized : c.args.Sized) (s : Rmu) :
    Placed c s.msgTxRing.txSlot s (c.send s) where
  message k hk := by
    rw [c.virtBuffer_send, copyAndClear, if_pos hk]
  cleared hshort k hk hmax := by
    rw [c.virtBuffer_send, copyAndClear, if_neg (Nat.not_lt.mpr hk), if_pos ⟨hshort, hmax⟩]
  behind k hk hrest := by
    have hnot : ¬(c.args.size < rioMaxMsgSize - 4 ∧ k < rioMaxMsgSize) := by omega
    rw [c.virtBuffer_send, copyAndClear, if_neg (Nat.not_lt.mpr hk), if_neg hnot]
  dport := by
    rw [c.virt_send]
    rfl
  dattr := by
    rw [c.virt_send]
    rfl
  dwcnt := by
    rw [c.virt_send]
    exact dwcnt_isLeast hsized (s.msgTxRing.virt s.msgTxRing.txSlot)
  saddr := by rw [c.virt_send]
  others _ h := ⟨Function.update_of_ne h .., Function.update_of_ne h ..⟩
  fields := rfl
  omr := rfl
  mui := rfl

/-- Where the cursor follows the count, the bookkeeping of the next call is right. -/
theorem RingInv.use (h : RingInv entries mui s) (c : RingCall) : RingUse entries s c := by
  refine ⟨h.size, h.slot ▸ Nat.mod_lt _ h.pos, ?_, ?_⟩
  · intro hret
    rcases c.run_cases h.flag with ⟨hneg, -⟩ | ⟨hsized, hrun⟩
    · exact absurd hret hneg.ne
    · rw [hrun, ← h.slot]
      exact placed_send hsized s.rmu
  · intro hret
    rcases c.run_cases h.flag with ⟨-, hsame⟩ | ⟨-, hrun⟩
    · exact hsame
    · rw [hrun] at hret
      exact absurd rfl hret

/-- Every call keeps the cursor in step with the count. -/
theorem RingInv.after (h : RingInv entries mui s) (c : RingCall) :
    RingInv entries mui (s.after c) := by
  rcases c.run_cases h.flag with ⟨hneg, hsame⟩ | ⟨-, hrun⟩
  · have hafter : s.after c = s := by
      rw [RingState.after, hsame, if_neg hneg.ne]
    rw [hafter]
    exact h
  · have hafter : s.after c = ⟨c.send s.rmu, s.accepted + 1⟩ := by
      rw [RingState.after, hrun, if_pos rfl]
    rw [hafter]
    refine ⟨h.flag, h.size, h.pos, ?_, ?_⟩
    · show (if s.rmu.msgTxRing.txSlot + 1 = s.rmu.msgTxRing.size then 0
        else s.rmu.msgTxRing.txSlot + 1) = (s.accepted + 1) % entries
      rw [h.slot, h.size]
      exact next_mod s.accepted h.pos
    · show s.rmu.mui + 1 = mui + (s.accepted + 1)
      rw [h.mui, Nat.add_assoc]

/-- An open ring starts at slot 0. -/
theorem ringInv_init {env : OpenEnv} {devId : ℕ} {s t : Rmu} {rc : Int}
    (hopen : fslOpenOutbMbox env devId entries s = (rc, t)) (hrc : 0 ≤ rc) :
    RingInv entries t.mui (ringInit t) := by
  obtain ⟨hslot, hsize, htwo⟩ := fslOpenOutbMbox_ok hopen hrc
  refine ⟨rfl, hsize, by omega, ?_, rfl⟩
  show t.msgTxRing.txSlot = 0 % entries
  rw [hslot, Nat.zero_mod]

theorem ringStep_inv (s : RingState) (c : RingCall) (s' : RingState) (h : RingInv entries mui s)
    (hstep : ringStep s c = some s') : RingInv entries mui s' := by
  obtain rfl := Option.some.inj hstep
  exact h.after c

/-- **Outbound ring.**  On every ring that an open has accepted, for every run of calls of the two
    functions in any order: the bookkeeping of each call is right, and in the end the cursor is
    in the ring and `OMR[MUI]` has been written once for each message accepted. -/
theorem ringUse (env : OpenEnv) (devId entries : ℕ) (s t : Rmu) (rc : Int)
    (hopen : fslOpenOutbMbox env devId entries s = (rc, t)) (hrc : 0 ≤ rc)
    (run : List RingCall) :
    Guarded ringStep (RingUse entries) (ringInit t) run
      ∧ ∀ u, exec ringStep (ringInit t) run = some u →
        u.rmu.msgTxRing.txSlot < entries ∧ u.rmu.mui = t.mui + u.accepted := by
  have hinit := ringInv_init hopen hrc
  have hguarded : Guarded ringStep (RingUse entries) (ringInit t) run :=
    Guarded.of_invariant (fun _ c h => h.use c) ringStep_inv run _ hinit
  refine ⟨hguarded, fun u hu => ?_⟩
  have hinv := exec_invariant (fun s c s' h _ => ringStep_inv s c s' h) run _ u hinit hguarded hu
  exact ⟨hinv.slot ▸ Nat.mod_lt _ hinv.pos, hinv.mui⟩

/-- Three calls on a ring of two slots, the second of which has a size that is rejected. -/
def threeCalls : List RingCall :=
  [.outBoundSendMsg ⟨⟨true, 9, goodOpen⟩, ⟨0, 1, 0, 8⟩, fun _ => 0x55⟩,
    .fslAddOutbMessage ⟨0, 1, 0, 4⟩ fun _ => 0x55, .fslAddOutbMessage ⟨0, 1, 0, 64⟩ fun _ => 0x55]

/-- The two messages accepted have filled the ring once. -/
theorem ringUse_threeCalls :
    Guarded ringStep (RingUse 2) (ringInit (fslOpenOutbMbox goodOpen 0 2 (smallRing 0)).2)
        threeCalls
      ∧ ∃ u, exec ringStep (ringInit (fslOpenOutbMbox goodOpen 0 2 (smallRing 0)).2) threeCalls
          = some u ∧ u.accepted = 2 ∧ u.rmu.mui = 2 := by
  obtain ⟨hguarded, hend⟩ := ringUse goodOpen 0 2 (smallRing 0) _ 0 rfl le_rfl threeCalls
  have hcount : (exec ringStep (ringInit (fslOpenOutbMbox goodOpen 0 2 (smallRing 0)).2)
      threeCalls).map (fun u => u.accepted) = some 2 := by decide +kernel
  obtain ⟨u, hu, haccepted⟩ := Option.map_eq_some_iff.mp hcount
  refine ⟨hguarded, u, hu, haccepted, ?_⟩
  rw [(hend u hu).2, haccepted]
  rfl

end Vpx3.Rio
