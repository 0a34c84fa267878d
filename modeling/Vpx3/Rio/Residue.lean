import Vpx3.Lib.Bits
import Vpx3.Rio.Sends

namespace Vpx3.Rio

open Exec Bits

/-!
# Residue — what is transmitted behind a message of `OutBoundSendMsg`

The message unit transmits `dwcnt` bytes of a slot's buffer, the size rounded up to a power of
two.  The send clears the buffer behind the message, but only if more than four bytes are left.

* `sentStep` — the machine of successful calls, with the sizes each slot has seen;
* `storedByte` — a byte of a slot by these sizes and the memory the ring was opened with;
* `CleanMessage` — the bytes to be transmitted are the message and zeros;
* `noResidue_iff` — every message of a run is clean exactly when each of 4092 to 4095 bytes
  comes to a slot with nothing but zeros left behind it.
-/

/-! ### The machine -/

/-- The slot a call stores its message in. -/
def SendCall.slot (c : SendCall) (s : Rmu) : ℕ := (openOnce c.env s).msgTxRing.txSlot

/-- The call is accepted and finds the ring open or opens it. -/
def SendCall.Succeeds (c : SendCall) (s : Rmu) : Prop :=
  c.Accepted ∧ (s.uiOpenFlag = false → ¬c.env.openEnv.Fails 1024)

instance (c : SendCall) (s : Rmu) : Decidable (c.Succeeds s) :=
  inferInstanceAs (Decidable (_ ∧ (_ → ¬_)))

/-- The message unit, the buffers as the open left them, and the sizes of the messages stored
    in each slot, the latest first. -/
structure SentRun where
  rmu : Rmu
  fresh : ℕ → ℕ → BitVec 8
  stored : ℕ → List ℕ

/-- The buffers as the open has left them when the call stores its message. -/
def SentRun.freshAt (s : SentRun) (c : SendCall) : ℕ → ℕ → BitVec 8 :=
  if s.rmu.uiOpenFlag then s.fresh else (openOnce c.env s.rmu).msgTxRing.virtBuffer

/-- One call more. -/
def SentRun.after (s : SentRun) (c : SendCall) : SentRun where
  rmu := (c.run s.rmu).2
  fresh := s.freshAt c
  stored :=
    Function.update s.stored (c.slot s.rmu) (c.args.size :: s.stored (c.slot s.rmu))

/-- The machine of successful calls. -/
def sentStep (s : SentRun) (c : SendCall) : Option SentRun :=
  if c.Succeeds s.rmu then some (s.after c) else none

/-- Before the first call. -/
def sentInit (rmu : Rmu) : SentRun where
  rmu := { rmu with uiOpenFlag := false }
  fresh := rmu.msgTxRing.virtBuffer
  stored := fun _ => []

/-! ### The property and the condition -/

/-- A slot with a message of `size` bytes, as the message unit will transmit it. -/
structure CleanMessage (size slot : ℕ) (s : Rmu) : Prop where
  /-- the transfer length is the least power of two not below the size -/
  rounded : IsLeast {n | size ≤ n ∧ n.isPowerOfTwo} (s.msgTxRing.virt slot).dwcnt.toNat
  /-- first come the bytes of the message -/
  message : ∀ k < size, s.msgTxRing.virtBuffer slot k = 0x1
  /-- then come zeros -/
  cleared : ∀ k, size ≤ k → k < (s.msgTxRing.virt slot).dwcnt.toNat →
    s.msgTxRing.virtBuffer slot k = 0

/-- A successful call leaves its message clean. -/
def SentClean (s : SentRun) (c : SendCall) : Prop :=
  c.Succeeds s.rmu → CleanMessage c.args.size (c.slot s.rmu) (c.run s.rmu).2

/-- Messages of these sizes are cleared behind. -/
def Short (size : ℕ) : Prop := size < rioMaxMsgSize - 4

instance (size : ℕ) : Decidable (Short size) := inferInstanceAs (Decidable (_ < _))

/-- Behind `size` bytes a slot has nothing but zeros: no message since the last short one is
    longer, and a short one has been there or the memory was zero. -/
def ZeroBehind (fresh : ℕ → BitVec 8) (size : ℕ) (sizes : List ℕ) : Prop :=
  (∀ earlier ∈ sizes.takeWhile fun n => ¬Short n, earlier ≤ size)
    ∧ ((∃ earlier ∈ sizes, Short earlier) ∨ ∀ k, size ≤ k → k < rioMaxMsgSize → fresh k = 0)

/-- The condition on a call. -/
def ResidueGuard (s : SentRun) (c : SendCall) : Prop :=
  c.Succeeds s.rmu → ¬Short c.args.size → c.args.size < rioMaxMsgSize →
    ZeroBehind (s.freshAt c (c.slot s.rmu)) c.args.size (s.stored (c.slot s.rmu))

/-! ### The bytes of a slot -/

/-- Byte `k` of a slot behind messages of the given sizes. -/
def storedByte (fresh : ℕ → BitVec 8) (k : ℕ) : List ℕ → BitVec 8
  | [] => fresh k
  | size :: earlier =>
    if k < size then 0x1 else if Short size then 0 else storedByte fresh k earlier

/-- The bytes from `size` on are zero exactly under the condition. -/
theorem storedByte_zero_iff (fresh : ℕ → BitVec 8) {size : ℕ} (hlong : ¬Short size)
    (hsize : size < rioMaxMsgSize) (sizes : List ℕ) :
    (∀ k, size ≤ k → k < rioMaxMsgSize → storedByte fresh k sizes = 0)
      ↔ ZeroBehind fresh size sizes := by
  induction sizes with
  | nil => simp [storedByte, ZeroBehind]
  | cons latest earlier ih =>
    by_cases hshort : Short latest
    · -- a short message was cleared behind, and its end lies before these bytes
      refine iff_of_true (fun k hk _ => ?_) ⟨?_, Or.inl ⟨latest, List.mem_cons_self, hshort⟩⟩
      · have hend : ¬k < latest := by
          unfold Short at hshort hlong
          omega
        rw [storedByte, if_neg hend, if_pos hshort]
      · rw [List.takeWhile_cons_of_neg (by simpa using hshort)]
        exact fun e he => absurd he List.not_mem_nil
    · have htake : (latest :: earlier).takeWhile (fun n => ¬Short n)
          = latest :: earlier.takeWhile fun n => ¬Short n :=
        List.takeWhile_cons_of_pos (by simpa using hshort)
      have hbehind : ZeroBehind fresh size (latest :: earlier)
          ↔ latest ≤ size ∧ ZeroBehind fresh size earlier := by
        rw [ZeroBehind, ZeroBehind, htake, List.forall_mem_cons, List.exists_mem_cons_iff,
          or_iff_right hshort, and_assoc]
      rw [hbehind, ← ih]
      by_cases hle : latest ≤ size
      · -- it ends before these bytes, which stay as they were
        rw [and_iff_right hle]
        refine forall₃_congr fun k hk _ => ?_
        rw [storedByte, if_neg (Nat.not_lt.mpr (hle.trans hk)), if_neg hshort]
      · -- its last byte is found behind the message
        refine iff_of_false (fun h => ?_) fun h => hle h.1
        have hbyte := h size le_rfl hsize
        rw [storedByte, if_pos (Nat.not_le.mp hle)] at hbyte
        exact absurd hbyte (by decide)

/-- One store of a message carries the description on. -/
theorem copyAndClear_stored (fresh old : ℕ → BitVec 8) (sizes : List ℕ) {k : ℕ}
    (hk : k < rioMaxMsgSize) (hold : old k = storedByte fresh k sizes) (size : ℕ) :
    copyAndClear (fun _ => 0x1) size old k = storedByte fresh k (size :: sizes) := by
  rw [copyAndClear, storedByte, hold]
  exact if_congr Iff.rfl rfl (if_congr (and_iff_left hk) rfl rfl)

/-! ### One call -/

/-- `desc->dwcnt` is the least power of two not below the size. -/
theorem dwcnt_isLeast {args : SendArgs} (hsized : args.Sized) (desc : TxDesc) :
    IsLeast {n | args.size ≤ n ∧ n.isPowerOfTwo} (args.fill desc).dwcnt.toNat := by
  obtain ⟨h8, hmax⟩ := not_or.mp hsized
  have hpos : args.size ≠ 0 := by omega
  have hleast : IsLeast {n | args.size ≤ n ∧ n.isPowerOfTwo}
      (if isPowerOf2 args.size then args.size else 2 ^ getBitmaskOrder args.size) := by
    have hpow : isPowerOf2 args.size ↔ args.size.isPowerOfTwo :=
      Nat.ne_zero_and_sub_one_eq_zero_iff_isPowerOfTwo
    by_cases h : isPowerOf2 args.size
    · rw [if_pos h]
      exact isLeast_self (hpow.mp h)
    · rw [if_neg h, getBitmaskOrder, if_neg hpos]
      exact isLeast_pow_log2 hpos (mt hpow.mpr h)
  -- the largest message bounds it, so the word holds it
  have hle := hleast.2 ⟨Nat.not_lt.mp hmax, 12, rfl⟩
  have hword : (args.fill desc).dwcnt.toNat
      = if isPowerOf2 args.size then args.size else 2 ^ getBitmaskOrder args.size := by
    refine (BitVec.toNat_ofNat _ _).trans (Nat.mod_eq_of_lt (hle.trans_lt ?_))
    decide
  rwa [hword]

/-- Never more than a buffer is transmitted. -/
theorem dwcnt_le {args : SendArgs} (hsized : args.Sized) (desc : TxDesc) :
    (args.fill desc).dwcnt.toNat ≤ rioMaxMsgSize :=
  (dwcnt_isLeast hsized desc).2 ⟨Nat.not_lt.mp (not_or.mp hsized).2, 12, rfl⟩

/-- Behind a message that is not short the whole buffer is transmitted. -/
theorem dwcnt_of_long {args : SendArgs} (hsized : args.Sized) (hlong : ¬Short args.size)
    (desc : TxDesc) : (args.fill desc).dwcnt.toNat = rioMaxMsgSize := by
  refine le_antisymm (dwcnt_le hsized desc) ?_
  obtain ⟨hle, k, hk⟩ := (dwcnt_isLeast hsized desc).1
  have hgt : 2 ^ 11 < 2 ^ k := by
    rw [← hk]
    refine lt_of_lt_of_le ?_ ((Nat.not_lt.mp hlong).trans hle)
    decide
  have h12 : 12 ≤ k := (Nat.pow_lt_pow_iff_right Nat.one_lt_two).mp hgt
  rw [hk]
  exact Nat.pow_le_pow_right Nat.two_pos h12

/-- The buffer of the slot behind a send. -/
theorem virtBuffer_send (args : SendArgs) (s : Rmu) :
    (args.send s).msgTxRing.virtBuffer
      = Function.update s.msgTxRing.virtBuffer s.msgTxRing.txSlot
          (copyAndClear (fun _ => 0x1) args.size (s.msgTxRing.virtBuffer s.msgTxRing.txSlot)) :=
  rfl

/-- The descriptor of the slot behind a send. -/
theorem virt_send (args : SendArgs) (s : Rmu) :
    (args.send s).msgTxRing.virt s.msgTxRing.txSlot
      = args.fill (s.msgTxRing.virt s.msgTxRing.txSlot) :=
  Function.update_self ..

/-- A send leaves its message clean exactly when it clears behind it, or nothing but zeros
    stood there. -/
theorem cleanMessage_send {args : SendArgs} (hsized : args.Sized) (s : Rmu) :
    CleanMessage args.size s.msgTxRing.txSlot (args.send s)
      ↔ (¬Short args.size → args.size < rioMaxMsgSize → ∀ k, args.size ≤ k → k < rioMaxMsgSize →
          s.msgTxRing.virtBuffer s.msgTxRing.txSlot k = 0) := by
  have hbytes : (args.send s).msgTxRing.virtBuffer s.msgTxRing.txSlot
      = copyAndClear (fun _ => 0x1) args.size (s.msgTxRing.virtBuffer s.msgTxRing.txSlot) := by
    rw [virtBuffer_send, Function.update_self]
  have hbehind : ∀ k, args.size ≤ k → (args.send s).msgTxRing.virtBuffer s.msgTxRing.txSlot k
      = if Short args.size ∧ k < rioMaxMsgSize then 0
        else s.msgTxRing.virtBuffer s.msgTxRing.txSlot k := by
    intro k hk
    rw [hbytes, copyAndClear, if_neg (Nat.not_lt.mpr hk)]
    rfl
  constructor
  · rintro ⟨-, -, hcleared⟩ hlong - k hk hmax
    have hzero := hcleared k hk (by rwa [virt_send, dwcnt_of_long hsized hlong])
    rwa [hbehind k hk, if_neg fun h => hlong h.1] at hzero
  · intro h
    refine ⟨by rw [virt_send]; exact dwcnt_isLeast hsized _, fun k hk => ?_, fun k hk hsent => ?_⟩
    · rw [hbytes, copyAndClear, if_pos hk]
    · rw [virt_send] at hsent
      have hmax : k < rioMaxMsgSize := hsent.trans_le (dwcnt_le hsized _)
      rw [hbehind k hk]
      by_cases hshort : Short args.size
      · rw [if_pos ⟨hshort, hmax⟩]
      · rw [if_neg fun h => hshort h.1]
        exact h hshort (hk.trans_lt hmax) k hk hmax

/-! ### Runs -/

/-- The buffers hold what the sizes say; before the first call there are none. -/
structure SentInv (s : SentRun) : Prop where
  unopened : s.rmu.uiOpenFlag = false → s.stored = fun _ => []
  bytes : s.rmu.uiOpenFlag = true → ∀ slot, ∀ k < rioMaxMsgSize,
    s.rmu.msgTxRing.virtBuffer slot k = storedByte (s.fresh slot) k (s.stored slot)

/-- The buffers as the call finds them behind its open. -/
theorem SentInv.bytes_opened {s : SentRun} (h : SentInv s) (c : SendCall) (slot : ℕ) {k : ℕ}
    (hk : k < rioMaxMsgSize) : (openOnce c.env s.rmu).msgTxRing.virtBuffer slot k
      = storedByte (s.freshAt c slot) k (s.stored slot) := by
  rw [SentRun.freshAt]
  cases hflag : s.rmu.uiOpenFlag with
  | true =>
    rw [if_pos rfl, openOnce, if_pos hflag]
    exact h.bytes hflag slot k hk
  | false =>
    rw [if_neg Bool.false_ne_true, h.unopened hflag]
    rfl

/-- A successful call sends. -/
theorem SendCall.run_of_succeeds {c : SendCall} {s : Rmu} (h : c.Succeeds s) :
    (c.run s).2 = c.args.send (openOnce c.env s) := by
  rcases c.run_cases s with ⟨hnot, -⟩ | ⟨-, hrun⟩
  · exact absurd h.1 hnot
  · rw [hrun]

/-- A successful call leaves its message clean exactly under the condition. -/
theorem sentClean_iff {s : SentRun} (hinv : SentInv s) (c : SendCall) :
    SentClean s c ↔ ResidueGuard s c := by
  refine forall_congr' fun hc => ?_
  rw [SendCall.run_of_succeeds hc, SendCall.slot, cleanMessage_send hc.1.2]
  refine forall₂_congr fun hlong hsize => ?_
  rw [← storedByte_zero_iff _ hlong hsize]
  exact forall₃_congr fun k _ hk => by rw [hinv.bytes_opened c _ hk]

/-- A successful call keeps the invariant. -/
theorem SentInv.after {s : SentRun} (hinv : SentInv s) {c : SendCall} (hc : c.Succeeds s.rmu) :
    SentInv (s.after c) := by
  refine ⟨fun hflag => ?_, fun _ slot k hk => ?_⟩
  · have hset : (s.after c).rmu.uiOpenFlag = true := uiOpenFlag_run hc.1 s.rmu
    exact absurd (hset.symm.trans hflag) (by decide)
  · rw [SentRun.after]
    dsimp only
    rw [SendCall.run_of_succeeds hc, virtBuffer_send, SendCall.slot]
    by_cases hslot : slot = (openOnce c.env s.rmu).msgTxRing.txSlot
    · rw [hslot, Function.update_self, Function.update_self]
      exact copyAndClear_stored _ _ _ hk (hinv.bytes_opened c _ hk) _
    · rw [Function.update_of_ne hslot, Function.update_of_ne hslot]
      exact hinv.bytes_opened c slot hk

/-- **No residue.**  In every run of successful calls with any sizes, from the first call on,
    every message is transmitted with nothing but zeros behind it if and only if each message
    of 4092 to 4095 bytes comes to a slot with nothing but zeros left there. -/
theorem noResidue_iff (rmu : Rmu) (calls : List SendCall) :
    Guarded sentStep SentClean (sentInit rmu) calls
      ↔ Guarded sentStep ResidueGuard (sentInit rmu) calls := by
  have hinit : SentInv (sentInit rmu) := ⟨fun _ => rfl, fun h => absurd h Bool.false_ne_true⟩
  refine guarded_congr (fun s c hinv => sentClean_iff hinv c) ?_ hinit
  intro s c s' hinv _ h
  obtain ⟨hc, hs'⟩ := Option.ite_none_right_eq_some.mp h
  exact Option.some.inj hs' ▸ hinv.after hc

/-! ### A slot used again -/

/-- On an open ring a call does nothing but send. -/
theorem SentRun.rmu_after {s : SentRun} {c : SendCall} (hc : c.Accepted)
    (hflag : s.rmu.uiOpenFlag = true) : (s.after c).rmu = c.args.send s.rmu := by
  show (c.run s.rmu).2 = _
  rw [SendCall.run_of_open hc hflag]

/-- A send moves to the next slot, and leaves the slots it has passed as they are. -/
theorem txSlot_send (args : SendArgs) (s : Rmu) :
    (args.send s).msgTxRing.txSlot
      = if s.msgTxRing.txSlot + 1 = s.msgTxRing.size then 0 else s.msgTxRing.txSlot + 1 := rfl

theorem virtBuffer_send_of_lt (args : SendArgs) (s : Rmu) {slot : ℕ}
    (hlt : slot < s.msgTxRing.txSlot) :
    (args.send s).msgTxRing.virtBuffer slot = s.msgTxRing.virtBuffer slot := by
  rw [virtBuffer_send, Function.update_of_ne hlt.ne]

/-- Accepted calls up to the end of the ring leave the slots before them as they are. -/
theorem exec_to_end (calls : List SendCall) (hcalls : ∀ c ∈ calls, c.Accepted) (s : SentRun)
    (hflag : s.rmu.uiOpenFlag = true)
    (hroom : s.rmu.msgTxRing.txSlot + calls.length = s.rmu.msgTxRing.size) (hpos : calls ≠ []) :
    ∃ t, exec sentStep s calls = some t ∧ t.rmu.uiOpenFlag = true ∧ t.rmu.msgTxRing.txSlot = 0
      ∧ ∀ slot < s.rmu.msgTxRing.txSlot,
          t.rmu.msgTxRing.virtBuffer slot = s.rmu.msgTxRing.virtBuffer slot := by
  induction calls generalizing s with
  | nil => exact absurd rfl hpos
  | cons c calls ih =>
    have hc : c.Accepted := hcalls c List.mem_cons_self
    have hok : c.Succeeds s.rmu := ⟨hc, fun h => absurd (h.symm.trans hflag) (by decide)⟩
    have hstep : sentStep s c = some (s.after c) := if_pos hok
    have hrmu := SentRun.rmu_after hc hflag
    have hflag' : (s.after c).rmu.uiOpenFlag = true := uiOpenFlag_run hc s.rmu
    rw [List.length_cons] at hroom
    rw [exec_cons, hstep, Option.bind_some]
    rcases calls with _ | ⟨d, rest⟩
    · -- the last slot: the ring wraps around
      refine ⟨s.after c, rfl, hflag', ?_, fun slot hlt => ?_⟩
      · rw [hrmu, txSlot_send, if_pos (by simpa using hroom)]
      · rw [hrmu, virtBuffer_send_of_lt _ _ hlt]
    · rw [List.length_cons] at hroom
      have hnext : (s.after c).rmu.msgTxRing.txSlot = s.rmu.msgTxRing.txSlot + 1 := by
        rw [hrmu, txSlot_send, if_neg (by omega)]
      have hsize : (s.after c).rmu.msgTxRing.size = s.rmu.msgTxRing.size := by
        rw [hrmu]
        rfl
      obtain ⟨t, ht, htflag, htslot, hkept⟩ := ih
        (fun d hd => hcalls d (List.mem_cons_of_mem c hd)) (s.after c) hflag'
        (by rw [hnext, hsize, List.length_cons]; omega) (List.cons_ne_nil d rest)
      refine ⟨t, ht, htflag, htslot, fun slot hlt => ?_⟩
      rw [hkept slot (by omega), hrmu, virtBuffer_send_of_lt _ _ hlt]

/-- A call with a message of `size` bytes on a ring it may open. -/
def callOf (size : ℕ) : SendCall := ⟨⟨true, 9, goodOpen⟩, ⟨0, 1, 0, size⟩, fun _ => 0x55⟩

/-- A message of 4096 bytes, 1023 of eight in the slots behind it, and one of 4092 bytes in
    the first slot again, behind which the last four bytes of the first are transmitted. -/
theorem not_noResidue :
    (exec sentStep (sentInit (smallRing 0))
        (callOf 4096 :: (List.replicate 1023 (callOf 8) ++ [callOf 4092]))).isSome
      ∧ ¬Guarded sentStep SentClean (sentInit (smallRing 0))
          (callOf 4096 :: (List.replicate 1023 (callOf 8) ++ [callOf 4092])) := by
  have hfirst : sentStep (sentInit (smallRing 0)) (callOf 4096)
      = some ((sentInit (smallRing 0)).after (callOf 4096)) := if_pos (by decide +kernel)
  obtain ⟨t, ht, hflag, hslot, hkept⟩ := exec_to_end (List.replicate 1023 (callOf 8))
    (fun c hc => by rw [List.eq_of_mem_replicate hc]; decide)
    ((sentInit (smallRing 0)).after (callOf 4096)) rfl (by decide +kernel) (by decide)
  have hlast : (callOf 4092).Succeeds t.rmu :=
    ⟨by decide, fun h => absurd (h.symm.trans hflag) (by decide)⟩
  constructor
  · rw [exec_cons, hfirst, Option.bind_some, exec_append, ht, Option.bind_some, exec_cons,
      sentStep, if_pos hlast]
    rfl
  · intro h
    have hclean := (h.2 _ hfirst).last ht hlast
    have hopen : openOnce (callOf 4092).env t.rmu = t.rmu := if_pos hflag
    rw [SendCall.run_of_succeeds hlast, SendCall.slot, hopen] at hclean
    have hzero := (cleanMessage_send hlast.1.2 t.rmu).mp hclean (by decide) (by decide) 4092
      le_rfl (by decide)
    rw [hslot, hkept 0 (by decide +kernel)] at hzero
    exact absurd hzero (by decide +kernel)

end Vpx3.Rio
