import Vpx3.I2c.Ltc2991
import Vpx3.Lib.Poll

namespace Vpx3.I2c

open Poll

/-!
# Polling — the retry loop of `LTC2991.c` over a stream of transfers

* `streamBus` — the bus on which the `n`-th transfer has the `n`-th reply of a stream,
  whatever it asks for; its state counts the transfers;
* `ltc2991AdcReadTimeout_stream` — the loop ends at the first word with the data-valid bit,
  failed or not, and ORs all acknowledges;
* `adcReadTimeout_documented_iff` — when that is what the documentation of the loop says,
  which also ends it at the first failed transfer;
* `adcReadNewData_fresh` — what the flush-then-poll sequence delivers.
-/

/-! ### A stream of transfers -/

/-- The bus that answers the `n`-th transfer by `rs n`; the state counts transfers. -/
def streamBus (rs : ℕ → XferReply) : I2cBus ℕ where
  transfer _ n := (rs n, n + 1)

/-- The word behind a reply has its data-valid bit set. -/
def XferReply.DataValid (r : XferReply) : Prop := r.word.getLsbD 15 = true

instance (r : XferReply) : Decidable r.DataValid := inferInstanceAs (Decidable (_ = _))

theorem dataValid_iff (r : XferReply) : r.DataValid ↔ r.word.toNat / 2 ^ 15 % 2 = 1 := by
  show r.word.getLsbD 15 = true ↔ _
  rw [← BitVec.testBit_toNat, Nat.testBit_eq_decide_div_mod_eq, decide_eq_true_eq]

/-- `*data_valid` is bit 15 of the word. -/
theorem ofWord_dataValid_toNat (code : Word) :
    (AdcOut.ofWord code).dataValid.toNat = code.toNat / 2 ^ 15 % 2 := by
  show ((code >>> 15 &&& 0x01 : Word).setWidth 8).toNat = _
  rw [BitVec.toNat_setWidth, BitVec.toNat_and, BitVec.toNat_ushiftRight,
    Nat.shiftRight_eq_div_pow, show (0x01 : Word).toNat = 1 from rfl, Nat.and_one_is_mod]
  omega

/-- It is 1 exactly when the bit is set, and 0 exactly when it is not. -/
theorem ofWord_dataValid_eq_one (r : XferReply) :
    (AdcOut.ofWord r.word).dataValid = 1 ↔ r.DataValid := by
  rw [dataValid_iff, ← BitVec.toNat_inj, ofWord_dataValid_toNat]
  rfl

theorem ofWord_dataValid_eq_zero (r : XferReply) :
    (AdcOut.ofWord r.word).dataValid = 0 ↔ ¬r.DataValid := by
  rw [dataValid_iff, ← BitVec.toNat_inj, ofWord_dataValid_toNat]
  show _ = 0 ↔ _
  omega

/-- `*adc_code` is the low 15 bits of the word. -/
theorem ofWord_adcCode_toNat (code : Word) :
    (AdcOut.ofWord code).adcCode.toNat = code.toNat % 2 ^ 15 := by
  show (code &&& 0x7FFF).toNat = _
  rw [BitVec.toNat_and]
  exact Nat.and_two_pow_sub_one_eq_mod code.toNat 15

@[simp] theorem ltc2991AdcRead_streamBus (rs : ℕ → XferReply) (a r : Byte) (s : ℕ) :
    ltc2991AdcRead (streamBus rs) a r s = ((rs s).ack, .ofWord (rs s).word, s + 1) := rfl

/-- ORing in the acknowledge of a transfer keeps zero exactly if the transfer succeeded. -/
theorem or_ack_eq_zero (ack : Byte) (r : XferReply) :
    ack ||| r.ack = 0 ↔ ack = 0 ∧ r.ok = true := by
  rw [← r.ack_eq_zero]
  exact BitVec.or_eq_zero_iff

/-! ### The retry loop -/

/-- What the loop leaves behind after `m` transfers from transfer `s` on. -/
structure LoopEnd (rs : ℕ → XferReply) (ack : Byte) (out : AdcOut) (s m : ℕ)
    (result : Byte × AdcOut × ℕ) : Prop where
  count : result.2.2 = s + m
  /-- the acknowledge is zero if it was and all transfers succeeded -/
  ack_zero : result.1 = 0 ↔ ack = 0 ∧ ∀ j < m, (rs (s + j)).ok = true
  /-- the outputs are those of the last word -/
  out_last : result.2.1 = if m = 0 then out else .ofWord (rs (s + (m - 1))).word

/-- The loop polls for the data-valid bit. -/
theorem adcReadLoop_stream (rs : ℕ → XferReply) (a r : Byte) (n : ℕ) (ack : Byte) (out : AdcOut)
    (s : ℕ) :
    ∃ m, Ends (fun j => (rs (s + j)).DataValid) n m
      ∧ LoopEnd rs ack out s m (adcReadLoop (streamBus rs) a r n ack out s) := by
  induction n generalizing ack out s with
  | zero =>
    refine ⟨0, Ends.none _, rfl, ?_, rfl⟩
    exact ⟨fun h => ⟨h, fun j hj => absurd hj (Nat.not_lt_zero j)⟩, And.left⟩
  | succ n ih =>
    rw [adcReadLoop, ltc2991AdcRead_streamBus]
    dsimp only
    by_cases hvalid : (rs s).DataValid
    · -- the first word ends the loop
      rw [if_pos ((ofWord_dataValid_eq_one _).mpr hvalid)]
      refine ⟨1, Ends.stop n hvalid, rfl, ?_, rfl⟩
      dsimp only
      rw [or_ack_eq_zero]
      refine and_congr_right fun _ => ⟨fun hok j hj => ?_, fun h => h 0 Nat.one_pos⟩
      rwa [Nat.lt_one_iff.mp hj]
    · -- the loop goes on, with the acknowledge ORed in
      rw [if_neg (mt (ofWord_dataValid_eq_one _).mp hvalid)]
      obtain ⟨m, hends, hcount, hack, hout⟩ := ih (ack ||| (rs s).ack) (.ofWord (rs s).word) (s + 1)
      have hshift : ∀ j, s + 1 + j = s + (j + 1) := fun j => by omega
      simp only [hshift] at hends hack hout
      refine ⟨m + 1, Ends.wait hvalid hends, ?_, ?_, ?_⟩
      · rw [hcount]
        omega
      · rw [hack, or_ack_eq_zero, and_assoc]
        refine and_congr_right fun _ => ?_
        constructor
        · rintro ⟨h0, hrest⟩ j hj
          rcases j with _ | j
          · exact h0
          · exact hrest j (by omega)
        · exact fun h => ⟨h 0 (Nat.succ_pos m), fun j hj => h (j + 1) (by omega)⟩
      · rw [hout, if_neg (Nat.succ_ne_zero m), Nat.add_sub_cancel]
        rcases m with _ | m
        · rfl
        · rw [if_neg (Nat.succ_ne_zero m), Nat.add_sub_cancel]

/-- The same for the loop of a call. -/
theorem ltc2991AdcReadTimeout_stream (rs : ℕ → XferReply) (a r : Byte) (out : AdcOut)
    (timeout : Word) (s : ℕ) :
    ∃ m, Ends (fun j => (rs (s + j)).DataValid) timeout.toNat m
      ∧ LoopEnd rs 0 out s m (ltc2991AdcReadTimeout (streamBus rs) a r out timeout s) :=
  adcReadLoop_stream rs a r timeout.toNat 0 out s

/-! ### The loop against its documentation -/

/-- A reply that ends the documented loop: a failed transfer, or a word with its bit set. -/
def XferReply.Stops (r : XferReply) : Prop := r.ok = false ∨ r.DataValid

/-- A poll as the documentation of `LTC2991_adc_read_timeout` has it: it ends at the first
    failed transfer or valid word or with the timeout, its result tells whether the last
    transfer failed, `*data_valid` whether that transfer brought new data. -/
structure PollsAsDocumented (rs : ℕ → XferReply) (timeout : ℕ) (result : Byte × AdcOut × ℕ) :
    Prop where
  ends : Ends (fun j => (rs j).Stops) timeout result.2.2
  ack : result.1 ≠ 0 ↔ (rs (result.2.2 - 1)).ok = false
  valid : result.2.1.dataValid = 1
    ↔ (rs (result.2.2 - 1)).ok = true ∧ (rs (result.2.2 - 1)).DataValid

/-- A failed transfer that no valid word comes before is the last one the timeout allows, and
    what it left in `code` has no valid bit. -/
def FailsLast (rs : ℕ → XferReply) (timeout : ℕ) : Prop :=
  ∀ j < timeout, (∀ i < j, ¬(rs i).Stops) → (rs j).ok = false →
    j + 1 = timeout ∧ ¬(rs j).DataValid

/-- Where the loop has ended, only its last transfer may have failed, and that one without a
    valid bit. -/
theorem failsLast_iff {rs : ℕ → XferReply} {timeout m : ℕ}
    (hends : Ends (fun j => (rs j).DataValid) timeout m) (hpos : 0 < m) :
    FailsLast rs timeout
      ↔ (∀ j, j + 1 < m → ¬(rs j).Stops) ∧ ((rs (m - 1)).ok = false → ¬(rs (m - 1)).DataValid) := by
  have hle := hends.le
  constructor
  · intro hlast
    have hbefore : ∀ j, j + 1 < m → ¬(rs j).Stops := by
      intro j
      induction j using Nat.strong_induction_on with
      | _ j ih =>
        rintro hj (hfail | hset)
        · -- a failure that early would have to be the last the timeout allows
          have := (hlast j (by omega) (fun i hi => ih i hi (by omega)) hfail).1
          omega
        · exact hends.running j hj hset
    refine ⟨hbefore, fun hfail => ?_⟩
    exact (hlast (m - 1) (by omega) (fun i hi => hbefore i (by omega)) hfail).2
  · rintro ⟨hbefore, hclear⟩ j hj hwait hfail
    have hfrom : m ≤ j + 1 := by
      by_contra hlt
      exact hbefore j (by omega) (Or.inl hfail)
    have hto : j < m := hends.lt_of_waiting hj fun i hi hset => hwait i hi (Or.inr hset)
    obtain rfl : j = m - 1 := by omega
    refine ⟨?_, hclear hfail⟩
    rcases hends.ended with hall | ⟨k, rfl, hset⟩
    · omega
    · rw [Nat.add_sub_cancel] at hclear hfail
      exact absurd hset (hclear hfail)

/-- Where only the last transfer can have failed, it decides whether all have succeeded. -/
theorem forall_ok_iff_last {rs : ℕ → XferReply} {m : ℕ} (hpos : 0 < m)
    (hbefore : ∀ j, j + 1 < m → ¬(rs j).Stops) :
    (∀ j < m, (rs j).ok = true) ↔ (rs (m - 1)).ok = true := by
  constructor
  · exact fun h => h (m - 1) (by omega)
  · intro hok j hj
    rcases Nat.lt_or_ge (j + 1) m with hlt | hge
    · exact Bool.eq_true_of_not_eq_false fun hbad => hbefore j hlt (Or.inl hbad)
    · obtain rfl : j = m - 1 := by omega
      exact hok

/-- **The documented poll.**  For every stream of replies and every timeout, the loop behaves
    as documented if and only if no transfer fails before the first valid word, or only the
    last one does and leaves no valid bit in `code`. -/
theorem adcReadTimeout_documented_iff (rs : ℕ → XferReply) (a r : Byte) (out : AdcOut)
    (timeout : Word) (htimeout : 1 ≤ timeout.toNat) :
    PollsAsDocumented rs timeout.toNat (ltc2991AdcReadTimeout (streamBus rs) a r out timeout 0)
      ↔ FailsLast rs timeout.toNat := by
  obtain ⟨m, hends, hcount, hack, hout⟩ := ltc2991AdcReadTimeout_stream rs a r out timeout 0
  simp only [Nat.zero_add] at hends hcount hack hout
  have hpos := hends.pos htimeout
  rw [if_neg hpos.ne'] at hout
  have hdoc : Ends (fun j => (rs j).Stops) timeout.toNat m ↔ ∀ j, j + 1 < m → ¬(rs j).Stops :=
    hends.iff_of_imp fun j hset => Or.inr hset
  rw [failsLast_iff hends hpos]
  constructor
  · rintro ⟨hpoll, -, hvalid⟩
    rw [hcount] at hpoll hvalid
    rw [hout, ofWord_dataValid_eq_one] at hvalid
    refine ⟨hdoc.mp hpoll, fun hfail hset => ?_⟩
    exact Bool.false_ne_true (hfail.symm.trans (hvalid.mp hset).1)
  · rintro ⟨hbefore, hclear⟩
    refine ⟨?_, ?_, ?_⟩
    · rw [hcount]
      exact hdoc.mpr hbefore
    · rw [hcount, Ne, hack, true_and, forall_ok_iff_last hpos hbefore, Bool.not_eq_true]
    · rw [hcount, hout, ofWord_dataValid_eq_one]
      refine ⟨fun hset => ⟨?_, hset⟩, And.right⟩
      exact Bool.eq_true_of_not_eq_false fun hfail => hclear hfail hset

/-- A healthy transfer of a word. -/
def healthy (high low : Byte) : XferReply := ⟨true, [high, low]⟩

/-- Not ready, then a valid word. -/
theorem adcReadTimeout_documented_healthy :
    PollsAsDocumented (fun j => if j = 0 then healthy 0x00 0x10 else healthy 0x80 0x20) 2
      (ltc2991AdcReadTimeout
        (streamBus fun j => if j = 0 then healthy 0x00 0x10 else healthy 0x80 0x20)
        0x4D 0x0A ⟨0, 0⟩ 2 0) := by
  refine (adcReadTimeout_documented_iff _ 0x4D 0x0A ⟨0, 0⟩ 2 (by decide)).mpr ?_
  -- no transfer of this stream fails
  intro j _ _ hfail
  have hok : (if j = 0 then healthy 0x00 0x10 else healthy 0x80 0x20).ok = true := by
    split <;> rfl
  exact absurd (hfail.symm.trans hok) Bool.false_ne_true

/-- A failed transfer does not end the loop: the second one is made, its word delivered. -/
theorem not_adcReadTimeout_documented :
    ¬PollsAsDocumented (fun j => if j = 0 then ⟨false, [0, 0]⟩ else healthy 0x80 0x20) 2
      (ltc2991AdcReadTimeout
        (streamBus fun j => if j = 0 then ⟨false, [0, 0]⟩ else healthy 0x80 0x20)
        0x4D 0x0A ⟨0, 0⟩ 2 0) := by
  intro h
  have hcount : (ltc2991AdcReadTimeout
      (streamBus fun j => if j = 0 then ⟨false, [0, 0]⟩ else healthy 0x80 0x20)
      0x4D 0x0A ⟨0, 0⟩ 2 0).2.2 = 2 := by decide
  have hends := h.ends
  rw [hcount] at hends
  exact hends.running 0 (by decide) (Or.inl rfl)

/-! ### Fresh data -/

/-- What `LTC2991_adc_read_new_data` leaves behind over a stream whose reply 0 is the
    flush. -/
structure FreshData (rs : ℕ → XferReply) (timeout : ℕ) (result : Byte × AdcOut × ℕ) : Prop where
  ack : result.1 = 0 ↔ ∀ j < result.2.2, (rs j).ok = true
  count : result.2.2 ≤ timeout + 1
  /-- new data is the first valid word after the flush -/
  fresh : result.1 = 0 → result.2.1.dataValid = 1 →
    ∃ k, 1 ≤ k ∧ k ≤ timeout ∧ (rs k).DataValid ∧ (∀ i, 1 ≤ i → i < k → ¬(rs i).DataValid)
      ∧ result.2.1.adcCode.toNat = (rs k).word.toNat % 2 ^ 15
  /-- no new data means that all words up to the timeout were read and none was valid -/
  stale : result.1 = 0 → result.2.1.dataValid = 0 →
    result.2.2 = timeout + 1 ∧ ∀ k, 1 ≤ k → k ≤ timeout → ¬(rs k).DataValid
  binary : result.2.1.dataValid = 0 ∨ result.2.1.dataValid = 1

/-- The flush, then the loop from transfer 1 on. -/
theorem ltc2991AdcReadNewData_streamBus (rs : ℕ → XferReply) (a r : Byte) (timeout : Word) :
    ltc2991AdcReadNewData (streamBus rs) a r timeout 0
      = ((rs 0).ack
          ||| (ltc2991AdcReadTimeout (streamBus rs) a r (.ofWord (rs 0).word) timeout 1).1,
        (ltc2991AdcReadTimeout (streamBus rs) a r (.ofWord (rs 0).word) timeout 1).2) := rfl

/-- What the sequence leaves behind. -/
theorem adcReadNewData_freshData (rs : ℕ → XferReply) (a r : Byte) (timeout : Word)
    (htimeout : 1 ≤ timeout.toNat) :
    FreshData rs timeout.toNat (ltc2991AdcReadNewData (streamBus rs) a r timeout 0) := by
  obtain ⟨m, hends, hcount, hack, hout⟩ :=
    ltc2991AdcReadTimeout_stream rs a r (.ofWord (rs 0).word) timeout 1
  have hpos := hends.pos htimeout
  have hle := hends.le
  rw [if_neg hpos.ne', show 1 + (m - 1) = m by omega] at hout
  rw [ltc2991AdcReadNewData_streamBus]
  refine ⟨?_, ?_, fun _ hvalid => ?_, fun _ hvalid => ?_, ?_⟩
  · dsimp only
    rw [BitVec.or_comm, or_ack_eq_zero, hack, hcount]
    constructor
    · rintro ⟨⟨-, hrest⟩, h0⟩ j hj
      rcases j with _ | j
      · exact h0
      · rw [Nat.add_comm]
        exact hrest j (by omega)
    · exact fun h => ⟨⟨rfl, fun j hj => h (1 + j) (by omega)⟩, h 0 (by omega)⟩
  · dsimp only
    rw [hcount]
    omega
  · -- the last word is the first with its bit set
    dsimp only at hvalid ⊢
    rw [hout, ofWord_dataValid_eq_one] at hvalid
    refine ⟨m, hpos, hle, hvalid, fun i hi him => ?_, ?_⟩
    · obtain ⟨j, rfl⟩ := Nat.exists_eq_add_of_le hi
      exact hends.running j (by omega)
    · rw [hout, ofWord_adcCode_toNat]
  · dsimp only at hvalid ⊢
    rw [hout, ofWord_dataValid_eq_zero] at hvalid
    have hnone : ∀ j < timeout.toNat, ¬(rs (1 + j)).DataValid := by
      have hlast := hends.last_iff htimeout
      rw [show 1 + (m - 1) = m by omega] at hlast
      exact fun j hj hset => hvalid (hlast.mpr ⟨j, hj, hset⟩)
    refine ⟨?_, fun k hk hkt => ?_⟩
    · rcases hends.ended with hall | ⟨k, rfl, hset⟩
      · rw [hcount, hall, Nat.add_comm]
      · exact absurd hset (hnone k (by omega))
    · obtain ⟨j, rfl⟩ := Nat.exists_eq_add_of_le hk
      exact hnone j (by omega)
  · dsimp only
    rw [hout, ofWord_dataValid_eq_zero, ofWord_dataValid_eq_one]
    exact (Decidable.em _).symm

/-- Another reply to the flush changes neither the outputs nor the number of transfers: both
    polls end at the same transfer. -/
theorem adcReadNewData_flushed (rs : ℕ → XferReply) (a r : Byte) (timeout : Word)
    (htimeout : 1 ≤ timeout.toNat) (flushed : XferReply) :
    (ltc2991AdcReadNewData (streamBus (Function.update rs 0 flushed)) a r timeout 0).2
      = (ltc2991AdcReadNewData (streamBus rs) a r timeout 0).2 := by
  have hsame : ∀ j, Function.update rs 0 flushed (1 + j) = rs (1 + j) :=
    fun j => Function.update_of_ne (by omega) _ _
  obtain ⟨m, hends, hcount, -, hout⟩ :=
    ltc2991AdcReadTimeout_stream rs a r (.ofWord (rs 0).word) timeout 1
  obtain ⟨m', hends', hcount', -, hout'⟩ :=
    ltc2991AdcReadTimeout_stream (Function.update rs 0 flushed) a r
      (.ofWord (Function.update rs 0 flushed 0).word) timeout 1
  simp only [hsame] at hends' hout'
  obtain rfl := hends.unique hends'
  have hpos := hends.pos htimeout
  rw [if_neg hpos.ne'] at hout hout'
  rw [ltc2991AdcReadNewData_streamBus, ltc2991AdcReadNewData_streamBus]
  exact Prod.ext (hout'.trans hout.symm) (hcount'.trans hcount.symm)

/-- **Fresh data only.**  For every stream of replies and every timeout, the result is zero
    exactly if all transfers made succeeded, at most one more than the timeout is made, the
    outputs are those of the first valid word after the flush, if there is one within the
    timeout, and the flushed reply decides none of them. -/
theorem adcReadNewData_fresh (rs : ℕ → XferReply) (a r : Byte) (timeout : Word)
    (htimeout : 1 ≤ timeout.toNat) :
    FreshData rs timeout.toNat (ltc2991AdcReadNewData (streamBus rs) a r timeout 0)
      ∧ ∀ flushed, (ltc2991AdcReadNewData (streamBus (Function.update rs 0 flushed)) a r timeout
            0).2
          = (ltc2991AdcReadNewData (streamBus rs) a r timeout 0).2 :=
  ⟨adcReadNewData_freshData rs a r timeout htimeout,
    adcReadNewData_flushed rs a r timeout htimeout⟩

/-- A valid word that is flushed and one that is delivered. -/
theorem adcReadNewData_fresh_second :
    FreshData (fun j => if j = 0 then healthy 0x80 0x10 else healthy 0x80 0x20) 2
        (ltc2991AdcReadNewData
          (streamBus fun j => if j = 0 then healthy 0x80 0x10 else healthy 0x80 0x20)
          0x4D 0x0A 2 0)
      ∧ (ltc2991AdcReadNewData
          (streamBus fun j => if j = 0 then healthy 0x80 0x10 else healthy 0x80 0x20)
          0x4D 0x0A 2 0).2 = (⟨0x0020, 1⟩, 2) :=
  ⟨(adcReadNewData_fresh _ 0x4D 0x0A 2 (by decide)).1, by decide⟩

end Vpx3.I2c
