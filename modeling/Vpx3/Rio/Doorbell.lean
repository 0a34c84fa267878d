import Mathlib.Data.BitVec

namespace Vpx3.Rio

/-!
# Doorbells — `fsl_rio_doorbell_send`

The call polls the status register of the outbound doorbell unit, then programs destination
and attributes and toggles the start bit.

* `pollOdsr` — the polling loop over any stream of status words;
* `RioDbellRegs.outOdmr` — a write of the start bit, which records what the registers hold when it
  goes from 0 to 1;
* `fslRioDoorbellSend` — the call, which goes on however the loop has ended and does not use
  its interface number;
* `doorbellRespects_iff` — it respects the state of the unit exactly when the unit is seen not
  busy within the budget and the attributes already hold the interface number.
-/

/-- What the unit finds when the start bit goes from 0 to 1: how often `odsr` has been read by
    then, and what destination and attributes hold. -/
structure StartEdge where
  odsrReads : ℕ
  oddpr : BitVec 32
  oddatr : BitVec 32
  deriving DecidableEq, Repr

/-- The outbound half of `struct rio_dbell_regs`, with the number of reads of `odsr`, the values
    written to it, and the start edges, in order. -/
structure RioDbellRegs where
  odmr : BitVec 32
  odsrReads : ℕ
  odsrWritten : List (BitVec 32)
  oddpr : BitVec 32
  oddatr : BitVec 32
  starts : List StartEdge
  deriving DecidableEq, Repr

/-- A write of `odmr`. -/
def RioDbellRegs.outOdmr (v : BitVec 32) (regs : RioDbellRegs) : RioDbellRegs :=
  { regs with
    odmr := v
    starts :=
      if regs.odmr.getLsbD 0 = false ∧ v.getLsbD 0 = true then
        regs.starts ++ [⟨regs.odsrReads, regs.oddpr, regs.oddatr⟩]
      else regs.starts }

/-- Bit 2 of a status word: the unit is busy. -/
def Idle (odsr : BitVec 32) : Prop := odsr &&& 0x4 = 0

instance (odsr : BitVec 32) : Decidable (Idle odsr) := inferInstanceAs (Decidable (_ = _))

/-- The budget of the polling loop. -/
def doorbellTimeOut : ℕ := 0x100

/-- `while (uiTimeOut--)` with `n` rounds to go: the number of the status read that was not
    busy. -/
def pollOdsr (odsr : ℕ → BitVec 32) : ℕ → ℕ → Option ℕ
  | 0, _ => none
  | uiTimeOut + 1, i => if Idle (odsr i) then some i else pollOdsr odsr uiTimeOut (i + 1)

/-- `fsl_rio_doorbell_send`; `odsr i` is the `i`-th value the status register reads. -/
def fslRioDoorbellSend (odsr : ℕ → BitVec 32) (_index : BitVec 32) (destid data : BitVec 16)
    (regs : RioDbellRegs) : Int × RioDbellRegs :=
  let regs :=
    match pollOdsr odsr doorbellTimeOut 0 with
    | some i =>
      -- one read more, to clear the interrupt bits
      let uiVal := odsr (i + 1) ||| 0x1c02
      { regs with
        odsrReads := regs.odsrReads + (i + 2)
        odsrWritten := regs.odsrWritten ++ [uiVal] }
    | none => { regs with odsrReads := regs.odsrReads + doorbellTimeOut }
  let regs := regs.outOdmr 0
  let regs := { regs with oddpr := destid.setWidth 32 <<< 16 }
  let regs := { regs with oddatr := regs.oddatr &&& ~~~0xffff }
  let regs := { regs with oddatr := regs.oddatr ||| data.setWidth 32 }
  (0, regs.outOdmr 0x00000001)

/-! ### The polling loop -/

/-- The loop finds nothing exactly if every status word within the budget is busy. -/
theorem pollOdsr_eq_none (odsr : ℕ → BitVec 32) (n s : ℕ) :
    pollOdsr odsr n s = none ↔ ∀ j < n, ¬Idle (odsr (s + j)) := by
  induction n generalizing s with
  | zero => exact iff_of_true rfl fun j hj => absurd hj (Nat.not_lt_zero j)
  | succ n ih =>
    rw [pollOdsr]
    by_cases hidle : Idle (odsr s)
    · rw [if_pos hidle]
      exact iff_of_false (Option.some_ne_none s) fun h => h 0 (Nat.succ_pos n) hidle
    · rw [if_neg hidle, ih]
      constructor
      · intro h j hj
        rcases j with _ | j
        · exact hidle
        · rw [show s + (j + 1) = s + 1 + j by omega]
          exact h j (by omega)
      · intro h j hj
        rw [show s + 1 + j = s + (j + 1) by omega]
        exact h (j + 1) (by omega)

/-- What it finds is a status word within the budget that is not busy. -/
theorem idle_of_pollOdsr {odsr : ℕ → BitVec 32} {n s i : ℕ} (h : pollOdsr odsr n s = some i) :
    i < s + n ∧ Idle (odsr i) := by
  induction n generalizing s with
  | zero => nomatch h
  | succ n ih =>
    rw [pollOdsr] at h
    split at h
    · obtain rfl := Option.some.inj h
      exact ⟨by omega, ‹_›⟩
    · obtain ⟨hlt, hidle⟩ := ih h
      exact ⟨by omega, hidle⟩

/-! ### The registers -/

/-- The status words that a call reads: up to the one that it finds not busy and one more, or its
    whole budget. -/
def odsrReadsOf (odsr : ℕ → BitVec 32) : ℕ :=
  match pollOdsr odsr doorbellTimeOut 0 with
  | some i => i + 2
  | none => doorbellTimeOut

/-- The attributes that a call programs. -/
def oddatrOf (old : BitVec 32) (data : BitVec 16) : BitVec 32 :=
  (old &&& ~~~0xffff) ||| data.setWidth 32

/-- The attribute word of a call: data in the low half, the rest as it was. -/
theorem oddatr_fields (old : BitVec 32) (data : BitVec 16) :
    (oddatrOf old data).setWidth 16 = data ∧ oddatrOf old data >>> 20 = old >>> 20 := by
  unfold oddatrOf
  have hlow : ∀ i < 16, (~~~0xffff : BitVec 32).getLsbD i = false := by decide
  have hhigh : ∀ i < 12, (~~~0xffff : BitVec 32).getLsbD (20 + i) = true := by decide
  constructor
  · apply BitVec.eq_of_getLsbD_eq
    intro i hi
    rw [BitVec.getLsbD_setWidth, BitVec.getLsbD_or, BitVec.getLsbD_and, hlow i hi]
    simp [hi]
    omega
  · apply BitVec.eq_of_getLsbD_eq
    intro i hi
    rw [BitVec.getLsbD_ushiftRight, BitVec.getLsbD_ushiftRight, BitVec.getLsbD_or,
      BitVec.getLsbD_and, BitVec.getLsbD_setWidth, BitVec.getLsbD_of_ge data (20 + i) (by omega)]
    rcases Nat.lt_or_ge i 12 with h | h
    · rw [hhigh i h]
      simp
    · rw [BitVec.getLsbD_of_ge old (20 + i) (by omega)]
      simp

/-- Whatever the poll has seen: data and destination are programmed, the rest of the
    attributes is kept, the unit is started once behind that, and the result is zero. -/
theorem fslRioDoorbellSend_spec (odsr : ℕ → BitVec 32) (index : BitVec 32)
    (destid data : BitVec 16) (regs : RioDbellRegs) :
    (fslRioDoorbellSend odsr index destid data regs).1 = 0
      ∧ (fslRioDoorbellSend odsr index destid data regs).2.starts
        = regs.starts ++ [⟨regs.odsrReads + odsrReadsOf odsr, destid.setWidth 32 <<< 16,
          oddatrOf regs.oddatr data⟩]
      ∧ (fslRioDoorbellSend odsr index destid data regs).2.oddpr = destid.setWidth 32 <<< 16
      ∧ (fslRioDoorbellSend odsr index destid data regs).2.oddatr = oddatrOf regs.oddatr data := by
  rw [fslRioDoorbellSend, odsrReadsOf]
  cases pollOdsr odsr doorbellTimeOut 0 with
  | none => exact ⟨rfl, by simp [RioDbellRegs.outOdmr, oddatrOf], rfl, rfl⟩
  | some i => exact ⟨rfl, by simp [RioDbellRegs.outOdmr, oddatrOf], rfl, rfl⟩

/-! ### The state of the unit -/

/-- Destination, data and interface are in place. -/
structure Addressed (index : BitVec 32) (destid data : BitVec 16) (oddpr oddatr : BitVec 32) :
    Prop where
  oddpr : oddpr = destid.setWidth 32 <<< 16
  data : oddatr.setWidth 16 = data
  /-- the interface field, from bit 20 up -/
  interface : oddatr >>> 20 = (index <<< 20) >>> 20

/-- A doorbell was sent behind the status word `i`: there is exactly one start edge, when that word
    has been read and the registers are in place, and they stay so. -/
structure DoorbellSent (i : ℕ) (index : BitVec 32) (destid data : BitVec 16)
    (regs regs' : RioDbellRegs) : Prop where
  edge : ∃ start : StartEdge, regs'.starts = regs.starts ++ [start]
    ∧ regs.odsrReads + i < start.odsrReads ∧ Addressed index destid data start.oddpr start.oddatr
  left : Addressed index destid data regs'.oddpr regs'.oddatr

/-- A call respects the state of the unit: it sees the unit not busy within the budget and
    sends, or it never does and leaves the registers alone and returns an error. -/
def DoorbellRespects (odsr : ℕ → BitVec 32) (index : BitVec 32) (destid data : BitVec 16)
    (regs : RioDbellRegs) : Prop :=
  (∃ i < doorbellTimeOut, pollOdsr odsr doorbellTimeOut 0 = some i ∧ Idle (odsr i)
      ∧ DoorbellSent i index destid data regs (fslRioDoorbellSend odsr index destid data regs).2)
    ∨ ((∀ i < doorbellTimeOut, ¬Idle (odsr i))
      ∧ (fslRioDoorbellSend odsr index destid data regs).1 ≠ 0
      ∧ (fslRioDoorbellSend odsr index destid data regs).2.starts = regs.starts
      ∧ (fslRioDoorbellSend odsr index destid data regs).2.odmr = regs.odmr
      ∧ (fslRioDoorbellSend odsr index destid data regs).2.oddpr = regs.oddpr
      ∧ (fslRioDoorbellSend odsr index destid data regs).2.oddatr = regs.oddatr)

/-- **Doorbells and the unit's state.**  For every stream of status words, all arguments and
    every content of the registers, the call respects the state of the unit if and only if one
    of the first `0x100` status words is not busy and the attribute register already holds the
    interface number. -/
theorem doorbellRespects_iff (odsr : ℕ → BitVec 32) (index : BitVec 32) (destid data : BitVec 16)
    (regs : RioDbellRegs) :
    DoorbellRespects odsr index destid data regs
      ↔ (∃ i < doorbellTimeOut, Idle (odsr i))
        ∧ regs.oddatr >>> 20 = (index <<< 20) >>> 20 := by
  obtain ⟨hret, hstarts, hoddpr, hoddatr⟩ := fslRioDoorbellSend_spec odsr index destid data regs
  obtain ⟨hdata, hkept⟩ := oddatr_fields regs.oddatr data
  constructor
  · rintro (⟨i, hi, -, hidle, hsent⟩ | ⟨-, herror, -⟩)
    · refine ⟨⟨i, hi, hidle⟩, ?_⟩
      have hfield := hsent.left.interface
      rwa [hoddatr, hkept] at hfield
    · exact absurd hret herror
  · rintro ⟨⟨i, hi, hidle⟩, hfield⟩
    left
    -- the loop has found a word of its own
    cases hpoll : pollOdsr odsr doorbellTimeOut 0 with
    | none =>
      have hbusy := (pollOdsr_eq_none odsr doorbellTimeOut 0).mp hpoll i hi
      rw [Nat.zero_add] at hbusy
      exact absurd hidle hbusy
    | some j =>
      obtain ⟨hj, hidle'⟩ := idle_of_pollOdsr hpoll
      rw [Nat.zero_add] at hj
      have hreads : odsrReadsOf odsr = j + 2 := by rw [odsrReadsOf, hpoll]
      have hplaced : Addressed index destid data (destid.setWidth 32 <<< 16)
          (oddatrOf regs.oddatr data) := ⟨rfl, hdata, hkept.trans hfield⟩
      refine ⟨j, hj, rfl, hidle', ⟨_, hstarts, ?_, hplaced⟩, ?_⟩
      · dsimp only
        rw [hreads]
        omega
      · rw [hoddpr, hoddatr]
        exact hplaced

/-- Registers after a doorbell of interface 0. -/
def usedDbellRegs : RioDbellRegs where
  odmr := 1
  odsrReads := 2
  odsrWritten := [0x1c02]
  oddpr := 0x00010000
  oddatr := 0x00000055
  starts := [⟨2, 0x00010000, 0x00000055⟩]

/-- A unit that is always busy is started again, and the call returns 0; an idle one does not
    get the interface number 1. -/
theorem not_doorbellRespects :
    ¬DoorbellRespects (fun _ => 0x4) 0 2 7 usedDbellRegs
      ∧ ¬DoorbellRespects (fun _ => 0) 1 2 7 usedDbellRegs := by
  constructor
  · rintro (⟨i, -, -, hidle, -⟩ | ⟨-, herror, -⟩)
    · exact absurd hidle (show ¬Idle 0x4 by decide)
    · exact absurd (fslRioDoorbellSend_spec _ 0 2 7 usedDbellRegs).1 herror
  · rintro (⟨i, -, -, -, hsent⟩ | ⟨-, herror, -⟩)
    · have hfield := hsent.left.interface
      rw [(fslRioDoorbellSend_spec _ 1 2 7 usedDbellRegs).2.2.2] at hfield
      exact absurd hfield (by decide)
    · exact absurd (fslRioDoorbellSend_spec _ 1 2 7 usedDbellRegs).1 herror

end Vpx3.Rio
