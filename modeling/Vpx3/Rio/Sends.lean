import Vpx3.Rio.Mailbox

namespace Vpx3.Rio

open Exec

/-!
# Sends — runs of `OutBoundSendMsg` and the open they depend on

* `SendCall.run_cases` — what one call does, by its two checks;
* `sendStep` — the machine of such calls, which remembers whether an open has succeeded;
* `CallRespects` — a call sends only on an opened ring; before that it returns an error and
  leaves the open to a later call; a size it rejects changes nothing;
* `openRespected_iff` — that holds for every call of a run exactly when each call that comes
  to its open finds it successful: the flag is set whatever the open returns.
-/

/-- One call of `OutBoundSendMsg`. -/
structure SendCall where
  env : SendEnv
  args : SendArgs
  buffer : ℕ → BitVec 8

/-- The return value of the call and the state it leaves. -/
def SendCall.run (c : SendCall) (s : Rmu) : Int × Rmu :=
  outBoundSendMsg c.env c.args.index c.args.destid c.args.mbox c.buffer c.args.size s

/-- The moves of an accepted call behind its open. -/
def SendArgs.send (args : SendArgs) (s : Rmu) : Rmu :=
  nextSlot (writeMui (storeDesc args.fill (storeBuffer (fun _ => 0x1) args.size s)))

/-- A call that passes both checks. -/
def SendCall.Accepted (c : SendCall) : Prop := c.env.kmalloc = true ∧ c.args.Sized

instance (c : SendCall) : Decidable c.Accepted := inferInstanceAs (Decidable (_ ∧ _))

/-- A call is refused and changes nothing, or it opens the ring if its flag is clear and
    sends. -/
theorem SendCall.run_cases (c : SendCall) (s : Rmu) :
    (¬c.Accepted ∧ (c.run s).1 < 0 ∧ (c.run s).2 = s)
      ∨ (c.Accepted ∧ c.run s = (0, c.args.send (openOnce c.env s))) := by
  rw [SendCall.run, outBoundSendMsg]
  by_cases hk : c.env.kmalloc = false
  · left
    rw [if_pos hk]
    exact ⟨fun h => Bool.false_ne_true (hk.symm.trans h.1), show (-1 : Int) < 0 by decide, rfl⟩
  · rw [if_neg hk]
    by_cases hsized : c.args.Sized
    · right
      rw [if_neg hsized]
      exact ⟨⟨Bool.eq_true_of_not_eq_false hk, hsized⟩, rfl⟩
    · left
      rw [if_pos (not_not.mp hsized)]
      exact ⟨fun h => hsized h.2, neg_errno.1, rfl⟩

/-- With the flag set an accepted call does nothing but send. -/
theorem SendCall.run_of_open {c : SendCall} (hc : c.Accepted) {s : Rmu}
    (hflag : s.uiOpenFlag = true) : c.run s = (0, c.args.send s) := by
  rcases c.run_cases s with ⟨hnot, -⟩ | ⟨-, hrun⟩
  · exact absurd hc hnot
  · rw [hrun, openOnce, if_pos hflag]

/-! ### The open -/

/-- The open of a call, if it comes to one, succeeds. -/
def SendCall.OpensOk (c : SendCall) (s : Rmu) : Prop :=
  c.env.Opens c.args s ∧ 0 ≤ (fslOpenOutbMbox c.env.openEnv c.env.uiOpenId 1024 s).1

instance (c : SendCall) (s : Rmu) : Decidable (c.OpensOk s) := inferInstanceAs (Decidable (_ ∧ _))

/-- The state behind the open of a call. -/
def SendCall.afterOpen (c : SendCall) (s : Rmu) : Rmu :=
  if c.env.Opens c.args s then (fslOpenOutbMbox c.env.openEnv c.env.uiOpenId 1024 s).2 else s

/-- It succeeds exactly when nothing it asks for is refused. -/
theorem SendCall.opensOk_iff (c : SendCall) (s : Rmu) :
    c.OpensOk s ↔ c.env.Opens c.args s ∧ ¬c.env.openEnv.Fails 1024 :=
  and_congr_right fun _ => (fslOpenOutbMbox_fixed c.env.openEnv c.env.uiOpenId s).2

/-- The message unit, and whether an open has succeeded. -/
structure SendRun where
  rmu : Rmu
  opened : Bool

/-- One call more. -/
def SendRun.after (s : SendRun) (c : SendCall) : SendRun where
  rmu := (c.run s.rmu).2
  opened := s.opened || decide (c.OpensOk s.rmu)

/-- The machine. -/
def sendStep (s : SendRun) (c : SendCall) : Option SendRun := some (s.after c)

/-- Before the first call; the ring may hold anything. -/
def sendInit (rmu : Rmu) : SendRun where
  rmu := { rmu with uiOpenFlag := false }
  opened := false

/-- A call respects the open: rejected for its size it changes nothing; and as long as no open
    has succeeded it returns an error, leaves the flag clear for a later call, and has stored
    into no buffer and no descriptor and not advanced `tx_slot` since its open. -/
structure CallRespects (s : SendRun) (c : SendCall) : Prop where
  rejected : ¬c.args.Sized → (c.run s.rmu).2 = s.rmu
  unopened : (s.after c).opened = false →
    (c.run s.rmu).1 ≠ 0 ∧ (c.run s.rmu).2.uiOpenFlag = false
      ∧ (c.run s.rmu).2.msgTxRing.virtBuffer = (c.afterOpen s.rmu).msgTxRing.virtBuffer
      ∧ (c.run s.rmu).2.msgTxRing.virt = (c.afterOpen s.rmu).msgTxRing.virt
      ∧ (c.run s.rmu).2.msgTxRing.txSlot = (c.afterOpen s.rmu).msgTxRing.txSlot

/-- The condition on a call: if it comes to its open, nothing is refused there. -/
def OpenGuard (s : SendRun) (c : SendCall) : Prop :=
  c.env.Opens c.args s.rmu → ¬c.env.openEnv.Fails 1024

/-- The flag says that an open has succeeded. -/
def FlagTrue (s : SendRun) : Prop := s.opened = s.rmu.uiOpenFlag

/-- A refused call opens nothing. -/
theorem SendCall.not_opens {c : SendCall} (hc : ¬c.Accepted) (s : Rmu) :
    ¬c.env.Opens c.args s := fun h => hc ⟨h.1, h.2.1⟩

/-- An accepted call sets the flag. -/
theorem uiOpenFlag_run {c : SendCall} (hc : c.Accepted) (s : Rmu) :
    (c.run s).2.uiOpenFlag = true := by
  rcases c.run_cases s with ⟨hnot, -⟩ | ⟨-, hrun⟩
  · exact absurd hc hnot
  · have hmoves : ∀ t : Rmu, (c.args.send t).uiOpenFlag = t.uiOpenFlag := fun _ => rfl
    rw [hrun, hmoves, openOnce]
    split
    · assumption
    · rfl

/-- Where the flag is true, a call respects the open exactly if it is guarded. -/
theorem callRespects_iff {s : SendRun} (hinv : FlagTrue s) (c : SendCall) :
    CallRespects s c ↔ OpenGuard s c := by
  by_cases hc : c.Accepted
  · -- the call sends, so an open must have succeeded by now
    have hret : (c.run s.rmu).1 = 0 := by
      rcases c.run_cases s.rmu with ⟨hnot, -⟩ | ⟨-, hrun⟩
      · exact absurd hc hnot
      · rw [hrun]
    constructor
    · intro h hopens hfails
      have hclosed : (s.after c).opened = false := by
        rw [SendRun.after, hinv, hopens.2.2, Bool.false_or, decide_eq_false_iff_not,
          c.opensOk_iff]
        exact fun hok => hok.2 hfails
      exact (h.unopened hclosed).1 hret
    · intro hguard
      refine ⟨fun hsize => absurd hc.2 hsize, fun hclosed => ?_⟩
      rw [SendRun.after, Bool.or_eq_false_iff, decide_eq_false_iff_not, c.opensOk_iff] at hclosed
      have hopens : c.env.Opens c.args s.rmu := ⟨hc.1, hc.2, hinv.symm.trans hclosed.1⟩
      exact absurd ⟨hopens, hguard hopens⟩ hclosed.2
  · -- the call is refused, and nothing has changed
    refine iff_of_true ?_ fun hopens => absurd hopens (c.not_opens hc s.rmu)
    rcases c.run_cases s.rmu with ⟨-, hneg, hsame⟩ | ⟨hacc, -⟩
    · refine ⟨fun _ => hsame, fun hclosed => ⟨hneg.ne, ?_⟩⟩
      have hopened : s.opened = false := (Bool.or_eq_false_iff.mp hclosed).1
      rw [hsame, SendCall.afterOpen, if_neg (c.not_opens hc s.rmu)]
      exact ⟨hinv.symm.trans hopened, rfl, rfl, rfl⟩
    · exact absurd hacc hc

/-- Guarded calls keep the flag true. -/
theorem FlagTrue.after {s : SendRun} (hinv : FlagTrue s) {c : SendCall} (hguard : OpenGuard s c) :
    FlagTrue (s.after c) := by
  rw [FlagTrue, SendRun.after]
  dsimp only
  by_cases hc : c.Accepted
  · rw [uiOpenFlag_run hc, Bool.or_eq_true, decide_eq_true_eq, c.opensOk_iff]
    cases hflag : s.rmu.uiOpenFlag with
    | true => exact Or.inl (hinv.trans hflag)
    | false =>
      have hopens : c.env.Opens c.args s.rmu := ⟨hc.1, hc.2, hflag⟩
      exact Or.inr ⟨hopens, hguard hopens⟩
  · have hnot : ¬c.OpensOk s.rmu := fun h => c.not_opens hc s.rmu h.1
    rw [decide_eq_false hnot, Bool.or_false, hinv]
    rcases c.run_cases s.rmu with ⟨-, -, hsame⟩ | ⟨hacc, -⟩
    · rw [hsame]
    · exact absurd hacc hc

/-- **Failed opens.**  For every run of calls and every outcome of their opens, each call of
    the run respects the open if and only if every call that comes to its open finds it
    successful. -/
theorem openRespected_iff (rmu : Rmu) (run : List SendCall) :
    Guarded sendStep CallRespects (sendInit rmu) run
      ↔ Guarded sendStep OpenGuard (sendInit rmu) run := by
  refine guarded_congr (fun s c hinv => callRespects_iff hinv c) ?_
    (show FlagTrue (sendInit rmu) from rfl)
  intro s c s' hinv hrespects h
  obtain rfl := Option.some.inj h
  exact hinv.after ((callRespects_iff hinv c).mp hrespects)

/-- A call whose open gets no memory for its first buffer returns 0, and the next one does not
    open the ring. -/
theorem not_openRespected :
    ¬Guarded sendStep CallRespects (sendInit (smallRing 0))
        [⟨⟨true, 9, ⟨fun _ => none, none, 0⟩⟩, ⟨0, 1, 0, 8⟩, fun _ => 0x55⟩]
      ∧ (SendCall.run ⟨⟨true, 9, ⟨fun _ => none, none, 0⟩⟩, ⟨0, 1, 0, 8⟩, fun _ => 0x55⟩
          (sendInit (smallRing 0)).rmu).1 = 0 := by
  have hret : (SendCall.run ⟨⟨true, 9, ⟨fun _ => none, none, 0⟩⟩, ⟨0, 1, 0, 8⟩, fun _ => 0x55⟩
      (sendInit (smallRing 0)).rmu).1 = 0 := by decide +kernel
  refine ⟨fun h => ?_, hret⟩
  exact (h.1.unopened (by decide +kernel)).1 hret

end Vpx3.Rio
