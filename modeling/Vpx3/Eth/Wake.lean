import Vpx3.Eth.Xmit

namespace Vpx3.Eth

open Exec

/-!
# Ethernet over RapidIO — can a stopped queue still be woken?

A queue that is stopped is handed no frames; only the interrupt of the mailbox wakes it.  The
handler compares slots, so that a full ring the mailbox has sent as a whole looks like one of which
it has sent nothing, and it acks the interrupt behind the driver's function, and with it one that
came in between.

* `Wakeable` — something can still happen after which the queue is awake, read off one state;
* `Stuck.step` — otherwise nothing that can happen changes that;
* `wakes_iff_wakeable` — the two are exact.
-/

variable {S : Type} [DecidableEq S] {n k size : ℕ} {s t : TxDev S n}

/-- How many messages of the ring the mailbox has sent. -/
def TxDev.done (s : TxDev S n) : ℕ := s.txCnt - s.todo

/-- The queue is awake, or the handler is about to be called and the mailbox has not sent a full
    ring, or it will be, for a message that is not the last one of a full ring. -/
def Wakeable (size : ℕ) (s : TxDev S n) : Prop :=
  s.stopped = false
    ∨ (s.irq = true ∧ s.handling = false ∧ s.done ≠ size)
    ∨ (0 < s.todo ∧ s.done + 1 < size)

instance (size : ℕ) (s : TxDev S n) : Decidable (Wakeable size s) :=
  inferInstanceAs (Decidable (_ ∨ _))

/-! ### Nothing wakes it -/

/-- A stopped queue for which the mailbox will do nothing more. -/
structure Stuck (size : ℕ) (s : TxDev S n) : Prop where
  inv : TxInv size s
  stopped : s.stopped = true
  called : s.irq = true → s.handling = false → s.done = size
  sent : 0 < s.todo → size ≤ s.done + 1

theorem Stuck.of_not_wakeable (h : TxInv size s) (hnot : ¬Wakeable size s) : Stuck size s := by
  unfold Wakeable at hnot
  push Not at hnot
  obtain ⟨hstopped, hcalled, hsent⟩ := hnot
  exact ⟨h, (Bool.not_eq_false _).mp hstopped, hcalled, hsent⟩

/-- **Every step** of a stuck queue leaves it stuck. -/
theorem Stuck.step (h : Stuck (2 ^ k) s) {e : TxEvent S n}
    (hstep : txStep (2 ^ k) s e = some t) : Stuck (2 ^ k) t := by
  have hroom := h.inv.ring.room
  have htodo := h.inv.ring.todo
  have hsent := h.sent
  have hcalled := h.called
  unfold TxDev.done at hsent hcalled
  cases e with
  | xmit node trylock skb hDest =>
    rw [txStep, if_pos h.stopped] at hstep
    cases hstep
  | sent =>
    have hinv := (txStep_inv_iff h.inv hstep).mpr trivial
    rw [txStep] at hstep
    split at hstep
    · cases hstep
    · -- it was the last message of a full ring
      obtain rfl := Option.some.inj hstep
      have hlast := hsent (by omega)
      refine ⟨hinv, h.stopped, fun _ _ => ?_, fun hpos => ?_⟩
      · show s.txCnt - (s.todo - 1) = 2 ^ k
        omega
      · change 0 < s.todo - 1 at hpos
        omega
  | event =>
    have hinv := (txStep_inv_iff h.inv hstep).mpr trivial
    rw [txStep, Option.ite_none_right_eq_some] at hstep
    obtain ⟨⟨hirq, hhandling⟩, hstep⟩ := hstep
    -- the slot is that of `ack_slot`
    have hall := hcalled hirq hhandling
    obtain ⟨u, hacked, hevent⟩ := rionetOutbMsgEvent_acked h.inv
    have hcnt := hacked.txCnt
    have hutodo := hacked.todo
    have hustopped := hacked.stopped.trans h.stopped
    rw [TxDev.givenBack, if_pos hall] at hcnt
    rw [hevent, if_neg (by omega)] at hstep
    obtain rfl := Option.some.inj hstep
    refine ⟨hinv, hustopped, fun _ hfalse => absurd hfalse Bool.noConfusion, fun hpos => ?_⟩
    change 0 < u.todo at hpos
    omega
  | ackIrq =>
    have hinv := (txStep_inv_iff h.inv hstep).mpr trivial
    rw [txStep, Option.ite_none_right_eq_some] at hstep
    obtain rfl := Option.some.inj hstep.2
    exact ⟨hinv, h.stopped, fun hfalse => absurd hfalse Bool.noConfusion, h.sent⟩

/-! ### Something does -/

/-- A call of the driver's function that gives back a frame, or finds room, wakes the queue. -/
theorem event_wakes (h : TxInv (2 ^ k) s) (hirq : s.irq = true) (hhandling : s.handling = false)
    (hroom : s.txCnt < 2 ^ k + s.givenBack (2 ^ k)) :
    ∃ t, txStep (2 ^ k) s .event = some t ∧ t.stopped = false := by
  obtain ⟨u, hacked, hevent⟩ := rionetOutbMsgEvent_acked h
  have hcnt := hacked.txCnt
  rw [txStep, if_pos ⟨hirq, hhandling⟩, hevent, if_pos (by omega)]
  exact ⟨_, rfl, rfl⟩

/-- The handler returns, if it is at work. -/
theorem exists_idle (h : TxInv (2 ^ k) s) :
    ∃ run t, exec (txStep (2 ^ k)) s run = some t ∧ TxInv (2 ^ k) t ∧ t.handling = false
      ∧ t.todo = s.todo ∧ t.txCnt = s.txCnt := by
  by_cases hhandling : s.handling = true
  · have hstep : txStep (2 ^ k) s .ackIrq = some { s with irq := false, handling := false } := by
      rw [txStep, if_pos hhandling]
    refine ⟨[.ackIrq], _, ?_, (txStep_inv_iff h hstep).mpr trivial, rfl, rfl, rfl⟩
    rw [exec_cons, hstep]
    rfl
  · exact ⟨[], s, rfl, h, (Bool.not_eq_true _).mp hhandling, rfl, rfl⟩

/-- A message more that the mailbox sends wakes the queue. -/
theorem sent_wakes (h : TxInv (2 ^ k) s) (htodo : 0 < s.todo) (hdone : s.done + 1 < 2 ^ k) :
    ∃ run t, exec (txStep (2 ^ k)) s run = some t ∧ t.stopped = false := by
  obtain ⟨run, u, hrun, hu, hhandling, hutodo, hucnt⟩ := exists_idle h
  have hstep : txStep (2 ^ k) u .sent
      = some { u with todo := u.todo - 1, deq := (u.deq + 1) % 2 ^ k, irq := true } := by
    rw [txStep, if_neg (by omega)]
  have hle := h.ring.todo
  have hroom := h.ring.room
  unfold TxDev.done at hdone
  have hgiven : s.txCnt < 2 ^ k + TxDev.givenBack (2 ^ k)
      { u with todo := u.todo - 1, deq := (u.deq + 1) % 2 ^ k, irq := true } := by
    show s.txCnt < 2 ^ k + if u.txCnt - (u.todo - 1) = 2 ^ k then 0 else u.txCnt - (u.todo - 1)
    rw [if_neg (by omega)]
    omega
  obtain ⟨t, ht, hwake⟩ := event_wakes ((txStep_inv_iff hu hstep).mpr trivial) rfl hhandling
    (by rw [← hucnt] at hgiven; exact hgiven)
  refine ⟨run ++ [.sent, .event], t, ?_, hwake⟩
  rw [exec_append, hrun, Option.bind_some, exec_cons, hstep, Option.bind_some, exec_cons, ht]
  rfl

/-- **Waking.**  On every ring of two slots or more, in every state of a guarded run behind
    `rionet_open`: something can still happen after which the queue is awake if and only if the
    state is wakeable. -/
theorem wakes_iff_wakeable (k : ℕ) (hk : 0 < k) (run : List (TxEvent S n)) (s : TxDev S n)
    (hguard : Guarded (txStep (2 ^ k)) (XmitGuard (2 ^ k)) txInit run)
    (hrun : exec (txStep (2 ^ k)) txInit run = some s) :
    (∃ later t, exec (txStep (2 ^ k)) s later = some t ∧ t.stopped = false)
      ↔ Wakeable (2 ^ k) s := by
  have h : TxInv (2 ^ k) s := exec_invariant
    (fun _ _ _ hs hg hstep => (txStep_inv_iff hs hstep).mpr hg) run txInit s txInv_init hguard hrun
  constructor
  · rintro ⟨later, t, hlater, hawake⟩
    by_contra hnot
    have hstuck := exec_invariant (fun _ _ _ hs (_ : True) hstep => Stuck.step hs hstep) later s t
      (Stuck.of_not_wakeable h hnot) (Guarded.of_labels later (fun _ _ => trivial) s) hlater
    exact Bool.false_ne_true (hawake.symm.trans hstuck.stopped)
  · have htwo : 2 ≤ 2 ^ k := Nat.le_self_pow hk.ne' 2
    rintro (hawake | ⟨hirq, hhandling, hdone⟩ | ⟨htodo, hdone⟩)
    · exact ⟨[], s, rfl, hawake⟩
    · by_cases hgiven : s.txCnt < 2 ^ k + s.givenBack (2 ^ k)
      · obtain ⟨t, ht, hawake⟩ := event_wakes h hirq hhandling hgiven
        exact ⟨[.event], t, by rw [exec_cons, ht]; rfl, hawake⟩
      · -- nothing of a full ring has been sent
        have hroom := h.ring.room
        have htodo := h.ring.todo
        unfold TxDev.done at hdone
        rw [TxDev.givenBack, if_neg hdone] at hgiven
        exact sent_wakes h (by omega) (by unfold TxDev.done; omega)
    · exact sent_wakes h htodo hdone

/-- A broadcast to two devices fills a ring of two slots, both messages of which are sent before
    the handler looks. -/
def sentAsWhole : List (TxEvent ℕ 2) :=
  [.xmit (bothActive 2) true 7 fun _ => 0xff, .sent, .sent, .event, .ackIrq]

/-- The queue stays stopped for ever. -/
theorem not_wakes_sentAsWhole :
    ¬∃ later t, exec (txStep (2 ^ 1))
        ((exec (txStep (2 ^ 1)) txInit sentAsWhole).get (by decide)) later = some t
      ∧ t.stopped = false :=
  fun h => absurd ((wakes_iff_wakeable 1 (by decide) sentAsWhole _ (by decide)
    (Option.some_get _).symm).mp h) (by decide)

end Vpx3.Eth
