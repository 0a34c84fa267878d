import Mathlib
import Vpx3.Lib.Exec
import Vpx3.Lib.Flags
import Vpx3.Dma.Chan
import Vpx3.Dma.Handles

namespace Vpx3.Dma

open Exec Flags

/-!
# DMA controller — its interrupts

A controller has one interrupt for all its channels, or one for each channel.

* `fsldmaCtrlIrq` — the handler of the one for all: the status word has a byte for each channel,
  but the mask moves on for the channels that are there only;
* `ctrlIrq_exact_iff` — it serves the channels whose byte is set exactly if no channel is missing
  below one that is there;
* `fsldmaRequestIrqs`, `fsldmaFreeIrqs` — what probe and remove do to the registered handlers;
* `irqStep` — the machine: the device is probed and removed, with any answers of `request_irq`;
* `irqs_released` — between the two exactly the device's own handlers are registered, and none is
  freed that was not registered, unless `request_irq` refuses a channel.
-/

/-- `struct fsldma_chan`, as far as interrupts go: the channel itself and its number; `none` is
    `NO_IRQ`. -/
structure IrqChan where
  id : ℕ
  irq : Option ℕ

/-- `struct fsldma_device`: its interrupt, and its channels by their numbers. -/
structure IrqDev where
  irq : Option ℕ
  chan : ℕ → Option IrqChan
  distinct : ∀ i j a b, chan i = some a → chan j = some b → a.id = b.id → i = j

/-- The channel is there. -/
def IrqDev.present (dev : IrqDev) (i : ℕ) : Bool := (dev.chan i).isSome

/-! ### One interrupt for all channels -/

/-- The byte of the status word with number `r`. -/
def byteMask (r : ℕ) : Word := (0xff000000 : Word) >>> (8 * r)

/-- The loop of `fsldma_ctrl_irq` through `k` channels from channel `i` on: the channels whose
    handler it calls. -/
def ctrlIrqLoop (dev : IrqDev) : ℕ → ℕ → Word → Word → List ℕ
  | 0, _, _, _ => []
  | k + 1, i, gsr, mask =>
    -- `continue` leaves the mask where it is
    if dev.present i = false then ctrlIrqLoop dev k (i + 1) gsr mask
    else if isSet gsr mask then i :: ctrlIrqLoop dev k (i + 1) (gsr &&& ~~~mask) (mask >>> 8)
    else ctrlIrqLoop dev k (i + 1) (gsr &&& ~~~mask) (mask >>> 8)

/-- `fsldma_ctrl_irq`. -/
def fsldmaCtrlIrq (dev : IrqDev) (gsr : Word) : List ℕ :=
  ctrlIrqLoop dev fslDmaMaxChansPerDevice 0 gsr 0xff000000

/-- How many channels are there below channel `i`. -/
def IrqDev.rank (dev : IrqDev) (i : ℕ) : ℕ := (List.range i).countP dev.present

theorem rank_succ (dev : IrqDev) (i : ℕ) :
    dev.rank (i + 1) = dev.rank i + if dev.present i then 1 else 0 := by
  unfold IrqDev.rank
  rw [List.range_succ, List.countP_append, List.countP_singleton]

theorem rank_le (dev : IrqDev) (i : ℕ) : dev.rank i ≤ i := by
  have hle := List.countP_le_length (p := dev.present) (l := List.range i)
  rw [List.length_range] at hle
  exact hle

/-- Two bytes have no bit in common. -/
theorem byteMask_disjoint {q r : ℕ} (hqr : q < r) (hr : r ≤ 4) :
    byteMask q &&& byteMask r = 0 := by
  have hall : ∀ r ≤ 4, ∀ q < r, byteMask q &&& byteMask r = 0 := by decide
  exact hall r hr q hqr

theorem byteMask_succ (r : ℕ) : byteMask r >>> 8 = byteMask (r + 1) := by
  unfold byteMask
  rw [← BitVec.shiftRight_add, Nat.mul_add]

/-- A channel from `i` on is `i` itself or one behind it. -/
theorem here_or_later {i j k : ℕ} (P : Prop) :
    (i ≤ j ∧ j < i + (k + 1) ∧ P) ↔ (j = i ∧ P) ∨ (i + 1 ≤ j ∧ j < i + 1 + k ∧ P) := by
  constructor
  · rintro ⟨hle, hlt, hp⟩
    rcases Nat.eq_or_lt_of_le hle with heq | hlt'
    · exact Or.inl ⟨heq.symm, hp⟩
    · exact Or.inr ⟨hlt', by omega, hp⟩
  · rintro (⟨rfl, hp⟩ | ⟨hle, hlt, hp⟩)
    · exact ⟨le_rfl, by omega, hp⟩
    · exact ⟨by omega, by omega, hp⟩

/-- **What is served**: a channel that is there is served if a byte is set, not its own but that
    of its rank. -/
theorem mem_ctrlIrqLoop (dev : IrqDev) (gsr : Word) (k i : ℕ) (cur : Word) (hk : i + k = 4)
    (hcur : ∀ q, dev.rank i ≤ q → q ≤ 4 → isSet cur (byteMask q) = isSet gsr (byteMask q)) (j : ℕ) :
    j ∈ ctrlIrqLoop dev k i cur (byteMask (dev.rank i)) ↔
      i ≤ j ∧ j < i + k ∧ dev.present j = true ∧ isSet gsr (byteMask (dev.rank j)) = true := by
  induction k generalizing i cur with
  | zero =>
    refine iff_of_false List.not_mem_nil ?_
    rintro ⟨hle, hlt, -⟩
    omega
  | succ k ih =>
    have hrank := rank_le dev i
    rw [ctrlIrqLoop, here_or_later]
    cases hpresent : dev.present i with
    | false =>
      -- neither the mask nor the rank moves
      have hnext : dev.rank (i + 1) = dev.rank i := by
        rw [rank_succ, hpresent]
        rfl
      have hlater := ih (i + 1) cur (by omega) (hnext.symm ▸ hcur)
      rw [hnext] at hlater
      rw [if_pos rfl, hlater]
      constructor
      · exact Or.inr
      · rintro (⟨rfl, hp, -⟩ | h)
        · rw [hpresent] at hp
          cases hp
        · exact h
    | true =>
      -- the byte is cleared, which the bytes of later channels do not notice
      have hnext : dev.rank (i + 1) = dev.rank i + 1 := by
        rw [rank_succ, hpresent]
        rfl
      have hlater := ih (i + 1) (cur &&& ~~~byteMask (dev.rank i)) (by omega) (by
        intro q hq hq4
        rw [hnext] at hq
        rw [isSet_clear_of_disjoint cur (byteMask_disjoint hq hq4)]
        exact hcur q (by omega) hq4)
      rw [hnext, ← byteMask_succ] at hlater
      have hhere := hcur (dev.rank i) le_rfl (by omega)
      rw [if_neg Bool.true_eq_false_eq_False]
      cases hset : isSet cur (byteMask (dev.rank i)) with
      | false =>
        rw [if_neg Bool.false_ne_true, hlater]
        constructor
        · exact Or.inr
        · rintro (⟨rfl, -, hp⟩ | h)
          · rw [← hhere, hset] at hp
            cases hp
          · exact h
      | true =>
        rw [if_pos rfl, List.mem_cons, hlater]
        constructor
        · rintro (rfl | h)
          · exact Or.inl ⟨rfl, hpresent, hhere.symm.trans hset⟩
          · exact Or.inr h
        · rintro (⟨rfl, -⟩ | h)
          · exact Or.inl rfl
          · exact Or.inr h

/-- **The right channels.**  Whatever the status word: the handler serves exactly the channels that
    are there and whose byte is set, if and only if all channels below one that is there are there
    as well. -/
theorem ctrlIrq_exact_iff (dev : IrqDev) :
    (∀ gsr j, j ∈ fsldmaCtrlIrq dev gsr ↔
        j < fslDmaMaxChansPerDevice ∧ dev.present j = true ∧ isSet gsr (byteMask j) = true)
      ↔ ∀ j < fslDmaMaxChansPerDevice, dev.present j = true → ∀ l < j, dev.present l = true := by
  have hmem : ∀ gsr j, j ∈ fsldmaCtrlIrq dev gsr ↔
      0 ≤ j ∧ j < 0 + 4 ∧ dev.present j = true ∧ isSet gsr (byteMask (dev.rank j)) = true :=
    fun gsr j => mem_ctrlIrqLoop dev gsr 4 0 gsr (Nat.zero_add 4) (fun _ _ _ => rfl) j
  unfold fslDmaMaxChansPerDevice
  constructor
  · intro hexact j hj hpresent l hl
    by_contra habsent
    -- with a hole below it, channel `j` goes by another byte than its own
    have hrank : dev.rank j < j := by
      have hlt : (List.range j).countP dev.present < (List.range j).length :=
        List.countP_lt_length_iff.mpr ⟨l, List.mem_range.mpr hl, (Bool.not_eq_true _).mp habsent⟩
      rw [List.length_range] at hlt
      exact hlt
    have hown : isSet (byteMask j) (byteMask j) = true := by
      have hall : ∀ j < 4, isSet (byteMask j) (byteMask j) = true := by decide
      exact hall j hj
    have hother : isSet (byteMask j) (byteMask (dev.rank j)) = false := by
      unfold isSet
      rw [BitVec.and_comm, byteMask_disjoint hrank hj.le]
      rfl
    have hserved := (hexact (byteMask j) j).mpr ⟨hj, hpresent, hown⟩
    rw [hmem, hother] at hserved
    exact absurd hserved.2.2.2 Bool.false_ne_true
  · intro hbelow gsr j
    have hrank (hj : j < 4) (hpresent : dev.present j = true) : dev.rank j = j := by
      unfold IrqDev.rank
      rw [List.countP_eq_length.mpr, List.length_range]
      intro l hl
      exact hbelow j hj hpresent l (List.mem_range.mp hl)
    rw [hmem]
    constructor
    · rintro ⟨-, hj, hpresent, hset⟩
      rw [Nat.zero_add] at hj
      exact ⟨hj, hpresent, hrank hj hpresent ▸ hset⟩
    · rintro ⟨hj, hpresent, hset⟩
      exact ⟨Nat.zero_le j, by omega, hpresent, (hrank hj hpresent).symm ▸ hset⟩

/-! ### Registering and freeing -/

/-- `dev_id`: whose handler it is. -/
inductive Owner where
  | controller
  | chan (id : ℕ)
  deriving DecidableEq

/-- The handlers of the device that the kernel has registered, by interrupt and owner; whether the
    probe has succeeded; and what was freed that was not registered. -/
structure IrqState where
  actions : Finset (ℕ × Owner)
  bound : Bool
  stray : List (ℕ × Owner)

/-- `request_irq` that succeeds. -/
def IrqState.requestIrq (irq : ℕ) (owner : Owner) (s : IrqState) : IrqState :=
  { s with actions := insert (irq, owner) s.actions }

/-- `free_irq`. -/
def IrqState.freeIrq (irq : ℕ) (owner : Owner) (s : IrqState) : IrqState :=
  { s with
    actions := s.actions.erase (irq, owner)
    stray := if (irq, owner) ∈ s.actions then s.stray else s.stray ++ [(irq, owner)] }

/-- The freeing of channel `i`, in both loops. -/
def freeChan (dev : IrqDev) (i : ℕ) (s : IrqState) : IrqState :=
  match dev.chan i with
  | none => s
  | some chan =>
    match chan.irq with
    | none => s
    | some irq => s.freeIrq irq (.chan chan.id)

/-- `out_unwind`: from channel `i` down. -/
def unwind (dev : IrqDev) : ℕ → IrqState → IrqState
  | 0, s => freeChan dev 0 s
  | i + 1, s => unwind dev i (freeChan dev (i + 1) s)

/-- The loop of `fsldma_free_irqs`, through `n` channels. -/
def freeLoop (dev : IrqDev) : ℕ → IrqState → IrqState
  | 0, s => s
  | n + 1, s => freeChan dev n (freeLoop dev n s)

def enodev : Int := 19

/-- The loop of `fsldma_request_irqs` through `k` channels from channel `i` on; `req i` is what
    `request_irq` returns for channel `i`. -/
def requestLoop (dev : IrqDev) (req : ℕ → Int) : ℕ → ℕ → IrqState → Int × IrqState
  | 0, _, s => (0, s)
  | k + 1, i, s =>
    match dev.chan i with
    | none => requestLoop dev req k (i + 1) s
    | some chan =>
      match chan.irq with
      | none => (-enodev, unwind dev i s)
      | some irq =>
        if req i ≠ 0 then (req i, unwind dev i s)
        else requestLoop dev req k (i + 1) (s.requestIrq irq (.chan chan.id))

/-- `fsldma_request_irqs`; `ctrl` is what `request_irq` returns for the controller. -/
def fsldmaRequestIrqs (dev : IrqDev) (ctrl : Int) (req : ℕ → Int) (s : IrqState) :
    Int × IrqState :=
  match dev.irq with
  | some irq => (ctrl, if ctrl = 0 then s.requestIrq irq .controller else s)
  | none => requestLoop dev req fslDmaMaxChansPerDevice 0 s

/-- `fsldma_free_irqs`. -/
def fsldmaFreeIrqs (dev : IrqDev) (s : IrqState) : IrqState :=
  match dev.irq with
  | some irq => s.freeIrq irq .controller
  | none => freeLoop dev fslDmaMaxChansPerDevice s

/-- What can happen. -/
inductive IrqEvent where
  | probe (ctrl : Int) (req : ℕ → Int)
  | remove

/-- The machine. -/
def irqStep (dev : IrqDev) (s : IrqState) : IrqEvent → Option IrqState
  | .probe ctrl req =>
    if s.bound then none
    else
      let result := fsldmaRequestIrqs dev ctrl req s
      some { result.2 with bound := decide (result.1 = 0) }
  | .remove => if s.bound then some { fsldmaFreeIrqs dev s with bound := false } else none

/-- Nothing is registered. -/
def irqInit : IrqState := ⟨∅, false, []⟩

/-! ### The device's own handlers -/

/-- The handler of channel `i`. -/
def chanActions (dev : IrqDev) (i : ℕ) : Finset (ℕ × Owner) :=
  match dev.chan i with
  | none => ∅
  | some chan =>
    match chan.irq with
    | none => ∅
    | some irq => {(irq, .chan chan.id)}

/-- The handlers of the channels below `n`. -/
def own (dev : IrqDev) : ℕ → Finset (ℕ × Owner)
  | 0 => ∅
  | n + 1 => own dev n ∪ chanActions dev n

/-- The handlers of the device. -/
def IrqDev.owned (dev : IrqDev) : Finset (ℕ × Owner) :=
  match dev.irq with
  | some irq => {(irq, .controller)}
  | none => own dev fslDmaMaxChansPerDevice

theorem mem_chanActions {dev : IrqDev} {i : ℕ} {a : ℕ × Owner} :
    a ∈ chanActions dev i ↔
      ∃ chan irq, dev.chan i = some chan ∧ chan.irq = some irq ∧ a = (irq, .chan chan.id) := by
  unfold chanActions
  cases hchan : dev.chan i with
  | none => simp
  | some chan =>
    cases hirq : chan.irq with
    | none => simp [hirq]
    | some irq => simp [hirq]

theorem own_succ (dev : IrqDev) (n : ℕ) : own dev (n + 1) = own dev n ∪ chanActions dev n := rfl

theorem mem_own {dev : IrqDev} {n : ℕ} {a : ℕ × Owner} :
    a ∈ own dev n ↔ ∃ i < n, a ∈ chanActions dev i := by
  induction n with
  | zero => simp [own]
  | succ n ih =>
    rw [own, Finset.mem_union, ih]
    constructor
    · rintro (⟨i, hi, ha⟩ | ha)
      · exact ⟨i, by omega, ha⟩
      · exact ⟨n, Nat.lt_succ_self n, ha⟩
    · rintro ⟨i, hi, ha⟩
      rcases Nat.lt_succ_iff_lt_or_eq.mp hi with hlt | rfl
      · exact Or.inl ⟨i, hlt, ha⟩
      · exact Or.inr ha

/-- No channel has the handler of another. -/
theorem disjoint_own (dev : IrqDev) (n : ℕ) : Disjoint (own dev n) (chanActions dev n) := by
  rw [Finset.disjoint_left]
  intro a ha hn
  obtain ⟨i, hi, hai⟩ := mem_own.mp ha
  obtain ⟨b, irq, hb, -, rfl⟩ := mem_chanActions.mp hai
  obtain ⟨c, irq', hc, -, heq⟩ := mem_chanActions.mp hn
  obtain ⟨-, howner⟩ := Prod.mk.inj heq
  have hsame := dev.distinct i n b c hb hc (Owner.chan.inj howner)
  omega

/-! ### What freeing does -/

theorem freeChan_actions (dev : IrqDev) (i : ℕ) (s : IrqState) :
    (freeChan dev i s).actions = s.actions \ chanActions dev i := by
  unfold freeChan chanActions
  cases dev.chan i with
  | none => simp
  | some chan =>
    cases hirq : chan.irq with
    | none => simp [hirq]
    | some irq => simp [hirq, IrqState.freeIrq, Finset.sdiff_singleton_eq_erase]

theorem freeChan_stray (dev : IrqDev) (i : ℕ) (s : IrqState) :
    (freeChan dev i s).stray = [] ↔ s.stray = [] ∧ chanActions dev i ⊆ s.actions := by
  unfold freeChan chanActions
  cases dev.chan i with
  | none => simp
  | some chan =>
    cases hirq : chan.irq with
    | none => simp [hirq]
    | some irq =>
      by_cases hmem : (irq, Owner.chan chan.id) ∈ s.actions
      · simp [hirq, IrqState.freeIrq, hmem]
      · simp [hirq, IrqState.freeIrq, hmem]

/-- Unwinding frees the channels up to `i`, -/
theorem unwind_actions (dev : IrqDev) (i : ℕ) (s : IrqState) :
    (unwind dev i s).actions = s.actions \ own dev (i + 1) := by
  induction i generalizing s with
  | zero =>
    rw [unwind, freeChan_actions, own, own, Finset.empty_union]
  | succ i ih =>
    rw [unwind, ih, freeChan_actions, sdiff_sdiff, own_succ dev (i + 1), Finset.sup_eq_union,
      Finset.union_comm]

/-- and all of them must have been registered. -/
theorem unwind_stray (dev : IrqDev) (i : ℕ) (s : IrqState) :
    (unwind dev i s).stray = [] ↔ s.stray = [] ∧ own dev (i + 1) ⊆ s.actions := by
  induction i generalizing s with
  | zero =>
    rw [unwind, freeChan_stray, own, own, Finset.empty_union]
  | succ i ih =>
    -- channels share no handler: freeing one leaves those of the others registered
    have hsub : own dev (i + 1) ⊆ s.actions \ chanActions dev (i + 1)
        ↔ own dev (i + 1) ⊆ s.actions := by
      rw [Finset.subset_sdiff]
      exact and_iff_left (disjoint_own dev (i + 1))
    rw [unwind, ih, freeChan_stray, freeChan_actions, hsub, own_succ dev (i + 1),
      Finset.union_subset_iff]
    tauto

/-- The same for the other loop. -/
theorem freeLoop_actions (dev : IrqDev) (n : ℕ) (s : IrqState) :
    (freeLoop dev n s).actions = s.actions \ own dev n := by
  induction n with
  | zero => rw [freeLoop, own, Finset.sdiff_empty]
  | succ n ih => rw [freeLoop, freeChan_actions, ih, sdiff_sdiff, own, Finset.sup_eq_union]

theorem freeLoop_stray (dev : IrqDev) (n : ℕ) (s : IrqState) :
    (freeLoop dev n s).stray = [] ↔ s.stray = [] ∧ own dev n ⊆ s.actions := by
  induction n with
  | zero => simp [freeLoop, own]
  | succ n ih =>
    have hsub : chanActions dev n ⊆ s.actions \ own dev n ↔ chanActions dev n ⊆ s.actions := by
      rw [Finset.subset_sdiff]
      exact and_iff_left (disjoint_own dev n).symm
    rw [freeLoop, freeChan_stray, freeLoop_actions, ih, hsub, own, Finset.union_subset_iff]
    tauto

/-! ### The outcome of a request -/

/-- `request_irq` is refused for channel `i`. -/
def IrqDev.refused (dev : IrqDev) (req : ℕ → Int) (i : ℕ) : Bool :=
  match dev.chan i with
  | none => false
  | some chan => chan.irq.isSome && req i != 0

/-- The loop goes on behind channel `i`. -/
def IrqDev.passes (dev : IrqDev) (req : ℕ → Int) (i : ℕ) : Bool :=
  match dev.chan i with
  | none => true
  | some chan => chan.irq.isSome && req i == 0

/-- The loop from channel `i` on ends at a channel that is refused. -/
def EndsRefused (dev : IrqDev) (req : ℕ → Int) (k i : ℕ) : Prop :=
  ∃ j < i + k, i ≤ j ∧ dev.refused req j = true ∧ ∀ l < j, i ≤ l → dev.passes req l = true

theorem endsRefused_of_passes {dev : IrqDev} {req : ℕ → Int} {k i : ℕ}
    (hpasses : dev.passes req i = true) (hrefused : dev.refused req i = false) :
    EndsRefused dev req (k + 1) i ↔ EndsRefused dev req k (i + 1) := by
  constructor
  · rintro ⟨j, hj, hle, hr, hbefore⟩
    have hne : i ≠ j := by
      rintro rfl
      rw [hrefused] at hr
      cases hr
    exact ⟨j, by omega, by omega, hr, fun l hl hil => hbefore l hl (by omega)⟩
  · rintro ⟨j, hj, hle, hr, hbefore⟩
    refine ⟨j, by omega, by omega, hr, fun l hl hil => ?_⟩
    rcases Nat.eq_or_lt_of_le hil with rfl | hlt
    · exact hpasses
    · exact hbefore l hl hlt

theorem not_endsRefused {dev : IrqDev} {req : ℕ → Int} {k i : ℕ}
    (hpasses : dev.passes req i = false) (hrefused : dev.refused req i = false) :
    ¬EndsRefused dev req (k + 1) i := by
  rintro ⟨j, -, hle, hr, hbefore⟩
  rcases Nat.eq_or_lt_of_le hle with rfl | hlt
  · rw [hrefused] at hr
    cases hr
  · rw [hbefore i hlt le_rfl] at hpasses
    cases hpasses

/-- **A round of the loop**, case by case: it goes on with the channel's handler registered, stops
    at a channel without an interrupt, or stops at one that is refused. -/
theorem requestLoop_cases (dev : IrqDev) (req : ℕ → Int) (i : ℕ) (s : IrqState) :
    (dev.passes req i = true ∧ dev.refused req i = false
      ∧ ∃ t : IrqState, t.actions = s.actions ∪ chanActions dev i ∧ t.stray = s.stray
        ∧ ∀ k, requestLoop dev req (k + 1) i s = requestLoop dev req k (i + 1) t)
    ∨ (dev.passes req i = false ∧ dev.refused req i = false ∧ chanActions dev i = ∅
      ∧ ∀ k, requestLoop dev req (k + 1) i s = (-enodev, unwind dev i s))
    ∨ (dev.refused req i = true ∧ (chanActions dev i).Nonempty ∧ req i ≠ 0
      ∧ ∀ k, requestLoop dev req (k + 1) i s = (req i, unwind dev i s)) := by
  unfold IrqDev.passes IrqDev.refused chanActions
  cases hchan : dev.chan i with
  | none =>
    refine Or.inl ⟨rfl, rfl, s, (Finset.union_empty _).symm, rfl, fun k => ?_⟩
    rw [requestLoop, hchan]
  | some chan =>
    obtain ⟨id, irq⟩ := chan
    cases irq with
    | none =>
      refine Or.inr (Or.inl ⟨rfl, rfl, rfl, fun k => ?_⟩)
      rw [requestLoop, hchan]
    | some irq =>
      have hloop (k : ℕ) : requestLoop dev req (k + 1) i s
          = if req i ≠ 0 then (req i, unwind dev i s)
            else requestLoop dev req k (i + 1) (s.requestIrq irq (.chan id)) := by
        rw [requestLoop, hchan]
      by_cases hreq : req i = 0
      · refine Or.inl ⟨by simp [hreq], by simp [hreq], s.requestIrq irq (.chan id), ?_, rfl,
          fun k => ?_⟩
        · exact Finset.union_comm {(irq, Owner.chan id)} s.actions
        · rw [hloop, if_neg (not_not.mpr hreq)]
      · refine Or.inr (Or.inr ⟨by simp [hreq], Finset.singleton_nonempty _, hreq, fun k => ?_⟩)
        rw [hloop, if_pos hreq]

/-- **The loop**: it registers every channel, or leaves none; and frees what was not registered
    only if it ends at a channel that is refused. -/
theorem requestLoop_spec (dev : IrqDev) (req : ℕ → Int) (k i : ℕ) (s : IrqState)
    (hactions : s.actions = own dev i) :
    (requestLoop dev req k i s).2.actions
        = (if (requestLoop dev req k i s).1 = 0 then own dev (i + k) else ∅)
      ∧ ((requestLoop dev req k i s).2.stray = []
        ↔ s.stray = [] ∧ ¬EndsRefused dev req k i) := by
  induction k generalizing i s with
  | zero =>
    refine ⟨hactions, ?_⟩
    have hnone : ¬EndsRefused dev req 0 i := by
      rintro ⟨j, hj, hle, -⟩
      omega
    exact (and_iff_left hnone).symm
  | succ k ih =>
    rcases requestLoop_cases dev req i s with ⟨hpasses, hrefused, t, ht, hstray, hloop⟩
      | ⟨hpasses, hrefused, hhere, hloop⟩ | ⟨hrefused, hhere, hreq, hloop⟩
    · have hown : t.actions = own dev (i + 1) := by
        rw [ht, hactions, own_succ]
      rw [hloop, endsRefused_of_passes hpasses hrefused, ← hstray, ← Nat.add_assoc,
        Nat.add_right_comm i k 1]
      exact ih (i + 1) t hown
    · -- this channel has no handler to free
      have hown : own dev (i + 1) = own dev i := by
        rw [own_succ, hhere, Finset.union_empty]
      have hne : ¬(-enodev : Int) = 0 := by decide
      rw [hloop]
      refine ⟨?_, ?_⟩
      · rw [if_neg hne, unwind_actions, hactions, hown, Finset.sdiff_self]
      · rw [unwind_stray, hactions, hown]
        exact and_congr_right fun _ =>
          iff_of_true (Finset.Subset.refl _) (not_endsRefused hpasses hrefused)
    · -- the channel itself was not registered, and is freed
      have hends : EndsRefused dev req (k + 1) i :=
        ⟨i, by omega, le_rfl, hrefused, fun l hl hil => absurd hil (by omega)⟩
      have hmissing : ¬own dev (i + 1) ⊆ own dev i := by
        intro hsub
        obtain ⟨action, hmem⟩ := hhere
        have hbelow := hsub (own_succ dev i ▸ Finset.mem_union_right _ hmem)
        exact Finset.disjoint_left.mp (disjoint_own dev i) hbelow hmem
      rw [hloop]
      refine ⟨?_, ?_⟩
      · rw [if_neg hreq, unwind_actions, hactions, Finset.sdiff_eq_empty_iff_subset, own_succ]
        exact Finset.subset_union_left
      · rw [unwind_stray, hactions]
        exact iff_of_false (fun h => hmissing h.2) (fun h => h.2 hends)

/-! ### Runs -/

/-- A probe that `request_irq` does not refuse a channel. -/
def NotRefused (dev : IrqDev) (_ : IrqState) : IrqEvent → Prop
  | .probe _ req => dev.irq = none → ¬EndsRefused dev req fslDmaMaxChansPerDevice 0
  | .remove => True

variable {dev : IrqDev} {s s' : IrqState} {e : IrqEvent}

/-- What a request leaves registered. -/
theorem fsldmaRequestIrqs_actions (ctrl : Int) (req : ℕ → Int) (hactions : s.actions = ∅) :
    (fsldmaRequestIrqs dev ctrl req s).2.actions
      = if (fsldmaRequestIrqs dev ctrl req s).1 = 0 then dev.owned else ∅ := by
  unfold fsldmaRequestIrqs IrqDev.owned
  cases dev.irq with
  | none => exact (requestLoop_spec dev req fslDmaMaxChansPerDevice 0 s hactions).1
  | some irq =>
    dsimp only
    by_cases hctrl : ctrl = 0
    · rw [if_pos hctrl, if_pos hctrl]
      show insert (irq, Owner.controller) s.actions = _
      rw [hactions]
      rfl
    · rw [if_neg hctrl, if_neg hctrl]
      exact hactions

/-- What it frees. -/
theorem fsldmaRequestIrqs_stray (ctrl : Int) (req : ℕ → Int) (hactions : s.actions = ∅) :
    (fsldmaRequestIrqs dev ctrl req s).2.stray = []
      ↔ s.stray = [] ∧ NotRefused dev s (.probe ctrl req) := by
  unfold fsldmaRequestIrqs NotRefused
  cases dev.irq with
  | none =>
    dsimp only
    rw [(requestLoop_spec dev req fslDmaMaxChansPerDevice 0 s hactions).2]
    exact and_congr_right fun _ => ⟨fun h _ => h, fun h => h rfl⟩
  | some irq =>
    -- the one handler for all was not registered when it is refused, and nothing is freed
    have hguard : ((some irq : Option ℕ) = none →
        ¬EndsRefused dev req fslDmaMaxChansPerDevice 0) := fun h => by cases h
    dsimp only
    by_cases hctrl : ctrl = 0
    · rw [if_pos hctrl]
      exact (and_iff_left hguard).symm
    · rw [if_neg hctrl]
      exact (and_iff_left hguard).symm

/-- A remove frees what is registered. -/
theorem fsldmaFreeIrqs_spec (hactions : s.actions = dev.owned) :
    (fsldmaFreeIrqs dev s).actions = ∅ ∧ ((fsldmaFreeIrqs dev s).stray = [] ↔ s.stray = []) := by
  unfold IrqDev.owned at hactions
  unfold fsldmaFreeIrqs
  cases hirq : dev.irq with
  | none =>
    rw [hirq] at hactions
    refine ⟨?_, ?_⟩
    · rw [freeLoop_actions, hactions, Finset.sdiff_self]
    · rw [freeLoop_stray, hactions]
      exact and_iff_left (Finset.Subset.refl _)
  | some irq =>
    rw [hirq] at hactions
    refine ⟨?_, ?_⟩
    · show s.actions.erase (irq, Owner.controller) = ∅
      rw [hactions]
      simp
    · show (if (irq, Owner.controller) ∈ s.actions then s.stray else _) = [] ↔ _
      rw [if_pos (hactions ▸ Finset.mem_singleton_self _)]

/-- **Registered**: the device's own handlers while it is bound, and nothing otherwise. -/
def IrqState.Registered (dev : IrqDev) (s : IrqState) : Prop :=
  s.actions = if s.bound then dev.owned else ∅

/-- Every step keeps the registered handlers, and frees stray ones exactly when a probe is
    refused a channel. -/
theorem registered_step (h : s.Registered dev) (hstep : irqStep dev s e = some s') :
    s'.Registered dev ∧ (s'.stray = [] ↔ s.stray = [] ∧ NotRefused dev s e) := by
  unfold IrqState.Registered at *
  cases e with
  | probe ctrl req =>
    rw [irqStep] at hstep
    split at hstep
    · cases hstep
    · rename_i hbound
      obtain rfl := Option.some.inj hstep
      rw [if_neg hbound] at h
      refine ⟨?_, fsldmaRequestIrqs_stray ctrl req h⟩
      dsimp only
      rw [fsldmaRequestIrqs_actions ctrl req h]
      simp
  | remove =>
    obtain ⟨hbound, heq⟩ := Option.ite_none_right_eq_some.mp hstep
    obtain rfl := Option.some.inj heq
    rw [if_pos hbound] at h
    obtain ⟨hactions, hstray⟩ := fsldmaFreeIrqs_spec h
    exact ⟨hactions, hstray.trans (and_iff_left trivial).symm⟩

/-- **Interrupts released.**  Along every run of probes and removes, with any answers of
    `request_irq`: the handlers that are registered are the device's own while it is bound, and
    none otherwise; and no handler is ever freed that is not registered, if and only if no probe
    ends at a channel that `request_irq` refuses. -/
theorem irqs_released (dev : IrqDev) (run : List IrqEvent) (s : IrqState)
    (hrun : exec (irqStep dev) irqInit run = some s) :
    s.Registered dev
      ∧ (Always (irqStep dev) (fun t => t.stray = []) irqInit run
        ↔ Guarded (irqStep dev) (NotRefused dev) irqInit run) := by
  have hinit : irqInit.Registered dev := rfl
  refine ⟨?_, ?_⟩
  · exact @exec_invariant _ _ (irqStep dev) (fun _ _ => True) (fun t => t.Registered dev)
      (fun t e t' h _ hstep => (registered_step h hstep).1) run _ s hinit
      (Guarded.of_labels run (fun _ _ => trivial) _) hrun
  · refine @always_iff_guarded _ _ (irqStep dev) (NotRefused dev)
      (fun t => t.Registered dev ∧ t.stray = []) _ ?_ ?_ ?_ run _ s ⟨hinit, rfl⟩ hrun
    · exact fun t h => h.2
    · intro t e t' h hguard hstep
      obtain ⟨hreg, hstray⟩ := registered_step h.1 hstep
      exact ⟨hreg, hstray.mpr ⟨h.2, hguard⟩⟩
    · intro t e t' h hstep hnone
      exact ((registered_step h.1 hstep).2.mp hnone).2

/-- A device with two channels. -/
def twoChans : IrqDev where
  irq := none
  chan i := if i < 2 then some ⟨i, some (20 + i)⟩ else none
  distinct i j a b ha hb hid := by
    obtain ⟨-, ha⟩ := Option.ite_none_right_eq_some.mp ha
    obtain ⟨-, hb⟩ := Option.ite_none_right_eq_some.mp hb
    obtain rfl := Option.some.inj ha
    obtain rfl := Option.some.inj hb
    exact hid

/-- The second channel is refused, at the second probe. -/
def busyRun : List IrqEvent :=
  [.probe 0 (fun _ => 0), .remove, .probe 0 (fun i => if i = 1 then -16 else 0)]

theorem not_released_busy :
    ¬Always (irqStep twoChans) (fun t => t.stray = []) irqInit busyRun := by
  have hsome : (exec (irqStep twoChans) irqInit busyRun).isSome = true := by decide +kernel
  obtain ⟨s, hs⟩ := Option.isSome_iff_exists.mp hsome
  rw [(irqs_released twoChans busyRun s hs).2]
  intro hguard
  obtain ⟨t, ht⟩ := Option.isSome_iff_exists.mp
    (show (exec (irqStep twoChans) irqInit (busyRun.take 2)).isSome = true by decide +kernel)
  have hlast : NotRefused twoChans t (.probe 0 fun i => if i = 1 then -16 else 0) :=
    @Guarded.last _ _ _ _ (busyRun.take 2) _ _ _ hguard ht
  refine hlast rfl ⟨1, by decide, by decide, by decide, ?_⟩
  intro l hl _
  obtain rfl : l = 0 := by omega
  decide

end Vpx3.Dma
