import Mathlib
import Vpx3.Lib.Exec
import Vpx3.Lib.Flags
import Vpx3.Lib.Slots

namespace Vpx3.Rio

open Exec Flags Slots

/-!
# Doorbells — the receive interrupt `fsl_rio_dbell_handler`

The controller puts doorbells into a ring of 512 slots.  The handler takes the one at the dequeue
pointer and looks, port by port, for a registered range that covers it.

* `portRound`, `dispatch` — the search of the handler, over all ports;
* `dispatch_eq_stray` — when it takes the head of a port's list for a range;
* `dbellStep` — the machine: doorbells arrive between any two rounds of the search;
* `DbellInv` — what every state keeps: the slot that the handler reads is not written over;
* `doorbells_dispatched` — every doorbell is dispatched once, in order, one for each interrupt;
* `never_crashes_iff` — the lists for which no run ends at a list head.
-/

/-! ### The search -/

def maxPortNum : ℕ := 4

/-- `struct rio_dbell`: a range of doorbells, `start` to `last`, and who is told. -/
structure RioDbell (H : Type) where
  start : ℕ
  last : ℕ
  dinb : Option H
  devId : ℕ

/-- `struct rio_dbell_msg`. -/
structure RioDbellMsg where
  tid : BitVec 16
  sid : BitVec 16
  info : BitVec 16
  deriving DecidableEq

/-- How the dispatch of a doorbell ends: a handler is called for port `i`; or a range covers the
    doorbell and has no handler; or none does; or the list head of port `i` is taken for a range,
    and what lies there for its handler. -/
inductive Outcome (H : Type) where
  | called (i : ℕ) (dinb : H) (devId : ℕ) (m : RioDbellMsg)
  | silent
  | spurious
  | stray (i : ℕ)
  deriving DecidableEq

variable {H : Type}

/-- The range covers the doorbell. -/
def RioDbell.covers (info : BitVec 16) (dbell : RioDbell H) : Bool :=
  decide (dbell.start ≤ info.toNat) && decide (info.toNat ≤ dbell.last)

/-- A round of the loop over the ports, with `found` so far: it goes on, or ends the search. -/
def portRound (mport : ℕ → Option (List (RioDbell H))) (m : RioDbellMsg) (i : ℕ) (found : Bool) :
    Except (Outcome H) Bool :=
  match mport i with
  | none => .ok found
  | some dbells =>
    match dbells.find? (RioDbell.covers m.info) with
    | some dbell =>
      match dbell.dinb with
      | some dinb => .error (.called i dinb dbell.devId m)
      | none => .ok true
    -- the loop has run out: `dbell` is the list head
    | none => if found then .error (.stray i) else .ok false

/-- The search through `k` ports from port `i` on. -/
def dispatchFrom (mport : ℕ → Option (List (RioDbell H))) (m : RioDbellMsg) :
    ℕ → ℕ → Bool → Outcome H
  | 0, _, found => if found then .silent else .spurious
  | k + 1, i, found =>
    match portRound mport m i found with
    | .ok found => dispatchFrom mport m k (i + 1) found
    | .error o => o

/-- The dispatch of a doorbell. -/
def dispatch (mport : ℕ → Option (List (RioDbell H))) (m : RioDbellMsg) : Outcome H :=
  dispatchFrom mport m maxPortNum 0 false

/-! ### When the search strays -/

variable {mport : ℕ → Option (List (RioDbell H))} {m : RioDbellMsg}

/-- The port is up, and no range of it covers the doorbell. -/
def Misses (mport : ℕ → Option (List (RioDbell H))) (info : BitVec 16) (i : ℕ) : Prop :=
  ∃ dbells, mport i = some dbells ∧ dbells.find? (RioDbell.covers info) = none

/-- The port is up, and the first range of it that covers the doorbell has no handler. -/
def Mute (mport : ℕ → Option (List (RioDbell H))) (info : BitVec 16) (i : ℕ) : Prop :=
  ∃ dbells dbell, mport i = some dbells ∧ dbells.find? (RioDbell.covers info) = some dbell
    ∧ dbell.dinb = none

theorem Misses.up {info : BitVec 16} {i : ℕ} (h : Misses mport info i) : mport i ≠ none := by
  obtain ⟨dbells, hport, -⟩ := h
  rw [hport]
  exact Option.some_ne_none dbells

theorem Mute.up {info : BitVec 16} {i : ℕ} (h : Mute mport info i) : mport i ≠ none := by
  obtain ⟨dbells, -, hport, -⟩ := h
  rw [hport]
  exact Option.some_ne_none dbells

/-- A port with a range for the doorbell does not miss it. -/
theorem not_misses_of_find {info : BitVec 16} {i : ℕ} {dbells : List (RioDbell H)}
    {dbell : RioDbell H} (hport : mport i = some dbells)
    (hfind : dbells.find? (RioDbell.covers info) = some dbell) : ¬Misses mport info i := by
  rintro ⟨dbells', hport', hnone⟩
  obtain rfl := Option.some.inj (hport.symm.trans hport')
  rw [hfind] at hnone
  cases hnone

theorem not_misses_of_mute {info : BitVec 16} {i : ℕ} (h : Mute mport info i) :
    ¬Misses mport info i := by
  obtain ⟨dbells, dbell, hport, hfind, -⟩ := h
  exact not_misses_of_find hport hfind

/-- What holds between `i` and `b` holds at `i` and behind it. -/
theorem forall_between_succ {P : ℕ → Prop} {i b : ℕ} (hlt : i < b) :
    (∀ j, i ≤ j → j < b → P j) ↔ P i ∧ ∀ j, i + 1 ≤ j → j < b → P j := by
  constructor
  · intro h
    exact ⟨h i le_rfl hlt, fun j hj => h j (Nat.le_of_succ_le hj)⟩
  · rintro ⟨hhere, hlater⟩ j hj hjb
    rcases Nat.eq_or_lt_of_le hj with rfl | hj
    · exact hhere
    · exact hlater j hj hjb

/-- **A round**, case by case: of a port that is down, one that misses, one that is mute, and one
    that has a handler. -/
theorem portRound_cases (mport : ℕ → Option (List (RioDbell H))) (m : RioDbellMsg) (i : ℕ) :
    (mport i = none ∧ ∀ found, portRound mport m i found = .ok found)
    ∨ (Misses mport m.info i
      ∧ ∀ found, portRound mport m i found = if found then .error (.stray i) else .ok false)
    ∨ (Mute mport m.info i ∧ ∀ found, portRound mport m i found = .ok true)
    ∨ (mport i ≠ none ∧ ¬Misses mport m.info i ∧ ¬Mute mport m.info i
      ∧ ∃ dinb devId, ∀ found, portRound mport m i found = .error (.called i dinb devId m)) := by
  unfold portRound
  cases hport : mport i with
  | none => exact Or.inl ⟨rfl, fun _ => rfl⟩
  | some dbells =>
    dsimp only
    cases hfind : dbells.find? (RioDbell.covers m.info) with
    | none => exact Or.inr (Or.inl ⟨⟨dbells, hport, hfind⟩, fun _ => rfl⟩)
    | some dbell =>
      dsimp only
      cases hdinb : dbell.dinb with
      | none => exact Or.inr (Or.inr (Or.inl ⟨⟨dbells, dbell, hport, hfind, hdinb⟩, fun _ => rfl⟩))
      | some dinb =>
        refine Or.inr (Or.inr (Or.inr ⟨Option.some_ne_none _, not_misses_of_find hport hfind, ?_,
          dinb, dbell.devId, fun _ => rfl⟩))
        rintro ⟨dbells', dbell', hport', hfind', hnone⟩
        obtain rfl := Option.some.inj (hport.symm.trans hport')
        obtain rfl := Option.some.inj (hfind.symm.trans hfind')
        rw [hdinb] at hnone
        cases hnone

/-- Once a range was found, the search strays at the first port that misses, if no handler is
    called before it. -/
theorem dispatchFrom_found (b : ℕ) (k i : ℕ) :
    dispatchFrom mport m k i true = .stray b ↔
      i ≤ b ∧ b < i + k ∧ Misses mport m.info b
        ∧ ∀ j, i ≤ j → j < b → mport j = none ∨ Mute mport m.info j := by
  induction k generalizing i with
  | zero =>
    refine iff_of_false (fun h => by cases h) ?_
    rintro ⟨hle, hlt, -⟩
    omega
  | succ k ih =>
    rw [dispatchFrom]
    -- the rounds behind this one, if this one goes on
    have hnext (hhere : mport i = none ∨ Mute mport m.info i) :
        dispatchFrom mport m k (i + 1) true = .stray b ↔
          i ≤ b ∧ b < i + (k + 1) ∧ Misses mport m.info b
            ∧ ∀ j, i ≤ j → j < b → mport j = none ∨ Mute mport m.info j := by
      rw [ih]
      constructor
      · rintro ⟨hle, hlt, hmiss, hbetween⟩
        exact ⟨by omega, by omega, hmiss, (forall_between_succ hle).mpr ⟨hhere, hbetween⟩⟩
      · rintro ⟨hle, hlt, hmiss, hbetween⟩
        have hne : i ≠ b := by
          rintro rfl
          rcases hhere with hdown | hmute
          · exact hmiss.up hdown
          · exact not_misses_of_mute hmute hmiss
        have hlt' : i < b := Nat.lt_of_le_of_ne hle hne
        exact ⟨hlt', by omega, hmiss, ((forall_between_succ hlt').mp hbetween).2⟩
    rcases portRound_cases mport m i with ⟨hdown, hround⟩ | ⟨hmiss, hround⟩ | ⟨hmute, hround⟩
      | ⟨hup, hnmiss, hnmute, dinb, devId, hround⟩
    · rw [hround]
      exact hnext (Or.inl hdown)
    · -- a list ran out with `found` set: its head is taken for a range here
      rw [hround]
      show Outcome.stray i = .stray b ↔ _
      constructor
      · intro heq
        obtain rfl := Outcome.stray.inj heq
        exact ⟨le_rfl, by omega, hmiss, fun j hj hjb => absurd hjb (by omega)⟩
      · rintro ⟨hle, -, -, hbetween⟩
        rcases Nat.eq_or_lt_of_le hle with rfl | hlt
        · rfl
        · rcases hbetween i le_rfl hlt with hdown | hmute
          · exact absurd hdown hmiss.up
          · exact absurd hmiss (not_misses_of_mute hmute)
    · rw [hround]
      exact hnext (Or.inr hmute)
    · -- a handler is called: the search never comes to `b`
      rw [hround]
      refine iff_of_false (fun h => by cases h) ?_
      rintro ⟨hle, -, hmiss, hbetween⟩
      rcases Nat.eq_or_lt_of_le hle with rfl | hlt
      · exact hnmiss hmiss
      · exact (hbetween i le_rfl hlt).elim hup hnmute

/-- Before, it strays behind the first port with a range for the doorbell, if that is mute. -/
theorem dispatchFrom_not_found (b : ℕ) (k i : ℕ) :
    dispatchFrom mport m k i false = .stray b ↔
      ∃ a, i ≤ a ∧ a < b ∧ b < i + k ∧ Mute mport m.info a ∧ Misses mport m.info b
        ∧ (∀ j, i ≤ j → j < a → mport j = none ∨ Misses mport m.info j)
        ∧ ∀ j, a < j → j < b → mport j = none ∨ Mute mport m.info j := by
  induction k generalizing i with
  | zero =>
    refine iff_of_false (fun h => by cases h) ?_
    rintro ⟨a, hle, hab, hlt, -⟩
    omega
  | succ k ih =>
    rw [dispatchFrom]
    -- a port without a range only moves the bound below `a`
    have hnext (hhere : mport i = none ∨ Misses mport m.info i) :
        dispatchFrom mport m k (i + 1) false = .stray b ↔
          ∃ a, i ≤ a ∧ a < b ∧ b < i + (k + 1) ∧ Mute mport m.info a ∧ Misses mport m.info b
            ∧ (∀ j, i ≤ j → j < a → mport j = none ∨ Misses mport m.info j)
            ∧ ∀ j, a < j → j < b → mport j = none ∨ Mute mport m.info j := by
      rw [ih]
      constructor
      · rintro ⟨a, hle, hab, hlt, hmute, hmiss, hbefore, hbetween⟩
        exact ⟨a, by omega, hab, by omega, hmute, hmiss,
          (forall_between_succ hle).mpr ⟨hhere, hbefore⟩, hbetween⟩
      · rintro ⟨a, hle, hab, hlt, hmute, hmiss, hbefore, hbetween⟩
        have hne : i ≠ a := by
          rintro rfl
          rcases hhere with hdown | hhere
          · exact hmute.up hdown
          · exact not_misses_of_mute hmute hhere
        have hlt' : i < a := Nat.lt_of_le_of_ne hle hne
        exact ⟨a, hlt', hab, by omega, hmute, hmiss, ((forall_between_succ hlt').mp hbefore).2,
          hbetween⟩
    rcases portRound_cases mport m i with ⟨hdown, hround⟩ | ⟨hmiss, hround⟩ | ⟨hmute, hround⟩
      | ⟨hup, hnmiss, hnmute, dinb, devId, hround⟩
    · rw [hround]
      exact hnext (Or.inl hdown)
    · rw [hround]
      exact hnext (Or.inr hmiss)
    · -- the port is mute: the search has found a range
      rw [hround]
      show dispatchFrom mport m k (i + 1) true = .stray b ↔ _
      rw [dispatchFrom_found]
      constructor
      · rintro ⟨hle, hlt, hmiss, hbetween⟩
        exact ⟨i, le_rfl, by omega, by omega, hmute, hmiss, fun j hj hji => absurd hji (by omega),
          hbetween⟩
      · rintro ⟨a, hle, hab, hlt, hmute', hmiss, hbefore, hbetween⟩
        have heq : a = i := by
          by_contra hne
          rcases hbefore i le_rfl (by omega) with hdown | hmiss'
          · exact hmute.up hdown
          · exact not_misses_of_mute hmute hmiss'
        subst heq
        exact ⟨by omega, by omega, hmiss, fun j hj hjb => hbetween j (by omega) hjb⟩
    · rw [hround]
      refine iff_of_false (fun h => by cases h) ?_
      rintro ⟨a, hle, hab, -, hmute, hmiss, hbefore, -⟩
      rcases Nat.eq_or_lt_of_le hle with rfl | hlt
      · exact hnmute hmute
      · exact (hbefore i le_rfl hlt).elim hup hnmiss

/-- **Straying.**  The dispatch ends at the list head of port `b` exactly if the first port with
    a range for the doorbell has no handler there, and `b` is the next port without a range. -/
theorem dispatch_eq_stray (b : ℕ) :
    dispatch mport m = .stray b ↔
      ∃ a, a < b ∧ b < maxPortNum ∧ Mute mport m.info a ∧ Misses mport m.info b
        ∧ (∀ j, j < a → mport j = none ∨ Misses mport m.info j)
        ∧ ∀ j, a < j → j < b → mport j = none ∨ Mute mport m.info j := by
  unfold dispatch
  rw [dispatchFrom_not_found]
  simp

/-! ### The ring -/

def dbellEntries : ℕ := 512

def dbellMessageSize : ℕ := 0x08

def doorbellDsrTe : BitVec 32 := 0x00000080
def doorbellDsrDiqi : BitVec 32 := 0x00000001

/-- Where the ring of doorbells is: the memory of `dma_alloc_coherent` begins at a page. -/
structure DbellRing where
  phys : BitVec 32
  aligned : phys &&& 0xfff = 0

/-- Where the handler is. -/
inductive DbellPc where
  | idle
  /-- Before it reads the dequeue pointer. -/
  | readPtr
  /-- Before port `i`, with `dmsg` the slot it reads. -/
  | port (i : ℕ) (found : Bool) (dmsg : ℕ)
  /-- Before it sets `DOORBELL_DMR_DI`. -/
  | increment
  /-- It has taken a list head for a range: what it does there is not known. -/
  | crashed
  deriving DecidableEq

/-- The doorbell unit: the slots, the doorbells that have been released, and the handler.
    Doorbells that arrived and the ends of the searches are recorded. -/
structure DbellState (H : Type) where
  virt : ℕ → RioDbellMsg
  deq : ℕ
  pc : DbellPc
  arrived : List RioDbellMsg
  outcomes : List (Outcome H)

/-- The dequeue pointer. -/
def DbellState.dqdpar (ring : DbellRing) (s : DbellState H) : BitVec 32 :=
  ring.phys + BitVec.ofNat 32 (dbellMessageSize * (s.deq % dbellEntries))

/-- The end of a search. -/
def DbellState.close (s : DbellState H) (o : Outcome H) : DbellState H :=
  { s with
    outcomes := s.outcomes ++ [o]
    pc := match o with
      | .stray _ => .crashed
      | _ => .increment }

/-- One step of the handler. -/
def dbellHandler (ring : DbellRing) (mport : ℕ → Option (List (RioDbell H)))
    (s : DbellState H) : Option (DbellState H) :=
  match s.pc with
  | .idle => none
  | .readPtr =>
    some { s with pc := .port 0 false ((s.dqdpar ring &&& 0xfff).toNat / dbellMessageSize) }
  | .port i found dmsg =>
    if i < maxPortNum then
      match portRound mport (s.virt dmsg) i found with
      | .ok found => some { s with pc := .port (i + 1) found dmsg }
      | .error o => some (s.close o)
    else some (s.close (if found then .silent else .spurious))
  | .increment => some { s with deq := s.deq + 1, pc := .idle }
  | .crashed => none

/-- What can happen: a doorbell arrives, the interrupt is raised with a status, the handler takes
    a step. -/
inductive DbellEvent where
  | arrive (m : RioDbellMsg)
  | irq (dsr : BitVec 32)
  | tick
  deriving DecidableEq

/-- An interrupt whose handler looks at the ring. -/
def looks (dsr : BitVec 32) : Bool := !isSet dsr doorbellDsrTe && isSet dsr doorbellDsrDiqi

/-- The machine.  A full ring takes no doorbell. -/
def dbellStep (ring : DbellRing) (mport : ℕ → Option (List (RioDbell H))) (s : DbellState H) :
    DbellEvent → Option (DbellState H)
  | .arrive m =>
    if s.arrived.length < s.deq + dbellEntries then
      some { s with
        virt := Function.update s.virt (s.arrived.length % dbellEntries) m
        arrived := s.arrived ++ [m] }
    else none
  | .irq dsr =>
    if s.pc = .idle then
      -- an error, and a full queue, are acknowledged only
      some (if looks dsr then { s with pc := .readPtr } else s)
    else none
  | .tick => dbellHandler ring mport s

/-- Behind `fsl_rio_doorbell_init`, with whatever is in the ring. -/
def dbellInit (virt : ℕ → RioDbellMsg) : DbellState H where
  virt := virt
  deq := 0
  pc := .idle
  arrived := []
  outcomes := []

/-- `DOORBELL_DSR_DIQI`: a doorbell is in the queue. -/
def Queued (s : DbellState H) : DbellEvent → Prop
  | .irq dsr => looks dsr = true → s.deq < s.arrived.length
  | _ => True

instance (s : DbellState H) (e : DbellEvent) : Decidable (Queued s e) :=
  match e with
  | .arrive _ => isTrue trivial
  | .irq dsr => inferInstanceAs (Decidable (looks dsr = true → _))
  | .tick => isTrue trivial

/-- The pointer leads to the slot. -/
theorem dmsg_eq (ring : DbellRing) (s : DbellState H) :
    (s.dqdpar ring &&& 0xfff).toNat / dbellMessageSize = s.deq % dbellEntries := by
  -- the ring fills one page, so the mask cuts off where it begins
  have hmask : (0xfff : BitVec 32).toNat = 2 ^ 12 - 1 := rfl
  have halign := congrArg BitVec.toNat ring.aligned
  rw [BitVec.toNat_and, hmask, Nat.and_two_pow_sub_one_eq_mod] at halign
  have hslot : s.deq % dbellEntries < dbellEntries := Nat.mod_lt _ (by decide)
  unfold dbellEntries at hslot ⊢
  unfold DbellState.dqdpar dbellMessageSize dbellEntries
  rw [BitVec.toNat_and, hmask, Nat.and_two_pow_sub_one_eq_mod, BitVec.toNat_add,
    BitVec.toNat_ofNat]
  have hzero : ring.phys.toNat % 2 ^ 12 = 0 := halign
  omega

variable {ring : DbellRing} {s s' : DbellState H}

/-- **A step of the handler**, case by case: the slot is read, the search goes on, it ends, the
    slot is released. -/
theorem dbellHandler_cases (hstep : dbellHandler ring mport s = some s') :
    (s.pc = .readPtr ∧ s' = { s with pc := .port 0 false (s.deq % dbellEntries) })
    ∨ (∃ i found found' dmsg, s.pc = .port i found dmsg ∧ i < maxPortNum
      ∧ portRound mport (s.virt dmsg) i found = .ok found'
      ∧ s' = { s with pc := .port (i + 1) found' dmsg })
    ∨ (∃ i found dmsg, s.pc = .port i found dmsg
      ∧ s' = s.close (dispatchFrom mport (s.virt dmsg) (maxPortNum - i) i found))
    ∨ (s.pc = .increment ∧ s' = { s with deq := s.deq + 1, pc := .idle }) := by
  unfold dbellHandler at hstep
  cases hpc : s.pc with
  | idle | crashed =>
    rw [hpc] at hstep
    cases hstep
  | readPtr =>
    rw [hpc] at hstep
    obtain rfl := Option.some.inj hstep
    rw [dmsg_eq]
    exact Or.inl ⟨rfl, rfl⟩
  | port i found dmsg =>
    rw [hpc] at hstep
    dsimp only at hstep
    by_cases hmore : i < maxPortNum
    · rw [if_pos hmore] at hstep
      cases hround : portRound mport (s.virt dmsg) i found with
      | ok found' =>
        rw [hround] at hstep
        obtain rfl := Option.some.inj hstep
        exact Or.inr (Or.inl ⟨i, found, found', dmsg, rfl, hmore, hround, rfl⟩)
      | error o =>
        rw [hround] at hstep
        obtain rfl := Option.some.inj hstep
        have hk : maxPortNum - i = maxPortNum - (i + 1) + 1 := by omega
        refine Or.inr (Or.inr (Or.inl ⟨i, found, dmsg, rfl, ?_⟩))
        rw [hk, dispatchFrom, hround]
    · rw [if_neg hmore] at hstep
      obtain rfl := Option.some.inj hstep
      have hk : maxPortNum - i = 0 := by omega
      refine Or.inr (Or.inr (Or.inl ⟨i, found, dmsg, rfl, ?_⟩))
      rw [hk, dispatchFrom]
  | increment =>
    rw [hpc] at hstep
    obtain rfl := Option.some.inj hstep
    exact Or.inr (Or.inr (Or.inr ⟨rfl, rfl⟩))

/-! ### What every state keeps -/

/-- What holds at a program point. -/
def DbellState.Point (mport : ℕ → Option (List (RioDbell H))) (s : DbellState H) : DbellPc → Prop
  | .idle => s.outcomes.length = s.deq
  | .readPtr => s.outcomes.length = s.deq ∧ s.deq < s.arrived.length
  | .port i found dmsg =>
    s.outcomes.length = s.deq ∧ s.deq < s.arrived.length ∧ i ≤ maxPortNum
      ∧ dmsg = s.deq % dbellEntries
      ∧ dispatchFrom mport (s.virt dmsg) (maxPortNum - i) i found = dispatch mport (s.virt dmsg)
  | .increment => s.outcomes.length = s.deq + 1 ∧ s.deq < s.arrived.length
  | .crashed => s.outcomes.length = s.deq + 1 ∧ s.deq < s.arrived.length
      ∧ ∃ i, .stray i ∈ s.outcomes

/-- **Doorbells** between the controller, the ring and the handlers. -/
structure DbellInv (mport : ℕ → Option (List (RioDbell H))) (s : DbellState H) : Prop where
  outcomes : s.outcomes = (s.arrived.take s.outcomes.length).map (dispatch mport)
  le : s.deq ≤ s.arrived.length
  queue : s.arrived.length ≤ s.deq + dbellEntries
  holds : Holds dbellEntries s.virt s.arrived s.deq
  sane : s.pc ≠ .crashed → ∀ i, .stray i ∉ s.outcomes
  point : s.Point mport s.pc

theorem dbellInv_init (virt : ℕ → RioDbellMsg) : DbellInv mport (dbellInit virt) where
  outcomes := rfl
  le := le_rfl
  queue := Nat.zero_le _
  holds := Holds.empty le_rfl
  sane _ _ := List.not_mem_nil
  point := rfl

/-- No search has ended whose doorbell has not arrived. -/
theorem DbellInv.length_le (h : DbellInv mport s) : s.outcomes.length ≤ s.arrived.length := by
  have hlength := congrArg List.length h.outcomes
  rw [List.length_map, List.length_take] at hlength
  omega

/-- A doorbell arrives: in no slot that is being read. -/
theorem DbellInv.arrive (h : DbellInv mport s) (hroom : s.arrived.length < s.deq + dbellEntries)
    (m : RioDbellMsg) :
    DbellInv mport { s with
      virt := Function.update s.virt (s.arrived.length % dbellEntries) m
      arrived := s.arrived ++ [m] } where
  outcomes := by
    rw [List.take_append_of_le_length h.length_le]
    exact h.outcomes
  le := by
    rw [List.length_append]
    exact h.le.trans (Nat.le_add_right _ _)
  queue := by
    rw [List.length_append, List.length_singleton]
    exact hroom
  holds := h.holds.store hroom m
  sane := h.sane
  point := by
    have hpoint := h.point
    dsimp only
    cases hpc : s.pc with
    | idle =>
      rw [hpc] at hpoint
      exact hpoint
    | readPtr =>
      rw [hpc] at hpoint
      refine ⟨hpoint.1, ?_⟩
      rw [List.length_append]
      exact Nat.lt_add_right _ hpoint.2
    | port i found dmsg =>
      rw [hpc] at hpoint
      obtain ⟨hcount, hlt, hi, hdmsg, hrest⟩ := hpoint
      refine ⟨hcount, ?_, hi, hdmsg, ?_⟩
      · rw [List.length_append]
        exact Nat.lt_add_right _ hlt
      · -- there is room, so the new doorbell goes to another slot than the one being read
        have hne : dmsg ≠ s.arrived.length % dbellEntries := hdmsg ▸ mod_ne_mod hlt hroom
        dsimp only
        rw [Function.update_of_ne hne]
        exact hrest
    | increment =>
      rw [hpc] at hpoint
      refine ⟨hpoint.1, ?_⟩
      rw [List.length_append]
      exact Nat.lt_add_right _ hpoint.2
    | crashed =>
      rw [hpc] at hpoint
      refine ⟨hpoint.1, ?_, hpoint.2.2⟩
      rw [List.length_append]
      exact Nat.lt_add_right _ hpoint.2.1

/-- A search ends, with what the whole search for the first doorbell comes to. -/
theorem DbellInv.close (h : DbellInv mport s) {o : Outcome H} (hpc : s.pc ≠ .crashed)
    (hcount : s.outcomes.length = s.deq) (hlt : s.deq < s.arrived.length)
    (ho : dispatch mport (s.virt (s.deq % dbellEntries)) = o) : DbellInv mport (s.close o) := by
  have hsane := h.sane hpc
  have hnow : s.outcomes ++ [o]
      = (s.arrived.take (s.outcomes ++ [o]).length).map (dispatch mport) := by
    rw [List.length_append, List.length_singleton, hcount, List.take_add_one, List.map_append,
      List.getElem?_eq_getElem hlt, ← h.holds.front hlt, ← hcount, ← h.outcomes, hcount]
    rw [← ho]
    rfl
  refine ⟨hnow, h.le, h.queue, h.holds, ?_, ?_⟩
  · intro hne i hi
    rcases List.mem_append.mp hi with hi | hi
    · exact hsane i hi
    · obtain rfl := List.mem_singleton.mp hi
      exact hne rfl
  · have hlength : (s.outcomes ++ [o]).length = s.deq + 1 := by
      rw [List.length_append, List.length_singleton, hcount]
    cases o with
    | stray i =>
      refine ⟨hlength, hlt, i, ?_⟩
      exact List.mem_append_right _ List.mem_cons_self
    | called | silent | spurious => exact ⟨hlength, hlt⟩

/-- A step of the handler. -/
theorem DbellInv.tick (h : DbellInv mport s) (hstep : dbellHandler ring mport s = some s') :
    DbellInv mport s' := by
  have hpoint := h.point
  rcases dbellHandler_cases hstep with ⟨hpc, rfl⟩
    | ⟨i, found, found', dmsg, hpc, hmore, hround, rfl⟩ | ⟨i, found, dmsg, hpc, rfl⟩ | ⟨hpc, rfl⟩
  · -- the whole search is ahead
    rw [hpc] at hpoint
    refine ⟨h.outcomes, h.le, h.queue, h.holds, fun _ => h.sane (by simp [hpc]), ?_⟩
    exact ⟨hpoint.1, hpoint.2, Nat.zero_le _, rfl, rfl⟩
  · -- the rest of the search comes to what it came to before this round
    rw [hpc] at hpoint
    obtain ⟨hcount, hlt, hi, hdmsg, hrest⟩ := hpoint
    have hk : maxPortNum - i = maxPortNum - (i + 1) + 1 := by omega
    rw [hk, dispatchFrom, hround] at hrest
    exact ⟨h.outcomes, h.le, h.queue, h.holds, fun _ => h.sane (by simp [hpc]), hcount, hlt, hmore,
      hdmsg, hrest⟩
  · rw [hpc] at hpoint
    obtain ⟨hcount, hlt, hi, hdmsg, hrest⟩ := hpoint
    exact h.close (by simp [hpc]) hcount hlt (hdmsg ▸ hrest.symm)
  · rw [hpc] at hpoint
    refine ⟨h.outcomes, hpoint.2, h.queue.trans ?_, h.holds.advance (Nat.le_succ _),
      fun _ => h.sane (by simp [hpc]), hpoint.1⟩
    exact Nat.add_le_add_right (Nat.le_succ _) _

/-- **Every step** keeps the doorbells. -/
theorem DbellInv.step (h : DbellInv mport s) {e : DbellEvent} (hqueued : Queued s e)
    (hstep : dbellStep ring mport s e = some s') : DbellInv mport s' := by
  cases e with
  | arrive m =>
    obtain ⟨hroom, heq⟩ := Option.ite_none_right_eq_some.mp hstep
    obtain rfl := Option.some.inj heq
    exact h.arrive hroom m
  | irq dsr =>
    obtain ⟨hidle, heq⟩ := Option.ite_none_right_eq_some.mp hstep
    obtain rfl := Option.some.inj heq
    have hpoint := h.point
    rw [hidle] at hpoint
    by_cases hlooks : looks dsr = true
    · rw [if_pos hlooks]
      exact ⟨h.outcomes, h.le, h.queue, h.holds, fun _ => h.sane (by rw [hidle]; simp), hpoint,
        hqueued hlooks⟩
    · rw [if_neg hlooks]
      exact h
  | tick => exact h.tick hstep

/-! ### Runs -/

/-- The handler has been told of a doorbell and has not ended the search. -/
def DbellPc.searching : DbellPc → Bool
  | .readPtr => true
  | .port _ _ _ => true
  | _ => false

/-- The interrupts of a run whose handler looks at the ring. -/
def DbellEvent.looks : DbellEvent → Bool
  | .irq dsr => Rio.looks dsr
  | _ => false

/-- The searches that have begun. -/
def DbellState.begun (s : DbellState H) : ℕ :=
  s.outcomes.length + if s.pc.searching then 1 else 0

/-- The end of a search is counted as the search was. -/
theorem begun_close (hsearching : s.pc.searching = true) (o : Outcome H) :
    (s.close o).begun = s.begun := by
  unfold DbellState.begun DbellState.close
  rw [hsearching, List.length_append, List.length_singleton]
  cases o with
  | called | silent | spurious | stray => rfl

/-- An interrupt begins a search, and nothing else does. -/
theorem begun_step {e : DbellEvent} (hstep : dbellStep ring mport s e = some s') :
    s'.begun = s.begun + if e.looks then 1 else 0 := by
  cases e with
  | arrive m =>
    obtain ⟨-, heq⟩ := Option.ite_none_right_eq_some.mp hstep
    obtain rfl := Option.some.inj heq
    rfl
  | irq dsr =>
    obtain ⟨hidle, heq⟩ := Option.ite_none_right_eq_some.mp hstep
    obtain rfl := Option.some.inj heq
    unfold DbellState.begun DbellEvent.looks
    split
    · simp [hidle, DbellPc.searching]
    · rfl
  | tick =>
    show s'.begun = s.begun
    rcases dbellHandler_cases hstep with ⟨hpc, rfl⟩ | ⟨i, found, found', dmsg, hpc, -, -, rfl⟩
      | ⟨i, found, dmsg, hpc, rfl⟩ | ⟨hpc, rfl⟩
    · simp [DbellState.begun, hpc, DbellPc.searching]
    · simp [DbellState.begun, hpc, DbellPc.searching]
    · exact begun_close (by simp [hpc, DbellPc.searching]) _
    · simp [DbellState.begun, hpc, DbellPc.searching]

/-- The searches of a run. -/
theorem begun_exec (run : List DbellEvent) (hrun : exec (dbellStep ring mport) s run = some s') :
    s'.begun = s.begun + run.countP DbellEvent.looks := by
  induction run generalizing s with
  | nil =>
    rw [exec_nil, Option.some.injEq] at hrun
    rw [hrun, List.countP_nil, Nat.add_zero]
  | cons e run ih =>
    obtain ⟨t, hstep, hrest⟩ := exec_cons_some hrun
    rw [ih hrest, begun_step hstep, List.countP_cons]
    omega

/-- **Dispatched.**  On every ring, for all registered ranges and along every run whose interrupts
    report doorbells that are there: the doorbells are dispatched in the order of their arrival,
    each once and as it arrived, and each such interrupt dispatches one, however many wait. -/
theorem doorbells_dispatched (ring : DbellRing) (mport : ℕ → Option (List (RioDbell H)))
    (virt : ℕ → RioDbellMsg) (run : List DbellEvent) (s : DbellState H)
    (hguard : Guarded (dbellStep ring mport) Queued (dbellInit virt) run)
    (hrun : exec (dbellStep ring mport) (dbellInit virt) run = some s) :
    s.outcomes = (s.arrived.take s.outcomes.length).map (dispatch mport)
      ∧ s.outcomes.length + (if s.pc.searching then 1 else 0) = run.countP DbellEvent.looks
      ∧ run.countP DbellEvent.looks ≤ s.arrived.length := by
  have h : DbellInv mport s := exec_invariant (fun _ _ _ h hg hstep => DbellInv.step h hg hstep)
    run _ s (dbellInv_init virt) hguard hrun
  have hbegun := begun_exec run hrun
  rw [show (dbellInit virt : DbellState H).begun = 0 from rfl, Nat.zero_add] at hbegun
  refine ⟨h.outcomes, hbegun, ?_⟩
  rw [← hbegun]
  have hpoint := h.point
  have hle := h.length_le
  unfold DbellState.begun
  cases hpc : s.pc with
  | idle | increment | crashed => exact hle
  | readPtr =>
    rw [hpc] at hpoint
    exact hpoint.1 ▸ hpoint.2
  | port i found dmsg =>
    rw [hpc] at hpoint
    exact hpoint.1 ▸ hpoint.2.1

/-- The doorbells of `rionet`, on the only port. -/
def rionetPorts (i : ℕ) : Option (List (RioDbell Unit)) :=
  if i = 0 then some [⟨0x1000, 0x1001, some (), 0⟩] else none

/-- Two doorbells, one that `rionet` knows and one that it does not. -/
def twoDoorbells : List DbellEvent :=
  [.arrive ⟨0, 1, 0x1000⟩, .irq doorbellDsrDiqi, .tick, .arrive ⟨0, 1, 7⟩, .tick, .tick,
    .irq doorbellDsrDiqi, .tick, .tick, .tick, .tick, .tick, .tick]

theorem doorbells_dispatched_two :
    ∃ s : DbellState Unit,
      exec (dbellStep ⟨0, rfl⟩ rionetPorts) (dbellInit fun _ => ⟨0, 0, 0⟩) twoDoorbells = some s
        ∧ s.outcomes = (s.arrived.take s.outcomes.length).map (dispatch rionetPorts) := by
  have hsome : (exec (dbellStep ⟨0, rfl⟩ rionetPorts) (dbellInit fun _ => ⟨0, 0, 0⟩)
      twoDoorbells).isSome = true := by decide +kernel
  obtain ⟨s, hs⟩ := Option.isSome_iff_exists.mp hsome
  have hguard : Guarded (dbellStep ⟨0, rfl⟩ rionetPorts) Queued (dbellInit fun _ => ⟨0, 0, 0⟩)
      twoDoorbells := by decide +kernel
  exact ⟨s, hs, (doorbells_dispatched _ _ _ _ s hguard hs).1⟩

/-! ### List heads -/

/-- The handler goes through the ports to the end of the search. -/
theorem exec_search (ring : DbellRing) (mport : ℕ → Option (List (RioDbell H)))
    (s : DbellState H) (k i : ℕ) (found : Bool) (dmsg : ℕ) (hk : i + k = maxPortNum) :
    ∃ n, exec (dbellStep ring mport) { s with pc := .port i found dmsg }
        (List.replicate n .tick)
      = some (s.close (dispatchFrom mport (s.virt dmsg) k i found)) := by
  induction k generalizing i found with
  | zero =>
    refine ⟨1, ?_⟩
    have hend : ¬i < maxPortNum := by omega
    have hstep : dbellStep ring mport { s with pc := .port i found dmsg } .tick
        = some (s.close (if found then .silent else .spurious)) := if_neg hend
    rw [List.replicate_succ, exec_cons, hstep]
    rfl
  | succ k ih =>
    have hmore : i < maxPortNum := by omega
    rw [dispatchFrom]
    cases hround : portRound mport (s.virt dmsg) i found with
    | ok found' =>
      obtain ⟨n, hn⟩ := ih (i + 1) found' (by omega)
      have hstep : dbellStep ring mport { s with pc := .port i found dmsg } .tick
          = some { s with pc := .port (i + 1) found' dmsg } := by
        simp only [dbellStep, dbellHandler, if_pos hmore, hround]
      refine ⟨n + 1, ?_⟩
      rw [List.replicate_succ, exec_cons, hstep]
      exact hn
    | error o =>
      have hstep : dbellStep ring mport { s with pc := .port i found dmsg } .tick
          = some (s.close o) := by
        simp only [dbellStep, dbellHandler, if_pos hmore, hround]
        rfl
      refine ⟨1, ?_⟩
      rw [List.replicate_succ, exec_cons, hstep]
      rfl

/-- The steps of the handler are not restricted. -/
theorem guarded_ticks (n : ℕ) (s : DbellState H) :
    Guarded (dbellStep ring mport) Queued s (List.replicate n .tick) := by
  induction n generalizing s with
  | zero => exact trivial
  | succ n ih => exact ⟨trivial, fun t _ => ih t⟩

/-- Some run dispatches a doorbell. -/
theorem exists_dispatched (ring : DbellRing) (mport : ℕ → Option (List (RioDbell H)))
    (m : RioDbellMsg) :
    ∃ virt run s, Guarded (dbellStep ring mport) Queued (dbellInit virt) run
      ∧ exec (dbellStep ring mport) (dbellInit virt) run = some s
      ∧ ∃ t : DbellState H, s = t.close (dispatch mport m) := by
  -- the doorbell is in every slot, so whichever is read holds it
  let s₁ : DbellState H := { dbellInit (fun _ => m) with
    virt := Function.update (fun _ => m) 0 m
    arrived := [m] }
  obtain ⟨n, hn⟩ := exec_search ring mport s₁ maxPortNum 0 false
    ((s₁.dqdpar ring &&& 0xfff).toNat / dbellMessageSize) (Nat.zero_add _)
  rw [dmsg_eq] at hn
  have hvirt : s₁.virt = fun _ => m := Function.update_eq_self 0 fun _ => m
  have hm : s₁.virt (s₁.deq % dbellEntries) = m := congrFun hvirt _
  rw [hm] at hn
  have harrive : dbellStep ring mport (dbellInit fun _ => m) (.arrive m) = some s₁ := rfl
  have hirq : dbellStep ring mport s₁ (.irq doorbellDsrDiqi)
      = some { s₁ with pc := .readPtr } := rfl
  have hread : dbellStep ring mport { s₁ with pc := .readPtr } .tick
      = some { s₁ with pc := .port 0 false (s₁.deq % dbellEntries) } := by
    simp only [dbellStep, dbellHandler]
    rw [show DbellState.dqdpar ring { s₁ with pc := .readPtr } = s₁.dqdpar ring from rfl, dmsg_eq]
  refine ⟨fun _ => m, .arrive m :: .irq doorbellDsrDiqi :: .tick :: List.replicate n .tick,
    s₁.close (dispatch mport m), ?_, ?_, s₁, rfl⟩
  · refine ⟨trivial, fun t ht => ?_⟩
    obtain rfl := Option.some.inj (harrive.symm.trans ht)
    refine ⟨fun _ => Nat.one_pos, fun t ht => ?_⟩
    exact guarded_ticks (n + 1) t
  · rw [exec_cons, harrive, Option.bind_some, exec_cons, hirq, Option.bind_some, exec_cons, hread]
    exact hn

/-- **Never at a list head.**  On every ring: no run whose interrupts report doorbells that are
    there takes a list head for a range, if and only if there is no doorbell for which the first
    port with a range for it has no handler there and a later port, the ports between being mute
    as well, has no range for it. -/
theorem never_crashes_iff (ring : DbellRing) (mport : ℕ → Option (List (RioDbell H))) :
    (∀ virt run s, Guarded (dbellStep ring mport) Queued (dbellInit virt) run →
        exec (dbellStep ring mport) (dbellInit virt) run = some s → s.pc ≠ .crashed)
      ↔ ¬∃ info a b, a < b ∧ b < maxPortNum ∧ Mute mport info a ∧ Misses mport info b
        ∧ (∀ j, j < a → mport j = none ∨ Misses mport info j)
        ∧ ∀ j, a < j → j < b → mport j = none ∨ Mute mport info j := by
  constructor
  · rintro hnever ⟨info, a, b, hstray⟩
    let m : RioDbellMsg := ⟨0, 0, info⟩
    obtain ⟨virt, run, s, hguard, hrun, t, rfl⟩ := exists_dispatched ring mport m
    have hdispatch : dispatch mport m = .stray b := (dispatch_eq_stray b).mpr ⟨a, hstray⟩
    refine hnever virt run _ hguard hrun ?_
    rw [hdispatch]
    rfl
  · intro hnone virt run s hguard hrun hcrashed
    have h : DbellInv mport s := exec_invariant (fun _ _ _ h hg hstep => DbellInv.step h hg hstep)
      run _ s (dbellInv_init virt) hguard hrun
    have hpoint := h.point
    rw [hcrashed] at hpoint
    obtain ⟨-, -, b, hb⟩ := hpoint
    rw [h.outcomes] at hb
    obtain ⟨m, -, hm⟩ := List.mem_map.mp hb
    obtain ⟨a, hstray⟩ := (dispatch_eq_stray b).mp hm
    exact hnone ⟨m.info, a, b, hstray⟩

end Vpx3.Rio
