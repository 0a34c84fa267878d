import Vpx3.Lib.Exec
import Mathlib

namespace Vpx3.Rio

open Exec

/-!
# Address windows — the ATMU programming of `fsl_rio.c`

Every port has a block of window registers in the RapidIO register space.  Its first
outbound window past the default one is the maintenance window: `maint_atmu_regs` points at
it, `fsl_rio_setup` configures it, and configuration accesses go through it.  The commands
`setoutb` and `setinb` program windows by an offset from the same two bases.

* `rioMapOutb`, `rioMapInb`, `setRiooutb`, `setRioinb` — the programming of windows;
* `fslRioConfigRead`, `fslRioConfigWrite` — the registers a configuration access programs;
* `MaintIntact` — base and attributes of the maintenance window are those of the set-up;
* `maintSurvives_iff` — they survive a run exactly when no `setoutb` names window 0, which the
  guard of `set_riooutb` lets through and which is the maintenance window.
-/

abbrev Reg32 := BitVec 32

/-- The register space behind `regs_win`, by byte offset. -/
abbrev Regs := ℕ → Reg32

/-- `out_be32`. -/
def outBe32 (regs : Regs) (addr : ℕ) (value : Reg32) : Regs := Function.update regs addr value

@[simp] theorem outBe32_same (regs : Regs) (a : ℕ) (v : Reg32) : outBe32 regs a v a = v := by
  simp [outBe32]

theorem outBe32_of_ne (regs : Regs) {a b : ℕ} (v : Reg32) (h : b ≠ a) :
    outBe32 regs a v b = regs b := by
  simp [outBe32, Function.update_of_ne h]

/-! ### The window registers of a port -/

/-- `priv->atmu_regs` of port `i`: `RIO_ATMU_REGS_PORT1_OFFSET` or `.._PORT2_OFFSET`. -/
def atmuRegs (i : Fin 2) : ℕ := if i.val = 0 then 0x10c00 else 0x10e00

/-- `priv->maint_atmu_regs`: one `struct rio_atmu_regs` further. -/
def maintAtmuRegs (i : Fin 2) : ℕ := atmuRegs i + 0x20

/-- Member offsets of `struct rio_atmu_regs`. -/
def rowtar : ℕ := 0x00
def rowtear : ℕ := 0x04
def rowbar : ℕ := 0x08
def rowar : ℕ := 0x10

/-- `ilog2` of a 32-bit value; of zero it is `-1`. -/
def ilog2 (n : Reg32) : Int := if n = 0 then -1 else (Nat.log2 n.toNat : Int)

/-- `uiLawSize`, the size field of an attribute register. -/
def uiLawSize (size : Reg32) : Reg32 := BitVec.ofInt 32 (ilog2 size - 1)

/-- What the window programming works on: the register space and `rio_target_type`. -/
structure RioState where
  regs : Regs
  rioTargetType : Reg32

/-- `rioMapOutb` on the port `mport`. -/
def rioMapOutb (mport : Fin 2) (st : RioState) (localAddr srioAddr size dstID : Reg32)
    (uiOub : Reg32) : RioState :=
  -- window 0 is the maintenance window
  let win := maintAtmuRegs mport + uiOub.toNat * 0x20
  let regs := outBe32 st.regs (win + rowtar) (((dstID &&& 0xff) <<< 22) ||| (srioAddr >>> 12))
  let regs := outBe32 regs (win + rowbar) (localAddr >>> 12)
  let regs := outBe32 regs (win + rowar) (0x80044000 ||| uiLawSize size)
  { st with regs := regs }

/-- `rioMapInb` on the port `mport`. -/
def rioMapInb (mport : Fin 2) (st : RioState) (localAddr srioAddr size : Reg32)
    (uiInb : Reg32) : RioState :=
  let base := atmuRegs mport + rowtar
  let regs := outBe32 st.regs (base + 0x160 + uiInb.toNat * 0x20) (localAddr >>> 12)
  let regs := outBe32 regs (base + 0x168 + uiInb.toNat * 0x20) (srioAddr >>> 12)
  let regs := outBe32 regs (base + 0x170 + uiInb.toNat * 0x20)
    (st.rioTargetType ||| uiLawSize size)
  { st with regs := regs }

/-- `set_riooutb`; the compiled-out guard in front of this one refused window 0 as well. -/
def setRiooutb (memMport : Fin 2) (st : RioState) (localAddr srioAddr size dstID : Reg32)
    (uiOub : Reg32) : RioState :=
  if uiOub < 0 ∨ uiOub > 6 then st
  else rioMapOutb memMport st localAddr srioAddr size dstID uiOub

/-- `set_rioinb`. -/
def setRioinb (memMport : Fin 2) (st : RioState) (localAddr srioAddr size : Reg32)
    (uiInb : Reg32) : RioState :=
  if uiInb > 3 then st else rioMapInb memMport st localAddr srioAddr size uiInb

/-! ### Set-up and configuration accesses -/

def rioMaintWinSize : Reg32 := 0x400000

/-- `rowbar` and `rowar` as the set-up leaves them for a port whose window starts at `start`. -/
def maintRowbar (start : BitVec 64) : Reg32 := (start >>> 12).setWidth 32
def maintRowar : Reg32 := 0x80077000 ||| uiLawSize rioMaintWinSize

/-- The part of `fsl_rio_setup` that configures the maintenance window of port `i`. -/
def setupMaint (i : Fin 2) (start : BitVec 64) (st : RioState) : RioState :=
  let regs := outBe32 st.regs (maintAtmuRegs i + rowbar) (maintRowbar start)
  let regs := outBe32 regs (maintAtmuRegs i + rowar) maintRowar
  { st with regs := regs }

/-- One round of the port loop of `fsl_rio_setup`; a port that did not come up is skipped. -/
def setupPort (iores : Fin 2 → Option (BitVec 64)) (i : Fin 2) (st : RioState) : RioState :=
  match iores i with
  | none => st
  | some start => setupMaint i start st

/-- `fsl_rio_setup` over the two ports; `iores i` is the start of port `i`'s window, `none` when
    the port did not come up. -/
def fslRioSetup (iores : Fin 2 → Option (BitVec 64)) (st : RioState) : RioState :=
  setupPort iores ⟨1, Nat.one_lt_two⟩ (setupPort iores ⟨0, Nat.zero_lt_two⟩ st)

/-- The check both configuration accesses begin with: offset and length fit the 16 MiB window
    and are aligned. -/
def configOk (offset len : Reg32) : Prop :=
  ¬(offset > 0x1000000 - len) ∧ offset &&& (len - 1) = 0

instance (offset len : Reg32) : Decidable (configOk offset len) :=
  inferInstanceAs (Decidable (_ ∧ _))

/-- The window target a configuration access programs. -/
def configTarget (i : Fin 2) (st : RioState) (destid : BitVec 16) (hopcount : BitVec 8)
    (offset : Reg32) : RioState :=
  let destid := destid.setWidth 32
  let regs := outBe32 st.regs (maintAtmuRegs i + rowtar)
    ((destid <<< 22) ||| (hopcount.setWidth 32 <<< 12) ||| (offset >>> 12))
  let regs := outBe32 regs (maintAtmuRegs i + rowtear) (destid >>> 10)
  { st with regs := regs }

/-- `fsl_rio_config_read`: the registers it leaves.  The read itself goes to `maint_win`. -/
def fslRioConfigRead (i : Fin 2) (st : RioState) (destid : BitVec 16) (hopcount : BitVec 8)
    (offset len : Reg32) : RioState :=
  if configOk offset len then configTarget i st destid hopcount offset else st

/-- `fsl_rio_config_write`: the registers it leaves.  The value goes to `maint_win`. -/
def fslRioConfigWrite (i : Fin 2) (st : RioState) (destid : BitVec 16) (hopcount : BitVec 8)
    (offset len : Reg32) : RioState :=
  if configOk offset len then configTarget i st destid hopcount offset else st

/-! ### Runs -/

/-- The calls a run is made of.  The commands act on `mem_mport`, configuration accesses on
    any port. -/
inductive RioCall where
  | setoutb (localAddr srioAddr size dstID uiOub : Reg32)
  | setinb (localAddr srioAddr size uiInb : Reg32)
  | configRead (i : Fin 2) (destid : BitVec 16) (hopcount : BitVec 8) (offset len : Reg32)
  | configWrite (i : Fin 2) (destid : BitVec 16) (hopcount : BitVec 8) (offset len : Reg32)
  deriving DecidableEq

/-- One call; every call is possible in every state. -/
def rioStep (memMport : Fin 2) (st : RioState) : RioCall → Option RioState
  | .setoutb l r size d w => some (setRiooutb memMport st l r size d w)
  | .setinb l r size w => some (setRioinb memMport st l r size w)
  | .configRead i d h o len => some (fslRioConfigRead i st d h o len)
  | .configWrite i d h o len => some (fslRioConfigWrite i st d h o len)

/-- Base and attributes of the maintenance window of every port that came up are those of the
    set-up. -/
def MaintIntact (iores : Fin 2 → Option (BitVec 64)) (st : RioState) : Prop :=
  ∀ i start, iores i = some start →
    st.regs (maintAtmuRegs i + rowbar) = maintRowbar start ∧
    st.regs (maintAtmuRegs i + rowar) = maintRowar

/-- Every state a run from `st` reaches has the maintenance windows intact. -/
def MaintSurvives (memMport : Fin 2) (iores : Fin 2 → Option (BitVec 64)) (st : RioState)
    (run : List RioCall) : Prop :=
  ∀ pre post t, run = pre ++ post → exec (rioStep memMport) st pre = some t → MaintIntact iores t

/-- A `setoutb` command for window 0. -/
def RioCall.NamesMaint : RioCall → Prop
  | .setoutb _ _ _ _ w => w = 0
  | _ => False

instance (c : RioCall) : Decidable c.NamesMaint := by
  cases c <;> unfold RioCall.NamesMaint <;> infer_instance

/-! ### Which registers a call leaves alone -/

/-- The two register blocks of windows. -/
theorem atmuRegs_cases (i : Fin 2) : atmuRegs i = 0x10c00 ∨ atmuRegs i = 0x10e00 := by
  rw [atmuRegs]
  split
  · exact Or.inl rfl
  · exact Or.inr rfl

/-- The guard of `set_riooutb` bounds the window number by six. -/
theorem uiOub_le_of_guard {w : Reg32} (h : ¬(w < 0 ∨ w > 6)) : w.toNat ≤ 6 := by
  have h6 : ¬(6 < w) := fun hw => h (Or.inr hw)
  rw [BitVec.lt_def] at h6
  exact Nat.not_lt.mp h6

/-- The guard of `set_rioinb` bounds the window number by three. -/
theorem uiInb_le_of_guard {w : Reg32} (h : ¬w > 3) : w.toNat ≤ 3 := by
  have h3 : ¬(3 < w) := h
  rw [BitVec.lt_def] at h3
  exact Nat.not_lt.mp h3

/-- A configuration access programs target registers only. -/
theorem configTarget_frame (j : Fin 2) (st : RioState) (destid : BitVec 16) (hop : BitVec 8)
    (offset : Reg32) (i : Fin 2) {m : ℕ} (hm : m = rowbar ∨ m = rowar) :
    (configTarget j st destid hop offset).regs (maintAtmuRegs i + m)
      = st.regs (maintAtmuRegs i + m) := by
  have hi := atmuRegs_cases i
  have hj := atmuRegs_cases j
  unfold configTarget
  dsimp only
  unfold maintAtmuRegs rowtar rowtear at *
  unfold rowbar rowar at hm
  rw [outBe32_of_ne _ _ (by omega), outBe32_of_ne _ _ (by omega)]

/-- Outbound windows 1 to 6 lie behind the maintenance window of either port. -/
theorem setRiooutb_frame (memMport : Fin 2) (st : RioState) (l r size d : Reg32) {w : Reg32}
    (hw : w ≠ 0) (i : Fin 2) {m : ℕ} (hm : m = rowbar ∨ m = rowar) :
    (setRiooutb memMport st l r size d w).regs (maintAtmuRegs i + m)
      = st.regs (maintAtmuRegs i + m) := by
  have hi := atmuRegs_cases i
  have hp := atmuRegs_cases memMport
  rw [setRiooutb]
  split
  · rfl
  · rename_i hguard
    have hle := uiOub_le_of_guard hguard
    have hpos : w.toNat ≠ 0 := fun h0 => hw (BitVec.eq_of_toNat_eq h0)
    unfold rioMapOutb
    dsimp only
    unfold maintAtmuRegs rowtar rowbar rowar at *
    rw [outBe32_of_ne _ _ (by omega), outBe32_of_ne _ _ (by omega), outBe32_of_ne _ _ (by omega)]

/-- Inbound windows lie behind all outbound ones. -/
theorem setRioinb_frame (memMport : Fin 2) (st : RioState) (l r size w : Reg32) (i : Fin 2)
    {m : ℕ} (hm : m = rowbar ∨ m = rowar) :
    (setRioinb memMport st l r size w).regs (maintAtmuRegs i + m)
      = st.regs (maintAtmuRegs i + m) := by
  have hi := atmuRegs_cases i
  have hp := atmuRegs_cases memMport
  rw [setRioinb]
  split
  · rfl
  · rename_i hguard
    have hle := uiInb_le_of_guard hguard
    unfold rioMapInb
    dsimp only
    unfold maintAtmuRegs rowtar at *
    unfold rowbar rowar at hm
    rw [outBe32_of_ne _ _ (by omega), outBe32_of_ne _ _ (by omega), outBe32_of_ne _ _ (by omega)]

/-- No call but a `setoutb` for window 0 touches base or attributes of a maintenance window. -/
theorem rioStep_frame {memMport : Fin 2} {st t : RioState} {c : RioCall}
    (hc : ¬c.NamesMaint) (h : rioStep memMport st c = some t) (i : Fin 2) {m : ℕ}
    (hm : m = rowbar ∨ m = rowar) :
    t.regs (maintAtmuRegs i + m) = st.regs (maintAtmuRegs i + m) := by
  cases c with
  | setoutb l r size d w =>
    obtain rfl := Option.some.inj h
    exact setRiooutb_frame memMport st l r size d hc i hm
  | setinb l r size w =>
    obtain rfl := Option.some.inj h
    exact setRioinb_frame memMport st l r size w i hm
  | configRead j d hop o len =>
    obtain rfl := Option.some.inj h
    rw [fslRioConfigRead]
    split
    · exact configTarget_frame j st d hop o i hm
    · rfl
  | configWrite j d hop o len =>
    obtain rfl := Option.some.inj h
    rw [fslRioConfigWrite]
    split
    · exact configTarget_frame j st d hop o i hm
    · rfl

/-! ### What a command for window 0 does -/

/-- The size field is below 32, or the all-but-one-bit pattern of a degenerate size. -/
theorem uiLawSize_cases (size : Reg32) :
    (uiLawSize size).toNat < 32 ∨ uiLawSize size = -1 ∨ uiLawSize size = -2 := by
  unfold uiLawSize ilog2
  split
  · exact Or.inr (Or.inr rfl)
  · rename_i h0
    have hne : size.toNat ≠ 0 := fun h => h0 (BitVec.eq_of_toNat_eq h)
    have hlog : Nat.log2 size.toNat < 32 := (Nat.log2_lt hne).mpr size.isLt
    rcases Nat.eq_zero_or_pos (Nat.log2 size.toNat) with hzero | hpos
    · rw [hzero]
      exact Or.inr (Or.inl rfl)
    · left
      obtain ⟨k, hk⟩ : ∃ k, Nat.log2 size.toNat = k + 1 := ⟨_, (Nat.succ_pred_eq_of_pos hpos).symm⟩
      rw [hk, show ((k + 1 : ℕ) : Int) - 1 = (k : Int) by omega, BitVec.ofInt_natCast,
        BitVec.toNat_ofNat]
      omega

/-- The attributes of an ordinary outbound window are never those of the maintenance window. -/
theorem outbRowar_ne_maintRowar (size : Reg32) : 0x80044000 ||| uiLawSize size ≠ maintRowar := by
  intro h
  have hmaint : maintRowar = 0x80077015 := by decide
  rw [hmaint] at h
  rcases uiLawSize_cases size with hlt | hdeg
  · -- bit 12 is set in the maintenance attributes only
    have hbit := congrArg (fun v : Reg32 => v.getLsbD 12) h
    have hclear : (uiLawSize size).getLsbD 12 = false :=
      Nat.testBit_lt_two_pow (show (uiLawSize size).toNat < 2 ^ 12 by omega)
    simp only [BitVec.getLsbD_or, hclear] at hbit
    exact absurd hbit (by decide)
  · rcases hdeg with hdeg | hdeg <;> rw [hdeg] at h <;> exact absurd h (by decide)

/-- An accepted command for window 0 replaces the attributes of the maintenance window. -/
theorem setRiooutb_zero_rowar (memMport : Fin 2) (st : RioState)
    (localAddr srioAddr size dstID : Reg32) :
    (setRiooutb memMport st localAddr srioAddr size dstID 0).regs (maintAtmuRegs memMport + rowar)
      = 0x80044000 ||| uiLawSize size := by
  rw [setRiooutb, if_neg (by decide), rioMapOutb]
  exact outBe32_same _ _ _

/-! ### The maintenance windows over a run -/

/-- The set-up of a port leaves its maintenance window as it wants it. -/
theorem setupPort_own {iores : Fin 2 → Option (BitVec 64)} {i : Fin 2} {start : BitVec 64}
    (h : iores i = some start) (st : RioState) :
    (setupPort iores i st).regs (maintAtmuRegs i + rowbar) = maintRowbar start ∧
    (setupPort iores i st).regs (maintAtmuRegs i + rowar) = maintRowar := by
  rw [setupPort, h]
  dsimp only [setupMaint]
  unfold rowbar rowar
  refine ⟨?_, outBe32_same _ _ _⟩
  rw [outBe32_of_ne _ _ (by omega), outBe32_same]

/-- The set-up of one port leaves the other port's maintenance window alone. -/
theorem setupPort_other {iores : Fin 2 → Option (BitVec 64)} {i j : Fin 2} (hne : i ≠ j)
    (st : RioState) {m : ℕ} (hm : m = rowbar ∨ m = rowar) :
    (setupPort iores j st).regs (maintAtmuRegs i + m) = st.regs (maintAtmuRegs i + m) := by
  have hblocks : atmuRegs i + 0x200 = atmuRegs j ∨ atmuRegs j + 0x200 = atmuRegs i := by
    revert i j
    decide
  rw [setupPort]
  split
  · rfl
  · dsimp only [setupMaint]
    unfold maintAtmuRegs
    unfold rowbar rowar at *
    rw [outBe32_of_ne _ _ (by omega), outBe32_of_ne _ _ (by omega)]

/-- The set-up leaves the maintenance windows of all ports as it wants them. -/
theorem maintIntact_setup (iores : Fin 2 → Option (BitVec 64)) (st : RioState) :
    MaintIntact iores (fslRioSetup iores st) := by
  intro i start hstart
  rw [fslRioSetup]
  by_cases hi : i = 1
  · subst hi
    exact setupPort_own hstart _
  · obtain rfl : i = 0 := by omega
    rw [setupPort_other (by decide) _ (Or.inl rfl), setupPort_other (by decide) _ (Or.inr rfl)]
    exact setupPort_own hstart st

/-- Calls that leave window 0 alone keep the maintenance windows. -/
theorem rioStep_maintIntact {memMport : Fin 2} {iores : Fin 2 → Option (BitVec 64)}
    (st : RioState) (c : RioCall) (t : RioState) (hinv : MaintIntact iores st)
    (hc : ¬c.NamesMaint) (h : rioStep memMport st c = some t) : MaintIntact iores t := by
  intro i start hstart
  rw [rioStep_frame hc h i (Or.inl rfl), rioStep_frame hc h i (Or.inr rfl)]
  exact hinv i start hstart

/-- Every call of a run is possible, so the state before each call exists. -/
theorem exec_rioStep (memMport : Fin 2) (st : RioState) (run : List RioCall) :
    ∃ t, exec (rioStep memMport) st run = some t := by
  induction run generalizing st with
  | nil => exact ⟨st, rfl⟩
  | cons c cs ih =>
    obtain ⟨t, ht⟩ : ∃ t, rioStep memMport st c = some t := by cases c <;> exact ⟨_, rfl⟩
    obtain ⟨u, hu⟩ := ih t
    exact ⟨u, by rw [exec_cons, ht]; exact hu⟩

/-- **Maintenance window.**  After the set-up, with the commands acting on a port that came up,
    base and attributes of every maintenance window keep the values of the set-up throughout a
    run if and only if no `setoutb` of the run names window 0. -/
theorem maintSurvives_iff (memMport : Fin 2) (iores : Fin 2 → Option (BitVec 64))
    (hup : (iores memMport).isSome) (st : RioState) (run : List RioCall) :
    MaintSurvives memMport iores (fslRioSetup iores st) run
      ↔ ∀ c ∈ run, ¬c.NamesMaint := by
  constructor
  · intro hsurv c hc hmaint
    obtain ⟨pre, post, rfl⟩ := List.append_of_mem hc
    obtain ⟨t, ht⟩ := exec_rioStep memMport (fslRioSetup iores st) pre
    obtain ⟨start, hstart⟩ := Option.isSome_iff_exists.mp hup
    cases c with
    | setoutb l r size d w =>
      -- right behind this call the attributes are those of an ordinary window
      obtain rfl : w = 0 := hmaint
      have hafter : exec (rioStep memMport) (fslRioSetup iores st) (pre ++ [.setoutb l r size d 0])
          = some (setRiooutb memMport t l r size d 0) := by
        rw [exec_append, ht]
        rfl
      have hrowar := (hsurv _ post _ (by simp) hafter memMport start hstart).2
      rw [setRiooutb_zero_rowar] at hrowar
      exact outbRowar_ne_maintRowar size hrowar
    | setinb | configRead | configWrite => exact hmaint
  · intro hrun pre post t hsplit hexec
    refine exec_invariant rioStep_maintIntact pre _ t (maintIntact_setup iores st) ?_ hexec
    exact Guarded.of_labels pre (fun c hc => hrun c (by simp [hsplit, hc])) _

/-- One port up, and a run that programs the windows next to the maintenance window. -/
theorem maintSurvives_neighbours :
    MaintSurvives 0 (fun i => if i = 0 then some 0xc0000000 else none)
        (fslRioSetup (fun i => if i = 0 then some 0xc0000000 else none) ⟨fun _ => 0, 0x80f55000⟩)
        [.setoutb 0xc0400000 0 0x100000 1 1, .configRead 0 1 0 0 4, .setinb 0 0 0x1000 3]
      ↔ ∀ c ∈ ([.setoutb 0xc0400000 0 0x100000 1 1, .configRead 0 1 0 0 4, .setinb 0 0 0x1000 3]
          : List RioCall), ¬c.NamesMaint :=
  maintSurvives_iff 0 _ (by decide) _ _

/-- `setoutb` for window 0 with an address range of 1 MiB. -/
theorem not_maintSurvives_window_zero :
    ¬MaintSurvives 0 (fun _ => some 0xc0000000)
        (fslRioSetup (fun _ => some 0xc0000000) ⟨fun _ => 0, 0x80f55000⟩)
        [.setoutb 0xc0400000 0 0x100000 1 0] := by
  intro h
  have hrowar := (h [_] [] _ rfl rfl 0 0xc0000000 rfl).2
  rw [setRiooutb_zero_rowar] at hrowar
  exact outbRowar_ne_maintRowar _ hrowar

end Vpx3.Rio
