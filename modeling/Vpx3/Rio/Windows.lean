import Vpx3.Lib.Cells
import Vpx3.Rio.Atmu

namespace Vpx3.Rio

open Cells

/-!
# Address windows — runs of `set_riooutb` and `set_rioinb`

The windows the two calls program lie at two different bases: the outbound windows from the
maintenance window on, the inbound windows at offset 0x160 of the port's block.

* `MapCall` — the two calls with their arguments;
* `Window`, `Window.register` — the windows of both directions and their registers;
* `register_injective` — no two windows share a register;
* `MapCall.writes` — an accepted call writes the registers of its window and no others;
* `windows_hold_last` — after any run a window holds the words of the last call naming it.
-/

/-- The calls that program windows. -/
inductive MapCall where
  | outb (localAddr srioAddr size dstID uiOub : Reg32)
  | inb (localAddr srioAddr size uiInb : Reg32)
deriving DecidableEq, Repr

/-- A call on the port `mport`. -/
def MapCall.perform (mport : Fin 2) (st : RioState) : MapCall → RioState
  | .outb localAddr srioAddr size dstID uiOub =>
    setRiooutb mport st localAddr srioAddr size dstID uiOub
  | .inb localAddr srioAddr size uiInb => setRioinb mport st localAddr srioAddr size uiInb

/-- The windows of both directions. -/
inductive Window where
  | outb (uiOub : Fin 7)
  | inb (uiInb : Fin 4)
deriving DecidableEq, Repr

/-- The registers a call programs. -/
inductive WindowField where
  | target
  | base
  | attributes
deriving DecidableEq, Repr

/-- The address of a register of a window. -/
def Window.register (mport : Fin 2) : Window → WindowField → ℕ
  | .outb uiOub, .target => maintAtmuRegs mport + uiOub.val * 0x20 + rowtar
  | .outb uiOub, .base => maintAtmuRegs mport + uiOub.val * 0x20 + rowbar
  | .outb uiOub, .attributes => maintAtmuRegs mport + uiOub.val * 0x20 + rowar
  | .inb uiInb, .target => atmuRegs mport + rowtar + 0x160 + uiInb.val * 0x20
  | .inb uiInb, .base => atmuRegs mport + rowtar + 0x168 + uiInb.val * 0x20
  | .inb uiInb, .attributes => atmuRegs mport + rowtar + 0x170 + uiInb.val * 0x20

/-- The window a call names, unless its number is out of range. -/
def MapCall.window : MapCall → Option Window
  | .outb _ _ _ _ uiOub =>
    if h : uiOub.toNat < 7 then some (.outb ⟨uiOub.toNat, h⟩) else none
  | .inb _ _ _ uiInb =>
    if h : uiInb.toNat < 4 then some (.inb ⟨uiInb.toNat, h⟩) else none

/-- The words a call computes for the registers of its window; `type` is `rio_target_type`. -/
def MapCall.words (type : Reg32) : MapCall → WindowField → Reg32
  | .outb _ srioAddr _ dstID _, .target => ((dstID &&& 0xff) <<< 22) ||| (srioAddr >>> 12)
  | .outb localAddr _ _ _ _, .base => localAddr >>> 12
  | .outb _ _ size _ _, .attributes => 0x80044000 ||| uiLawSize size
  | .inb localAddr _ _ _, .target => localAddr >>> 12
  | .inb _ srioAddr _ _, .base => srioAddr >>> 12
  | .inb _ _ size _, .attributes => type ||| uiLawSize size

/-! ### Disjoint windows -/

/-- **No two windows share a register**, in whichever direction. -/
theorem register_injective (mport : Fin 2) : Function.Injective2 (Window.register mport) := by
  intro w v f g h
  cases w with
  | outb w =>
    cases v with
    | outb v =>
      have hw := w.isLt
      have hv := v.isLt
      cases f <;> cases g <;>
        simp only [Window.register, rowtar, rowbar, rowar] at h <;>
        first
        | exact ⟨congrArg Window.outb (Fin.ext (by omega)), rfl⟩
        | omega
    | inb v =>
      -- the outbound windows end below offset 0x160
      have hw := w.isLt
      cases f <;> cases g <;>
        simp only [Window.register, maintAtmuRegs, rowtar, rowbar, rowar] at h <;>
        omega
  | inb w =>
    cases v with
    | outb v =>
      -- the same, seen from the other side
      have hv := v.isLt
      cases f <;> cases g <;>
        simp only [Window.register, maintAtmuRegs, rowtar, rowbar, rowar] at h <;>
        omega
    | inb v =>
      cases f <;> cases g <;>
        simp only [Window.register, rowtar] at h <;>
        first
        | exact ⟨congrArg Window.inb (Fin.ext (by omega)), rfl⟩
        | omega

/-! ### One call -/

/-- Three writes at different addresses. -/
theorem outBe32_three (regs : Regs) {a b c : ℕ} (hab : a ≠ b) (hac : a ≠ c) (hbc : b ≠ c)
    (x y z : Reg32) :
    outBe32 (outBe32 (outBe32 regs a x) b y) c z a = x
      ∧ outBe32 (outBe32 (outBe32 regs a x) b y) c z b = y
      ∧ ∀ d, d ≠ a → d ≠ b → d ≠ c →
        outBe32 (outBe32 (outBe32 regs a x) b y) c z d = regs d := by
  refine ⟨?_, ?_, fun d ha hb hc => ?_⟩
  · rw [outBe32_of_ne _ _ hac, outBe32_of_ne _ _ hab, outBe32_same]
  · rw [outBe32_of_ne _ _ hbc, outBe32_same]
  · rw [outBe32_of_ne _ _ hc, outBe32_of_ne _ _ hb, outBe32_of_ne _ _ ha]

/-- The window number of an accepted call. -/
theorem MapCall.window_eq_some {c : MapCall} {w : Window} (hc : c.window = some w) :
    (∃ l r size d n : Reg32, c = .outb l r size d n ∧ ¬(n < 0 ∨ n > 6)
        ∧ ∃ k : Fin 7, w = .outb k ∧ k.val = n.toNat)
      ∨ ∃ l r size n : Reg32, c = .inb l r size n ∧ ¬n > 3
        ∧ ∃ k : Fin 4, w = .inb k ∧ k.val = n.toNat := by
  cases c with
  | outb l r size d n =>
    rw [MapCall.window] at hc
    split at hc
    · rename_i hn
      obtain rfl := Option.some.inj hc
      refine Or.inl ⟨l, r, size, d, n, rfl, ?_, ⟨n.toNat, hn⟩, rfl, rfl⟩
      rintro (h0 | h6)
      · exact Nat.not_lt_zero _ (BitVec.lt_def.mp h0)
      · exact absurd (BitVec.lt_def.mp h6) (Nat.not_lt.mpr (Nat.le_of_lt_succ hn))
    · nomatch hc
  | inb l r size n =>
    rw [MapCall.window] at hc
    split at hc
    · rename_i hn
      obtain rfl := Option.some.inj hc
      refine Or.inr ⟨l, r, size, n, rfl, ?_, ⟨n.toNat, hn⟩, rfl, rfl⟩
      exact fun h3 => absurd (BitVec.lt_def.mp h3) (Nat.not_lt.mpr (Nat.le_of_lt_succ hn))
    · nomatch hc

/-- A call whose window number is out of range does nothing. -/
theorem MapCall.perform_none (mport : Fin 2) (st : RioState) (c : MapCall)
    (hc : c.window = none) : c.perform mport st = st := by
  cases c with
  | outb l r size d n =>
    have hn : n > 6 := by
      rw [gt_iff_lt, BitVec.lt_def]
      by_contra hlt
      have hle : n.toNat ≤ 6 := Nat.not_lt.mp hlt
      rw [MapCall.window, dif_pos (Nat.lt_succ_of_le hle)] at hc
      exact Option.some_ne_none _ hc
    rw [MapCall.perform, setRiooutb, if_pos (Or.inr hn)]
  | inb l r size n =>
    have hn : n > 3 := by
      rw [gt_iff_lt, BitVec.lt_def]
      by_contra hlt
      have hle : n.toNat ≤ 3 := Nat.not_lt.mp hlt
      rw [MapCall.window, dif_pos (Nat.lt_succ_of_le hle)] at hc
      exact Option.some_ne_none _ hc
    rw [MapCall.perform, setRioinb, if_pos hn]

/-- An accepted call writes its window. -/
theorem MapCall.writes (mport : Fin 2) (st : RioState) (c : MapCall) (w : Window)
    (hc : c.window = some w) :
    Writes (Window.register mport) st.regs (c.perform mport st).regs w
      (c.words st.rioTargetType) := by
  -- both directions store three words and nothing else
  rcases MapCall.window_eq_some hc with ⟨l, r, size, d, n, rfl, hguard, k, rfl, hk⟩
    | ⟨l, r, size, n, rfl, hguard, k, rfl, hk⟩
  · rw [MapCall.perform, setRiooutb, if_neg hguard, rioMapOutb, ← hk]
    dsimp only
    obtain ⟨htarget, hbase, hframe⟩ := outBe32_three st.regs
      (a := maintAtmuRegs mport + k.val * 0x20 + rowtar)
      (b := maintAtmuRegs mport + k.val * 0x20 + rowbar)
      (c := maintAtmuRegs mport + k.val * 0x20 + rowar)
      (by unfold rowtar rowbar; omega) (by unfold rowtar rowar; omega)
      (by unfold rowbar rowar; omega)
      (((d &&& 0xff) <<< 22) ||| (r >>> 12)) (l >>> 12) (0x80044000 ||| uiLawSize size)
    constructor
    · intro f
      cases f with
      | target => exact htarget
      | base => exact hbase
      | attributes => exact outBe32_same _ _ _
    · intro a ha
      exact hframe a (ha .target) (ha .base) (ha .attributes)
  · rw [MapCall.perform, setRioinb, if_neg hguard, rioMapInb, ← hk]
    dsimp only
    obtain ⟨htarget, hbase, hframe⟩ := outBe32_three st.regs
      (a := atmuRegs mport + rowtar + 0x160 + k.val * 0x20)
      (b := atmuRegs mport + rowtar + 0x168 + k.val * 0x20)
      (c := atmuRegs mport + rowtar + 0x170 + k.val * 0x20)
      (by omega) (by omega) (by omega)
      (l >>> 12) (r >>> 12) (st.rioTargetType ||| uiLawSize size)
    constructor
    · intro f
      cases f with
      | target => exact htarget
      | base => exact hbase
      | attributes => exact outBe32_same _ _ _
    · intro a ha
      exact hframe a (ha .target) (ha .base) (ha .attributes)

/-- The target type is not the business of these calls. -/
theorem MapCall.perform_rioTargetType (mport : Fin 2) (st : RioState) (c : MapCall) :
    (c.perform mport st).rioTargetType = st.rioTargetType := by
  cases c with
  | outb l r size d n =>
    rw [MapCall.perform, setRiooutb]
    split <;> rfl
  | inb l r size n =>
    rw [MapCall.perform, setRioinb]
    split <;> rfl

/-! ### Runs -/

/-- The registers a run of calls leaves. -/
def performAll (mport : Fin 2) (st : RioState) (run : List MapCall) : RioState :=
  run.foldl (fun st c => c.perform mport st) st

/-- **Independent windows.**  A refused call writes nothing; an accepted one changes neither
    another window nor any register outside its own three; and after every run each window
    holds the words of the last accepted call that named it, or its initial content. -/
theorem windows_hold_last (mport : Fin 2) (st : RioState) (run : List MapCall) :
    (∀ (c : MapCall) (t : RioState), c.window = none → c.perform mport t = t)
      ∧ (∀ (c : MapCall) (t : RioState) (w : Window), c.window = some w →
          (∀ v : Window, v ≠ w → ∀ f,
            (c.perform mport t).regs (v.register mport f) = t.regs (v.register mport f))
          ∧ ∀ a, (∀ f, a ≠ w.register mport f) → (c.perform mport t).regs a = t.regs a)
      ∧ ∀ (w : Window) f, (performAll mport st run).regs (w.register mport f)
          = ((lastNaming MapCall.window w run).map
              fun c : MapCall => c.words st.rioTargetType f).getD
            (st.regs (w.register mport f)) := by
  have hplace := register_injective mport
  refine ⟨fun c t hc => c.perform_none mport t hc, fun c t w hc => ?_, fun w f => ?_⟩
  · have hwrite := c.writes mport t w hc
    exact ⟨fun v hv f => hwrite.other hplace hv f, hwrite.frame⟩
  · refine foldl_last hplace RioState.regs (fun t => t.rioTargetType = st.rioTargetType)
      (fun t c ht => ?_) (fun t c v ht hc => ?_) (fun t c hc => ?_) rfl run w f
    · rw [c.perform_rioTargetType, ht]
    · have hwrite := c.writes mport t v hc
      rwa [ht] at hwrite
    · rw [c.perform_none mport t hc]

end Vpx3.Rio
