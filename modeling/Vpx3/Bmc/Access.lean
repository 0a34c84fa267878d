import Vpx3.Bmc.Fpga

namespace Vpx3.Bmc

/-!
# Register access — `fpgaRegRead` and `fpgaRegWrite` of `ibmc.c`

The two wrappers truncate a 32-bit address to the 16 bits of the command word and call the
ioctl.  A run is a list of calls; each carries what the C code leaves to chance (the ioctl's
leftover return value, the uninitialised variable of a read).

* `InWindow` — the addresses the design has registers at: multiples of four whose word lies
  in the `0xff` mapped bytes;
* `FaithfulRun` — every call of a run touches nothing and fails, or touches exactly the word
  at its own byte address; reads that succeed return what was last written there; a call
  leaves every other register alone;
* `faithfulRun_iff` — that holds exactly for the runs whose calls stay in the window.
-/

/-- A call of one of the wrappers returns: the return value, the value read (`*Value`, for a
    write the value written), the words of the mapping it touched, the driver's state. -/
structure RegResult where
  ret : Int
  value : Word32
  touched : List ℕ
  dev : FpgaDev

/-- The content of a user variable: what the driver put there, or what was there before. -/
def UserWord.word (arg : UserWord) (before : Word32) : Word32 :=
  match arg with
  | .valid w => w
  | _ => before

def fpgaRegReadCmd : BitVec 8 := 0
def fpgaRegWriteCmd : BitVec 8 := 1

/-- `fpgaRegRead`; `uiRegValue` is what the uninitialised variable holds. -/
def fpgaRegRead (dev : FpgaDev) (addr : Word32) (uiRegValue : Word32) (junk : Int) : RegResult :=
  let stcmd : FpgaControlCmd :=
    { usRegAddr := addr.setWidth 16, ucReseved := 0, ucCmd := fpgaRegReadCmd }
  let r := fpgaInfoIoctl dev stcmd.toCmd (.valid uiRegValue) junk
  if r.ret < 0 then { ret := -1, value := -1, touched := r.touched, dev := r.dev }
  else { ret := 0, value := r.arg.word uiRegValue, touched := r.touched, dev := r.dev }

/-- `fpgaRegWrite`.  An address above `0x100` is reported on the console and used all the
    same. -/
def fpgaRegWrite (dev : FpgaDev) (addr value : Word32) (junk : Int) : RegResult :=
  let stcmd : FpgaControlCmd :=
    { usRegAddr := addr.setWidth 16, ucReseved := 0, ucCmd := fpgaRegWriteCmd }
  let r := fpgaInfoIoctl dev stcmd.toCmd (.valid value) junk
  if r.ret < 0 then { ret := -1, value := value, touched := r.touched, dev := r.dev }
  else { ret := 0, value := value, touched := r.touched, dev := r.dev }

/-! ### Calls and runs -/

/-- One call with what it finds in uninitialised places. -/
inductive RegCall where
  | read (addr uiRegValue : Word32) (junk : Int)
  | write (addr value : Word32) (junk : Int)
  deriving DecidableEq, Repr

/-- The address argument of a call. -/
def RegCall.addr : RegCall → Word32
  | .read a _ _ => a
  | .write a _ _ => a

/-- Perform one call. -/
def RegCall.run (dev : FpgaDev) : RegCall → RegResult
  | .read a u j => fpgaRegRead dev a u j
  | .write a v j => fpgaRegWrite dev a v j

/-- The driver's state after a list of calls. -/
def afterCalls (dev : FpgaDev) : List RegCall → FpgaDev
  | [] => dev
  | c :: cs => afterCalls (c.run dev).dev cs

/-- The word of the mapping at index `k`, if there is a mapping. -/
def FpgaDev.word (dev : FpgaDev) (k : ℕ) : Option Word32 := dev.guipFpga.map (· k)

/-- The index of the word the driver uses for an address. -/
def wordIndex (addr : Word32) : ℕ := addr.toNat % 2 ^ 16 / 4

/-- A register of the window: word-aligned, its four bytes within the `0xff` mapped ones. -/
def InWindow (addr : Word32) : Prop := addr.toNat % 4 = 0 ∧ addr.toNat + 4 ≤ 0xff

instance (addr : Word32) : Decidable (InWindow addr) := inferInstanceAs (Decidable (_ ∧ _))

/-- The value last written to `a` by a list of calls that starts from content `v`. -/
def lastWritten (a : Word32) : Word32 → List RegCall → Word32
  | v, [] => v
  | v, .write a' v' _ :: cs => lastWritten a (if a' = a then v' else v) cs
  | v, .read _ _ _ :: cs => lastWritten a v cs

/-! ### What one call does -/

/-- What a call stores: a write puts its value at its word index, a read stores nothing. -/
def RegCall.store (c : RegCall) (base : ℕ → Word32) : ℕ → Word32 :=
  match c with
  | .read _ _ _ => base
  | .write a v _ => Function.update base (wordIndex a) v

/-- Without a mapping a call fails and touches nothing. -/
theorem run_unmapped (c : RegCall) :
    (c.run ⟨none⟩).ret = -1 ∧ (c.run ⟨none⟩).touched = [] ∧ (c.run ⟨none⟩).dev = ⟨none⟩ := by
  cases c <;> exact ⟨rfl, rfl, rfl⟩

/-- With a mapping a call touches the word of its truncated address, and a read that succeeds
    returns that word. -/
theorem run_mapped (c : RegCall) (base : ℕ → Word32) :
    (c.run ⟨some base⟩).touched = [wordIndex c.addr] ∧
    (c.run ⟨some base⟩).dev = ⟨some (c.store base)⟩ ∧
    ∀ a u j, c = .read a u j → (c.run ⟨some base⟩).ret = 0 →
      (c.run ⟨some base⟩).value = base (wordIndex a) := by
  have hidx : ∀ a : Word32, (a.setWidth 16).toNat / 4 = wordIndex a := fun a => by
    rw [BitVec.toNat_setWidth, wordIndex]
  cases c with
  | read a u j =>
    have hio : fpgaInfoIoctl ⟨some base⟩
        (FpgaControlCmd.toCmd ⟨a.setWidth 16, 0, fpgaRegReadCmd⟩) (.valid u) j
        = ⟨j, .valid (base (wordIndex a)), [wordIndex a], ⟨some base⟩⟩ := by
      unfold fpgaInfoIoctl
      simp only [FpgaControlCmd.ofCmd_toCmd, hidx]
      rw [if_neg UserWord.noConfusion, if_neg (by decide), if_pos (by decide)]
    simp only [RegCall.run, fpgaRegRead, hio]
    split
    · refine ⟨rfl, rfl, fun a' u' j' _ h => absurd h (show ¬(-1 : Int) = 0 by decide)⟩
    · refine ⟨rfl, rfl, fun a' u' j' h _ => ?_⟩
      obtain ⟨rfl, -, -⟩ := RegCall.read.inj h
      rfl
  | write a v j =>
    have hio : fpgaInfoIoctl ⟨some base⟩
        (FpgaControlCmd.toCmd ⟨a.setWidth 16, 0, fpgaRegWriteCmd⟩) (.valid v) j
        = ⟨j, .valid v, [wordIndex a], ⟨some (Function.update base (wordIndex a) v)⟩⟩ := by
      unfold fpgaInfoIoctl
      simp only [FpgaControlCmd.ofCmd_toCmd, hidx]
      rw [if_neg UserWord.noConfusion, if_pos (by decide)]
    simp only [RegCall.run, fpgaRegWrite, hio]
    split <;> exact ⟨rfl, rfl, fun _ _ _ h => RegCall.noConfusion h⟩

/-! ### Faithful runs -/

/-- A call returns `-1` and touches nothing, or accesses exactly the word at its byte address
    in the window. -/
def FaithfulCall (a : Word32) (r : RegResult) : Prop :=
  (r.ret = -1 ∧ r.touched = []) ∨
  (r.touched.map (4 * ·) = [a.toNat] ∧ a.toNat + 4 ≤ 0xff)

/-- Every call of the run is faithful; a read that succeeds returns the value last written to
    its address (or the content `dev` had there); a call leaves the registers at other
    addresses alone. -/
def FaithfulRun (dev : FpgaDev) (calls : List RegCall) : Prop :=
  ∀ pre c post, calls = pre ++ c :: post →
    let before := afterCalls dev pre
    let r := c.run before
    FaithfulCall c.addr r ∧
    (∀ a u j, c = .read a u j → r.ret = 0 →
      ∃ v, dev.word (wordIndex a) = some v ∧ r.value = lastWritten a v pre) ∧
    (∀ b, InWindow b → b ≠ c.addr → r.dev.word (wordIndex b) = before.word (wordIndex b))

/-- Without a mapping no list of calls changes anything. -/
theorem afterCalls_unmapped (calls : List RegCall) : afterCalls ⟨none⟩ calls = ⟨none⟩ := by
  induction calls with
  | nil => rfl
  | cons c cs ih =>
    rw [afterCalls, (run_unmapped c).2.2, ih]

/-- No list of calls removes the mapping. -/
theorem afterCalls_mapped (calls : List RegCall) (base : ℕ → Word32) :
    ∃ base', afterCalls ⟨some base⟩ calls = ⟨some base'⟩ := by
  induction calls generalizing base with
  | nil => exact ⟨base, rfl⟩
  | cons c cs ih =>
    rw [afterCalls, (run_mapped c base).2.1]
    exact ih _

/-- In the window an address is four times its word index, so equal indices mean equal
    addresses. -/
theorem InWindow.four_mul_wordIndex {a : Word32} (h : InWindow a) : 4 * wordIndex a = a.toNat := by
  obtain ⟨halign, hbound⟩ := h
  rw [wordIndex]
  omega

/-- Two registers of the window with one word index are one register. -/
theorem InWindow.eq_of_wordIndex {a b : Word32} (ha : InWindow a) (hb : InWindow b)
    (h : wordIndex a = wordIndex b) : a = b := by
  apply BitVec.eq_of_toNat_eq
  rw [← ha.four_mul_wordIndex, ← hb.four_mul_wordIndex, h]

/-- After calls in the window the word of an address of the window is the value last written
    to that address. -/
theorem afterCalls_word {a : Word32} (ha : InWindow a) (calls : List RegCall)
    (hcalls : ∀ c ∈ calls, InWindow c.addr) (base : ℕ → Word32) :
    ∃ base', afterCalls ⟨some base⟩ calls = ⟨some base'⟩ ∧
      base' (wordIndex a) = lastWritten a (base (wordIndex a)) calls := by
  induction calls generalizing base with
  | nil => exact ⟨base, rfl, rfl⟩
  | cons c cs ih =>
    rw [afterCalls, (run_mapped c base).2.1]
    obtain ⟨base', hafter, hword⟩ := ih (fun d hd => hcalls d (List.mem_cons_of_mem c hd))
      (c.store base)
    refine ⟨base', hafter, ?_⟩
    rw [hword]
    cases c with
    | read a' u j => rfl
    | write a' v j =>
      have ha' : InWindow a' := hcalls _ List.mem_cons_self
      show lastWritten a (Function.update base (wordIndex a') v (wordIndex a)) cs
        = lastWritten a (if a' = a then v else base (wordIndex a)) cs
      by_cases heq : a' = a
      · subst heq
        rw [Function.update_self, if_pos rfl]
      · -- another register of the window is another word
        have hidx : wordIndex a ≠ wordIndex a' := fun h => heq (ha'.eq_of_wordIndex ha h.symm)
        rw [Function.update_of_ne hidx, if_neg heq]

/-- A call in the window leaves the words of the window's other addresses alone. -/
theorem RegCall.store_of_ne {c : RegCall} (hc : InWindow c.addr) {b : Word32} (hb : InWindow b)
    (hne : b ≠ c.addr) (base : ℕ → Word32) : c.store base (wordIndex b) = base (wordIndex b) := by
  cases c with
  | read a u j => rfl
  | write a v j => exact Function.update_of_ne (fun h => hne (hb.eq_of_wordIndex hc h)) _ _

/-- **Faithful access.**  A run is faithful if and only if the FPGA is not mapped at all or
    every call of the run has an address in the window. -/
theorem faithfulRun_iff (dev : FpgaDev) (calls : List RegCall) :
    FaithfulRun dev calls ↔ dev.guipFpga = none ∨ ∀ c ∈ calls, InWindow c.addr := by
  obtain ⟨_ | base⟩ := dev
  · -- without a mapping every call fails
    refine iff_of_true ?_ (Or.inl rfl)
    intro pre c post _
    dsimp only
    rw [afterCalls_unmapped]
    obtain ⟨hret, htouched, hdev⟩ := run_unmapped c
    refine ⟨Or.inl ⟨hret, htouched⟩, fun a u j _ h0 => ?_, fun b _ _ => by rw [hdev]⟩
    rw [hret] at h0
    exact absurd h0 (by decide)
  · constructor
    · -- a mapped call always touches the word of its truncated address
      intro hrun
      refine Or.inr fun c hc => ?_
      obtain ⟨pre, post, hsplit⟩ := List.append_of_mem hc
      obtain ⟨base', hafter⟩ := afterCalls_mapped pre base
      have hcall := (hrun pre c post hsplit).1
      rw [hafter, FaithfulCall, (run_mapped c base').1] at hcall
      rcases hcall with ⟨-, hnil⟩ | ⟨hat, hbound⟩
      · exact absurd hnil (List.cons_ne_nil _ _)
      · rw [List.map_singleton, List.cons.injEq] at hat
        exact ⟨by omega, hbound⟩
    · rintro (hnone | hin)
      · exact absurd hnone (by simp)
      -- the calls before stay in the window as well, and give the content
      intro pre c post hsplit
      have hpre : ∀ d ∈ pre, InWindow d.addr := fun d hd => hin d (by simp [hsplit, hd])
      have hc : InWindow c.addr := hin c (by simp [hsplit])
      obtain ⟨base', hafter, hword⟩ := afterCalls_word hc pre hpre base
      dsimp only
      rw [hafter]
      obtain ⟨htouched, hdev, hread⟩ := run_mapped c base'
      refine ⟨Or.inr ⟨?_, hc.2⟩, fun a u j hcr hret => ?_, fun b hb hne => ?_⟩
      · rw [htouched, List.map_singleton, hc.four_mul_wordIndex]
      · refine ⟨base (wordIndex a), rfl, ?_⟩
        subst hcr
        rw [hread a u j rfl hret]
        exact hword
      · rw [hdev]
        exact congrArg some (RegCall.store_of_ne hc hb hne base')

/-- Address `0x10004` is reported as too large and then used as register 4, where the next
    read finds its value. -/
theorem not_faithfulRun_truncated :
    ¬FaithfulRun ⟨some fun _ => 0⟩ [.write 0x10004 7 0, .read 4 0 0] := by
  intro h
  obtain ⟨v, hv, hread⟩ := (h [.write 0x10004 7 0] (.read 4 0 0) [] rfl).2.1 4 0 0 rfl rfl
  obtain rfl : v = 0 := (Option.some.inj hv).symm
  exact absurd hread (by decide)

end Vpx3.Bmc
