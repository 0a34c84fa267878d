import Vpx3.Lib.Watch
import Vpx3.Cmd.FormatSpace

namespace Vpx3.Cmd

open Vpx3.CStr

/-!
# Commands — the accesses of the scanning loop

The loops of `format_space` once more, with their accesses as a parameter.

* `skipBlanksBy`, `shiftTailBy`, `formatLoopBy` — the loops; `formatLoopBy_plain` — with plain
  accesses they are those of the model;
* `formatLoopBy_sim` — what the loop does with one kind of access, it does with another;
* `formatLoop_within` — on a string with its terminator at `n` the loop ends, reads up to `n`,
  writes in front of `n`, and leaves the byte there and what follows.
-/

/-- `skipBlanks`. -/
def skipBlanksBy (m : Access) : Nat → List Byte → Nat → Except Fault Nat
  | 0, _, _ => .error .fuel
  | fuel + 1, mem, str => do
    let next ← m.load mem (str + 1)
    if next = blank then skipBlanksBy m fuel mem (str + 1) else return str

/-- `shiftTail`. -/
def shiftTailBy (m : Access) : Nat → List Byte → Nat → Nat → Except Fault (List Byte)
  | 0, _, _, _ => .error .fuel
  | fuel + 1, mem, pos, str => do
    let next ← m.load mem (str + 1)
    if next ≠ 0 then
      let mem ← m.store mem pos next
      shiftTailBy m fuel mem (pos + 1) (str + 1)
    else m.store mem pos 0

/-- `formatLoop`. -/
def formatLoopBy (m : Access) : Nat → List Byte → Nat → Status → Except Fault (List Byte)
  | 0, _, _, _ => .error .fuel
  | fuel + 1, mem, str, status => do
    let c ← m.load mem str
    if c = 0 then return mem
    else if c = blank then
      match status with
      | .IN =>
        let mem ← m.store mem str 0
        let last ← skipBlanksBy m mem.length mem str
        let mem ← shiftTailBy m mem.length mem str last
        formatLoopBy m fuel mem last .IN
      | .OUT => formatLoopBy m fuel mem (str + 1) .IN
    else formatLoopBy m fuel mem (str + 1) .OUT

/-! ### With plain accesses -/

theorem skipBlanksBy_plain (fuel : Nat) (mem : List Byte) (str : Nat) :
    skipBlanksBy .plain fuel mem str = skipBlanks fuel mem str := by
  induction fuel generalizing str with
  | zero => rfl
  | succ fuel ih =>
    rw [skipBlanksBy, skipBlanks]
    simp only [ih]
    rfl

theorem shiftTailBy_plain (fuel : Nat) (mem : List Byte) (pos str : Nat) :
    shiftTailBy .plain fuel mem pos str = shiftTail fuel mem pos str := by
  induction fuel generalizing mem pos str with
  | zero => rfl
  | succ fuel ih =>
    rw [shiftTailBy, shiftTail]
    simp only [ih]
    rfl

/-- The loop of the model. -/
theorem formatLoopBy_plain (fuel : Nat) (mem : List Byte) (str : Nat) (status : Status) :
    formatLoopBy .plain fuel mem str status = formatLoop fuel mem str status := by
  induction fuel generalizing mem str status with
  | zero => rfl
  | succ fuel ih =>
    unfold formatLoopBy formatLoop
    simp only [ih, skipBlanksBy_plain, shiftTailBy_plain]
    rfl

/-! ### With other accesses -/

section Sim

variable {n : Nat} {m m' : Access} {R : List Byte → List Byte → Prop} {mem mem' : List Byte}

/-- The search for the run's end reads the byte behind its start. -/
theorem skipBlanksBy_load {fuel str last : Nat} (h : skipBlanksBy m fuel mem str = .ok last) :
    ∃ c, m.load mem (str + 1) = .ok c := by
  cases fuel with
  | zero => nomatch h
  | succ fuel =>
    obtain ⟨next, hload, -⟩ := bind_eq_ok.mp h
    exact ⟨next, hload⟩

/-- The search for the run's end. -/
theorem skipBlanksBy_sim (hsim : Access.Sim n m m' R) (hR : R mem mem') {fuel fuel' str last : Nat}
    (hfuel : fuel ≤ fuel') (h : skipBlanksBy m fuel mem str = .ok last) :
    skipBlanksBy m' fuel' mem' str = .ok last ∧ str ≤ last := by
  induction fuel generalizing fuel' str with
  | zero => nomatch h
  | succ fuel ih =>
    obtain ⟨fuel', rfl⟩ := Nat.exists_eq_add_one.mpr (Nat.zero_lt_of_lt hfuel)
    obtain ⟨next, hload, h⟩ := bind_eq_ok.mp h
    rw [skipBlanksBy, (hsim.load hR hload).2, ok_bind]
    split at h
    · next hblank =>
      obtain ⟨hlast, hstr⟩ := ih (Nat.le_of_succ_le_succ hfuel) h
      rw [if_pos hblank]
      exact ⟨hlast, by omega⟩
    · next hblank =>
      obtain rfl := Except.ok.inj h
      rw [if_neg hblank]
      exact ⟨rfl, Nat.le_refl _⟩

/-- Every byte moved is written in front of the place where it has been read. -/
theorem shiftTailBy_sim (hsim : Access.Sim n m m' R) (hR : R mem mem') {fuel fuel' pos str : Nat}
    {mem₁ : List Byte} (hpos : pos ≤ str) (hfuel : fuel ≤ fuel')
    (h : shiftTailBy m fuel mem pos str = .ok mem₁) :
    ∃ mem₁', shiftTailBy m' fuel' mem' pos str = .ok mem₁' ∧ R mem₁ mem₁' := by
  induction fuel generalizing fuel' mem mem' pos str with
  | zero => nomatch h
  | succ fuel ih =>
    obtain ⟨fuel', rfl⟩ := Nat.exists_eq_add_one.mpr (Nat.zero_lt_of_lt hfuel)
    obtain ⟨next, hload, h⟩ := bind_eq_ok.mp h
    obtain ⟨hle, hload'⟩ := hsim.load hR hload
    rw [shiftTailBy, hload', ok_bind]
    split at h
    · next hnext =>
      obtain ⟨mem₂, hstore, h⟩ := bind_eq_ok.mp h
      obtain ⟨mem₂', hstore', hR₂⟩ := hsim.store hR (by omega) hstore
      rw [if_pos hnext, hstore', ok_bind]
      exact ih hR₂ (Nat.succ_le_succ hpos) (Nat.le_of_succ_le_succ hfuel) h
    · next hnext =>
      rw [if_neg hnext]
      exact hsim.store hR (by omega) h

/-- **The scanning loop** with other accesses, wherever it stands. -/
theorem formatLoopBy_sim (hsim : Access.Sim n m m' R) (hR : R mem mem') {fuel str : Nat}
    {status : Status} {mem₁ : List Byte} (h : formatLoopBy m fuel mem str status = .ok mem₁) :
    ∃ mem₁', formatLoopBy m' fuel mem' str status = .ok mem₁' ∧ R mem₁ mem₁' := by
  induction fuel generalizing mem mem' str status with
  | zero => nomatch h
  | succ fuel ih =>
    unfold formatLoopBy at h ⊢
    obtain ⟨c, hload, h⟩ := bind_eq_ok.mp h
    rw [(hsim.load hR hload).2, ok_bind]
    split at h
    · next hc =>
      obtain rfl := Except.ok.inj h
      rw [if_pos hc]
      exact ⟨mem', rfl, hR⟩
    · next h0 =>
      rw [if_neg h0]
      split at h
      · next hc =>
        rw [if_pos hc]
        cases status with
        | OUT => exact ih hR h
        | IN =>
          obtain ⟨mem₂, hstore, h⟩ := bind_eq_ok.mp h
          obtain ⟨last, hskip, h⟩ := bind_eq_ok.mp h
          obtain ⟨mem₃, hshift, h⟩ := bind_eq_ok.mp h
          -- the blank overwritten is not the terminator: the next byte is read as well
          obtain ⟨next, hnext⟩ := skipBlanksBy_load hskip
          have hlt : str < n := hsim.load_store hR hstore hnext
          obtain ⟨mem₂', hstore', hR₂⟩ := hsim.store hR hlt hstore
          obtain ⟨hskip', hlast⟩ := skipBlanksBy_sim hsim hR₂ (hsim.length hR₂) hskip
          obtain ⟨mem₃', hshift', hR₃⟩ := shiftTailBy_sim hsim hR₂ hlast (hsim.length hR₂) hshift
          simp only [hstore', ok_bind, hskip', hshift']
          exact ih hR₃ h
      · next hc =>
        rw [if_neg hc]
        exact ih hR h

end Sim

/-! ### On a string -/

/-- **The scanning loop of `format_space`** on a string with its terminator at `n`, whatever
    follows it in memory: it ends, it reads at most up to `n` and writes in front of `n` only, and
    the byte at `n` and all behind it stay as they are. -/
theorem formatLoop_within (s post : List Byte) (hs : 0 ∉ s) (fuel : Nat)
    (hfuel : s.length < fuel) :
    ∃ t : List Byte, t.length = s.length
      ∧ formatLoopBy (.within s.length) fuel (s ++ 0 :: post) 0 .IN = .ok (t ++ 0 :: post)
      ∧ formatLoop fuel (s ++ 0 :: post) 0 .IN = .ok (t ++ 0 :: post) := by
  -- on a memory that ends with the string the loop meets no fault
  obtain ⟨stale, hshort, hlen, -⟩ := formatLoop_eq fuel [] s [] 0 .IN rfl hs hfuel
  rw [List.nil_append, List.nil_append, ← formatLoopBy_plain] at hshort
  have hmem : s ++ 0 :: post = (s ++ [0]) ++ post := by simp
  obtain ⟨mem₁, hwithin, -, rfl⟩ := formatLoopBy_sim (plain_sim_within s.length post)
    ⟨by simp, hmem⟩ hshort
  obtain ⟨mem₂, hplain, rfl⟩ := formatLoopBy_sim (within_sim_plain s.length) rfl hwithin
  rw [formatLoopBy_plain] at hplain
  generalize compress Status.IN.scan s = t at hwithin hplain hlen
  refine ⟨t ++ stale, by rw [List.length_append, hlen], ?_, ?_⟩
  · rw [hwithin]
    simp
  · rw [hplain]
    simp

/-- Three blanks in front of one character: the scan goes on behind the new terminator. -/
theorem formatLoop_within_jump :
    ∃ t : List Byte, t.length = 4
      ∧ formatLoopBy (.within 4) 5 (bytes "   a" ++ [0, 0xFF]) 0 .IN = .ok (t ++ [0, 0xFF])
      ∧ formatLoop 5 (bytes "   a" ++ [0, 0xFF]) 0 .IN = .ok (t ++ [0, 0xFF]) :=
  formatLoop_within (bytes "   a") [0xFF] (by decide) 5 (by decide)

end Vpx3.Cmd
