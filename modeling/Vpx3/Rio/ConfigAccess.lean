import Mathlib
import Vpx3.Lib.Bits
import Vpx3.Rio.Atmu

namespace Vpx3.Rio

open Bits Exec

/-!
# Configuration accesses — the transactions behind the maintenance window

A configuration access programs destination, hop count and the upper part of the offset into the
target registers of its port's maintenance window, and then reads or writes the window at the
lower part of the offset.  The controller makes of it what all the registers of the window say.

* `Transaction`, `maintTransaction` — what the controller makes of an access to the window;
* `RioCall.access` — what a configuration access asks for, if it is carried out;
* `accessStep` — the machine: commands and configuration accesses, with the transactions made;
* `maintTransaction_configTarget` — behind an intact window it is the one that was asked for;
* `transactions_iff` — along a run all are, exactly if none is made through a window that a
  `setoutb` for window 0 has taken.
-/

/-- A maintenance transaction: of which device, behind how many hops, at which offset of its
    configuration space, and of how many bytes. -/
structure Transaction where
  write : Bool
  destid : ℕ
  hopcount : ℕ
  offset : ℕ
  len : ℕ
  deriving DecidableEq

/-- `DOORBELL_ROWAR_MAINTRD` and `DOORBELL_ROWAR_MAINTWD`: the type field of accesses in this
    direction. -/
def typeField (rowar : Reg32) (write : Bool) : BitVec 4 :=
  if write then rowar.extractLsb' 12 4 else rowar.extractLsb' 16 4

/-- What the controller makes of an access to physical memory: a transaction, if the maintenance
    window of the port covers the bytes and is of this type.  The low part of the offset is taken
    from the address, the rest of it from the target register. -/
def maintTransaction (i : Fin 2) (regs : Regs) (write : Bool) (addr len : ℕ) :
    Option Transaction :=
  let attributes := regs (maintAtmuRegs i + rowar)
  let base := (regs (maintAtmuRegs i + rowbar)).toNat * 2 ^ 12
  let size := 2 ^ (attributes.toNat % 2 ^ 6 + 1)
  let target := (regs (maintAtmuRegs i + rowtar)).toNat
  if attributes.getLsbD 31 = true ∧ typeField attributes write = 7 ∧ base ≤ addr
      ∧ addr + len ≤ base + size then
    some {
      write := write
      destid := (regs (maintAtmuRegs i + rowtear)).toNat * 2 ^ 10 + target / 2 ^ 22
      hopcount := target / 2 ^ 12 % 2 ^ 8
      offset := target % 2 ^ 12 * 2 ^ 12 / size * size + (addr - base)
      len := len }
  else none

/-- The port and the transaction of a configuration access that is carried out; other lengths
    than those of the `switch` end behind the programming of the target. -/
def RioCall.access : RioCall → Option (Fin 2 × Transaction)
  | .configRead i destid hopcount offset len =>
    if configOk offset len ∧ (len = 1 ∨ len = 2 ∨ len = 4) then
      some (i, ⟨false, destid.toNat, hopcount.toNat, offset.toNat, len.toNat⟩)
    else none
  | .configWrite i destid hopcount offset len =>
    if configOk offset len ∧ (len = 1 ∨ len = 2 ∨ len = 4) then
      some (i, ⟨true, destid.toNat, hopcount.toNat, offset.toNat, len.toNat⟩)
    else none
  | _ => none

/-- The registers, with a record of every access that was carried out, of what it asked for and
    what was made of it, and of a command for window 0. -/
structure AccessState where
  rio : RioState
  made : List (Transaction × Option Transaction)
  taken : Bool

/-- The machine: `maint_win` of port `i` is mapped at the start of its window.  There is no port
    that did not come up. -/
def accessStep (memMport : Fin 2) (iores : Fin 2 → Option (BitVec 64)) (s : AccessState)
    (c : RioCall) : Option AccessState :=
  (rioStep memMport s.rio c).bind fun rio =>
    match c.access with
    | none => some { s with rio := rio, taken := s.taken || decide c.NamesMaint }
    | some (i, asked) => (iores i).map fun start => { s with
        rio := rio
        made := s.made ++ [(asked, maintTransaction i rio.regs asked.write
          (start.toNat + asked.offset % 2 ^ 22) asked.len)] }

/-- Behind the set-up. -/
def accessInit (iores : Fin 2 → Option (BitVec 64)) (rio : RioState) : AccessState where
  rio := fslRioSetup iores rio
  made := []
  taken := false

/-- **Faithful.**  Every access has become the transaction that it asked for. -/
def AccessState.Faithful (s : AccessState) : Prop := ∀ x ∈ s.made, x.2 = some x.1

/-- Windows begin at a page, below what the base register reaches. -/
def AtPages (iores : Fin 2 → Option (BitVec 64)) : Prop :=
  ∀ i start, iores i = some start → start.toNat % 2 ^ 12 = 0 ∧ start.toNat < 2 ^ 44

/-- No access goes through a window that a command has taken. -/
def NotTaken (memMport : Fin 2) (s : AccessState) (c : RioCall) : Prop :=
  s.taken = true → c.access.map Prod.fst ≠ some memMport

instance (memMport : Fin 2) (s : AccessState) (c : RioCall) : Decidable (NotTaken memMport s c) :=
  inferInstanceAs (Decidable (_ → _))

/-! ### What is asked for -/

/-- An access that is carried out stays inside the 16 MiB, and inside one multiple of its
    length. -/
theorem bounds_of_configOk {offset len : Reg32} (hok : configOk offset len)
    (hlen : len = 1 ∨ len = 2 ∨ len = 4) :
    offset.toNat < 2 ^ 24 ∧ offset.toNat % 2 ^ 22 + len.toNat ≤ 2 ^ 22 := by
  obtain ⟨hle, halign⟩ := hok
  -- the code tests `offset & (len - 1)`, which is the remainder for these lengths
  have hmod : offset.toNat % len.toNat = 0 := by
    have hbits := congrArg BitVec.toNat halign
    rw [BitVec.toNat_and] at hbits
    rcases hlen with rfl | rfl | rfl
    · exact Nat.mod_one _
    · have hand : offset.toNat &&& (2 ^ 1 - 1) = 0 := hbits
      rw [Nat.and_two_pow_sub_one_eq_mod] at hand
      exact hand
    · have hand : offset.toNat &&& (2 ^ 2 - 1) = 0 := hbits
      rw [Nat.and_two_pow_sub_one_eq_mod] at hand
      exact hand
  have hbound : offset.toNat ≤ (0x1000000 - len).toNat := by
    have hnot : ¬(0x1000000 - len < offset) := hle
    rw [BitVec.lt_def] at hnot
    exact Nat.not_lt.mp hnot
  rcases hlen with rfl | rfl | rfl
  · have htop : ((0x1000000 : Reg32) - 1).toNat = 2 ^ 24 - 1 := rfl
    have hl : (1 : Reg32).toNat = 1 := rfl
    omega
  · have htop : ((0x1000000 : Reg32) - 2).toNat = 2 ^ 24 - 2 := rfl
    have hl : (2 : Reg32).toNat = 2 := rfl
    rw [hl] at hmod
    omega
  · have htop : ((0x1000000 : Reg32) - 4).toNat = 2 ^ 24 - 4 := rfl
    have hl : (4 : Reg32).toNat = 4 := rfl
    rw [hl] at hmod
    omega

/-! ### The target registers -/

/-- Destination, hop count and page of the offset, side by side. -/
theorem configTarget_rowtar (i : Fin 2) (st : RioState) (destid : BitVec 16)
    (hopcount : BitVec 8) {offset : Reg32} (hoffset : offset.toNat < 2 ^ 24) :
    ((configTarget i st destid hopcount offset).regs (maintAtmuRegs i + rowtar)).toNat
      = destid.toNat % 2 ^ 10 * 2 ^ 22 + (hopcount.toNat * 2 ^ 12 + offset.toNat / 2 ^ 12) := by
  have hne : maintAtmuRegs i + rowtar ≠ maintAtmuRegs i + rowtear := by
    unfold rowtar rowtear
    omega
  have hd := destid.isLt
  have hh := hopcount.isLt
  have hpage : offset.toNat / 2 ^ 12 < 2 ^ 12 := by omega
  have hdest : (destid.setWidth 32 <<< 22 : Reg32).toNat
      = (destid.toNat % 2 ^ 10) <<< 22 := by
    have hwidth : destid.toNat % 2 ^ 32 = destid.toNat := Nat.mod_eq_of_lt (by omega)
    rw [BitVec.toNat_shiftLeft, BitVec.toNat_setWidth, hwidth, Nat.shiftLeft_eq, Nat.shiftLeft_eq]
    omega
  have hhop : (hopcount.setWidth 32 <<< 12 : Reg32).toNat = hopcount.toNat <<< 12 := by
    have hwidth : hopcount.toNat % 2 ^ 32 = hopcount.toNat := Nat.mod_eq_of_lt (by omega)
    rw [BitVec.toNat_shiftLeft, BitVec.toNat_setWidth, hwidth, Nat.shiftLeft_eq]
    omega
  unfold configTarget
  dsimp only
  rw [outBe32_of_ne _ _ hne, outBe32_same, BitVec.toNat_or, BitVec.toNat_or, hdest, hhop,
    BitVec.toNat_ushiftRight, Nat.shiftRight_eq_div_pow, Nat.or_assoc, shift_or _ hpage,
    shift_or _ (by omega)]

/-- The upper bits of the destination. -/
theorem configTarget_rowtear (i : Fin 2) (st : RioState) (destid : BitVec 16)
    (hopcount : BitVec 8) (offset : Reg32) :
    ((configTarget i st destid hopcount offset).regs (maintAtmuRegs i + rowtear)).toNat
      = destid.toNat / 2 ^ 10 := by
  have hd := destid.isLt
  unfold configTarget
  dsimp only
  rw [outBe32_same, BitVec.toNat_ushiftRight, BitVec.toNat_setWidth, Nat.mod_eq_of_lt (by omega),
    Nat.shiftRight_eq_div_pow]

/-- The fields, read back. -/
theorem fields_of_target (destid : ℕ) {hopcount offset : ℕ} (hh : hopcount < 2 ^ 8)
    (ho : offset < 2 ^ 24) :
    destid / 2 ^ 10 * 2 ^ 10
        + (destid % 2 ^ 10 * 2 ^ 22 + (hopcount * 2 ^ 12 + offset / 2 ^ 12)) / 2 ^ 22 = destid
      ∧ (destid % 2 ^ 10 * 2 ^ 22 + (hopcount * 2 ^ 12 + offset / 2 ^ 12)) / 2 ^ 12 % 2 ^ 8
        = hopcount
      ∧ (destid % 2 ^ 10 * 2 ^ 22 + (hopcount * 2 ^ 12 + offset / 2 ^ 12)) % 2 ^ 12 * 2 ^ 12
          / 2 ^ 22 * 2 ^ 22 + offset % 2 ^ 22 = offset := by
  refine ⟨?_, ?_, ?_⟩
  · omega
  · omega
  · omega

/-- **Asked and made.**  Behind an intact window a configuration access becomes the transaction
    that it asks for. -/
theorem maintTransaction_configTarget {i : Fin 2} {st : RioState} {start : BitVec 64}
    (hpage : start.toNat % 2 ^ 12 = 0) (hstart : start.toNat < 2 ^ 44)
    (hbar : st.regs (maintAtmuRegs i + rowbar) = maintRowbar start)
    (har : st.regs (maintAtmuRegs i + rowar) = maintRowar)
    (write : Bool) (destid : BitVec 16) (hopcount : BitVec 8) {offset len : Reg32}
    (hok : configOk offset len) (hlen : len = 1 ∨ len = 2 ∨ len = 4) :
    maintTransaction i (configTarget i st destid hopcount offset).regs write
        (start.toNat + offset.toNat % 2 ^ 22) len.toNat
      = some ⟨write, destid.toNat, hopcount.toNat, offset.toNat, len.toNat⟩ := by
  obtain ⟨hoffset, hinside⟩ := bounds_of_configOk hok hlen
  have hd := destid.isLt
  have hh := hopcount.isLt
  have hbase : (maintRowbar start).toNat * 2 ^ 12 = start.toNat := by
    unfold maintRowbar
    rw [BitVec.toNat_setWidth, BitVec.toNat_ushiftRight, Nat.shiftRight_eq_div_pow]
    omega
  have htype : typeField maintRowar write = 7 := by
    cases write with
    | false => decide
    | true => decide
  have hon : maintRowar.getLsbD 31 = true := by decide
  have hsize : 2 ^ (maintRowar.toNat % 2 ^ 6 + 1) = 2 ^ 22 := by
    have hfield : maintRowar.toNat % 2 ^ 6 = 21 := by decide
    rw [hfield]
  unfold maintTransaction
  dsimp only
  rw [configTarget_frame i st destid hopcount offset i (Or.inr rfl),
    configTarget_frame i st destid hopcount offset i (Or.inl rfl), hbar, har, hbase, hsize,
    configTarget_rowtar i st destid hopcount hoffset, configTarget_rowtear,
    if_pos ⟨hon, htype, Nat.le_add_right _ _, by omega⟩]
  obtain ⟨hdest, hhop, hoff⟩ := fields_of_target destid.toNat hh hoffset
  rw [hdest, hhop, Nat.add_sub_cancel_left, hoff]

/-! ### A window that was taken -/

/-- The lowest bit of the read type is bit 16, that of the write type bit 12. -/
theorem typeField_lowest (attributes : Reg32) (write : Bool) :
    (typeField attributes write).getLsbD 0 = attributes.getLsbD (if write then 12 else 16) := by
  cases write with
  | false => exact BitVec.getLsbD_extractLsb' _ _ _ _
  | true => exact BitVec.getLsbD_extractLsb' _ _ _ _

/-- The attributes of an ordinary window are of no maintenance type. -/
theorem typeField_outb (size : Reg32) (write : Bool) :
    typeField (0x80044000 ||| uiLawSize size) write ≠ 7 := by
  intro h
  rcases uiLawSize_cases size with hlt | hdeg
  · -- the lowest bit of both types is clear
    have hclear : (uiLawSize size).getLsbD (if write then 12 else 16) = false := by
      have hpow : 2 ^ 12 ≤ 2 ^ (if write then 12 else 16) :=
        Nat.pow_le_pow_right (by decide) (by cases write <;> decide)
      exact Nat.testBit_lt_two_pow (show (uiLawSize size).toNat < 2 ^ _ by omega)
    have hconst : (0x80044000 : Reg32).getLsbD (if write then 12 else 16) = false := by
      cases write with
      | false => decide
      | true => decide
    have hbit := typeField_lowest (0x80044000 ||| uiLawSize size) write
    rw [h, BitVec.getLsbD_or, hconst, hclear] at hbit
    exact absurd hbit (by decide)
  · -- a degenerate size sets every bit of them
    rcases hdeg with hdeg | hdeg
    · rw [hdeg] at h
      cases write with
      | false => exact absurd h (by decide)
      | true => exact absurd h (by decide)
    · rw [hdeg] at h
      cases write with
      | false => exact absurd h (by decide)
      | true => exact absurd h (by decide)

/-- Nothing is made of an access through such a window. -/
theorem maintTransaction_outb {i : Fin 2} {regs : Regs} {size : Reg32}
    (har : regs (maintAtmuRegs i + rowar) = 0x80044000 ||| uiLawSize size) (write : Bool)
    (addr len : ℕ) : maintTransaction i regs write addr len = none := by
  unfold maintTransaction
  dsimp only
  rw [har]
  apply if_neg
  rintro ⟨-, htype, -⟩
  exact typeField_outb size write htype

/-- The blocks of the two ports. -/
theorem atmuRegs_blocks {i j : Fin 2} (hne : i ≠ j) :
    atmuRegs i + 0x200 = atmuRegs j ∨ atmuRegs j + 0x200 = atmuRegs i := by
  revert i j
  decide

/-- A command on one port leaves base and attributes of the other's window as they are. -/
theorem rioStep_other {memMport : Fin 2} {st t : RioState} {c : RioCall}
    (h : rioStep memMport st c = some t) {i : Fin 2} (hne : i ≠ memMport) {m : ℕ}
    (hm : m = rowbar ∨ m = rowar) :
    t.regs (maintAtmuRegs i + m) = st.regs (maintAtmuRegs i + m) := by
  by_cases hmaint : c.NamesMaint
  · have hblocks := atmuRegs_blocks hne
    cases c with
    | setoutb l r size d w =>
      obtain rfl := Option.some.inj h
      obtain rfl : w = 0 := hmaint
      rw [setRiooutb, if_neg (by decide), rioMapOutb]
      dsimp only
      -- the three registers written lie in the other port's block
      unfold maintAtmuRegs
      unfold rowtar rowbar rowar at *
      have hzero : (0 : Reg32).toNat = 0 := rfl
      rw [hzero, outBe32_of_ne _ _ (by omega), outBe32_of_ne _ _ (by omega),
        outBe32_of_ne _ _ (by omega)]
    | setinb | configRead | configWrite => exact hmaint.elim
  · exact rioStep_frame hmaint h i hm

/-- An access that is carried out has programmed its target. -/
theorem step_of_access {memMport i : Fin 2} {st t : RioState} {c : RioCall} {asked : Transaction}
    (hc : c.access = some (i, asked)) (h : rioStep memMport st c = some t) :
    ¬c.NamesMaint ∧ ∃ write destid hopcount offset len, configOk offset len
      ∧ (len = 1 ∨ len = 2 ∨ len = 4) ∧ t = configTarget i st destid hopcount offset
      ∧ asked = ⟨write, destid.toNat, hopcount.toNat, offset.toNat, len.toNat⟩ := by
  cases c with
  | setoutb | setinb => cases hc
  | configRead j destid hopcount offset len =>
    obtain ⟨⟨hok, hlen⟩, heq⟩ := Option.ite_none_right_eq_some.mp hc
    obtain ⟨rfl, rfl⟩ := Prod.mk.inj (Option.some.inj heq)
    obtain rfl := Option.some.inj h
    refine ⟨id, false, destid, hopcount, offset, len, hok, hlen, ?_, rfl⟩
    exact if_pos hok
  | configWrite j destid hopcount offset len =>
    obtain ⟨⟨hok, hlen⟩, heq⟩ := Option.ite_none_right_eq_some.mp hc
    obtain ⟨rfl, rfl⟩ := Prod.mk.inj (Option.some.inj heq)
    obtain rfl := Option.some.inj h
    refine ⟨id, true, destid, hopcount, offset, len, hok, hlen, ?_, rfl⟩
    exact if_pos hok

/-! ### Runs -/

variable {memMport : Fin 2} {iores : Fin 2 → Option (BitVec 64)} {s s' : AccessState} {c : RioCall}

/-- **The windows** of all ports are those of the set-up, but for one that a command has taken. -/
structure AccessInv (memMport : Fin 2) (iores : Fin 2 → Option (BitVec 64)) (s : AccessState) :
    Prop where
  intact : ∀ i start, iores i = some start → (s.taken = true → i ≠ memMport) →
    s.rio.regs (maintAtmuRegs i + rowbar) = maintRowbar start
      ∧ s.rio.regs (maintAtmuRegs i + rowar) = maintRowar
  taken : s.taken = true →
    ∃ size, s.rio.regs (maintAtmuRegs memMport + rowar) = 0x80044000 ||| uiLawSize size
  faithful : s.Faithful

theorem accessInv_init (rio : RioState) : AccessInv memMport iores (accessInit iores rio) where
  intact i start hstart _ := maintIntact_setup iores rio i start hstart
  taken h := Bool.noConfusion h
  faithful _ h := absurd h List.not_mem_nil

/-- A step, in two parts: of the registers, and of the record. -/
theorem accessStep_some (h : accessStep memMport iores s c = some s') :
    rioStep memMport s.rio c = some s'.rio
      ∧ ((c.access = none ∧ s'.made = s.made ∧ s'.taken = (s.taken || decide c.NamesMaint))
        ∨ ∃ i asked start, c.access = some (i, asked) ∧ iores i = some start
          ∧ s'.taken = s.taken
          ∧ s'.made = s.made ++ [(asked, maintTransaction i s'.rio.regs asked.write
              (start.toNat + asked.offset % 2 ^ 22) asked.len)]) := by
  obtain ⟨rio, hrio, hrest⟩ := Option.bind_eq_some_iff.mp h
  cases hc : c.access with
  | none =>
    rw [hc] at hrest
    obtain rfl := Option.some.inj hrest
    exact ⟨hrio, Or.inl ⟨rfl, rfl, rfl⟩⟩
  | some x =>
    rw [hc] at hrest
    obtain ⟨start, hstart, rfl⟩ := Option.map_eq_some_iff.mp hrest
    exact ⟨hrio, Or.inr ⟨x.1, x.2, start, rfl, hstart, rfl, rfl⟩⟩

/-- What the registers of the windows say behind a step. -/
theorem AccessInv.windows (h : AccessInv memMport iores s)
    (hrio : rioStep memMport s.rio c = some s'.rio)
    (htaken : s'.taken = (s.taken || decide c.NamesMaint)) :
    (∀ i start, iores i = some start → (s'.taken = true → i ≠ memMport) →
      s'.rio.regs (maintAtmuRegs i + rowbar) = maintRowbar start
        ∧ s'.rio.regs (maintAtmuRegs i + rowar) = maintRowar)
      ∧ (s'.taken = true →
        ∃ size, s'.rio.regs (maintAtmuRegs memMport + rowar) = 0x80044000 ||| uiLawSize size) := by
  by_cases hmaint : c.NamesMaint
  · have htrue : s'.taken = true := by
      rw [htaken, decide_eq_true hmaint, Bool.or_true]
    refine ⟨fun i start hstart hother => ?_, fun _ => ?_⟩
    · have hne := hother htrue
      rw [rioStep_other hrio hne (Or.inl rfl), rioStep_other hrio hne (Or.inr rfl)]
      exact h.intact i start hstart fun _ => hne
    · cases c with
      | setoutb l r size d w =>
        obtain rfl : w = 0 := hmaint
        have heq := Option.some.inj hrio
        rw [← heq]
        exact ⟨size, setRiooutb_zero_rowar memMport s.rio l r size d⟩
      | setinb | configRead | configWrite => exact hmaint.elim
  · rw [decide_eq_false hmaint, Bool.or_false] at htaken
    refine ⟨fun i start hstart hother => ?_, fun htrue => ?_⟩
    · rw [rioStep_frame hmaint hrio i (Or.inl rfl), rioStep_frame hmaint hrio i (Or.inr rfl)]
      rw [htaken] at hother
      exact h.intact i start hstart hother
    · rw [rioStep_frame hmaint hrio memMport (Or.inr rfl)]
      exact h.taken (htaken ▸ htrue)

/-- **A step** through windows that were not taken. -/
theorem AccessInv.step (hplaced : AtPages iores) (h : AccessInv memMport iores s)
    (hguard : NotTaken memMport s c) (hstep : accessStep memMport iores s c = some s') :
    AccessInv memMport iores s' := by
  obtain ⟨hrio, ⟨-, hmade, htaken⟩ | ⟨i, asked, start, hc, hstart, htaken, hmade⟩⟩ :=
    accessStep_some hstep
  · obtain ⟨hintact, hout⟩ := h.windows hrio htaken
    refine ⟨hintact, hout, ?_⟩
    intro x hx
    rw [hmade] at hx
    exact h.faithful x hx
  · obtain ⟨hmaint, write, destid, hopcount, offset, len, hok, hlen, heq, rfl⟩ :=
      step_of_access hc hrio
    have htaken' : s'.taken = (s.taken || decide c.NamesMaint) := by
      rw [htaken, decide_eq_false hmaint, Bool.or_false]
    obtain ⟨hintact, hout⟩ := h.windows hrio htaken'
    refine ⟨hintact, hout, ?_⟩
    intro x hx
    rw [hmade] at hx
    rcases List.mem_append.mp hx with hx | hx
    · exact h.faithful x hx
    · rw [List.mem_singleton.mp hx]
      obtain ⟨hbar, har⟩ := h.intact i start hstart fun htrue hi =>
        hguard htrue (by rw [hc, hi, Option.map_some])
      obtain ⟨hpage, hlt⟩ := hplaced i start hstart
      rw [heq]
      exact maintTransaction_configTarget hpage hlt hbar har write destid hopcount hok hlen

/-- An access through a window that was taken. -/
theorem AccessInv.notTaken_of_faithful (h : AccessInv memMport iores s)
    (hstep : accessStep memMport iores s c = some s') (hfaithful : s'.Faithful) :
    NotTaken memMport s c := by
  intro htrue hmem
  obtain ⟨⟨j, asked⟩, hc, rfl⟩ := Option.map_eq_some_iff.mp hmem
  obtain ⟨hrio, ⟨hnone, -⟩ | ⟨i, asked', start, hc', hstart, -, hmade⟩⟩ := accessStep_some hstep
  · rw [hc] at hnone
    cases hnone
  · -- the window has the attributes of the command, and makes nothing of the access
    obtain ⟨rfl, rfl⟩ := Prod.mk.inj (Option.some.inj (hc.symm.trans hc'))
    obtain ⟨hmaint, -⟩ := step_of_access hc hrio
    obtain ⟨size, hsize⟩ := h.taken htrue
    rw [← rioStep_frame hmaint hrio _ (Or.inr rfl)] at hsize
    have hlast := hfaithful _ (hmade ▸ List.mem_append_right _ List.mem_cons_self)
    rw [maintTransaction_outb hsize] at hlast
    cases hlast

/-- **Configuration accesses.**  From the set-up on, for windows at any pages and along every run of
    commands and configuration accesses: every access that is carried out becomes the maintenance
    transaction that it asks for, in this direction and with its destination, hop count, offset and
    length, if and only if none goes through the window of the commands' port behind a `setoutb`
    for window 0. -/
theorem transactions_iff (memMport : Fin 2) (iores : Fin 2 → Option (BitVec 64))
    (hplaced : AtPages iores) (rio : RioState) (run : List RioCall) (s : AccessState)
    (hrun : exec (accessStep memMport iores) (accessInit iores rio) run = some s) :
    Always (accessStep memMport iores) AccessState.Faithful (accessInit iores rio) run
      ↔ Guarded (accessStep memMport iores) (NotTaken memMport) (accessInit iores rio) run :=
  always_iff_guarded (fun _ h => AccessInv.faithful h)
    (fun _ _ _ h hg hstep => AccessInv.step hplaced h hg hstep)
    (fun _ _ _ h hstep hf => AccessInv.notTaken_of_faithful h hstep hf)
    (accessInv_init rio) hrun

/-- One port is up. -/
def onePort (i : Fin 2) : Option (BitVec 64) := if i.val = 0 then some 0xc0000000 else none

/-- Accesses to two devices, around a command for the window next to that of maintenance. -/
def twoDevices : List RioCall :=
  [.configRead ⟨0, Nat.two_pos⟩ 0x1234 0xff 0xc05004 4, .setoutb 0xc0400000 0 0x100000 1 1,
    .configWrite ⟨0, Nat.two_pos⟩ 1 0 0x6a 2]

theorem transactions_twoDevices :
    Always (accessStep ⟨0, Nat.two_pos⟩ onePort) AccessState.Faithful
      (accessInit onePort ⟨fun _ => 0, 0x80f55000⟩) twoDevices := by
  have hsome : (exec (accessStep ⟨0, Nat.two_pos⟩ onePort)
      (accessInit onePort ⟨fun _ => 0, 0x80f55000⟩) twoDevices).isSome = true := by decide +kernel
  obtain ⟨s, hs⟩ := Option.isSome_iff_exists.mp hsome
  have hplaced : AtPages onePort := by
    intro i start hstart
    obtain ⟨-, heq⟩ := Option.ite_none_right_eq_some.mp hstart
    obtain rfl := Option.some.inj heq
    decide
  exact (transactions_iff _ onePort hplaced _ twoDevices s hs).mpr (by decide +kernel)

end Vpx3.Rio
