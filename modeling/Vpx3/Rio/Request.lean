import Vpx3.Rio.Windows

namespace Vpx3.Rio

open Cells

/-!
# Address windows — the window requested and the window programmed

A base or a translation address is kept in units of 4 KiB, the target id in ten bits of the
target register and the rest of it in `rowtear`, and a size field `n` stands for `2^(n+1)`
bytes.

* `windowBase`, `windowTranslation`, `targetId`, `sizeField`, `otherAttributes` — what the
  registers of a window say;
* `MapCall.Decodes` — they say what the call asked for;
* `Represented` — a call is refused, or leaves a window that decodes to it;
* `Representable` — the condition on the arguments, the target type and `rowtear`;
* `represented_iff` — it is exact.
-/

/-! ### What the registers of a window say -/

/-- The first address of a window. -/
def windowBase (mport : Fin 2) (regs : Regs) (w : Window) : ℕ :=
  (regs (w.register mport .base)).toNat * 2 ^ 12

/-- The address it is translated to; of an outbound target the id stands above 22 bits. -/
def windowTranslation (mport : Fin 2) (regs : Regs) : Window → ℕ
  | .outb k => (regs ((Window.outb k).register mport .target)).toNat % 2 ^ 22 * 2 ^ 12
  | .inb k => (regs ((Window.inb k).register mport .target)).toNat * 2 ^ 12

/-- The address of `rowtear` of an outbound window. -/
def rowtearOf (mport : Fin 2) (k : Fin 7) : ℕ := maintAtmuRegs mport + k.val * 0x20 + rowtear

/-- The target id, as configuration accesses write it: ten bits in `rowtar`, the others in
    `rowtear`. -/
def targetId (mport : Fin 2) (regs : Regs) (k : Fin 7) : ℕ :=
  (regs (rowtearOf mport k)).toNat * 2 ^ 10
    + (regs ((Window.outb k).register mport .target)).toNat / 2 ^ 22

/-- The size field. -/
def sizeField (mport : Fin 2) (regs : Regs) (w : Window) : ℕ :=
  (regs (w.register mport .attributes)).toNat % 2 ^ 6

/-- The attributes but for the size field. -/
def otherAttributes (mport : Fin 2) (regs : Regs) (w : Window) : Reg32 :=
  regs (w.register mport .attributes) >>> 6

/-- The attributes of outbound windows. -/
def outbType : Reg32 := 0x80044000

/-- The registers of the window decode to the call; `type` is `rio_target_type`. -/
def MapCall.Decodes (mport : Fin 2) (type : Reg32) (regs : Regs) : MapCall → Window → Prop
  | .outb localAddr srioAddr size dstID _, .outb k =>
    windowBase mport regs (.outb k) = localAddr.toNat
      ∧ windowTranslation mport regs (.outb k) = srioAddr.toNat
      ∧ targetId mport regs k = dstID.toNat
      ∧ size.toNat ≤ 2 ^ (sizeField mport regs (.outb k) + 1)
      ∧ otherAttributes mport regs (.outb k) = outbType >>> 6
  | .inb localAddr srioAddr size _, .inb k =>
    windowBase mport regs (.inb k) = srioAddr.toNat
      ∧ windowTranslation mport regs (.inb k) = localAddr.toNat
      ∧ size.toNat ≤ 2 ^ (sizeField mport regs (.inb k) + 1)
      ∧ otherAttributes mport regs (.inb k) = type >>> 6
  | _, _ => False

/-- The call writes no register, whatever they hold, or it leaves a window that decodes to
    the call. -/
def Represented (mport : Fin 2) (st : RioState) (c : MapCall) : Prop :=
  (∀ regs, (c.perform mport { st with regs := regs }).regs = regs)
    ∨ ∃ w, c.window = some w ∧ c.Decodes mport st.rioTargetType (c.perform mport st).regs w

/-! ### The condition -/

/-- A multiple of 4 KiB. -/
def Aligned (a : Reg32) : Prop := a.toNat % 2 ^ 12 = 0

/-- The size field the type and the size give covers the size, and the size leaves the other
    attributes alone.  A size below 2 sets them all.  A size that is no power of two is rounded
    down, unless the type sets a bit of the size field which the size does not. -/
def SizeFits (type size : Reg32) : Prop :=
  (2 ≤ size.toNat ∨ type >>> 6 = 0x3ffffff)
    ∧ (size = 0 ∨ size.toNat.isPowerOfTwo
      ∨ ∃ i < 6, type.getLsbD i = true ∧ (size.toNat.log2 - 1).testBit i = false)

/-- The requests that are represented: those out of range are refused; the others must be
    aligned and of a size that fits, and an outbound target id must have bits 8 and 9 clear
    and its upper bits in `rowtear` already. -/
def Representable (mport : Fin 2) (st : RioState) : MapCall → Prop
  | .outb localAddr srioAddr size dstID uiOub =>
    ∀ h : uiOub.toNat < 7,
      Aligned localAddr ∧ Aligned srioAddr ∧ 2 ≤ size.toNat ∧ size.toNat.isPowerOfTwo
        ∧ dstID.toNat % 2 ^ 10 < 2 ^ 8
        ∧ (st.regs (rowtearOf mport ⟨uiOub.toNat, h⟩)).toNat = dstID.toNat / 2 ^ 10
  | .inb localAddr srioAddr size uiInb =>
    uiInb.toNat < 4 → Aligned localAddr ∧ Aligned srioAddr ∧ SizeFits st.rioTargetType size

/-! ### Addresses and target ids -/

/-- The page of an address stands for the address if it is aligned. -/
theorem page_iff (a : Reg32) : (a >>> 12).toNat * 2 ^ 12 = a.toNat ↔ Aligned a := by
  rw [Aligned, BitVec.toNat_ushiftRight, Nat.shiftRight_eq_div_pow]
  omega

/-- A page has no more than 20 bits. -/
theorem page_lt (a : Reg32) : (a >>> 12).toNat < 2 ^ 20 := by
  have ha := a.isLt
  rw [BitVec.toNat_ushiftRight, Nat.shiftRight_eq_div_pow]
  omega

/-- The target register of an outbound window: the low byte of the id above the page. -/
theorem outbTarget_toNat (srioAddr dstID : Reg32) :
    (((dstID &&& 0xff) <<< 22) ||| (srioAddr >>> 12)).toNat
      = dstID.toNat % 2 ^ 8 * 2 ^ 22 + (srioAddr >>> 12).toNat := by
  have hpage : (srioAddr >>> 12).toNat < 2 ^ 22 :=
    Nat.lt_of_lt_of_le (page_lt srioAddr) (Nat.pow_le_pow_right (by decide) (by decide))
  have hmask : (0xff : Reg32).toNat = 2 ^ 8 - 1 := by decide
  have hid : ((dstID &&& 0xff) <<< 22).toNat = (dstID.toNat % 2 ^ 8) <<< 22 := by
    rw [BitVec.toNat_shiftLeft, BitVec.toNat_and, hmask, Nat.and_two_pow_sub_one_eq_mod,
      Nat.mod_eq_of_lt]
    rw [Nat.shiftLeft_eq]
    omega
  rw [BitVec.toNat_or, hid, ← Nat.shiftLeft_add_eq_or_of_lt hpage, Nat.shiftLeft_eq]

/-! ### Sizes -/

/-- The size field of a size of at least 2. -/
theorem uiLawSize_toNat (size : Reg32) (h : 2 ≤ size.toNat) :
    (uiLawSize size).toNat = size.toNat.log2 - 1 := by
  have hne : size.toNat ≠ 0 := by omega
  have hne0 : size ≠ 0 := fun h0 => hne (by rw [h0]; rfl)
  have hlog : size.toNat.log2 < 32 := (Nat.log2_lt hne).mpr size.isLt
  have hpos : 1 ≤ size.toNat.log2 := (Nat.le_log2 hne).mpr h
  have hcast : ((size.toNat.log2 : ℕ) : Int) - 1 = ((size.toNat.log2 - 1 : ℕ) : Int) := by omega
  rw [uiLawSize, ilog2, if_neg hne0, hcast, BitVec.ofInt_natCast, BitVec.toNat_ofNat]
  omega

/-- Which bits a number adds to another. -/
theorem or_ne_right_iff (t m k : ℕ) (ht : t < 2 ^ k) :
    t ||| m ≠ m ↔ ∃ i < k, t.testBit i = true ∧ m.testBit i = false := by
  constructor
  · -- if there is no such bit the two numbers have the same bits
    intro hne
    by_contra hnone
    apply hne
    apply Nat.eq_of_testBit_eq
    intro i
    rw [Nat.testBit_or]
    cases hi : t.testBit i with
    | false => rfl
    | true =>
      have hik : i < k := by
        by_contra hle
        rw [Nat.testBit_lt_two_pow (lt_of_lt_of_le ht (Nat.pow_le_pow_right (by decide)
          (Nat.not_lt.mp hle)))] at hi
        nomatch hi
      cases hm : m.testBit i with
      | true => rfl
      | false => exact absurd ⟨i, hik, hi, hm⟩ hnone
  · rintro ⟨i, -, ht, hm⟩ heq
    have hbit := congrArg (fun n => Nat.testBit n i) heq
    simp only [Nat.testBit_or, ht, hm, Bool.or_false] at hbit
    nomatch hbit

/-- The power of two below a size is the size only if that is a power of two. -/
theorem le_two_pow_log2_iff (s : ℕ) (h : 2 ≤ s) : s ≤ 2 ^ s.log2 ↔ s.isPowerOfTwo := by
  constructor
  · intro hle
    exact ⟨s.log2, Nat.le_antisymm hle (Nat.log2_self_le (by omega))⟩
  · rintro ⟨k, rfl⟩
    rw [Nat.log2_two_pow]

/-- The size field covers the size: it is exact, or larger by bits of the type. -/
theorem covers_iff (type size : Reg32) (h : 2 ≤ size.toNat) :
    size.toNat ≤ 2 ^ ((type ||| uiLawSize size).toNat % 2 ^ 6 + 1)
      ↔ size.toNat.isPowerOfTwo
        ∨ ∃ i < 6, type.getLsbD i = true ∧ (size.toNat.log2 - 1).testBit i = false := by
  have hne : size.toNat ≠ 0 := by omega
  have hpos : 1 ≤ size.toNat.log2 := (Nat.le_log2 hne).mpr h
  have hlog : size.toNat.log2 < 32 := (Nat.log2_lt hne).mpr size.isLt
  have hbits : (∃ i < 6, type.getLsbD i = true ∧ (size.toNat.log2 - 1).testBit i = false)
      ↔ type.toNat % 2 ^ 6 ||| (size.toNat.log2 - 1) ≠ size.toNat.log2 - 1 := by
    rw [or_ne_right_iff _ _ 6 (Nat.mod_lt _ (Nat.two_pow_pos 6))]
    refine exists_congr fun i => and_congr_right fun hi => ?_
    rw [Nat.testBit_mod_two_pow, decide_eq_true hi, Bool.true_and, BitVec.testBit_toNat]
  have hfield : (type ||| uiLawSize size).toNat % 2 ^ 6
      = type.toNat % 2 ^ 6 ||| (size.toNat.log2 - 1) := by
    have hsmall : (size.toNat.log2 - 1) % 2 ^ 6 = size.toNat.log2 - 1 :=
      Nat.mod_eq_of_lt (by omega)
    rw [BitVec.toNat_or, Nat.or_mod_two_pow, uiLawSize_toNat size h, hsmall]
  rw [hbits, hfield]
  by_cases heq : type.toNat % 2 ^ 6 ||| (size.toNat.log2 - 1) = size.toNat.log2 - 1
  · have hexp : size.toNat.log2 - 1 + 1 = size.toNat.log2 := Nat.sub_add_cancel hpos
    rw [heq, hexp, le_two_pow_log2_iff _ h]
    simp
  · -- one bit more doubles the window at least
    have hle : size.toNat.log2 - 1 ≤ type.toNat % 2 ^ 6 ||| (size.toNat.log2 - 1) :=
      Nat.right_le_or
    have hlt : size.toNat < 2 ^ (size.toNat.log2 + 1) := Nat.lt_log2_self
    refine iff_of_true ?_ (Or.inr heq)
    calc size.toNat ≤ 2 ^ (size.toNat.log2 + 1) := hlt.le
      _ ≤ 2 ^ ((type.toNat % 2 ^ 6 ||| (size.toNat.log2 - 1)) + 1) :=
        Nat.pow_le_pow_right (by decide) (by omega)

/-- The other attributes under a size field. -/
theorem other_iff (type size : Reg32) :
    (type ||| uiLawSize size) >>> 6 = type >>> 6 ↔ 2 ≤ size.toNat ∨ type >>> 6 = 0x3ffffff := by
  rw [BitVec.ushiftRight_or_distrib]
  by_cases h : 2 ≤ size.toNat
  · -- the size field stays below bit 6
    have hne : size.toNat ≠ 0 := by omega
    have hlog : size.toNat.log2 < 32 := (Nat.log2_lt hne).mpr size.isLt
    have hzero : uiLawSize size >>> 6 = 0 := by
      apply BitVec.eq_of_toNat_eq
      rw [BitVec.toNat_ushiftRight, Nat.shiftRight_eq_div_pow, uiLawSize_toNat size h]
      exact Nat.div_eq_of_lt (by omega)
    rw [hzero]
    exact iff_of_true BitVec.or_zero (Or.inl h)
  · -- sizes 0 and 1 set all other attributes
    have hones : uiLawSize size >>> 6 = 0x3ffffff := by
      have hcases : size = 0 ∨ size = 1 := by
        rcases Nat.lt_or_ge size.toNat 1 with h0 | h1
        · exact Or.inl (BitVec.eq_of_toNat_eq (Nat.lt_one_iff.mp h0))
        · exact Or.inr (BitVec.eq_of_toNat_eq (show size.toNat = 1 by omega))
      rcases hcases with rfl | rfl <;> decide
    have hor : type >>> 6 ||| 0x3ffffff = 0x3ffffff := by
      apply BitVec.eq_of_getLsbD_eq
      intro i hi
      by_cases h26 : i < 26
      · have htrue : ∀ j < 26, (0x3ffffff : Reg32).getLsbD j = true := by decide
        rw [BitVec.getLsbD_or, htrue i h26, Bool.or_true]
      · rw [BitVec.getLsbD_or, BitVec.getLsbD_ushiftRight, BitVec.getLsbD_of_ge _ _ (by omega),
          Bool.false_or]
    rw [hones, hor, eq_comm]
    exact (or_iff_right h).symm

/-- The attribute register covers the size and keeps the attributes exactly for sizes that
    fit. -/
theorem attributes_iff (type size : Reg32) :
    (size.toNat ≤ 2 ^ ((type ||| uiLawSize size).toNat % 2 ^ 6 + 1)
      ∧ (type ||| uiLawSize size) >>> 6 = type >>> 6) ↔ SizeFits type size := by
  rw [SizeFits, other_iff, and_comm]
  refine and_congr_right fun _ => ?_
  by_cases h : 2 ≤ size.toNat
  · have hne : size ≠ 0 := by
      rintro rfl
      exact absurd h (by decide)
    rw [covers_iff type size h, or_iff_right hne]
  · -- a size below 2 is covered by any window
    have hone : size.toNat ≤ 1 := by omega
    have hcover : 1 ≤ 2 ^ ((type ||| uiLawSize size).toNat % 2 ^ 6 + 1) := Nat.one_le_two_pow
    refine iff_of_true (Nat.le_trans hone hcover) ?_
    rcases Nat.le_one_iff_eq_zero_or_eq_one.mp hone with h0 | h1
    · exact Or.inl (BitVec.eq_of_toNat_eq h0)
    · exact Or.inr (Or.inl ⟨0, h1⟩)

/-- An outbound window takes its attributes from the size only. -/
theorem sizeFits_outbType (size : Reg32) :
    SizeFits outbType size ↔ 2 ≤ size.toNat ∧ size.toNat.isPowerOfTwo := by
  have hones : outbType >>> 6 ≠ 0x3ffffff := by decide
  have hclear : ∀ i < 6, outbType.getLsbD i = false := by decide
  rw [SizeFits, or_iff_left hones]
  refine and_congr_right fun h => ?_
  constructor
  · rintro (rfl | hpow | ⟨i, hi, hset, -⟩)
    · exact absurd h (by decide)
    · exact hpow
    · rw [hclear i hi] at hset
      nomatch hset
  · exact fun hpow => Or.inr (Or.inl hpow)

/-! ### Target ids -/

/-- The id the registers hold, against the id asked for. -/
theorem targetId_iff (rowtear dstID page : ℕ) (hpage : page < 2 ^ 22) :
    rowtear * 2 ^ 10 + (dstID % 2 ^ 8 * 2 ^ 22 + page) / 2 ^ 22 = dstID
      ↔ dstID % 2 ^ 10 < 2 ^ 8 ∧ rowtear = dstID / 2 ^ 10 := by
  have hdiv : (dstID % 2 ^ 8 * 2 ^ 22 + page) / 2 ^ 22 = dstID % 2 ^ 8 := by omega
  rw [hdiv]
  omega

/-! ### Requests -/

/-- A call out of range is the only one that writes nothing whatever the registers hold. -/
theorem writesNothing_iff (mport : Fin 2) (st : RioState) (c : MapCall) :
    (∀ regs, (c.perform mport { st with regs := regs }).regs = regs) ↔ c.window = none := by
  constructor
  · intro h
    cases hc : c.window with
    | none => rfl
    | some w =>
      -- a register that holds another word than the one written
      let regs : Regs := fun _ => c.words st.rioTargetType .base + 1
      have hwrite := (c.writes mport { st with regs := regs } w hc).stored .base
      rw [h regs] at hwrite
      have hne := BitVec.add_right_eq_self (x := c.words st.rioTargetType .base) (y := 1)
      exact absurd (hne.mp hwrite) (by decide)
  · intro hc regs
    rw [c.perform_none mport _ hc]

/-- The registers an accepted outbound call leaves, decoded. -/
theorem decodes_outb_iff (mport : Fin 2) (st : RioState) {l r size d n : Reg32} {k : Fin 7}
    (hc : (MapCall.outb l r size d n).window = some (.outb k)) :
    (MapCall.outb l r size d n).Decodes mport st.rioTargetType
        ((MapCall.outb l r size d n).perform mport st).regs (.outb k)
      ↔ Aligned l ∧ Aligned r ∧ 2 ≤ size.toNat ∧ size.toNat.isPowerOfTwo
        ∧ d.toNat % 2 ^ 10 < 2 ^ 8
        ∧ (st.regs (rowtearOf mport k)).toNat = d.toNat / 2 ^ 10 := by
  have hwrite := (MapCall.outb l r size d n).writes mport st _ hc
  have hpage : (r >>> 12).toNat < 2 ^ 22 := by
    have h := page_lt r
    omega
  -- `rowtear` is none of the three registers
  have hrowtear : ((MapCall.outb l r size d n).perform mport st).regs (rowtearOf mport k)
      = st.regs (rowtearOf mport k) := by
    apply hwrite.frame
    intro f
    cases f <;> simp only [rowtearOf, Window.register, rowtear, rowtar, rowbar, rowar] <;> omega
  have htranslation : (d.toNat % 2 ^ 8 * 2 ^ 22 + (r >>> 12).toNat) % 2 ^ 22
      = (r >>> 12).toNat := by omega
  have hattributes := attributes_iff outbType size
  rw [sizeFits_outbType] at hattributes
  simp only [MapCall.Decodes, windowBase, windowTranslation, targetId, sizeField, otherAttributes,
    hwrite.stored, hrowtear, MapCall.words, outbTarget_toNat]
  rw [htranslation, page_iff, page_iff, targetId_iff _ _ _ hpage, ← outbType, hattributes]
  tauto

/-- The registers an accepted inbound call leaves, decoded. -/
theorem decodes_inb_iff (mport : Fin 2) (st : RioState) {l r size n : Reg32} {k : Fin 4}
    (hc : (MapCall.inb l r size n).window = some (.inb k)) :
    (MapCall.inb l r size n).Decodes mport st.rioTargetType
        ((MapCall.inb l r size n).perform mport st).regs (.inb k)
      ↔ Aligned l ∧ Aligned r ∧ SizeFits st.rioTargetType size := by
  have hwrite := (MapCall.inb l r size n).writes mport st _ hc
  simp only [MapCall.Decodes, windowBase, windowTranslation, sizeField, otherAttributes,
    hwrite.stored, MapCall.words]
  rw [page_iff, page_iff, attributes_iff, and_left_comm]

/-- **A programmed window is the window requested** exactly for representable requests. -/
theorem represented_iff (mport : Fin 2) (st : RioState) (c : MapCall) :
    Represented mport st c ↔ Representable mport st c := by
  rw [Represented, writesNothing_iff]
  cases hc : c.window with
  | none =>
    -- a refused call is represented, and nothing is asked of it
    refine iff_of_true (Or.inl rfl) ?_
    cases c with
    | outb l r size d n =>
      intro hn
      rw [MapCall.window, dif_pos hn] at hc
      exact absurd hc (Option.some_ne_none _)
    | inb l r size n =>
      intro hn
      rw [MapCall.window, dif_pos hn] at hc
      exact absurd hc (Option.some_ne_none _)
  | some w =>
    have hdecodes : (some w = none ∨ ∃ v, some w = some v
        ∧ c.Decodes mport st.rioTargetType (c.perform mport st).regs v)
        ↔ c.Decodes mport st.rioTargetType (c.perform mport st).regs w := by
      simp
    rw [hdecodes]
    rcases MapCall.window_eq_some hc with ⟨l, r, size, d, n, rfl, hguard, k, rfl, hk⟩
      | ⟨l, r, size, n, rfl, hguard, k, rfl, hk⟩
    · have hn : n.toNat < 7 := Nat.lt_succ_of_le (uiOub_le_of_guard hguard)
      obtain rfl : k = ⟨n.toNat, hn⟩ := Fin.ext hk
      rw [decodes_outb_iff mport st hc, Representable]
      exact ⟨fun h _ => h, fun h => h hn⟩
    · have hn : n.toNat < 4 := Nat.lt_succ_of_le (uiInb_le_of_guard hguard)
      rw [decodes_inb_iff mport st hc, Representable]
      exact ⟨fun h _ => h, fun h => h hn⟩

/-- A window of 12 KiB covers only 8 KiB of it, and a target id of 0x101 becomes 1. -/
theorem not_represented :
    ¬Represented 0 ⟨fun _ => 0, 0x80f55000⟩ (.outb 0xc0400000 0 0x3000 1 1)
      ∧ ¬Represented 0 ⟨fun _ => 0, 0x80f55000⟩ (.inb 0x1000000 0 0x3000 0)
      ∧ ¬Represented 0 ⟨fun _ => 0, 0x80f55000⟩ (.outb 0xc0400000 0 0x1000 0x101 1) := by
  refine ⟨?_, ?_, ?_⟩
  · rintro (h | ⟨w, hw, h⟩)
    · exact absurd (congrFun (h fun _ => 0) (maintAtmuRegs 0 + 0x20 + rowbar)) (by decide +kernel)
    · obtain rfl := Option.some.inj hw
      exact absurd h.2.2.2.1 (by decide +kernel)
  · rintro (h | ⟨w, hw, h⟩)
    · exact absurd (congrFun (h fun _ => 0) (atmuRegs 0 + rowtar + 0x160)) (by decide +kernel)
    · obtain rfl := Option.some.inj hw
      exact absurd h.2.2.1 (by decide +kernel)
  · rintro (h | ⟨w, hw, h⟩)
    · exact absurd (congrFun (h fun _ => 0) (maintAtmuRegs 0 + 0x20 + rowbar)) (by decide +kernel)
    · obtain rfl := Option.some.inj hw
      exact absurd h.2.2.1 (by decide +kernel)

end Vpx3.Rio
