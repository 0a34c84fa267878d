import Vpx3.Lib.Bits
import Vpx3.Dma.Chan

namespace Vpx3.Dma

/-!
# DMA engine — the address words of a direct transfer

SAR and DAR are 64-bit words: the attribute register in the high half, the address in the
low half.

* `rapidioSrcWord`, `rapidioDstWord`, `localWord` — the words of the RapidIO calls, put
  together from the header's macros; `nreadWords`, `nwriteWords` — the pair of each call;
* `Endpoint.ofWord` — what the controller reads in such a word; `Endpoint.toWord` — the word of
  an endpoint, its fields side by side; `Endpoint.ofWord_toWord` — the round trip;
* `ofWord_rapidioSrc`, `ofWord_rapidioDst`, `ofWord_local` — the fields come back;
* `not_bypass_descWord` — a link descriptor's word never bypasses the address translation.
-/

/-! ### Attribute macros -/

/-- `DMA8641_SATR_SBPATMU_BYPASS`, equal to `DMA8641_DATR_DBPATMU_BYPASS`. -/
def sbpatmuBypass : Word := 0x1 <<< 29
/-- `DMA8641_SATR_STFLOWLVL_HIGH`, equal to `DMA8641_DATR_DTFLOWLVL_HIGH`. -/
def stflowlvlHigh : Word := 0x2 <<< 26 ||| sbpatmuBypass
/-- `DMA8641_SATR_STRANSIT_SRIO`, equal to `DMA8641_DATR_DTRANSIT_SRIO`. -/
def stransitSrio : Word := 0xC <<< 20 ||| sbpatmuBypass
/-- `DMA8641_SATR_SREADTTYPE_ATMU_NRD`. -/
def sreadttypeAtmuNrd : Word := 0x4 <<< 16 ||| sbpatmuBypass
/-- `DMA8641_DATR_DWRITETTYPE_ATMU_NWRITE`. -/
def dwritettypeAtmuNwrite : Word := 0x4 <<< 16 ||| sbpatmuBypass
/-- `RAPIDIO_DST_ATTRIB`. -/
def rapidioDstAttrib : Word :=
  sbpatmuBypass ||| stflowlvlHigh ||| stransitSrio ||| dwritettypeAtmuNwrite
/-- `DMA8641_SATR_SREADTTYPE_RD_SNOOP`, equal to `LOCAL_DST_ATTRIB_SNOOP`. -/
def rdSnoop : Word := 0x5 <<< 16 ||| 0x0 <<< 29

/-- `(destid<<2) & (0xFF<<2)`, the target id field. -/
def srioId (destid : Byte) : Word := destid.zeroExtend 32 <<< 2 &&& 0xFF <<< 2

/-- Attributes over address; the attributes are an `int`, widened before the shift. -/
def addrWord (attr addr : Word) : DWord := attr.signExtend 64 <<< 32 ||| addr.zeroExtend 64

/-- SAR of a RapidIO read. -/
def rapidioSrcWord (destid : Byte) (rioAddr : Word) : DWord :=
  addrWord ((sbpatmuBypass ||| stflowlvlHigh ||| stransitSrio ||| sreadttypeAtmuNrd)
    ||| srioId destid) rioAddr

/-- DAR of a RapidIO write. -/
def rapidioDstWord (destid : Byte) (rioAddr : Word) : DWord :=
  addrWord (rapidioDstAttrib ||| srioId destid) rioAddr

/-- DAR of a RapidIO read and SAR of a RapidIO write. -/
def localWord (addr : Word) : DWord := addrWord rdSnoop addr

/-- SAR and DAR of one transfer. -/
structure AddressWords where
  sar : DWord
  dar : DWord
deriving DecidableEq, Repr

/-- What `fsl_rio_dma_nread` writes: from the RapidIO side to local memory. -/
def nreadWords (destid : Byte) (phys rioAddr : Word) : AddressWords :=
  ⟨rapidioSrcWord destid rioAddr, localWord phys⟩

/-- What `fsl_rio_dma_nwrite` writes: from local memory to the RapidIO side. -/
def nwriteWords (destid : Byte) (phys rioAddr : Word) : AddressWords :=
  ⟨localWord phys, rapidioDstWord destid rioAddr⟩

/-- The register pairs after `out_be64` of both words. -/
def AddressWords.be64 (f : Feature) (w : AddressWords) : AddressWords :=
  ⟨f.be64 w.sar, f.be64 w.dar⟩

/-- SAR and DAR as the channel holds them. -/
def Chan.words (c : Chan) : AddressWords :=
  ⟨c.regs.sar, c.regs.dar⟩

/-! ### What the controller reads -/

/-- One side of a transfer, as the controller decodes an address word. -/
structure Endpoint where
  /-- `SBPATMU`: the attributes replace the address translation windows. -/
  bypass : Bool
  flowLevel : BitVec 2
  /-- Transaction interface; `0xC` is the serial RapidIO port. -/
  interface : BitVec 4
  ttype : BitVec 4
  targetId : Byte
  addr : Word
deriving DecidableEq, Repr

/-- The fields of an address word. -/
def Endpoint.ofWord (w : DWord) : Endpoint where
  bypass := (w.extractLsb' 32 32)[29]
  flowLevel := (w.extractLsb' 32 32).extractLsb' 26 2
  interface := (w.extractLsb' 32 32).extractLsb' 20 4
  ttype := (w.extractLsb' 32 32).extractLsb' 16 4
  targetId := (w.extractLsb' 32 32).extractLsb' 2 8
  addr := w.extractLsb' 0 32

/-- A RapidIO endpoint: bypass, high flow level, the serial RapidIO port. -/
def Endpoint.rapidio (ttype : BitVec 4) (destid : Byte) (rioAddr : Word) : Endpoint :=
  ⟨true, 2, 0xC, ttype, destid, rioAddr⟩

/-- Local memory behind the snooped processor bus. -/
def Endpoint.snooped (addr : Word) : Endpoint :=
  ⟨false, 0, 0, 0x5, 0, addr⟩

/-- The two halves of an address word. -/
theorem addrWord_eq_append (attr addr : Word) : addrWord attr addr = attr ++ addr := by
  rw [addrWord]
  ext i hi
  rw [BitVec.getElem_append]
  simp only [BitVec.getElem_or, BitVec.getElem_shiftLeft, BitVec.getElem_signExtend,
    BitVec.getElem_setWidth]
  by_cases h : i < 32
  · simp [h]
  · have h' : i - 32 < 32 := by omega
    have haddr : addr.getLsbD i = false := BitVec.getLsbD_of_ge addr i (by omega)
    simp [h, h', haddr]

/-- Decoding takes the attributes and the address apart again. -/
theorem ofWord_addrWord (attr addr : Word) :
    Endpoint.ofWord (addrWord attr addr)
      = ⟨attr[29], attr.extractLsb' 26 2, attr.extractLsb' 20 4, attr.extractLsb' 16 4,
          attr.extractLsb' 2 8, addr⟩ := by
  have hattr : (attr ++ addr).extractLsb' 32 32 = attr := BitVec.extractLsb'_append_eq_left
  have haddr : (attr ++ addr).extractLsb' 0 32 = addr := BitVec.extractLsb'_append_eq_right
  rw [Endpoint.ofWord, addrWord_eq_append]
  simp only [hattr, haddr]

/-! ### Endpoints as words -/

/-- The attribute register of an endpoint: the fields side by side, zeros in between. -/
def Endpoint.attr (e : Endpoint) : Word :=
  0#2 ++ BitVec.ofBool e.bypass ++ 0#1 ++ e.flowLevel ++ 0#2 ++ e.interface ++ e.ttype ++ 0#6
    ++ e.targetId ++ 0#2

/-- The address word of an endpoint. -/
def Endpoint.toWord (e : Endpoint) : DWord := e.attr ++ e.addr

/-- The attribute register as a sum of fields. -/
theorem Endpoint.attr_toNat (e : Endpoint) :
    e.attr.toNat = e.bypass.toNat * 2 ^ 29 + e.flowLevel.toNat * 2 ^ 26
      + e.interface.toNat * 2 ^ 20 + e.ttype.toNat * 2 ^ 16 + e.targetId.toNat * 2 ^ 2 := by
  rw [attr]
  iterate 9 rw [Bits.toNat_append]
  simp only [BitVec.toNat_ofBool, BitVec.toNat_ofNat]
  omega

/-- No field reaches into another. -/
theorem Endpoint.attr_fields (e : Endpoint) :
    e.attr[29] = e.bypass ∧ e.attr.extractLsb' 26 2 = e.flowLevel
      ∧ e.attr.extractLsb' 20 4 = e.interface ∧ e.attr.extractLsb' 16 4 = e.ttype
      ∧ e.attr.extractLsb' 2 8 = e.targetId := by
  have hbypass := e.bypass.toNat_lt
  have hflow := e.flowLevel.isLt
  have hinterface := e.interface.isLt
  have httype := e.ttype.isLt
  have htarget := e.targetId.isLt
  refine ⟨?_, BitVec.eq_of_toNat_eq ?_, BitVec.eq_of_toNat_eq ?_, BitVec.eq_of_toNat_eq ?_,
    BitVec.eq_of_toNat_eq ?_⟩
  · rw [BitVec.getElem_eq_testBit_toNat, attr_toNat, Nat.testBit_eq_decide_div_mod_eq]
    cases e.bypass <;> simp only [Bool.toNat_true, Bool.toNat_false, decide_eq_true_eq,
      decide_eq_false_iff_not] <;> omega
  all_goals
    rw [Bits.toNat_extractLsb', attr_toNat]
    omega

/-- **Round trip.**  What an endpoint is encoded as, the controller decodes. -/
theorem Endpoint.ofWord_toWord (e : Endpoint) : Endpoint.ofWord e.toWord = e := by
  obtain ⟨hbypass, hflow, hinterface, httype, htarget⟩ := e.attr_fields
  rw [toWord, ← addrWord_eq_append, ofWord_addrWord, Endpoint.mk.injEq]
  exact ⟨hbypass, hflow, hinterface, httype, htarget, rfl⟩

/-- The remote side of a read is an NREAD at `destid`. -/
theorem rapidioSrcWord_eq_toWord (destid : Byte) (rioAddr : Word) :
    rapidioSrcWord destid rioAddr = (Endpoint.rapidio 0x4 destid rioAddr).toWord := by
  rw [rapidioSrcWord, addrWord_eq_append, Endpoint.toWord, Endpoint.rapidio]
  congr 1
  simp only [Endpoint.attr]
  revert destid
  decide +kernel

/-- The local side is a snooped access. -/
theorem localWord_eq_toWord (addr : Word) : localWord addr = (Endpoint.snooped addr).toWord := by
  rw [localWord, addrWord_eq_append, Endpoint.toWord, Endpoint.snooped]
  congr 1
  simp only [Endpoint.attr]
  decide

/-- A read's remote side: target `destid`, address `rioAddr`, an NREAD. -/
theorem ofWord_rapidioSrc (destid : Byte) (rioAddr : Word) :
    Endpoint.ofWord (rapidioSrcWord destid rioAddr) = .rapidio 0x4 destid rioAddr := by
  rw [rapidioSrcWord_eq_toWord, Endpoint.ofWord_toWord]

/-- A write's remote side: target `destid`, address `rioAddr`, an NWRITE. -/
theorem ofWord_rapidioDst (destid : Byte) (rioAddr : Word) :
    Endpoint.ofWord (rapidioDstWord destid rioAddr) = .rapidio 0x4 destid rioAddr :=
  ofWord_rapidioSrc destid rioAddr

/-- The local side of either call. -/
theorem ofWord_local (addr : Word) : Endpoint.ofWord (localWord addr) = .snooped addr := by
  rw [localWord_eq_toWord, Endpoint.ofWord_toWord]

/-- A link descriptor's word never asks for the bypass, so it names no RapidIO target. -/
theorem not_bypass_descWord (f : Feature) (addr : Word) :
    (Endpoint.ofWord (f.descWord addr)).bypass = false := by
  rw [Feature.descWord, Endpoint.ofWord]
  split <;> simp [fslDmaSnoop]

end Vpx3.Dma
