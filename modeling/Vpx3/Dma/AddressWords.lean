import Vpx3.Dma.Failures

namespace Vpx3.Dma

/-!
# DMA engine — the address words and the endpoints they name

An address word has room for one endpoint and some reserved bits.

* `Encodes` — a word that says one endpoint and nothing else;
* `addressWords_encode` — the words that a read and a write leave in SAR and DAR.
-/

/-- The two `out_be32` of `out_be64`: the high half first, the low half behind it. -/
def outBe64 (v : DWord) : Word × Word :=
  ((v >>> 32).setWidth 32, v.setWidth 32)

/-- The word says `e` and nothing else: its fields are those of `e`, the reserved bits are clear,
    and the attributes and the address go to one register each. -/
structure Encodes (w : DWord) (e : Endpoint) : Prop where
  fields : Endpoint.ofWord w = e
  exact : w = e.toWord
  halves : outBe64 w = (e.attr, e.addr)

/-- The word of an endpoint. -/
theorem Encodes.of_eq {w : DWord} {e : Endpoint} (h : w = e.toWord) : Encodes w e := by
  subst h
  refine ⟨e.ofWord_toWord, rfl, ?_⟩
  have hattr := e.attr.isLt
  have haddr := e.addr.isLt
  refine Prod.ext (BitVec.eq_of_toNat_eq ?_) (BitVec.eq_of_toNat_eq ?_)
  · simp only [outBe64, BitVec.toNat_setWidth, BitVec.toNat_ushiftRight, Endpoint.toWord,
      Bits.toNat_append, Nat.shiftRight_eq_div_pow]
    omega
  · simp only [outBe64, BitVec.toNat_setWidth, Endpoint.toWord, Bits.toNat_append]
    omega

/-- **Address words.**  A read goes from the RapidIO endpoint to the snooped local one, a write the
    other way round, word for word; and these are the words that a call with its resources leaves
    in SAR and DAR, however it ends. -/
theorem addressWords_encode :
    (∀ destid : Byte, ∀ phys rioAddr : Word,
      Encodes (nreadWords destid phys rioAddr).sar (.rapidio 0x4 destid rioAddr)
      ∧ Encodes (nreadWords destid phys rioAddr).dar (.snooped phys)
      ∧ Encodes (nwriteWords destid phys rioAddr).sar (.snooped phys)
      ∧ Encodes (nwriteWords destid phys rioAddr).dar (.rapidio 0x4 destid rioAddr)
      ∧ nwriteWords destid phys rioAddr
        = ⟨(nreadWords destid phys rioAddr).dar, (nreadWords destid phys rioAddr).sar⟩)
    ∧ ∀ (k : ℕ) (p : Platform) (env : CallEnv k) (r : Run k) (q : Request), ¬NoResources env r →
      ((fslRioDmaNread p env r q.destid q.loalAddr q.rioAddr q.bytecnt).2.chan
          (griodmaChan k)).words
        = (nreadWords q.destid (p.virtToPhys q.loalAddr) q.rioAddr).be64
            (r.chan (griodmaChan k)).feature
      ∧ ((fslRioDmaNwrite p env r q.destid q.loalAddr q.rioAddr q.bytecnt).2.chan
          (griodmaChan k)).words
        = (nwriteWords q.destid (p.virtToPhys q.loalAddr) q.rioAddr).be64
            (r.chan (griodmaChan k)).feature := by
  refine ⟨fun destid phys rioAddr => ?_, fun k p env r q hopen => ?_⟩
  · have hremote := Encodes.of_eq (rapidioSrcWord_eq_toWord destid rioAddr)
    have hlocal := Encodes.of_eq (localWord_eq_toWord phys)
    -- NREAD and NWRITE have the same code, so the remote words are the same
    exact ⟨hremote, hlocal, hlocal, hremote, rfl⟩
  · exact ⟨nread_words p q hopen, nwrite_words p q hopen⟩

/-- The registers behind one page from node 5, and one page to it. -/
theorem addressWords_pageRequest :
    ((fslRioDmaNread lowMemory silentEnv probedRun 5 0xC1000000 0x40000000 0x1000).2.chan 1).words
        = ⟨0x28C4001440000000, 0x0005000001000000⟩
      ∧ ((fslRioDmaNwrite lowMemory silentEnv probedRun 5 0xC1000000 0x40000000 0x1000).2.chan
          1).words
        = ⟨0x0005000001000000, 0x28C4001440000000⟩ := by
  obtain ⟨hread, hwrite⟩ := addressWords_encode.2 1 lowMemory silentEnv probedRun pageRequest
    fun h => nomatch h.2
  exact ⟨hread.trans (by decide), hwrite.trans (by decide)⟩

end Vpx3.Dma
