import Mathlib

namespace Vpx3.Dma

/-!
# DMA engine — channel registers, descriptor queues and the tasklet

One channel of the Elo DMA controller and the driver's memcpy engine on it:

* `Chan` — mode and address registers, the two descriptor lists, the idle flag;
* `Chan.writeMr` — a mode register write; the start bit going up starts a transfer;
* `Chan.fslChanXferLdQueue` — the engine: chains the pending descriptors and starts them;
* `Chan.dmaDoTasklet` — the end-of-transfer tasklet, which runs the engine again;
* `Chan.fslDmaTxSubmit`, `fslDmaPrepMemcpy` — descriptors for one copy, and their queueing.

Registers hold the value the device reads.  The driver reaches them through `DMA_IN` and
`DMA_OUT` in the channel's own byte order; direct `out_be32` accesses are swapped on a
little-endian channel (`Feature.be32`).  `started` is not driver data: it lists what the
hardware was told to transfer, one entry for each time the start bit went up.
-/

abbrev Byte := BitVec 8
abbrev Word := BitVec 32
abbrev DWord := BitVec 64

/-! ### Registers -/

/-- `FSL_DMA_MR_CS`, the channel-start bit. -/
def fslDmaMrCs : Word := 0x00000001
/-- `FSL_DMA_MR_EMP_EN`, external pause. -/
def fslDmaMrEmpEn : Word := 0x00200000
/-- `FSL_DMA_MR_EMS_EN`, external start. -/
def fslDmaMrEmsEn : Word := 0x00040000
/-- `FSL_DMA_BCR_MAX_CNT`, the most bytes one descriptor moves. -/
def fslDmaBcrMaxCnt : Word := 0x03ffffff
/-- `FSL_DMA_SATR_SREADTYPE_SNOOP_READ`, equal to `FSL_DMA_DATR_DWRITETYPE_SNOOP_WRITE`. -/
def fslDmaSnoop : Word := 0x00050000

/-- `FSL_DMA_IP_85XX` or `FSL_DMA_IP_83XX`. -/
inductive Ip
  | ip85xx
  | ip83xx
deriving DecidableEq, Repr

/-- The `feature` word.  The probe passes `FSL_DMA_IP_85XX | FSL_DMA_BIG_ENDIAN` or
    `FSL_DMA_IP_83XX | FSL_DMA_LITTLE_ENDIAN`; `FSL_DMA_CHAN_PAUSE_EXT` and
    `FSL_DMA_CHAN_START_EXT` are toggled later. -/
structure Feature where
  ip : Ip
  pauseExt : Bool
  startExt : Bool
deriving DecidableEq, Repr

/-- There are two controllers. -/
theorem Feature.ip83xx_of_ne {f : Feature} (h : f.ip ≠ .ip85xx) : f.ip = .ip83xx := by
  cases hip : f.ip with
  | ip85xx => exact absurd hip h
  | ip83xx => rfl

/-- Bytes of a 32-bit word in the opposite order. -/
def bswap32 (v : Word) : Word :=
  v.extractLsb' 0 8 ++ v.extractLsb' 8 8 ++ v.extractLsb' 16 8 ++ v.extractLsb' 24 8

/-- Bytes of a 64-bit word in the opposite order. -/
def bswap64 (v : DWord) : DWord :=
  bswap32 (v.extractLsb' 0 32) ++ bswap32 (v.extractLsb' 32 32)

/-- What a register of the channel holds after `out_be32`, and what `in_be32` makes of it. -/
def Feature.be32 (f : Feature) (v : Word) : Word :=
  if f.ip = .ip85xx then v else bswap32 v

/-- What a register pair of the channel holds after `out_be64`. -/
def Feature.be64 (f : Feature) (v : DWord) : DWord :=
  if f.ip = .ip85xx then v else bswap64 v

/-- One transfer as the hardware carries it out: source and destination words (attributes in the
    high half, address in the low half) and a byte count. -/
structure Transfer where
  src : DWord
  dst : DWord
  count : Word
deriving DecidableEq, Repr

/-- `struct fsldma_chan_regs`; `cdar` is the chain of link descriptors it points at. -/
structure ChanRegs where
  mr : Word
  cdar : List Transfer
  sar : DWord
  dar : DWord
  bcr : Word
deriving DecidableEq, Repr

/-- Bit 0 of a mode word, `FSL_DMA_MR_CS`. -/
abbrev csBit (mr : Word) : Bool := mr[0]

/-- Bit 2 of a mode word, `DMA8641_MR_CTM_DIRECT`. -/
abbrev directBit (mr : Word) : Bool := mr[2]

/-- What the start bit starts under a mode word: with bit 2 (`DMA8641_MR_CTM_DIRECT`) set the
    transfer of SAR, DAR and BCR, otherwise the descriptors at CDAR. -/
def ChanRegs.transfers (regs : ChanRegs) (mr : Word) : List Transfer :=
  if directBit mr then [⟨regs.sar, regs.dar, regs.bcr⟩] else regs.cdar

/-! ### The channel -/

/-- `struct fsl_desc_sw`: the hardware descriptor, the cookie and the completion its callback
    signals. -/
structure Desc where
  hw : Transfer
  cookie : Word
  callbackParam : Option ℕ
deriving DecidableEq, Repr

/-- `struct fsldma_chan`, with the transfers its hardware was told to start. -/
structure Chan where
  feature : Feature
  regs : ChanRegs
  started : List (List Transfer)
  idle : Bool
  ldPending : List Desc
  ldRunning : List Desc
  descPool : Bool
  cookie : Word
  completedCookie : Word
deriving DecidableEq, Repr

namespace Chan

/-- Write of the mode register.  A transfer starts when bit 0 (`FSL_DMA_MR_CS`) goes up. -/
def writeMr (c : Chan) (mr : Word) : Chan :=
  { c with
    regs := { c.regs with mr := mr }
    started := if csBit mr && !csBit c.regs.mr then c.started ++ [c.regs.transfers mr]
      else c.started }

/-- Write of the byte count register. -/
def setBcr (c : Chan) (bcr : Word) : Chan :=
  { c with regs := { c.regs with bcr := bcr } }

/-- `set_cdar`. -/
def setCdar (c : Chan) (chain : List Transfer) : Chan :=
  { c with regs := { c.regs with cdar := chain } }

/-- `dma_start`. -/
def dmaStart (c : Chan) : Chan :=
  let mode := c.regs.mr
  let (c, mode) := if c.feature.pauseExt then (c.setBcr 0, mode ||| fslDmaMrEmpEn)
    else (c, mode &&& ~~~fslDmaMrEmpEn)
  let mode := if c.feature.startExt then mode ||| fslDmaMrEmsEn
    else (mode &&& ~~~fslDmaMrEmsEn) ||| fslDmaMrCs
  c.writeMr mode

/-- The 85xx controller does not clear the start bit at the end of a transfer, so it is cleared in
    software. -/
def clearStart (c : Chan) : Chan :=
  if c.feature.ip = .ip85xx then c.writeMr (c.regs.mr &&& ~~~fslDmaMrCs) else c

/-- `list_splice_tail_init(&chan->ld_pending, &chan->ld_running)`. -/
def splice (c : Chan) : Chan :=
  { c with ldPending := [], ldRunning := c.ldRunning ++ c.ldPending }

/-- `fsl_chan_xfer_ld_queue`. -/
def fslChanXferLdQueue (c : Chan) : Chan :=
  if c.ldPending = [] then c
  else if c.idle = false then c
  else
    let chain := c.ldPending.map (·.hw)
    -- the lists are spliced before the hardware is touched
    { (c.splice.clearStart.setCdar chain).dmaStart with idle := false }

/-- The first half of `dma_do_tasklet`: the running descriptors are done with, and the hardware is
    idle. -/
def retire (c : Chan) : Chan :=
  { c with
    completedCookie := match c.ldRunning.getLast? with
      | some desc => desc.cookie
      | none => c.completedCookie
    ldRunning := []
    idle := true }

/-- The cookie of the last running descriptor is the one that is completed. -/
theorem retire_completedCookie_of_last {c : Chan} {desc : Desc}
    (h : c.ldRunning.getLast? = some desc) : c.retire.completedCookie = desc.cookie := by
  simp only [retire, h]

/-- With nothing running no cookie is completed. -/
theorem retire_completedCookie_of_idle {c : Chan} (h : c.ldRunning = []) :
    c.retire.completedCookie = c.completedCookie := by
  simp only [retire, h, List.getLast?_nil]

/-- `dma_do_tasklet`, without the callbacks. -/
def dmaDoTasklet (c : Chan) : Chan :=
  c.retire.fslChanXferLdQueue

/-- The completions that the callbacks of `dma_do_tasklet` signal. -/
def callbacks (c : Chan) : List ℕ :=
  c.ldRunning.filterMap (·.callbackParam)

/-- `dma_cookie_assign`, an inline function of the kernel's `dmaengine.h`: the next positive
    cookie. -/
def dmaCookieAssign (cookie : Word) : Word :=
  if (cookie + 1).slt 1 then 1 else cookie + 1

/-- `fsl_dma_tx_submit`: every descriptor of the transaction gets a cookie, and the transaction
    goes to the tail of the pending list. -/
def fslDmaTxSubmit (c : Chan) : List Desc → Chan × Word
  | [] => (c, c.cookie)
  | desc :: rest =>
    let cookie := dmaCookieAssign c.cookie
    let c := { c with
      cookie := cookie
      ldPending := c.ldPending ++ [{ desc with cookie := cookie }] }
    c.fslDmaTxSubmit rest

/-- `fsl_dma_alloc_chan_resources`; `created` tells whether `dma_pool_create` succeeds. -/
def fslDmaAllocChanResources (c : Chan) (created : Bool) : Option Chan :=
  if c.descPool then some c
  else if created then some { c with descPool := true }
  else none

/-- `fsl_dma_free_chan_resources`: both lists are freed, whoever queued their descriptors. -/
def fslDmaFreeChanResources (c : Chan) : Chan :=
  { c with ldPending := [], ldRunning := [], descPool := false }

/-- `fsl_tx_status(...) == DMA_SUCCESS`, that is `dma_async_is_complete`, an inline function of the
    kernel's `dmaengine.h`, for the last cookie completed and the last cookie given out. -/
def fslTxStatus (c : Chan) (cookie : Word) : Bool :=
  if c.completedCookie.sle c.cookie then
    cookie.sle c.completedCookie || c.cookie.slt cookie
  else
    cookie.sle c.completedCookie && c.cookie.slt cookie

end Chan

/-- A descriptor's address word: `set_desc_src` and `set_desc_dst` add the snoop attributes on the
    85xx controller. -/
def Feature.descWord (f : Feature) (addr : Word) : DWord :=
  (if f.ip = .ip85xx then fslDmaSnoop.zeroExtend 64 <<< 32 else 0) ||| addr.zeroExtend 64

/-- `EBUSY`. -/
def ebusy : ℤ := 16

/-- The cookie of the last descriptor of a transaction that has not been submitted. -/
def busyCookie : Word := BitVec.ofInt 32 (-ebusy)

/-- The loop of `fsl_dma_prep_memcpy`: one descriptor for each `FSL_DMA_BCR_MAX_CNT` bytes.
    `alloc` tells which calls of `fsl_dma_alloc_descriptor` succeed; on a failure the descriptors
    made so far are freed.  Each round copies at least one byte, so `len` rounds are enough. -/
def fslDmaPrepMemcpyLoop (f : Feature) (alloc : ℕ → Bool) :
    ℕ → ℕ → Word → Word → Word → Option (List Desc)
  | 0, _, _, _, _ => none
  | fuel + 1, n, dst, src, len =>
    if alloc n = false then none
    else
      let copy := if len ≤ fslDmaBcrMaxCnt then len else fslDmaBcrMaxCnt
      let hw : Transfer := ⟨f.descWord src, f.descWord dst, copy⟩
      if len - copy = 0 then some [⟨hw, busyCookie, none⟩]
      else (fslDmaPrepMemcpyLoop f alloc fuel (n + 1) (dst + copy) (src + copy) (len - copy)).map
        (⟨hw, 0, none⟩ :: ·)

/-- `fsl_dma_prep_memcpy`: the descriptors of one copy, or `none` when one cannot be allocated. -/
def fslDmaPrepMemcpy (f : Feature) (alloc : ℕ → Bool) (dst src len : Word) : Option (List Desc) :=
  if len = 0 then none else fslDmaPrepMemcpyLoop f alloc len.toNat 0 dst src len

/-! ### Byte order -/

/-- Swapping the bytes twice gives the word back. -/
theorem bswap32_bswap32 (v : Word) : bswap32 (bswap32 v) = v := by
  have byte : ∀ a b c d : Byte, bswap32 (a ++ b ++ c ++ d) = d ++ c ++ b ++ a := by
    intro a b c d
    unfold bswap32
    have h0 : (a ++ b ++ c ++ d).extractLsb' 0 8 = d := BitVec.extractLsb'_append_eq_right
    have h1 : (a ++ b ++ c ++ d).extractLsb' 8 8 = c := by
      rw [BitVec.extractLsb'_append_eq_of_le (by decide)]
      exact BitVec.extractLsb'_append_eq_right
    have h2 : (a ++ b ++ c ++ d).extractLsb' 16 8 = b := by
      rw [BitVec.extractLsb'_append_eq_of_le (by decide),
        BitVec.extractLsb'_append_eq_of_le (by decide)]
      exact BitVec.extractLsb'_append_eq_right
    have h3 : (a ++ b ++ c ++ d).extractLsb' 24 8 = a := by
      rw [BitVec.extractLsb'_append_eq_of_le (by decide),
        BitVec.extractLsb'_append_eq_of_le (by decide),
        BitVec.extractLsb'_append_eq_of_le (by decide)]
      exact BitVec.extractLsb'_eq_self
    rw [h0, h1, h2, h3]
  refine (byte _ _ _ _).trans ?_
  show v.extractLsb' 24 8 ++ v.extractLsb' 16 8 ++ v.extractLsb' 8 8 ++ v.extractLsb' 0 8 = v
  ext i hi
  simp only [BitVec.getElem_append, BitVec.getElem_extractLsb']
  grind

/-- The low byte comes from the top. -/
theorem getLsbD_bswap32_low (v : Word) {i : ℕ} (h : i < 8) :
    (bswap32 v).getLsbD i = v.getLsbD (24 + i) := by
  unfold bswap32
  rw [BitVec.getLsbD_append, if_pos h, BitVec.getLsbD_extractLsb', decide_eq_true h, Bool.true_and]

/-- The top byte comes from the low end. -/
theorem getLsbD_bswap32_high (v : Word) {i : ℕ} (h : i < 8) :
    (bswap32 v).getLsbD (24 + i) = v.getLsbD i := by
  unfold bswap32
  rw [BitVec.getLsbD_append, if_neg (by omega), BitVec.getLsbD_append, if_neg (by omega),
    BitVec.getLsbD_append, if_neg (by omega), BitVec.getLsbD_extractLsb']
  have hi : 24 + i - 8 - 8 - 8 = i := by omega
  rw [hi, decide_eq_true h, Bool.true_and, Nat.zero_add]

/-- What `out_be32` wrote, `in_be32` reads. -/
theorem Feature.be32_be32 (f : Feature) (v : Word) : f.be32 (f.be32 v) = v := by
  unfold Feature.be32
  by_cases h : f.ip = .ip85xx
  · rw [if_pos h, if_pos h]
  · rw [if_neg h, if_neg h, bswap32_bswap32]

/-! ### Mode register writes -/

namespace Chan

variable (c : Chan)

@[simp] theorem writeMr_feature (v : Word) : (c.writeMr v).feature = c.feature := rfl
@[simp] theorem writeMr_mr (v : Word) : (c.writeMr v).regs.mr = v := rfl
@[simp] theorem writeMr_cdar (v : Word) : (c.writeMr v).regs.cdar = c.regs.cdar := rfl
@[simp] theorem writeMr_sar (v : Word) : (c.writeMr v).regs.sar = c.regs.sar := rfl
@[simp] theorem writeMr_dar (v : Word) : (c.writeMr v).regs.dar = c.regs.dar := rfl
@[simp] theorem writeMr_bcr (v : Word) : (c.writeMr v).regs.bcr = c.regs.bcr := rfl
@[simp] theorem writeMr_idle (v : Word) : (c.writeMr v).idle = c.idle := rfl
@[simp] theorem writeMr_ldPending (v : Word) : (c.writeMr v).ldPending = c.ldPending := rfl
@[simp] theorem writeMr_ldRunning (v : Word) : (c.writeMr v).ldRunning = c.ldRunning := rfl
@[simp] theorem writeMr_cookie (v : Word) : (c.writeMr v).cookie = c.cookie := rfl
@[simp] theorem writeMr_completedCookie (v : Word) :
    (c.writeMr v).completedCookie = c.completedCookie := rfl

/-- A mode word without the start bit starts nothing. -/
theorem writeMr_started_of_halt {v : Word} (h : csBit v = false) :
    (c.writeMr v).started = c.started := by
  simp [writeMr, h]

/-- A write that finds the start bit set starts nothing. -/
theorem writeMr_started_of_running (v : Word) (h : csBit c.regs.mr = true) :
    (c.writeMr v).started = c.started := by
  simp [writeMr, h]

/-- The start bit going up starts one transfer. -/
theorem writeMr_started_of_start {v : Word} (hv : csBit v = true) (h : csBit c.regs.mr = false) :
    (c.writeMr v).started = c.started ++ [c.regs.transfers v] := by
  simp [writeMr, hv, h]

/-! ### Starting the controller -/

/-- The byte count that `dma_start` leaves behind. -/
def startBcr (c : Chan) : Word :=
  if c.feature.pauseExt then 0 else c.regs.bcr

/-- `dma_start` writes the byte count and then the mode register. -/
theorem dmaStart_eq : ∃ mode : Word, c.dmaStart = (c.setBcr c.startBcr).writeMr mode ∧
    csBit mode = (!c.feature.startExt || csBit c.regs.mr)
      ∧ directBit mode = directBit c.regs.mr := by
  unfold dmaStart startBcr
  by_cases hp : c.feature.pauseExt <;> by_cases hs : c.feature.startExt <;>
    simp only [hp, hs, if_true, Bool.false_eq_true, if_false, setBcr] <;>
    exact ⟨_, rfl, by simp [fslDmaMrEmpEn, fslDmaMrEmsEn, fslDmaMrCs],
      by simp [fslDmaMrEmpEn, fslDmaMrEmsEn, fslDmaMrCs]⟩

/-- Clearing the start bit leaves all but the mode register alone, and starts nothing. -/
theorem clearStart_eq : ∃ mode : Word,
    c.clearStart = { c with regs := { c.regs with mr := mode } } ∧
    directBit mode = directBit c.regs.mr ∧
    (c.feature.ip = .ip85xx ∨ csBit c.regs.mr = false → csBit mode = false) := by
  unfold clearStart
  by_cases hip : c.feature.ip = .ip85xx
  · rw [if_pos hip]
    have hhalt : csBit (c.regs.mr &&& ~~~fslDmaMrCs) = false := by
      simp [fslDmaMrCs]
    refine ⟨c.regs.mr &&& ~~~fslDmaMrCs, ?_, by simp [fslDmaMrCs], fun _ => hhalt⟩
    simp [writeMr, hhalt]
  · rw [if_neg hip]
    exact ⟨c.regs.mr, rfl, rfl, fun h => h.resolve_left hip⟩

/-! ### What a run of the engine can do -/

/-- With nothing pending, or a busy controller, the engine does nothing. -/
theorem fslChanXferLdQueue_of_waiting {c : Chan} (h : c.ldPending = [] ∨ c.idle = false) :
    c.fslChanXferLdQueue = c := by
  unfold fslChanXferLdQueue
  by_cases hp : c.ldPending = []
  · rw [if_pos hp]
  · rw [if_neg hp, if_pos (h.resolve_left hp)]

/-- What the engine starts: the direct transfer its registers describe when the mode word selects
    direct mode, otherwise the chain of pending descriptors. -/
def engineTransfers (c : Chan) : List Transfer :=
  if directBit c.regs.mr then [⟨c.regs.sar, c.regs.dar, c.startBcr⟩] else c.ldPending.map (·.hw)

/-- `c'` is `c` after the engine set off the pending descriptors. -/
structure Fires (c c' : Chan) : Prop where
  feature : c'.feature = c.feature
  sar : c'.regs.sar = c.regs.sar
  dar : c'.regs.dar = c.regs.dar
  bcr : c'.regs.bcr = c.startBcr
  direct : directBit c'.regs.mr = directBit c.regs.mr
  idle : c'.idle = false
  ldPending : c'.ldPending = []
  ldRunning : c'.ldRunning = c.ldRunning ++ c.ldPending
  cookie : c'.cookie = c.cookie
  completedCookie : c'.completedCookie = c.completedCookie
  /-- Under external start no transfer starts. -/
  extStart : c.feature.startExt = true →
    c'.started = c.started ∧ (csBit c.regs.mr = false → csBit c'.regs.mr = false)
  /-- Otherwise one starts, unless the start bit of an 83xx channel was left set. -/
  start : c.feature.startExt = false → c.feature.ip = .ip85xx ∨ csBit c.regs.mr = false →
    c'.started = c.started ++ [c.engineTransfers] ∧ csBit c'.regs.mr = true

/-- An idle channel with pending descriptors fires. -/
theorem fires_of_ready {c : Chan} (hp : c.ldPending ≠ []) (hi : c.idle = true) :
    Fires c c.fslChanXferLdQueue := by
  unfold fslChanXferLdQueue
  rw [if_neg hp, if_neg (by rw [hi]; decide)]
  obtain ⟨halted, hclear, hclear2, hclear0⟩ := c.splice.clearStart_eq
  obtain ⟨mode, hstart, hstart0, hstart2⟩ :=
    (c.splice.clearStart.setCdar (c.ldPending.map (·.hw))).dmaStart_eq
  -- the channel that the last mode register write finds: its start bit is clear on the 85xx
  rw [hclear] at hstart hstart0 hstart2
  dsimp only
  rw [hclear, hstart]
  have hmode : csBit mode = (!c.feature.startExt || csBit halted) := hstart0
  refine ⟨rfl, rfl, rfl, rfl, hstart2.trans hclear2, rfl, rfl, rfl, rfl, rfl, ?_, ?_⟩
  · -- the mode word of the start has the start bit only if it was left set
    intro hext
    rw [hext, Bool.not_true, Bool.false_or] at hmode
    constructor
    · by_cases hcs : csBit halted = true
      · exact writeMr_started_of_running _ _ hcs
      · exact writeMr_started_of_halt _ (by simpa [hmode] using hcs)
    · intro h
      exact hmode.trans (hclear0 (Or.inr h))
  · intro hext hready
    rw [hext, Bool.not_false, Bool.true_or] at hmode
    refine ⟨?_, hmode⟩
    refine (writeMr_started_of_start _ hmode (hclear0 hready)).trans ?_
    rw [ChanRegs.transfers, hstart2, engineTransfers, ← show _ = directBit c.regs.mr from hclear2]
    rfl

/-- The tasklet with nothing pending only retires what was running. -/
theorem dmaDoTasklet_of_empty {c : Chan} (h : c.ldPending = []) : c.dmaDoTasklet = c.retire :=
  fslChanXferLdQueue_of_waiting (Or.inl h)

/-- The tasklet sets off whatever is pending: it has just marked the channel idle. -/
theorem fires_of_pending {c : Chan} (h : c.ldPending ≠ []) : Fires c.retire c.dmaDoTasklet :=
  fires_of_ready h rfl

/-! ### Channels that the engine leaves alone -/

/-- `c'` differs from `c` in its queues at most: its registers hold what was programmed, nothing
    was started, and a clear start bit is still clear. -/
structure Keeps (c c' : Chan) : Prop where
  feature : c'.feature = c.feature
  sar : c'.regs.sar = c.regs.sar
  dar : c'.regs.dar = c.regs.dar
  bcr : c'.regs.bcr = c.regs.bcr
  direct : directBit c'.regs.mr = directBit c.regs.mr
  started : c'.started = c.started
  halted : csBit c.regs.mr = false → csBit c'.regs.mr = false

theorem Keeps.refl (c : Chan) : Keeps c c :=
  ⟨rfl, rfl, rfl, rfl, rfl, rfl, id⟩

theorem Keeps.trans {c₁ c₂ c₃ : Chan} (h : Keeps c₁ c₂) (h' : Keeps c₂ c₃) : Keeps c₁ c₃ :=
  ⟨h'.feature.trans h.feature, h'.sar.trans h.sar, h'.dar.trans h.dar, h'.bcr.trans h.bcr,
    h'.direct.trans h.direct, h'.started.trans h.started, fun hc => h'.halted (h.halted hc)⟩

/-- The first half of the tasklet touches the queues only. -/
theorem keeps_retire (c : Chan) : Keeps c c.retire :=
  ⟨rfl, rfl, rfl, rfl, rfl, rfl, id⟩

/-- Nothing is pending, or external start and no external pause are on. -/
def Inert (c : Chan) : Prop :=
  c.ldPending = [] ∨ (c.feature.startExt = true ∧ c.feature.pauseExt = false)

/-- The engine keeps an inert channel as it is. -/
theorem Inert.keeps_xfer {c : Chan} (h : Inert c) : Keeps c c.fslChanXferLdQueue := by
  by_cases hw : c.ldPending = [] ∨ c.idle = false
  · rw [fslChanXferLdQueue_of_waiting hw]
    exact Keeps.refl c
  · rw [not_or, Bool.not_eq_false] at hw
    have hf := fires_of_ready hw.1 hw.2
    obtain ⟨hext, hpause⟩ := h.resolve_left hw.1
    have hbcr : c.startBcr = c.regs.bcr := by
      rw [startBcr, hpause]
      rfl
    exact ⟨hf.feature, hf.sar, hf.dar, hf.bcr.trans hbcr, hf.direct, (hf.extStart hext).1,
      (hf.extStart hext).2⟩

/-- The engine never changes what kind of channel it runs on. -/
theorem xfer_feature (c : Chan) : c.fslChanXferLdQueue.feature = c.feature := by
  by_cases hw : c.ldPending = [] ∨ c.idle = false
  · rw [fslChanXferLdQueue_of_waiting hw]
  · rw [not_or, Bool.not_eq_false] at hw
    exact (fires_of_ready hw.1 hw.2).feature

theorem tasklet_feature (c : Chan) : c.dmaDoTasklet.feature = c.feature :=
  c.retire.xfer_feature

/-- After a run of the engine nothing is pending, or the channel is busy. -/
theorem ldPending_xfer (c : Chan) :
    c.fslChanXferLdQueue.ldPending = [] ∨ c.fslChanXferLdQueue = c := by
  by_cases hw : c.ldPending = [] ∨ c.idle = false
  · exact Or.inr (fslChanXferLdQueue_of_waiting hw)
  · rw [not_or, Bool.not_eq_false] at hw
    exact Or.inl (fires_of_ready hw.1 hw.2).ldPending

theorem Inert.xfer {c : Chan} (h : Inert c) : Inert c.fslChanXferLdQueue := by
  rcases c.ldPending_xfer with hp | heq
  · exact Or.inl hp
  · rw [heq]
    exact h

/-- So does the tasklet. -/
theorem Inert.keeps_tasklet {c : Chan} (h : Inert c) : Keeps c c.dmaDoTasklet :=
  c.keeps_retire.trans (Inert.keeps_xfer (c := c.retire) h)

theorem Inert.tasklet {c : Chan} (h : Inert c) : Inert c.dmaDoTasklet :=
  Inert.xfer (c := c.retire) h

end Chan

/-! ### Descriptors of one copy -/

/-- A length that one descriptor can carry makes one descriptor. -/
theorem fslDmaPrepMemcpy_eq (f : Feature) (alloc : ℕ → Bool) (dst src : Word) {len : Word}
    (h0 : len ≠ 0) (hmax : len ≤ fslDmaBcrMaxCnt) :
    fslDmaPrepMemcpy f alloc dst src len
      = if alloc 0 then some [⟨⟨f.descWord src, f.descWord dst, len⟩, busyCookie, none⟩]
        else none := by
  obtain ⟨n, hn⟩ : ∃ n, len.toNat = n + 1 := by
    refine Nat.exists_eq_succ_of_ne_zero fun h => h0 ?_
    exact BitVec.eq_of_toNat_eq h
  rw [fslDmaPrepMemcpy, if_neg h0, hn, fslDmaPrepMemcpyLoop]
  by_cases ha : alloc 0 = true <;> simp [ha, hmax]

namespace Chan

/-- Submitting one descriptor gives it the channel's next cookie and queues it last. -/
theorem fslDmaTxSubmit_one (c : Chan) (desc : Desc) :
    c.fslDmaTxSubmit [desc] =
      ({ c with
          cookie := dmaCookieAssign c.cookie
          ldPending := c.ldPending ++ [{ desc with cookie := dmaCookieAssign c.cookie }] },
        dmaCookieAssign c.cookie) := rfl

/-- A cookie is positive. -/
theorem dmaCookieAssign_pos (cookie : Word) : (dmaCookieAssign cookie).slt 0 = false := by
  unfold dmaCookieAssign
  by_cases h : (cookie + 1).slt 1
  · rw [if_pos h]
    decide
  · rw [if_neg h]
    simp only [BitVec.slt, decide_eq_true_eq, not_lt, decide_eq_false_iff_not] at h ⊢
    exact (by decide : (0#32).toInt ≤ (1#32).toInt).trans h

/-- The last cookie given out is complete once it is the last one completed. -/
theorem fslTxStatus_of_last {c : Chan} {cookie : Word} (h : c.cookie = cookie)
    (h' : c.completedCookie = cookie) : c.fslTxStatus cookie = true := by
  simp [fslTxStatus, h, h', BitVec.sle]

end Chan

end Vpx3.Dma
