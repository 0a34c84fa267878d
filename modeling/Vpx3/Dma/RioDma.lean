import Mathlib.Logic.Function.Basic
import Vpx3.Dma.Words

namespace Vpx3.Dma

/-!
# RapidIO DMA — `fsl_rio_dma_nread` and `fsl_rio_dma_nwrite`

Both calls program SAR, DAR and BCR of `griodma_chan` directly and also submit a link
descriptor on the first channel of `rio_fdev`:

* `Run` — the channels of the device and the completions signalled while a call runs;
* `CallEnv` — what the call does not decide: which allocations succeed, the status
  register, and the tasklets that run at each point where the call can be interrupted;
* `programDirect`, `trackCopy`, `startDirect`, `awaitCopy` — the four parts of a call;
* `fslRioDmaNread`, `fslRioDmaNwrite` — the calls, which put the parts together in a
  different order.

A device with `k + 1` probed channels has `griodma_chan` pointing to the last of them
(`fsl_dma_chan_probe` sets it for each channel in turn) and the head of its channel list
at the first.  No other process uses the channels while a call runs.
-/

/-- A point of a call where tasklets can run. -/
inductive Point
  | entry | polled | resources | mode | sar | dar | bcr | prepped | submitted | issued | started
  | waiting
deriving DecidableEq, Repr

/-- Address translations of the platform. -/
structure Platform where
  virtToPhys : Word → Word
  dmaMapSingle : Word → Word

/-- What happens around one call on a device with `k + 1` channels. -/
structure CallEnv (k : ℕ) where
  /-- The tasklets that run at each point, by channel. -/
  soft : Point → List (Fin (k + 1))
  /-- The values that the status register polls read. -/
  sr : ℕ → Word
  /-- `dma_pool_create` succeeds. -/
  poolCreated : Bool
  /-- The calls of `fsl_dma_alloc_descriptor` that succeed. -/
  descAlloc : ℕ → Bool
  /-- The start bit reads back as written. -/
  startSticks : Bool
  /-- Address of the completion on the call's stack. -/
  stDmacmp : ℕ

/-- The channels of the device, and the completions signalled so far. -/
structure Run (k : ℕ) where
  chan : Fin (k + 1) → Chan
  completions : List ℕ

/-- `griodma_chan`: the channel probed last. -/
def griodmaChan (k : ℕ) : Fin (k + 1) := Fin.last k

/-- `container_of(dma->channels.next, ...)`: the channel probed first. -/
def firstChan (k : ℕ) : Fin (k + 1) := 0

/-! ### Steps of a call -/

namespace Run

variable {k : ℕ}

/-- The state at the start of a call, when nothing has been started yet. -/
def begin (chan : Fin (k + 1) → Chan) : Run k where
  chan i := { chan i with started := [] }
  completions := []

/-- A step on one channel. -/
def onChan (r : Run k) (i : Fin (k + 1)) (f : Chan → Chan) : Run k :=
  { r with chan := Function.update r.chan i (f (r.chan i)) }

/-- One tasklet: the engine, then the callbacks. -/
def tasklet (r : Run k) (i : Fin (k + 1)) : Run k :=
  { (r.onChan i (·.dmaDoTasklet)) with completions := r.completions ++ (r.chan i).callbacks }

/-- The tasklets that run at one point. -/
def softirq (r : Run k) (tasklets : List (Fin (k + 1))) : Run k :=
  tasklets.foldl tasklet r

/-- `init_completion(&stDmacmp)`. -/
def initCompletion (r : Run k) (cmp : ℕ) : Run k :=
  { r with completions := r.completions.filter (· ≠ cmp) }

/-- `fsl_dma_free_chan_resources` on the first channel. -/
def freeResources (r : Run k) : Run k :=
  r.onChan (firstChan k) (·.fslDmaFreeChanResources)

end Run

namespace Chan

/-- `out_be32(&chan->regs->mr, v)`. -/
def outBe32Mr (v : Word) (c : Chan) : Chan := c.writeMr (c.feature.be32 v)

/-- `in_be32(&chan->regs->mr)`. -/
def inBe32Mr (c : Chan) : Word := c.feature.be32 c.regs.mr

/-- `out_be64(&chan->regs->sar, v)`. -/
def outBe64Sar (v : DWord) (c : Chan) : Chan :=
  { c with regs := { c.regs with sar := c.feature.be64 v } }

/-- `out_be64(&chan->regs->dar, v)`. -/
def outBe64Dar (v : DWord) (c : Chan) : Chan :=
  { c with regs := { c.regs with dar := c.feature.be64 v } }

/-- `out_be32(&chan->regs->bcr, v)`. -/
def outBe32Bcr (v : Word) (c : Chan) : Chan := c.setBcr (c.feature.be32 v)

end Chan

variable {k : ℕ}

/-- `FSL_DMA_MR_BWC | DMA8641_MR_CTM_DIRECT | FSL_DMA_MR_EOSIE`. -/
def directMode : Word := 0x08000000 ||| 0x1 <<< 2 ||| 0x200

/-- The busy poll: up to `0x100` reads of the status register until `DMA8641_SR_CB_BUSY` is
    clear. -/
def pollIdle (sr : ℕ → Word) : ℕ → ℕ → Bool
  | 0, _ => false
  | timeOut + 1, n => if sr n &&& 0x4 = 0 then true else pollIdle sr timeOut (n + 1)

/-- A call's outcome so far: an early exit with its return value, or the state to go on with. -/
abbrev Step (k : ℕ) (α : Type) := Except (ℤ × Run k) α

/-- From the argument checks up to the channel resources. -/
def openChan (env : CallEnv k) (r : Run k) (loalAddr bytecnt : Word) : Step k (Run k) :=
  if bytecnt = 0 ∨ 64 * 1024 * 1024 ≤ bytecnt.toNat then .error (-1, r)
  else if loalAddr = 0 then .error (-1, r)
  else
    let r := r.softirq (env.soft .entry)
    let r := r.onChan (griodmaChan k) (·.outBe32Mr 0)
    -- the call goes on whether or not the poll found the channel idle
    let _idle := pollIdle env.sr 0x100 0
    let r := r.softirq (env.soft .polled)
    match (r.chan (firstChan k)).fslDmaAllocChanResources env.poolCreated with
    | none => .error (-19, r)
    | some c => .ok ((r.onChan (firstChan k) fun _ => c).softirq (env.soft .resources))

/-- Mode, source, destination and byte count of the direct transfer, on `griodma_chan`. -/
def programDirect (env : CallEnv k) (sar dar : DWord) (bytecnt : Word) (r : Run k) : Run k :=
  let r := (r.onChan (griodmaChan k) (·.outBe32Mr directMode)).softirq (env.soft .mode)
  let r := (r.onChan (griodmaChan k) (·.outBe64Sar sar)).softirq (env.soft .sar)
  let r := (r.onChan (griodmaChan k) (·.outBe64Dar dar)).softirq (env.soft .dar)
  (r.onChan (griodmaChan k) (·.outBe32Bcr bytecnt)).softirq (env.soft .bcr)

/-- `tx->callback_param = &stDmacmp`, on the first descriptor of the transaction. -/
def setCallback (cmp : ℕ) : List Desc → List Desc
  | [] => []
  | desc :: rest => { desc with callbackParam := some cmp } :: rest

/-- Preparing, submitting and issuing the descriptor that the call waits for, on the first
    channel.  Gives back its cookie. -/
def trackCopy (env : CallEnv k) (dst src len : Word) (r : Run k) : Step k (Run k × Word) :=
  match fslDmaPrepMemcpy (r.chan (firstChan k)).feature env.descAlloc dst src len with
  | none => .error (-19, r.freeResources)
  | some tx =>
    let r := r.softirq (env.soft .prepped)
    let r := r.initCompletion env.stDmacmp
    let (c, cookie) := (r.chan (firstChan k)).fslDmaTxSubmit (setCallback env.stDmacmp tx)
    let r := (r.onChan (firstChan k) fun _ => c).softirq (env.soft .submitted)
    if cookie.slt 0 then .error (-19, r.freeResources)
    else
      .ok ((r.onChan (firstChan k) (·.fslChanXferLdQueue)).softirq (env.soft .issued), cookie)

/-- Setting the start bit of `griodma_chan` by a write of `mode`, and reading it back. -/
def startDirect (env : CallEnv k) (mode : Word) (r : Run k) : Step k (Run k) :=
  let r := (r.onChan (griodmaChan k) (·.outBe32Mr mode)).softirq (env.soft .started)
  let mr := (r.chan (griodmaChan k)).inBe32Mr
  let u32iVal := if env.startSticks then mr else mr &&& ~~~fslDmaMrCs
  if u32iVal &&& fslDmaMrCs ≠ fslDmaMrCs then .error (-1, r) else .ok r

/-- Waiting for the completion, and the check of the descriptor's status. -/
def awaitCopy (env : CallEnv k) (cookie : Word) (r : Run k) : Step k (Run k) :=
  let r := r.softirq (env.soft .waiting)
  if env.stDmacmp ∉ r.completions ∨ (r.chan (firstChan k)).fslTxStatus cookie = false then
    .error (-19, r.freeResources)
  else .ok r.freeResources

/-- The return value and the final state of a call. -/
def Step.outcome : Step k (Run k) → ℤ × Run k
  | .ok r => (0, r)
  | .error e => e

/-- `fsl_rio_dma_nread`. -/
def fslRioDmaNread (p : Platform) (env : CallEnv k) (r : Run k)
    (destid : Byte) (loalAddr rioAddr bytecnt : Word) : ℤ × Run k :=
  Step.outcome do
    let r ← openChan env r loalAddr bytecnt
    let r := programDirect env (rapidioSrcWord destid rioAddr) (localWord (p.virtToPhys loalAddr))
      bytecnt r
    let (r, cookie) ← trackCopy env (p.dmaMapSingle loalAddr) rioAddr bytecnt r
    let r ← startDirect env ((r.chan (griodmaChan k)).inBe32Mr ||| fslDmaMrCs) r
    awaitCopy env cookie r

/-- `fsl_rio_dma_nwrite`, which starts the direct transfer before it prepares the descriptor. -/
def fslRioDmaNwrite (p : Platform) (env : CallEnv k) (r : Run k)
    (destid : Byte) (loalAddr rioAddr bytecnt : Word) : ℤ × Run k :=
  Step.outcome do
    let r ← openChan env r loalAddr bytecnt
    let r := programDirect env (localWord (p.virtToPhys loalAddr)) (rapidioDstWord destid rioAddr)
      bytecnt r
    let r ← startDirect env (directMode ||| fslDmaMrCs) r
    let (r, cookie) ← trackCopy env rioAddr (p.dmaMapSingle loalAddr) bytecnt r
    awaitCopy env cookie r

end Vpx3.Dma
