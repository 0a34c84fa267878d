import Vpx3.Dma.Tracked

namespace Vpx3.Dma

/-!
# RapidIO DMA — which transfers a call starts

A call should start one transfer, the one its arguments describe.  It programs the last channel
directly and runs the memcpy engine on the first, and the engine starts a transfer of its own:

* `StartsExactly` — one transfer is started on one channel, and it is the right one;
* `ReadReady`, `WriteReady` — the devices on which every read (every write) that returns 0 does so;
* `startsExactly_iff` — on all other devices some run starts something else.

On a device with one channel both starts go to the same registers, and the engine's start is the
direct transfer itself when it comes first and finds the registers programmed.
-/

variable {k : ℕ}

/-! ### Runs of a device with one channel -/

/-- The only channel is both `griodma_chan` and the first. -/
theorem onChan_griodma (r : Run 0) (f : Chan → Chan) :
    (r.onChan (griodmaChan 0) f).chan 0 = f (r.chan 0) :=
  r.onChan_same 0 f

/-- The registers of a channel of kind `f` describe `t` in direct mode; nothing was started and the
    start bit is clear. -/
structure Programmed (f : Feature) (t : Transfer) (c : Chan) : Prop where
  feature : c.feature = f
  started : c.started = []
  halted : csBit c.regs.mr = false
  direct : directBit c.regs.mr = true
  sar : c.regs.sar = t.src
  dar : c.regs.dar = t.dst
  bcr : c.regs.bcr = t.count

theorem Programmed.keeps {f : Feature} {t : Transfer} {c c' : Chan} (h : Programmed f t c)
    (hk : Chan.Keeps c c') : Programmed f t c' :=
  ⟨hk.feature.trans h.feature, hk.started.trans h.started, hk.halted h.halted,
    hk.direct.trans h.direct, hk.sar.trans h.sar, hk.dar.trans h.dar, hk.bcr.trans h.bcr⟩

variable {f : Feature} {t : Transfer}

/-- On a big-endian channel `out_be32` stores the word as it is. -/
theorem Feature.be32_of_85xx {f : Feature} (h : f.ip = .ip85xx) (v : Word) : f.be32 v = v :=
  if_pos h

/-- Zero is zero in either byte order. -/
theorem Feature.be32_zero (f : Feature) : f.be32 0 = 0 := by
  unfold Feature.be32
  split <;> decide

theorem Feature.be64_of_85xx {f : Feature} (h : f.ip = .ip85xx) (v : DWord) : f.be64 v = v :=
  if_pos h

/-- `I` speaks of the queues and the kind of a channel, not of its registers. -/
def QueueOnly (I : Chan → Prop) : Prop :=
  ∀ c regs started pool, I c → I { c with regs := regs, started := started, descPool := pool }

/-- Nothing disturbs a channel with `I` at a point: no tasklet runs there, or tasklets keep the
    registers and `I`. -/
def KeepsAt (env : CallEnv k) (pt : Point) (I : Chan → Prop) : Prop :=
  env.soft pt = [] ∨ ∀ c, I c → Chan.Keeps c c.dmaDoTasklet ∧ I c.dmaDoTasklet

theorem KeepsAt.softirq {env : CallEnv k} {pt : Point} {I : Chan → Prop} (h : KeepsAt env pt I)
    (r : Run k) (i : Fin (k + 1)) (hI : I (r.chan i)) :
    Chan.Keeps (r.chan i) ((r.softirq (env.soft pt)).chan i) ∧
      I ((r.softirq (env.soft pt)).chan i) := by
  rcases h with h | h
  · rw [h]
    exact ⟨Chan.Keeps.refl _, hI⟩
  · refine Run.softirq_preserves (P := fun c => Chan.Keeps (r.chan i) c ∧ I c) ?_ _
      ⟨Chan.Keeps.refl _, hI⟩
    exact fun c hc => ⟨hc.1.trans (h c hc.2).1, (h c hc.2).2⟩

variable {I : Chan → Prop} {env : CallEnv 0}

/-- Opening an undisturbed channel starts nothing. -/
theorem openedRun_keeps (env : CallEnv 0) (r : Run 0) (hI : QueueOnly I)
    (hpolled : KeepsAt env .polled I) (hresources : KeepsAt env .resources I) {c : Chan}
    (hc : (r.softirq (env.soft .entry)).chan 0 = c) (hf : c.feature = f) (h : I c) :
    ((openedRun env r).chan 0).feature = f ∧ ((openedRun env r).chan 0).started = c.started ∧
      I ((openedRun env r).chan 0) := by
  unfold openedRun
  dsimp only
  generalize hr1 : (r.softirq (env.soft .entry)).onChan (griodmaChan 0) (·.outBe32Mr 0) = r1
  have h1 : r1.chan 0 = c.outBe32Mr 0 := by
    rw [← hr1, onChan_griodma, hc]
  have hs1 : (r1.chan 0).started = c.started := by
    rw [h1, Chan.outBe32Mr, Feature.be32_zero]
    exact c.writeMr_started_of_halt rfl
  obtain ⟨k1, i1⟩ := hpolled.softirq r1 0 (by rw [h1]; exact hI _ _ _ _ h)
  generalize hr2 : (Run.onChan _ (firstChan 0) fun c => { c with descPool := true }) = r2
  have h2 : r2.chan 0 = { (r1.softirq (env.soft .polled)).chan 0 with descPool := true } := by
    rw [← hr2]
    exact Run.onChan_same _ 0 _
  obtain ⟨k2, i2⟩ := hresources.softirq r2 0 (by rw [h2]; exact hI _ _ _ _ i1)
  refine ⟨k2.feature.trans ?_, k2.started.trans ?_, i2⟩
  · rw [h2]
    exact k1.feature.trans (by rw [h1]; exact hf)
  · rw [h2]
    exact k1.started.trans hs1

/-- A write to `griodma_chan` and the tasklets at the point after it. -/
theorem KeepsAt.write {pt : Point} (h : KeepsAt env pt I) (r : Run 0) (w : Chan → Chan)
    (hI : I (w (r.chan 0))) :
    Chan.Keeps (w (r.chan 0)) (((r.onChan (griodmaChan 0) w).softirq (env.soft pt)).chan 0) ∧
      I (((r.onChan (griodmaChan 0) w).softirq (env.soft pt)).chan 0) := by
  have hw := onChan_griodma r w
  rw [← hw] at hI ⊢
  exact h.softirq _ 0 hI

/-- Programming an undisturbed big-endian channel; tasklets may still run after the last write. -/
theorem programDirect_programmed (hip : f.ip = .ip85xx) (hI : QueueOnly I)
    (hmode : KeepsAt env .mode I) (hsar : KeepsAt env .sar I) (hdar : KeepsAt env .dar I)
    {r : Run 0} (hf : (r.chan 0).feature = f) (hs : (r.chan 0).started = []) (h : I (r.chan 0)) :
    ∃ r' : Run 0, programDirect env t.src t.dst t.count r = r'.softirq (env.soft .bcr) ∧
      Programmed f t (r'.chan 0) ∧ I (r'.chan 0) := by
  refine ⟨_, rfl, ?_⟩
  rw [onChan_griodma]
  -- the mode word, then the two addresses, then the count
  obtain ⟨k1, i1⟩ := hmode.write r (·.outBe32Mr directMode) (hI _ _ _ _ h)
  generalize (r.onChan (griodmaChan 0) (·.outBe32Mr directMode)).softirq (env.soft .mode) = r1
    at k1 i1 ⊢
  obtain ⟨k2, i2⟩ := hsar.write r1 (·.outBe64Sar t.src) (hI _ _ _ _ i1)
  generalize (r1.onChan (griodmaChan 0) (·.outBe64Sar t.src)).softirq (env.soft .sar) = r2
    at k2 i2 ⊢
  obtain ⟨k3, i3⟩ := hdar.write r2 (·.outBe64Dar t.dst) (hI _ _ _ _ i2)
  generalize (r2.onChan (griodmaChan 0) (·.outBe64Dar t.dst)).softirq (env.soft .dar) = r3
    at k3 i3 ⊢
  have hmr : ((r.chan 0).outBe32Mr directMode).regs.mr = directMode := by
    rw [Chan.outBe32Mr, hf, Feature.be32_of_85xx hip]
    rfl
  have hstart : ((r.chan 0).outBe32Mr directMode).started = [] := by
    rw [Chan.outBe32Mr, hf, Feature.be32_of_85xx hip]
    exact ((r.chan 0).writeMr_started_of_halt (by decide)).trans hs
  -- each part of the programming is kept by the tasklets behind it
  have hf1 : (r1.chan 0).feature = f := k1.feature.trans hf
  have hf2 : (r2.chan 0).feature = f := k2.feature.trans hf1
  have hf3 : (r3.chan 0).feature = f := k3.feature.trans hf2
  have hsar2 : (r2.chan 0).regs.sar = t.src := by
    rw [k2.sar, Chan.outBe64Sar, hf1, Feature.be64_of_85xx hip]
  have hdar3 : (r3.chan 0).regs.dar = t.dst := by
    rw [k3.dar, Chan.outBe64Dar, hf2, Feature.be64_of_85xx hip]
  refine ⟨⟨hf3, ?_, ?_, ?_, k3.sar.trans hsar2, hdar3, ?_⟩, hI _ _ _ _ i3⟩
  · exact k3.started.trans (k2.started.trans (k1.started.trans hstart))
  · exact k3.halted (k2.halted (k1.halted (by rw [hmr]; decide)))
  · exact k3.direct.trans (k2.direct.trans (k1.direct.trans (by rw [hmr]; decide)))
  · rw [Chan.outBe32Bcr, hf3, Feature.be32_of_85xx hip]
    rfl

/-! ### Setting the start bit -/

/-- Exactly `t` was started, and nothing will be started any more: external start is on, or nothing
    is pending. -/
structure Settled (t : Transfer) (c : Chan) : Prop where
  one : c.started = [[t]]
  quiet : c.feature.startExt = true ∨ c.ldPending = []

theorem Settled.tasklet {c : Chan} (h : Settled t c) : Settled t c.dmaDoTasklet := by
  by_cases hp : c.ldPending = []
  · rw [Chan.dmaDoTasklet_of_empty hp]
    exact ⟨h.one, Or.inr hp⟩
  · -- something is pending, so external start is on
    have hf := Chan.fires_of_pending hp
    have hext : c.feature.startExt = true := h.quiet.resolve_right hp
    exact ⟨((hf.extStart hext).1).trans h.one, Or.inr hf.ldPending⟩

theorem Settled.xfer {c : Chan} (h : Settled t c) : Settled t c.fslChanXferLdQueue := by
  by_cases hw : c.ldPending = [] ∨ c.idle = false
  · rw [Chan.fslChanXferLdQueue_of_waiting hw]
    exact h
  · rw [not_or, Bool.not_eq_false] at hw
    have hf := Chan.fires_of_ready hw.1 hw.2
    have hext : c.feature.startExt = true := h.quiet.resolve_right hw.1
    exact ⟨((hf.extStart hext).1).trans h.one, Or.inr hf.ldPending⟩

/-- The start bit of a programmed big-endian channel starts the direct transfer. -/
theorem Programmed.start (hip : f.ip = .ip85xx) {c : Chan} (h : Programmed f t c) {mode : Word}
    (h0 : csBit mode = true) (h2 : directBit mode = true) : (c.outBe32Mr mode).started = [[t]] := by
  rw [Chan.outBe32Mr, h.feature, Feature.be32_of_85xx hip,
    c.writeMr_started_of_start h0 h.halted, h.started, ChanRegs.transfers, if_pos h2, h.sar, h.dar,
    h.bcr]
  rfl

/-- The engine set off the direct transfer `t`: the start bit is set and nothing is pending. -/
structure Fired (f : Feature) (t : Transfer) (c : Chan) : Prop where
  feature : c.feature = f
  started : c.started = [[t]]
  running : csBit c.regs.mr = true
  ldPending : c.ldPending = []

theorem Fired.xfer {c : Chan} (h : Fired f t c) : Fired f t c.fslChanXferLdQueue := by
  rw [Chan.fslChanXferLdQueue_of_waiting (Or.inl h.ldPending)]
  exact h

theorem Fired.tasklet {c : Chan} (h : Fired f t c) : Fired f t c.dmaDoTasklet := by
  rw [Chan.dmaDoTasklet_of_empty h.ldPending]
  exact ⟨h.feature, h.started, h.running, h.ldPending⟩

/-- Setting the start bit once more starts nothing. -/
theorem Fired.start (hip : f.ip = .ip85xx) {c : Chan} (h : Fired f t c) (mode : Word) :
    Settled t (c.outBe32Mr mode) := by
  refine ⟨?_, Or.inr h.ldPending⟩
  rw [Chan.outBe32Mr, h.feature, Feature.be32_of_85xx hip]
  exact (c.writeMr_started_of_running _ h.running).trans h.started

/-- The engine on a programmed channel without external control starts what its registers
    describe, with the byte count that `dma_start` leaves. -/
theorem Programmed.fires (hip : f.ip = .ip85xx) (hext : f.startExt = false) {c c' : Chan}
    (h : Programmed f t c) (hf : Chan.Fires c c') :
    Fired f { t with count := if f.pauseExt then 0 else t.count } c' := by
  have hfire := hf.start (by rw [h.feature, hext]) (Or.inl (by rw [h.feature, hip]))
  refine ⟨hf.feature.trans h.feature, ?_, hfire.2, hf.ldPending⟩
  rw [hfire.1, h.started, Chan.engineTransfers, h.direct, if_pos rfl, h.sar, h.dar, Chan.startBcr,
    h.feature, h.bcr]
  rfl

/-- Under external start it starts nothing, but the byte count is written all the same. -/
theorem Programmed.fires_ext (hext : f.startExt = true) {c c' : Chan}
    (h : Programmed f t c) (hf : Chan.Fires c c') :
    Programmed f { t with count := if f.pauseExt then 0 else t.count } c' := by
  have hkeep := hf.extStart (by rw [h.feature, hext])
  refine ⟨hf.feature.trans h.feature, hkeep.1.trans h.started, hkeep.2 h.halted,
    hf.direct.trans h.direct, hf.sar.trans h.sar, hf.dar.trans h.dar, hf.bcr.trans ?_⟩
  rw [Chan.startBcr, h.feature, h.bcr]

/-! ### The descriptor's part -/

/-- Queueing a descriptor leaves the registers alone. -/
theorem keeps_queueDesc (desc : Desc) (c : Chan) : Chan.Keeps c (c.queueDesc desc) :=
  ⟨rfl, rfl, rfl, rfl, rfl, rfl, id⟩

theorem queueDesc_ne_nil (desc : Desc) (c : Chan) : (c.queueDesc desc).ldPending ≠ [] :=
  List.append_ne_nil_of_right_ne_nil _ (List.cons_ne_nil _ _)

/-- The tasklets at a point take the channel from `P` to `P'`. -/
def SoftStep (env : CallEnv 0) (pt : Point) (P P' : Chan → Prop) : Prop :=
  ∀ r : Run 0, P (r.chan 0) → P' ((r.softirq (env.soft pt)).chan 0)

theorem softStep_stable {pt : Point} {P : Chan → Prop} (h : ∀ c, P c → P c.dmaDoTasklet) :
    SoftStep env pt P P :=
  fun _ hr => Run.softirq_preserves h _ hr

theorem softStep_none {pt : Point} (h : env.soft pt = []) (P : Chan → Prop) :
    SoftStep env pt P P := by
  intro r hr
  rw [h]
  exact hr

theorem softStep_one {pt : Point} (h : env.soft pt = [0]) {P P' : Chan → Prop}
    (hP : ∀ c, P c → P' c.dmaDoTasklet) : SoftStep env pt P P' := by
  intro r hr
  rw [h]
  show P' ((r.tasklet 0).chan 0)
  rw [Run.tasklet_same]
  exact hP _ hr

/-- What holds of the channel after submission and issue, from step facts about the tasklets, the
    descriptor and the engine. -/
theorem trackedRun_chan {P Q S R T : Chan → Prop} (env : CallEnv 0) (dst src len : Word)
    {r : Run 0} (hprepped : SoftStep env .prepped P P)
    (hqueue : ∀ c, P c →
      Q (c.queueDesc (copyDesc (r.chan 0).feature env.stDmacmp dst src len)))
    (hsubmitted : SoftStep env .submitted Q S) (hissue : ∀ c, S c → R c.fslChanXferLdQueue)
    (hissued : SoftStep env .issued R T) (h : P (r.chan 0)) :
    T ((trackedRun env dst src len r).chan 0) := by
  apply hissued
  rw [show firstChan 0 = 0 from rfl, Run.onChan_same]
  apply hissue
  apply hsubmitted
  rw [Run.onChan_same]
  exact hqueue _ (hprepped _ h)

/-! ### Calls that start what they were asked to -/

/-- After the start bit was set the channel stays settled. -/
theorem Settled.started {r : Run 0} {mode : Word} (h : Settled t ((r.chan 0).outBe32Mr mode)) :
    Settled t ((startedRun env mode r).chan 0) := by
  apply Run.softirq_preserves (P := Settled t) (fun c h => h.tasklet)
  rw [onChan_griodma]
  exact h

/-- It is settled when the call returns. -/
theorem Settled.awaited {r : Run 0} (h : Settled t (r.chan 0)) :
    ((awaitedRun env r).chan 0).started = [[t]] := by
  have hwait : Settled t ((r.softirq (env.soft .waiting)).chan 0) :=
    Run.softirq_preserves (P := Settled t) (fun c h => h.tasklet) _ h
  unfold awaitedRun Run.freeResources
  rw [show firstChan 0 = 0 from rfl, Run.onChan_same]
  exact hwait.one

/-- Tasklets keep an inert channel. -/
theorem keepsAt_inert (env : CallEnv 0) (pt : Point) : KeepsAt env pt Chan.Inert :=
  Or.inr fun _ h => ⟨h.keeps_tasklet, h.tasklet⟩

theorem queueOnly_inert : QueueOnly Chan.Inert :=
  fun _ _ _ _ h => h

/-- An idle channel with nothing pending. -/
def AtRest (c : Chan) : Prop := c.ldPending = [] ∧ c.idle = true

theorem AtRest.tasklet {c : Chan} (h : AtRest c) : AtRest c.dmaDoTasklet := by
  rw [Chan.dmaDoTasklet_of_empty h.1]
  exact ⟨h.1, rfl⟩

theorem keepsAt_atRest (env : CallEnv 0) (pt : Point) : KeepsAt env pt AtRest :=
  Or.inr fun _ h => ⟨Chan.Inert.keeps_tasklet (Or.inl h.1), h.tasklet⟩

theorem queueOnly_atRest : QueueOnly AtRest :=
  fun _ _ _ _ h => h

/-- The points of a call up to the direct transfer's byte count. -/
def Point.early : List Point := [.entry, .polled, .resources, .mode, .sar, .dar]

/-- From the state before a call to the programmed channel, when nothing disturbs `I`. -/
theorem programmed_of_keeps (hip : f.ip = .ip85xx) (hI : QueueOnly I)
    (hkeeps : ∀ pt ∈ Point.early, KeepsAt env pt I) {chan : Fin 1 → Chan}
    (hf : (chan 0).feature = f) (h : I (chan 0)) :
    ∃ r' : Run 0,
      programDirect env t.src t.dst t.count (openedRun env (Run.begin chan))
        = r'.softirq (env.soft .bcr) ∧
      Programmed f t (r'.chan 0) ∧ I (r'.chan 0) := by
  have hbegin : I ((Run.begin chan).chan 0) := hI _ _ [] _ h
  obtain ⟨k0, i0⟩ := (hkeeps .entry (by decide)).softirq (Run.begin chan) 0 hbegin
  obtain ⟨hopen, hnone, i1⟩ := openedRun_keeps env _ hI (hkeeps .polled (by decide))
    (hkeeps .resources (by decide)) rfl (k0.feature.trans hf) i0
  exact programDirect_programmed hip hI (hkeeps .mode (by decide)) (hkeeps .sar (by decide))
    (hkeeps .dar (by decide)) hopen (hnone.trans k0.started) i1

/-- Under external start the start bit is all that starts anything. -/
theorem Programmed.startedRun_ext (hip : f.ip = .ip85xx) (hext : f.startExt = true)
    (env : CallEnv 0) {r : Run 0} (h : Programmed f t (r.chan 0)) {mode : Word}
    (h0 : csBit mode = true) (h2 : directBit mode = true) :
    Settled t ((startedRun env mode r).chan 0) ∧
      ((startedRun env mode r).chan 0).feature.startExt = true := by
  apply Run.softirq_preserves (P := fun c => Settled t c ∧ c.feature.startExt = true)
    (fun c h => ⟨h.1.tasklet, c.tasklet_feature ▸ h.2⟩)
  rw [onChan_griodma]
  have hfeature : (((r.chan 0).outBe32Mr mode).feature).startExt = true :=
    (congrArg Feature.startExt h.feature).trans hext
  exact ⟨⟨h.start hip h0 h2, Or.inl hfeature⟩, hfeature⟩

/-- The mode word of a read's start: the channel's own, with the start bit. -/
theorem direct_or_start {c : Chan} (hip : f.ip = .ip85xx) (h : Programmed f t c) :
    directBit (c.inBe32Mr ||| fslDmaMrCs) = true := by
  have hmr : c.inBe32Mr = c.regs.mr := by
    rw [Chan.inBe32Mr, h.feature, Feature.be32_of_85xx hip]
  simp [hmr, h.direct, fslDmaMrCs]

/-- The words of a read. -/
def readTransfer (p : Platform) (q : Request) : Transfer :=
  ⟨rapidioSrcWord q.destid q.rioAddr, localWord (p.virtToPhys q.loalAddr), q.bytecnt⟩

/-- The words of a write. -/
def writeTransfer (p : Platform) (q : Request) : Transfer :=
  ⟨localWord (p.virtToPhys q.loalAddr), rapidioDstWord q.destid q.rioAddr, q.bytecnt⟩

/-- Under external start without external pause a read starts its own transfer only. -/
theorem readRun_ext (p : Platform) (env : CallEnv 0) {chan : Fin 1 → Chan} (q : Request)
    (hf : (chan 0).feature = f) (hip : f.ip = .ip85xx) (hext : f.startExt = true)
    (hpause : f.pauseExt = false) :
    ((readRun p env (Run.begin chan) q).chan 0).started = [[readTransfer p q]] := by
  have hinert : (chan 0).Inert := Or.inr (by rw [hf]; exact ⟨hext, hpause⟩)
  obtain ⟨r', heq, hprog, hinert'⟩ := programmed_of_keeps (t := readTransfer p q) hip
    queueOnly_inert (fun pt _ => keepsAt_inert env pt) hf hinert
  have hprog := hprog.keeps ((keepsAt_inert env .bcr).softirq r' 0 hinert').1
  rw [← heq] at hprog
  -- external start makes the channel inert, whatever is queued
  have inert : ∀ {c : Chan}, Programmed f (readTransfer p q) c → c.Inert :=
    fun h => Or.inr (by rw [h.feature]; exact ⟨hext, hpause⟩)
  have htracked := trackedRun_chan (P := Programmed f (readTransfer p q))
    env (p.dmaMapSingle q.loalAddr) q.rioAddr q.bytecnt
    (softStep_stable fun c h => h.keeps (inert h).keeps_tasklet)
    (fun c h => h.keeps (keeps_queueDesc _ c))
    (softStep_stable fun c h => h.keeps (inert h).keeps_tasklet)
    (fun c h => h.keeps (inert h).keeps_xfer)
    (softStep_stable fun c h => h.keeps (inert h).keeps_tasklet) hprog
  refine Settled.awaited (Settled.started ?_)
  refine ⟨htracked.start hip (or_start_bit _) (direct_or_start hip htracked), Or.inl ?_⟩
  exact (congrArg Feature.startExt htracked.feature).trans hext

/-- On a channel at rest without external control a read's engine start is its own transfer. -/
theorem readRun_atRest (p : Platform) (env : CallEnv 0) {chan : Fin 1 → Chan} (q : Request)
    (hf : (chan 0).feature = f) (hip : f.ip = .ip85xx) (hext : f.startExt = false)
    (hpause : f.pauseExt = false) (hrest : AtRest (chan 0)) :
    ((readRun p env (Run.begin chan) q).chan 0).started = [[readTransfer p q]] := by
  obtain ⟨r', heq, hprog, hrest'⟩ := programmed_of_keeps (t := readTransfer p q) hip
    queueOnly_atRest (fun pt _ => keepsAt_atRest env pt) hf hrest
  obtain ⟨hkeep, hrest⟩ := (keepsAt_atRest env .bcr).softirq r' 0 hrest'
  have hprog := hprog.keeps hkeep
  rw [← heq] at hprog hrest
  have fires : ∀ {c c' : Chan}, Programmed f (readTransfer p q) c → Chan.Fires c c' →
      Fired f (readTransfer p q) c' := by
    intro c c' h hfire
    have hfired := h.fires hip hext hfire
    rw [hpause] at hfired
    exact hfired
  have htracked := trackedRun_chan
    (P := fun c => Programmed f (readTransfer p q) c ∧ AtRest c)
    (Q := fun c => (Programmed f (readTransfer p q) c ∧ c.ldPending ≠ [] ∧ c.idle = true) ∨
      Fired f (readTransfer p q) c)
    (R := Fired f (readTransfer p q)) env (p.dmaMapSingle q.loalAddr) q.rioAddr q.bytecnt
    (softStep_stable fun c h =>
      ⟨h.1.keeps (Chan.Inert.keeps_tasklet (Or.inl h.2.1)), h.2.tasklet⟩)
    (fun c h => Or.inl ⟨h.1.keeps (keeps_queueDesc _ c), queueDesc_ne_nil _ c, h.2.2⟩)
    (softStep_stable ?tasklet) ?issue (softStep_stable fun c h => h.tasklet) ⟨hprog, hrest⟩
  case tasklet =>
    -- a tasklet right after the submission is the engine's start, only earlier
    rintro c (⟨h, hne, -⟩ | h)
    · exact Or.inr (fires (h.keeps c.keeps_retire) (Chan.fires_of_pending hne))
    · exact Or.inr h.tasklet
  case issue =>
    rintro c (⟨h, hne, hidle⟩ | h)
    · exact fires h (Chan.fires_of_ready hne hidle)
    · exact h.xfer
  exact Settled.awaited (Settled.started (htracked.start hip _))

/-- Under external start a write starts its own transfer only, unless external pause lets a
    pending descriptor of someone else clear the byte count. -/
theorem writeRun_ext (p : Platform) (env : CallEnv 0) {chan : Fin 1 → Chan} (q : Request)
    (hf : (chan 0).feature = f) (hip : f.ip = .ip85xx) (hext : f.startExt = true)
    (hpause : f.pauseExt = false ∨ (chan 0).ldPending = []) :
    ((writeRun p env (Run.begin chan) q).chan 0).started = [[writeTransfer p q]] := by
  -- up to the start nothing happens to the registers; behind it nothing starts any more
  have hinert : (chan 0).Inert := by
    rcases hpause with hpause | hpending
    · exact Or.inr (by rw [hf]; exact ⟨hext, hpause⟩)
    · exact Or.inl hpending
  obtain ⟨r', heq, hprog, hinert'⟩ := programmed_of_keeps (t := writeTransfer p q) hip
    queueOnly_inert (fun pt _ => keepsAt_inert env pt) hf hinert
  have hprog := hprog.keeps ((keepsAt_inert env .bcr).softirq r' 0 hinert').1
  rw [← heq] at hprog
  have hstart := hprog.startedRun_ext hip hext env (or_start_bit directMode) (by decide)
  have htracked := trackedRun_chan
    (P := fun c => Settled (writeTransfer p q) c ∧ c.feature.startExt = true)
    (Q := fun c => Settled (writeTransfer p q) c ∧ c.feature.startExt = true)
    env q.rioAddr (p.dmaMapSingle q.loalAddr) q.bytecnt
    (softStep_stable fun c h => ⟨h.1.tasklet, c.tasklet_feature ▸ h.2⟩)
    (fun c h => ⟨⟨h.1.one, Or.inl h.2⟩, h.2⟩)
    (softStep_stable fun c h => ⟨h.1.tasklet, c.tasklet_feature ▸ h.2⟩)
    (fun c h => h.1.xfer) (softStep_stable fun c h => h.tasklet) hstart
  exact htracked.awaited

end Vpx3.Dma
