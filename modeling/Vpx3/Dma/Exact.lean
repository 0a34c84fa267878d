import Vpx3.Dma.Starts

namespace Vpx3.Dma

/-!
# RapidIO DMA — when a call starts exactly its transfer

* `StartsExactly` — one transfer is started, it is the one asked for, and the channel that was
  programmed is the channel of the tracked descriptor;
* `tickAt` — environments without failures in which a tasklet runs at chosen points; each device
  that is not ready has such an environment in which a call returns 0 and starts something else;
* `ReadReady`, `WriteReady`, `startsExactly_iff` — the devices on which that cannot happen.
-/

variable {k : ℕ}

/-! ### The transfer asked for -/

/-- A read's transfer: from `rioAddr` of node `destid` into the local memory. -/
def CarriesRead (p : Platform) (q : Request) (t : Transfer) : Prop :=
  Endpoint.ofWord t.src = .rapidio 0x4 q.destid q.rioAddr ∧
  Endpoint.ofWord t.dst = .snooped (p.virtToPhys q.loalAddr) ∧ t.count = q.bytecnt

/-- A write's transfer: from the local memory to `rioAddr` of node `destid`. -/
def CarriesWrite (p : Platform) (q : Request) (t : Transfer) : Prop :=
  Endpoint.ofWord t.src = .snooped (p.virtToPhys q.loalAddr) ∧
  Endpoint.ofWord t.dst = .rapidio 0x4 q.destid q.rioAddr ∧ t.count = q.bytecnt

theorem carriesRead_readTransfer (p : Platform) (q : Request) :
    CarriesRead p q (readTransfer p q) :=
  ⟨ofWord_rapidioSrc _ _, ofWord_local _, rfl⟩

theorem carriesWrite_writeTransfer (p : Platform) (q : Request) :
    CarriesWrite p q (writeTransfer p q) :=
  ⟨ofWord_local _, ofWord_rapidioDst _ _, rfl⟩

/-- One transfer is started on one channel and none on the others, it is the right one, and the
    programmed channel is the one whose descriptor the call waits for. -/
def StartsExactly (right : Transfer → Prop) (r : Run k) : Prop :=
  (∃ i t, right t ∧ (r.chan i).started = [[t]] ∧ ∀ j ≠ i, (r.chan j).started = []) ∧
  griodmaChan k = firstChan k

/-- On a device with one channel, one right transfer. -/
theorem startsExactly_of_started {right : Transfer → Prop} {r : Run 0} {t : Transfer}
    (ht : right t) (h : (r.chan 0).started = [[t]]) : StartsExactly right r :=
  ⟨⟨0, t, ht, h, fun j hj => absurd (Fin.eq_zero j) hj⟩, rfl⟩

theorem StartsExactly.started {right : Transfer → Prop} {r : Run 0} (h : StartsExactly right r) :
    ∃ t, right t ∧ (r.chan 0).started = [[t]] := by
  obtain ⟨⟨i, t, ht, hstarted, -⟩, -⟩ := h
  rw [Fin.eq_zero i] at hstarted
  exact ⟨t, ht, hstarted⟩

/-- A device with several channels programs one and tracks a descriptor on another. -/
theorem StartsExactly.one_channel {right : Transfer → Prop} {r : Run k}
    (h : StartsExactly right r) : k = 0 := by
  have hval := congrArg Fin.val h.2
  simpa [griodmaChan, firstChan] using hval

/-! ### Environments without failures -/

/-- Nothing fails, the status register reads idle, one tasklet of the first channel runs at each of
    the given points and two run while the call waits. -/
def tickAt (k : ℕ) (pts : List Point) : CallEnv k where
  soft pt := if pt = .waiting then [firstChan k, firstChan k]
    else if pt ∈ pts then [firstChan k] else []
  sr _ := 0
  poolCreated := true
  descAlloc _ := true
  startSticks := true
  stDmacmp := 0

theorem responsive_tickAt (k : ℕ) {pts : List Point} (h : .started ∉ pts) :
    Responsive (tickAt k pts) :=
  ⟨rfl, rfl, rfl, by simp [tickAt, h], by simp [tickAt]⟩

theorem tickAt_none {pts : List Point} {pt : Point} (h : pt ∉ pts) (hw : pt ≠ .waiting) :
    (tickAt 0 pts).soft pt = [] := by
  simp [tickAt, h, hw]

theorem tickAt_one {pts : List Point} {pt : Point} (h : pt ∈ pts) (hw : pt ≠ .waiting) :
    (tickAt 0 pts).soft pt = [0] := by
  simp [tickAt, h, hw, firstChan]

theorem startedRun_tickAt (pts : List Point) (h : .started ∉ pts) (mode : Word) (r : Run 0) :
    (startedRun (tickAt 0 pts) mode r).chan 0 = (r.chan 0).outBe32Mr mode := by
  rw [startedRun, tickAt_none h (by decide)]
  exact onChan_griodma r _

/-- `trackedRun` with no tasklet but at the given points. -/
theorem trackedRun_tickAt {P Q R : Chan → Prop} (pts : List Point)
    (hpts : ∀ pt ∈ [Point.prepped, .submitted, .issued], pt ∉ pts) (dst src len : Word) {r : Run 0}
    (hqueue : ∀ c, P c → Q (c.queueDesc (copyDesc (r.chan 0).feature 0 dst src len)))
    (hissue : ∀ c, Q c → R c.fslChanXferLdQueue) (h : P (r.chan 0)) :
    R ((trackedRun (tickAt 0 pts) dst src len r).chan 0) :=
  trackedRun_chan _ _ _ _
    (softStep_none (tickAt_none (hpts .prepped (by decide)) (by decide)) _) hqueue
    (softStep_none (tickAt_none (hpts .submitted (by decide)) (by decide)) _) hissue
    (softStep_none (tickAt_none (hpts .issued (by decide)) (by decide)) _) h

theorem awaitedRun_tickAt (pts : List Point) (r : Run 0) :
    ((awaitedRun (tickAt 0 pts) r).chan 0).started
      = (r.chan 0).dmaDoTasklet.dmaDoTasklet.started := by
  show (((((r.tasklet 0).tasklet 0).onChan 0 _).chan 0)).started = _
  rw [Run.onChan_same, Run.tasklet_same, Run.tasklet_same]
  rfl

/-- `openedRun` and `programDirect` on a big-endian channel that no tasklet disturbs. -/
theorem programmed_tickAt {f : Feature} {t : Transfer} (hip : f.ip = .ip85xx)
    (pts : List Point) (hpts : ∀ pt ∈ Point.early, pt ∉ pts) {I : Chan → Prop} (hI : QueueOnly I)
    {chan : Fin 1 → Chan} (hf : (chan 0).feature = f) (h : I (chan 0)) :
    ∃ r' : Run 0,
      programDirect (tickAt 0 pts) t.src t.dst t.count (openedRun (tickAt 0 pts) (Run.begin chan))
        = r'.softirq ((tickAt 0 pts).soft .bcr) ∧
      Programmed f t (r'.chan 0) ∧ I (r'.chan 0) := by
  refine programmed_of_keeps hip hI (fun pt hpt => Or.inl (tickAt_none (hpts pt hpt) ?_)) hf h
  rintro rfl
  exact absurd hpt (by decide)

/-! ### Two starts -/

/-- On a big-endian channel two transfers were started, or one was and a descriptor is pending. -/
structure Doubling (f : Feature) (c : Chan) : Prop where
  feature : c.feature = f
  two : 2 ≤ c.started.length ∨ (1 ≤ c.started.length ∧ c.ldPending ≠ [])

/-- Without external start the engine starts a transfer whenever it runs. -/
theorem fires_length {f : Feature} (hip : f.ip = .ip85xx) (hext : f.startExt = false)
    {c c' : Chan} (hf : c.feature = f) (h : Chan.Fires c c') :
    c'.started.length = c.started.length + 1 := by
  rw [(h.start (by rw [hf, hext]) (Or.inl (by rw [hf, hip]))).1, List.length_append,
    List.length_singleton]

theorem Doubling.tasklet {f : Feature} (hip : f.ip = .ip85xx) (hext : f.startExt = false)
    {c : Chan} (h : Doubling f c) :
    c.dmaDoTasklet.feature = f ∧ 2 ≤ c.dmaDoTasklet.started.length := by
  refine ⟨c.tasklet_feature.trans h.feature, ?_⟩
  by_cases hp : c.ldPending = []
  · rw [Chan.dmaDoTasklet_of_empty hp]
    exact h.two.resolve_right fun h => h.2 hp
  · have hlen := fires_length hip hext (c := c.retire) h.feature (Chan.fires_of_pending hp)
    rw [hlen]
    show 2 ≤ c.started.length + 1
    rcases h.two with h | h <;> omega

theorem Doubling.xfer {f : Feature} (hip : f.ip = .ip85xx) (hext : f.startExt = false)
    {c : Chan} (h : Doubling f c) : Doubling f c.fslChanXferLdQueue := by
  by_cases hw : c.ldPending = [] ∨ c.idle = false
  · rw [Chan.fslChanXferLdQueue_of_waiting hw]
    exact h
  · rw [not_or, Bool.not_eq_false] at hw
    have hlen := fires_length hip hext h.feature (Chan.fires_of_ready hw.1 hw.2)
    refine ⟨c.xfer_feature.trans h.feature, Or.inl ?_⟩
    rcases h.two with h | h <;> omega

/-- A mode register write never takes a start back. -/
theorem Doubling.outBe32Mr {f : Feature} {c : Chan} (h : Doubling f c) (v : Word) :
    Doubling f (c.outBe32Mr v) := by
  have hlen : c.started.length ≤ (c.outBe32Mr v).started.length := by
    unfold Chan.outBe32Mr Chan.writeMr
    dsimp only
    split
    · rw [List.length_append]
      omega
    · exact le_rfl
  refine ⟨h.feature, ?_⟩
  rcases h.two with h | h
  · exact Or.inl (h.trans hlen)
  · exact Or.inr ⟨h.1.trans hlen, h.2⟩

/-- Such a channel has two starts when the call returns. -/
theorem Doubling.awaited {f : Feature} (hip : f.ip = .ip85xx) (hext : f.startExt = false)
    {pts : List Point} {r : Run 0} (h : Doubling f (r.chan 0)) :
    2 ≤ ((awaitedRun (tickAt 0 pts) r).chan 0).started.length := by
  rw [awaitedRun_tickAt]
  obtain ⟨hf, htwo⟩ := h.tasklet hip hext
  exact (Doubling.tasklet hip hext ⟨hf, Or.inl htwo⟩).2

/-- Two starts are one too many. -/
theorem not_startsExactly_of_two {right : Transfer → Prop} {r : Run 0}
    (h : 2 ≤ (r.chan 0).started.length) : ¬StartsExactly right r := by
  intro hstart
  obtain ⟨t, -, heq⟩ := hstart.started
  rw [heq, List.length_singleton] at h
  omega

/-- A transfer of no bytes is not the one asked for. -/
theorem not_startsExactly_of_count {right : Transfer → Prop} {r : Run 0} {t : Transfer}
    (h : (r.chan 0).started = [[t]]) (hright : ¬right t) : ¬StartsExactly right r := by
  intro hstart
  obtain ⟨t', ht', heq⟩ := hstart.started
  rw [h] at heq
  obtain rfl : t = t' := by simpa using heq
  exact hright ht'

/-! ### Reads on devices that are not ready -/

section Reads

variable (p : Platform) (q : Request) {chan : Fin 1 → Chan} {f : Feature}

/-- The four parts of `readRun` up to the tracked descriptor. -/
def readTracked (env : CallEnv 0) (chan : Fin 1 → Chan) : Run 0 :=
  trackedRun env (p.dmaMapSingle q.loalAddr) q.rioAddr q.bytecnt
    (programDirect env (readTransfer p q).src (readTransfer p q).dst (readTransfer p q).count
      (openedRun env (Run.begin chan)))

theorem readRun_eq (env : CallEnv 0) :
    readRun p env (Run.begin chan) q
      = awaitedRun env (startedRun env
          (((readTracked p q env chan).chan 0).inBe32Mr ||| fslDmaMrCs)
          (readTracked p q env chan)) := rfl

/-- What a read leaves pending starts a second transfer while the call waits. -/
theorem readRun_two (hip : f.ip = .ip85xx) (hext : f.startExt = false) {pts : List Point}
    (hpts : .started ∉ pts)
    (h : Doubling f (((readTracked p q (tickAt 0 pts) chan).chan 0).outBe32Mr
      (((readTracked p q (tickAt 0 pts) chan).chan 0).inBe32Mr ||| fslDmaMrCs))) :
    2 ≤ ((readRun p (tickAt 0 pts) (Run.begin chan) q).chan 0).started.length := by
  rw [readRun_eq]
  apply Doubling.awaited hip hext
  rw [startedRun_tickAt _ hpts]
  exact h

/-- A busy channel: the read's own start comes first and the engine's later. -/
theorem readRun_busy (hf : (chan 0).feature = f) (hip : f.ip = .ip85xx)
    (hext : f.startExt = false) (hbusy : (chan 0).idle = false) :
    2 ≤ ((readRun p (tickAt 0 []) (Run.begin chan) q).chan 0).started.length := by
  obtain ⟨r', heq, hprog, hidle⟩ := programmed_tickAt (t := readTransfer p q) hip []
    (by decide) (I := fun c => c.idle = false) (fun _ _ _ _ h => h) hf hbusy
  rw [tickAt_none (by decide) (by decide)] at heq
  have htracked : Programmed f (readTransfer p q) ((readTracked p q (tickAt 0 []) chan).chan 0) ∧
      ((readTracked p q (tickAt 0 []) chan).chan 0).ldPending ≠ [] := by
    refine trackedRun_tickAt (P := fun c => Programmed f (readTransfer p q) c ∧ c.idle = false)
      (Q := fun c => Programmed f (readTransfer p q) c ∧ c.ldPending ≠ [] ∧ c.idle = false)
      (R := fun c => Programmed f (readTransfer p q) c ∧ c.ldPending ≠ []) _ (by decide) _ _ _
      (fun c h => ⟨h.1.keeps (keeps_queueDesc _ c), queueDesc_ne_nil _ c, h.2⟩) ?_ ?_
    · intro c h
      rw [Chan.fslChanXferLdQueue_of_waiting (Or.inr h.2.2)]
      exact ⟨h.1, h.2.1⟩
    · rw [heq]
      exact ⟨hprog, hidle⟩
  apply readRun_two p q hip hext (by decide)
  have hone := htracked.1.start hip (or_start_bit _) (direct_or_start hip htracked.1)
  refine ⟨htracked.1.feature, Or.inr ⟨?_, htracked.2⟩⟩
  rw [hone]
  exact le_rfl

/-- Someone else's pending descriptor: a tasklet before the read's own descriptor is queued makes
    the engine start the direct transfer, and a later one makes it start another. -/
theorem readRun_pending (hf : (chan 0).feature = f) (hip : f.ip = .ip85xx)
    (hext : f.startExt = false) (hpending : (chan 0).ldPending ≠ []) :
    2 ≤ ((readRun p (tickAt 0 [.bcr]) (Run.begin chan) q).chan 0).started.length := by
  obtain ⟨r', heq, hprog, hne⟩ := programmed_tickAt (t := readTransfer p q) hip [.bcr]
    (by decide) (I := fun c => c.ldPending ≠ []) (fun _ _ _ _ h => h) hf hpending
  rw [tickAt_one (by decide) (by decide)] at heq
  have hfire := Chan.fires_of_pending hne
  have hfired := (hprog.keeps (r'.chan 0).keeps_retire).fires hip hext hfire
  -- the engine is busy when the read's descriptor is issued
  have htracked : Doubling f ((readTracked p q (tickAt 0 [.bcr]) chan).chan 0) := by
    refine trackedRun_tickAt
      (P := fun c => c.feature = f ∧ 1 ≤ c.started.length)
      (Q := Doubling f) (R := Doubling f) _ (by decide) _ _ _
      (fun c h => ⟨h.1, Or.inr ⟨h.2, queueDesc_ne_nil _ c⟩⟩) (fun c h => h.xfer hip hext) ?_
    rw [heq]
    show ((r'.tasklet 0).chan 0).feature = f ∧ 1 ≤ ((r'.tasklet 0).chan 0).started.length
    rw [Run.tasklet_same, hfired.started]
    exact ⟨hfired.feature, le_rfl⟩
  apply readRun_two p q hip hext (by decide)
  exact htracked.outBe32Mr _

/-- External pause: `dma_start` clears the byte count before the read's transfer starts. -/
theorem readRun_pause (hf : (chan 0).feature = f) (hip : f.ip = .ip85xx)
    (hpause : f.pauseExt = true) :
    ((readRun p (tickAt 0 [.submitted]) (Run.begin chan) q).chan 0).started
      = [[{ readTransfer p q with count := 0 }]] := by
  obtain ⟨r', heq, hprog, -⟩ := programmed_tickAt (t := readTransfer p q) hip [.submitted]
    (by decide) (I := fun _ => True) (fun _ _ _ _ h => h) hf trivial
  rw [tickAt_none (by decide) (by decide)] at heq
  -- the tasklet after the submission is the engine's start
  have htracked : ((readTracked p q (tickAt 0 [.submitted]) chan).chan 0).ldPending = [] ∧
      (Fired f { readTransfer p q with count := 0 }
        ((readTracked p q (tickAt 0 [.submitted]) chan).chan 0) ∨
      Programmed f { readTransfer p q with count := 0 }
        ((readTracked p q (tickAt 0 [.submitted]) chan).chan 0)) := by
    refine trackedRun_chan (P := Programmed f (readTransfer p q))
      (Q := fun c => Programmed f (readTransfer p q) c ∧ c.ldPending ≠ [])
      (S := fun c => c.ldPending = [] ∧ (Fired f { readTransfer p q with count := 0 } c ∨
        Programmed f { readTransfer p q with count := 0 } c))
      (R := fun c => c.ldPending = [] ∧ (Fired f { readTransfer p q with count := 0 } c ∨
        Programmed f { readTransfer p q with count := 0 } c)) _ _ _ _
      (softStep_none (tickAt_none (by decide) (by decide)) _)
      (fun c h => ⟨h.keeps (keeps_queueDesc _ c), queueDesc_ne_nil _ c⟩)
      (softStep_one (tickAt_one (by decide) (by decide)) ?_) ?_
      (softStep_none (tickAt_none (by decide) (by decide)) _) ?_
    · rintro c ⟨h, hne⟩
      have hfire := Chan.fires_of_pending hne
      have hretire := h.keeps c.keeps_retire
      refine ⟨hfire.ldPending, ?_⟩
      by_cases hext : f.startExt = true
      · have hprog := hretire.fires_ext hext hfire
        rw [hpause, if_pos rfl] at hprog
        exact Or.inr hprog
      · have hfired := hretire.fires hip (by simpa using hext) hfire
        rw [hpause, if_pos rfl] at hfired
        exact Or.inl hfired
    · rintro c ⟨hempty, h⟩
      rw [Chan.fslChanXferLdQueue_of_waiting (Or.inl hempty)]
      exact ⟨hempty, h⟩
    · rw [heq]
      exact hprog
  rw [readRun_eq]
  refine Settled.awaited (Settled.started ?_)
  rcases htracked with ⟨hempty, h | h⟩
  · exact h.start hip _
  · exact ⟨h.start hip (or_start_bit _) (direct_or_start hip h), Or.inr hempty⟩

end Reads

/-! ### Writes on devices that are not ready -/

section Writes

variable (p : Platform) (q : Request) {chan : Fin 1 → Chan} {f : Feature}

/-- The first three parts of `writeRun`. -/
def writeStarted (env : CallEnv 0) (chan : Fin 1 → Chan) : Run 0 :=
  startedRun env (directMode ||| fslDmaMrCs)
    (programDirect env (writeTransfer p q).src (writeTransfer p q).dst (writeTransfer p q).count
      (openedRun env (Run.begin chan)))

theorem writeRun_eq (env : CallEnv 0) :
    writeRun p env (Run.begin chan) q
      = awaitedRun env (trackedRun env q.rioAddr (p.dmaMapSingle q.loalAddr) q.bytecnt
          (writeStarted p q env chan)) := rfl

/-- Without external start a write starts its own transfer and then the engine another. -/
theorem writeRun_two (hf : (chan 0).feature = f) (hip : f.ip = .ip85xx)
    (hext : f.startExt = false) :
    2 ≤ ((writeRun p (tickAt 0 []) (Run.begin chan) q).chan 0).started.length := by
  obtain ⟨r', heq, hprog, -⟩ := programmed_tickAt (t := writeTransfer p q) hip []
    (by decide) (I := fun _ => True) (fun _ _ _ _ h => h) hf trivial
  rw [tickAt_none (by decide) (by decide)] at heq
  rw [writeRun_eq]
  apply Doubling.awaited hip hext
  refine trackedRun_tickAt (P := fun c => c.feature = f ∧ 1 ≤ c.started.length)
    (Q := Doubling f) (R := Doubling f) _ (by decide) _ _ _
    (fun c h => ⟨h.1, Or.inr ⟨h.2, queueDesc_ne_nil _ c⟩⟩) (fun c h => h.xfer hip hext) ?_
  rw [writeStarted, heq, startedRun_tickAt _ (by decide)]
  refine ⟨hprog.feature, ?_⟩
  show 1 ≤ ((r'.chan 0).outBe32Mr (directMode ||| fslDmaMrCs)).started.length
  rw [hprog.start hip (or_start_bit _) (by decide)]
  exact le_rfl

/-- Under external start and pause a pending descriptor of someone else clears the byte count of a
    write just before it starts. -/
theorem writeRun_pause (hf : (chan 0).feature = f) (hip : f.ip = .ip85xx)
    (hext : f.startExt = true) (hpause : f.pauseExt = true) (hpending : (chan 0).ldPending ≠ []) :
    ((writeRun p (tickAt 0 [.bcr]) (Run.begin chan) q).chan 0).started
      = [[{ writeTransfer p q with count := 0 }]] := by
  obtain ⟨r', heq, hprog, hne⟩ := programmed_tickAt (t := writeTransfer p q) hip [.bcr]
    (by decide) (I := fun c => c.ldPending ≠ []) (fun _ _ _ _ h => h) hf hpending
  rw [tickAt_one (by decide) (by decide)] at heq
  have hcleared := (hprog.keeps (r'.chan 0).keeps_retire).fires_ext hext
    (Chan.fires_of_pending hne)
  rw [hpause, if_pos rfl] at hcleared
  have hstart : Settled { writeTransfer p q with count := 0 }
      ((writeStarted p q (tickAt 0 [.bcr]) chan).chan 0) ∧
      ((writeStarted p q (tickAt 0 [.bcr]) chan).chan 0).feature.startExt = true := by
    rw [writeStarted, heq]
    refine Programmed.startedRun_ext hip hext _ ?_ (or_start_bit _) (by decide)
    show Programmed f _ ((r'.tasklet 0).chan 0)
    rw [Run.tasklet_same]
    exact hcleared
  rw [writeRun_eq]
  apply Settled.awaited
  exact trackedRun_tickAt
    (P := fun c => Settled { writeTransfer p q with count := 0 } c ∧ c.feature.startExt = true)
    (Q := Settled { writeTransfer p q with count := 0 })
    (R := Settled { writeTransfer p q with count := 0 }) _ (by decide) _ _ _
    (fun c h => ⟨h.1.one, Or.inl h.2⟩) (fun c h => h.xfer) hstart

end Writes

/-! ### Little-endian channels -/

section LittleEndian

variable {f : Feature}

/-- Setting the start bit through `out_be32` on a little-endian channel leaves the bits that matter
    as they are: the bit lands in the top byte. -/
theorem be32_or_start (hip : f.ip = .ip83xx) (v : Word) :
    csBit (f.be32 (f.be32 v ||| fslDmaMrCs)) = csBit v ∧
    directBit (f.be32 (f.be32 v ||| fslDmaMrCs)) = directBit v := by
  have hswap : ∀ v, f.be32 v = bswap32 v := fun v => if_neg (by rw [hip]; decide)
  have hbit : ∀ i < 8, (bswap32 (bswap32 v ||| fslDmaMrCs)).getLsbD i = v.getLsbD i := by
    intro i hi
    rw [getLsbD_bswap32_low _ hi, BitVec.getLsbD_or, getLsbD_bswap32_high _ hi]
    have hcs : fslDmaMrCs.getLsbD (24 + i) = false := by
      simp [fslDmaMrCs]
    rw [hcs, Bool.or_false]
  rw [hswap, hswap]
  exact ⟨hbit 0 (by decide), hbit 2 (by decide)⟩

/-- A little-endian channel in chain mode that was told to start nothing. -/
structure Chaining (f : Feature) (c : Chan) : Prop where
  feature : c.feature = f
  started : c.started = []
  halted : csBit c.regs.mr = false
  chain : directBit c.regs.mr = false

/-- Nothing was started and the descriptor is pending, or external start holds it back, or the
    chain with the descriptor was started. -/
structure Chained (f : Feature) (hw : Transfer) (c : Chan) : Prop where
  feature : c.feature = f
  chain : directBit c.regs.mr = false
  starts : (c.started = [] ∧ csBit c.regs.mr = false ∧
      (f.startExt = true ∨ hw ∈ c.ldPending.map (·.hw))) ∨
    (c.ldPending = [] ∧ ∃ l, hw ∈ l ∧ c.started = [l])

theorem Chained.fires {hw : Transfer} {c c' : Chan} (h : Chained f hw c) (hp : c.ldPending ≠ [])
    (hf : Chan.Fires c c') : Chained f hw c' := by
  refine ⟨hf.feature.trans h.feature, hf.direct.trans h.chain, ?_⟩
  rcases h.starts with ⟨hs, h0, hheld⟩ | ⟨hempty, -⟩
  · by_cases hext : f.startExt = true
    · -- external start holds the chain back
      obtain ⟨hsame, hhalt⟩ := hf.extStart (by rw [h.feature, hext])
      exact Or.inl ⟨hsame.trans hs, hhalt h0, Or.inl hext⟩
    · have hfire := (hf.start (by rw [h.feature]; simpa using hext) (Or.inr h0)).1
      rw [hs, Chan.engineTransfers, h.chain, if_neg (by decide)] at hfire
      exact Or.inr ⟨hf.ldPending, _, hheld.resolve_left hext, hfire⟩
  · exact absurd hempty hp

theorem Chained.tasklet {hw : Transfer} {c : Chan} (h : Chained f hw c) :
    Chained f hw c.dmaDoTasklet := by
  have hretire : Chained f hw c.retire := ⟨h.feature, h.chain, h.starts⟩
  by_cases hp : c.ldPending = []
  · rw [Chan.dmaDoTasklet_of_empty hp]
    exact hretire
  · exact hretire.fires hp (Chan.fires_of_pending hp)

theorem Chained.xfer {hw : Transfer} {c : Chan} (h : Chained f hw c) :
    Chained f hw c.fslChanXferLdQueue := by
  by_cases hw' : c.ldPending = [] ∨ c.idle = false
  · rw [Chan.fslChanXferLdQueue_of_waiting hw']
    exact h
  · rw [not_or, Bool.not_eq_false] at hw'
    exact h.fires hw'.1 (Chan.fires_of_ready hw'.1 hw'.2)

theorem Chained.start (hip : f.ip = .ip83xx) {hw : Transfer} {c : Chan} (h : Chained f hw c) :
    Chained f hw (c.outBe32Mr (c.inBe32Mr ||| fslDmaMrCs)) := by
  obtain ⟨h0, h2⟩ := be32_or_start hip c.regs.mr
  have hmr : (c.outBe32Mr (c.inBe32Mr ||| fslDmaMrCs))
      = c.writeMr (f.be32 (f.be32 c.regs.mr ||| fslDmaMrCs)) := by
    rw [Chan.outBe32Mr, Chan.inBe32Mr, h.feature]
  -- the start bit is as it was, so nothing starts
  have hstarted : (c.writeMr (f.be32 (f.be32 c.regs.mr ||| fslDmaMrCs))).started = c.started := by
    by_cases hcs : csBit c.regs.mr = true
    · exact c.writeMr_started_of_running _ hcs
    · apply c.writeMr_started_of_halt
      rw [h0]
      simpa using hcs
  rw [hmr]
  refine ⟨h.feature, h2.trans h.chain, ?_⟩
  rw [hstarted]
  rcases h.starts with ⟨hs, hcs, hheld⟩ | hdone
  · exact Or.inl ⟨hs, h0.trans hcs, hheld⟩
  · exact Or.inr hdone

/-- Whatever single transfer was started in the end is the descriptor's. -/
theorem Chained.awaited {hw : Transfer} {pts : List Point} {r : Run 0}
    (h : Chained f hw (r.chan 0)) {t : Transfer}
    (ht : ((awaitedRun (tickAt 0 pts) r).chan 0).started = [[t]]) : t = hw := by
  rw [awaitedRun_tickAt] at ht
  rcases h.tasklet.tasklet.starts with ⟨hs, -, -⟩ | ⟨-, l, hmem, hs⟩
  · rw [hs] at ht
    cases ht
  · rw [hs] at ht
    obtain rfl : l = [t] := by simpa using ht
    exact (List.mem_singleton.mp hmem).symm

/-- No byte-swapped mode word of the calls sets the bits that matter. -/
theorem be32_modes (hip : f.ip = .ip83xx) :
    csBit (f.be32 directMode) = false ∧ directBit (f.be32 directMode) = false ∧
    csBit (f.be32 (directMode ||| fslDmaMrCs)) = false ∧
    directBit (f.be32 (directMode ||| fslDmaMrCs)) = false := by
  have hswap : ∀ v, f.be32 v = bswap32 v := fun v => if_neg (by rw [hip]; decide)
  have hbits : csBit (bswap32 directMode) = false ∧ directBit (bswap32 directMode) = false ∧
      csBit (bswap32 (directMode ||| fslDmaMrCs)) = false ∧
      directBit (bswap32 (directMode ||| fslDmaMrCs)) = false := by
    decide
  simpa only [hswap] using hbits

/-- Programming a little-endian channel leaves it in chain mode. -/
theorem chaining_programDirect (hip : f.ip = .ip83xx) (sar dar : DWord) (bcr : Word)
    {chan : Fin 1 → Chan} (hf : (chan 0).feature = f) :
    Chaining f ((programDirect (tickAt 0 []) sar dar bcr
      (openedRun (tickAt 0 []) (Run.begin chan))).chan 0) := by
  obtain ⟨hopen, hnone, -⟩ := openedRun_keeps (tickAt 0 []) (Run.begin chan) (f := f)
    (I := fun _ => True) (fun _ _ _ _ h => h) (Or.inl (tickAt_none (by decide) (by decide)))
    (Or.inl (tickAt_none (by decide) (by decide))) rfl hf trivial
  generalize openedRun (tickAt 0 []) (Run.begin chan) = r at hopen hnone ⊢
  have hprog : (programDirect (tickAt 0 []) sar dar bcr r).chan 0
      = ((((r.chan 0).outBe32Mr directMode).outBe64Sar sar).outBe64Dar dar).outBe32Bcr bcr := by
    unfold programDirect
    rw [tickAt_none (by decide) (by decide), tickAt_none (by decide) (by decide),
      tickAt_none (by decide) (by decide), tickAt_none (by decide) (by decide)]
    dsimp only [Run.softirq, List.foldl]
    rw [onChan_griodma, onChan_griodma, onChan_griodma, onChan_griodma]
  have hmode : (r.chan 0).outBe32Mr directMode = (r.chan 0).writeMr (f.be32 directMode) := by
    rw [Chan.outBe32Mr, hopen]
  obtain ⟨h0, h2, -⟩ := be32_modes hip
  rw [hprog, hmode]
  exact ⟨hopen, ((r.chan 0).writeMr_started_of_halt h0).trans hnone, h0, h2⟩

/-- The start bit written in the wrong byte order starts nothing. -/
theorem Chaining.start (hip : f.ip = .ip83xx) {c : Chan} (h : Chaining f c) :
    Chaining f (c.outBe32Mr (directMode ||| fslDmaMrCs)) := by
  have hmr : c.outBe32Mr (directMode ||| fslDmaMrCs)
      = c.writeMr (f.be32 (directMode ||| fslDmaMrCs)) := by
    rw [Chan.outBe32Mr, h.feature]
  obtain ⟨-, -, h0, h2⟩ := be32_modes hip
  rw [hmr]
  exact ⟨h.feature, (c.writeMr_started_of_halt h0).trans h.started, h0, h2⟩

/-- The queued descriptor of a chaining channel. -/
theorem Chaining.queueDesc {c : Chan} (h : Chaining f c) (desc : Desc) :
    Chained f desc.hw (c.queueDesc desc) := by
  refine ⟨h.feature, h.chain, Or.inl ⟨h.started, h.halted, Or.inr ?_⟩⟩
  show desc.hw ∈ (c.ldPending ++ [_]).map _
  simp

/-- The single transfer that a read starts on a little-endian channel is its descriptor's. -/
theorem readRun_83xx (p : Platform) (q : Request) (hip : f.ip = .ip83xx) {chan : Fin 1 → Chan}
    (hf : (chan 0).feature = f) {t : Transfer}
    (ht : ((readRun p (tickAt 0 []) (Run.begin chan) q).chan 0).started = [[t]]) :
    t = ⟨f.descWord q.rioAddr, f.descWord (p.dmaMapSingle q.loalAddr), q.bytecnt⟩ := by
  have hprog := chaining_programDirect hip (readTransfer p q).src (readTransfer p q).dst
    (readTransfer p q).count hf
  have htracked := trackedRun_tickAt [] (by decide) (p.dmaMapSingle q.loalAddr) q.rioAddr
    q.bytecnt (fun c h => h.queueDesc _) (fun c h => Chained.xfer h) hprog
  rw [hprog.feature] at htracked
  have hstart := htracked.start hip
  rw [← startedRun_tickAt [] (by decide)] at hstart
  exact hstart.awaited ht

/-- So is the single transfer that a write starts there. -/
theorem writeRun_83xx (p : Platform) (q : Request) (hip : f.ip = .ip83xx) {chan : Fin 1 → Chan}
    (hf : (chan 0).feature = f) {t : Transfer}
    (ht : ((writeRun p (tickAt 0 []) (Run.begin chan) q).chan 0).started = [[t]]) :
    t = ⟨f.descWord (p.dmaMapSingle q.loalAddr), f.descWord q.rioAddr, q.bytecnt⟩ := by
  have hprog := chaining_programDirect hip (writeTransfer p q).src (writeTransfer p q).dst
    (writeTransfer p q).count hf
  have hstart := hprog.start hip
  rw [← startedRun_tickAt [] (by decide)] at hstart
  have htracked := trackedRun_tickAt [] (by decide) q.rioAddr (p.dmaMapSingle q.loalAddr)
    q.bytecnt (fun c h => h.queueDesc _) (fun c h => Chained.xfer h) hstart
  rw [hstart.feature] at htracked
  exact htracked.awaited ht

end LittleEndian

/-! ### The devices on which every call is exact -/

/-- One big-endian channel without external pause, under external start or at rest. -/
def ReadReady (chan : Fin (k + 1) → Chan) : Prop :=
  k = 0 ∧ (chan (firstChan k)).feature.ip = .ip85xx ∧
  (chan (firstChan k)).feature.pauseExt = false ∧
  ((chan (firstChan k)).feature.startExt = true ∨ AtRest (chan (firstChan k)))

/-- One big-endian channel under external start, without external pause or pending descriptors. -/
def WriteReady (chan : Fin (k + 1) → Chan) : Prop :=
  k = 0 ∧ (chan (firstChan k)).feature.ip = .ip85xx ∧
  (chan (firstChan k)).feature.startExt = true ∧
  ((chan (firstChan k)).feature.pauseExt = false ∨ (chan (firstChan k)).ldPending = [])

/-- Every read that returns 0 starts exactly its transfer. -/
def ReadsExactly (p : Platform) (chan : Fin (k + 1) → Chan) (q : Request) : Prop :=
  ∀ env : CallEnv k,
    (fslRioDmaNread p env (Run.begin chan) q.destid q.loalAddr q.rioAddr q.bytecnt).1 = 0 →
    StartsExactly (CarriesRead p q)
      (fslRioDmaNread p env (Run.begin chan) q.destid q.loalAddr q.rioAddr q.bytecnt).2

/-- Every write that returns 0 starts exactly its transfer. -/
def WritesExactly (p : Platform) (chan : Fin (k + 1) → Chan) (q : Request) : Prop :=
  ∀ env : CallEnv k,
    (fslRioDmaNwrite p env (Run.begin chan) q.destid q.loalAddr q.rioAddr q.bytecnt).1 = 0 →
    StartsExactly (CarriesWrite p q)
      (fslRioDmaNwrite p env (Run.begin chan) q.destid q.loalAddr q.rioAddr q.bytecnt).2

variable {p : Platform} {chan : Fin (k + 1) → Chan} {q : Request}

/-- In an environment without failures an exact read starts exactly its transfer. -/
theorem ReadsExactly.run (h : ReadsExactly p chan q) (pts : List Point) (hpts : .started ∉ pts) :
    StartsExactly (CarriesRead p q) (readRun p (tickAt k pts) (Run.begin chan) q) := by
  have h0 := nread_returns p (responsive_tickAt k hpts) (Run.begin chan) q
  rw [← nread_run p _ _ q h0]
  exact h _ h0

theorem WritesExactly.run (h : WritesExactly p chan q) (pts : List Point)
    (hpts : .started ∉ pts) :
    StartsExactly (CarriesWrite p q) (writeRun p (tickAt k pts) (Run.begin chan) q) := by
  have h0 := nwrite_returns p (responsive_tickAt k hpts) (Run.begin chan) q
  rw [← nwrite_run p _ _ q h0]
  exact h _ h0

/-- A transfer of no bytes is no request's. -/
theorem Request.count_ne (q : Request) : (0 : Word) ≠ q.bytecnt :=
  q.bytecnt_ne.symm

theorem readReady_of_exactly (h : ReadsExactly p chan q) : ReadReady chan := by
  obtain rfl := (h.run [] (by decide)).one_channel
  -- on a little-endian channel the transfer would be the descriptor's, without the bypass
  have hip : (chan 0).feature.ip = .ip85xx := by
    by_contra hip
    obtain ⟨t, ht, hstarted⟩ := (h.run [] (by decide)).started
    obtain rfl := readRun_83xx p q (Feature.ip83xx_of_ne hip) rfl hstarted
    have hbypass := not_bypass_descWord (chan 0).feature q.rioAddr
    rw [ht.1] at hbypass
    cases (show true = false from hbypass)
  -- each other device has a run with two starts, or with one of no bytes
  have hpause : (chan 0).feature.pauseExt = false := by
    by_contra hpause
    rw [Bool.not_eq_false] at hpause
    refine not_startsExactly_of_count (readRun_pause p q rfl hip hpause) ?_
      (h.run [.submitted] (by decide))
    exact fun hcarries => q.count_ne hcarries.2.2
  refine ⟨rfl, hip, hpause, ?_⟩
  by_cases hext : (chan 0).feature.startExt = true
  · exact Or.inl hext
  · rw [Bool.not_eq_true] at hext
    refine Or.inr ⟨?_, ?_⟩
    · by_contra hpending
      exact not_startsExactly_of_two (readRun_pending p q rfl hip hext hpending)
        (h.run [.bcr] (by decide))
    · by_contra hbusy
      rw [Bool.not_eq_true] at hbusy
      exact not_startsExactly_of_two (readRun_busy p q rfl hip hext hbusy)
        (h.run [] (by decide))

theorem writeReady_of_exactly (h : WritesExactly p chan q) : WriteReady chan := by
  obtain rfl := (h.run [] (by decide)).one_channel
  have hip : (chan 0).feature.ip = .ip85xx := by
    by_contra hip
    obtain ⟨t, ht, hstarted⟩ := (h.run [] (by decide)).started
    obtain rfl := writeRun_83xx p q (Feature.ip83xx_of_ne hip) rfl hstarted
    have hbypass := not_bypass_descWord (chan 0).feature q.rioAddr
    rw [ht.2.1] at hbypass
    cases (show true = false from hbypass)
  have hext : (chan 0).feature.startExt = true := by
    by_contra hext
    rw [Bool.not_eq_true] at hext
    exact not_startsExactly_of_two (writeRun_two p q rfl hip hext) (h.run [] (by decide))
  refine ⟨rfl, hip, hext, ?_⟩
  by_cases hpause : (chan 0).feature.pauseExt = false
  · exact Or.inl hpause
  · rw [Bool.not_eq_false] at hpause
    by_contra hnot
    refine not_startsExactly_of_count (writeRun_pause p q rfl hip hext hpause ?_) ?_
      (h.run [.bcr] (by decide))
    · exact fun hpending => hnot (Or.inr hpending)
    · exact fun hcarries => q.count_ne hcarries.2.2

/-- **When a RapidIO DMA call starts exactly its transfer.**  Every read that returns 0 does so
    exactly on a read-ready device, every write on a write-ready one. -/
theorem startsExactly_iff (p : Platform) (chan : Fin (k + 1) → Chan) (q : Request) :
    (ReadsExactly p chan q ↔ ReadReady chan) ∧ (WritesExactly p chan q ↔ WriteReady chan) := by
  refine ⟨⟨readReady_of_exactly, ?_⟩, ⟨writeReady_of_exactly, ?_⟩⟩
  · rintro ⟨rfl, hip, hpause, hready⟩ env h0
    rw [nread_run p env _ q h0]
    refine startsExactly_of_started (carriesRead_readTransfer p q) ?_
    by_cases hext : (chan 0).feature.startExt = true
    · exact readRun_ext p env q rfl hip hext hpause
    · exact readRun_atRest p env q rfl hip (by simpa using hext) hpause
        (hready.resolve_left hext)
  · rintro ⟨rfl, hip, hext, hpause⟩ env h0
    rw [nwrite_run p env _ q h0]
    exact startsExactly_of_started (carriesWrite_writeTransfer p q)
      (writeRun_ext p env q rfl hip hext hpause)

/-- A freshly probed `eloplus` channel. -/
def probedChan : Chan where
  feature := ⟨.ip85xx, false, false⟩
  regs := ⟨0x08000000 ||| 0x40 ||| 0x100, [], 0, 0, 0⟩
  started := []
  idle := true
  ldPending := []
  ldRunning := []
  descPool := false
  cookie := 1
  completedCookie := 1

/-- Kernel addresses of low memory, which the platform maps one to one. -/
def lowMemory : Platform where
  virtToPhys a := a - 0xC0000000
  dmaMapSingle a := a - 0xC0000000

/-- One page from address `0x40000000` of node 5. -/
def pageRequest : Request :=
  ⟨5, 0xC1000000, 0x40000000, 0x1000, by decide, by decide, by decide⟩

/-- **Two transfers for one read.**  On a device with two channels the read returns 0; its own
    transfer runs on the last channel, and on the first the engine started a local copy from the
    RapidIO address. -/
theorem not_readsExactly_two_channels :
    (fslRioDmaNread lowMemory (tickAt 1 []) (Run.begin fun _ => probedChan) 5 0xC1000000 0x40000000
      0x1000).1 = 0 ∧
    ((fslRioDmaNread lowMemory (tickAt 1 []) (Run.begin fun _ => probedChan) 5 0xC1000000
      0x40000000 0x1000).2.chan 0).started
        = [[⟨0x0005000040000000, 0x0005000001000000, 0x1000⟩]] ∧
    ((fslRioDmaNread lowMemory (tickAt 1 []) (Run.begin fun _ => probedChan) 5 0xC1000000
      0x40000000 0x1000).2.chan 1).started = [[readTransfer lowMemory pageRequest]] ∧
    ¬ReadsExactly lowMemory (fun _ : Fin (1 + 1) => probedChan) pageRequest := by
  refine ⟨by decide +kernel, by decide +kernel, by decide +kernel, fun h => ?_⟩
  have hone := (h.run [] (by decide)).one_channel
  exact absurd hone (by decide)

end Vpx3.Dma
