import Vpx3.Dma.Exact
import Vpx3.Dma.Exits

namespace Vpx3.Dma

open Batch

/-!
# RapidIO DMA — what the failure exits leave behind

The busy poll goes on whatever it found; the exit of a lost start bit returns in front of
`free_resources`; the other exits free the descriptors and the pool of the first channel, whoever
made them:

* `CleanExit` — a nonzero result, and all that is not the call's own as it was;
* `CallStart` — the states in which a call can start; `nread_pooled`, `nwrite_pooled` — a call
  leaves no descriptor without its pool;
* `ReadClean`, `WriteClean` — the calls whose failures are clean;
* `cleanExit_iff` — exactly these.
-/

variable {k : ℕ} {env : CallEnv k} {r : Run k}

/-- Other contents of SAR, DAR and BCR. -/
def Chan.setTransfer (t : Transfer) (c : Chan) : Chan :=
  { c with regs := { c.regs with sar := t.src, dar := t.dst, bcr := t.count } }

/-- SAR, DAR and BCR hold `t`, but for the byte count that the engine clears under external
    pause.  The mode register is left out: by design both calls write 0 to it in front of their
    poll. -/
def Chan.HoldsTransfer (t : Transfer) (c : Chan) : Prop :=
  c.regs.sar = t.src ∧ c.regs.dar = t.dst
    ∧ (c.regs.bcr = t.count ∨ (c.feature.pauseExt = true ∧ c.regs.bcr = 0))

/-- A failed call is clean. -/
structure CleanExit (env : CallEnv k) (call : Run k → ℤ × Run k) (r : Run k) : Prop where
  /-- It returns nonzero. -/
  nonzero : (call r).1 ≠ 0
  /-- Whatever the transfer registers of a busy channel held (not its mode register, which is
      written before the poll), they hold it still. -/
  notProgrammed : env.Busy → ∀ t,
    ((call (r.onChan (griodmaChan k) (·.setTransfer t))).2.chan (griodmaChan k)).HoldsTransfer t
  /-- No descriptor is left that waits for the completion on the call's stack. -/
  noneLeft : ∀ i, ∀ desc ∈ ((call r).2.chan i).batch.held, desc.callbackParam ≠ some env.stDmacmp
  /-- The pools are as they were. -/
  pool : ∀ i, ((call r).2.chan i).descPool = (r.chan i).descPool
  /-- So are the descriptors of other users, but for those that tasklets finished meanwhile. -/
  kept : ∀ i, Kept env i (r.chan i).batch.held (call r).2

/-- The descriptors of the first channel come from its pool. -/
def Pooled (r : Run k) : Prop :=
  (r.chan (firstChan k)).descPool = false → (r.chan (firstChan k)).batch.held = []

/-- A call starts with a completion that is new, and without a pool nothing is queued. -/
structure CallStart (env : CallEnv k) (r : Run k) : Prop where
  fresh : Fresh env r
  pooled : Pooled r

/-- A read fails cleanly: it gets no further than the poll; or the channel is idle, and either
    there was no pool and the start bit is not lost, or there was one and the descriptor is
    allocated and finished by the time the read ends. -/
def ReadClean (env : CallEnv k) (r : Run k) (loalAddr bytecnt : Word) : Prop :=
  Accepted loalAddr bytecnt → ¬NoResources env r → ¬env.Busy ∧
    if (r.chan (firstChan k)).descPool = true then
      env.descAlloc 0 = true ∧ ReadServed env r [.started, .waiting]
        ∧ (LosesStartBit env r (ReadPending env r) → ReadServed env r [.started])
    else env.descAlloc 0 = true → ¬LosesStartBit env r (ReadPending env r)

/-- A write fails cleanly: it gets no further than the poll; or the channel is idle, and either
    there was no pool and the start bit is not lost, or there was one and the start bit is lost or
    the descriptor is allocated and finished in time. -/
def WriteClean (env : CallEnv k) (r : Run k) (loalAddr bytecnt : Word) : Prop :=
  Accepted loalAddr bytecnt → ¬NoResources env r → ¬env.Busy ∧
    if (r.chan (firstChan k)).descPool = true then
      LosesStartBit env r (WritePending env r) ∨ (env.descAlloc 0 = true ∧ WriteServed env r)
    else ¬LosesStartBit env r (WritePending env r)

/-! ### Registers -/

theorem Chan.outBe64Sar_words (v : DWord) (c : Chan) :
    (c.outBe64Sar v).words = ⟨c.feature.be64 v, c.words.dar⟩ := rfl

theorem Chan.outBe64Dar_words (v : DWord) (c : Chan) :
    (c.outBe64Dar v).words = ⟨c.words.sar, c.feature.be64 v⟩ := rfl

/-- Tasklets leave the address words alone. -/
theorem Run.softirq_words (r : Run k) (l : List (Fin (k + 1))) (i : Fin (k + 1)) :
    ((r.softirq l).chan i).words = (r.chan i).words :=
  softirq_preserves (P := fun c => c.words = (r.chan i).words)
    (fun c hc => c.tasklet_words.trans hc) l rfl

/-- So does a step that does not write them. -/
theorem Run.onChan_words (r : Run k) (j : Fin (k + 1)) (f : Chan → Chan)
    (hf : ∀ c : Chan, (f c).words = c.words) (i : Fin (k + 1)) :
    ((r.onChan j f).chan i).words = (r.chan i).words :=
  onChan_preserves (P := fun c => c.words = (r.chan i).words)
    (fun c hc => (hf c).trans hc) rfl

/-- Programming writes them, each in the channel's byte order. -/
theorem programDirect_words (env : CallEnv k) (sar dar : DWord) (bytecnt : Word) (r : Run k) :
    ((programDirect env sar dar bytecnt r).chan (griodmaChan k)).words
      = AddressWords.be64 (r.chan (griodmaChan k)).feature ⟨sar, dar⟩ := by
  have hmode := ((Advances.refl env (griodmaChan k) r).onChan (griodmaChan k)
    (·.outBe32Mr directMode) fun _ => ⟨rfl, rfl, rfl⟩).softirq .mode
  have hsar := (hmode.onChan (griodmaChan k) (·.outBe64Sar sar)
    fun _ => ⟨rfl, rfl, rfl⟩).softirq .sar
  rw [programDirect]
  generalize (r.onChan (griodmaChan k) (·.outBe32Mr directMode)).softirq (env.soft .mode) = r1
    at hmode hsar ⊢
  -- the write of BCR leaves both alone, that of DAR leaves SAR alone
  rw [Run.softirq_words, Run.onChan_words _ _ (·.outBe32Bcr bytecnt) fun _ => rfl,
    Run.softirq_words, Run.onChan_same, Chan.outBe64Dar_words, Run.softirq_words,
    Run.onChan_same, Chan.outBe64Sar_words, hsar.feature, hmode.feature]
  rfl

theorem startedRun_words (env : CallEnv k) (mode : Word) (r : Run k) (i : Fin (k + 1)) :
    ((startedRun env mode r).chan i).words = (r.chan i).words := by
  rw [startedRun, Run.softirq_words, Run.onChan_words _ _ (·.outBe32Mr mode) fun _ => rfl]

theorem trackedRun_words (env : CallEnv k) (dst src len : Word) (r : Run k) (i : Fin (k + 1)) :
    ((trackedRun env dst src len r).chan i).words = (r.chan i).words := by
  rw [trackedRun, Run.softirq_words, Run.onChan_words _ _ _ Chan.xfer_words, Run.softirq_words,
    Run.onChan_words _ _ (·.queueDesc _) fun _ => rfl]
  exact r.softirq_words _ i

theorem freeResources_words (r : Run k) (i : Fin (k + 1)) :
    (r.freeResources.chan i).words = (r.chan i).words := by
  rw [Run.freeResources, Run.onChan_words _ _ (·.fslDmaFreeChanResources) fun _ => rfl]

/-- A channel that is only polled keeps its transfer. -/
theorem polledRun_holds {t : Transfer} (h : (r.chan (griodmaChan k)).HoldsTransfer t) :
    ((polledRun env r).chan (griodmaChan k)).HoldsTransfer t := by
  have htasklet : ∀ c : Chan, c.HoldsTransfer t → c.dmaDoTasklet.HoldsTransfer t := by
    rintro c ⟨hsar, hdar, hbcr⟩
    by_cases hp : c.ldPending = []
    · rw [Chan.dmaDoTasklet_of_empty hp]
      exact ⟨hsar, hdar, hbcr⟩
    · have hf := Chan.fires_of_pending hp
      refine ⟨hf.sar.trans hsar, hf.dar.trans hdar, ?_⟩
      rw [hf.bcr, hf.feature, Chan.startBcr]
      split
      · rename_i hpause
        exact Or.inr ⟨hpause, rfl⟩
      · exact hbcr
  refine Run.softirq_preserves htasklet _ (Run.onChan_preserves ?_ ?_)
  · exact fun c hc => hc
  · exact Run.softirq_preserves htasklet _ h

/-- The resources do not depend on the transfer registers. -/
theorem noResources_setTransfer (env : CallEnv k) (r : Run k) (t : Transfer) :
    NoResources env (r.onChan (griodmaChan k) (·.setTransfer t)) ↔ NoResources env r := by
  have hpool : ((r.onChan (griodmaChan k) (·.setTransfer t)).chan (firstChan k)).descPool
      = (r.chan (firstChan k)).descPool := by
    refine Run.onChan_preserves (P := fun c => c.descPool = (r.chan (firstChan k)).descPool) ?_ rfl
    exact fun c hc => hc
  rw [NoResources, NoResources, hpool]

/-! ### Exits that are clean, and exits that are not -/

variable {call : Run k → ℤ × Run k} {v : ℤ} {r₁ : Run k}

/-- An exit that changes no pool and takes nothing off the queues. -/
theorem cleanExit_of_kept (hcall : call r = (v, r₁)) (hv : v ≠ 0) (hidle : ¬env.Busy)
    (hfresh : Fresh env r) (hpool : ∀ i, (r₁.chan i).descPool = (r.chan i).descPool)
    (hkept : ∀ i, Kept env i (r.chan i).batch.held r₁) : CleanExit env call r := by
  refine ⟨?_, fun hbusy => absurd hbusy hidle, ?_, ?_, ?_⟩ <;> rw [hcall]
  · exact hv
  · exact hfresh.of_kept hkept
  · exact hpool
  · exact hkept

/-- An exit that frees the resources where there were none before the call. -/
theorem cleanExit_of_freed (hcall : call r = (v, r₁.freeResources)) (hv : v ≠ 0)
    (hidle : ¬env.Busy) (hstart : CallStart env r)
    (hnone : (r.chan (firstChan k)).descPool = false)
    (hothers : ∀ i, i ≠ firstChan k → (r₁.chan i).descPool = (r.chan i).descPool
      ∧ Kept env i (r.chan i).batch.held r₁) : CleanExit env call r := by
  have hfirst : r₁.freeResources.chan (firstChan k)
      = (r₁.chan (firstChan k)).fslDmaFreeChanResources := Run.onChan_same _ _ _
  refine cleanExit_of_kept hcall hv hidle hstart.fresh (fun i => ?_) fun i => ?_
  · by_cases hi : i = firstChan k
    · subst hi
      rw [hfirst, hnone]
      rfl
    · rw [Run.freeResources, Run.onChan_of_ne _ hi]
      exact (hothers i hi).1
  · by_cases hi : i = firstChan k
    · -- there was nothing on the queue, and nothing is
      subst hi
      refine ⟨[], ?_, fun h => absurd rfl h, fun _ h => absurd h List.not_mem_nil⟩
      rw [hstart.pooled hnone, hfirst]
      rfl
    · exact (hothers i hi).2.onOther hi _

/-- An exit that frees the resources is clean only there. -/
theorem CleanExit.no_pool (h : CleanExit env call r) (hcall : call r = (v, r₁.freeResources)) :
    (r.chan (firstChan k)).descPool = false := by
  have hpool := h.pool (firstChan k)
  rw [hcall] at hpool
  rw [← hpool]
  dsimp only
  rw [Run.freeResources, Run.onChan_same]
  rfl

/-- A busy channel that a call programs is not left alone. -/
theorem CleanExit.not_busy (h : CleanExit env call r) (words : AddressWords)
    (hwords : ∀ t, ((call (r.onChan (griodmaChan k) (·.setTransfer t))).2.chan
      (griodmaChan k)).words = words) : ¬env.Busy := by
  intro hbusy
  -- a SAR that held something else holds it no longer
  have hholds := (h.notProgrammed hbusy ⟨words.sar + 1, 0, 0⟩).1
  have hsar := congrArg AddressWords.sar (hwords ⟨words.sar + 1, 0, 0⟩)
  exact absurd (hsar.symm.trans hholds) (by simp)

/-- The refused arguments. -/
theorem openChan_refused {loalAddr bytecnt : Word} (h : ¬Accepted loalAddr bytecnt)
    (env : CallEnv k) (r : Run k) : openChan env r loalAddr bytecnt = .error (-1, r) := by
  rw [openChan]
  by_cases hcnt : bytecnt = 0 ∨ 64 * 1024 * 1024 ≤ bytecnt.toNat
  · exact if_pos hcnt
  · rw [if_neg hcnt]
    refine if_pos ?_
    rw [not_or, Nat.not_le] at hcnt
    by_contra haddr
    exact h ⟨haddr, hcnt⟩

/-- A call that ends at its arguments. -/
theorem cleanExit_of_refused (hcall : ∀ r, call r = (-1, r)) (hfresh : Fresh env r) :
    CleanExit env call r := by
  refine ⟨?_, fun _ t => ?_, ?_, ?_, ?_⟩ <;> rw [hcall]
  · show (-1 : ℤ) ≠ 0
    decide
  · dsimp only
    rw [Run.onChan_same]
    exact ⟨rfl, rfl, Or.inl rfl⟩
  · exact hfresh
  · exact fun i => rfl
  · exact fun i => Kept.refl env i r

/-- A call that ends behind the poll. -/
theorem cleanExit_of_polled (hcall : ∀ r, NoResources env r → call r = (-19, polledRun env r))
    (hnone : NoResources env r) (hfresh : Fresh env r) : CleanExit env call r := by
  have hkept (i : Fin (k + 1)) : Kept env i (r.chan i).batch.held (polledRun env r) :=
    (Kept.refl env i r).polledRun
  refine ⟨?_, fun _ t => ?_, ?_, ?_, ?_⟩
  · rw [hcall r hnone]
    show (-19 : ℤ) ≠ 0
    decide
  · rw [hcall _ ((noResources_setTransfer env r t).mpr hnone)]
    refine polledRun_holds ?_
    rw [Run.onChan_same]
    exact ⟨rfl, rfl, Or.inl rfl⟩
  · rw [hcall r hnone]
    exact hfresh.of_kept hkept
  · rw [hcall r hnone]
    exact fun i => (polledRun_advances env i r).descPool
  · rw [hcall r hnone]
    exact hkept

/-- Nothing is left without its pool: not where the queue has only been worked off, -/
theorem pooled_of_kept (hpooled : Pooled r)
    (hpool : (r₁.chan (firstChan k)).descPool = (r.chan (firstChan k)).descPool)
    (hkept : Kept env (firstChan k) (r.chan (firstChan k)).batch.held r₁) : Pooled r₁ := by
  intro hnone
  obtain ⟨finished, hqueue, -⟩ := hkept
  rw [hpooled (hpool.symm.trans hnone)] at hqueue
  exact (List.append_eq_nil_iff.mp hqueue.symm).2

/-- nor where it has been freed. -/
theorem pooled_freeResources (r₁ : Run k) : Pooled r₁.freeResources := by
  intro _
  rw [Run.freeResources, Run.onChan_same]
  rfl

/-! ### Reads -/

section Read

variable (p : Platform) (q : Request)

/-- What a read that goes beyond the poll keeps, until it frees the resources. -/
theorem readProgrammed_kept (env : CallEnv k) (r : Run k) (i : Fin (k + 1)) :
    Kept env i (r.chan i).batch.held (readProgrammed p q env r) :=
  ((Kept.refl env i r).openedRun).programDirect _ _ _

theorem readStarted_kept {i : Fin (k + 1)} (hi : i ≠ firstChan k) (env : CallEnv k) (r : Run k) :
    Kept env i (r.chan i).batch.held (readStarted p q env r) :=
  ((readProgrammed_kept p q env r i).trackedRun hi _ _ _).startedRun _

/-- The first channel too, when nothing is left on it. -/
theorem readStarted_kept_first (hserved : ReadServed env r [.started]) :
    Kept env (firstChan k) (r.chan (firstChan k)).batch.held (readStarted p q env r) := by
  obtain ⟨desc, hkept⟩ := (readProgrammed_kept p q env r (firstChan k)).trackedRun_first
    (p.dmaMapSingle q.loalAddr) q.rioAddr q.bytecnt
  exact (hkept.startedRun _).of_append ((readStarted_held p q env r).mpr hserved)

/-- The pools of the other channels, and that of the first. -/
theorem readStarted_pool {i : Fin (k + 1)} (hi : i ≠ firstChan k) (env : CallEnv k) (r : Run k) :
    ((readStarted p q env r).chan i).descPool = (r.chan i).descPool := by
  have hstarted := ((readProgrammed_advances p q env i r).trans
    (trackedRun_advances env hi (p.dmaMapSingle q.loalAddr) q.rioAddr q.bytecnt _)).trans
    (startedRun_advances env i
      (((readIssued p q env r).chan (griodmaChan k)).inBe32Mr ||| fslDmaMrCs) _)
  refine hstarted.descPool.trans ?_
  rw [Run.openPool, Run.onChan_of_ne _ hi]

theorem readStarted_pool_first (env : CallEnv k) (r : Run k) :
    ((readStarted p q env r).chan (firstChan k)).descPool = true := by
  obtain ⟨-, -, -, hissued⟩ := trackedRun_first env (p.dmaMapSingle q.loalAddr) q.rioAddr
    q.bytecnt (readProgrammed p q env r)
  refine (startedRun_advances env _ _ _).descPool.trans (hissued.trans ?_)
  rw [(readProgrammed_advances p q env _ r).descPool, Run.openPool, Run.onChan_same]

/-- The address words are programmed, whatever they were and however the read ends. -/
theorem nread_words (hopen : ¬NoResources env r) :
    ((fslRioDmaNread p env r q.destid q.loalAddr q.rioAddr q.bytecnt).2.chan
        (griodmaChan k)).words
      = (nreadWords q.destid (p.virtToPhys q.loalAddr) q.rioAddr).be64
          (r.chan (griodmaChan k)).feature := by
  have hprogrammed : ((readProgrammed p q env r).chan (griodmaChan k)).words
      = (nreadWords q.destid (p.virtToPhys q.loalAddr) q.rioAddr).be64
          (r.chan (griodmaChan k)).feature := by
    rw [readProgrammed, programDirect_words, (openedRun_advances env _ r).feature,
      Run.openPool_feature, nreadWords]
  have hstarted : ((readStarted p q env r).chan (griodmaChan k)).words
      = (nreadWords q.destid (p.virtToPhys q.loalAddr) q.rioAddr).be64
          (r.chan (griodmaChan k)).feature := by
    rw [readStarted, startedRun_words, readIssued, trackedRun_words, hprogrammed]
  rcases nread_final p q hopen with hend | hend | hend <;> rw [hend]
  · exact (freeResources_words _ _).trans hprogrammed
  · exact hstarted
  · rw [awaitedRun, freeResources_words, Run.softirq_words, hstarted]

/-- A read is not clean on a busy channel, unless it ends behind the poll. -/
theorem nread_not_busy (hopen : ¬NoResources env r)
    (h : CleanExit env
      (fslRioDmaNread p env · q.destid q.loalAddr q.rioAddr q.bytecnt) r) : ¬env.Busy := by
  refine h.not_busy ((nreadWords q.destid (p.virtToPhys q.loalAddr) q.rioAddr).be64
    (r.chan (griodmaChan k)).feature) fun t => ?_
  refine (nread_words p q (mt (noResources_setTransfer env r t).mp hopen)).trans ?_
  rw [Run.onChan_same]
  rfl

/-- A lost start bit leaves the descriptor, unless it is finished by then. -/
theorem nread_lost_served (hopen : ¬NoResources env r) (halloc : env.descAlloc 0 = true)
    (hlost : LosesStartBit env r (ReadPending env r))
    (h : CleanExit env (fslRioDmaNread p env · q.destid q.loalAddr q.rioAddr q.bytecnt) r) :
    ReadServed env r [.started] := by
  have hleft := h.noneLeft (firstChan k)
  rw [nread_startFails p q hopen halloc hlost] at hleft
  rw [← readStarted_held p q]
  by_contra hheld
  obtain ⟨desc, hdesc, hparam⟩ := (readStarted_tracked p q env r).held hheld
  exact hleft desc hdesc hparam

/-- It leaves the pool, too. -/
theorem nread_lost_pool (hopen : ¬NoResources env r) (halloc : env.descAlloc 0 = true)
    (hlost : LosesStartBit env r (ReadPending env r))
    (h : CleanExit env (fslRioDmaNread p env · q.destid q.loalAddr q.rioAddr q.bytecnt) r) :
    (r.chan (firstChan k)).descPool = true := by
  have hpool := h.pool (firstChan k)
  rw [nread_startFails p q hopen halloc hlost] at hpool
  rw [← hpool]
  exact readStarted_pool_first p q env r

/-- A read that nothing goes wrong with does not fail. -/
theorem not_readFails (hidle : ¬env.Busy) (hopen : ¬NoResources env r)
    (halloc : env.descAlloc 0 = true) (hlost : ¬LosesStartBit env r (ReadPending env r))
    (hserved : ReadServed env r [.started, .waiting]) :
    ¬ReadFails env r q.loalAddr q.bytecnt := by
  rintro (h | h | h | h | h | h)
  · exact h ⟨q.loalAddr_ne, q.bytecnt_ne, q.bytecnt_lt⟩
  · exact hidle h
  · exact hopen h
  · rw [halloc] at h
    nomatch h
  · exact hlost h
  · exact h hserved

/-- Clean failures meet the condition. -/
theorem readClean_of_cleanExit (hfresh : Fresh env r) (hopen : ¬NoResources env r)
    (h : ReadFails env r q.loalAddr q.bytecnt →
      CleanExit env (fslRioDmaNread p env · q.destid q.loalAddr q.rioAddr q.bytecnt) r) :
    ReadClean env r q.loalAddr q.bytecnt := by
  intro _ _
  refine ⟨fun hbusy => ?_, ?_⟩
  · exact nread_not_busy p q hopen (h (Or.inr (Or.inl hbusy))) hbusy
  · have hlostFails (hlost : LosesStartBit env r (ReadPending env r)) :=
      h (Or.inr (Or.inr (Or.inr (Or.inr (Or.inl hlost)))))
    split
    · rename_i hpool
      -- an exit that frees the resources would take the pool
      have hkeeps {r₁ : Run k} (hfails : ReadFails env r q.loalAddr q.bytecnt)
          (hcall : fslRioDmaNread p env r q.destid q.loalAddr q.rioAddr q.bytecnt
            = (-19, r₁.freeResources)) : False := by
        have hnone := (h hfails).no_pool hcall
        rw [hpool] at hnone
        nomatch hnone
      have halloc : env.descAlloc 0 = true := by
        by_contra halloc
        have halloc := Bool.eq_false_of_not_eq_true halloc
        exact hkeeps (Or.inr (Or.inr (Or.inr (Or.inl halloc))))
          (nread_noDescriptor p q hopen halloc)
      have hlost (hlost : LosesStartBit env r (ReadPending env r)) :=
        nread_lost_served p q hopen halloc hlost (hlostFails hlost)
      refine ⟨halloc, ?_, hlost⟩
      by_contra hserved
      by_cases hl : LosesStartBit env r (ReadPending env r)
      · -- then it was finished even earlier
        exact hserved (hlost hl).mono
      · exact hkeeps (Or.inr (Or.inr (Or.inr (Or.inr (Or.inr hserved)))))
          (nread_timeout p q hopen halloc hl hfresh hserved)
    · rename_i hpool
      intro halloc hlost
      exact hpool (nread_lost_pool p q hopen halloc hlost (hlostFails hlost))

/-- With another user's pool the only failure is the lost start bit, behind which the read's
    descriptor is finished. -/
theorem nread_clean_of_pool (hfresh : Fresh env r) (hopen : ¬NoResources env r)
    (hidle : ¬env.Busy) (hpool : (r.chan (firstChan k)).descPool = true)
    (halloc : env.descAlloc 0 = true) (hl : LosesStartBit env r (ReadPending env r))
    (hserved : ReadServed env r [.started]) :
    CleanExit env (fslRioDmaNread p env · q.destid q.loalAddr q.rioAddr q.bytecnt) r := by
  refine cleanExit_of_kept (nread_startFails p q hopen halloc hl) (by decide) hidle hfresh
    (fun i => ?_) fun i => ?_
  · by_cases hi : i = firstChan k
    · subst hi
      rw [readStarted_pool_first, hpool]
    · exact readStarted_pool p q hi env r
  · by_cases hi : i = firstChan k
    · subst hi
      exact readStarted_kept_first p q hserved
    · exact readStarted_kept p q hi env r

/-- Without a pool the exits that free the resources leave things as they were. -/
theorem nread_clean_of_none (hstart : CallStart env r) (hopen : ¬NoResources env r)
    (hidle : ¬env.Busy) (hnone : (r.chan (firstChan k)).descPool = false)
    (hl : env.descAlloc 0 = true → ¬LosesStartBit env r (ReadPending env r))
    (hfails : ReadFails env r q.loalAddr q.bytecnt) :
    CleanExit env (fslRioDmaNread p env · q.destid q.loalAddr q.rioAddr q.bytecnt) r := by
  by_cases halloc : env.descAlloc 0 = true
  · have hserved : ¬ReadServed env r [.started, .waiting] := fun hserved =>
      not_readFails q hidle hopen halloc (hl halloc) hserved hfails
    refine cleanExit_of_freed (nread_timeout p q hopen halloc (hl halloc) hstart.fresh hserved)
      (by decide) hidle hstart hnone fun i hi => ⟨?_, ?_⟩
    · rw [((Advances.refl env i _).softirq .waiting).descPool]
      exact readStarted_pool p q hi env r
    · exact (readStarted_kept p q hi env r).softirq .waiting
  · refine cleanExit_of_freed (nread_noDescriptor p q hopen
      (Bool.eq_false_of_not_eq_true halloc)) (by decide) hidle hstart hnone
      fun i hi => ⟨?_, readProgrammed_kept p q env r i⟩
    rw [(readProgrammed_advances p q env i r).descPool, Run.openPool, Run.onChan_of_ne _ hi]

/-- **Reads.**  A read that fails is clean exactly under the condition. -/
theorem nread_clean_iff (hstart : CallStart env r) :
    (ReadFails env r q.loalAddr q.bytecnt
        → CleanExit env (fslRioDmaNread p env · q.destid q.loalAddr q.rioAddr q.bytecnt) r)
      ↔ ReadClean env r q.loalAddr q.bytecnt := by
  by_cases hopen : NoResources env r
  · refine iff_of_true (fun _ => ?_) fun _ h => absurd hopen h
    exact cleanExit_of_polled (fun r h => nread_noResources p q h) hopen hstart.fresh
  · refine ⟨readClean_of_cleanExit p q hstart.fresh hopen, fun hclean hfails => ?_⟩
    obtain ⟨hidle, hrest⟩ := hclean ⟨q.loalAddr_ne, q.bytecnt_ne, q.bytecnt_lt⟩ hopen
    by_cases hpool : (r.chan (firstChan k)).descPool = true
    · rw [if_pos hpool] at hrest
      obtain ⟨halloc, hserved, hlost⟩ := hrest
      have hl : LosesStartBit env r (ReadPending env r) := by
        by_contra hl
        exact not_readFails q hidle hopen halloc hl hserved hfails
      exact nread_clean_of_pool p q hstart.fresh hopen hidle hpool halloc hl (hlost hl)
    · rw [if_neg hpool] at hrest
      exact nread_clean_of_none p q hstart hopen hidle (Bool.eq_false_of_not_eq_true hpool) hrest
        hfails

/-- A read leaves no descriptor without its pool. -/
theorem nread_pooled (hstart : CallStart env r) :
    Pooled (fslRioDmaNread p env r q.destid q.loalAddr q.rioAddr q.bytecnt).2 := by
  by_cases hopen : NoResources env r
  · rw [nread_noResources p q hopen]
    exact pooled_of_kept hstart.pooled (polledRun_advances env _ r).descPool
      (Kept.refl env _ r).polledRun
  · rcases nread_final p q hopen with hend | hend | hend <;> rw [hend]
    · exact pooled_freeResources _
    · -- the exit in front of `free_resources` leaves the pool
      intro hnone
      rw [readStarted_pool_first] at hnone
      nomatch hnone
    · exact pooled_freeResources _

end Read

/-! ### Writes -/

section Write

variable (p : Platform) (q : Request)

theorem writeBegun_kept (env : CallEnv k) (r : Run k) (i : Fin (k + 1)) :
    Kept env i (r.chan i).batch.held (writeBegun p q env r) :=
  (((Kept.refl env i r).openedRun).programDirect _ _ _).startedRun _

theorem writeIssued_kept {i : Fin (k + 1)} (hi : i ≠ firstChan k) (env : CallEnv k) (r : Run k) :
    Kept env i (r.chan i).batch.held (writeIssued p q env r) :=
  (writeBegun_kept p q env r i).trackedRun hi _ _ _

/-- The pools of the other channels, and that of the first. -/
theorem writeBegun_pool {i : Fin (k + 1)} (hi : i ≠ firstChan k) (env : CallEnv k) (r : Run k) :
    ((writeBegun p q env r).chan i).descPool = (r.chan i).descPool := by
  rw [(writeBegun_advances p q env i r).descPool, Run.openPool, Run.onChan_of_ne _ hi]

theorem writeBegun_pool_first (env : CallEnv k) (r : Run k) :
    ((writeBegun p q env r).chan (firstChan k)).descPool = true := by
  rw [(writeBegun_advances p q env _ r).descPool, Run.openPool, Run.onChan_same]

/-- The address words are programmed, whatever they were and however the write ends. -/
theorem nwrite_words (hopen : ¬NoResources env r) :
    ((fslRioDmaNwrite p env r q.destid q.loalAddr q.rioAddr q.bytecnt).2.chan
        (griodmaChan k)).words
      = (nwriteWords q.destid (p.virtToPhys q.loalAddr) q.rioAddr).be64
          (r.chan (griodmaChan k)).feature := by
  have hbegun : ((writeBegun p q env r).chan (griodmaChan k)).words
      = (nwriteWords q.destid (p.virtToPhys q.loalAddr) q.rioAddr).be64
          (r.chan (griodmaChan k)).feature := by
    rw [writeBegun, startedRun_words, writeProgrammed, programDirect_words,
      (openedRun_advances env _ r).feature, Run.openPool_feature, nwriteWords]
  rcases nwrite_final p q hopen with hend | hend | hend <;> rw [hend]
  · exact hbegun
  · exact (freeResources_words _ _).trans hbegun
  · rw [awaitedRun, freeResources_words, Run.softirq_words, writeIssued, trackedRun_words, hbegun]

/-- A write is not clean on a busy channel, unless it ends behind the poll. -/
theorem nwrite_not_busy (hopen : ¬NoResources env r)
    (h : CleanExit env
      (fslRioDmaNwrite p env · q.destid q.loalAddr q.rioAddr q.bytecnt) r) : ¬env.Busy := by
  refine h.not_busy ((nwriteWords q.destid (p.virtToPhys q.loalAddr) q.rioAddr).be64
    (r.chan (griodmaChan k)).feature) fun t => ?_
  refine (nwrite_words p q (mt (noResources_setTransfer env r t).mp hopen)).trans ?_
  rw [Run.onChan_same]
  rfl

/-- A write that nothing goes wrong with does not fail. -/
theorem not_writeFails (hidle : ¬env.Busy) (hopen : ¬NoResources env r)
    (hlost : ¬LosesStartBit env r (WritePending env r)) (halloc : env.descAlloc 0 = true)
    (hserved : WriteServed env r) : ¬WriteFails env r q.loalAddr q.bytecnt := by
  rintro (h | h | h | h | h | h)
  · exact h ⟨q.loalAddr_ne, q.bytecnt_ne, q.bytecnt_lt⟩
  · exact hidle h
  · exact hopen h
  · rw [halloc] at h
    nomatch h
  · exact hlost h
  · exact h hserved

/-- Clean failures meet the condition. -/
theorem writeClean_of_cleanExit (hfresh : Fresh env r) (hopen : ¬NoResources env r)
    (h : WriteFails env r q.loalAddr q.bytecnt →
      CleanExit env (fslRioDmaNwrite p env · q.destid q.loalAddr q.rioAddr q.bytecnt) r) :
    WriteClean env r q.loalAddr q.bytecnt := by
  intro _ _
  refine ⟨fun hbusy => ?_, ?_⟩
  · exact nwrite_not_busy p q hopen (h (Or.inr (Or.inl hbusy))) hbusy
  · split
    · rename_i hpool
      -- an exit that frees the resources would take the pool
      have hkeeps {r₁ : Run k} (hfails : WriteFails env r q.loalAddr q.bytecnt)
          (hcall : fslRioDmaNwrite p env r q.destid q.loalAddr q.rioAddr q.bytecnt
            = (-19, r₁.freeResources)) : False := by
        have hnone := (h hfails).no_pool hcall
        rw [hpool] at hnone
        nomatch hnone
      refine or_iff_not_imp_left.mpr fun hlost => ?_
      have halloc : env.descAlloc 0 = true := by
        by_contra halloc
        have halloc := Bool.eq_false_of_not_eq_true halloc
        exact hkeeps (Or.inr (Or.inr (Or.inr (Or.inl halloc))))
          (nwrite_noDescriptor p q hopen hlost halloc)
      refine ⟨halloc, ?_⟩
      by_contra hserved
      exact hkeeps (Or.inr (Or.inr (Or.inr (Or.inr (Or.inr hserved)))))
        (nwrite_timeout p q hopen hlost halloc hfresh hserved)
    · rename_i hpool
      intro hlost
      -- a lost start bit leaves the pool that was made
      have hsame := (h (Or.inr (Or.inr (Or.inr (Or.inr (Or.inl hlost)))))).pool (firstChan k)
      rw [nwrite_startFails p q hopen hlost] at hsame
      exact hpool (hsame.symm.trans (writeBegun_pool_first p q env r))

/-- With another user's pool the only failure is the lost start bit, in front of the
    descriptor. -/
theorem nwrite_clean_of_pool (hfresh : Fresh env r) (hopen : ¬NoResources env r)
    (hidle : ¬env.Busy) (hpool : (r.chan (firstChan k)).descPool = true)
    (hl : LosesStartBit env r (WritePending env r)) :
    CleanExit env (fslRioDmaNwrite p env · q.destid q.loalAddr q.rioAddr q.bytecnt) r := by
  refine cleanExit_of_kept (nwrite_startFails p q hopen hl) (by decide) hidle hfresh
    (fun i => ?_) (writeBegun_kept p q env r)
  by_cases hi : i = firstChan k
  · subst hi
    rw [writeBegun_pool_first, hpool]
  · exact writeBegun_pool p q hi env r

/-- Without a pool the exits that free the resources leave things as they were. -/
theorem nwrite_clean_of_none (hstart : CallStart env r) (hopen : ¬NoResources env r)
    (hidle : ¬env.Busy) (hnone : (r.chan (firstChan k)).descPool = false)
    (hl : ¬LosesStartBit env r (WritePending env r))
    (hfails : WriteFails env r q.loalAddr q.bytecnt) :
    CleanExit env (fslRioDmaNwrite p env · q.destid q.loalAddr q.rioAddr q.bytecnt) r := by
  by_cases halloc : env.descAlloc 0 = true
  · have hserved : ¬WriteServed env r := fun hserved =>
      not_writeFails q hidle hopen hl halloc hserved hfails
    refine cleanExit_of_freed (nwrite_timeout p q hopen hl halloc hstart.fresh hserved)
      (by decide) hidle hstart hnone fun i hi => ⟨?_, ?_⟩
    · rw [((Advances.refl env i _).softirq .waiting).descPool, writeIssued,
        (trackedRun_advances env hi _ _ _ _).descPool]
      exact writeBegun_pool p q hi env r
    · exact (writeIssued_kept p q hi env r).softirq .waiting
  · exact cleanExit_of_freed (nwrite_noDescriptor p q hopen hl
      (Bool.eq_false_of_not_eq_true halloc)) (by decide) hidle hstart hnone
      fun i hi => ⟨writeBegun_pool p q hi env r, writeBegun_kept p q env r i⟩

/-- **Writes.**  A write that fails is clean exactly under the condition. -/
theorem nwrite_clean_iff (hstart : CallStart env r) :
    (WriteFails env r q.loalAddr q.bytecnt
        → CleanExit env (fslRioDmaNwrite p env · q.destid q.loalAddr q.rioAddr q.bytecnt) r)
      ↔ WriteClean env r q.loalAddr q.bytecnt := by
  by_cases hopen : NoResources env r
  · refine iff_of_true (fun _ => ?_) fun _ h => absurd hopen h
    exact cleanExit_of_polled (fun r h => nwrite_noResources p q h) hopen hstart.fresh
  · refine ⟨writeClean_of_cleanExit p q hstart.fresh hopen, fun hclean hfails => ?_⟩
    obtain ⟨hidle, hrest⟩ := hclean ⟨q.loalAddr_ne, q.bytecnt_ne, q.bytecnt_lt⟩ hopen
    by_cases hpool : (r.chan (firstChan k)).descPool = true
    · rw [if_pos hpool] at hrest
      have hl : LosesStartBit env r (WritePending env r) := by
        by_contra hl
        obtain ⟨halloc, hserved⟩ := hrest.resolve_left hl
        exact not_writeFails q hidle hopen hl halloc hserved hfails
      exact nwrite_clean_of_pool p q hstart.fresh hopen hidle hpool hl
    · rw [if_neg hpool] at hrest
      exact nwrite_clean_of_none p q hstart hopen hidle (Bool.eq_false_of_not_eq_true hpool) hrest
        hfails

/-- A write leaves no descriptor without its pool. -/
theorem nwrite_pooled (hstart : CallStart env r) :
    Pooled (fslRioDmaNwrite p env r q.destid q.loalAddr q.rioAddr q.bytecnt).2 := by
  by_cases hopen : NoResources env r
  · rw [nwrite_noResources p q hopen]
    exact pooled_of_kept hstart.pooled (polledRun_advances env _ r).descPool
      (Kept.refl env _ r).polledRun
  · rcases nwrite_final p q hopen with hend | hend | hend <;> rw [hend]
    · -- so does this one
      intro hnone
      rw [writeBegun_pool_first] at hnone
      nomatch hnone
    · exact pooled_freeResources _
    · exact pooled_freeResources _

end Write

/-! ### Both calls -/

/-- **Clean failures.**  The failures of a read and of a write are clean exactly under their
    conditions, whatever the arguments, the tasklets, the channels and the failures are. -/
theorem cleanExit_iff (p : Platform) (env : CallEnv k) (r : Run k) (hstart : CallStart env r)
    (destid : Byte) (loalAddr rioAddr bytecnt : Word) :
    ((ReadFails env r loalAddr bytecnt
          → CleanExit env (fslRioDmaNread p env · destid loalAddr rioAddr bytecnt) r)
        ↔ ReadClean env r loalAddr bytecnt)
      ∧ ((WriteFails env r loalAddr bytecnt
          → CleanExit env (fslRioDmaNwrite p env · destid loalAddr rioAddr bytecnt) r)
        ↔ WriteClean env r loalAddr bytecnt) := by
  by_cases hacc : Accepted loalAddr bytecnt
  · obtain ⟨haddr, hcnt, hlt⟩ := hacc
    exact ⟨nread_clean_iff p ⟨destid, loalAddr, rioAddr, bytecnt, haddr, hcnt, hlt⟩ hstart,
      nwrite_clean_iff p ⟨destid, loalAddr, rioAddr, bytecnt, haddr, hcnt, hlt⟩ hstart⟩
  · refine ⟨iff_of_true (fun _ => ?_) fun h => absurd h hacc,
      iff_of_true (fun _ => ?_) fun h => absurd h hacc⟩
    · refine cleanExit_of_refused (fun r => ?_) hstart.fresh
      rw [fslRioDmaNread, openChan_refused hacc]
      rfl
    · refine cleanExit_of_refused (fun r => ?_) hstart.fresh
      rw [fslRioDmaNwrite, openChan_refused hacc]
      rfl

/-- No tasklet runs, so that the wait times out. -/
def silentEnv : CallEnv 1 := { tickAt 1 [] with soft := fun _ => [] }

/-- Two freshly probed channels. -/
def probedRun : Run 1 := Run.begin fun _ => probedChan

/-- Another user has made the pool of the first channel. -/
def pooledRun : Run 1 := probedRun.openPool

theorem callStart_probedRun (env : CallEnv 1) : CallStart env probedRun :=
  ⟨fun _ _ h => absurd h List.not_mem_nil, fun _ => rfl⟩

theorem callStart_pooledRun (env : CallEnv 1) : CallStart env pooledRun := by
  refine ⟨fun i desc h => ?_, fun h => (nomatch h)⟩
  rw [pooledRun, Run.openPool_batch] at h
  exact absurd h List.not_mem_nil

/-- Without a pool before, calls that time out are clean. -/
theorem cleanExit_probedRun :
    CleanExit silentEnv (fslRioDmaNread lowMemory silentEnv · 5 0xC1000000 0x40000000 0x1000)
        probedRun
      ∧ CleanExit silentEnv
        (fslRioDmaNwrite lowMemory silentEnv · 5 0xC1000000 0x40000000 0x1000) probedRun := by
  have hclean := cleanExit_iff lowMemory silentEnv probedRun (callStart_probedRun silentEnv) 5
    0xC1000000 0x40000000 0x1000
  have hidle : ¬silentEnv.Busy := by
    rw [CallEnv.Busy]
    decide
  have hkept (pending : Prop) : ¬LosesStartBit silentEnv probedRun pending := by
    rintro (h | h)
    · nomatch h
    · exact absurd h.1 (by decide)
  refine ⟨hclean.1.mpr (fun _ _ => ⟨hidle, fun _ => hkept _⟩) ?_,
    hclean.2.mpr (fun _ _ => ⟨hidle, hkept _⟩) ?_⟩
  · refine Or.inr (Or.inr (Or.inr (Or.inr (Or.inr ?_))))
    rw [ReadServed, Served]
    decide
  · refine Or.inr (Or.inr (Or.inr (Or.inr (Or.inr ?_))))
    rw [WriteServed, Served]
    decide

/-- A read of a busy channel returns 0; a read whose start bit does not stick leaves its
    descriptor; a write that times out destroys the pool of another user. -/
theorem not_cleanExit :
    (∃ env : CallEnv 1, CallStart env probedRun
        ∧ ReadFails env probedRun 0xC1000000 0x1000
        ∧ ¬CleanExit env (fslRioDmaNread lowMemory env · 5 0xC1000000 0x40000000 0x1000)
          probedRun)
      ∧ (∃ env : CallEnv 1, CallStart env pooledRun
        ∧ ReadFails env pooledRun 0xC1000000 0x1000
        ∧ ¬CleanExit env (fslRioDmaNread lowMemory env · 5 0xC1000000 0x40000000 0x1000)
          pooledRun)
      ∧ (∃ env : CallEnv 1, CallStart env pooledRun
        ∧ WriteFails env pooledRun 0xC1000000 0x1000
        ∧ ¬CleanExit env (fslRioDmaNwrite lowMemory env · 5 0xC1000000 0x40000000 0x1000)
          pooledRun) := by
  refine ⟨⟨{ tickAt 1 [] with sr := fun _ => 4 }, callStart_probedRun _, Or.inr (Or.inl ?_),
      fun h => ?_⟩,
    ⟨{ silentEnv with startSticks := false }, callStart_pooledRun _,
      Or.inr (Or.inr (Or.inr (Or.inr (Or.inl (Or.inl rfl))))), fun h => ?_⟩,
    ⟨silentEnv, callStart_pooledRun _, Or.inr (Or.inr (Or.inr (Or.inr (Or.inr ?_)))),
      fun h => ?_⟩⟩
  · rw [CallEnv.Busy]
    decide +kernel
  · exact absurd h.nonzero (by decide +kernel)
  · have hleft := h.noneLeft 0
    exact absurd hleft (by decide +kernel)
  · rw [WriteServed, Served]
    decide
  · exact absurd (h.pool 0) (by decide +kernel)

end Vpx3.Dma
