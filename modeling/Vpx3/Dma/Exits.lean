import Vpx3.Dma.Queues

namespace Vpx3.Dma

open Batch

/-!
# RapidIO DMA — the exits of the calls

What a call returns, in terms of its arguments, the state it is called in and the tasklets that run
in between:

* `csReads_ticks` — a start bit is lost to a tasklet under external start;
* `Unserved`, `awaitCopy_ok`, `awaitCopy_error` — the wait ends well when the queue is empty;
* `ReadFails`, `WriteFails` — the failures;
* `nread_noResources`, …, `nread_served` — the exits of a read, one equation for each;
* `nwrite_noResources`, …, `nwrite_served` — the exits of a write;
* `nread_zero_iff`, `nwrite_zero_iff` — when a call returns 0.
-/

variable {k : ℕ} {env : CallEnv k} {r : Run k}

/-! ### The start bit -/

namespace Chan

/-- The start bit as `in_be32` reads it. -/
def csReads (c : Chan) : Bool := csBit c.inBe32Mr

/-- On a little-endian channel it is bit 24 of the register. -/
theorem csReads_eq (c : Chan) :
    c.csReads = if c.feature.ip = .ip85xx then csBit c.regs.mr else c.regs.mr.getLsbD 24 := by
  rw [csReads, inBe32Mr, Feature.be32]
  split
  · rfl
  · exact getLsbD_bswap32_low c.regs.mr (by decide)

/-- What was written reads back. -/
theorem csReads_outBe32Mr (c : Chan) (mode : Word) : (c.outBe32Mr mode).csReads = csBit mode := by
  rw [csReads]
  exact congrArg csBit (Feature.be32_be32 c.feature mode)

/-- The engine does not touch bit 24: not when it clears the start bit, -/
theorem clearStart_mr_24 (c : Chan) :
    c.clearStart.regs.mr.getLsbD 24 = c.regs.mr.getLsbD 24 := by
  rw [clearStart]
  split
  · simp [fslDmaMrCs]
  · rfl

/-- not when it sets the mode, -/
theorem dmaStart_mr_24 (c : Chan) : c.dmaStart.regs.mr.getLsbD 24 = c.regs.mr.getLsbD 24 := by
  unfold dmaStart
  by_cases hpause : c.feature.pauseExt <;> by_cases hext : c.feature.startExt <;>
    simp only [hpause, hext, if_true, Bool.false_eq_true, if_false, setBcr, writeMr_mr] <;>
    simp [fslDmaMrEmpEn, fslDmaMrEmsEn, fslDmaMrCs]

/-- and so not at all. -/
theorem xfer_mr_24 (c : Chan) :
    c.fslChanXferLdQueue.regs.mr.getLsbD 24 = c.regs.mr.getLsbD 24 := by
  by_cases hw : c.ldPending = [] ∨ c.idle = false
  · rw [fslChanXferLdQueue_of_waiting hw]
  · rw [not_or, Bool.not_eq_false] at hw
    rw [fslChanXferLdQueue, if_neg hw.1, if_neg (by rw [hw.2]; decide)]
    exact (dmaStart_mr_24 _).trans (clearStart_mr_24 c.splice)

/-- The engine clears the start bit of an 85xx channel, and sets it again unless external start is
    on. -/
theorem xfer_mr_cs {c : Chan} (hip : c.feature.ip = .ip85xx) (hp : c.ldPending ≠ [])
    (hi : c.idle = true) : csBit c.fslChanXferLdQueue.regs.mr = !c.feature.startExt := by
  obtain ⟨halted, hclear, -, hclear0⟩ := c.splice.clearStart_eq
  obtain ⟨mode, hstart, hstart0, -⟩ :=
    (c.splice.clearStart.setCdar (c.ldPending.map (·.hw))).dmaStart_eq
  rw [hclear] at hstart hstart0
  rw [fslChanXferLdQueue, if_neg hp, if_neg (by rw [hi]; decide)]
  dsimp only
  rw [hclear, hstart]
  have hmode : csBit mode = (!c.feature.startExt || csBit halted) := hstart0
  rw [hclear0 (Or.inl hip), Bool.or_false] at hmode
  exact hmode

/-- A tasklet with nothing pending leaves the start bit as it is. -/
theorem csReads_ticks_of_empty {c : Chan} (h : c.ldPending = []) (n : ℕ) :
    (dmaDoTasklet^[n] c).csReads = c.csReads := by
  induction n generalizing c with
  | zero => rfl
  | succ n ih =>
    rw [Function.iterate_succ_apply, dmaDoTasklet_of_empty h]
    exact ih h

/-- External start is on: the engine of an 85xx channel with pending descriptors takes the start
    bit away. -/
def LosesStart (c : Chan) : Prop :=
  c.feature.ip = .ip85xx ∧ c.feature.startExt = true ∧ c.ldPending ≠ []

/-- The start bit is lost exactly to a tasklet of such a channel. -/
theorem csReads_ticks {c : Chan} (hcs : c.csReads = true) (n : ℕ) :
    (dmaDoTasklet^[n] c).csReads = false ↔ 0 < n ∧ c.LosesStart := by
  rcases n with _ | n
  · simp [hcs]
  · rw [Function.iterate_succ_apply]
    by_cases hp : c.ldPending = []
    · -- nothing pending: the tasklets leave the register alone
      rw [dmaDoTasklet_of_empty hp, csReads_ticks_of_empty (c := c.retire) hp]
      have hsame : c.retire.csReads = true := hcs
      simp [hsame, LosesStart, hp]
    · -- the first tasklet takes what is pending, and the others find nothing
      have hf := fires_of_pending hp
      rw [csReads_ticks_of_empty hf.ldPending, csReads_eq, c.tasklet_feature]
      by_cases hip : c.feature.ip = .ip85xx
      · -- the big-endian view shows the bit the engine writes
        have hmr : csBit c.dmaDoTasklet.regs.mr = !c.feature.startExt :=
          xfer_mr_cs (c := c.retire) hip hp rfl
        rw [if_pos hip, hmr]
        simp [LosesStart, hip, hp]
      · -- the little-endian one shows bit 24, which it leaves alone
        have hmr : c.dmaDoTasklet.regs.mr.getLsbD 24 = c.regs.mr.getLsbD 24 :=
          c.retire.xfer_mr_24
        rw [csReads_eq, if_neg hip] at hcs
        rw [if_neg hip, hmr, hcs]
        simp [LosesStart, hip]

end Chan

/-- The start bit that was written does not read back. -/
def StartFails (env : CallEnv k) (r : Run k) : Prop :=
  env.startSticks = false
    ∨ (0 < env.ticks (griodmaChan k) [.started] ∧ (r.chan (griodmaChan k)).LosesStart)

/-- The mode register after the tasklets. -/
theorem csReads_startedRun {mode : Word} (hmode : csBit mode = true) :
    ((startedRun env mode r).chan (griodmaChan k)).csReads = false
      ↔ 0 < env.ticks (griodmaChan k) [.started] ∧ (r.chan (griodmaChan k)).LosesStart := by
  have hwritten : ((r.chan (griodmaChan k)).outBe32Mr mode).csReads = true :=
    (Chan.csReads_outBe32Mr _ mode).trans hmode
  rw [startedRun, Run.softirq_chan, Run.onChan_same, Chan.csReads_ticks hwritten, CallEnv.ticks,
    List.flatMap_singleton]
  exact Iff.rfl

/-- A word lacks the start bit when masking it out gives something else. -/
theorem and_start_ne (v : Word) : v &&& fslDmaMrCs ≠ fslDmaMrCs ↔ csBit v = false := by
  rw [Ne, ← not_iff_not, not_not, Bool.not_eq_false]
  constructor
  · intro h
    have hbit := congrArg csBit h
    simpa [fslDmaMrCs] using hbit
  · intro h
    ext i hi
    by_cases h0 : i = 0
    · subst h0
      simp [h, fslDmaMrCs]
    · simp [fslDmaMrCs, h0]

/-- The check of the start bit, either way. -/
theorem startDirect_error {mode : Word} (hmode : csBit mode = true) (h : StartFails env r) :
    startDirect env mode r = .error (-1, startedRun env mode r) := by
  rw [startDirect]
  refine if_pos ((and_start_ne _).mpr ?_)
  by_cases hs : env.startSticks = true
  · rw [if_pos hs]
    rcases h with h | h
    · rw [h] at hs
      nomatch hs
    · exact (csReads_startedRun hmode).mpr h
  · rw [if_neg hs]
    simp [fslDmaMrCs]

theorem startDirect_ok {mode : Word} (hmode : csBit mode = true) (h : ¬StartFails env r) :
    startDirect env mode r = .ok (startedRun env mode r) := by
  rw [StartFails, not_or, Bool.not_eq_false] at h
  rw [startDirect]
  refine if_neg fun hne => h.2 ((csReads_startedRun hmode).mp ?_)
  have hbit := (and_start_ne _).mp hne
  rw [if_pos h.1] at hbit
  exact hbit

/-! ### The wait -/

/-- The descriptor queued last on the first channel is the only one that waits for the call's
    completion, which is signalled when it is off the queue. -/
structure Unserved (env : CallEnv k) (r : Run k) : Prop where
  others : ∀ i, i ≠ firstChan k → ∀ desc ∈ (r.chan i).batch.held,
    desc.callbackParam ≠ some env.stDmacmp
  first : ∀ desc ∈ (r.chan (firstChan k)).batch.held.dropLast,
    desc.callbackParam ≠ some env.stDmacmp
  signalled : env.stDmacmp ∈ r.completions → (r.chan (firstChan k)).batch.held = []

namespace Unserved

/-- A tasklet takes descriptors off its queue and adds none. -/
theorem held_of_tasklet {i j : Fin (k + 1)} {desc : Desc}
    (hd : desc ∈ ((r.tasklet j).chan i).batch.held) : desc ∈ (r.chan i).batch.held := by
  by_cases hij : i = j
  · subst hij
    rw [Run.tasklet_same, Chan.batch_tasklet] at hd
    rw [Queue.held_tick]
    exact List.mem_append_right _ hd
  · rwa [r.tasklet_of_ne hij] at hd

/-- A completion signalled by a tasklet is one for which a descriptor of the batch waits. -/
theorem callbackParam_of_mem {c : Chan} {cmp : ℕ} (hc : cmp ∈ c.callbacks) :
    ∃ desc ∈ c.ldRunning, desc.callbackParam = some cmp := List.mem_filterMap.mp hc

/-- The tasklet of the first channel signals the completion only if it leaves the queue empty. -/
theorem tasklet_first (h : Unserved env r) : Unserved env (r.tasklet (firstChan k)) := by
  have hsplit : (r.chan (firstChan k)).batch.held
      = (r.chan (firstChan k)).ldRunning ++ (r.chan (firstChan k)).ldPending := rfl
  have hleft : ((r.tasklet (firstChan k)).chan (firstChan k)).batch.held
      = (r.chan (firstChan k)).ldPending := by
    rw [Run.tasklet_same, Chan.batch_tasklet, Queue.held, Queue.tick_pending,
      Queue.tick_running, List.append_nil]
    rfl
  refine ⟨fun i hi desc hd => h.others i hi desc (held_of_tasklet hd), ?_, ?_⟩
  · -- what was pending runs now, and its last one is still the last of all
    intro desc hd
    rw [hleft] at hd
    refine h.first desc ?_
    have hne : (r.chan (firstChan k)).ldPending ≠ [] :=
      List.ne_nil_of_mem (List.mem_of_mem_dropLast hd)
    rw [hsplit, List.dropLast_append_of_ne_nil hne]
    exact List.mem_append_right _ hd
  · -- a descriptor in front of what is left does not wait for the completion
    intro hmem
    rw [hleft]
    by_contra hne
    rcases List.mem_append.mp hmem with hold | hnew
    · have hnil := h.signalled hold
      rw [hsplit, List.append_eq_nil_iff] at hnil
      exact hne hnil.2
    · obtain ⟨desc, hd, hparam⟩ := callbackParam_of_mem hnew
      refine h.first desc ?_ hparam
      rw [hsplit, List.dropLast_append_of_ne_nil hne]
      exact List.mem_append_left _ hd

/-- The tasklet of another channel does not signal it. -/
theorem tasklet_other (h : Unserved env r) {j : Fin (k + 1)} (hj : firstChan k ≠ j) :
    Unserved env (r.tasklet j) := by
  refine ⟨fun i hi desc hd => h.others i hi desc (held_of_tasklet hd), ?_, ?_⟩
  · rw [r.tasklet_of_ne hj]
    exact h.first
  · rw [r.tasklet_of_ne hj]
    intro hmem
    rcases List.mem_append.mp hmem with hold | hnew
    · exact h.signalled hold
    · obtain ⟨desc, hd, hparam⟩ := callbackParam_of_mem hnew
      exact absurd hparam (h.others j (Ne.symm hj) desc (List.mem_append_left _ hd))

theorem tasklet (h : Unserved env r) (j : Fin (k + 1)) : Unserved env (r.tasklet j) := by
  by_cases hj : firstChan k = j
  · subst hj
    exact h.tasklet_first
  · exact h.tasklet_other hj

theorem softirq (h : Unserved env r) (l : List (Fin (k + 1))) : Unserved env (r.softirq l) := by
  induction l generalizing r with
  | nil => exact h
  | cons j l ih => exact ih (h.tasklet j)

/-- A step that leaves the queue of its channel as it is. -/
theorem onChan (h : Unserved env r) (j : Fin (k + 1)) (f : Chan → Chan)
    (hf : ∀ c : Chan, (f c).batch.held = c.batch.held) : Unserved env (r.onChan j f) := by
  have hsame (i : Fin (k + 1)) : ((r.onChan j f).chan i).batch.held = (r.chan i).batch.held :=
    Run.onChan_preserves (P := fun c => c.batch.held = (r.chan i).batch.held)
      (fun c hc => (hf c).trans hc) rfl
  refine ⟨fun i => ?_, ?_, ?_⟩
  · rw [hsame]
    exact h.others i
  · rw [hsame]
    exact h.first
  · rw [hsame]
    exact h.signalled

end Unserved

/-- No descriptor in the queues waits for the call's completion yet. -/
def Fresh (env : CallEnv k) (r : Run k) : Prop :=
  ∀ i, ∀ desc ∈ (r.chan i).batch.held, desc.callbackParam ≠ some env.stDmacmp

/-- What has been kept of fresh queues is fresh. -/
theorem Fresh.of_kept {r' : Run k} (h : Fresh env r)
    (hkept : ∀ i, Kept env i (r.chan i).batch.held r') : Fresh env r' :=
  fun i desc hd => h i desc ((hkept i).mem hd)

/-- Queueing the call's descriptor, from `init_completion` on. -/
theorem Fresh.trackedRun (h : Fresh env r) (dst src len : Word) :
    Unserved env (trackedRun env dst src len r) := by
  have hprepped : Fresh env (r.softirq (env.soft .prepped)) :=
    h.of_kept fun i => (Kept.refl env i r).softirq .prepped
  rw [Dma.trackedRun]
  -- `init_completion` takes an old signal away, and only then the descriptor is queued
  generalize r.softirq (env.soft .prepped) = r1 at hprepped ⊢
  generalize copyDesc _ env.stDmacmp dst src len = desc
  have hqueued : Unserved env
      ((r1.initCompletion env.stDmacmp).onChan (firstChan k) (·.queueDesc desc)) := by
    refine ⟨fun i hi => ?_, ?_, ?_⟩
    · rw [Run.onChan_of_ne _ hi]
      exact hprepped i
    · rw [Run.onChan_same, Chan.batch_queueDesc, Queue.held_push, List.dropLast_concat]
      exact hprepped (firstChan k)
    · intro hmem
      exact absurd (List.mem_filter.mp hmem).2 (by simp)
  refine ((hqueued.softirq (env.soft .submitted)).onChan (firstChan k) (·.fslChanXferLdQueue)
    fun c => ?_).softirq (env.soft .issued)
  rw [c.batch_xfer, Queue.held_fire]

/-- A tracked descriptor that is still queued is there with its completion. -/
theorem Tracked.held {cookie : Word} (h : Tracked env.stDmacmp cookie r)
    (hheld : (r.chan (firstChan k)).batch.held ≠ []) :
    ∃ desc ∈ (r.chan (firstChan k)).batch.held, desc.callbackParam = some env.stDmacmp := by
  cases h.stage with
  | pending desc last _ hparam =>
    exact ⟨desc, List.mem_append_right _ (List.mem_of_getLast? last), hparam⟩
  | running _ desc last _ hparam =>
    exact ⟨desc, List.mem_append_left _ (List.mem_of_getLast? last), hparam⟩
  | done empty idle =>
    exact absurd ((Chan.batch_held _).mpr ⟨idle, empty⟩) hheld

/-- The wait ends well when the queue is empty by then. -/
theorem awaitCopy_ok {cookie : Word} (h : Tracked env.stDmacmp cookie r)
    (hheld : ((r.softirq (env.soft .waiting)).chan (firstChan k)).batch.held = []) :
    awaitCopy env cookie r = .ok (awaitedRun env r) := by
  have hw := h.softirq (env.soft .waiting)
  obtain ⟨hrunning, hpending⟩ := (Chan.batch_held _).mp hheld
  rw [awaitCopy]
  refine if_neg ?_
  cases hw.stage with
  | pending desc last =>
    rw [hpending] at last
    nomatch last
  | running _ desc last =>
    rw [hrunning] at last
    nomatch last
  | done _ _ hcookie signalled =>
    have hstatus := Chan.fslTxStatus_of_last hw.last hcookie
    rw [hstatus]
    simp [signalled]

/-- Otherwise it times out. -/
theorem awaitCopy_error (cookie : Word) (h : Unserved env r)
    (hheld : ((r.softirq (env.soft .waiting)).chan (firstChan k)).batch.held ≠ []) :
    awaitCopy env cookie r = .error (-19, awaitedRun env r) := by
  rw [awaitCopy]
  refine if_pos (Or.inl fun hmem => hheld ?_)
  exact (h.softirq (env.soft .waiting)).signalled hmem

/-- Either way it ends in the same state. -/
theorem awaitCopy_final (env : CallEnv k) (cookie : Word) (r : Run k) :
    (Step.outcome (awaitCopy env cookie r)).2 = awaitedRun env r := by
  rw [awaitCopy]
  split <;> rfl

/-! ### The failures of a call -/

/-- The arguments pass the checks. -/
def Accepted (loalAddr bytecnt : Word) : Prop :=
  loalAddr ≠ 0 ∧ bytecnt ≠ 0 ∧ bytecnt.toNat < 64 * 1024 * 1024

/-- The channel is still busy after the polling budget. -/
def CallEnv.Busy (env : CallEnv k) : Prop := pollIdle env.sr 0x100 0 = false

/-- There is no pool, and none can be created. -/
def NoResources (env : CallEnv k) (r : Run k) : Prop :=
  (r.chan (firstChan k)).descPool = false ∧ env.poolCreated = false

/-- The points of a call up to the byte count register. -/
def programPoints : List Point := [.entry, .polled, .resources, .mode, .sar, .dar, .bcr]

/-- The queue of the first channel has worked off the descriptor of a call after the tasklets at
    `after`; it was queued after those at `before`, and issued after those at `submitted`. -/
def Served (env : CallEnv k) (r : Run k) (before after : List Point) : Prop :=
  (r.chan (firstChan k)).batch.rounds (env.ticks (firstChan k) before)
      (env.ticks (firstChan k) [.submitted])
    ≤ env.ticks (firstChan k) [.submitted] + env.ticks (firstChan k) after

/-- The read's descriptor is finished by the tasklets at `after`. -/
def ReadServed (env : CallEnv k) (r : Run k) (after : List Point) : Prop :=
  Served env r (programPoints ++ [.prepped]) (.issued :: after)

/-- What is finished stays finished. -/
theorem ReadServed.mono {after more : List Point} (h : ReadServed env r after) :
    ReadServed env r (after ++ more) := by
  have hmore := env.ticks_append (firstChan k) (.issued :: after) more
  rw [List.cons_append] at hmore
  rw [ReadServed, Served] at h ⊢
  omega

/-- The write's descriptor, which is queued after the start, is finished in time. -/
def WriteServed (env : CallEnv k) (r : Run k) : Prop :=
  Served env r (programPoints ++ [.started, .prepped]) [.issued, .waiting]

/-- Descriptors are pending on `griodma_chan` when a read sets the start bit: its own, which waits
    for a busy channel, or another user's. -/
def ReadPending (env : CallEnv k) (r : Run k) : Prop :=
  if griodmaChan k = firstChan k then
    env.ticks (firstChan k) [.submitted] + env.ticks (firstChan k) [.issued] = 0
      ∧ (r.chan (firstChan k)).batch.idleAfter
          (env.ticks (firstChan k) (programPoints ++ [.prepped])) = false
  else
    (r.chan (griodmaChan k)).ldPending ≠ []
      ∧ env.ticks (griodmaChan k) (programPoints ++ [.prepped, .submitted, .issued]) = 0

/-- They are another user's when a write does. -/
def WritePending (env : CallEnv k) (r : Run k) : Prop :=
  (r.chan (griodmaChan k)).ldPending ≠ [] ∧ env.ticks (griodmaChan k) programPoints = 0

/-- A start bit that does not stick, or that a tasklet of `griodma_chan` takes away: the channel is
    an 85xx one under external start and has something pending. -/
def LosesStartBit (env : CallEnv k) (r : Run k) (pending : Prop) : Prop :=
  env.startSticks = false
    ∨ (0 < env.ticks (griodmaChan k) [.started]
      ∧ (r.chan (griodmaChan k)).feature.ip = .ip85xx
      ∧ (r.chan (griodmaChan k)).feature.startExt = true ∧ pending)

/-- The failures of a read: its arguments, the poll, the resources, the descriptor, the start bit
    and the wait.  A submit error is not among them, as no cookie is negative
    (`Chan.dmaCookieAssign_pos`). -/
def ReadFails (env : CallEnv k) (r : Run k) (loalAddr bytecnt : Word) : Prop :=
  ¬Accepted loalAddr bytecnt ∨ env.Busy ∨ NoResources env r ∨ env.descAlloc 0 = false
    ∨ LosesStartBit env r (ReadPending env r) ∨ ¬ReadServed env r [.started, .waiting]

/-- The failures of a write. -/
def WriteFails (env : CallEnv k) (r : Run k) (loalAddr bytecnt : Word) : Prop :=
  ¬Accepted loalAddr bytecnt ∨ env.Busy ∨ NoResources env r ∨ env.descAlloc 0 = false
    ∨ LosesStartBit env r (WritePending env r) ∨ ¬WriteServed env r

variable {before after : List Point} {r₁ r₂ : Run k}

/-- The queue of the first channel is empty exactly when it has served the call's descriptor. -/
theorem held_iff_served (h : Advances env (firstChan k) before r.openPool r₁) (dst src len : Word)
    (h' : Advances env (firstChan k) after (trackedRun env dst src len r₁) r₂) :
    (r₂.chan (firstChan k)).batch.held = [] ↔ Served env r (before ++ [.prepped]) (.issued :: after)
    := by
  obtain ⟨desc, hbatch⟩ := trackedRun_served h dst src len
  have hafter := env.ticks_append (firstChan k) [.issued] after
  rw [h'.batch, hbatch, Queue.served_ticks, Queue.served_iff, Served]
  rw [List.singleton_append] at hafter
  rw [hafter, Nat.add_comm (env.ticks (firstChan k) after)]

/-- The start bit is lost to what is pending on `griodma_chan` then. -/
theorem startFails_iff {pending : Prop}
    (hfeature : (r₁.chan (griodmaChan k)).feature = (r.chan (griodmaChan k)).feature)
    (hpending : (r₁.chan (griodmaChan k)).ldPending ≠ [] ↔ pending) :
    StartFails env r₁ ↔ LosesStartBit env r pending := by
  rw [StartFails, LosesStartBit, Chan.LosesStart, hfeature, hpending]

/-- Tasklets take what is pending. -/
theorem Advances.pending {i : Fin (k + 1)} {pts : List Point}
    (h : Advances env i pts r.openPool r₁) :
    (r₁.chan i).ldPending ≠ [] ↔ (r.chan i).ldPending ≠ [] ∧ env.ticks i pts = 0 := by
  have hpending : (r₁.chan i).batch.pending = []
      ↔ (r.chan i).batch.pending = [] ∨ 0 < env.ticks i pts := by
    rw [h.batch, Run.openPool_batch, Queue.ticks_pending]
  have hiff := not_congr hpending
  rw [not_or, Nat.not_lt, Nat.le_zero] at hiff
  exact hiff

/-! ### The exits of a read -/

section Read

variable (p : Platform) (q : Request)

/-- The state in which a read has programmed `griodma_chan`. -/
def readProgrammed (env : CallEnv k) (r : Run k) : Run k :=
  programDirect env (rapidioSrcWord q.destid q.rioAddr) (localWord (p.virtToPhys q.loalAddr))
    q.bytecnt (openedRun env r)

/-- The state in which its descriptor has been issued. -/
def readIssued (env : CallEnv k) (r : Run k) : Run k :=
  trackedRun env (p.dmaMapSingle q.loalAddr) q.rioAddr q.bytecnt (readProgrammed p q env r)

/-- The state in which the start bit has been set. -/
def readStarted (env : CallEnv k) (r : Run k) : Run k :=
  startedRun env
    (((readIssued p q env r).chan (griodmaChan k)).inBe32Mr ||| fslDmaMrCs) (readIssued p q env r)

/-- The queues of a read, up to the programming. -/
theorem readProgrammed_advances (env : CallEnv k) (i : Fin (k + 1)) (r : Run k) :
    Advances env i programPoints r.openPool (readProgrammed p q env r) :=
  (openedRun_advances env i r).trans (programDirect_advances env i _ _ _ _)

/-- When the start bit of a read is lost. -/
theorem readStart_iff :
    StartFails env (readIssued p q env r) ↔ LosesStartBit env r (ReadPending env r) := by
  have hprogrammed := readProgrammed_advances p q env (griodmaChan k) r
  by_cases hone : griodmaChan k = firstChan k
  · -- one channel for both: what is pending there is the call's own descriptor
    rw [ReadPending, if_pos hone]
    rw [hone] at hprogrammed
    obtain ⟨desc, hbatch⟩ := trackedRun_served hprogrammed (p.dmaMapSingle q.loalAddr) q.rioAddr
      q.bytecnt
    obtain ⟨-, -, hfeature, -⟩ := trackedRun_first env (p.dmaMapSingle q.loalAddr) q.rioAddr
      q.bytecnt (readProgrammed p q env r)
    refine startFails_iff ?_ ?_
    · rw [hone, readIssued, hfeature, hprogrammed.feature, Run.openPool_feature]
    · have hpending := (r.chan (firstChan k)).batch.served_pending desc
        (env.ticks (firstChan k) (programPoints ++ [.prepped]))
        (env.ticks (firstChan k) [.submitted]) (env.ticks (firstChan k) [.issued])
      rw [← hbatch] at hpending
      rw [hone]
      exact hpending
  · -- the descriptor went to another channel
    rw [ReadPending, if_neg hone]
    have hissued := hprogrammed.trans (trackedRun_advances env hone (p.dmaMapSingle q.loalAddr)
      q.rioAddr q.bytecnt (readProgrammed p q env r))
    refine startFails_iff ?_ hissued.pending
    exact hissued.feature.trans (r.openPool_feature _)

/-- No pool and no memory for one. -/
theorem openChan_noResources (h : NoResources env r) :
    openChan env r q.loalAddr q.bytecnt = .error (-19, polledRun env r) := by
  have hpool := (polledRun_advances env (firstChan k) r).descPool.trans h.1
  rw [openChan_eq]
  dsimp only
  rw [show (Run.softirq _ _ : Run k) = polledRun env r from rfl, hpool, h.2]
  rfl

theorem openChan_resources (h : ¬NoResources env r) :
    openChan env r q.loalAddr q.bytecnt = .ok (openedRun env r) := by
  have hpool := (polledRun_advances env (firstChan k) r).descPool
  rw [openChan_eq]
  dsimp only
  rw [show (Run.softirq _ _ : Run k) = polledRun env r from rfl, hpool]
  refine if_pos ?_
  rw [Bool.or_eq_true]
  by_contra hnone
  rw [not_or, Bool.not_eq_true, Bool.not_eq_true] at hnone
  exact h hnone

theorem trackCopy_error (h : env.descAlloc 0 = false) (dst src : Word) :
    trackCopy env dst src q.bytecnt r = .error (-19, r.freeResources) := by
  rw [trackCopy_eq env dst src q.bytecnt_ne q.bytecnt_le, h]
  rfl

/-- A read without resources ends behind the poll. -/
theorem nread_noResources (h : NoResources env r) :
    fslRioDmaNread p env r q.destid q.loalAddr q.rioAddr q.bytecnt = (-19, polledRun env r) := by
  rw [fslRioDmaNread, openChan_noResources q h]
  rfl

/-- A read with resources goes on from the channel it has programmed. -/
theorem nread_opened (hopen : ¬NoResources env r) :
    fslRioDmaNread p env r q.destid q.loalAddr q.rioAddr q.bytecnt
      = Step.outcome (trackCopy env (p.dmaMapSingle q.loalAddr) q.rioAddr q.bytecnt
          (readProgrammed p q env r) >>= fun t =>
        startDirect env ((t.1.chan (griodmaChan k)).inBe32Mr ||| fslDmaMrCs) t.1 >>=
          awaitCopy env t.2) := by
  rw [fslRioDmaNread, openChan_resources q hopen]
  rfl

/-- A read that gets no descriptor frees the resources. -/
theorem nread_noDescriptor (hopen : ¬NoResources env r) (h : env.descAlloc 0 = false) :
    fslRioDmaNread p env r q.destid q.loalAddr q.rioAddr q.bytecnt
      = (-19, (readProgrammed p q env r).freeResources) := by
  rw [nread_opened p q hopen, trackCopy_error q h]
  rfl

/-- A read with a descriptor goes on to the start bit. -/
theorem nread_issued (hopen : ¬NoResources env r) (halloc : env.descAlloc 0 = true) :
    fslRioDmaNread p env r q.destid q.loalAddr q.rioAddr q.bytecnt
      = Step.outcome (startDirect env
          (((readIssued p q env r).chan (griodmaChan k)).inBe32Mr ||| fslDmaMrCs)
          (readIssued p q env r) >>= awaitCopy env
        (Chan.dmaCookieAssign (((readProgrammed p q env r).softirq (env.soft .prepped)).chan
          (firstChan k)).cookie)) := by
  rw [nread_opened p q hopen, trackCopy_ok halloc]
  rfl

/-- A read whose start bit is lost returns without that. -/
theorem nread_startFails (hopen : ¬NoResources env r) (halloc : env.descAlloc 0 = true)
    (h : LosesStartBit env r (ReadPending env r)) :
    fslRioDmaNread p env r q.destid q.loalAddr q.rioAddr q.bytecnt
      = (-1, readStarted p q env r) := by
  rw [nread_issued p q hopen halloc,
    startDirect_error (or_start_bit _) ((readStart_iff p q).mpr h)]
  rfl

theorem Fresh.readProgrammed (h : Fresh env r) : Fresh env (readProgrammed p q env r) :=
  h.of_kept fun i => ((Kept.refl env i r).openedRun).programDirect _ _ _

/-- A read's descriptor behind the start, -/
theorem readStarted_tracked (env : CallEnv k) (r : Run k) :
    Tracked env.stDmacmp
      (Chan.dmaCookieAssign (((readProgrammed p q env r).softirq (env.soft .prepped)).chan
        (firstChan k)).cookie)
      (readStarted p q env r) :=
  ((tracked_trackedRun env _ _ _ _).onChan _ (fun _ _ h => h.outBe32Mr _) fun _ => rfl).softirq _

/-- and who waits for it. -/
theorem readStarted_unserved (h : Fresh env r) : Unserved env (readStarted p q env r) :=
  (((h.readProgrammed p q).trackedRun _ _ _).onChan (griodmaChan k)
    (·.outBe32Mr (((readIssued p q env r).chan (griodmaChan k)).inBe32Mr ||| fslDmaMrCs))
    fun _ => rfl).softirq _

/-- The queue of the first channel behind the start, and at the end of the wait. -/
theorem readStarted_held (env : CallEnv k) (r : Run k) :
    ((readStarted p q env r).chan (firstChan k)).batch.held = [] ↔ ReadServed env r [.started] :=
  held_iff_served (readProgrammed_advances p q env _ r) _ _ _ (startedRun_advances env _ _ _)

theorem readWaited_held (env : CallEnv k) (r : Run k) :
    (((readStarted p q env r).softirq (env.soft .waiting)).chan (firstChan k)).batch.held = []
      ↔ ReadServed env r [.started, .waiting] :=
  held_iff_served (readProgrammed_advances p q env _ r) _ _ _
    ((startedRun_advances env _ _ _).softirq .waiting)

/-- A read that started. -/
theorem nread_started (hopen : ¬NoResources env r) (halloc : env.descAlloc 0 = true)
    (hstart : ¬LosesStartBit env r (ReadPending env r)) :
    fslRioDmaNread p env r q.destid q.loalAddr q.rioAddr q.bytecnt
      = Step.outcome (awaitCopy env
        (Chan.dmaCookieAssign (((readProgrammed p q env r).softirq (env.soft .prepped)).chan
          (firstChan k)).cookie) (readStarted p q env r)) := by
  rw [nread_issued p q hopen halloc,
    startDirect_ok (or_start_bit _) (mt (readStart_iff p q).mp hstart)]
  rfl

/-- It times out, or returns 0. -/
theorem nread_timeout (hopen : ¬NoResources env r) (halloc : env.descAlloc 0 = true)
    (hstart : ¬LosesStartBit env r (ReadPending env r)) (hfresh : Fresh env r)
    (h : ¬ReadServed env r [.started, .waiting]) :
    fslRioDmaNread p env r q.destid q.loalAddr q.rioAddr q.bytecnt
      = (-19, awaitedRun env (readStarted p q env r)) := by
  rw [nread_started p q hopen halloc hstart,
    awaitCopy_error _ (readStarted_unserved p q hfresh) (mt (readWaited_held p q env r).mp h)]
  rfl

theorem nread_served (hopen : ¬NoResources env r) (halloc : env.descAlloc 0 = true)
    (hstart : ¬LosesStartBit env r (ReadPending env r))
    (h : ReadServed env r [.started, .waiting]) :
    fslRioDmaNread p env r q.destid q.loalAddr q.rioAddr q.bytecnt
      = (0, awaitedRun env (readStarted p q env r)) := by
  rw [nread_started p q hopen halloc hstart,
    awaitCopy_ok (readStarted_tracked p q env r) ((readWaited_held p q env r).mpr h)]
  rfl

/-- The states a read with resources ends in. -/
theorem nread_final (hopen : ¬NoResources env r) :
    (fslRioDmaNread p env r q.destid q.loalAddr q.rioAddr q.bytecnt).2
        = (readProgrammed p q env r).freeResources
      ∨ (fslRioDmaNread p env r q.destid q.loalAddr q.rioAddr q.bytecnt).2
        = readStarted p q env r
      ∨ (fslRioDmaNread p env r q.destid q.loalAddr q.rioAddr q.bytecnt).2
        = awaitedRun env (readStarted p q env r) := by
  by_cases halloc : env.descAlloc 0 = true
  · by_cases hlost : LosesStartBit env r (ReadPending env r)
    · rw [nread_startFails p q hopen halloc hlost]
      exact Or.inr (Or.inl rfl)
    · rw [nread_started p q hopen halloc hlost]
      exact Or.inr (Or.inr (awaitCopy_final env _ _))
  · rw [nread_noDescriptor p q hopen (Bool.eq_false_of_not_eq_true halloc)]
    exact Or.inl rfl

/-- **Reads.**  A read returns 0 exactly if it has its resources and its descriptor, the start bit
    reads back and the descriptor is finished in time, whether the channel was busy or not. -/
theorem nread_zero_iff (hfresh : Fresh env r) :
    (fslRioDmaNread p env r q.destid q.loalAddr q.rioAddr q.bytecnt).1 = 0
      ↔ ¬NoResources env r ∧ env.descAlloc 0 = true ∧ ¬LosesStartBit env r (ReadPending env r)
        ∧ ReadServed env r [.started, .waiting] := by
  by_cases hopen : NoResources env r
  · rw [nread_noResources p q hopen]
    exact iff_of_false (by simp) fun h => h.1 hopen
  by_cases halloc : env.descAlloc 0 = true
  · by_cases hlost : LosesStartBit env r (ReadPending env r)
    · rw [nread_startFails p q hopen halloc hlost]
      exact iff_of_false (by simp) fun h => h.2.2.1 hlost
    by_cases hserved : ReadServed env r [.started, .waiting]
    · rw [nread_served p q hopen halloc hlost hserved]
      exact iff_of_true rfl ⟨hopen, halloc, hlost, hserved⟩
    · rw [nread_timeout p q hopen halloc hlost hfresh hserved]
      exact iff_of_false (by simp) fun h => hserved h.2.2.2
  · rw [nread_noDescriptor p q hopen (Bool.eq_false_of_not_eq_true halloc)]
    exact iff_of_false (by simp) fun h => halloc h.2.1

end Read

/-! ### The exits of a write -/

section Write

variable (p : Platform) (q : Request)

/-- The state in which a write has programmed `griodma_chan`. -/
def writeProgrammed (env : CallEnv k) (r : Run k) : Run k :=
  programDirect env (localWord (p.virtToPhys q.loalAddr)) (rapidioDstWord q.destid q.rioAddr)
    q.bytecnt (openedRun env r)

/-- The state in which the start bit has been set. -/
def writeBegun (env : CallEnv k) (r : Run k) : Run k :=
  startedRun env (directMode ||| fslDmaMrCs) (writeProgrammed p q env r)

/-- The state in which its descriptor has been issued. -/
def writeIssued (env : CallEnv k) (r : Run k) : Run k :=
  trackedRun env q.rioAddr (p.dmaMapSingle q.loalAddr) q.bytecnt (writeBegun p q env r)

theorem writeProgrammed_advances (env : CallEnv k) (i : Fin (k + 1)) (r : Run k) :
    Advances env i programPoints r.openPool (writeProgrammed p q env r) :=
  (openedRun_advances env i r).trans (programDirect_advances env i _ _ _ _)

theorem writeBegun_advances (env : CallEnv k) (i : Fin (k + 1)) (r : Run k) :
    Advances env i (programPoints ++ [.started]) r.openPool (writeBegun p q env r) :=
  (writeProgrammed_advances p q env i r).trans (startedRun_advances env i _ _)

/-- When the start bit of a write is lost. -/
theorem writeStart_iff :
    StartFails env (writeProgrammed p q env r) ↔ LosesStartBit env r (WritePending env r) := by
  have hprogrammed := writeProgrammed_advances p q env (griodmaChan k) r
  refine startFails_iff ?_ hprogrammed.pending
  exact hprogrammed.feature.trans (r.openPool_feature _)

theorem Fresh.writeBegun (h : Fresh env r) : Fresh env (writeBegun p q env r) :=
  h.of_kept fun i => (((Kept.refl env i r).openedRun).programDirect _ _ _).startedRun _

/-- A write's descriptor, -/
theorem writeIssued_tracked (env : CallEnv k) (r : Run k) :
    Tracked env.stDmacmp
      (Chan.dmaCookieAssign (((writeBegun p q env r).softirq (env.soft .prepped)).chan
        (firstChan k)).cookie)
      (writeIssued p q env r) :=
  tracked_trackedRun env _ _ _ _

/-- and who waits for it. -/
theorem writeIssued_unserved (h : Fresh env r) : Unserved env (writeIssued p q env r) :=
  (h.writeBegun p q).trackedRun _ _ _

/-- The queue of the first channel at the end of the wait. -/
theorem writeWaited_held (env : CallEnv k) (r : Run k) :
    (((writeIssued p q env r).softirq (env.soft .waiting)).chan (firstChan k)).batch.held = []
      ↔ WriteServed env r :=
  held_iff_served (writeBegun_advances p q env _ r) _ _ _
    ((Advances.refl env _ _).softirq .waiting)

/-- A write without resources ends behind the poll. -/
theorem nwrite_noResources (h : NoResources env r) :
    fslRioDmaNwrite p env r q.destid q.loalAddr q.rioAddr q.bytecnt = (-19, polledRun env r) := by
  rw [fslRioDmaNwrite, openChan_noResources q h]
  rfl

/-- A write with resources goes on to the start bit. -/
theorem nwrite_opened (hopen : ¬NoResources env r) :
    fslRioDmaNwrite p env r q.destid q.loalAddr q.rioAddr q.bytecnt
      = Step.outcome (startDirect env (directMode ||| fslDmaMrCs) (writeProgrammed p q env r) >>=
        fun r => trackCopy env q.rioAddr (p.dmaMapSingle q.loalAddr) q.bytecnt r >>= fun t =>
          awaitCopy env t.2 t.1) := by
  rw [fslRioDmaNwrite, openChan_resources q hopen]
  rfl

/-- A write whose start bit is lost returns at once. -/
theorem nwrite_startFails (hopen : ¬NoResources env r)
    (h : LosesStartBit env r (WritePending env r)) :
    fslRioDmaNwrite p env r q.destid q.loalAddr q.rioAddr q.bytecnt
      = (-1, writeBegun p q env r) := by
  rw [nwrite_opened p q hopen, startDirect_error (or_start_bit _) ((writeStart_iff p q).mpr h)]
  rfl

/-- A write that has started goes on to its descriptor. -/
theorem nwrite_begun (hopen : ¬NoResources env r)
    (hstart : ¬LosesStartBit env r (WritePending env r)) :
    fslRioDmaNwrite p env r q.destid q.loalAddr q.rioAddr q.bytecnt
      = Step.outcome (trackCopy env q.rioAddr (p.dmaMapSingle q.loalAddr) q.bytecnt
          (writeBegun p q env r) >>= fun t => awaitCopy env t.2 t.1) := by
  rw [nwrite_opened p q hopen,
    startDirect_ok (or_start_bit _) (mt (writeStart_iff p q).mp hstart)]
  rfl

/-- A write that gets no descriptor frees the resources. -/
theorem nwrite_noDescriptor (hopen : ¬NoResources env r)
    (hstart : ¬LosesStartBit env r (WritePending env r)) (h : env.descAlloc 0 = false) :
    fslRioDmaNwrite p env r q.destid q.loalAddr q.rioAddr q.bytecnt
      = (-19, (writeBegun p q env r).freeResources) := by
  rw [nwrite_begun p q hopen hstart, trackCopy_error q h]
  rfl

/-- A write that has its descriptor. -/
theorem nwrite_issued (hopen : ¬NoResources env r)
    (hstart : ¬LosesStartBit env r (WritePending env r)) (halloc : env.descAlloc 0 = true) :
    fslRioDmaNwrite p env r q.destid q.loalAddr q.rioAddr q.bytecnt
      = Step.outcome (awaitCopy env
        (Chan.dmaCookieAssign (((writeBegun p q env r).softirq (env.soft .prepped)).chan
          (firstChan k)).cookie) (writeIssued p q env r)) := by
  rw [nwrite_begun p q hopen hstart, trackCopy_ok halloc]
  rfl

/-- It times out, or returns 0. -/
theorem nwrite_timeout (hopen : ¬NoResources env r)
    (hstart : ¬LosesStartBit env r (WritePending env r)) (halloc : env.descAlloc 0 = true)
    (hfresh : Fresh env r) (h : ¬WriteServed env r) :
    fslRioDmaNwrite p env r q.destid q.loalAddr q.rioAddr q.bytecnt
      = (-19, awaitedRun env (writeIssued p q env r)) := by
  rw [nwrite_issued p q hopen hstart halloc,
    awaitCopy_error _ (writeIssued_unserved p q hfresh) (mt (writeWaited_held p q env r).mp h)]
  rfl

theorem nwrite_served (hopen : ¬NoResources env r)
    (hstart : ¬LosesStartBit env r (WritePending env r)) (halloc : env.descAlloc 0 = true)
    (h : WriteServed env r) :
    fslRioDmaNwrite p env r q.destid q.loalAddr q.rioAddr q.bytecnt
      = (0, awaitedRun env (writeIssued p q env r)) := by
  rw [nwrite_issued p q hopen hstart halloc,
    awaitCopy_ok (writeIssued_tracked p q env r) ((writeWaited_held p q env r).mpr h)]
  rfl

/-- The states a write with resources ends in. -/
theorem nwrite_final (hopen : ¬NoResources env r) :
    (fslRioDmaNwrite p env r q.destid q.loalAddr q.rioAddr q.bytecnt).2
        = writeBegun p q env r
      ∨ (fslRioDmaNwrite p env r q.destid q.loalAddr q.rioAddr q.bytecnt).2
        = (writeBegun p q env r).freeResources
      ∨ (fslRioDmaNwrite p env r q.destid q.loalAddr q.rioAddr q.bytecnt).2
        = awaitedRun env (writeIssued p q env r) := by
  by_cases hlost : LosesStartBit env r (WritePending env r)
  · rw [nwrite_startFails p q hopen hlost]
    exact Or.inl rfl
  by_cases halloc : env.descAlloc 0 = true
  · rw [nwrite_issued p q hopen hlost halloc]
    exact Or.inr (Or.inr (awaitCopy_final env _ _))
  · rw [nwrite_noDescriptor p q hopen hlost (Bool.eq_false_of_not_eq_true halloc)]
    exact Or.inr (Or.inl rfl)

/-- **Writes.**  So does a write. -/
theorem nwrite_zero_iff (hfresh : Fresh env r) :
    (fslRioDmaNwrite p env r q.destid q.loalAddr q.rioAddr q.bytecnt).1 = 0
      ↔ ¬NoResources env r ∧ ¬LosesStartBit env r (WritePending env r) ∧ env.descAlloc 0 = true
        ∧ WriteServed env r := by
  by_cases hopen : NoResources env r
  · rw [nwrite_noResources p q hopen]
    exact iff_of_false (by simp) fun h => h.1 hopen
  by_cases hlost : LosesStartBit env r (WritePending env r)
  · rw [nwrite_startFails p q hopen hlost]
    exact iff_of_false (by simp) fun h => h.2.1 hlost
  by_cases halloc : env.descAlloc 0 = true
  · by_cases hserved : WriteServed env r
    · rw [nwrite_served p q hopen hlost halloc hserved]
      exact iff_of_true rfl ⟨hopen, hlost, halloc, hserved⟩
    · rw [nwrite_timeout p q hopen hlost halloc hfresh hserved]
      exact iff_of_false (by simp) fun h => hserved h.2.2.2
  · rw [nwrite_noDescriptor p q hopen hlost (Bool.eq_false_of_not_eq_true halloc)]
    exact iff_of_false (by simp) fun h => halloc h.2.2.1

end Write

end Vpx3.Dma
