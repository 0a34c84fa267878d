import Vpx3.Lib.Batch
import Vpx3.Dma.Tracked

namespace Vpx3.Dma

open Batch

/-!
# RapidIO DMA — the descriptor queues while a call runs

The two descriptor lists and the idle flag of a channel are a queue that is worked off in batches:

* `Chan.batch` — the queue of a channel; `batch_xfer`, `batch_tasklet` — the engine fires it, and
  the tasklet is its tick;
* `Run.softirq_chan` — the tasklets at a point, as so many ticks of each channel;
* `Advances` — what the parts of a call do to the queues beside their tasklets: nothing;
* `trackedRun_first` — but for the descriptor that the call queues;
* `Kept` — what has left a queue is finished, and its completions have been signalled.
-/

variable {k : ℕ}

namespace Chan

variable (c : Chan)

/-- The descriptor lists and the idle flag. -/
def batch : Queue Desc := ⟨c.ldPending, c.ldRunning, c.idle⟩

/-- Nothing is queued when both lists are empty. -/
theorem batch_held : c.batch.held = [] ↔ c.ldRunning = [] ∧ c.ldPending = [] :=
  List.append_eq_nil_iff

/-- The engine takes the pending descriptors if the channel is idle. -/
theorem batch_xfer : c.fslChanXferLdQueue.batch = c.batch.fire := by
  by_cases hw : c.ldPending = [] ∨ c.idle = false
  · rw [fslChanXferLdQueue_of_waiting hw, Queue.fire_of_waiting hw]
  · rw [not_or, Bool.not_eq_false] at hw
    have hf := fires_of_ready hw.1 hw.2
    rw [Queue.fire_of_ready hw.1 hw.2]
    exact Queue.ext hf.ldPending hf.ldRunning hf.idle

/-- The tasklet finishes the running descriptors and takes the pending ones. -/
theorem batch_tasklet : c.dmaDoTasklet.batch = c.batch.tick :=
  c.retire.batch_xfer

/-- A submitted descriptor is pushed. -/
theorem batch_queueDesc (desc : Desc) :
    (c.queueDesc desc).batch = c.batch.push { desc with cookie := dmaCookieAssign c.cookie } := rfl

/-- A run of the engine changes the registers, the queue and nothing else of what it started. -/
theorem xfer_descPool : c.fslChanXferLdQueue.descPool = c.descPool := by
  by_cases hw : c.ldPending = [] ∨ c.idle = false
  · rw [fslChanXferLdQueue_of_waiting hw]
  · rw [not_or, Bool.not_eq_false] at hw
    obtain ⟨halted, hclear, -⟩ := c.splice.clearStart_eq
    obtain ⟨mode, hstart, -⟩ :=
      (c.splice.clearStart.setCdar (c.ldPending.map (·.hw))).dmaStart_eq
    rw [fslChanXferLdQueue, if_neg hw.1, if_neg (by rw [hw.2]; decide)]
    dsimp only
    rw [hstart, hclear]
    rfl

theorem tasklet_descPool : c.dmaDoTasklet.descPool = c.descPool :=
  c.retire.xfer_descPool

/-- The engine leaves the address words alone. -/
theorem xfer_words : c.fslChanXferLdQueue.words = c.words := by
  by_cases hw : c.ldPending = [] ∨ c.idle = false
  · rw [fslChanXferLdQueue_of_waiting hw]
  · rw [not_or, Bool.not_eq_false] at hw
    have hfires := fires_of_ready hw.1 hw.2
    rw [words, hfires.sar, hfires.dar]
    rfl

theorem tasklet_words : c.dmaDoTasklet.words = c.words :=
  c.retire.xfer_words

end Chan

/-! ### Tasklets as ticks -/

namespace Run

/-- Each tasklet at a point is a step of its own channel. -/
theorem softirq_chan (l : List (Fin (k + 1))) (r : Run k) (i : Fin (k + 1)) :
    (r.softirq l).chan i = Chan.dmaDoTasklet^[l.count i] (r.chan i) := by
  induction l generalizing r with
  | nil => rfl
  | cons j l ih =>
    refine (ih (r.tasklet j)).trans ?_
    by_cases hj : i = j
    · subst hj
      rw [tasklet_same, List.count_cons_self, Function.iterate_succ_apply]
    · rw [r.tasklet_of_ne hj, List.count_cons_of_ne (Ne.symm hj)]

/-- So many ticks of the queue of a channel. -/
theorem softirq_batch (l : List (Fin (k + 1))) (r : Run k) (i : Fin (k + 1)) :
    ((r.softirq l).chan i).batch = Queue.tick^[l.count i] (r.chan i).batch := by
  have hsim : Function.Semiconj Chan.batch Chan.dmaDoTasklet Queue.tick := Chan.batch_tasklet
  rw [softirq_chan]
  exact hsim.iterate_right _ _

/-- `dma_pool_create` for the first channel. -/
def openPool (r : Run k) : Run k :=
  r.onChan (firstChan k) fun c => { c with descPool := true }

/-- The pool is all that changes. -/
theorem openPool_batch (r : Run k) (i : Fin (k + 1)) :
    (r.openPool.chan i).batch = (r.chan i).batch := by
  refine onChan_preserves (P := fun c => c.batch = (r.chan i).batch) ?_ rfl
  exact fun _ hc => hc

theorem openPool_feature (r : Run k) (i : Fin (k + 1)) :
    (r.openPool.chan i).feature = (r.chan i).feature := by
  refine onChan_preserves (P := fun c => c.feature = (r.chan i).feature) ?_ rfl
  exact fun _ hc => hc

end Run

/-- How many tasklets of channel `i` run at some points. -/
def CallEnv.ticks (env : CallEnv k) (i : Fin (k + 1)) (pts : List Point) : ℕ :=
  (pts.flatMap env.soft).count i

/-- The ticks at one list of points and at another. -/
theorem CallEnv.ticks_append (env : CallEnv k) (i : Fin (k + 1)) (pts pts' : List Point) :
    env.ticks i (pts ++ pts') = env.ticks i pts + env.ticks i pts' := by
  rw [ticks, List.flatMap_append, List.count_append]
  rfl

variable {env : CallEnv k} {i : Fin (k + 1)} {pts : List Point} {r r' : Run k}

/-- From `r` to `r'` nothing happens to the queue of channel `i` beside the tasklets at the points
    `pts`, and its kind and its pool stay. -/
structure Advances (env : CallEnv k) (i : Fin (k + 1)) (pts : List Point) (r r' : Run k) :
    Prop where
  batch : (r'.chan i).batch = Queue.tick^[env.ticks i pts] (r.chan i).batch
  feature : (r'.chan i).feature = (r.chan i).feature
  descPool : (r'.chan i).descPool = (r.chan i).descPool

namespace Advances

theorem refl (env : CallEnv k) (i : Fin (k + 1)) (r : Run k) : Advances env i [] r r :=
  ⟨rfl, rfl, rfl⟩

theorem trans {pts' : List Point} {r'' : Run k} (h : Advances env i pts r r')
    (h' : Advances env i pts' r' r'') : Advances env i (pts ++ pts') r r'' := by
  refine ⟨?_, h'.feature.trans h.feature, h'.descPool.trans h.descPool⟩
  rw [h'.batch, h.batch, env.ticks_append, Nat.add_comm, Function.iterate_add_apply]

/-- The tasklets at a point. -/
theorem softirq (h : Advances env i pts r r') (pt : Point) :
    Advances env i (pts ++ [pt]) r (r'.softirq (env.soft pt)) := by
  refine h.trans ⟨?_, ?_, ?_⟩
  · rw [Run.softirq_batch, CallEnv.ticks, List.flatMap_singleton]
  · exact Run.softirq_preserves (P := fun c => c.feature = (r'.chan i).feature)
      (fun c hc => c.tasklet_feature.trans hc) _ rfl
  · exact Run.softirq_preserves (P := fun c => c.descPool = (r'.chan i).descPool)
      (fun c hc => c.tasklet_descPool.trans hc) _ rfl

/-- A step on a channel that touches neither its queue nor its kind nor its pool. -/
theorem onChan (h : Advances env i pts r r') (j : Fin (k + 1)) (f : Chan → Chan)
    (hf : ∀ c : Chan, (f c).batch = c.batch ∧ (f c).feature = c.feature
      ∧ (f c).descPool = c.descPool) :
    Advances env i pts r (r'.onChan j f) := by
  refine ⟨?_, ?_, ?_⟩
  · exact Run.onChan_preserves (P := fun c => c.batch = _) (fun c hc => (hf c).1.trans hc) h.batch
  · exact Run.onChan_preserves (P := fun c => c.feature = _)
      (fun c hc => (hf c).2.1.trans hc) h.feature
  · exact Run.onChan_preserves (P := fun c => c.descPool = _)
      (fun c hc => (hf c).2.2.trans hc) h.descPool

/-- `init_completion`. -/
theorem initCompletion (h : Advances env i pts r r') (cmp : ℕ) :
    Advances env i pts r (r'.initCompletion cmp) :=
  ⟨h.batch, h.feature, h.descPool⟩

end Advances

/-! ### The parts of a call -/

/-- The state behind the busy poll. -/
def polledRun (env : CallEnv k) (r : Run k) : Run k :=
  ((r.softirq (env.soft .entry)).onChan (griodmaChan k) (·.outBe32Mr 0)).softirq (env.soft .polled)

theorem polledRun_advances (env : CallEnv k) (i : Fin (k + 1)) (r : Run k) :
    Advances env i [.entry, .polled] r (polledRun env r) :=
  (((Advances.refl env i r).softirq .entry).onChan (griodmaChan k) (·.outBe32Mr 0)
    fun _ => ⟨rfl, rfl, rfl⟩).softirq .polled

/-- Opening the channel makes the pool, unless there is one. -/
theorem openedRun_advances (env : CallEnv k) (i : Fin (k + 1)) (r : Run k) :
    Advances env i [.entry, .polled, .resources] r.openPool (openedRun env r) := by
  have hpolled := polledRun_advances env i r
  have hopened : Advances env i [.entry, .polled] r.openPool (polledRun env r).openPool := by
    by_cases hi : i = firstChan k
    · -- the pool is there afterwards in any case
      subst hi
      refine ⟨?_, ?_, ?_⟩
      · rw [Run.openPool, Run.openPool, Run.onChan_same, Run.onChan_same]
        exact hpolled.batch
      · rw [Run.openPool, Run.openPool, Run.onChan_same, Run.onChan_same]
        exact hpolled.feature
      · rw [Run.openPool, Run.openPool, Run.onChan_same, Run.onChan_same]
    · refine ⟨?_, ?_, ?_⟩ <;>
        rw [Run.openPool, Run.openPool, Run.onChan_of_ne _ hi, Run.onChan_of_ne _ hi]
      · exact hpolled.batch
      · exact hpolled.feature
      · exact hpolled.descPool
  exact hopened.softirq .resources

/-- Programming `griodma_chan`. -/
theorem programDirect_advances (env : CallEnv k) (i : Fin (k + 1)) (sar dar : DWord)
    (bytecnt : Word) (r : Run k) :
    Advances env i [.mode, .sar, .dar, .bcr] r (programDirect env sar dar bytecnt r) := by
  have hmode := ((Advances.refl env i r).onChan (griodmaChan k) (·.outBe32Mr directMode)
    fun _ => ⟨rfl, rfl, rfl⟩).softirq .mode
  have hsar := (hmode.onChan (griodmaChan k) (·.outBe64Sar sar)
    fun _ => ⟨rfl, rfl, rfl⟩).softirq .sar
  have hdar := (hsar.onChan (griodmaChan k) (·.outBe64Dar dar)
    fun _ => ⟨rfl, rfl, rfl⟩).softirq .dar
  exact (hdar.onChan (griodmaChan k) (·.outBe32Bcr bytecnt)
    fun _ => ⟨rfl, rfl, rfl⟩).softirq .bcr

/-- Setting the start bit. -/
theorem startedRun_advances (env : CallEnv k) (i : Fin (k + 1)) (mode : Word) (r : Run k) :
    Advances env i [.started] r (startedRun env mode r) :=
  ((Advances.refl env i r).onChan (griodmaChan k) (·.outBe32Mr mode)
    fun _ => ⟨rfl, rfl, rfl⟩).softirq .started

/-- The descriptor is queued on the first channel only. -/
theorem trackedRun_advances (env : CallEnv k) (hi : i ≠ firstChan k) (dst src len : Word)
    (r : Run k) :
    Advances env i [.prepped, .submitted, .issued] r (trackedRun env dst src len r) := by
  have hprepped := ((Advances.refl env i r).softirq .prepped).initCompletion env.stDmacmp
  -- a step on the first channel leaves channel `i` as it is
  have hother {pts : List Point} {r' : Run k} (h : Advances env i pts r r') (f : Chan → Chan) :
      Advances env i pts r (r'.onChan (firstChan k) f) := by
    refine ⟨?_, ?_, ?_⟩ <;> rw [Run.onChan_of_ne _ hi]
    · exact h.batch
    · exact h.feature
    · exact h.descPool
  exact (hother ((hother hprepped _).softirq .submitted) _).softirq .issued

/-- There its queue serves the new descriptor like any other. -/
theorem trackedRun_first (env : CallEnv k) (dst src len : Word) (r : Run k) :
    ∃ desc, ((trackedRun env dst src len r).chan (firstChan k)).batch
        = (r.chan (firstChan k)).batch.served desc (env.ticks (firstChan k) [.prepped])
            (env.ticks (firstChan k) [.submitted]) (env.ticks (firstChan k) [.issued])
      ∧ ((trackedRun env dst src len r).chan (firstChan k)).feature
        = (r.chan (firstChan k)).feature
      ∧ ((trackedRun env dst src len r).chan (firstChan k)).descPool
        = (r.chan (firstChan k)).descPool := by
  have hprepped := ((Advances.refl env (firstChan k) r).softirq .prepped).initCompletion
    env.stDmacmp
  rw [trackedRun]
  generalize (r.softirq (env.soft .prepped)).initCompletion env.stDmacmp = r1 at hprepped ⊢
  generalize copyDesc _ env.stDmacmp dst src len = desc
  generalize hr2 : r1.onChan (firstChan k) (·.queueDesc desc) = r2
  have hsubmitted := (Advances.refl env (firstChan k) r2).softirq .submitted
  generalize r2.softirq (env.soft .submitted) = r3 at hsubmitted ⊢
  generalize hr4 : r3.onChan (firstChan k) (·.fslChanXferLdQueue) = r4
  have hissued := (Advances.refl env (firstChan k) r4).softirq .issued
  subst hr4
  subst hr2
  rw [List.nil_append] at hprepped hsubmitted hissued
  refine ⟨{ desc with cookie := Chan.dmaCookieAssign (r1.chan (firstChan k)).cookie }, ?_, ?_, ?_⟩
  · rw [hissued.batch, Run.onChan_same, Chan.batch_xfer, hsubmitted.batch, Run.onChan_same,
      Chan.batch_queueDesc, hprepped.batch]
    rfl
  · rw [hissued.feature, Run.onChan_same, Chan.xfer_feature, hsubmitted.feature, Run.onChan_same]
    exact hprepped.feature
  · rw [hissued.descPool, Run.onChan_same, Chan.xfer_descPool, hsubmitted.descPool,
      Run.onChan_same]
    exact hprepped.descPool

/-- The queue of the first channel when the call's descriptor has been issued, which was queued
    after the points `pts` and `prepped`. -/
theorem trackedRun_served (h : Advances env (firstChan k) pts r.openPool r') (dst src len : Word) :
    ∃ desc, ((trackedRun env dst src len r').chan (firstChan k)).batch
      = (r.chan (firstChan k)).batch.served desc (env.ticks (firstChan k) (pts ++ [.prepped]))
          (env.ticks (firstChan k) [.submitted]) (env.ticks (firstChan k) [.issued]) := by
  obtain ⟨desc, hbatch, -⟩ := trackedRun_first env dst src len r'
  refine ⟨desc, hbatch.trans ?_⟩
  rw [h.batch, Run.openPool_batch, Queue.ticks_served, env.ticks_append, Nat.add_comm]

/-! ### What has left a queue -/

/-- Of the descriptors in `queue` those that are no longer on channel `i` were the first ones, a
    tasklet finished them, and it signalled their completions (the call's own is counted from
    `init_completion` on). -/
def Kept (env : CallEnv k) (i : Fin (k + 1)) (queue : List Desc) (r : Run k) : Prop :=
  ∃ finished, queue = finished ++ (r.chan i).batch.held
    ∧ (finished ≠ [] → ∃ pt, i ∈ env.soft pt)
    ∧ ∀ desc ∈ finished, ∀ cmp ∈ desc.callbackParam, cmp ≠ env.stDmacmp → cmp ∈ r.completions

namespace Kept

variable {queue : List Desc}

theorem refl (env : CallEnv k) (i : Fin (k + 1)) (r : Run k) :
    Kept env i (r.chan i).batch.held r :=
  ⟨[], rfl, fun h => absurd rfl h, fun _ h => absurd h List.not_mem_nil⟩

/-- A tasklet finishes what is running on its channel. -/
theorem tasklet (h : Kept env i queue r) {j : Fin (k + 1)} {pt : Point} (hj : j ∈ env.soft pt) :
    Kept env i queue (r.tasklet j) := by
  obtain ⟨finished, hqueue, hran, hsignalled⟩ := h
  by_cases hij : i = j
  · subst hij
    refine ⟨finished ++ (r.chan i).ldRunning, ?_, fun _ => ⟨pt, hj⟩, ?_⟩
    · rw [hqueue, Queue.held_tick, Run.tasklet_same, Chan.batch_tasklet]
      exact (List.append_assoc _ _ _).symm
    · -- what was running is signalled now, what was finished before has been
      intro desc hdesc cmp hcmp hne
      rcases List.mem_append.mp hdesc with hdesc | hdesc
      · exact List.mem_append_left _ (hsignalled desc hdesc cmp hcmp hne)
      · exact List.mem_append_right _ (List.mem_filterMap.mpr ⟨desc, hdesc, hcmp⟩)
  · refine ⟨finished, ?_, hran, ?_⟩
    · rw [r.tasklet_of_ne hij]
      exact hqueue
    · intro desc hdesc cmp hcmp hne
      exact List.mem_append_left _ (hsignalled desc hdesc cmp hcmp hne)

/-- The tasklets at a point. -/
theorem softirq (h : Kept env i queue r) (pt : Point) :
    Kept env i queue (r.softirq (env.soft pt)) := by
  have hall (l : List (Fin (k + 1))) (hl : ∀ j ∈ l, j ∈ env.soft pt) {r : Run k}
      (h : Kept env i queue r) : Kept env i queue (r.softirq l) := by
    induction l generalizing r with
    | nil => exact h
    | cons j l ih =>
      exact ih (fun j' hj' => hl j' (List.mem_cons_of_mem j hj'))
        (h.tasklet (hl j List.mem_cons_self))
  exact hall _ (fun _ hj => hj) h

/-- A step that leaves the queue of its channel as it is. -/
theorem onChan (h : Kept env i queue r) (j : Fin (k + 1)) (f : Chan → Chan)
    (hf : ∀ c : Chan, (f c).batch.held = c.batch.held) : Kept env i queue (r.onChan j f) := by
  obtain ⟨finished, hqueue, hrest⟩ := h
  refine ⟨finished, ?_, hrest⟩
  rw [hqueue]
  congr 1
  exact (Run.onChan_preserves (P := fun c => c.batch.held = (r.chan i).batch.held)
    (fun c hc => (hf c).trans hc) rfl).symm

theorem initCompletion (h : Kept env i queue r) :
    Kept env i queue (r.initCompletion env.stDmacmp) := by
  obtain ⟨finished, hqueue, hran, hsignalled⟩ := h
  refine ⟨finished, hqueue, hran, fun desc hdesc cmp hcmp hne => ?_⟩
  exact List.mem_filter.mpr ⟨hsignalled desc hdesc cmp hcmp hne, decide_eq_true hne⟩

/-- A step on another channel. -/
theorem onOther (h : Kept env i queue r) {j : Fin (k + 1)} (hij : i ≠ j) (f : Chan → Chan) :
    Kept env i queue (r.onChan j f) := by
  obtain ⟨finished, hqueue, hrest⟩ := h
  refine ⟨finished, ?_, hrest⟩
  rw [r.onChan_of_ne hij]
  exact hqueue

/-- A descriptor queued on the channel. -/
theorem queueDesc (h : Kept env i queue r) (desc : Desc) :
    Kept env i
      (queue ++ [{ desc with cookie := Chan.dmaCookieAssign (r.chan i).cookie }])
      (r.onChan i (·.queueDesc desc)) := by
  obtain ⟨finished, hqueue, hrest⟩ := h
  refine ⟨finished, ?_, hrest⟩
  rw [Run.onChan_same, Chan.batch_queueDesc, Queue.held_push, hqueue, List.append_assoc]

/-- Without a descriptor of its own a channel may be left out of account. -/
theorem of_append {desc : Desc} (h : Kept env i (queue ++ [desc]) r)
    (hheld : (r.chan i).batch.held = []) : Kept env i queue r := by
  obtain ⟨finished, hqueue, hran, hsignalled⟩ := h
  rw [hheld, List.append_nil] at hqueue
  subst hqueue
  refine ⟨queue, ?_, fun _ => hran (List.append_ne_nil_of_right_ne_nil _ (List.cons_ne_nil _ _)),
    fun d hd => hsignalled d (List.mem_append_left _ hd)⟩
  rw [hheld, List.append_nil]

/-- What is on the channel was in the queue. -/
theorem mem (h : Kept env i queue r) {desc : Desc} (hdesc : desc ∈ (r.chan i).batch.held) :
    desc ∈ queue := by
  obtain ⟨finished, hqueue, -⟩ := h
  rw [hqueue]
  exact List.mem_append_right _ hdesc

theorem polledRun (h : Kept env i queue r) : Kept env i queue (polledRun env r) :=
  ((h.softirq .entry).onChan (griodmaChan k) (·.outBe32Mr 0) fun _ => rfl).softirq .polled

theorem openedRun (h : Kept env i queue r) : Kept env i queue (openedRun env r) :=
  (h.polledRun.onChan (firstChan k) (fun c => { c with descPool := true })
    fun _ => rfl).softirq .resources

theorem programDirect (h : Kept env i queue r) (sar dar : DWord) (bytecnt : Word) :
    Kept env i queue (programDirect env sar dar bytecnt r) := by
  have hmode := (h.onChan (griodmaChan k) (·.outBe32Mr directMode) fun _ => rfl).softirq .mode
  have hsar := (hmode.onChan (griodmaChan k) (·.outBe64Sar sar) fun _ => rfl).softirq .sar
  have hdar := (hsar.onChan (griodmaChan k) (·.outBe64Dar dar) fun _ => rfl).softirq .dar
  exact (hdar.onChan (griodmaChan k) (·.outBe32Bcr bytecnt) fun _ => rfl).softirq .bcr

theorem startedRun (h : Kept env i queue r) (mode : Word) :
    Kept env i queue (startedRun env mode r) :=
  (h.onChan (griodmaChan k) (·.outBe32Mr mode) fun _ => rfl).softirq .started

/-- The call's descriptor on a channel that is not the first. -/
theorem trackedRun (h : Kept env i queue r) (hi : i ≠ firstChan k) (dst src len : Word) :
    Kept env i queue (trackedRun env dst src len r) :=
  (((((h.softirq .prepped).initCompletion).onOther hi _).softirq .submitted).onOther hi _).softirq
    .issued

/-- And on the first one. -/
theorem trackedRun_first (h : Kept env (firstChan k) queue r) (dst src len : Word) :
    ∃ desc, Kept env (firstChan k) (queue ++ [desc]) (Dma.trackedRun env dst src len r) :=
  ⟨_, ((((((h.softirq .prepped).initCompletion).queueDesc _).softirq .submitted).onChan
    (firstChan k) (·.fslChanXferLdQueue) fun c => by rw [c.batch_xfer, Queue.held_fire]).softirq
      .issued)⟩

end Kept

end Vpx3.Dma
