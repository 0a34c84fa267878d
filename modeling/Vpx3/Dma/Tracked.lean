import Vpx3.Dma.RioDma

namespace Vpx3.Dma

/-!
# RapidIO DMA — the descriptor a call waits for

When allocations succeed, the start bit sticks and the channel's tasklet runs twice while the
call waits, both calls return 0, whatever the state of the channels was:

* `Stage` — where the tracked descriptor is: pending, running or done with;
* `Tracked.softirq`, `Tracked.tasklet_first` — tasklets move it on and lose it never;
* `nread_returns`, `nwrite_returns` — a responsive environment lets both calls succeed.
-/

variable {k : ℕ}

/-! ### Runs -/

namespace Run

variable (r : Run k)

@[simp] theorem onChan_same (i : Fin (k + 1)) (f : Chan → Chan) :
    (r.onChan i f).chan i = f (r.chan i) := by
  simp [onChan]

theorem onChan_of_ne {i j : Fin (k + 1)} (h : j ≠ i) (f : Chan → Chan) :
    (r.onChan i f).chan j = r.chan j := by
  simp [onChan, h]

@[simp] theorem tasklet_same (i : Fin (k + 1)) : (r.tasklet i).chan i = (r.chan i).dmaDoTasklet :=
  r.onChan_same i _

theorem tasklet_of_ne {i j : Fin (k + 1)} (h : j ≠ i) : (r.tasklet i).chan j = r.chan j :=
  r.onChan_of_ne h _

/-- What the tasklet of a channel preserves, the tasklets at a point preserve. -/
theorem softirq_preserves {P : Chan → Prop} (hP : ∀ c, P c → P c.dmaDoTasklet)
    (l : List (Fin (k + 1))) {r : Run k} {i : Fin (k + 1)} (h : P (r.chan i)) :
    P ((r.softirq l).chan i) := by
  induction l generalizing r with
  | nil => exact h
  | cons j l ih =>
    apply ih
    by_cases hj : i = j
    · subst hj
      rw [tasklet_same]
      exact hP _ h
    · rw [tasklet_of_ne r hj]
      exact h

/-- A step that keeps `P` on its own channel keeps it on all channels. -/
theorem onChan_preserves {P : Chan → Prop} {i j : Fin (k + 1)} {f : Chan → Chan}
    (hf : ∀ c, P c → P (f c)) {r : Run k} (h : P (r.chan i)) : P ((r.onChan j f).chan i) := by
  by_cases hj : i = j
  · subst hj
    rw [onChan_same]
    exact hf _ h
  · rw [r.onChan_of_ne hj]
    exact h

end Run

/-! ### The tracked descriptor -/

/-- Where the descriptor with the given cookie and completion is: last on the pending list, last
    on the running list with nothing pending, or done with. -/
inductive Stage (cmp : ℕ) (cookie : Word) (c : Chan) (completions : List ℕ) : Prop
  | pending (desc : Desc) (last : c.ldPending.getLast? = some desc)
      (hcookie : desc.cookie = cookie) (hparam : desc.callbackParam = some cmp)
  | running (empty : c.ldPending = []) (desc : Desc) (last : c.ldRunning.getLast? = some desc)
      (hcookie : desc.cookie = cookie) (hparam : desc.callbackParam = some cmp)
  | done (empty : c.ldPending = []) (idle : c.ldRunning = [])
      (hcookie : c.completedCookie = cookie) (signalled : cmp ∈ completions)

/-- The call's descriptor is somewhere, and its cookie is the last one given out. -/
structure Tracked (cmp : ℕ) (cookie : Word) (r : Run k) : Prop where
  last : (r.chan (firstChan k)).cookie = cookie
  stage : Stage cmp cookie (r.chan (firstChan k)) r.completions

/-- Neither the engine nor the tasklet gives out cookies. -/
theorem Chan.xfer_cookie (c : Chan) : c.fslChanXferLdQueue.cookie = c.cookie := by
  by_cases hw : c.ldPending = [] ∨ c.idle = false
  · rw [fslChanXferLdQueue_of_waiting hw]
  · rw [not_or, Bool.not_eq_false] at hw
    exact (fires_of_ready hw.1 hw.2).cookie

/-- The engine moves a pending descriptor to the running list, or leaves it where it is. -/
theorem Stage.xfer {cmp : ℕ} {cookie : Word} {c : Chan} {completions : List ℕ}
    (h : Stage cmp cookie c completions) : Stage cmp cookie c.fslChanXferLdQueue completions := by
  by_cases hw : c.ldPending = [] ∨ c.idle = false
  · rw [Chan.fslChanXferLdQueue_of_waiting hw]
    exact h
  · rw [not_or, Bool.not_eq_false] at hw
    have hf := Chan.fires_of_ready hw.1 hw.2
    cases h with
    | pending desc last hcookie hparam =>
      refine .running hf.ldPending desc ?_ hcookie hparam
      rw [hf.ldRunning, List.getLast?_append, last]
      rfl
    | running empty => exact absurd empty hw.1
    | done empty => exact absurd empty hw.1

/-- A mode register write leaves the queues alone. -/
theorem Stage.outBe32Mr {cmp : ℕ} {cookie : Word} {c : Chan} {completions : List ℕ} (v : Word)
    (h : Stage cmp cookie c completions) : Stage cmp cookie (c.outBe32Mr v) completions := by
  cases h with
  | pending desc last hcookie hparam => exact .pending desc last hcookie hparam
  | running empty desc last hcookie hparam => exact .running empty desc last hcookie hparam
  | done empty idle hcookie signalled => exact .done empty idle hcookie signalled

/-- One tasklet of the first channel brings the descriptor one stage further. -/
theorem Stage.tasklet {cmp : ℕ} {cookie : Word} {c : Chan} {completions : List ℕ}
    (h : Stage cmp cookie c completions) :
    Stage cmp cookie c.dmaDoTasklet (completions ++ c.callbacks) ∧
    (c.ldPending = [] → c.dmaDoTasklet.ldRunning = []) ∧ c.dmaDoTasklet.ldPending = [] := by
  cases h with
  | pending desc last hcookie hparam =>
    have hne : c.ldPending ≠ [] := by
      intro h
      simp [h] at last
    have hf := Chan.fires_of_pending hne
    refine ⟨.running hf.ldPending desc ?_ hcookie hparam, fun h => absurd h hne, hf.ldPending⟩
    rw [hf.ldRunning]
    exact last
  | running empty desc last hcookie hparam =>
    rw [Chan.dmaDoTasklet_of_empty empty]
    refine ⟨.done empty rfl ?_ ?_, fun _ => rfl, empty⟩
    · exact (Chan.retire_completedCookie_of_last last).trans hcookie
    · refine List.mem_append_right _ (List.mem_filterMap.mpr ⟨desc, ?_, hparam⟩)
      exact List.mem_of_getLast? last
  | done empty idle hcookie signalled =>
    rw [Chan.dmaDoTasklet_of_empty empty]
    refine ⟨.done empty rfl ?_ (List.mem_append_left _ signalled), fun _ => rfl, empty⟩
    exact (Chan.retire_completedCookie_of_idle idle).trans hcookie

namespace Tracked

variable {cmp : ℕ} {cookie : Word} {r : Run k}

theorem tasklet (h : Tracked cmp cookie r) (i : Fin (k + 1)) :
    Tracked cmp cookie (r.tasklet i) := by
  by_cases hi : firstChan k = i
  · subst hi
    constructor
    · rw [Run.tasklet_same, Chan.dmaDoTasklet, Chan.xfer_cookie]
      exact h.last
    · rw [Run.tasklet_same]
      exact h.stage.tasklet.1
  · constructor
    · rw [r.tasklet_of_ne hi]
      exact h.last
    · rw [r.tasklet_of_ne hi]
      -- another channel's callbacks only add completions
      cases h.stage with
      | pending desc last hcookie hparam => exact .pending desc last hcookie hparam
      | running empty desc last hcookie hparam => exact .running empty desc last hcookie hparam
      | done empty idle hcookie signalled =>
        exact .done empty idle hcookie (List.mem_append_left _ signalled)

theorem softirq (h : Tracked cmp cookie r) (l : List (Fin (k + 1))) :
    Tracked cmp cookie (r.softirq l) := by
  induction l generalizing r with
  | nil => exact h
  | cons i l ih => exact ih (h.tasklet i)

/-- A step that leaves the queues of its channel alone. -/
theorem onChan (h : Tracked cmp cookie r) (i : Fin (k + 1)) {f : Chan → Chan}
    (hf : ∀ c completions, Stage cmp cookie c completions → Stage cmp cookie (f c) completions)
    (hcookie : ∀ c, (f c).cookie = c.cookie) : Tracked cmp cookie (r.onChan i f) := by
  constructor
  · exact Run.onChan_preserves (P := fun c => c.cookie = cookie)
      (fun c hc => (hcookie c).trans hc) h.last
  · exact Run.onChan_preserves (P := fun c => Stage cmp cookie c r.completions)
      (fun c hc => hf c _ hc) h.stage

/-- Two tasklets of the first channel see the descriptor through. -/
theorem done_of_two (h : Tracked cmp cookie r) :
    cmp ∈ (r.softirq [firstChan k, firstChan k]).completions ∧
    ((r.softirq [firstChan k, firstChan k]).chan (firstChan k)).fslTxStatus cookie = true := by
  have h1 := h.tasklet (firstChan k)
  have h2 := h1.tasklet (firstChan k)
  have hempty : ((r.tasklet (firstChan k)).chan (firstChan k)).ldPending = [] := by
    rw [Run.tasklet_same]
    exact h.stage.tasklet.2.2
  have hidle : (((r.tasklet (firstChan k)).tasklet (firstChan k)).chan
      (firstChan k)).ldRunning = [] := by
    rw [Run.tasklet_same]
    exact h1.stage.tasklet.2.1 hempty
  have hempty2 : (((r.tasklet (firstChan k)).tasklet (firstChan k)).chan
      (firstChan k)).ldPending = [] := by
    rw [Run.tasklet_same]
    exact h1.stage.tasklet.2.2
  show cmp ∈ ((r.tasklet _).tasklet _).completions ∧ Chan.fslTxStatus _ cookie = true
  cases h2.stage with
  | pending desc last =>
    rw [hempty2] at last
    cases last
  | running _ desc last =>
    rw [hidle] at last
    cases last
  | done _ _ hcookie signalled => exact ⟨signalled, Chan.fslTxStatus_of_last h2.last hcookie⟩

end Tracked

/-! ### The parts of a call that succeed -/

/-- The descriptor of one copy, with the call's completion. -/
def copyDesc (f : Feature) (cmp : ℕ) (dst src len : Word) : Desc :=
  ⟨⟨f.descWord src, f.descWord dst, len⟩, busyCookie, some cmp⟩

/-- Submitting one descriptor. -/
def Chan.queueDesc (desc : Desc) (c : Chan) : Chan :=
  { c with
    cookie := dmaCookieAssign c.cookie
    ldPending := c.ldPending ++ [{ desc with cookie := dmaCookieAssign c.cookie }] }

/-- The state after the descriptor was submitted and issued. -/
def trackedRun (env : CallEnv k) (dst src len : Word) (r : Run k) : Run k :=
  let desc := copyDesc (r.chan (firstChan k)).feature env.stDmacmp dst src len
  let r := (r.softirq (env.soft .prepped)).initCompletion env.stDmacmp
  let r := (r.onChan (firstChan k) (·.queueDesc desc)).softirq (env.soft .submitted)
  (r.onChan (firstChan k) (·.fslChanXferLdQueue)).softirq (env.soft .issued)

/-- `trackCopy` succeeds exactly when the descriptor can be allocated. -/
theorem trackCopy_eq (env : CallEnv k) (dst src : Word) {len : Word} (h0 : len ≠ 0)
    (hmax : len ≤ fslDmaBcrMaxCnt) (r : Run k) :
    trackCopy env dst src len r =
      if env.descAlloc 0 then
        .ok (trackedRun env dst src len r,
          Chan.dmaCookieAssign ((r.softirq (env.soft .prepped)).chan (firstChan k)).cookie)
      else .error (-19, r.freeResources) := by
  unfold trackCopy
  rw [fslDmaPrepMemcpy_eq _ _ _ _ h0 hmax]
  by_cases ha : env.descAlloc 0 = true
  · rw [if_pos ha, if_pos ha]
    simp only [setCallback, Chan.fslDmaTxSubmit_one, Chan.dmaCookieAssign_pos, Bool.false_eq_true,
      if_false]
    rfl
  · rw [if_neg ha, if_neg ha]

/-- A submitted descriptor waits at the tail of the pending list. -/
theorem tracked_queueDesc (env : CallEnv k) (r : Run k) (desc : Desc)
    (hparam : desc.callbackParam = some env.stDmacmp) :
    Tracked env.stDmacmp (Chan.dmaCookieAssign (r.chan (firstChan k)).cookie)
      (r.onChan (firstChan k) (·.queueDesc desc)) := by
  constructor
  · rw [Run.onChan_same]
    rfl
  · rw [Run.onChan_same]
    exact .pending _ List.getLast?_concat rfl hparam

/-- After `trackCopy` the call's descriptor is tracked. -/
theorem tracked_trackedRun (env : CallEnv k) (dst src len : Word) (r : Run k) :
    Tracked env.stDmacmp
      (Chan.dmaCookieAssign ((r.softirq (env.soft .prepped)).chan (firstChan k)).cookie)
      (trackedRun env dst src len r) := by
  unfold trackedRun
  refine Tracked.softirq (Tracked.onChan (Tracked.softirq ?_ _) _ (fun _ _ h => h.xfer)
    Chan.xfer_cookie) _
  exact tracked_queueDesc env ((r.softirq (env.soft .prepped)).initCompletion env.stDmacmp) _ rfl

/-- An environment in which nothing fails: allocations succeed, the start bit sticks, and the
    first channel's tasklet runs twice while the call waits. -/
structure Responsive (env : CallEnv k) : Prop where
  poolCreated : env.poolCreated = true
  descAlloc : env.descAlloc 0 = true
  startSticks : env.startSticks = true
  started : env.soft .started = []
  waiting : env.soft .waiting = [firstChan k, firstChan k]

/-- A start bit that sticks reads back. -/
theorem startDirect_eq {env : CallEnv k} (hs : env.startSticks = true)
    (h0 : env.soft .started = []) {mode : Word} (hmode : csBit mode = true) (r : Run k) :
    startDirect env mode r = .ok (r.onChan (griodmaChan k) (·.outBe32Mr mode)) := by
  have hread : ((r.onChan (griodmaChan k) (·.outBe32Mr mode)).chan (griodmaChan k)).inBe32Mr
      = mode := by
    rw [Run.onChan_same]
    exact Feature.be32_be32 _ mode
  have hcs : mode &&& fslDmaMrCs = fslDmaMrCs := by
    ext i hi
    by_cases h : i = 0
    · subst h
      simp [hmode, fslDmaMrCs]
    · simp [fslDmaMrCs, h]
  unfold startDirect
  rw [h0]
  show (if (if env.startSticks = true then Chan.inBe32Mr _ else _) &&& _ ≠ _ then _ else _) = _
  rw [if_pos hs, show Chan.inBe32Mr ((r.onChan _ _).softirq [] |>.chan _) = mode from hread, hcs,
    if_neg (not_not.mpr rfl)]
  rfl

/-- The wait succeeds once the tasklet ran twice. -/
theorem awaitCopy_eq {env : CallEnv k} (hw : env.soft .waiting = [firstChan k, firstChan k])
    {cookie : Word} {r : Run k} (h : Tracked env.stDmacmp cookie r) :
    awaitCopy env cookie r = .ok (r.softirq [firstChan k, firstChan k]).freeResources := by
  obtain ⟨hsignalled, hstatus⟩ := h.done_of_two
  unfold awaitCopy
  rw [hw]
  exact if_neg (by simp [hsignalled, hstatus])

/-! ### Whole calls -/

/-- Arguments that both calls accept: a nonzero local address and less than 64 MiB. -/
structure Request where
  destid : Byte
  loalAddr : Word
  rioAddr : Word
  bytecnt : Word
  loalAddr_ne : loalAddr ≠ 0
  bytecnt_ne : bytecnt ≠ 0
  bytecnt_lt : bytecnt.toNat < 64 * 1024 * 1024

/-- An accepted byte count fits one descriptor. -/
theorem Request.bytecnt_le (q : Request) : q.bytecnt ≤ fslDmaBcrMaxCnt := by
  rw [BitVec.le_def]
  have h := q.bytecnt_lt
  have hmax : fslDmaBcrMaxCnt.toNat = 64 * 1024 * 1024 - 1 := by
    decide
  omega

/-- The state in which the channel is open. -/
def openedRun (env : CallEnv k) (r : Run k) : Run k :=
  let r := (r.softirq (env.soft .entry)).onChan (griodmaChan k) (·.outBe32Mr 0)
  let r := r.softirq (env.soft .polled)
  (r.onChan (firstChan k) fun c => { c with descPool := true }).softirq (env.soft .resources)

/-- The state after the start bit was set. -/
def startedRun (env : CallEnv k) (mode : Word) (r : Run k) : Run k :=
  (r.onChan (griodmaChan k) (·.outBe32Mr mode)).softirq (env.soft .started)

/-- The state after the wait. -/
def awaitedRun (env : CallEnv k) (r : Run k) : Run k :=
  (r.softirq (env.soft .waiting)).freeResources

/-- The states of a read that takes no early exit. -/
def readRun (p : Platform) (env : CallEnv k) (r : Run k) (q : Request) : Run k :=
  let r := programDirect env (rapidioSrcWord q.destid q.rioAddr)
    (localWord (p.virtToPhys q.loalAddr)) q.bytecnt (openedRun env r)
  let r := trackedRun env (p.dmaMapSingle q.loalAddr) q.rioAddr q.bytecnt r
  awaitedRun env (startedRun env ((r.chan (griodmaChan k)).inBe32Mr ||| fslDmaMrCs) r)

/-- The states of a write that takes no early exit. -/
def writeRun (p : Platform) (env : CallEnv k) (r : Run k) (q : Request) : Run k :=
  let r := programDirect env (localWord (p.virtToPhys q.loalAddr))
    (rapidioDstWord q.destid q.rioAddr) q.bytecnt (openedRun env r)
  let r := startedRun env (directMode ||| fslDmaMrCs) r
  awaitedRun env (trackedRun env q.rioAddr (p.dmaMapSingle q.loalAddr) q.bytecnt r)

/-- The part `x` of a call goes on with `a`, or ends the call with an error code. -/
def GoesOn {α : Type} (x : Step k α) (a : α) : Prop :=
  x = .ok a ∨ ∃ e, x = .error e ∧ e.1 ≠ 0

theorem GoesOn.ok {α : Type} (a : α) : GoesOn (.ok a : Step k α) a := Or.inl rfl

theorem GoesOn.exit {α : Type} {a : α} {v : ℤ} (hv : v ≠ 0) (r : Run k) :
    GoesOn (.error (v, r) : Step k α) a := Or.inr ⟨_, rfl, hv⟩

/-- A call that returns 0 went on. -/
theorem GoesOn.outcome {α : Type} {x : Step k α} {a : α} (h : GoesOn x a)
    {f : α → Step k (Run k)} (h0 : (Step.outcome (x >>= f)).1 = 0) :
    Step.outcome (x >>= f) = Step.outcome (f a) := by
  rcases h with rfl | ⟨e, rfl, he⟩
  · rfl
  · exact absurd h0 he

/-- Marking a pool that exists leaves the channel as it is. -/
theorem openChan_eq (env : CallEnv k) (r : Run k) (q : Request) :
    openChan env r q.loalAddr q.bytecnt =
      let r' := ((r.softirq (env.soft .entry)).onChan (griodmaChan k) (·.outBe32Mr 0)).softirq
        (env.soft .polled)
      if (r'.chan (firstChan k)).descPool || env.poolCreated then .ok (openedRun env r)
      else .error (-19, r') := by
  have hlt := q.bytecnt_lt
  have hcheck : ¬(q.bytecnt = 0 ∨ 64 * 1024 * 1024 ≤ q.bytecnt.toNat) := by
    rintro (h | h)
    · exact q.bytecnt_ne h
    · omega
  unfold openChan openedRun
  rw [if_neg hcheck, if_neg q.loalAddr_ne]
  dsimp only
  generalize Run.softirq _ (env.soft .polled) = r'
  rw [Chan.fslDmaAllocChanResources]
  by_cases hpool : (r'.chan (firstChan k)).descPool = true
  · have hsame : { r'.chan (firstChan k) with descPool := true } = r'.chan (firstChan k) := by
      rw [← hpool]
    rw [if_pos hpool, hpool, Bool.true_or, if_pos rfl]
    dsimp only
    rw [Run.onChan, Run.onChan, hsame]
  · rw [if_neg hpool]
    by_cases hcreated : env.poolCreated = true
    · rw [if_pos hcreated, hcreated, Bool.or_true, if_pos rfl]
      rfl
    · rw [if_neg hcreated, if_neg (by simp [hpool, hcreated])]

theorem openChan_goesOn (env : CallEnv k) (r : Run k) (q : Request) :
    GoesOn (openChan env r q.loalAddr q.bytecnt) (openedRun env r) := by
  rw [openChan_eq]
  dsimp only
  split
  · exact GoesOn.ok _
  · exact GoesOn.exit (by decide) _

theorem trackCopy_goesOn (env : CallEnv k) (dst src : Word) (q : Request) (r : Run k) :
    GoesOn (trackCopy env dst src q.bytecnt r)
      (trackedRun env dst src q.bytecnt r,
        Chan.dmaCookieAssign ((r.softirq (env.soft .prepped)).chan (firstChan k)).cookie) := by
  rw [trackCopy_eq env dst src q.bytecnt_ne q.bytecnt_le]
  split
  · exact GoesOn.ok _
  · exact GoesOn.exit (by decide) _

theorem startDirect_goesOn (env : CallEnv k) (mode : Word) (r : Run k) :
    GoesOn (startDirect env mode r) (startedRun env mode r) := by
  unfold startDirect
  dsimp only
  -- whether or not the start bit sticks
  generalize (if env.startSticks = true then _ else _ : Word) = u32iVal
  split
  · exact GoesOn.exit (by decide) _
  · exact GoesOn.ok _

theorem awaitCopy_goesOn (env : CallEnv k) (cookie : Word) (r : Run k) :
    GoesOn (awaitCopy env cookie r) (awaitedRun env r) := by
  unfold awaitCopy
  dsimp only
  split
  · exact GoesOn.exit (by decide) _
  · exact GoesOn.ok _

/-- A call that returns 0 ran to its end. -/
theorem awaitCopy_outcome (env : CallEnv k) (cookie : Word) (r : Run k)
    (h : (Step.outcome (awaitCopy env cookie r)).1 = 0) :
    Step.outcome (awaitCopy env cookie r) = (0, awaitedRun env r) := by
  rcases awaitCopy_goesOn env cookie r with hok | ⟨e, herr, he⟩
  · rw [hok]
    rfl
  · rw [herr] at h
    exact absurd h he

/-- A read that returns 0 takes no early exit. -/
theorem nread_run (p : Platform) (env : CallEnv k) (r : Run k) (q : Request)
    (h : (fslRioDmaNread p env r q.destid q.loalAddr q.rioAddr q.bytecnt).1 = 0) :
    (fslRioDmaNread p env r q.destid q.loalAddr q.rioAddr q.bytecnt).2 = readRun p env r q := by
  unfold fslRioDmaNread at h ⊢
  dsimp only at h ⊢
  have hopen := (openChan_goesOn env r q).outcome h
  rw [hopen] at h ⊢
  have htrack := (trackCopy_goesOn env _ _ q _).outcome h
  rw [htrack] at h ⊢
  dsimp only at h ⊢
  have hstart := (startDirect_goesOn env _ _).outcome h
  rw [hstart] at h ⊢
  rw [awaitCopy_outcome env _ _ h]
  rfl

/-- A write that returns 0 takes no early exit. -/
theorem nwrite_run (p : Platform) (env : CallEnv k) (r : Run k) (q : Request)
    (h : (fslRioDmaNwrite p env r q.destid q.loalAddr q.rioAddr q.bytecnt).1 = 0) :
    (fslRioDmaNwrite p env r q.destid q.loalAddr q.rioAddr q.bytecnt).2 = writeRun p env r q := by
  unfold fslRioDmaNwrite at h ⊢
  dsimp only at h ⊢
  have hopen := (openChan_goesOn env r q).outcome h
  rw [hopen] at h ⊢
  have hstart := (startDirect_goesOn env _ _).outcome h
  rw [hstart] at h ⊢
  have htrack := (trackCopy_goesOn env _ _ q _).outcome h
  rw [htrack] at h ⊢
  dsimp only at h ⊢
  rw [awaitCopy_outcome env _ _ h]
  rfl

/-- `in_be32(...) | CS` and the direct mode word have the start bit set. -/
theorem or_start_bit (v : Word) : csBit (v ||| fslDmaMrCs) = true := by
  simp [fslDmaMrCs]

theorem openChan_ok {env : CallEnv k} (h : env.poolCreated = true) (r : Run k) (q : Request) :
    openChan env r q.loalAddr q.bytecnt = .ok (openedRun env r) := by
  rw [openChan_eq]
  dsimp only
  rw [h, Bool.or_true, if_pos rfl]

theorem trackCopy_ok {env : CallEnv k} (h : env.descAlloc 0 = true) (dst src : Word) (q : Request)
    (r : Run k) :
    trackCopy env dst src q.bytecnt r = .ok (trackedRun env dst src q.bytecnt r,
      Chan.dmaCookieAssign ((r.softirq (env.soft .prepped)).chan (firstChan k)).cookie) := by
  rw [trackCopy_eq env _ _ q.bytecnt_ne q.bytecnt_le, if_pos h]

/-- In a responsive environment a read returns 0, whatever state the channels are in. -/
theorem nread_returns (p : Platform) {env : CallEnv k} (he : Responsive env) (r : Run k)
    (q : Request) :
    (fslRioDmaNread p env r q.destid q.loalAddr q.rioAddr q.bytecnt).1 = 0 := by
  unfold fslRioDmaNread
  rw [openChan_ok he.poolCreated]
  show (Step.outcome ((trackCopy env _ _ q.bytecnt _) >>= _)).1 = 0
  rw [trackCopy_ok he.descAlloc]
  show (Step.outcome ((startDirect env _ _) >>= _)).1 = 0
  rw [startDirect_eq he.startSticks he.started (or_start_bit _)]
  show (Step.outcome (awaitCopy env _ _)).1 = 0
  rw [awaitCopy_eq he.waiting]
  · rfl
  · -- the start bit is set after the descriptor was queued
    apply (tracked_trackedRun env _ _ _ _).onChan
    · exact fun c completions h => h.outBe32Mr _
    · exact fun c => rfl

/-- So does a write. -/
theorem nwrite_returns (p : Platform) {env : CallEnv k} (he : Responsive env) (r : Run k)
    (q : Request) :
    (fslRioDmaNwrite p env r q.destid q.loalAddr q.rioAddr q.bytecnt).1 = 0 := by
  unfold fslRioDmaNwrite
  rw [openChan_ok he.poolCreated]
  show (Step.outcome ((startDirect env _ _) >>= _)).1 = 0
  rw [startDirect_eq he.startSticks he.started (or_start_bit _)]
  show (Step.outcome ((trackCopy env _ _ q.bytecnt _) >>= _)).1 = 0
  rw [trackCopy_ok he.descAlloc]
  show (Step.outcome (awaitCopy env _ _)).1 = 0
  rw [awaitCopy_eq he.waiting (tracked_trackedRun env _ _ _ _)]
  rfl

end Vpx3.Dma
