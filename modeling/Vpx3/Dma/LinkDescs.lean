import Vpx3.Dma.Chan
import Vpx3.Lib.Exec
import Vpx3.Lib.Links

namespace Vpx3.Dma

open Exec Links

/-!
# DMA engine — link descriptors in memory

The controller is given the address of one descriptor and finds the others through the words that
link them.  `Chan` speaks of the descriptors that CDAR points at; here they are written.

* `LdHw`, `setDescNext`, `setLdEol`, `prepDescs`, `appendLdQueue` — what the driver writes;
* `LdState`, `ldStep` — the channel with its memory: transactions are prepared, submitted and
  issued, the tasklet runs, everything is terminated, and descriptors come from a pool;
* `LdInv` — every list is a chain in memory, and no two share a descriptor;
* `walk_of_busy` — while the controller is busy, a walk from CDAR finds exactly the descriptors
  that the channel was to start, in order, in every state of every run.
-/

/-! ### What the driver writes -/

/-- `struct fsl_dma_ld_hw`, by the values that the device reads. -/
structure LdHw where
  srcAddr : DWord
  dstAddr : DWord
  count : Word
  nextLnAddr : DWord
deriving DecidableEq

def fslDmaEol : DWord := 0x1
def fslDmaSnen : DWord := 0x10
def fslDmaNldaMask : DWord := ~~~0x1f
/-- `FSL_DMA_MR_CA`, channel abort. -/
def fslDmaMrCa : Word := 0x00000008

/-- Descriptors by their addresses. -/
abbrev LdMem := DWord → LdHw

/-- A descriptor's address, and what it is to carry. -/
abbrev Ld := DWord × Transfer

/-- The snoop bit of a link, on the 83xx controller. -/
def Feature.linkSnoop (f : Feature) : DWord := if f.ip = .ip83xx then fslDmaSnen else 0

/-- `set_desc_next`. -/
def setDescNext (f : Feature) (desc next : DWord) (mem : LdMem) : LdMem :=
  Function.update mem desc { mem desc with nextLnAddr := f.linkSnoop ||| next }

/-- `set_ld_eol`. -/
def setLdEol (f : Feature) (desc : DWord) (mem : LdMem) : LdMem :=
  Function.update mem desc
    { mem desc with nextLnAddr := (mem desc).nextLnAddr ||| fslDmaEol ||| f.linkSnoop }

/-- One round of the loops that prepare a transaction: the descriptor is cleared and filled, and
    linked behind the one before. -/
def prepDesc (f : Feature) (st : LdMem × Option DWord) (d : Ld) : LdMem × Option DWord :=
  let mem := Function.update st.1 d.1 ⟨d.2.src, d.2.dst, d.2.count, 0⟩
  match st.2 with
  | none => (mem, some d.1)
  | some prev => (setDescNext f prev d.1 mem, some d.1)

/-- `fsl_dma_prep_memcpy`, `fsl_dma_prep_sg` and, with one descriptor that carries nothing,
    `fsl_dma_prep_interrupt`, in memory. -/
def prepDescs (f : Feature) (mem : LdMem) (tx : List Ld) : LdMem :=
  match tx.foldl (prepDesc f) (mem, none) with
  | (mem, none) => mem
  | (mem, some new) => setLdEol f new mem

/-- `append_ld_queue`, in memory. -/
def appendLdQueue (f : Feature) (pending tx : List Ld) (mem : LdMem) : LdMem :=
  match pending.getLast?, tx.head? with
  | some tail, some desc => setDescNext f tail.1 desc.1 mem
  | _, _ => mem

namespace Chan

/-- `dma_halt`, without the wait for the controller. -/
def dmaHalt (c : Chan) : Chan :=
  if c.feature.ip = .ip85xx then
    let mode := c.regs.mr ||| fslDmaMrCa
    (c.writeMr mode).writeMr (mode &&& ~~~fslDmaMrCa &&& ~~~(fslDmaMrCs ||| fslDmaMrEmsEn))
  else c.writeMr (c.regs.mr &&& ~~~(fslDmaMrCs ||| fslDmaMrEmsEn))

/-- `DMA_TERMINATE_ALL` of `fsl_dma_device_control`. -/
def terminateAll (c : Chan) : Chan :=
  { c.dmaHalt with ldPending := [], ldRunning := [], idle := true }

end Chan

/-! ### The machine -/

/-- The channel and its memory: transactions that are prepared, and the descriptors of the two
    lists; `cdar` is the word in CDAR. -/
structure LdState where
  chan : Chan
  mem : LdMem
  prepared : List (List Ld)
  pending : List Ld
  running : List Ld
  cdar : DWord

/-- Descriptors in use. -/
def LdState.live (s : LdState) : List DWord :=
  (s.prepared.flatten ++ (s.pending ++ s.running)).map Prod.fst

/-- What `dma_pool_alloc` gives: descriptors that are not in use, aligned to 32 bytes. -/
def PoolGives (s : LdState) (tx : List Ld) : Prop :=
  (tx.map Prod.fst).Nodup ∧ (∀ d ∈ tx, d.1 ∉ s.live) ∧ ∀ d ∈ tx, d.1 &&& fslDmaNldaMask = d.1

/-- `fsl_chan_xfer_ld_queue`. -/
def LdState.xfer (s : LdState) : LdState :=
  match s.pending with
  | [] => s
  | desc :: rest =>
    if s.chan.idle = false then s
    else { s with
      chan := s.chan.fslChanXferLdQueue
      pending := []
      running := s.running ++ desc :: rest
      cdar := desc.1 ||| fslDmaSnen }

/-- What can happen. -/
inductive LdEvent where
  | allocChanResources
  | freeChanResources
  | prep (tx : List Ld)
  | submit (tx : List Ld)
  | issuePending
  | tasklet
  | terminateAll

instance (s : LdState) (tx : List Ld) : Decidable (PoolGives s tx) :=
  have : Decidable (∀ d ∈ tx, d.1 ∉ s.live) := List.decidableBAll _ tx
  have : Decidable (∀ d ∈ tx, d.1 &&& fslDmaNldaMask = d.1) := List.decidableBAll _ tx
  inferInstanceAs (Decidable (_ ∧ _ ∧ _))

/-- The machine. -/
def ldStep (s : LdState) : LdEvent → Option LdState
  | .allocChanResources =>
    (s.chan.fslDmaAllocChanResources true).map fun chan => { s with chan := chan }
  | .freeChanResources =>
    some { s with chan := s.chan.fslDmaFreeChanResources, pending := [], running := [] }
  | .prep tx =>
    if s.chan.descPool = true ∧ tx ≠ [] ∧ PoolGives s tx then
      some { s with mem := prepDescs s.chan.feature s.mem tx, prepared := s.prepared ++ [tx] }
    else none
  | .submit tx =>
    -- whatever cookies its descriptors had, each gets its own here
    if tx ∈ s.prepared then
      some { s with
        chan := (s.chan.fslDmaTxSubmit (tx.map fun d => ⟨d.2, 0, none⟩)).1
        mem := appendLdQueue s.chan.feature s.pending tx s.mem
        prepared := s.prepared.erase tx
        pending := s.pending ++ tx }
    else none
  | .issuePending => some s.xfer
  | .tasklet => some { s with chan := s.chan.retire, running := [] }.xfer
  | .terminateAll => some { s with chan := s.chan.terminateAll, pending := [], running := [] }

/-- How the controller reads a descriptor. -/
def ldFormat : Format DWord LdHw Transfer where
  payload d := ⟨d.srcAddr, d.dstAddr, d.count⟩
  last d := d.nextLnAddr &&& fslDmaEol != 0
  next d := d.nextLnAddr &&& fslDmaNldaMask

/-- What the controller finds from CDAR on, along no more than a given number of descriptors. -/
def LdState.found (s : LdState) (fuel : ℕ) : Option (List Transfer) :=
  walk ldFormat s.mem fuel (s.cdar &&& fslDmaNldaMask)

/-- A channel behind its probe. -/
def ldInit (chan : Chan) (mem : LdMem) (cdar : DWord) : LdState where
  chan := { chan with ldPending := [], ldRunning := [], idle := true }
  mem := mem
  prepared := []
  pending := []
  running := []
  cdar := cdar

/-! ### Link words -/

/-- The address in a link. -/
theorem link_next (f : Feature) {a : DWord} (ha : a &&& fslDmaNldaMask = a) :
    (f.linkSnoop ||| a) &&& fslDmaNldaMask = a := by
  have hsnoop : f.linkSnoop &&& fslDmaNldaMask = 0 := by
    unfold Feature.linkSnoop
    split
    · decide
    · decide
  rw [BitVec.and_or_distrib_right, hsnoop, ha]
  simp

/-- A link is not the end. -/
theorem link_not_last (f : Feature) {a : DWord} (ha : a &&& fslDmaNldaMask = a) :
    (f.linkSnoop ||| a) &&& fslDmaEol = 0 := by
  have hsnoop : f.linkSnoop &&& fslDmaEol = 0 := by
    unfold Feature.linkSnoop
    split
    · decide
    · decide
  have hmask : fslDmaNldaMask &&& fslDmaEol = 0 := by decide
  rw [BitVec.and_or_distrib_right, hsnoop, ← ha, BitVec.and_assoc, hmask]
  simp

/-- The address in CDAR. -/
theorem cdar_next {a : DWord} (ha : a &&& fslDmaNldaMask = a) :
    (a ||| fslDmaSnen) &&& fslDmaNldaMask = a := by
  have hsnen : fslDmaSnen &&& fslDmaNldaMask = 0 := by decide
  rw [BitVec.and_or_distrib_right, ha, hsnen]
  simp

/-! ### What is prepared is a chain -/

/-- **The loop** over the descriptors behind the first one. -/
theorem foldl_prepDesc (f : Feature) (ds : List Ld) (xs : List Ld) (prev : DWord) (p : Transfer)
    (mem : LdMem) (hchain : Chain ldFormat mem (fun _ => True) (xs ++ [(prev, p)]))
    (hnodup : ((xs ++ (prev, p) :: ds).map Prod.fst).Nodup)
    (haligned : ∀ d ∈ ds, d.1 &&& fslDmaNldaMask = d.1) :
    ∃ mem' ys t q, ds.foldl (prepDesc f) (mem, some prev) = (mem', some t)
      ∧ xs ++ (prev, p) :: ds = ys ++ [(t, q)]
      ∧ Chain ldFormat mem' (fun _ => True) (ys ++ [(t, q)])
      ∧ ∀ a, a ≠ prev → a ∉ ds.map Prod.fst → mem' a = mem a := by
  induction ds generalizing xs prev p mem with
  | nil => exact ⟨mem, xs, prev, p, rfl, rfl, hchain, fun _ _ _ => rfl⟩
  | cons d ds ih =>
    obtain ⟨mem1, hmem1⟩ : ∃ mem1,
        mem1 = Function.update mem d.1 ⟨d.2.src, d.2.dst, d.2.count, 0⟩ := ⟨_, rfl⟩
    -- the descriptor is new, and the chain before it stays
    have hsplit : xs ++ (prev, p) :: d :: ds = (xs ++ [(prev, p)]) ++ d :: ds := by simp
    have hnew : d.1 ∉ (xs ++ [(prev, p)]).map Prod.fst := by
      rw [hsplit, List.map_append, List.nodup_append] at hnodup
      intro hmem
      exact hnodup.2.2 _ hmem _ List.mem_cons_self rfl
    have hchain1 : Chain ldFormat mem1 (fun _ => True) (xs ++ [(prev, p)]) :=
      hmem1 ▸ hchain.frame hnew _
    have hone : Chain ldFormat mem1 (fun _ => True) [d] := by
      rw [hmem1]
      refine ⟨?_, trivial⟩
      rw [Function.update_self]
      rfl
    have hpayload : ldFormat.payload { mem1 prev with nextLnAddr := f.linkSnoop ||| d.1 } = p :=
      hchain1.payload (List.mem_append_right xs (List.mem_singleton_self (prev, p)))
    have hd := haligned d List.mem_cons_self
    have hprefix : ((xs ++ (prev, p) :: d :: []).map Prod.fst).Nodup := by
      refine hnodup.sublist (List.Sublist.map _ ?_)
      apply List.Sublist.append_left
      simp
    have hlast : ldFormat.last { mem1 prev with nextLnAddr := f.linkSnoop ||| d.1 } = false := by
      show ((f.linkSnoop ||| d.1) &&& fslDmaEol != 0) = false
      rw [link_not_last f hd]
      rfl
    have hlinked := Chain.append hchain1 hone hprefix hpayload hlast (link_next f hd)
    have hassoc : xs ++ [(prev, p), d] = (xs ++ [(prev, p)]) ++ [(d.1, d.2)] := by simp
    rw [hassoc] at hlinked
    obtain ⟨mem', ys, t, q, hfold, hlist, hend, hframe⟩ := ih (xs ++ [(prev, p)]) d.1 d.2 _ hlinked
      (by rw [← hsplit]; exact hnodup) fun d' hd' => haligned d' (List.mem_cons_of_mem d hd')
    refine ⟨mem', ys, t, q, ?_, ?_, hend, fun a hprev ha => ?_⟩
    · rw [List.foldl_cons, ← hfold, prepDesc, hmem1]
      rfl
    · rw [hsplit, ← hlist]
    · rw [List.map_cons, List.mem_cons, not_or] at ha
      rw [hframe a ha.1 ha.2, Function.update_of_ne hprev, hmem1, Function.update_of_ne ha.1]

/-- The end bit, whatever was there. -/
theorem eol_last (f : Feature) (a : DWord) :
    ((a ||| fslDmaEol ||| f.linkSnoop) &&& fslDmaEol != 0) = true := by
  rw [bne_iff_ne]
  intro h
  have hbit := congrArg (·.getLsbD 0) h
  simp [fslDmaEol] at hbit

/-- **A transaction that is prepared** is a chain that ends, and nothing else is written. -/
theorem prepDescs_closed (f : Feature) (mem : LdMem) (tx : List Ld)
    (hnodup : (tx.map Prod.fst).Nodup) (haligned : ∀ d ∈ tx, d.1 &&& fslDmaNldaMask = d.1) :
    Closed ldFormat (prepDescs f mem tx) tx
      ∧ ∀ a, a ∉ tx.map Prod.fst → prepDescs f mem tx a = mem a := by
  cases tx with
  | nil => exact ⟨trivial, fun _ _ => rfl⟩
  | cons d ds =>
    have hone : Chain ldFormat (Function.update mem d.1 ⟨d.2.src, d.2.dst, d.2.count, 0⟩)
        (fun _ => True) ([] ++ [(d.1, d.2)]) := by
      refine ⟨?_, trivial⟩
      rw [Function.update_self]
      rfl
    obtain ⟨mem', ys, t, q, hfold, hlist, hchain, hframe⟩ :=
      foldl_prepDesc f ds [] d.1 d.2 _ hone hnodup fun d' hd' =>
        haligned d' (List.mem_cons_of_mem d hd')
    have hprep : prepDescs f mem (d :: ds) = setLdEol f t mem' := by
      unfold prepDescs
      have hall : (d :: ds).foldl (prepDesc f) (mem, none) = (mem', some t) := hfold
      rw [hall]
    have htx : d :: ds = ys ++ [(t, q)] := hlist
    have hpayload := hchain.payload (List.mem_append_right ys (List.mem_singleton_self (t, q)))
    rw [hprep]
    refine ⟨?_, fun a ha => ?_⟩
    · rw [htx]
      apply hchain.finish
      · rw [← htx]
        exact hnodup
      · exact hpayload
      · exact eol_last f _
    · have hne : a ≠ t := by
        rintro rfl
        apply ha
        rw [htx, List.map_append]
        exact List.mem_append_right _ List.mem_cons_self
      rw [List.map_cons, List.mem_cons, not_or] at ha
      rw [setLdEol, Function.update_of_ne hne, hframe a ha.1 ha.2, Function.update_of_ne ha.1]

/-- **A transaction hung behind the pending ones**: both chains become one, and only descriptors
    that are pending are written. -/
theorem appendLdQueue_closed (f : Feature) {mem : LdMem} {pending tx : List Ld}
    (hpending : Closed ldFormat mem pending) (htx : Closed ldFormat mem tx)
    (hnodup : ((pending ++ tx).map Prod.fst).Nodup)
    (haligned : ∀ d ∈ tx, d.1 &&& fslDmaNldaMask = d.1) :
    Closed ldFormat (appendLdQueue f pending tx mem) (pending ++ tx) := by
  cases tx with
  | nil =>
    rw [List.append_nil]
    unfold appendLdQueue
    cases pending.getLast? with
    | none => exact hpending
    | some tail => exact hpending
  | cons d ds =>
    rcases List.eq_nil_or_concat' pending with rfl | ⟨xs, tail, rfl⟩
    · exact htx
    · have hd := haligned d List.mem_cons_self
      have hlast : ldFormat.last { mem tail.1 with nextLnAddr := f.linkSnoop ||| d.1 } = false := by
        show ((f.linkSnoop ||| d.1) &&& fslDmaEol != 0) = false
        rw [link_not_last f hd]
        rfl
      have hpayload : ldFormat.payload { mem tail.1 with nextLnAddr := f.linkSnoop ||| d.1 }
          = tail.2 := hpending.payload (List.mem_append_right xs (List.mem_singleton_self tail))
      rw [List.append_assoc] at hnodup ⊢
      unfold appendLdQueue
      rw [List.getLast?_append]
      exact hpending.append htx hnodup hpayload hlast (link_next f hd)

/-- Nothing but pending descriptors is written. -/
theorem appendLdQueue_frame (f : Feature) (mem : LdMem) (pending tx : List Ld) {a : DWord}
    (ha : a ∉ pending.map Prod.fst) : appendLdQueue f pending tx mem a = mem a := by
  unfold appendLdQueue
  cases htail : pending.getLast? with
  | none => rfl
  | some tail =>
    cases tx with
    | nil => rfl
    | cons desc rest =>
      apply Function.update_of_ne
      rintro rfl
      exact ha (List.mem_map_of_mem (List.mem_of_getLast? htail))

/-! ### Channel steps -/

/-- What is submitted goes behind what is pending. -/
theorem Chan.fslDmaTxSubmit_frame (c : Chan) (descs : List Desc) :
    (c.fslDmaTxSubmit descs).1.ldPending.map (·.hw) = c.ldPending.map (·.hw) ++ descs.map (·.hw)
      ∧ (c.fslDmaTxSubmit descs).1.ldRunning = c.ldRunning
      ∧ (c.fslDmaTxSubmit descs).1.idle = c.idle ∧ (c.fslDmaTxSubmit descs).1.regs = c.regs := by
  induction descs generalizing c with
  | nil => exact ⟨(List.append_nil _).symm, rfl, rfl, rfl⟩
  | cons desc rest ih =>
    obtain ⟨hpending, hrunning, hidle, hregs⟩ := ih { c with
      cookie := dmaCookieAssign c.cookie
      ldPending := c.ldPending ++ [{ desc with cookie := dmaCookieAssign c.cookie }] }
    refine ⟨hpending.trans ?_, hrunning, hidle, hregs⟩
    simp

/-- The engine points CDAR at what was pending. -/
theorem Chan.xfer_cdar {c : Chan} (hp : c.ldPending ≠ []) (hi : c.idle = true) :
    c.fslChanXferLdQueue.regs.cdar = c.ldPending.map (·.hw) := by
  unfold fslChanXferLdQueue
  rw [if_neg hp, if_neg (by rw [hi]; decide)]
  obtain ⟨mode, hstart, -⟩ :=
    (c.splice.clearStart.setCdar (c.ldPending.map (·.hw))).dmaStart_eq
  dsimp only
  rw [hstart]
  rfl

/-! ### Every run -/

/-- **The lists in memory.** -/
structure LdInv (s : LdState) : Prop where
  pendingHw : s.chan.ldPending.map (·.hw) = s.pending.map Prod.snd
  runningHw : s.chan.ldRunning.map (·.hw) = s.running.map Prod.snd
  idle : s.chan.idle = true → s.running = []
  busy : s.chan.idle = false → s.chan.regs.cdar = s.running.map Prod.snd
    ∧ ∃ desc rest, s.running = desc :: rest ∧ s.cdar = desc.1 ||| fslDmaSnen
  prepared : ∀ tx ∈ s.prepared, Closed ldFormat s.mem tx
  pending : Closed ldFormat s.mem s.pending
  running : Closed ldFormat s.mem s.running
  nodup : s.live.Nodup
  aligned : ∀ a ∈ s.live, a &&& fslDmaNldaMask = a

/-- Where a descriptor is live. -/
theorem mem_live {s : LdState} {a : DWord} : a ∈ s.live ↔
    (∃ tx ∈ s.prepared, a ∈ tx.map Prod.fst) ∨ a ∈ s.pending.map Prod.fst
      ∨ a ∈ s.running.map Prod.fst := by
  unfold LdState.live
  rw [List.map_append, List.map_append, List.mem_append, List.mem_append, List.map_flatten,
    List.mem_flatten]
  simp only [List.mem_map, exists_exists_and_eq_and]

theorem ldInv_init (chan : Chan) (mem : LdMem) (cdar : DWord) : LdInv (ldInit chan mem cdar) where
  pendingHw := rfl
  runningHw := rfl
  idle _ := rfl
  busy h := Bool.noConfusion h
  prepared _ h := absurd h List.not_mem_nil
  pending := trivial
  running := trivial
  nodup := List.nodup_nil
  aligned _ h := absurd h List.not_mem_nil

/-- Preparing a transaction. -/
theorem LdInv.prep {s : LdState} (h : LdInv s) {tx : List Ld} (hpool : PoolGives s tx) :
    LdInv { s with mem := prepDescs s.chan.feature s.mem tx, prepared := s.prepared ++ [tx] } := by
  obtain ⟨htxNodup, hfresh, htxAligned⟩ := hpool
  obtain ⟨htx, hframe⟩ := prepDescs_closed s.chan.feature s.mem tx htxNodup htxAligned
  -- nothing that is live is written
  have hkeep : ∀ a ∈ s.live, prepDescs s.chan.feature s.mem tx a = s.mem a := by
    intro a ha
    apply hframe
    intro hmem
    obtain ⟨d, hd, rfl⟩ := List.mem_map.mp hmem
    exact hfresh d hd ha
  have hperm : List.Perm
      (((s.prepared ++ [tx]).flatten ++ (s.pending ++ s.running)).map Prod.fst)
      (tx.map Prod.fst ++ s.live) := by
    rw [List.perm_iff_count]
    intro a
    simp only [LdState.live, List.flatten_append, List.flatten_singleton, List.map_append,
      List.count_append]
    omega
  refine ⟨h.pendingHw, h.runningHw, h.idle, h.busy, ?_, ?_, ?_, ?_, ?_⟩
  · intro tx' htx'
    rcases List.mem_append.mp htx' with hold | hnew
    · apply (h.prepared tx' hold).congr
      intro x hx
      exact hkeep _ (mem_live.mpr (Or.inl ⟨tx', hold, List.mem_map_of_mem hx⟩))
    · rw [List.mem_singleton.mp hnew]
      exact htx
  · apply h.pending.congr
    intro x hx
    exact hkeep _ (mem_live.mpr (Or.inr (Or.inl (List.mem_map_of_mem hx))))
  · apply h.running.congr
    intro x hx
    exact hkeep _ (mem_live.mpr (Or.inr (Or.inr (List.mem_map_of_mem hx))))
  · apply hperm.nodup_iff.mpr
    rw [List.nodup_append]
    refine ⟨htxNodup, h.nodup, ?_⟩
    rintro a ha b hb rfl
    obtain ⟨d, hd, rfl⟩ := List.mem_map.mp ha
    exact hfresh d hd hb
  · intro a ha
    rcases List.mem_append.mp (hperm.mem_iff.mp ha) with hnew | hold
    · obtain ⟨d, hd, rfl⟩ := List.mem_map.mp hnew
      exact htxAligned d hd
    · exact h.aligned a hold

/-- Submitting a transaction. -/
theorem LdInv.submit {s : LdState} (h : LdInv s) {tx : List Ld} (htx : tx ∈ s.prepared) :
    LdInv { s with
      chan := (s.chan.fslDmaTxSubmit (tx.map fun d => ⟨d.2, 0, none⟩)).1
      mem := appendLdQueue s.chan.feature s.pending tx s.mem
      prepared := s.prepared.erase tx
      pending := s.pending ++ tx } := by
  obtain ⟨hhw, hldRunning, hidle, hregs⟩ :=
    s.chan.fslDmaTxSubmit_frame (tx.map fun d => ⟨d.2, 0, none⟩)
  have hflat := (List.perm_cons_erase htx).flatten
  have hperm : List.Perm
      (((s.prepared.erase tx).flatten ++ ((s.pending ++ tx) ++ s.running)).map Prod.fst)
      s.live := by
    rw [List.perm_iff_count]
    intro a
    have hcount := (hflat.map Prod.fst).count_eq a
    simp only [List.flatten_cons, List.map_append, List.count_append] at hcount
    simp only [LdState.live, List.map_append, List.count_append]
    omega
  have hnodup := hperm.nodup_iff.mpr h.nodup
  -- descriptors elsewhere are not pending
  have hapart : ∀ a, (∃ tx' ∈ s.prepared, a ∈ tx'.map Prod.fst) ∨ a ∈ s.running.map Prod.fst →
      a ∉ s.pending.map Prod.fst := by
    intro a ha hp
    have hlive := h.nodup
    unfold LdState.live at hlive
    rw [List.map_append, List.map_append, List.nodup_append, List.nodup_append] at hlive
    rcases ha with ⟨tx', htx', ha⟩ | ha
    · refine hlive.2.2 a ?_ a (List.mem_append_left _ hp) rfl
      rw [List.map_flatten]
      exact List.mem_flatten.mpr ⟨_, List.mem_map_of_mem htx', ha⟩
    · exact hlive.2.1.2.2 a hp a ha rfl
  have hkeep : ∀ a, a ∉ s.pending.map Prod.fst →
      appendLdQueue s.chan.feature s.pending tx s.mem a = s.mem a := fun a ha =>
    appendLdQueue_frame s.chan.feature s.mem s.pending tx ha
  refine ⟨?_, ?_, ?_, ?_, ?_, ?_, ?_, hnodup, fun a ha => h.aligned a (hperm.mem_iff.mp ha)⟩
  · refine hhw.trans ?_
    rw [h.pendingHw, List.map_map, List.map_append]
    rfl
  · rw [hldRunning]
    exact h.runningHw
  · intro hi
    exact h.idle (hidle.symm.trans hi)
  · intro hi
    rw [hregs]
    exact h.busy (hidle.symm.trans hi)
  · intro tx' htx'
    have hold := List.mem_of_mem_erase htx'
    apply (h.prepared tx' hold).congr
    intro x hx
    exact hkeep _ (hapart _ (Or.inl ⟨tx', hold, List.mem_map_of_mem hx⟩))
  · apply appendLdQueue_closed s.chan.feature h.pending (h.prepared tx htx)
    · rw [List.map_append, List.map_append, List.nodup_append, List.nodup_append] at hnodup
      exact hnodup.2.1.1
    · intro d hd
      exact h.aligned _ (mem_live.mpr (Or.inl ⟨tx, htx, List.mem_map_of_mem hd⟩))
  · apply h.running.congr
    intro x hx
    exact hkeep _ (hapart _ (Or.inr (List.mem_map_of_mem hx)))

/-- The engine runs. -/
theorem LdInv.xfer {s : LdState} (h : LdInv s) : LdInv s.xfer := by
  unfold LdState.xfer
  cases hp : s.pending with
  | nil => exact h
  | cons desc rest =>
    by_cases hi : s.chan.idle = false
    · simp only [if_pos hi]
      exact h
    · simp only [if_neg hi]
      rw [Bool.not_eq_false] at hi
      have hrunning := h.idle hi
      have hhw := h.pendingHw
      have hpending : s.chan.ldPending ≠ [] := by
        intro hnil
        rw [hnil, hp] at hhw
        exact List.cons_ne_nil _ _ hhw.symm
      have hfires := Chan.fires_of_ready hpending hi
      have hlist : s.running ++ desc :: rest = s.pending := by
        rw [hrunning, hp]
        rfl
      have hlive : ((s.prepared.flatten ++ ([] ++ s.pending)).map Prod.fst) = s.live := by
        unfold LdState.live
        rw [hrunning, List.append_nil]
        rfl
      rw [hlist]
      have hldRunning := h.runningHw
      rw [hrunning] at hldRunning
      refine ⟨?_, ?_, ?_, ?_, h.prepared, trivial, h.pending, ?_, ?_⟩
      · rw [hfires.ldPending]
        rfl
      · rw [hfires.ldRunning, List.map_append, hldRunning, hhw]
        rfl
      · intro hidle
        rw [hfires.idle] at hidle
        cases hidle
      · intro _
        exact ⟨(Chan.xfer_cdar hpending hi).trans hhw, desc, rest, hp, rfl⟩
      · show ((s.prepared.flatten ++ ([] ++ s.pending)).map Prod.fst).Nodup
        rw [hlive]
        exact h.nodup
      · intro a ha
        exact h.aligned a (hlive ▸ ha)

/-- Descriptors are given back on an idle channel. -/
theorem LdInv.release {s : LdState} (h : LdInv s) {c : Chan} {pending : List Ld}
    (hidle : c.idle = true) (hrunning : c.ldRunning = [])
    (hpending : pending = s.pending ∨ pending = [])
    (hhw : c.ldPending.map (·.hw) = pending.map Prod.snd) :
    LdInv { s with chan := c, pending := pending, running := [] } := by
  have hsub : List.Sublist ((s.prepared.flatten ++ (pending ++ [])).map Prod.fst) s.live := by
    apply List.Sublist.map
    apply List.Sublist.append_left
    rw [List.append_nil]
    rcases hpending with rfl | rfl
    · exact List.sublist_append_left _ _
    · exact List.nil_sublist _
  refine ⟨hhw, ?_, fun _ => rfl, ?_, h.prepared, ?_, trivial, h.nodup.sublist hsub, ?_⟩
  · rw [hrunning]
    rfl
  · intro hbusy
    rw [hidle] at hbusy
    cases hbusy
  · rcases hpending with rfl | rfl
    · exact h.pending
    · trivial
  · intro a ha
    exact h.aligned a (hsub.subset ha)

/-- `fsl_dma_free_chan_resources`. -/
def LdEvent.frees : LdEvent → Bool
  | .freeChanResources => true
  | _ => false

/-- `fsl_dma_free_chan_resources` is called while the controller has nothing to do. -/
def FreedIdle (s : LdState) (e : LdEvent) : Prop :=
  e.frees = true → s.chan.idle = true

instance (s : LdState) (e : LdEvent) : Decidable (FreedIdle s e) :=
  inferInstanceAs (Decidable (e.frees = true → s.chan.idle = true))

/-- **One step** keeps the lists in memory. -/
theorem LdInv.step {s s' : LdState} {e : LdEvent} (h : LdInv s) (hfree : FreedIdle s e)
    (hstep : ldStep s e = some s') : LdInv s' := by
  cases e with
  | allocChanResources =>
    obtain ⟨chan, hchan, rfl⟩ := Option.map_eq_some_iff.mp hstep
    unfold Chan.fslDmaAllocChanResources at hchan
    split at hchan
    · obtain rfl := Option.some.inj hchan
      exact h
    · obtain rfl := Option.some.inj hchan
      exact ⟨h.pendingHw, h.runningHw, h.idle, h.busy, h.prepared, h.pending, h.running, h.nodup,
        h.aligned⟩
  | freeChanResources =>
    obtain rfl := Option.some.inj hstep
    exact h.release (hfree rfl) rfl (Or.inr rfl) rfl
  | prep tx =>
    simp only [ldStep, Option.ite_none_right_eq_some] at hstep
    obtain ⟨⟨-, -, hpool⟩, heq⟩ := hstep
    obtain rfl := Option.some.inj heq
    exact h.prep hpool
  | submit tx =>
    simp only [ldStep, Option.ite_none_right_eq_some] at hstep
    obtain ⟨htx, heq⟩ := hstep
    obtain rfl := Option.some.inj heq
    exact h.submit htx
  | issuePending =>
    obtain rfl := Option.some.inj hstep
    exact h.xfer
  | tasklet =>
    obtain rfl := Option.some.inj hstep
    exact LdInv.xfer (h.release rfl rfl (Or.inl rfl) h.pendingHw)
  | terminateAll =>
    obtain rfl := Option.some.inj hstep
    exact h.release rfl rfl (Or.inr rfl) rfl

/-- **The chain in memory.**  Whatever is prepared, submitted, issued, retired or terminated in
    whatever order, and whichever descriptors the pool gives again: while the controller is busy,
    a walk from CDAR finds exactly the transfers on the running list, which are those that `Chan`
    has it carry out. -/
theorem walk_of_busy (chan : Chan) (mem : LdMem) (cdar : DWord) (run : List LdEvent) {s : LdState}
    (hrun : exec ldStep (ldInit chan mem cdar) run = some s)
    (hfree : Guarded ldStep FreedIdle (ldInit chan mem cdar) run) (hbusy : s.chan.idle = false)
    {fuel : ℕ} (hfuel : s.chan.regs.cdar.length ≤ fuel) :
    s.found fuel = some s.chan.regs.cdar ∧ s.chan.regs.cdar = s.chan.ldRunning.map (·.hw) := by
  have h : LdInv s := exec_invariant (fun _ _ _ h hfree hstep => h.step hfree hstep) run _ _
    (ldInv_init chan mem cdar) hfree hrun
  obtain ⟨hregs, desc, rest, hrunning, hcdar⟩ := h.busy hbusy
  have haligned : desc.1 &&& fslDmaNldaMask = desc.1 := by
    apply h.aligned
    rw [mem_live, hrunning]
    exact Or.inr (Or.inr List.mem_cons_self)
  have hchain := h.running
  rw [hregs, hrunning, List.length_map, List.length_cons] at hfuel
  rw [hrunning] at hchain
  refine ⟨?_, hregs.trans h.runningHw.symm⟩
  rw [LdState.found, hcdar, cdar_next haligned, hregs, hrunning]
  exact walk_of_chain hchain hfuel

/-- A descriptor of a copy. -/
def copyLd (a : DWord) (count : Word) : Ld := (a, ⟨0x100, 0x200, count⟩)

/-- The channel behind its probe. -/
def ldChan : Chan :=
  ⟨⟨.ip85xx, false, false⟩, ⟨0x0f000140, [], 0, 0, 0⟩, [], true, [], [], false, 0, 0⟩

/-- A transaction of two descriptors is started, and another one is submitted behind it. -/
def appendedRun : List LdEvent :=
  [.allocChanResources, .prep [copyLd 0x40 1, copyLd 0x80 2],
    .submit [copyLd 0x40 1, copyLd 0x80 2], .issuePending, .prep [copyLd 0xc0 3],
    .submit [copyLd 0xc0 3]]

theorem walk_of_busy_appended :
    ∃ s, exec ldStep (ldInit ldChan (fun _ => ⟨0, 0, 0, 0⟩) 0) appendedRun = some s
      ∧ s.found 2 = some [⟨0x100, 0x200, 1⟩, ⟨0x100, 0x200, 2⟩] := by
  refine ⟨_, rfl, ?_⟩
  exact (walk_of_busy ldChan (fun _ => ⟨0, 0, 0, 0⟩) 0 appendedRun rfl (by decide) rfl
    (by decide)).1

/-- Freed while the controller is busy: it finds what a later transaction put there. -/
example :
    (exec ldStep (ldInit ldChan (fun _ => ⟨0, 0, 0, 0⟩) 0)
      [.allocChanResources, .prep [copyLd 0x40 1], .submit [copyLd 0x40 1], .issuePending,
        .freeChanResources, .allocChanResources, .prep [copyLd 0x40 9]]).bind (·.found 1)
      = some [⟨0x100, 0x200, 9⟩] := by
  decide

end Vpx3.Dma
