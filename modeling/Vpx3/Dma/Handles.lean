import Vpx3.Lib.Exec
import Mathlib

namespace Vpx3.Dma

open Exec

/-!
# DMA handles — the device and the channel the RapidIO calls use

`griodma_chan` is set by every channel probe as soon as the channel is allocated, in front of
the exits that free it again; `rio_fdev` is set at the end of a device probe.  Nothing clears
either of them.

* `fslDmaChanProbe`, `fslDmaChanRemove`, `fsldmaOfProbeBegin`, `fsldmaOfProbeEnd`,
  `fsldmaOfRemove` — the functions, a device probe as the steps around its channel probes;
* `handleStep` — probes and removals in any order;
* `HandlesValid` — if `rio_fdev` is set, it names a device that is there, and `griodma_chan` a
  live channel on its list;
* `HandleGuard` — no channel is allocated behind a registered device, the channel last
  allocated is the device's own when it is registered, and the device stays;
* `handlesValid_iff` — the handles are valid throughout a run exactly when it is guarded.
-/

/-- `struct fsldma_device`: the channels by number and the list of the DMA device.  `probed` says
    that `fsldma_of_probe` has returned 0. -/
structure Fdev where
  probed : Bool
  chan : ℕ → Option ℕ
  channels : List ℕ

/-- The handles and the objects; these are addresses.  `current` is the device under probe, and
    `live` are the channels that have been probed and not freed. -/
structure HandleState where
  rioFdev : Option ℕ
  griodmaChan : Option ℕ
  fdevs : ℕ → Option Fdev
  current : Option ℕ
  live : ℕ → Bool

def fslDmaMaxChansPerDevice : ℕ := 4

def enomem : Int := 12
def einval : Int := 22

/-- `((res.start - 0x100) & 0xfff) >> 7`. -/
def chanId (start : BitVec 64) : ℕ := (((start - 0x100) &&& 0xfff) >>> 7).toNat

/-- What a channel probe gets from outside: the memory for the channel, whether its registers
    could be mapped, the result of reading the `reg` property, and the start found there. -/
structure ChanProbeEnv where
  kzalloc : Option ℕ
  ofIomap : Bool
  ofAddressToResource : Int
  start : BitVec 64

/-- A channel on its device. -/
def Fdev.add (dev : Fdev) (id chan : ℕ) : Fdev :=
  { dev with chan := Function.update dev.chan id (some chan), channels := dev.channels ++ [chan] }

/-- `fsl_dma_chan_probe` for a child of the device at `a`.  Behind the allocation every exit but
    the last frees the channel. -/
def fslDmaChanProbe (env : ChanProbeEnv) (a : ℕ) (dev : Fdev) (s : HandleState) :
    Int × HandleState :=
  match env.kzalloc with
  | none => (-enomem, s)
  | some chan =>
    let s := { s with griodmaChan := some chan }
    if env.ofIomap = false then (-enomem, s)
    else if env.ofAddressToResource ≠ 0 then (env.ofAddressToResource, s)
    else if chanId env.start ≥ fslDmaMaxChansPerDevice then (-einval, s)
    else
      (0, { s with
        fdevs := Function.update s.fdevs a (some (dev.add (chanId env.start) chan))
        live := Function.update s.live chan true })

/-- `fsldma_of_probe` up to its channel probes: the device is allocated, unless there is no
    memory or its registers cannot be mapped. -/
def fsldmaOfProbeBegin (kzalloc : Option ℕ) (ofIomap : Bool) (s : HandleState) : HandleState :=
  match kzalloc with
  | none => s
  | some a =>
    if ofIomap = false then s
    else { s with
      fdevs := Function.update s.fdevs a (some ⟨false, fun _ => none, []⟩), current := some a }

/-- `fsldma_of_probe` behind its channel probes: without its interrupts the device is freed, but
    not its channels. -/
def fsldmaOfProbeEnd (fsldmaRequestIrqs : Int) (a : ℕ) (dev : Fdev) (s : HandleState) :
    Int × HandleState :=
  if fsldmaRequestIrqs ≠ 0 then
    (fsldmaRequestIrqs, { s with fdevs := Function.update s.fdevs a none, current := none })
  else
    (0, { s with
      fdevs := Function.update s.fdevs a (some { dev with probed := true })
      current := none, rioFdev := some a })

/-- `fsldma_of_remove`: the channels found by their numbers are freed, then the device. -/
def fsldmaOfRemove (a : ℕ) (dev : Fdev) (s : HandleState) : HandleState :=
  { s with
    fdevs := Function.update s.fdevs a none
    live := fun chan =>
      s.live chan && decide (∀ i < fslDmaMaxChansPerDevice, dev.chan i ≠ some chan) }

/-! ### Runs -/

/-- What can happen. -/
inductive HandleEvent where
  | probeBegin (kzalloc : Option ℕ) (ofIomap : Bool)
  | chanProbe (env : ChanProbeEnv)
  | probeEnd (fsldmaRequestIrqs : Int)
  | remove (fdev : ℕ)

/-- The machine.  Devices are probed one after the other; memory that is handed out is in no
    object that exists. -/
def handleStep (s : HandleState) : HandleEvent → Option HandleState
  | .probeBegin kzalloc ofIomap =>
    if s.current = none ∧ ∀ a ∈ kzalloc, s.fdevs a = none then
      some (fsldmaOfProbeBegin kzalloc ofIomap s)
    else none
  | .chanProbe env =>
    if ∀ chan ∈ env.kzalloc, s.live chan = false then
      s.current.bind fun a => (s.fdevs a).map fun dev => (fslDmaChanProbe env a dev s).2
    else none
  | .probeEnd irqs =>
    s.current.bind fun a => (s.fdevs a).map fun dev => (fsldmaOfProbeEnd irqs a dev s).2
  | .remove a =>
    (s.fdevs a).bind fun dev => if dev.probed then some (fsldmaOfRemove a dev s) else none

/-- The module as it is loaded. -/
def handleInit : HandleState where
  rioFdev := none
  griodmaChan := none
  fdevs := fun _ => none
  current := none
  live := fun _ => false

/-- If `rio_fdev` is set, it is a device that was probed and not removed, and `griodma_chan` is a
    channel on its list that has not been freed. -/
def HandlesValid (s : HandleState) : Prop :=
  ∀ a, s.rioFdev = some a → ∃ dev, s.fdevs a = some dev ∧ dev.probed = true
    ∧ ∃ chan, s.griodmaChan = some chan ∧ chan ∈ dev.channels ∧ s.live chan = true

/-- `griodma_chan` is on the list of the device under probe. -/
def OwnChan (s : HandleState) : Prop :=
  ∃ a ∈ s.current, ∃ dev ∈ s.fdevs a, ∃ chan ∈ s.griodmaChan, chan ∈ dev.channels

/-- The condition on a step. -/
def HandleGuard (s : HandleState) : HandleEvent → Prop
  | .probeBegin _ _ => True
  | .chanProbe env => env.kzalloc = none ∨ s.rioFdev = none
  | .probeEnd irqs => irqs = 0 → OwnChan s
  | .remove a => s.rioFdev ≠ some a

instance (s : HandleState) : Decidable (OwnChan s) :=
  inferInstanceAs (Decidable (∃ a ∈ s.current, ∃ dev ∈ s.fdevs a, ∃ chan ∈ s.griodmaChan,
    chan ∈ dev.channels))

instance (s : HandleState) : ∀ e, Decidable (HandleGuard s e)
  | .probeBegin _ _ => inferInstanceAs (Decidable True)
  | .chanProbe _ => inferInstanceAs (Decidable (_ ∨ _))
  | .probeEnd _ => inferInstanceAs (Decidable (_ → _))
  | .remove _ => inferInstanceAs (Decidable (_ ≠ _))

/-! ### The table of devices -/

/-- The channels of a device are live, they are on no other list, and those found by number are
    on its own. -/
structure Table (fdevs : ℕ → Option Fdev) (live : ℕ → Bool) : Prop where
  live : ∀ a dev, fdevs a = some dev → ∀ chan ∈ dev.channels, live chan = true
  apart : ∀ a b dev dev', fdevs a = some dev → fdevs b = some dev' → a ≠ b →
    ∀ chan ∈ dev.channels, chan ∉ dev'.channels
  listed : ∀ a dev i chan, fdevs a = some dev → dev.chan i = some chan → chan ∈ dev.channels

variable {fdevs : ℕ → Option Fdev} {live : ℕ → Bool}

/-- A device in its place. -/
theorem Table.set (h : Table fdevs live) (a : ℕ) (dev : Fdev)
    (hlive : ∀ chan ∈ dev.channels, live chan = true)
    (hapart : ∀ b dev', b ≠ a → fdevs b = some dev' → ∀ chan ∈ dev.channels, chan ∉ dev'.channels)
    (hlisted : ∀ i chan, dev.chan i = some chan → chan ∈ dev.channels) :
    Table (Function.update fdevs a (some dev)) live := by
  -- a device of the new table is the one that was set, or one of the old table
  have hcases {b : ℕ} {d : Fdev} (hb : Function.update fdevs a (some dev) b = some d) :
      (b = a ∧ d = dev) ∨ (b ≠ a ∧ fdevs b = some d) := by
    by_cases hba : b = a
    · subst hba
      rw [Function.update_self] at hb
      exact Or.inl ⟨rfl, (Option.some.inj hb).symm⟩
    · rw [Function.update_of_ne hba] at hb
      exact Or.inr ⟨hba, hb⟩
  constructor
  · -- its channels are live
    intro b d hb
    rcases hcases hb with ⟨rfl, rfl⟩ | ⟨-, hb⟩
    · exact hlive
    · exact h.live b d hb
  · -- of two lists at most one is the one that was set
    intro b c d d' hb hc hne chan hd hd'
    rcases hcases hb with ⟨rfl, rfl⟩ | ⟨hba, hbOld⟩
    · rcases hcases hc with ⟨rfl, -⟩ | ⟨hca, hcOld⟩
      · exact hne rfl
      · exact hapart c d' hca hcOld chan hd hd'
    · rcases hcases hc with ⟨rfl, rfl⟩ | ⟨-, hcOld⟩
      · exact hapart b d hba hbOld chan hd' hd
      · exact h.apart b c d d' hbOld hcOld hne chan hd hd'
  · intro b d i chan hb hi
    rcases hcases hb with ⟨rfl, rfl⟩ | ⟨-, hb⟩
    · exact hlisted i chan hi
    · exact h.listed b d i chan hb hi

/-- A device that is left when one is taken out is another one. -/
theorem of_update_none {a b : ℕ} {d : Fdev} (hb : Function.update fdevs a none b = some d) :
    b ≠ a ∧ fdevs b = some d := by
  by_cases hba : b = a
  · subst hba
    rw [Function.update_self] at hb
    nomatch hb
  · rw [Function.update_of_ne hba] at hb
    exact ⟨hba, hb⟩

/-- A device taken out. -/
theorem Table.erase (h : Table fdevs live) (a : ℕ) :
    Table (Function.update fdevs a none) live := by
  have hold {b : ℕ} {d : Fdev} (hb : Function.update fdevs a none b = some d) :
      fdevs b = some d := (of_update_none hb).2
  constructor
  · exact fun b d hb => h.live b d (hold hb)
  · exact fun b c d d' hb hc => h.apart b c d d' (hold hb) (hold hc)
  · exact fun b d i chan hb => h.listed b d i chan (hold hb)

/-- Other channels may be freed, and new ones come to life. -/
theorem Table.relive (h : Table fdevs live) {live' : ℕ → Bool}
    (hlive : ∀ a dev, fdevs a = some dev → ∀ chan ∈ dev.channels, live' chan = true) :
    Table fdevs live' :=
  ⟨hlive, h.apart, h.listed⟩

/-- A fresh channel is on no list. -/
theorem Table.fresh (h : Table fdevs live) {chan : ℕ} (hfresh : live chan = false) {a : ℕ}
    {dev : Fdev} (ha : fdevs a = some dev) : chan ∉ dev.channels := by
  intro hmem
  rw [h.live a dev ha chan hmem] at hfresh
  nomatch hfresh

/-- A fresh channel added to a device. -/
theorem Table.add (h : Table fdevs live) {a : ℕ} {dev : Fdev} (ha : fdevs a = some dev)
    {chan : ℕ} (hfresh : live chan = false) (id : ℕ) :
    Table (Function.update fdevs a (some (dev.add id chan)))
      (Function.update live chan true) := by
  have hgrow : Table fdevs (Function.update live chan true) := by
    refine h.relive fun b d hb c hc => ?_
    rw [Function.update_apply]
    split
    · rfl
    · exact h.live b d hb c hc
  refine hgrow.set a (dev.add id chan) (fun c hc => ?_) (fun b d hba hb c hc => ?_)
    (fun i c hi => ?_)
  · rcases List.mem_append.mp hc with hc | hc
    · exact hgrow.live a dev ha c hc
    · rw [List.mem_singleton.mp hc, Function.update_self]
  · rcases List.mem_append.mp hc with hc | hc
    · exact h.apart a b dev d ha hb (Ne.symm hba) c hc
    · rw [List.mem_singleton.mp hc]
      exact h.fresh hfresh hb
  · dsimp only [Fdev.add] at hi
    rw [Function.update_apply] at hi
    refine List.mem_append.mpr ?_
    split at hi
    · exact Or.inr (List.mem_singleton.mpr (Option.some.inj hi).symm)
    · exact Or.inl (h.listed a dev i c ha hi)

/-! ### The invariant -/

/-- The handles are valid, the table is in order, and the device under probe is not registered
    yet. -/
structure HandleInv (s : HandleState) : Prop where
  handles : HandlesValid s
  table : Table s.fdevs s.live
  current : ∀ a dev, s.current = some a → s.fdevs a = some dev → dev.probed = false

theorem handleInv_init : HandleInv handleInit where
  handles _ h := nomatch h
  table := ⟨fun _ _ h => (nomatch h), fun _ _ _ _ h => (nomatch h), fun _ _ _ _ h => (nomatch h)⟩
  current _ _ h := nomatch h

variable {s s' : HandleState}

/-- A device that is registered is not the one under probe. -/
theorem HandleInv.ne_current (hinv : HandleInv s) {a b : ℕ} {dev : Fdev}
    (hcur : s.current = some a) (hdev : s.fdevs b = some dev) (hprobed : dev.probed = true) :
    b ≠ a := by
  rintro rfl
  rw [hinv.current b dev hcur hdev] at hprobed
  nomatch hprobed

/-- The first part of a device probe keeps the invariant. -/
theorem probeBegin_inv (hinv : HandleInv s) {kzalloc : Option ℕ} {ofIomap : Bool}
    (h : handleStep s (.probeBegin kzalloc ofIomap) = some s') : HandleInv s' := by
  rw [handleStep] at h
  split at h
  · rename_i henabled
    obtain rfl := Option.some.inj h
    cases kzalloc with
    | none => exact hinv
    | some a =>
      have hfree : s.fdevs a = none := henabled.2 a rfl
      rw [fsldmaOfProbeBegin]
      split
      · exact hinv
      · constructor
        · -- the registered device is not in the memory handed out
          intro b hb
          obtain ⟨dev, hdev, hrest⟩ := hinv.handles b hb
          have hba : b ≠ a := by
            rintro rfl
            rw [hfree] at hdev
            nomatch hdev
          exact ⟨dev, by dsimp only; rwa [Function.update_of_ne hba], hrest⟩
        · exact hinv.table.set a _ (fun c hc => absurd hc List.not_mem_nil)
            (fun b d _ _ c hc => absurd hc List.not_mem_nil) (fun i c hi => nomatch hi)
        · intro b dev hb hdev
          obtain rfl := Option.some.inj hb
          dsimp only at hdev
          rw [Function.update_self] at hdev
          exact (Option.some.inj hdev) ▸ rfl
  · nomatch h

/-- What a channel probe is called with. -/
theorem chanProbe_cases {env : ChanProbeEnv} (h : handleStep s (.chanProbe env) = some s') :
    ∃ a dev, s.current = some a ∧ s.fdevs a = some dev
      ∧ (∀ chan ∈ env.kzalloc, s.live chan = false)
      ∧ s' = (fslDmaChanProbe env a dev s).2 := by
  rw [handleStep] at h
  split at h
  · rename_i hfresh
    obtain ⟨a, ha, h⟩ := Option.bind_eq_some_iff.mp h
    obtain ⟨dev, hdev, rfl⟩ := Option.map_eq_some_iff.mp h
    exact ⟨a, dev, ha, hdev, hfresh, rfl⟩
  · nomatch h

/-- A channel probe that allocates the channel stores it in `griodma_chan`; it fails and does
    nothing else, or puts the channel on the device's list. -/
theorem fslDmaChanProbe_cases (env : ChanProbeEnv) {chan : ℕ} (hchan : env.kzalloc = some chan)
    (a : ℕ) (dev : Fdev) (s : HandleState) :
    (fslDmaChanProbe env a dev s).2 = { s with griodmaChan := some chan }
      ∨ ∃ id, (fslDmaChanProbe env a dev s).2 = { s with
          griodmaChan := some chan
          fdevs := Function.update s.fdevs a (some (dev.add id chan))
          live := Function.update s.live chan true } := by
  rw [fslDmaChanProbe, hchan]
  dsimp only
  split
  · exact Or.inl rfl
  · split
    · exact Or.inl rfl
    · split
      · exact Or.inl rfl
      · exact Or.inr ⟨_, rfl⟩

/-- A channel probe keeps the invariant while no device is registered. -/
theorem chanProbe_inv (hinv : HandleInv s) {env : ChanProbeEnv}
    (hguard : HandleGuard s (.chanProbe env)) (h : handleStep s (.chanProbe env) = some s') :
    HandleInv s' := by
  obtain ⟨a, dev, hcur, hdev, hfresh, rfl⟩ := chanProbe_cases h
  cases hchan : env.kzalloc with
  | none =>
    rw [fslDmaChanProbe, hchan]
    exact hinv
  | some chan =>
    have hnone : s.rioFdev = none := by
      rcases hguard with hguard | hguard
      · rw [hchan] at hguard
        nomatch hguard
      · exact hguard
    have hlive := hfresh chan hchan
    rcases fslDmaChanProbe_cases env hchan a dev s with hrun | ⟨id, hrun⟩
    · rw [hrun]
      exact ⟨fun b hb => (nomatch hnone.symm.trans hb), hinv.table, hinv.current⟩
    · rw [hrun]
      refine ⟨fun b hb => (nomatch hnone.symm.trans hb), hinv.table.add hdev hlive id, ?_⟩
      intro b d hb hd
      obtain rfl : a = b := Option.some.inj (hcur.symm.trans hb)
      dsimp only at hd
      rw [Function.update_self] at hd
      rw [← Option.some.inj hd]
      exact hinv.current a dev hcur hdev

/-- Behind a registered device an allocated channel makes the handles disagree. -/
theorem chanProbe_break (hinv : HandleInv s) {env : ChanProbeEnv}
    (h : handleStep s (.chanProbe env) = some s') (hvalid : HandlesValid s') :
    HandleGuard s (.chanProbe env) := by
  obtain ⟨a, dev, hcur, hdev, hfresh, rfl⟩ := chanProbe_cases h
  cases hchan : env.kzalloc with
  | none => exact Or.inl hchan
  | some chan =>
    refine Or.inr ?_
    cases hrio : s.rioFdev with
    | none => rfl
    | some b =>
      exfalso
      have hlive := hfresh chan hchan
      obtain ⟨old, hold, hprobed, -⟩ := hinv.handles b hrio
      have hba : b ≠ a := hinv.ne_current hcur hold hprobed
      -- the registered device keeps its list, and the new channel is not on it
      have hnew : (fslDmaChanProbe env a dev s).2.rioFdev = some b
          ∧ (fslDmaChanProbe env a dev s).2.fdevs b = some old
          ∧ (fslDmaChanProbe env a dev s).2.griodmaChan = some chan := by
        rcases fslDmaChanProbe_cases env hchan a dev s with hrun | ⟨id, hrun⟩
        · rw [hrun]
          exact ⟨hrio, hold, rfl⟩
        · rw [hrun]
          exact ⟨hrio, by dsimp only; rwa [Function.update_of_ne hba], rfl⟩
      obtain ⟨dev', hdev', -, chan', hchan', hmem, -⟩ := hvalid b hnew.1
      obtain rfl := Option.some.inj (hnew.2.1.symm.trans hdev')
      obtain rfl := Option.some.inj (hnew.2.2.symm.trans hchan')
      exact hinv.table.fresh hlive hold hmem

/-- What the end of a device probe is called with. -/
theorem probeEnd_cases {irqs : Int} (h : handleStep s (.probeEnd irqs) = some s') :
    ∃ a dev, s.current = some a ∧ s.fdevs a = some dev
      ∧ s' = (fsldmaOfProbeEnd irqs a dev s).2 := by
  rw [handleStep] at h
  obtain ⟨a, ha, h⟩ := Option.bind_eq_some_iff.mp h
  obtain ⟨dev, hdev, rfl⟩ := Option.map_eq_some_iff.mp h
  exact ⟨a, dev, ha, hdev, rfl⟩

/-- The end of a device probe keeps the invariant when the channel is the device's own. -/
theorem probeEnd_inv (hinv : HandleInv s) {irqs : Int} (hguard : HandleGuard s (.probeEnd irqs))
    (h : handleStep s (.probeEnd irqs) = some s') : HandleInv s' := by
  obtain ⟨a, dev, hcur, hdev, rfl⟩ := probeEnd_cases h
  rw [fsldmaOfProbeEnd]
  split
  · -- the device is freed, and it is not the one registered
    constructor
    · intro b hb
      obtain ⟨old, hold, hprobed, hrest⟩ := hinv.handles b hb
      have hba : b ≠ a := hinv.ne_current hcur hold hprobed
      exact ⟨old, by dsimp only; rwa [Function.update_of_ne hba], hprobed, hrest⟩
    · exact hinv.table.erase a
    · exact fun b d hb => nomatch hb
  · -- the device is registered, with the channel on its list
    rename_i hirqs
    obtain ⟨b, hb, dev', hdev', chan, hchan, hmem⟩ := hguard (not_not.mp hirqs)
    obtain rfl : a = b := Option.some.inj (hcur.symm.trans hb)
    obtain rfl : dev = dev' := Option.some.inj (hdev.symm.trans hdev')
    constructor
    · intro c hc
      obtain rfl := Option.some.inj hc
      exact ⟨_, Function.update_self _ _ _, rfl, chan, hchan, hmem,
        hinv.table.live a dev hdev chan hmem⟩
    · exact hinv.table.set a _ (hinv.table.live a dev hdev)
        (fun c d hca hd => hinv.table.apart a c dev d hdev hd (Ne.symm hca))
        (fun i c => hinv.table.listed a dev i c hdev)
    · exact fun b d hb => nomatch hb

/-- A device registered without its own channel makes the handles disagree. -/
theorem probeEnd_break {irqs : Int} (h : handleStep s (.probeEnd irqs) = some s')
    (hvalid : HandlesValid s') : HandleGuard s (.probeEnd irqs) := by
  obtain ⟨a, dev, hcur, hdev, rfl⟩ := probeEnd_cases h
  intro hirqs
  rw [fsldmaOfProbeEnd, if_neg (not_not.mpr hirqs)] at hvalid
  obtain ⟨dev', hdev', -, chan, hchan, hmem, -⟩ := hvalid a rfl
  dsimp only at hdev'
  rw [Function.update_self] at hdev'
  rw [← Option.some.inj hdev'] at hmem
  exact ⟨a, hcur, dev, hdev, chan, hchan, hmem⟩

/-- What a removal is called with. -/
theorem remove_cases {a : ℕ} (h : handleStep s (.remove a) = some s') :
    ∃ dev, s.fdevs a = some dev ∧ dev.probed = true ∧ s' = fsldmaOfRemove a dev s := by
  rw [handleStep] at h
  obtain ⟨dev, hdev, h⟩ := Option.bind_eq_some_iff.mp h
  split at h
  · rename_i hprobed
    exact ⟨dev, hdev, hprobed, (Option.some.inj h).symm⟩
  · nomatch h

/-- The removal of another device keeps the invariant. -/
theorem remove_inv (hinv : HandleInv s) {a : ℕ} (hguard : HandleGuard s (.remove a))
    (h : handleStep s (.remove a) = some s') : HandleInv s' := by
  obtain ⟨dev, hdev, hprobed, rfl⟩ := remove_cases h
  -- what is freed is on no other list
  have hkept {b : ℕ} {d : Fdev} (hba : b ≠ a) (hb : s.fdevs b = some d) {chan : ℕ}
      (hmem : chan ∈ d.channels) : (fsldmaOfRemove a dev s).live chan = true := by
    have hlive := hinv.table.live b d hb chan hmem
    have hnot : ∀ i < fslDmaMaxChansPerDevice, dev.chan i ≠ some chan := fun i _ hi =>
      hinv.table.apart b a d dev hb hdev hba chan hmem (hinv.table.listed a dev i chan hdev hi)
    rw [fsldmaOfRemove]
    dsimp only
    rw [hlive, decide_eq_true hnot, Bool.and_self]
  constructor
  · intro b hb
    have hba : b ≠ a := fun heq => hguard (heq ▸ hb)
    obtain ⟨old, hold, hprobed', chan, hchan, hmem, -⟩ := hinv.handles b hb
    refine ⟨old, ?_, hprobed', chan, hchan, hmem, hkept hba hold hmem⟩
    rw [fsldmaOfRemove]
    dsimp only
    rwa [Function.update_of_ne hba]
  · refine (hinv.table.erase a).relive fun b d hb chan hmem => ?_
    obtain ⟨hba, hold⟩ := of_update_none hb
    exact hkept hba hold hmem
  · intro b d hb hd
    rw [fsldmaOfRemove] at hb hd
    exact hinv.current b d hb (of_update_none hd).2

/-- The removal of the registered device leaves its handle. -/
theorem remove_break {a : ℕ} (h : handleStep s (.remove a) = some s')
    (hvalid : HandlesValid s') : HandleGuard s (.remove a) := by
  obtain ⟨dev, hdev, -, rfl⟩ := remove_cases h
  intro hrio
  obtain ⟨dev', hdev', -⟩ := hvalid a hrio
  rw [fsldmaOfRemove] at hdev'
  dsimp only at hdev'
  rw [Function.update_self] at hdev'
  nomatch hdev'

/-- A guarded step keeps the invariant. -/
theorem handleStep_inv (hinv : HandleInv s) {e : HandleEvent} (hguard : HandleGuard s e)
    (h : handleStep s e = some s') : HandleInv s' := by
  cases e with
  | probeBegin kzalloc ofIomap => exact probeBegin_inv hinv h
  | chanProbe env => exact chanProbe_inv hinv hguard h
  | probeEnd irqs => exact probeEnd_inv hinv hguard h
  | remove a => exact remove_inv hinv hguard h

/-- A step to valid handles was guarded. -/
theorem handleStep_break (hinv : HandleInv s) {e : HandleEvent} (h : handleStep s e = some s')
    (hvalid : HandlesValid s') : HandleGuard s e := by
  cases e with
  | probeBegin kzalloc ofIomap => exact trivial
  | chanProbe env => exact chanProbe_break hinv h hvalid
  | probeEnd irqs => exact probeEnd_break h hvalid
  | remove a => exact remove_break h hvalid

/-! ### Whole runs -/

/-- **The handles.**  They are valid in every state of a run exactly when every step of the run
    is guarded. -/
theorem handlesValid_iff (run : List HandleEvent) {t : HandleState}
    (hrun : exec handleStep handleInit run = some t) :
    Always handleStep HandlesValid handleInit run
      ↔ Guarded handleStep HandleGuard handleInit run := by
  refine always_iff_guarded (fun _ hinv => hinv.handles) ?_ ?_ handleInv_init hrun
  · exact fun s e s' hinv hguard h => handleStep_inv hinv hguard h
  · exact fun s e s' hinv h hvalid => handleStep_break hinv h hvalid

/-- A channel whose registers start at `start` is probed without a failure. -/
def goodChan (chan : ℕ) (start : BitVec 64) : ChanProbeEnv := ⟨some chan, true, 0, start⟩

/-- A controller with two channels, behind one whose registers cannot be mapped. -/
def oneController : List HandleEvent :=
  [.probeBegin (some 1) true, .chanProbe ⟨some 10, false, 0, 0⟩, .chanProbe (goodChan 11 0x180),
    .chanProbe (goodChan 12 0x200), .probeEnd 0]

/-- Its second channel serves the calls. -/
theorem handlesValid_oneController : Always handleStep HandlesValid handleInit oneController :=
  (handlesValid_iff oneController rfl).mpr (by decide +kernel)

/-- A controller without a channel, one whose last channel fails, one that is removed again, and a
    second controller. -/
theorem not_handlesValid :
    ¬Always handleStep HandlesValid handleInit [.probeBegin (some 1) true, .probeEnd 0]
      ∧ ¬Always handleStep HandlesValid handleInit
        [.probeBegin (some 1) true, .chanProbe (goodChan 11 0x180),
          .chanProbe ⟨some 12, false, 0, 0⟩, .probeEnd 0]
      ∧ ¬Always handleStep HandlesValid handleInit (oneController ++ [.remove 1])
      ∧ ¬Always handleStep HandlesValid handleInit
        (oneController ++ [.probeBegin (some 2) true, .chanProbe (goodChan 13 0x180)]) := by
  refine ⟨fun h => ?_, fun h => ?_, fun h => ?_, fun h => ?_⟩
  · obtain ⟨dev, hdev, -, chan, hchan, -⟩ := h _ [] _ (List.append_nil _).symm rfl 1 rfl
    nomatch hchan
  · obtain ⟨dev, hdev, -, chan, hchan, hmem, -⟩ := h _ [] _ (List.append_nil _).symm rfl 1 rfl
    obtain rfl := Option.some.inj hdev
    obtain rfl := Option.some.inj hchan
    exact absurd hmem (by decide +kernel)
  · obtain ⟨dev, hdev, -⟩ := h _ [] _ (List.append_nil _).symm rfl 1 rfl
    nomatch hdev
  · obtain ⟨dev, hdev, -, chan, hchan, hmem, -⟩ := h _ [] _ (List.append_nil _).symm rfl 1 rfl
    obtain rfl := Option.some.inj hdev
    obtain rfl := Option.some.inj hchan
    exact absurd hmem (by decide +kernel)

end Vpx3.Dma
