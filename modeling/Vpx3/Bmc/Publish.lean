import Vpx3.Bmc.Ibmc

namespace Vpx3.Bmc

open I2c

/-!
# Publishing — daemon cycles from the bus to the FPGA registers

One cycle of the daemon is a pass of `sensor_read` followed by `TempVInfoUpdata`.  What
happens to it is the table of the chips' replies in that cycle and whether the read of
`/dev/read_sensor` succeeds.

* `Published` — a register value decoded from words that good transfers of this cycle
  delivered after the flush read;
* `PublishesOnlyGood` — in every cycle of a run every register keeps its value or is
  overwritten with such a value;
* `Ready` — the read succeeds and every channel has a first good reply within its timeout;
* `publishesOnlyGood_of_ready` — runs of ready cycles publish only good readings, and their
  outcome does not depend on what failed transfers left behind.

Nothing between the bus and the register looks at a failure, so an unready cycle publishes
whatever the pass ended with.
-/

/-! ### Channels -/

/-- Chip, register and timeout of the sensor of record `i`. -/
def sensorAddress (i : ℕ) : Byte := if i < 4 then ltc2991I2cTempAddress else ltc2991I2cVAddress

def sensorMsbReg (i : ℕ) : Byte :=
  if i < 4 then ltc2991V1MsbReg + BitVec.ofNat 8 i * 0x04
  else ltc2991V1MsbReg + BitVec.ofNat 8 (i - 4) * 0x02

def sensorTimeout (i : ℕ) : Word := if i < 4 then ltc2991TempDelayMs else ltc2991VDelayMs

/-- The conversion of a code of sensor `i`. -/
def sensorRecord (i : ℕ) (adcCode : Word) : StSensorinfo :=
  if i < 4 then temperatureRecord adcCode else voltageRecord adcCode

section Loop
variable (env : RegEnv) (address stride : Byte) (timeout : Word)

/-- One stride further is one channel further. -/
theorem add_ofNat_succ_mul (reg stride : Byte) (i : ℕ) :
    reg + stride + BitVec.ofNat 8 i * stride = reg + BitVec.ofNat 8 (i + 1) * stride := by
  rw [BitVec.ofNat_add]
  grind

/-- The code of the `i`-th channel of a loop is read at its own register, in the state the
    loop reaches it in. -/
theorem channelCode_eq {σ : Type} (bus : I2cBus σ) (reg : Byte) (s : σ) (i : ℕ) :
    channelCode bus address stride timeout reg s i
      = (ltc2991AdcReadNewData bus address (reg + BitVec.ofNat 8 i * stride) timeout
          (channelState bus address stride timeout reg s i)).2.1.adcCode := by
  induction i generalizing reg s with
  | zero => simp [channelCode, channelState]
  | succ i ih =>
    rw [channelCode, channelState, ih, add_ofNat_succ_mul]

/-- A loop leaves the read counts of all registers but those of its channels alone. -/
theorem channelState_counts (reg : Byte) (c : Counts) (i : ℕ) (a' r' : Byte)
    (hne : a' ≠ address ∨ ∀ j < i, r' ≠ reg + BitVec.ofNat 8 j * stride) :
    channelState (envBus env) address stride timeout reg c i a' r' = c a' r' := by
  induction i generalizing reg c with
  | zero => rfl
  | succ i ih =>
    have hfirst : a' ≠ address ∨ r' ≠ reg := by
      rcases hne with h | h
      · exact Or.inl h
      · exact Or.inr (by simpa using h 0 (by omega))
    have hrest : a' ≠ address ∨ ∀ j < i, r' ≠ reg + stride + BitVec.ofNat 8 j * stride := by
      rcases hne with h | h
      · exact Or.inl h
      · refine Or.inr fun j hj => ?_
        rw [add_ofNat_succ_mul]
        exact h (j + 1) (by omega)
    rw [channelState, ih _ _ hrest, ltc2991AdcReadNewData_counts env address reg timeout c hfirst]

end Loop

/-- Every sensor's register is still unread when a pass over a fresh table comes to it, so the
    code of a sensor with a first good reply after the flush is the code of that reply. -/
theorem deliveredCode_firstGood (env : RegEnv) {i k : ℕ} (hi : i < 10)
    (h : FirstGood (fun j => env (sensorAddress i) (sensorMsbReg i) (1 + j))
      (sensorTimeout i).toNat k) :
    deliveredCode (envBus env) (fun _ _ => 0) i
      = (AdcOut.ofWord (env (sensorAddress i) (sensorMsbReg i) (1 + k)).word).adcCode := by
  unfold deliveredCode
  have hdistinct : ∀ m < 10, ∀ stride ∈ ([0x02, 0x04] : List Byte), ∀ j < m,
      ltc2991V1MsbReg + BitVec.ofNat 8 m * stride
        ≠ ltc2991V1MsbReg + BitVec.ofNat 8 j * stride := by
    decide
  rcases Nat.lt_or_ge i 4 with htemp | hvolt
  · -- the loop has read only the registers of the channels before
    simp only [sensorAddress, sensorMsbReg, sensorTimeout, if_pos htemp] at h ⊢
    rw [if_pos (show i < sensorTempTotal from htemp), channelCode_eq]
    have hfresh := channelState_counts env ltc2991I2cTempAddress 0x04 ltc2991TempDelayMs
      ltc2991V1MsbReg (fun _ _ => 0) i ltc2991I2cTempAddress _
      (Or.inr (hdistinct i hi 0x04 (by decide)))
    rw [ltc2991AdcReadNewData_firstGood env _ _ _ k _ (by rw [hfresh, Nat.zero_add]; exact h),
      hfresh, Nat.zero_add]
  · obtain ⟨j, rfl⟩ := Nat.exists_eq_add_of_le hvolt
    have hnot : ¬4 + j < 4 := by omega
    simp only [sensorAddress, sensorMsbReg, sensorTimeout, if_neg hnot, Nat.add_sub_cancel_left]
      at h ⊢
    rw [if_neg (show ¬4 + j < sensorTempTotal from hnot),
      show 4 + j - sensorTempTotal = j from Nat.add_sub_cancel_left 4 j, channelCode_eq]
    -- the temperature loop reads another chip, the voltage loop other registers
    have htemps := channelState_counts env ltc2991I2cTempAddress 0x04 ltc2991TempDelayMs
      ltc2991V1MsbReg (fun _ _ => 0) sensorTMaxNum ltc2991I2cVAddress
      (ltc2991V1MsbReg + BitVec.ofNat 8 j * 0x02) (Or.inl (by decide))
    have hfresh := channelState_counts env ltc2991I2cVAddress 0x02 ltc2991VDelayMs
      ltc2991V1MsbReg (afterTemperatures (envBus env) fun _ _ => 0) j
      ltc2991I2cVAddress _ (Or.inr (hdistinct j (by omega) 0x02 (by decide)))
    rw [afterTemperatures] at hfresh
    rw [htemps] at hfresh
    rw [afterTemperatures,
      ltc2991AdcReadNewData_firstGood env _ _ _ k _ (by rw [hfresh, Nat.zero_add]; exact h),
      hfresh, Nat.zero_add]

/-- After a pass record `i` is the conversion of the code delivered for its sensor. -/
theorem sensorRead_record {σ : Type} (bus : I2cBus σ) (table : SensorTable) (s : σ) {i : ℕ}
    (hi : i < 10) :
    (sensorRead bus table s).1 i = sensorRecord i (deliveredCode bus s i) := by
  rw [sensorRecord]
  rcases Nat.lt_or_ge i 4 with htemp | hvolt
  · rw [if_pos htemp, sensorRead_temp bus table s htemp]
  · obtain ⟨j, rfl⟩ := Nat.exists_eq_add_of_le hvolt
    rw [if_neg (by omega), sensorRead_volt bus table s (by omega)]

/-! ### Cycles -/

/-- What one cycle meets: the replies of the chips, the fate of the `read` call, the ioctl's
    leftovers. -/
structure Cycle where
  env : RegEnv
  readOk : Bool
  junk : Word32 → Int

/-- The module's table and the FPGA driver. -/
structure Daemon where
  stasensorValue : SensorTable
  dev : FpgaDev

/-- One cycle: `sensor_read`, then `TempVInfoUpdata`. -/
def cycle (st : Daemon) (cyc : Cycle) : Daemon :=
  let (table, _) := sensorRead (envBus cyc.env) st.stasensorValue fun _ _ => 0
  { stasensorValue := table
    dev := tempVInfoUpdata st.dev (if cyc.readOk then some table else none) cyc.junk }

/-- A run of cycles. -/
def daemonRun (st : Daemon) (run : List Cycle) : Daemon := run.foldl cycle st

/-- The content of the register of record `i`, if the FPGA is mapped. -/
def Daemon.reg (st : Daemon) (i : ℕ) : Option Word32 := st.dev.word (wordIndex (sensorReg i))

/-- The reply to the `k`-th read of sensor `i` after its flush read. -/
def Cycle.reply (cyc : Cycle) (i k : ℕ) : XferReply :=
  cyc.env (sensorAddress i) (sensorMsbReg i) (1 + k)

/-- A code that a good transfer of sensor `i`, after the flush read and within the timeout,
    delivered in this cycle. -/
def GoodCode (cyc : Cycle) (i : ℕ) (adcCode : Word) : Prop :=
  ∃ k < (sensorTimeout i).toNat,
    (cyc.reply i k).Good ∧ (AdcOut.ofWord (cyc.reply i k).word).adcCode = adcCode

/-- A value decoded from good codes of this cycle: the word of record `i`, with the records it
    is packed from (its own and the one its sign is taken from) converted from such codes. -/
def Published (cyc : Cycle) (i : ℕ) (w : Word32) : Prop :=
  cyc.readOk = true ∧ ∃ codes : ℕ → Word,
    GoodCode cyc i (codes i) ∧ GoodCode cyc (signIndex i) (codes (signIndex i)) ∧
    w = infoWord (fun j => sensorRecord j (codes j)) i

/-- In every cycle of the run every register keeps its value or gets one decoded from good
    codes of that cycle. -/
def PublishesOnlyGood (st : Daemon) (run : List Cycle) : Prop :=
  ∀ pre cyc post, run = pre ++ cyc :: post → ∀ i < 10,
    (cycle (daemonRun st pre) cyc).reg i = (daemonRun st pre).reg i ∨
    ∃ w, (cycle (daemonRun st pre) cyc).reg i = some w ∧ Published cyc i w

/-- Two cycles that differ at most in what failed transfers left in the read buffer and in the
    leftovers of the ioctl. -/
def SameButFailures (cyc cyc' : Cycle) : Prop :=
  cyc'.readOk = cyc.readOk ∧ ∀ a r k, (cyc'.env a r k).ok = (cyc.env a r k).ok ∧
    ((cyc.env a r k).ok = true → cyc'.env a r k = cyc.env a r k)

/-- The read succeeds and after the flush every sensor has a first good reply in time, with no
    failed transfer before it. -/
def Ready (cyc : Cycle) : Prop :=
  cyc.readOk = true ∧ ∀ i < 10, ∃ k, FirstGood (cyc.reply i) (sensorTimeout i).toNat k

/-! ### What one update does to the registers -/

/-- The update depends on the ten records only. -/
theorem tempVInfoCalls_congr {t t' : SensorTable} (h : ∀ i < 10, t i = t' i) :
    tempVInfoCalls t = tempVInfoCalls t' := by
  rw [tempVInfoCalls_eq, tempVInfoCalls_eq]
  refine List.map_congr_left fun i hi => ?_
  have hi : i < 10 := List.mem_range.mp hi
  rw [infoWord, infoWord, h i hi, h (signIndex i) (signIndex_lt hi)]

/-- The leftovers of the ioctl do not reach the registers. -/
theorem afterCalls_write_junk (dev : FpgaDev) (calls : List (Word32 × Word32))
    (junk junk' : Word32 → Int) :
    afterCalls dev (calls.map fun c => .write c.1 c.2 (junk c.1))
      = afterCalls dev (calls.map fun c => .write c.1 c.2 (junk' c.1)) := by
  induction calls generalizing dev with
  | nil => rfl
  | cons c cs ih =>
    have hdev : ((RegCall.write c.1 c.2 (junk c.1)).run dev).dev
        = ((RegCall.write c.1 c.2 (junk' c.1)).run dev).dev := by
      obtain ⟨_ | base⟩ := dev
      · rw [(run_unmapped _).2.2, (run_unmapped _).2.2]
      · rw [(run_mapped _ base).2.1, (run_mapped _ base).2.1]
        rfl
    rw [List.map_cons, List.map_cons, afterCalls, afterCalls, hdev, ih]

/-- A list of writes that has `w` for every entry at `a`, and an entry at `a`, leaves `w`
    there. -/
theorem lastWritten_writes {a w : Word32} (calls : List (Word32 × Word32)) (junk : Word32 → Int)
    (hval : ∀ v, (a, v) ∈ calls → v = w) (v₀ : Word32) (hmem : v₀ = w ∨ (a, w) ∈ calls) :
    lastWritten a v₀ (calls.map fun c => .write c.1 c.2 (junk c.1)) = w := by
  induction calls generalizing v₀ with
  | nil => exact hmem.resolve_right List.not_mem_nil
  | cons c cs ih =>
    obtain ⟨b, v⟩ := c
    rw [List.map_cons, lastWritten]
    refine ih (fun v hv => hval v (List.mem_cons_of_mem _ hv)) _ ?_
    dsimp only
    by_cases hb : b = a
    · subst hb
      rw [if_pos rfl]
      exact Or.inl (hval v List.mem_cons_self)
    · rw [if_neg hb]
      refine hmem.imp_right fun h => (List.mem_cons.mp h).resolve_left fun heq => ?_
      exact hb (congrArg Prod.fst heq).symm

/-- All ten registers lie in the FPGA's window. -/
theorem sensorReg_inWindow {i : ℕ} (hi : i < 10) : InWindow (sensorReg i) := by
  revert i
  decide

/-- With the FPGA mapped an update stores the word of each record in its register. -/
theorem tempVInfoUpdata_word (base : ℕ → Word32) (read : Option SensorTable)
    (junk : Word32 → Int) {i : ℕ} (hi : i < 10) :
    (tempVInfoUpdata ⟨some base⟩ read junk).word (wordIndex (sensorReg i))
      = some (infoWord (read.getD fun _ => ⟨0, 0, 0⟩) i) := by
  unfold tempVInfoUpdata
  dsimp only
  set t := read.getD fun _ => ⟨0, 0, 0⟩
  have hcalls : ∀ c ∈ (tempVInfoCalls t).map fun c => RegCall.write c.1 c.2 (junk c.1),
      InWindow c.addr := by
    intro c hc
    rw [tempVInfoCalls_eq, List.map_map, List.mem_map] at hc
    obtain ⟨j, hj, rfl⟩ := hc
    exact sensorReg_inWindow (List.mem_range.mp hj)
  obtain ⟨base', hafter, hword⟩ := afterCalls_word (sensorReg_inWindow hi) _ hcalls base
  rw [lastWritten_writes _ junk (fun v hv => (mem_tempVInfoCalls hi).mp hv) _
    (Or.inr ((mem_tempVInfoCalls hi).mpr rfl))] at hword
  rw [hafter]
  exact congrArg some hword

/-! ### Runs of ready cycles -/

/-- In a ready cycle the code delivered for a sensor is a good one. -/
theorem Ready.goodCode {cyc : Cycle} (h : Ready cyc) {i : ℕ} (hi : i < 10) :
    GoodCode cyc i (deliveredCode (envBus cyc.env) (fun _ _ => 0) i) := by
  obtain ⟨k, hk⟩ := h.2 i hi
  exact ⟨k, hk.1, hk.2.1, (deliveredCode_firstGood cyc.env hi hk).symm⟩

/-- A ready cycle overwrites each register with a value decoded from good codes, or finds the
    FPGA unmapped. -/
theorem Ready.published {cyc : Cycle} (h : Ready cyc) (st : Daemon) {i : ℕ} (hi : i < 10) :
    (cycle st cyc).reg i = st.reg i ∨ ∃ w, (cycle st cyc).reg i = some w ∧ Published cyc i w := by
  obtain ⟨table, _ | base⟩ := st
  · left
    unfold Daemon.reg cycle tempVInfoUpdata
    dsimp only
    rw [afterCalls_unmapped]
  · right
    unfold Daemon.reg cycle
    dsimp only
    rw [if_pos h.1, tempVInfoUpdata_word base _ _ hi]
    have hsrc := signIndex_lt hi
    refine ⟨_, rfl, h.1, deliveredCode (envBus cyc.env) fun _ _ => 0, h.goodCode hi,
      h.goodCode hsrc, ?_⟩
    rw [Option.getD_some, infoWord, infoWord, sensorRead_record _ _ _ hi,
      sensorRead_record _ _ _ hsrc]

/-- A ready cycle stays ready, with the same codes, when only failed replies change. -/
theorem Ready.deliveredCode_eq {cyc cyc' : Cycle} (h : Ready cyc) (hsame : SameButFailures cyc cyc')
    {i : ℕ} (hi : i < 10) :
    deliveredCode (envBus cyc'.env) (fun _ _ => 0) i
      = deliveredCode (envBus cyc.env) (fun _ _ => 0) i := by
  obtain ⟨k, hk⟩ := h.2 i hi
  -- up to the good reply no transfer failed, so the replies are the same
  have heq : ∀ j ≤ k, cyc'.reply i j = cyc.reply i j := by
    intro j hj
    refine (hsame.2 _ _ _).2 ?_
    rcases Nat.lt_or_eq_of_le hj with hlt | rfl
    · exact (hk.2.2 j hlt).1
    · exact hk.2.1.1
  have hk' : FirstGood (cyc'.reply i) (sensorTimeout i).toNat k := by
    refine ⟨hk.1, ?_, fun j hj => ?_⟩
    · rw [heq k le_rfl]
      exact hk.2.1
    · rw [heq j (Nat.le_of_lt hj)]
      exact hk.2.2 j hj
  rw [deliveredCode_firstGood cyc.env hi hk, deliveredCode_firstGood cyc'.env hi hk']
  exact congrArg (fun r : XferReply => (AdcOut.ofWord r.word).adcCode) (heq k le_rfl)

/-- What failed transfers leave behind does not reach the FPGA in a ready cycle. -/
theorem Ready.cycle_dev_eq {cyc cyc' : Cycle} (h : Ready cyc) (hsame : SameButFailures cyc cyc')
    {st st' : Daemon} (hdev : st'.dev = st.dev) : (cycle st' cyc').dev = (cycle st cyc).dev := by
  unfold cycle tempVInfoUpdata
  dsimp only
  rw [if_pos h.1, if_pos (hsame.1.trans h.1), Option.getD_some, Option.getD_some, hdev]
  have hcalls : tempVInfoCalls (sensorRead (envBus cyc'.env) st'.stasensorValue fun _ _ => 0).1
      = tempVInfoCalls (sensorRead (envBus cyc.env) st.stasensorValue fun _ _ => 0).1 := by
    apply tempVInfoCalls_congr
    intro i hi
    rw [sensorRead_record _ _ _ hi, sensorRead_record _ _ _ hi, h.deliveredCode_eq hsame hi]
  rw [hcalls]
  exact afterCalls_write_junk _ _ _ _

/-- **Only good readings are published.**  In a run of ready cycles every register keeps its
    value or gets one decoded from good codes of the cycle, and the FPGA ends up the same
    whatever failed transfers left behind. -/
theorem publishesOnlyGood_of_ready (st : Daemon) (run : List Cycle)
    (h : ∀ cyc ∈ run, Ready cyc) :
    PublishesOnlyGood st run ∧
    ∀ run', List.Forall₂ SameButFailures run run' →
      (daemonRun st run').dev = (daemonRun st run).dev := by
  constructor
  · intro pre cyc post hsplit i hi
    exact (h cyc (by simp [hsplit])).published _ hi
  · -- generalised to two starting states with the same FPGA
    suffices hrun : ∀ run run', List.Forall₂ SameButFailures run run' → (∀ cyc ∈ run, Ready cyc) →
        ∀ st st' : Daemon, st'.dev = st.dev → (daemonRun st' run').dev = (daemonRun st run).dev from
      fun run' hall => hrun run run' hall h st st rfl
    intro run run' hall
    induction hall with
    | nil => exact fun _ st st' hdev => hdev
    | cons hsame _ ih =>
      intro hready st st' hdev
      refine ih (fun c hc => hready c (List.mem_cons_of_mem _ hc)) _ _ ?_
      exact (hready _ List.mem_cons_self).cycle_dev_eq hsame hdev

/-- A healthy cycle: every word is good, so the theorem applies to a run of it. -/
theorem publishesOnlyGood_healthy :
    PublishesOnlyGood ⟨fun _ => ⟨0, 0, 0⟩, ⟨some fun _ => 0⟩⟩
      [⟨fun _ _ _ => ⟨true, [0x90, 0]⟩, true, fun _ => 0⟩] ∧
    ∀ run', List.Forall₂ SameButFailures
        [⟨fun _ _ _ => ⟨true, [0x90, 0]⟩, true, fun _ => 0⟩] run' →
      (daemonRun ⟨fun _ => ⟨0, 0, 0⟩, ⟨some fun _ => 0⟩⟩ run').dev
        = (daemonRun ⟨fun _ => ⟨0, 0, 0⟩, ⟨some fun _ => 0⟩⟩
            [⟨fun _ _ _ => ⟨true, [0x90, 0]⟩, true, fun _ => 0⟩]).dev := by
  refine publishesOnlyGood_of_ready _ _ fun cyc hcyc => ?_
  rw [List.mem_singleton] at hcyc
  subst hcyc
  have hgood : (⟨true, [0x90, 0]⟩ : XferReply).Good := by decide
  refine ⟨rfl, fun i _ => ⟨0, ?_, hgood, fun j hj => absurd hj (Nat.not_lt_zero j)⟩⟩
  rw [sensorTimeout]
  split <;> decide

/-- A failed read of `/dev/read_sensor` overwrites a register with zero. -/
theorem not_publishesOnlyGood_failed_read :
    ¬PublishesOnlyGood ⟨fun _ => ⟨0, 0, 0⟩, ⟨some fun _ => 1⟩⟩
      [⟨fun _ _ _ => ⟨true, [0x90, 0]⟩, false, fun _ => 0⟩] := by
  intro h
  rcases h [] _ [] rfl 0 (by omega) with hkeep | ⟨w, -, hread, -⟩
  · unfold Daemon.reg cycle at hkeep
    dsimp only [daemonRun, List.foldl_nil] at hkeep
    rw [tempVInfoUpdata_word _ _ _ (by omega)] at hkeep
    exact absurd hkeep (by decide)
  · exact absurd hread (by decide)

end Vpx3.Bmc
