import Vpx3.Lib.Exec
import Vpx3.I2c.I2cLtc2991

namespace Vpx3.I2c

open Exec

/-!
# I2C driver — the client the helpers talk through

`lct2991_probe` stores its client in `new_client` before the two steps that can fail, and
neither a failure nor `lct2991_remove` takes it back.  The four helpers follow the pointer
without a look at it.

* `lct2991Probe`, `lct2991Remove`, `HelperCall.perform` — the functions;
* `clientStep` — probes, removals and helper calls in any order;
* `ValidClient` — the pointer is NULL or names a client that is bound, and no helper has
  followed it otherwise;
* `ClientGuard` — no probe fails, the client last probed stays, and helpers are called only
  after a probe;
* `validClient_iff` — the pointer is valid throughout a run exactly when the run is guarded.
-/

/-- `i2c_write_word_data`.  The high byte is `(uint8_t)value>>8`, in which the cast binds
    first. -/
def i2cWriteWordData {σ : Type} (bus : I2cBus σ) (address command : Byte) (value : Word) (s : σ) :
    Byte × σ :=
  let high : Byte := value.truncate 8 >>> 8
  let (r, s) := bus.transfer [.write address [command, high, value.truncate 8]] s
  (r.ack, s)

/-- A call of one of the four helpers. -/
inductive HelperCall where
  | writeByte (address command value : Byte)
  | writeWord (address command : Byte) (value : Word)
  | readByte (address command : Byte)
  | readWord (address command : Byte)
deriving DecidableEq, Repr

def HelperCall.address : HelperCall → Byte
  | .writeByte address _ _ | .writeWord address _ _ | .readByte address _
  | .readWord address _ => address

/-- The transfer of a call: the value the helper returns, and the bus. -/
def HelperCall.transfer {σ : Type} (bus : I2cBus σ) (s : σ) : HelperCall → Byte × σ
  | .writeByte address command value => i2cWriteByteData bus address command value s
  | .writeWord address command value => i2cWriteWordData bus address command value s
  | .readByte address command =>
    let (ack, _, s) := i2cReadByteData bus address command s
    (ack, s)
  | .readWord address command =>
    let (ack, _, s) := i2cReadWordData bus address command s
    (ack, s)

/-! ### The driver -/

/-- The driver's variables and the bus.  Clients are addresses; `addr` holds their address
    fields.  `bound` are the clients whose probe returned 0 and which have not been removed, and
    `stray` says that a helper has followed NULL or the pointer to another client. -/
structure ClientState (σ : Type) where
  newClient : Option ℕ
  lct2991Major : ℕ
  devno : ℕ
  addr : ℕ → Byte
  bus : σ
  bound : List ℕ
  stray : Bool

/-- What a probe gets from outside: the results of the two ways to register a device number,
    the number allocated, and the result of `cdev_add`. -/
structure ProbeEnv where
  registerChrdevRegion : Int
  allocChrdevRegion : Int
  allocated : ℕ
  cdevAdd : Int

def lct2991Minor : ℕ := 222

/-- `MKDEV` and `MAJOR`. -/
def mkdev (ma mi : ℕ) : ℕ := ma * 2 ^ 20 + mi
def major (dev : ℕ) : ℕ := dev / 2 ^ 20

variable {σ : Type}

/-- `lct2991_probe`. -/
def lct2991Probe (env : ProbeEnv) (client : ℕ) (s : ClientState σ) : Int × ClientState σ :=
  -- in front of everything that can fail
  let s := { s with newClient := some client, devno := mkdev s.lct2991Major lct2991Minor }
  let (ret, s) :=
    if s.lct2991Major ≠ 0 then (env.registerChrdevRegion, s)
    else (env.allocChrdevRegion,
      { s with devno := env.allocated, lct2991Major := major env.allocated })
  if ret ≠ 0 then (ret, s)
  else if env.cdevAdd ≠ 0 then (env.cdevAdd, s)
  else (0, s)

/-- `lct2991_remove`: it gives back the device number, and touches no variable. -/
def lct2991Remove (_client : ℕ) (s : ClientState σ) : Int × ClientState σ := (0, s)

/-- A helper: `new_client->addr = address`, and the transfer over `new_client->adapter`.  Behind
    a NULL pointer there is no result. -/
def HelperCall.perform (bus : I2cBus σ) (call : HelperCall) (s : ClientState σ) :
    Option Byte × ClientState σ :=
  match s.newClient with
  | none => (none, { s with stray := true })
  | some client =>
    let (ack, busState) := call.transfer bus s.bus
    (some ack, { s with
      addr := Function.update s.addr client call.address
      bus := busState
      stray := s.stray || decide (client ∉ s.bound) })

/-! ### Runs -/

/-- What can happen. -/
inductive ClientEvent where
  | probe (client : ℕ) (env : ProbeEnv)
  | remove (client : ℕ)
  | helper (call : HelperCall)

/-- The machine.  The core probes clients that are not bound and removes those that are. -/
def clientStep (bus : I2cBus σ) (s : ClientState σ) : ClientEvent → Option (ClientState σ)
  | .probe client env =>
    if client ∈ s.bound then none
    else
      let result := lct2991Probe env client s
      some (if result.1 = 0 then { result.2 with bound := client :: result.2.bound } else result.2)
  | .remove client =>
    if client ∈ s.bound then
      let (_, s') := lct2991Remove client s
      some { s' with bound := s'.bound.filter (· ≠ client) }
    else none
  | .helper call => some (call.perform bus s).2

/-- The module as it is loaded. -/
def clientInit (addr : ℕ → Byte) (bus : σ) : ClientState σ where
  newClient := none
  lct2991Major := 250
  devno := 0
  addr := addr
  bus := bus
  bound := []
  stray := false

/-- The pointer is NULL or names a bound client, and has not been followed otherwise. -/
structure ValidClient (s : ClientState σ) : Prop where
  valid : ∀ client, s.newClient = some client → client ∈ s.bound
  used : s.stray = false

/-- Both steps of a probe succeed. -/
def ProbeEnv.Succeeds (env : ProbeEnv) (lct2991Major : ℕ) : Prop :=
  (if lct2991Major ≠ 0 then env.registerChrdevRegion else env.allocChrdevRegion) = 0
    ∧ env.cdevAdd = 0

/-- The condition on a step. -/
def ClientGuard (s : ClientState σ) : ClientEvent → Prop
  | .probe _ env => env.Succeeds s.lct2991Major
  | .remove client => s.newClient ≠ some client
  | .helper _ => s.newClient ≠ none

instance (env : ProbeEnv) (n : ℕ) : Decidable (env.Succeeds n) :=
  inferInstanceAs (Decidable (_ ∧ _))

instance (s : ClientState σ) : ∀ e, Decidable (ClientGuard s e)
  | .probe _ _ => inferInstanceAs (Decidable (_ ∧ _))
  | .remove _ | .helper _ => inferInstanceAs (Decidable (_ ≠ _))

/-! ### One step -/

/-- The end of a probe: whichever step fails, the state stays, and the result is 0 exactly if none
    does. -/
theorem probeEnd_spec (ret cdevAdd : Int) (s : ClientState σ) :
    (if ret ≠ 0 then (ret, s) else if cdevAdd ≠ 0 then (cdevAdd, s) else (0, s)).2 = s
      ∧ ((if ret ≠ 0 then (ret, s) else if cdevAdd ≠ 0 then (cdevAdd, s) else (0, s)).1 = 0
        ↔ ret = 0 ∧ cdevAdd = 0) := by
  by_cases hret : ret = 0
  · by_cases hcdev : cdevAdd = 0
    · simp [hret, hcdev]
    · simp [hret, hcdev]
  · simp [hret]

/-- A probe stores its client in any case, leaves what is not its own, and returns 0 exactly if
    both steps succeed. -/
theorem lct2991Probe_spec (env : ProbeEnv) (client : ℕ) (s : ClientState σ) :
    (lct2991Probe env client s).2.newClient = some client
      ∧ (lct2991Probe env client s).2.bound = s.bound
      ∧ (lct2991Probe env client s).2.stray = s.stray
      ∧ ((lct2991Probe env client s).1 = 0 ↔ env.Succeeds s.lct2991Major) := by
  rw [lct2991Probe, ProbeEnv.Succeeds]
  dsimp only
  -- a region is registered for a fixed major number, and allocated otherwise
  by_cases hmajor : s.lct2991Major ≠ 0
  · rw [if_pos hmajor, if_pos hmajor]
    dsimp only
    obtain ⟨hstate, hret⟩ := probeEnd_spec env.registerChrdevRegion env.cdevAdd
      { s with newClient := some client, devno := mkdev s.lct2991Major lct2991Minor }
    rw [hstate]
    exact ⟨rfl, rfl, rfl, hret⟩
  · rw [if_neg hmajor, if_neg hmajor]
    dsimp only
    obtain ⟨hstate, hret⟩ := probeEnd_spec env.allocChrdevRegion env.cdevAdd
      { s with
        newClient := some client
        devno := env.allocated
        lct2991Major := major env.allocated }
    rw [hstate]
    exact ⟨rfl, rfl, rfl, hret⟩

variable {bus : I2cBus σ} {s s' : ClientState σ}

/-- A probe keeps the pointer valid exactly if it succeeds. -/
theorem probe_iff (hinv : ValidClient s) {client : ℕ} {env : ProbeEnv}
    (h : clientStep bus s (.probe client env) = some s') :
    ValidClient s' ↔ env.Succeeds s.lct2991Major := by
  obtain ⟨hnew, hbound, hstray, hret⟩ := lct2991Probe_spec env client s
  rw [clientStep] at h
  split at h
  · nomatch h
  · rename_i hfresh
    generalize lct2991Probe env client s = result at h hnew hbound hstray hret
    obtain rfl := Option.some.inj h
    by_cases hsucc : result.1 = 0
    · -- the client that the pointer names now is bound
      rw [if_pos hsucc]
      refine iff_of_true ⟨fun c hc => ?_, hstray.trans hinv.used⟩ (hret.mp hsucc)
      obtain rfl := Option.some.inj (hnew.symm.trans hc)
      exact List.mem_cons_self
    · -- the pointer names the client whose probe has failed
      rw [if_neg hsucc]
      refine iff_of_false (fun hvalid => ?_) (fun hsucc' => hsucc (hret.mpr hsucc'))
      have hmem := hvalid.valid client hnew
      rw [hbound] at hmem
      exact hfresh hmem

/-- A removal keeps it valid exactly if the pointer names another client. -/
theorem remove_iff (hinv : ValidClient s) {client : ℕ}
    (h : clientStep bus s (.remove client) = some s') :
    ValidClient s' ↔ s.newClient ≠ some client := by
  rw [clientStep] at h
  split at h
  · obtain rfl := Option.some.inj h
    constructor
    · -- the client is no longer bound, and the pointer is not cleared
      intro hvalid hnew
      have hmem := List.mem_filter.mp (hvalid.valid client hnew)
      exact absurd hmem.2 (by simp)
    · intro hother
      refine ⟨fun c hc => List.mem_filter.mpr ⟨hinv.valid c hc, ?_⟩, hinv.used⟩
      have hne : c ≠ client := fun heq => hother (heq ▸ hc)
      exact decide_eq_true hne
  · nomatch h

/-- A helper needs a client. -/
theorem helper_iff (hinv : ValidClient s) {call : HelperCall}
    (h : clientStep bus s (.helper call) = some s') : ValidClient s' ↔ s.newClient ≠ none := by
  obtain rfl := Option.some.inj h
  rw [HelperCall.perform]
  cases hnew : s.newClient with
  | none => exact iff_of_false (fun hvalid => Bool.false_ne_true hvalid.used.symm) (· rfl)
  | some client =>
    -- the client followed is bound
    have hbound := hinv.valid client hnew
    refine iff_of_true ⟨fun c hc => ?_, ?_⟩ (Option.some_ne_none client)
    · obtain rfl := Option.some.inj hc
      exact hbound
    · dsimp only
      rw [hinv.used, decide_eq_false (not_not.mpr hbound), Bool.or_self]

/-- **One step.**  From a valid pointer, a step leads to a valid pointer exactly if it is
    guarded. -/
theorem clientStep_iff (hinv : ValidClient s) {e : ClientEvent}
    (h : clientStep bus s e = some s') : ValidClient s' ↔ ClientGuard s e := by
  cases e with
  | probe client env => exact probe_iff hinv h
  | remove client => exact remove_iff hinv h
  | helper call => exact helper_iff hinv h

/-! ### Runs -/

/-- **The shared client.**  On every bus, the pointer is valid in every state of a run exactly
    when every step of the run is guarded. -/
theorem validClient_iff (bus : I2cBus σ) (addr : ℕ → Byte) (busState : σ)
    (run : List ClientEvent) {t : ClientState σ}
    (hrun : exec (clientStep bus) (clientInit addr busState) run = some t) :
    Always (clientStep bus) ValidClient (clientInit addr busState) run
      ↔ Guarded (clientStep bus) ClientGuard (clientInit addr busState) run := by
  have hinit : ValidClient (clientInit addr busState) := ⟨fun c hc => (nomatch hc), rfl⟩
  refine always_iff_guarded (fun _ hinv => hinv) ?_ ?_ hinit hrun
  · exact fun s e s' hinv hguard h => (clientStep_iff hinv h).mpr hguard
  · exact fun s e s' hinv h hinv' => (clientStep_iff hinv h).mp hinv'

/-- Nothing fails. -/
def goodProbe : ProbeEnv := ⟨0, 0, 0, 0⟩

/-- Two chips, of which the first is removed while the second serves the helpers. -/
def twoChips : List ClientEvent :=
  [.probe 1 goodProbe, .helper (.readByte 0x4d 1), .probe 2 goodProbe, .remove 1,
    .helper (.writeByte 0x4b 1 0xf0)]

/-- The pointer names the second chip then. -/
theorem validClient_twoChips :
    Always (clientStep chipBus) ValidClient (clientInit (fun _ => 0) fun _ _ => 0) twoChips :=
  (validClient_iff chipBus (fun _ => 0) (fun _ _ => 0) twoChips rfl).mpr (by decide +kernel)

/-- A helper before any probe follows NULL; a probe whose device number is refused, and a
    removal, leave the pointer behind. -/
theorem not_validClient :
    ¬Always (clientStep chipBus) ValidClient (clientInit (fun _ => 0) fun _ _ => 0)
        [.helper (.readByte 0x4d 1)]
      ∧ ¬Always (clientStep chipBus) ValidClient (clientInit (fun _ => 0) fun _ _ => 0)
        [.probe 1 ⟨-16, 0, 0, 0⟩]
      ∧ ¬Always (clientStep chipBus) ValidClient (clientInit (fun _ => 0) fun _ _ => 0)
        [.probe 1 goodProbe, .remove 1] := by
  refine ⟨fun h => ?_, fun h => ?_, fun h => ?_⟩
  · have hused := (h _ [] _ (List.append_nil _).symm rfl).used
    exact absurd hused (by decide +kernel)
  · have hmem := (h _ [] _ (List.append_nil _).symm rfl).valid 1 rfl
    exact absurd hmem List.not_mem_nil
  · have hmem := (h _ [] _ (List.append_nil _).symm rfl).valid 1 rfl
    exact absurd hmem List.not_mem_nil

end Vpx3.I2c
