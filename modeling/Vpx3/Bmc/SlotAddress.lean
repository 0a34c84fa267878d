import Mathlib
import Vpx3.Bmc.Access
import Vpx3.Bmc.IpSet

namespace Vpx3.Bmc

open CStr

/-!
# Slot address — `bmcAutoConfigEth`

At its start the daemon reads the position of its card from the FPGA and gives the card an address
in 192.168.1.0/24: the position is written in decimal behind the last dot of a default address.

* `vpx3Ssd1GetSlotInfo` — the position register, through `fpgaRegRead`;
* `aucIpAddr` — the buffer with the address; `aucIpAddr_eq` — the text that it ends up with;
* `bmcAutoConfigEth` — the whole function; `position` — the position it goes by;
* `dotted` — an address in the notation that `inet_addr` reads;
* `netAfter_addr`, `netAfter_others` — what documented calls make of the interfaces;
* `bmcAutoConfigEth_addr` — the address of `eth1`, from the register to the interface.
-/

/-- `FPGA_POSITION_REG`. -/
def fpgaPositionReg : Word32 := 0x10

/-- What the call finds in places that nothing has initialised: the variable of the read, the
    `ioctl`'s return value, and the two bytes that `memcpy` takes from behind the literal. -/
structure BootEnv where
  uiRegValue : Word32
  junk : Int
  behind : Byte × Byte

/-- `vpx3Ssd1GetSlotInfo`; a failed read is reported, and its value used. -/
def vpx3Ssd1GetSlotInfo (dev : FpgaDev) (boot : BootEnv) : Byte :=
  (((fpgaRegRead dev fpgaPositionReg boot.uiRegValue boot.junk).value &&& 0xFF000000)
    >>> 24).setWidth 8

/-- `IP_ADDR_4_OFFSET`. -/
def ipAddr4Offset : ℕ := 10

/-- The digits of `ucValue`, stored into the buffer. -/
def storeDecimal (ucValue : Byte) (buf : List Byte) : Except Fault (List Byte) :=
  if ucValue / 100 ≠ 0 then do
    let buf ← store buf ipAddr4Offset (ucValue / 100 + 0x30)
    let ucValue := ucValue % 100
    let buf ← store buf (ipAddr4Offset + 1) (ucValue / 10 + 0x30)
    let ucValue := ucValue % 10
    let buf ← store buf (ipAddr4Offset + 2) (ucValue + 0x30)
    store buf (ipAddr4Offset + 3) 0
  else if ucValue / 10 ≠ 0 then do
    let buf ← store buf ipAddr4Offset (ucValue / 10 + 0x30)
    let ucValue := ucValue % 10
    let buf ← store buf (ipAddr4Offset + 1) (ucValue + 0x30)
    store buf (ipAddr4Offset + 2) 0
  else do
    let buf ← store buf ipAddr4Offset (ucValue + 0x30)
    store buf (ipAddr4Offset + 1) 0

/-- `aucIpAddr` as the text that is passed on; `none` is the way out for numbers above 255. -/
def aucIpAddr (ucSlotInfoReg : Byte) (behind : Byte × Byte) : Except Fault (Option Str) :=
  -- sixteen bytes, two more than the literal has, and a terminator
  let buf := bytes "192.168.1.251" ++ [0, behind.1, behind.2] ++ [0]
  let ucDeviceId := (ucSlotInfoReg &&& 0x60) >>> 5
  let ucSlotId := ucSlotInfoReg &&& 0x1f
  if ucDeviceId.toNat * 2 ^ 5 + ucSlotId.toNat ≤ 255 then do
    let buf ← storeDecimal ((ucDeviceId <<< 5) + ucSlotId) buf
    let text ← cstr buf 0
    return some text
  else return none

/-- `bmcAutoConfigEth`, which returns nothing. -/
def bmcAutoConfigEth (k : NetKernel) (env : IpEnv) (dev : FpgaDev) (boot : BootEnv)
    (s : IpState) : Except Fault IpState := do
  match ← aucIpAddr (vpx3Ssd1GetSlotInfo dev boot) boot.behind with
  | none => return s
  | some ipaddr =>
    match ipAutoSet k env (argsOf (bytes "eth1") ipaddr (bytes "255.255.255.0")
        (bytes "192.168.1.1")) s with
    | none => throw .null
    | some r => return r.2

/-! ### The text -/

/-- The value is the low seven bits of the register. -/
theorem ucValue_eq (reg : Byte) :
    ((reg &&& 0x60) >>> 5) <<< 5 + (reg &&& 0x1f) = reg &&& 0x7f := by
  revert reg
  decide +kernel

theorem ucValue_le (reg : Byte) :
    ((reg &&& 0x60) >>> 5).toNat * 2 ^ 5 + (reg &&& 0x1f).toNat ≤ 255 := by
  revert reg
  decide +kernel

/-- The digits as the three branches store them. -/
def digits (v : Byte) : Str :=
  if v / 100 ≠ 0 then [v / 100 + 0x30, v % 100 / 10 + 0x30, v % 100 % 10 + 0x30]
  else if v / 10 ≠ 0 then [v / 10 + 0x30, v % 10 + 0x30]
  else [v + 0x30]

/-- Storing the digits behind a front of ten bytes. -/
theorem storeDecimal_append (v : Byte) (front post : Str) (hfront : front.length = ipAddr4Offset)
    (a b c d : Byte) :
    ∃ post', storeDecimal v (front ++ a :: b :: c :: d :: post)
      = .ok (front ++ digits v ++ 0 :: post') := by
  -- a store behind the digits that are there already
  have hstore : ∀ mid : Str, ∀ x y : Byte, ∀ rest : Str,
      store (front ++ (mid ++ x :: rest)) (ipAddr4Offset + mid.length) y
        = .ok (front ++ (mid ++ y :: rest)) := by
    intro mid x y rest
    have hbehind := store_append (front ++ mid) rest x y (ipAddr4Offset + mid.length)
      (by rw [List.length_append, hfront])
    rw [List.append_assoc, List.append_assoc] at hbehind
    exact hbehind
  have hone : ∀ x y : Byte, ∀ rest : Str,
      store (front ++ x :: rest) ipAddr4Offset y = .ok (front ++ y :: rest) :=
    hstore []
  have htwo : ∀ p x y : Byte, ∀ rest : Str,
      store (front ++ p :: x :: rest) (ipAddr4Offset + 1) y = .ok (front ++ p :: y :: rest) :=
    fun p => hstore [p]
  have hthree : ∀ p q x y : Byte, ∀ rest : Str,
      store (front ++ p :: q :: x :: rest) (ipAddr4Offset + 2) y
        = .ok (front ++ p :: q :: y :: rest) :=
    fun p q => hstore [p, q]
  have hfour : ∀ p q r x y : Byte, ∀ rest : Str,
      store (front ++ p :: q :: r :: x :: rest) (ipAddr4Offset + 3) y
        = .ok (front ++ p :: q :: r :: y :: rest) :=
    fun p q r => hstore [p, q, r]
  unfold storeDecimal digits
  by_cases hhundreds : v / 100 ≠ 0
  · refine ⟨post, ?_⟩
    rw [if_pos hhundreds, if_pos hhundreds]
    simp only [hone, htwo, hthree, hfour, ok_bind]
    simp
  · rw [if_neg hhundreds, if_neg hhundreds]
    by_cases htens : v / 10 ≠ 0
    · refine ⟨d :: post, ?_⟩
      rw [if_pos htens, if_pos htens]
      simp only [hone, htwo, hthree, ok_bind]
      simp
    · refine ⟨c :: d :: post, ?_⟩
      rw [if_neg htens, if_neg htens, hone, ok_bind, htwo]
      simp

/-- **The text** that the buffer ends up with. -/
theorem aucIpAddr_eq (reg : Byte) (behind : Byte × Byte) :
    aucIpAddr reg behind = .ok (some (bytes "192.168.1." ++ digits (reg &&& 0x7f))) := by
  have hsplit : bytes "192.168.1.251" ++ [0, behind.1, behind.2] ++ [0]
      = bytes "192.168.1." ++ 0x32 :: 0x35 :: 0x31 :: 0 :: [behind.1, behind.2, 0] := rfl
  have hzero : 0 ∉ bytes "192.168.1." ++ digits (reg &&& 0x7f) := by
    have hall : ∀ reg : Byte, 0 ∉ bytes "192.168.1." ++ digits (reg &&& 0x7f) := by
      decide +kernel
    exact hall reg
  obtain ⟨post, hstore⟩ := storeDecimal_append (reg &&& 0x7f) (bytes "192.168.1.")
    [behind.1, behind.2, 0] rfl 0x32 0x35 0x31 0
  have htext := cstr_append [] (bytes "192.168.1." ++ digits (reg &&& 0x7f)) post 0 rfl hzero
  rw [List.nil_append] at htext
  unfold aucIpAddr
  dsimp only
  rw [if_pos (ucValue_le reg), ucValue_eq, hsplit, hstore, ok_bind, htext]
  rfl

/-- A number of up to three digits in decimal. -/
def decimal (n : Byte) : Str := (Nat.toDigits 10 n.toNat).map fun c => BitVec.ofNat 8 c.toNat

/-- An address in numbers-and-dots notation. -/
def dotted (a b c d : Byte) : Str :=
  [0x2e].intercalate [decimal a, decimal b, decimal c, decimal d]

/-- The text is the address 192.168.1.`v` in this notation. -/
theorem text_dotted (v : Byte) : bytes "192.168.1." ++ digits v = dotted 192 168 1 v := by
  revert v
  decide +kernel

/-- One part more of an address. -/
theorem toNat_push {addr : InAddr} {n : ℕ} (haddr : addr.toNat = n) (hn : n < 2 ^ 24) (d : Byte) :
    (addr <<< 8 ||| BitVec.ofNat 32 d.toNat).toNat = n * 2 ^ 8 + d.toNat := by
  have hd : d.toNat < 2 ^ 8 := d.isLt
  have hshift : (addr <<< 8).toNat = n <<< 8 := by
    rw [BitVec.toNat_shiftLeft, haddr, Nat.shiftLeft_eq]
    omega
  have hpart : (BitVec.ofNat 32 d.toNat).toNat = d.toNat := by
    rw [BitVec.toNat_ofNat]
    omega
  rw [BitVec.toNat_or, hshift, hpart, ← Nat.shiftLeft_add_eq_or_of_lt hd, Nat.shiftLeft_eq]

/-- The model of `inet_addr` reads the notation. -/
theorem dottedQuad_dotted (a b c d : Byte) : (dottedQuad (dotted a b c d)).toNat
    = ((a.toNat * 2 ^ 8 + b.toNat) * 2 ^ 8 + c.toNat) * 2 ^ 8 + d.toNat := by
  have hdot : ∀ n : Byte, 0x2e ∉ decimal n := by decide +kernel
  have hvalue : ∀ n : Byte, decimalFrom 0 (decimal n) = n.toNat := by decide +kernel
  have hsplit : (dotted a b c d).splitOn 0x2e = [decimal a, decimal b, decimal c, decimal d] := by
    refine List.splitOn_intercalate 0x2e ?_ (List.cons_ne_nil _ _)
    rintro part hpart
    simp only [List.mem_cons, List.not_mem_nil, or_false] at hpart
    rcases hpart with rfl | rfl | rfl | rfl <;> exact hdot _
  have ha : a.toNat < 2 ^ 8 := a.isLt
  have hb : b.toNat < 2 ^ 8 := b.isLt
  have hc : c.toNat < 2 ^ 8 := c.isLt
  have hfirst := @toNat_push 0 0 rfl (Nat.two_pow_pos 24) a
  rw [Nat.zero_mul, Nat.zero_add] at hfirst
  have hsecond := toNat_push hfirst (by omega) b
  have hthird := toNat_push hsecond (by omega) c
  simp only [dottedQuad, hsplit, List.foldl_cons, List.foldl_nil, hvalue]
  exact toNat_push hthird (by omega) d

/-! ### From the register to the interface -/

/-- The position that a card goes by: bits 24 to 30 of its position register, or 127 when the
    register cannot be read. -/
def position (dev : FpgaDev) (boot : BootEnv) : ℕ :=
  match dev.guipFpga with
  | none => 127
  | some base => if boot.junk < 0 then 127 else (base 4).toNat / 2 ^ 24 % 2 ^ 7

/-- What is read of the position register. -/
theorem slotInfo_position (dev : FpgaDev) (boot : BootEnv) :
    (vpx3Ssd1GetSlotInfo dev boot &&& 0x7f).toNat = position dev boot := by
  have hmask : ∀ w : Word32, (((w &&& 0xFF000000) >>> 24).setWidth 8 &&& 0x7f : Byte).toNat
      = w.toNat / 2 ^ 24 % 2 ^ 7 := by
    intro w
    have hbits : (((w &&& 0xFF000000) >>> 24).setWidth 8 &&& 0x7f : Byte)
        = (w.extractLsb' 24 7).setWidth 8 := by
      apply BitVec.eq_of_getLsbD_eq
      intro i hi
      interval_cases i <;> simp
    rw [hbits, BitVec.toNat_setWidth, Bits.toNat_extractLsb', Nat.mod_eq_of_lt (by omega)]
  unfold vpx3Ssd1GetSlotInfo
  rw [hmask]
  unfold position
  obtain ⟨guipFpga⟩ := dev
  cases guipFpga with
  | none =>
    -- the failed read returns `-1`, whose byte has all its low bits set
    show (-1 : Word32).toNat / 2 ^ 24 % 2 ^ 7 = 127
    decide
  | some base =>
    have hio : fpgaInfoIoctl ⟨some base⟩
        (FpgaControlCmd.toCmd ⟨fpgaPositionReg.setWidth 16, 0, fpgaRegReadCmd⟩)
        (.valid boot.uiRegValue) boot.junk
        = ⟨boot.junk, .valid (base 4), [4], ⟨some base⟩⟩ := by
      rw [fpgaInfoIoctl, FpgaControlCmd.ofCmd_toCmd]
      simp [fpgaPositionReg, fpgaRegReadCmd, fpgaWrite, fpgaRead]
    unfold fpgaRegRead
    dsimp only
    rw [hio]
    by_cases hjunk : boot.junk < 0
    · rw [if_pos hjunk, if_pos hjunk]
      show (-1 : Word32).toNat / 2 ^ 24 % 2 ^ 7 = 127
      decide
    · rw [if_neg hjunk, if_neg hjunk]
      rfl

/-- What every call leaves, calls one after the other leave. -/
theorem foldl_leaves {β : Type} (get : Net → β) (calls : List (IpStep × (Net → Net)))
    (h : ∀ r ∈ calls, ∀ net, get (r.2 net) = get net) (net : Net) :
    get (calls.foldl (fun net r => r.2 net) net) = get net := by
  induction calls generalizing net with
  | nil => rfl
  | cons r rest ih =>
    rw [List.foldl_cons, ih (fun q hq => h q (List.mem_cons_of_mem r hq)),
      h r List.mem_cons_self]

section
variable {k : NetKernel} (hk : k.Documented) {env : IpEnv} (ifname ipaddr netmask gwip : Str)
  (s : IpState)
include hk

/-- No call has to do with another interface. -/
theorem netAfter_others {name : Str} (hname : name ≠ ifrNameOf ifname) :
    netAfter k env ifname ipaddr netmask gwip s name = s.net name := by
  refine foldl_leaves (fun net => net name) _ (fun r hr net => ?_) s.net
  have hmem := (List.takeWhile_sublist _).subset hr
  simp only [requests, List.mem_cons, List.not_mem_nil, or_false] at hmem
  rcases hmem with rfl | rfl | rfl | rfl
  · exact hk.siocsifaddr_others _ net name hname
  · exact hk.siocsifnetmask_others _ net name hname
  · exact hk.siocaddrt_others _ net name hname
  · exact hk.siocsifflags_others _ net name hname

/-- Behind the first call the address stays, whichever of the others succeed. -/
theorem netAfter_addr (haddr : env.ok .addr = true) :
    (netAfter k env ifname ipaddr netmask gwip s (ifrNameOf ifname)).addr
      = env.inetAddr ipaddr := by
  let first := k.siocsifaddr (ifreqOf ifname (env.inetAddr ipaddr)) s.net
  have hset : (first (ifrNameOf ifname)).addr = env.inetAddr ipaddr :=
    hk.siocsifaddr (ifreqOf ifname (env.inetAddr ipaddr)) s.net
  have hsucceeding : succeeding k env ifname ipaddr netmask gwip
      = (.addr, k.siocsifaddr (ifreqOf ifname (env.inetAddr ipaddr)))
        :: ((requests k env ifname ipaddr netmask gwip).tail.takeWhile fun r => env.ok r.1) :=
    List.takeWhile_cons_of_pos haddr
  rw [netAfter, hsucceeding, List.foldl_cons]
  refine (foldl_leaves (fun net => (net (ifrNameOf ifname)).addr) _ (fun r hr net => ?_)
    first).trans hset
  have hmem := (List.takeWhile_sublist _).subset hr
  simp only [requests, List.tail_cons, List.mem_cons, List.not_mem_nil, or_false] at hmem
  rcases hmem with rfl | rfl | rfl
  · exact hk.siocsifnetmask _ net
  · exact hk.siocaddrt _ net
  · exact hk.siocsifflags _ net

end

/-- **From the register to the interface.**  Whatever the registers hold and nothing has
    initialised: when the socket is there and the first call succeeds, with calls and an
    `inet_addr` (its result a number of this big-endian machine) that do what their manual says,
    `eth1` has the address of the card's position in 192.168.1.0/24, which is that of the gateway
    exactly at position 1; and no other interface is touched. -/
theorem bmcAutoConfigEth_addr (k : NetKernel) (hk : k.Documented) (env : IpEnv)
    (hinet : ∀ a b c d : Byte, (env.inetAddr (dotted a b c d)).toNat
      = ((a.toNat * 2 ^ 8 + b.toNat) * 2 ^ 8 + c.toNat) * 2 ^ 8 + d.toNat)
    (hsocket : env.socket ≠ none) (haddr : env.ok .addr = true) (dev : FpgaDev) (boot : BootEnv)
    (s : IpState) :
    ∃ t, bmcAutoConfigEth k env dev boot s = .ok t
      ∧ (t.net (bytes "eth1")).addr.toNat = 0xC0A80100 + position dev boot
      ∧ ((t.net (bytes "eth1")).addr = env.inetAddr (bytes "192.168.1.1")
        ↔ position dev boot = 1)
      ∧ ∀ name, name ≠ bytes "eth1" → t.net name = s.net name := by
  obtain ⟨fd, hfd⟩ := Option.ne_none_iff_exists'.mp hsocket
  have hname : ifrNameOf (bytes "eth1") = bytes "eth1" := by decide +kernel
  let ipaddr := bytes "192.168.1." ++ digits (vpx3Ssd1GetSlotInfo dev boot &&& 0x7f)
  have hset := netAfter_addr hk (bytes "eth1") ipaddr (bytes "255.255.255.0")
    (bytes "192.168.1.1") s haddr
  rw [hname] at hset
  have hvalue : (env.inetAddr ipaddr).toNat = 0xC0A80100 + position dev boot := by
    rw [← slotInfo_position]
    show (env.inetAddr (bytes "192.168.1." ++ digits _)).toNat = _
    rw [text_dotted, hinet]
    rfl
  refine ⟨⟨netAfter k env (bytes "eth1") ipaddr (bytes "255.255.255.0") (bytes "192.168.1.1") s,
    fd :: s.fds⟩, ?_, ?_, ?_, fun name h => ?_⟩
  · unfold bmcAutoConfigEth
    rw [aucIpAddr_eq, ok_bind]
    dsimp only
    rw [ipAutoSet_eq _ env _ _ _ _ s hfd]
    rfl
  · rw [hset]
    exact hvalue
  · have hgateway : (env.inetAddr (bytes "192.168.1.1")).toNat = 0xC0A80101 := by
      have htext : bytes "192.168.1.1" = dotted 192 168 1 1 := text_dotted 1
      rw [htext, hinet]
      rfl
    rw [hset, ← BitVec.toNat_inj, hvalue, hgateway]
    omega
  · exact netAfter_others hk _ _ _ _ s (hname.symm ▸ h)

/-- The card at slot 26 of device 0. -/
theorem bmcAutoConfigEth_card :
    ∃ t, bmcAutoConfigEth manualKernel (cardEnv fun _ => true) ⟨some fun _ => 0x1A000000⟩
        ⟨0, 0, 0, 0⟩ cardState = .ok t
      ∧ (t.net (bytes "eth1")).addr.toNat = 0xC0A8011A := by
  obtain ⟨t, ht, haddr, -⟩ := bmcAutoConfigEth_addr manualKernel manualKernel_documented
    (cardEnv fun _ => true) dottedQuad_dotted (Option.some_ne_none 3) rfl
    ⟨some fun _ => 0x1A000000⟩ ⟨0, 0, 0, 0⟩ cardState
  exact ⟨t, ht, haddr⟩

end Vpx3.Bmc
