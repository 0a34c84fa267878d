import Mathlib.Logic.Function.Basic
import Vpx3.Lib.CStr

namespace Vpx3.Bmc

open CStr

/-!
# Network set-up — `ipAutoSet`, and `ipset` of `ipset.c`

The function opens a socket and configures an interface in four `ioctl` calls: its address, its
mask, a route through the gateway, and its flags.  The flags are set in a `struct ifreq` that
still holds the mask, in a union whose first two bytes are the address family.

* `Ifreq`, `Rtentry` — the requests; `NetKernel` — what the calls make of the interfaces;
* `ipAutoSet`, `ipset` — the function;
* `requests`, `ipAutoSet_eq` — the calls in front of the first that fails take effect;
* `ifrFlags_flagsRequest` — the flags written are the same for every interface;
* `CompleteOrAbsent`, `ipAutoSet_iff` — configured or left alone, with the socket closed: only
  when no socket is opened;
* `NetKernel.Documented`, `NetKernel.SetsOne` — calls that do what their manual says, and nothing
  else;
* `interface_iff` — when the interface alone is configured or left alone, with such calls.
-/

abbrev InAddr := BitVec 32

/-! ### Requests -/

/-- `struct sockaddr_in` without its padding. -/
structure SockaddrIn where
  sinFamily : BitVec 16
  sinPort : BitVec 16
  sinAddr : InAddr
deriving DecidableEq, Repr

def afInet : BitVec 16 := 2
def iffUp : BitVec 16 := 0x1
def iffRunning : BitVec 16 := 0x40
def rtfUp : BitVec 16 := 0x1
def rtfGateway : BitVec 16 := 0x2
def ifnamsiz : ℕ := 16

/-- `memset(&sin, 0, sizeof(sin))`, then family and address. -/
def sinOf (addr : InAddr) : SockaddrIn := ⟨afInet, 0, addr⟩

/-- `struct ifreq`: the name, and the union as the address that `memcpy` stores there. -/
structure Ifreq where
  ifrName : Str
  ifrIfru : SockaddrIn
deriving DecidableEq, Repr

/-- `ifr_flags`, the `short` at the start of the union. -/
def Ifreq.ifrFlags (ifr : Ifreq) : BitVec 16 := ifr.ifrIfru.sinFamily

/-- `ifr.ifr_flags |= flags`. -/
def Ifreq.orFlags (ifr : Ifreq) (flags : BitVec 16) : Ifreq :=
  { ifr with ifrIfru := { ifr.ifrIfru with sinFamily := ifr.ifrFlags ||| flags } }

/-- `strncpy(ifr.ifr_name, ifname, IFNAMSIZ)`, with the last byte cleared. -/
def ifrNameOf (ifname : Str) : Str := ifname.take (ifnamsiz - 1)

/-- A request with an address in it. -/
def ifreqOf (ifname : Str) (addr : InAddr) : Ifreq := ⟨ifrNameOf ifname, sinOf addr⟩

@[simp] theorem ifreqOf_ifrName (ifname : Str) (addr : InAddr) :
    (ifreqOf ifname addr).ifrName = ifrNameOf ifname := rfl

@[simp] theorem ifreqOf_sinAddr (ifname : Str) (addr : InAddr) :
    (ifreqOf ifname addr).ifrIfru.sinAddr = addr := rfl

/-- `struct rtentry`, as far as it is filled in. -/
structure Rtentry where
  rtDst : SockaddrIn
  rtGateway : SockaddrIn
  rtGenmask : SockaddrIn
  rtDev : Str
  rtFlags : BitVec 16
deriving DecidableEq, Repr

/-- The route through the gateway to everywhere. -/
def rtentryOf (ifname : Str) (gateway : InAddr) : Rtentry where
  rtDst := ⟨afInet, 0, 0⟩
  rtGateway := sinOf gateway
  rtGenmask := ⟨afInet, 0, 0⟩
  rtDev := ifname
  rtFlags := rtfUp ||| rtfGateway

@[simp] theorem rtentryOf_rtDev (ifname : Str) (gateway : InAddr) :
    (rtentryOf ifname gateway).rtDev = ifname := rfl

/-! ### The interfaces -/

/-- A network interface, with the routes over it. -/
@[ext] structure Iface where
  addr : InAddr
  mask : InAddr
  routes : List Rtentry
  flags : BitVec 16
deriving DecidableEq, Repr

/-- The interfaces by their names. -/
abbrev Net := Str → Iface

/-- What the calls make of the interfaces when they succeed; one that fails has no effect. -/
structure NetKernel where
  siocsifaddr : Ifreq → Net → Net
  siocsifnetmask : Ifreq → Net → Net
  siocaddrt : Rtentry → Net → Net
  siocsifflags : Ifreq → Net → Net

/-- The `ioctl` steps of the function. -/
inductive IpStep where
  | addr | mask | route | flags
deriving DecidableEq, Repr

/-- What the function gets from outside: the socket, the calls that succeed, and `inet_addr`. -/
structure IpEnv where
  socket : Option ℕ
  ok : IpStep → Bool
  inetAddr : Str → InAddr

/-- The interfaces, and the descriptors that the process has open. -/
structure IpState where
  net : Net
  fds : List ℕ

/-- The arguments; `none` is a NULL pointer. -/
structure IpArgs where
  ifname : Option Str
  ipaddr : Option Str
  netmask : Option Str
  gwip : Option Str
deriving DecidableEq, Repr

/-! ### The function -/

/-- `ipAutoSet`: the return value and the state it leaves; `none` is the crash on a NULL mask,
    which is not checked. -/
def ipAutoSet (k : NetKernel) (env : IpEnv) (args : IpArgs) (s : IpState) :
    Option (Int × IpState) :=
  match args.ifname, args.ipaddr, args.gwip with
  | some ifname, some ipaddr, some gwip =>
    match env.socket with
    | none => some (-1, s)
    | some fd =>
      let s := { s with fds := fd :: s.fds }
      let ifr := ifreqOf ifname (env.inetAddr ipaddr)
      if env.ok .addr = false then some (-1, s)
      else
        let s := { s with net := k.siocsifaddr ifr s.net }
        match args.netmask with
        | none => none
        | some netmask =>
          let ifr := ifreqOf ifname (env.inetAddr netmask)
          if env.ok .mask = false then some (-1, s)
          else
            let s := { s with net := k.siocsifnetmask ifr s.net }
            let rm := rtentryOf ifname (env.inetAddr gwip)
            if env.ok .route = false then some (-1, s)
            else
              let s := { s with net := k.siocaddrt rm s.net }
              -- `ifr` still is the request of the mask
              let ifr := ifr.orFlags (iffUp ||| iffRunning)
              if env.ok .flags = false then some (-1, s)
              else some (0, { s with net := k.siocsifflags ifr s.net })
  | _, _, _ => some (-1, s)

/-- `ipset` of `ipset.c`, statement by statement the same. -/
def ipset : NetKernel → IpEnv → IpArgs → IpState → Option (Int × IpState) := ipAutoSet

/-! ### The calls in order -/

section
variable (k : NetKernel) (env : IpEnv) (ifname ipaddr netmask gwip : Str) (s : IpState)

/-- The request of the last call: that of the mask, with the flags ORed into the family. -/
def flagsRequest : Ifreq :=
  (ifreqOf ifname (env.inetAddr netmask)).orFlags (iffUp ||| iffRunning)

/-- The four calls, as what they make of the interfaces. -/
def requests : List (IpStep × (Net → Net)) :=
  [(.addr, k.siocsifaddr (ifreqOf ifname (env.inetAddr ipaddr))),
    (.mask, k.siocsifnetmask (ifreqOf ifname (env.inetAddr netmask))),
    (.route, k.siocaddrt (rtentryOf ifname (env.inetAddr gwip))),
    (.flags, k.siocsifflags (flagsRequest env ifname netmask))]

/-- The calls in front of the first that fails. -/
def succeeding : List (IpStep × (Net → Net)) :=
  (requests k env ifname ipaddr netmask gwip).takeWhile fun r => env.ok r.1

/-- The interfaces behind these calls. -/
def netAfter : Net :=
  (succeeding k env ifname ipaddr netmask gwip).foldl (fun net r => r.2 net) s.net

/-- The four argument strings. -/
def argsOf : IpArgs := ⟨some ifname, some ipaddr, some netmask, some gwip⟩

/-- **Effects.**  With its socket the function returns 0 exactly when all four calls succeed; in
    any case those in front of the first failure have taken effect, and the socket is open. -/
theorem ipAutoSet_eq {fd : ℕ} (hsocket : env.socket = some fd) :
    ipAutoSet k env (argsOf ifname ipaddr netmask gwip) s
      = some (if (requests k env ifname ipaddr netmask gwip).all (fun r => env.ok r.1) then 0
            else -1,
          ⟨netAfter k env ifname ipaddr netmask gwip s, fd :: s.fds⟩) := by
  simp only [ipAutoSet, argsOf, hsocket, netAfter, succeeding, requests]
  cases haddr : env.ok .addr
  · simp [haddr]
  cases hmask : env.ok .mask
  · simp [haddr, hmask]
  cases hroute : env.ok .route
  · simp [haddr, hmask, hroute]
  cases hflags : env.ok .flags
  · simp [haddr, hmask, hroute, hflags]
  · simp [haddr, hmask, hroute, hflags, flagsRequest]

/-- Without a socket it returns at once. -/
theorem ipAutoSet_of_none (hsocket : env.socket = none) :
    ipAutoSet k env (argsOf ifname ipaddr netmask gwip) s = some (-1, s) := by
  simp only [ipAutoSet, argsOf, hsocket]

@[simp] theorem flagsRequest_ifrName :
    (flagsRequest env ifname netmask).ifrName = ifrNameOf ifname := rfl

/-- The flags asked for do not depend on those the interface has: the family counts as
    `IFF_BROADCAST`. -/
@[simp] theorem ifrFlags_flagsRequest : (flagsRequest env ifname netmask).ifrFlags = 0x43 := by
  show afInet ||| (iffUp ||| iffRunning) = 0x43
  decide

/-! ### Complete or absent -/

/-- What a call that returned 0 has to leave: address and mask as requested, the route through the
    gateway, and the flags it found with `IFF_UP` and `IFF_RUNNING`. -/
structure Configured (before after : Iface) : Prop where
  addr : after.addr = env.inetAddr ipaddr
  mask : after.mask = env.inetAddr netmask
  route : rtentryOf ifname (env.inetAddr gwip) ∈ after.routes
  flags : after.flags = before.flags ||| (iffUp ||| iffRunning)

/-- The interface is configured or as it was, and the descriptors are those of before. -/
structure CompleteOrAbsent (ret : Int) (t : IpState) : Prop where
  complete : ret = 0 → Configured env ifname ipaddr netmask gwip (s.net (ifrNameOf ifname))
    (t.net (ifrNameOf ifname))
  absent : ret ≠ 0 → t.net (ifrNameOf ifname) = s.net (ifrNameOf ifname)
  closed : t.fds = s.fds

/-- The socket stays open on every way out. -/
theorem not_completeOrAbsent_of_socket {fd : ℕ} (hsocket : env.socket = some fd) {ret : Int}
    {t : IpState} (hret : ipAutoSet k env (argsOf ifname ipaddr netmask gwip) s = some (ret, t)) :
    ¬CompleteOrAbsent env ifname ipaddr netmask gwip s ret t := by
  rw [ipAutoSet_eq k env ifname ipaddr netmask gwip s hsocket, Option.some.injEq,
    Prod.mk.injEq] at hret
  obtain ⟨-, rfl⟩ := hret
  intro h
  have hlength := congrArg List.length h.closed
  rw [List.length_cons] at hlength
  omega

end

/-- **Complete or absent.**  Whatever the calls make of the interfaces and whichever of them fail,
    for all argument strings and every state: the interface is configured or left alone and the
    socket closed if and only if there is no socket. -/
theorem ipAutoSet_iff (k : NetKernel) (env : IpEnv) (ifname ipaddr netmask gwip : Str)
    (s : IpState) :
    ((∃ ret t, ipAutoSet k env (argsOf ifname ipaddr netmask gwip) s = some (ret, t)
        ∧ CompleteOrAbsent env ifname ipaddr netmask gwip s ret t) ↔ env.socket = none)
      ∧ ((∃ ret t, ipset k env (argsOf ifname ipaddr netmask gwip) s = some (ret, t)
        ∧ CompleteOrAbsent env ifname ipaddr netmask gwip s ret t) ↔ env.socket = none) := by
  have hiff : (∃ ret t, ipAutoSet k env (argsOf ifname ipaddr netmask gwip) s = some (ret, t)
      ∧ CompleteOrAbsent env ifname ipaddr netmask gwip s ret t) ↔ env.socket = none := by
    constructor
    · rintro ⟨ret, t, hret, h⟩
      cases hsocket : env.socket with
      | none => rfl
      | some fd =>
        exact absurd h (not_completeOrAbsent_of_socket k env ifname ipaddr netmask gwip s hsocket
          hret)
    · intro hsocket
      refine ⟨-1, s, ipAutoSet_of_none k env ifname ipaddr netmask gwip s hsocket, ?_⟩
      exact ⟨fun h => absurd h (by decide), fun _ => rfl, rfl⟩
  exact ⟨hiff, hiff⟩

/-! ### Calls that do what their manual says -/

/-- What the manual says of the calls: the first sets the address of the interface that it names,
    the others leave that address, and none has to do with another interface. -/
structure NetKernel.Documented (k : NetKernel) : Prop where
  siocsifaddr : ∀ ifr net, (k.siocsifaddr ifr net ifr.ifrName).addr = ifr.ifrIfru.sinAddr
  siocsifnetmask : ∀ ifr net,
    (k.siocsifnetmask ifr net ifr.ifrName).addr = (net ifr.ifrName).addr
  siocaddrt : ∀ rm net,
    (k.siocaddrt rm net (ifrNameOf rm.rtDev)).addr = (net (ifrNameOf rm.rtDev)).addr
  siocsifflags : ∀ ifr net, (k.siocsifflags ifr net ifr.ifrName).addr = (net ifr.ifrName).addr
  siocsifaddr_others : ∀ ifr net name, name ≠ ifr.ifrName → k.siocsifaddr ifr net name = net name
  siocsifnetmask_others : ∀ ifr net name, name ≠ ifr.ifrName →
    k.siocsifnetmask ifr net name = net name
  siocaddrt_others : ∀ rm net name, name ≠ ifrNameOf rm.rtDev → k.siocaddrt rm net name = net name
  siocsifflags_others : ∀ ifr net name, name ≠ ifr.ifrName →
    k.siocsifflags ifr net name = net name

/-- Each call sets the one thing it is for, and nothing else of the interface that it names. -/
structure NetKernel.SetsOne (k : NetKernel) : Prop where
  siocsifaddr : ∀ ifr net, k.siocsifaddr ifr net ifr.ifrName
    = { net ifr.ifrName with addr := ifr.ifrIfru.sinAddr }
  siocsifnetmask : ∀ ifr net, k.siocsifnetmask ifr net ifr.ifrName
    = { net ifr.ifrName with mask := ifr.ifrIfru.sinAddr }
  siocaddrt : ∀ rm net, k.siocaddrt rm net (ifrNameOf rm.rtDev)
    = { net (ifrNameOf rm.rtDev) with routes := (net (ifrNameOf rm.rtDev)).routes ++ [rm] }
  siocsifflags : ∀ ifr net, k.siocsifflags ifr net ifr.ifrName
    = { net ifr.ifrName with flags := ifr.ifrFlags }

/-- A kernel of this kind. -/
def manualKernel : NetKernel where
  siocsifaddr ifr net :=
    Function.update net ifr.ifrName { net ifr.ifrName with addr := ifr.ifrIfru.sinAddr }
  siocsifnetmask ifr net :=
    Function.update net ifr.ifrName { net ifr.ifrName with mask := ifr.ifrIfru.sinAddr }
  siocaddrt rm net :=
    let name := ifrNameOf rm.rtDev
    Function.update net name { net name with routes := (net name).routes ++ [rm] }
  siocsifflags ifr net :=
    Function.update net ifr.ifrName { net ifr.ifrName with flags := ifr.ifrFlags }

theorem manualKernel_setsOne : manualKernel.SetsOne where
  siocsifaddr _ _ := Function.update_self ..
  siocsifnetmask _ _ := Function.update_self ..
  siocaddrt _ _ := Function.update_self ..
  siocsifflags _ _ := Function.update_self ..

theorem manualKernel_documented : manualKernel.Documented where
  siocsifaddr ifr net := by rw [manualKernel_setsOne.siocsifaddr]
  siocsifnetmask ifr net := by rw [manualKernel_setsOne.siocsifnetmask]
  siocaddrt rm net := by rw [manualKernel_setsOne.siocaddrt]
  siocsifflags ifr net := by rw [manualKernel_setsOne.siocsifflags]
  siocsifaddr_others _ _ _ h := Function.update_of_ne h ..
  siocsifnetmask_others _ _ _ h := Function.update_of_ne h ..
  siocaddrt_others _ _ _ h := Function.update_of_ne h ..
  siocsifflags_others _ _ _ h := Function.update_of_ne h ..

/-- What an interface must have been for the calls that succeed to leave it configured, or as it
    was: behind a failure they must have set nothing new, and behind the last call the flags but
    `IFF_UP` and `IFF_RUNNING` must have been those of the address family. -/
def InterfaceExact (env : IpEnv) (ipaddr netmask : Str) (before : Iface) : Prop :=
  if env.ok .addr = false then True
  else if env.ok .mask = false then before.addr = env.inetAddr ipaddr
  else if env.ok .route = false then
    before.addr = env.inetAddr ipaddr ∧ before.mask = env.inetAddr netmask
  else if env.ok .flags = false then False
  else before.flags ||| (iffUp ||| iffRunning) = 0x43

section
variable (env : IpEnv) (ifname ipaddr netmask gwip : Str) (s : IpState)

/-- **The interface alone.**  With such calls and with its socket, the function leaves the
    interface configured or as it was exactly under this condition. -/
theorem interface_iff {k : NetKernel} (hk : k.SetsOne) {fd : ℕ} (hsocket : env.socket = some fd)
    {ret : Int} {t : IpState}
    (hret : ipAutoSet k env (argsOf ifname ipaddr netmask gwip) s = some (ret, t)) :
    ((ret = 0 → Configured env ifname ipaddr netmask gwip (s.net (ifrNameOf ifname))
        (t.net (ifrNameOf ifname)))
      ∧ (ret ≠ 0 → t.net (ifrNameOf ifname) = s.net (ifrNameOf ifname)))
      ↔ InterfaceExact env ipaddr netmask (s.net (ifrNameOf ifname)) := by
  rw [ipAutoSet_eq _ env ifname ipaddr netmask gwip s hsocket, Option.some.injEq,
    Prod.mk.injEq] at hret
  obtain ⟨rfl, rfl⟩ := hret
  have hsetAddr (net : Net) : k.siocsifaddr (ifreqOf ifname (env.inetAddr ipaddr)) net
      (ifrNameOf ifname) = { net (ifrNameOf ifname) with addr := env.inetAddr ipaddr } := by
    simpa using hk.siocsifaddr (ifreqOf ifname (env.inetAddr ipaddr)) net
  have hsetMask (net : Net) : k.siocsifnetmask (ifreqOf ifname (env.inetAddr netmask)) net
      (ifrNameOf ifname) = { net (ifrNameOf ifname) with mask := env.inetAddr netmask } := by
    simpa using hk.siocsifnetmask (ifreqOf ifname (env.inetAddr netmask)) net
  have haddRoute (net : Net) : k.siocaddrt (rtentryOf ifname (env.inetAddr gwip)) net
      (ifrNameOf ifname) = { net (ifrNameOf ifname) with
        routes := (net (ifrNameOf ifname)).routes ++ [rtentryOf ifname (env.inetAddr gwip)] } := by
    simpa using hk.siocaddrt (rtentryOf ifname (env.inetAddr gwip)) net
  have hsetFlags (net : Net) : k.siocsifflags (flagsRequest env ifname netmask) net
      (ifrNameOf ifname) = { net (ifrNameOf ifname) with flags := 0x43 } := by
    simpa using hk.siocsifflags (flagsRequest env ifname netmask) net
  simp only [netAfter, succeeding, requests, InterfaceExact]
  cases haddr : env.ok .addr
  · simp [haddr]
  cases hmask : env.ok .mask
  · simp [haddr, hmask, hsetAddr, Iface.ext_iff, eq_comm]
  cases hroute : env.ok .route
  · simp [haddr, hmask, hroute, hsetAddr, hsetMask, Iface.ext_iff, eq_comm]
  cases hflags : env.ok .flags
  · -- the route has been added
    simp [haddr, hmask, hroute, hflags, hsetAddr, hsetMask, haddRoute, Iface.ext_iff]
  · simp only [haddr, hmask, hroute, hflags, hsetAddr, hsetMask, haddRoute, hsetFlags,
      List.all_cons, List.all_nil, List.takeWhile_cons, List.takeWhile_nil, List.foldl_cons,
      List.foldl_nil, Bool.and_true, if_true]
    constructor
    · rintro ⟨hconfigured, -⟩
      exact (hconfigured trivial).flags.symm
    · intro hsame
      exact ⟨fun _ => ⟨rfl, rfl, by simp, hsame.symm⟩, fun h => absurd rfl h⟩

end

/-! ### A card -/

/-- Decimal digits behind the number `n`. -/
def decimalFrom (n : ℕ) (s : Str) : ℕ := s.foldl (fun n c => 10 * n + (c - 0x30).toNat) n

/-- `inet_addr` of four decimal parts. -/
def dottedQuad (s : Str) : InAddr :=
  (s.splitOn 0x2e).foldl (fun addr part => addr <<< 8 ||| BitVec.ofNat 32 (decimalFrom 0 part)) 0

/-- Descriptor 3 for the socket, and the calls that succeed. -/
def cardEnv (ok : IpStep → Bool) : IpEnv := ⟨some 3, ok, dottedQuad⟩

/-- An interface that is down, with `IFF_BROADCAST` and `IFF_MULTICAST` set. -/
def cardState : IpState := ⟨fun _ => ⟨0, 0, [], 0x1002⟩, [0, 1, 2]⟩

/-- A call as `bmcAutoConfigEth` makes it. -/
def cardCall (ok : IpStep → Bool) : Option (Int × IpState) :=
  ipAutoSet manualKernel (cardEnv ok)
    (argsOf (bytes "eth1") (bytes "192.168.1.250") (bytes "255.255.255.0") (bytes "192.168.1.1"))
    cardState

/-- All calls succeed, and the interface has lost `IFF_MULTICAST`; the call for the mask fails,
    and the new address stays; the socket is open in either case. -/
theorem not_completeOrAbsent :
    (¬∃ ret t, cardCall (fun _ => true) = some (ret, t)
        ∧ CompleteOrAbsent (cardEnv fun _ => true) (bytes "eth1") (bytes "192.168.1.250")
          (bytes "255.255.255.0") (bytes "192.168.1.1") cardState ret t)
      ∧ (cardCall fun _ => true).map
          (fun r => (r.1, (r.2.net (bytes "eth1")).addr, (r.2.net (bytes "eth1")).flags, r.2.fds))
        = some (0, 0xC0A801FA, 0x43, [3, 0, 1, 2])
      ∧ (cardCall fun step => step ≠ .mask).map
          (fun r => (r.1, (r.2.net (bytes "eth1")).addr, r.2.fds))
        = some (-1, 0xC0A801FA, [3, 0, 1, 2]) := by
  refine ⟨?_, by decide +kernel, by decide +kernel⟩
  rintro ⟨ret, t, hret, h⟩
  exact not_completeOrAbsent_of_socket manualKernel (cardEnv fun _ => true) _ _ _ _ cardState rfl
    hret h

end Vpx3.Bmc
