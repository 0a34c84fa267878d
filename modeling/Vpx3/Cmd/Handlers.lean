import Vpx3.Cmd.Spacing
import Mathlib

namespace Vpx3.Cmd

open Vpx3.CStr

/-!
# Commands — the handlers and their arguments

A handler gets the string behind its command word.  It cuts off all arguments but the last
with `strsep` and takes the last one from what remains, without its final character, which
is the newline of an `echo`.

* `str2hex` — the value of a token;
* `Operation` — what a command ends in, with the numeric values it passes on;
* `Handler` — the family: how many arguments are cut off, whether a missing rest is an
  error, and the operation;
* `Handler.run_join` — the operation of a handler on a list of tokens.
-/

abbrev Word := BitVec 32
abbrev HalfWord := BitVec 16

/-! ### Numbers -/

/-- The value of a hexadecimal digit; any other character counts as 0. -/
def str2hexnum (c : Byte) : Byte :=
  if 0x30 ≤ c ∧ c ≤ 0x39 then c - 0x30
  else if 0x61 ≤ c ∧ c ≤ 0x66 then c - 0x61 + 10
  else if 0x41 ≤ c ∧ c ≤ 0x46 then c - 0x41 + 10
  else 0

/-- `value = value << 4; value |= str2hexnum(*str++)`. -/
def hexDigit (value : Word) (c : Byte) : Word := value <<< 4 ||| (str2hexnum c).zeroExtend 32

/-- `str2hex`, the same in `rionet.c` and `fsl_rio.c`. -/
def str2hex (str : Str) : Word := str.foldl hexDigit 0

/-- Blanks behind a number count as digits 0. -/
theorem str2hex_append_blanks (s : Str) (k : Nat) :
    str2hex (s ++ blanks k) = str2hex s <<< (4 * k) := by
  induction k with
  | zero => simp [blanks]
  | succ k ih =>
    -- a blank is no digit and shifts the value by four bits
    have hblank (v : Word) : hexDigit v blank = v <<< 4 := by
      have h0 : (str2hexnum blank).zeroExtend 32 = 0 := by decide
      rw [hexDigit, h0]
      exact BitVec.or_zero
    have hsnoc : s ++ blanks (k + 1) = (s ++ blanks k) ++ [blank] := by
      rw [blanks, List.replicate_succ', List.append_assoc, blanks]
    rw [hsnoc, str2hex, List.foldl_concat, hblank, ← str2hex, ih, ← BitVec.shiftLeft_add,
      Nat.mul_succ]

/-! ### Operations -/

/-- What a command line ends in. -/
inductive Operation where
  | testMem
  | testDisk
  | testRapidio
  | testMemoryMap
  | readMemoryMap
  | rioGetLocalDeviceId
  /-- The message `argument error!`, and nothing else. -/
  | argumentError
  | setRioinb (baddr taddr size window : Word)
  | setRiooutb (baddr taddr size destid window : Word)
  /-- `fsl_rio_doorbell_send(mem_mport, 0, destid, data)`, whose two last parameters are `u16`. -/
  | fslRioDoorbellSend (destid data : HalfWord)
  | setTargetValue (value : Word)
  | setTargetType (type : Word)
  | outBoundSendMsg (usDestId : HalfWord) (uMbox uiBufAddr uiSize : Word)
  | inBoundGetMsg (usDestId : HalfWord) (uMbox : Word)
  /-- A buffer of `bytecnt` bytes, and `rio_dma_nread` into it. -/
  | rioDmaNread (destid : Byte) (rioaddr bytecnt : Word)
  /-- A buffer of `bytecnt` bytes 0x1, and `rio_dma_nwrite` from it. -/
  | rioDmaNwrite (destid : Byte) (rioaddr bytecnt : Word)
  /-- The dump of `size` bytes from `addr`, remapped first when `isRemap` is 1. -/
  | dump (addr size isRemap : Word)
deriving DecidableEq, Repr

/-- What a handler does: its operation, and whether its `str[len-1]='\0'` hit the byte in
    front of an empty string. -/
structure Outcome where
  operation : Operation
  stray : Bool
deriving DecidableEq, Repr

/-! ### The family of handlers -/

/-- `p = strsep(&str, " ")` and `str2hex(p)`. -/
def sepHex (str : Option Str) : Except Fault (Word × Option Str) :=
  match strsep blank str with
  | (none, _) => .error .null
  | (some p, str) => .ok (str2hex p, str)

/-- The arguments cut off one after the other. -/
def sepHexs : (n : Nat) → Option Str → Except Fault ((Fin n → Word) × Option Str)
  | 0, str => .ok (Fin.elim0, str)
  | n + 1, str => do
    let (value, str) ← sepHex str
    let (values, str) ← sepHexs n str
    return (Fin.cons value values, str)

/-- `len = strlen(str); str[len-1] = '\0'; str2hex(str)`. -/
def lastHex : Option Str → Except Fault (Word × Bool)
  | none => .error .null
  | some str => .ok (str2hex str.dropLast, str.isEmpty)

/-- A handler of the family. -/
structure Handler where
  /-- How many arguments `strsep` cuts off. -/
  seps : Nat
  /-- Whether `if (str=='\0')` stands in front of the last argument. -/
  checked : Bool
  /-- The call at the end, from the values cut off and the last one. -/
  operation : (Fin seps → Word) → Word → Operation

/-- A handler on its argument string. -/
def Handler.run (h : Handler) (str : Str) : Except Fault Outcome := do
  let (values, rest) ← sepHexs h.seps (some str)
  -- `strsep` leaves NULL behind the last piece
  if h.checked ∧ rest = none then return ⟨.argumentError, false⟩
  else do
    let (last, stray) ← lastHex rest
    return ⟨h.operation values last, stray⟩

/-! ### The handlers -/

/-- `set_inb_target`. -/
def setInbTarget : Handler where
  seps := 0
  checked := false
  operation _ data := if data > 1 then .setTargetValue data else .setTargetType data

/-- `test_doorbell`. -/
def testDoorbell : Handler where
  seps := 1
  checked := false
  operation v data := .fslRioDoorbellSend ((v ⟨0, Nat.one_pos⟩).truncate 16) (data.truncate 16)

/-- `test_nread`: the local port is parsed and not used. -/
def testNread : Handler where
  seps := 3
  checked := false
  operation v bytecnt := .rioDmaNread ((v 1 &&& 0xff).truncate 8) (v 2) bytecnt

/-- `test_nwrite`. -/
def testNwrite : Handler where
  seps := 3
  checked := false
  operation v bytecnt := .rioDmaNwrite ((v 1 &&& 0xff).truncate 8) (v 2) bytecnt

/-- `test_riooutb`. -/
def testRiooutb : Handler where
  seps := 4
  checked := true
  operation v window := .setRiooutb (v 0) (v 1) (v 2) (v 3) window

/-- `test_rioinb`. -/
def testRioinb : Handler where
  seps := 3
  checked := true
  operation v window := .setRioinb (v 0) (v 1) (v 2) window

/-- `testOutBoundSendMsg`. -/
def testOutBoundSendMsg : Handler where
  seps := 3
  checked := true
  operation v uiSize := .outBoundSendMsg ((v 0).truncate 16) (v 1) (v 2) uiSize

/-- `testInBoundGetMsg`: the mailbox is `str2hex(p)`, the first token once more. -/
def testInBoundGetMsg : Handler where
  seps := 1
  checked := true
  operation v _ := .inBoundGetMsg ((v ⟨0, Nat.one_pos⟩).truncate 16) (v ⟨0, Nat.one_pos⟩)

/-- `__do_dm`. -/
def doDm : Handler where
  seps := 2
  checked := true
  operation v isRemap := .dump (v 0) (v 1) isRemap

/-! ### Tokens with single blanks -/

/-- The tokens in front, each closed by a blank, and the rest of the string. -/
def join (front : List Str) (rest : Str) : Str := front.flatMap (fun t => t ++ [blank]) ++ rest

theorem join_cons (t : Str) (front : List Str) (rest : Str) :
    join (t :: front) rest = t ++ blank :: join front rest := by
  rw [join, List.flatMap_cons, List.append_assoc, List.append_assoc, List.singleton_append, join]

/-- The values of the tokens in front, and the rest. -/
theorem sepHexs_join (n : Nat) (front : Fin n → Str) (rest : Str)
    (hfront : ∀ i, blank ∉ front i) :
    sepHexs n (some (join (List.ofFn front) rest))
      = .ok (fun i => str2hex (front i), some rest) := by
  induction n with
  | zero =>
    rw [List.ofFn_zero, sepHexs, join, List.flatMap_nil, List.nil_append]
    congr 2
    exact Subsingleton.elim _ _
  | succ n ih =>
    -- the first token goes to the front of the values of the others
    have htail := ih (fun i => front i.succ) (fun i => hfront i.succ)
    have hvalues :
        (Fin.cons (str2hex (front 0)) (fun i => str2hex (front i.succ)) : Fin (n + 1) → Word)
          = fun i => str2hex (front i) := by
      funext i
      cases i using Fin.cases with
      | zero => rfl
      | succ i => rfl
    rw [List.ofFn_succ, join_cons, sepHexs, sepHex,
      strsep_append blank _ _ (hfront 0)]
    simp only [ok_bind]
    rw [htail, ← hvalues]
    rfl

/-- **A handler on single-spaced tokens**: the values of the tokens in front, and the last
    value from what remains without its final character. -/
theorem Handler.run_join (h : Handler) (front : Fin h.seps → Str) (rest : Str)
    (hfront : ∀ i, blank ∉ front i) (hrest : rest ≠ []) :
    h.run (join (List.ofFn front) rest)
      = .ok ⟨h.operation (fun i => str2hex (front i)) (str2hex rest.dropLast), false⟩ := by
  have hempty : rest.isEmpty = false := by simpa using hrest
  have hsome : ¬(h.checked = true ∧ (some rest : Option Str) = none) := by simp
  rw [Handler.run, sepHexs_join h.seps front rest hfront]
  simp only [ok_bind, if_neg hsome, lastHex, hempty]
  rfl

end Vpx3.Cmd
