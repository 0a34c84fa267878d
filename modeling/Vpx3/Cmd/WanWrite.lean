import Vpx3.Cmd.Handlers

namespace Vpx3.Cmd

open Vpx3.CStr

/-!
# Commands — `wan_write`, from a line to its handler

The line is copied into a buffer of 100 zero bytes, `format_space` tidies it, and the first
command whose word the buffer starts with is performed.

* `Command`, `Command.action` — the chain of comparisons, and what each branch calls;
* `wanWrite` — the function;
* `CommandLine`, `Spelling` — a sequence of tokens, and the ways to write it as a line.
-/

/-! ### The commands -/

/-- The branches of `wan_write`. -/
inductive Command where
  | meminfo
  | diskinfo
  | rapidio
  | setinb
  | setoutb
  | writemem
  | readmem
  | doorbell
  | settarget
  | sendmsg
  | getmsg
  | rioNread
  | rioWrite
  | dm
  | star
  | rioGetLocalDeviceId
deriving DecidableEq, Repr

/-- The branches in the order of the comparisons. -/
def Command.all : List Command :=
  [.meminfo, .diskinfo, .rapidio, .setinb, .setoutb, .writemem, .readmem, .doorbell, .settarget,
    .sendmsg, .getmsg, .rioNread, .rioWrite, .dm, .star, .rioGetLocalDeviceId]

/-- The literal a branch compares with. -/
def Command.literal : Command → String
  | .meminfo => "meminfo"
  | .diskinfo => "diskinfo"
  | .rapidio => "rapidio"
  | .setinb => "setinb"
  | .setoutb => "setoutb"
  | .writemem => "writemem"
  | .readmem => "readmem"
  | .doorbell => "doorbell"
  | .settarget => "settarget"
  | .sendmsg => "sendmsg"
  | .getmsg => "getmsg"
  | .rioNread => "rioNread"
  | .rioWrite => "rioWrite"
  | .dm => "dm"
  | .star => "*"
  | .rioGetLocalDeviceId => "rioGetLocalDeviceId"

/-- The command word. -/
def Command.word (c : Command) : Str := bytes c.literal

/-- `sizeof` of a string literal, which counts its terminator. -/
def sizeof (s : String) : Nat := (bytes s).length + 1

/-- What a branch does. -/
inductive Action where
  /-- A function without arguments. -/
  | run (op : Operation)
  /-- A handler on the string at an offset. -/
  | parse (length : Nat) (handler : Handler)

def Command.action : Command → Action
  | .meminfo => .run .testMem
  | .diskinfo => .run .testDisk
  | .rapidio => .run .testRapidio
  | .setinb => .parse (sizeof "setinb") testRioinb
  | .setoutb => .parse (sizeof "setoutb") testRiooutb
  | .writemem => .run .testMemoryMap
  | .readmem => .run .readMemoryMap
  | .doorbell => .parse (sizeof "doorbell") testDoorbell
  | .settarget => .parse (sizeof "settarget") setInbTarget
  | .sendmsg => .parse (sizeof "sendmsg") testOutBoundSendMsg
  | .getmsg => .parse (sizeof "getmsg") testInBoundGetMsg
  | .rioNread => .parse (sizeof "rioNread") testNread
  | .rioWrite => .parse (sizeof "rioWrite") testNwrite
  | .dm => .parse (sizeof "dm") doDm
  -- the branch of `*` keeps the length of `dm`
  | .star => .parse (sizeof "dm") doDm
  | .rioGetLocalDeviceId => .run .rioGetLocalDeviceId

/-- A branch on the buffer. -/
def Action.perform (buf : List Byte) : Action → Except Fault Outcome
  | .run op => .ok ⟨op, false⟩
  | .parse length handler => do
    let str ← cstr buf length
    handler.run str

/-! ### The function -/

/-- `!memcmp(bin_content_ascii, word, sizeof(word)-1)`. -/
def comparesEqual (buf : List Byte) (c : Command) : Bool := c.word.isPrefixOf buf

/-- The first branch whose comparison succeeds. -/
def dispatch (buf : List Byte) : Option Command := Command.all.find? (comparesEqual buf)

/-- `copy_from_user` into `bin_content_ascii[100]`. -/
def copyIn (line : Str) : Except Fault (List Byte) :=
  if line.length ≤ 100 then .ok (line ++ List.replicate (100 - line.length) 0)
  else .error .range

/-- `wan_write` of a line: the command and what its handler does; nothing when the copy
    faults or no word fits. -/
def wanWrite (copied : Bool) (line : Str) : Except Fault (Option (Command × Outcome)) := do
  let buf ← copyIn line
  if copied = false then return none
  else do
    let buf ← formatSpace buf
    match dispatch buf with
    | none => return none
    | some c => do
      let out ← c.action.perform buf
      return some (c, out)

/-- Handler and operation of a line whose copy succeeds. -/
def interpret (line : Str) : Option (Command × Operation) :=
  match wanWrite true line with
  | .ok (some (c, out)) => some (c, out.operation)
  | _ => none

/-! ### Dispatch -/

theorem Command.mem_all (c : Command) : c ∈ Command.all := by
  cases c <;> decide

/-- No command word starts another one. -/
theorem Command.prefix_free :
    ∀ c ∈ Command.all, ∀ d ∈ Command.all, c.word.isPrefixOf d.word = true → c = d := by
  decide +kernel

/-- A buffer that starts with a command word goes to that command. -/
theorem dispatch_word (c : Command) (rest : List Byte) : dispatch (c.word ++ rest) = some c := by
  have hself : comparesEqual (c.word ++ rest) c = true :=
    List.isPrefixOf_iff_prefix.mpr (List.prefix_append _ _)
  cases h : dispatch (c.word ++ rest) with
  | none => exact absurd hself (List.find?_eq_none.mp h c c.mem_all)
  | some d =>
    -- two words the buffer starts with: one of them starts the other
    have hfound : comparesEqual (c.word ++ rest) d = true := List.find?_some h
    have hd : d.word <+: c.word ++ rest := List.isPrefixOf_iff_prefix.mp hfound
    rcases List.prefix_or_prefix_of_prefix hd (List.prefix_append c.word rest) with hdc | hcd
    · rw [Command.prefix_free d d.mem_all c c.mem_all (List.isPrefixOf_iff_prefix.mpr hdc)]
    · rw [Command.prefix_free c c.mem_all d d.mem_all (List.isPrefixOf_iff_prefix.mpr hcd)]

/-- Every slice but that of `*` starts behind the word and one character. -/
theorem Command.length_of_ne_star (c : Command) {length : Nat} {h : Handler}
    (hc : c.action = .parse length h) (hstar : c ≠ .star) : length = c.word.length + 1 := by
  cases c <;> simp only [Command.action, Action.parse.injEq, reduceCtorEq] at hc <;>
    first
    | exact absurd rfl hstar
    | exact hc.1.symm

/-- Words are words. -/
theorem Command.word_ok (c : Command) :
    c.word ≠ [] ∧ blank ∉ c.word ∧ (0 : Byte) ∉ c.word := by
  cases c <;> decide

end Vpx3.Cmd
