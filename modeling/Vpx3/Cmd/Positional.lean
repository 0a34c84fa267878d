import Vpx3.Cmd.Hex
import Vpx3.Cmd.Regular

namespace Vpx3.Cmd

open Vpx3.CStr

/-!
# Commands — hexadecimal tokens and the parameters they reach

* `Command.lineOf` — a command word and tokens with single blanks, and a final newline;
* `Command.intended` — the operation in which the `i`-th value stands for the `i`-th parameter;
* `interpret_lineOf` — what `wan_write` performs on such a line;
* `positional_iff` — it is the intended operation, but for `getmsg`, which takes the mailbox
  from the first token, and for `*`, which cuts off the first character of the address.
-/

/-- A command word and its tokens with single blanks, and a final newline. -/
def Command.lineOf (c : Command) (ts : List HexToken) : Str :=
  c.word ++ (ts.flatMap fun t => blank :: t.text) ++ [newline]

/-- The operation a command line asks for: each value, reduced to the width of its parameter,
    in the place the token stands in.  The local port of `rioNread` and `rioWrite` is not
    passed on. -/
def Command.intended : Command → List Word → Option Operation
  | .doorbell, [destid, data] =>
    some (.fslRioDoorbellSend (destid.truncate 16) (data.truncate 16))
  | .setoutb, [baddr, taddr, size, destid, window] =>
    some (.setRiooutb baddr taddr size destid window)
  | .setinb, [baddr, taddr, size, window] => some (.setRioinb baddr taddr size window)
  | .sendmsg, [destid, mbox, buffer, size] =>
    some (.outBoundSendMsg (destid.truncate 16) mbox buffer size)
  | .getmsg, [destid, mbox] => some (.inBoundGetMsg (destid.truncate 16) mbox)
  | .rioNread, [_, destid, rioaddr, bytecnt] =>
    some (.rioDmaNread (destid.truncate 8) rioaddr bytecnt)
  | .rioWrite, [_, destid, rioaddr, bytecnt] =>
    some (.rioDmaNwrite (destid.truncate 8) rioaddr bytecnt)
  | .dm, [addr, size, isRemap] => some (.dump addr size isRemap)
  | .star, [addr, size, isRemap] => some (.dump addr size isRemap)
  | _, _ => none

/-- The lines whose arguments are read where they stand: a `getmsg` with the same number for
    device and mailbox, a `*` whose address starts with the character 0, and every line of the
    other commands. -/
def ReadsInPlace : Command → List HexToken → Prop
  | .getmsg, [destid, mbox] => destid.number = mbox.number
  | .star, addr :: _ => addr.text.head? = some 0x30
  | _, _ => True

/-! ### Tokens on a line -/

/-- The text of a token is a token. -/
theorem HexToken.isToken (t : HexToken) : IsToken t.text := by
  have hmark (c : Byte) (hc : c ∈ bytes "0x") : c ≠ blank ∧ c ≠ newline ∧ c ≠ 0 := by
    revert c
    decide
  constructor
  · intro h
    rw [HexToken.text, List.append_eq_nil_iff, List.map_eq_nil_iff] at h
    exact t.nonempty h.2
  · intro c hc
    rcases List.mem_append.mp hc with hc | hc
    · split at hc
      · exact hmark c hc
      · exact absurd hc List.not_mem_nil
    · obtain ⟨d, -, rfl⟩ := List.mem_map.mp hc
      obtain ⟨-, hblank, hnewline, hzero, -⟩ := d.char_ok
      exact ⟨hblank, hnewline, hzero⟩

/-- At most ten characters. -/
theorem HexToken.length_text (t : HexToken) : t.text.length ≤ 10 := by
  have hmark : (bytes "0x").length = 2 := by decide
  have hshort := t.short
  rw [HexToken.text, List.length_append, List.length_map]
  split
  · omega
  · rw [List.length_nil]
    omega

/-- The tokens of a line take at most eleven characters each, with their blank. -/
theorem length_flatMap_text (ts : List HexToken) :
    (ts.flatMap fun t => blank :: t.text).length ≤ 11 * ts.length := by
  induction ts with
  | nil => simp
  | cons t ts ih =>
    have ht := t.length_text
    rw [List.flatMap_cons, List.length_append, List.length_cons, List.length_cons]
    omega

/-- Words are short, and no command takes more than five arguments. -/
theorem Command.word_length_argc (c : Command) : c.word.length ≤ 20 ∧ c.argc ≤ 5 := by
  cases c <;> decide

/-! ### The line as a spelling -/

variable {c : Command} {ts : List HexToken}

/-- The command line of a word and its tokens. -/
def commandLine (c : Command) (ts : List HexToken) (h : ts.length = c.argc) : CommandLine where
  cmd := c
  args := ts.map HexToken.text
  count := by rw [List.length_map, h]
  tokens t ht := by
    obtain ⟨u, -, rfl⟩ := List.mem_map.mp ht
    exact u.isToken

/-- Single blanks and a newline. -/
def plain (T : CommandLine) : Spacing T where
  lead := 0
  gaps := List.replicate T.args.length 0
  trail := 0
  newline := true
  gaps_length := List.length_replicate

theorem plain_words (T : CommandLine) : (plain T).words = T.normal := by
  have hgaps : (List.replicate T.args.length 0).map (· + 1) = T.args.map fun _ => 1 := by
    rw [List.map_replicate, List.map_const']
  rw [Spacing.words, plain, hgaps, List.zip_map_left, CommandLine.normal]
  congr 1
  induction T.args with
  | nil => rfl
  | cons t args ih =>
    rw [List.zip_cons_cons, List.map_cons, List.map_cons, ih]
    rfl

/-- The plain line. -/
theorem plain_line (h : ts.length = c.argc) : (plain (commandLine c ts h)).line = c.lineOf ts := by
  have hargs (ts : List HexToken) : render ((ts.map HexToken.text).map fun t => (1, t))
      = ts.flatMap fun t => blank :: t.text := by
    rw [render, List.map_map, List.flatMap_map]
    rfl
  rw [Spacing.line, plain_words, CommandLine.normal, render_cons, Command.lineOf]
  simp only [commandLine, hargs]
  rfl

/-- It fits the buffer. -/
theorem plain_fits (h : ts.length = c.argc) : (plain (commandLine c ts h)).line.length < 100 := by
  have htokens := length_flatMap_text ts
  have hword := c.word_length_argc
  rw [plain_line, Command.lineOf, List.length_append, List.length_append, List.length_singleton]
  omega

/-- One blank stays before every argument, and none behind the last. -/
theorem plain_tidy (T : CommandLine) : (plain T).Tidy ∧ (plain T).trailing = 0 := by
  have hargs (t : Str) (ht : t ∈ T.args) : t ≠ [] := (T.tokens t ht).1
  obtain ⟨hthin, hwords⟩ := thin_single T.cmd.word T.args T.cmd.word_ok.1 hargs
  constructor
  · rw [Spacing.tidy_iff_left, Spacing.left, plain_words]
    exact hthin
  · rw [Spacing.trailing, plain_words]
    exact (congrArg (fun st => Scan.kept st 0) hwords).trans (Nat.min_zero 1)

/-- **What `wan_write` performs on a line of tokens.** -/
theorem interpret_lineOf {length : Nat} {h : Handler} (hc : c.action = .parse length h)
    (front : Fin h.seps → HexToken) (last : HexToken) :
    interpret (c.lineOf (List.ofFn front ++ [last]))
      = some (c, h.operation (fun i => str2hex (c.field i (front i).text)) last.value) := by
  have hcount : (List.ofFn front ++ [last]).length = c.argc := by
    rw [List.length_append, List.length_ofFn, List.length_singleton, Command.argc, hc]
  -- the line is the plain spelling of its command line, and that is tidy
  let T := commandLine c (List.ofFn front ++ [last]) hcount
  have hlast : T.last = last.text := by
    simp [T, CommandLine.last, commandLine, List.getLastD_eq_getLast?]
  have hargs : T.args = List.ofFn (fun i => (front i).text) ++ [T.last] := by
    rw [hlast]
    simp only [T, commandLine, List.map_append, List.map_singleton, List.map_ofFn]
    rfl
  obtain ⟨htidy, htrailing⟩ := plain_tidy T
  have hvalue : (plain T).lastValue = last.value := by
    rw [Spacing.lastValue, htrailing, hlast, str2hex_text]
    exact BitVec.shiftLeft_zero _
  have hrun := interpret_tidy (T := T) hc hargs ⟨plain T, plain_fits hcount⟩ htidy
  rw [hvalue] at hrun
  rw [← plain_line hcount]
  exact hrun

/-! ### Parameters -/

/-- The mask in front of the narrowing to a byte takes nothing away. -/
theorem truncate_mask (x : Word) : (x &&& 0xff).truncate 8 = x.truncate 8 := by
  apply BitVec.eq_of_toNat_eq
  have hmask : (0xff : Word).toNat = 2 ^ 8 - 1 := by decide
  simp only [BitVec.truncate_eq_setWidth, BitVec.toNat_setWidth, BitVec.toNat_and, hmask,
    Nat.and_two_pow_sub_one_eq_mod, Nat.mod_mod]

/-- A command asks for an operation only with all its arguments. -/
theorem Command.length_of_intended {vs : List Word} {op : Operation}
    (h : c.intended vs = some op) :
    ∃ length handler, c.action = .parse length handler ∧ vs.length = handler.seps + 1 := by
  rw [Command.intended.eq_def] at h
  split at h <;> first
    | exact absurd h (Option.some_ne_none op).symm
    | exact ⟨_, _, rfl, rfl⟩

/-- So the line has as many tokens as the command takes. -/
theorem Command.length_eq_argc {ts : List HexToken} {op : Operation}
    (h : c.intended (ts.map HexToken.value) = some op) : ts.length = c.argc := by
  obtain ⟨length, handler, hc, hlen⟩ := Command.length_of_intended h
  rw [List.length_map] at hlen
  rw [Command.argc, hc, hlen]

/-- All handlers but that of `getmsg` pass the values on as the command asks for. -/
theorem Command.operation_of_intended {length : Nat} {h : Handler}
    (hc : c.action = .parse length h) (hget : c ≠ .getmsg) (values : Fin h.seps → Word)
    (last : Word) {op : Operation} (hop : c.intended (List.ofFn values ++ [last]) = some op) :
    h.operation values last = op := by
  -- one case for each command that parses: its handler is the one in the table
  cases c <;> simp only [Command.action, Action.parse.injEq, reduceCtorEq] at hc <;>
    obtain ⟨-, rfl⟩ := hc
  case getmsg => exact absurd rfl hget
  case settarget => exact absurd hop.symm (Option.some_ne_none op)
  all_goals
    refine Option.some.inj (Eq.trans ?_ hop)
    first
    | rfl
    | -- the byte of a destination id is masked before it is narrowed
      simp only [testNread, testNwrite, truncate_mask]
      rfl

/-- The line of `*`: the address is read from its second character on. -/
theorem star_places (addr size isRemap : HexToken) :
    interpret (Command.star.lineOf [addr, size, isRemap])
        = some (.star, .dump addr.value size.value isRemap.value)
      ↔ addr.text.head? = some 0x30 := by
  have hrun : interpret (Command.star.lineOf [addr, size, isRemap])
      = some (.star, .dump (str2hex addr.text.tail) (str2hex size.text) isRemap.value) :=
    interpret_lineOf (c := .star) rfl ![addr, size] isRemap
  rw [hrun, str2hex_text size, ← addr.str2hex_tail]
  simp only [Option.some.injEq, Prod.mk.injEq, Operation.dump.injEq, true_and, and_true]

/-- The line of `getmsg`: the mailbox is read from the first token. -/
theorem getmsg_places (destid mbox : HexToken) :
    interpret (Command.getmsg.lineOf [destid, mbox])
        = some (.getmsg, .inBoundGetMsg (destid.value.truncate 16) mbox.value)
      ↔ destid.number = mbox.number := by
  have hrun : interpret (Command.getmsg.lineOf [destid, mbox])
      = some (.getmsg, .inBoundGetMsg ((str2hex destid.text).truncate 16) (str2hex destid.text)) :=
    interpret_lineOf (c := .getmsg) rfl ![destid] mbox
  rw [hrun, str2hex_text destid, ← destid.value_eq_iff]
  simp only [Option.some.injEq, Prod.mk.injEq, Operation.inBoundGetMsg.injEq, true_and]

/-- All other commands read their arguments in place. -/
theorem other_places (c : Command) (ts : List HexToken) (op : Operation)
    (hget : c ≠ .getmsg) (hstar : c ≠ .star)
    (hop : c.intended (ts.map HexToken.value) = some op) :
    interpret (c.lineOf ts) = some (c, op) := by
  obtain ⟨length, h, hc, hlen⟩ := Command.length_of_intended hop
  rw [List.length_map] at hlen
  obtain ⟨front, last, rfl⟩ := exists_ofFn_concat ts h.seps hlen
  rw [List.map_append, List.map_ofFn, List.map_singleton] at hop
  rw [interpret_lineOf hc front last]
  simp only [c.field_of_ne hstar, str2hex_text]
  rw [← Command.operation_of_intended hc hget _ _ hop]
  rfl

/-- **Where the tokens of a line go.**  Each argument reaches its parameter exactly on the
    lines that are read in place. -/
theorem positional_iff (c : Command) (ts : List HexToken) (op : Operation)
    (hop : c.intended (ts.map HexToken.value) = some op) :
    interpret (c.lineOf ts) = some (c, op) ↔ ReadsInPlace c ts := by
  by_cases hget : c = .getmsg
  · subst hget
    obtain ⟨destid, mbox, rfl⟩ := List.length_eq_two.mp (Command.length_eq_argc hop)
    obtain rfl := Option.some.inj hop
    exact getmsg_places destid mbox
  by_cases hstar : c = .star
  · subst hstar
    obtain ⟨addr, size, isRemap, rfl⟩ := List.length_eq_three.mp (Command.length_eq_argc hop)
    obtain rfl := Option.some.inj hop
    exact star_places addr size isRemap
  · have hreads : ReadsInPlace c ts := by
      rw [ReadsInPlace.eq_def]
      split
      · exact absurd rfl hget
      · exact absurd rfl hstar
      · trivial
    exact iff_of_true (other_places c ts op hget hstar hop) hreads

/-- The token of one digit. -/
def digitToken (n : Fin 16) : HexToken where
  marked := false
  digits := [⟨n, false⟩]
  nonempty := List.cons_ne_nil _ _
  short := Nat.le_of_ble_eq_true rfl

/-- `rioNread 0 2 3 4` reads four bytes at address 3 of device 2. -/
theorem positional_rioNread :
    Command.rioNread.lineOf ([0, 2, 3, 4].map digitToken) = bytes "rioNread 0 2 3 4
"
      ∧ interpret (Command.rioNread.lineOf ([0, 2, 3, 4].map digitToken))
          = some (.rioNread, .rioDmaNread 2 3 4) :=
  ⟨by decide, (positional_iff .rioNread _ _ rfl).mpr trivial⟩

/-- `getmsg 1 2` opens mailbox 1, and `* 7 1 1` dumps address 0. -/
theorem not_positional_getmsg_star :
    interpret (Command.getmsg.lineOf ([1, 2].map digitToken)) = some (.getmsg, .inBoundGetMsg 1 1)
      ∧ Command.getmsg.intended ([1, 2].map fun n => (digitToken n).value)
          = some (.inBoundGetMsg 1 2)
      ∧ interpret (Command.star.lineOf ([7, 1, 1].map digitToken)) = some (.star, .dump 0 1 1)
      ∧ Command.star.intended ([7, 1, 1].map fun n => (digitToken n).value)
          = some (.dump 7 1 1) := by
  decide +kernel

end Vpx3.Cmd
