import Vpx3.Cmd.Spelling

namespace Vpx3.Cmd

open Vpx3.CStr

/-!
# Commands — two spellings of one command line

* `SameCommand` — two lines reach the same handler, and it performs the same operation with
  the same values;
* `Regular` — the condition on the two spellings;
* `interpret_tidy`, `interpret_no_args` — what `wan_write` performs on a tidy line, and on any
  line of a command without arguments;
* `sameCommand_regular` — regular pairs do the same, and no other pairs of tidy lines do.
-/

variable {T : CommandLine}

/-- Two lines reach the same handler, which performs the same operation. -/
def SameCommand (a b : Spelling T) : Prop :=
  interpret a.line = interpret b.line ∧ (interpret a.line).isSome

/-- What a command passes on of its last value: `fsl_rio_doorbell_send` takes 16 bits, and
    `testInBoundGetMsg` parses its first argument twice. -/
def Command.passes : Command → Word → Word
  | .doorbell, value => (value.truncate 16 : HalfWord).zeroExtend 32
  | .getmsg, _ => 0
  | _, value => value

/-- The condition on two spellings: the command takes no argument, or one blank is left
    before every argument of both lines and the final characters they end in leave the
    command the same last value. -/
def Regular (a b : Spelling T) : Prop :=
  T.cmd.argc = 0
    ∨ a.Tidy ∧ b.Tidy ∧ T.cmd.passes a.lastValue = T.cmd.passes b.lastValue

instance (a b : Spelling T) : Decidable (Regular a b) := by unfold Regular; infer_instance

/-! ### The last value -/

/-- The last argument of a tidy line, as the handler reads it. -/
theorem Spacing.lastValue_eq (a : Spacing T) :
    str2hex (T.last ++ a.ending).dropLast = a.lastValue := by
  rw [Spacing.ending, Spacing.lastValue]
  cases a.newline with
  | true => rw [if_pos rfl, if_pos rfl, ← List.append_assoc, List.dropLast_concat,
      str2hex_append_blanks]
  | false =>
    rw [if_neg (by decide), if_neg (by decide)]
    rcases a.trailing with _ | _ | k
    · rw [if_pos (by omega)]
      simp [blanks]
    · -- the strip takes the only blank, and the cut the last digit
      rw [if_pos (by omega)]
      simp [blanks]
    · -- one blank went with the strip, a second one with the final character
      have hend : blanks (k + 1 + 1 - 1) = blanks k ++ [blank] := List.replicate_succ'
      rw [if_neg (by omega), hend, ← List.append_assoc, List.dropLast_concat,
        str2hex_append_blanks]
      rfl

/-- The operation depends on what is passed on of the last value, and on nothing less. -/
theorem Command.operation_eq_iff {c : Command} {length : Nat} {h : Handler}
    (hc : c.action = .parse length h) (values : Fin h.seps → Word) (x y : Word) :
    h.operation values x = h.operation values y ↔ c.passes x = c.passes y := by
  cases c <;> simp only [Command.action, Action.parse.injEq, reduceCtorEq] at hc <;>
    obtain ⟨-, rfl⟩ := hc
  case settarget =>
    -- the value decides between two operations: across them no two values agree
    simp only [setInbTarget, Command.passes]
    split <;> split <;> simp only [Operation.setTargetValue.injEq, Operation.setTargetType.injEq,
      reduceCtorEq, false_iff]
    all_goals
      intro hxy
      subst hxy
      contradiction
  case doorbell =>
    -- the data is a `u16`
    simp only [testDoorbell, Command.passes, Operation.fslRioDoorbellSend.injEq, true_and]
    refine ⟨fun hxy => by rw [hxy], fun hxy => ?_⟩
    have h16 := congrArg (BitVec.truncate 16) hxy
    simpa using h16
  all_goals
    simp [testRioinb, testRiooutb, testOutBoundSendMsg, testInBoundGetMsg, testNread, testNwrite,
      doDm, Command.passes]

/-! ### What a line performs -/

/-- A command without arguments is performed however the line is spaced. -/
theorem interpret_no_args (hc : T.cmd.argc = 0) :
    ∃ op, ∀ a : Spelling T, interpret a.line = some (T.cmd, op) := by
  cases hact : T.cmd.action with
  | run op =>
    refine ⟨op, fun a => ?_⟩
    obtain ⟨after, h⟩ := a.interpret_eq
    rw [h, hact, Action.perform]
  | parse length h =>
    rw [Command.argc, hact] at hc
    exact absurd hc (Nat.succ_ne_zero _)

/-- A list with one element more than `n`. -/
theorem exists_ofFn_concat {α : Type} (ts : List α) (n : Nat) (h : ts.length = n + 1) :
    ∃ (front : Fin n → α) (last : α), ts = List.ofFn front ++ [last] := by
  have hne : ts ≠ [] := List.ne_nil_of_length_eq_add_one h
  have hlen : ts.dropLast.length = n := by rw [List.length_dropLast, h, Nat.add_sub_cancel]
  refine ⟨fun i => ts.dropLast.get (i.cast hlen.symm), ts.getLast hne, ?_⟩
  have hfront : List.ofFn (fun i : Fin n => ts.dropLast.get (i.cast hlen.symm)) = ts.dropLast :=
    List.ext_getElem (by rw [List.length_ofFn, hlen]) (by simp)
  rw [hfront, List.dropLast_concat_getLast]

/-- The arguments of a line: those `strsep` cuts off, and the last one. -/
theorem CommandLine.exists_front (T : CommandLine) {length : Nat} {h : Handler}
    (hc : T.cmd.action = .parse length h) :
    ∃ front : Fin h.seps → Str, T.args = List.ofFn front ++ [T.last] := by
  have hlen : T.args.length = h.seps + 1 := by
    rw [T.count, Command.argc, hc]
  obtain ⟨front, last, hargs⟩ := exists_ofFn_concat T.args h.seps hlen
  have hlast : T.last = last := by
    rw [CommandLine.last, hargs, List.getLastD_concat]
  exact ⟨front, by rw [hlast, hargs]⟩

theorem Spacing.zero_notMem_ending (a : Spacing T) : (0 : Byte) ∉ a.ending := by
  have hnewline : (0 : Byte) ≠ Cmd.newline := by decide
  rw [Spacing.ending]
  split
  · simp only [List.mem_append, List.mem_singleton, zero_notMem_blanks, hnewline, or_self,
      not_false_eq_true]
  · exact zero_notMem_blanks _

/-- **What a tidy line performs.**  The values of all arguments but the last are those of
    the command line, whatever its spelling. -/
theorem interpret_tidy {length : Nat} {h : Handler} (hc : T.cmd.action = .parse length h)
    {front : Fin h.seps → Str} (hargs : T.args = List.ofFn front ++ [T.last]) (a : Spelling T)
    (ha : a.Tidy) :
    interpret a.line
      = some (T.cmd, h.operation (fun i => str2hex (T.cmd.field i (front i))) a.lastValue) := by
  have htoken (i : Fin h.seps) : IsToken (front i) := by
    refine T.tokens _ ?_
    rw [hargs]
    exact List.mem_append_left _ (List.mem_ofFn.mpr ⟨i, rfl⟩)
  have hlast : IsToken T.last := T.tokens _ (by rw [hargs]; simp)
  have hfield (i : Fin h.seps) : blank ∉ T.cmd.field i (front i) :=
    fun hb => (htoken i).word.2.1 (Command.mem_of_mem_field hb)
  obtain ⟨after, hinterpret⟩ := a.interpret_eq
  have hleft : a.left.tail = (List.ofFn front ++ [T.last]).map fun t => (1, t) := by
    rw [a.tidy_iff_left.mp ha, CommandLine.normal, List.tail_cons, hargs]
  have hzero : (0 : Byte) ∉ T.last ++ a.ending := by
    rw [List.mem_append, not_or]
    exact ⟨hlast.word.2.2, a.zero_notMem_ending⟩
  have hne : T.last ++ a.ending ≠ [] := List.append_ne_nil_of_left_ne_nil hlast.1 _
  -- behind the command word the buffer holds the arguments with single blanks
  have hbuf : render a.left.tail ++ (a.ending ++ 0 :: after)
      = blank :: join (List.ofFn front) (T.last ++ a.ending) ++ 0 :: after := by
    rw [hleft, ← List.append_assoc, render_single]
  rw [hinterpret, hc, Action.perform, hbuf, T.cmd.argString hc front htoken _ _ hzero, ok_bind,
    h.run_join _ _ hfield hne, a.toSpacing.lastValue_eq]

/-! ### Two spellings -/

/-- **Spelling and meaning.**  Two lines of the same tokens reach the same handler, with the
    same operation and values, when they are regular; and two tidy lines that do so are
    regular. -/
theorem sameCommand_regular (a b : Spelling T) :
    (Regular a b → SameCommand a b) ∧ (a.Tidy → b.Tidy → SameCommand a b → Regular a b) := by
  cases hc : T.cmd.action with
  | run op =>
    have hargc : T.cmd.argc = 0 := by rw [Command.argc, hc]
    obtain ⟨op, hop⟩ := interpret_no_args hargc
    refine ⟨fun _ => ?_, fun _ _ _ => Or.inl hargc⟩
    rw [SameCommand, hop a, hop b]
    exact ⟨rfl, rfl⟩
  | parse length h =>
    obtain ⟨front, hargs⟩ := T.exists_front hc
    have hargc : T.cmd.argc ≠ 0 := by
      rw [Command.argc, hc]
      exact Nat.succ_ne_zero _
    have hiff (ha : a.Tidy) (hb : b.Tidy) :
        SameCommand a b ↔ T.cmd.passes a.lastValue = T.cmd.passes b.lastValue := by
      rw [SameCommand, interpret_tidy hc hargs a ha, interpret_tidy hc hargs b hb,
        ← Command.operation_eq_iff hc fun i => str2hex (T.cmd.field i (front i))]
      simp
    constructor
    · rintro (h0 | ⟨ha, hb, hpass⟩)
      · exact absurd h0 hargc
      · exact (hiff ha hb).mpr hpass
    · intro ha hb hsame
      exact Or.inr ⟨ha, hb, (hiff ha hb).mp hsame⟩

/-- The command line `doorbell 1 2`. -/
def doorbellOneTwo : CommandLine where
  cmd := .doorbell
  args := [bytes "1", bytes "2"]
  count := rfl
  tokens := by decide

/-- `doorbell 1 2` and a newline. -/
def echoed : Spelling doorbellOneTwo where
  lead := 0
  gaps := [0, 0]
  trail := 0
  newline := true
  gaps_length := rfl
  fits := by decide

/-- The same without the newline. -/
def bare : Spelling doorbellOneTwo where
  lead := 0
  gaps := [0, 0]
  trail := 0
  newline := false
  gaps_length := rfl
  fits := by decide

/-- The same with nine blanks in front: the scan stops jumping right behind the command word
    and deletes the blank there. -/
def indented : Spelling doorbellOneTwo where
  lead := 9
  gaps := [0, 0]
  trail := 0
  newline := true
  gaps_length := rfl
  fits := by decide

/-- Without its newline the line rings with data 0, and indented by nine blanks it rings at
    device 0. -/
theorem not_sameCommand_doorbell :
    interpret echoed.line = some (.doorbell, .fslRioDoorbellSend 1 2)
      ∧ ¬SameCommand echoed bare ∧ ¬SameCommand echoed indented := by
  refine ⟨?_, fun h => absurd h.1 ?_, fun h => absurd h.1 ?_⟩ <;> decide +kernel

end Vpx3.Cmd
