import Vpx3.Cmd.WanWrite

namespace Vpx3.Cmd

open Vpx3.CStr

/-!
# Commands — one sequence of tokens, written in many ways

* `CommandLine` — a command word and all the arguments it takes;
* `Spelling` — a way to write it: blanks before, between and after the tokens, and a final
  newline or none, in fewer than 100 bytes;
* `Spelling.Tidy` — the compressor leaves one blank before every argument, which depends on
  the lengths of gaps and tokens alone;
* `Spelling.buffer` — the buffer behind the formatting;
* `tidy_iff` — on lines that are not tidy it does not hold the tokens;
* `Command.argString` — what the handler gets on a tidy line.
-/

def newline : Byte := 0x0a

/-! ### Command lines -/

/-- What a token is made of. -/
def IsToken (t : Str) : Prop := t ≠ [] ∧ ∀ c ∈ t, c ≠ blank ∧ c ≠ newline ∧ c ≠ 0

instance (t : Str) : Decidable (IsToken t) :=
  inferInstanceAs (Decidable (t ≠ [] ∧ ∀ c ∈ t, c ≠ blank ∧ c ≠ newline ∧ c ≠ 0))

/-- How many arguments a command takes. -/
def Command.argc (c : Command) : Nat :=
  match c.action with
  | .run _ => 0
  | .parse _ handler => handler.seps + 1

/-- A command word followed by all the arguments it takes. -/
structure CommandLine where
  cmd : Command
  args : List Str
  count : args.length = cmd.argc
  tokens : ∀ t ∈ args, IsToken t

/-- The tokens with single blanks. -/
def CommandLine.normal (T : CommandLine) : List Spaced :=
  (0, T.cmd.word) :: T.args.map fun t => (1, t)

/-- The last argument. -/
def CommandLine.last (T : CommandLine) : Str := T.args.getLastD []

/-- Blanks around the tokens of a command line. -/
structure Spacing (T : CommandLine) where
  lead : Nat
  /-- The blanks before each argument beyond the one there must be. -/
  gaps : List Nat
  trail : Nat
  newline : Bool
  gaps_length : gaps.length = T.args.length

variable {T : CommandLine}

namespace Spacing

/-- The tokens with the blanks before them. -/
def words (a : Spacing T) : List Spaced :=
  (a.lead, T.cmd.word) :: (a.gaps.map (· + 1)).zip T.args

/-- The newline, if there is one. -/
def eol (a : Spacing T) : Str := if a.newline then [Cmd.newline] else []

/-- The line. -/
def line (a : Spacing T) : Str := render a.words ++ (blanks a.trail ++ a.eol)

/-- The blanks the compressor leaves before each word. -/
def left (a : Spacing T) : List Spaced := thin (.inside 0) a.words

/-- The blanks the compressor leaves behind the last word. -/
def trailing (a : Spacing T) : Nat := (Scan.words (.inside 0) a.words).kept a.trail

/-- What stands behind the last word after the strip. -/
def ending (a : Spacing T) : Str :=
  if a.newline then blanks a.trailing ++ [Cmd.newline] else blanks (a.trailing - 1)

/-- One blank is left before every argument. -/
def Tidy (a : Spacing T) : Prop := ∀ w ∈ a.left.tail, w.1 = 1

instance (a : Spacing T) : Decidable a.Tidy := by unfold Tidy; infer_instance

/-- The value of the last argument with the final character cut off: behind a newline the
    blanks left count as digits 0; without one a digit or a blank is lost. -/
def lastValue (a : Spacing T) : Word :=
  if a.newline then str2hex T.last <<< (4 * a.trailing)
  else if a.trailing ≤ 1 then str2hex T.last.dropLast
  else str2hex T.last <<< (4 * (a.trailing - 2))

end Spacing

/-- A line of fewer than 100 bytes. -/
structure Spelling (T : CommandLine) extends Spacing T where
  fits : toSpacing.line.length < 100

/-! ### The buffer of a line -/

/-- A token is a word, and holds no NUL. -/
theorem IsToken.word {t : Str} (h : IsToken t) : t ≠ [] ∧ blank ∉ t ∧ (0 : Byte) ∉ t :=
  ⟨h.1, fun hb => (h.2 blank hb).1 rfl, fun h0 => (h.2 0 h0).2.2 rfl⟩

/-- The words of a line: the command word and the arguments. -/
theorem Spacing.words_snd (a : Spacing T) : a.words.map Prod.snd = T.cmd.word :: T.args := by
  have hlen : T.args.length ≤ (a.gaps.map (· + 1)).length := by
    rw [List.length_map, a.gaps_length]
  rw [Spacing.words, List.map_cons, List.map_snd_zip hlen]

/-- Command words and arguments are words without NUL. -/
theorem CommandLine.word_ok (T : CommandLine) (t : Str) (ht : t ∈ T.cmd.word :: T.args) :
    t ≠ [] ∧ blank ∉ t ∧ (0 : Byte) ∉ t := by
  rcases List.mem_cons.mp ht with rfl | ht
  · exact T.cmd.word_ok
  · exact (T.tokens t ht).word

theorem Spacing.areWords (a : Spacing T) : AreWords a.words := by
  intro w hw
  have hmem : w.2 ∈ T.cmd.word :: T.args := by
    rw [← a.words_snd]
    exact List.mem_map_of_mem hw
  exact ⟨(T.word_ok _ hmem).1, (T.word_ok _ hmem).2.1⟩

theorem Spacing.zero_notMem_line (a : Spacing T) : 0 ∉ a.line := by
  have hwords : 0 ∉ render a.words := by
    refine zero_notMem_render _ fun w hw => ?_
    have hmem : w.2 ∈ T.cmd.word :: T.args := by
      rw [← a.words_snd]
      exact List.mem_map_of_mem hw
    exact (T.word_ok _ hmem).2.2
  have heol : 0 ∉ a.eol := by
    rw [Spacing.eol]
    split <;> decide
  simp only [Spacing.line, List.mem_append, hwords, zero_notMem_blanks, heol, or_self,
    not_false_eq_true]

/-- The string `format_space` leaves of a line. -/
theorem Spacing.strip_compress (a : Spacing T) :
    strip (compress (.inside 0) a.line) = render a.left ++ a.ending := by
  have heol : blank ∉ a.eol := by
    rw [Spacing.eol]
    split <;> decide
  rw [Spacing.line, compress_render _ _ _ a.areWords, compress_end _ _ _ heol, ← Spacing.left,
    ← Spacing.trailing, Spacing.ending, Spacing.eol]
  cases a.newline with
  | true =>
    -- the last character is the newline: nothing is stripped
    rw [if_pos rfl, if_pos rfl, ← List.append_assoc, strip_concat _ _ (by decide)]
  | false =>
    -- of the blanks behind the last word the strip takes one
    rw [if_neg (by decide), if_neg (by decide), List.append_nil]
    exact strip_render a.left a.trailing (by simp [Spacing.left, Spacing.words, thin])
      (a.areWords.thin _)

/-- What is left of a line starts with its command word. -/
theorem Spacing.left_eq (a : Spacing T) : a.left = (0, T.cmd.word) :: a.left.tail := by
  rw [Spacing.left, Spacing.words, thin, List.tail_cons, Scan.kept, Nat.zero_min]

/-- **The buffer of a line** when the handler is looked for. -/
theorem Spelling.buffer (a : Spelling T) :
    ∃ after, (copyIn a.line >>= formatSpace)
      = .ok (render a.left ++ (a.ending ++ 0 :: after)) := by
  have hfits := a.fits
  obtain ⟨k, hk⟩ : ∃ k, 100 - a.line.length = k + 1 := ⟨99 - a.line.length, by omega⟩
  have hcopy : copyIn a.line = .ok (a.line ++ 0 :: List.replicate k 0) := by
    rw [copyIn, if_pos (by omega), hk, List.replicate_succ]
  have hstrip := a.strip_compress
  -- the command word is left, whatever the blanks
  have hne : compress (.inside 0) a.line ≠ [] := by
    intro h
    obtain ⟨c, u, hword⟩ := List.exists_cons_of_ne_nil T.cmd.word_ok.1
    rw [h, a.left_eq, render_cons, hword] at hstrip
    simp [strip, blanks] at hstrip
  obtain ⟨after, hformat, -⟩ := formatSpace_eq a.line (List.replicate k 0) a.zero_notMem_line hne
  refine ⟨after, ?_⟩
  rw [hcopy, ok_bind, hformat, hstrip, List.append_assoc]

/-! ### Tidy lines -/

theorem Spacing.left_tail_snd (a : Spacing T) : a.left.tail.map Prod.snd = T.args := by
  have h := thin_map_snd (.inside 0) a.words
  rw [← Spacing.left, a.words_snd, a.left_eq, List.map_cons, List.cons.injEq] at h
  exact h.2

/-- What is left of a tidy line is the normal line. -/
theorem Spacing.tidy_iff_left (a : Spacing T) : a.Tidy ↔ a.left = T.normal := by
  have hnormal : T.normal = single (a.words.map Prod.snd) := by rw [a.words_snd]; rfl
  rw [hnormal]
  exact (thin_eq_single_iff a.words).symm

/-- **Tidiness is exact**: a line is tidy if and only if the buffer starts, after
    `format_space`, with its tokens and single blanks between them. -/
theorem tidy_iff (a : Spelling T) :
    a.Tidy ↔ ∃ buf, (copyIn a.line >>= formatSpace) = .ok buf ∧ render T.normal <+: buf := by
  obtain ⟨after, hbuf⟩ := a.buffer
  have hleft : AreWords a.left := a.areWords.thin _
  have hsnd : a.left.map Prod.snd = T.normal.map Prod.snd := by
    rw [a.left_eq, List.map_cons, a.left_tail_snd, CommandLine.normal, List.map_cons,
      List.map_map]
    exact congrArg _ (List.map_id _).symm
  rw [a.tidy_iff_left]
  constructor
  · intro h
    exact ⟨_, hbuf, by rw [h]; exact List.prefix_append _ _⟩
  -- the same words with other gaps give another text
  · rintro ⟨buf, hbuf', rest, hrest⟩
    rw [hbuf] at hbuf'
    obtain rfl := Except.ok.inj hbuf'
    exact (render_inj hleft hsnd hrest.symm).1

/-! ### The handler's view of a line -/

/-- The run of `wan_write` behind the formatting. -/
theorem interpret_of_buffer {line : Str} {c : Command} {rest : List Byte}
    (h : (copyIn line >>= formatSpace) = .ok (c.word ++ rest)) :
    interpret line = match c.action.perform (c.word ++ rest) with
      | .ok out => some (c, out.operation)
      | .error _ => none := by
  cases hcopy : copyIn line with
  | error e =>
    rw [hcopy] at h
    nomatch h
  | ok buf =>
    rw [hcopy, ok_bind] at h
    have hne : ¬(true = false) := by decide
    simp only [interpret, wanWrite, hcopy, ok_bind, if_neg hne, h, dispatch_word]
    cases c.action.perform (c.word ++ rest) <;> rfl

/-- What `wan_write` performs on a spelling. -/
theorem Spelling.interpret_eq (a : Spelling T) :
    ∃ after, interpret a.line
      = match T.cmd.action.perform
            (T.cmd.word ++ (render a.left.tail ++ (a.ending ++ 0 :: after))) with
        | .ok out => some (T.cmd, out.operation)
        | .error _ => none := by
  obtain ⟨after, hbuf⟩ := a.buffer
  refine ⟨after, interpret_of_buffer ?_⟩
  rw [hbuf, a.left_eq, render_cons, List.tail_cons]
  simp only [blanks, List.replicate_zero, List.nil_append, List.append_assoc]

/-- The arguments behind the command word, each behind one blank. -/
theorem render_single (front : List Str) (last e : Str) :
    render ((front ++ [last]).map fun t => (1, t)) ++ e = blank :: join front (last ++ e) := by
  induction front with
  | nil =>
    rw [List.nil_append, List.map_singleton, render_cons, join]
    simp [blanks, render]
  | cons t front ih =>
    rw [List.cons_append, List.map_cons, render_cons, join_cons, List.append_assoc,
      List.append_assoc, ih]
    rfl

/-- No NUL in joined tokens. -/
theorem zero_notMem_join (front : List Str) (rest : Str) (hfront : ∀ t ∈ front, (0 : Byte) ∉ t)
    (hrest : (0 : Byte) ∉ rest) : 0 ∉ join front rest := by
  intro h
  rcases List.mem_append.mp h with h | h
  · obtain ⟨t, ht, h⟩ := List.mem_flatMap.mp h
    rcases List.mem_append.mp h with h | h
    · exact hfront t ht h
    · exact absurd (List.mem_singleton.mp h) (by decide)
  · exact hrest h

/-- The `i`-th argument as the handler sees it: the offset of `*` is that of `dm`, and its
    first argument loses its first character. -/
def Command.field (c : Command) (i : Nat) (t : Str) : Str :=
  if c = .star ∧ i = 0 then t.tail else t

theorem Command.field_of_ne (c : Command) (hstar : c ≠ .star) (i : Nat) (t : Str) :
    c.field i t = t := by
  rw [Command.field, if_neg fun h => hstar h.1]

/-- What is left of a token has the characters of the token. -/
theorem Command.mem_of_mem_field {c : Command} {i : Nat} {t : Str} {x : Byte}
    (h : x ∈ c.field i t) : x ∈ t := by
  rw [Command.field] at h
  split at h
  · exact List.mem_of_mem_tail h
  · exact h

/-- The argument string of `*`. -/
theorem star_argString (front : Fin 2 → Str) (hfront : ∀ i, IsToken (front i)) (rest after : Str)
    (hrest : (0 : Byte) ∉ rest) :
    cstr (Command.star.word ++ (blank :: join (List.ofFn front) rest ++ 0 :: after)) (sizeof "dm")
      = .ok (join (List.ofFn fun i => Command.star.field i (front i)) rest) := by
  obtain ⟨c, u, hu⟩ := List.exists_cons_of_ne_nil (hfront 0).1
  -- two characters and a NUL: the slice starts behind the blank and one more character
  have hlength : sizeof "dm" = (Command.star.word ++ [blank, c]).length := by
    have hsize : sizeof "dm" = 3 := by decide
    have hword : Command.star.word.length = 1 := by decide
    rw [hsize, List.length_append, hword]
    rfl
  have hfields : (List.ofFn fun i => Command.star.field i (front i))
      = u :: List.ofFn (fun i => front i.succ) := by
    rw [List.ofFn_succ, Command.field, if_pos ⟨rfl, rfl⟩, hu]
    rfl
  have hzero : 0 ∉ join (u :: List.ofFn fun i => front i.succ) rest := by
    refine zero_notMem_join _ rest (fun t ht h0 => ?_) hrest
    rw [← hfields] at ht
    obtain ⟨i, rfl⟩ := List.mem_ofFn.mp ht
    exact (hfront i).word.2.2 (Command.mem_of_mem_field h0)
  have h := cstr_append (Command.star.word ++ [blank, c]) _ after _ hlength hzero
  rw [hfields, ← h, List.ofFn_succ, hu, join_cons, join_cons]
  simp only [List.append_assoc, List.cons_append, List.nil_append]

/-- The string a handler gets on a line with single blanks.  All commands take it behind
    their word and the blank, but `*` takes it one character further. -/
theorem Command.argString (c : Command) {length : Nat} {h : Handler}
    (hc : c.action = .parse length h) (front : Fin h.seps → Str)
    (hfront : ∀ i, IsToken (front i)) (rest after : Str) (hrest : (0 : Byte) ∉ rest) :
    cstr (c.word ++ (blank :: join (List.ofFn front) rest ++ 0 :: after)) length
      = .ok (join (List.ofFn fun i => c.field i (front i)) rest) := by
  by_cases hstar : c = .star
  · subst hstar
    simp only [Command.action, Action.parse.injEq] at hc
    obtain ⟨rfl, rfl⟩ := hc
    exact star_argString front hfront rest after hrest
  · have hlength : length = (c.word ++ [blank]).length := by
      rw [c.length_of_ne_star hc hstar, List.length_append, List.length_singleton]
    have hzero (t : Str) (ht : t ∈ List.ofFn front) : (0 : Byte) ∉ t := by
      obtain ⟨i, rfl⟩ := List.mem_ofFn.mp ht
      exact (hfront i).word.2.2
    have h := cstr_append (c.word ++ [blank]) (join (List.ofFn front) rest) after length hlength
      (zero_notMem_join _ rest hzero hrest)
    simp only [c.field_of_ne hstar]
    rwa [List.append_assoc, List.singleton_append] at h

end Vpx3.Cmd
