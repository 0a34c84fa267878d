import Vpx3.Lib.CStr

namespace Vpx3.Cmd

open Vpx3.CStr

/-!
# Commands — `format_space`, the compressor of blanks

The loop walks over the string and deletes, in place, the blanks that follow a blank.  It
deletes a run by moving the rest of the string over it, but leaves the scan pointer where
the run ended, so the scan jumps over as many characters of the rest as it deleted blanks
but one.

* `skipBlanks`, `shiftTail`, `formatLoop`, `formatSpace` — the function, byte by byte;
* `Scan`, `compress` — the same walk over the string alone, one character at a time;
* `formatLoop_eq` — the loop ends, stays in the string, and leaves `compress` of it;
* `formatSpace_leaves`, `formatSpace_of_nil` — with the blank stripped off the end, which on
  an empty result is looked for in front of the string.
-/

/-! ### The function -/

/-- Where the scan stands: `IN` a gap, or `OUT` of one. -/
inductive Status where
  | IN
  | OUT
deriving DecidableEq, Repr

/-- `while (' ' == *(str+1)) str++`: the last blank of a run. -/
def skipBlanks : Nat → List Byte → Nat → Except Fault Nat
  | 0, _, _ => .error .fuel
  | fuel + 1, mem, str => do
    let next ← load mem (str + 1)
    if next = blank then skipBlanks fuel mem (str + 1) else return str

/-- `while (str[i+1] != 0) { pos[i] = str[i+1]; i++; }`, then `pos[i] = 0`; the two pointers
    here are `pos + i` and `str + i`. -/
def shiftTail : Nat → List Byte → Nat → Nat → Except Fault (List Byte)
  | 0, _, _, _ => .error .fuel
  | fuel + 1, mem, pos, str => do
    let next ← load mem (str + 1)
    if next ≠ 0 then
      let mem ← store mem pos next
      shiftTail fuel mem (pos + 1) (str + 1)
    else store mem pos 0

/-- The scanning loop. -/
def formatLoop : Nat → List Byte → Nat → Status → Except Fault (List Byte)
  | 0, _, _, _ => .error .fuel
  | fuel + 1, mem, str, status => do
    let c ← load mem str
    if c = 0 then return mem
    else if c = blank then
      match status with
      | .IN =>
        let mem ← store mem str 0
        let last ← skipBlanks mem.length mem str
        let mem ← shiftTail mem.length mem str last
        -- the scan goes on at the last blank's place, which now holds a later character
        formatLoop fuel mem last .IN
      | .OUT => formatLoop fuel mem (str + 1) .IN
    else formatLoop fuel mem (str + 1) .OUT

/-- `format_space` on the string at offset 0. -/
def formatSpace (mem : List Byte) : Except Fault (List Byte) := do
  let mem ← formatLoop mem.length mem 0 .IN
  let len ← strlen mem 0
  -- `src[strlen(src)-1]` of an empty string lies in front of it
  if len = 0 then .error .range
  else do
    let c ← load mem (len - 1)
    store mem (len - 1) (if c = blank then 0 else c)

/-! ### The walk over the string alone -/

/-- What the scan does with the next character. -/
inductive Scan where
  /-- Reads it, behind a character that is no blank. -/
  | outside
  /-- Jumps over this many characters, then reads on as behind a blank. -/
  | inside (n : Nat)
  /-- Is deleting a run, this many blanks behind its first. -/
  | deleting (e : Nat)
deriving DecidableEq, Repr

/-- The state of the walk at a status of the loop. -/
def Status.scan : Status → Scan
  | .IN => .inside 0
  | .OUT => .outside

/-- What the loop leaves of a string. -/
def compress : Scan → Str → Str
  | _, [] => []
  | .outside, c :: s =>
    if c = blank then c :: compress (.inside 0) s else c :: compress .outside s
  | .inside 0, c :: s =>
    if c = blank then compress (.deleting 0) s else c :: compress .outside s
  | .inside (n + 1), c :: s => c :: compress (.inside n) s
  | .deleting e, c :: s =>
    if c = blank then compress (.deleting (e + 1)) s
    else match e with
      | 0 => c :: compress .outside s
      | n + 1 => c :: compress (.inside n) s

@[simp] theorem compress_nil (st : Scan) : compress st [] = [] := by
  cases st <;> simp [compress]

/-- The walk after a character that is no blank. -/
theorem compress_status_cons (status : Status) (c : Byte) (s : Str) (hc : c ≠ blank) :
    compress status.scan (c :: s) = c :: compress .outside s := by
  cases status <;> rw [Status.scan, compress, if_neg hc]

/-- A rest that does not start with a blank. -/
def NoBlankHead (s : Str) : Prop := ∀ c ∈ s.head?, c ≠ blank

/-- A run that ends here goes over into the jump. -/
theorem compress_deleting_end (e : Nat) (s : Str) (hs : NoBlankHead s) :
    compress (.deleting e) s = compress (.inside e) s := by
  cases s with
  | nil => rw [compress_nil, compress_nil]
  | cons c s =>
    have hc : c ≠ blank := hs c rfl
    cases e with
    | zero => simp only [compress, if_neg hc]
    | succ n => simp only [compress, if_neg hc]

/-- One blank more of the run. -/
theorem compress_deleting_blank (e : Nat) (s : Str) :
    compress (.deleting e) (blank :: s) = compress (.deleting (e + 1)) s := by
  simp only [compress, if_true]

/-- A run of blanks is deleted. -/
theorem compress_deleting (e k : Nat) (s : Str) (hs : NoBlankHead s) :
    compress (.deleting e) (List.replicate k blank ++ s) = compress (.inside (e + k)) s := by
  induction k generalizing e with
  | zero => exact compress_deleting_end e s hs
  | succ k ih =>
    rw [List.replicate_succ, List.cons_append, compress_deleting_blank, ih]
    congr 2
    omega

/-- A run met inside a gap: the jump is one shorter than the run. -/
theorem compress_inside_run (e : Nat) (s : Str) (hs : NoBlankHead s) :
    compress (.inside 0) (blank :: (List.replicate e blank ++ s)) = compress (.inside e) s := by
  rw [compress, if_pos rfl, compress_deleting 0 e s hs, Nat.zero_add]

/-- A jump that ends in the string. -/
theorem compress_inside_le (n : Nat) (s : Str) (h : n ≤ s.length) :
    compress (.inside n) s = s.take n ++ compress (.inside 0) (s.drop n) := by
  induction s generalizing n with
  | nil =>
    rw [Nat.le_zero.mp h]
    rfl
  | cons c s ih =>
    cases n with
    | zero => rfl
    | succ n => rw [compress, List.take_succ_cons, List.drop_succ_cons, List.cons_append,
        ih n (Nat.le_of_succ_le_succ h)]

/-- A jump over the end of the string leaves it as it is. -/
theorem compress_inside_ge (n : Nat) (s : Str) (h : s.length ≤ n) :
    compress (.inside n) s = s := by
  induction s generalizing n with
  | nil => rw [compress_nil]
  | cons c s ih =>
    cases n with
    | zero => exact absurd h (Nat.not_succ_le_zero _)
    | succ n => rw [compress, ih n (Nat.le_of_succ_le_succ h)]

/-- The walk adds no NUL. -/
theorem zero_notMem_compress (st : Scan) (s : Str) (hs : 0 ∉ s) : 0 ∉ compress st s := by
  fun_induction compress st s with
  | case1 => exact List.not_mem_nil
  | case4 s ih | case7 e s ih => exact ih (fun h => hs (List.mem_cons_of_mem _ h))
  | _ => simp_all [List.mem_cons]

/-- Every string is a run of blanks and a rest that starts with none. -/
theorem exists_run (s : Str) :
    ∃ e rest, s = List.replicate e blank ++ rest ∧ NoBlankHead rest := by
  induction s with
  | nil => exact ⟨0, [], rfl, by simp [NoBlankHead]⟩
  | cons c s ih =>
    by_cases hc : c = blank
    · obtain ⟨e, rest, hs, hrest⟩ := ih
      refine ⟨e + 1, rest, ?_, hrest⟩
      rw [hc, hs, List.replicate_succ, List.cons_append]
    · refine ⟨0, c :: s, rfl, ?_⟩
      intro d hd
      rw [List.head?_cons, Option.mem_some_iff] at hd
      exact hd ▸ hc

/-! ### The loops -/

/-- The run's last blank is found, whatever stands at the scan position itself. -/
theorem skipBlanks_eq (e fuel : Nat) (pre rest : List Byte) (x c : Byte) (str : Nat)
    (hstr : str = pre.length) (hc : c ≠ blank) (hfuel : e < fuel) :
    skipBlanks fuel (pre ++ x :: (List.replicate e blank ++ c :: rest)) str
      = .ok (str + e) := by
  induction e generalizing fuel pre x str with
  | zero =>
    obtain ⟨fuel, rfl⟩ := Nat.exists_eq_add_one.mpr (Nat.zero_lt_of_lt hfuel)
    have hload : load ((pre ++ [x]) ++ c :: rest) (str + 1) = .ok c :=
      load_append _ _ _ _ (by simp [hstr])
    rw [List.append_assoc] at hload
    rw [List.replicate_zero, List.nil_append, skipBlanks]
    simp only [List.singleton_append] at hload
    rw [hload, ok_bind, if_neg hc]
    rfl
  | succ e ih =>
    obtain ⟨fuel, rfl⟩ := Nat.exists_eq_add_one.mpr (Nat.zero_lt_of_lt hfuel)
    have hmem : pre ++ x :: (List.replicate (e + 1) blank ++ c :: rest)
        = (pre ++ [x]) ++ blank :: (List.replicate e blank ++ c :: rest) := by
      simp [List.replicate_succ]
    have hlen : str + 1 = (pre ++ [x]).length := by simp [hstr]
    rw [hmem, skipBlanks, load_append _ _ _ _ hlen, ok_bind, if_pos rfl,
      ih fuel (pre ++ [x]) blank (str + 1) hlen (by omega)]
    congr 1
    omega

/-- Moving `rest` over the bytes `gap` in front of it.  What the string no longer covers
    keeps the last bytes of `gap ++ rest`. -/
theorem shiftTail_eq (rest : Str) (fuel : Nat) (pre gap post : List Byte) (pos str : Nat)
    (hpos : pos = pre.length) (hstr : str + 1 = pre.length + gap.length) (hgap : gap ≠ [])
    (hrest : 0 ∉ rest) (hfuel : rest.length < fuel) :
    shiftTail fuel (pre ++ (gap ++ (rest ++ 0 :: post))) pos str
      = .ok (pre ++ (rest ++ 0 :: ((gap ++ rest).drop (rest.length + 1) ++ 0 :: post))) := by
  obtain ⟨g, gap, rfl⟩ : ∃ g gap', gap = g :: gap' := List.exists_cons_of_ne_nil hgap
  induction rest generalizing fuel pre g gap pos str with
  | nil =>
    obtain ⟨fuel, rfl⟩ := Nat.exists_eq_add_one.mpr (Nat.zero_lt_of_lt hfuel)
    have hload : load ((pre ++ g :: gap) ++ 0 :: post) (str + 1) = .ok 0 :=
      load_append _ _ _ _ (by simp [hstr])
    rw [List.append_assoc] at hload
    rw [List.nil_append, shiftTail, hload, ok_bind, if_neg (by simp), List.cons_append,
      store_append _ _ _ _ _ hpos]
    simp
  | cons c rest ih =>
    obtain ⟨fuel, rfl⟩ := Nat.exists_eq_add_one.mpr (Nat.zero_lt_of_lt hfuel)
    have hc : c ≠ 0 := fun h => hrest (by simp [h])
    have hload : load ((pre ++ g :: gap) ++ c :: (rest ++ 0 :: post)) (str + 1) = .ok c :=
      load_append _ _ _ _ (by simp [hstr])
    simp only [List.append_assoc, List.cons_append] at hload ⊢
    -- the byte copied joins the part before `pos`, the byte it was read from the gap
    have hmem : pre ++ c :: (gap ++ c :: (rest ++ 0 :: post))
        = (pre ++ [c]) ++ ((gap ++ [c]) ++ (rest ++ 0 :: post)) := by simp
    obtain ⟨g', gap', hg⟩ : ∃ g' gap', gap ++ [c] = g' :: gap' :=
      List.exists_cons_of_ne_nil (by simp)
    have hlen : (g' :: gap').length = gap.length + 1 := by simp [← hg]
    have hpos' : pos + 1 = (pre ++ [c]).length := by simp [hpos]
    have hrest' : 0 ∉ rest := fun h => hrest (List.mem_cons_of_mem _ h)
    have hfuel' : rest.length < fuel := Nat.lt_of_succ_lt_succ hfuel
    have hstr' : str + 1 + 1 = (pre ++ [c]).length + (g' :: gap').length := by
      rw [hlen, List.length_append, List.length_singleton, hstr, List.length_cons]
      omega
    rw [shiftTail, hload, ok_bind, if_pos hc, store_append _ _ _ _ _ hpos, ok_bind, hmem, hg,
      ih fuel (pre ++ [c]) (pos + 1) (str + 1) hpos' hrest' hfuel' g' gap' hstr' (by simp),
      ← hg]
    simp

/-! ### The scan -/

/-- At the terminator the scan ends. -/
theorem formatLoop_end (fuel : Nat) (pre post : List Byte) (str : Nat) (status : Status)
    (hstr : str = pre.length) :
    formatLoop (fuel + 1) (pre ++ 0 :: post) str status = .ok (pre ++ 0 :: post) := by
  cases status <;> rw [formatLoop, load_append _ _ _ _ hstr, ok_bind, if_pos rfl] <;> rfl

/-- A character that is no blank is passed. -/
theorem formatLoop_char (fuel : Nat) (pre post : List Byte) (c : Byte) (str : Nat)
    (status : Status) (hstr : str = pre.length) (h0 : c ≠ 0) (hc : c ≠ blank) :
    formatLoop (fuel + 1) (pre ++ c :: post) str status
      = formatLoop fuel (pre ++ c :: post) (str + 1) .OUT := by
  cases status <;>
    rw [formatLoop, load_append _ _ _ _ hstr, ok_bind, if_neg h0, if_neg hc]

/-- The first blank behind a character is kept. -/
theorem formatLoop_blank (fuel : Nat) (pre post : List Byte) (str : Nat)
    (hstr : str = pre.length) :
    formatLoop (fuel + 1) (pre ++ blank :: post) str .OUT
      = formatLoop fuel (pre ++ blank :: post) (str + 1) .IN := by
  rw [formatLoop, load_append _ _ _ _ hstr, ok_bind, if_neg (by decide), if_pos rfl]

/-- A run met inside a gap: the rest is moved over it, and the scan goes on where the run
    had its last blank. -/
theorem formatLoop_run (fuel e : Nat) (pre rest post : List Byte) (str : Nat)
    (hstr : str = pre.length) (h0 : 0 ∉ rest) (hrest : NoBlankHead rest) :
    formatLoop (fuel + 1)
        (pre ++ blank :: (List.replicate e blank ++ (rest ++ 0 :: post))) str .IN
      = formatLoop fuel
          (pre ++ (rest ++ 0 ::
            ((List.replicate e blank ++ rest).drop rest.length ++ 0 :: post)))
          (str + e) .IN := by
  have hskip (fuel : Nat) (hfuel : e < fuel) :
      skipBlanks fuel (pre ++ 0 :: (List.replicate e blank ++ (rest ++ 0 :: post))) str
        = .ok (str + e) := by
    cases rest with
    | nil => exact skipBlanks_eq e fuel pre post 0 0 str hstr (by decide) hfuel
    | cons c rest =>
      exact skipBlanks_eq e fuel pre (rest ++ 0 :: post) 0 c str hstr (hrest c rfl) hfuel
  have hshift (fuel : Nat) (hfuel : rest.length < fuel) :
      shiftTail fuel (pre ++ 0 :: (List.replicate e blank ++ (rest ++ 0 :: post))) str (str + e)
        = .ok (pre ++ (rest ++ 0 ::
            ((List.replicate e blank ++ rest).drop rest.length ++ 0 :: post))) := by
    have h := shiftTail_eq rest fuel pre (0 :: List.replicate e blank) post str (str + e) hstr
      (by simp [hstr]; omega) (by simp) h0 hfuel
    rwa [List.cons_append, List.cons_append, List.drop_succ_cons] at h
  rw [formatLoop, load_append _ _ _ _ hstr, ok_bind, if_neg (by decide), if_pos rfl]
  simp only [store_append _ _ _ _ _ hstr, ok_bind]
  rw [hskip, ok_bind, hshift, ok_bind]
  · simp only [List.length_append, List.length_cons]
    omega
  · simp only [List.length_append, List.length_cons, List.length_replicate]
    omega

/-- What the loop leaves in the memory of a string `s`: the string `t`, then what the moves
    left behind it, which starts with the new terminator. -/
def Leaves (pre s t post : List Byte) (mem : Except Fault (List Byte)) : Prop :=
  ∃ stale, mem = .ok (pre ++ (t ++ (stale ++ 0 :: post))) ∧ t.length + stale.length = s.length
    ∧ ∀ b ∈ stale.head?, b = 0

/-- One character more in front. -/
theorem Leaves.cons {pre s t post : List Byte} {c : Byte} {mem : Except Fault (List Byte)}
    (h : Leaves (pre ++ [c]) s t post mem) : Leaves pre (c :: s) (c :: t) post mem := by
  obtain ⟨stale, hmem, hlen, hhead⟩ := h
  refine ⟨stale, ?_, ?_, hhead⟩
  · rw [hmem, List.append_assoc, List.singleton_append, List.cons_append]
  · rw [List.length_cons, List.length_cons]
    omega

/-- A run deleted whose jump ends inside the moved rest. -/
theorem Leaves.run_le {pre rest post : List Byte} {e : Nat} {mem : Except Fault (List Byte)}
    (he : e ≤ rest.length)
    (h : Leaves (pre ++ rest.take e) (rest.drop e) (compress (.inside 0) (rest.drop e))
      ((List.replicate e blank ++ rest).drop rest.length ++ 0 :: post) mem) :
    Leaves pre (blank :: (List.replicate e blank ++ rest)) (compress (.inside e) rest) post
      mem := by
  obtain ⟨stale, hmem, hlen, hhead⟩ := h
  refine ⟨stale ++ 0 :: (List.replicate e blank ++ rest).drop rest.length, ?_, ?_, ?_⟩
  · rw [hmem, compress_inside_le e rest he]
    simp only [List.append_assoc, List.cons_append]
  · rw [compress_inside_le e rest he]
    simp only [List.length_append, List.length_cons, List.length_drop, List.length_take,
      List.length_replicate] at hlen ⊢
    omega
  · cases stale with
    | nil => simp
    | cons b stale => exact hhead

/-- A run deleted whose jump leads over the new terminator: the scan goes on in what the
    move left behind, and the string keeps its rest as it is. -/
theorem Leaves.run_gt {pre rest post : List Byte} {k : Nat} {t : Str}
    {mem : Except Fault (List Byte)}
    (h : Leaves (pre ++ (rest ++ 0 :: List.replicate k blank)) (blank :: rest) t post mem) :
    Leaves pre (blank :: (List.replicate (rest.length + (k + 1)) blank ++ rest))
      (compress (.inside (rest.length + (k + 1))) rest) post mem := by
  obtain ⟨stale, hmem, hlen, -⟩ := h
  rw [compress_inside_ge _ _ (by omega)]
  refine ⟨0 :: (List.replicate k blank ++ (t ++ stale)), ?_, ?_, ?_⟩
  · rw [hmem]
    simp only [List.append_assoc, List.cons_append]
  · simp only [List.length_append, List.length_cons, List.length_replicate] at hlen ⊢
    omega
  · simp

/-- What stands behind the terminator after a long run was deleted: blanks of the run, and
    the rest where it stood before. -/
theorem drop_run (rest : Str) (k : Nat) :
    (List.replicate (rest.length + (k + 1)) blank ++ rest).drop rest.length
      = List.replicate k blank ++ blank :: rest := by
  rw [List.drop_append_of_le_length (by simp), List.drop_replicate,
    Nat.add_sub_cancel_left, List.replicate_succ', List.append_assoc, List.singleton_append]

/-- **The scanning loop of `format_space`**, from any position of a string: it ends, it
    writes nothing outside the string and its terminator, and it leaves `compress`. -/
theorem formatLoop_eq (fuel : Nat) (pre s post : List Byte) (str : Nat) (status : Status)
    (hstr : str = pre.length) (hs : 0 ∉ s) (hfuel : s.length < fuel) :
    Leaves pre s (compress status.scan s) post
      (formatLoop fuel (pre ++ (s ++ 0 :: post)) str status) := by
  induction fuel generalizing pre s post str status with
  | zero => exact absurd hfuel (Nat.not_lt_zero _)
  | succ fuel ih =>
    cases s with
    | nil =>
      refine ⟨[], ?_, by simp, by simp⟩
      rw [compress_nil]
      exact formatLoop_end fuel pre post str status hstr
    | cons c s =>
      have h0 : c ≠ 0 := fun h => hs (by simp [h])
      have hs' : 0 ∉ s := fun h => hs (List.mem_cons_of_mem _ h)
      have hlen : s.length < fuel := Nat.lt_of_succ_lt_succ hfuel
      -- the scan of the characters behind `c`
      have hnext (status : Status) :
          Leaves (pre ++ [c]) s (compress status.scan s) post
            (formatLoop fuel (pre ++ c :: (s ++ 0 :: post)) (str + 1) status) := by
        have h := ih (pre ++ [c]) s post (str + 1) status (by simp [hstr]) hs' hlen
        rwa [List.append_assoc] at h
      by_cases hc : c = blank
      · subst hc
        cases status with
        | OUT =>
          rw [List.cons_append, formatLoop_blank _ _ _ _ hstr]
          exact (hnext .IN).cons
        | IN =>
          obtain ⟨e, rest, rfl, hrest⟩ := exists_run s
          have h0rest : 0 ∉ rest := fun h => hs' (List.mem_append_right _ h)
          simp only [List.length_append, List.length_replicate] at hlen
          rw [Status.scan, compress_inside_run e rest hrest, List.cons_append,
            List.append_assoc, formatLoop_run fuel e pre rest post str hstr h0rest hrest]
          rcases Nat.lt_or_ge rest.length e with he | he
          · obtain ⟨k, rfl⟩ : ∃ k, e = rest.length + (k + 1) := ⟨e - rest.length - 1, by omega⟩
            have hblank : (0 : Byte) ≠ blank := by decide
            have h := ih (pre ++ (rest ++ 0 :: List.replicate k blank)) (blank :: rest) post
              (str + (rest.length + (k + 1))) .IN (by simp [hstr])
              (by simp only [List.mem_cons, hblank, h0rest, or_self, not_false_eq_true])
              (by simp only [List.length_cons]; omega)
            rw [drop_run]
            simp only [List.append_assoc, List.cons_append] at h ⊢
            exact Leaves.run_gt h
          · have h := ih (pre ++ rest.take e) (rest.drop e)
              ((List.replicate e blank ++ rest).drop rest.length ++ 0 :: post) (str + e) .IN
              (by simp [hstr, he]) (fun h => h0rest (List.mem_of_mem_drop h))
              (by simp only [List.length_drop]; omega)
            rw [List.append_assoc, ← List.append_assoc (rest.take e), List.take_append_drop] at h
            exact Leaves.run_le he h
      · rw [List.cons_append, formatLoop_char _ _ _ _ _ _ hstr h0 hc,
          compress_status_cons _ _ _ hc]
        exact (hnext .OUT).cons

/-! ### The whole function -/

/-- The last blank stripped off. -/
def strip (s : Str) : Str := if s.getLast? = some blank then s.dropLast else s

@[simp] theorem strip_concat_blank (s : Str) : strip (s ++ [blank]) = s := by
  rw [strip, List.getLast?_concat, if_pos rfl, List.dropLast_concat]

theorem strip_concat (s : Str) (c : Byte) (hc : c ≠ blank) : strip (s ++ [c]) = s ++ [c] := by
  rw [strip, List.getLast?_concat, if_neg (by simp [hc])]

theorem zero_notMem_strip (s : Str) (hs : 0 ∉ s) : 0 ∉ strip s := by
  rw [strip]
  split
  · exact fun h => hs (List.dropLast_subset s h)
  · exact hs

/-- Behind the string the loop leaves stands its terminator. -/
theorem Leaves.terminated {pre s t post : List Byte} {mem : Except Fault (List Byte)}
    (h : Leaves pre s t post mem) :
    ∃ after, mem = .ok (pre ++ (t ++ 0 :: after)) ∧ t.length + after.length
      = s.length + post.length := by
  obtain ⟨stale, hmem, hlen, hhead⟩ := h
  cases stale with
  | nil => exact ⟨post, hmem, by simp at hlen ⊢; omega⟩
  | cons b stale =>
    have hb : b = 0 := hhead b rfl
    refine ⟨stale ++ 0 :: post, ?_, ?_⟩
    · rw [hmem, hb, List.cons_append]
    · simp only [List.length_append, List.length_cons] at hlen ⊢
      omega

/-- The string at the front of the memory the loop leaves. -/
theorem strlen_append (t after : List Byte) (h0 : 0 ∉ t) :
    strlen (t ++ 0 :: after) 0 = .ok t.length := by
  have h : cstr ([] ++ (t ++ 0 :: after)) 0 = .ok t := cstr_append [] t after 0 rfl h0
  rw [List.nil_append] at h
  rw [strlen, h]
  rfl

/-- **`format_space` on a string that is not all blanks**: it leaves `compress` of the string
    with its last blank stripped off, and writes nothing outside the string. -/
theorem formatSpace_leaves (s post : List Byte) (hs : 0 ∉ s)
    (hne : compress (.inside 0) s ≠ []) :
    Leaves [] s (strip (compress (.inside 0) s)) post (formatSpace (s ++ 0 :: post)) := by
  have hfuel : s.length < (s ++ 0 :: post).length := by simp
  have hleaves := formatLoop_eq (s ++ 0 :: post).length [] s post 0 .IN rfl hs hfuel
  have h0 : 0 ∉ compress (.inside 0) s := zero_notMem_compress _ s hs
  rw [Status.scan] at hleaves
  generalize compress (.inside 0) s = t at hne hleaves h0 ⊢
  obtain ⟨after, hloop, -⟩ := hleaves.terminated
  obtain ⟨stale, hmem, hlen, hhead⟩ := hleaves
  rw [List.nil_append, List.nil_append] at hloop hmem
  have hstale : stale ++ 0 :: post = 0 :: after := by
    rw [hloop] at hmem
    exact (List.append_cancel_left (Except.ok.inj hmem)).symm
  obtain ⟨t, c, rfl⟩ : ∃ t' c, t = t' ++ [c] := ⟨_, _, (List.dropLast_concat_getLast hne).symm⟩
  have hlast : (t ++ [c]).length - 1 = t.length := by simp
  have hpos : (t ++ [c]).length ≠ 0 := by simp
  rw [formatSpace, hloop, ok_bind, strlen_append _ _ h0, ok_bind, if_neg hpos, hlast,
    List.append_assoc, List.singleton_append, load_append _ _ _ _ rfl, ok_bind,
    store_append _ _ _ _ _ rfl, ← hstale]
  by_cases hc : c = blank
  · subst hc
    rw [if_pos rfl, strip_concat_blank]
    refine ⟨0 :: stale, rfl, ?_, fun b hb => (Option.some.inj hb).symm⟩
    simp only [List.length_append, List.length_cons, List.length_nil] at hlen ⊢
    omega
  · rw [if_neg hc, strip_concat t c hc]
    refine ⟨stale, ?_, hlen, hhead⟩
    rw [List.nil_append, List.append_assoc, List.singleton_append]

/-- What is left of the string stands in front of its new terminator. -/
theorem formatSpace_eq (s post : List Byte) (hs : 0 ∉ s) (hne : compress (.inside 0) s ≠ []) :
    ∃ after, formatSpace (s ++ 0 :: post)
        = .ok (strip (compress (.inside 0) s) ++ 0 :: after)
      ∧ (strip (compress (.inside 0) s)).length + after.length = s.length + post.length :=
  (formatSpace_leaves s post hs hne).terminated

/-- On a string of blanks alone, and on an empty one, `format_space` reads the byte in front
    of it. -/
theorem formatSpace_of_nil (s post : List Byte) (hs : 0 ∉ s)
    (hnil : compress (.inside 0) s = []) : formatSpace (s ++ 0 :: post) = .error .range := by
  have hfuel : s.length < (s ++ 0 :: post).length := by simp
  have hleaves := formatLoop_eq (s ++ 0 :: post).length [] s post 0 .IN rfl hs hfuel
  rw [Status.scan, hnil] at hleaves
  obtain ⟨after, hloop, -⟩ := hleaves.terminated
  have hstrlen : strlen ([] ++ ([] ++ 0 :: after)) 0 = .ok 0 :=
    strlen_append [] after List.not_mem_nil
  rw [List.nil_append] at hloop
  rw [formatSpace, hloop, ok_bind, hstrlen, ok_bind, if_pos rfl]

end Vpx3.Cmd
