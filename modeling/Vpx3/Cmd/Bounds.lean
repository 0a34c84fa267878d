import Vpx3.Cmd.WanWrite
import Vpx3.Cmd.NormalForm

namespace Vpx3.Cmd

open Vpx3.CStr

/-!
# Commands — the accesses of `wan_write` to its buffer

* `StaysInside` — the copy, `format_space`, the comparisons and the argument slice find their
  bytes in the buffer;
* `Fits` — a condition on the bytes written;
* `staysInside_iff` — the one holds exactly when the other does.
-/

/-! ### What has to be found in the buffer -/

/-- The bytes of a line in the zeroed buffer. -/
def buffer (line : Str) : List Byte := line ++ List.replicate (100 - line.length) 0

/-- The string that `format_space` starts with. -/
def content (line : Str) : Str := line.takeWhile (· != 0)

/-- All accesses to the buffer succeed: the line is copied in and leaves a terminator,
    `format_space` runs to its end, the buffer is long enough for the comparisons, and the
    slice behind the command word is a string in the buffer. -/
def StaysInside (line : Str) : Prop :=
  ∃ buf, copyIn line = .ok buf ∧ 0 ∈ buf ∧
    ∃ buf', formatSpace buf = .ok buf' ∧ (∀ c : Command, c.word.length ≤ buf'.length) ∧
      ∀ c length h, dispatch buf' = some c → c.action = .parse length h →
        ∃ str, cstr buf' length = .ok str

/-- The condition on a line: at most 100 bytes; a NUL among them or behind them; a character
    other than a blank in front of it; and a NUL behind the place of a slice that starts
    behind the string. -/
structure Fits (line : Str) : Prop where
  count : line.length ≤ 100
  terminator : 0 ∈ buffer line
  text : ∃ c ∈ content line, c ≠ blank
  slice : ∀ (c : Command) (length : Nat) (h : Handler), c.action = .parse length h →
    (content line).length < length → c.word <+: (content line).filter (· ≠ blank) →
      0 ∈ (buffer line).drop length

/-! ### The characters the compressor keeps -/

/-- The compressor deletes nothing but blanks. -/
theorem filter_compress (st : Scan) (s : Str) :
    (compress st s).filter (· ≠ blank) = s.filter (· ≠ blank) := by
  fun_induction compress st s with
  | case1 => rfl
  | case2 | case3 | case5 | case6 | case8 | case9 => simp_all [List.filter_cons]
  | case4 | case7 => simp_all

theorem filter_strip (s : Str) : (strip s).filter (· ≠ blank) = s.filter (· ≠ blank) := by
  rcases List.eq_nil_or_concat s with rfl | ⟨t, c, rfl⟩
  · rfl
  · rw [List.concat_eq_append]
    by_cases hc : c = blank
    · rw [hc, strip_concat_blank, List.filter_append]
      simp
    · rw [strip_concat t c hc]

theorem compress_sublist (st : Scan) (s : Str) : (compress st s).Sublist s := by
  fun_induction compress st s with
  | case1 => exact List.Sublist.refl _
  | case4 s ih | case7 e s ih => exact ih.trans (List.sublist_cons_self _ _)
  | case2 _ ih | case3 _ _ _ ih | case5 _ _ _ ih | case6 _ _ _ ih | case8 _ _ _ ih
  | case9 _ _ _ _ ih => exact ih.cons_cons _

/-- The string `format_space` leaves. -/
def formatted (s : Str) : Str := strip (compress (.inside 0) s)

theorem filter_formatted (s : Str) : (formatted s).filter (· ≠ blank) = s.filter (· ≠ blank) := by
  rw [formatted, filter_strip, filter_compress]

/-- A string that holds a word holds more than blanks. -/
theorem spaced_ne_nil_iff (s : Str) : (spaced s).1 ≠ [] ↔ ∃ c ∈ s, c ≠ blank := by
  have hmem : (∃ c ∈ s, c ≠ blank) ↔ s.filter (· ≠ blank) ≠ [] := by
    simp [List.filter_eq_nil_iff]
  rw [hmem, ← filter_compress (.inside 0) s, not_iff_not, ← compress_eq_nil_iff]
  constructor
  · intro h
    rw [h]
    rfl
  · intro h
    by_contra hne
    -- the first character of the first word is left
    rw [compress_eq_nil_iff] at hne
    obtain ⟨w, ws, hws⟩ := List.exists_cons_of_ne_nil hne
    obtain ⟨hw, hblank⟩ := (spaced_ok s).1 w (by rw [hws]; exact List.mem_cons_self)
    obtain ⟨c, u, hcu⟩ := List.exists_cons_of_ne_nil hw
    rw [compress_eq, hws, thin, render_cons, hcu] at h
    have hc : c ≠ blank := fun hc => hblank (by rw [hcu, hc]; exact List.mem_cons_self)
    simp [hc] at h

theorem formatted_sublist (s : Str) : (formatted s).Sublist s := by
  refine List.Sublist.trans ?_ (compress_sublist (.inside 0) s)
  rw [formatted, strip]
  split
  · exact List.dropLast_sublist _
  · exact List.Sublist.refl _

/-- It starts with a word. -/
theorem noBlankHead_formatted (s : Str) : NoBlankHead (formatted s) := by
  by_cases hnil : (spaced s).1 = []
  · rw [formatted, (compress_eq_nil_iff s).mpr hnil]
    intro c hc
    simp [strip] at hc
  · have hws := (spaced_ok s).1
    have hthin : thin (.inside 0) (spaced s).1 ≠ [] := by
      obtain ⟨w, ws, h⟩ := List.exists_cons_of_ne_nil hnil
      rw [h, thin]
      exact List.cons_ne_nil _ _
    rw [formatted, compress_eq, strip_render _ _ hthin (hws.thin _)]
    obtain ⟨w, ws, h⟩ := List.exists_cons_of_ne_nil hnil
    obtain ⟨hne, hblank⟩ := hws w (by rw [h]; exact List.mem_cons_self)
    rw [h, thin, render_cons, Scan.kept, Nat.zero_min, List.append_assoc, List.append_assoc]
    exact noBlankHead_append w.2 _ hne hblank

/-! ### The command of a short string -/

/-- A word in front of a terminator is in the string. -/
theorem prefix_append_zero {w u : Str} {after : List Byte} (hw : 0 ∉ w) :
    w <+: u ++ 0 :: after ↔ w <+: u := by
  constructor
  · intro h
    rcases List.prefix_or_prefix_of_prefix h (List.prefix_append u (0 :: after)) with h' | h'
    · exact h'
    · -- a longer word would hold the terminator
      obtain ⟨v, rfl⟩ := h'
      rw [List.prefix_append_right_inj] at h
      cases v with
      | nil => rw [List.append_nil]
      | cons b v =>
        rw [List.cons_prefix_cons] at h
        exact absurd (List.mem_append_right u (List.mem_cons.mpr (Or.inl h.1.symm))) hw
  · exact fun h => h.trans (List.prefix_append _ _)

/-- The command a buffer goes to. -/
theorem dispatch_eq_some_iff (buf : List Byte) (c : Command) :
    dispatch buf = some c ↔ c.word <+: buf := by
  constructor
  · intro h
    have hfound : comparesEqual buf c = true := List.find?_some h
    exact List.isPrefixOf_iff_prefix.mp hfound
  · rintro ⟨rest, rfl⟩
    exact dispatch_word c rest

/-- Between a word and a string no longer than it there is only the word. -/
theorem eq_of_prefix_of_sublist {t u s : Str} (htu : t <+: u) (hus : u.Sublist s)
    (hlen : s.length ≤ t.length) : u = t ∧ s = t := by
  have hut : u = t := (htu.eq_of_length_le (hus.length_le.trans hlen)).symm
  exact ⟨hut, (hus.eq_of_length_le (hut ▸ hlen)).symm.trans hut⟩

/-- On a string shorter than the offset of its slice the compressor changes nothing that
    matters for the comparison. -/
theorem word_prefix_formatted (s : Str) {c : Command} {length : Nat} {h : Handler}
    (hc : c.action = .parse length h) (hlen : s.length < length) :
    c.word <+: formatted s ↔ c.word <+: s.filter (· ≠ blank) := by
  by_cases hstar : c = .star
  · -- the word is one character, and neither string starts with a blank
    subst hstar
    have hword : Command.star.word = [0x2a] := by decide
    rw [hword, ← filter_formatted s]
    have hhead := noBlankHead_formatted s
    generalize formatted s = u at hhead
    cases u with
    | nil => rfl
    | cons b u =>
      have hb : b ≠ blank := hhead b rfl
      rw [List.filter_cons_of_pos (by simp [hb])]
      simp
  · -- the string has no room for more than the word
    have hle : s.length ≤ c.word.length := by
      rw [c.length_of_ne_star hc hstar] at hlen
      exact Nat.le_of_lt_succ hlen
    have hfilter : c.word.filter (· ≠ blank) = c.word :=
      List.filter_eq_self.mpr fun b hb => by
        have hne : b ≠ blank := fun h => c.word_ok.2.1 (h ▸ hb)
        simp [hne]
    constructor
    · intro hpre
      obtain ⟨-, hs⟩ := eq_of_prefix_of_sublist hpre (formatted_sublist s) hle
      rw [hs, hfilter]
    · intro hpre
      obtain ⟨hu, -⟩ := eq_of_prefix_of_sublist hpre List.filter_sublist hle
      have hu' : (formatted s).filter (· ≠ blank) = c.word := by rw [filter_formatted, hu]
      have hsub : c.word.Sublist (formatted s) := hu' ▸ List.filter_sublist
      rw [hsub.eq_of_length_le ((formatted_sublist s).length_le.trans hle)]

/-! ### The buffer of a line that is short enough -/

/-- A buffer with a terminator is its string, the terminator and what is behind it. -/
theorem buffer_eq (line : Str) (h0 : 0 ∈ buffer line) :
    ∃ post, buffer line = content line ++ 0 :: post := by
  have hcontent : (buffer line).takeWhile (· != 0) = content line := by
    have hzeros (n : Nat) : (List.replicate n (0 : Byte)).takeWhile (· != 0) = [] := by
      cases n <;> simp [List.replicate_succ]
    rw [buffer, content, List.takeWhile_append, hzeros, List.append_nil]
    split
    · rename_i hlen
      exact (List.takeWhile_prefix _).eq_of_length hlen |>.symm
    · rfl
  rw [← hcontent]
  exact exists_terminated _ h0

theorem zero_notMem_content (line : Str) : 0 ∉ content line := by
  intro h
  have hne := List.mem_takeWhile_imp h
  simp at hne

/-- Behind its string the buffer is not touched. -/
theorem drop_append_zero {x y post : List Byte} {n : Nat} (hlen : x.length = y.length)
    (hn : x.length < n) : (x ++ 0 :: post).drop n = (y ++ 0 :: post).drop n := by
  have hx : x.drop n = [] := List.drop_eq_nil_of_le hn.le
  have hy : y.drop n = [] := List.drop_eq_nil_of_le (hlen ▸ hn.le)
  rw [List.drop_append, List.drop_append, hx, hy, hlen]

/-- The slice is a string where a terminator is left. -/
theorem exists_cstr_iff (mem : List Byte) (i : Nat) :
    (∃ str, cstr mem i = .ok str) ↔ 0 ∈ mem.drop i := by
  rw [cstr]
  split
  · rename_i h
    exact iff_of_true ⟨_, rfl⟩ h
  · rename_i h
    refine iff_of_false ?_ h
    rintro ⟨str, hstr⟩
    exact absurd hstr (by simp)

/-- Comparisons and slices of a buffer whose string `format_space` has treated. -/
theorem slices_iff (s post stale : List Byte)
    (hlen : (formatted s).length + stale.length = s.length) (hhead : ∀ b ∈ stale.head?, b = 0) :
    (∀ c length h, dispatch (formatted s ++ (stale ++ 0 :: post)) = some c →
        c.action = .parse length h →
        ∃ str, cstr (formatted s ++ (stale ++ 0 :: post)) length = .ok str)
      ↔ ∀ (c : Command) (length : Nat) (h : Handler), c.action = .parse length h →
          s.length < length → c.word <+: s.filter (· ≠ blank) →
          0 ∈ (s ++ 0 :: post).drop length := by
  have hfront (c : Command) : c.word <+: formatted s ++ (stale ++ 0 :: post)
      ↔ c.word <+: formatted s := by
    cases stale with
    | nil => exact prefix_append_zero c.word_ok.2.2
    | cons b stale =>
      obtain rfl : b = 0 := hhead b rfl
      exact prefix_append_zero c.word_ok.2.2
  have hlen' : (formatted s ++ stale).length = s.length := by rw [List.length_append, hlen]
  rw [← List.append_assoc] at hfront ⊢
  constructor
  · -- the word at the front of the string is the word found in the buffer
    intro hslice c length h hc hshort hpre
    have hdispatch := (dispatch_eq_some_iff _ c).mpr
      ((hfront c).mpr ((word_prefix_formatted s hc hshort).mpr hpre))
    have h0 := (exists_cstr_iff _ _).mp (hslice c length h hdispatch hc)
    rwa [drop_append_zero hlen' (hlen' ▸ hshort)] at h0
  · intro hslice c length h hdispatch hc
    rw [exists_cstr_iff]
    rcases Nat.lt_or_ge s.length length with hshort | hlong
    · have hpre := (hfront c).mp ((dispatch_eq_some_iff _ c).mp hdispatch)
      rw [drop_append_zero hlen' (hlen' ▸ hshort)]
      exact hslice c length h hc hshort ((word_prefix_formatted s hc hshort).mp hpre)
    · -- the old terminator is still there
      rw [List.drop_append_of_le_length (hlen' ▸ hlong)]
      simp

/-- No command word is longer than the buffer. -/
theorem Command.word_length_le (c : Command) : c.word.length ≤ 100 := by
  cases c <;> decide

/-- **The writer stays inside its buffer exactly on lines that fit.** -/
theorem staysInside_iff (line : Str) : StaysInside line ↔ Fits line := by
  have h0 := zero_notMem_content line
  constructor
  · -- each access that succeeds gives one part of the condition
    rintro ⟨buf, hcopy, hzero, buf', hformat, -, hslice⟩
    have hcount : line.length ≤ 100 := by
      by_contra hlong
      rw [copyIn, if_neg hlong] at hcopy
      nomatch hcopy
    rw [copyIn, if_pos hcount] at hcopy
    obtain rfl : buffer line = buf := Except.ok.inj hcopy
    obtain ⟨post, hbuf⟩ := buffer_eq line hzero
    rw [hbuf] at hformat
    have hne : compress (.inside 0) (content line) ≠ [] := by
      intro hnil
      rw [formatSpace_of_nil _ _ h0 hnil] at hformat
      nomatch hformat
    obtain ⟨stale, hmem, hlen, hhead⟩ := formatSpace_leaves _ post h0 hne
    obtain rfl : _ = buf' := Except.ok.inj (hmem.symm.trans hformat)
    refine ⟨hcount, hzero, ?_, ?_⟩
    · rw [← spaced_ne_nil_iff, ne_eq, ← compress_eq_nil_iff]
      exact hne
    · rw [hbuf]
      exact (slices_iff _ post stale hlen hhead).mp hslice
  · rintro ⟨hcount, hzero, htext, hslice⟩
    obtain ⟨post, hbuf⟩ := buffer_eq line hzero
    have hne : compress (.inside 0) (content line) ≠ [] := by
      rw [ne_eq, compress_eq_nil_iff, ← ne_eq, spaced_ne_nil_iff]
      exact htext
    obtain ⟨stale, hmem, hlen, hhead⟩ := formatSpace_leaves _ post h0 hne
    refine ⟨buffer line, by rw [copyIn, if_pos hcount, buffer], hzero, _, hbuf ▸ hmem, ?_, ?_⟩
    · -- `format_space` keeps the 100 bytes
      intro c
      have h100 : (buffer line).length = 100 := by
        rw [buffer, List.length_append, List.length_replicate, Nat.add_sub_cancel' hcount]
      rw [hbuf] at h100
      refine c.word_length_le.trans (le_of_eq ?_)
      simp only [List.nil_append, List.length_append, List.length_cons] at h100 ⊢
      have hlen' : (formatted (content line)).length + stale.length = (content line).length := hlen
      rw [formatted] at hlen'
      omega
    · rw [hbuf] at hslice
      exact (slices_iff _ post stale hlen hhead).mpr hslice

/-- Lines that do not fit: 101 bytes, 100 bytes without a NUL, nothing at all, blanks alone,
    and a word with a NUL at once behind it in a full buffer. -/
theorem not_staysInside_full :
    ¬StaysInside (List.replicate 101 0x61) ∧ ¬StaysInside (List.replicate 100 0x61)
      ∧ ¬StaysInside [] ∧ ¬StaysInside (bytes "   ")
      ∧ ¬StaysInside (bytes "doorbell" ++ 0 :: List.replicate 91 0x61) := by
  refine ⟨?_, ?_, ?_, ?_, ?_⟩
  · -- the copy writes the byte behind the buffer
    rintro ⟨buf, hcopy, -⟩
    rw [copyIn, if_neg (by decide)] at hcopy
    nomatch hcopy
  · -- there is no terminator
    rintro ⟨buf, hcopy, hzero, -⟩
    rw [copyIn, if_pos (by decide)] at hcopy
    rw [← Except.ok.inj hcopy] at hzero
    exact absurd hzero (by decide)
  · -- the strip looks in front of the buffer
    rintro ⟨buf, hcopy, -, buf', hformat, -⟩
    have hempty : (copyIn [] >>= formatSpace) = .error .range := by decide +kernel
    rw [hcopy, ok_bind, hformat] at hempty
    nomatch hempty
  · rintro ⟨buf, hcopy, -, buf', hformat, -⟩
    have hblanks : (copyIn (bytes "   ") >>= formatSpace) = .error .range := by decide +kernel
    rw [hcopy, ok_bind, hformat] at hblanks
    nomatch hblanks
  · -- the slice has no end in the buffer
    rintro ⟨buf, hcopy, -, buf', hformat, -, hslice⟩
    have hrun : (copyIn (bytes "doorbell" ++ 0 :: List.replicate 91 0x61) >>= formatSpace)
        = .ok (bytes "doorbell" ++ 0 :: List.replicate 91 0x61) := by decide +kernel
    rw [hcopy, ok_bind, hformat] at hrun
    obtain ⟨str, hstr⟩ := hslice .doorbell (sizeof "doorbell") testDoorbell
      (by rw [Except.ok.inj hrun]; decide +kernel) rfl
    have hend : cstr (bytes "doorbell" ++ 0 :: List.replicate 91 0x61) (sizeof "doorbell")
        = .error .range := by decide +kernel
    rw [Except.ok.inj hrun, hend] at hstr
    nomatch hstr

end Vpx3.Cmd
