import Vpx3.Cmd.Spacing

namespace Vpx3.Cmd

open Vpx3.CStr

/-!
# Commands — the normal form of a string, and when `format_space` reaches it

What the compressor is for: the words of the string, joined by single blanks.

* `words`, `normalForm` — the specification;
* `spaced` — any string taken apart into gaps and words;
* `Normalises` — `format_space` leaves the normal form in place of the string and touches
  nothing else;
* `normalises_iff` — it does so exactly when the string is not all blanks and no jump of the
  scan goes wrong.
-/

/-! ### The specification -/

/-- The maximal runs of characters that are no blanks. -/
def words (s : Str) : List Str := (s.splitOn blank).filter fun t => t ≠ []

/-- The words with one blank between neighbours and none at either end. -/
def normalForm (s : Str) : Str := [blank].intercalate (words s)

/-- `format_space` on the string `s` with the memory `post` behind it: afterwards the normal
    form stands at its place, then the terminator and what the moves left, and everything
    from the old terminator on is as before. -/
def Normalises (s post : List Byte) : Prop :=
  Leaves [] s (normalForm s) post (formatSpace (s ++ 0 :: post))

/-! ### Words of a text -/

/-- A blank in front adds no word. -/
theorem words_blank_cons (s : Str) : words (blank :: s) = words s := by
  have h : (blank :: s).splitOn blank = [] :: s.splitOn blank := by
    rw [List.splitOn_cons_eq_if_modifyHead, if_pos (beq_self_eq_true blank)]
  rw [words, h, List.filter_cons_of_neg (by simp), words]

theorem words_blanks_append (k : Nat) (s : Str) : words (blanks k ++ s) = words s := by
  induction k with
  | zero => rfl
  | succ k ih =>
    rw [blanks, List.replicate_succ, List.cons_append, words_blank_cons, ← blanks, ih]

/-- A word in front of a gap, or at the end. -/
theorem words_append (t rest : Str) (hne : t ≠ []) (ht : blank ∉ t)
    (hrest : rest = [] ∨ ∃ r, rest = blank :: r) : words (t ++ rest) = t :: words rest := by
  rcases hrest with rfl | ⟨r, rfl⟩
  · rw [List.append_nil, words, List.splitOn_eq_singleton ht,
      List.filter_cons_of_pos (by simp [hne])]
    rfl
  · rw [words, List.splitOn_append_cons_self_of_not_mem ht, List.filter_cons_of_pos (by simp [hne]),
      words_blank_cons, words]

/-- Gaps inside a text are gaps. -/
def Separated (ws : List Spaced) : Prop := ∀ w ∈ ws.tail, 0 < w.1

/-- A separated rest starts with a blank. -/
theorem render_blank_head (ws : List Spaced) (k : Nat) (h : ∀ w ∈ ws, 0 < w.1) :
    render ws ++ blanks k = [] ∨ ∃ r, render ws ++ blanks k = blank :: r := by
  cases ws with
  | nil =>
    cases k with
    | zero => exact Or.inl rfl
    | succ k => exact Or.inr ⟨blanks k, by rw [blanks, List.replicate_succ]; rfl⟩
  | cons w ws =>
    obtain ⟨g, hg⟩ : ∃ g, w.1 = g + 1 := ⟨w.1 - 1, by have := h w List.mem_cons_self; omega⟩
    refine Or.inr ⟨blanks g ++ (w.2 ++ render ws) ++ blanks k, ?_⟩
    rw [render_cons, hg, blanks, List.replicate_succ, List.cons_append, List.cons_append, ← blanks]

/-- **The words of a text** are the words it was put together from. -/
theorem words_render (ws : List Spaced) (k : Nat) (hws : AreWords ws) (hsep : Separated ws) :
    words (render ws ++ blanks k) = ws.map Prod.snd := by
  induction ws with
  | nil =>
    have h := words_blanks_append k []
    rw [List.append_nil] at h
    rw [render, List.flatMap_nil, List.nil_append, h]
    rfl
  | cons w ws ih =>
    -- the gap goes, the word is taken, and behind it comes a gap or the end
    obtain ⟨hne, hblank⟩ := hws w List.mem_cons_self
    have hgaps : ∀ v ∈ ws, 0 < v.1 := hsep
    have hrest : AreWords ws := fun v hv => hws v (List.mem_cons_of_mem w hv)
    have hsep' : Separated ws := fun v hv => hgaps v (List.mem_of_mem_tail hv)
    rw [render_cons, List.append_assoc, List.append_assoc, words_blanks_append,
      words_append w.2 _ hne hblank (render_blank_head ws k hgaps), ih hrest hsep', List.map_cons]

/-- Joined words are the single-spaced line. -/
theorem intercalate_eq_render (ts : List Str) : [blank].intercalate ts = render (single ts) := by
  have htail (ts : List Str) (t : Str) :
      [blank].intercalate (t :: ts) = t ++ render (ts.map fun t => (1, t)) := by
    induction ts generalizing t with
    | nil => simp [render]
    | cons u ts ih =>
      rw [List.intercalate_cons_cons, ih u, List.map_cons, render_cons, List.append_assoc]
      rfl
  cases ts with
  | nil => rfl
  | cons t ts =>
    rw [htail, single, render_cons]
    rfl

/-! ### A string taken apart -/

/-- One character in front of a text of gaps, words and trailing blanks. -/
def pushChar (c : Byte) : List Spaced × Nat → List Spaced × Nat
  | ([], trail) => if c = blank then ([], trail + 1) else ([(0, [c])], trail)
  | ((0, t) :: ws, trail) =>
    if c = blank then ((1, t) :: ws, trail) else ((0, c :: t) :: ws, trail)
  | ((g + 1, t) :: ws, trail) =>
    if c = blank then ((g + 2, t) :: ws, trail) else ((0, [c]) :: (g + 1, t) :: ws, trail)

/-- The gaps and words of a string, and the blanks behind the last word. -/
def spaced (s : Str) : List Spaced × Nat := s.foldr pushChar ([], 0)

theorem areWords_cons {w : Spaced} {ws : List Spaced} :
    AreWords (w :: ws) ↔ (w.2 ≠ [] ∧ blank ∉ w.2) ∧ AreWords ws :=
  List.forall_mem_cons

/-- The text that a decomposition stands for. -/
def text (p : List Spaced × Nat) : Str := render p.1 ++ blanks p.2

/-- One character more keeps words words and gaps gaps. -/
theorem pushChar_ok (c : Byte) (p : List Spaced × Nat) (hws : AreWords p.1)
    (hsep : Separated p.1) :
    AreWords (pushChar c p).1 ∧ Separated (pushChar c p).1
      ∧ text (pushChar c p) = c :: text p := by
  have hword (hc : c ≠ blank) : [c] ≠ [] ∧ blank ∉ [c] :=
    ⟨List.cons_ne_nil _ _, fun h => hc (List.mem_singleton.mp h).symm⟩
  obtain ⟨ws, trail⟩ := p
  rcases ws with _ | ⟨⟨_ | g, t⟩, ws⟩ <;> by_cases hc : c = blank <;>
    simp only [pushChar, hc, if_true, if_false]
  · -- blanks alone
    exact ⟨hws, hsep, by simp [text, render, blanks, List.replicate_succ]⟩
  · -- the first character of the last word
    exact ⟨areWords_cons.mpr ⟨hword hc, hws⟩, hsep, by simp [text, render, blanks]⟩
  · -- a blank in front of a word
    obtain ⟨hw, hrest⟩ := areWords_cons.mp hws
    refine ⟨areWords_cons.mpr ⟨hw, hrest⟩, hsep, ?_⟩
    rw [text, text, render_cons, render_cons]
    rfl
  · -- one more character of a word
    obtain ⟨⟨-, hblank⟩, hrest⟩ := areWords_cons.mp hws
    refine ⟨areWords_cons.mpr ⟨⟨List.cons_ne_nil _ _, ?_⟩, hrest⟩, hsep, ?_⟩
    · rw [List.mem_cons, not_or]
      exact ⟨Ne.symm hc, hblank⟩
    · rw [text, text, render_cons, render_cons]
      rfl
  · -- one more blank of a gap
    obtain ⟨hw, hrest⟩ := areWords_cons.mp hws
    refine ⟨areWords_cons.mpr ⟨hw, hrest⟩, hsep, ?_⟩
    rw [text, text, render_cons, render_cons, blanks, List.replicate_succ]
    rfl
  · -- the last character of a word in front of a gap
    refine ⟨areWords_cons.mpr ⟨hword hc, hws⟩, ?_, ?_⟩
    · intro v hv
      rcases List.mem_cons.mp hv with rfl | hv
      · exact Nat.succ_pos g
      · exact hsep v hv
    · rw [text, text, render_cons]
      rfl

/-- **Every string is its gaps and words.** -/
theorem spaced_ok (s : Str) :
    AreWords (spaced s).1 ∧ Separated (spaced s).1 ∧ text (spaced s) = s := by
  induction s with
  | nil => exact ⟨fun w hw => absurd hw List.not_mem_nil, fun w hw => absurd hw List.not_mem_nil,
      rfl⟩
  | cons c s ih =>
    obtain ⟨hws, hsep, htext⟩ := ih
    obtain ⟨hws', hsep', htext'⟩ := pushChar_ok c (spaced s) hws hsep
    exact ⟨hws', hsep', by rw [spaced, List.foldr_cons, ← spaced, htext', htext]⟩

/-- The normal form, as a line of words. -/
theorem normalForm_eq (s : Str) :
    normalForm s = render (single ((spaced s).1.map Prod.snd)) := by
  obtain ⟨hws, hsep, htext⟩ := spaced_ok s
  have hwords : words s = (spaced s).1.map Prod.snd := by
    conv_lhs => rw [← htext]
    exact words_render _ _ hws hsep
  rw [normalForm, hwords, intercalate_eq_render]

/-! ### When the compressor reaches it -/

/-- The scan goes right: the string is not all blanks, the walk leaves one blank before every
    word but the first, and at most one behind the last word. -/
def Even (s : Str) : Prop :=
  (spaced s).1 ≠ [] ∧ (∀ w ∈ (thin (.inside 0) (spaced s).1).tail, w.1 = 1)
    ∧ (Scan.words (.inside 0) (spaced s).1).kept (spaced s).2 ≤ 1

instance (s : Str) : Decidable (Even s) :=
  inferInstanceAs (Decidable (_ ∧ _ ∧ _))

/-- What the loop leaves of a string. -/
theorem compress_eq (s : Str) :
    compress (.inside 0) s = render (thin (.inside 0) (spaced s).1)
      ++ blanks ((Scan.words (.inside 0) (spaced s).1).kept (spaced s).2) := by
  obtain ⟨hws, -, htext⟩ := spaced_ok s
  have hend := compress_end (Scan.words (.inside 0) (spaced s).1) (spaced s).2 []
    List.not_mem_nil
  rw [List.append_nil, List.append_nil] at hend
  conv_lhs => rw [← htext, text, compress_render _ _ _ hws, hend]

/-- Only a string of blanks is deleted as a whole. -/
theorem compress_eq_nil_iff (s : Str) : compress (.inside 0) s = [] ↔ (spaced s).1 = [] := by
  rw [compress_eq]
  cases h : (spaced s).1 with
  | nil => simp [thin, render, Scan.words, Scan.kept, blanks]
  | cons w ws =>
    have hne : w.2 ≠ [] := ((spaced_ok s).1 w (by rw [h]; exact List.mem_cons_self)).1
    simp [thin, render_cons, hne]

/-- Two strings in front of the terminator of one memory are the same. -/
theorem Leaves.unique {pre s t u post : List Byte} {mem : Except Fault (List Byte)}
    (ht : Leaves pre s t post mem) (hu : Leaves pre s u post mem) (ht0 : 0 ∉ t) (hu0 : 0 ∉ u) :
    t = u := by
  obtain ⟨a, hta, -⟩ := ht.terminated
  obtain ⟨b, hub, -⟩ := hu.terminated
  have hmem : pre ++ (t ++ 0 :: a) = pre ++ (u ++ 0 :: b) := Except.ok.inj (hta.symm.trans hub)
  have hstring (v after : List Byte) (hv : 0 ∉ v) :
      cstr (pre ++ (v ++ 0 :: after)) pre.length = .ok v :=
    cstr_append pre v after _ rfl hv
  exact Except.ok.inj ((hstring t a ht0).symm.trans (hmem ▸ hstring u b hu0))

/-- No NUL in the normal form. -/
theorem zero_notMem_normalForm (s : Str) (hs : 0 ∉ s) : 0 ∉ normalForm s := by
  rw [normalForm_eq]
  refine zero_notMem_render _ fun w hw h0 => hs ?_
  have hmem : w.2 ∈ (spaced s).1.map Prod.snd := by
    rw [← single_map_snd ((spaced s).1.map Prod.snd)]
    exact List.mem_map_of_mem hw
  obtain ⟨v, hv, hvw⟩ := List.mem_map.mp hmem
  rw [← (spaced_ok s).2.2, text, render]
  refine List.mem_append_left _ (List.mem_flatMap.mpr ⟨v, hv, List.mem_append_right _ ?_⟩)
  exact hvw ▸ h0

/-- The string `format_space` leaves is the normal form exactly on even strings. -/
theorem strip_compress_eq_iff (s : Str) (hne : (spaced s).1 ≠ []) :
    strip (compress (.inside 0) s) = normalForm s ↔ Even s := by
  have hws : AreWords (thin (.inside 0) (spaced s).1) := (spaced_ok s).1.thin _
  have hthin : thin (.inside 0) (spaced s).1 ≠ [] := by
    obtain ⟨w, ws, h⟩ := List.exists_cons_of_ne_nil hne
    rw [h, thin]
    exact List.cons_ne_nil _ _
  have hsnd : (thin (.inside 0) (spaced s).1).map Prod.snd
      = (single ((spaced s).1.map Prod.snd)).map Prod.snd := by
    rw [thin_map_snd, single_map_snd]
  rw [compress_eq, strip_render _ _ hthin hws, normalForm_eq, Even, ← thin_eq_single_iff]
  constructor
  · -- the same words and the same text: the gaps are the same as well
    intro h
    obtain ⟨heq, hblanks⟩ := render_inj (r := blanks _) (s := []) hws hsnd
      (h.trans (List.append_nil _).symm)
    refine ⟨hne, heq, ?_⟩
    have hlen := congrArg List.length hblanks
    rw [length_blanks, List.length_nil] at hlen
    omega
  · rintro ⟨-, heq, hkept⟩
    rw [heq, Nat.sub_eq_zero_of_le hkept, blanks, List.replicate_zero, List.append_nil]

/-- **`format_space` reaches the normal form exactly on even strings.** -/
theorem normalises_iff (s post : List Byte) (hs : 0 ∉ s) : Normalises s post ↔ Even s := by
  rw [Normalises]
  by_cases hnil : (spaced s).1 = []
  · -- all blanks: the strip looks in front of the string
    rw [formatSpace_of_nil s post hs ((compress_eq_nil_iff s).mpr hnil)]
    exact ⟨fun ⟨_, h, _⟩ => (nomatch h), fun h => absurd hnil h.1⟩
  · have hleaves := formatSpace_leaves s post hs fun h => hnil ((compress_eq_nil_iff s).mp h)
    have h0 : 0 ∉ strip (compress (.inside 0) s) :=
      zero_notMem_strip _ (zero_notMem_compress _ s hs)
    rw [← strip_compress_eq_iff s hnil]
    constructor
    · intro h
      exact hleaves.unique h h0 (zero_notMem_normalForm s hs)
    · intro h
      rw [← h]
      exact hleaves

/-- A string with one blank before every word. -/
theorem normalises_doorbell : Normalises (bytes "  doorbell  1 2 ") [] :=
  (normalises_iff _ _ (by decide)).mpr (by decide)

/-- Three blanks before a word of one character: the scan stops right behind that word and
    deletes the blank there.  And an empty string is stripped in front of its first byte. -/
theorem not_normalises_three_blanks :
    formatSpace (bytes "a   b c" ++ [0]) = .ok (bytes "a bc" ++ [0, 0, 0x63, 0])
      ∧ ¬Normalises (bytes "a   b c") [] ∧ ¬Normalises [] [] := by
  have hrun : formatSpace (bytes "a   b c" ++ [0]) = .ok (bytes "a bc" ++ [0, 0, 0x63, 0]) := by
    decide +kernel
  have hempty : formatSpace ([] ++ [0]) = .error .range := by
    decide +kernel
  have hnormal : normalForm (bytes "a   b c") = bytes "a b c" := by
    decide +kernel
  refine ⟨hrun, ?_, ?_⟩
  · rintro ⟨stale, h, -⟩
    have htake := congrArg (List.take 4) (Except.ok.inj (hrun.symm.trans h))
    rw [List.nil_append, hnormal, List.take_append_of_le_length (by decide),
      List.take_append_of_le_length (by decide)] at htake
    exact absurd htake (by decide)
  · rintro ⟨stale, h, -⟩
    rw [hempty] at h
    nomatch h

end Vpx3.Cmd
