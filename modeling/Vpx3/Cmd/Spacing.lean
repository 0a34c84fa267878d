import Vpx3.Cmd.FormatSpace

namespace Vpx3.Cmd

open Vpx3.CStr

/-!
# Commands — what the compressor leaves of each gap

A line is a sequence of words, each behind a number of blanks.  The words come through the
compressor unchanged; how many blanks it leaves in front of a word depends only on the
lengths of the gaps and words before it.

* `Scan.kept`, `Scan.gap`, `Scan.token` — the walk over a whole gap and a whole word;
* `render`, `thin` — the text of a sequence of words, and the words with the blanks that are
  left in front of them;
* `compress_render` — that is what `compress` computes;
* `render_inj` — no other gaps give the same text.
-/

/-- A gap of `k` blanks. -/
def blanks (k : Nat) : Str := List.replicate k blank

@[simp] theorem length_blanks (k : Nat) : (blanks k).length = k := List.length_replicate

theorem zero_notMem_blanks (k : Nat) : (0 : Byte) ∉ blanks k :=
  fun h => absurd (List.eq_of_mem_replicate h) (by decide)

/-! ### The walk over a gap and over a word -/

/-- The blanks left of a gap of `k`. -/
def Scan.kept : Scan → Nat → Nat
  | .outside, k => min 1 k
  | .inside n, k => min n k
  | .deleting _, _ => 0

/-- The walk behind a gap of `k` blanks. -/
def Scan.gap : Scan → Nat → Scan
  | .outside, 0 => .outside
  | .outside, 1 => .inside 0
  | .outside, k + 2 => .inside k
  | .inside n, k => if k ≤ n then .inside (n - k) else .inside (k - n - 1)
  | .deleting e, k => .inside (e + k)

/-- The walk behind a word of `len` characters. -/
def Scan.token : Scan → Nat → Scan
  | .outside, _ => .outside
  | .inside n, len => if len ≤ n then .inside (n - len) else .outside
  | .deleting e, len => if len ≤ e then .inside (e - len) else .outside

/-- A jump longer than the text in front of it. -/
theorem compress_inside_append (t rest : Str) (n : Nat) :
    compress (.inside (t.length + n)) (t ++ rest) = t ++ compress (.inside n) rest := by
  induction t with
  | nil => rw [List.length_nil, Nat.zero_add, List.nil_append, List.nil_append]
  | cons c t ih =>
    rw [List.length_cons, Nat.add_right_comm, List.cons_append, compress, ih, List.cons_append]

/-- Outside a gap a word is read through. -/
theorem compress_outside_append (t rest : Str) (ht : blank ∉ t) :
    compress .outside (t ++ rest) = t ++ compress .outside rest := by
  induction t with
  | nil => rfl
  | cons c t ih =>
    have hc : c ≠ blank := fun h => ht (by simp [h])
    rw [List.cons_append, compress, if_neg hc, ih (fun h => ht (List.mem_cons_of_mem _ h)),
      List.cons_append]

/-- The walk over a gap met on a jump of `n`. -/
theorem compress_inside_gap (n k : Nat) (rest : Str) (hrest : NoBlankHead rest) :
    compress (.inside n) (blanks k ++ rest)
      = blanks (min n k) ++ compress (Scan.gap (.inside n) k) rest := by
  rw [Scan.gap]
  by_cases h : k ≤ n
  · -- the jump goes over the whole gap
    have happ := compress_inside_append (blanks k) rest (n - k)
    rw [length_blanks, Nat.add_sub_cancel' h] at happ
    rw [if_pos h, Nat.min_eq_right h, happ]
  · obtain ⟨e, rfl⟩ : ∃ e, k = n + (e + 1) := ⟨k - n - 1, by omega⟩
    have hsplit : blanks (n + (e + 1)) = blanks n ++ blank :: List.replicate e blank := by
      rw [blanks, blanks, ← List.replicate_succ, List.replicate_append_replicate]
    have happ := compress_inside_append (blanks n) (blank :: (List.replicate e blank ++ rest)) 0
    rw [length_blanks, Nat.add_zero] at happ
    rw [if_neg h, Nat.min_eq_left (by omega), hsplit, List.append_assoc, List.cons_append, happ,
      compress_inside_run e rest hrest]
    congr 3
    omega

/-- **The walk over a gap.** -/
theorem compress_gap (st : Scan) (k : Nat) (rest : Str) (hrest : NoBlankHead rest) :
    compress st (blanks k ++ rest) = blanks (st.kept k) ++ compress (st.gap k) rest := by
  cases st with
  | inside n => exact compress_inside_gap n k rest hrest
  | deleting e => exact compress_deleting e k rest hrest
  | outside =>
    match k with
    | 0 => rfl
    | 1 => rw [blanks, List.replicate_one, List.singleton_append, compress, if_pos rfl]; rfl
    | k + 2 =>
      -- the first blank is kept and the others are met inside the gap
      have hgap := compress_inside_gap 0 (k + 1) rest hrest
      rw [Scan.gap, if_neg (by omega), Nat.zero_min] at hgap
      rw [blanks, List.replicate_succ, List.cons_append, compress, if_pos rfl, ← blanks, hgap]
      rfl

/-- The walk over a word met on a jump of `n`. -/
theorem compress_inside_token (n : Nat) (t rest : Str) (ht : blank ∉ t) :
    compress (.inside n) (t ++ rest)
      = t ++ compress (Scan.token (.inside n) t.length) rest := by
  rw [Scan.token]
  by_cases h : t.length ≤ n
  · have happ := compress_inside_append t rest (n - t.length)
    rw [Nat.add_sub_cancel' h] at happ
    rw [if_pos h, happ]
  · -- the jump ends in the word, and the scan reads the rest of it
    obtain ⟨c, u, hu⟩ : ∃ c u, t.drop n = c :: u :=
      List.exists_cons_of_ne_nil (by simp only [ne_eq, List.drop_eq_nil_iff]; omega)
    have hmem (x : Byte) (hx : x ∈ c :: u) : x ∈ t := List.mem_of_mem_drop (hu ▸ hx)
    have hc : c ≠ blank := fun hc => ht (hc ▸ hmem c (by simp))
    have hu' : blank ∉ u := fun hb => ht (hmem _ (List.mem_cons_of_mem _ hb))
    have hread : compress (.inside 0) (c :: u ++ rest) = c :: u ++ compress .outside rest := by
      rw [List.cons_append, compress, if_neg hc, compress_outside_append u rest hu',
        List.cons_append]
    rw [if_neg h, compress_inside_le n (t ++ rest) (by rw [List.length_append]; omega),
      List.take_append_of_le_length (by omega), List.drop_append_of_le_length (by omega), hu,
      hread, ← hu, ← List.append_assoc, List.take_append_drop]

/-- A word in front keeps a blank from the head. -/
theorem noBlankHead_append (t rest : Str) (hne : t ≠ []) (ht : blank ∉ t) :
    NoBlankHead (t ++ rest) := by
  obtain ⟨c, t, rfl⟩ := List.exists_cons_of_ne_nil hne
  rintro d ⟨⟩ hd
  exact ht (by simp [hd])

/-- **The walk over a word.** -/
theorem compress_token (st : Scan) (t rest : Str) (hne : t ≠ []) (ht : blank ∉ t) :
    compress st (t ++ rest) = t ++ compress (st.token t.length) rest := by
  cases st with
  | outside => exact compress_outside_append t rest ht
  | inside n => exact compress_inside_token n t rest ht
  | deleting e =>
    rw [compress_deleting_end e _ (noBlankHead_append t rest hne ht)]
    exact compress_inside_token e t rest ht

/-! ### Lines -/

/-- A word of a line, with the number of blanks in front of it. -/
abbrev Spaced := Nat × Str

/-- Words that are words: not empty and without blanks. -/
def AreWords (ws : List Spaced) : Prop := ∀ w ∈ ws, w.2 ≠ [] ∧ blank ∉ w.2

/-- The text of a sequence of words. -/
def render (ws : List Spaced) : Str := ws.flatMap fun w => blanks w.1 ++ w.2

/-- The walk behind a gap and a word. -/
def Scan.word (st : Scan) (w : Spaced) : Scan := (st.gap w.1).token w.2.length

/-- The walk behind a sequence of words. -/
def Scan.words (st : Scan) (ws : List Spaced) : Scan := ws.foldl Scan.word st

/-- The words with the blanks that are left in front of them. -/
def thin : Scan → List Spaced → List Spaced
  | _, [] => []
  | st, w :: ws => (st.kept w.1, w.2) :: thin (st.word w) ws

theorem render_cons (w : Spaced) (ws : List Spaced) :
    render (w :: ws) = blanks w.1 ++ (w.2 ++ render ws) := by
  rw [render, List.flatMap_cons, List.append_assoc, render]

theorem thin_map_snd (st : Scan) (ws : List Spaced) :
    (thin st ws).map Prod.snd = ws.map Prod.snd := by
  induction ws generalizing st with
  | nil => rfl
  | cons w ws ih => rw [thin, List.map_cons, List.map_cons, ih]

/-- The words of a thinned line are the words of the line. -/
theorem AreWords.thin {ws : List Spaced} (h : AreWords ws) (st : Scan) :
    AreWords (thin st ws) := by
  intro w hw
  have hmem : w.2 ∈ ws.map Prod.snd := by
    rw [← thin_map_snd st ws]
    exact List.mem_map_of_mem hw
  obtain ⟨v, hv, hvw⟩ := List.mem_map.mp hmem
  exact hvw ▸ h v hv

/-- **The compressor on a line.**  The words stay, and in front of each the number of blanks
    the walk leaves there. -/
theorem compress_render (st : Scan) (ws : List Spaced) (tail : Str) (hws : AreWords ws) :
    compress st (render ws ++ tail) = render (thin st ws) ++ compress (st.words ws) tail := by
  induction ws generalizing st with
  | nil => rfl
  | cons w ws ih =>
    obtain ⟨hne, hw⟩ := hws w List.mem_cons_self
    have hrest : AreWords ws := fun v hv => hws v (List.mem_cons_of_mem w hv)
    rw [render_cons, List.append_assoc, List.append_assoc,
      compress_gap st w.1 _ (noBlankHead_append w.2 _ hne hw),
      compress_token (st.gap w.1) w.2 _ hne hw, ← Scan.word, ih (st.word w) hrest, thin,
      render_cons, List.append_assoc, List.append_assoc]
    rfl

/-- The end of a line: blanks, and a newline or nothing. -/
theorem compress_end (st : Scan) (k : Nat) (nl : Str) (hnl : blank ∉ nl) :
    compress st (blanks k ++ nl) = blanks (st.kept k) ++ nl := by
  by_cases hne : nl = []
  · rw [hne, compress_gap st k [] (by simp [NoBlankHead]), compress_nil]
  · have hhead : NoBlankHead nl := by
      have h := noBlankHead_append nl [] hne hnl
      rwa [List.append_nil] at h
    have htok := compress_token (st.gap k) nl [] hne hnl
    rw [List.append_nil, compress_nil, List.append_nil] at htok
    rw [compress_gap st k nl hhead, htok]

/-- A gap and a word are read off the text. -/
theorem blanks_append_inj {i j : Nat} {r s : Str} (hr : NoBlankHead r) (hs : NoBlankHead s)
    (h : blanks i ++ r = blanks j ++ s) : i = j ∧ r = s := by
  induction i generalizing j with
  | zero =>
    cases j with
    | zero => exact ⟨rfl, h⟩
    | succ j =>
      rw [blanks, List.replicate_zero, List.nil_append] at h
      exact absurd rfl (hr blank (by rw [h]; rfl))
  | succ i ih =>
    cases j with
    | zero =>
      rw [blanks, blanks, List.replicate_zero, List.nil_append] at h
      exact absurd rfl (hs blank (by rw [← h]; rfl))
    | succ j =>
      have h' : blanks i ++ r = blanks j ++ s := by
        rw [blanks, blanks, List.replicate_succ, List.replicate_succ, List.cons_append,
          List.cons_append] at h
        exact (List.cons.inj h).2
      obtain ⟨hij, hrs⟩ := ih h'
      exact ⟨congrArg (· + 1) hij, hrs⟩

/-- Two texts of the same words agree only if the gaps do. -/
theorem render_inj {ws vs : List Spaced} {r s : Str} (hws : AreWords ws)
    (hwords : ws.map Prod.snd = vs.map Prod.snd) (h : render ws ++ r = render vs ++ s) :
    ws = vs ∧ r = s := by
  induction ws generalizing vs with
  | nil =>
    have hvs : vs = [] := by simpa using hwords.symm
    subst hvs
    exact ⟨rfl, h⟩
  | cons w ws ih =>
    obtain ⟨v, vs, rfl⟩ : ∃ v vs', vs = v :: vs' := by
      cases vs with
      | nil => simp at hwords
      | cons v vs => exact ⟨v, vs, rfl⟩
    rw [List.map_cons, List.map_cons, List.cons.injEq] at hwords
    obtain ⟨hwv, hrest⟩ := hwords
    obtain ⟨hne, hw⟩ := hws w List.mem_cons_self
    rw [render_cons, render_cons, ← hwv] at h
    simp only [List.append_assoc] at h
    obtain ⟨hgap, htail⟩ := blanks_append_inj (noBlankHead_append w.2 _ hne hw)
      (noBlankHead_append w.2 _ hne hw) h
    obtain ⟨hws', hrs⟩ := ih (fun u hu => hws u (List.mem_cons_of_mem w hu)) hrest
      (List.append_cancel_left htail)
    exact ⟨by rw [hws', Prod.ext hgap hwv], hrs⟩

/-- No NUL in a rendered line. -/
theorem zero_notMem_render (ws : List Spaced) (h : ∀ w ∈ ws, (0 : Byte) ∉ w.2) :
    0 ∉ render ws := by
  intro h0
  obtain ⟨w, hw, h0⟩ := List.mem_flatMap.mp h0
  rcases List.mem_append.mp h0 with hb | ht
  · exact absurd (List.eq_of_mem_replicate hb) (by decide)
  · exact h w hw ht

/-- A rendered line ends in a character of its last word. -/
theorem render_concat (ws : List Spaced) (hne : ws ≠ []) (hws : AreWords ws) :
    ∃ front c, render ws = front ++ [c] ∧ c ≠ blank := by
  obtain ⟨vs, w, rfl⟩ : ∃ vs w, ws = vs ++ [w] :=
    ⟨_, _, (List.dropLast_concat_getLast hne).symm⟩
  obtain ⟨hw, hblank⟩ := hws w (by simp)
  obtain ⟨u, c, hu⟩ : ∃ u c, w.2 = u ++ [c] := ⟨_, _, (List.dropLast_concat_getLast hw).symm⟩
  refine ⟨render vs ++ (blanks w.1 ++ u), c, ?_, fun hc => hblank (by simp [hu, hc])⟩
  rw [render, List.flatMap_append, ← render]
  simp [hu]

/-- The strip takes the last of the blanks behind a rendered line. -/
theorem strip_render (ws : List Spaced) (k : Nat) (hne : ws ≠ []) (hws : AreWords ws) :
    strip (render ws ++ blanks k) = render ws ++ blanks (k - 1) := by
  cases k with
  | zero =>
    obtain ⟨front, c, hrender, hc⟩ := render_concat ws hne hws
    rw [hrender]
    simp only [blanks, List.replicate_zero, Nat.zero_sub, List.append_nil]
    exact strip_concat front c hc
  | succ k =>
    rw [blanks, List.replicate_succ', ← List.append_assoc, strip_concat_blank]
    rfl

/-! ### Single blanks -/

/-- Words with one blank between neighbours. -/
def single : List Str → List Spaced
  | [] => []
  | t :: ts => (0, t) :: ts.map fun t => (1, t)

theorem single_map_snd (ts : List Str) : (single ts).map Prod.snd = ts := by
  cases ts with
  | nil => rfl
  | cons t ts =>
    rw [single, List.map_cons, List.map_map]
    exact congrArg (t :: ·) (List.map_id ts)

/-- What is left of a line is the single-spaced line exactly when one blank is left before
    every word but the first. -/
theorem thin_eq_single_iff (ws : List Spaced) :
    thin (.inside 0) ws = single (ws.map Prod.snd)
      ↔ ∀ w ∈ (thin (.inside 0) ws).tail, w.1 = 1 := by
  cases ws with
  | nil => simp [thin, single]
  | cons w ws =>
    rw [thin, List.map_cons, single, List.tail_cons, Scan.kept, Nat.zero_min]
    generalize hvs : thin (Scan.word (.inside 0) w) ws = vs
    have hsnd : ws.map Prod.snd = vs.map Prod.snd := by rw [← hvs, thin_map_snd]
    rw [hsnd, List.map_map, List.cons.injEq]
    constructor
    · rintro ⟨-, h⟩ v hv
      rw [h] at hv
      obtain ⟨u, -, rfl⟩ := List.mem_map.mp hv
      rfl
    · intro h
      refine ⟨rfl, (List.map_id _).symm.trans (List.map_congr_left fun v hv => ?_)⟩
      exact Prod.ext (h v hv) rfl

/-- Single blanks before every word of a line are all left, and the walk ends outside. -/
theorem thin_map_one (ts : List Str) (hts : ∀ t ∈ ts, t ≠ []) :
    thin .outside (ts.map fun t => (1, t)) = ts.map (fun t => (1, t))
      ∧ Scan.words .outside (ts.map fun t => (1, t)) = .outside := by
  induction ts with
  | nil => exact ⟨rfl, rfl⟩
  | cons t ts ih =>
    obtain ⟨hthin, hwords⟩ := ih fun u hu => hts u (List.mem_cons_of_mem t hu)
    have hlen := Nat.not_le.mpr (List.length_pos_of_ne_nil (hts t List.mem_cons_self))
    have hword : Scan.word .outside (1, t) = .outside := by
      rw [Scan.word, Scan.gap, Scan.token, if_neg hlen]
    rw [List.map_cons, thin, Scan.words, List.foldl_cons, ← Scan.words, hword, hthin, hwords]
    exact ⟨rfl, rfl⟩

/-- **A line with single blanks stays as it is.** -/
theorem thin_single (t : Str) (ts : List Str) (ht : t ≠ []) (hts : ∀ t ∈ ts, t ≠ []) :
    thin (.inside 0) (single (t :: ts)) = single (t :: ts)
      ∧ Scan.words (.inside 0) (single (t :: ts)) = .outside := by
  have hlen := Nat.not_le.mpr (List.length_pos_of_ne_nil ht)
  have hword : Scan.word (.inside 0) (0, t) = .outside := by
    rw [Scan.word, Scan.gap, if_pos (Nat.le_refl 0), Nat.sub_self, Scan.token, if_neg hlen]
  obtain ⟨hthin, hwords⟩ := thin_map_one ts hts
  rw [single, thin, Scan.words, List.foldl_cons, ← Scan.words, hword, hthin, hwords]
  exact ⟨rfl, rfl⟩

end Vpx3.Cmd
