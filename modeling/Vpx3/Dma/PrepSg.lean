import Vpx3.Dma.Chan
import Vpx3.Lib.Copy

namespace Vpx3.Dma

open Copy

/-!
# DMA engine — scatter/gather

`fsl_dma_prep_sg` makes the descriptors that copy one list of buffers to another one, whose
buffers may be cut elsewhere.

* `Scatterlist`, `SgSide` — a buffer, and one side of the loop; `prepSgLoop`, `fslDmaPrepSg` — the
  loop and the function;
* `prepSgLoop_copied` — the descriptors copy byte for byte what is left of both sides;
* `fslDmaPrepSg_spec` — so do those of the whole lists, of which one buffer more is taken than is
  asked for, if there is one;
* `fslDmaPrepSg_memory` — what memory holds when the controller has carried them out;
* `fslDmaPrepSg_single` — for one buffer on each side they are those of `fsl_dma_prep_memcpy`.
-/

/-! ### The function -/

/-- One buffer: `sg_dma_address` and `sg_dma_len`. -/
structure Scatterlist where
  dmaAddress : Word
  dmaLen : Word
deriving DecidableEq

/-- One side of the loop: the buffer, how much of it is left, the buffers behind it and the number
    of entries. -/
structure SgSide where
  sg : Scatterlist
  avail : ℕ
  behind : List Scatterlist
  nents : ℕ

/-- The side at the start of a buffer. -/
def SgSide.start (sg : Scatterlist) (behind : List Scatterlist) (nents : ℕ) : SgSide :=
  ⟨sg, sg.dmaLen.toNat, behind, nents⟩

/-- `sg_dma_address(sg) + sg_dma_len(sg) - avail`. -/
def SgSide.addr (s : SgSide) : Word :=
  s.sg.dmaAddress + s.sg.dmaLen - BitVec.ofNat 32 s.avail

/-- The next buffer is fetched when nothing is left of this one; `none` where the loop ends. -/
def SgSide.fetch (s : SgSide) : Option SgSide :=
  if s.avail ≠ 0 then some s
  else if s.nents = 0 then none
  else
    match s.behind with
    | [] => none
    | sg :: behind => some (.start sg behind (s.nents - 1))

/-- `avail -= len`. -/
def SgSide.drop (s : SgSide) (len : ℕ) : SgSide := { s with avail := s.avail - len }

/-- The largest transfer possible. -/
def sgLen (dst src : SgSide) : ℕ := min (min src.avail dst.avail) fslDmaBcrMaxCnt.toNat

/-- The descriptor of one round, if there is one; `none` where it cannot be allocated. -/
def sgMake (f : Feature) (alloc : Bool) (dst src : SgSide) : Option (List Transfer) :=
  if sgLen dst src = 0 then some []
  else if alloc then
    some [⟨f.descWord src.addr, f.descWord dst.addr, BitVec.ofNat 32 (sgLen dst src)⟩]
  else none

/-- The loop.  `alloc` tells which calls of `fsl_dma_alloc_descriptor` succeed; `none` where one
    does not. -/
def prepSgLoop (f : Feature) (alloc : ℕ → Bool) :
    ℕ → ℕ → SgSide → SgSide → Option (List Transfer)
  | 0, _, _, _ => none
  | fuel + 1, n, dst, src =>
    match sgMake f (alloc n) dst src with
    | none => none
    | some new =>
      match (dst.drop (sgLen dst src)).fetch, (src.drop (sgLen dst src)).fetch with
      | some dst, some src =>
        (prepSgLoop f alloc fuel (n + new.length) dst src).map (new ++ ·)
      | _, _ => some new

/-- The descriptors, of which the last one has the cookie `-EBUSY`. -/
def sgDescs : List Transfer → List Desc
  | [] => []
  | [hw] => [⟨hw, busyCookie, none⟩]
  | hw :: hws => ⟨hw, 0, none⟩ :: sgDescs hws

/-- What the function returns: `NULL`, a list of descriptors, or nothing because the last
    descriptor is used where none has been made. -/
inductive PrepSg where
  | null
  | oops
  | chain (descs : List Desc)
deriving DecidableEq

/-- How many rounds are enough. -/
def sgRounds (sgs : List Scatterlist) : ℕ := (sgs.map fun sg => sg.dmaLen.toNat + 1).sum

/-- `fsl_dma_prep_sg`. -/
def fslDmaPrepSg (f : Feature) (alloc : ℕ → Bool) (dstSg : List Scatterlist) (dstNents : ℕ)
    (srcSg : List Scatterlist) (srcNents : ℕ) : PrepSg :=
  if dstNents = 0 ∨ srcNents = 0 then .null
  else
    match dstSg, srcSg with
    | dst :: dstBehind, src :: srcBehind =>
      match prepSgLoop f alloc (sgRounds dstSg + sgRounds srcSg) 0 (.start dst dstBehind dstNents)
          (.start src srcBehind srcNents) with
      | none => .null
      | some [] => .oops
      | some hws => .chain (sgDescs hws)
    | _, _ => .null

/-! ### What descriptors copy -/

/-- The bytes of a buffer. -/
def Scatterlist.bytes (sg : Scatterlist) : List Word := stretch sg.dmaAddress sg.dmaLen.toNat

/-- The bytes of a list of buffers. -/
def sgBytes (sgs : List Scatterlist) : List Word := sgs.flatMap Scatterlist.bytes

/-- The bytes that one side can still fetch. -/
def SgSide.bytes (s : SgSide) : List Word :=
  stretch s.addr s.avail ++ sgBytes (s.behind.take s.nents)

/-- The bytes that one descriptor copies. -/
def Transfer.pairs (t : Transfer) : List (Word × Word) :=
  Copy.pairs (t.src.setWidth 32) (t.dst.setWidth 32) t.count.toNat

/-- The bytes that a list of descriptors copies. -/
def copied (hws : List Transfer) : List (Word × Word) := hws.flatMap Transfer.pairs

/-- The address in an address word. -/
@[simp] theorem setWidth_descWord (f : Feature) (addr : Word) :
    (f.descWord addr).setWidth 32 = addr := by
  unfold Feature.descWord
  apply BitVec.eq_of_getLsbD_eq
  intro i hi
  split
  · simp [hi]
  · simp [hi]

/-! ### One side -/

theorem SgSide.bytes_start (sg : Scatterlist) (behind : List Scatterlist) (nents : ℕ) :
    (SgSide.start sg behind nents).bytes = sgBytes ((sg :: behind).take (nents + 1)) := by
  have haddr : (SgSide.start sg behind nents).addr = sg.dmaAddress := by
    simp [SgSide.start, SgSide.addr]
  rw [SgSide.bytes, haddr, List.take_succ_cons]
  rfl

/-- A side of which nothing is fetched any more has no bytes. -/
theorem SgSide.bytes_of_fetch_none {s : SgSide} (h : s.fetch = none) : s.bytes = [] := by
  rw [SgSide.fetch] at h
  split at h
  · cases h
  · rename_i havail
    rw [SgSide.bytes, not_not.mp havail, stretch_zero, List.nil_append]
    split at h
    · rename_i hnents
      rw [hnents, List.take_zero]
      rfl
    · split at h
      · rename_i hbehind
        rw [hbehind, List.take_nil]
        rfl
      · cases h

/-- What is fetched are the bytes that are left. -/
theorem SgSide.bytes_of_fetch_some {s t : SgSide} (h : s.fetch = some t) :
    t.bytes = s.bytes ∧ t.behind.length ≤ s.behind.length
      ∧ (s.avail = 0 → t.behind.length < s.behind.length) := by
  rw [SgSide.fetch] at h
  split at h
  · rename_i havail
    obtain rfl := Option.some.inj h
    exact ⟨rfl, Nat.le_refl _, fun hzero => absurd hzero havail⟩
  · rename_i havail
    split at h
    · cases h
    · rename_i hnents
      split at h
      · cases h
      · rename_i sg behind hbehind
        obtain rfl := Option.some.inj h
        obtain ⟨nents, hnents⟩ := Nat.exists_eq_succ_of_ne_zero hnents
        have hlt : behind.length < s.behind.length := by
          rw [hbehind]
          exact Nat.lt_succ_self _
        refine ⟨?_, hlt.le, fun _ => hlt⟩
        rw [SgSide.bytes_start, SgSide.bytes, not_not.mp havail, stretch_zero, List.nil_append,
          hbehind, hnents]
        rfl

/-- A side cut behind its next bytes. -/
theorem SgSide.bytes_drop {s : SgSide} {len : ℕ} (h : len ≤ s.avail) :
    s.bytes = stretch s.addr len ++ (s.drop len).bytes := by
  have haddr : (s.drop len).addr = s.addr + (len : Word) := by
    have hsplit : BitVec.ofNat 32 s.avail
        = BitVec.ofNat 32 (s.avail - len) + BitVec.ofNat 32 len := by
      rw [← BitVec.ofNat_add, Nat.sub_add_cancel h]
    unfold SgSide.addr SgSide.drop
    dsimp only
    rw [hsplit]
    show _ = _ + BitVec.ofNat 32 len
    abel
  have hsplit : s.avail = len + (s.avail - len) := by omega
  rw [SgSide.bytes, SgSide.bytes, haddr, ← List.append_assoc]
  congr 1
  rw [hsplit, stretch_add]
  congr 2

/-! ### The loop -/

/-- What the loop still has to do with a side. -/
def SgSide.work (s : SgSide) : ℕ := s.bytes.length + s.behind.length

/-- A round leaves less to do, or as much if nothing was copied and something is left. -/
theorem SgSide.work_round {s t : SgSide} {len : ℕ} (hlen : len ≤ s.avail)
    (hfetch : (s.drop len).fetch = some t) :
    t.work + len ≤ s.work ∧ (s.avail = 0 → t.work < s.work) := by
  obtain ⟨hbytes, hbehind, hempty⟩ := bytes_of_fetch_some hfetch
  have hlength : s.bytes.length = len + t.bytes.length := by
    rw [s.bytes_drop hlen, List.length_append, length_stretch, hbytes]
  have hsame : (s.drop len).behind = s.behind := rfl
  rw [hsame] at hbehind hempty
  unfold SgSide.work
  refine ⟨by omega, fun hzero => ?_⟩
  have hlt := hempty (by show s.avail - len = 0; omega)
  omega

theorem copied_append (hws hws' : List Transfer) :
    copied (hws ++ hws') = copied hws ++ copied hws' := List.flatMap_append

/-- A descriptor that the controller accepts. -/
def Sized (t : Transfer) : Prop := 0 < t.count.toNat ∧ t.count.toNat ≤ fslDmaBcrMaxCnt.toNat

/-- The descriptor that one round asks for, if there is one. -/
def sgNew (f : Feature) (dst src : SgSide) : List Transfer :=
  if sgLen dst src = 0 then []
  else [⟨f.descWord src.addr, f.descWord dst.addr, BitVec.ofNat 32 (sgLen dst src)⟩]

/-- All the allocations succeed that are made for `hws` from number `n` on. -/
def Allocated (alloc : ℕ → Bool) (n : ℕ) (hws : List Transfer) : Prop :=
  ∀ m < hws.length, alloc (n + m) = true

instance (alloc : ℕ → Bool) (n : ℕ) (hws : List Transfer) : Decidable (Allocated alloc n hws) :=
  inferInstanceAs (Decidable (∀ m < _, _))

theorem allocated_nil {alloc : ℕ → Bool} {n : ℕ} : Allocated alloc n [] :=
  fun m hm => absurd hm (Nat.not_lt_zero m)

theorem allocated_append {alloc : ℕ → Bool} {n : ℕ} {hws hws' : List Transfer} :
    Allocated alloc n (hws ++ hws')
      ↔ Allocated alloc n hws ∧ Allocated alloc (n + hws.length) hws' := by
  unfold Allocated
  rw [List.length_append]
  constructor
  · refine fun h => ⟨fun m hm => h m (by omega), fun m hm => ?_⟩
    rw [Nat.add_assoc]
    exact h (hws.length + m) (by omega)
  · rintro ⟨h, h'⟩ m hm
    by_cases hfirst : m < hws.length
    · exact h m hfirst
    · have hlast := h' (m - hws.length) (by omega)
      rwa [Nat.add_assoc, Nat.add_sub_cancel' (Nat.le_of_not_lt hfirst)] at hlast

/-- One round makes the descriptor that it asks for, where it can be allocated. -/
theorem sgMake_eq (f : Feature) (alloc : ℕ → Bool) (n : ℕ) (dst src : SgSide) :
    sgMake f (alloc n) dst src
      = if Allocated alloc n (sgNew f dst src) then some (sgNew f dst src) else none := by
  unfold sgMake sgNew
  by_cases hzero : sgLen dst src = 0
  · rw [if_pos hzero, if_pos hzero, if_pos allocated_nil]
  · rw [if_neg hzero, if_neg hzero]
    refine if_congr ⟨fun halloc m hm => ?_, fun h => h 0 Nat.one_pos⟩ rfl rfl
    rw [Nat.lt_one_iff.mp hm]
    exact halloc

/-- It copies the next bytes of both sides. -/
theorem sgNew_copied (f : Feature) (dst src : SgSide) :
    copied (sgNew f dst src) = pairs src.addr dst.addr (sgLen dst src)
      ∧ ∀ t ∈ sgNew f dst src, Sized t := by
  have hmax : sgLen dst src ≤ fslDmaBcrMaxCnt.toNat := Nat.min_le_right ..
  have hlt : sgLen dst src < 2 ^ 32 := hmax.trans_lt fslDmaBcrMaxCnt.isLt
  unfold sgNew
  by_cases hzero : sgLen dst src = 0
  · rw [if_pos hzero, hzero]
    exact ⟨rfl, fun t ht => absurd ht List.not_mem_nil⟩
  · have hcount : (BitVec.ofNat 32 (sgLen dst src)).toNat = sgLen dst src := by
      rw [BitVec.toNat_ofNat, Nat.mod_eq_of_lt hlt]
    rw [if_neg hzero]
    refine ⟨?_, fun t ht => ?_⟩
    · simp only [copied, List.flatMap_cons, List.flatMap_nil, List.append_nil, Transfer.pairs,
        setWidth_descWord, hcount]
    · rw [List.mem_singleton.mp ht]
      unfold Sized
      dsimp only
      rw [hcount]
      exact ⟨Nat.pos_of_ne_zero hzero, hmax⟩

/-- The round after which one side is at its end is the last one. -/
theorem prepSgLoop_last (f : Feature) (alloc : ℕ → Bool) (fuel n : ℕ) {dst src : SgSide}
    (hend : (dst.drop (sgLen dst src)).fetch = none ∨ (src.drop (sgLen dst src)).fetch = none) :
    prepSgLoop f alloc (fuel + 1) n dst src = sgMake f (alloc n) dst src := by
  rw [prepSgLoop]
  cases sgMake f (alloc n) dst src with
  | none => rfl
  | some new =>
    rcases hend with hdst | hsrc
    · rw [hdst]
    · rw [hsrc]
      cases (dst.drop (sgLen dst src)).fetch with
      | none => rfl
      | some dst' => rfl

/-- A round that is not the last one leaves less to do: bytes were copied, or a buffer was empty. -/
theorem work_lt_of_fetch {dst src dst' src' : SgSide}
    (hd : (dst.drop (sgLen dst src)).fetch = some dst')
    (hs : (src.drop (sgLen dst src)).fetch = some src') :
    dst'.work + src'.work < dst.work + src.work := by
  have hdst : sgLen dst src ≤ dst.avail := (Nat.min_le_left ..).trans (Nat.min_le_right ..)
  have hsrc : sgLen dst src ≤ src.avail := (Nat.min_le_left ..).trans (Nat.min_le_left ..)
  obtain ⟨hdwork, hdlt⟩ := SgSide.work_round hdst hd
  obtain ⟨hswork, hslt⟩ := SgSide.work_round hsrc hs
  by_cases hzero : sgLen dst src = 0
  · have hmax : fslDmaBcrMaxCnt.toNat ≠ 0 := by decide
    have hempty : src.avail = 0 ∨ dst.avail = 0 := by
      unfold sgLen at hzero
      omega
    rcases hempty with hempty | hempty
    · have := hslt hempty
      omega
    · have := hdlt hempty
      omega
  · omega

/-- The bytes that both sides have in common, cut behind one round. -/
theorem zip_bytes_round (dst src : SgSide) :
    List.zip src.bytes dst.bytes = pairs src.addr dst.addr (sgLen dst src)
      ++ List.zip (src.drop (sgLen dst src)).bytes (dst.drop (sgLen dst src)).bytes := by
  have hdst : sgLen dst src ≤ dst.avail := (Nat.min_le_left ..).trans (Nat.min_le_right ..)
  have hsrc : sgLen dst src ≤ src.avail := (Nat.min_le_left ..).trans (Nat.min_le_left ..)
  rw [src.bytes_drop hsrc, dst.bytes_drop hdst, List.zip_append (by simp)]
  rfl

/-- **The loop.**  With fuel for all there is to do, it asks for descriptors that copy the bytes of
    the one side to those of the other one, up to the shorter side; it makes them where they can
    all be allocated, and fails otherwise. -/
theorem prepSgLoop_copied (f : Feature) (fuel : ℕ) (dst src : SgSide)
    (hfuel : dst.work + src.work < fuel) :
    ∃ hws, copied hws = List.zip src.bytes dst.bytes ∧ (∀ t ∈ hws, Sized t)
      ∧ ∀ alloc n, prepSgLoop f alloc fuel n dst src
        = if Allocated alloc n hws then some hws else none := by
  induction fuel generalizing dst src with
  | zero => cases hfuel
  | succ fuel ih =>
    obtain ⟨hnew, hsized⟩ := sgNew_copied f dst src
    by_cases hend : (dst.drop (sgLen dst src)).fetch = none
        ∨ (src.drop (sgLen dst src)).fetch = none
    · have hnone :
          List.zip (src.drop (sgLen dst src)).bytes (dst.drop (sgLen dst src)).bytes = [] := by
        rcases hend with hd | hs
        · rw [SgSide.bytes_of_fetch_none hd, List.zip_nil_right]
        · rw [SgSide.bytes_of_fetch_none hs, List.zip_nil_left]
      refine ⟨sgNew f dst src, ?_, hsized, fun alloc n => ?_⟩
      · rw [zip_bytes_round, hnone, List.append_nil, hnew]
      · rw [prepSgLoop_last f alloc fuel n hend, sgMake_eq]
    · rw [not_or] at hend
      obtain ⟨dst', hd⟩ := Option.ne_none_iff_exists'.mp hend.1
      obtain ⟨src', hs⟩ := Option.ne_none_iff_exists'.mp hend.2
      have hless := work_lt_of_fetch hd hs
      obtain ⟨hws, hcopied, hsizes, hrest⟩ := ih dst' src' (by omega)
      refine ⟨sgNew f dst src ++ hws, ?_, fun t ht => ?_, fun alloc n => ?_⟩
      · rw [zip_bytes_round, copied_append, hnew, hcopied, (SgSide.bytes_of_fetch_some hd).1,
          (SgSide.bytes_of_fetch_some hs).1]
      · rcases List.mem_append.mp ht with ht | ht
        · exact hsized t ht
        · exact hsizes t ht
      · rw [prepSgLoop, sgMake_eq, hd, hs]
        by_cases hfirst : Allocated alloc n (sgNew f dst src)
        · rw [if_pos hfirst]
          dsimp only
          rw [hrest]
          by_cases hmore : Allocated alloc (n + (sgNew f dst src).length) hws
          · rw [if_pos hmore, if_pos (allocated_append.mpr ⟨hfirst, hmore⟩)]
            rfl
          · rw [if_neg hmore, if_neg fun h => hmore (allocated_append.mp h).2]
            rfl
        · rw [if_neg hfirst, if_neg fun h => hfirst (allocated_append.mp h).1]

/-! ### The whole lists -/

/-- Rounds enough for a list. -/
theorem SgSide.work_start (sg : Scatterlist) (behind : List Scatterlist) (nents : ℕ) :
    (SgSide.start sg behind nents).work < sgRounds (sg :: behind) := by
  have hbytes (sgs : List Scatterlist) (m : ℕ) :
      (sgBytes (sgs.take m)).length + sgs.length ≤ sgRounds sgs := by
    induction sgs generalizing m with
    | nil => simp [sgBytes, sgRounds]
    | cons sg sgs ih =>
      have hcons : sgRounds (sg :: sgs) = sg.dmaLen.toNat + 1 + sgRounds sgs := by
        simp [sgRounds]
      cases m with
      | zero =>
        have := ih 0
        simp only [List.take_zero, sgBytes, List.flatMap_nil, List.length_nil] at this ⊢
        rw [hcons, List.length_cons]
        omega
      | succ m =>
        have := ih m
        rw [List.take_succ_cons, hcons, List.length_cons]
        simp only [sgBytes, List.flatMap_cons, List.length_append, Scatterlist.bytes,
          length_stretch] at this ⊢
        omega
  have := hbytes (sg :: behind) (nents + 1)
  rw [List.length_cons, ← SgSide.bytes_start] at this
  unfold SgSide.work
  exact Nat.lt_of_lt_of_le (by show _ + behind.length < _ + (behind.length + 1); omega) this

@[simp] theorem map_hw_sgDescs (hws : List Transfer) : (sgDescs hws).map (·.hw) = hws := by
  induction hws with
  | nil => rfl
  | cons hw hws ih =>
    cases hws with
    | nil => rfl
    | cons hw' hws =>
      rw [sgDescs, List.map_cons, ih]
      exact List.cons_ne_nil _ _

/-- The bytes that are to be copied: of each list one buffer more than asked for, if there is one,
    up to the shorter of the two. -/
def sgPairs (dstSg : List Scatterlist) (dstNents : ℕ) (srcSg : List Scatterlist) (srcNents : ℕ) :
    List (Word × Word) :=
  List.zip (sgBytes (srcSg.take (srcNents + 1))) (sgBytes (dstSg.take (dstNents + 1)))

/-- Descriptors of this kind copy something. -/
theorem copied_ne_nil {hws : List Transfer} (hsized : ∀ t ∈ hws, Sized t) (hnil : hws ≠ []) :
    copied hws ≠ [] := by
  cases hws with
  | nil => exact absurd rfl hnil
  | cons hw rest =>
    intro hcopied
    have hpos := (hsized hw List.mem_cons_self).1
    have hlength := congrArg List.length hcopied
    simp only [copied, List.flatMap_cons, List.length_append, Transfer.pairs, Copy.pairs,
      List.length_zip, length_stretch, List.length_nil] at hlength
    omega

/-- What the function makes of the loop's descriptors. -/
theorem fslDmaPrepSg_made (f : Feature) (dstSg : List Scatterlist) (dstNents : ℕ)
    (srcSg : List Scatterlist) (srcNents : ℕ) :
    ((dstNents = 0 ∨ srcNents = 0 ∨ dstSg = [] ∨ srcSg = [])
        ∧ ∀ alloc, fslDmaPrepSg f alloc dstSg dstNents srcSg srcNents = .null)
      ∨ ∃ hws, copied hws = sgPairs dstSg dstNents srcSg srcNents ∧ (∀ t ∈ hws, Sized t)
        ∧ ∀ alloc, fslDmaPrepSg f alloc dstSg dstNents srcSg srcNents
          = if Allocated alloc 0 hws then if hws = [] then .oops else .chain (sgDescs hws)
            else .null := by
  unfold fslDmaPrepSg
  by_cases hnents : dstNents = 0 ∨ srcNents = 0
  · exact Or.inl ⟨hnents.imp_right Or.inl, fun _ => if_pos hnents⟩
  cases dstSg with
  | nil => exact Or.inl ⟨Or.inr (Or.inr (Or.inl rfl)), fun _ => if_neg hnents⟩
  | cons dst dstBehind =>
    cases srcSg with
    | nil => exact Or.inl ⟨Or.inr (Or.inr (Or.inr rfl)), fun _ => if_neg hnents⟩
    | cons src srcBehind =>
      obtain ⟨hws, hcopied, hsized, hloop⟩ := prepSgLoop_copied f _ _ _
        (Nat.add_lt_add (SgSide.work_start dst dstBehind dstNents)
          (SgSide.work_start src srcBehind srcNents))
      rw [SgSide.bytes_start, SgSide.bytes_start] at hcopied
      refine Or.inr ⟨hws, hcopied, hsized, fun alloc => ?_⟩
      rw [if_neg hnents]
      dsimp only
      rw [hloop]
      by_cases halloc : Allocated alloc 0 hws
      · rw [if_pos halloc, if_pos halloc]
        cases hws with
        | nil => rfl
        | cons hw rest => rw [if_neg (List.cons_ne_nil _ _)]
      · rw [if_neg halloc, if_neg halloc]

/-- **Scatter/gather.**  The function returns `NULL` for lists without entries, and where there is
    something to copy and one of the descriptors that it asks for cannot be allocated; it uses a
    descriptor that has not been made exactly where there is nothing to copy; otherwise its
    descriptors copy the bytes of the one list to those of the other one, each of them no more than
    one descriptor can. -/
theorem fslDmaPrepSg_spec (f : Feature) (alloc : ℕ → Bool) (dstSg : List Scatterlist)
    (dstNents : ℕ) (srcSg : List Scatterlist) (srcNents : ℕ) :
    match fslDmaPrepSg f alloc dstSg dstNents srcSg srcNents with
    | .null => dstNents = 0 ∨ srcNents = 0 ∨ dstSg = [] ∨ srcSg = []
        ∨ sgPairs dstSg dstNents srcSg srcNents ≠ []
          ∧ ∃ descs, fslDmaPrepSg f (fun _ => true) dstSg dstNents srcSg srcNents = .chain descs
            ∧ ∃ n < descs.length, alloc n = false ∧ ∀ m < n, alloc m = true
    | .oops => sgPairs dstSg dstNents srcSg srcNents = []
    | .chain descs => copied (descs.map (·.hw)) = sgPairs dstSg dstNents srcSg srcNents
        ∧ sgPairs dstSg dstNents srcSg srcNents ≠ [] ∧ (∀ desc ∈ descs, Sized desc.hw)
        ∧ ∀ n < descs.length, alloc n = true := by
  rcases fslDmaPrepSg_made f dstSg dstNents srcSg srcNents with
    ⟨hempty, hnull⟩ | ⟨hws, hcopied, hsized, hresult⟩
  · rw [hnull]
    exact hempty.imp_right (Or.imp_right (Or.imp_right Or.inl))
  · have hlength : (sgDescs hws).length = hws.length := by
      rw [← List.length_map (fun d : Desc => d.hw), map_hw_sgDescs]
    rw [hresult]
    by_cases halloc : Allocated alloc 0 hws
    · rw [if_pos halloc]
      by_cases hnil : hws = []
      · rw [if_pos hnil]
        dsimp only
        rw [← hcopied, hnil]
        rfl
      · rw [if_neg hnil]
        dsimp only
        rw [map_hw_sgDescs, ← hcopied, hlength]
        refine ⟨rfl, copied_ne_nil hsized hnil, fun desc hdesc => ?_, fun n hn => ?_⟩
        · apply hsized
          have hmem := List.mem_map_of_mem (f := fun d : Desc => d.hw) hdesc
          rwa [map_hw_sgDescs] at hmem
        · exact Nat.zero_add n ▸ halloc n hn
    · rw [if_neg halloc]
      -- the first allocation that fails
      have hfails : ∃ n, n < hws.length ∧ alloc n = false := by
        by_contra hnone
        refine halloc fun m hm => ?_
        rw [Nat.zero_add, ← Bool.not_eq_false]
        exact fun hfail => hnone ⟨m, hm, hfail⟩
      obtain ⟨hlt, hfail⟩ := Nat.find_spec hfails
      have hnil : hws ≠ [] := List.ne_nil_of_length_pos (Nat.zero_lt_of_lt hlt)
      refine Or.inr (Or.inr (Or.inr (Or.inr ⟨?_, sgDescs hws, ?_, Nat.find hfails, ?_, hfail, ?_⟩)))
      · rw [← hcopied]
        exact copied_ne_nil hsized hnil
      · have hall : Allocated (fun _ => true) 0 hws := fun _ _ => rfl
        rw [hresult, if_pos hall, if_neg hnil]
      · rwa [hlength]
      · intro m hm
        have hnot := Nat.find_min hfails hm
        rw [not_and, Bool.not_eq_false] at hnot
        exact hnot (hm.trans hlt)

/-- **Memory.**  Lists no longer than their numbers of entries, with destinations that are neither
    written twice nor read: when the controller has carried out the descriptors, each byte of the
    destination, up to the length of the source, holds what its source held, and the rest of
    memory is as it was. -/
theorem fslDmaPrepSg_memory (f : Feature) (alloc : ℕ → Bool) (dstSg : List Scatterlist)
    (dstNents : ℕ) (srcSg : List Scatterlist) (srcNents : ℕ) (descs : List Desc)
    (mem : Word → Byte) (hdst : dstSg.length ≤ dstNents) (hsrc : srcSg.length ≤ srcNents)
    (hnodup : (sgBytes dstSg).Nodup) (hapart : ∀ a ∈ sgBytes srcSg, a ∉ sgBytes dstSg)
    (hprep : fslDmaPrepSg f alloc dstSg dstNents srcSg srcNents = .chain descs) :
    (∀ p ∈ List.zip (sgBytes srcSg) (sgBytes dstSg),
        copyAll mem (copied (descs.map (·.hw))) p.2 = mem p.1)
      ∧ ∀ a ∉ (sgBytes dstSg).take (sgBytes srcSg).length,
        copyAll mem (copied (descs.map (·.hw))) a = mem a := by
  have hcopied : copied (descs.map (·.hw)) = List.zip (sgBytes srcSg) (sgBytes dstSg) := by
    have hspec := fslDmaPrepSg_made f dstSg dstNents srcSg srcNents
    rcases hspec with ⟨-, hnull⟩ | ⟨hws, hpairs, -, hresult⟩
    · rw [hnull] at hprep
      cases hprep
    · rw [hresult] at hprep
      split at hprep
      · split at hprep
        · cases hprep
        · obtain rfl := PrepSg.chain.inj hprep
          rw [map_hw_sgDescs, hpairs, sgPairs, List.take_of_length_le (by omega),
            List.take_of_length_le (by omega)]
      · cases hprep
  have hwritten := snd_zip (sgBytes srcSg) (sgBytes dstSg)
  have hsub : (sgBytes dstSg).take (sgBytes srcSg).length ⊆ sgBytes dstSg := List.take_subset _ _
  rw [hcopied]
  constructor
  · refine fun p hp => copyAll_of_mem ?_ (fun q hq hmem => ?_) hp
    · rw [hwritten]
      exact hnodup.sublist (List.take_sublist _ _)
    · rw [hwritten] at hmem
      exact hapart q.1 (List.of_mem_zip hq).1 (hsub hmem)
  · intro a ha
    apply copyAll_of_notMem
    rwa [hwritten]

/-- Three bytes to two buffers. -/
theorem fslDmaPrepSg_memory_threeBytes :
    copyAll (fun a : Word => a.setWidth 8)
        (copied [⟨Feature.descWord ⟨.ip83xx, false, false⟩ 0x10,
            Feature.descWord ⟨.ip83xx, false, false⟩ 0x100, 2⟩,
          ⟨Feature.descWord ⟨.ip83xx, false, false⟩ 0x12,
            Feature.descWord ⟨.ip83xx, false, false⟩ 0x200, 1⟩]) 0x200 = (0x12 : Byte) :=
  (fslDmaPrepSg_memory ⟨.ip83xx, false, false⟩ (fun _ => true) [⟨0x100, 2⟩, ⟨0x200, 1⟩] 2
    [⟨0x10, 3⟩] 1 [⟨⟨_, _, 2⟩, 0, none⟩, ⟨⟨_, _, 1⟩, busyCookie, none⟩]
    (fun a => a.setWidth 8) (by decide) (by decide) (by decide +kernel)
    (fun a ha => of_decide_eq_true (List.all_eq_true.mp (by decide +kernel :
      ((sgBytes [⟨0x10, 3⟩]).all fun a => decide (a ∉ sgBytes [⟨0x100, 2⟩, ⟨0x200, 1⟩])) = true)
      a ha)) (by decide +kernel)).1 (0x12, 0x200) (by decide +kernel)

/-! ### One buffer on each side -/

/-- What is left of one buffer, with no other one behind it. -/
def oneSide (addr len : Word) (avail : ℕ) : SgSide := ⟨⟨addr, len⟩, avail, [], 1⟩

/-- A side with nothing behind it ends with its buffer. -/
theorem fetch_oneSide (addr len : Word) (avail : ℕ) :
    (oneSide addr len avail).fetch = if avail = 0 then none else some (oneSide addr len avail) := by
  show (if avail ≠ 0 then some (oneSide addr len avail) else none) = _
  by_cases havail : avail = 0
  · rw [if_neg (not_not.mpr havail), if_pos havail]
  · rw [if_pos havail, if_neg havail]

/-- **One buffer.**  On one buffer for each side, round for round the descriptors are those of
    `fsl_dma_prep_memcpy`. -/
theorem prepSgLoop_oneSide (f : Feature) (alloc : ℕ → Bool) (dst src len : Word)
    (fuel fuel' n : ℕ) (left : Word) (hleft : left ≠ 0) (hfuel : left.toNat ≤ fuel)
    (hfuel' : left.toNat ≤ fuel') :
    prepSgLoop f alloc fuel n (oneSide dst len left.toNat) (oneSide src len left.toNat)
      = (fslDmaPrepMemcpyLoop f alloc fuel' n (dst + len - left) (src + len - left) left).map
          (List.map (·.hw)) := by
  induction fuel generalizing fuel' n left with
  | zero => exact absurd (BitVec.eq_of_toNat_eq (Nat.le_zero.mp hfuel)) hleft
  | succ fuel ih =>
    cases fuel' with
    | zero => exact absurd (BitVec.eq_of_toNat_eq (Nat.le_zero.mp hfuel')) hleft
    | succ fuel' =>
      have hpos : 0 < left.toNat := by
        apply Nat.pos_of_ne_zero
        intro hzero
        exact hleft (BitVec.eq_of_toNat_eq hzero)
      -- what one round copies
      obtain ⟨copy, hcopy⟩ : ∃ copy : Word,
          copy = if left ≤ fslDmaBcrMaxCnt then left else fslDmaBcrMaxCnt := ⟨_, rfl⟩
      have hlen (d s : Word) :
          sgLen (oneSide d len left.toNat) (oneSide s len left.toNat) = copy.toNat := by
        show min (min left.toNat left.toNat) fslDmaBcrMaxCnt.toNat = copy.toNat
        rw [Nat.min_self, hcopy]
        split
        · rename_i hle
          exact Nat.min_eq_left hle
        · rename_i hle
          exact Nat.min_eq_right (Nat.le_of_not_le hle)
      have hmax : 0 < fslDmaBcrMaxCnt.toNat := by decide
      have hcopyPos : 0 < copy.toNat := by
        rw [← hlen dst src]
        exact Nat.lt_min.mpr ⟨Nat.lt_min.mpr ⟨hpos, hpos⟩, hmax⟩
      have hcopyLe : copy ≤ left := by
        have hle : copy.toNat ≤ left.toNat := by
          rw [← hlen dst src]
          exact (Nat.min_le_left ..).trans (Nat.min_le_left ..)
        exact hle
      have hsub : (left - copy).toNat = left.toNat - copy.toNat := BitVec.toNat_sub_of_le hcopyLe
      have hdrop (addr : Word) : (oneSide addr len left.toNat).drop copy.toNat
          = oneSide addr len (left - copy).toNat := by
        rw [hsub]
        rfl
      have haddr (addr : Word) : (oneSide addr len left.toNat).addr = addr + len - left := by
        show addr + len - BitVec.ofNat 32 left.toNat = _
        rw [BitVec.ofNat_toNat, BitVec.setWidth_eq]
      have hcount : BitVec.ofNat 32 copy.toNat = copy := by
        rw [BitVec.ofNat_toNat, BitVec.setWidth_eq]
      rw [prepSgLoop, fslDmaPrepMemcpyLoop, sgMake, hlen, if_neg hcopyPos.ne', haddr, haddr, hcount,
        ← hcopy]
      cases halloc : alloc n with
      | false =>
        rw [if_neg Bool.false_ne_true, if_pos rfl]
        rfl
      | true =>
        rw [if_pos rfl, if_neg (by decide)]
        dsimp only
        rw [hdrop, hdrop, fetch_oneSide, fetch_oneSide]
        by_cases hdone : left - copy = 0
        · rw [hdone]
          rfl
        · have hmore : (left - copy).toNat ≠ 0 := fun hzero => hdone (BitVec.eq_of_toNat_eq hzero)
          have hnext (addr : Word) :
              addr + len - left + copy = addr + len - (left - copy) := by
            abel
          rw [if_neg hmore, if_neg hdone, if_neg hmore]
          dsimp only
          rw [List.length_singleton, ih fuel' (n + 1) (left - copy) hdone (by omega) (by omega),
            hnext, hnext, Option.map_map, Option.map_map]
          rfl

/-- The descriptors of a result. -/
def PrepSg.hws : PrepSg → Option (List Transfer)
  | .null => none
  | .oops => none
  | .chain descs => some (descs.map (·.hw))

/-- **The optimised path.**  For one buffer of one length on each side `fsl_dma_prep_sg` makes the
    hardware descriptors of `fsl_dma_prep_memcpy`, and fails where that fails. -/
theorem fslDmaPrepSg_single (f : Feature) (alloc : ℕ → Bool) (dst src len : Word) (hlen : len ≠ 0) :
    (fslDmaPrepSg f alloc [⟨dst, len⟩] 1 [⟨src, len⟩] 1).hws
      = (fslDmaPrepMemcpy f alloc dst src len).map (List.map (·.hw)) := by
  have hone := prepSgLoop_oneSide f alloc dst src len
    (sgRounds [⟨dst, len⟩] + sgRounds [⟨src, len⟩]) len.toNat 0 len hlen
    (by simp only [sgRounds, List.map_cons, List.map_nil, List.sum_cons, List.sum_nil]; omega)
    (Nat.le_refl _)
  have hstart (addr : Word) : SgSide.start ⟨addr, len⟩ [] 1 = oneSide addr len len.toNat := rfl
  rw [add_sub_cancel_right, add_sub_cancel_right, ← hstart, ← hstart] at hone
  obtain ⟨hws, hcopied, -, hloop⟩ := prepSgLoop_copied f _ _ _ (Nat.add_lt_add
    (SgSide.work_start ⟨dst, len⟩ [] 1) (SgSide.work_start ⟨src, len⟩ [] 1))
  rw [fslDmaPrepMemcpy, if_neg hlen, ← hone]
  unfold fslDmaPrepSg
  rw [if_neg (by decide)]
  dsimp only
  rw [hloop]
  by_cases halloc : Allocated alloc 0 hws
  · rw [if_pos halloc]
    cases hws with
    | nil =>
      -- there is something to copy
      rw [SgSide.bytes_start, SgSide.bytes_start] at hcopied
      have hlength := congrArg List.length hcopied
      simp [copied, sgBytes, Scatterlist.bytes] at hlength
      exact absurd (BitVec.eq_of_toNat_eq hlength.symm) hlen
    | cons hw rest =>
      show some ((sgDescs (hw :: rest)).map (·.hw)) = some (hw :: rest)
      rw [map_hw_sgDescs]
  · rw [if_neg halloc]
    rfl

/-- More than one descriptor can copy. -/
theorem fslDmaPrepSg_single_large :
    (fslDmaPrepSg ⟨.ip83xx, false, false⟩ (fun n => n < 2) [⟨0, 0x8000000⟩] 1
        [⟨0x10000000, 0x8000000⟩] 1).hws
      = (fslDmaPrepMemcpy ⟨.ip83xx, false, false⟩ (fun n => n < 2) 0 0x10000000 0x8000000).map
        (List.map (·.hw)) :=
  fslDmaPrepSg_single _ _ _ _ _ (by decide)

/-- **Whole copies.**  The descriptors of `fsl_dma_prep_memcpy` copy `len` bytes one behind the
    other, whatever the number of descriptors. -/
theorem fslDmaPrepMemcpy_copied (f : Feature) (alloc : ℕ → Bool) (dst src len : Word)
    (descs : List Desc) (hprep : fslDmaPrepMemcpy f alloc dst src len = some descs) :
    copied (descs.map (·.hw)) = pairs src dst len.toNat ∧ ∀ desc ∈ descs, Sized desc.hw := by
  have hlen : len ≠ 0 := by
    rintro rfl
    rw [fslDmaPrepMemcpy, if_pos rfl] at hprep
    cases hprep
  rw [fslDmaPrepMemcpy, if_neg hlen] at hprep
  have hstart (addr : Word) : SgSide.start ⟨addr, len⟩ [] 1 = oneSide addr len len.toNat := rfl
  have hone := prepSgLoop_oneSide f alloc dst src len
    (sgRounds [⟨dst, len⟩] + sgRounds [⟨src, len⟩]) len.toNat 0 len hlen
    (by simp only [sgRounds, List.map_cons, List.map_nil, List.sum_cons, List.sum_nil]; omega)
    (Nat.le_refl _)
  obtain ⟨hws, hcopied, hsized, hloop⟩ := prepSgLoop_copied f _ _ _ (Nat.add_lt_add
    (SgSide.work_start ⟨dst, len⟩ [] 1) (SgSide.work_start ⟨src, len⟩ [] 1))
  rw [add_sub_cancel_right, add_sub_cancel_right, ← hstart, ← hstart, hprep, Option.map_some,
    hloop, Option.ite_none_right_eq_some] at hone
  obtain ⟨-, hmade⟩ := hone
  obtain rfl := Option.some.inj hmade
  rw [SgSide.bytes_start, SgSide.bytes_start] at hcopied
  refine ⟨?_, fun desc hdesc => hsized desc.hw (List.mem_map_of_mem hdesc)⟩
  rw [hcopied]
  simp [sgBytes, Scatterlist.bytes, pairs]

/-- One byte more than one descriptor copies. -/
theorem fslDmaPrepMemcpy_copied_two :
    copied [⟨Feature.descWord ⟨.ip83xx, false, false⟩ 0x10000000,
        Feature.descWord ⟨.ip83xx, false, false⟩ 0, 0x3ffffff⟩,
      ⟨Feature.descWord ⟨.ip83xx, false, false⟩ 0x13ffffff,
        Feature.descWord ⟨.ip83xx, false, false⟩ 0x3ffffff, 1⟩]
      = pairs (0x10000000 : Word) 0 (0x4000000 : Word).toNat :=
  (fslDmaPrepMemcpy_copied ⟨.ip83xx, false, false⟩ (fun _ => true) 0 0x10000000 0x4000000
    [⟨⟨_, _, 0x3ffffff⟩, 0, none⟩, ⟨⟨_, _, 1⟩, busyCookie, none⟩] (by decide +kernel)).1

end Vpx3.Dma
