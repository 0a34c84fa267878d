import Mathlib

namespace Vpx3.Fifos

/-!
# Library — a bounded FIFO and records in it

* `Fifo` — elements in order, no more than fit; `Fifo.put` takes as many as there is room for,
  `Fifo.take` gives as many as there are;
* `Records` — the FIFO holds records of one length, end to end;
* `Records.put`, `Records.take` — whole records go in and come out.
-/

variable {β : Type*}

/-- A FIFO of a given size. -/
structure Fifo (β : Type*) where
  size : ℕ
  contents : List β
  fits : contents.length ≤ size

namespace Fifo

/-- The empty FIFO. -/
def empty (size : ℕ) : Fifo β := ⟨size, [], Nat.zero_le size⟩

/-- Room that is left. -/
def avail (f : Fifo β) : ℕ := f.size - f.contents.length

/-- As many elements go in as there is room for. -/
def put (f : Fifo β) (xs : List β) : Fifo β where
  size := f.size
  contents := f.contents ++ xs.take f.avail
  fits := by
    have hfits := f.fits
    rw [List.length_append, List.length_take]
    unfold avail
    omega

/-- Up to a given number of elements come out. -/
def take (f : Fifo β) (n : ℕ) : List β × Fifo β :=
  (f.contents.take n, ⟨f.size, f.contents.drop n, by
    have hfits := f.fits
    rw [List.length_drop]
    omega⟩)

end Fifo

variable {k : ℕ} {f : Fifo β} {r : List β} {rs : List (List β)}

/-- Records of one length, end to end. -/
structure Records (k : ℕ) (rs : List (List β)) (f : Fifo β) : Prop where
  contents : f.contents = rs.flatten
  length : ∀ r ∈ rs, r.length = k

/-- An empty FIFO holds no record. -/
theorem Records.empty (k size : ℕ) : Records k [] (Fifo.empty size : Fifo β) where
  contents := rfl
  length _ h := absurd h List.not_mem_nil

/-- The space that records take. -/
theorem Records.space (h : Records k rs f) : f.contents.length = rs.length * k := by
  rw [h.contents, List.length_flatten, List.eq_replicate_of_mem (a := k)
    (l := rs.map List.length) (by simpa using h.length), List.sum_replicate, List.length_map]
  rfl

/-- No more records than fit. -/
theorem Records.length_le (h : Records k rs f) (hk : 0 < k) : rs.length ≤ f.size / k := by
  rw [Nat.le_div_iff_mul_le hk, ← h.space]
  exact f.fits

/-- **A record goes in** whole where there is room for it. -/
theorem Records.put (h : Records k rs f) (hr : r.length = k) (hroom : k ≤ f.avail) :
    Records k (rs ++ [r]) (f.put r) where
  contents := by
    show f.contents ++ r.take f.avail = _
    rw [List.take_of_length_le (hr.trans_le hroom), h.contents, List.flatten_append,
      List.flatten_singleton]
  length := by
    intro r' hr'
    rcases List.mem_append.mp hr' with hold | hnew
    · exact h.length r' hold
    · rw [List.mem_singleton.mp hnew, hr]

/-- **The first record comes out** whole. -/
theorem Records.take (h : Records k (r :: rs) f) :
    (f.take k).1 = r ∧ Records k rs (f.take k).2 := by
  have hr := h.length r List.mem_cons_self
  have hcontents := h.contents
  rw [List.flatten_cons] at hcontents
  refine ⟨?_, ⟨?_, fun r' hr' => h.length r' (List.mem_cons_of_mem r hr')⟩⟩
  · show f.contents.take k = r
    rw [hcontents, ← hr, List.take_left]
  · show f.contents.drop k = rs.flatten
    rw [hcontents, ← hr, List.drop_left]

/-- A FIFO is empty when it holds no record. -/
theorem Records.contents_eq_nil (h : Records k rs f) (hk : 0 < k) : f.contents = [] ↔ rs = [] := by
  rw [← List.length_eq_zero_iff, h.space, Nat.mul_eq_zero, List.length_eq_zero_iff,
    or_iff_left (Nat.ne_of_gt hk)]

end Vpx3.Fifos
