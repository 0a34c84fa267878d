import Mathlib

namespace Vpx3.Flags

/-!
# Library — flags of a register

* `isSet` — whether any bit of a mask is set in a word;
* `isSet_or`, `isSet_clear`, `isSet_clear_of_disjoint` — what setting and clearing bits does to it.
-/

variable {w : ℕ}

/-- Some bit of the mask is set. -/
def isSet (v mask : BitVec w) : Bool := v &&& mask != 0

theorem isSet_zero (mask : BitVec w) : isSet 0 mask = false := by
  unfold isSet
  simp

/-- Bits that are set. -/
theorem isSet_or (v u mask : BitVec w) : isSet (v ||| u) mask = (isSet v mask || isSet u mask) := by
  have h : (v ||| u) &&& mask = 0 ↔ v &&& mask = 0 ∧ u &&& mask = 0 := by
    rw [BitVec.and_or_distrib_right]
    exact BitVec.or_eq_zero_iff
  rw [Bool.eq_iff_iff, Bool.or_eq_true]
  unfold isSet
  rw [bne_iff_ne, bne_iff_ne, bne_iff_ne, ne_eq, h, not_and_or]

/-- Bits that are cleared. -/
theorem isSet_clear (v mask : BitVec w) : isSet (v &&& ~~~mask) mask = false := by
  unfold isSet
  rw [BitVec.and_assoc, BitVec.and_comm (~~~mask), BitVec.and_not_self]
  simp

/-- More bits that are cleared. -/
theorem isSet_clear_of_subset {u mask : BitVec w} (v : BitVec w) (h : u &&& mask = mask) :
    isSet (v &&& ~~~u) mask = false := by
  unfold isSet
  rw [← h, ← BitVec.and_assoc, BitVec.and_assoc v, BitVec.and_comm (~~~u), BitVec.and_not_self]
  simp

/-- Other bits that are cleared. -/
theorem isSet_clear_of_disjoint {u mask : BitVec w} (v : BitVec w) (h : u &&& mask = 0) :
    isSet (v &&& ~~~u) mask = isSet v mask := by
  have hmask : ~~~u &&& mask = mask := by
    apply BitVec.eq_of_getLsbD_eq
    intro i hi
    have hbit := congrArg (·.getLsbD i) h
    simp only [BitVec.getLsbD_and] at hbit
    rw [BitVec.getLsbD_and, BitVec.getLsbD_not, decide_eq_true hi, Bool.true_and]
    cases hu : u.getLsbD i with
    | false => rfl
    | true =>
      rw [hu, Bool.true_and] at hbit
      rw [hbit]
      simp
  unfold isSet
  rw [BitVec.and_assoc, hmask]

end Vpx3.Flags
