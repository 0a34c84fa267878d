import Mathlib.Data.Nat.Bitwise
import Mathlib.Order.Bounds.Defs

namespace Vpx3.Bits

/-!
# Library — masks and packed fields as arithmetic

Driver code packs small fields into machine words with shifts, ORs and masks.  These
lemmas turn such words into sums, products and remainders of natural numbers, where
`omega` takes over.  The last ones round a size up to a power of two.
-/

/-- Flipping every bit of a mask counts down from the top of the mask. -/
theorem xor_mask {k x : Nat} (h : x < 2 ^ k) : x ^^^ (2 ^ k - 1) = 2 ^ k - 1 - x := by
  have hx : (BitVec.ofNat k x).toNat = x := by
    rw [BitVec.toNat_ofNat, Nat.mod_eq_of_lt h]
  have hones : (BitVec.allOnes k).toNat = 2 ^ k - 1 := BitVec.toNat_allOnes
  calc x ^^^ (2 ^ k - 1)
      = (BitVec.ofNat k x ^^^ BitVec.allOnes k).toNat := by rw [BitVec.toNat_xor, hx, hones]
    _ = (~~~(BitVec.ofNat k x)).toNat := by rw [BitVec.xor_allOnes]
    _ = 2 ^ k - 1 - x := by rw [BitVec.toNat_not, hx]

/-- A low field below the shifted high field: the OR is a sum. -/
theorem shift_or {k b : Nat} (a : Nat) (h : b < 2 ^ k) : a <<< k ||| b = a * 2 ^ k + b := by
  rw [← Nat.shiftLeft_add_eq_or_of_lt h, Nat.shiftLeft_eq]

/-- A concatenation weighs its high part with the width of the low one. -/
theorem toNat_append {m n : ℕ} (x : BitVec m) (y : BitVec n) :
    (x ++ y).toNat = x.toNat * 2 ^ n + y.toNat := by
  rw [BitVec.toNat_append, shift_or _ y.isLt]

/-- A field read back is a quotient and a remainder. -/
theorem toNat_extractLsb' {n : ℕ} (x : BitVec n) (start len : ℕ) :
    (x.extractLsb' start len).toNat = x.toNat / 2 ^ start % 2 ^ len := by
  rw [BitVec.extractLsb'_toNat, Nat.shiftRight_eq_div_pow]

/-- Masking with a single bit keeps that bit in its place. -/
theorem and_bit (k x : Nat) : x &&& 2 ^ k = (x / 2 ^ k % 2) * 2 ^ k := by
  rw [Nat.and_two_pow, Nat.toNat_testBit]

/-! ### Powers of two -/

/-- The number above the highest set bit is the least power of two above. -/
theorem isLeast_pow_log2 {n : Nat} (hn : n ≠ 0) (hpow : ¬n.isPowerOfTwo) :
    IsLeast {m | n ≤ m ∧ m.isPowerOfTwo} (2 ^ (n.log2 + 1)) := by
  refine ⟨⟨Nat.lt_log2_self.le, n.log2 + 1, rfl⟩, ?_⟩
  rintro m ⟨hle, k, rfl⟩
  have hlt : n < 2 ^ k := lt_of_le_of_ne hle fun h => hpow ⟨k, h⟩
  exact Nat.pow_le_pow_right (by decide) ((Nat.log2_lt hn).mpr hlt)

/-- A power of two is the least one not below itself. -/
theorem isLeast_self {n : Nat} (hpow : n.isPowerOfTwo) :
    IsLeast {m | n ≤ m ∧ m.isPowerOfTwo} n :=
  ⟨⟨le_rfl, hpow⟩, fun _ h => h.1⟩

end Vpx3.Bits
