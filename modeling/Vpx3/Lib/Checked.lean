import Mathlib.Algebra.Order.Ring.Abs
import Mathlib.Algebra.Order.Ring.Int
import Mathlib.Tactic.Ring

namespace Vpx3.Checked

/-!
# Library — signed machine arithmetic that notices overflow

An operation of a signed type of `w` bits has a result only if the type can represent it.

* `checked w x` — `x` as a value of the type, `none` if it is out of range;
* `add`, `sub`, `mul` — the operations, each with the rule that gives its result from a bound;
* `div` — the quotient cut off towards zero, `none` on division by zero as well;
* `mul_of_abs_le` — the rule for products of bounded factors.
-/

/-- The values of a signed type of `w` bits. -/
def InRange (w : ℕ) (x : ℤ) : Prop := -2 ^ (w - 1) ≤ x ∧ x < 2 ^ (w - 1)

instance (w : ℕ) (x : ℤ) : Decidable (InRange w x) := inferInstanceAs (Decidable (_ ∧ _))

/-- `x` as a value of the type. -/
def checked (w : ℕ) (x : ℤ) : Option ℤ := if InRange w x then some x else none

def add (w : ℕ) (x y : ℤ) : Option ℤ := checked w (x + y)
def sub (w : ℕ) (x y : ℤ) : Option ℤ := checked w (x - y)
def mul (w : ℕ) (x y : ℤ) : Option ℤ := checked w (x * y)
def div (w : ℕ) (x y : ℤ) : Option ℤ := if y = 0 then none else checked w (x.tdiv y)

variable {w : ℕ} {x y : ℤ}

/-- A value in range is the result, and only such a value. -/
@[simp] theorem checked_eq_some {z : ℤ} : checked w x = some z ↔ InRange w x ∧ x = z := by
  rw [checked]
  split
  · rename_i h
    rw [Option.some.injEq]
    exact ⟨fun hz => ⟨h, hz⟩, And.right⟩
  · rename_i h
    exact iff_of_false (fun hz => Option.some_ne_none z hz.symm) fun hz => h hz.1

/-- A magnitude below the top of the type is in range. -/
theorem InRange.of_abs (h : |x| < 2 ^ (w - 1)) : InRange w x := by
  obtain ⟨hlo, hhi⟩ := abs_lt.mp h
  exact ⟨hlo.le, hhi⟩

theorem checked_of_abs (h : |x| < 2 ^ (w - 1)) : checked w x = some x :=
  checked_eq_some.mpr ⟨.of_abs h, rfl⟩

theorem add_of_abs (h : |x + y| < 2 ^ (w - 1)) : add w x y = some (x + y) := checked_of_abs h

theorem sub_of_abs (h : |x - y| < 2 ^ (w - 1)) : sub w x y = some (x - y) := checked_of_abs h

/-- Quotients are no larger than what is divided. -/
theorem div_of_abs (h : |x| < 2 ^ (w - 1)) (hy : y ≠ 0) : div w x y = some (x.tdiv y) := by
  rw [div, if_neg hy]
  refine checked_of_abs (lt_of_le_of_lt ?_ h)
  rw [Int.abs_eq_natAbs, Int.abs_eq_natAbs, Int.natAbs_tdiv]
  exact_mod_cast Nat.div_le_self _ _

/-- A product of bounded factors, when the product of the bounds is in range. -/
theorem mul_of_abs_le {a b : ℤ} (hx : |x| ≤ a) (hy : |y| ≤ b) (hab : a * b < 2 ^ (w - 1)) :
    mul w x y = some (x * y) := by
  have hprod : |x * y| ≤ a * b := by
    rw [abs_mul]
    exact mul_le_mul hx hy (abs_nonneg y) ((abs_nonneg x).trans hx)
  exact checked_of_abs (hprod.trans_lt hab)

end Vpx3.Checked
