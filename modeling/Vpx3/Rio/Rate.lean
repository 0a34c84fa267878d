import Mathlib
import Vpx3.Lib.Checked

namespace Vpx3.Rio

open Checked

/-!
# Transfer tests — the time and the rate that they report

`test_nread` and `test_nwrite` take the time of day in front of the transfer and behind it, and
print the same two expressions of it: the microseconds in between, of which the seconds are left
out, and the rate, for which a million is divided by them before it is multiplied by the bytes.

* `timingReport` — the arguments of the `printk`; `testNreadReport`, `testNwriteReport`;
* `elapsed` — the time that has passed;
* `ReportCorrect` — time and rate are right, and nothing overflows on the way to them;
* `RateExact` — the condition on the time stamps and the bytes;
* `reportCorrect_iff` — the reports are right exactly under it.
-/

/-! ### The report -/

/-- `struct timeval`. -/
structure Timeval where
  tvSec : ℤ
  tvUsec : ℕ
  usec_lt : tvUsec < 1000000

/-- What is printed: both microsecond fields, the time and the rate. -/
structure Report where
  gtend : ℤ
  gtbegin : ℤ
  timeout : ℤ
  speed : ℤ
deriving DecidableEq, Repr

/-- `(1000000/timeout)*bytecnt`: the quotient is a `long`, the product an `unsigned long`. -/
def speedProduct (perSecond : ℤ) (bytecnt : BitVec 32) : BitVec 32 :=
  BitVec.ofInt 32 perSecond * bytecnt

/-- The arguments of the `printk`; `none` when the division traps. -/
def timingReport (gtbegin gtend : Timeval) (bytecnt : BitVec 32) : Option Report := do
  let timeout ← sub 32 gtend.tvUsec gtbegin.tvUsec
  let perSecond ← div 32 1000000 timeout
  let speed := speedProduct perSecond bytecnt / (1024 * 1024)
  return ⟨gtend.tvUsec, gtbegin.tvUsec, timeout, speed.toInt⟩

/-- The report of `test_nread`. -/
def testNreadReport : Timeval → Timeval → BitVec 32 → Option Report := timingReport

/-- The report of `test_nwrite`. -/
def testNwriteReport : Timeval → Timeval → BitVec 32 → Option Report := timingReport

/-! ### What it should say -/

/-- A time stamp in microseconds. -/
def Timeval.micros (t : Timeval) : ℤ := t.tvSec * 1000000 + t.tvUsec

/-- The time between two stamps. -/
def elapsed (gtbegin gtend : Timeval) : ℤ := gtend.micros - gtbegin.micros

/-- The report is there, so nothing was divided by zero; the time is right; the product is the
    exact one, so it did not overflow; and the rate is rounded down, if any time has passed. -/
def ReportCorrect (report : Timeval → Timeval → BitVec 32 → Option Report)
    (gtbegin gtend : Timeval) (bytecnt : BitVec 32) : Prop :=
  ∃ r, report gtbegin gtend bytecnt = some r
    ∧ r.timeout = elapsed gtbegin gtend
    ∧ ((speedProduct ((1000000 : ℤ).tdiv r.timeout) bytecnt).toNat : ℤ)
      = (1000000 : ℤ).tdiv r.timeout * bytecnt.toNat
    ∧ (0 < elapsed gtbegin gtend →
      r.speed = bytecnt.toNat * 1000000 / (elapsed gtbegin gtend * 2 ^ 20))

/-- The stamps differ within one second.  With `d` microseconds between them, the whole number of
    such times in a second goes into 32 bits together with the bytes, and what the rest of the
    second would add to this product does not carry into the next `2^20`. -/
structure RateExact (gtbegin gtend : Timeval) (bytecnt : BitVec 32) : Prop where
  second : gtend.tvSec = gtbegin.tvSec
  usec : gtend.tvUsec ≠ gtbegin.tvUsec
  fits : 1000000 / (gtend.tvUsec - gtbegin.tvUsec) * bytecnt.toNat < 2 ^ 32
  floor : 1000000 / (gtend.tvUsec - gtbegin.tvUsec) * bytecnt.toNat % 2 ^ 20
      + 1000000 % (gtend.tvUsec - gtbegin.tvUsec) * bytecnt.toNat
        / (gtend.tvUsec - gtbegin.tvUsec) < 2 ^ 20

/-! ### Dividing first -/

/-- A quotient of a product is what dividing one factor first gives, and what its remainder
    gives. -/
theorem mul_div_split (n b : ℕ) {d : ℕ} (hd : 0 < d) :
    b * n / d = n / d * b + n % d * b / d := by
  have hsplit : b * n = d * (n / d * b) + n % d * b := by
    calc b * n = (d * (n / d) + n % d) * b := by rw [Nat.div_add_mod, Nat.mul_comm]
      _ = d * (n / d * b) + n % d * b := by ring
  rw [hsplit, Nat.mul_add_div hd]

/-- An amount added changes no quotient exactly when it does not carry. -/
theorem add_div_eq_iff (x y : ℕ) {m : ℕ} (hm : 0 < m) :
    x / m = (x + y) / m ↔ x % m + y < m := by
  have hsplit : (x + y) / m = x / m + (x % m + y) / m := by
    calc (x + y) / m = (m * (x / m) + (x % m + y)) / m := by
          rw [← Nat.add_assoc, Nat.div_add_mod]
      _ = x / m + (x % m + y) / m := Nat.mul_add_div hm _ _
  rw [hsplit, Nat.left_eq_add, Nat.div_eq_zero_iff]
  omega

/-- The product fits and the rate is the floor exactly under the two bounds. -/
theorem exact_iff {d : ℕ} (b : ℕ) (hd : 0 < d) :
    (1000000 / d * b % 2 ^ 32 = 1000000 / d * b
        ∧ 1000000 / d * b % 2 ^ 32 / 2 ^ 20 = b * 1000000 / (d * 2 ^ 20))
      ↔ 1000000 / d * b < 2 ^ 32
        ∧ 1000000 / d * b % 2 ^ 20 + 1000000 % d * b / d < 2 ^ 20 := by
  rw [Nat.mod_eq_iff_lt (by decide)]
  refine and_congr_right fun hfits => ?_
  rw [Nat.mod_eq_of_lt hfits, ← Nat.div_div_eq_div_mul, mul_div_split 1000000 b hd,
    add_div_eq_iff _ _ (by decide)]

/-! ### The report in numbers -/

section
variable {gtbegin gtend : Timeval} {bytecnt : BitVec 32}

/-- The report, when the microsecond fields differ. -/
theorem timingReport_of_ne (h : gtend.tvUsec ≠ gtbegin.tvUsec) :
    timingReport gtbegin gtend bytecnt
      = some ⟨gtend.tvUsec, gtbegin.tvUsec, gtend.tvUsec - gtbegin.tvUsec,
          (speedProduct ((1000000 : ℤ).tdiv (gtend.tvUsec - gtbegin.tvUsec)) bytecnt
            / (1024 * 1024)).toInt⟩ := by
  have hbegin := gtbegin.usec_lt
  have hend := gtend.usec_lt
  have hsub : sub 32 gtend.tvUsec gtbegin.tvUsec = some ((gtend.tvUsec : ℤ) - gtbegin.tvUsec) := by
    apply sub_of_abs
    rw [abs_lt]
    omega
  have hdiv : div 32 1000000 ((gtend.tvUsec : ℤ) - gtbegin.tvUsec)
      = some ((1000000 : ℤ).tdiv (gtend.tvUsec - gtbegin.tvUsec)) := by
    apply div_of_abs
    · decide
    · omega
  rw [timingReport, hsub, Option.bind_eq_bind, Option.bind_some, hdiv]
  rfl

/-- Equal microsecond fields make the division trap. -/
theorem timingReport_of_eq (h : gtend.tvUsec = gtbegin.tvUsec) :
    timingReport gtbegin gtend bytecnt = none := by
  have hsub : sub 32 gtend.tvUsec gtbegin.tvUsec = some 0 := by
    rw [h, sub, sub_self]
    rfl
  rw [timingReport, hsub]
  rfl

/-- The product of a quotient that is not negative. -/
theorem speedProduct_toNat (q : ℕ) (bytecnt : BitVec 32) :
    (speedProduct q bytecnt).toNat = q * bytecnt.toNat % 2 ^ 32 := by
  rw [speedProduct, BitVec.ofInt_natCast, BitVec.toNat_mul, BitVec.toNat_ofNat, Nat.mod_mul_mod]

/-- The rate is small, so that it does not matter that it is printed as a `long`. -/
theorem speed_toInt (p : BitVec 32) : (p / (1024 * 1024)).toInt = (p.toNat / 2 ^ 20 : ℕ) := by
  have hlt := p.isLt
  have hdiv : (p / (1024 * 1024)).toNat = p.toNat / 2 ^ 20 := BitVec.toNat_udiv
  rw [BitVec.toInt_eq_toNat_of_lt, hdiv]
  rw [hdiv]
  omega

/-- Within one second the microseconds printed are those that have passed, and the rest of the
    report is right exactly when the numbers are exact. -/
theorem timingReport_iff_of_second (hle : gtbegin.micros ≤ gtend.micros)
    (hsec : gtend.tvSec = gtbegin.tvSec) (husec : gtend.tvUsec ≠ gtbegin.tvUsec) :
    ReportCorrect timingReport gtbegin gtend bytecnt ↔ RateExact gtbegin gtend bytecnt := by
  rw [Timeval.micros, Timeval.micros] at hle
  -- `d` microseconds, all of them counted
  have husecLe : gtbegin.tvUsec ≤ gtend.tvUsec := by omega
  obtain ⟨d, hd⟩ := Nat.exists_eq_add_of_le husecLe
  have hpos : 0 < d := by omega
  have htimeout : (gtend.tvUsec : ℤ) - gtbegin.tvUsec = d := by omega
  have helapsed : elapsed gtbegin gtend = d := by
    rw [elapsed, Timeval.micros, Timeval.micros]
    omega
  have hdiff : gtend.tvUsec - gtbegin.tvUsec = d := by omega
  have hquot : (1000000 : ℤ).tdiv d = (1000000 / d : ℕ) := (Int.ofNat_tdiv 1000000 d).symm
  have hexact := exact_iff bytecnt.toNat hpos
  rw [ReportCorrect, timingReport_of_ne husec, htimeout, helapsed]
  simp only [Option.some.injEq, exists_eq_left', hquot, speedProduct_toNat, speed_toInt, true_and]
  constructor
  · rintro ⟨hproduct, hrate⟩
    obtain ⟨hfits, hfloor⟩ := hexact.mp
      ⟨by exact_mod_cast hproduct, by exact_mod_cast hrate (by exact_mod_cast hpos)⟩
    exact ⟨hsec, husec, hdiff ▸ hfits, hdiff ▸ hfloor⟩
  · intro h
    obtain ⟨hproduct, hrate⟩ := hexact.mpr ⟨hdiff ▸ h.fits, hdiff ▸ h.floor⟩
    exact ⟨by exact_mod_cast hproduct, fun _ => by exact_mod_cast hrate⟩

/-- The seconds left out are missing in the time printed. -/
theorem second_of_reportCorrect (h : ReportCorrect timingReport gtbegin gtend bytecnt)
    (husec : gtend.tvUsec ≠ gtbegin.tvUsec) : gtend.tvSec = gtbegin.tvSec := by
  obtain ⟨r, hr, htimeout, -⟩ := h
  rw [timingReport_of_ne husec, Option.some.injEq] at hr
  subst hr
  rw [elapsed, Timeval.micros, Timeval.micros] at htimeout
  dsimp only at htimeout
  omega

/-- What is printed is right exactly when the stamps are in one second and the numbers are exact,
    whatever function prints it. -/
theorem timingReport_iff (hle : gtbegin.micros ≤ gtend.micros) :
    ReportCorrect timingReport gtbegin gtend bytecnt ↔ RateExact gtbegin gtend bytecnt := by
  by_cases husec : gtend.tvUsec = gtbegin.tvUsec
  · refine iff_of_false ?_ fun h => h.usec husec
    rintro ⟨r, hr, -⟩
    rw [timingReport_of_eq husec] at hr
    nomatch hr
  by_cases hsec : gtend.tvSec = gtbegin.tvSec
  · exact timingReport_iff_of_second hle hsec husec
  · exact iff_of_false (fun h => hsec (second_of_reportCorrect h husec)) fun h => hsec h.second

end

/-- **Reported times and rates.**  For all stamps of which the first is not the later one, and all
    byte counts, both reports are right if and only if the stamps and the bytes are exact. -/
theorem reportCorrect_iff (gtbegin gtend : Timeval) (bytecnt : BitVec 32)
    (hle : gtbegin.micros ≤ gtend.micros) :
    (ReportCorrect testNreadReport gtbegin gtend bytecnt ↔ RateExact gtbegin gtend bytecnt)
      ∧ (ReportCorrect testNwriteReport gtbegin gtend bytecnt
        ↔ RateExact gtbegin gtend bytecnt) :=
  ⟨timingReport_iff hle, timingReport_iff hle⟩

/-- One mebibyte in half a second. -/
theorem reportCorrect_halfSecond :
    ReportCorrect testNreadReport ⟨0, 0, by decide⟩ ⟨0, 500000, by decide⟩ 0x100000
      ∧ ReportCorrect testNwriteReport ⟨0, 0, by decide⟩ ⟨0, 500000, by decide⟩ 0x100000 := by
  have hexact : RateExact ⟨0, 0, by decide⟩ ⟨0, 500000, by decide⟩ 0x100000 :=
    ⟨rfl, by decide, by decide, by decide⟩
  have hiff := reportCorrect_iff ⟨0, 0, by decide⟩ ⟨0, 500000, by decide⟩ 0x100000 (by decide)
  exact ⟨hiff.1.mpr hexact, hiff.2.mpr hexact⟩

/-- A transfer of 200 µs over the end of a second is reported as `-999800` µs, one of no
    measurable time traps, and for one mebibyte in 100 µs the product overflows. -/
theorem not_reportCorrect :
    ¬ReportCorrect testNreadReport ⟨0, 999900, by decide⟩ ⟨1, 100, by decide⟩ 0x1000
      ∧ ¬ReportCorrect testNreadReport ⟨0, 7, by decide⟩ ⟨0, 7, by decide⟩ 0x1000
      ∧ ¬ReportCorrect testNwriteReport ⟨0, 0, by decide⟩ ⟨0, 100, by decide⟩ 0x100000 := by
  refine ⟨fun h => ?_, fun h => ?_, fun h => ?_⟩
  · exact absurd ((timingReport_iff (by decide)).mp h).second (by decide)
  · exact absurd ((timingReport_iff (by decide)).mp h).usec (by decide)
  · exact absurd ((timingReport_iff (by decide)).mp h).fits (by decide)

end Vpx3.Rio
