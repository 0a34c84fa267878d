import Mathlib
import Vpx3.Lib.Exec

namespace Vpx3.Budget

open Exec

/-!
# Library — potentials

A potential is a number that each step may raise by no more than it gains, and must lower by what
it costs.  The cost of a whole run is then paid by the potential at its start and by its gains.

* `exec_budget` — the rule for runs;
* `sum_update` — a sum over a function one value of which changes.
-/

variable {σ α : Type*}

/-- **Budget rule.**  What the steps of a run cost is at most the potential at its start, and what
    they gain. -/
theorem exec_budget {step : σ → α → Option σ} (Inv : σ → Prop) {potential : σ → ℕ}
    {cost gain : α → ℕ} (hinv : ∀ s a s', Inv s → step s a = some s' → Inv s')
    (hstep : ∀ s a s', Inv s → step s a = some s' →
      cost a + potential s' ≤ potential s + gain a) :
    ∀ (as : List α) (s t : σ), Inv s → exec step s as = some t →
      (as.map cost).sum + potential t ≤ potential s + (as.map gain).sum := by
  intro as
  induction as with
  | nil =>
    intro s t _ ht
    rw [exec_nil, Option.some.injEq] at ht
    subst ht
    simp
  | cons a as ih =>
    intro s t hs ht
    obtain ⟨s', hs', hrest⟩ := exec_cons_some ht
    have hfirst := hstep s a s' hs hs'
    have hlater := ih s' t (hinv s a s' hs hs') hrest
    rw [List.map_cons, List.map_cons, List.sum_cons, List.sum_cons]
    omega

/-- A sum one value of which changes. -/
theorem sum_update {ι : Type*} [Fintype ι] [DecidableEq ι] (f : ι → ℕ) (i : ι) (x : ℕ) :
    ∑ j, Function.update f i x j + f i = ∑ j, f j + x := by
  rw [Finset.sum_update_of_mem (Finset.mem_univ i), ← Finset.erase_eq,
    ← Finset.sum_erase_add _ f (Finset.mem_univ i)]
  omega

end Vpx3.Budget
