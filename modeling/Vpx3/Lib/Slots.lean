import Mathlib.Data.List.Basic
import Mathlib.Data.Nat.ModEq
import Mathlib.Logic.Function.Basic

namespace Vpx3.Slots

/-!
# Library — a window of items over a ring of slots

A producer numbers its items `0, 1, 2, …` and stores item `k` in slot `k % n` of a ring
of `n` slots.  `Holds n mem xs lo` says that every item of `xs` from number `lo` on is
still found in its slot.

* `mod_ne_mod` — two item numbers less than `n` apart never share a slot;
* `Holds.store` — a producer less than `n` ahead of `lo` may store its next item;
* `Holds.scratch` — it may also scribble on the next slot before it publishes the item;
* `Holds.front` / `Holds.advance` — the consumer finds item `lo` and moves on.
-/

variable {β : Type*} {n : Nat} {mem : Nat → β} {xs : List β} {lo : Nat}

/-- Numbers less than `n` apart have different slots. -/
theorem mod_ne_mod {a b : Nat} (hab : a < b) (hb : b < a + n) : a % n ≠ b % n := by
  intro h
  have hdvd : n ∣ b - a := (Nat.modEq_iff_dvd' hab.le).mp h
  have hle : n ≤ b - a := Nat.le_of_dvd (by omega) hdvd
  omega

/-- Stepping to the next slot, wrapping at the end of the ring, follows the count. -/
theorem next_mod (k : Nat) (hn : 0 < n) :
    (if k % n + 1 = n then 0 else k % n + 1) = (k + 1) % n := by
  have hlt := Nat.mod_lt k hn
  have hsplit : (k + 1) % n = (k % n + 1) % n := by simp
  rw [hsplit]
  by_cases hwrap : k % n + 1 = n
  · rw [if_pos hwrap, hwrap, Nat.mod_self]
  · rw [if_neg hwrap, Nat.mod_eq_of_lt (show k % n + 1 < n by omega)]

/-- Every item of `xs` numbered `lo` or more is in its slot. -/
def Holds (n : Nat) (mem : Nat → β) (xs : List β) (lo : Nat) : Prop :=
  ∀ k, lo ≤ k → ∀ h : k < xs.length, mem (k % n) = xs[k]

/-- Nothing needs to be held when the window is empty. -/
theorem Holds.empty (hlo : xs.length ≤ lo) : Holds n mem xs lo := by
  intro k hk hlt
  omega

/-- A write to the slot of the next item disturbs no held item. -/
theorem Holds.scratch (h : Holds n mem xs lo) (hroom : xs.length < lo + n) (x : β) :
    Holds n (Function.update mem (xs.length % n) x) xs lo := by
  intro k hk hlt
  have hne : k % n ≠ xs.length % n := mod_ne_mod hlt (by omega)
  rw [Function.update_of_ne hne]
  exact h k hk hlt

/-- Storing the next item in its slot extends the window by that item. -/
theorem Holds.store (h : Holds n mem xs lo) (hroom : xs.length < lo + n) (x : β) :
    Holds n (Function.update mem (xs.length % n) x) (xs ++ [x]) lo := by
  intro k hk hlt
  rw [List.length_append, List.length_singleton] at hlt
  rcases Nat.lt_or_ge k xs.length with hold | hnew
  · rw [List.getElem_append_left hold]
    exact h.scratch hroom x k hk hold
  · have hk : k = xs.length := by omega
    subst hk
    simp

/-- If the next slot already contains `x`, the item `x` may be published as it stands. -/
theorem Holds.publish (h : Holds n mem xs lo) {x : β} (hx : mem (xs.length % n) = x) :
    Holds n mem (xs ++ [x]) lo := by
  intro k hk hlt
  rw [List.length_append, List.length_singleton] at hlt
  rcases Nat.lt_or_ge k xs.length with hold | hnew
  · rw [List.getElem_append_left hold]
    exact h k hk hold
  · have hk : k = xs.length := by omega
    subst hk
    simpa using hx

/-- The consumer finds the first item of the window in that item's slot. -/
theorem Holds.front (h : Holds n mem xs lo) (hlt : lo < xs.length) : mem (lo % n) = xs[lo] :=
  h lo le_rfl hlt

/-- Moving the lower end up keeps the window. -/
theorem Holds.advance (h : Holds n mem xs lo) {lo' : Nat} (hle : lo ≤ lo') :
    Holds n mem xs lo' :=
  fun k hk hlt => h k (hle.trans hk) hlt

end Vpx3.Slots
