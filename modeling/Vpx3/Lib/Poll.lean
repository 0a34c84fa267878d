import Mathlib.Data.Nat.Basic

namespace Vpx3.Poll

/-!
# Library — bounded polling

A poll takes samples `0, 1, 2, …` until one of them is final or a budget of `n` samples is
used up.

* `Ends p n m` — with finality `p` and budget `n` the poll ends after `m` samples;
* `Ends.unique` — there is one such number;
* `Ends.iff_of_imp` — when more samples are final, the poll ends at the same one exactly if
  none before it is;
* `Ends.stop`, `Ends.wait` — how a poll loop unfolds at its first sample;
* `Ends.last_iff` — the last sample is final exactly when one within the budget is.
-/

/-- The poll with finality `p` and budget `n` ends after `m` samples. -/
structure Ends (p : ℕ → Prop) (n m : ℕ) : Prop where
  le : m ≤ n
  /-- no sample but the last is final -/
  running : ∀ j, j + 1 < m → ¬p j
  /-- the budget is used up, or the last sample is final -/
  ended : m = n ∨ ∃ k, m = k + 1 ∧ p k

variable {p : ℕ → Prop} {n m : ℕ}

/-- Without a budget there are no samples. -/
theorem Ends.none (p : ℕ → Prop) : Ends p 0 0 :=
  ⟨le_rfl, fun _ h => absurd h (Nat.not_lt_zero _), Or.inl rfl⟩

/-- A final sample ends the poll. -/
theorem Ends.stop (n : ℕ) (h : p 0) : Ends p (n + 1) 1 :=
  ⟨Nat.le_add_left 1 n, fun _ hj => by omega, Or.inr ⟨0, rfl, h⟩⟩

/-- After any other sample it goes on with the samples behind it. -/
theorem Ends.wait (h0 : ¬p 0) (h : Ends (fun j => p (j + 1)) n m) : Ends p (n + 1) (m + 1) where
  le := Nat.succ_le_succ h.le
  running
    | 0, _ => h0
    | j + 1, hj => h.running j (by omega)
  ended := by
    rcases h.ended with hn | ⟨k, hk, hp⟩
    · exact Or.inl (congrArg Nat.succ hn)
    · exact Or.inr ⟨k + 1, congrArg Nat.succ hk, hp⟩

/-- With a budget there is a sample. -/
theorem Ends.pos (h : Ends p n m) (hn : 0 < n) : 0 < m := by
  rcases h.ended with rfl | ⟨k, rfl, -⟩
  · exact hn
  · exact Nat.succ_pos k

/-- A final sample within the budget is not passed over. -/
theorem Ends.le_of_final (h : Ends p n m) {j : ℕ} (hp : p j) : m ≤ j + 1 := by
  by_contra hlt
  exact h.running j (by omega) hp

/-- As long as no sample is final the poll goes on. -/
theorem Ends.lt_of_waiting (h : Ends p n m) {j : ℕ} (hj : j < n) (hwait : ∀ i < j, ¬p i) :
    j < m := by
  rcases h.ended with rfl | ⟨k, rfl, hk⟩
  · exact hj
  · by_contra hle
    exact hwait k (by omega) hk

/-- A poll ends in one way. -/
theorem Ends.unique {m' : ℕ} (h : Ends p n m) (h' : Ends p n m') : m = m' := by
  have hle : ∀ {a b : ℕ}, Ends p n a → Ends p n b → a ≤ b := by
    intro a b ha hb
    rcases hb.ended with rfl | ⟨k, rfl, hk⟩
    · exact ha.le
    · exact ha.le_of_final hk
  exact Nat.le_antisymm (hle h h') (hle h' h)

/-- With more final samples the poll ends as before exactly if it does not end earlier. -/
theorem Ends.iff_of_imp {q : ℕ → Prop} (hpq : ∀ j, p j → q j) (h : Ends p n m) :
    Ends q n m ↔ ∀ j, j + 1 < m → ¬q j := by
  constructor
  · exact fun hq => hq.running
  · intro hrunning
    refine ⟨h.le, hrunning, ?_⟩
    rcases h.ended with hn | ⟨k, hk, hp⟩
    · exact Or.inl hn
    · exact Or.inr ⟨k, hk, hpq k hp⟩

/-- The last sample is final exactly when some sample within the budget is. -/
theorem Ends.last_iff (h : Ends p n m) (hn : 0 < n) : p (m - 1) ↔ ∃ j < n, p j := by
  have hpos := h.pos hn
  have hle := h.le
  constructor
  · exact fun hp => ⟨m - 1, by omega, hp⟩
  · rintro ⟨j, hj, hp⟩
    rcases h.ended with rfl | ⟨k, rfl, hk⟩
    · -- all samples but the last are not final
      have hlast : j = m - 1 := by
        have := h.le_of_final hp
        omega
      rwa [← hlast]
    · exact hk

end Vpx3.Poll
