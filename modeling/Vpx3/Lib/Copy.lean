import Mathlib

namespace Vpx3.Copy

/-!
# Library — bytes copied one behind the other

A copy is a list of pairs of addresses, from where and to where.

* `stretch` — the addresses of `n` bytes, one behind the other;
* `pairs` — the pairs of one contiguous copy;
* `copyAll` — memory after the copies of a list; `copyAll_of_mem`, `copyAll_of_notMem` — what it
  holds when nothing is written twice and nothing is written that is still to be read.
-/

variable {A B : Type*}

/-- The second halves of the pairs of two lists are the front of the second one. -/
theorem snd_zip (xs : List A) (ys : List B) :
    (List.zip xs ys).map Prod.snd = ys.take xs.length := by
  induction xs generalizing ys with
  | nil => rfl
  | cons x xs ih =>
    cases ys with
    | nil => rfl
    | cons y ys => rw [List.zip_cons_cons, List.map_cons, ih, List.length_cons, List.take_succ_cons]

section Stretch

variable [AddMonoidWithOne A]

/-- `n` addresses from `base` on. -/
def stretch (base : A) (n : ℕ) : List A := (List.range n).map fun k : ℕ => base + (k : A)

@[simp] theorem length_stretch (base : A) (n : ℕ) : (stretch base n).length = n := by
  simp [stretch]

@[simp] theorem stretch_zero (base : A) : stretch base 0 = [] := rfl

/-- A stretch cut in two. -/
theorem stretch_add (base : A) (m n : ℕ) :
    stretch base (m + n) = stretch base m ++ stretch (base + m) n := by
  unfold stretch
  rw [List.range_add, List.map_append, List.map_map]
  congr 1
  apply List.map_congr_left
  intro k _
  show base + ((m + k : ℕ) : A) = base + m + k
  rw [Nat.cast_add, add_assoc]

/-- The pairs of one contiguous copy. -/
def pairs (src dst : A) (n : ℕ) : List (A × A) := List.zip (stretch src n) (stretch dst n)

end Stretch

section Memory

variable [DecidableEq A]

/-- Memory after the copies of a list, in order. -/
def copyAll (mem : A → B) (ps : List (A × A)) : A → B :=
  ps.foldl (fun mem p => Function.update mem p.2 (mem p.1)) mem

/-- What is not written stays. -/
theorem copyAll_of_notMem {mem : A → B} {ps : List (A × A)} {a : A} (h : a ∉ ps.map Prod.snd) :
    copyAll mem ps a = mem a := by
  induction ps generalizing mem with
  | nil => rfl
  | cons p ps ih =>
    rw [List.map_cons, List.mem_cons, not_or] at h
    show copyAll (Function.update mem p.2 (mem p.1)) ps a = mem a
    rw [ih h.2, Function.update_of_ne h.1]

/-- **Copies.**  Where nothing is written twice, and nothing that is read, each destination holds
    what its source held. -/
theorem copyAll_of_mem {mem : A → B} {ps : List (A × A)} (hnodup : (ps.map Prod.snd).Nodup)
    (hapart : ∀ p ∈ ps, p.1 ∉ ps.map Prod.snd) {p : A × A} (hp : p ∈ ps) :
    copyAll mem ps p.2 = mem p.1 := by
  induction ps generalizing mem with
  | nil => cases hp
  | cons q ps ih =>
    rw [List.map_cons, List.nodup_cons] at hnodup
    have hsource (r : A × A) (hr : r ∈ q :: ps) : r.1 ≠ q.2 := by
      intro heq
      apply hapart r hr
      rw [heq, List.map_cons]
      exact List.mem_cons_self
    show copyAll (Function.update mem q.2 (mem q.1)) ps p.2 = mem p.1
    rcases List.mem_cons.mp hp with rfl | hrest
    · rw [copyAll_of_notMem hnodup.1, Function.update_self]
    · have hlater : ∀ r ∈ ps, r.1 ∉ ps.map Prod.snd := by
        intro r hr hmem
        apply hapart r (List.mem_cons_of_mem _ hr)
        rw [List.map_cons]
        exact List.mem_cons_of_mem _ hmem
      rw [ih hnodup.2 hlater hrest, Function.update_of_ne (hsource p hp)]

end Memory

end Vpx3.Copy
