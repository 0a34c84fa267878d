import Mathlib

namespace Vpx3.Links

/-!
# Library — chains of nodes in memory

A node carries a payload and either ends its chain or names the next node.

* `Format` — how a node is read; `walk` — what is found from an address on;
* `Chain` — nodes at given addresses with given payloads, each leading to the next one, and the
  last one as `fin` says;
* `walk_of_chain` — a walk along a chain that ends finds its payloads;
* `Chain.frame`, `Chain.append`, `Chain.finish` — what writes elsewhere keep, a chain hung behind
  another one, and the end of a chain written.
-/

variable {A N P : Type*}

/-- How a node is read. -/
structure Format (A N P : Type*) where
  payload : N → P
  last : N → Bool
  next : N → A

variable {fmt : Format A N P} {mem : A → N} {fin fin' : N → Prop}

/-- The payloads from an address on, along no more than a given number of nodes. -/
def walk (fmt : Format A N P) (mem : A → N) : ℕ → A → Option (List P)
  | 0, _ => none
  | fuel + 1, a =>
    if fmt.last (mem a) then some [fmt.payload (mem a)]
    else (walk fmt mem fuel (fmt.next (mem a))).map (fmt.payload (mem a) :: ·)

/-- Addresses and payloads of a chain. -/
def Chain (fmt : Format A N P) (mem : A → N) (fin : N → Prop) : List (A × P) → Prop
  | [] => True
  | [x] => fmt.payload (mem x.1) = x.2 ∧ fin (mem x.1)
  | x :: y :: l => fmt.payload (mem x.1) = x.2 ∧ fmt.last (mem x.1) = false
      ∧ fmt.next (mem x.1) = y.1 ∧ Chain fmt mem fin (y :: l)

/-- A chain that ends. -/
abbrev Closed (fmt : Format A N P) (mem : A → N) : List (A × P) → Prop :=
  Chain fmt mem fun n => fmt.last n = true

/-- **Walking** along a chain that ends finds its payloads. -/
theorem walk_of_chain {x : A × P} {l : List (A × P)} (h : Closed fmt mem (x :: l)) {fuel : ℕ}
    (hfuel : l.length < fuel) : walk fmt mem fuel x.1 = some ((x :: l).map Prod.snd) := by
  induction l generalizing x fuel with
  | nil =>
    obtain ⟨fuel, rfl⟩ := Nat.exists_eq_succ_of_ne_zero (Nat.ne_of_gt hfuel)
    obtain ⟨hpayload, hlast⟩ := h
    rw [walk, if_pos hlast, hpayload]
    rfl
  | cons y l ih =>
    obtain ⟨fuel, rfl⟩ := Nat.exists_eq_succ_of_ne_zero (Nat.ne_of_gt (Nat.zero_lt_of_lt hfuel))
    obtain ⟨hpayload, hlast, hnext, hrest⟩ := h
    rw [List.length_cons] at hfuel
    rw [walk, hlast, if_neg Bool.false_ne_true, hnext, ih hrest (by omega), hpayload]
    rfl

/-- What ends a chain may be weakened. -/
theorem Chain.mono (himp : ∀ n, fin n → fin' n) {l : List (A × P)} (h : Chain fmt mem fin l) :
    Chain fmt mem fin' l := by
  induction l with
  | nil => trivial
  | cons x l ih =>
    cases l with
    | nil => exact ⟨h.1, himp _ h.2⟩
    | cons y l => exact ⟨h.1, h.2.1, h.2.2.1, ih h.2.2.2⟩

/-- Memory that is the same at the addresses of a chain. -/
theorem Chain.congr {mem' : A → N} {l : List (A × P)} (h : Chain fmt mem fin l)
    (hsame : ∀ x ∈ l, mem' x.1 = mem x.1) : Chain fmt mem' fin l := by
  induction l with
  | nil => trivial
  | cons x l ih =>
    have hx := hsame x List.mem_cons_self
    have hl := fun y hy => hsame y (List.mem_cons_of_mem x hy)
    cases l with
    | nil =>
      unfold Chain
      rw [hx]
      exact h
    | cons y l =>
      unfold Chain
      rw [hx]
      exact ⟨h.1, h.2.1, h.2.2.1, ih h.2.2.2 hl⟩

/-- The payloads are where they should be. -/
theorem Chain.payload {l : List (A × P)} (h : Chain fmt mem fin l) {x : A × P} (hx : x ∈ l) :
    fmt.payload (mem x.1) = x.2 := by
  induction l with
  | nil => cases hx
  | cons y l ih =>
    have hy : fmt.payload (mem y.1) = y.2 := by
      cases l with
      | nil => exact h.1
      | cons z l => exact h.1
    rcases List.mem_cons.mp hx with rfl | hl
    · exact hy
    · cases l with
      | nil => cases hl
      | cons z l => exact ih h.2.2.2 hl

section Update

variable [DecidableEq A]

/-- A write elsewhere. -/
theorem Chain.frame {a : A} {l : List (A × P)} (h : Chain fmt mem fin l) (ha : a ∉ l.map Prod.fst)
    (n : N) : Chain fmt (Function.update mem a n) fin l := by
  apply h.congr
  intro x hx
  apply Function.update_of_ne
  rintro rfl
  exact ha (List.mem_map_of_mem hx)

/-- A node in front of the one that is written. -/
theorem Chain.cons_update {x z : A × P} {l l' : List (A × P)} {t : A} {n : N}
    (h : Chain fmt mem fin (x :: z :: l)) (hne : x.1 ≠ t)
    (hrest : Chain fmt (Function.update mem t n) fin' (z :: l')) :
    Chain fmt (Function.update mem t n) fin' (x :: z :: l') := by
  obtain ⟨hpayload, hlast, hnext, -⟩ := h
  refine ⟨?_, ?_, ?_, hrest⟩
  · rw [Function.update_of_ne hne, hpayload]
  · rw [Function.update_of_ne hne, hlast]
  · rw [Function.update_of_ne hne, hnext]

/-- **A chain hung behind another one**: the last node of the first one is written to lead to the
    first node of the second one. -/
theorem Chain.append {xs ys : List (A × P)} {t : A} {p : P} {y : A × P} {n : N}
    (hxs : Chain fmt mem fin (xs ++ [(t, p)])) (hys : Chain fmt mem fin' (y :: ys))
    (hnodup : ((xs ++ (t, p) :: y :: ys).map Prod.fst).Nodup) (hpayload : fmt.payload n = p)
    (hlast : fmt.last n = false) (hnext : fmt.next n = y.1) :
    Chain fmt (Function.update mem t n) fin' (xs ++ (t, p) :: y :: ys) := by
  induction xs with
  | nil =>
    have ht : t ∉ (y :: ys).map Prod.fst := (List.nodup_cons.mp hnodup).1
    refine ⟨?_, ?_, ?_, hys.frame ht n⟩
    · rw [Function.update_self, hpayload]
    · rw [Function.update_self, hlast]
    · rw [Function.update_self, hnext]
  | cons x xs ih =>
    obtain ⟨hx, hrest⟩ := List.nodup_cons.mp hnodup
    have hne : x.1 ≠ t := by
      rintro rfl
      exact hx (by simp)
    cases xs with
    | nil => exact Chain.cons_update hxs hne (ih hxs.2.2.2 hrest)
    | cons x' xs => exact Chain.cons_update hxs hne (ih hxs.2.2.2 hrest)

/-- **The end of a chain** is written. -/
theorem Chain.finish {xs : List (A × P)} {t : A} {p : P} {n : N}
    (hxs : Chain fmt mem fin (xs ++ [(t, p)])) (hnodup : ((xs ++ [(t, p)]).map Prod.fst).Nodup)
    (hpayload : fmt.payload n = p) (hfin : fin' n) :
    Chain fmt (Function.update mem t n) fin' (xs ++ [(t, p)]) := by
  induction xs with
  | nil =>
    refine ⟨?_, ?_⟩
    · rw [Function.update_self, hpayload]
    · rw [Function.update_self]
      exact hfin
  | cons x xs ih =>
    obtain ⟨hx, hrest⟩ := List.nodup_cons.mp hnodup
    have hne : x.1 ≠ t := by
      rintro rfl
      exact hx (by simp)
    cases xs with
    | nil => exact Chain.cons_update hxs hne (ih hxs.2.2.2 hrest)
    | cons x' xs => exact Chain.cons_update hxs hne (ih hxs.2.2.2 hrest)

end Update

end Vpx3.Links
