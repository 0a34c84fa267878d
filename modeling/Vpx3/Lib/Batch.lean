import Mathlib.Data.List.Basic
import Mathlib.Logic.Function.Iterate

namespace Vpx3.Batch

/-!
# Library — a queue that a server works off in batches

Entries wait on a pending list until the server is idle; then all of them become the running
batch.  When the batch is finished the server takes what is pending by then.

* `Queue.push`, `Queue.fire`, `Queue.tick` — a new entry, a server that may start, a batch that is
  finished;
* `Queue.held_tick` — a tick takes the running batch off the queue and nothing else;
* `Queue.ticks_*` — a queue after `n` ticks;
* `Queue.rounds` — how many ticks the entry pushed last needs;
* `Queue.served_iff` — it is off the queue exactly after so many.
-/

/-- Pending entries, the running batch, and whether the server is idle. -/
@[ext]
structure Queue (α : Type*) where
  pending : List α
  running : List α
  idle : Bool

namespace Queue

variable {α : Type*} (q : Queue α)

/-- The entries of a queue, the oldest first. -/
def held : List α := q.running ++ q.pending

/-- A new entry. -/
def push (x : α) : Queue α := { q with pending := q.pending ++ [x] }

/-- An idle server takes all pending entries. -/
def fire : Queue α :=
  if q.pending.isEmpty || !q.idle then q
  else { pending := [], running := q.running ++ q.pending, idle := false }

/-- The batch is finished, and the next one starts. -/
def tick : Queue α := fire { q with running := [], idle := true }

/-- What was pending is the next batch. -/
theorem tick_eq : q.tick = ⟨[], q.pending, q.pending.isEmpty⟩ := by
  obtain ⟨pending, running, idle⟩ := q
  cases pending with
  | nil => rfl
  | cons x xs => rfl

@[simp] theorem tick_pending : q.tick.pending = [] := by rw [tick_eq]
@[simp] theorem tick_running : q.tick.running = q.pending := by rw [tick_eq]
@[simp] theorem tick_idle : q.tick.idle = q.pending.isEmpty := by rw [tick_eq]

/-- Behind a busy server, or with nothing pending, nothing happens. -/
theorem fire_of_waiting {q : Queue α} (h : q.pending = [] ∨ q.idle = false) : q.fire = q := by
  rw [fire, if_pos]
  rcases h with h | h
  · simp [h]
  · simp [h]

/-- An idle server starts. -/
theorem fire_of_ready {q : Queue α} (hp : q.pending ≠ []) (hi : q.idle = true) :
    q.fire = ⟨[], q.running ++ q.pending, false⟩ := by
  rw [fire, if_neg]
  simp [hp, hi]

/-- A server that starts takes nothing off the queue. -/
@[simp] theorem held_fire : q.fire.held = q.held := by
  rw [fire]
  split
  · rfl
  · rw [held, List.append_nil, held]

/-- A tick takes the running batch off. -/
theorem held_tick : q.held = q.running ++ q.tick.held := by
  rw [held, held, tick_pending, tick_running, List.append_nil]

/-- A new entry is the last one. -/
theorem held_push (x : α) : (q.push x).held = q.held ++ [x] :=
  (List.append_assoc _ _ _).symm

/-! ### Many ticks -/

/-- After a tick nothing is pending. -/
theorem ticks_pending (n : ℕ) : (tick^[n] q).pending = [] ↔ q.pending = [] ∨ 0 < n := by
  cases n with
  | zero => simp
  | succ n =>
    rw [Function.iterate_succ_apply']
    simp

/-- Whether the server is idle after `n` ticks. -/
def idleAfter : ℕ → Bool
  | 0 => q.idle
  | 1 => q.pending.isEmpty
  | _ + 2 => true

theorem ticks_idle (n : ℕ) : (tick^[n] q).idle = q.idleAfter n := by
  rcases n with _ | _ | n
  · rfl
  · exact q.tick_idle
  · rw [Function.iterate_succ_apply', tick_idle, Function.iterate_succ_apply', tick_pending]
    rfl

/-- A queue is worked off after one tick if nothing is pending, otherwise after two. -/
theorem ticks_held (n : ℕ) :
    (tick^[n] q).held = [] ↔ q.held = [] ∨ (q.pending = [] ∧ 0 < n) ∨ 2 ≤ n := by
  rcases n with _ | _ | n
  · simp
  · rw [Nat.zero_add, Function.iterate_one, held, tick_pending, tick_running, List.append_nil, held,
      List.append_eq_nil_iff]
    simp
  · rw [Function.iterate_succ_apply', Function.iterate_succ_apply', held, tick_pending,
      tick_running, tick_pending]
    simp

/-! ### The entry pushed last -/

/-- The ticks that an entry needs which is pushed after `m` ticks, with `a` more before the server
    is asked to start. -/
def rounds (m a : ℕ) : ℕ := if a = 0 ∧ q.idleAfter m = true then 1 else 2

/-- The queue with a new entry: `m` ticks before it is pushed, `a` more before the server is asked
    to start, and `b` after that. -/
def served (x : α) (m a b : ℕ) : Queue α :=
  tick^[b] (fire (tick^[a] ((tick^[m] q).push x)))

/-- Ticks in front of those before the push. -/
theorem ticks_served (x : α) (n m a b : ℕ) :
    (tick^[n] q).served x m a b = q.served x (m + n) a b := by
  rw [served, served, Function.iterate_add_apply]

/-- Ticks behind those after the start. -/
theorem served_ticks (x : α) (m a b n : ℕ) :
    tick^[n] (q.served x m a b) = q.served x m a (n + b) := by
  rw [served, served, Function.iterate_add_apply]

/-- An idle server takes the new entry at once. -/
theorem served_of_idle (x : α) {m : ℕ} (h : q.idleAfter m = true) (b : ℕ) :
    q.served x m 0 b = tick^[b] ⟨[], (tick^[m] q).held ++ [x], false⟩ := by
  have hidle : ((tick^[m] q).push x).idle = true := (q.ticks_idle m).trans h
  have hpending : ((tick^[m] q).push x).pending ≠ [] :=
    List.append_ne_nil_of_right_ne_nil _ (List.cons_ne_nil _ _)
  rw [served, Function.iterate_zero, id_eq, fire_of_ready hpending hidle, ← held_push, held]

/-- Otherwise it waits for a tick. -/
theorem served_of_busy (x : α) {m a : ℕ} (h : ¬(a = 0 ∧ q.idleAfter m = true)) (b : ℕ) :
    q.served x m a b = tick^[a + b] ((tick^[m] q).push x) := by
  have hwait : (tick^[a] ((tick^[m] q).push x)).pending = []
      ∨ (tick^[a] ((tick^[m] q).push x)).idle = false := by
    by_cases ha : a = 0
    · subst ha
      have hbusy : q.idleAfter m = false := by
        simpa using h
      exact Or.inr ((q.ticks_idle m).trans hbusy)
    · exact Or.inl ((ticks_pending _ a).mpr (Or.inr (Nat.pos_of_ne_zero ha)))
  rw [served, fire_of_waiting hwait, ← Function.iterate_add_apply, Nat.add_comm]

/-- **The entry pushed last** is off the queue, and with it all others, exactly after its
    rounds. -/
theorem served_iff (x : α) (m a b : ℕ) : (q.served x m a b).held = [] ↔ q.rounds m a ≤ a + b := by
  by_cases h : a = 0 ∧ q.idleAfter m = true
  · obtain ⟨rfl, hidle⟩ := h
    rw [q.served_of_idle x hidle, ticks_held, rounds, if_pos ⟨rfl, hidle⟩, held]
    simp
    omega
  · rw [q.served_of_busy x h, ticks_held, rounds, if_neg h, held_push]
    have hpending : ((tick^[m] q).push x).pending ≠ [] :=
      List.append_ne_nil_of_right_ne_nil _ (List.cons_ne_nil _ _)
    simp [hpending]

/-- Something is pending after all that only if no tick came and the server was busy. -/
theorem served_pending (x : α) (m a b : ℕ) :
    (q.served x m a b).pending ≠ [] ↔ a + b = 0 ∧ q.idleAfter m = false := by
  by_cases h : a = 0 ∧ q.idleAfter m = true
  · obtain ⟨rfl, hidle⟩ := h
    rw [q.served_of_idle x hidle, Ne, ticks_pending, hidle]
    simp
  · rw [q.served_of_busy x h, Ne, ticks_pending]
    have hpending : ((tick^[m] q).push x).pending ≠ [] :=
      List.append_ne_nil_of_right_ne_nil _ (List.cons_ne_nil _ _)
    have hbusy : a = 0 → q.idleAfter m = false := by
      simpa using h
    constructor
    · intro hnone
      have hzero : a + b = 0 := by
        by_contra hpos
        exact hnone (Or.inr (Nat.pos_of_ne_zero hpos))
      exact ⟨hzero, hbusy (by omega)⟩
    · rintro ⟨hzero, -⟩ (hp | hpos)
      · exact hpending hp
      · omega

end Queue

end Vpx3.Batch
