import Vpx3.Lib.CStr

namespace Vpx3.CStr

/-!
# Library — memories whose accesses are watched

A program over a byte memory takes its accesses as a parameter.  With `Access.plain` they fault
outside the memory, with `Access.within n` already outside a string that ends at index `n`.

* `Access`, `Access.plain`, `Access.within` — the accesses;
* `Access.Sim` — what one kind of access does, another does as well, on related memories;
* `plain_sim_within` — a program that runs on a memory of `n + 1` bytes keeps within `n` on every
  longer memory;
* `within_sim_plain` — watching the accesses changes nothing.
-/

/-- The accesses of a program. -/
structure Access where
  load : List Byte → Nat → Except Fault Byte
  store : List Byte → Nat → Byte → Except Fault (List Byte)

/-- Accesses that fault outside the memory only. -/
def Access.plain : Access := ⟨CStr.load, CStr.store⟩

/-- Accesses that keep to a string with its terminator at `n`: they read up to the terminator and
    write in front of it. -/
def Access.within (n : Nat) : Access where
  load mem i := if i ≤ n then CStr.load mem i else .error .range
  store mem i b := if i < n then CStr.store mem i b else .error .range

/-- A watched read is a read up to the terminator, -/
theorem Access.within_load {n i : Nat} {mem : List Byte} {b : Byte} :
    (within n).load mem i = .ok b ↔ i ≤ n ∧ CStr.load mem i = .ok b := by
  show (if i ≤ n then CStr.load mem i else .error .range) = .ok b ↔ _
  split
  · next hle => exact (and_iff_right hle).symm
  · next hle => exact iff_of_false (fun h => nomatch h) fun h => hle h.1

/-- and a watched write one in front of it. -/
theorem Access.within_store {n i : Nat} {mem mem' : List Byte} {b : Byte} :
    (within n).store mem i b = .ok mem' ↔ i < n ∧ CStr.store mem i b = .ok mem' := by
  show (if i < n then CStr.store mem i b else .error .range) = .ok mem' ↔ _
  split
  · next hlt => exact (and_iff_right hlt).symm
  · next hlt => exact iff_of_false (fun h => nomatch h) fun h => hlt h.1

/-! ### Simulation of accesses -/

/-- On memories related by `R`, what `m` does `m'` does as well; `m` reads nothing behind `n`. -/
structure Access.Sim (n : Nat) (m m' : Access) (R : List Byte → List Byte → Prop) : Prop where
  load : ∀ {mem mem' i b}, R mem mem' → m.load mem i = .ok b → i ≤ n ∧ m'.load mem' i = .ok b
  store : ∀ {mem mem' i b mem₁}, R mem mem' → i < n → m.store mem i b = .ok mem₁ →
    ∃ mem₁', m'.store mem' i b = .ok mem₁' ∧ R mem₁ mem₁'
  /-- Nor does it after a write, wherever that went. -/
  load_store : ∀ {mem mem' i b mem₁ j c}, R mem mem' → m.store mem i b = .ok mem₁ →
    m.load mem₁ j = .ok c → j ≤ n
  /-- What the memory gives a loop as fuel. -/
  length : ∀ {mem mem'}, R mem mem' → mem.length ≤ mem'.length

/-- A program that ends well has done its first step well. -/
theorem bind_eq_ok {ε : Type*} {α β : Type} {x : Except ε α} {f : α → Except ε β} {b : β} :
    (x >>= f) = .ok b ↔ ∃ a, x = .ok a ∧ f a = .ok b := by
  cases x with
  | error e => exact iff_of_false (fun h => nomatch h) fun ⟨_, h, _⟩ => nomatch h
  | ok a =>
    constructor
    · exact fun h => ⟨a, rfl, h⟩
    · rintro ⟨_, ha, h⟩
      cases ha
      exact h

/-- What has been read stands in the memory. -/
theorem load_eq_ok {mem : List Byte} {i : Nat} {b : Byte} (h : load mem i = .ok b) :
    mem[i]? = some b := by
  rw [load] at h
  split at h
  · next hget => exact hget.trans (congrArg some (Except.ok.inj h))
  · cases h

/-- What has been written replaces a byte of the memory. -/
theorem store_eq_ok {mem mem' : List Byte} {i : Nat} {b : Byte} (h : store mem i b = .ok mem') :
    i < mem.length ∧ mem' = mem.set i b := by
  rw [store] at h
  split at h
  · next hi => exact ⟨hi, (Except.ok.inj h).symm⟩
  · cases h

/-- **A memory that ends with the string.**  Accesses that stay in it stay within the string when
    more bytes follow, and leave those alone. -/
theorem plain_sim_within (n : Nat) (post : List Byte) :
    Access.Sim n .plain (.within n)
      fun mem mem' => mem.length = n + 1 ∧ mem' = mem ++ post where
  load := by
    rintro mem _ i b ⟨hlen, rfl⟩ h
    have hget := load_eq_ok h
    obtain ⟨hi, -⟩ := List.getElem?_eq_some_iff.mp hget
    have hle : i ≤ n := by omega
    refine ⟨hle, Access.within_load.mpr ⟨hle, ?_⟩⟩
    rw [load, List.getElem?_append_left hi, hget]
  store := by
    rintro mem _ i b mem₁ ⟨hlen, rfl⟩ hin h
    obtain ⟨hi, rfl⟩ := store_eq_ok h
    have hi' : i < (mem ++ post).length := by
      rw [List.length_append]
      omega
    refine ⟨mem.set i b ++ post, Access.within_store.mpr ⟨hin, ?_⟩, ?_, rfl⟩
    · rw [store, if_pos hi', List.set_append_left _ _ hi]
    · rw [List.length_set, hlen]
  load_store := by
    rintro mem _ i b mem₁ j c ⟨hlen, rfl⟩ hstore hload
    obtain ⟨-, rfl⟩ := store_eq_ok hstore
    obtain ⟨hj, -⟩ := List.getElem?_eq_some_iff.mp (load_eq_ok hload)
    rw [List.length_set] at hj
    omega
  length := by
    rintro mem _ ⟨-, rfl⟩
    rw [List.length_append]
    omega

/-- **Watching.**  Accesses within the string are plain accesses. -/
theorem within_sim_plain (n : Nat) : Access.Sim n (.within n) .plain Eq where
  load := by
    rintro mem _ i b rfl h
    exact Access.within_load.mp h
  store := by
    rintro mem _ i b mem₁ rfl - h
    exact ⟨mem₁, (Access.within_store.mp h).2, rfl⟩
  load_store := by
    intro mem _ i b mem₁ j c _ _ hload
    exact (Access.within_load.mp hload).1
  length := by
    rintro mem _ rfl
    exact Nat.le_refl _

end Vpx3.CStr
