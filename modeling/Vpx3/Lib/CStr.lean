import Mathlib.Data.List.Basic

namespace Vpx3.CStr

/-!
# Library — byte memories and the strings in them

A memory is a list of bytes with checked accesses; a string is the bytes from an offset up
to the first NUL.

* `Fault` — what stops a program that handles strings;
* `load`, `store` — one byte, `Fault.range` outside the memory;
* `strsep` — cut a string at its first separator;
* `load_append`, `store_append`, `cstr_append` — accesses at a split of the memory: a
  proof about a scan keeps the memory as `before ++ here :: after`.
-/

abbrev Byte := BitVec 8

/-- A string without its terminator. -/
abbrev Str := List Byte

/-- What stops a program. -/
inductive Fault where
  /-- An access outside the memory. -/
  | range
  /-- A NULL pointer followed. -/
  | null
  /-- A loop that used up its fuel. -/
  | fuel
deriving DecidableEq, Repr

/-- The bytes of a literal. -/
def bytes (s : String) : Str := s.toList.map fun c => BitVec.ofNat 8 c.toNat

/-- The space character. -/
def blank : Byte := 0x20

/-! ### Accesses -/

/-- Read the byte at `i`. -/
def load (mem : List Byte) (i : Nat) : Except Fault Byte :=
  match mem[i]? with
  | some b => .ok b
  | none => .error .range

/-- Write the byte at `i`. -/
def store (mem : List Byte) (i : Nat) (b : Byte) : Except Fault (List Byte) :=
  if i < mem.length then .ok (mem.set i b) else .error .range

/-- The string at `i`; the memory must hold its terminator. -/
def cstr (mem : List Byte) (i : Nat) : Except Fault Str :=
  if 0 ∈ mem.drop i then .ok ((mem.drop i).takeWhile (· != 0)) else .error .range

/-- The length of the string at `i`. -/
def strlen (mem : List Byte) (i : Nat) : Except Fault Nat := do
  let s ← cstr mem i
  return s.length

/-- An access that succeeds hands its value on. -/
@[simp] theorem ok_bind {ε : Type*} {α β : Type} (a : α) (f : α → Except ε β) :
    (Except.ok a >>= f) = f a := rfl

/-- Reading at a split of the memory. -/
theorem load_append (pre post : List Byte) (b : Byte) (i : Nat) (hi : i = pre.length) :
    load (pre ++ b :: post) i = .ok b := by
  have hget : (pre ++ b :: post)[i]? = some b := by
    rw [hi, List.getElem?_append_right (Nat.le_refl _), Nat.sub_self, List.getElem?_cons_zero]
  rw [load, hget]

/-- Writing at a split of the memory. -/
theorem store_append (pre post : List Byte) (b c : Byte) (i : Nat) (hi : i = pre.length) :
    store (pre ++ b :: post) i c = .ok (pre ++ c :: post) := by
  have hlt : i < (pre ++ b :: post).length := by
    rw [List.length_append, List.length_cons]
    omega
  rw [store, if_pos hlt, hi, List.set_append_right _ _ (Nat.le_refl _), Nat.sub_self,
    List.set_cons_zero]

/-- The part of a list before the first element that fails the test. -/
theorem takeWhile_append_cons {α : Type*} (p : α → Bool) (s r : List α) (a : α)
    (hs : ∀ x ∈ s, p x = true) (ha : p a = false) : (s ++ a :: r).takeWhile p = s := by
  rw [List.takeWhile_append_of_pos hs, List.takeWhile_cons_of_neg (by simp [ha]),
    List.append_nil]

/-- The string at a split of the memory. -/
theorem cstr_append (pre s post : List Byte) (i : Nat) (hi : i = pre.length) (hs : 0 ∉ s) :
    cstr (pre ++ (s ++ 0 :: post)) i = .ok s := by
  have hdrop : (pre ++ (s ++ 0 :: post)).drop i = s ++ 0 :: post := by
    rw [hi, List.drop_left]
  have hend : (0 : Byte) ∈ s ++ 0 :: post := by simp
  rw [cstr, hdrop, if_pos hend, takeWhile_append_cons]
  · intro x hx
    have hne : x ≠ 0 := fun h => hs (h ▸ hx)
    exact bne_iff_ne.mpr hne
  · rfl

/-- A memory that holds a terminator is a string, its terminator and the rest. -/
theorem exists_terminated (mem : List Byte) (h : 0 ∈ mem) :
    ∃ post, mem = mem.takeWhile (· != 0) ++ 0 :: post := by
  induction mem with
  | nil => exact absurd h List.not_mem_nil
  | cons b mem ih =>
    by_cases hb : b = 0
    · exact ⟨mem, by rw [hb, List.takeWhile_cons_of_neg (by simp), List.nil_append]⟩
    · have hmem : 0 ∈ mem := (List.mem_cons.mp h).resolve_left (Ne.symm hb)
      obtain ⟨post, hpost⟩ := ih hmem
      have htest : (b != 0) = true := bne_iff_ne.mpr hb
      refine ⟨post, ?_⟩
      rw [List.takeWhile_cons, htest, if_pos rfl, List.cons_append, ← hpost]

/-! ### Cutting at a separator -/

/-- `strsep(&s, sep)` with a separator of one character: the string up to the first
    separator, and the pointer moved behind it, which is NULL when there was none. -/
def strsep (sep : Byte) : Option Str → Option Str × Option Str
  | none => (none, none)
  | some s =>
    (some (s.takeWhile (· != sep)),
      match s.dropWhile (· != sep) with
      | [] => none
      | _ :: rest => some rest)

/-- The token in front of a separator. -/
theorem strsep_append (sep : Byte) (t rest : Str) (ht : sep ∉ t) :
    strsep sep (some (t ++ sep :: rest)) = (some t, some rest) := by
  have hp : ∀ x ∈ t, (x != sep) = true := by
    intro x hx
    have hne : x ≠ sep := fun h => ht (h ▸ hx)
    exact bne_iff_ne.mpr hne
  have htake : (t ++ sep :: rest).takeWhile (· != sep) = t :=
    takeWhile_append_cons _ t rest sep hp (by simp)
  have hdrop : (t ++ sep :: rest).dropWhile (· != sep) = sep :: rest := by
    rw [List.dropWhile_append_of_pos hp, List.dropWhile_cons_of_neg (by simp)]
  rw [strsep, htake, hdrop]

end Vpx3.CStr
