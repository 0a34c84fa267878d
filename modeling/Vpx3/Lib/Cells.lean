import Mathlib.Logic.Function.Basic
import Mathlib.Data.List.Induction

namespace Vpx3.Cells

/-!
# Library — independent cells of a memory

A cell is a record that lies somewhere in a memory: `place c f` is the address of field `f`
of cell `c`.  Calls that write whole cells at disjoint places are independent of each other.

* `Writes` — a step that stores the words of one cell and changes nothing else;
* `Writes.other` — it leaves all other cells alone;
* `lastNaming` — the last call of a run that names a cell;
* `foldl_last` — after a run a cell holds the words of that call, or what it held before.
-/

variable {Addr Cell Field Word State Call : Type}

/-- A write of the cell `c`: its words are in place, and nothing else has changed. -/
structure Writes (place : Cell → Field → Addr) (mem mem' : Addr → Word) (c : Cell)
    (words : Field → Word) : Prop where
  stored : ∀ f, mem' (place c f) = words f
  frame : ∀ a, (∀ f, a ≠ place c f) → mem' a = mem a

/-- At disjoint places a write of one cell leaves the others alone. -/
theorem Writes.other {place : Cell → Field → Addr} (hplace : Function.Injective2 place)
    {mem mem' : Addr → Word} {c d : Cell} {words : Field → Word}
    (h : Writes place mem mem' c words) (hne : d ≠ c) (f : Field) :
    mem' (place d f) = mem (place d f) := by
  apply h.frame
  intro g heq
  exact hne (hplace heq).1

/-- The last call of a run that names the cell `c`. -/
def lastNaming [DecidableEq Cell] (names : Call → Option Cell) (c : Cell) (run : List Call) :
    Option Call :=
  run.reverse.find? fun call => names call = some c

/-- A call at the end of a run is the last one, if it names the cell. -/
theorem lastNaming_concat [DecidableEq Cell] (names : Call → Option Cell) (c : Cell)
    (run : List Call) (call : Call) :
    lastNaming names c (run ++ [call])
      = if names call = some c then some call else lastNaming names c run := by
  rw [lastNaming, List.reverse_concat, List.find?_cons, ← lastNaming]
  by_cases h : names call = some c
  · rw [if_pos h, decide_eq_true h]
  · rw [if_neg h, decide_eq_false h]

/-- **The last writer wins.**  When every call that names a cell writes it, and every other
    call writes nothing, a cell holds after a run the words of the last call naming it.  The
    words may depend on what `Inv` says of all states of the run. -/
theorem foldl_last [DecidableEq Cell] {place : Cell → Field → Addr}
    (hplace : Function.Injective2 place) {step : State → Call → State}
    (mem : State → Addr → Word) {names : Call → Option Cell} {words : Call → Field → Word}
    (Inv : State → Prop) (hstep : ∀ t call, Inv t → Inv (step t call))
    (hnamed : ∀ t call c, Inv t → names call = some c →
      Writes place (mem t) (mem (step t call)) c (words call))
    (hother : ∀ t call, names call = none → mem (step t call) = mem t)
    {s : State} (hs : Inv s) (run : List Call) (c : Cell) (f : Field) :
    mem (run.foldl step s) (place c f)
      = ((lastNaming names c run).map fun call => words call f).getD (mem s (place c f)) := by
  induction run using List.reverseRecOn with
  | nil => rfl
  | append_singleton run call ih =>
    have hrun : Inv (run.foldl step s) :=
      List.foldlRecOn run step hs fun t ht call _ => hstep t call ht
    rw [List.foldl_append, List.foldl_cons, List.foldl_nil, lastNaming_concat]
    cases hcall : names call with
    | none => rw [hother _ _ hcall, if_neg (Option.some_ne_none c).symm, ih]
    | some d =>
      have hwrite := hnamed _ call d hrun hcall
      by_cases hd : d = c
      · subst hd
        rw [if_pos rfl, hwrite.stored]
        rfl
      · have hne : ¬some d = some c := fun h => hd (Option.some.inj h)
        rw [if_neg hne, hwrite.other hplace (Ne.symm hd), ih]

end Vpx3.Cells
