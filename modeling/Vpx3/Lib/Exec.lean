import Mathlib.Data.List.Basic

namespace Vpx3.Exec

/-!
# Library — labelled step functions, their runs and the invariant rules

A system is a partial step function `step : σ → α → Option σ`: from state `s` the
label `a` either is not enabled (`none`) or leads to one next state.  A run is a list
of labels.

* `exec step s as` — the state the run `as` leads to from `s`, if every label is enabled
  where it occurs;
* `Guarded step G s as` — every step of the run is taken in a state where `G` holds of
  the state and the label;
* `exec_invariant` — what one guarded step preserves, a whole guarded run preserves;
* `guarded_congr` — guards that agree where an invariant holds guard the same runs;
* `Always step P s as` — `P` holds of every state the run reaches;
* `always_iff_guarded` — when an unguarded step breaks `P` at once, `P` holds always exactly
  along guarded runs.
-/

variable {σ α : Type*}

/-- Run a list of labels from a state. -/
def exec (step : σ → α → Option σ) : σ → List α → Option σ
  | s, [] => some s
  | s, a :: as =>
    match step s a with
    | none => none
    | some s' => exec step s' as

/-- Every step of the run `as` from `s` is taken where `G` holds. -/
def Guarded (step : σ → α → Option σ) (G : σ → α → Prop) : σ → List α → Prop
  | _, [] => True
  | s, a :: as => G s a ∧ ∀ s', step s a = some s' → Guarded step G s' as

@[simp] theorem exec_nil (step : σ → α → Option σ) (s : σ) : exec step s [] = some s := rfl

/-- A run of one label more, unfolded at its front. -/
theorem exec_cons (step : σ → α → Option σ) (s : σ) (a : α) (as : List α) :
    exec step s (a :: as) = (step s a).bind (fun s' => exec step s' as) := by
  cases h : step s a <;> simp [exec, h]

/-- A run that leads somewhere splits at its first step. -/
theorem exec_cons_some {step : σ → α → Option σ} {s t : σ} {a : α} {as : List α}
    (h : exec step s (a :: as) = some t) :
    ∃ s', step s a = some s' ∧ exec step s' as = some t := by
  rw [exec_cons] at h
  exact Option.bind_eq_some_iff.mp h

/-- A run followed by another is their concatenation. -/
theorem exec_append (step : σ → α → Option σ) (s : σ) (as bs : List α) :
    exec step s (as ++ bs) = (exec step s as).bind (fun t => exec step t bs) := by
  induction as generalizing s with
  | nil => rfl
  | cons a as ih =>
    rw [List.cons_append, exec_cons, exec_cons]
    cases step s a with
    | none => rfl
    | some s' => exact ih s'

/-- A guard on the labels alone holds along a run when it holds of every label. -/
theorem Guarded.of_labels {step : σ → α → Option σ} {G : α → Prop} (as : List α)
    (h : ∀ a ∈ as, G a) (s : σ) : Guarded step (fun _ a => G a) s as := by
  induction as generalizing s with
  | nil => exact trivial
  | cons a as ih =>
    refine ⟨h a List.mem_cons_self, fun s' _ => ih ?_ s'⟩
    exact fun b hb => h b (List.mem_cons_of_mem a hb)

/-- A guard that an invariant of the machine implies holds along every run. -/
theorem Guarded.of_invariant {step : σ → α → Option σ} {G : σ → α → Prop} {Inv : σ → Prop}
    (himp : ∀ s a, Inv s → G s a) (hstep : ∀ s a s', Inv s → step s a = some s' → Inv s')
    (as : List α) (s : σ) (hs : Inv s) : Guarded step G s as := by
  induction as generalizing s with
  | nil => exact trivial
  | cons a as ih => exact ⟨himp s a hs, fun s' h => ih s' (hstep s a s' hs h)⟩

/-- A guarded run, unfolded at its front. -/
theorem guarded_cons {step : σ → α → Option σ} {G : σ → α → Prop} {s : σ} {a : α} {as : List α} :
    Guarded step G s (a :: as)
      ↔ G s a ∧ (step s a).elim True (fun s' => Guarded step G s' as) := by
  refine and_congr_right fun _ => ?_
  cases step s a with
  | none => simp
  | some s' => simp

/-- Whether a given run is guarded can be computed. -/
instance Guarded.decidable (step : σ → α → Option σ) (G : σ → α → Prop)
    [∀ s a, Decidable (G s a)] : ∀ (as : List α) (s : σ), Decidable (Guarded step G s as)
  | [], _ => isTrue trivial
  | a :: as, s =>
    have : Decidable ((step s a).elim True (fun s' => Guarded step G s' as)) :=
      match step s a with
      | none => isTrue trivial
      | some s' => Guarded.decidable step G as s'
    decidable_of_iff' _ guarded_cons

/-- **Run invariant rule.**  What every guarded step preserves holds at the end of every
    guarded run that starts with it. -/
theorem exec_invariant {step : σ → α → Option σ} {G : σ → α → Prop} {Inv : σ → Prop}
    (hstep : ∀ s a s', Inv s → G s a → step s a = some s' → Inv s') :
    ∀ (as : List α) (s t : σ), Inv s → Guarded step G s as →
      exec step s as = some t → Inv t := by
  intro as
  induction as with
  | nil =>
    intro s t hs _ ht
    rw [exec_nil, Option.some.injEq] at ht
    exact ht ▸ hs
  | cons a as ih =>
    intro s t hs hg ht
    obtain ⟨s', hs', hrest⟩ := exec_cons_some ht
    exact ih s' t (hstep s a s' hs hg.1 hs') (hg.2 s' hs') hrest

/-- **Equal guards.**  Two guards that agree where the invariant holds, which guarded steps
    keep, guard the same runs. -/
theorem guarded_congr {step : σ → α → Option σ} {G G' : σ → α → Prop} {Inv : σ → Prop}
    (hiff : ∀ s a, Inv s → (G s a ↔ G' s a))
    (hstep : ∀ s a s', Inv s → G s a → step s a = some s' → Inv s') {as : List α} {s : σ}
    (hs : Inv s) : Guarded step G s as ↔ Guarded step G' s as := by
  induction as generalizing s with
  | nil => exact Iff.rfl
  | cons a as ih =>
    constructor
    · rintro ⟨hG, hrest⟩
      exact ⟨(hiff s a hs).mp hG, fun s' h => (ih (hstep s a s' hs hG h)).mp (hrest s' h)⟩
    · rintro ⟨hG', hrest⟩
      have hG := (hiff s a hs).mpr hG'
      exact ⟨hG, fun s' h => (ih (hstep s a s' hs hG h)).mpr (hrest s' h)⟩

/-! ### Properties of every state of a run -/

/-- `P` holds of every state the run `as` from `s` reaches, after each of its steps. -/
def Always (step : σ → α → Option σ) (P : σ → Prop) (s : σ) (as : List α) : Prop :=
  ∀ pre post t, as = pre ++ post → exec step s pre = some t → P t

/-- The first steps of a guarded run are a guarded run. -/
theorem Guarded.append_left {step : σ → α → Option σ} {G : σ → α → Prop} {as bs : List α} {s : σ}
    (h : Guarded step G s (as ++ bs)) : Guarded step G s as := by
  induction as generalizing s with
  | nil => exact trivial
  | cons a as ih => exact ⟨h.1, fun s' hs' => ih (h.2 s' hs')⟩

/-- The last step of a guarded run is taken where the guard holds. -/
theorem Guarded.last {step : σ → α → Option σ} {G : σ → α → Prop} {as : List α} {a : α} {s t : σ}
    (h : Guarded step G s (as ++ [a])) (ht : exec step s as = some t) : G t a := by
  induction as generalizing s with
  | nil =>
    rw [exec_nil, Option.some.injEq] at ht
    exact ht ▸ h.1
  | cons b as ih =>
    obtain ⟨s', hs', hrest⟩ := exec_cons_some ht
    exact ih (h.2 s' hs') hrest

/-- What holds always along a run holds always along the rest of it. -/
theorem Always.tail {step : σ → α → Option σ} {P : σ → Prop} {s s' : σ} {a : α} {as : List α}
    (h : Always step P s (a :: as)) (hs' : step s a = some s') : Always step P s' as := by
  intro pre post t hsplit ht
  refine h (a :: pre) post t (by rw [hsplit, List.cons_append]) ?_
  rw [exec_cons, hs']
  exact ht

/-- **Exact guards.**  Guarded steps keep the invariant, which implies `P`, and a step that is
    not guarded leads from the invariant to a state without `P`.  Then `P` holds in every
    state of a run exactly when the run is guarded. -/
theorem always_iff_guarded {step : σ → α → Option σ} {G : σ → α → Prop} {Inv P : σ → Prop}
    (himp : ∀ s, Inv s → P s)
    (hstep : ∀ s a s', Inv s → G s a → step s a = some s' → Inv s')
    (hbreak : ∀ s a s', Inv s → step s a = some s' → P s' → G s a)
    {as : List α} {s t : σ} (hs : Inv s) (ht : exec step s as = some t) :
    Always step P s as ↔ Guarded step G s as := by
  constructor
  · intro h
    induction as generalizing s with
    | nil => exact trivial
    | cons a as ih =>
      obtain ⟨s', hs', hrest⟩ := exec_cons_some ht
      have hP : P s' := h [a] as s' rfl (by rw [exec_cons, hs']; rfl)
      have hG : G s a := hbreak s a s' hs hs' hP
      refine ⟨hG, fun u hu => ?_⟩
      obtain rfl : s' = u := Option.some.inj (hs'.symm.trans hu)
      exact ih (hstep s a s' hs hG hs') hrest (h.tail hs')
  · rintro h pre post u rfl hu
    exact himp u (exec_invariant hstep pre s u hs h.append_left hu)

end Vpx3.Exec
