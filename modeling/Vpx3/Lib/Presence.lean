import Mathlib.Data.List.Induction

namespace Vpx3.Presence

/-!
# Library — two ends that announce themselves to each other

An end comes up and says `join` to the other one; an end that hears `join` from one it does not
list yet puts it on its list and says `join` as well.  An end that goes down says `leave` to the
other one if it lists it.  Each direction is a queue, and an end that is down hears nothing.

* `End`, `Link`, `Link.step` — the ends, both of them with the words on their way, and what the
  left end does; the right end does the same on `Link.swap`;
* `Heard` — what the words on their way to an end say; `Answered` — an end that is up and not
  listed will be;
* `Link.Inv`, `Link.Inv.step` — both of both ends, kept by every step but a hasty close;
* `Haunted`, `Haunted.of_down` — what a hasty close leaves behind, and no word heard changes;
* `Link.Moves` — what both ends do;
* `Link.Inv.quiet_lists` — when nothing is on its way, an end lists the other one if and only if
  both are up.
-/

variable {M : Type*}

/-- The two words. -/
structure Words (M : Type*) where
  join : M
  leave : M
  ne : join ≠ leave

/-- An end: whether it is up, whether it lists the other end, and the words on their way to it,
    the oldest first. -/
structure End (M : Type*) where
  up : Bool
  lists : Bool
  inbox : List M

/-- Two ends. -/
structure Link (M : Type*) where
  left : End M
  right : End M

/-- The same link seen from the other side. -/
def Link.swap (l : Link M) : Link M := ⟨l.right, l.left⟩

@[simp] theorem Link.swap_swap (l : Link M) : l.swap.swap = l := rfl
@[simp] theorem Link.swap_left (l : Link M) : l.swap.left = l.right := rfl
@[simp] theorem Link.swap_right (l : Link M) : l.swap.right = l.left := rfl

/-- What is said to an end. -/
def End.told (e : End M) (ms : List M) : End M := { e with inbox := e.inbox ++ ms }

@[simp] theorem End.told_up (e : End M) (ms : List M) : (e.told ms).up = e.up := rfl
@[simp] theorem End.told_lists (e : End M) (ms : List M) : (e.told ms).lists = e.lists := rfl
@[simp] theorem End.told_inbox (e : End M) (ms : List M) :
    (e.told ms).inbox = e.inbox ++ ms := rfl
@[simp] theorem End.told_nil (e : End M) : e.told [] = e := by
  rw [End.told, List.append_nil]

/-! ### What holds of a link -/

variable (w : Words M)

/-- The words on their way to the left end, and its list: they end as the right end has become,
    and without any the left end does not list a right end that is down. -/
structure Heard (l : Link M) : Prop where
  joined : l.right.up = true → ∀ m ∈ l.left.inbox.getLast?, m = w.join
  left : l.right.up = false → ∀ m ∈ l.left.inbox.getLast?, m = w.leave
  unlisted : l.right.up = false → l.left.inbox = [] → l.left.lists = false

/-- Where both ends are up, a left end that does not list the right one has a word on its way, or
    its own `join` is on its way to an end that will answer. -/
def Answered (l : Link M) : Prop :=
  l.left.up = true → l.right.up = true → l.left.inbox = [] → l.left.lists = false →
    l.right.inbox ≠ [] ∧ (l.right.lists = false ∨ w.leave ∈ l.right.inbox)

/-- An end that is down lists nobody. -/
def Blank (e : End M) : Prop := e.up = false → e.lists = false

/-- What holds of both ends. -/
structure Link.Inv (l : Link M) : Prop where
  heard : Heard w l
  heard' : Heard w l.swap
  answered : Answered w l
  answered' : Answered w l.swap
  blank : Blank l.left
  blank' : Blank l.right

/-- A close is in order if the left end lists the right one, or if the right end does not list it
    and has heard all it said. -/
def Settled (l : Link M) : Prop :=
  l.left.lists = true ∨ (l.right.lists = false ∧ l.right.inbox = [])

variable {w} {l l' : Link M} {e r : End M} {m : M} {rest : List M}

theorem Link.Inv.swap (h : l.Inv w) : l.swap.Inv w :=
  ⟨h.heard', h.heard, h.answered', h.answered, h.blank', h.blank⟩

/-- What holds of the last word on its way holds when the first one has been heard. -/
theorem forall_getLast?_of_cons {P : M → Prop} (h : ∀ x ∈ (m :: rest).getLast?, P x) :
    ∀ x ∈ rest.getLast?, P x := by
  intro x hx
  refine h x ?_
  rw [List.getLast?_cons, Option.mem_def.mp hx]
  rfl

/-- An end that has heard a word, and has the list it should have when that was the last one. -/
theorem Heard.pop (h : Heard w l) (hinbox : l.left.inbox = m :: rest) (hrest : e.inbox = rest)
    (hup : r.up = l.right.up) (hlists : l.right.up = false → rest = [] → e.lists = false) :
    Heard w ⟨e, r⟩ := by
  refine ⟨fun hr => ?_, fun hr => ?_, fun hr he => ?_⟩
  · show ∀ x ∈ e.inbox.getLast?, x = w.join
    rw [hrest]
    exact forall_getLast?_of_cons (hinbox ▸ h.joined (hup ▸ hr))
  · show ∀ x ∈ e.inbox.getLast?, x = w.leave
    rw [hrest]
    exact forall_getLast?_of_cons (hinbox ▸ h.left (hup ▸ hr))
  · exact hlists (hup ▸ hr) (hrest ▸ he)

/-- It is all the same what the right end lists, and what is on its way to it. -/
theorem Heard.other (h : Heard w l) (hup : r.up = l.right.up) : Heard w ⟨l.left, r⟩ :=
  ⟨fun hr => h.joined (hup ▸ hr), fun hr => h.left (hup ▸ hr), fun hr => h.unlisted (hup ▸ hr)⟩

/-- An end that is up and has said `join` last. -/
theorem Heard.of_join (hup : r.up = true) (hlast : ∀ m ∈ e.inbox.getLast?, m = w.join) :
    Heard w ⟨e, r⟩ := by
  refine ⟨fun _ => hlast, fun hr => ?_, fun hr => ?_⟩
  · exact absurd (hup.symm.trans hr) Bool.noConfusion
  · exact absurd (hup.symm.trans hr) Bool.noConfusion

/-- An end listed by one that is down hears that the other has left. -/
theorem Heard.pending (h : Heard w l) (hdown : l.right.up = false) (ms : List M) :
    l.left.lists = false ∨ w.leave ∈ l.left.inbox ++ ms := by
  rcases List.eq_nil_or_concat l.left.inbox with hnil | ⟨init, last, hlast⟩
  · exact Or.inl (h.unlisted hdown hnil)
  · have hleave : last = w.leave := by
      refine h.left hdown last ?_
      rw [hlast, List.concat_eq_append, List.getLast?_concat]
      rfl
    refine Or.inr (List.mem_append_left _ ?_)
    rw [hlast, hleave, List.concat_eq_append]
    exact List.mem_append_right _ List.mem_cons_self

/-- A right end that is up, and that the left end has just forgotten or forgot before, has more
    to say than the word that the left end has just heard. -/
theorem Heard.rest_ne_nil (h : Heard w l) (hinbox : l.left.inbox = m :: rest)
    (hup : l.right.up = true) (hm : m ≠ w.join) : rest ≠ [] := by
  rintro rfl
  refine hm (h.joined hup m ?_)
  rw [hinbox]
  rfl

/-- A right end that is down has left last. -/
theorem Heard.eq_leave (h : Heard w l) (hinbox : l.left.inbox = [m])
    (hdown : l.right.up = false) : m = w.leave := by
  refine h.left hdown m ?_
  rw [hinbox]
  rfl

/-! ### Steps -/

section Step

variable [DecidableEq M]

/-- What an end does; it may say `join` more than once when it comes up. -/
inductive Act
  | up (again : ℕ)
  | down
  | hear

/-- What an end that is up makes of a word, and its answer. -/
def End.hear (w : Words M) (e : End M) (m : M) : End M × List M :=
  if m = w.join then
    if e.lists = false then ({ e with lists := true }, [w.join]) else (e, [])
  else if m = w.leave then ({ e with lists := false }, [])
  else (e, [])

/-- What the left end does. -/
def Link.step (w : Words M) (l : Link M) : Act → Option (Link M)
  | .up again =>
    if l.left.up then none
    else some ⟨{ l.left with up := true }, l.right.told (List.replicate (again + 1) w.join)⟩
  | .down =>
    if l.left.up then
      some ⟨{ l.left with up := false, lists := false },
        l.right.told (if l.left.lists then [w.leave] else [])⟩
    else none
  | .hear =>
    match l.left.inbox with
    | [] => none
    | m :: rest =>
      let e := { l.left with inbox := rest }
      if l.left.up then some ⟨(e.hear w m).1, l.right.told (e.hear w m).2⟩
      else some ⟨e, l.right⟩

/-- Which steps are in order. -/
def Link.Guard (l : Link M) : Act → Prop
  | .down => Settled l
  | _ => True

/-- Coming up keeps the invariant. -/
theorem Link.Inv.step_up (h : l.Inv w) {again : ℕ} (hstep : l.step w (.up again) = some l') :
    l'.Inv w := by
  rw [Link.step] at hstep
  split at hstep
  · cases hstep
  · rename_i hdown
    rw [Bool.not_eq_true] at hdown
    obtain rfl := Option.some.inj hstep
    have hlast : ∀ m ∈ (l.right.inbox ++ List.replicate (again + 1) w.join).getLast?,
        m = w.join := by
      intro m hm
      rw [List.replicate_succ', ← List.append_assoc, List.getLast?_concat] at hm
      exact (Option.some.inj hm).symm
    refine ⟨⟨h.heard.joined, h.heard.left, h.heard.unlisted⟩, .of_join rfl hlast, ?_, ?_,
      fun hup => Bool.noConfusion hup, h.blank'⟩
    · -- the other end will hear the first `join` behind what makes it forget
      intro _ _ _ _
      exact ⟨by simp, h.heard'.pending hdown _⟩
    · intro _ _ hinbox
      exact absurd hinbox (by simp)

/-- Going down keeps it where that is in order. -/
theorem Link.Inv.step_down (h : l.Inv w) (hsettled : Settled l)
    (hstep : l.step w .down = some l') : l'.Inv w := by
  rw [Link.step] at hstep
  split at hstep
  · obtain rfl := Option.some.inj hstep
    refine ⟨⟨h.heard.joined, h.heard.left, fun _ _ => rfl⟩,
      ⟨fun hup => Bool.noConfusion hup, fun _ => ?_, fun _ hinbox => ?_⟩,
      fun hup => Bool.noConfusion hup, fun _ hup => Bool.noConfusion hup, fun _ => rfl, h.blank'⟩
    · -- the last word is `leave`, or nothing has been said that is not known to be over
      by_cases hlists : l.left.lists = true
      · simp [hlists]
      · simp [hlists, (hsettled.resolve_left hlists).2]
    · rcases hsettled with hlists | ⟨hright, -⟩
      · simp [hlists] at hinbox
      · exact hright
  · cases hstep

/-- Hearing a word keeps it. -/
theorem Link.Inv.step_hear (h : l.Inv w) (hstep : l.step w .hear = some l') : l'.Inv w := by
  rw [Link.step] at hstep
  split at hstep
  · cases hstep
  rename_i m rest hinbox
  dsimp only at hstep
  have hne := w.ne
  by_cases hup : l.left.up = true
  · rw [if_pos hup, End.hear] at hstep
    by_cases hjoin : m = w.join
    · rw [if_pos hjoin] at hstep
      have hrest : l.right.up = false → rest ≠ [] := by
        rintro hdown rfl
        exact hne (hjoin.symm.trans (h.heard.eq_leave hinbox hdown))
      by_cases hlists : l.left.lists = false
      · -- listed now, and answered
        rw [if_pos hlists] at hstep
        obtain rfl := Option.some.inj hstep
        refine ⟨h.heard.pop hinbox rfl rfl fun hdown hnil => absurd hnil (hrest hdown),
          .of_join hup ?_, ?_, ?_, fun hdown => ?_, h.blank'⟩
        · simp
        · exact fun _ _ _ hl => Bool.noConfusion hl
        · exact fun _ _ hin => absurd hin (by simp)
        · exact absurd (hup.symm.trans hdown) Bool.noConfusion
      · -- listed before
        rw [if_neg hlists] at hstep
        obtain rfl := Option.some.inj hstep
        rw [End.told_nil]
        refine ⟨h.heard.pop hinbox rfl rfl fun hdown hnil => absurd hnil (hrest hdown),
          h.heard'.other rfl, fun _ _ _ hl => absurd hl hlists, fun hr hl hin hrl => ?_, h.blank,
          h.blank'⟩
        obtain ⟨-, hleft | hleave⟩ := h.answered' hr hl hin hrl
        · exact absurd hleft hlists
        · rw [Link.swap_right, hinbox, List.mem_cons, hjoin] at hleave
          have hmem := hleave.resolve_left hne.symm
          exact ⟨List.ne_nil_of_mem hmem, Or.inr hmem⟩
    · rw [if_neg hjoin] at hstep
      by_cases hleave : m = w.leave
      · -- forgotten; the right end has joined again, or is down
        rw [if_pos hleave] at hstep
        obtain rfl := Option.some.inj hstep
        rw [End.told_nil]
        refine ⟨h.heard.pop hinbox rfl rfl fun _ _ => rfl, h.heard'.other rfl, fun _ hr hin => ?_,
          fun hr _ _ _ => ?_, fun _ => rfl, h.blank'⟩
        · exact absurd hin (h.heard.rest_ne_nil hinbox hr hjoin)
        · exact ⟨h.heard.rest_ne_nil hinbox hr hjoin, Or.inl rfl⟩
      · -- some other word
        rw [if_neg hleave] at hstep
        obtain rfl := Option.some.inj hstep
        rw [End.told_nil]
        refine ⟨h.heard.pop hinbox rfl rfl ?_, h.heard'.other rfl, fun _ hr hin => ?_,
          fun hr hl hin hrl => ?_, h.blank, h.blank'⟩
        · rintro hdown rfl
          exact absurd (h.heard.eq_leave hinbox hdown) hleave
        · exact absurd hin (h.heard.rest_ne_nil hinbox hr hjoin)
        · refine ⟨h.heard.rest_ne_nil hinbox hr hjoin, ?_⟩
          refine (h.answered' hr hl hin hrl).2.imp_right fun hmem => ?_
          rw [Link.swap_right, hinbox, List.mem_cons] at hmem
          exact hmem.resolve_left (Ne.symm hleave)
  · -- an end that is down drops the word
    rw [if_neg hup] at hstep
    rw [Bool.not_eq_true] at hup
    obtain rfl := Option.some.inj hstep
    refine ⟨h.heard.pop hinbox rfl rfl fun _ _ => h.blank hup, h.heard'.other rfl, fun hl => ?_,
      fun _ hl => ?_, h.blank, h.blank'⟩
    · exact absurd (hl.symm.trans hup) Bool.noConfusion
    · exact absurd (hl.symm.trans hup) Bool.noConfusion

/-- **Every step in order** keeps the invariant. -/
theorem Link.Inv.step (h : l.Inv w) {a : Act} (hg : l.Guard a) (hstep : l.step w a = some l') :
    l'.Inv w := by
  cases a with
  | up again => exact h.step_up hstep
  | down => exact h.step_down hg hstep
  | hear => exact h.step_hear hstep

/-! ### A close that is not in order -/

/-- The right end is down, and the left end lists it or will when it has heard everything. -/
structure Haunted (w : Words M) (l : Link M) : Prop where
  down : l.right.up = false
  up : l.left.up = true
  joined : ∀ m ∈ l.left.inbox.getLast?, m = w.join
  listed : l.left.inbox = [] → l.left.lists = true

/-- An end that goes down and says nothing leaves its `join` behind. -/
theorem Haunted.of_down (h : l.Inv w) (hright : l.right.up = true) (hsettled : ¬Settled l)
    (hstep : l.step w .down = some l') : Haunted w l'.swap := by
  rw [Settled, not_or, Bool.not_eq_true] at hsettled
  rw [Link.step] at hstep
  split at hstep
  · rename_i hup
    obtain rfl := Option.some.inj hstep
    rw [hsettled.1, if_neg Bool.false_ne_true, End.told_nil]
    refine ⟨rfl, hright, h.heard'.joined hup, fun hinbox => ?_⟩
    by_contra hlists
    exact hsettled.2 ⟨(Bool.not_eq_true _).mp hlists, hinbox⟩
  · cases hstep

/-- The left end hears `join` last. -/
theorem Haunted.hear (h : Haunted w l) (hstep : l.step w .hear = some l') : Haunted w l' := by
  rw [Link.step] at hstep
  split at hstep
  · cases hstep
  rename_i m rest hinbox
  have hrest : ∀ x ∈ rest.getLast?, x = w.join := forall_getLast?_of_cons (hinbox ▸ h.joined)
  have hlast : rest = [] → m = w.join := by
    rintro rfl
    apply h.joined
    rw [hinbox]
    rfl
  dsimp only at hstep
  rw [if_pos h.up, End.hear] at hstep
  by_cases hjoin : m = w.join
  · -- listed from now on, or before
    rw [if_pos hjoin] at hstep
    split at hstep
    · obtain rfl := Option.some.inj hstep
      exact ⟨h.down, h.up, hrest, fun _ => rfl⟩
    · rename_i hlists
      obtain rfl := Option.some.inj hstep
      exact ⟨h.down, h.up, hrest, fun _ => (Bool.not_eq_false _).mp hlists⟩
  · -- a `join` is still to come
    rw [if_neg hjoin] at hstep
    split at hstep
    · obtain rfl := Option.some.inj hstep
      exact ⟨h.down, h.up, hrest, fun hnil => absurd (hlast hnil) hjoin⟩
    · obtain rfl := Option.some.inj hstep
      exact ⟨h.down, h.up, hrest, fun hnil => absurd (hlast hnil) hjoin⟩

/-- The right end hears nothing any more. -/
theorem Haunted.hear_swap (h : Haunted w l) (hstep : l.swap.step w .hear = some l') :
    Haunted w l'.swap := by
  have hdown : l.swap.left.up = false := h.down
  rw [Link.step] at hstep
  split at hstep
  · cases hstep
  dsimp only at hstep
  rw [hdown, if_neg Bool.false_ne_true] at hstep
  obtain rfl := Option.some.inj hstep
  exact ⟨rfl, h.up, h.joined, h.listed⟩

/-! ### Both ends -/

/-- One of the ends does something that is allowed, or neither does anything. -/
inductive Link.Moves (w : Words M) (ok : Link M → Act → Prop) : Link M → Link M → Prop
  | stay {l : Link M} : Link.Moves w ok l l
  | left {l l' : Link M} {a : Act} (hok : ok l a) (hstep : l.step w a = some l') :
    Link.Moves w ok l l'
  | right {l l' : Link M} {a : Act} (hok : ok l.swap a) (hstep : l.swap.step w a = some l'.swap) :
    Link.Moves w ok l l'

/-- Only words are heard. -/
def OnlyHear (_ : Link M) (a : Act) : Prop := a = .hear

theorem Link.Moves.swap {ok : Link M → Act → Prop} (h : l.Moves w ok l') :
    l.swap.Moves w ok l'.swap := by
  cases h with
  | stay => exact .stay
  | left hok hstep => exact .right hok hstep
  | right hok hstep => exact .left hok hstep

/-- An end that goes down is down. -/
theorem Link.up_of_step_down (hstep : l.step w .down = some l') : l'.left.up = false := by
  rw [Link.step] at hstep
  split at hstep
  · rw [← Option.some.inj hstep]
  · cases hstep

/-- No word that is heard takes an end up or down. -/
theorem Link.up_of_step_hear (hstep : l.step w .hear = some l') :
    l'.left.up = l.left.up ∧ l'.right.up = l.right.up := by
  have hhear (e : End M) (m : M) : (e.hear w m).1.up = e.up := by
    rw [End.hear]
    split
    · split
      · rfl
      · rfl
    · split
      · rfl
      · rfl
  rw [Link.step] at hstep
  split at hstep
  · cases hstep
  · dsimp only at hstep
    split at hstep
    · obtain rfl := Option.some.inj hstep
      exact ⟨hhear .., rfl⟩
    · obtain rfl := Option.some.inj hstep
      exact ⟨rfl, rfl⟩

theorem Link.Moves.up (h : l.Moves w OnlyHear l') : l'.right.up = l.right.up := by
  cases h with
  | stay => rfl
  | left hok hstep =>
    rw [OnlyHear] at hok
    subst hok
    exact (Link.up_of_step_hear hstep).2
  | right hok hstep =>
    rw [OnlyHear] at hok
    subst hok
    exact (Link.up_of_step_hear hstep).1

/-- To hear a word is always in order. -/
theorem Link.Moves.guarded (h : l.Moves w OnlyHear l') : l.Moves w Link.Guard l' := by
  cases h with
  | stay => exact .stay
  | left hok hstep => exact .left (hok ▸ trivial) hstep
  | right hok hstep => exact .right (hok ▸ trivial) hstep

theorem Link.Inv.moves (h : l.Inv w) (hmoves : l.Moves w Link.Guard l') : l'.Inv w := by
  cases hmoves with
  | stay => exact h
  | left hok hstep => exact h.step hok hstep
  | right hok hstep => exact (h.swap.step hok hstep).swap

theorem Haunted.moves (h : Haunted w l) (hmoves : l.Moves w OnlyHear l') : Haunted w l' := by
  cases hmoves with
  | stay => exact h
  | left hok hstep =>
    rw [OnlyHear] at hok
    subst hok
    exact h.hear hstep
  | right hok hstep =>
    rw [OnlyHear] at hok
    subst hok
    exact h.hear_swap hstep

end Step

/-! ### Quiet links -/

/-- Nothing is on its way. -/
def Link.Quiet (l : Link M) : Prop := l.left.inbox = [] ∧ l.right.inbox = []

/-- Ends that are up list each other. -/
theorem Link.Inv.quiet_up (h : l.Inv w) (hquiet : l.Quiet) (hleft : l.left.up = true)
    (hright : l.right.up = true) : l.left.lists = true := by
  by_contra hlists
  rw [Bool.not_eq_true] at hlists
  exact (h.answered hleft hright hquiet.1 hlists).1 hquiet.2

/-- **Agreement.**  An end lists the other one if and only if both are up. -/
theorem Link.Inv.quiet_lists (h : l.Inv w) (hquiet : l.Quiet) :
    l.left.lists = (l.left.up && l.right.up) := by
  cases hleft : l.left.up with
  | false =>
    rw [Bool.false_and]
    exact h.blank hleft
  | true =>
    rw [Bool.true_and]
    cases hright : l.right.up with
    | false => exact h.heard.unlisted hright hquiet.1
    | true => exact h.quiet_up hquiet hleft hright

end Vpx3.Presence
