import Vpx3.Cmd.NormalForm
import Vpx3.Cmd.Handlers

namespace Vpx3.Cmd

open Vpx3.CStr

/-!
# Commands — argument strings with too few tokens

`strsep` sets the cursor to NULL behind the last piece of the string, and returns NULL from
then on.  A handler that cuts off `n` arguments meets one of three situations:

* with fewer than `n` pieces it reads the number behind a NULL pointer;
* with exactly `n` pieces the cursor is NULL in front of the last argument, which the
  handlers with a check notice;
* with more pieces it goes on, and takes an empty last piece for an argument.

`rejects_iff` — a handler rejects a string cleanly in the second situation, if it has the
check, and in no other.
-/

/-- The handlers with at least two arguments. -/
def handlers : List Handler :=
  [testDoorbell, testRiooutb, testRioinb, testNread, testNwrite, testOutBoundSendMsg,
    testInBoundGetMsg, doDm]

/-- Fewer tokens than the handler needs. -/
def Incomplete (h : Handler) (str : Str) : Prop := (words str).length < h.seps + 1

instance (h : Handler) (str : Str) : Decidable (Incomplete h str) :=
  inferInstanceAs (Decidable ((words str).length < h.seps + 1))

/-- The handler reports the error and does nothing else: no NULL pointer is followed, no byte
    in front of the string is written, and no operation is performed. -/
def RejectsCleanly (h : Handler) (str : Str) : Prop := h.run str = .ok ⟨.argumentError, false⟩

/-- The handler has the check, and the string falls apart into exactly the arguments that are
    cut off, empty ones included. -/
def CheckReached (h : Handler) (str : Str) : Prop :=
  h.checked = true ∧ str.count blank + 1 = h.seps

/-! ### Pieces of a string -/

/-- A string has one piece more than blanks. -/
theorem length_splitOn_blank (s : Str) : (s.splitOn blank).length = s.count blank + 1 := by
  induction s with
  | nil => rfl
  | cons c s ih =>
    rw [List.splitOn_cons_eq_if_modifyHead, List.count_cons]
    split
    · rw [List.length_cons, ih]
    · rw [List.length_modifyHead, ih, Nat.add_zero]

/-- The tokens are pieces. -/
theorem length_words_le (s : Str) : (words s).length ≤ s.count blank + 1 := by
  rw [← length_splitOn_blank]
  exact List.length_filter_le _ _

/-- `strsep` on the last piece. -/
theorem strsep_last (s : Str) (hs : blank ∉ s) : strsep blank (some s) = (some s, none) := by
  have hp : ∀ x ∈ s, (x != blank) = true := by
    intro x hx
    have hne : x ≠ blank := fun h => hs (h ▸ hx)
    exact bne_iff_ne.mpr hne
  have htake : s.takeWhile (· != blank) = s := List.takeWhile_eq_self_iff.mpr hp
  have hdrop : s.dropWhile (· != blank) = [] := List.dropWhile_eq_nil_iff.mpr hp
  rw [strsep, htake, hdrop]

/-- A string with a blank, taken apart at the first one. -/
theorem exists_piece (s : Str) (hs : blank ∈ s) :
    ∃ t rest, s = t ++ blank :: rest ∧ blank ∉ t ∧ s.count blank = rest.count blank + 1 := by
  obtain ⟨t, rest, rfl, ht⟩ := List.eq_append_cons_of_mem hs
  refine ⟨t, rest, rfl, ht, ?_⟩
  rw [List.count_append, List.count_eq_zero_of_not_mem ht, List.count_cons_self, Nat.zero_add]

/-- Behind the last piece a cut fails. -/
theorem sepHexs_none (n : Nat) : sepHexs (n + 1) none = .error .null := rfl

/-- **The cursor after `n` cuts**: in front of a rest, NULL, or followed too far. -/
theorem sepHexs_count (n : Nat) (s : Str) :
    (n ≤ s.count blank → ∃ values rest, sepHexs n (some s) = .ok (values, some rest))
      ∧ (n = s.count blank + 1 → ∃ values, sepHexs n (some s) = .ok (values, none))
      ∧ (s.count blank + 1 < n → sepHexs n (some s) = .error .null) := by
  induction n generalizing s with
  | zero =>
    refine ⟨fun _ => ⟨Fin.elim0, s, rfl⟩, fun h => ?_, fun h => ?_⟩
    · omega
    · omega
  | succ n ih =>
    by_cases hs : blank ∈ s
    · -- one piece and one blank less
      obtain ⟨t, rest, rfl, ht, hcount⟩ := exists_piece s hs
      obtain ⟨hmore, hlast, hfew⟩ := ih rest
      have hcut : sepHexs (n + 1) (some (t ++ blank :: rest))
          = sepHexs n (some rest) >>= fun r => .ok (Fin.cons (str2hex t) r.1, r.2) := by
        rw [sepHexs, sepHex, strsep_append blank t rest ht]
        rfl
      rw [hcount, hcut]
      refine ⟨fun h => ?_, fun h => ?_, fun h => ?_⟩
      · obtain ⟨values, rest', hrun⟩ := hmore (by omega)
        rw [hrun]
        exact ⟨_, rest', rfl⟩
      · obtain ⟨values, hrun⟩ := hlast (by omega)
        rw [hrun]
        exact ⟨_, rfl⟩
      · rw [hfew (by omega)]
        rfl
    · -- the last piece
      have hcut : sepHexs (n + 1) (some s)
          = sepHexs n none >>= fun r => .ok (Fin.cons (str2hex s) r.1, r.2) := by
        rw [sepHexs, sepHex, strsep_last s hs]
        rfl
      rw [List.count_eq_zero_of_not_mem hs, hcut]
      refine ⟨fun h => ?_, fun h => ?_, fun h => ?_⟩
      · omega
      · obtain rfl : n = 0 := by omega
        exact ⟨_, rfl⟩
      · obtain ⟨k, rfl⟩ : ∃ k, n = k + 1 := ⟨n - 1, by omega⟩
        rw [sepHexs_none]
        rfl

/-! ### The handlers -/

/-- The operation of a handler is never the error. -/
theorem operation_ne_argumentError {h : Handler} (hh : h ∈ handlers) (values : Fin h.seps → Word)
    (last : Word) : h.operation values last ≠ .argumentError := by
  simp only [handlers, List.mem_cons, List.not_mem_nil, or_false] at hh
  rcases hh with rfl | rfl | rfl | rfl | rfl | rfl | rfl | rfl <;> exact fun h => nomatch h

/-- A fault is no outcome. -/
theorem error_ne_ok (fault : Fault) (outcome : Outcome) :
    (Except.error fault : Except Fault Outcome) ≠ .ok outcome := by
  simp

/-- **Clean rejections.**  A handler rejects a string cleanly if and only if it has the check
    and the string falls apart into exactly the arguments that are cut off; a string that is
    rejected is incomplete. -/
theorem rejects_iff {h : Handler} (hh : h ∈ handlers) (str : Str) :
    (RejectsCleanly h str ↔ CheckReached h str)
      ∧ (RejectsCleanly h str → Incomplete h str) := by
  obtain ⟨hmore, hlast, hfew⟩ := sepHexs_count h.seps str
  have hiff : RejectsCleanly h str ↔ CheckReached h str := by
    rw [RejectsCleanly, CheckReached, Handler.run]
    rcases Nat.lt_trichotomy (str.count blank + 1) h.seps with hn | hn | hn
    · -- a NULL pointer is followed between the cuts
      rw [hfew hn]
      refine iff_of_false (error_ne_ok .null _) (fun hc => ?_)
      omega
    · -- the cursor is NULL in front of the last argument: the check decides
      obtain ⟨values, hrun⟩ := hlast hn.symm
      rw [hrun, ok_bind]
      cases hchecked : h.checked with
      | true => exact iff_of_true rfl ⟨rfl, hn⟩
      | false =>
        exact iff_of_false (error_ne_ok .null _) (fun hc => Bool.false_ne_true hc.1)
    · -- there is a rest, and the handler goes on to its operation
      obtain ⟨values, rest, hrun⟩ := hmore (by omega)
      have hsome : ¬(h.checked = true ∧ (some rest : Option Str) = none) := by simp
      rw [hrun, ok_bind]
      simp only [if_neg hsome]
      refine iff_of_false (fun hrun => ?_) (fun hc => ?_)
      · exact operation_ne_argumentError hh _ _ (congrArg Outcome.operation (Except.ok.inj hrun))
      · omega
  refine ⟨hiff, fun hrej => ?_⟩
  have hcount := (hiff.mp hrej).2
  have hwords := length_words_le str
  rw [Incomplete]
  omega

/-- `dm` with the two tokens `1` and `2` is rejected. -/
theorem rejects_dm : RejectsCleanly doDm (bytes "1 2") :=
  (rejects_iff (by simp [handlers]) (bytes "1 2")).1.mpr ⟨rfl, by decide⟩

/-- `doorbell` follows a NULL pointer on the empty string, and on `1 ` writes in front of its
    empty last argument; `setoutb` does the one on two tokens and the other, programming window 0,
    on four tokens and a separator. -/
theorem not_rejects :
    (Incomplete testDoorbell [] ∧ testDoorbell.run [] = .error .null)
      ∧ (Incomplete testDoorbell (bytes "1 ")
        ∧ testDoorbell.run (bytes "1 ") = .ok ⟨.fslRioDoorbellSend 1 0, true⟩)
      ∧ (Incomplete testRiooutb (bytes "1 2") ∧ testRiooutb.run (bytes "1 2") = .error .null)
      ∧ (Incomplete testRiooutb (bytes "1 2 3 4 ")
        ∧ testRiooutb.run (bytes "1 2 3 4 ") = .ok ⟨.setRiooutb 1 2 3 4 0, true⟩) := by
  decide +kernel

end Vpx3.Cmd
