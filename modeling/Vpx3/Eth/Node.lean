import Mathlib
import Vpx3.Lib.Exec

namespace Vpx3.Eth

open Exec

/-!
# Ethernet over RapidIO — the peers of one node

`rionet.c` keeps a list of the devices it could talk to, a table of those that have announced
themselves by doorbell, and their number.

* `Rionet` — list, table and number; `rionetDbellEvent`, `rionetOpen`, `rionetClose`,
  `Rionet.addPeer` — what changes them, with the doorbells that are sent;
* `activate_eq`, `rionetClose_eq` — the loops over the peer list in closed form;
* `nactExact_iff_guarded` — the number is that of the table along exactly the runs in which no peer
  is in the list twice when it joins, only active devices leave, and no device is active when the
  interface is closed.

Device ids are `Fin n`, with `n` the size of the table, `RIO_MAX_ROUTE_ENTRIES`.
-/

abbrev Info := BitVec 16

def rionetDoorbellJoin : Info := 0x1000
def rionetDoorbellLeave : Info := 0x1001

/-- The peer list by device ids, `rionet_active`, `nact`, whether the doorbell handler is
    registered, and whether the interface is up. -/
structure Rionet (n : ℕ) where
  peers : List (Fin n)
  active : Fin n → Bool
  nact : ℤ
  dbell : Bool
  up : Bool
deriving DecidableEq

/-- Doorbells to be sent, with their destinations. -/
abbrev Sends (n : ℕ) := List (Fin n × Info)

variable {n : ℕ}

/-- `rionet_active[peer] = peer->rdev`, once for each entry of the list with the sender's id. -/
def Rionet.activatePeer (sid : Fin n) (s : Rionet n) (peer : Fin n) : Rionet n :=
  if peer = sid then
    { s with active := Function.update s.active sid true, nact := s.nact + 1 }
  else s

/-- The loop of a join over the peer list. -/
def Rionet.activate (s : Rionet n) (sid : Fin n) : Rionet n :=
  s.peers.foldl (Rionet.activatePeer sid) s

/-- `rionet_dbell_event`. -/
def rionetDbellEvent (s : Rionet n) (sid : Fin n) (info : Info) : Rionet n × Sends n :=
  if info = rionetDoorbellJoin then
    if s.active sid = false then (s.activate sid, [(sid, rionetDoorbellJoin)]) else (s, [])
  else if info = rionetDoorbellLeave then
    ({ s with active := Function.update s.active sid false, nact := s.nact - 1 }, [])
  else (s, [])

/-- What the requests of `rionet_open` return; the last one is made for every peer. -/
structure OpenResults (n : ℕ) where
  inbDbell : ℤ
  inbMbox : ℤ
  outbMbox : ℤ
  outbDbell : Fin n → Bool

/-- `rionet_open`: the return value, the node and the doorbells.  A request that fails leaves
    those before it in place. -/
def rionetOpen (r : OpenResults n) (s : Rionet n) : ℤ × Rionet n × Sends n :=
  if r.inbDbell < 0 then (r.inbDbell, s, [])
  else
    let s := { s with dbell := true }
    if r.inbMbox < 0 then (r.inbMbox, s, [])
    else if r.outbMbox < 0 then (r.outbMbox, s, [])
    else (r.outbMbox, { s with up := true },
      (s.peers.filter r.outbDbell).map fun peer => (peer, rionetDoorbellJoin))

/-- One round of the loop of `rionet_close`. -/
def leavePeer (st : Rionet n × Sends n) (peer : Fin n) : Rionet n × Sends n :=
  if st.1.active peer then
    ({ st.1 with active := Function.update st.1.active peer false },
      st.2 ++ [(peer, rionetDoorbellLeave)])
  else st

/-- `rionet_close`: the node and the doorbells. -/
def rionetClose (s : Rionet n) : Rionet n × Sends n :=
  let (s, sends) := s.peers.foldl leavePeer (s, [])
  ({ s with dbell := false, up := false }, sends)

/-- `list_add_tail(&peer->node, &rionet_peers)` of `rionet_probe`. -/
def Rionet.addPeer (s : Rionet n) (peer : Fin n) : Rionet n :=
  { s with peers := s.peers ++ [peer] }

/-! ### The loops -/

/-- A join from a device in the list makes it active, and counts it as often as it is there. -/
theorem activate_eq (s : Rionet n) (sid : Fin n) :
    s.activate sid =
      { s with
        active := if sid ∈ s.peers then Function.update s.active sid true else s.active
        nact := s.nact + s.peers.count sid } := by
  -- the loop runs over the list of the state it starts with
  have hloop (peers : List (Fin n)) (s : Rionet n) :
      peers.foldl (Rionet.activatePeer sid) s =
        { s with
          active := if sid ∈ peers then Function.update s.active sid true else s.active
          nact := s.nact + peers.count sid } := by
    induction peers generalizing s with
    | nil => simp
    | cons peer peers ih =>
      rw [List.foldl_cons, ih, Rionet.activatePeer]
      by_cases hpeer : peer = sid
      · subst hpeer
        simp only [if_true, Function.update_idem, ite_self, List.mem_cons, true_or,
          List.count_cons_self]
        push_cast
        rw [Int.add_assoc, Int.add_comm 1]
      · rw [if_neg hpeer, List.count_cons_of_ne hpeer]
        simp only [List.mem_cons, Ne.symm hpeer, false_or]
  exact hloop s.peers s

/-- What is sent to one device, in order. -/
def Sends.to (sends : Sends n) (j : Fin n) : List Info :=
  (sends.filter fun send => send.1 = j).map Prod.snd

@[simp] theorem Sends.to_nil (j : Fin n) : Sends.to [] j = [] := rfl

theorem Sends.to_append (sends sends' : Sends n) (j : Fin n) :
    Sends.to (sends ++ sends') j = Sends.to sends j ++ Sends.to sends' j := by
  rw [Sends.to, List.filter_append, List.map_append]
  rfl

theorem Sends.to_singleton (i j : Fin n) (info : Info) :
    Sends.to [(i, info)] j = if i = j then [info] else [] := by
  by_cases h : i = j
  · simp [Sends.to, h]
  · simp [Sends.to, h]

/-- The table behind the loop of a close: what is not in the list stays active. -/
theorem foldl_leavePeer_active (peers : List (Fin n)) (st : Rionet n × Sends n) (j : Fin n) :
    (peers.foldl leavePeer st).1.active j = (st.1.active j && decide (j ∉ peers)) := by
  induction peers generalizing st with
  | nil => simp
  | cons peer peers ih =>
    rw [List.foldl_cons, ih, leavePeer]
    by_cases hj : j = peer
    · subst hj
      cases hactive : st.1.active j <;> simp [hactive]
    · cases hactive : st.1.active peer <;> simp [hj]

/-- The rest of the node is not touched. -/
theorem foldl_leavePeer_node (peers : List (Fin n)) (st : Rionet n × Sends n) :
    (peers.foldl leavePeer st).1 = { st.1 with active := (peers.foldl leavePeer st).1.active } := by
  induction peers generalizing st with
  | nil => rfl
  | cons peer peers ih =>
    rw [List.foldl_cons]
    refine (ih (leavePeer st peer)).trans ?_
    rw [leavePeer]
    split
    · rfl
    · rfl

/-- The doorbells of the loop: one to each device that is in the list and active. -/
theorem foldl_leavePeer_to (peers : List (Fin n)) (st : Rionet n × Sends n) (j : Fin n) :
    Sends.to (peers.foldl leavePeer st).2 j
      = Sends.to st.2 j
        ++ if j ∈ peers ∧ st.1.active j = true then [rionetDoorbellLeave] else [] := by
  induction peers generalizing st with
  | nil => simp
  | cons peer peers ih =>
    rw [List.foldl_cons, ih, leavePeer]
    by_cases hactive : st.1.active peer = true
    · rw [if_pos hactive]
      dsimp only
      rw [Sends.to_append, Sends.to_singleton]
      by_cases hj : j = peer
      · subst hj
        simp [hactive]
      · simp [hj, Ne.symm hj]
    · rw [if_neg hactive]
      by_cases hj : j = peer
      · subst hj
        simp [hactive]
      · simp [hj]

/-- What a close makes of the node. -/
theorem rionetClose_node (s : Rionet n) :
    (rionetClose s).1 =
      { s with
        active := fun j => s.active j && decide (j ∉ s.peers), dbell := false, up := false } := by
  have hactive : (s.peers.foldl leavePeer (s, [])).1.active
      = fun j => s.active j && decide (j ∉ s.peers) := by
    funext j
    exact foldl_leavePeer_active s.peers (s, []) j
  rw [rionetClose]
  dsimp only
  rw [foldl_leavePeer_node, hactive]

/-- The doorbells of a close. -/
theorem rionetClose_to (s : Rionet n) (j : Fin n) :
    Sends.to (rionetClose s).2 j
      = if j ∈ s.peers ∧ s.active j = true then [rionetDoorbellLeave] else [] :=
  (foldl_leavePeer_to s.peers (s, []) j).trans (List.nil_append _)

/-! ### The number of active devices -/

/-- How many devices a table has. -/
def tableCount (active : Fin n → Bool) : ℕ := (Finset.univ.filter fun i => active i = true).card

/-- What can happen to a node. -/
inductive NodeEvent (n : ℕ) where
  | dbell (sid : Fin n) (info : Info)
  | open (r : OpenResults n)
  | close
  | addPeer (peer : Fin n)

/-- The node by itself.  A doorbell reaches a registered handler, an interface is opened when it is
    down and closed when it is up. -/
def nodeStep (s : Rionet n) : NodeEvent n → Option (Rionet n)
  | .dbell sid info => if s.dbell then some (rionetDbellEvent s sid info).1 else none
  | .open r => if s.up then none else some (rionetOpen r s).2.1
  | .close => if s.up then some (rionetClose s).1 else none
  | .addPeer peer => some (s.addPeer peer)

/-- Events that leave `nact` exact. -/
def NactGuard (s : Rionet n) : NodeEvent n → Prop
  | .dbell sid info =>
    (info = rionetDoorbellJoin → s.active sid = false → s.peers.count sid ≤ 1)
      ∧ (info = rionetDoorbellLeave → s.active sid = true)
  | .close => ∀ peer ∈ s.peers, s.active peer = false
  | _ => True

/-- `nact` is the number of devices in the table. -/
def NactExact (s : Rionet n) : Prop := s.nact = tableCount s.active

instance (s : Rionet n) : ∀ e, Decidable (NactGuard s e)
  | .dbell _ _ => inferInstanceAs (Decidable (_ ∧ _))
  | .open _ => isTrue trivial
  | .close => List.decidableBAll _ s.peers
  | .addPeer _ => isTrue trivial

/-- A device more in the table. -/
theorem tableCount_update_true {active : Fin n → Bool} {sid : Fin n} (h : active sid = false) :
    tableCount (Function.update active sid true) = tableCount active + 1 := by
  have hinsert : (Finset.univ.filter fun i => Function.update active sid true i = true)
      = insert sid (Finset.univ.filter fun i => active i = true) := by
    ext i
    by_cases hi : i = sid
    · simp [hi]
    · simp [hi]
  rw [tableCount, hinsert, Finset.card_insert_of_notMem (by simp [h]), tableCount]

/-- A device less. -/
theorem tableCount_update_false (active : Fin n → Bool) (sid : Fin n) :
    tableCount (Function.update active sid false)
      = if active sid = true then tableCount active - 1 else tableCount active := by
  have herase : (Finset.univ.filter fun i => Function.update active sid false i = true)
      = (Finset.univ.filter fun i => active i = true).erase sid := by
    ext i
    by_cases hi : i = sid
    · simp [hi]
    · simp [hi]
  rw [tableCount, herase, Finset.card_erase_eq_ite, tableCount]
  simp only [Finset.mem_filter, Finset.mem_univ, true_and]

/-- A table with a device has a positive number of them. -/
theorem tableCount_pos {active : Fin n → Bool} {i : Fin n} (h : active i = true) :
    0 < tableCount active :=
  Finset.card_pos.mpr ⟨i, Finset.mem_filter.mpr ⟨Finset.mem_univ i, h⟩⟩

/-- A table with fewer devices has the same number only if it is the same table. -/
theorem tableCount_eq_iff {f g : Fin n → Bool} (h : ∀ i, f i = true → g i = true) :
    tableCount f = tableCount g ↔ f = g := by
  constructor
  · intro hcard
    have hsub : (Finset.univ.filter fun i => f i = true)
        ⊆ Finset.univ.filter fun i => g i = true := by
      intro i hi
      rw [Finset.mem_filter] at hi ⊢
      exact ⟨hi.1, h i hi.2⟩
    have heq := Finset.eq_of_subset_of_card_le hsub hcard.ge
    funext i
    rw [Bool.eq_iff_iff]
    refine ⟨h i, fun hg => ?_⟩
    have hmem : i ∈ Finset.univ.filter fun i => f i = true := by
      rw [heq]
      exact Finset.mem_filter.mpr ⟨Finset.mem_univ i, hg⟩
    exact (Finset.mem_filter.mp hmem).2
  · rintro rfl
    rfl

/-- Whether a doorbell keeps the number exact is decided by the guard. -/
theorem rionetDbellEvent_exact_iff {s : Rionet n} (h : NactExact s) (sid : Fin n) (info : Info) :
    NactExact (rionetDbellEvent s sid info).1 ↔ NactGuard s (.dbell sid info) := by
  have hwords : rionetDoorbellLeave ≠ rionetDoorbellJoin := by decide
  rw [NactExact] at h
  rw [NactExact, NactGuard, rionetDbellEvent]
  by_cases hjoin : info = rionetDoorbellJoin
  · subst hjoin
    rw [if_pos rfl]
    simp only [true_imp_iff, hwords.symm, false_imp_iff, and_true]
    by_cases hactive : s.active sid = false
    · rw [if_pos hactive, activate_eq]
      simp only [hactive, true_imp_iff]
      by_cases hmem : sid ∈ s.peers
      · -- one device more, counted once for each entry
        have hpos := List.count_pos_iff.mpr hmem
        rw [if_pos hmem, tableCount_update_true hactive, h]
        push_cast
        omega
      · rw [if_neg hmem, List.count_eq_zero_of_not_mem hmem, h]
        simp
    · rw [if_neg hactive]
      exact iff_of_true h fun hfalse => absurd hfalse hactive
  · rw [if_neg hjoin]
    simp only [hjoin, false_imp_iff, true_and]
    by_cases hleave : info = rionetDoorbellLeave
    · rw [if_pos hleave, tableCount_update_false]
      simp only [hleave, true_imp_iff]
      by_cases hactive : s.active sid = true
      · have hpos := tableCount_pos hactive
        rw [if_pos hactive, h]
        exact iff_of_true (by omega) hactive
      · rw [if_neg hactive, h]
        exact iff_of_false (by omega) hactive
    · rw [if_neg hleave]
      exact iff_of_true h fun hinfo => absurd hinfo hleave

/-- So it is for a close: devices that are active leave the table, but not the number. -/
theorem rionetClose_exact_iff {s : Rionet n} (h : NactExact s) :
    NactExact (rionetClose s).1 ↔ NactGuard s .close := by
  have hsub (j : Fin n) : (s.active j && decide (j ∉ s.peers)) = true → s.active j = true :=
    fun hj => (Bool.and_eq_true_iff.mp hj).1
  rw [NactExact] at h
  rw [NactExact, NactGuard, rionetClose_node, h, Nat.cast_inj, eq_comm, tableCount_eq_iff hsub]
  constructor
  · intro hsame peer hmem
    have hpeer := congrFun hsame peer
    rw [decide_eq_false (not_not.mpr hmem), Bool.and_false] at hpeer
    exact hpeer.symm
  · intro hguard
    funext j
    by_cases hmem : j ∈ s.peers
    · simp [hguard j hmem]
    · simp [hmem]

/-- Opening changes neither table nor number. -/
theorem rionetOpen_node (r : OpenResults n) (s : Rionet n) :
    (rionetOpen r s).2.1.peers = s.peers ∧ (rionetOpen r s).2.1.active = s.active
      ∧ (rionetOpen r s).2.1.nact = s.nact := by
  rw [rionetOpen]
  split
  · exact ⟨rfl, rfl, rfl⟩
  · dsimp only
    split
    · exact ⟨rfl, rfl, rfl⟩
    · split
      · exact ⟨rfl, rfl, rfl⟩
      · exact ⟨rfl, rfl, rfl⟩

/-- **One event** keeps the number exact if and only if it is guarded. -/
theorem nodeStep_exact_iff {s t : Rionet n} {e : NodeEvent n} (h : NactExact s)
    (hstep : nodeStep s e = some t) : NactExact t ↔ NactGuard s e := by
  cases e with
  | dbell sid info =>
    rw [nodeStep, Option.ite_none_right_eq_some] at hstep
    obtain ⟨-, ht⟩ := hstep
    obtain rfl := Option.some.inj ht
    exact rionetDbellEvent_exact_iff h sid info
  | «open» r =>
    rw [nodeStep, Option.ite_none_left_eq_some] at hstep
    obtain ⟨-, ht⟩ := hstep
    obtain rfl := Option.some.inj ht
    obtain ⟨-, hactive, hnact⟩ := rionetOpen_node r s
    refine iff_of_true ?_ trivial
    rw [NactExact, hactive, hnact]
    exact h
  | close =>
    rw [nodeStep, Option.ite_none_right_eq_some] at hstep
    obtain ⟨-, ht⟩ := hstep
    obtain rfl := Option.some.inj ht
    exact rionetClose_exact_iff h
  | addPeer peer =>
    obtain rfl := Option.some.inj hstep
    exact iff_of_true h trivial

/-- **`nact`.**  Along every run of a node that starts with an exact number, the number is that of
    the table in every state if and only if the run is guarded. -/
theorem nactExact_iff_guarded (s t : Rionet n) (run : List (NodeEvent n)) (h : NactExact s)
    (hrun : exec nodeStep s run = some t) :
    Always nodeStep NactExact s run ↔ Guarded nodeStep NactGuard s run :=
  always_iff_guarded (fun _ => id) (fun _ _ _ hs hg hstep => (nodeStep_exact_iff hs hstep).mpr hg)
    (fun _ _ _ hs hstep ht => (nodeStep_exact_iff hs hstep).mp ht) h hrun

/-- The second one of two devices. -/
def device1 : Fin 2 := Fin.last 1

/-- A node that is up, with one peer. -/
def twoNodes : Rionet 2 := ⟨[device1], fun _ => false, 0, true, true⟩

/-- The peer joins and leaves before the interface is closed, or is still active then. -/
theorem nactExact_peerLeaves :
    Always nodeStep NactExact twoNodes
        [.dbell device1 rionetDoorbellJoin, .dbell device1 rionetDoorbellLeave, .close]
      ∧ ¬Always nodeStep NactExact twoNodes [.dbell device1 rionetDoorbellJoin, .close] := by
  constructor
  · exact (nactExact_iff_guarded twoNodes _ _ rfl rfl).mpr (by decide)
  · exact fun h => absurd ((nactExact_iff_guarded twoNodes _ _ rfl rfl).mp h) (by decide)

end Vpx3.Eth
