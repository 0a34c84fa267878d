import Vpx3.Eth.Node
import Vpx3.Lib.Budget
import Vpx3.Lib.Presence

namespace Vpx3.Eth

open Exec

/-!
# Ethernet over RapidIO — the nodes of a fabric and their doorbells

Every node runs the driver.  Doorbells from one node to another arrive in the order in which they
were sent; one that finds no handler registered is dropped.

* `Fabric`, `fabricStep` — the nodes, the doorbells on their way, and what can happen;
* `Fabric.potential` — the work that doorbells on their way and missing entries can still cause;
* `deliveries_le` — a run delivers no more doorbells than its openings and closings pay for.
-/

/-- The nodes by their ids, and the doorbells on their way from one to another, the oldest first. -/
structure Fabric (n : ℕ) where
  node : Fin n → Rionet n
  wire : Fin n × Fin n → List Info

/-- What can happen: an interface is opened or closed, or a doorbell from `i` reaches `j`. -/
inductive FabricEvent (n : ℕ) where
  | open (i : Fin n) (r : OpenResults n)
  | close (i : Fin n)
  | deliver (i j : Fin n)

variable {n : ℕ}

/-- A node in its new state, with its doorbells on their way. -/
def Fabric.put (s : Fabric n) (i : Fin n) (node : Rionet n) (sends : Sends n) : Fabric n where
  node := Function.update s.node i node
  wire := fun c => if c.1 = i then s.wire c ++ Sends.to sends c.2 else s.wire c

/-- The doorbell that has arrived is off the wire. -/
def Fabric.take (s : Fabric n) (c : Fin n × Fin n) (rest : List Info) : Fabric n :=
  { s with wire := Function.update s.wire c rest }

@[simp] theorem Fabric.put_node_self (s : Fabric n) (i : Fin n) (node : Rionet n)
    (sends : Sends n) : (s.put i node sends).node i = node := Function.update_self ..

theorem Fabric.put_node_of_ne (s : Fabric n) {i j : Fin n} (h : j ≠ i) (node : Rionet n)
    (sends : Sends n) : (s.put i node sends).node j = s.node j := Function.update_of_ne h ..

@[simp] theorem Fabric.take_node (s : Fabric n) (c : Fin n × Fin n) (rest : List Info) :
    (s.take c rest).node = s.node := rfl

@[simp] theorem Fabric.take_wire_self (s : Fabric n) (c : Fin n × Fin n) (rest : List Info) :
    (s.take c rest).wire c = rest := Function.update_self ..

theorem Fabric.take_wire_of_ne (s : Fabric n) {c d : Fin n × Fin n} (h : d ≠ c)
    (rest : List Info) : (s.take c rest).wire d = s.wire d := Function.update_of_ne h ..

/-- The machine. -/
def fabricStep (s : Fabric n) : FabricEvent n → Option (Fabric n)
  | .open i r =>
    if (s.node i).up then none
    else some (s.put i (rionetOpen r (s.node i)).2.1 (rionetOpen r (s.node i)).2.2)
  | .close i =>
    if (s.node i).up then
      some (s.put i (rionetClose (s.node i)).1 (rionetClose (s.node i)).2)
    else none
  | .deliver i j =>
    match s.wire (i, j) with
    | [] => none
    | info :: rest =>
      if (s.node j).dbell then
        some ((s.take (i, j) rest).put j (rionetDbellEvent (s.node j) i info).1
          (rionetDbellEvent (s.node j) i info).2)
      else some (s.take (i, j) rest)

/-! ### The peer lists stay -/

/-- No event changes a peer list. -/
theorem rionetDbellEvent_peers (s : Rionet n) (sid : Fin n) (info : Info) :
    (rionetDbellEvent s sid info).1.peers = s.peers := by
  rw [rionetDbellEvent]
  split
  · split
    · rw [activate_eq]
    · rfl
  · split
    · rfl
    · rfl

theorem rionetClose_peers (s : Rionet n) : (rionetClose s).1.peers = s.peers := by
  rw [rionetClose_node]

/-- The peer lists of a fabric. -/
def PeersAre (peers : Fin n → List (Fin n)) (s : Fabric n) : Prop := ∀ i, (s.node i).peers = peers i

variable {peers : Fin n → List (Fin n)} {s t : Fabric n}

theorem PeersAre.put (h : PeersAre peers s) {i : Fin n} {node : Rionet n}
    (hnode : node.peers = peers i) (sends : Sends n) : PeersAre peers (s.put i node sends) := by
  intro j
  by_cases hj : j = i
  · subst hj
    rw [Fabric.put_node_self]
    exact hnode
  · rw [Fabric.put_node_of_ne s hj]
    exact h j

theorem PeersAre.step (h : PeersAre peers s) {e : FabricEvent n} (hstep : fabricStep s e = some t) :
    PeersAre peers t := by
  cases e with
  | «open» i r =>
    rw [fabricStep, Option.ite_none_left_eq_some] at hstep
    obtain rfl := Option.some.inj hstep.2
    exact h.put ((rionetOpen_node r (s.node i)).1.trans (h i)) _
  | close i =>
    rw [fabricStep, Option.ite_none_right_eq_some] at hstep
    obtain rfl := Option.some.inj hstep.2
    exact h.put ((rionetClose_peers (s.node i)).trans (h i)) _
  | deliver i j =>
    rw [fabricStep] at hstep
    split at hstep
    · cases hstep
    · rename_i info rest _
      have htake : PeersAre peers (s.take (i, j) rest) := h
      split at hstep
      · obtain rfl := Option.some.inj hstep
        exact htake.put ((rionetDbellEvent_peers (s.node j) i info).trans (h j)) _
      · obtain rfl := Option.some.inj hstep
        exact htake

/-! ### Doorbells between strangers -/

/-- A join is on its way only between devices one of which has the other one in its list. -/
def Acquainted (peers : Fin n → List (Fin n)) (s : Fabric n) : Prop :=
  ∀ i j, rionetDoorbellJoin ∈ s.wire (i, j) → j ∈ peers i ∨ i ∈ peers j

theorem Acquainted.put (h : Acquainted peers s) {i : Fin n} {node : Rionet n} {sends : Sends n}
    (hsends : ∀ j, rionetDoorbellJoin ∈ Sends.to sends j → j ∈ peers i ∨ i ∈ peers j) :
    Acquainted peers (s.put i node sends) := by
  intro a b hmem
  simp only [Fabric.put] at hmem
  split at hmem
  · rename_i ha
    subst ha
    rcases List.mem_append.mp hmem with hold | hnew
    · exact h _ b hold
    · exact hsends b hnew
  · exact h a b hmem

theorem Acquainted.take (h : Acquainted peers s) {c : Fin n × Fin n} {info : Info}
    {rest : List Info} (hwire : s.wire c = info :: rest) : Acquainted peers (s.take c rest) := by
  intro a b hmem
  refine h a b ?_
  by_cases hab : (a, b) = c
  · subst hab
    rw [Fabric.take_wire_self] at hmem
    rw [hwire]
    exact List.mem_cons_of_mem _ hmem
  · rwa [s.take_wire_of_ne hab] at hmem

/-- The doorbells of an open go to peers. -/
theorem mem_rionetOpen_to {r : OpenResults n} {s : Rionet n} {j : Fin n} {info : Info}
    (h : info ∈ Sends.to (rionetOpen r s).2.2 j) : j ∈ s.peers ∧ info = rionetDoorbellJoin := by
  have hjoins (l : List (Fin n)) (hl : ∀ p ∈ l, p ∈ s.peers)
      (h : info ∈ Sends.to (l.map fun peer => (peer, rionetDoorbellJoin)) j) :
      j ∈ s.peers ∧ info = rionetDoorbellJoin := by
    simp only [Sends.to, List.mem_map, List.mem_filter] at h
    obtain ⟨_, ⟨⟨p, hp, rfl⟩, hpj⟩, rfl⟩ := h
    exact ⟨of_decide_eq_true hpj ▸ hl p hp, rfl⟩
  rw [rionetOpen] at h
  split at h
  · simp at h
  · dsimp only at h
    split at h
    · simp at h
    · split at h
      · simp at h
      · exact hjoins _ (fun p hp => List.mem_of_mem_filter hp) h

/-- The doorbells of a handler go to the sender. -/
theorem mem_rionetDbellEvent_to {s : Rionet n} {sid j : Fin n} {info info' : Info}
    (h : info' ∈ Sends.to (rionetDbellEvent s sid info).2 j) :
    j = sid ∧ info = rionetDoorbellJoin ∧ info' = rionetDoorbellJoin := by
  rw [rionetDbellEvent] at h
  split at h
  · rename_i hjoin
    split at h
    · rw [Sends.to_singleton] at h
      split at h
      · rename_i hj
        exact ⟨hj.symm, hjoin, List.mem_singleton.mp h⟩
      · simp at h
    · simp at h
  · split at h
    · simp at h
    · simp at h

theorem Acquainted.step (hpeers : PeersAre peers s) (h : Acquainted peers s) {e : FabricEvent n}
    (hstep : fabricStep s e = some t) : Acquainted peers t := by
  cases e with
  | «open» i r =>
    rw [fabricStep, Option.ite_none_left_eq_some] at hstep
    obtain rfl := Option.some.inj hstep.2
    exact h.put fun j hmem => Or.inl (hpeers i ▸ (mem_rionetOpen_to hmem).1)
  | close i =>
    rw [fabricStep, Option.ite_none_right_eq_some] at hstep
    obtain rfl := Option.some.inj hstep.2
    refine h.put fun j hmem => ?_
    rw [rionetClose_to] at hmem
    split at hmem
    · exact absurd (List.mem_singleton.mp hmem) (by decide)
    · simp at hmem
  | deliver i j =>
    rw [fabricStep] at hstep
    split at hstep
    · cases hstep
    · rename_i info rest hwire
      split at hstep
      · obtain rfl := Option.some.inj hstep
        refine (h.take hwire).put fun k hmem => ?_
        obtain ⟨rfl, rfl, -⟩ := mem_rionetDbellEvent_to hmem
        exact (h k j (by rw [hwire]; exact List.mem_cons_self)).symm
      · obtain rfl := Option.some.inj hstep
        exact h.take hwire

/-! ### The potential -/

/-- What a doorbell from `i` to `j` can still cause: a join that the receiver does not list is
    answered by one that the sender lists. -/
def weight (peers : Fin n → List (Fin n)) (i j : Fin n) (info : Info) : ℕ :=
  if info = rionetDoorbellJoin then if i ∈ peers j then 1 else 2
  else if info = rionetDoorbellLeave then 3
  else 1

/-- What the entries that a node misses can still cause. -/
def missing (peers : Fin n → List (Fin n)) (i : Fin n) (node : Rionet n) : ℕ :=
  2 * (Finset.univ.filter fun j => j ∈ peers i ∧ node.active j = false).card

/-- What the doorbells on one wire can still cause. -/
def wireWeight (peers : Fin n → List (Fin n)) (c : Fin n × Fin n) (l : List Info) : ℕ :=
  (l.map (weight peers c.1 c.2)).sum

/-- The potential of a fabric. -/
def Fabric.potential (peers : Fin n → List (Fin n)) (s : Fabric n) : ℕ :=
  ∑ i, missing peers i (s.node i) + ∑ c, wireWeight peers c (s.wire c)

theorem wireWeight_append (c : Fin n × Fin n) (l l' : List Info) :
    wireWeight peers c (l ++ l') = wireWeight peers c l + wireWeight peers c l' := by
  rw [wireWeight, List.map_append, List.sum_append]
  rfl

/-- What the doorbells that a node sends can cause. -/
def sendsWeight (peers : Fin n → List (Fin n)) (i : Fin n) (sends : Sends n) : ℕ :=
  (sends.map fun send => weight peers i send.1 send.2).sum

/-- It is what they cause on the wires they go to. -/
theorem sum_wireWeight_to (i : Fin n) (sends : Sends n) :
    ∑ j, wireWeight peers (i, j) (Sends.to sends j) = sendsWeight peers i sends := by
  induction sends with
  | nil => simp [wireWeight, sendsWeight]
  | cons send sends ih =>
    have hsplit (j : Fin n) : wireWeight peers (i, j) (Sends.to (send :: sends) j)
        = (if send.1 = j then weight peers i j send.2 else 0)
          + wireWeight peers (i, j) (Sends.to sends j) := by
      have hto : Sends.to (send :: sends) j = Sends.to [send] j ++ Sends.to sends j :=
        Sends.to_append [send] sends j
      rw [hto, wireWeight_append, Sends.to_singleton]
      split
      · simp [wireWeight]
      · simp [wireWeight]
    simp only [hsplit]
    rw [Finset.sum_add_distrib, ih, Finset.sum_ite_eq]
    simp [sendsWeight]

/-- A node in its new state, with its doorbells on their way. -/
theorem potential_put (peers : Fin n → List (Fin n)) (s : Fabric n) (i : Fin n) (node : Rionet n)
    (sends : Sends n) :
    (s.put i node sends).potential peers + missing peers i (s.node i)
      = s.potential peers + missing peers i node + sendsWeight peers i sends := by
  have hnodes : ∑ j, missing peers j ((s.put i node sends).node j) + missing peers i (s.node i)
      = ∑ j, missing peers j (s.node j) + missing peers i node := by
    have hupdate : (fun j => missing peers j ((s.put i node sends).node j))
        = Function.update (fun j => missing peers j (s.node j)) i (missing peers i node) := by
      funext j
      by_cases hj : j = i
      · subst hj
        rw [Fabric.put_node_self, Function.update_self]
      · rw [Fabric.put_node_of_ne s hj, Function.update_of_ne hj]
    rw [hupdate]
    exact Budget.sum_update _ i _
  have hwires : ∑ c, wireWeight peers c ((s.put i node sends).wire c)
      = ∑ c, wireWeight peers c (s.wire c) + sendsWeight peers i sends := by
    have hsplit (c : Fin n × Fin n) : wireWeight peers c ((s.put i node sends).wire c)
        = wireWeight peers c (s.wire c)
          + if c.1 = i then wireWeight peers (i, c.2) (Sends.to sends c.2) else 0 := by
      obtain ⟨a, b⟩ := c
      by_cases ha : a = i
      · subst ha
        simp [Fabric.put, wireWeight_append]
      · simp [Fabric.put, ha]
    have hrow : ∑ c : Fin n × Fin n,
        (if c.1 = i then wireWeight peers (i, c.2) (Sends.to sends c.2) else 0)
          = sendsWeight peers i sends := by
      rw [Fintype.sum_prod_type, Finset.sum_eq_single i]
      · simp only [if_true, sum_wireWeight_to]
      · intro a _ ha
        simp only [if_neg ha, Finset.sum_const_zero]
      · exact fun hi => absurd (Finset.mem_univ i) hi
    rw [Finset.sum_congr rfl fun c _ => hsplit c, Finset.sum_add_distrib, hrow]
  rw [Fabric.potential, Fabric.potential, hwires]
  omega

/-- A doorbell that arrives is off the wire. -/
theorem potential_take (peers : Fin n → List (Fin n)) {c : Fin n × Fin n} {info : Info}
    {rest : List Info} (hwire : s.wire c = info :: rest) :
    (s.take c rest).potential peers + weight peers c.1 c.2 info = s.potential peers := by
  have hupdate : (fun d => wireWeight peers d ((s.take c rest).wire d))
      = Function.update (fun d => wireWeight peers d (s.wire d)) c (wireWeight peers c rest) := by
    funext d
    by_cases hd : d = c
    · subst hd
      rw [Fabric.take_wire_self, Function.update_self]
    · rw [s.take_wire_of_ne hd, Function.update_of_ne hd]
  have hsum := Budget.sum_update (fun d => wireWeight peers d (s.wire d)) c
    (wireWeight peers c rest)
  have hcons : wireWeight peers c (s.wire c)
      = weight peers c.1 c.2 info + wireWeight peers c rest := by
    rw [hwire, wireWeight, List.map_cons, List.sum_cons]
    rfl
  rw [← hupdate] at hsum
  dsimp only at hsum
  rw [Fabric.potential, Fabric.potential, Fabric.take_node]
  omega

/-! ### What events do to it -/

/-- The weights. -/
theorem weight_pos (peers : Fin n → List (Fin n)) (i j : Fin n) (info : Info) :
    1 ≤ weight peers i j info := by
  rw [weight]
  split
  · split
    · exact Nat.le_refl 1
    · exact Nat.le_succ 1
  · split
    · exact Nat.le_add_left 1 2
    · exact Nat.le_refl 1

theorem weight_join_le (peers : Fin n → List (Fin n)) (i j : Fin n) :
    weight peers i j rionetDoorbellJoin ≤ 2 := by
  rw [weight, if_pos rfl]
  split
  · exact Nat.le_succ 1
  · exact Nat.le_refl 2

theorem weight_leave (peers : Fin n → List (Fin n)) (i j : Fin n) :
    weight peers i j rionetDoorbellLeave = 3 := rfl

/-- A missing entry is missing no more when it is made. -/
theorem missing_true (peers : Fin n → List (Fin n)) {i j : Fin n} {node node' : Rionet n}
    (hactive : node'.active = Function.update node.active j true) :
    missing peers i node' + (if j ∈ peers i ∧ node.active j = false then 2 else 0)
      = missing peers i node := by
  have herase : (Finset.univ.filter fun k => k ∈ peers i ∧ node'.active k = false)
      = (Finset.univ.filter fun k => k ∈ peers i ∧ node.active k = false).erase j := by
    ext k
    by_cases hk : k = j
    · simp [hactive, hk]
    · simp [hactive, hk]
  rw [missing, missing, herase, Finset.card_erase_eq_ite]
  by_cases hj : j ∈ peers i ∧ node.active j = false
  · have hmem : j ∈ Finset.univ.filter fun k => k ∈ peers i ∧ node.active k = false :=
      Finset.mem_filter.mpr ⟨Finset.mem_univ j, hj⟩
    have hpos := Finset.card_pos.mpr ⟨j, hmem⟩
    rw [if_pos hmem, if_pos hj]
    omega
  · have hmem : j ∉ Finset.univ.filter fun k => k ∈ peers i ∧ node.active k = false :=
      fun h => hj (Finset.mem_filter.mp h).2
    rw [if_neg hmem, if_neg hj, Nat.add_zero]

/-- One entry that is lost is one that is missing. -/
theorem missing_false_le (peers : Fin n → List (Fin n)) {i j : Fin n} {node node' : Rionet n}
    (hactive : node'.active = Function.update node.active j false) :
    missing peers i node' ≤ missing peers i node + 2 := by
  have hsub : (Finset.univ.filter fun k => k ∈ peers i ∧ node'.active k = false)
      ⊆ insert j (Finset.univ.filter fun k => k ∈ peers i ∧ node.active k = false) := by
    intro k hk
    rw [Finset.mem_filter, hactive] at hk
    rw [Finset.mem_insert, Finset.mem_filter]
    by_cases hkj : k = j
    · exact Or.inl hkj
    · rw [Function.update_of_ne hkj] at hk
      exact Or.inr hk
  have hcard := (Finset.card_le_card hsub).trans (Finset.card_insert_le _ _)
  rw [missing, missing]
  omega

/-- No more entries are missing than there are peers. -/
theorem missing_le (peers : Fin n → List (Fin n)) (i : Fin n) (node : Rionet n) :
    missing peers i node ≤ 2 * (peers i).length := by
  have hsub : (Finset.univ.filter fun k => k ∈ peers i ∧ node.active k = false)
      ⊆ (peers i).toFinset := by
    intro k hk
    exact List.mem_toFinset.mpr (Finset.mem_filter.mp hk).2.1
  exact Nat.mul_le_mul_left 2 ((Finset.card_le_card hsub).trans (List.toFinset_card_le _))

/-- **The handler of `j` pays** for its answer, and for the entry that it loses, with the doorbell
    that it was called for. -/
theorem rionetDbellEvent_weight {s : Fabric n} (hpeers : PeersAre peers s) {i j : Fin n}
    {info : Info} (hknown : info = rionetDoorbellJoin → j ∈ peers i ∨ i ∈ peers j) :
    missing peers j (rionetDbellEvent (s.node j) i info).1
        + sendsWeight peers j (rionetDbellEvent (s.node j) i info).2 + 1
      ≤ missing peers j (s.node j) + weight peers i j info := by
  have hpos := weight_pos peers i j info
  rw [rionetDbellEvent]
  split
  · rename_i hjoin
    split
    · rename_i hinactive
      have hanswer : sendsWeight peers j [(i, rionetDoorbellJoin)]
          = weight peers j i rionetDoorbellJoin := by
        simp [sendsWeight]
      dsimp only
      rw [hanswer, hjoin]
      by_cases hmem : i ∈ peers j
      · -- the sender becomes active, and its entry pays for the answer
        have hactive : ((s.node j).activate i).active
            = Function.update (s.node j).active i true := by
          rw [activate_eq, hpeers j, if_pos hmem]
        have hmiss := missing_true peers (i := j) hactive
        rw [if_pos ⟨hmem, hinactive⟩] at hmiss
        have hle := weight_join_le peers j i
        have hpos := weight_pos peers i j rionetDoorbellJoin
        omega
      · -- a stranger, which lists the receiver
        have hmiss : missing peers j ((s.node j).activate i) = missing peers j (s.node j) := by
          rw [activate_eq, hpeers j, if_neg hmem]
          rfl
        have hin : weight peers i j rionetDoorbellJoin = 2 := by
          rw [weight, if_pos rfl, if_neg hmem]
        have hout : weight peers j i rionetDoorbellJoin = 1 := by
          rw [weight, if_pos rfl, if_pos ((hknown hjoin).resolve_right hmem)]
        omega
    · simpa [sendsWeight] using hpos
  · split
    · rename_i hleave
      have hle : missing peers j { s.node j with
          active := Function.update (s.node j).active i false, nact := (s.node j).nact - 1 }
            ≤ missing peers j (s.node j) + 2 := missing_false_le peers rfl
      rw [hleave, weight_leave]
      simpa [sendsWeight] using hle
    · simpa [sendsWeight] using hpos

/-- The joins of an open. -/
theorem rionetOpen_weight_le (peers : Fin n → List (Fin n)) (i : Fin n) (r : OpenResults n)
    (s : Rionet n) :
    sendsWeight peers i (rionetOpen r s).2.2 ≤ 2 * s.peers.length := by
  have hjoins (l : List (Fin n)) :
      sendsWeight peers i (l.map fun peer => (peer, rionetDoorbellJoin)) ≤ 2 * l.length := by
    induction l with
    | nil => simp [sendsWeight]
    | cons peer l ih =>
      have hle := weight_join_le peers i peer
      rw [sendsWeight, List.map_cons, List.map_cons, List.sum_cons, List.length_cons]
      rw [sendsWeight] at ih
      dsimp only
      omega
  rw [rionetOpen]
  split
  · exact Nat.zero_le _
  · dsimp only
    split
    · exact Nat.zero_le _
    · split
      · exact Nat.zero_le _
      · exact (hjoins _).trans (Nat.mul_le_mul_left 2 (List.length_filter_le ..))

/-- The leaves of a close. -/
theorem rionetClose_weight_le (peers : Fin n → List (Fin n)) (i : Fin n) (s : Rionet n) :
    sendsWeight peers i (rionetClose s).2 ≤ 3 * s.peers.length := by
  have hloop (l : List (Fin n)) (st : Rionet n × Sends n) :
      sendsWeight peers i (l.foldl leavePeer st).2
        ≤ sendsWeight peers i st.2 + 3 * l.length := by
    induction l generalizing st with
    | nil => simp
    | cons peer l ih =>
      have hround : sendsWeight peers i (leavePeer st peer).2 ≤ sendsWeight peers i st.2 + 3 := by
        rw [leavePeer]
        split
        · rw [sendsWeight, List.map_append, List.sum_append]
          exact Nat.le_refl _
        · exact Nat.le_add_right _ 3
      rw [List.foldl_cons, List.length_cons]
      exact (ih _).trans (by omega)
  exact (hloop s.peers (s, [])).trans (by simp [sendsWeight])

/-! ### Runs -/

/-- What an event delivers. -/
def delivered : FabricEvent n → ℕ
  | .deliver _ _ => 1
  | _ => 0

/-- What an event can give rise to. -/
def gain (peers : Fin n → List (Fin n)) : FabricEvent n → ℕ
  | .open i _ => 2 * (peers i).length
  | .close i => 5 * (peers i).length
  | .deliver _ _ => 0

/-- **One event** pays for what it delivers. -/
theorem fabricStep_potential (hpeers : PeersAre peers s) (hknown : Acquainted peers s)
    {e : FabricEvent n} (hstep : fabricStep s e = some t) :
    delivered e + t.potential peers ≤ s.potential peers + gain peers e := by
  cases e with
  | «open» i r =>
    rw [fabricStep, Option.ite_none_left_eq_some] at hstep
    obtain rfl := Option.some.inj hstep.2
    have hput := potential_put peers s i (rionetOpen r (s.node i)).2.1
      (rionetOpen r (s.node i)).2.2
    have hsends := rionetOpen_weight_le peers i r (s.node i)
    have hmiss : missing peers i (rionetOpen r (s.node i)).2.1 = missing peers i (s.node i) := by
      rw [missing, (rionetOpen_node r (s.node i)).2.1]
      rfl
    rw [hpeers i] at hsends
    simp only [delivered, gain]
    omega
  | close i =>
    rw [fabricStep, Option.ite_none_right_eq_some] at hstep
    obtain rfl := Option.some.inj hstep.2
    have hput := potential_put peers s i (rionetClose (s.node i)).1
      (rionetClose (s.node i)).2
    have hsends := rionetClose_weight_le peers i (s.node i)
    have hmiss := missing_le peers i (rionetClose (s.node i)).1
    rw [hpeers i] at hsends
    simp only [delivered, gain]
    omega
  | deliver i j =>
    rw [fabricStep] at hstep
    split at hstep
    · cases hstep
    · rename_i info rest hwire
      have htake := potential_take peers hwire
      have hpos := weight_pos peers i j info
      rw [delivered, gain]
      split at hstep
      · obtain rfl := Option.some.inj hstep
        have hput := potential_put peers (s.take (i, j) rest) j
          (rionetDbellEvent (s.node j) i info).1 (rionetDbellEvent (s.node j) i info).2
        have hjoin : info = rionetDoorbellJoin → j ∈ peers i ∨ i ∈ peers j := by
          rintro rfl
          exact hknown i j (by rw [hwire]; exact List.mem_cons_self)
        have hpay := rionetDbellEvent_weight hpeers hjoin
        rw [Fabric.take_node] at hput
        dsimp only at htake
        omega
      · obtain rfl := Option.some.inj hstep
        dsimp only at htake
        omega

/-- **No storm.**  From a fabric without doorbells on their way, a run delivers no more of them
    than two for each entry missing at its start, two for each peer of an interface that is opened
    and five for each peer of one that is closed. -/
theorem deliveries_le (s t : Fabric n) (es : List (FabricEvent n)) (hquiet : ∀ c, s.wire c = [])
    (hrun : exec fabricStep s es = some t) :
    (es.map delivered).sum
      ≤ ∑ i, missing (fun i => (s.node i).peers) i (s.node i)
        + (es.map (gain fun i => (s.node i).peers)).sum := by
  have hstart : PeersAre (fun i => (s.node i).peers) s
      ∧ Acquainted (fun i => (s.node i).peers) s := by
    refine ⟨fun _ => rfl, fun i j hmem => ?_⟩
    rw [hquiet] at hmem
    cases hmem
  have hpotential : s.potential (fun i => (s.node i).peers)
      = ∑ i, missing (fun i => (s.node i).peers) i (s.node i) := by
    rw [Fabric.potential]
    simp [hquiet, wireWeight]
  have hbudget : (es.map delivered).sum + t.potential (fun i => (s.node i).peers)
      ≤ s.potential (fun i => (s.node i).peers)
        + (es.map (gain fun i => (s.node i).peers)).sum :=
    Budget.exec_budget (fun s' => PeersAre (fun i => (s.node i).peers) s'
        ∧ Acquainted (fun i => (s.node i).peers) s')
      (fun s' e t' hinv (hstep : fabricStep s' e = some t') =>
        ⟨hinv.1.step hstep, hinv.2.step hinv.1 hstep⟩)
      (fun s' e t' hinv (hstep : fabricStep s' e = some t') =>
        fabricStep_potential hinv.1 hinv.2 hstep) es s t hstart hrun
  omega

/-- Two nodes that are down and list each other. -/
def twoDown : Fabric 2 where
  node := fun i => ⟨[i.rev], fun _ => false, 0, false, false⟩
  wire := fun _ => []

/-- The first one of two devices. -/
def device0 : Fin 2 := device1.rev

/-- Both are opened and hear each other's joins and answers. -/
def meet : List (FabricEvent 2) :=
  [.open device0 ⟨0, 0, 0, fun _ => true⟩, .open device1 ⟨0, 0, 0, fun _ => true⟩,
    .deliver device0 device1, .deliver device1 device0, .deliver device0 device1,
    .deliver device1 device0]

/-- One of them is closed. -/
def meetAndPart : List (FabricEvent 2) := meet ++ [.close device0, .deliver device0 device1]

theorem deliveries_meetAndPart :
    (meetAndPart.map delivered).sum
      ≤ ∑ i, missing (fun i => (twoDown.node i).peers) i (twoDown.node i)
        + (meetAndPart.map (gain fun i => (twoDown.node i).peers)).sum :=
  deliveries_le twoDown ((exec fabricStep twoDown meetAndPart).get (by decide)) meetAndPart
    (fun _ => rfl) (Option.some_get _).symm

end Vpx3.Eth
