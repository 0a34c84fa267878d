import Vpx3.Eth.Fabric

namespace Vpx3.Eth

open Exec Presence

/-!
# Ethernet over RapidIO — do two nodes agree?

Seen from two devices that have each other in their lists, the fabric is a link of the library:
every event is something that one of the two ends does, or nothing.

* `link` — the fabric seen from two devices;
* `link_open`, `link_close`, `link_deliver` — what the events are on a link;
* `FabricGuard`, `Fabric.Inv`, `Fabric.Inv.step` — the invariant of all links, kept when opens
  succeed or fail at once and closes are not hasty;
* `active_iff_up` — then two devices between which no doorbell is on its way agree: each is active
  for the other if and only if both are up;
* `active_iff_hasty` — a device that has closed stays active for a peer, whatever is delivered
  afterwards, if and only if it closed before it knew of the peer and the peer did, or would, know
  of it.
-/

variable {n : ℕ} {peers : Fin n → List (Fin n)} {s t : Fabric n}

/-- The two doorbells. -/
def words : Words Info := ⟨rionetDoorbellJoin, rionetDoorbellLeave, by decide⟩

/-- Two devices, and the doorbells between them. -/
def link (s : Fabric n) (i j : Fin n) : Link Info :=
  ⟨⟨(s.node i).dbell, (s.node i).active j, s.wire (j, i)⟩,
    ⟨(s.node j).dbell, (s.node j).active i, s.wire (i, j)⟩⟩

@[simp] theorem link_swap (s : Fabric n) (i j : Fin n) : (link s i j).swap = link s j i := rfl

/-- Two devices that have each other in their lists. -/
def Mutual (peers : Fin n → List (Fin n)) (i j : Fin n) : Prop := j ∈ peers i ∧ i ∈ peers j

theorem Mutual.symm {i j : Fin n} (h : Mutual peers i j) : Mutual peers j i := ⟨h.2, h.1⟩

/-! ### Events on a link -/

/-- A node in its new state, seen from two others. -/
theorem link_put_of_ne (s : Fabric n) {i a b : Fin n} (ha : a ≠ i) (hb : b ≠ i) (node : Rionet n)
    (sends : Sends n) : link (s.put i node sends) a b = link s a b := by
  rw [link, s.put_node_of_ne ha, s.put_node_of_ne hb]
  simp only [Fabric.put, if_neg ha, if_neg hb]
  rfl

/-- A node in its new state, seen from itself. -/
theorem link_put_self (s : Fabric n) {i b : Fin n} (hb : b ≠ i) (node : Rionet n)
    (sends : Sends n) :
    link (s.put i node sends) i b
      = ⟨⟨node.dbell, node.active b, s.wire (b, i)⟩,
          (link s i b).right.told (Sends.to sends b)⟩ := by
  rw [link, Fabric.put_node_self, s.put_node_of_ne hb]
  simp only [Fabric.put, if_neg hb, if_true]
  rfl

/-- A wire from which a doorbell is taken is that of one direction. -/
theorem link_take_of_ne (s : Fabric n) {c : Fin n × Fin n} {a b : Fin n} (hab : (a, b) ≠ c)
    (hba : (b, a) ≠ c) (rest : List Info) : link (s.take c rest) a b = link s a b := by
  rw [link, s.take_wire_of_ne hab, s.take_wire_of_ne hba]
  rfl

/-- The link of the receiver with the sender, when the doorbell is off the wire. -/
theorem link_take_self (s : Fabric n) {i j : Fin n} (hij : i ≠ j) (rest : List Info) :
    link (s.take (i, j) rest) j i
      = ⟨{ (link s j i).left with inbox := rest }, (link s j i).right⟩ := by
  have hne : ((j, i) : Fin n × Fin n) ≠ (i, j) := by
    simp [hij]
  rw [link, Fabric.take_wire_self, s.take_wire_of_ne hne]
  rfl

/-- A node that is not changed and sends nothing. -/
theorem link_put_same (s : Fabric n) {i b : Fin n} (hb : b ≠ i) {node : Rionet n} {sends : Sends n}
    (hdbell : node.dbell = (s.node i).dbell) (hactive : node.active b = (s.node i).active b)
    (hsends : Sends.to sends b = []) : link (s.put i node sends) i b = link s i b := by
  rw [link_put_self s hb, hdbell, hactive, hsends, End.told_nil]
  rfl

/-- What a handler makes of the table and sends, for other devices than the sender. -/
theorem rionetDbellEvent_of_ne (s : Rionet n) {sid b : Fin n} (hb : b ≠ sid) (info : Info) :
    (rionetDbellEvent s sid info).1.active b = s.active b
      ∧ Sends.to (rionetDbellEvent s sid info).2 b = [] := by
  rw [rionetDbellEvent]
  split
  · split
    · rw [activate_eq, Sends.to_singleton, if_neg hb.symm]
      dsimp only
      split
      · exact ⟨Function.update_of_ne hb .., rfl⟩
      · exact ⟨rfl, rfl⟩
    · exact ⟨rfl, rfl⟩
  · split
    · exact ⟨Function.update_of_ne hb .., rfl⟩
    · exact ⟨rfl, rfl⟩

theorem rionetDbellEvent_dbell (s : Rionet n) (sid : Fin n) (info : Info) :
    (rionetDbellEvent s sid info).1.dbell = s.dbell
      ∧ (rionetDbellEvent s sid info).1.up = s.up := by
  rw [rionetDbellEvent]
  split
  · split
    · rw [activate_eq]
      exact ⟨rfl, rfl⟩
    · exact ⟨rfl, rfl⟩
  · split
    · exact ⟨rfl, rfl⟩
    · exact ⟨rfl, rfl⟩

/-- **The handler** does with the sender what an end does with a word. -/
theorem rionetDbellEvent_hear {s : Rionet n} {sid : Fin n} (hmem : sid ∈ s.peers) (info : Info)
    (rest : List Info) :
    (⟨(rionetDbellEvent s sid info).1.dbell, (rionetDbellEvent s sid info).1.active sid, rest⟩,
        Sends.to (rionetDbellEvent s sid info).2 sid)
      = (End.mk s.dbell (s.active sid) rest).hear words info := by
  rw [(rionetDbellEvent_dbell s sid info).1, rionetDbellEvent, End.hear]
  by_cases hjoin : info = rionetDoorbellJoin
  · subst hjoin
    show _ = if rionetDoorbellJoin = rionetDoorbellJoin then _ else _
    rw [if_pos rfl, if_pos rfl]
    dsimp only
    split
    · rw [activate_eq, Sends.to_singleton, if_pos rfl]
      dsimp only
      rw [if_pos hmem, Function.update_self]
      rfl
    · rfl
  · rw [if_neg hjoin, if_neg (show ¬info = words.join from hjoin)]
    by_cases hleave : info = rionetDoorbellLeave
    · rw [if_pos hleave, if_pos (show info = words.leave from hleave)]
      dsimp only
      rw [Function.update_self]
      rfl
    · rw [if_neg hleave, if_neg (show ¬info = words.leave from hleave)]
      rfl

/-- **A delivery**: the receiver hears the word of the sender; other links do not change. -/
theorem link_deliver (hpeers : PeersAre peers s) {i j a b : Fin n} (hab : a ≠ b)
    (hmutual : Mutual peers a b) (hstep : fabricStep s (.deliver i j) = some t) :
    (link s a b).Moves words OnlyHear (link t a b) := by
  rw [fabricStep] at hstep
  split at hstep
  · cases hstep
  rename_i info rest hwire
  -- the receiver's link with the sender
  have hself (hij : i ≠ j) (hmem : i ∈ peers j) :
      (link s j i).step words .hear = some (link t j i) := by
    have hinbox : (link s j i).left.inbox = info :: rest := hwire
    rw [Link.step, hinbox]
    dsimp only
    show (if (s.node j).dbell = true then _ else _) = _
    by_cases hdbell : (s.node j).dbell = true
    · rw [if_pos hdbell] at hstep ⊢
      obtain rfl := Option.some.inj hstep
      have hhear := rionetDbellEvent_hear (hpeers j ▸ hmem) info rest
      obtain ⟨hleft, hright⟩ := Prod.mk.inj hhear
      have hrest : (s.take (i, j) rest).wire (i, j) = rest := s.take_wire_self ..
      rw [link_put_self _ hij, hrest, link_take_self s hij, hleft, hright]
      rfl
    · rw [if_neg hdbell] at hstep ⊢
      obtain rfl := Option.some.inj hstep
      rw [link_take_self s hij]
  -- the receiver's links with others
  have hother (c : Fin n) (hcj : c ≠ j) (hci : c ≠ i) : link t j c = link s j c := by
    have htake : link (s.take (i, j) rest) j c = link s j c := by
      apply link_take_of_ne
      · simp [hcj]
      · simp [hci]
    split at hstep
    · obtain rfl := Option.some.inj hstep
      obtain ⟨hactive, hsends⟩ := rionetDbellEvent_of_ne (s.node j) hci info
      have hdbell := (rionetDbellEvent_dbell (s.node j) i info).1
      exact (link_put_same (s.take (i, j) rest) hcj hdbell hactive hsends).trans htake
    · obtain rfl := Option.some.inj hstep
      exact htake
  by_cases haj : a = j
  · subst haj
    by_cases hbi : b = i
    · subst hbi
      exact .left rfl (hself hab.symm hmutual.1)
    · rw [hother b hab.symm hbi]
      exact .stay
  by_cases hbj : b = j
  · subst hbj
    by_cases hai : a = i
    · subst hai
      exact .right rfl (hself hab hmutual.2)
    · rw [← link_swap t, ← link_swap s, hother a hab hai]
      exact .stay
  · have hsame : link t a b = link s a b := by
      have htake : link (s.take (i, j) rest) a b = link s a b := by
        apply link_take_of_ne
        · simp [hbj]
        · simp [haj]
      split at hstep
      · obtain rfl := Option.some.inj hstep
        rw [link_put_of_ne _ haj hbj, htake]
      · obtain rfl := Option.some.inj hstep
        exact htake
    rw [hsame]
    exact .stay

/-- **A close** is one of all links of the node. -/
theorem link_close (hpeers : PeersAre peers s) {i b : Fin n} (hb : b ≠ i)
    (hmutual : Mutual peers i b) (hdbell : (s.node i).dbell = (s.node i).up)
    (hstep : fabricStep s (.close i) = some t) :
    (link s i b).step words .down = some (link t i b) := by
  rw [fabricStep, Option.ite_none_right_eq_some] at hstep
  obtain ⟨hup, ht⟩ := hstep
  obtain rfl := Option.some.inj ht
  have hmem : b ∈ (s.node i).peers := hpeers i ▸ hmutual.1
  rw [link_put_self s hb, rionetClose_to, rionetClose_node, Link.step]
  show (if (s.node i).dbell = true then _ else _) = _
  rw [hdbell, if_pos hup]
  simp only [hmem, true_and, not_true, decide_false, Bool.and_false]
  rfl

/-- What an open that succeeds sends to a peer. -/
theorem map_join_to (l : List (Fin n)) (b : Fin n) :
    Sends.to (l.map fun peer => (peer, rionetDoorbellJoin)) b
      = List.replicate (l.count b) rionetDoorbellJoin := by
  induction l with
  | nil => rfl
  | cons peer l ih =>
    have hcons : Sends.to ((peer :: l).map fun peer => (peer, rionetDoorbellJoin)) b
        = Sends.to [(peer, rionetDoorbellJoin)] b
          ++ Sends.to (l.map fun peer => (peer, rionetDoorbellJoin)) b :=
      Sends.to_append [_] _ b
    rw [hcons, ih, Sends.to_singleton]
    by_cases hpeer : peer = b
    · subst hpeer
      rw [if_pos rfl, List.count_cons_self, List.replicate_succ]
      rfl
    · rw [if_neg hpeer, List.count_cons_of_ne hpeer, List.nil_append]

/-- Opens that succeed, or fail at the first request. -/
def OpenWhole (peers : List (Fin n)) (r : OpenResults n) : Prop :=
  r.inbDbell < 0 ∨ (0 ≤ r.inbDbell ∧ 0 ≤ r.inbMbox ∧ 0 ≤ r.outbMbox
    ∧ ∀ peer ∈ peers, r.outbDbell peer = true)

/-- What such an open makes of the node. -/
theorem rionetOpen_of_whole {r : OpenResults n} {s : Rionet n} (h : OpenWhole s.peers r) :
    (rionetOpen r s).2 = (s, [])
      ∨ (rionetOpen r s).2 = ({ s with dbell := true, up := true },
          s.peers.map fun peer => (peer, rionetDoorbellJoin)) := by
  rw [rionetOpen]
  rcases h with hfail | ⟨hinb, hmbox, houtb, hall⟩
  · exact Or.inl (by rw [if_pos hfail])
  · refine Or.inr ?_
    rw [if_neg (not_lt.mpr hinb)]
    dsimp only
    rw [if_neg (not_lt.mpr hmbox), if_neg (not_lt.mpr houtb), List.filter_eq_self.mpr hall]

/-- **An open** is one of all links of the node, or of none. -/
theorem link_open (hpeers : PeersAre peers s) {i b : Fin n} (hb : b ≠ i)
    (hmutual : Mutual peers i b) (hdbell : (s.node i).dbell = (s.node i).up) {r : OpenResults n}
    (hwhole : OpenWhole (peers i) r) (hstep : fabricStep s (.open i r) = some t) :
    (link s i b).Moves words Link.Guard (link t i b) := by
  rw [fabricStep, Option.ite_none_left_eq_some] at hstep
  obtain ⟨hup, ht⟩ := hstep
  obtain rfl := Option.some.inj ht
  rcases rionetOpen_of_whole (hpeers i ▸ hwhole) with hsame | hopen
  · rw [hsame, link_put_same s hb rfl rfl rfl]
    exact .stay
  · have hcount : 0 < (s.node i).peers.count b :=
      List.count_pos_iff.mpr (hpeers i ▸ hmutual.1)
    obtain ⟨again, hagain⟩ := Nat.exists_eq_succ_of_ne_zero hcount.ne'
    refine .left (a := .up again) trivial ?_
    rw [hopen, link_put_self s hb, map_join_to, hagain, Link.step]
    show (if (s.node i).dbell = true then _ else _) = _
    rw [hdbell, if_neg hup]
    rfl

/-! ### All links -/

instance (peers : Fin n → List (Fin n)) (i j : Fin n) : Decidable (Mutual peers i j) :=
  decidable_of_iff ((peers i).contains j = true ∧ (peers j).contains i = true) (by
    rw [List.contains_iff_mem, List.contains_iff_mem, Mutual])

instance (l : Link Info) : Decidable (Settled l) := inferInstanceAs (Decidable (_ ∨ _))

instance (peers : List (Fin n)) (r : OpenResults n) : Decidable (OpenWhole peers r) :=
  have : Decidable (∀ peer ∈ peers, r.outbDbell peer = true) := List.decidableBAll _ peers
  inferInstanceAs (Decidable (_ ∨ _))

/-- Opens that succeed or fail at once, and closes that are not hasty for any peer. -/
def FabricGuard (peers : Fin n → List (Fin n)) (s : Fabric n) : FabricEvent n → Prop
  | .open i r => OpenWhole (peers i) r
  | .close i => ∀ j, j ≠ i → Mutual peers i j → Settled (link s i j)
  | .deliver _ _ => True

instance (peers : Fin n → List (Fin n)) (s : Fabric n) : ∀ e, Decidable (FabricGuard peers s e)
  | .open i r => inferInstanceAs (Decidable (OpenWhole (peers i) r))
  | .close i => inferInstanceAs
    (Decidable (∀ j, j ≠ i → Mutual peers i j → Settled (link s i j)))
  | .deliver _ _ => isTrue trivial

/-- What holds of a fabric. -/
structure Fabric.Inv (peers : Fin n → List (Fin n)) (s : Fabric n) : Prop where
  peersAre : PeersAre peers s
  dbell : ∀ i, (s.node i).dbell = (s.node i).up
  links : ∀ i j, i ≠ j → Mutual peers i j → (link s i j).Inv words

/-- Handlers are registered where the interface is up. -/
theorem dbell_step (h : s.Inv peers) {e : FabricEvent n} (hg : FabricGuard peers s e)
    (hstep : fabricStep s e = some t) (a : Fin n) : (t.node a).dbell = (t.node a).up := by
  have hput {s : Fabric n} (hs : ∀ i, (s.node i).dbell = (s.node i).up) {i : Fin n}
      {node : Rionet n} (hnode : node.dbell = node.up) (sends : Sends n) :
      ((s.put i node sends).node a).dbell = ((s.put i node sends).node a).up := by
    by_cases ha : a = i
    · subst ha
      rw [Fabric.put_node_self, hnode]
    · rw [s.put_node_of_ne ha, hs a]
  cases e with
  | «open» i r =>
    rw [fabricStep, Option.ite_none_left_eq_some] at hstep
    obtain rfl := Option.some.inj hstep.2
    apply hput h.dbell
    have hwhole : OpenWhole (s.node i).peers r :=
      h.peersAre i ▸ (show OpenWhole (peers i) r from hg)
    rcases rionetOpen_of_whole hwhole with hsame | hopen
    · rw [hsame, h.dbell i]
    · rw [hopen]
  | close i =>
    rw [fabricStep, Option.ite_none_right_eq_some] at hstep
    obtain rfl := Option.some.inj hstep.2
    apply hput h.dbell
    rw [rionetClose_node]
  | deliver i j =>
    rw [fabricStep] at hstep
    split at hstep
    · cases hstep
    · rename_i info rest _
      split at hstep
      · obtain rfl := Option.some.inj hstep
        obtain ⟨hdbell, hup⟩ := rionetDbellEvent_dbell (s.node j) i info
        apply hput
        · exact h.dbell
        · rw [hdbell, hup, h.dbell j]
      · obtain rfl := Option.some.inj hstep
        exact h.dbell a

/-- **Every guarded event** is in order on every link. -/
theorem link_step (h : s.Inv peers) {e : FabricEvent n} (hg : FabricGuard peers s e)
    (hstep : fabricStep s e = some t) {a b : Fin n} (hab : a ≠ b) (hmutual : Mutual peers a b) :
    (link s a b).Moves words Link.Guard (link t a b) := by
  cases e with
  | «open» i r =>
    by_cases hai : a = i
    · subst hai
      exact link_open h.peersAre hab.symm hmutual (h.dbell a) hg hstep
    by_cases hbi : b = i
    · subst hbi
      exact (link_open h.peersAre hab hmutual.symm (h.dbell b) hg hstep).swap
    · rw [fabricStep, Option.ite_none_left_eq_some] at hstep
      obtain rfl := Option.some.inj hstep.2
      rw [link_put_of_ne s hai hbi]
      exact .stay
  | close i =>
    by_cases hai : a = i
    · subst hai
      have hsettled : (link s a b).Guard .down := hg b hab.symm hmutual
      exact .left hsettled (link_close h.peersAre hab.symm hmutual (h.dbell a) hstep)
    by_cases hbi : b = i
    · subst hbi
      have hsettled : (link s b a).Guard .down := hg a hab hmutual.symm
      exact .right hsettled (link_close h.peersAre hab hmutual.symm (h.dbell b) hstep)
    · rw [fabricStep, Option.ite_none_right_eq_some] at hstep
      obtain rfl := Option.some.inj hstep.2
      rw [link_put_of_ne s hai hbi]
      exact .stay
  | deliver i j => exact (link_deliver h.peersAre hab hmutual hstep).guarded

theorem Fabric.Inv.step (h : s.Inv peers) {e : FabricEvent n} (hg : FabricGuard peers s e)
    (hstep : fabricStep s e = some t) : t.Inv peers where
  peersAre := h.peersAre.step hstep
  dbell := dbell_step h hg hstep
  links := fun i j hij hmutual => (h.links i j hij hmutual).moves (link_step h hg hstep hij hmutual)

/-- A fabric in which nothing has happened yet. -/
structure Fresh (peers : Fin n → List (Fin n)) (s : Fabric n) : Prop where
  peersAre : PeersAre peers s
  down : ∀ i, (s.node i).up = false
  silent : ∀ i, (s.node i).dbell = false
  unlisted : ∀ i j, (s.node i).active j = false
  quiet : ∀ c, s.wire c = []

theorem Fresh.inv (h : Fresh peers s) : s.Inv peers := by
  have hheard (i j : Fin n) : Heard words (link s i j) := by
    refine ⟨fun hup => ?_, fun _ m hm => ?_, fun _ _ => h.unlisted i j⟩
    · exact absurd ((h.silent j).symm.trans hup) Bool.noConfusion
    · rw [link, h.quiet] at hm
      cases hm
  have hanswered (i j : Fin n) : Answered words (link s i j) :=
    fun hup => absurd ((h.silent i).symm.trans hup) Bool.noConfusion
  refine ⟨h.peersAre, fun i => (h.silent i).trans (h.down i).symm, fun i j _ _ => ?_⟩
  exact ⟨hheard i j, hheard j i, hanswered i j, hanswered j i, fun _ => h.unlisted i j,
    fun _ => h.unlisted j i⟩

/-- **Agreement.**  After a guarded run from a fresh fabric, two devices that have each other in
    their lists and between which no doorbell is on its way are active for each other if and only
    if both are up. -/
theorem active_iff_up (peers : Fin n → List (Fin n)) (s t : Fabric n) (run : List (FabricEvent n))
    (hfresh : Fresh peers s) (hguard : Guarded fabricStep (FabricGuard peers) s run)
    (hrun : exec fabricStep s run = some t) (i j : Fin n) (hij : i ≠ j)
    (hmutual : Mutual peers i j) (hquiet : t.wire (i, j) = [] ∧ t.wire (j, i) = []) :
    (t.node i).active j = ((t.node i).up && (t.node j).up) := by
  have hinv : t.Inv peers := exec_invariant (fun _ _ _ h hg hstep => h.step hg hstep)
    run s t hfresh.inv hguard hrun
  have hlists := (hinv.links i j hij hmutual).quiet_lists ⟨hquiet.2, hquiet.1⟩
  rw [← hinv.dbell i, ← hinv.dbell j]
  exact hlists

/-- The two nodes of a fabric of two list each other. -/
theorem fresh_twoDown : Fresh (fun i => [i.rev]) twoDown :=
  ⟨fun _ => rfl, fun _ => rfl, fun _ => rfl, fun _ _ => rfl, fun _ => rfl⟩

/-- They have met. -/
theorem active_meet :
    (((exec fabricStep twoDown meet).get (by decide)).node device0).active device1 = true :=
  (active_iff_up _ twoDown _ meet fresh_twoDown (by decide) (Option.some_get _).symm device0
    device1 (by decide) (by decide) (by decide)).trans (by decide)

/-! ### Hasty closes -/

/-- Only doorbells are delivered. -/
def OnlyDeliver (_ : Fabric n) : FabricEvent n → Prop
  | .deliver _ _ => True
  | _ => False

/-- What words heard keep of a link, deliveries keep of two devices. -/
theorem link_deliveries {P : Link Info → Prop}
    (hP : ∀ l l' : Link Info, P l → l.Moves words OnlyHear l' → P l') {a b : Fin n} (hab : a ≠ b)
    (hmutual : Mutual peers a b) {ds : List (FabricEvent n)} (hpeers : PeersAre peers s)
    (hds : Guarded fabricStep OnlyDeliver s ds) (hrun : exec fabricStep s ds = some t)
    (h : P (link s a b)) : P (link t a b) := by
  have hstep (s : Fabric n) (e : FabricEvent n) (t : Fabric n)
      (hs : PeersAre peers s ∧ P (link s a b)) (hg : OnlyDeliver s e)
      (hstep : fabricStep s e = some t) : PeersAre peers t ∧ P (link t a b) := by
    refine ⟨hs.1.step hstep, ?_⟩
    cases e with
    | «open» i r => exact absurd hg id
    | close i => exact absurd hg id
    | deliver i j => exact hP _ _ hs.2 (link_deliver hs.1 hab hmutual hstep)
  exact (exec_invariant hstep ds s t ⟨hpeers, h⟩ hds hrun).2

/-- **Ghosts.**  After a guarded run from a fresh fabric a device `i` is closed while its peer `j`
    is up.  Whatever is delivered then, once nothing from `i` is on its way to `j` it is active for
    `j` if and only if its close was hasty: it did not know of `j`, and `j` knew of it, or had not
    yet heard all it said. -/
theorem active_iff_hasty (peers : Fin n → List (Fin n)) (s t u v : Fabric n)
    (run ds : List (FabricEvent n)) (hfresh : Fresh peers s)
    (hguard : Guarded fabricStep (FabricGuard peers) s run)
    (hrun : exec fabricStep s run = some t) (i j : Fin n) (hij : i ≠ j)
    (hmutual : Mutual peers i j) (hup : (t.node j).up = true)
    (hclose : fabricStep t (.close i) = some u) (hds : Guarded fabricStep OnlyDeliver u ds)
    (hdeliver : exec fabricStep u ds = some v) (hquiet : v.wire (i, j) = []) :
    (v.node j).active i = true ↔ ¬Settled (link t i j) := by
  have hinv : t.Inv peers := exec_invariant (fun _ _ _ h hg hstep => h.step hg hstep)
    run s t hfresh.inv hguard hrun
  have hdown := link_close hinv.peersAre hij.symm hmutual (hinv.dbell i) hclose
  have hpeers := hinv.peersAre.step hclose
  have hlink := hinv.links i j hij hmutual
  by_cases hsettled : Settled (link t i j)
  · -- the leave is the last word, or there was nothing to take back
    have hstart : (link u j i).Inv words ∧ (link u j i).right.up = false :=
      ⟨(hlink.step_down hsettled hdown).swap, Link.up_of_step_down hdown⟩
    have hkeep (l l' : Link Info) (h : l.Inv words ∧ l.right.up = false)
        (hmoves : l.Moves words OnlyHear l') : l'.Inv words ∧ l'.right.up = false :=
      ⟨h.1.moves hmoves.guarded, hmoves.up.trans h.2⟩
    obtain ⟨hend, hdown'⟩ :=
      link_deliveries hkeep hij.symm hmutual.symm hpeers hds hdeliver hstart
    have hlists : (v.node j).active i = false := hend.heard.unlisted hdown' hquiet
    exact iff_of_false (by rw [hlists]; exact Bool.false_ne_true) (not_not.mpr hsettled)
  · have hstart : Haunted words (link u j i) :=
      Haunted.of_down hlink ((hinv.dbell j).trans hup) hsettled hdown
    have hend := link_deliveries (fun _ _ h hmoves => h.moves hmoves) hij.symm hmutual.symm
      hpeers hds hdeliver hstart
    exact iff_of_true (hend.listed hquiet) hsettled

/-- One of them has heard of the other. -/
def halfMet : Fabric 2 := (exec fabricStep twoDown (meet.take 3)).get (by decide)

/-- The other is closed, and hears nothing any more. -/
def ghost : Fabric 2 :=
  (exec fabricStep halfMet
    [.close device0, .deliver device1 device0, .deliver device1 device0]).get (by decide)

theorem active_ghost : (ghost.node device1).active device0 = true :=
  (active_iff_hasty _ twoDown halfMet ((fabricStep halfMet (.close device0)).get (by decide)) ghost
    (meet.take 3) [.deliver device1 device0, .deliver device1 device0] fresh_twoDown (by decide)
    (Option.some_get _).symm device0 device1 (by decide) (by decide) (by decide)
    (Option.some_get _).symm ⟨trivial, fun _ _ => ⟨trivial, fun _ _ => trivial⟩⟩
    (Option.some_get _).symm (by decide)).mpr (by decide)

end Vpx3.Eth
