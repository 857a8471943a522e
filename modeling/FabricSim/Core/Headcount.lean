import FabricSim.Core.Attempts
import FabricSim.Core.Clock
import FabricSim.Core.Delivery
import FabricSim.Core.Load

/-!
# Nothing is delivered twice

A packet that is charged one for itself (`headcount`) pays it to the host it
arrives at, so no more packets of any kind reach their hosts than were emitted.
The receiver answers each data packet that arrives with one ack of the same
attempt (`Reachable.acked`). Together: of one attempt at a packet at most one
copy arrives, and at most one ack is sent.
-/

namespace FabricSim

open State

/-- The history records the arrival of such a packet at a host. -/
def Obs.lands (sim : Simulation) (P : Packet → Bool) : Obs → Bool
  | .dispatched e =>
    match e.body with
    | .arrive p x => (sim.fabric.node (sim.fabric.port p).peerNode).isHost && P x
    | _ => false
  | _ => false

/-- How many such packets arrived at a host. -/
def State.landings (sim : Simulation) (s : State) (P : Packet → Bool) : Nat :=
  s.trace.countP (Obs.lands sim P)

/-- One for each packet that `P` selects, paid at its host. -/
def headcount (sim : Simulation) (P : Packet → Bool) : Tariff where
  queued := fun _ x => (P x).toNat
  flying := fun _ x => (P x).toNat
  landing := fun p x =>
    if (sim.fabric.node (sim.fabric.port p).peerNode).isHost then (P x).toNat else 0
  sending := 0

theorem sum_map_toNat {α : Type} (l : List α) (P : α → Bool) :
    (l.map fun a => (P a).toNat).sum = l.countP P := by
  induction l with
  | nil => rfl
  | cons a l ih =>
    rw [List.map_cons, List.sum_cons, List.countP_cons, ih, Nat.add_comm]
    cases P a <;> rfl

section Headcount

variable {sim : Simulation} {policy : RoutingPolicy} {s : State} {P : Packet → Bool}

theorem headcount_sound (hP : ∀ p x, P (forwarded p x) = P x) :
    (headcount sim P).Sound sim policy (AtPort sim) where
  send := fun _ _ _ => le_rfl
  forward := by
    intro s p x _ hsw
    show (P (forwarded p x)).toNat + (if _ then _ else 0) ≤ (P x).toNat
    rw [hP, if_neg (by simp [hsw])]
    exact le_rfl
  land := by
    intro p x _ hh
    show (if _ then _ else 0) ≤ (P x).toNat
    rw [if_pos hh]

theorem paid_headcount : (headcount sim P).paid s = s.landings sim P := by
  unfold Tariff.paid State.landings
  rw [← sum_map_toNat]
  congr 1
  refine List.map_congr_left fun o _ => ?_
  unfold Tariff.fee Obs.lands
  cases o with
  | emitted | offered | released => rfl
  | dispatched e =>
    obtain ⟨t, q, b⟩ := e
    cases b with
    | inject | timeout | txComplete => rfl
    | arrive p x =>
      show (if _ then _ else 0) = (_ && P x).toNat
      split
      · next hh => rw [hh, Bool.true_and]
      · next hh =>
        rw [Bool.eq_false_iff.mpr hh, Bool.false_and]
        rfl

/-- No more packets arrive than were emitted. -/
theorem Simulation.Reachable.landings_le (h : sim.Reachable policy s) (hr : sim.Steered)
    (hm : policy.Member) (hP : ∀ p x, P (forwarded p x) = P x) :
    s.landings sim P ≤ s.emissions.countP fun a => P a.2 := by
  have hsound : (headcount sim P).Sound sim policy (AtPort sim) := headcount_sound hP
  have hpaid := h.paid_le hsound (Simulation.atPort_lt hr hm)
  rw [paid_headcount] at hpaid
  refine hpaid.trans (le_of_eq ?_)
  exact sum_map_toNat s.emissions fun a => P a.2

end Headcount

/-! ## Acks -/

/-- A data packet on the network, of an attempt that `K` selects. -/
def dataOf (K : FlowId → Nat → Nat → Bool) (x : Packet) : Bool :=
  x.kind = .data && K x.flow x.index x.tag.attempt

/-- An ack of such a data packet. -/
def ackOf (K : FlowId → Nat → Nat → Bool) (x : Packet) : Bool :=
  x.kind = .ack && K x.flow x.index x.tag.attempt

namespace State

variable {sim : Simulation} {policy : RoutingPolicy} {s s' : State} {f : FlowId}

/-- The tag of a transmission carries its attempt. -/
theorem Micro.tagged (hm : Micro sim f s s')
    (h : ∀ a ∈ s.emissions, a.2.kind = .data → a.2.tag.attempt = a.2.attempt) :
    ∀ a ∈ s'.emissions, a.2.kind = .data → a.2.tag.attempt = a.2.attempt := by
  cases hm with
  | send idx =>
    intro a ha hk
    rw [emissions_sendPacket] at ha
    rcases List.mem_cons.mp ha with rfl | ha
    · rfl
    · exact h a ha hk
  | ack idx at' =>
    intro a ha hk
    rw [emissions_sendAck] at ha
    rcases List.mem_cons.mp ha with rfl | ha
    · exact absurd hk (by simp [ackPacket])
    · exact h a ha hk
  | tx u => exact h
  | pkt idx u => exact h
  | result u _ => exact h
  | attempt idx => exact h
  | ring slot idx => exact h
  | wake t _ => exact h
  | release d _ =>
    rw [emissions_releaseFlow]
    exact h

theorem emissions_deliver (s : State) (f : FlowId) (idx bytes : Nat) :
    (s.deliver sim f idx bytes).emissions = s.emissions := by
  have hfold : ∀ (l : List FlowId) (s : State),
      (l.foldl (releaseFlow f) s).emissions = s.emissions := by
    intro l
    induction l with
    | nil => exact fun _ => rfl
    | cons d l ih => exact fun s => (ih _).trans (emissions_releaseFlow s f d)
  unfold deliver
  dsimp only
  split
  · exact hfold _ _
  · rfl

/-- A turn adds one dispatch to the history, its own. -/
theorem landings_step {e : Event} {queue : EventQueue} (P : Packet → Bool) :
    ((s.advance e queue).dispatch sim policy e.body).landings sim P =
      s.landings sim P + if Obs.lands sim P (.dispatched e) then 1 else 0 := by
  obtain ⟨l, hl, hnone⟩ := @step_trace sim policy s e queue
  have hzero : l.countP (Obs.lands sim P) = 0 := by
    rw [List.countP_eq_zero]
    intro o ho
    have hno := hnone o ho
    cases o with
    | dispatched e' => exact absurd hno (by simp [Obs.dispatchTime])
    | emitted | offered | released => simp [Obs.lands]
  unfold landings
  rw [hl, List.countP_append, hzero, List.countP_cons, Nat.zero_add]

/-- The entries of a history whose packets `P` selects for emission. -/
theorem countP_emissions (s : State) (P : Packet → Bool) : (s.emissions.countP fun a => P a.2) =
    s.trace.countP fun o =>
      match o with
      | .emitted _ x => P x
      | _ => false := by
  unfold emissions
  rw [List.countP_filterMap]
  refine List.countP_congr fun o _ => ?_
  cases o <;> simp [Obs.emission]

end State

theorem Simulation.Reachable.tagged {sim : Simulation} {policy : RoutingPolicy} {s : State}
    (h : sim.Reachable policy s) :
    ∀ a ∈ s.emissions, a.2.kind = .data → a.2.tag.attempt = a.2.attempt := by
  refine Simulation.Reachable.invariant
    (P := fun s => ∀ a ∈ s.emissions, a.2.kind = .data → a.2.tag.attempt = a.2.attempt)
    (fun _ _ ha => absurd ha List.not_mem_nil) ?_ h
  intro s e queue _ ih hpop
  rcases dispatch_cases sim policy (s.advance e queue) e.body with
    ⟨p, -, heq⟩ | ⟨p, x, -, -, heq⟩ | ⟨g, s₁, -, -, htr, -, -, -, -, -, hm, -⟩
  · rw [heq, emissions_onTxComplete, emissions_advance]
    exact ih
  · rw [heq, emissions_enqueue, emissions_advance]
    exact ih
  · refine hm.preserve
      (P := fun s => ∀ a ∈ s.emissions, a.2.kind = .data → a.2.tag.attempt = a.2.attempt)
      (fun _ _ hm h => hm.tagged h) ?_
    have hem : s₁.emissions = s.emissions :=
      (congrArg (List.filterMap Obs.emission) htr).trans (emissions_advance e queue)
    rw [hem]
    exact ih

/-- Each data packet that arrives is answered with one ack, of its attempt. -/
theorem Simulation.Reachable.acked {sim : Simulation} {policy : RoutingPolicy} {s : State}
    (h : sim.Reachable policy s) (K : FlowId → Nat → Nat → Bool) :
    (s.emissions.countP fun a => ackOf K a.2) = s.landings sim (dataOf K) := by
  refine Simulation.Reachable.invariant
    (P := fun s => (s.emissions.countP fun a => ackOf K a.2) = s.landings sim (dataOf K))
    (fun _ => rfl) ?_ h
  intro s e queue _ ih hpop
  rw [landings_step, ← ih]
  by_cases hdata : ∃ p x, e.body = .arrive p x ∧
      (sim.fabric.node (sim.fabric.port p).peerNode).isHost = true ∧ x.kind = .data
  · obtain ⟨p, x, hb, hh, hk⟩ := hdata
    have hlands : Obs.lands sim (dataOf K) (.dispatched e) = K x.flow x.index x.tag.attempt := by
      unfold Obs.lands dataOf
      dsimp only
      rw [hb]
      simp [hh, hk]
    rw [hlands, hb]
    show ((s.advance e queue).onArrive sim policy p x).emissions.countP _ = _
    rw [onArrive_data hh hk, onDataArrival_eq]
    generalize hs₂ : (if ((s.advance e queue).countDelivered x.bytes).pkt x.flow x.index |>.delivered
      then (s.advance e queue).countDelivered x.bytes
      else ((s.advance e queue).countDelivered x.bytes).deliver sim x.flow x.index x.bytes) = s₂
    have hem : s₂.emissions = s.emissions := by
      rw [← hs₂]
      split
      · exact emissions_advance e queue
      · exact (emissions_deliver _ _ _ _).trans (emissions_advance e queue)
    rw [emissions_sendAck, hem, List.countP_cons]
    rfl
  · -- no data arrives, and nothing but data is emitted
    have hlands : Obs.lands sim (dataOf K) (.dispatched e) = false := by
      unfold Obs.lands dataOf
      dsimp only
      split
      · next p x hb =>
        rw [Bool.eq_false_iff]
        intro hp
        simp only [Bool.and_eq_true, decide_eq_true_eq] at hp
        exact hdata ⟨p, x, hb, hp.1, hp.2.1⟩
      · rfl
    rw [hlands, countP_emissions, countP_emissions]
    obtain ⟨l, hl, hq⟩ :=
      ((dispatch_tally sim policy (s.advance e queue) e.body).resolve_left hdata).2
    have hzero : (l.countP fun o =>
        match o with
        | .emitted _ x => ackOf K x
        | _ => false) = 0 := by
      rw [List.countP_eq_zero]
      intro o ho
      have hquiet := hq o ho
      cases o with
      | emitted t x =>
        have hk : x.kind = .data := hquiet
        simp [ackOf, hk]
      | dispatched | offered | released => simp
    rw [hl, advance_trace, List.countP_append, hzero, List.countP_cons_of_neg (by simp),
      Nat.zero_add]
    rfl

end FabricSim
