import FabricSim.Core.Conservation
import FabricSim.Core.Emission
import FabricSim.Core.Timeline
import Mathlib.Algebra.BigOperators.Group.Finset.Piecewise
import Mathlib.Algebra.Order.BigOperators.Group.Finset

/-!
# Fees

How much work a packet in the network can still cause is counted with fees. A
`Tariff` says what a packet owes while it is at a port and while it is on a
wire, and what it pays when a transmission of it ends and when it arrives. When
the next place of a packet never costs more than what is left (`Tariff.Sound`),
the fees paid so far and the fees still owed are covered by what the packets
owed when they were emitted (`Reachable.paid_le`). A packet refused by a full
queue takes its debt with it.

Nothing in this depends on the clock or on the choice of the policy.
-/

namespace FabricSim

open State Finset

structure Tariff where
  /-- What a packet at a port owes. -/
  queued : PortId → Packet → Nat
  /-- What a packet on the wire of a port owes. -/
  flying : PortId → Packet → Nat
  /-- What it pays at the end of the wire. -/
  landing : PortId → Packet → Nat
  /-- What it pays at the end of its transmission. -/
  sending : Nat

namespace Tariff

/-- What the dispatch of an event pays. -/
def fee (w : Tariff) : Obs → Nat
  | .dispatched e =>
    match e.body with
    | .txComplete _ => w.sending
    | .arrive p x => w.landing p x
    | _ => 0
  | _ => 0

/-- The fees of a run so far. -/
def paid (w : Tariff) (s : State) : Nat := (s.trace.map w.fee).sum

/-- The fees of the packets at one link. -/
def owedAt (w : Tariff) (s : State) (p : PortId) : Nat :=
  ((s.wire p).map (w.flying p)).sum + ((s.port p).backlog.map (w.queued p)).sum

def owed (w : Tariff) (sim : Simulation) (s : State) : Nat :=
  ∑ p ∈ range sim.fabric.portCount, w.owedAt s p

/-- What all packets owed when they were emitted. -/
def charged (w : Tariff) (sim : Simulation) (s : State) : Nat :=
  (s.emissions.map fun a => w.queued (nic sim a.2) a.2).sum

/-- Nobody's debt grows on the way, as long as packets are where `N` has them. -/
structure Sound (w : Tariff) (sim : Simulation) (policy : RoutingPolicy)
    (N : PortId → Packet → Prop) : Prop where
  send : ∀ p x, N p x → w.flying p x + w.sending ≤ w.queued p x
  forward : ∀ (s : State) (p : PortId) (x : Packet), N p x →
    (sim.fabric.node (sim.fabric.port p).peerNode).isHost = false →
    w.queued (nextPort sim policy s p x) (forwarded p x) + w.landing p x ≤ w.flying p x
  land : ∀ (p : PortId) (x : Packet), N p x →
    (sim.fabric.node (sim.fabric.port p).peerNode).isHost = true → w.landing p x ≤ w.flying p x

variable {w : Tariff} {sim : Simulation} {policy : RoutingPolicy} {s s' : State} {f : FlowId}
  {p : PortId} {x : Packet} {e : Event} {queue : EventQueue} {N : PortId → Packet → Prop}

/-! ## Fees owed -/

theorem owed_congr (h : NetEq s s') : w.owed sim s' = w.owed sim s := by
  refine sum_congr rfl fun q _ => ?_
  unfold owedAt wire
  rw [h.port, h.arrivals]

/-- A sum of which one term grows. -/
theorem sum_le_of_change {n p c : Nat} {F G : Nat → Nat}
    (h : ∀ q, G q ≤ F q + if q = p then c else 0) :
    ∑ q ∈ range n, G q ≤ ∑ q ∈ range n, F q + c := by
  have hle : ∑ q ∈ range n, G q ≤ ∑ q ∈ range n, (F q + if q = p then c else 0) :=
    sum_le_sum fun q _ => h q
  rw [sum_add_distrib, sum_ite_eq'] at hle
  split at hle <;> omega

/-- A packet offered to a port owes its fee there, or is dropped. -/
theorem owed_enqueue (w : Tariff) (sim : Simulation) (hc : s.Coherent) (p : PortId) (x : Packet) :
    w.owed sim (s.enqueue sim p x) ≤ w.owed sim s + w.queued p x := by
  refine sum_le_of_change (p := p) fun q => ?_
  unfold owedAt wire
  rw [arrivals_enqueue]
  by_cases hfull : (s.port p).queue.count = (s.port p).queue.capacity
  · rw [enqueue_full sim s p x hfull, backlog_drop]
    exact Nat.le_add_right _ _
  · rw [(enqueue_room sim hc.idle p x hfull).1]
    by_cases hq : q = p
    · subst hq
      rw [if_pos rfl, if_pos rfl, List.map_append, List.sum_append, List.map_singleton,
        List.sum_singleton]
      omega
    · rw [if_neg hq, if_neg hq]
      exact le_rfl

/-- The packet whose transmission ends pays for it. -/
theorem owed_onTxComplete (sim : Simulation) (hfin : s.Finishing p) (hp : p < sim.fabric.portCount)
    (hx : w.flying p (s.port p).inFlight + w.sending ≤ w.queued p (s.port p).inFlight) :
    w.owed sim (s.onTxComplete sim p) + w.sending ≤ w.owed sim s := by
  have hchange := sum_range_of_change (F := fun q => w.owedAt s q)
    (G := fun q => w.owedAt (s.onTxComplete sim p) q) hp fun q hq => by
      unfold owedAt wire
      rw [arrivals_onTxComplete hfin, (onTxComplete_effect sim hfin).1, if_neg hq, sendOff_queue,
        EventQueue.arrivals_push_of_ne _ _ _ (Ne.symm hq)]
  have hself : w.owedAt (s.onTxComplete sim p) p + w.sending ≤ w.owedAt s p := by
    have hperm := ((EventQueue.arrivals_push_perm s.queue
      (u64 (s.now + (sim.fabric.port p).propDelayNs)) p (s.port p).inFlight).map Prod.snd).map
        (w.flying p) |>.sum_eq
    unfold owedAt wire
    rw [arrivals_onTxComplete hfin, (onTxComplete_effect sim hfin).1, if_pos rfl, sendOff_queue,
      hperm]
    unfold PortState.backlog
    rw [hfin.busy, if_pos rfl, List.map_append, List.sum_append]
    simp only [List.map_cons, List.sum_cons, List.map_nil, List.sum_nil]
    omega
  have howed : w.owed sim (s.onTxComplete sim p) =
      ∑ q ∈ range sim.fabric.portCount, w.owedAt (s.onTxComplete sim p) q := rfl
  have howed' : w.owed sim s = ∑ q ∈ range sim.fabric.portCount, w.owedAt s q := rfl
  omega

theorem owed_advance (hpop : s.queue.pop = some (e, queue)) (hb : ∀ p x, e.body ≠ .arrive p x) :
    w.owed sim (s.advance e queue) = w.owed sim s := by
  refine sum_congr rfl fun q _ => ?_
  have hnone : e.arrival q = none := by
    unfold Event.arrival
    split
    · next r x hr => exact absurd hr (hb r x)
    · rfl
  unfold owedAt wire
  rw [EventQueue.arrivals_of_pop hpop, hnone]
  rfl

/-- An arrival takes its packet and its debt off the wire. -/
theorem owed_advance_arrive (sim : Simulation) (hpop : s.queue.pop = some (e, queue)) (hb : e.body = .arrive p x)
    (hp : p < sim.fabric.portCount) :
    w.owed sim s = w.owed sim (s.advance e queue) + w.flying p x := by
  have harr : ∀ q, e.arrival q = if p = q then some (e.time, x) else none := by
    intro q
    unfold Event.arrival
    rw [hb]
  have hchange := sum_range_of_change (F := fun q => w.owedAt (s.advance e queue) q)
    (G := fun q => w.owedAt s q) hp fun q hq => by
      unfold owedAt wire
      rw [EventQueue.arrivals_of_pop hpop, harr, if_neg (Ne.symm hq)]
      rfl
  have hself : w.owedAt s p = w.owedAt (s.advance e queue) p + w.flying p x := by
    unfold owedAt wire
    rw [EventQueue.arrivals_of_pop hpop, harr, if_pos rfl]
    show w.flying p x + ((queue.arrivals p).map Prod.snd |>.map (w.flying p)).sum + _ =
      ((queue.arrivals p).map Prod.snd |>.map (w.flying p)).sum + _ + w.flying p x
    rw [Nat.add_assoc, Nat.add_comm]
    rfl
  have howed : w.owed sim (s.advance e queue) =
      ∑ q ∈ range sim.fabric.portCount, w.owedAt (s.advance e queue) q := rfl
  have howed' : w.owed sim s = ∑ q ∈ range sim.fabric.portCount, w.owedAt s q := rfl
  omega

/-! ## Fees paid and fees charged -/

theorem paid_advance : w.paid (s.advance e queue) = w.paid s + w.fee (.dispatched e) := by
  unfold paid
  rw [advance_trace, List.map_cons, List.sum_cons, Nat.add_comm]

/-- Entries that are no dispatches. -/
theorem paid_append {l : List Obs} (h : s'.trace = l ++ s.trace)
    (hl : ∀ o ∈ l, w.fee o = 0) : w.paid s' = w.paid s := by
  have hzero : (l.map w.fee).sum = 0 := by
    rw [List.sum_eq_zero_iff]
    intro n hn
    obtain ⟨o, ho, rfl⟩ := List.mem_map.mp hn
    exact hl o ho
  unfold paid
  rw [h, List.map_append, List.sum_append, hzero, Nat.zero_add]

theorem charged_congr (h : s'.emissions = s.emissions) : w.charged sim s' = w.charged sim s := by
  unfold charged
  rw [h]

/-- The fees paid and owed are covered. -/
def Covered (w : Tariff) (sim : Simulation) (s : State) : Prop :=
  w.paid s + w.owed sim s ≤ w.charged sim s

/-- An endpoint operation is charged for the packet it emits. -/
theorem Covered.micro (h : w.Covered sim s) (hc : s.Coherent) (hm : Micro sim f s s') :
    w.Covered sim s' := by
  unfold Covered at h ⊢
  rcases hm.net with ⟨hnet, -, -, -, l, hl, hrel⟩ | ⟨s₁, x, hnet, -, -, -, htr, rfl⟩
  · have hpaid : w.paid s' = w.paid s := by
      refine paid_append hl fun o ho => ?_
      obtain ⟨t, g, d, rfl⟩ := hrel o ho
      rfl
    rw [hpaid, owed_congr hnet, charged_congr (emissions_release hl hrel)]
    exact h
  · obtain ⟨room, htr'⟩ := enqueue_trace sim s₁ (nic sim x) x
    have hpaid : w.paid (s₁.enqueue sim (nic sim x) x) = w.paid s := by
      refine paid_append (l := [_, _]) (by rw [htr', htr]; rfl) fun o ho => ?_
      rcases List.mem_cons.mp ho with rfl | ho
      · rfl
      · rw [List.mem_singleton.mp ho]
        rfl
    have howed := owed_enqueue w sim (hnet.coherent hc) (nic sim x) x
    rw [owed_congr hnet] at howed
    have hcharged : w.charged sim (s₁.enqueue sim (nic sim x) x) =
        w.queued (nic sim x) x + w.charged sim s := by
      unfold charged
      rw [emissions_emit htr, List.map_cons, List.sum_cons]
    omega

theorem Covered.micros (h : w.Covered sim s) (hc : s.Coherent) (hm : Micros sim f s s') :
    w.Covered sim s' :=
  (hm.preserve (P := fun s' => s'.Coherent ∧ w.Covered sim s')
    (fun _ _ hm h => ⟨hm.coherent h.1, h.2.micro h.1 hm⟩) ⟨hc, h⟩).2

/-- One turn of the hot loop. -/
theorem Covered.step (h : w.Covered sim s) (hw : w.Sound sim policy N)
    (hN : ∀ p, ∀ x ∈ s.onLink p, N p x ∧ p < sim.fabric.portCount) (hc : s.Coherent)
    (hpop : s.queue.pop = some (e, queue)) :
    w.Covered sim ((s.advance e queue).dispatch sim policy e.body) := by
  have hcharge : w.charged sim (s.advance e queue) = w.charged sim s :=
    charged_congr (emissions_advance e queue)
  unfold Covered at h
  cases hb : e.body with
  | txComplete p =>
    show w.Covered sim ((s.advance e queue).onTxComplete sim p)
    have hfin := advance_finishing hc hpop hb
    -- the packet in the transmitter is at the link
    have hmem : (s.port p).inFlight ∈ s.onLink p := by
      have hbusy : (s.port p).busy = true := hfin.busy
      unfold onLink PortState.backlog
      rw [hbusy, if_pos rfl]
      exact List.mem_append_right _ (List.mem_cons_self ..)
    obtain ⟨hway, hp⟩ := hN p _ hmem
    have howed := owed_onTxComplete (w := w) sim hfin hp (hw.send p _ hway)
    rw [owed_advance hpop (by rw [hb]; simp)] at howed
    have hpaid : w.paid ((s.advance e queue).onTxComplete sim p) = w.paid s + w.sending := by
      have htr : ((s.advance e queue).onTxComplete sim p).trace = (s.advance e queue).trace := by
        rcases onTxComplete_cases sim (s.advance e queue) p with ⟨-, h'⟩ | ⟨-, h'⟩ <;> rw [h'] <;> rfl
      have hfee : w.fee (.dispatched e) = w.sending := by
        unfold fee
        dsimp only
        rw [hb]
      rw [← hfee, ← paid_advance]
      unfold paid
      rw [htr]
    unfold Covered
    rw [hpaid, charged_congr (emissions_onTxComplete sim _ p), hcharge]
    omega
  | inject f =>
    refine Covered.micros ?_ (hc.advance hpop (by rw [hb]; simp)) (onInject_micros _ f)
    unfold Covered
    rw [paid_advance, owed_advance hpop (by rw [hb]; simp), hcharge]
    have hfee : w.fee (.dispatched e) = 0 := by
      unfold fee
      dsimp only
      rw [hb]
    omega
  | timeout f idx a =>
    refine Covered.micros ?_ (hc.advance hpop (by rw [hb]; simp)) (onTimeout_micros _ f idx a)
    unfold Covered
    rw [paid_advance, owed_advance hpop (by rw [hb]; simp), hcharge]
    have hfee : w.fee (.dispatched e) = 0 := by
      unfold fee
      dsimp only
      rw [hb]
    omega
  | arrive p x =>
    obtain ⟨hway, hp⟩ := hN p x (mem_onLink_of_arrive hpop hb)
    have hc : (s.advance e queue).Coherent := hc.advance hpop (by rw [hb]; simp)
    have howed := owed_advance_arrive (w := w) sim hpop hb hp
    have hpaid : w.paid (s.advance e queue) = w.paid s + w.landing p x := by
      have hfee : w.fee (.dispatched e) = w.landing p x := by
        unfold fee
        dsimp only
        rw [hb]
      rw [paid_advance, hfee]
    show w.Covered sim ((s.advance e queue).onArrive sim policy p x)
    cases hh : (sim.fabric.node (sim.fabric.port p).peerNode).isHost with
    | false =>
      rw [onArrive_switch hh]
      have hnext := hw.forward (s.advance e queue) p x hway hh
      have hput := owed_enqueue w sim hc (nextPort sim policy (s.advance e queue) p x)
        (forwarded p x)
      obtain ⟨room, htr⟩ := enqueue_trace sim (s.advance e queue)
        (nextPort sim policy (s.advance e queue) p x) (forwarded p x)
      unfold Covered
      rw [paid_append (l := [_]) htr (by simp [fee]), hpaid,
        charged_congr (emissions_enqueue sim _ _ _), hcharge]
      omega
    | true =>
      have hland := hw.land p x hway hh
      have hadv : w.Covered sim (s.advance e queue) := by
        unfold Covered
        rw [hpaid, hcharge]
        omega
      cases hk : x.kind with
      | data =>
        rw [onArrive_data hh hk]
        exact Covered.micros (s := (s.advance e queue).countDelivered x.bytes) hadv
          ((netEq_countDelivered _ _).coherent hc) (onDataArrival_micros _ _ _ _ _)
      | ack =>
        rw [onArrive_ack hh hk]
        exact Covered.micros (s := (s.advance e queue).countAckDelivered x.bytes) hadv
          ((netEq_countAckDelivered _ _).coherent hc) (onAck_micros _ _ _)

end Tariff

/-- Over a whole run the fees paid and those still owed are covered by what the emitted
packets were charged. -/
theorem Simulation.Reachable.covered {sim : Simulation} {policy : RoutingPolicy} {s : State}
    (h : sim.Reachable policy s) {w : Tariff} {N : PortId → Packet → Prop}
    (hw : w.Sound sim policy N) (hN : ∀ s, sim.Reachable policy s →
      ∀ p, ∀ x ∈ s.onLink p, N p x ∧ p < sim.fabric.portCount) : w.Covered sim s := by
  refine Simulation.Reachable.invariant (P := w.Covered sim) (fun leftover => ?_)
    (fun s _ _ hs h hpop => h.step hw (hN s hs) hs.coherent hpop) h
  show 0 + _ ≤ 0
  rw [Nat.zero_add, Nat.le_zero, Tariff.owed]
  refine sum_eq_zero fun p _ => ?_
  unfold Tariff.owedAt
  have hlink : (sim.beginRun leftover).onLink p = [] := Simulation.onLink_beginRun leftover p
  obtain ⟨hwire, hback⟩ := List.append_eq_nil_iff.mp hlink
  rw [hwire, hback]
  rfl

theorem Simulation.Reachable.paid_le {sim : Simulation} {policy : RoutingPolicy} {s : State}
    (h : sim.Reachable policy s) {w : Tariff} {N : PortId → Packet → Prop}
    (hw : w.Sound sim policy N) (hN : ∀ s, sim.Reachable policy s →
      ∀ p, ∀ x ∈ s.onLink p, N p x ∧ p < sim.fabric.portCount) : w.paid s ≤ w.charged sim s :=
  (Nat.le_add_right _ _).trans (h.covered hw hN)

end FabricSim
