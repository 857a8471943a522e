import FabricSim.Core.RoutingSafety
import Mathlib.Algebra.BigOperators.Group.Finset.Basic
import Mathlib.Algebra.BigOperators.Group.List.Lemmas

/-!
# Conservation

Bytes of either kind are injected once and end up delivered, dropped or at a
link. `Conserved` is the balance with a list of packets still `hand`ed around: a
handler takes a packet into its hand when it counts it as injected or takes it
off a wire, and puts it down by counting it as delivered or offering it to a
port. Between two dispatches the hand is empty.
-/

namespace FabricSim

open State Finset

/-- A sum in which one term changes. -/
theorem sum_range_of_change {n p : Nat} {F G : Nat → Nat} (hp : p < n)
    (hoff : ∀ q, q ≠ p → G q = F q) :
    ∑ q ∈ range n, G q + F p = ∑ q ∈ range n, F q + G p := by
  have hG := add_sum_erase (range n) G (mem_range.mpr hp)
  have hF := add_sum_erase (range n) F (mem_range.mpr hp)
  have hrest : ∑ q ∈ (range n).erase p, G q = ∑ q ∈ (range n).erase p, F q :=
    sum_congr rfl fun q hq => hoff q (ne_of_mem_erase hq)
  omega

/-- The bytes of the packets of one kind. -/
def kindBytes (k : PacketKind) (l : List Packet) : Nat :=
  ((l.filter fun x => x.kind = k).map Packet.bytes).sum

section KindBytes

variable (k : PacketKind)

@[simp] theorem kindBytes_nil : kindBytes k [] = 0 := rfl

theorem kindBytes_append (l l' : List Packet) :
    kindBytes k (l ++ l') = kindBytes k l + kindBytes k l' := by
  unfold kindBytes
  rw [List.filter_append, List.map_append, List.sum_append]

theorem kindBytes_singleton (x : Packet) :
    kindBytes k [x] = if x.kind = k then x.bytes else 0 := by
  unfold kindBytes
  by_cases hk : x.kind = k
  · simp [hk]
  · simp [hk]

theorem kindBytes_cons (x : Packet) (l : List Packet) :
    kindBytes k (x :: l) = kindBytes k [x] + kindBytes k l := kindBytes_append k [x] l

theorem kindBytes_perm {l l' : List Packet} (h : l.Perm l') : kindBytes k l = kindBytes k l' :=
  ((h.filter _).map _).sum_eq

end KindBytes

namespace RunStats

def injected (st : RunStats) : PacketKind → Nat
  | .data => st.bytesInjected
  | .ack => st.ackBytesInjected

def delivered (st : RunStats) : PacketKind → Nat
  | .data => st.bytesDelivered
  | .ack => st.ackBytesDelivered

def dropped (st : RunStats) : PacketKind → Nat
  | .data => st.bytesDropped
  | .ack => st.ackBytesDropped

end RunStats

/-- The history records an offer to port `p`. -/
def Obs.offersTo (p : PortId) : Obs → Bool
  | .offered _ q _ _ => q = p
  | _ => false

/-- How many packets were offered to a port. -/
def State.offers (s : State) (p : PortId) : Nat := s.trace.countP (Obs.offersTo p)

/-- The balance of a state, with the packets a handler has in hand. -/
structure Conserved (sim : Simulation) (s : State) (hand : List Packet) : Prop where
  bytes : ∀ k, s.stats.injected k = s.stats.delivered k + s.stats.dropped k +
    ∑ p ∈ range sim.fabric.portCount, kindBytes k (s.onLink p) + kindBytes k hand
  ports : ∀ p, s.offers p =
    (s.port p).packetsSent + (s.port p).packetsDropped + (s.port p).backlog.length
  drops : ∑ p ∈ range sim.fabric.portCount, (s.port p).bytesDropped =
    s.stats.bytesDropped + s.stats.ackBytesDropped

theorem PortState.length_backlog (ps : PortState) :
    ps.backlog.length = ps.queue.count + if ps.busy then 1 else 0 := by
  unfold PortState.backlog
  rw [List.length_append, BoundedFifo.length_toList, Nat.add_comm]
  split <;> rfl

namespace Conserved

variable {sim : Simulation} {policy : RoutingPolicy} {s s' : State} {hand : List Packet}
  {x : Packet} {p : PortId} {f : FlowId}

/-- An operation away from the network and the counters. -/
theorem congr (h : Conserved sim s hand) (hnet : NetEq s s') (hstats : s'.stats = s.stats)
    (hoff : ∀ p, s'.offers p = s.offers p) : Conserved sim s' hand where
  bytes := by
    intro k
    rw [hstats]
    simp only [hnet.onLink]
    exact h.bytes k
  ports := by
    intro p
    rw [hoff, hnet.port]
    exact h.ports p
  drops := by
    rw [hnet.port, hstats]
    exact h.drops

/-- A packet put down at a port: it is queued or counted as dropped. -/
theorem enqueue (h : Conserved sim s (x :: hand)) (hc : s.Coherent)
    (hp : p < sim.fabric.portCount) : Conserved sim (s.enqueue sim p x) hand := by
  have hoffer : ∀ q, (s.enqueue sim p x).offers q = s.offers q + if q = p then 1 else 0 := by
    intro q
    obtain ⟨room, htr⟩ := enqueue_trace sim s p x
    unfold State.offers
    rw [htr, List.countP_cons]
    by_cases hq : q = p
    · simp [Obs.offersTo, hq]
    · simp [Obs.offersTo, hq, Ne.symm hq]
  have hlink := onLink_enqueue sim hc.idle p x
  by_cases hfull : (s.port p).queue.count = (s.port p).queue.capacity
  · -- refused: the drop counters take it
    have heq := enqueue_full sim s p x hfull
    have hstats : (s.enqueue sim p x).stats = ((s.log (.offered s.now p x false)).drop p x).stats := by
      rw [heq]
    have hport : (s.enqueue sim p x).port = ((s.log (.offered s.now p x false)).drop p x).port := by
      rw [heq]
    rw [drop_port] at hport
    refine ⟨?_, ?_, ?_⟩
    · intro k
      have hb := h.bytes k
      rw [kindBytes_cons, kindBytes_singleton] at hb
      have hsame : ∀ q, (s.enqueue sim p x).onLink q = s.onLink q := by
        intro q
        rw [hlink, if_neg fun hr => hr.2 hfull]
      simp only [hsame]
      rw [hstats]
      unfold drop
      cases hk : x.kind <;> cases k <;> rw [hk] at hb <;>
        simp [RunStats.injected, RunStats.delivered, RunStats.dropped] at hb ⊢ <;> omega
    · intro q
      have hq := h.ports q
      rw [hoffer, hport]
      by_cases hqp : q = p
      · subst hqp
        rw [if_pos rfl, Function.update_self]
        simp only [log_port]
        change _ = _ + _ + (s.port q).backlog.length
        omega
      · rw [if_neg hqp, Function.update_of_ne hqp]
        exact hq
    · have hd := h.drops
      have hsum := sum_range_of_change (F := fun q => (s.port q).bytesDropped)
        (G := fun q => ((s.enqueue sim p x).port q).bytesDropped) hp fun q hq => by
          rw [hport, Function.update_of_ne hq]
          rfl
      have hself : ((s.enqueue sim p x).port p).bytesDropped = (s.port p).bytesDropped + x.bytes := by
        rw [hport, Function.update_self]
        rfl
      have htot : (s.enqueue sim p x).stats.bytesDropped + (s.enqueue sim p x).stats.ackBytesDropped =
          s.stats.bytesDropped + s.stats.ackBytesDropped + x.bytes := by
        rw [hstats]
        unfold drop
        cases x.kind <;> simp <;> omega
      rw [hself] at hsum
      rw [htot]
      omega
  · -- there is room: the link takes it
    obtain ⟨hback, -, -⟩ := enqueue_room sim hc.idle p x hfull
    have hsame : (s.enqueue sim p x).stats = s.stats ∧
        ∀ q, ((s.enqueue sim p x).port q).packetsSent = (s.port q).packetsSent ∧
          ((s.enqueue sim p x).port q).packetsDropped = (s.port q).packetsDropped ∧
          ((s.enqueue sim p x).port q).bytesDropped = (s.port q).bytesDropped := by
      rcases enqueue_cases s p x sim with ⟨h', -⟩ | ⟨queue, -, ⟨-, h'⟩ | ⟨-, h'⟩⟩
      · exact absurd h' hfull
      all_goals
        rw [h']
        refine ⟨by simp, fun q => ?_⟩
        by_cases hqp : q = p
        · subst hqp; simp
        · simp [hqp]
    obtain ⟨hstats, hport⟩ := hsame
    refine ⟨?_, ?_, ?_⟩
    · intro k
      have hb := h.bytes k
      rw [kindBytes_cons] at hb
      have hsum := sum_range_of_change (F := fun q => kindBytes k (s.onLink q))
        (G := fun q => kindBytes k ((s.enqueue sim p x).onLink q)) hp fun q hq => by
          rw [hlink, if_neg fun hr => hq hr.1]
      rw [hlink p, if_pos ⟨rfl, hfull⟩, kindBytes_append] at hsum
      rw [hstats]
      omega
    · intro q
      have hq := h.ports q
      obtain ⟨h1, h2, -⟩ := hport q
      rw [hoffer, hback, h1, h2]
      by_cases hqp : q = p
      · rw [if_pos hqp, if_pos hqp, List.length_append]
        show _ = _ + _ + (_ + 1)
        omega
      · rw [if_neg hqp, if_neg hqp]
        exact hq
    · rw [hstats, ← h.drops]
      exact sum_congr rfl fun q _ => (hport q).2.2

/-! ## Endpoint operations -/

theorem sendPacket (h : Conserved sim s []) (hc : s.Coherent)
    (hnic : (sim.route f).srcNic < sim.fabric.portCount) (idx : Nat) :
    Conserved sim (s.sendPacket sim f idx) [] := by
  unfold State.sendPacket
  have hcount : (s.countRetx f idx).stats.injected = s.stats.injected ∧
      (s.countRetx f idx).stats.delivered = s.stats.delivered ∧
      (s.countRetx f idx).stats.dropped = s.stats.dropped := by
    rcases countRetx_cases s f idx with h | h <;> rw [h] <;>
      exact ⟨by funext k; cases k <;> rfl, by funext k; cases k <;> rfl, by funext k; cases k <;> rfl⟩
  have hnet : NetEq s (((s.markSent sim f idx).pushAfter sim.transport.rtoNs
      (.timeout f idx (s.pktAttempt f idx))).log (.emitted s.now (dataPacket sim s f idx))) :=
    ⟨by simp, fun p => by simp, fun p => by simp⟩
  refine Conserved.enqueue ?_ (hnet.coherent hc) hnic
  refine ⟨?_, ?_, ?_⟩
  · intro k
    have hb := h.bytes k
    simp only [hnet.onLink]
    rw [kindBytes_singleton]
    obtain ⟨h1, h2, h3⟩ := hcount
    have h1 := congrFun h1 k
    have h2 := congrFun h2 k
    have h3 := congrFun h3 k
    cases k <;> simp [RunStats.injected, RunStats.delivered, RunStats.dropped, markSent,
      dataPacket] at hb h1 h2 h3 ⊢ <;> omega
  · intro p
    have := h.ports p
    unfold State.offers at this ⊢
    rw [hnet.port, log_trace, pushAfter_trace, markSent_trace, List.countP_cons]
    simpa [Obs.offersTo] using this
  · rw [hnet.port]
    refine h.drops.trans ?_
    have h3 := congrFun hcount.2.2
    have h4 := h3 .data
    have h5 := h3 .ack
    simp [RunStats.dropped] at h4 h5
    simp [markSent, h4, h5]

theorem sendAck (h : Conserved sim s []) (hc : s.Coherent)
    (hnic : (sim.route f).dstNic < sim.fabric.portCount) (idx a : Nat) :
    Conserved sim (s.sendAck sim f idx a) [] := by
  unfold State.sendAck
  refine Conserved.enqueue ?_ (NetEq.coherent (s := s) ⟨rfl, fun _ => rfl, fun _ => rfl⟩ hc) hnic
  refine ⟨?_, ?_, h.drops⟩
  · intro k
    have hb := h.bytes k
    rw [kindBytes_singleton]
    change _ = _ + _ + ∑ p ∈ range sim.fabric.portCount, kindBytes k (s.onLink p) + _
    cases k <;> simp [RunStats.injected, RunStats.delivered, RunStats.dropped, ackPacket] at hb ⊢ <;>
      omega
  · intro p
    have := h.ports p
    unfold State.offers at this ⊢
    rw [log_trace, List.countP_cons]
    simpa [Obs.offersTo] using this

theorem micro (h : Conserved sim s []) (hc : s.Coherent) (hr : sim.Wired)
    (hf : f < sim.flowCount) (hm : Micro sim f s s') : Conserved sim s' [] := by
  have hacc := sim.spec_accepted hf
  have hsrc := hr.wellFormed.port_lt _ _ (hr.singlePort.nic_mem hacc.src_host)
  have hdst := hr.wellFormed.port_lt _ _ (hr.singlePort.nic_mem hacc.dst_host)
  cases hm with
  | send idx => exact h.sendPacket hc hsrc idx
  | ack idx a => exact h.sendAck hc hdst idx a
  | tx g | pkt idx g | result g _ | attempt idx | ring slot idx =>
    exact h.congr ⟨rfl, fun _ => rfl, fun _ => rfl⟩ rfl fun _ => rfl
  | wake t _ => exact h.congr ⟨rfl, fun _ => by simp, fun _ => by simp⟩ rfl fun _ => rfl
  | release d _ =>
    refine h.congr ⟨rfl, fun _ => by simp, fun _ => by simp⟩ rfl fun p => ?_
    unfold State.offers
    rw [releaseFlow_trace, List.countP_cons]
    simp [Obs.offersTo]

theorem micros (h : Conserved sim s []) (hc : s.Coherent) (hr : sim.Wired)
    (hf : f < sim.flowCount) (hm : Micros sim f s s') : Conserved sim s' [] :=
  (hm.preserve (P := fun s' => s'.Coherent ∧ Conserved sim s' [])
    (fun _ _ hm h => ⟨hm.coherent h.1, h.2.micro h.1 hr hf hm⟩) ⟨hc, h⟩).2

/-! ## One turn of the hot loop -/

theorem advance (h : Conserved sim s []) {e : Event} {queue : EventQueue}
    (hpop : s.queue.pop = some (e, queue)) (hb : ∀ p x, e.body ≠ .arrive p x) :
    Conserved sim (s.advance e queue) [] where
  bytes := by
    intro k
    simp only [onLink_advance hpop hb]
    exact h.bytes k
  ports := by
    intro p
    have := h.ports p
    unfold State.offers at this ⊢
    rw [advance_trace, List.countP_cons]
    simpa [Obs.offersTo] using this
  drops := h.drops

/-- An arrival takes its packet off the wire. -/
theorem advance_arrive (h : Conserved sim s []) {e : Event} {queue : EventQueue}
    (hpop : s.queue.pop = some (e, queue)) (hb : e.body = .arrive p x)
    (hp : p < sim.fabric.portCount) : Conserved sim (s.advance e queue) [x] where
  bytes := by
    intro k
    have hk := h.bytes k
    have hlink := onLink_advance_arrive hpop hb
    have hsum := sum_range_of_change (F := fun q => kindBytes k ((s.advance e queue).onLink q))
      (G := fun q => kindBytes k (s.onLink q)) hp fun q hq => by
        rw [hlink, if_neg hq]
    rw [hlink p, if_pos rfl, kindBytes_cons] at hsum
    change s.stats.injected k = s.stats.delivered k + s.stats.dropped k + _ + _
    rw [kindBytes_nil] at hk
    omega
  ports := by
    intro p
    have := h.ports p
    unfold State.offers at this ⊢
    rw [advance_trace, List.countP_cons]
    simpa [Obs.offersTo] using this
  drops := h.drops

theorem onTxComplete (h : Conserved sim s []) (hfin : s.Finishing p) :
    Conserved sim (s.onTxComplete sim p) [] := by
  obtain ⟨hback, -, -⟩ := onTxComplete_effect sim hfin
  have hsame : (s.onTxComplete sim p).stats = s.stats ∧ (s.onTxComplete sim p).trace = s.trace ∧
      ∀ q, ((s.onTxComplete sim p).port q).packetsSent =
          (s.port q).packetsSent + (if q = p then 1 else 0) ∧
        ((s.onTxComplete sim p).port q).packetsDropped = (s.port q).packetsDropped ∧
        ((s.onTxComplete sim p).port q).bytesDropped = (s.port q).bytesDropped := by
    rcases onTxComplete_cases sim s p with ⟨-, h'⟩ | ⟨-, h'⟩
    all_goals
      rw [h']
      refine ⟨by simp, by simp, fun q => ?_⟩
      by_cases hqp : q = p
      · subst hqp; simp
      · simp [hqp]
  obtain ⟨hstats, htr, hport⟩ := hsame
  refine ⟨?_, ?_, ?_⟩
  · intro k
    rw [hstats]
    simp only [kindBytes_perm k (onLink_onTxComplete sim hfin _)]
    exact h.bytes k
  · intro q
    have hq := h.ports q
    obtain ⟨h1, h2, -⟩ := hport q
    unfold State.offers at hq ⊢
    rw [htr, h1, h2, hback]
    by_cases hqp : q = p
    · subst hqp
      rw [PortState.length_backlog, hfin.busy, if_pos rfl] at hq
      rw [if_pos rfl, if_pos rfl, BoundedFifo.length_toList]
      omega
    · rw [if_neg hqp, if_neg hqp]
      exact hq
  · rw [hstats, ← h.drops]
    exact sum_congr rfl fun q _ => (hport q).2.2

theorem step (h : Conserved sim s []) (hr : sim.Steered) (hm : policy.Member)
    (hs : sim.Reachable policy s) {e : Event} {queue : EventQueue}
    (hpop : s.queue.pop = some (e, queue)) :
    Conserved sim ((s.advance e queue).dispatch sim policy e.body) [] := by
  have hin := hs.inRange
  have he : e ∈ s.queue.agenda := by
    rw [EventQueue.agenda_of_pop hpop]
    exact List.mem_cons_self ..
  cases hb : e.body with
  | txComplete p =>
    exact (h.advance hpop (by rw [hb]; simp)).onTxComplete (advance_finishing hs.coherent hpop hb)
  | inject f =>
    exact (h.advance hpop (by rw [hb]; simp)).micros (hs.coherent.advance hpop (by rw [hb]; simp))
      hr.toWired (hin.events e he f (by rw [hb]; rfl)) (onInject_micros _ f)
  | timeout f idx a =>
    exact (h.advance hpop (by rw [hb]; simp)).micros (hs.coherent.advance hpop (by rw [hb]; simp))
      hr.toWired (hin.events e he f (by rw [hb]; rfl)) (onTimeout_micros _ f idx a)
  | arrive p x =>
    have hx := mem_onLink_of_arrive hpop hb
    have hway := hs.atPort hr hm p x hx
    have hc : (s.advance e queue).Coherent := hs.coherent.advance hpop (by rw [hb]; simp)
    have hhand := h.advance_arrive hpop hb (hway.port_lt hr.toWired)
    show Conserved sim ((s.advance e queue).onArrive sim policy p x) []
    cases hh : (sim.fabric.node (sim.fabric.port p).peerNode).isHost with
    | false =>
      rw [onArrive_switch hh]
      -- the forwarded packet has the kind and the bytes of the one that arrived
      have hfwd : Conserved sim (s.advance e queue) [forwarded p x] :=
        ⟨fun k => by
          have := hhand.bytes k
          rw [kindBytes_singleton] at this ⊢
          exact this, hhand.ports, hhand.drops⟩
      exact hfwd.enqueue hc ((hway.next hr hm hh).port_lt hr.toWired)
    | true =>
      cases hk : x.kind with
      | data =>
        rw [onArrive_data hh hk]
        refine Conserved.micros ?_ ((netEq_countDelivered _ _).coherent hc) hr.toWired hway.flow_lt
          (onDataArrival_micros _ _ _ _ _)
        refine ⟨fun k => ?_, hhand.ports, hhand.drops⟩
        have := hhand.bytes k
        rw [kindBytes_singleton, hk] at this
        change _ = _ + _ + ∑ q ∈ range sim.fabric.portCount,
          kindBytes k ((s.advance e queue).onLink q) + _
        cases k <;> simp [RunStats.injected, RunStats.delivered, RunStats.dropped,
          countDelivered] at this ⊢ <;> omega
      | ack =>
        rw [onArrive_ack hh hk]
        refine Conserved.micros ?_ ((netEq_countAckDelivered _ _).coherent hc) hr.toWired hway.flow_lt
          (onAck_micros _ _ _)
        refine ⟨fun k => ?_, hhand.ports, hhand.drops⟩
        have := hhand.bytes k
        rw [kindBytes_singleton, hk] at this
        change _ = _ + _ + ∑ q ∈ range sim.fabric.portCount,
          kindBytes k ((s.advance e queue).onLink q) + _
        cases k <;> simp [RunStats.injected, RunStats.delivered, RunStats.dropped,
          countAckDelivered] at this ⊢ <;> omega

theorem begin (sim : Simulation) (leftover : State) : Conserved sim (sim.beginRun leftover) [] where
  bytes := by
    intro k
    simp only [Simulation.onLink_beginRun, kindBytes_nil]
    cases k <;> simp [RunStats.injected, RunStats.delivered, RunStats.dropped, Simulation.beginRun]
  ports := by
    intro p
    rw [PortState.length_backlog]
    rfl
  drops := by simp [Simulation.beginRun, Fabric.resetPort]

end Conserved

theorem Simulation.Reachable.conserved {sim : Simulation} {policy : RoutingPolicy} {s : State}
    (h : sim.Reachable policy s) (hr : sim.Steered) (hm : policy.Member) : Conserved sim s [] :=
  Simulation.Reachable.invariant (P := fun s => Conserved sim s []) (Conserved.begin sim)
    (fun _ _ _ hs hc hpop => hc.step hr hm hs hpop) h

/-! ## The places a packet can be in -/

/-- The packet an event carries. -/
def Event.carried (e : Event) : Option Packet :=
  match e.body with
  | .arrive _ x => some x
  | _ => none

/-- Bytes sitting in the port queues. -/
def queuedBytes (sim : Simulation) (s : State) (k : PacketKind) : Nat :=
  ∑ p ∈ range sim.fabric.portCount, kindBytes k (s.port p).queue.toList

/-- Bytes in the transmitter slots of busy ports. -/
def transmittingBytes (sim : Simulation) (s : State) (k : PacketKind) : Nat :=
  ∑ p ∈ range sim.fabric.portCount, if (s.port p).busy then kindBytes k [(s.port p).inFlight] else 0

/-- Bytes in pending `arrive` events. -/
def flyingBytes (s : State) (k : PacketKind) : Nat :=
  kindBytes k (s.queue.agenda.filterMap Event.carried)

theorem sum_arrivals (k : PacketKind) {n : Nat} {l : List Event}
    (h : ∀ e ∈ l, ∀ p x, e.body = .arrive p x → p < n) :
    ∑ p ∈ range n, kindBytes k ((l.filterMap (Event.arrival p)).map Prod.snd) =
      kindBytes k (l.filterMap Event.carried) := by
  induction l with
  | nil => simp
  | cons e l ih =>
    have ih := ih fun e' he' => h e' (List.mem_cons_of_mem _ he')
    by_cases hcar : ∃ p x, e.body = .arrive p x
    · obtain ⟨p, x, hb⟩ := hcar
      have hp := h e (List.mem_cons_self ..) p x hb
      have hself : e.arrival p = some (e.time, x) := by
        unfold Event.arrival
        rw [hb]
        exact if_pos rfl
      have hother : ∀ q, q ≠ p → e.arrival q = none := by
        intro q hq
        unfold Event.arrival
        rw [hb]
        exact if_neg (Ne.symm hq)
      have hx : e.carried = some x := by
        unfold Event.carried
        rw [hb]
      have hsum := sum_range_of_change
        (F := fun q => kindBytes k ((l.filterMap (Event.arrival q)).map Prod.snd))
        (G := fun q => kindBytes k (((e :: l).filterMap (Event.arrival q)).map Prod.snd)) hp
        fun q hq => by rw [List.filterMap_cons_none (hother q hq)]
      rw [List.filterMap_cons_some hself, List.map_cons, kindBytes_cons] at hsum
      rw [List.filterMap_cons_some hx, kindBytes_cons]
      dsimp only at hsum
      omega
    · have hnone : ∀ p, e.arrival p = none := by
        intro p
        unfold Event.arrival
        split
        · next q x hb => exact absurd ⟨q, x, hb⟩ hcar
        · rfl
      have hx : e.carried = none := by
        unfold Event.carried
        split
        · next q x hb => exact absurd ⟨q, x, hb⟩ hcar
        · rfl
      rw [List.filterMap_cons_none hx, ← ih]
      exact sum_congr rfl fun p _ => by rw [List.filterMap_cons_none (hnone p)]

theorem sum_onLink {sim : Simulation} {s : State} (k : PacketKind)
    (h : ∀ e ∈ s.queue.agenda, ∀ p x, e.body = .arrive p x → p < sim.fabric.portCount) :
    ∑ p ∈ range sim.fabric.portCount, kindBytes k (s.onLink p) =
      queuedBytes sim s k + transmittingBytes sim s k + flyingBytes s k := by
  have hfly := sum_arrivals k h
  unfold queuedBytes transmittingBytes flyingBytes
  rw [← hfly, ← sum_add_distrib, ← sum_add_distrib]
  refine sum_congr rfl fun p _ => ?_
  unfold State.onLink wire EventQueue.arrivals PortState.backlog
  rw [kindBytes_append, kindBytes_append]
  split
  · omega
  · rw [kindBytes_nil]
    omega

theorem mem_onLink_of_agenda {s : State} {e : Event} (he : e ∈ s.queue.agenda) {p : PortId}
    {x : Packet} (hb : e.body = .arrive p x) : x ∈ s.onLink p := by
  have hself : e.arrival p = some (e.time, x) := by
    unfold Event.arrival
    rw [hb]
    exact if_pos rfl
  refine List.mem_append_left _ (List.mem_map.mpr ⟨(e.time, x), ?_, rfl⟩)
  exact List.mem_filterMap.mpr ⟨e, he, hself⟩

end FabricSim
