import FabricSim.Core.Pair
import FabricSim.Core.Run
import FabricSim.Routing.Trail

/-!
# Packets in transit

`InRange`: every flow an event or an emitted packet names is a flow of the
simulation. `AtPort`: packets are at ports of the fabric, whatever cells the table's
offsets lead to. `OnWay`, where they lead to the switch's own: the links a packet has
crossed, with the one it is at, form a trail towards its target through switches only.
All hold in every reachable state, the last two by `Reachable.located`. `Accounted` is the other half: an
emitted packet is at a link, was refused by a full queue, or arrived at a host.
-/

namespace FabricSim

open State

/-- The flow whose sender an event wakes. -/
def EventBody.sender : EventBody → Option FlowId
  | .inject f => some f
  | .timeout f _ _ => some f
  | _ => none

structure InRange (sim : Simulation) (s : State) : Prop where
  events : ∀ e ∈ s.queue.agenda, ∀ f ∈ e.body.sender, f < sim.flowCount
  emitted : ∀ t x, .emitted t x ∈ s.trace → x.flow < sim.flowCount

namespace InRange

variable {sim : Simulation} {policy : RoutingPolicy} {s s' : State} {f : FlowId}

theorem micro (h : InRange sim s) (hf : f < sim.flowCount) (hm : Micro sim f s s') :
    InRange sim s' := by
  have hpush : ∀ {q : EventQueue} {t : Nat} {b : EventBody}, (∀ g ∈ b.sender, g < sim.flowCount) →
      (∀ e ∈ q.agenda, ∀ g ∈ e.body.sender, g < sim.flowCount) →
      ∀ e ∈ (q.push t b).agenda, ∀ g ∈ e.body.sender, g < sim.flowCount := by
    intro q t b hb hq e he
    rcases EventQueue.mem_agenda_push.mp he with rfl | he
    · exact hb
    · exact hq e he
  have henq : ∀ {s₁ : State} (p : PortId) (pkt : Packet),
      (∀ e ∈ s₁.queue.agenda, ∀ g ∈ e.body.sender, g < sim.flowCount) →
      ∀ e ∈ (s₁.enqueue sim p pkt).queue.agenda, ∀ g ∈ e.body.sender, g < sim.flowCount := by
    intro s₁ p pkt hq
    rcases enqueue_queue sim s₁ p pkt with h | ⟨t, h⟩ <;> rw [h]
    · exact hq
    · exact hpush (fun g hg => absurd hg (by simp [EventBody.sender])) hq
  refine ⟨?_, ?_⟩
  · cases hm with
    | send idx =>
      unfold State.sendPacket
      refine henq _ _ ?_
      simp only [log_queue, pushAfter_queue, markSent_queue]
      exact hpush (by simpa [EventBody.sender] using hf) h.events
    | ack idx a =>
      unfold State.sendAck
      exact henq _ _ h.events
    | tx g => exact h.events
    | pkt idx g => exact h.events
    | result g _ => exact h.events
    | attempt idx => exact h.events
    | ring slot idx => exact h.events
    | wake t _ => exact hpush (by simpa [EventBody.sender] using hf) h.events
    | release d hd =>
      rw [releaseFlow_queue]
      refine hpush ?_ h.events
      simpa [EventBody.sender] using ((Simulation.mem_dependents sim).mp hd).1
  · intro t x hx
    rcases hm.net with ⟨-, -, hem, -⟩ | ⟨s₁, pkt, -, hfresh, -, -, htr, rfl⟩
    · exact h.emitted t x (hem t x hx)
    · obtain ⟨room, he⟩ := enqueue_trace sim s₁ (nic sim pkt) pkt
      rw [he, htr] at hx
      rcases List.mem_cons.mp hx with hx | hx
      · exact absurd hx (by simp)
      · rcases List.mem_cons.mp hx with hx | hx
        · obtain ⟨-, rfl⟩ : t = s.now ∧ x = pkt := by simpa using hx
          rw [hfresh.flow]
          exact hf
        · exact h.emitted t x hx

theorem step (h : InRange sim s) (hr : sim.Reachable policy s) {e : Event} {queue : EventQueue}
    (hpop : s.queue.pop = some (e, queue)) :
    InRange sim ((s.advance e queue).dispatch sim policy e.body) := by
  have he : e ∈ s.queue.agenda := by
    rw [EventQueue.agenda_of_pop hpop]
    exact List.mem_cons_self ..
  have hadv : InRange sim (s.advance e queue) := by
    refine ⟨fun e' he' => h.events e' ?_, fun t x hx => h.emitted t x (by simpa using hx)⟩
    rw [EventQueue.agenda_of_pop hpop]
    exact List.mem_cons_of_mem _ he'
  rcases dispatch_cases sim policy (s.advance e queue) e.body with
    ⟨p, hb, heq⟩ | ⟨p, pkt, hb, -, heq⟩ | ⟨f, s₁, hnet, -, htr, -, hq, -, -, -, hm, hb⟩
  · rw [heq]
    refine ⟨?_, ?_⟩
    · rcases onTxComplete_cases sim (s.advance e queue) p with ⟨-, h⟩ | ⟨-, h⟩ <;> rw [h]
      · intro e' he'
        simp only [modifyPort_queue, sendOff_queue, EventQueue.mem_agenda_push] at he'
        rcases he' with rfl | he'
        · exact fun g hg => absurd hg (by simp [EventBody.sender])
        · exact hadv.events e' he'
      · intro e' he'
        simp only [startTx_queue, sendOff_queue, EventQueue.mem_agenda_push] at he'
        rcases he' with rfl | rfl | he'
        · exact fun g hg => absurd hg (by simp [EventBody.sender])
        · exact fun g hg => absurd hg (by simp [EventBody.sender])
        · exact hadv.events e' he'
    · rcases onTxComplete_cases sim (s.advance e queue) p with ⟨-, h⟩ | ⟨-, h⟩ <;> rw [h]
      · exact hadv.emitted
      · exact hadv.emitted
  · rw [heq]
    refine ⟨?_, ?_⟩
    · rcases enqueue_queue sim (s.advance e queue) (nextPort sim policy (s.advance e queue) p pkt)
        (forwarded p pkt) with h | ⟨t, h⟩ <;> rw [h]
      · exact hadv.events
      · intro e' he'
        rcases EventQueue.mem_agenda_push.mp he' with rfl | he'
        · exact fun g hg => absurd hg (by simp [EventBody.sender])
        · exact hadv.events e' he'
    · intro t x hx
      obtain ⟨room, h⟩ := enqueue_trace sim (s.advance e queue)
        (nextPort sim policy (s.advance e queue) p pkt) (forwarded p pkt)
      rw [h] at hx
      exact hadv.emitted t x (by simpa using hx)
  · have hf : f < sim.flowCount := by
      rcases hb with hb | ⟨idx, a, hb⟩ | ⟨p, pkt, hb, rfl, -⟩
      · exact h.events e he f (by rw [hb]; rfl)
      · exact h.events e he f (by rw [hb]; rfl)
      · -- the packet that arrives was emitted
        obtain ⟨t, x₀, ht, hcore⟩ := hr.genuine p pkt (mem_onLink_of_arrive hpop hb)
        rw [← (Packet.core_inj hcore).1]
        exact h.emitted t x₀ ht
    refine hm.preserve (fun _ _ hm h => h.micro hf hm) ⟨?_, ?_⟩
    · rw [hq]
      exact hadv.events
    · rw [htr]
      exact hadv.emitted

theorem begin (sim : Simulation) (leftover : State) : InRange sim (sim.beginRun leftover) where
  events := by
    intro e he f hf
    obtain ⟨g, hg, -, hb, -⟩ := Simulation.mem_agenda_beginRun leftover he
    rw [hb] at hf
    obtain rfl : g = f := by simpa [EventBody.sender] using hf
    exact hg
  emitted := fun _ _ h => absurd h List.not_mem_nil

end InRange

theorem Simulation.Reachable.inRange {sim : Simulation} {policy : RoutingPolicy} {s : State}
    (h : sim.Reachable policy s) : InRange sim s :=
  Simulation.Reachable.invariant (P := InRange sim) (InRange.begin sim)
    (fun _ _ _ hr hs hpop => hs.step hr hpop) h

theorem Simulation.Reachable.flow_lt {sim : Simulation} {policy : RoutingPolicy} {s : State}
    (h : sim.Reachable policy s) {p : PortId} {x : Packet} (hx : x ∈ s.onLink p) :
    x.flow < sim.flowCount := by
  obtain ⟨t, x₀, ht, hcore⟩ := h.genuine p x hx
  rw [← (Packet.core_inj hcore).1]
  exact h.inRange.emitted t x₀ ht

/-- The flow whose endpoint handles an event. -/
theorem Simulation.Reachable.endpoint_lt {sim : Simulation} {policy : RoutingPolicy} {s : State}
    (h : sim.Reachable policy s) {e : Event} {queue : EventQueue}
    (hpop : s.queue.pop = some (e, queue)) {f : FlowId}
    (hb : e.body = .inject f ∨ (∃ idx a, e.body = .timeout f idx a) ∨
      ∃ p x, e.body = .arrive p x ∧ x.flow = f ∧
        (sim.fabric.node (sim.fabric.port p).peerNode).isHost = true) : f < sim.flowCount := by
  have he : e ∈ s.queue.agenda := by
    rw [EventQueue.agenda_of_pop hpop]
    exact List.mem_cons_self ..
  rcases hb with hb | ⟨idx, a, hb⟩ | ⟨p, x, hb, rfl, -⟩
  · exact h.inRange.events e he f (by rw [hb]; rfl)
  · exact h.inRange.events e he f (by rw [hb]; rfl)
  · exact h.flow_lt (mem_onLink_of_arrive hpop hb)

/-! ## Ports -/

/-- Every switch finds ports for every host, be they its own or not. -/
structure Simulation.Steered (sim : Simulation) : Prop extends sim.Wired where
  found : ∀ u i, u < sim.fabric.nodeCount → i < sim.fabric.hostCount →
    (sim.fabric.node u).isHost = false → sim.routes.candidates u i ≠ []

theorem Simulation.Wired.length_portsOf_le {sim : Simulation} (h : sim.Wired) (u : NodeId) :
    (sim.fabric.portsOf u).length ≤ sim.fabric.portCount := by
  have hwf := h.wellFormed
  obtain ⟨b, hb, hf⟩ := h.built
  have hnodup : (sim.fabric.portsOf u).Nodup := by
    rw [hf, FabricBuilder.build_portsOf hb]
    exact List.nodup_range.map fun i j hij => Nat.add_left_cancel hij
  have hsub := hnodup.subperm fun p hp => List.mem_range.mpr (hwf.port_lt u p hp)
  exact hsub.length_le.trans_eq List.length_range

/-- In the cell of a switch there is always a port. -/
theorem Simulation.Wired.nextHopsTo_ne_nil {sim : Simulation} (h : sim.Wired) {u i : Nat}
    (hu : u < sim.fabric.nodeCount) (hi : i < sim.fabric.hostCount)
    (hsw : (sim.fabric.node u).isHost = false) : RouteTable.nextHopsTo sim.fabric u i ≠ [] := by
  have hhost := h.wellFormed.isHost_hostAt i hi
  refine RouteTable.nextHopsTo_ne_nil h.wellFormed hu
    (h.connected _ _ hu (h.wellFormed.host_lt _ hhost)) ?_
  rintro rfl
  rw [hhost] at hsw
  exact absurd hsw (by simp)

/-- What a switch of a routed simulation looks up is its own cell. -/
theorem Simulation.Routed.candidates_eq {sim : Simulation} (h : sim.Routed) {u i : Nat}
    (hu : u < sim.fabric.nodeCount) (hi : i < sim.fabric.hostCount) :
    sim.routes.candidates u i = RouteTable.nextHopsTo sim.fabric u i := by
  have hc := h.counted
  rw [h.routes] at hc ⊢
  exact RouteTable.candidates_eq_nextHopsTo hc hu hi

theorem Simulation.Routed.steered {sim : Simulation} (h : sim.Routed) : sim.Steered where
  toWired := h.toWired
  found := by
    intro u i hu hi hsw
    rw [h.candidates_eq hu hi]
    exact h.nextHopsTo_ne_nil hu hi hsw

/-- A run of the table is never empty as long as a port is a 32-bit id: it has the length
of its cell wherever the offsets have wrapped to. -/
theorem Simulation.Wired.steered {sim : Simulation} (h : sim.Wired)
    (hports : sim.fabric.portCount < 2 ^ 32) : sim.Steered where
  toWired := h
  found := by
    intro u i hu hi hsw
    have hcell := List.length_pos_of_ne_nil (h.nextHopsTo_ne_nil hu hi hsw)
    have hfew : (RouteTable.nextHopsTo sim.fabric u i).length ≤ sim.fabric.portCount :=
      (RouteTable.nextHops_sublist _ _ _).length_le.trans (h.length_portsOf_le u)
    have hlen := RouteTable.length_candidates hu hi (hfew.trans_lt hports)
    rw [h.routes]
    exact List.ne_nil_of_length_pos (hlen ▸ hcell)

/-- The column a packet is routed by is that of some host. -/
theorem Simulation.Wired.routeOf_lt {sim : Simulation} (h : sim.Wired) {x : Packet}
    (hf : x.flow < sim.flowCount) : (routeOf sim x).1 < sim.fabric.hostCount := by
  have hacc := sim.spec_accepted hf
  unfold routeOf
  cases x.kind with
  | data => exact h.wellFormed.hostIndex_lt _ hacc.dst_host
  | ack => exact h.wellFormed.hostIndex_lt _ hacc.src_host

/-- The port a switch sends a packet to is one of those it found. -/
theorem Simulation.Steered.nextPort_mem {sim : Simulation} (h : sim.Steered)
    {policy : RoutingPolicy} (hm : policy.Member) (s : State) {p : PortId} {x : Packet}
    (hf : x.flow < sim.flowCount) (hu : (sim.fabric.port p).peerNode < sim.fabric.nodeCount)
    (hsw : (sim.fabric.node (sim.fabric.port p).peerNode).isHost = false) :
    nextPort sim policy s p x ∈
      sim.routes.candidates (sim.fabric.port p).peerNode (routeOf sim x).1 :=
  hm s.stats.eventsProcessed _ _ _ s.now (h.found _ _ hu (h.routeOf_lt hf) hsw)

/-- The packet at port `p` is of a flow, and `p` is a port of some node. -/
structure AtPort (sim : Simulation) (p : PortId) (x : Packet) : Prop where
  flow_lt : x.flow < sim.flowCount
  owned : ∃ u, p ∈ sim.fabric.portsOf u

namespace AtPort

variable {sim : Simulation} {policy : RoutingPolicy} {s : State} {p : PortId} {x : Packet}

theorem port_lt (h : AtPort sim p x) (hr : sim.Wired) : p < sim.fabric.portCount := by
  obtain ⟨u, hu⟩ := h.owned
  exact hr.wellFormed.port_lt u p hu

theorem emitted (hr : sim.Wired) (hf : x.flow < sim.flowCount) : AtPort sim (nic sim x) x where
  flow_lt := hf
  owned := by
    have hacc := sim.spec_accepted hf
    unfold nic
    cases x.kind with
    | data => exact ⟨_, hr.singlePort.nic_mem hacc.src_host⟩
    | ack => exact ⟨_, hr.singlePort.nic_mem hacc.dst_host⟩

/-- A switch sends it on to a port that it found. -/
theorem next (h : AtPort sim p x) (hr : sim.Steered) (hm : policy.Member)
    (hsw : (sim.fabric.node (sim.fabric.port p).peerNode).isHost = false) :
    AtPort sim (nextPort sim policy s p x) (forwarded p x) := by
  refine ⟨h.flow_lt, ?_⟩
  obtain ⟨u, hu⟩ := h.owned
  have hmem := hr.nextPort_mem hm s h.flow_lt (hr.wellFormed.peer_lt hu).2.1 hsw
  rw [hr.routes] at hmem
  exact RouteTable.port_of_mem_candidates hmem

end AtPort

theorem Simulation.Reachable.atPort {sim : Simulation} {policy : RoutingPolicy} {s : State}
    (h : sim.Reachable policy s) (hr : sim.Steered) (hm : policy.Member) :
    ∀ p, ∀ x ∈ s.onLink p, AtPort sim p x :=
  Simulation.Reachable.located (N := fun _ p x => AtPort sim p x) (fun _ _ _ _ _ _ hx => hx)
    (fun _ t _ hs ht _ => AtPort.emitted hr.toWired (hs.inRange.emitted t _ ht))
    (fun _ _ _ _ _ _ _ _ hx hsw => hx.next hr hm hsw) h

theorem Simulation.atPort_lt {sim : Simulation} {policy : RoutingPolicy} (hr : sim.Steered)
    (hm : policy.Member) : ∀ s, sim.Reachable policy s →
      ∀ p, ∀ x ∈ s.onLink p, AtPort sim p x ∧ p < sim.fabric.portCount := by
  intro s hs p x hx
  have hat := hs.atPort hr hm p x hx
  exact ⟨hat, hat.port_lt hr.toWired⟩

/-! ## Trails -/

namespace Simulation

variable (sim : Simulation)

/-- The host a packet comes from: acks travel the other way. -/
def source (x : Packet) : NodeId :=
  match x.kind with
  | .data => (sim.spec x.flow).src
  | .ack => (sim.spec x.flow).dst

/-- The host a packet goes to. -/
def target (x : Packet) : NodeId :=
  match x.kind with
  | .data => (sim.spec x.flow).dst
  | .ack => (sim.spec x.flow).src

/-- The hop distance between the ends of a flow. -/
noncomputable def hops (f : FlowId) : Nat :=
  sim.fabric.graph.dist (sim.spec f).src (sim.spec f).dst

/-- The switch column a packet is routed by is its target's. -/
theorem routeOf_fst (x : Packet) :
    (routeOf sim x).1 = sim.fabric.hostIndex (sim.target x) := by
  unfold routeOf target
  cases x.kind <;> rfl

theorem nic_eq (x : Packet) : nic sim x = (sim.fabric.portsOf (sim.source x)).getD 0 0 := by
  unfold nic source
  cases x.kind <;> rfl

theorem dist_source_target (x : Packet) :
    sim.fabric.graph.dist (sim.source x) (sim.target x) = sim.hops x.flow := by
  unfold source target hops
  cases x.kind
  · rfl
  · exact SimpleGraph.dist_comm

variable {sim}

theorem ends_of_flow_lt {x : Packet} (h : x.flow < sim.flowCount) :
    (sim.fabric.node (sim.source x)).isHost = true ∧
      (sim.fabric.node (sim.target x)).isHost = true ∧ sim.source x ≠ sim.target x := by
  have hacc := sim.spec_accepted h
  unfold source target
  cases x.kind
  · exact ⟨hacc.src_host, hacc.dst_host, hacc.src_ne_dst⟩
  · exact ⟨hacc.dst_host, hacc.src_host, hacc.src_ne_dst.symm⟩

end Simulation

/-- The ends of a flow are at least one link apart. -/
theorem Simulation.Wired.hops_pos {sim : Simulation} (h : sim.Wired) {f : FlowId}
    (hf : f < sim.flowCount) : 0 < sim.hops f := by
  have hacc := sim.spec_accepted hf
  have hreach := h.connected _ _ (h.wellFormed.host_lt _ hacc.src_host)
    (h.wellFormed.host_lt _ hacc.dst_host)
  exact hreach.pos_dist_of_ne hacc.src_ne_dst

/-- The packet at link `p` has come to it on a trail towards its target. -/
structure OnWay (sim : Simulation) (p : PortId) (x : Packet) : Prop where
  flow_lt : x.flow < sim.flowCount
  trail : sim.fabric.Trail (sim.source x) (sim.target x) (p :: x.tag.route)
  switches : ∀ q ∈ x.tag.route, (sim.fabric.node (sim.fabric.port q).peerNode).isHost = false

namespace OnWay

variable {sim : Simulation} {policy : RoutingPolicy} {s : State} {p : PortId} {x : Packet}

theorem target_lt (h : OnWay sim p x) (hr : sim.Routed) : sim.target x < sim.fabric.nodeCount :=
  hr.wellFormed.host_lt _ (Simulation.ends_of_flow_lt h.flow_lt).2.1

theorem port_lt (h : OnWay sim p x) (hr : sim.Routed) : p < sim.fabric.portCount :=
  hr.wellFormed.port_lt _ p h.trail.1

/-- All links of its route are links of the fabric. -/
theorem links_lt (h : OnWay sim p x) (hr : sim.Routed) :
    ∀ q ∈ p :: x.tag.route, q < sim.fabric.portCount :=
  fun q hq => h.trail.port_lt hr.wellFormed q hq

/-- A packet emitted at its NIC. -/
theorem emitted (hr : sim.Routed) (hf : x.flow < sim.flowCount) (hroute : x.tag.route = []) :
    OnWay sim (nic sim x) x where
  flow_lt := hf
  trail := by
    obtain ⟨hs, ht, hne⟩ := Simulation.ends_of_flow_lt hf
    rw [hroute, Simulation.nic_eq]
    refine ⟨hr.singlePort.nic_mem hs, ?_, trivial⟩
    exact Fabric.dist_nic hr.wellFormed hr.connected hr.singlePort hs
      (hr.wellFormed.host_lt _ ht) hne
  switches := by
    rw [hroute]
    exact fun q hq => absurd hq List.not_mem_nil

/-- At a switch there are links left. -/
theorem lt_hops (h : OnWay sim p x) (hr : sim.Routed)
    (hsw : (sim.fabric.node (sim.fabric.port p).peerNode).isHost = false) :
    x.tag.route.length + 1 < sim.hops x.flow := by
  have ht := (Simulation.ends_of_flow_lt h.flow_lt).2.1
  have hu := (hr.wellFormed.peer_lt h.trail.1).2.1
  have hne : (sim.fabric.port p).peerNode ≠ sim.target x := by
    intro heq
    rw [heq, ht] at hsw
    exact absurd hsw (by simp)
  have hpos := (hr.connected _ _ hu (h.target_lt hr)).pos_dist_of_ne hne
  have hlen := h.trail.length_add_dist
  rw [sim.dist_source_target] at hlen
  change x.tag.route.length + 1 + sim.fabric.graph.dist (sim.fabric.port p).peerNode _ = _ at hlen
  omega

/-- The switch sends it on along the trail. -/
theorem next (h : OnWay sim p x) (hr : sim.Routed) (hm : policy.Member)
    (hsw : (sim.fabric.node (sim.fabric.port p).peerNode).isHost = false) :
    OnWay sim (nextPort sim policy s p x) (forwarded p x) := by
  obtain ⟨-, ht, -⟩ := Simulation.ends_of_flow_lt h.flow_lt
  have hu := (hr.wellFormed.peer_lt h.trail.1).2.1
  have hmem := hr.steered.nextPort_mem hm s h.flow_lt hu hsw
  rw [Simulation.routeOf_fst, hr.candidates_eq hu (hr.wellFormed.hostIndex_lt _ ht),
    RouteTable.mem_nextHopsTo_iff hr.wellFormed hu, hr.wellFormed.hostAt_hostIndex _ ht] at hmem
  obtain ⟨hp, -, hd⟩ := hmem
  refine ⟨h.flow_lt, ⟨hp, hd, h.trail⟩, fun q hq => ?_⟩
  rcases List.mem_cons.mp hq with rfl | hq
  · exact hsw
  · exact h.switches q hq

end OnWay

theorem Simulation.Routed.srcNic_lt {sim : Simulation} (hr : sim.Routed) {f : FlowId}
    (hf : f < sim.flowCount) : (sim.route f).srcNic < sim.fabric.portCount :=
  (OnWay.emitted hr (x := ⟨f, 0, 0, .data, 0, {}⟩) hf rfl).port_lt hr

theorem Simulation.Routed.dstNic_lt {sim : Simulation} (hr : sim.Routed) {f : FlowId}
    (hf : f < sim.flowCount) : (sim.route f).dstNic < sim.fabric.portCount :=
  (OnWay.emitted hr (x := ⟨f, 0, 0, .ack, 0, {}⟩) hf rfl).port_lt hr

theorem Simulation.Reachable.onWay {sim : Simulation} {policy : RoutingPolicy} {s : State}
    (h : sim.Reachable policy s) (hr : sim.Routed) (hm : policy.Member) :
    ∀ p, ∀ x ∈ s.onLink p, OnWay sim p x :=
  Simulation.Reachable.located (N := fun _ p x => OnWay sim p x) (fun _ _ _ _ _ _ hx => hx)
    (fun _ t _ hs ht hroute => OnWay.emitted hr (hs.inRange.emitted t _ ht) hroute)
    (fun _ _ _ _ _ _ _ _ hx hsw => hx.next hr hm hsw) h

theorem Simulation.onWay_lt {sim : Simulation} {policy : RoutingPolicy} (hr : sim.Routed)
    (hm : policy.Member) : ∀ s, sim.Reachable policy s →
      ∀ p, ∀ x ∈ s.onLink p, OnWay sim p x ∧ p < sim.fabric.portCount := by
  intro s hs p x hx
  have hway := hs.onWay hr hm p x hx
  exact ⟨hway, hway.port_lt hr⟩

/-- Every arrival of the history came on such a trail. -/
theorem Simulation.Reachable.arrivals_onWay {sim : Simulation} {policy : RoutingPolicy} {s : State}
    (h : sim.Reachable policy s) (hr : sim.Routed) (hm : policy.Member) :
    ∀ e, .dispatched e ∈ s.trace → ∀ p x, e.body = .arrive p x → OnWay sim p x := by
  refine Simulation.Reachable.invariant
    (P := fun s => ∀ e, .dispatched e ∈ s.trace → ∀ p x, e.body = .arrive p x → OnWay sim p x)
    (fun _ _ he => absurd he List.not_mem_nil) ?_ h
  intro s e queue hs ih hpop e' he p x hb
  rcases mem_dispatched_step he with rfl | he
  · exact hs.onWay hr hm p x (mem_onLink_of_arrive hpop hb)
  · exact ih e' he p x hb

end FabricSim
