import FabricSim.Core.Transit
import FabricSim.Topology.LeafSpinePaths

/-!
# Routing safety

What happens to a packet between its emission and its end. `Fate` follows one
packet through a run: it is on its way, it was refused by a full queue, or it
arrived at its target over exactly as many links as the hop distance. No step
loses track of a packet (`Fate.step`), and a drained run leaves none on its way.
-/

namespace FabricSim

open State

/-! ## Packets stay -/

namespace State

variable {sim : Simulation} {s : State} {e : Event} {queue : EventQueue}

/-- Taking an event that is no arrival leaves the links alone. -/
theorem onLink_advance (hpop : s.queue.pop = some (e, queue))
    (hb : ∀ p x, e.body ≠ .arrive p x) (p : PortId) : (s.advance e queue).onLink p = s.onLink p := by
  have hnone : e.arrival p = none := by
    unfold Event.arrival
    split
    · next q x hx => exact absurd hx (hb q x)
    · rfl
  unfold onLink wire
  rw [EventQueue.arrivals_of_pop hpop, hnone]
  rfl

theorem mem_onLink_enqueue (hc : s.Coherent) {p q : PortId} {x y : Packet} (hy : y ∈ s.onLink q) :
    y ∈ (s.enqueue sim p x).onLink q := by
  rw [onLink_enqueue sim hc.idle]
  split
  · exact List.mem_append_left _ hy
  · exact hy

/-- An offered packet is at the link or was refused. -/
theorem offered_fate (sim : Simulation) (hc : s.Coherent) (p : PortId) (x : Packet) :
    x ∈ (s.enqueue sim p x).onLink p ∨
      .offered s.now p x false ∈ (s.enqueue sim p x).trace := by
  by_cases hfull : (s.port p).queue.count = (s.port p).queue.capacity
  · refine Or.inr ?_
    rw [enqueue_full sim s p x hfull]
    simp
  · refine Or.inl ?_
    rw [onLink_enqueue sim hc.idle, if_pos ⟨rfl, hfull⟩]
    simp

/-- Nothing is at a link once the schedule is empty. -/
theorem Drained.onLink (hd : s.Drained) (hc : s.Coherent) (p : PortId) : s.onLink p = [] := by
  have hag := EventQueue.agenda_of_empty hd
  have hbusy : (s.port p).busy = false := by
    by_contra hb
    have hlen := hc.tx p
    rw [if_pos (by simpa using hb)] at hlen
    unfold EventQueue.completions at hlen
    rw [hag] at hlen
    exact absurd hlen (by simp)
  unfold State.onLink wire EventQueue.arrivals PortState.backlog
  rw [hag, hbusy, hc.idle p hbusy]
  rfl

end State

/-! ## The fate of a packet -/

/-- What `on_arrive` relies on when it handles packet `x` at the end of link
`p`, and what it shows of the packet's route. -/
structure SafeArrival (sim : Simulation) (p : PortId) (x : Packet) : Prop where
  candidates : (sim.fabric.node (sim.fabric.port p).peerNode).isHost = false →
    sim.routes.candidates (sim.fabric.port p).peerNode (routeOf sim x).1 ≠ []
  host : (sim.fabric.node (sim.fabric.port p).peerNode).isHost = true →
    (sim.fabric.port p).peerNode = sim.target x ∧
      (p :: x.tag.route).length = sim.hops x.flow
  route : sim.fabric.Trail (sim.source x) (sim.target x) (p :: x.tag.route)
  no_loop : (sim.fabric.visited (sim.source x) (p :: x.tag.route)).Nodup
  no_other_host : ∀ q ∈ x.tag.route,
    (sim.fabric.node (sim.fabric.port q).peerNode).isHost = false

theorem OnWay.safe {sim : Simulation} (hr : sim.Routed) {p : PortId} {x : Packet}
    (h : OnWay sim p x) : SafeArrival sim p x where
  candidates :=
    hr.steered.found _ _ (hr.wellFormed.peer_lt h.trail.1).2.1 (hr.routeOf_lt h.flow_lt)
  host := by
    intro hh
    have hend := h.trail.end_host hr.wellFormed hr.connected hr.singlePort (h.target_lt hr) hh
    refine ⟨hend, ?_⟩
    have hlen := h.trail.length_add_dist
    have hzero : sim.fabric.graph.dist (sim.fabric.endOf (sim.source x) (p :: x.tag.route))
        (sim.target x) = 0 := by
      show sim.fabric.graph.dist (sim.fabric.port p).peerNode _ = 0
      rw [hend]
      exact SimpleGraph.dist_self
    rw [hzero, sim.dist_source_target] at hlen
    exact hlen
  route := h.trail
  no_loop := h.trail.nodup
  no_other_host := h.switches

/-- Where an emitted packet is in state `s`. -/
inductive Fate (sim : Simulation) (s : State) (x : Packet) : Prop where
  | onWay (p : PortId) (y : Packet) (hy : y ∈ s.onLink p) (hcore : y.core = x.core)
  | dropped (t : Nat) (p : PortId) (y : Packet) (ht : .offered t p y false ∈ s.trace)
      (hcore : y.core = x.core)
  | arrived (e : Event) (p : PortId) (y : Packet) (he : .dispatched e ∈ s.trace)
      (hb : e.body = .arrive p y) (hcore : y.core = x.core)
      (htarget : (sim.fabric.port p).peerNode = sim.target x)
      (hsafe : SafeArrival sim p y) (hlinks : (p :: y.tag.route).length = sim.hops x.flow)

namespace Fate

variable {sim : Simulation} {policy : RoutingPolicy} {s s' : State} {x : Packet}

theorem mono (h : Fate sim s x) (hl : ∀ p, ∀ y ∈ s.onLink p, Fate sim s' y)
    (htr : ∀ o ∈ s.trace, o ∈ s'.trace) : Fate sim s' x := by
  cases h with
  | onWay p y hy hcore =>
    cases hl p y hy with
    | onWay q z hz hc => exact .onWay q z hz (hc.trans hcore)
    | dropped t q z ht hc => exact .dropped t q z ht (hc.trans hcore)
    | arrived e q z he hb hc htarget hsafe hlinks =>
      obtain ⟨hf, -, -, hk, -, -⟩ := Packet.core_inj hcore
      refine .arrived e q z he hb (hc.trans hcore) ?_ hsafe (hf ▸ hlinks)
      rw [htarget]
      unfold Simulation.target
      rw [hf, hk]
  | dropped t p y ht hcore => exact .dropped t p y (htr _ ht) hcore
  | arrived e p y he hb hcore htarget hsafe hlinks =>
    exact .arrived e p y (htr _ he) hb hcore htarget hsafe hlinks

theorem here {p : PortId} {y : Packet} (hy : y ∈ s.onLink p) : Fate sim s y := .onWay p y hy rfl

/-- An endpoint operation keeps track of every packet, the one it emits
included. -/
theorem micro {f : FlowId} (hc : s.Coherent) (hm : Micro sim f s s') :
    (∀ x, Fate sim s x → Fate sim s' x) ∧
      ∀ t x, .emitted t x ∈ s'.trace → .emitted t x ∈ s.trace ∨ Fate sim s' x := by
  have htr : ∀ o ∈ s.trace, o ∈ s'.trace := by
    obtain ⟨l, hl⟩ := hm.trace
    intro o ho
    rw [hl]
    exact List.mem_append_right _ ho
  rcases hm.net with ⟨hnet, -, hem, -⟩ | ⟨s₁, pkt, hnet, -, hnow, -, htr₁, rfl⟩
  · refine ⟨fun x h => h.mono (fun p y hy => here (p := p) ?_) htr,
      fun t x hx => Or.inl (hem t x hx)⟩
    rw [hnet.onLink]
    exact hy
  · have hc₁ := hnet.coherent hc
    refine ⟨fun x h => h.mono (fun p y hy => here (p := p) ?_) htr, fun t x hx => ?_⟩
    · refine mem_onLink_enqueue hc₁ ?_
      rw [hnet.onLink]
      exact hy
    · obtain ⟨room, he⟩ := enqueue_trace sim s₁ (nic sim pkt) pkt
      rw [he, htr₁] at hx
      rcases List.mem_cons.mp hx with hx | hx
      · exact absurd hx (by simp)
      · rcases List.mem_cons.mp hx with hx | hx
        · obtain ⟨-, rfl⟩ : t = s.now ∧ x = pkt := by simpa using hx
          rcases offered_fate sim hc₁ (nic sim x) x with h | h
          · exact Or.inr (here h)
          · exact Or.inr (.dropped _ _ x h rfl)
        · exact Or.inl hx

theorem micros {f : FlowId} (hc : s.Coherent) (hm : Micros sim f s s') :
    (∀ x, Fate sim s x → Fate sim s' x) ∧
      ∀ t x, .emitted t x ∈ s'.trace → .emitted t x ∈ s.trace ∨ Fate sim s' x := by
  refine (hm.preserve (P := fun s' => s'.Coherent ∧ (∀ x, Fate sim s x → Fate sim s' x) ∧
    ∀ t x, .emitted t x ∈ s'.trace → .emitted t x ∈ s.trace ∨ Fate sim s' x) ?_
    ⟨hc, fun _ h => h, fun _ _ h => Or.inl h⟩).2
  rintro s₁ s₂ hm ⟨hc₁, hold, hnew⟩
  obtain ⟨h1, h2⟩ := micro hc₁ hm
  refine ⟨hm.coherent hc₁, fun x h => h1 x (hold x h), fun t x hx => ?_⟩
  rcases h2 t x hx with hx | hx
  · exact (hnew t x hx).imp_right (h1 x)
  · exact Or.inr hx

/-- A turn of the hot loop keeps track of every packet. -/
theorem step (hr : sim.Routed) (hm : policy.Member) (hs : sim.Reachable policy s) {e : Event}
    {queue : EventQueue} (hpop : s.queue.pop = some (e, queue))
    (h : ∀ t x, .emitted t x ∈ s.trace → Fate sim s x) :
    ∀ t x, .emitted t x ∈ ((s.advance e queue).dispatch sim policy e.body).trace →
      Fate sim ((s.advance e queue).dispatch sim policy e.body) x := by
  have hc := hs.coherent
  have htr : ∀ o ∈ (s.advance e queue).trace,
      o ∈ ((s.advance e queue).dispatch sim policy e.body).trace := by
    obtain ⟨l, hl⟩ := dispatch_trace sim policy (s.advance e queue) e.body
    intro o ho
    rw [hl]
    exact List.mem_append_right _ ho
  -- it is enough to follow the packets that were at a link, and the new ones
  suffices hfollow : (∀ p, ∀ y ∈ s.onLink p,
      Fate sim ((s.advance e queue).dispatch sim policy e.body) y) ∧
      ∀ t x, .emitted t x ∈ ((s.advance e queue).dispatch sim policy e.body).trace →
        .emitted t x ∈ s.trace ∨ Fate sim ((s.advance e queue).dispatch sim policy e.body) x by
    intro t x hx
    rcases hfollow.2 t x hx with hx | hx
    · exact (h t x hx).mono hfollow.1 fun o ho => htr o (by simp [ho])
    · exact hx
  rcases dispatch_cases sim policy (s.advance e queue) e.body with
    ⟨p₀, hb, heq⟩ | ⟨p₀, pkt, hb, hsw, heq⟩ | ⟨f, s₁, hnet, -, htr₁, -, -, -, -, -, hmic, hb⟩
  · rw [heq]
    refine ⟨fun p y hy => here (p := p) ?_, fun t x hx => Or.inl ?_⟩
    · refine (onLink_onTxComplete sim (advance_finishing hc hpop hb) p).mem_iff.mpr ?_
      rw [onLink_advance_txComplete hpop hb]
      exact hy
    · rcases onTxComplete_cases sim (s.advance e queue) p₀ with ⟨-, h'⟩ | ⟨-, h'⟩
      all_goals
        rw [h'] at hx
        simpa using hx
  · rw [heq] at htr ⊢
    have hc' : (s.advance e queue).Coherent := hc.advance hpop (by rw [hb]; simp)
    refine ⟨fun p y hy => ?_, fun t x hx => Or.inl ?_⟩
    · rw [onLink_advance_arrive hpop hb] at hy
      have hstay : y ∈ (s.advance e queue).onLink p → Fate sim ((s.advance e queue).enqueue sim
          (nextPort sim policy (s.advance e queue) p₀ pkt) (forwarded p₀ pkt)) y :=
        fun hy => here (mem_onLink_enqueue hc' hy)
      split at hy
      · rcases List.mem_cons.mp hy with rfl | hy
        · -- the packet that is forwarded
          rcases offered_fate sim hc' (nextPort sim policy (s.advance e queue) p₀ y)
            (forwarded p₀ y) with hf | hf
          · exact .onWay _ _ hf rfl
          · exact .dropped _ _ _ hf rfl
        · exact hstay hy
      · exact hstay hy
    · obtain ⟨room, he⟩ := enqueue_trace sim (s.advance e queue)
        (nextPort sim policy (s.advance e queue) p₀ pkt) (forwarded p₀ pkt)
      rw [he] at hx
      simpa using hx
  · have hc₁ : s₁.Coherent := by
      refine hnet.coherent (hc.advance hpop ?_)
      rcases hb with hb | ⟨idx, a, hb⟩ | ⟨p, pkt, hb, -, -⟩ <;> simp [hb]
    obtain ⟨hold, hnew⟩ := micros hc₁ hmic
    refine ⟨fun p y hy => ?_, fun t x hx => ?_⟩
    · have hstay : y ∈ (s.advance e queue).onLink p →
          Fate sim ((s.advance e queue).dispatch sim policy e.body) y := by
        intro hy
        refine hold y (here (p := p) ?_)
        rw [hnet.onLink]
        exact hy
      rcases hb with hb | ⟨idx, a, hb⟩ | ⟨p₀, pkt, hb, -, hhost⟩
      · exact hstay (by rw [onLink_advance hpop (by rw [hb]; simp)]; exact hy)
      · exact hstay (by rw [onLink_advance hpop (by rw [hb]; simp)]; exact hy)
      · have hon := hs.onWay hr hm p y hy
        rw [onLink_advance_arrive hpop hb] at hy
        split at hy
        · next hp =>
          subst hp
          rcases List.mem_cons.mp hy with rfl | hy
          · -- the packet that arrives
            have hsafe := hon.safe hr
            exact .arrived e p y (htr _ (by simp)) hb rfl (hsafe.host hhost).1 hsafe
              (hsafe.host hhost).2
          · exact hstay hy
        · exact hstay hy
    · rcases hnew t x hx with hx | hx
      · rw [htr₁] at hx
        exact Or.inl (by simpa using hx)
      · exact Or.inr hx

end Fate

theorem Simulation.Reachable.fate {sim : Simulation} {policy : RoutingPolicy} {s : State}
    (h : sim.Reachable policy s) (hr : sim.Routed) (hm : policy.Member) :
    ∀ t x, .emitted t x ∈ s.trace → Fate sim s x :=
  Simulation.Reachable.invariant (P := fun s => ∀ t x, .emitted t x ∈ s.trace → Fate sim s x)
    (fun _ _ _ hx => absurd hx List.not_mem_nil)
    (fun _ _ _ hs h hpop => Fate.step hr hm hs hpop h) h

/-- In every state of every run: whatever `on_arrive` handles next finds a
candidate at a switch and its own target at a host; every packet emitted so far
is on its way, was dropped, or arrived at its target over exactly as many links
as the hop distance, never passing a node twice nor another host; and a drained
run leaves no packet on its way. -/
theorem routing_safety (sim : Simulation) (policy : RoutingPolicy) (hr : sim.Routed)
    (hm : policy.Member) {s : State} (hs : sim.Reachable policy s) :
    (∀ e queue, s.queue.pop = some (e, queue) → ∀ p x, e.body = .arrive p x →
      SafeArrival sim p x) ∧
    (∀ t x, .emitted t x ∈ s.trace → Fate sim s x) ∧
    (s.Drained → ∀ p, s.onLink p = []) :=
  ⟨fun _ _ hpop p x hb => (hs.onWay hr hm p x (mem_onLink_of_arrive hpop hb)).safe hr,
    hs.fate hr hm, fun hd => hd.onLink hs.coherent⟩

/-- Two hosts on a leaf, after five dispatches. -/
theorem routing_safety_pair :
    let s := (Pair.simulation.beginRun Pair.fresh).runFor Pair.simulation StaticFirstPolicy 5
    (∀ e queue, s.queue.pop = some (e, queue) → ∀ p x, e.body = .arrive p x →
      SafeArrival Pair.simulation p x) ∧
    (∀ t x, .emitted t x ∈ s.trace → Fate Pair.simulation s x) ∧
    (s.Drained → ∀ p, s.onLink p = []) :=
  routing_safety Pair.simulation StaticFirstPolicy Pair.routed staticFirst_member
    ((Simulation.Reachable.begin _).runFor 5)

namespace Shortcut

/-! A leaf whose row of the table begins `2 ^ 32` entries behind that of leaf 0: where it
should find its uplinks towards host 0, it reads leaf 0's own cell. -/

def config : LeafSpineConfig where
  spineCount := 61455
  leafCount := 274
  hostsPerLeaf := 1

/-- Host 256 and its leaf, and host 0 and its leaf. -/
def source : NodeId := 61985
def leaf : NodeId := 61711
def target : NodeId := 61729
def home : NodeId := 61455

def sourceNic : PortId := 33677870
def targetNic : PortId := 33677614

/-- From there to host 0. -/
def downlink : PortId := 16900125

def built : Fabric := (LeafSpine.builder config).build

theorem spines_pos : 0 < config.spineCount := by decide
theorem leaves_pos : 0 < config.leafCount := by decide
theorem hosts_pos : 0 < config.hostsPerLeaf := by decide

theorem valid : (LeafSpine.builder config).Valid := LeafSpine.valid hosts_pos

/-- The cell of leaf 0 for its own host. -/
theorem nextHopsTo_home : RouteTable.nextHopsTo built home 0 = [downlink] := by
  have hcell := LeafSpine.nextHopsTo_home (t := 0) hosts_pos spines_pos leaves_pos
    (by decide)
  have hfirst := LeafSpine.firstPort_leaf (l := 0) hosts_pos (by decide)
  rw [show config.spineCount + 0 / config.hostsPerLeaf = config.spineCount + 0 by rfl, hfirst]
    at hcell
  exact hcell

theorem params_eq {p : PortId} (hp : p < built.portCount) :
    (built.port p).rate = gbps 100 ∧ (built.port p).propDelayNs = 100 ∧
      (built.port p).queueCapacity = 128 := by
  have hall : ∀ e ∈ (LeafSpine.builder config).edges, e.params = {} := by
    intro e he
    rcases (LeafSpine.mem_edges hosts_pos).mp he with ⟨l, s, -, -, rfl⟩ | ⟨h, -, rfl⟩ <;> rfl
  exact FabricBuilder.build_params valid hall hp

/-- What a run of one packet looks up. -/
def nics : List (NodeId × PortId) := [(source, sourceNic), (target, targetNic)]

def links : List (PortId × NodeId) := [(sourceNic, leaf), (targetNic, home), (downlink, target)]

def fabric : Fabric := built.written {} nics [leaf] links

theorem isHost_iff (u : NodeId) : (built.node u).isHost = true ↔ 61729 ≤ u ∧ u < 62003 :=
  (LeafSpine.switchesFirst hosts_pos).isHost_iff u

theorem neighbours_source : built.neighbours source = [leaf] :=
  LeafSpine.neighbours_host (h := 256) hosts_pos (by decide)

theorem neighbours_target : built.neighbours target = [home] :=
  LeafSpine.neighbours_host (h := 0) hosts_pos (by decide)

theorem node_source : built.node source = ⟨sourceNic, 1, true⟩ ∧ built.portsOf source = [sourceNic] :=
  FabricBuilder.node_single valid ((isHost_iff source).mpr (by decide)) neighbours_source
    (LeafSpine.firstPort_host (h := 256) hosts_pos (by decide))

theorem node_target : built.node target = ⟨targetNic, 1, true⟩ ∧ built.portsOf target = [targetNic] :=
  FabricBuilder.node_single valid ((isHost_iff target).mpr (by decide)) neighbours_target
    (LeafSpine.firstPort_host (h := 0) hosts_pos (by decide))

theorem node_leaf : (built.node leaf).isHost = false := by
  rw [Bool.eq_false_iff]
  exact fun h => absurd ((isHost_iff leaf).mp h) (by decide)

/-- Where a port that a node has alone, or alone in a cell, leads. -/
theorem link_eq {u v : NodeId} {p : PortId} {ports : List PortId} {nodes : List NodeId}
    (hports : ports = [p]) (hnodes : nodes = [v])
    (hpeers : ports.map (fun p => (built.port p).peerNode) = nodes) (hp : p ∈ built.portsOf u) :
    (built.port p).peerNode = v ∧ (built.port p).rate = gbps 100 ∧
      (built.port p).propDelayNs = 100 ∧ (built.port p).queueCapacity = 128 := by
  rw [hports, hnodes] at hpeers
  exact ⟨List.head_eq_of_cons_eq hpeers,
    params_eq ((FabricBuilder.build_wellFormed valid).port_lt u p hp)⟩

theorem shows : built.Shows {} nics [leaf] links := by
  -- two links are those of the hosts, the third is the only entry of leaf 0's own cell
  have hup := link_eq node_source.2 neighbours_source rfl
    (node_source.2 ▸ List.mem_singleton.mpr rfl)
  have hback := link_eq node_target.2 neighbours_target rfl
    (node_target.2 ▸ List.mem_singleton.mpr rfl)
  have hdown := link_eq (u := home) nextHopsTo_home
    (LeafSpine.closer_leaf_home (t := 0) hosts_pos (by decide))
    (LeafSpine.map_peer_nextHopsTo (t := 0) (u := home) hosts_pos spines_pos leaves_pos
      (by decide) (by decide))
    ((RouteTable.nextHops_sublist _ _ _).subset (nextHopsTo_home ▸ List.mem_singleton.mpr rfl))
  have hnodes : built.Shows {} nics [leaf] [] :=
    ((Fabric.Shows.empty.consHost node_target).consHost node_source).consSwitch node_leaf
  exact ((hnodes.consLink hdown).consLink hback).consLink hup

theorem fabric_eq : fabric = built := shows.written_eq

/-- One packet from host 256 to host 0. -/
def flow : FlowSpec where
  src := source
  dst := target
  sizeBytes := 1500

def simulation : Simulation where
  fabric := fabric
  routes := RouteTable.buildShortestPath fabric
  transport := { rtoNs := 100000 }
  specs := [flow]
  accepted := by
    intro i hi
    obtain rfl : i = 0 := Nat.lt_one_iff.mp hi
    show flow.Accepted fabric 0
    decide +kernel

theorem wired : simulation.Wired := by
  have hconnected : fabric.Connected := by
    rw [fabric_eq]
    exact LeafSpine.connected spines_pos leaves_pos hosts_pos
  have hsingle : fabric.SinglePortHosts := by
    rw [fabric_eq]
    exact LeafSpine.singlePortHosts hosts_pos
  exact ⟨⟨_, valid, fabric_eq⟩, hconnected, hsingle, by simp only [simulation]⟩

/-- The places of the two cells differ by `2 ^ 32`. -/
theorem head_candidates :
    (simulation.routes.candidates leaf 0).head? = some downlink := by
  have hsource := LeafSpine.place_leaf (l := 256) hosts_pos spines_pos leaves_pos
    (by decide)
  have htarget := LeafSpine.place_leaf (l := 0) hosts_pos spines_pos leaves_pos
    (by decide)
  have hhosts : built.hostCount = 274 := (LeafSpine.switchesFirst hosts_pos).hostCount
  have hnodes : built.nodeCount = 62003 := (LeafSpine.switchesFirst hosts_pos).nodeCount
  have hlen : (RouteTable.nextHopsTo built leaf 0).length = 61455 := by
    have haway := LeafSpine.closer_leaf_away (t := 0) (l := 256) hosts_pos
      (by decide) (by decide)
    refine (LeafSpine.length_nextHopsTo (t := 0) (u := leaf) hosts_pos spines_pos
      leaves_pos (by decide) (by decide)).trans ?_
    exact (congrArg List.length haway).trans List.length_range
  show ((RouteTable.buildShortestPath fabric).candidates leaf 0).head? = _
  rw [fabric_eq]
  refine RouteTable.head_candidates (v := home) (g := 0) (by rw [hnodes]; decide)
    (by rw [hhosts]; decide) (by rw [hnodes]; decide) (by rw [hhosts]; decide) ?_ ?_ ?_
    nextHopsTo_home
  · rw [hhosts]
    have hcells : (fun c => (RouteTable.perCell built c).length) = LeafSpine.cellLength config :=
      rfl
    rw [hcells,
      show leaf * 274 + 0 = (config.spineCount + 256) * LeafSpine.hostTotal config by decide,
      show home * 274 + 0 = (config.spineCount + 0) * LeafSpine.hostTotal config by decide,
      hsource, htarget]
    decide
  · intro hnil
    rw [hnil] at hlen
    nomatch hlen
  · rw [hlen]
    decide

/-! ### The run -/

def packet : Packet := ⟨0, 0, 1500, .data, 0, ⟨0, 0, []⟩⟩

/-- The packet is on its way to its leaf. -/
def sent : State := (simulation.beginRun Pair.fresh).runFor simulation StaticFirstPolicy 2

def arrival : Event × EventQueue := sent.queue.pop.get (by unfold sent; decide +kernel)

theorem pop_sent : sent.queue.pop = some arrival := (Option.some_get _).symm

theorem arrival_body : arrival.1.body = .arrive sourceNic packet := by
  unfold arrival sent
  decide +kernel

/-- The leaf passes it to the wrong port. -/
def passed : State :=
  (sent.advance arrival.1 arrival.2).enqueue simulation downlink (forwarded sourceNic packet)

theorem step_sent : simulation.Step StaticFirstPolicy sent passed := by
  have hindex : (routeOf simulation packet).1 = 0 := by
    have hzero : built.hostIndex target = 0 :=
      (LeafSpine.switchesFirst hosts_pos).hostIndex valid (i := 0) (by decide)
    rw [simulation.routeOf_fst, show simulation.target packet = target by decide +kernel,
      show simulation.fabric = built from fabric_eq, hzero]
  have hnext : nextPort simulation StaticFirstPolicy (sent.advance arrival.1 arrival.2) sourceNic
      packet = downlink := by
    show (simulation.routes.candidates leaf (routeOf simulation packet).1).getD 0 0 = downlink
    rw [hindex, List.getD_eq_getElem?_getD, ← List.head?_eq_getElem?, head_candidates]
    rfl
  refine Simulation.step_eq_some_iff.mpr ⟨arrival.1, arrival.2, pop_sent, ?_⟩
  rw [arrival_body]
  show _ = (sent.advance arrival.1 arrival.2).onArrive simulation StaticFirstPolicy sourceNic packet
  rw [onArrive_switch (by decide +kernel), hnext]
  rfl

theorem reachable_passed : simulation.Reachable StaticFirstPolicy passed :=
  ((Simulation.Reachable.begin Pair.fresh).runFor 2).next step_sent

/-- The packet has crossed the wrong link. -/
def crossed : State := passed.runFor simulation StaticFirstPolicy 1

theorem reachable_crossed : simulation.Reachable StaticFirstPolicy crossed :=
  reachable_passed.runFor 1

def delivery : Event × EventQueue :=
  crossed.queue.pop.get (by unfold crossed passed arrival sent; decide +kernel)

theorem pop_crossed : crossed.queue.pop = some delivery := (Option.some_get _).symm

theorem delivery_body : delivery.1.body = .arrive downlink (forwarded sourceNic packet) := by
  unfold delivery crossed passed arrival sent
  decide +kernel

theorem hops_eq : simulation.hops 0 = 4 := by
  show fabric.graph.dist source target = 4
  rw [fabric_eq]
  exact LeafSpine.dist_hosts (i := 256) (j := 0) spines_pos hosts_pos (by decide)
    (by decide) (by decide)

end Shortcut

/-- Where the table has `2 ^ 32` entries or more, its offsets wrap: a packet from host 256 to
host 0, four hops away, arrives over two links. -/
theorem routing_safety_wrapped : ¬ ∀ (sim : Simulation) (policy : RoutingPolicy), sim.Wired →
    policy.Member → ∀ s, sim.Reachable policy s →
      (∀ e queue, s.queue.pop = some (e, queue) → ∀ p x, e.body = .arrive p x →
        SafeArrival sim p x) ∧
      (∀ t x, .emitted t x ∈ s.trace → Fate sim s x) ∧
      (s.Drained → ∀ p, s.onLink p = []) := by
  intro h
  have hsafe := (h _ _ Shortcut.wired staticFirst_member _ Shortcut.reachable_crossed).1 _ _
    Shortcut.pop_crossed _ _ Shortcut.delivery_body
  have hlinks := (hsafe.host (by decide +kernel)).2
  rw [show (forwarded Shortcut.sourceNic Shortcut.packet).flow = 0 from rfl, Shortcut.hops_eq]
    at hlinks
  exact absurd hlinks (by decide)

end FabricSim
