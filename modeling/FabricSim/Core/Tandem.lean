import FabricSim.Core.Order
import FabricSim.Core.Undisturbed

/-!
# A flow on its own

Where a run has one flow, each of its links carries the packets of one kind: the links of
the data and those of the acks are different ports, and no link is crossed twice
(`Lone.link_inj`). So what a link accepts is what arrived over the link before it
(`Tandem`), and the run is two rows of first-come first-served servers, which `Served`
turns into times. A stream that comes to its second link far enough apart waits nowhere
from there on (`Tandem.through`).
-/

namespace FabricSim

open State FifoServer

namespace Simulation

/-- The run has one flow, and packets of it take one path. -/
structure Lone (sim : Simulation) (policy : RoutingPolicy) : Prop where
  routed : sim.Routed
  one : sim.flowCount = 1
  member : policy.Member
  perFlow : policy.PerFlow

/-- The links before the `j`-th, latest first. -/
def crossed (sim : Simulation) (policy : RoutingPolicy) (k : PacketKind) : Nat → List PortId
  | 0 => []
  | j + 1 => sim.link policy 0 k j :: crossed sim policy k j

/-- A packet of the flow at the `j`-th link. -/
def probe (sim : Simulation) (policy : RoutingPolicy) (k : PacketKind) (j : Nat) : Packet :=
  ⟨0, 0, 0, k, 0, { route := sim.crossed policy k j }⟩

theorem length_crossed (sim : Simulation) (policy : RoutingPolicy) (k : PacketKind) (j : Nat) :
    (sim.crossed policy k j).length = j := by
  induction j with
  | zero => rfl
  | succ j ih => exact congrArg Nat.succ ih

namespace Lone

variable {sim : Simulation} {policy : RoutingPolicy} {k k' : PacketKind} {i j : Nat}

theorem flow_lt (h : sim.Lone policy) : 0 < sim.flowCount := h.one ▸ Nat.one_pos

theorem flow_eq (h : sim.Lone policy) {f : FlowId} (hf : f < sim.flowCount) : f = 0 := by
  rw [h.one] at hf
  exact Nat.lt_one_iff.mp hf

theorem hops_pos (h : sim.Lone policy) : 0 < sim.hops 0 := h.routed.hops_pos h.flow_lt

/-- The links of the flow are those of a shortest path. -/
theorem onWay (h : sim.Lone policy) (s : State) (k : PacketKind) (hj : j < sim.hops 0) :
    OnWay sim (sim.link policy 0 k j) (sim.probe policy k j) := by
  induction j with
  | zero => exact OnWay.emitted h.routed h.flow_lt rfl
  | succ j ih =>
    have hway := ih (by omega)
    have hsw : (sim.fabric.node (sim.fabric.port (sim.link policy 0 k j)).peerNode).isHost =
        false := by
      by_contra hhost
      have hlen := ((hway.safe h.routed).host (by simpa using hhost)).2
      have hcrossed := sim.length_crossed policy k j
      change (sim.crossed policy k j).length + 1 = sim.hops 0 at hlen
      omega
    have hnext := hway.next (s := s) h.routed h.member hsw
    have hport : nextPort sim policy s (sim.link policy 0 k j) (sim.probe policy k j) =
        sim.link policy 0 k (j + 1) := nextPort_eq_link h.perFlow s rfl
    rw [hport] at hnext
    exact hnext

/-- How far a link starts and ends from the source, and that it leads towards the
target. -/
theorem dist (h : sim.Lone policy) (s : State) (k : PacketKind) (hj : j < sim.hops 0) :
    ∃ u, sim.link policy 0 k j ∈ sim.fabric.portsOf u ∧
      sim.fabric.graph.dist (sim.source (sim.probe policy k j)) u = j ∧
      sim.fabric.graph.dist (sim.source (sim.probe policy k j))
        (sim.fabric.port (sim.link policy 0 k j)).peerNode = j + 1 ∧
      sim.fabric.graph.dist (sim.fabric.port (sim.link policy 0 k j)).peerNode
        (sim.target (sim.probe policy k j)) + 1 =
          sim.fabric.graph.dist u (sim.target (sim.probe policy k j)) := by
  have hf := h.routed.wellFormed
  have htrail := (h.onWay s k hj).trail
  have hends := Simulation.ends_of_flow_lt (x := sim.probe policy k j) h.flow_lt
  have hlen := sim.length_crossed policy k j
  have hsource := hf.host_lt _ hends.1
  refine ⟨_, htrail.1, ?_, ?_, htrail.2.1⟩
  · exact (htrail.2.2.dist_start hf h.routed.connected hsource).trans hlen
  · exact (htrail.dist_start hf h.routed.connected hsource).trans (congrArg Nat.succ hlen)

/-- The links of the flow, data and acks, are different ports. -/
theorem link_inj (h : sim.Lone policy) (s : State) (hi : i < sim.hops 0) (hj : j < sim.hops 0)
    (heq : sim.link policy 0 k i = sim.link policy 0 k' j) : k = k' ∧ i = j := by
  obtain ⟨u, hu, hfrom, hnext, hto⟩ := h.dist s k hi
  obtain ⟨v, hv, hfrom', hnext', hto'⟩ := h.dist s k' hj
  obtain rfl : u = v := by
    rw [← h.routed.wellFormed.owner u _ hu, ← h.routed.wellFormed.owner v _ hv, heq]
  rw [heq] at hnext hto
  cases k with
  | data =>
    cases k' with
    | data => exact ⟨rfl, hfrom.symm.trans hfrom'⟩
    | ack =>
      -- the ack comes from where the data goes, so it would cross the link the other way
      change sim.fabric.graph.dist _ (sim.spec 0).dst + 1 = sim.fabric.graph.dist u
        (sim.spec 0).dst at hto
      change sim.fabric.graph.dist (sim.spec 0).dst u = j at hfrom'
      change sim.fabric.graph.dist (sim.spec 0).dst _ = j + 1 at hnext'
      rw [SimpleGraph.dist_comm, hnext', SimpleGraph.dist_comm, hfrom'] at hto
      omega
  | ack =>
    cases k' with
    | data =>
      change sim.fabric.graph.dist _ (sim.spec 0).src + 1 = sim.fabric.graph.dist u
        (sim.spec 0).src at hto
      change sim.fabric.graph.dist (sim.spec 0).src u = j at hfrom'
      change sim.fabric.graph.dist (sim.spec 0).src _ = j + 1 at hnext'
      rw [SimpleGraph.dist_comm, hnext', SimpleGraph.dist_comm, hfrom'] at hto
      omega
    | ack => exact ⟨rfl, hfrom.symm.trans hfrom'⟩

end Lone

end Simulation

/-! ## What a link accepts -/

/-- The packets of a kind that were emitted, in order, with the times. -/
def State.out (s : State) (k : PacketKind) : List (Nat × Packet) :=
  (s.emissions.filter fun b => b.2.kind = k).reverse

namespace State

variable {sim : Simulation} {policy : RoutingPolicy} {s s' : State}

theorem mem_out {k : PacketKind} {b : Nat × Packet} :
    b ∈ s.out k ↔ b ∈ s.emissions ∧ b.2.kind = k := by
  unfold out
  simp

theorem out_congr (h : s'.emissions = s.emissions) (k : PacketKind) : s'.out k = s.out k := by
  unfold out
  rw [h]

theorem out_cons {t : Nat} {x : Packet} (h : s'.emissions = (t, x) :: s.emissions)
    (k : PacketKind) : s'.out k = if x.kind = k then s.out k ++ [(t, x)] else s.out k := by
  unfold out
  rw [h]
  by_cases hk : x.kind = k
  · rw [if_pos hk, List.filter_cons_of_pos (by simpa using hk), List.reverse_cons]
  · rw [if_neg hk, List.filter_cons_of_neg (by simpa using hk)]

theorem accepted_enqueue (s : State) (q : PortId) (x : Packet)
    (h : Lossless (s.enqueue sim q x)) (p : PortId) : accepted (s.enqueue sim q x).trace p =
      if q = p then accepted s.trace p ++ [(s.now, x)] else accepted s.trace p := by
  have htr := enqueue_trace_room sim s q x
  have hroom : decide ((s.port q).queue.count ≠ (s.port q).queue.capacity) = true := by
    by_contra hfull
    refine h s.now q x ?_
    rw [htr, Bool.eq_false_iff.mpr hfull]
    exact List.mem_cons_self ..
  rw [htr, hroom]
  by_cases hqp : q = p
  · subst hqp
    rw [accepted_offered, if_pos rfl, if_pos rfl]
  · rw [if_neg hqp]
    exact (SamePort.other s.trace s.now x true hqp : SamePort 0 p _ _).accepted

theorem arrived_enqueue (s : State) (q : PortId) (x : Packet) (p : PortId) :
    arrived (s.enqueue sim q x).trace p = arrived s.trace p := by
  unfold arrived
  rw [enqueue_trace_room, List.filterMap_cons_none rfl]

theorem arrived_advance (s : State) (e : Event) (queue : EventQueue) (p : PortId) :
    arrived (s.advance e queue).trace p = arrived s.trace p ++ (e.arrival p).toList := by
  rw [advance_trace]
  exact arrived_dispatched e s.trace p

theorem accepted_advance (s : State) (e : Event) (queue : EventQueue) (p : PortId) :
    accepted (s.advance e queue).trace p = accepted s.trace p := by
  rw [advance_trace]
  exact accepted_dispatched e s.trace p

end State

theorem Lossless.of_suffix {s s' : State} {l : List Obs} (h : Lossless s')
    (hl : s'.trace = l ++ s.trace) : Lossless s := by
  intro t p x hx
  refine h t p x ?_
  rw [hl]
  exact List.mem_append_right _ hx

theorem Lossless.of_step {sim : Simulation} {policy : RoutingPolicy} {s : State} {e : Event}
    {queue : EventQueue} (h : Lossless ((s.advance e queue).dispatch sim policy e.body)) :
    Lossless s :=
  fun t p x hx => h t p x (mem_trace_step hx)

/-- Each link of the flow accepts what comes over the one before it, the first what its
sender emits. -/
structure Tandem (sim : Simulation) (policy : RoutingPolicy) (s : State) : Prop where
  first : ∀ k, accepted s.trace (sim.link policy 0 k 0) = s.out k
  hop : ∀ k j, j + 1 < sim.hops 0 → accepted s.trace (sim.link policy 0 k (j + 1)) =
    (arrived s.trace (sim.link policy 0 k j)).map fun a =>
      (a.1, forwarded (sim.link policy 0 k j) a.2)

namespace Tandem

variable {sim : Simulation} {policy : RoutingPolicy} {s s' : State}

theorem congr (h : Tandem sim policy s)
    (hacc : ∀ p, accepted s'.trace p = accepted s.trace p)
    (harr : ∀ p, arrived s'.trace p = arrived s.trace p) (hem : s'.emissions = s.emissions) :
    Tandem sim policy s' where
  first := by
    intro k
    rw [hacc, out_congr hem]
    exact h.first k
  hop := by
    intro k j hj
    rw [hacc, harr]
    exact h.hop k j hj

theorem micro (h : Tandem sim policy s) (hl : sim.Lone policy) (hm : Micro sim 0 s s')
    (hloss : Lossless s') : Tandem sim policy s' := by
  rcases hm.net with ⟨-, -, -, -, l, htr, hrel⟩ | ⟨s₁, x, -, hfresh, hnow, -, htr, rfl⟩
  · have hside : ∀ o ∈ l, o.Aside := by
      intro o ho
      obtain ⟨t, g, d, rfl⟩ := hrel o ho
      exact trivial
    refine h.congr (fun p => ?_) (fun p => ?_) (emissions_release htr hrel)
    · rw [htr]
      exact (SamePort.aside 0 p s.trace hside).accepted
    · rw [htr]
      exact (SamePort.aside 0 p s.trace hside).arrived
  · -- an emission, offered to the NIC
    have hnic : nic sim x = sim.link policy 0 x.kind 0 := by
      rw [Simulation.nic_eq_link sim policy x, hfresh.flow]
    have hside : ∀ o ∈ [Obs.emitted s.now x], o.Aside := by simp [Obs.Aside]
    have hacc₁ : ∀ p, accepted s₁.trace p = accepted s.trace p := by
      intro p
      rw [htr]
      exact (SamePort.aside 0 p s.trace hside).accepted
    have harr₁ : ∀ p, arrived s₁.trace p = arrived s.trace p := by
      intro p
      rw [htr]
      exact (SamePort.aside 0 p s.trace hside).arrived
    constructor
    · intro k
      rw [accepted_enqueue _ _ _ hloss, hacc₁, hnow, out_cons (emissions_emit htr (nic sim x) x),
        hnic, ← h.first k]
      by_cases hk : x.kind = k
      · rw [if_pos (by rw [hk]), if_pos hk]
      · rw [if_neg fun heq => hk (hl.link_inj s hl.hops_pos hl.hops_pos heq).1, if_neg hk]
    · intro k j hj
      rw [accepted_enqueue _ _ _ hloss, arrived_enqueue, hacc₁, harr₁, hnic,
        if_neg fun heq => absurd (hl.link_inj s hl.hops_pos hj heq).2 (by omega)]
      exact h.hop k j hj

theorem step (h : Tandem sim policy s) (hl : sim.Lone policy) (hs : sim.Reachable policy s)
    {e : Event} {queue : EventQueue} (hpop : s.queue.pop = some (e, queue))
    (hloss : Lossless ((s.advance e queue).dispatch sim policy e.body)) :
    Tandem sim policy ((s.advance e queue).dispatch sim policy e.body) := by
  have hnone : (∀ p x, e.body ≠ .arrive p x) → ∀ q,
      arrived (s.advance e queue).trace q = arrived s.trace q := by
    intro hb q
    have hnone : e.arrival q = none := by
      unfold Event.arrival
      split
      · next q x hx => exact absurd hx (hb q x)
      · rfl
    rw [arrived_advance, hnone, Option.toList_none, List.append_nil]
  -- an arrival shows at the link it came over
  have harrive : ∀ p x, e.body = .arrive p x → ∀ q, arrived (s.advance e queue).trace q =
      if p = q then arrived s.trace q ++ [(e.time, x)] else arrived s.trace q := by
    intro p x hb q
    have hsome : e.arrival q = if p = q then some (e.time, x) else none := by
      unfold Event.arrival
      rw [hb]
    rw [arrived_advance, hsome]
    split
    · rfl
    · exact List.append_nil _
  rcases dispatch_cases sim policy (s.advance e queue) e.body with
    ⟨p, hb, heq⟩ | ⟨p, x, hb, hsw, heq⟩ | ⟨f, s₁, hnet, -, htr, -, -, -, -, -, hm, hb⟩
  · rw [heq]
    refine h.congr (fun q => ?_) (fun q => ?_) ?_
    · rw [onTxComplete_trace]
      exact accepted_advance s e queue q
    · rw [onTxComplete_trace]
      exact hnone (by rw [hb]; simp) q
    · rw [emissions_onTxComplete, emissions_advance]
  · -- a switch passes the packet on to the next link
    rw [heq] at hloss ⊢
    have hx := mem_onLink_of_arrive hpop hb
    have hway := hs.onWay hl.routed hl.member p x hx
    have hi := hway.lt_hops hl.routed hsw
    have hflow := hl.flow_eq hway.flow_lt
    have hpath := hs.onPath hl.perFlow p x hx
    have hnext := Simulation.nextPort_eq_link hl.perFlow (s.advance e queue) hpath
    rw [hflow] at hpath hnext hi
    generalize x.tag.route.length = i at hpath hnext hi
    have hacc : ∀ q, accepted (s.advance e queue).trace q = accepted s.trace q :=
      accepted_advance s e queue
    constructor
    · intro k
      rw [accepted_enqueue _ _ _ hloss, hacc, hnext,
        if_neg fun heq => absurd (hl.link_inj s hi hl.hops_pos heq).2 (by omega),
        out_congr (emissions_enqueue sim _ _ _), out_congr (emissions_advance e queue)]
      exact h.first k
    · intro k j hj
      rw [accepted_enqueue _ _ _ hloss, arrived_enqueue, hacc, harrive p x hb, hnext, hpath,
        h.hop k j hj]
      by_cases hkj : x.kind = k ∧ i = j
      · obtain ⟨rfl, rfl⟩ := hkj
        rw [if_pos rfl, if_pos rfl, List.map_append]
        rfl
      · rw [if_neg fun heq => hkj ?_, if_neg fun heq => hkj ?_]
        · exact hl.link_inj s (by omega) (by omega) heq
        · have := hl.link_inj s hi hj heq
          exact ⟨this.1, by omega⟩
  · obtain rfl : f = 0 := hl.flow_eq (hs.endpoint_lt hpop hb)
    have hacc : ∀ q, accepted s₁.trace q = accepted s.trace q := by
      rw [htr]
      exact accepted_advance s e queue
    have hem : s₁.emissions = s.emissions := by
      unfold State.emissions
      rw [htr]
      exact emissions_advance e queue
    have h₁ : Tandem sim policy s₁ := by
      refine ⟨fun k => ?_, fun k j hj => ?_⟩
      · rw [hacc, out_congr hem]
        exact h.first k
      · -- what arrives at a host has crossed the last link
        have harr : arrived s₁.trace (sim.link policy 0 k j) =
            arrived s.trace (sim.link policy 0 k j) := by
          rw [htr]
          rcases hb with hb | ⟨idx, a, hb⟩ | ⟨p, x, hb, hflow, hhost⟩
          · exact hnone (by rw [hb]; simp) _
          · exact hnone (by rw [hb]; simp) _
          · have hx := mem_onLink_of_arrive hpop hb
            have hlast := (((hs.onWay hl.routed hl.member p x hx).safe hl.routed).host hhost).2
            have hpath := hs.onPath hl.perFlow p x hx
            rw [hflow] at hlast hpath
            rw [harrive p x hb, hpath]
            refine if_neg fun heq => ?_
            have := (hl.link_inj s (i := x.tag.route.length) ?_ (by omega) heq).2
            · rw [List.length_cons] at hlast
              omega
            · rw [← hlast]
              exact Nat.lt_succ_self _
        rw [hacc, harr]
        exact h.hop k j hj
    refine (hm.preserve (P := fun s' => Lossless s' → Tandem sim policy s') ?_ fun _ => h₁) hloss
    intro s₂ s₃ hm ih hloss
    obtain ⟨l, htr⟩ := hm.trace
    exact (ih (hloss.of_suffix htr)).micro hl hm hloss

theorem begin (sim : Simulation) (policy : RoutingPolicy) (leftover : State) :
    Tandem sim policy (sim.beginRun leftover) :=
  ⟨fun _ => rfl, fun _ _ _ => rfl⟩

end Tandem

theorem Simulation.Reachable.tandem {sim : Simulation} {policy : RoutingPolicy} {s : State}
    (h : sim.Reachable policy s) (hl : sim.Lone policy) (hloss : Lossless s) :
    Tandem sim policy s := by
  refine Simulation.Reachable.invariant (P := fun s => Lossless s → Tandem sim policy s)
    (fun leftover _ => Tandem.begin sim policy leftover) ?_ h hloss
  exact fun s e queue hs ih hpop hloss' => (ih hloss'.of_step).step hl hs hpop hloss'

/-! ## What passes a link -/

namespace State

/-- The packets that came or will come over link `p`, with the times. -/
def passing (sim : Simulation) (s : State) (p : PortId) : List (Nat × Packet) :=
  arrived s.trace p ++ s.timed sim p

/-- A packet under way, whatever it has crossed, with a time. -/
def sight (a : Nat × Packet) : Nat × Packet := (a.1, a.2.core)

/-- The same, some time later. -/
def later (d : Nat) (a : Nat × Packet) : Nat × Packet := (a.1 + d, a.2)

theorem later_later (d d' : Nat) (a : Nat × Packet) : later d (later d' a) = later (d' + d) a :=
  Prod.ext (Nat.add_assoc ..) rfl

theorem map_fst_later (d : Nat) (l : List (Nat × Packet)) :
    (l.map (later d)).map Prod.fst = (l.map Prod.fst).map fun t => t + d := by
  rw [List.map_map, List.map_map]
  rfl

theorem map_fst_sight (l : List (Nat × Packet)) : (l.map sight).map Prod.fst = l.map Prod.fst := by
  rw [List.map_map]
  rfl

end State

/-- What passes a link of equal packets is far enough apart, and it is what the link
accepts, a transmission and a delay later, if that already was. -/
theorem Served.passing_alike {sim : Simulation} {s : State} {p : PortId}
    {rate delay bytes ser : Nat} (h : Served sim s p) (hp : p < sim.fabric.portCount)
    (hlinks : sim.fabric.LinksAlike rate delay) (hser : serializationNs bytes rate = ser)
    (hbytes : ∀ a ∈ accepted s.trace p, a.2.bytes = bytes) :
    Spaced ser ((s.passing sim p).map Prod.fst) ∧
      (s.passing sim p).map Prod.snd = (accepted s.trace p).map Prod.snd ∧
      (Spaced ser ((accepted s.trace p).map Prod.fst) →
        s.passing sim p = (accepted s.trace p).map (later (ser + delay))) := by
  have hservice : ∀ a ∈ accepted s.trace p, sim.serNs p a.2 = ser := by
    intro a ha
    unfold Simulation.serNs
    rw [hbytes a ha, (hlinks p hp).1, hser]
  have hwire : s.passing sim p =
      (serve (sim.serNs p) 0 (accepted s.trace p)).map (later delay) := by
    unfold passing
    rw [← h.wire, (hlinks p hp).2]
    rfl
  refine ⟨?_, ?_, fun hspaced => ?_⟩
  · rw [hwire, map_fst_later]
    exact (spaced_serve hservice).1.shift delay
  · rw [hwire, List.map_map]
    exact map_snd_serve _ _ _
  · rw [hwire, serve_spaced hservice hspaced fun _ _ => Nat.zero_le _, List.map_map]
    exact List.map_congr_left fun a _ => later_later _ _ a

namespace Tandem

variable {sim : Simulation} {policy : RoutingPolicy} {s : State} {k : PacketKind}
  {rate delay bytes ser : Nat}

/-- Past its first link a stream of equal packets only moves on. -/
theorem through (h : Tandem sim policy s) (hl : sim.Lone policy)
    (hserved : ∀ p, Served sim s p) (hlinks : sim.fabric.LinksAlike rate delay)
    (hser : serializationNs bytes rate = ser) (hbytes : ∀ b ∈ s.out k, b.2.bytes = bytes)
    {j : Nat} (hj : j < sim.hops 0) :
    Spaced ser ((s.passing sim (sim.link policy 0 k j)).map Prod.fst) ∧
      ((s.passing sim (sim.link policy 0 k j)).map sight) <+:
        ((s.passing sim (sim.link policy 0 k 0)).map sight).map
          (later (j * (ser + delay))) := by
  have hlt : ∀ {j}, j < sim.hops 0 → sim.link policy 0 k j < sim.fabric.portCount :=
    fun hj => (hl.onWay s k hj).port_lt hl.routed
  have hfirst : ∀ a ∈ accepted s.trace (sim.link policy 0 k 0), a.2.bytes = bytes := by
    rw [h.first]
    exact hbytes
  have hserved₀ := (hserved _).passing_alike (hlt hl.hops_pos) hlinks hser hfirst
  induction j with
  | zero =>
    refine ⟨hserved₀.1, ?_⟩
    rw [Nat.zero_mul]
    exact (List.map_id' _).symm ▸ List.prefix_rfl
  | succ j ih =>
    obtain ⟨hspaced, hpre⟩ := ih (by omega)
    have hacc := h.hop k j hj
    have harr : arrived s.trace (sim.link policy 0 k j) <+:
        s.passing sim (sim.link policy 0 k j) := List.prefix_append _ _
    -- a packet on the way has the size it was emitted with
    have hsame : ∀ a ∈ accepted s.trace (sim.link policy 0 k (j + 1)), a.2.bytes = bytes := by
      intro a ha
      rw [hacc] at ha
      obtain ⟨a', ha', rfl⟩ := List.mem_map.mp ha
      have hmem := hpre.subset (List.mem_map_of_mem (harr.subset ha'))
      obtain ⟨c, hc, heq⟩ := List.mem_map.mp hmem
      obtain ⟨b, hb, rfl⟩ := List.mem_map.mp hc
      have hsnd : b.2 ∈ (accepted s.trace (sim.link policy 0 k 0)).map Prod.snd := by
        rw [← hserved₀.2.1]
        exact List.mem_map_of_mem hb
      obtain ⟨b₀, hb₀, hb₀eq⟩ := List.mem_map.mp hsnd
      have hcore : b.2.core = a'.2.core := congrArg Prod.snd heq
      have := hfirst b₀ hb₀
      rw [hb₀eq, (Packet.core_inj hcore).2.2.1] at this
      exact this
    have hserved' := (hserved _).passing_alike (hlt hj) hlinks hser hsame
    have htimes : (accepted s.trace (sim.link policy 0 k (j + 1))).map Prod.fst =
        (arrived s.trace (sim.link policy 0 k j)).map Prod.fst := by
      rw [hacc, List.map_map]
      rfl
    refine ⟨hserved'.1, ?_⟩
    rw [hserved'.2.2 (by
      rw [htimes]
      exact hspaced.sublist (harr.sublist.map _)), hacc, List.map_map, List.map_map]
    have hmoved : (arrived s.trace (sim.link policy 0 k j)).map ((sight ∘
        later (ser + delay)) ∘
          fun a => (a.1, forwarded (sim.link policy 0 k j) a.2)) =
        ((arrived s.trace (sim.link policy 0 k j)).map sight).map
          (later (ser + delay)) := by
      rw [List.map_map]
      rfl
    rw [hmoved]
    refine (((harr.map sight).trans hpre).map _).trans ?_
    rw [List.map_map]
    refine (List.map_congr_left fun a _ => ?_) ▸ List.prefix_rfl
    rw [Function.comp_apply, later_later, Nat.succ_mul]

/-- A stream that is emitted far enough apart waits nowhere. -/
theorem through_spaced (h : Tandem sim policy s) (hl : sim.Lone policy)
    (hserved : ∀ p, Served sim s p) (hlinks : sim.fabric.LinksAlike rate delay)
    (hser : serializationNs bytes rate = ser) (hbytes : ∀ b ∈ s.out k, b.2.bytes = bytes)
    (hspaced : Spaced ser ((s.out k).map Prod.fst)) {j : Nat}
    (hj : j < sim.hops 0) :
    ((s.passing sim (sim.link policy 0 k j)).map sight) <+:
      ((s.out k).map sight).map (later ((j + 1) * (ser + delay))) := by
  have hpass := (hserved _).passing_alike ((hl.onWay s k hl.hops_pos).port_lt hl.routed) hlinks hser
    (by
      rw [h.first]
      exact hbytes)
  rw [h.first] at hpass
  refine (h.through hl hserved hlinks hser hbytes hj).2.trans ?_
  rw [hpass.2.2 hspaced, List.map_map, List.map_map, List.map_map]
  refine (List.map_congr_left fun a _ => ?_) ▸ List.prefix_rfl
  rw [Nat.succ_mul, Nat.add_comm]
  exact (later_later _ _ (sight a)).symm

end Tandem

end FabricSim
