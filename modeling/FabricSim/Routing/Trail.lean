import FabricSim.Routing.RouteTable

/-!
# Trails: routes that lose one hop per link

A `Trail` is the list of links a packet has crossed, last first, when every link
starts where the one before it ended and leads exactly one hop closer to the
target. Such a route visits no node twice and has used up exactly the hops it
gained (`Trail.length_add_dist`). What makes a run's routes trails is here too:
the first link of a host with one port leads towards every other node
(`dist_nic`), the candidates of a switch do by definition, and no shortest route
passes through such a host (`Trail.end_host`).
-/

namespace FabricSim

namespace Fabric

variable {f : Fabric}

/-- Where a route from `u` has got to. -/
def endOf (f : Fabric) (u : NodeId) : List PortId → NodeId
  | [] => u
  | p :: _ => (f.port p).peerNode

/-- The nodes of a route from `u`, last first. -/
def visited (f : Fabric) (u : NodeId) (route : List PortId) : List NodeId :=
  route.map (fun p => (f.port p).peerNode) ++ [u]

/-- Every link of the route goes on from the last one and one hop closer to `t`. -/
def Trail (f : Fabric) (u t : NodeId) : List PortId → Prop
  | [] => True
  | p :: route =>
    p ∈ f.portsOf (f.endOf u route) ∧
      f.graph.dist (f.port p).peerNode t + 1 = f.graph.dist (f.endOf u route) t ∧
      Trail f u t route

theorem Trail.length_add_dist {u t : NodeId} {route : List PortId} (h : f.Trail u t route) :
    route.length + f.graph.dist (f.endOf u route) t = f.graph.dist u t := by
  induction route with
  | nil => exact Nat.zero_add _
  | cons p route ih =>
    obtain ⟨-, hd, hrest⟩ := h
    have := ih hrest
    rw [List.length_cons]
    show route.length + 1 + f.graph.dist (f.port p).peerNode t = _
    omega

theorem Trail.dist_le {u t : NodeId} {route : List PortId} (h : f.Trail u t route) :
    ∀ v ∈ f.visited u route, f.graph.dist (f.endOf u route) t ≤ f.graph.dist v t := by
  induction route with
  | nil =>
    intro v hv
    obtain rfl := List.mem_singleton.mp hv
    exact le_rfl
  | cons p route ih =>
    obtain ⟨-, hd, hrest⟩ := h
    intro v hv
    rcases List.mem_cons.mp hv with rfl | hv
    · exact le_rfl
    · have := ih hrest v hv
      show f.graph.dist (f.port p).peerNode t ≤ _
      omega

/-- A trail does not come back to a node. -/
theorem Trail.nodup {u t : NodeId} {route : List PortId} (h : f.Trail u t route) :
    (f.visited u route).Nodup := by
  induction route with
  | nil => exact List.nodup_singleton _
  | cons p route ih =>
    obtain ⟨-, hd, hrest⟩ := h
    refine List.nodup_cons.mpr ⟨fun hmem => ?_, ih hrest⟩
    have : f.graph.dist (f.endOf u route) t ≤ f.graph.dist (f.port p).peerNode t :=
      hrest.dist_le _ hmem
    omega

/-! ## Hosts with one port -/

theorem WellFormed.peer_lt (hf : f.WellFormed) {u : NodeId} {p : PortId} (hp : p ∈ f.portsOf u) :
    u < f.nodeCount ∧ (f.port p).peerNode < f.nodeCount ∧ f.Linked (f.port p).peerNode u := by
  have hl : f.Linked u (f.port p).peerNode := ⟨p, hp, rfl⟩
  exact ⟨hf.linked_lt _ _ hl, hf.linked_lt _ _ (hf.linked_symm _ _ hl), hf.linked_symm _ _ hl⟩

theorem Trail.port_lt {u t : NodeId} {route : List PortId} (h : f.Trail u t route)
    (hf : f.WellFormed) : ∀ p ∈ route, p < f.portCount := by
  induction route with
  | nil => exact fun p hp => absurd hp List.not_mem_nil
  | cons p route ih =>
    intro q hq
    rcases List.mem_cons.mp hq with rfl | hq
    · exact hf.port_lt _ q h.1
    · exact ih h.2.2 q hq

/-- A trail is a shortest path to every node on it. -/
theorem Trail.dist_start {u t : NodeId} {route : List PortId} (h : f.Trail u t route)
    (hf : f.WellFormed) (hc : f.Connected) (hu : u < f.nodeCount) :
    f.graph.dist u (f.endOf u route) = route.length := by
  have hle : f.graph.dist u (f.endOf u route) ≤ route.length := by
    induction route with
    | nil => exact (SimpleGraph.dist_self).le
    | cons p route ih =>
      obtain ⟨hp, -, hrest⟩ := h
      obtain ⟨hend, -, hback⟩ := hf.peer_lt hp
      have hadj := (hf.adj_iff _ _).mpr hback
      have hstep := HopDistance.dist_le_succ_of_adj hadj (hc _ _ hend hu)
      have := ih hrest
      rw [SimpleGraph.dist_comm] at this ⊢
      rw [List.length_cons]
      exact hstep.trans (Nat.succ_le_succ this)
  have hlen := h.length_add_dist
  have hend : f.endOf u route < f.nodeCount := by
    cases route with
    | nil => exact hu
    | cons p route => exact (hf.peer_lt h.1).2.1
  have htri := (hc u _ hu hend).dist_triangle_left t
  omega

theorem SinglePortHosts.portsOf (h : f.SinglePortHosts) {u : NodeId}
    (hu : (f.node u).isHost = true) : f.portsOf u = [(f.portsOf u).getD 0 0] := by
  have hlen : (f.portsOf u).length = 1 := by
    unfold Fabric.portsOf
    rw [List.length_map, List.length_range]
    exact h u hu
  obtain ⟨p, hp⟩ := List.length_eq_one_iff.mp hlen
  rw [hp]
  rfl

theorem SinglePortHosts.nic_mem (h : f.SinglePortHosts) {u : NodeId}
    (hu : (f.node u).isHost = true) : (f.portsOf u).getD 0 0 ∈ f.portsOf u := by
  rw [h.portsOf hu]
  exact List.mem_cons_self ..

/-- The only port of a host leads towards every other node. -/
theorem dist_nic (hf : f.WellFormed) (hc : f.Connected) (hs : f.SinglePortHosts) {u t : NodeId}
    (hu : (f.node u).isHost = true) (ht : t < f.nodeCount) (hne : u ≠ t) :
    f.graph.dist (f.port ((f.portsOf u).getD 0 0)).peerNode t + 1 = f.graph.dist u t := by
  obtain ⟨w, hadj, -, hdw⟩ := HopDistance.exists_adj_dist_succ (hc u t (hf.host_lt u hu) ht) hne
  obtain ⟨p, hp, rfl⟩ := (hf.adj_iff u w).mp hadj
  rw [hs.portsOf hu] at hp
  obtain rfl := List.mem_singleton.mp hp
  exact hdw

/-- A link that leads closer to `t` ends at a switch or at `t`. -/
theorem eq_of_peer_host (hf : f.WellFormed) (hc : f.Connected) (hs : f.SinglePortHosts)
    {u t : NodeId} {p : PortId} (hp : p ∈ f.portsOf u) (ht : t < f.nodeCount)
    (hd : f.graph.dist (f.port p).peerNode t + 1 = f.graph.dist u t)
    (hh : (f.node (f.port p).peerNode).isHost = true) : (f.port p).peerNode = t := by
  by_contra hne
  -- the host's own port leads back to `u`, so `u` would be closer
  have hback := dist_nic hf hc hs hh ht hne
  obtain ⟨q, hq, hqu⟩ := (hf.peer_lt hp).2.2
  rw [hs.portsOf hh] at hq
  obtain rfl := List.mem_singleton.mp hq
  rw [hqu] at hback
  omega

theorem Trail.end_host (hf : f.WellFormed) (hc : f.Connected) (hs : f.SinglePortHosts)
    {u t : NodeId} {p : PortId} {route : List PortId} (h : f.Trail u t (p :: route))
    (ht : t < f.nodeCount) (hh : (f.node (f.port p).peerNode).isHost = true) :
    (f.port p).peerNode = t :=
  eq_of_peer_host hf hc hs h.1 ht h.2.1 hh

end Fabric

end FabricSim
