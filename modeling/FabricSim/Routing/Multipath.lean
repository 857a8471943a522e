import FabricSim.Routing.RouteTable

/-!
# The route table as the shortest-path multipath set

`mem_nextHopsTo_iff` says which ports a cell holds. Here is the rest of what a
routing policy may assume about it: a cell lists them in port order and once
each, it is empty only at its host and where the host is out of reach, and
whatever is picked from it hop after hop, the host is reached after exactly the
hop distance (`Follow`).
-/

namespace FabricSim

namespace RouteTable

/-! ## A cell lists ports in order, once each -/

theorem portsOf_nodup {b : FabricBuilder} (hb : b.Valid) (u : NodeId) :
    (b.build.portsOf u).Nodup := by
  rw [FabricBuilder.build_portsOf hb]
  exact List.nodup_range.map fun i j h => Nat.add_left_cancel h

variable {f : Fabric}

theorem nextHopsTo_eq_nil_iff (hf : f.WellFormed) {u h : Nat} (hu : u < f.nodeCount) :
    nextHopsTo f u h = [] ↔ u = f.hostAt h ∨ ¬ f.graph.Reachable u (f.hostAt h) := by
  constructor
  · intro hnil
    by_contra hnot
    rw [not_or, not_not] at hnot
    exact nextHopsTo_ne_nil hf hu hnot.2 hnot.1 hnil
  · intro hor
    refine List.eq_nil_iff_forall_not_mem.mpr fun p hp => ?_
    obtain ⟨hport, hr, hd⟩ := (mem_nextHopsTo_iff hf hu p).mp hp
    rcases hor with rfl | hunr
    · rw [SimpleGraph.dist_self] at hd
      omega
    · have hadj : f.graph.Adj u (f.port p).peerNode := (hf.adj_iff _ _).mpr ⟨p, hport, rfl⟩
      exact hunr (hadj.reachable.trans hr)

/-! ## Following candidates -/

/-- `route` goes from `u` to `v` by candidates towards host `h` only. -/
inductive Follow (rt : RouteTable) (f : Fabric) (h : Nat) : NodeId → List PortId → NodeId → Prop
  | here (u : NodeId) : Follow rt f h u [] u
  | hop {u v : NodeId} {p : PortId} {route : List PortId} :
    p ∈ rt.candidates u h → Follow rt f h (f.port p).peerNode route v →
      Follow rt f h u (p :: route) v

/-- Every hop is a hop closer. -/
theorem Follow.length_add_dist (hf : f.WellFormed)
    (he : (buildShortestPath f).entries.length < 2 ^ 32) {h : Nat} (hh : h < f.hostCount) {u v : NodeId}
    {route : List PortId} (hr : Follow (buildShortestPath f) f h u route v) (hu : u < f.nodeCount) :
    v < f.nodeCount ∧ (f.graph.Reachable u (f.hostAt h) → f.graph.Reachable v (f.hostAt h)) ∧
      route.length + f.graph.dist v (f.hostAt h) = f.graph.dist u (f.hostAt h) := by
  induction hr with
  | here u => exact ⟨hu, id, Nat.zero_add _⟩
  | @hop u v p route hp _ ih =>
    rw [candidates_eq_nextHopsTo he hu hh] at hp
    obtain ⟨hport, hreach, hd⟩ := (mem_nextHopsTo_iff hf hu p).mp hp
    have hadj : f.graph.Adj u (f.port p).peerNode := (hf.adj_iff _ _).mpr ⟨p, hport, rfl⟩
    have hlt := hf.linked_lt _ _ (hf.linked_symm _ _ ((hf.adj_iff _ _).mp hadj))
    obtain ⟨hv, hrv, hlen⟩ := ih hlt
    refine ⟨hv, fun _ => hrv hreach, ?_⟩
    rw [List.length_cons]
    omega

end RouteTable

open RouteTable in
/-- The route table is the shortest-path multipath set. In every fabric the
builder produces, while the entries can be counted in 32 bits, the cell of a
node and a host lists in port order and once each exactly the ports whose far
end is one hop closer to the host; it is empty only at the host and where the
host is out of reach; and any choice of candidates, hop after hop, comes one
step closer with each, so that it is at the host after as many hops as the
distance and not before. -/
theorem route_table_exact (b : FabricBuilder) (hb : b.Valid)
    (he : (buildShortestPath b.build).entries.length < 2 ^ 32) (u : NodeId) (hu : u < b.build.nodeCount)
    (h : Nat) (hh : h < b.build.hostCount) :
    ((buildShortestPath b.build).candidates u h).Sublist (b.build.portsOf u) ∧
      ((buildShortestPath b.build).candidates u h).Nodup ∧
      (∀ p, p ∈ (buildShortestPath b.build).candidates u h ↔
        p ∈ b.build.portsOf u ∧
          b.build.graph.Reachable (b.build.port p).peerNode (b.build.hostAt h) ∧
          b.build.graph.dist (b.build.port p).peerNode (b.build.hostAt h) + 1 =
            b.build.graph.dist u (b.build.hostAt h)) ∧
      ((buildShortestPath b.build).candidates u h = [] ↔
        u = b.build.hostAt h ∨ ¬ b.build.graph.Reachable u (b.build.hostAt h)) ∧
      (b.build.graph.Reachable u (b.build.hostAt h) →
        ∀ route v, Follow (buildShortestPath b.build) b.build h u route v →
          route.length + b.build.graph.dist v (b.build.hostAt h) =
              b.build.graph.dist u (b.build.hostAt h) ∧
            (v = b.build.hostAt h ↔ route.length = b.build.graph.dist u (b.build.hostAt h)) ∧
            (v ≠ b.build.hostAt h → (buildShortestPath b.build).candidates v h ≠ [])) := by
  have hf := FabricBuilder.build_wellFormed hb
  have hcell : ∀ w, w < b.build.nodeCount →
      (buildShortestPath b.build).candidates w h = nextHopsTo b.build w h :=
    fun w hw => candidates_eq_nextHopsTo he hw hh
  have hsub : ((buildShortestPath b.build).candidates u h).Sublist (b.build.portsOf u) := by
    rw [hcell u hu]
    exact nextHops_sublist _ _ _
  refine ⟨hsub, (portsOf_nodup hb u).sublist hsub, ?_, ?_, ?_⟩
  · rw [hcell u hu]
    exact mem_nextHopsTo_iff hf hu
  · rw [hcell u hu]
    exact nextHopsTo_eq_nil_iff hf hu
  · intro hreach route v hr
    obtain ⟨hv, hrv, hlen⟩ := hr.length_add_dist hf he hh hu
    have hiff : v = b.build.hostAt h ↔ b.build.graph.dist v (b.build.hostAt h) = 0 :=
      ((hrv hreach).dist_eq_zero_iff).symm
    refine ⟨hlen, hiff.trans (by omega), fun hne => ?_⟩
    rw [hcell v hv]
    exact nextHopsTo_ne_nil hf hv (hrv hreach) hne

/-- Two hosts on a switch, the first by two parallel links, and a host apart. -/
def twinLink : FabricBuilder where
  isHost := [true, true, false, true]
  edges := [⟨0, 2, {}⟩, ⟨0, 2, {}⟩, ⟨1, 2, {}⟩]

/-- Both parallel links are candidates; the host apart has none. -/
theorem route_table_exact_twinLink :
    (RouteTable.buildShortestPath twinLink.build).candidates 0 1 = [0, 1] ∧
      ((RouteTable.buildShortestPath twinLink.build).candidates 0 1).Nodup ∧
      (3 = twinLink.build.hostAt 1 ∨
        ¬ twinLink.build.graph.Reachable 3 (twinLink.build.hostAt 1)) := by
  have hvalid : twinLink.Valid := by
    unfold FabricBuilder.Valid
    decide
  have hsize : (RouteTable.buildShortestPath twinLink.build).entries.length < 2 ^ 32 := by decide +kernel
  obtain ⟨-, hnodup, -⟩ :=
    route_table_exact twinLink hvalid hsize 0 (by decide) 1 (by decide +kernel)
  obtain ⟨-, -, -, hempty, -⟩ :=
    route_table_exact twinLink hvalid hsize 3 (by decide) 1 (by decide +kernel)
  exact ⟨by decide +kernel, hnodup, hempty.mp (by decide +kernel)⟩

end FabricSim
