import FabricSim.Routing.Trail
import FabricSim.Topology.Shape

/-!
# Links of hosts and links of switches

Both topologies have one kind of link at the hosts and one between the switches. A
shortest route between two hosts crosses a link of the first kind at either end and
links of the second kind in between, whichever way it takes: so what depends on the
kinds of its links alone depends on the hop count alone (`Trail.sum_twoTier`).
-/

namespace FabricSim

/-- The port is an end of such a link. -/
def Port.On (p : Port) (link : LinkParams) : Prop :=
  p.rate = link.rate ∧ p.propDelayNs = link.propDelayNs ∧ p.queueCapacity = link.queueCapacityPkts

namespace Fabric

structure TwoTier (f : Fabric) (hostLink fabricLink : LinkParams) : Prop where
  hostSide : ∀ u, ∀ p ∈ f.portsOf u,
    ((f.node u).isHost = true ∨ (f.node (f.port p).peerNode).isHost = true) →
      (f.port p).On hostLink
  between : ∀ u, ∀ p ∈ f.portsOf u, (f.node u).isHost = false →
    (f.node (f.port p).peerNode).isHost = false → (f.port p).On fabricLink
  /-- No cable joins two hosts. -/
  apart : ∀ u, ∀ p ∈ f.portsOf u, (f.node u).isHost = true →
    (f.node (f.port p).peerNode).isHost = false

variable {f : Fabric} {hostLink fabricLink : LinkParams}

/-- There is a shortest route to every node that can be reached. -/
theorem exists_trail (hf : f.WellFormed) {t : NodeId} :
    ∀ (n : Nat) (u : NodeId), f.graph.Reachable u t → f.graph.dist u t = n →
      ∀ (route : List PortId) (v : NodeId), f.Trail v t route → f.endOf v route = u →
        ∃ route', f.Trail v t route' ∧ f.endOf v route' = t := by
  intro n
  induction n with
  | zero =>
    intro u hr hd route v h hend
    refine ⟨route, h, hend.trans ?_⟩
    exact (hr.dist_eq_zero_iff).mp hd
  | succ n ih =>
    intro u hr hd route v h hend
    have hne : u ≠ t := by
      rintro rfl
      rw [SimpleGraph.dist_self] at hd
      exact absurd hd (by omega)
    -- one link closer to the target
    obtain ⟨w, hadj, hrw, hdw⟩ := HopDistance.exists_adj_dist_succ hr hne
    obtain ⟨p, hp, rfl⟩ := (hf.adj_iff u w).mp hadj
    refine ih _ hrw (by omega) (p :: route) v ⟨?_, ?_, h⟩ rfl
    · rw [hend]
      exact hp
    · rw [hend]
      exact hdw

/-- A shortest route on its way from a host: one link of the host, the rest between
switches. -/
theorem Trail.sum_open (hf : f.WellFormed) (hc : f.Connected) (hs : f.SinglePortHosts)
    (htier : f.TwoTier hostLink fabricLink) {cost : PortId → Nat} {hostCost fabricCost : Nat}
    (hhost : ∀ p, (f.port p).On hostLink → cost p = hostCost)
    (hfabric : ∀ p, (f.port p).On fabricLink → cost p = fabricCost) {u t : NodeId}
    (hu : (f.node u).isHost = true) (ht : t < f.nodeCount) {route : List PortId}
    (h : f.Trail u t route) (hopen : f.endOf u route ≠ t) (hnil : route ≠ []) :
    (f.node (f.endOf u route)).isHost = false ∧
      (route.map cost).sum = hostCost + (route.length - 1) * fabricCost := by
  induction route with
  | nil => exact absurd rfl hnil
  | cons p route ih =>
    have hend : (f.node (f.port p).peerNode).isHost = false := by
      rw [Bool.eq_false_iff]
      exact fun hh => hopen (h.end_host hf hc hs ht hh)
    refine ⟨hend, ?_⟩
    obtain ⟨hp, hd, hrest⟩ := h
    rw [List.map_cons, List.sum_cons, List.length_cons, Nat.add_sub_cancel]
    cases route with
    | nil =>
      rw [hhost p (htier.hostSide u p hp (Or.inl hu))]
      simp
    | cons q route =>
      have hgo : f.endOf u (q :: route) ≠ t := by
        intro heq
        rw [heq, SimpleGraph.dist_self] at hd
        exact absurd hd (by omega)
      obtain ⟨hsw, hsum⟩ := ih hrest hgo (List.cons_ne_nil _ _)
      rw [hfabric p (htier.between _ p hp hsw hend), hsum, List.length_cons, Nat.add_sub_cancel]
      have hstep : (route.length + 1) * fabricCost = route.length * fabricCost + fabricCost :=
        Nat.succ_mul _ _
      omega

/-- A shortest route between two hosts. -/
theorem Trail.sum_twoTier (hf : f.WellFormed) (hc : f.Connected) (hs : f.SinglePortHosts)
    (htier : f.TwoTier hostLink fabricLink) {cost : PortId → Nat} {hostCost fabricCost : Nat}
    (hhost : ∀ p, (f.port p).On hostLink → cost p = hostCost)
    (hfabric : ∀ p, (f.port p).On fabricLink → cost p = fabricCost) {u t : NodeId}
    (hu : (f.node u).isHost = true) (ht : (f.node t).isHost = true) (hne : u ≠ t)
    {route : List PortId} (h : f.Trail u t route) (hend : f.endOf u route = t) :
    (route.map cost).sum = 2 * hostCost + (f.graph.dist u t - 2) * fabricCost := by
  have htn := hf.host_lt t ht
  have hlen := h.length_add_dist
  rw [hend, SimpleGraph.dist_self, Nat.add_zero] at hlen
  cases route with
  | nil => exact absurd hend hne
  | cons p route =>
    obtain ⟨hp, hd, hrest⟩ := h
    have hpeer : (f.port p).peerNode = t := hend
    rw [hpeer, SimpleGraph.dist_self] at hd
    have hgo : f.endOf u route ≠ t := by
      intro heq
      rw [heq, SimpleGraph.dist_self] at hd
      exact absurd hd (by omega)
    have hnil : route ≠ [] := by
      rintro rfl
      -- the only link would join two hosts
      have hsw := htier.apart u p hp hu
      rw [hpeer] at hsw
      exact absurd (ht.symm.trans hsw) (by simp)
    obtain ⟨-, hsum⟩ := Trail.sum_open hf hc hs htier hhost hfabric hu htn hrest hgo hnil
    have hpos : 0 < route.length := List.length_pos_iff.mpr hnil
    rw [List.map_cons, List.sum_cons, hsum, hhost p (htier.hostSide _ p hp (Or.inr (hpeer ▸ ht))),
      ← hlen, List.length_cons, show route.length + 1 - 2 = route.length - 1 by omega]
    omega

end Fabric

namespace FabricBuilder

/-- Two tiers of cables make two tiers of ports. -/
theorem twoTier {b : FabricBuilder} (h : b.Valid) {hostLink fabricLink : LinkParams}
    (hedge : ∀ e ∈ b.edges,
      (b.build.node e.a).isHost = false ∧ (b.build.node e.b).isHost = false ∧
        e.params = fabricLink ∨
      (b.build.node e.a).isHost ≠ (b.build.node e.b).isHost ∧ e.params = hostLink) :
    b.build.TwoTier hostLink fabricLink where
  hostSide := by
    intro u p hp hside
    obtain ⟨e, he, hon, hends⟩ := port_source h hp
    rcases hedge e he with ⟨ha, hb, -⟩ | ⟨-, hparams⟩
    · rcases hends with ⟨rfl, hpeer⟩ | ⟨rfl, hpeer⟩ <;> rw [hpeer, ha, hb] at hside <;> simp at hside
    · rw [hparams] at hon
      exact hon
  between := by
    intro u p hp hu hpeer
    obtain ⟨e, he, hon, hends⟩ := port_source h hp
    rcases hedge e he with ⟨-, -, hparams⟩ | ⟨hne, -⟩
    · rw [hparams] at hon
      exact hon
    · rcases hends with ⟨rfl, heq⟩ | ⟨rfl, heq⟩ <;> rw [heq] at hpeer <;> rw [hu, hpeer] at hne <;>
        exact absurd rfl hne
  apart := by
    intro u p hp hu
    obtain ⟨e, he, -, hends⟩ := port_source h hp
    rcases hedge e he with ⟨ha, hb, -⟩ | ⟨hne, -⟩
    · rcases hends with ⟨rfl, -⟩ | ⟨rfl, -⟩
      · exact absurd (hu.symm.trans ha) (by simp)
      · exact absurd (hu.symm.trans hb) (by simp)
    · rcases hends with ⟨rfl, heq⟩ | ⟨rfl, heq⟩ <;> rw [heq] <;> rw [hu] at hne <;>
        simpa using hne.symm

/-- There are no other ports. -/
theorem on_of_twoTier {b : FabricBuilder} (h : b.Valid) {hostLink fabricLink : LinkParams}
    (htier : b.build.TwoTier hostLink fabricLink) {p : PortId} (hp : p < b.build.portCount) :
    (b.build.port p).On hostLink ∨ (b.build.port p).On fabricLink := by
  obtain ⟨u, k, -, hk, rfl⟩ := Csr.exists_slot (degree b.edges) hp
  rw [degree_eq h.ne] at hk
  have hmem := (mem_build_portsOf h).mpr ⟨k, hk, rfl, build_port h u k hk⟩
  cases hu : (b.build.node u).isHost with
  | true => exact Or.inl (htier.hostSide u _ hmem (Or.inl hu))
  | false =>
    cases hpeer : (b.build.node (b.build.port (Csr.prefixSum (degree b.edges) u + k)).peerNode).isHost with
    | true => exact Or.inl (htier.hostSide u _ hmem (Or.inr hpeer))
    | false => exact Or.inr (htier.between u _ hmem hu hpeer)

/-- Cables between switches of one kind, and cables from hosts to switches of
another. -/
theorem SwitchesFirst.twoTier {b : FabricBuilder} {m n : Nat} (hb : b.SwitchesFirst m n)
    (h : b.Valid) {hostLink fabricLink : LinkParams}
    (hedge : ∀ e ∈ b.edges, e.a < m ∧ e.b < m ∧ e.params = fabricLink ∨
      m ≤ e.a ∧ e.b < m ∧ e.params = hostLink) : b.build.TwoTier hostLink fabricLink := by
  have hswitch : ∀ u : NodeId, u < m → (b.build.node u).isHost = false := by
    intro u hu
    rw [Bool.eq_false_iff]
    intro hh
    exact absurd ((hb.isHost_iff u).mp hh).1 (not_le.mpr hu)
  refine FabricBuilder.twoTier h fun e he => ?_
  rcases hedge e he with ⟨ha, hpeer, hparams⟩ | ⟨ha, hpeer, hparams⟩
  · exact Or.inl ⟨hswitch _ ha, hswitch _ hpeer, hparams⟩
  · have hhost : (b.build.node e.a).isHost = true := by
      have hlt := (h e he).1
      rw [show b.isHost.length = m + n from hb.nodeCount] at hlt
      exact (hb.isHost_iff e.a).mpr ⟨ha, hlt⟩
    refine Or.inr ⟨?_, hparams⟩
    rw [hhost, hswitch _ hpeer]
    simp

end FabricBuilder

end FabricSim
