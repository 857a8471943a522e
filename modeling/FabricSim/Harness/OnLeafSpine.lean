import FabricSim.Harness.OnFatTree
import FabricSim.Topology.LeafSpinePaths

/-!
# The scenario on a leaf/spine fabric

What the smoke builder guarantees: one flow, on a leaf/spine fabric with
shortest-path routes, that crosses as many links as the builder says. The fabric has the
shape it is meant to have whatever its three sizes (`leaf_spine_exact`).
-/

namespace FabricSim

namespace LeafSpine

variable {cfg : LeafSpineConfig}

/-- The links of the hosts, and those of the mesh. -/
theorem twoTier (hk : 0 < cfg.hostsPerLeaf) :
    (builder cfg).build.TwoTier cfg.hostLink cfg.fabricLink := by
  refine (switchesFirst hk).twoTier (valid hk) fun e he => ?_
  rcases (mem_edges hk).mp he with ⟨l, s, hl, hs, rfl⟩ | ⟨h, hh, rfl⟩
  · refine Or.inl ⟨?_, ?_, rfl⟩
    · exact Nat.add_lt_add_left hl _
    · exact Nat.lt_add_right _ hs
  · refine Or.inr ⟨Nat.le_add_right _ _, ?_, rfl⟩
    exact Nat.add_lt_add_left (leaf_lt hk hh) _

end LeafSpine

/-- What the smoke builder guarantees. -/
structure SmokeScenario.Facts (cfg : SmokeConfig) (sc : SmokeScenario) : Prop where
  counts : 0 < cfg.topology.spineCount ∧ 0 < cfg.topology.leafCount ∧ 0 < cfg.topology.hostsPerLeaf
  fabric : sc.sim.fabric = (LeafSpine.builder cfg.topology).build
  routes : sc.sim.routes = RouteTable.buildShortestPath sc.sim.fabric
  transport : sc.sim.transport = cfg.transport
  specs : sc.sim.specs = [cfg.spec sc.sim.fabric]
  src_lt : cfg.srcHost < LeafSpine.hostTotal cfg.topology
  dst_lt : cfg.dstHost < LeafSpine.hostTotal cfg.topology
  flow : sc.flow = 0
  packets : sc.packets = cfg.packets
  hops : sc.hops = cfg.hops
  analyticalNs : sc.analyticalNs = cfg.analyticalNs
  analyticalExact : sc.analyticalExact = cfg.analyticalExact

theorem buildSmoke_facts {cfg : SmokeConfig} {sc : SmokeScenario} (h : buildSmoke cfg = some sc) :
    sc.Facts cfg := by
  unfold buildSmoke at h
  obtain ⟨fab, hfab, h⟩ := Option.bind_eq_some_iff.mp h
  obtain ⟨_, hguard, h⟩ := Option.bind_eq_some_iff.mp h
  obtain ⟨sim, hsim, h⟩ := Option.bind_eq_some_iff.mp h
  obtain rfl := Option.some.inj h
  have hin : cfg.srcHost < fab.hostCount ∧ cfg.dstHost < fab.hostCount := by
    by_contra hout
    unfold guard at hguard
    rw [if_neg hout] at hguard
    exact absurd hguard (by simp)
  obtain ⟨hsrc, hdst⟩ := hin
  unfold buildLeafSpine at hfab
  split at hfab
  · next hcounts =>
    obtain rfl := Option.some.inj hfab
    have hhosts := (LeafSpine.switchesFirst hcounts.2.2).hostCount
    rw [hhosts] at hsrc hdst
    obtain ⟨h1, h2, h3, h4⟩ := Simulation.addFlow_eq hsim
    have hfabric : sim.fabric = (LeafSpine.builder cfg.topology).build := h1
    refine ⟨hcounts, hfabric, ?_, h3, ?_, hsrc, hdst, rfl, rfl, rfl, rfl, rfl⟩
    · rw [hfabric]
      exact h2
    · rw [hfabric]
      exact h4
  · exact absurd hfab (by simp)

namespace SmokeScenario.Facts

variable {cfg : SmokeConfig} {sc : SmokeScenario}

theorem wired (h : sc.Facts cfg) : sc.sim.Wired where
  built := ⟨_, LeafSpine.valid h.counts.2.2, h.fabric⟩
  connected := by
    rw [h.fabric]
    exact LeafSpine.connected h.counts.1 h.counts.2.1 h.counts.2.2
  singlePort := by
    rw [h.fabric]
    exact LeafSpine.singlePortHosts h.counts.2.2
  routes := h.routes

theorem routed (h : sc.Facts cfg) (htable : LeafSpine.TableFits cfg.topology) :
    sc.sim.Routed where
  toWired := h.wired
  counted := by
    rw [h.routes, h.fabric, LeafSpine.length_entries h.counts.2.2 h.counts.1 h.counts.2.1]
    exact htable

theorem twoTier (h : sc.Facts cfg) :
    sc.sim.fabric.TwoTier cfg.topology.hostLink cfg.topology.fabricLink := by
  rw [h.fabric]
  exact LeafSpine.twoTier h.counts.2.2

theorem flowCount (h : sc.Facts cfg) : sc.sim.flowCount = 1 := by
  unfold Simulation.flowCount
  rw [h.specs]
  rfl

theorem spec (h : sc.Facts cfg) : sc.sim.spec 0 = cfg.spec sc.sim.fabric := by
  unfold Simulation.spec
  rw [h.specs]
  rfl

/-- The builder's hop count is the distance. -/
theorem dist (h : sc.Facts cfg) : sc.sim.hops 0 = cfg.hops := by
  have hacc := sc.sim.spec_accepted (f := 0) (by rw [h.flowCount]; exact Nat.one_pos)
  have hne := hacc.src_ne_dst
  show sc.sim.fabric.graph.dist (sc.sim.spec 0).src (sc.sim.spec 0).dst = _
  rw [h.spec] at hne ⊢
  unfold SmokeConfig.spec at hne ⊢
  dsimp only at hne ⊢
  have hfirst : (LeafSpine.builder cfg.topology).SwitchesFirst _ _ :=
    LeafSpine.switchesFirst h.counts.2.2
  rw [h.fabric, hfirst.hostAt h.src_lt, hfirst.hostAt h.dst_lt] at hne ⊢
  refine LeafSpine.dist_hosts h.counts.1 h.counts.2.2 h.src_lt h.dst_lt ?_
  intro heq
  exact hne (by rw [heq])

end SmokeScenario.Facts

/-- The builder makes the leaf/spine fabric of every size: one port a host, hosts in blocks
on their leaves, and the distances that the harness uses. The table has as many candidates
at a leaf as there are spines, for a host elsewhere, and one at every other switch; while
its entries can be counted in 32 bits these are the links to the spines, to the host and to
its leaf. -/
theorem leaf_spine_exact (cfg : LeafSpineConfig) (hsp : 1 ≤ cfg.spineCount)
    (hlf : 1 ≤ cfg.leafCount) (hk : 1 ≤ cfg.hostsPerLeaf) (hfit : cfg.spineCount < 2 ^ 32) :
    ∃ f, buildLeafSpine cfg = some f ∧ LeafSpine.Structure cfg f ∧
      LeafSpine.CandidateCounts cfg f ∧
      (∀ smoke : SmokeConfig, smoke.topology = cfg → smoke.srcHost < f.hostCount →
        smoke.dstHost < f.hostCount → smoke.srcHost ≠ smoke.dstHost →
        f.graph.dist (f.hostAt smoke.srcHost) (f.hostAt smoke.dstHost) = smoke.hops) ∧
      (LeafSpine.hostTotal cfg * (cfg.leafCount * cfg.spineCount + LeafSpine.hostTotal cfg) <
        2 ^ 32 → LeafSpine.CandidatePeers cfg f) := by
  have hstructure := LeafSpine.structure_builder hk hsp hlf
  refine ⟨_, if_pos ⟨hsp, hlf, hk⟩, hstructure, LeafSpine.candidateCounts_builder hk hsp hlf hfit,
    ?_, LeafSpine.candidatePeers_builder hk hsp hlf⟩
  intro smoke htopology hsrc hdst hne
  rw [hstructure.hops _ _ hsrc hdst hne]
  unfold SmokeConfig.hops
  rw [htopology]
  rfl

/-- Four spines over two leaves of three hosts. -/
theorem leaf_spine_exact_four : ∃ f,
    buildLeafSpine { spineCount := 4, leafCount := 2, hostsPerLeaf := 3 } = some f ∧
      ((RouteTable.buildShortestPath f).candidates 4 3).length = 4 := by
  obtain ⟨f, hf, hs, hc, -⟩ := leaf_spine_exact
    { spineCount := 4, leafCount := 2, hostsPerLeaf := 3 } (by decide) (by decide) (by decide)
    (by decide)
  refine ⟨f, hf, hc.remote 0 3 (by decide) ?_ (by decide)⟩
  rw [hs.hostCount]
  decide

end FabricSim
