import FabricSim.Core.Transit
import FabricSim.Harness.Scenario
import FabricSim.Topology.FatTreePaths
import FabricSim.Topology.TwoTier

/-!
# The scenarios on a fat tree

What the permutation and the all-reduce builder have in common: the simulation
runs on a fat tree with shortest-path routes, its flows have the MTU of the
workload, and no flow crosses more links than the timeout was sized for.
-/

namespace FabricSim

namespace Simulation

theorem addFlow_eq {sim sim' : Simulation} {spec : FlowSpec}
    (h : sim.addFlow spec = some sim') : sim'.fabric = sim.fabric ∧ sim'.routes = sim.routes ∧
      sim'.transport = sim.transport ∧ sim'.specs = sim.specs ++ [spec] := by
  unfold addFlow at h
  split at h
  · rw [← Option.some.inj h]
    exact ⟨rfl, rfl, rfl, rfl⟩
  · exact absurd h (by simp)

theorem addFlows_eq {flows : List FlowSpec} {sim sim' : Simulation}
    (h : sim.addFlows flows = some sim') : sim'.fabric = sim.fabric ∧ sim'.routes = sim.routes ∧
      sim'.transport = sim.transport ∧ sim'.specs = sim.specs ++ flows := by
  induction flows generalizing sim with
  | nil =>
    obtain rfl := Option.some.inj h
    exact ⟨rfl, rfl, rfl, (List.append_nil _).symm⟩
  | cons spec flows ih =>
    unfold addFlows at h
    rw [List.foldlM_cons] at h
    obtain ⟨sim₁, hfirst, hrest⟩ := Option.bind_eq_some_iff.mp h
    obtain ⟨h1, h2, h3, h4⟩ := addFlow_eq hfirst
    obtain ⟨g1, g2, g3, g4⟩ := ih hrest
    refine ⟨g1.trans h1, g2.trans h2, g3.trans h3, ?_⟩
    rw [g4, h4, List.append_assoc]
    rfl

theorem spec_mem (sim : Simulation) {f : FlowId} (h : f < sim.flowCount) :
    sim.spec f ∈ sim.specs := by
  unfold spec
  rw [List.getD_eq_getElem _ _ h]
  exact List.getElem_mem _

end Simulation

theorem fatTreeHops_le (k i j : Nat) : fatTreeHops k i j ≤ kFatTreeCrossPodHops := by
  unfold fatTreeHops
  split
  · decide
  · split <;> decide

namespace FatTree

/-- The builder accepts even arities only. -/
theorem arity_of_build {cfg : FatTreeConfig} {f : Fabric} (h : buildFatTree cfg = some f) :
    2 ≤ cfg.k ∧ cfg.k % 2 = 0 := by
  unfold buildFatTree at h
  split at h
  · assumption
  · exact absurd h (by simp)

/-- The ports of the fat tree can be counted in 32 bits, as a `PortId` needs. -/
def PortsFit (k : Nat) : Prop := 5 * k ^ 2 / 4 * k + k ^ 3 / 4 < 2 ^ 32

instance (k : Nat) : Decidable (PortsFit k) := by
  unfold PortsFit
  infer_instance

/-- So can the entries of its route table. -/
def TableFits (k : Nat) : Prop := 12 * (k / 2) ^ 6 < 2 ^ 32

instance (k : Nat) : Decidable (TableFits k) := by
  unfold TableFits
  infer_instance

/-- A table whose entries can be counted belongs to few ports. -/
theorem TableFits.ports {k : Nat} (h : TableFits k) : PortsFit k := by
  have hk : k ≤ 53 := by
    by_contra hlt
    have hhalf : 27 ≤ k / 2 := by omega
    have hpow : 12 * 27 ^ 6 ≤ 12 * (k / 2) ^ 6 := Nat.mul_le_mul_left _ (Nat.pow_le_pow_left hhalf 6)
    exact absurd (hpow.trans_lt h) (by decide)
  calc 5 * k ^ 2 / 4 * k + k ^ 3 / 4 ≤ 5 * 53 ^ 2 / 4 * 53 + 53 ^ 3 / 4 := by gcongr
    _ < 2 ^ 32 := by decide

/-- A built fat tree is the builder's, under the plain indices. -/
theorem build_eq {cfg : FatTreeConfig} {f : Fabric} (h : buildFatTree cfg = some f)
    (hports : PortsFit cfg.k) :
    Fits cfg.k (cfg.k / 2) ∧ f = (builder cfg (cfg.k / 2)).build := by
  obtain ⟨htwo, heven⟩ := arity_of_build h
  have hfits := fits htwo heven hports
  rw [buildFatTree_eq hfits] at h
  exact ⟨hfits, (Option.some.inj h).symm⟩

section Hosts

variable {cfg : FatTreeConfig} {n : Nat}

/-- Node 0 is a switch, so a host index out of range names no host. -/
theorem lt_of_isHost (hn : 0 < n) {i : Nat}
    (h : ((builder cfg n).build.node ((builder cfg n).build.hostAt i)).isHost = true) :
    i < (builder cfg n).build.hostCount := by
  by_contra hge
  have hzero : (builder cfg n).build.hostAt i = 0 := List.getD_eq_default _ _ (not_lt.mp hge)
  have hfirst : (builder cfg n).SwitchesFirst (switchCount n) (hostCount n) := switchesFirst
  rw [hzero, hfirst.isHost_iff] at h
  have hpos : 0 < switchCount n := Nat.mul_pos (by decide) (Nat.mul_pos hn hn)
  omega

/-- The links of the hosts, and the two layers of links between switches. -/
theorem twoTier (hn : 0 < n) : (builder cfg n).build.TwoTier cfg.hostLink cfg.fabricLink := by
  have hfirst : (builder cfg n).SwitchesFirst (switchCount n) (hostCount n) := switchesFirst
  refine hfirst.twoTier (valid hn) fun x hx => ?_
  rcases mem_edges.mp hx with ⟨pod, a, j, hpod, ha, hj, rfl⟩ | ⟨pod, a, e, hpod, ha, he, rfl⟩ |
    ⟨i, hi, rfl⟩
  · exact Or.inl ⟨agg_lt hpod ha, (core_lt ha hj).trans_le (square_le_switchCount n), rfl⟩
  · exact Or.inl ⟨agg_lt hpod ha, edge_lt hpod he, rfl⟩
  · exact Or.inr ⟨le_host i, edge_lt (podOf_lt' hn hi) (edgeOf_lt' hn i), rfl⟩

end Hosts

end FatTree

namespace AllReduce

theorem le_foldl_max (h : Nat → Nat) (l : List Nat) (m : Nat) :
    m ≤ l.foldl (fun m r => if m < h r then h r else m) m ∧
      ∀ r ∈ l, h r ≤ l.foldl (fun m r => if m < h r then h r else m) m := by
  induction l generalizing m with
  | nil => exact ⟨le_rfl, fun _ hr => absurd hr List.not_mem_nil⟩
  | cons x l ih =>
    rw [List.foldl_cons]
    obtain ⟨hle, hall⟩ := ih (if m < h x then h x else m)
    refine ⟨le_trans ?_ hle, fun r hr => ?_⟩
    · split <;> omega
    · rcases List.mem_cons.mp hr with rfl | hr
      · refine le_trans ?_ hle
        split <;> omega
      · exact hall r hr

theorem foldl_max_le {h : Nat → Nat} {c : Nat} (l : List Nat) {m : Nat} (hm : m ≤ c)
    (hall : ∀ r ∈ l, h r ≤ c) : l.foldl (fun m r => if m < h r then h r else m) m ≤ c := by
  induction l generalizing m with
  | nil => exact hm
  | cons x l ih =>
    refine ih ?_ fun r hr => hall r (List.mem_cons_of_mem _ hr)
    dsimp only
    split
    · exact hall x (List.mem_cons_self ..)
    · exact hm

theorem ringHops_le_maxHops {ar : AllReduce} (k : Nat) {r : Nat} (hr : r < ar.gpus) :
    ar.ringHops k r ≤ ar.maxHops k :=
  (le_foldl_max (ar.ringHops k) (List.range ar.gpus) 0).2 r (List.mem_range.mpr hr)

/-- The hop count that is reported is the one the timeout was sized for. -/
theorem hops_eq_maxHops (cfg : AllReduceConfig) {ar : AllReduce} (hg : 0 < ar.gpus) :
    cfg.hops ar = ar.maxHops cfg.topology.k := by
  unfold AllReduceConfig.hops
  split
  · next hu =>
    refine le_antisymm (ringHops_le_maxHops _ hg) ?_
    refine foldl_max_le _ (Nat.zero_le _) fun r hr => ?_
    unfold uniformHops at hu
    exact (beq_iff_eq.mp (List.all_eq_true.mp hu r hr)).le
  · rfl

end AllReduce

/-- The simulation of a scenario, with what its timeout was sized from. -/
structure FatTreeScenario where
  topology : FatTreeConfig
  transport : TransportConfig
  mtuBytes : Nat
  hops : Nat
  sim : Simulation

/-- The scenarios that the two builders make. -/
inductive FatTreeScenario.Built (draws : Draws) : FatTreeScenario → Prop where
  | permutation (cfg : PermutationConfig) (sc : PermutationScenario)
      (h : buildPermutation cfg draws = some sc) : Built draws
        ⟨cfg.topology, cfg.transport, cfg.workload.mtuBytes, kFatTreeCrossPodHops, sc.sim⟩
  | allReduce (cfg : AllReduceConfig) (sc : AllReduceScenario)
      (h : buildAllReduce cfg draws = some sc) : Built draws
        ⟨cfg.topology, cfg.transport, cfg.workload.mtuBytes, sc.hops, sc.sim⟩

namespace FatTreeScenario

/-- What a built scenario guarantees, for arity `2 * n`. -/
structure Facts (sc : FatTreeScenario) (n : Nat) : Prop where
  fits : FatTree.Fits sc.topology.k n
  fabric : sc.sim.fabric = (FatTree.builder sc.topology n).build
  routes : sc.sim.routes = RouteTable.buildShortestPath sc.sim.fabric
  transport : sc.sim.transport =
    sizedTransport sc.transport sc.topology.hostLink sc.mtuBytes sc.hops
  mtu : ∀ f, f < sc.sim.flowCount → (sc.sim.spec f).mtuBytes = sc.mtuBytes
  hops : ∀ f, f < sc.sim.flowCount → sc.sim.hops f ≤ sc.hops

variable {sc : FatTreeScenario} {n : Nat} {draws : Draws}

namespace Facts

theorem wired (h : sc.Facts n) : sc.sim.Wired where
  built := ⟨_, FatTree.valid h.fits.pos, h.fabric⟩
  connected := by
    rw [h.fabric]
    exact FatTree.connected h.fits.pos
  singlePort := by
    rw [h.fabric]
    exact FatTree.singlePortHosts h.fits.pos
  routes := h.routes

theorem routed (h : sc.Facts n) (htable : FatTree.TableFits sc.topology.k) : sc.sim.Routed where
  toWired := h.wired
  counted := by
    rw [h.routes, h.fabric, FatTree.length_entries h.fits.pos, ← h.fits.half]
    exact htable

theorem links (h : sc.Facts n) {link : LinkParams} (hhost : sc.topology.hostLink = link)
    (hfabric : sc.topology.fabricLink = link) {p : PortId} (hp : p < sc.sim.fabric.portCount) :
    (sc.sim.fabric.port p).rate = link.rate ∧
      (sc.sim.fabric.port p).propDelayNs = link.propDelayNs ∧
      (sc.sim.fabric.port p).queueCapacity = link.queueCapacityPkts := by
  rw [h.fabric] at hp ⊢
  exact FatTree.links_alike h.fits.pos hhost hfabric hp

end Facts

/-- Two different hosts are as far apart as their indices say. -/
theorem dist_hostAt {cfg : FatTreeConfig} (h : FatTree.Fits cfg.k n) {i j : Nat}
    (hi : ((FatTree.builder cfg n).build.node
      ((FatTree.builder cfg n).build.hostAt i)).isHost = true)
    (hj : ((FatTree.builder cfg n).build.node
      ((FatTree.builder cfg n).build.hostAt j)).isHost = true)
    (hne : (FatTree.builder cfg n).build.hostAt i ≠ (FatTree.builder cfg n).build.hostAt j) :
    (FatTree.builder cfg n).build.graph.dist ((FatTree.builder cfg n).build.hostAt i)
      ((FatTree.builder cfg n).build.hostAt j) = fatTreeHops cfg.k i j := by
  refine (FatTree.structure_builder h.pos h).hops i j (FatTree.lt_of_isHost h.pos hi)
    (FatTree.lt_of_isHost h.pos hj) ?_
  rintro rfl
  exact hne rfl

theorem Built.facts (h : Built draws sc) (hports : FatTree.PortsFit sc.topology.k) :
    sc.Facts (sc.topology.k / 2) := by
  cases h with
  | permutation cfg out h =>
    unfold buildPermutation at h
    obtain ⟨fab, hfab, h⟩ := Option.bind_eq_some_iff.mp h
    obtain ⟨flows, hflows, h⟩ := Option.bind_eq_some_iff.mp h
    obtain ⟨sim, hsim, h⟩ := Option.bind_eq_some_iff.mp h
    obtain rfl := Option.some.inj h
    obtain ⟨hfits, rfl⟩ := FatTree.build_eq hfab hports
    obtain ⟨h1, h2, h3, h4⟩ := Simulation.addFlows_eq hsim
    have hfabric : sim.fabric = (FatTree.builder cfg.topology (cfg.topology.k / 2)).build := h1
    have hspec : ∀ f, f < sim.flowCount → ∃ i, sim.spec f = permutationFlow _ cfg.workload draws
        _ i := fun f hf => by
      refine mem_makePermutation hflows ?_
      have hmem := sim.spec_mem hf
      rw [h4] at hmem
      exact (List.mem_append.mp hmem).resolve_left List.not_mem_nil
    refine ⟨hfits, hfabric, by rw [hfabric]; exact h2, h3, fun f hf => ?_, fun f hf => ?_⟩
    · obtain ⟨i, hi⟩ := hspec f hf
      dsimp only
      rw [hi]
      rfl
    · obtain ⟨i, hi⟩ := hspec f hf
      have hacc := sim.spec_accepted hf
      have hs := hacc.src_host
      have hd := hacc.dst_host
      have hne := hacc.src_ne_dst
      show sim.fabric.graph.dist (sim.spec f).src (sim.spec f).dst ≤ kFatTreeCrossPodHops
      rw [hfabric] at hs hd ⊢
      rw [hi] at hs hd hne ⊢
      exact (dist_hostAt hfits hs hd hne).trans_le (fatTreeHops_le _ _ _)
  | allReduce cfg out h =>
    unfold buildAllReduce at h
    obtain ⟨fab, hfab, h⟩ := Option.bind_eq_some_iff.mp h
    obtain ⟨ar, har, h⟩ := Option.bind_eq_some_iff.mp h
    obtain ⟨sim, hsim, h⟩ := Option.bind_eq_some_iff.mp h
    obtain rfl := Option.some.inj h
    obtain ⟨hfits, rfl⟩ := FatTree.build_eq hfab hports
    obtain ⟨h1, h2, h3, h4⟩ := Simulation.addFlows_eq hsim
    have hfabric : sim.fabric = (FatTree.builder cfg.topology (cfg.topology.k / 2)).build := h1
    have hgpus := (makeRingAllReduce_made har).gpus_ge
    have hmax := @AllReduce.hops_eq_maxHops cfg ar (by omega)
    have hspec : ∀ f, f < sim.flowCount → ∃ s r, s < ar.steps ∧ r < ar.gpus ∧
        sim.spec f = AllReduce.ringFlow _ cfg.params draws ar.gpus ar.chunkBytes ar.rankToHost s r :=
      fun f hf => by
        refine mem_makeRingAllReduce har ?_
        have hmem := sim.spec_mem hf
        rw [h4] at hmem
        exact (List.mem_append.mp hmem).resolve_left List.not_mem_nil
    refine ⟨hfits, hfabric, by rw [hfabric]; exact h2, ?_, fun f hf => ?_, fun f hf => ?_⟩
    · show sim.transport = _
      rw [h3]
      dsimp only
      rw [hmax]
      rfl
    · obtain ⟨s, r, -, -, hi⟩ := hspec f hf
      dsimp only
      rw [hi]
      rfl
    · obtain ⟨s, r, -, hr, hi⟩ := hspec f hf
      have hacc := sim.spec_accepted hf
      have hs := hacc.src_host
      have hd := hacc.dst_host
      have hne := hacc.src_ne_dst
      show sim.fabric.graph.dist (sim.spec f).src (sim.spec f).dst ≤ cfg.hops ar
      rw [hfabric] at hs hd ⊢
      rw [hi] at hs hd hne ⊢
      rw [hmax]
      exact (dist_hostAt hfits hs hd hne).trans_le (AllReduce.ringHops_le_maxHops _ hr)

end FatTreeScenario

end FabricSim
