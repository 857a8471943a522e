import FabricSim.Harness.OnFatTree
import FabricSim.Harness.RingChain
import FabricSim.Harness.RingHops
import FabricSim.Workload.Sattolo

/-!
# When the builders' assertions hold

On a fat tree the permutation of every sequence of draws can be built, given flows that
`add_flow` accepts (`buildPermutation_builds`). The ring needs ranks and buffer that fit:
`buildAllReduce_builds_iff` says which.
-/

namespace FabricSim

open FatTree (Fits)

/-- Flows that are accepted where they stand can be added. -/
theorem Simulation.exists_addFlows {flows : List FlowSpec} (sim : Simulation)
    (h : ∀ (i : Nat) (flow : FlowSpec), flows[i]? = some flow → flow.Accepted sim.fabric (sim.specs.length + i)) :
    ∃ sim', sim.addFlows flows = some sim' := by
  induction flows generalizing sim with
  | nil => exact ⟨sim, rfl⟩
  | cons flow flows ih =>
    have hfirst : flow.Accepted sim.fabric sim.specs.length := h 0 flow rfl
    obtain ⟨sim₁, hadd⟩ : ∃ sim₁, sim.addFlow flow = some sim₁ := by
      unfold addFlow
      rw [dif_pos hfirst]
      exact ⟨_, rfl⟩
    obtain ⟨hfabric, -, -, hspecs⟩ := addFlow_eq hadd
    obtain ⟨sim', hrest⟩ := ih sim₁ fun i flow' hi => by
      have hnext := h (i + 1) flow' hi
      rw [hfabric, hspecs, List.length_append, List.length_singleton, Nat.add_assoc, Nat.add_comm 1]
      exact hnext
    refine ⟨sim', ?_⟩
    unfold addFlows
    rw [List.foldlM_cons, hadd]
    exact hrest

/-- The checks of `begin_run` on a transport whose timeout was sized. -/
theorem sizedTransport_accepted {t : TransportConfig} {link : LinkParams} {mtuBytes hops : Nat}
    (hattempts : 0 < t.maxAttempts ∧ t.maxAttempts < 256)
    (hack : 0 < t.ackBytes ∧ t.ackBytes ≤ kMaxPacketBytes)
    (hrto : 0 < defaultRtoNs hops (serializationNs mtuBytes link.rate)
      (serializationNs t.ackBytes link.rate) link.propDelayNs (u32 link.queueCapacityPkts)) :
    (sizedTransport t link mtuBytes hops).Accepted := by
  unfold sizedTransport
  split
  · exact ⟨hrto, hattempts.1, hattempts.2, hack.1, hack.2⟩
  · next hset => exact ⟨Nat.pos_of_ne_zero hset, hattempts.1, hattempts.2, hack.1, hack.2⟩

namespace FatTree

variable {cfg : FatTreeConfig} {n : Nat}

/-- Two different host indices are two different hosts. -/
theorem hostAt_ne (cfg : FatTreeConfig) (hn : 0 < n) {i j : Nat} (hi : i < hostCount n) (hj : j < hostCount n)
    (hne : i ≠ j) : ((builder cfg n).build.node ((builder cfg n).build.hostAt i)).isHost = true ∧
      ((builder cfg n).build.node ((builder cfg n).build.hostAt j)).isHost = true ∧
      (builder cfg n).build.hostAt i ≠ (builder cfg n).build.hostAt j := by
  have hwf := wellFormed hn cfg
  have hcount : (builder cfg n).build.hostCount = hostCount n := switchesFirst.hostCount
  rw [← hcount] at hi hj
  exact ⟨hwf.isHost_hostAt i hi, hwf.isHost_hostAt j hj,
    fun heq => hne (Fabric.hostAt_inj (FabricBuilder.nodup_hosts _) hi hj heq)⟩

theorem two_le_hostCount (hn : 0 < n) : 2 ≤ hostCount n := by
  have hpos := Nat.mul_pos hn (Nat.mul_pos hn hn)
  unfold hostCount
  rw [Nat.mul_assoc]
  omega

theorem Fits.hosts_lt {k : Nat} (h : Fits k n) : hostCount n < 2 ^ 32 := by
  have hports := h.ports
  unfold hostCount
  rw [Nat.mul_assoc]
  rw [Nat.mul_assoc] at hports
  omega

theorem Fits.cube {k : Nat} (h : Fits k n) : k ^ 3 / 4 = hostCount n := by
  have hcube := cube_div_four (k := k) (by have := h.twice; omega)
  rw [hcube, h.half, h.twice]
  rfl

end FatTree

/-! ## permutation -/

section Permutation

variable {cfg : PermutationConfig} {n : Nat} (hfits : Fits cfg.topology.k n)
  (hload : 0 < cfg.workload.loadPermille ∧ cfg.workload.loadPermille ≤ 1000)
  (hmtu : 0 < cfg.workload.mtuBytes ∧ cfg.workload.mtuBytes ≤ kMaxPacketBytes)
  (hsize : 0 < cfg.workload.flowBytes)

include hfits hload hmtu hsize

theorem buildPermutation_builds {draws : Draws} (hdraws : draws.Valid (FatTree.hostCount n)) :
    ∃ sc, buildPermutation cfg draws = some sc ∧ sc.sim.transport =
      sizedTransport cfg.transport cfg.topology.hostLink cfg.workload.mtuBytes
        kFatTreeCrossPodHops := by
  have hpos := hfits.pos
  have htwo := FatTree.two_le_hostCount hpos
  have hcount : (FatTree.builder cfg.topology n).build.hostCount = FatTree.hostCount n :=
    FatTree.switchesFirst.hostCount
  obtain ⟨flows, hflows, -, -⟩ :=
    makePermutation_hosts htwo hdraws hcount hfits.hosts_lt hload
  have heq := makePermutation_eq hflows
  rw [hcount, u32_of_lt hfits.hosts_lt] at heq
  have haccept : ∀ (i : Nat) (flow : FlowSpec), flows[i]? = some flow →
      flow.Accepted (FatTree.builder cfg.topology n).build i := by
    intro i flow hi
    rw [heq, List.getElem?_map] at hi
    obtain ⟨h, hh, rfl⟩ := Option.map_eq_some_iff.mp hi
    have hlt : h < FatTree.hostCount n := List.mem_range.mp (List.mem_of_getElem? hh)
    obtain ⟨hsrc, hdst, hne⟩ := FatTree.hostAt_ne cfg.topology hpos hlt
      (permutationOf_lt htwo hdraws hlt) (permutationOf_ne htwo hdraws hlt).symm
    exact ⟨hmtu.1, hmtu.2, hsize, hsrc, hdst, hne, hload.1, hload.2, fun d hd => by
      exact absurd hd (by simp [permutationFlow])⟩
  obtain ⟨sim, hsim⟩ := Simulation.exists_addFlows
    ((Simulation.create (FatTree.builder cfg.topology n).build
      (RouteTable.buildShortestPath (FatTree.builder cfg.topology n).build)).setTransport
        (sizedTransport cfg.transport cfg.topology.hostLink cfg.workload.mtuBytes
          kFatTreeCrossPodHops))
    fun i flow hi => (Nat.zero_add i).symm ▸ haccept i flow hi
  obtain ⟨-, -, htransport, -⟩ := Simulation.addFlows_eq hsim
  unfold buildPermutation
  rw [FatTree.buildFatTree_eq hfits, Option.bind_eq_bind, Option.bind_some, hflows,
    Option.bind_eq_bind, Option.bind_some]
  dsimp only
  rw [hsim]
  exact ⟨_, rfl, htransport⟩

end Permutation

/-! ## all-reduce -/

/-- The ranks of a ring, on as many hosts. -/
def AllReduceParams.ranks (p : AllReduceParams) (hosts : Nat) : Nat :=
  if p.gpuCount = 0 then hosts else p.gpuCount

/-- The ring fits the fabric and the buffer: a host for every rank, all hosts when the
ranks go round the pods, and a byte at least for every chunk. -/
structure AllReduceParams.Fits (p : AllReduceParams) (hosts : Nat) : Prop where
  two_le : 2 ≤ p.ranks hosts
  le_hosts : p.ranks hosts ≤ hosts
  all : p.placement = .roundRobinPods → p.ranks hosts = hosts
  le_buffer : p.ranks hosts ≤ p.bufferBytes

namespace AllReduce

/-- The flows of a ring meet the assertions of `add_flow`, however many there are: an id
that has wrapped is small. -/
theorem Made.accepted {b : FabricBuilder} {params : AllReduceParams} {draws : Draws} {ar : AllReduce}
    (h : ar.Made b.build params draws) (hb : b.Valid) (hfit : ar.gpus < 2 ^ 32 - 1)
    (harity : ArityFits b.build params)
    (hload : 0 < params.loadPermille ∧ params.loadPermille ≤ 1000)
    (hmtu : 0 < params.mtuBytes ∧ params.mtuBytes ≤ kMaxPacketBytes) {i : Nat} {flow : FlowSpec}
    (hi : ar.flows[i]? = some flow) : flow.Accepted b.build i := by
  have hwf := FabricBuilder.build_wellFormed hb
  have htwo := h.gpus_ge
  have hpos : 0 < ar.gpus := by omega
  obtain ⟨hlt, hinj⟩ := placeRanks_hosts harity h.gpus_le (by omega) h.placed
  rw [h.flows_eq, Digits.flatMap_map_range, List.getElem?_map] at hi
  obtain ⟨j, hj, rfl⟩ := Option.map_eq_some_iff.mp hi
  obtain ⟨hjlt, rfl⟩ := List.getElem?_eq_some_iff.mp hj
  rw [List.getElem_range]
  rw [List.length_range] at hjlt
  have hr : i % ar.gpus < ar.gpus := Nat.mod_lt _ hpos
  have hnext : u32 (i % ar.gpus + 1) % ar.gpus < ar.gpus := Nat.mod_lt _ hpos
  have hne : u32 (i % ar.gpus + 1) % ar.gpus ≠ i % ar.gpus := by
    rw [u32_of_lt (by omega)]
    exact succ_mod_self_ne htwo hr
  refine ⟨hmtu.1, hmtu.2, h.chunk_pos, hwf.isHost_hostAt _ (hlt _ hr),
    hwf.isHost_hostAt _ (hlt _ hnext), fun heq => ?_, hload.1, hload.2, fun d hd => ?_⟩
  · have hsame := Fabric.hostAt_inj (FabricBuilder.nodup_hosts b) (hlt _ hr) (hlt _ hnext) heq
    exact hne (hinj _ _ hr hnext hsame).symm
  · unfold ringFlow at hd
    dsimp only at hd
    split at hd
    · next hstep =>
      obtain rfl := Option.some.inj (Option.mem_def.mp hd)
      have hprev : u32 (i % ar.gpus + ar.gpus - 1) % ar.gpus < ar.gpus := Nat.mod_lt _ hpos
      have hback : (i / ar.gpus - 1 + 1) * ar.gpus = (i / ar.gpus - 1) * ar.gpus + ar.gpus :=
        Nat.succ_mul _ _
      have hsplit := Nat.div_mul_le_self i ar.gpus
      rw [Nat.sub_add_cancel hstep] at hback
      calc u32 ((i / ar.gpus - 1) * ar.gpus + u32 (i % ar.gpus + ar.gpus - 1) % ar.gpus)
          ≤ (i / ar.gpus - 1) * ar.gpus + u32 (i % ar.gpus + ar.gpus - 1) % ar.gpus := u32_le _
        _ < i := by omega
    · exact absurd hd (by simp)

theorem ringHops_ge (k : Nat) (ar : AllReduce) (r : Nat) : kFatTreeSameEdgeHops ≤ ar.ringHops k r := by
  unfold ringHops fatTreeHops
  split
  · decide
  · split <;> decide

theorem maxHops_bounds (k : Nat) {ar : AllReduce} (hg : 0 < ar.gpus) :
    kFatTreeSameEdgeHops ≤ ar.maxHops k ∧ ar.maxHops k ≤ kFatTreeCrossPodHops := by
  constructor
  · exact (ringHops_ge k ar 0).trans (ringHops_le_maxHops k hg)
  · exact foldl_max_le _ (Nat.zero_le _) fun r _ => fatTreeHops_le _ _ _

end AllReduce

section Ring

variable {cfg : AllReduceConfig} {n : Nat} (hfits : Fits cfg.topology.k n)

include hfits

theorem arityFits_params :
    AllReduce.ArityFits (FatTree.builder cfg.topology n).build cfg.params := by
  intro _
  have hpos := hfits.pos
  have htwice := hfits.twice
  refine ⟨?_, ?_, ?_⟩
  · show 2 ≤ cfg.topology.k
    omega
  · show cfg.topology.k % 2 = 0
    omega
  · show _ = cfg.topology.k ^ 3 / 4
    rw [hfits.cube]
    exact FatTree.switchesFirst.hostCount

/-- The generator's assertions hold for a ring that fits, and for no other. -/
theorem makeRingAllReduce_isSome_iff (draws : Draws) :
    (makeRingAllReduce (FatTree.builder cfg.topology n).build cfg.params draws).isSome = true ↔
      cfg.params.Fits (FatTree.hostCount n) := by
  have hcount : (FatTree.builder cfg.topology n).build.hostCount = FatTree.hostCount n :=
    FatTree.switchesFirst.hostCount
  have hpos := hfits.pos
  have htwice := hfits.twice
  unfold makeRingAllReduce
  rw [hcount, u32_of_lt hfits.hosts_lt]
  dsimp only
  generalize hN : (if cfg.params.gpuCount = 0 then FatTree.hostCount n else cfg.params.gpuCount) = N
  have hranks : cfg.params.ranks (FatTree.hostCount n) = N := hN
  split
  · next hg =>
    have hchunk : 0 < cfg.params.bufferBytes / N ↔ N ≤ cfg.params.bufferBytes :=
      Nat.div_pos_iff.trans (and_iff_right (by omega))
    split
    · next hbuffer =>
      rw [Option.isSome_map]
      constructor
      · intro hplaced
        refine ⟨hranks ▸ hg.1, hranks ▸ hg.2, fun hp => ?_, hranks ▸ hchunk.mp hbuffer⟩
        unfold placeRanks at hplaced
        rw [hp] at hplaced
        dsimp only at hplaced
        split at hplaced
        · next hall => exact hranks.trans (hall.2.2.trans hcount)
        · exact absurd hplaced (by simp)
      · intro hring
        obtain ⟨hosts, hhosts⟩ := AllReduce.placeRanks_isSome (arityFits_params hfits) fun hp =>
          hranks.symm.trans ((hring.all hp).trans hcount.symm)
        rw [hhosts]
        rfl
    · next hbuffer =>
      exact iff_of_false (by simp) fun hring => hbuffer (hchunk.mpr (hranks ▸ hring.le_buffer))
  · next hg =>
    exact iff_of_false (by simp) fun hring =>
      hg ⟨hranks ▸ hring.two_le, hranks ▸ hring.le_hosts⟩

variable (hload : 0 < cfg.workload.loadPermille ∧ cfg.workload.loadPermille ≤ 1000)
  (hmtu : 0 < cfg.workload.mtuBytes ∧ cfg.workload.mtuBytes ≤ kMaxPacketBytes)

include hload hmtu

theorem buildAllReduce_builds_iff (draws : Draws) :
    (∃ sc, buildAllReduce cfg draws = some sc) ↔ cfg.params.Fits (FatTree.hostCount n) := by
  rw [← makeRingAllReduce_isSome_iff hfits draws, Option.isSome_iff_exists]
  constructor
  · intro ⟨sc, h⟩
    obtain ⟨fab, ar, hfab, har, -⟩ := buildAllReduce_eq h
    rw [FatTree.buildFatTree_eq hfits] at hfab
    obtain rfl := Option.some.inj hfab
    exact ⟨ar, har⟩
  · intro ⟨ar, har⟩
    have hmade := makeRingAllReduce_made har
    have hcount : (FatTree.builder cfg.topology n).build.hostCount = FatTree.hostCount n :=
      FatTree.switchesFirst.hostCount
    have hsmall : ar.gpus < 2 ^ 32 - 1 := by
      have hle := hmade.gpus_le
      have hports := hfits.ports
      rw [hcount] at hle
      unfold FatTree.hostCount at hle
      rw [Nat.mul_assoc] at hle hports
      omega
    have haccept : ∀ (i : Nat) (flow : FlowSpec), ar.flows[i]? = some flow →
        flow.Accepted (FatTree.builder cfg.topology n).build i := fun i flow hi =>
      hmade.accepted (FatTree.valid hfits.pos) hsmall (arityFits_params hfits) hload hmtu hi
    obtain ⟨sim, hsim⟩ := Simulation.exists_addFlows
      ((Simulation.create (FatTree.builder cfg.topology n).build
        (RouteTable.buildShortestPath (FatTree.builder cfg.topology n).build)).setTransport
          (cfg.sized ar))
      fun i flow hi => (Nat.zero_add i).symm ▸ haccept i flow hi
    unfold buildAllReduce
    rw [FatTree.buildFatTree_eq hfits, Option.bind_eq_bind, Option.bind_some, har,
      Option.bind_eq_bind, Option.bind_some, hsim]
    exact ⟨_, rfl⟩

omit hload hmtu in
/-- What the assertions say of a ring that was built. -/
theorem buildAllReduce_made {draws : Draws} {sc : AllReduceScenario}
    (h : buildAllReduce cfg draws = some sc) : ∃ ar : AllReduce,
      ar.Made sc.sim.fabric cfg.params draws ∧ sc.sim.fabric.hostCount = FatTree.hostCount n ∧
        sc.gpus = ar.gpus ∧ sc.chunkBytes = ar.chunkBytes ∧ sc.sim.transport = cfg.sized ar := by
  unfold buildAllReduce at h
  rw [FatTree.buildFatTree_eq hfits, Option.bind_eq_bind, Option.bind_some] at h
  obtain ⟨ar, har, h⟩ := Option.bind_eq_some_iff.mp h
  obtain ⟨sim, hsim, h⟩ := Option.bind_eq_some_iff.mp h
  obtain rfl := Option.some.inj h
  obtain ⟨hfabric, -, htransport, -⟩ := Simulation.addFlows_eq hsim
  have hmade := makeRingAllReduce_made har
  refine ⟨ar, ?_, ?_, rfl, rfl, htransport⟩
  · rw [hfabric]
    exact hmade
  · rw [hfabric]
    exact FatTree.switchesFirst.hostCount

end Ring

end FabricSim
