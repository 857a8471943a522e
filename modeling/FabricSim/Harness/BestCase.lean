import FabricSim.Core.Barrier
import FabricSim.Harness.LowerBound
import FabricSim.Harness.OnFatTree
import FabricSim.Metrics.Fct
import FabricSim.Model.BuilderLayout

/-!
# The best case of a permutation

The closed form charges every packet of a flow a full MTU, the last one included. The
last packet is only as large as what is left, so a flow whose last packet takes less
time on the wire can finish before its bound. While it takes as long as the others the
bound holds (`Reachable.start_add_le_finish`), and so does their minimum, unless a
closed form leaves 64 bits.
-/

namespace FabricSim

open State

namespace PermutationConfig

variable (cfg : PermutationConfig)

def serNs : Nat := serializationNs cfg.workload.mtuBytes cfg.topology.hostLink.rate

def periodNs : Nat := pacingNs cfg.serNs cfg.workload.loadPermille

def packets : Nat := packetCount cfg.workload.flowBytes cfg.workload.mtuBytes

/-- The size of the last packet of each flow. -/
def lastBytes : Nat :=
  FlowSpec.packetBytes
    { sizeBytes := cfg.workload.flowBytes, mtuBytes := cfg.workload.mtuBytes } (cfg.packets - 1)

/-- The closed form for a number of hops, before any reduction. -/
def exactNs (hops : Nat) : Nat :=
  (cfg.packets - 1) * cfg.periodNs + hops * (cfg.serNs + cfg.topology.hostLink.propDelayNs)

variable {cfg}

theorem lowerBound_le (h : 0 < cfg.packets) (i j : Nat) :
    permutationFlowLowerBoundNs cfg i j ≤ cfg.exactNs (fatTreeHops cfg.topology.k i j) :=
  pacedFctNs_le h _ _ _ _

theorem lowerBound_eq (h : 0 < cfg.packets) (hfit : cfg.exactNs kFatTreeCrossPodHops < 2 ^ 64)
    (i j : Nat) :
    permutationFlowLowerBoundNs cfg i j = cfg.exactNs (fatTreeHops cfg.topology.k i j) := by
  have hle : cfg.exactNs (fatTreeHops cfg.topology.k i j) ≤ cfg.exactNs kFatTreeCrossPodHops :=
    Nat.add_le_add_left (Nat.mul_le_mul_right _ (fatTreeHops_le _ _ _)) _
  exact pacedFctNs_eq h (hle.trans_lt hfit)

theorem exactNs_pos_iff {hops : Nat} (hpos : 0 < hops) :
    0 < cfg.exactNs hops ↔ 0 < cfg.exactNs kFatTreeCrossPodHops := by
  unfold exactNs
  rw [Nat.add_pos_iff_pos_or_pos, Nat.add_pos_iff_pos_or_pos, Nat.mul_pos_iff_of_pos_left hpos,
    Nat.mul_pos_iff_of_pos_left (show 0 < kFatTreeCrossPodHops by decide)]

end PermutationConfig

theorem fatTreeHops_pos (k i j : Nat) : 0 < fatTreeHops k i j := by
  unfold fatTreeHops
  split
  · decide
  · split <;> decide

/-! ## The least of the bounds -/

/-- One step of the search for the least bound; 0 stands for none yet. -/
def better (best lb : Nat) : Nat := if best = 0 ∨ lb < best then lb else best

theorem foldl_better_le {α : Type} (lb : α → Nat) {l : List α} (hpos : ∀ x ∈ l, 0 < lb x)
    (best : Nat) : (0 < best → l.foldl (fun b x => better b (lb x)) best ≤ best) ∧
      ∀ x ∈ l, l.foldl (fun b x => better b (lb x)) best ≤ lb x := by
  induction l generalizing best with
  | nil => exact ⟨fun _ => le_rfl, fun _ hx => absurd hx List.not_mem_nil⟩
  | cons y l ih =>
    have hy := hpos y (List.mem_cons_self ..)
    obtain ⟨hbest, hrest⟩ := ih (fun x hx => hpos x (List.mem_cons_of_mem _ hx)) (better best (lb y))
    have hstep : 0 < better best (lb y) ∧ better best (lb y) ≤ lb y ∧
        (0 < best → better best (lb y) ≤ best) := by
      unfold better
      split <;> omega
    rw [List.foldl_cons]
    refine ⟨fun h => (hbest hstep.1).trans (hstep.2.2 h), fun x hx => ?_⟩
    rcases List.mem_cons.mp hx with rfl | hx
    · exact (hbest hstep.1).trans hstep.2.1
    · exact hrest x hx

theorem foldl_better_zero {α : Type} (lb : α → Nat) {l : List α} (hzero : ∀ x ∈ l, lb x = 0) :
    l.foldl (fun b x => better b (lb x)) 0 = 0 := by
  induction l with
  | nil => rfl
  | cons y l ih =>
    rw [List.foldl_cons, hzero y (List.mem_cons_self ..)]
    exact ih fun x hx => hzero x (List.mem_cons_of_mem _ hx)

theorem bestCase_eq (cfg : PermutationConfig) (f : Fabric) (flows : List FlowSpec) :
    bestCase cfg f flows = flows.zipIdx.foldl (fun b fi =>
      better b (permutationFlowLowerBoundNs cfg fi.2 (f.hostIndex fi.1.dst))) 0 := rfl

/-- The best case is at most every flow's bound. -/
theorem bestCase_le {cfg : PermutationConfig} (h : 0 < cfg.packets)
    (hfit : cfg.exactNs kFatTreeCrossPodHops < 2 ^ 64) (f : Fabric) {flows : List FlowSpec} {i : Nat}
    {flow : FlowSpec} (hi : flows[i]? = some flow) :
    bestCase cfg f flows ≤ permutationFlowLowerBoundNs cfg i (f.hostIndex flow.dst) := by
  have hmem : (flow, i) ∈ flows.zipIdx := List.mem_zipIdx_iff_getElem?.mpr hi
  have hsign : ∀ x : FlowSpec × Nat, 0 < permutationFlowLowerBoundNs cfg x.2 (f.hostIndex x.1.dst) ↔
      0 < cfg.exactNs kFatTreeCrossPodHops := by
    intro x
    rw [PermutationConfig.lowerBound_eq h hfit, PermutationConfig.exactNs_pos_iff (fatTreeHops_pos ..)]
  rw [bestCase_eq]
  rcases Nat.eq_zero_or_pos (cfg.exactNs kFatTreeCrossPodHops) with hzero | hpos
  · rw [foldl_better_zero]
    · exact Nat.zero_le _
    · intro x _
      have := hsign x
      omega
  · exact (foldl_better_le _ (fun x _ => (hsign x).mpr hpos) 0).2 _ hmem

/-! ## The scenario -/

section Scenario

variable {cfg : PermutationConfig} {draws : Draws} {sc : PermutationScenario}

/-- The flow of a host, and the best case, of a built scenario. -/
theorem buildPermutation_eq (h : buildPermutation cfg draws = some sc)
    (hports : FatTree.PortsFit cfg.topology.k) : ∃ fab dst,
      fab = (FatTree.builder cfg.topology (cfg.topology.k / 2)).build ∧ sc.sim.fabric = fab ∧
      sc.bestCaseNs = bestCase cfg fab sc.sim.specs ∧
      ∀ f, f < sc.sim.flowCount →
        sc.sim.specs[f]? = some (permutationFlow fab cfg.workload draws dst f) := by
  unfold buildPermutation at h
  obtain ⟨fab, hfab, h⟩ := Option.bind_eq_some_iff.mp h
  obtain ⟨flows, hflows, h⟩ := Option.bind_eq_some_iff.mp h
  obtain ⟨sim, hsim, h⟩ := Option.bind_eq_some_iff.mp h
  obtain rfl := Option.some.inj h
  obtain ⟨-, hbuild⟩ := FatTree.build_eq hfab hports
  obtain ⟨h1, -, -, h4⟩ := Simulation.addFlows_eq hsim
  obtain rfl : sim.specs = flows := h4
  refine ⟨fab, permutationOf draws (u32 fab.hostCount), hbuild, h1, rfl, fun f hf => ?_⟩
  have hflow := makePermutation_eq hflows
  have hlen : sim.specs.length = u32 fab.hostCount := by
    rw [hflow, List.length_map, List.length_range]
  have hf : f < u32 fab.hostCount := lt_of_lt_of_eq hf hlen
  show sim.specs[f]? = _
  rw [hflow, List.getElem?_map, List.getElem?_range hf]
  rfl

/-- A flow that completes takes at least its closed form, while the last packet takes as
long on the wire as the others. -/
theorem exactNs_le_fctNs (hbuilt : buildPermutation cfg draws = some sc)
    (htable : FatTree.TableFits cfg.topology.k)
    (hlinks : cfg.topology.fabricLink = cfg.topology.hostLink)
    (hlast : serializationNs cfg.lastBytes cfg.topology.hostLink.rate =
      serializationNs cfg.workload.mtuBytes cfg.topology.hostLink.rate)
    {policy : RoutingPolicy} (hm : policy.Member) {s : State}
    (hs : sc.sim.Reachable policy s) (hw : s.wrapped = false) {f : FlowId}
    (hf : f < sc.sim.flowCount) (hc : (s.result f).complete = true) :
    0 < cfg.packets ∧ cfg.exactNs (fatTreeHops cfg.topology.k f
      (sc.sim.fabric.hostIndex (sc.sim.spec f).dst)) ≤ (s.result f).fctNs := by
  have hfacts := (FatTreeScenario.Built.permutation cfg sc hbuilt).facts htable.ports
  have hr := hfacts.routed htable
  have halike : sc.sim.fabric.LinksAlike cfg.topology.hostLink.rate
      cfg.topology.hostLink.propDelayNs := fun p hp =>
    ⟨(hfacts.links rfl hlinks hp).1, (hfacts.links rfl hlinks hp).2.1⟩
  obtain ⟨fab, dst, hfab, hfabric, -, hspecs⟩ := buildPermutation_eq hbuilt htable.ports
  have hspec : sc.sim.spec f = permutationFlow fab cfg.workload draws dst f := by
    unfold Simulation.spec
    rw [List.getD_eq_getElem?_getD, hspecs f hf]
    rfl
  -- the harness and the simulator count the same packets
  have htotal : sc.sim.packetsTotal f = cfg.packets := by
    unfold Simulation.packetsTotal
    rw [hspec]
    rfl
  have hbytes : (sc.sim.spec f).packetBytes (cfg.packets - 1) = cfg.lastBytes := by
    rw [hspec]
    rfl
  have hperiod : cfg.periodNs ≤ sc.sim.periodNs f := by
    rw [hr.periodNs_eq halike hf, hspec]
    exact Nat.div_le_div_right (u64_le _)
  have hacc := sc.sim.spec_accepted hf
  have hhops : sc.sim.hops f = fatTreeHops cfg.topology.k f (dst f) := by
    have hsrc := hacc.src_host
    have hdst := hacc.dst_host
    have hne := hacc.src_ne_dst
    unfold Simulation.hops
    rw [hspec] at hsrc hdst hne ⊢
    rw [hfabric, hfab] at hsrc hdst ⊢
    rw [hfab] at hne
    exact FatTreeScenario.dist_hostAt hfacts.fits hsrc hdst hne
  have hindex : sc.sim.fabric.hostIndex (sc.sim.spec f).dst = dst f := by
    have hdst := hacc.dst_host
    rw [hspec] at hdst ⊢
    rw [hfabric, hfab] at hdst ⊢
    exact FabricBuilder.hostIndex_hostAt (FatTree.valid hfacts.fits.pos)
      (FatTree.lt_of_isHost hfacts.fits.pos hdst)
  have hpos : 0 < cfg.packets := by
    rw [← htotal]
    exact (hs.receipt hw f).total hc
  have hfinish := hs.start_add_le_finish hr hm halike hw hc
    (show cfg.packets - 1 < sc.sim.packetsTotal f by omega)
  have hfct := hs.fctNs_eq hw hc
  rw [hbytes, hlast, hhops, ← hindex] at hfinish
  refine ⟨hpos, ?_⟩
  have hpaced : (cfg.packets - 1) * cfg.periodNs ≤ (cfg.packets - 1) * sc.sim.periodNs f :=
    Nat.mul_le_mul_left _ hperiod
  unfold PermutationConfig.exactNs PermutationConfig.serNs
  omega

end Scenario

/-- In every run of a permutation on equal links whose last packets take as long on the
wire as full ones, every flow that completes takes at least its bound; and if the closed
forms fit, at least the best case, which is then below the least completion time. -/
theorem permutation_best_case (draws : Draws) (cfg : PermutationConfig) (sc : PermutationScenario)
    (hbuilt : buildPermutation cfg draws = some sc) (htable : FatTree.TableFits cfg.topology.k)
    (hlinks : cfg.topology.fabricLink = cfg.topology.hostLink)
    (hlast : serializationNs cfg.lastBytes cfg.topology.hostLink.rate =
      serializationNs cfg.workload.mtuBytes cfg.topology.hostLink.rate)
    (hfit : cfg.exactNs kFatTreeCrossPodHops < 2 ^ 64)
    (algo : RoutingAlgorithm) (seed : UInt64) {s : State}
    (hs : sc.sim.Reachable (algo.policy seed) s) (hw : s.wrapped = false) :
    (∀ f, f < sc.sim.flowCount → (s.result f).complete = true →
      permutationFlowLowerBoundNs cfg f (sc.sim.fabric.hostIndex (sc.sim.spec f).dst) ≤
        (s.result f).fctNs ∧ sc.bestCaseNs ≤ (s.result f).fctNs) ∧
    (completedFcts (sc.sim.results s) ≠ [] →
      sc.bestCaseNs ≤ (summarizeFct (sc.sim.results s)).minNs) := by
  have hflow : ∀ f, f < sc.sim.flowCount → (s.result f).complete = true →
      permutationFlowLowerBoundNs cfg f (sc.sim.fabric.hostIndex (sc.sim.spec f).dst) ≤
        (s.result f).fctNs ∧ sc.bestCaseNs ≤ (s.result f).fctNs := by
    intro f hf hc
    obtain ⟨hpos, hle⟩ := exactNs_le_fctNs hbuilt htable hlinks hlast (algo.policy_member seed) hs hw
      hf hc
    have hbound := (PermutationConfig.lowerBound_le hpos f
      (sc.sim.fabric.hostIndex (sc.sim.spec f).dst)).trans hle
    refine ⟨hbound, le_trans ?_ hbound⟩
    obtain ⟨fab, dst, -, hfabric, hbest, hspecs⟩ := buildPermutation_eq hbuilt htable.ports
    have hget : sc.sim.specs[f]? = some (sc.sim.spec f) := by
      unfold Simulation.spec
      rw [List.getD_eq_getElem?_getD, hspecs f hf]
      rfl
    rw [hbest, hfabric]
    exact bestCase_le hpos hfit fab hget
  refine ⟨hflow, fun hne => ?_⟩
  obtain ⟨r, hr, hc, heq⟩ := minNs_mem hne
  obtain ⟨f, hf, rfl⟩ := mem_results.mp hr
  rw [← heq]
  exact (hflow f hf hc).2

namespace PermutationConfig

/-- Two hosts in two pods, each sending two full packets to the other. -/
def whole : PermutationConfig where
  topology := { k := 2 }
  workload := { flowBytes := 3000 }

/-- The same with a single byte. -/
def oneByte : PermutationConfig where
  topology := { k := 2 }
  workload := { flowBytes := 1 }

theorem whole_builds : (buildPermutation whole {}).isSome = true := by decide +kernel

theorem oneByte_builds : (buildPermutation oneByte {}).isSome = true := by decide +kernel

/-- A late state of a run under ECMP. -/
def lateState (sim : Simulation) : State :=
  (sim.beginRun Pair.fresh).runFor sim (EcmpPolicy 0) 200

end PermutationConfig

open PermutationConfig in
theorem permutation_best_case_whole :
    ((buildPermutation whole {}).get whole_builds).bestCaseNs ≤
      ((lateState ((buildPermutation whole {}).get whole_builds).sim).result 0).fctNs :=
  ((permutation_best_case {} whole _ (Option.some_get whole_builds).symm (by decide) rfl
    (by decide +kernel) (by decide +kernel) .ecmp 0 ((Simulation.Reachable.begin _).runFor 200)
    (by decide +kernel)).1 0 (by decide +kernel) (by decide +kernel)).2

open PermutationConfig in
/-- A flow of one byte completes in less than its bound, and the best case is above the
least completion time. -/
theorem one_byte_beats_best_case :
    ((lateState ((buildPermutation oneByte {}).get oneByte_builds).sim).result 0).complete = true ∧
    ((lateState ((buildPermutation oneByte {}).get oneByte_builds).sim).result 0).fctNs <
      permutationFlowLowerBoundNs oneByte 0 1 ∧
    (summarizeFct (((buildPermutation oneByte {}).get oneByte_builds).sim.results
      (lateState ((buildPermutation oneByte {}).get oneByte_builds).sim))).minNs <
      ((buildPermutation oneByte {}).get oneByte_builds).bestCaseNs := by
  decide +kernel

end FabricSim
