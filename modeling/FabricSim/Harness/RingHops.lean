import FabricSim.Harness.OnFatTree
import FabricSim.Workload.Placement

/-!
# The hops of the ring

With round-robin placement every edge of the ring crosses pods, so the all-reduce
builder finds one hop count for all of them.
-/

namespace FabricSim

open AllReduce

/-- The parts of an all-reduce scenario. -/
theorem buildAllReduce_eq {cfg : AllReduceConfig} {draws : Draws} {sc : AllReduceScenario}
    (h : buildAllReduce cfg draws = some sc) : ∃ fab ar, buildFatTree cfg.topology = some fab ∧
      makeRingAllReduce fab cfg.params draws = some ar ∧ sc.gpus = ar.gpus ∧
      sc.hops = cfg.hops ar ∧ sc.uniformHops = ar.uniformHops cfg.topology.k ∧
      sc.analyticalNs = cfg.analyticalNs ar ∧ sc.sim.fabric = fab ∧ sc.sim.specs = ar.flows := by
  unfold buildAllReduce at h
  obtain ⟨fab, hfab, h⟩ := Option.bind_eq_some_iff.mp h
  obtain ⟨ar, har, h⟩ := Option.bind_eq_some_iff.mp h
  obtain ⟨sim, hsim, h⟩ := Option.bind_eq_some_iff.mp h
  obtain rfl := Option.some.inj h
  obtain ⟨hfabric, -, -, hspecs⟩ := Simulation.addFlows_eq hsim
  exact ⟨fab, ar, hfab, har, rfl, rfl, rfl, rfl, hfabric, hspecs⟩

/-- Every edge of the ring is as long as a path between pods. -/
theorem ringHops_roundRobin {k : Nat} (hk : 2 ≤ k) (heven : k % 2 = 0)
    (hfit : k ^ 3 / 4 < 2 ^ 32) {ar : AllReduce} (hgpus : ar.gpus = k ^ 3 / 4)
    (hranks : ar.rankToHost = (List.range (k ^ 3 / 4)).map (roundRobin k)) {r : Nat}
    (hr : r < ar.gpus) : ar.ringHops k r = kFatTreeCrossPodHops := by
  unfold ringHops
  rw [hgpus] at hr ⊢
  rw [hranks, u32_of_lt (by omega), hostOf_map hr, hostOf_map (Nat.mod_lt _ (by omega))]
  exact fatTreeHops_of_pod_ne heven hfit (podOfHost_ne heven hfit hk hr)

/-- Round-robin placement is a bijection of the ranks onto the hosts, neighbours of
the ring are in different pods, and the builder reports a uniform ring of cross-pod
hops. -/
theorem round_robin_crosses_pods (k : Nat) (hk : 2 ≤ k) (heven : k % 2 = 0)
    (hfit : k ^ 3 / 4 < 2 ^ 32) :
    (∀ (f : Fabric) (p : AllReduceParams) (hosts : List Nat), p.placement = .roundRobinPods →
      p.fatTreeK = k → placeRanks f p (k ^ 3 / 4) = some hosts →
      hosts.length = k ^ 3 / 4 ∧ hosts.Nodup ∧ (∀ h, h ∈ hosts ↔ h < k ^ 3 / 4) ∧
      ∀ r, r < k ^ 3 / 4 →
        fatTreePodOfHost k (hostOf hosts r) ≠
          fatTreePodOfHost k (hostOf hosts ((r + 1) % (k ^ 3 / 4))) ∧
        fatTreeHops k (hostOf hosts r) (hostOf hosts ((r + 1) % (k ^ 3 / 4))) =
          kFatTreeCrossPodHops) ∧
    (∀ (cfg : AllReduceConfig) (draws : Draws) (sc : AllReduceScenario), cfg.topology.k = k →
      cfg.workload.placement = .roundRobinPods → buildAllReduce cfg draws = some sc →
      sc.gpus = k ^ 3 / 4 → sc.uniformHops = true ∧ sc.hops = kFatTreeCrossPodHops) := by
  constructor
  · intro f p hosts hp hpk h
    obtain rfl := placeRanks_roundRobin heven hfit hp hpk h
    refine ⟨by simp, nodup_roundRobin heven, fun h => mem_roundRobin heven, fun r hr => ?_⟩
    have hne := podOfHost_ne heven hfit hk hr
    rw [hostOf_map hr, hostOf_map (Nat.mod_lt _ (by omega))]
    exact ⟨hne, fatTreeHops_of_pod_ne heven hfit hne⟩
  · intro cfg draws sc hck hp h hgpus
    obtain ⟨fab, ar, -, har, hg, hhops, huniform, -⟩ := buildAllReduce_eq h
    have hmade := makeRingAllReduce_made har
    rw [hg] at hgpus
    have hplaced := hmade.placed
    rw [hgpus] at hplaced
    have hranks := placeRanks_roundRobin (p := cfg.params) heven hfit hp hck hplaced
    have hall : ∀ r, r < ar.gpus → ar.ringHops k r = kFatTreeCrossPodHops :=
      fun r hr => ringHops_roundRobin hk heven hfit hgpus hranks hr
    have hfirst := hall 0 (by have := hmade.gpus_ge; omega)
    have huni : ar.uniformHops cfg.topology.k = true := by
      unfold AllReduce.uniformHops
      rw [List.all_eq_true]
      intro r hr
      rw [hck, hall r (List.mem_range.mp hr), hfirst]
      rfl
    rw [huniform, hhops]
    unfold AllReduceConfig.hops
    rw [if_pos huni]
    refine ⟨huni, ?_⟩
    rw [hck]
    exact hfirst

/-- Two hosts in two pods. -/
def twoPods : AllReduceConfig where
  topology := { k := 2 }
  workload := { bufferBytes := 3000 }

theorem twoPods_builds : (buildAllReduce twoPods {}).isSome = true := by decide +kernel

theorem round_robin_crosses_pods_two :
    ((buildAllReduce twoPods {}).get twoPods_builds).uniformHops = true ∧
      ((buildAllReduce twoPods {}).get twoPods_builds).hops = kFatTreeCrossPodHops :=
  (round_robin_crosses_pods 2 (by decide) (by decide) (by decide)).2 twoPods {} _ rfl rfl
    (Option.some_get twoPods_builds).symm (by decide +kernel)

end FabricSim
