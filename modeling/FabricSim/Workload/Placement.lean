import FabricSim.Lib.Digits
import FabricSim.Workload.AllReduce

/-!
# Where the ranks run

Round-robin placement exchanges the digits of a rank: rank `r` of `k * (k/2)^2` is
host `r / k` of pod `r % k`. So it puts one rank on every host, and since the pod is
the low digit, neighbours of the ring are in different pods, at the wrap-around too:
the number of ranks is a multiple of `k`.
-/

namespace FabricSim

/-- The hosts of a fat tree are `k` pods of `(k/2)^2`. -/
theorem cube_div_four {k : Nat} (heven : k % 2 = 0) : k ^ 3 / 4 = k * (k / 2 * (k / 2)) := by
  obtain ⟨n, rfl⟩ : ∃ n, k = 2 * n := ⟨k / 2, by omega⟩
  have hcube : (2 * n) ^ 3 = 4 * (2 * n * (n * n)) := by ring
  rw [hcube, Nat.mul_div_cancel_left _ (by decide), Nat.mul_div_cancel_left _ (by decide)]

theorem fatTreeHostsPerPod_eq {k : Nat} (heven : k % 2 = 0) (hfit : k ^ 3 / 4 < 2 ^ 32) :
    fatTreeHostsPerPod k = k / 2 * (k / 2) := by
  rw [cube_div_four heven] at hfit
  obtain ⟨n, rfl⟩ : ∃ n, k = 2 * n := ⟨k / 2, by omega⟩
  rw [Nat.mul_div_cancel_left _ (by decide)] at hfit ⊢
  have hsquare : 2 * n * (2 * n) = 4 * (n * n) := by ring
  have hsmall : 4 * (n * n) < 2 ^ 32 := by
    rcases Nat.lt_or_ge n 2 with hn | hn
    · have : n * n ≤ 1 * 1 := Nat.mul_le_mul (by omega) (by omega)
      omega
    · have : 2 * 2 * (n * n) ≤ 2 * n * (n * n) := Nat.mul_le_mul_right _ (by omega)
      omega
  unfold fatTreeHostsPerPod
  rw [hsquare, u32_of_lt hsmall, Nat.mul_div_cancel_left _ (by decide)]

namespace AllReduce

theorem hostOf_map {g : Nat → Nat} {gpus r : Nat} (hr : r < gpus) :
    hostOf ((List.range gpus).map g) r = g r := by
  unfold hostOf
  rw [List.getD_eq_getElem _ _ (by simpa using hr), List.getElem_map, List.getElem_range]

/-- The low digits of consecutive ranks differ. -/
theorem succ_mod_ne {k : Nat} (hk : 2 ≤ k) (r : Nat) : (r + 1) % k ≠ r % k := by
  intro h
  have hdvd := Nat.sub_mod_eq_zero_of_mod_eq h
  rw [Nat.add_sub_cancel_left, Nat.mod_eq_of_lt hk] at hdvd
  exact absurd hdvd (by decide)

section RoundRobin

variable {k : Nat}

/-- The host of a rank, in exact arithmetic. -/
def roundRobin (k : Nat) : Nat → Nat := Digits.swap k (k / 2 * (k / 2))

variable (heven : k % 2 = 0) (hfit : k ^ 3 / 4 < 2 ^ 32)

include heven

theorem roundRobin_lt {r : Nat} (hr : r < k ^ 3 / 4) : roundRobin k r < k ^ 3 / 4 := by
  rw [cube_div_four heven] at hr ⊢
  exact Digits.swap_lt hr

theorem nodup_roundRobin : ((List.range (k ^ 3 / 4)).map (roundRobin k)).Nodup := by
  refine List.Nodup.map_on (fun x hx y hy hxy => ?_) List.nodup_range
  rw [List.mem_range, cube_div_four heven] at hx hy
  have hback := congrArg (Digits.swap (k / 2 * (k / 2)) k) hxy
  unfold roundRobin at hback
  rw [Digits.swap_swap hx, Digits.swap_swap hy] at hback
  exact hback

theorem mem_roundRobin {h : Nat} :
    h ∈ (List.range (k ^ 3 / 4)).map (roundRobin k) ↔ h < k ^ 3 / 4 := by
  rw [List.mem_map]
  constructor
  · rintro ⟨r, hr, rfl⟩
    exact roundRobin_lt heven (List.mem_range.mp hr)
  · intro hh
    rw [cube_div_four heven, Nat.mul_comm] at hh
    have hlt := Digits.swap_lt hh
    refine ⟨Digits.swap (k / 2 * (k / 2)) k h, ?_, Digits.swap_swap hh⟩
    rw [List.mem_range, cube_div_four heven]
    exact hlt.trans_eq (Nat.mul_comm _ _)

include hfit

theorem podOfHost_roundRobin {r : Nat} (hr : r < k ^ 3 / 4) :
    fatTreePodOfHost k (roundRobin k r) = r % k := by
  unfold fatTreePodOfHost
  rw [fatTreeHostsPerPod_eq heven hfit]
  rw [cube_div_four heven] at hr
  exact Digits.swap_div hr

/-- Neighbours of the ring are in different pods. -/
theorem podOfHost_ne (hk : 2 ≤ k) {r : Nat} (hr : r < k ^ 3 / 4) :
    fatTreePodOfHost k (roundRobin k r) ≠
      fatTreePodOfHost k (roundRobin k ((r + 1) % (k ^ 3 / 4))) := by
  have hwrap : (r + 1) % (k ^ 3 / 4) % k = (r + 1) % k := by
    rw [cube_div_four heven]
    exact Nat.mod_mul_right_mod _ _ _
  rw [podOfHost_roundRobin heven hfit hr,
    podOfHost_roundRobin heven hfit (Nat.mod_lt _ (by omega)), hwrap]
  exact (succ_mod_ne hk r).symm

/-- Hosts in different pods are under different edge switches. -/
theorem fatTreeHops_of_pod_ne {h h' : Nat} (hne : fatTreePodOfHost k h ≠ fatTreePodOfHost k h') :
    fatTreeHops k h h' = kFatTreeCrossPodHops := by
  unfold fatTreeHops
  rw [if_neg, if_neg hne]
  intro hedge
  refine hne ?_
  unfold fatTreeEdgeOfHost fatTreeHostsPerEdge at hedge
  unfold fatTreePodOfHost
  rw [fatTreeHostsPerPod_eq heven hfit, ← Nat.div_div_eq_div_mul, ← Nat.div_div_eq_div_mul, hedge]

theorem placeRanks_roundRobin {f : Fabric} {p : AllReduceParams}
    (hp : p.placement = .roundRobinPods) (hpk : p.fatTreeK = k) {ranks : List Nat}
    (h : placeRanks f p (k ^ 3 / 4) = some ranks) :
    ranks = (List.range (k ^ 3 / 4)).map (roundRobin k) := by
  unfold placeRanks at h
  rw [hp] at h
  dsimp only at h
  rw [hpk] at h
  split at h
  · rw [← Option.some.inj h]
    refine List.map_congr_left fun r hr => ?_
    have hr := List.mem_range.mp hr
    have hlt := roundRobin_lt heven hr
    rw [fatTreeHostsPerPod_eq heven hfit]
    exact u32_of_lt (hlt.trans hfit)
  · exact absurd h (by simp)

end RoundRobin

end AllReduce

end FabricSim
