import FabricSim.Topology.FatTree
import FabricSim.Lib.Distance

/-!
# Distances in the fat tree

The hop distance to a host is the labelling `hopsTo` (`dist_eq_hopsTo`). It changes by
exactly one along every link, and the neighbours that are one hop closer are listed
tier by tier, for the home pod of the host and for the others.
-/

namespace FabricSim

open Digits

namespace FatTree

section Distance

variable {cfg : FatTreeConfig} {n : Nat} (hn : 0 < n)

include hn

/-! ## Hop distances -/

omit hn in
/-- Hops to host `t`. -/
def hopsTo (n t u : Nat) : Nat :=
  if u < n * n then 3
  else if u < switchCount n then
    let pod := (u - n * n) / (2 * n)
    let r := (u - n * n) % (2 * n)
    if r < n then if pod = podOf n t then 2 else 4
    else if pod = podOf n t then if r - n = edgeOf n t then 1 else 3 else 5
  else
    let i := u - switchCount n
    if i = t then 0 else if i / n = t / n then 2 else if podOf n i = podOf n t then 4 else 6

omit hn in
theorem hopsTo_core (t : Nat) {i j : Nat} (hi : i < n) (hj : j < n) : hopsTo n t (core n i j) = 3 :=
  if_pos (core_lt hi hj)

omit hn in
/-- What the switches of a pod decode to. -/
theorem pod_digits (pod : Nat) {r : Nat} (hr : r < 2 * n) :
    (n * n + (pod * (2 * n) + r) - n * n) / (2 * n) = pod ∧
      (n * n + (pod * (2 * n) + r) - n * n) % (2 * n) = r := by
  have hpos : 0 < 2 * n := by omega
  rw [Nat.add_sub_cancel_left, Nat.mul_comm pod, Nat.mul_add_div hpos, Nat.div_eq_of_lt hr,
    Nat.mul_add_mod, Nat.mod_eq_of_lt hr]
  exact ⟨rfl, rfl⟩

omit hn in
theorem hopsTo_agg (t : Nat) {pod a : Nat} (hpod : pod < 2 * n) (ha : a < n) :
    hopsTo n t (agg n pod a) = if pod = podOf n t then 2 else 4 := by
  obtain ⟨h1, h2⟩ := pod_digits (n := n) pod (show a < 2 * n by omega)
  unfold hopsTo
  rw [if_neg (not_lt.mpr (le_agg pod a)), if_pos (agg_lt hpod ha)]
  unfold agg
  dsimp only
  rw [h1, h2, if_pos ha]

omit hn in
theorem hopsTo_edge (t : Nat) {pod e : Nat} (hpod : pod < 2 * n) (he : e < n) :
    hopsTo n t (edge n pod e) =
      if pod = podOf n t then if e = edgeOf n t then 1 else 3 else 5 := by
  obtain ⟨h1, h2⟩ := pod_digits (n := n) pod (show n + e < 2 * n by omega)
  unfold hopsTo
  rw [if_neg (not_lt.mpr (le_edge pod e)), if_pos (edge_lt hpod he)]
  unfold edge
  dsimp only
  rw [h1, h2, if_neg (by omega), Nat.add_sub_cancel_left]

omit hn in
theorem hopsTo_host (t i : Nat) : hopsTo n t (host n i) =
    if i = t then 0 else if i / n = t / n then 2 else if podOf n i = podOf n t then 4 else 6 := by
  unfold hopsTo
  rw [if_neg (not_lt.mpr ((square_le_switchCount n).trans (le_host i))),
    if_neg (not_lt.mpr (le_host i))]
  unfold host
  dsimp only
  rw [Nat.add_sub_cancel_left]

/-- Two hosts are on one edge switch when their blocks are the same. -/
theorem same_block_iff (i t : Nat) :
    i / n = t / n ↔ podOf n i = podOf n t ∧ edgeOf n i = edgeOf n t := by
  rw [div_eq_digits i, div_eq_digits t]
  constructor
  · exact digits_inj (edgeOf_lt' hn i) (edgeOf_lt' hn t)
  · rintro ⟨h1, h2⟩
    rw [h1, h2]


/-! ## The neighbours one hop closer -/

/-- The neighbours of `u` that are one hop closer to host `t`. -/
def closer (cfg : FatTreeConfig) (n t u : Nat) : List Nat :=
  ((builder cfg n).build.neighbours u).filter fun v => hopsTo n t v + 1 == hopsTo n t u

/-- From a core switch one link leads down to the pod of the host. -/
theorem closer_core {t i j : Nat} (ht : t < hostCount n) (hi : i < n) (hj : j < n) :
    closer cfg n t (core n i j) = [agg n (podOf n t) i] := by
  unfold closer
  rw [neighbours_core hn hi hj, hopsTo_core t hi hj]
  refine filter_map_range_single (podOf_lt' hn ht) ?_ fun pod hpod hne => ?_
  · rw [hopsTo_agg t (podOf_lt' hn ht) hi, if_pos rfl]
    rfl
  · rw [hopsTo_agg t hpod hi, if_neg hne]
    rfl

/-- An aggregation switch in the pod of the host has one link down. -/
theorem closer_agg_home {t a : Nat} (ht : t < hostCount n) (ha : a < n) :
    closer cfg n t (agg n (podOf n t) a) = [edge n (podOf n t) (edgeOf n t)] := by
  have hpod := podOf_lt' hn ht
  unfold closer
  rw [neighbours_agg hn hpod ha, hopsTo_agg t hpod ha, if_pos rfl, List.filter_append]
  have hup : ((List.range n).map fun j => core n a j).filter
      (fun v => hopsTo n t v + 1 == 2) = [] := by
    rw [List.filter_eq_nil_iff]
    intro v hv
    obtain ⟨j, hj, rfl⟩ := List.mem_map.mp hv
    rw [hopsTo_core t ha (List.mem_range.mp hj)]
    decide
  rw [hup, List.nil_append]
  refine filter_map_range_single (edgeOf_lt' hn t) ?_ fun e he hne => ?_
  · rw [hopsTo_edge t hpod (edgeOf_lt' hn t), if_pos rfl, if_pos rfl]
    rfl
  · rw [hopsTo_edge t hpod he, if_pos rfl, if_neg hne]
    rfl

/-- An aggregation switch of another pod goes up, to any core switch of its row. -/
theorem closer_agg_away {t pod a : Nat} (hpod : pod < 2 * n) (hne : pod ≠ podOf n t) (ha : a < n) :
    closer cfg n t (agg n pod a) = (List.range n).map fun j => core n a j := by
  unfold closer
  rw [neighbours_agg hn hpod ha, hopsTo_agg t hpod ha, if_neg hne, List.filter_append]
  have hup : ((List.range n).map fun j => core n a j).filter (fun v => hopsTo n t v + 1 == 4) =
      (List.range n).map fun j => core n a j := by
    rw [List.filter_eq_self]
    intro v hv
    obtain ⟨j, hj, rfl⟩ := List.mem_map.mp hv
    rw [hopsTo_core t ha (List.mem_range.mp hj)]
    rfl
  have hdown : ((List.range n).map fun e => edge n pod e).filter
      (fun v => hopsTo n t v + 1 == 4) = [] := by
    rw [List.filter_eq_nil_iff]
    intro v hv
    obtain ⟨e, he, rfl⟩ := List.mem_map.mp hv
    rw [hopsTo_edge t hpod (List.mem_range.mp he), if_neg hne]
    decide
  rw [hup, hdown, List.append_nil]

/-- The edge switch of the host has the link to it. -/
theorem closer_edge_home {t : Nat} (ht : t < hostCount n) :
    closer cfg n t (edge n (podOf n t) (edgeOf n t)) = [host n t] := by
  have hpod := podOf_lt' hn ht
  have he := edgeOf_lt' hn t
  have hblock : (podOf n t * n + edgeOf n t) * n + t % n = t := by
    rw [← div_eq_digits, Nat.mul_comm]
    exact Nat.div_add_mod t n
  unfold closer
  rw [neighbours_edge hn hpod he, hopsTo_edge t hpod he, if_pos rfl, if_pos rfl, List.filter_append]
  have hup : ((List.range n).map fun a => agg n (podOf n t) a).filter
      (fun v => hopsTo n t v + 1 == 1) = [] := by
    rw [List.filter_eq_nil_iff]
    intro v hv
    obtain ⟨a, ha, rfl⟩ := List.mem_map.mp hv
    rw [hopsTo_agg t hpod (List.mem_range.mp ha), if_pos rfl]
    decide
  have hdown := filter_map_range_single (p := fun v => hopsTo n t v + 1 == 1)
    (g := fun x => host n ((podOf n t * n + edgeOf n t) * n + x)) (Nat.mod_lt t hn)
    (by
      show (hopsTo n t (host n _) + 1 == 1) = true
      rw [hblock, hopsTo_host, if_pos rfl]
      rfl)
    (fun x hx hne => by
      have hx : (podOf n t * n + edgeOf n t) * n + x ≠ t := fun heq =>
        hne (Nat.add_left_cancel (heq.trans hblock.symm))
      show (hopsTo n t (host n _) + 1 == 1) = false
      rw [hopsTo_host, if_neg hx]
      split
      · rfl
      · split <;> rfl)
  rw [hup, List.nil_append, hdown]
  exact congrArg (fun i => [host n i]) hblock

/-- Any other edge switch goes up, to any aggregation switch of its pod. -/
theorem closer_edge_away {t pod e : Nat} (hpod : pod < 2 * n) (he : e < n)
    (hne : ¬ (pod = podOf n t ∧ e = edgeOf n t)) :
    closer cfg n t (edge n pod e) = (List.range n).map fun a => agg n pod a := by
  have hown : hopsTo n t (edge n pod e) = if pod = podOf n t then 3 else 5 := by
    rw [hopsTo_edge t hpod he]
    by_cases hp : pod = podOf n t
    · rw [if_pos hp, if_pos hp, if_neg fun h => hne ⟨hp, h⟩]
    · rw [if_neg hp, if_neg hp]
  unfold closer
  rw [neighbours_edge hn hpod he, hown, List.filter_append]
  have hup : ((List.range n).map fun a => agg n pod a).filter
      (fun v => hopsTo n t v + 1 == if pod = podOf n t then 3 else 5) =
      (List.range n).map fun a => agg n pod a := by
    rw [List.filter_eq_self]
    intro v hv
    obtain ⟨a, ha, rfl⟩ := List.mem_map.mp hv
    rw [hopsTo_agg t hpod (List.mem_range.mp ha)]
    split <;> rfl
  have hdown : ((List.range n).map fun x => host n ((pod * n + e) * n + x)).filter
      (fun v => hopsTo n t v + 1 == if pod = podOf n t then 3 else 5) = [] := by
    rw [List.filter_eq_nil_iff]
    intro v hv
    obtain ⟨x, hx, rfl⟩ := List.mem_map.mp hv
    obtain ⟨h1, h2⟩ := block_digits pod he (List.mem_range.mp hx)
    have hblock : ((pod * n + e) * n + x) / n ≠ t / n := by
      rw [Ne, same_block_iff hn, h1, h2]
      exact hne
    rw [hopsTo_host, if_neg fun heq => hblock (congrArg (· / n) heq), if_neg hblock, h1]
    split <;> decide
  rw [hup, hdown, List.append_nil]

/-- A host has its only link. -/
theorem closer_host {t i : Nat} (hi : i < hostCount n) (hne : i ≠ t) :
    closer cfg n t (host n i) = [edge n (podOf n i) (edgeOf n i)] := by
  unfold closer
  rw [neighbours_host hn hi, hopsTo_host, if_neg hne, List.filter_eq_self]
  intro v hv
  obtain rfl := List.mem_singleton.mp hv
  rw [hopsTo_edge t (podOf_lt' hn hi) (edgeOf_lt' hn i)]
  have hblock := same_block_iff hn i t
  by_cases hp : podOf n i = podOf n t
  · by_cases he : edgeOf n i = edgeOf n t
    · rw [if_pos hp, if_pos he, if_pos (hblock.mpr ⟨hp, he⟩)]
      rfl
    · rw [if_pos hp, if_neg he, if_neg fun h => he (hblock.mp h).2, if_pos hp]
      rfl
  · rw [if_neg hp, if_neg fun h => hp (hblock.mp h).1, if_neg hp]
    rfl


/-! ## The labelling is the distance -/

/-- Along every link the labelling changes by exactly one. -/
theorem hopsTo_edges (t : Nat) {x : Edge} (hx : x ∈ (builder cfg n).edges) :
    hopsTo n t x.a + 1 = hopsTo n t x.b ∨ hopsTo n t x.b + 1 = hopsTo n t x.a := by
  rcases mem_edges.mp hx with ⟨pod, a, j, hpod, ha, hj, rfl⟩ | ⟨pod, a, e, hpod, ha, he, rfl⟩ |
    ⟨i, hi, rfl⟩
  · dsimp only
    rw [hopsTo_agg t hpod ha, hopsTo_core t ha hj]
    split <;> omega
  · dsimp only
    rw [hopsTo_agg t hpod ha, hopsTo_edge t hpod he]
    split
    · split <;> omega
    · omega
  · dsimp only
    have hblock := same_block_iff hn i t
    rw [hopsTo_host, hopsTo_edge t (podOf_lt' hn hi) (edgeOf_lt' hn i)]
    by_cases hit : i = t
    · subst hit
      rw [if_pos rfl, if_pos rfl, if_pos rfl]
      exact Or.inl rfl
    · rw [if_neg hit]
      -- up from a host is one hop closer, wherever `t` is
      refine Or.inr ?_
      by_cases hp : podOf n i = podOf n t
      · by_cases he : edgeOf n i = edgeOf n t
        · simp only [if_pos hp, if_pos he, if_pos (hblock.mpr ⟨hp, he⟩)]
        · have hb : ¬ i / n = t / n := fun h => he (hblock.mp h).2
          simp only [if_pos hp, if_neg he, if_neg hb]
      · have hb : ¬ i / n = t / n := fun h => hp (hblock.mp h).1
        simp only [if_neg hp, if_neg hb]

theorem hopsTo_adj (t : Nat) {u v : NodeId} (h : (builder cfg n).build.graph.Adj u v) :
    hopsTo n t u + 1 = hopsTo n t v ∨ hopsTo n t v + 1 = hopsTo n t u := by
  have hwf := wellFormed hn cfg
  obtain ⟨x, hx, hj⟩ := (FabricBuilder.build_linked_iff (valid hn) u v).mp ((hwf.adj_iff u v).mp h)
  have hstep := hopsTo_edges hn t hx
  rcases hj with ⟨rfl, rfl⟩ | ⟨rfl, rfl⟩
  · exact hstep
  · exact hstep.symm

/-- Everywhere but at the host there is a neighbour one hop closer. -/
theorem closer_ne_nil {t u : Nat} (ht : t < hostCount n) (hu : u < switchCount n + hostCount n)
    (hne : u ≠ host n t) : closer cfg n t u ≠ [] := by
  have hrange : ∀ g : Nat → Nat, (List.range n).map g ≠ [] := by
    intro g hnil
    rw [List.map_eq_nil_iff, List.range_eq_nil] at hnil
    omega
  cases tier hn hu with
  | core hi hj =>
    rw [closer_core hn ht hi hj]
    exact List.cons_ne_nil _ _
  | @agg pod a hpod ha =>
    by_cases hp : pod = podOf n t
    · subst hp
      rw [closer_agg_home hn ht ha]
      exact List.cons_ne_nil _ _
    · rw [closer_agg_away hn hpod hp ha]
      exact hrange _
  | @edge pod e hpod he =>
    by_cases hp : pod = podOf n t ∧ e = edgeOf n t
    · obtain ⟨rfl, rfl⟩ := hp
      rw [closer_edge_home hn ht]
      exact List.cons_ne_nil _ _
    · rw [closer_edge_away hn hpod he hp]
      exact hrange _
  | @host i hi =>
    rw [closer_host hn hi fun h => hne (congrArg (host n) h)]
    exact List.cons_ne_nil _ _

theorem hopsTo_eq_zero {t u : Nat} (hu : u < switchCount n + hostCount n)
    (h : hopsTo n t u = 0) : u = host n t := by
  cases tier hn hu with
  | core hi hj =>
    rw [hopsTo_core t hi hj] at h
    omega
  | agg hpod ha =>
    rw [hopsTo_agg t hpod ha] at h
    split at h <;> omega
  | edge hpod he =>
    rw [hopsTo_edge t hpod he] at h
    split at h
    · split at h <;> omega
    · omega
  | @host i hi =>
    rw [hopsTo_host] at h
    split at h
    · next hit => rw [hit]
    · split at h
      · omega
      · split at h <;> omega

theorem dist_eq_hopsTo {t u : Nat} (ht : t < hostCount n)
    (hu : u < switchCount n + hostCount n) :
    (builder cfg n).build.graph.Reachable u (host n t) ∧
      (builder cfg n).build.graph.dist u (host n t) = hopsTo n t u := by
  have hwf := wellFormed hn cfg
  refine HopDistance.dist_eq_of_labelling
    (S := fun u => u < switchCount n + hostCount n) ?_ ?_ ?_ ?_ hu
  · rw [hopsTo_host, if_pos rfl]
  · intro u v huv
    rcases hopsTo_adj hn t huv with h | h <;> omega
  · intro u hu h
    exact hopsTo_eq_zero hn hu h
  · intro u hu hne
    have hut : u ≠ host n t := by
      intro heq
      rw [heq, hopsTo_host, if_pos rfl] at hne
      exact hne rfl
    have hsome : closer cfg n t u ≠ [] := closer_ne_nil hn ht hu hut
    obtain ⟨v, hv⟩ := List.exists_mem_of_ne_nil _ hsome
    obtain ⟨hmem, hdown⟩ := List.mem_filter.mp hv
    have hadj := (hwf.adj_iff_mem u v).mpr hmem
    refine ⟨v, ?_, hadj, by simpa using hdown⟩
    have hlt := hwf.linked_lt v u ((hwf.adj_iff v u).mp hadj.symm)
    rwa [switchesFirst.nodeCount] at hlt

theorem hostCount_pos : 0 < hostCount n :=
  Nat.mul_pos (by omega) (Nat.mul_pos hn hn)

theorem connected : (builder cfg n).build.Connected := by
  intro u v hu hv
  rw [switchesFirst.nodeCount] at hu hv
  exact (dist_eq_hopsTo hn (hostCount_pos hn) hu).1.trans
    (dist_eq_hopsTo hn (hostCount_pos hn) hv).1.symm

/-- Hop distance between two hosts. -/
theorem dist_hosts {i j : Nat} (hi : i < hostCount n) (hj : j < hostCount n) (hne : i ≠ j) :
    (builder cfg n).build.graph.dist (host n i) (host n j) =
      if i / n = j / n then kFatTreeSameEdgeHops
      else if podOf n i = podOf n j then kFatTreeSamePodHops else kFatTreeCrossPodHops := by
  have hu : host n i < switchCount n + hostCount n := Nat.add_lt_add_left hi _
  rw [(dist_eq_hopsTo hn hj hu).2, hopsTo_host, if_neg hne]
  rfl

end Distance

end FatTree

end FabricSim
