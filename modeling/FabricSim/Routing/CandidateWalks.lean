import FabricSim.Routing.Multipath
import FabricSim.Routing.Trail
import FabricSim.Topology.Shape
import FabricSim.Lib.Walks
import Mathlib.Algebra.BigOperators.Group.Finset.Basic
import Mathlib.Algebra.BigOperators.Intervals

/-!
# Walks the route table offers

A candidate walk follows links of the fabric that the table offers. While the
entries can be counted in 32 bits, the walks to a host are counted by the
neighbours one hop closer (`ncard_walks`). In a connected fabric whose links all
change the distance by one there are as many entries as hosts times links
(`length_entries`). With more than `2 ^ 32` of them the last host of a fabric that
numbers its switches first has lost its way (`no_walk_last`).
-/

namespace FabricSim

open Finset in
theorem sum_range_mul (f : Nat → Nat) (m w : Nat) :
    ∑ i ∈ range (m * w), f i = ∑ r ∈ range m, ∑ x ∈ range w, f (r * w + x) := by
  induction m with
  | zero => rw [Nat.zero_mul, sum_range_zero, sum_range_zero]
  | succ m ih => rw [Nat.succ_mul, sum_range_add, ih, sum_range_succ]

open Finset in
/-- Of the blocks of a range one is counted by itself. -/
theorem sum_range_block {m w q : Nat} (hq : q < m) (c d : Nat) :
    ∑ i ∈ range (m * w), (if i / w = q then c else d) = w * c + (m - 1) * (w * d) := by
  have hmem := mem_range.mpr hq
  have hblock : ∀ r ∈ range m, ∑ x ∈ range w, (if (r * w + x) / w = q then c else d) =
      w * if r = q then c else d := by
    intro r _
    rw [sum_congr rfl fun x hx => by rw [Digits.block_div (mem_range.mp hx)],
      sum_const, card_range, smul_eq_mul]
  rw [sum_range_mul, sum_congr rfl hblock, ← add_sum_erase _ _ hmem, if_pos rfl,
    sum_congr rfl fun r hr => by rw [if_neg (ne_of_mem_erase hr)], sum_const,
    card_erase_of_mem hmem, card_range, smul_eq_mul]

theorem prefixSum_eq_sum (d : Nat → Nat) (n : Nat) :
    Csr.prefixSum d n = ∑ i ∈ Finset.range n, d i := by
  induction n with
  | zero => rfl
  | succ n ih =>
    rw [Finset.sum_range_succ, ← ih]
    rfl

namespace RouteTable

/-- The ports of a node that the table offers towards a host. -/
def legs (rt : RouteTable) (f : Fabric) (h : Nat) (u : NodeId) : List PortId :=
  (f.portsOf u).filter fun p => p ∈ rt.candidates u h

/-- `route` is a walk of the fabric from `u` to `v` along candidates towards host
`h`. -/
def CandidateWalk (rt : RouteTable) (f : Fabric) (h : Nat) (u : NodeId) (route : List PortId)
    (v : NodeId) : Prop :=
  Walks.Walk (rt.legs f h) (fun p => (f.port p).peerNode) u route v

/-- In a connected fabric a cell is the ports one hop closer, and nothing else. -/
theorem nextHopsTo_eq_filter {f : Fabric} (hf : f.WellFormed) (hc : f.Connected) {u h : Nat}
    (hu : u < f.nodeCount) (hh : h < f.hostCount) :
    nextHopsTo f u h = (f.portsOf u).filter fun p =>
      f.graph.dist (f.port p).peerNode (f.hostAt h) + 1 == f.graph.dist u (f.hostAt h) := by
  have hdst := hf.host_lt _ (hf.isHost_hostAt h hh)
  have hown := (bfsDistances_eq_some_iff hf (f.hostAt h) u _ hu).mpr ⟨hc u _ hu hdst, rfl⟩
  unfold nextHopsTo nextHops
  rw [hown]
  cases f.graph.dist u (f.hostAt h) with
  | zero => exact (List.filter_eq_nil_iff.mpr fun p _ => by simp).symm
  | succ d =>
    refine List.filter_congr fun p hp => ?_
    have hpeer := (hf.peer_lt hp).2.1
    rw [Bool.eq_iff_iff, beq_iff_eq, beq_iff_eq, bfsDistances_eq_some_iff hf _ _ d hpeer]
    constructor
    · rintro ⟨-, hd⟩
      exact congrArg (· + 1) hd
    · intro hd
      exact ⟨hc _ _ hpeer hdst, Nat.succ.inj hd⟩

section Count

variable {b : FabricBuilder}

/-! ## How many walks -/

/-- The far ends of a cell are the neighbours one hop closer. -/
theorem map_peer_nextHopsTo (hb : b.Valid) (hc : b.build.Connected) {u h : Nat}
    (hu : u < b.build.nodeCount) (hh : h < b.build.hostCount) :
    (nextHopsTo b.build u h).map (fun p => (b.build.port p).peerNode) =
      (b.build.neighbours u).filter fun v =>
        b.build.graph.dist v (b.build.hostAt h) + 1 == b.build.graph.dist u (b.build.hostAt h) := by
  rw [nextHopsTo_eq_filter (FabricBuilder.build_wellFormed hb) hc hu hh]
  unfold Fabric.neighbours
  rw [List.filter_map]
  rfl

/-- Where one neighbour is closer, the cell is the port of its rank. -/
theorem nextHopsTo_single (hb : b.Valid) {u h i : Nat} {v : NodeId}
    (hcell : (nextHopsTo b.build u h).map (fun p => (b.build.port p).peerNode) = [v])
    (hrank : ∀ j, (b.build.neighbours u)[j]? = some v → j = i) :
    nextHopsTo b.build u h = [FabricBuilder.firstPort b.edges u + i] := by
  obtain ⟨p, hp, hpeer⟩ := List.map_eq_singleton_iff.mp hcell
  have hport : p ∈ b.build.portsOf u :=
    (nextHops_sublist _ _ _).subset (hp ▸ List.mem_singleton.mpr rfl)
  obtain ⟨j, hj, rfl, -⟩ := (FabricBuilder.mem_build_portsOf hb).mp hport
  have hat : (b.build.neighbours u)[j]? = some v := by
    unfold Fabric.neighbours
    rw [FabricBuilder.build_portsOf hb, List.map_map, List.getElem?_map, List.getElem?_range hj]
    exact congrArg some hpeer
  rw [hp, hrank j hat]

/-- The far ends of the offered ports are the neighbours one hop closer. -/
theorem map_peer_legs (hb : b.Valid) (hc : b.build.Connected)
    (he : (buildShortestPath b.build).entries.length < 2 ^ 32) {u h : Nat} (hu : u < b.build.nodeCount)
    (hh : h < b.build.hostCount) :
    ((buildShortestPath b.build).legs b.build h u).map (fun p => (b.build.port p).peerNode) =
      (b.build.neighbours u).filter fun v =>
        b.build.graph.dist v (b.build.hostAt h) + 1 == b.build.graph.dist u (b.build.hostAt h) := by
  have hf := FabricBuilder.build_wellFormed hb
  unfold legs Fabric.neighbours
  rw [List.filter_map]
  congr 1
  refine List.filter_congr fun p hp => ?_
  rw [candidates_eq_nextHopsTo he hu hh, nextHopsTo_eq_filter hf hc hu hh, Bool.eq_iff_iff,
    decide_eq_true_eq, List.mem_filter]
  constructor
  · rintro ⟨-, hd⟩
    exact hd
  · intro hd
    exact ⟨hp, hd⟩

/-- Every step of a candidate walk is a hop closer. -/
theorem CandidateWalk.length_add_dist (hb : b.Valid) (hc : b.build.Connected)
    (he : (buildShortestPath b.build).entries.length < 2 ^ 32) {h : Nat} (hh : h < b.build.hostCount)
    {u v : NodeId} {route : List PortId} (hw : CandidateWalk (buildShortestPath b.build) b.build h u route v)
    (hu : u < b.build.nodeCount) :
    v < b.build.nodeCount ∧ route.length + b.build.graph.dist v (b.build.hostAt h) =
      b.build.graph.dist u (b.build.hostAt h) := by
  have hf := FabricBuilder.build_wellFormed hb
  induction hw with
  | here u => exact ⟨hu, Nat.zero_add _⟩
  | @hop u v p route hp _ ih =>
    have hmem := List.mem_map_of_mem (f := fun p => (b.build.port p).peerNode) hp
    rw [map_peer_legs hb hc he hu hh, List.mem_filter, beq_iff_eq] at hmem
    obtain ⟨-, hd⟩ := hmem
    obtain ⟨hv, hlen⟩ := ih (hf.peer_lt (List.mem_filter.mp hp).1).2.1
    refine ⟨hv, ?_⟩
    rw [List.length_cons]
    omega

/-- The walks to a host are those of as many steps as it is far. -/
theorem ncard_walks (hb : b.Valid) (hc : b.build.Connected)
    (he : (buildShortestPath b.build).entries.length < 2 ^ 32) {u h : Nat} (hu : u < b.build.nodeCount)
    (hh : h < b.build.hostCount) :
    Set.ncard {route | CandidateWalk (buildShortestPath b.build) b.build h u route (b.build.hostAt h)} =
      Walks.count ((buildShortestPath b.build).legs b.build h) (fun p => (b.build.port p).peerNode)
        (b.build.graph.dist u (b.build.hostAt h)) u := by
  have hf := FabricBuilder.build_wellFormed hb
  have hdst := hf.host_lt _ (hf.isHost_hostAt h hh)
  refine Walks.ncard_walks (fun u => (portsOf_nodup hb u).filter _) fun route v hw => ?_
  obtain ⟨hv, hlen⟩ := CandidateWalk.length_add_dist hb hc he hh hw hu
  exact (hc v _ hv hdst).dist_eq_zero_iff.symm.trans (by omega)

/-! ## How many entries -/

/-- Of the two ends of a link one sees the other one hop closer. -/
theorem sum_length_closer {edges : List Edge} {N : Nat} {L : NodeId → Nat}
    (h : ∀ e ∈ edges, e.a < N ∧ e.b < N ∧ e.a ≠ e.b ∧ (L e.a + 1 = L e.b ∨ L e.b + 1 = L e.a)) :
    ∑ u ∈ Finset.range N, ((edges.filterMap (FabricBuilder.otherEnd u)).filter
      fun v => L v + 1 == L u).length = edges.length := by
  induction edges with
  | nil => simp
  | cons e es ih =>
    obtain ⟨ha, hb, hne, hL⟩ := h e (List.mem_cons_self ..)
    have ih := ih fun x hx => h x (List.mem_cons_of_mem _ hx)
    have hsplit : ∀ u, (((e :: es).filterMap (FabricBuilder.otherEnd u)).filter
          fun v => L v + 1 == L u).length =
        ((es.filterMap (FabricBuilder.otherEnd u)).filter fun v => L v + 1 == L u).length +
          ((if u = e.a then if L e.b + 1 = L e.a then 1 else 0 else 0) +
            if u = e.b then if L e.a + 1 = L e.b then 1 else 0 else 0) := by
      intro u
      by_cases hua : u = e.a
      · have ho : FabricBuilder.otherEnd u e = some e.b := if_pos hua
        subst hua
        rw [List.filterMap_cons_some ho, List.filter_cons, if_pos rfl, if_neg hne, Nat.add_zero]
        by_cases hd : L e.b + 1 = L e.a
        · rw [if_pos (beq_iff_eq.mpr hd), if_pos hd, List.length_cons]
        · rw [if_neg (by simpa using hd), if_neg hd, Nat.add_zero]
      · by_cases hub : u = e.b
        · have ho : FabricBuilder.otherEnd u e = some e.a := (if_neg hua).trans (if_pos hub)
          subst hub
          rw [List.filterMap_cons_some ho, List.filter_cons, if_neg hua, if_pos rfl, Nat.zero_add]
          by_cases hd : L e.a + 1 = L e.b
          · rw [if_pos (beq_iff_eq.mpr hd), if_pos hd, List.length_cons]
          · rw [if_neg (by simpa using hd), if_neg hd, Nat.add_zero]
        · have ho : FabricBuilder.otherEnd u e = none := (if_neg hua).trans (if_neg hub)
          rw [List.filterMap_cons_none ho, if_neg hua, if_neg hub, Nat.add_zero]
    rw [Finset.sum_congr rfl fun u _ => hsplit u, Finset.sum_add_distrib, ih,
      Finset.sum_add_distrib, Finset.sum_ite_eq', Finset.sum_ite_eq', if_pos (Finset.mem_range.mpr ha),
      if_pos (Finset.mem_range.mpr hb), List.length_cons]
    rcases hL with hd | hd
    · rw [if_neg (by omega), if_pos hd]
    · rw [if_pos hd, if_neg (by omega)]

/-- The entries for one host, at every node. -/
theorem length_entries (hb : b.Valid) (hc : b.build.Connected)
    (hL : ∀ h, h < b.build.hostCount → ∀ e ∈ b.edges,
      b.build.graph.dist e.a (b.build.hostAt h) + 1 = b.build.graph.dist e.b (b.build.hostAt h) ∨
        b.build.graph.dist e.b (b.build.hostAt h) + 1 = b.build.graph.dist e.a (b.build.hostAt h)) :
    (buildShortestPath b.build).entries.length = b.build.hostCount * b.edges.length := by
  have hf := FabricBuilder.build_wellFormed hb
  have hcell : ∀ h, h < b.build.hostCount → ∀ u, u < b.build.nodeCount →
      (perCell b.build (u * b.build.hostCount + h)).length =
        ((b.edges.filterMap (FabricBuilder.otherEnd u)).filter fun v =>
          b.build.graph.dist v (b.build.hostAt h) + 1 ==
            b.build.graph.dist u (b.build.hostAt h)).length := by
    intro h hh u hu
    rw [← FabricBuilder.neighbours_eq hb, perCell_eq_nextHopsTo _ hu hh,
      nextHopsTo_eq_filter hf hc hu hh]
    unfold Fabric.neighbours
    rw [List.filter_map, List.length_map]
    rfl
  rw [entries_length, prefixSum_eq_sum, sum_range_mul, Finset.sum_comm]
  have hhost : ∀ h ∈ Finset.range b.build.hostCount,
      ∑ u ∈ Finset.range b.build.nodeCount, (perCell b.build (u * b.build.hostCount + h)).length =
        b.edges.length := by
    intro h hh
    have hh := Finset.mem_range.mp hh
    rw [Finset.sum_congr rfl fun u hu => hcell h hh u (Finset.mem_range.mp hu)]
    exact sum_length_closer fun e he => ⟨(hb e he).1, (hb e he).2.1, (hb e he).2.2, hL h hh e he⟩
  rw [Finset.sum_congr rfl hhost, Finset.sum_const, Finset.card_range, smul_eq_mul]

/-! ## More entries than words -/

/-- A cell of a host holds at most its only port. -/
theorem length_perCell_host (hb : b.Valid) (h1 : b.build.SinglePortHosts) {u h : Nat}
    (hu : (b.build.node u).isHost = true) (hh : h < b.build.hostCount) :
    (perCell b.build (u * b.build.hostCount + h)).length ≤ 1 := by
  have hlt := (FabricBuilder.build_wellFormed hb).host_lt u hu
  rw [perCell_eq_nextHopsTo _ hlt hh]
  have hsub := (nextHops_sublist b.build (bfsDistances b.build (b.build.hostAt h)) u).length_le
  rw [h1.portsOf hu] at hsub
  exact hsub

/-- What the cells of the nodes before `u` hold is not a port of `u`. -/
theorem not_mem_portsOf (hb : b.Valid) {u : Nat} {p : PortId} (hu : u ≤ b.build.nodeCount)
    (hpos : 0 < b.build.hostCount)
    (hp : p ∈ (List.range (u * b.build.hostCount)).flatMap (perCell b.build)) :
    p ∉ b.build.portsOf u := by
  have hf := FabricBuilder.build_wellFormed hb
  obtain ⟨c, hc, hp⟩ := List.mem_flatMap.mp hp
  have hnode : c / b.build.hostCount < u := (Nat.div_lt_iff_lt_mul hpos).mpr (List.mem_range.mp hc)
  rw [perCell_apply _ (hnode.trans_le hu) hpos] at hp
  have howner := hf.owner _ p ((nextHops_sublist _ _ _).subset hp)
  intro hmem
  rw [hf.owner u p hmem] at howner
  exact hnode.ne' howner

/-- The last host's cells are the last of the table. When their true places are past
`2 ^ 32` the lookup lands in the cells of other nodes, and what it finds there is no
port of the host. -/
theorem no_walk_last (hb : b.Valid) (h1 : b.build.SinglePortHosts)
    {m H : Nat} (hs : b.SwitchesFirst m H) (hH : 1 < H) (hH32 : H < 2 ^ 32)
    (he : 2 ^ 32 < (buildShortestPath b.build).entries.length) (route : List PortId) :
    ¬ CandidateWalk (buildShortestPath b.build) b.build (H - 2) (m + (H - 1)) route (m + (H - 2)) := by
  have hcount := hs.hostCount
  have hnodes := hs.nodeCount
  have hu : m + (H - 1) < b.build.nodeCount := by omega
  have hhost : (b.build.node (m + (H - 1))).isHost = true :=
    (hs.isHost_iff _).mpr ⟨Nat.le_add_right _ _, by omega⟩
  generalize hself : m + (H - 1) = u at *
  have hlast : b.build.nodeCount = u + 1 := by omega
  -- the row of the host: one entry at most for each destination
  have hrow : ∀ k, k ≤ H → Csr.prefixSum (fun c => (perCell b.build c).length) (u * H + k) ≤
      Csr.prefixSum (fun c => (perCell b.build c).length) (u * H) + k := by
    intro k
    induction k with
    | zero => exact fun _ => le_rfl
    | succ k ih =>
      intro hk
      have hone := length_perCell_host (h := k) hb h1 hhost (by omega)
      rw [hcount] at hone
      have := ih (by omega)
      show Csr.prefixSum _ (u * H + k) + (perCell b.build (u * H + k)).length ≤ _
      omega
  have htotal := entries_length b.build
  rw [hlast, hcount, Nat.succ_mul] at htotal
  -- nothing for itself, so the entry for the host before is the last of all
  have hnone : (perCell b.build (u * H + (H - 1))).length = 0 := by
    have hdst : H - 1 < b.build.hostCount := by omega
    have hat := hs.hostAt (i := H - 1) (by omega)
    have hnil := (nextHopsTo_eq_nil_iff (FabricBuilder.build_wellFormed hb) hu).mpr
      (Or.inl (by rw [hat, hself]))
    rw [← perCell_eq_nextHopsTo _ hu hdst, hcount] at hnil
    rw [hnil]
    rfl
  have hplace : 2 ^ 32 ≤ Csr.prefixSum (fun c => (perCell b.build c).length) (u * H + (H - 2)) := by
    have hend : u * H + H = u * H + (H - 2) + 1 + 1 := by omega
    have hbefore : u * H + (H - 1) = u * H + (H - 2) + 1 := by omega
    have hone := length_perCell_host (h := H - 2) hb h1 hhost (by omega)
    rw [hcount] at hone
    rw [hbefore] at hnone
    rw [hend] at htotal
    have htotal : _ = Csr.prefixSum _ (u * H + (H - 2)) + (perCell b.build (u * H + (H - 2))).length +
      (perCell b.build (u * H + (H - 2) + 1)).length := htotal
    omega
  have hrow := hrow (H - 2) (by omega)
  -- so no port of the host is on offer
  have hlegs : (buildShortestPath b.build).legs b.build (H - 2) u = [] := by
    refine List.filter_eq_nil_iff.mpr fun p hp hcand => ?_
    have hcand := of_decide_eq_true hcand
    rw [candidates_eq_slice, hcount] at hcand
    have hone := length_perCell_host (h := H - 2) hb h1 hhost (by omega)
    rw [hcount] at hone
    have hword := u32_le (perCell b.build (u * H + (H - 2))).length
    have hsplit : (buildShortestPath b.build).entries =
        (List.range (u * H)).flatMap (perCell b.build) ++
          ((List.range H).map (u * H + ·)).flatMap (perCell b.build) := by
      show (List.range (b.build.nodeCount * b.build.hostCount)).flatMap _ = _
      rw [hlast, hcount, Nat.succ_mul, List.range_add, List.flatMap_append]
    have hlen := Csr.length_flatMap_range (perCell b.build) (u * H)
    rw [hsplit, List.drop_append_of_le_length (by omega),
      List.take_append_of_le_length (by rw [List.length_drop]; omega)] at hcand
    rw [← hcount] at hcand
    exact not_mem_portsOf hb hu.le (by omega)
      (List.mem_of_mem_drop (List.mem_of_mem_take hcand)) hp
  intro hw
  have hself : u ≠ m + (H - 2) := by omega
  cases hw with
  | here => exact hself rfl
  | hop hp _ =>
    rw [hlegs] at hp
    exact absurd hp List.not_mem_nil

end Count

end RouteTable

end FabricSim
