import FabricSim.Topology.FatTreeDistance
import FabricSim.Routing.CandidateWalks

/-!
# Paths in the fat tree

A host's way to another is counted from the end: one walk from the core down, `n` from
an edge switch of the pod, `n * n` from one of another pod. The table has `12 * n ^ 6`
entries; `pathCounts_iff` says that its walks are as many as the shortest paths exactly
while these can be counted in 32 bits.
-/

namespace FabricSim

namespace FatTree

section Paths

variable {cfg : FatTreeConfig} {n : Nat} (hn : 0 < n)

include hn

/-! ## The table and its walks -/

omit hn in
theorem length_edges : (builder cfg n).edges.length = 6 * (n * n * n) := by
  show (fabricEdges cfg n ++ hostEdges cfg n).length = _
  unfold fabricEdges hostEdges hostCount
  simp only [List.length_append, List.length_flatMap, List.length_map, List.length_range,
    List.map_const', List.sum_replicate, smul_eq_mul]
  ring

/-- One entry for every host and link. -/
theorem length_entries :
    (RouteTable.buildShortestPath (builder cfg n).build).entries.length = 12 * n ^ 6 := by
  have hhosts : (builder cfg n).build.hostCount = hostCount n := switchesFirst.hostCount
  have hvalid : (builder cfg n).Valid := valid hn
  have hmod := RouteTable.length_entries hvalid (connected hn) fun t ht x hx => by
    rw [hhosts] at ht
    obtain ⟨ha, hb, -⟩ := valid hn x hx
    have hlen : (builder cfg n).isHost.length = switchCount n + hostCount n :=
      switchesFirst.nodeCount
    rw [hlen] at ha hb
    have hat : (builder cfg n).build.hostAt t = host n t := switchesFirst.hostAt ht
    rw [hat, (dist_eq_hopsTo hn ht ha).2, (dist_eq_hopsTo hn ht hb).2]
    exact hopsTo_edges hn t hx
  rw [hmod, hhosts, length_edges]
  unfold hostCount
  ring

/-- The walks of `m` steps that the table offers towards host `t`. -/
def walkCount (cfg : FatTreeConfig) (n t m : Nat) (u : NodeId) : Nat :=
  Walks.count ((RouteTable.buildShortestPath (builder cfg n).build).legs (builder cfg n).build t)
    (fun p => ((builder cfg n).build.port p).peerNode) m u

section Count

variable (he : 12 * n ^ 6 < 2 ^ 32) {t : Nat} (ht : t < hostCount n)

include he ht

theorem map_peer_legs {u : Nat} (hu : u < switchCount n + hostCount n) :
    ((RouteTable.buildShortestPath (builder cfg n).build).legs (builder cfg n).build t u).map
      (fun p => ((builder cfg n).build.port p).peerNode) = closer cfg n t u := by
  have hnodes : (builder cfg n).build.nodeCount = switchCount n + hostCount n :=
    switchesFirst.nodeCount
  have hhosts : (builder cfg n).build.hostCount = hostCount n := switchesFirst.hostCount
  have hat : (builder cfg n).build.hostAt t = host n t := switchesFirst.hostAt ht
  have hwf := wellFormed hn cfg
  rw [RouteTable.map_peer_legs (valid hn) (connected hn) (by rw [length_entries hn]; exact he)
    (by rw [hnodes]; exact hu) (by rw [hhosts]; exact ht)]
  refine List.filter_congr fun v hv => ?_
  have hadj := (hwf.adj_iff_mem u v).mpr hv
  have hlt := hwf.linked_lt v u ((hwf.adj_iff v u).mp hadj.symm)
  rw [hnodes] at hlt
  rw [hat, (dist_eq_hopsTo hn ht hlt).2, (dist_eq_hopsTo hn ht hu).2]

theorem walkCount_succ {u m c : Nat} (hu : u < switchCount n + hostCount n)
    (hc : ∀ v ∈ closer cfg n t u, walkCount cfg n t m v = c) :
    walkCount cfg n t (m + 1) u = (closer cfg n t u).length * c :=
  Walks.count_succ_of_const (map_peer_legs hn he ht hu) hc

/-- Where only one neighbour is closer. -/
theorem walkCount_single {u v m : Nat} (hu : u < switchCount n + hostCount n)
    (hv : closer cfg n t u = [v]) :
    walkCount cfg n t (m + 1) u = walkCount cfg n t m v := by
  have hstep := walkCount_succ hn he ht (m := m) (c := walkCount cfg n t m v) hu fun w hw => by
    rw [hv] at hw
    rw [List.mem_singleton.mp hw]
  rw [hv] at hstep
  exact hstep.trans (Nat.one_mul _)

/-- Where a whole row is closer. -/
theorem walkCount_row {u m c : Nat} {g : Nat → Nat} (hu : u < switchCount n + hostCount n)
    (hg : closer cfg n t u = (List.range n).map g)
    (hc : ∀ i, i < n → walkCount cfg n t m (g i) = c) :
    walkCount cfg n t (m + 1) u = n * c := by
  have hstep := walkCount_succ hn he ht (m := m) (c := c) hu fun w hw => by
    rw [hg] at hw
    obtain ⟨i, hi, rfl⟩ := List.mem_map.mp hw
    exact hc i (List.mem_range.mp hi)
  rw [hg, List.length_map, List.length_range] at hstep
  exact hstep

theorem walks_edge_home : walkCount cfg n t 1 (edge n (podOf n t) (edgeOf n t)) = 1 := by
  have hlt := edge_lt (podOf_lt' hn ht) (edgeOf_lt' hn t)
  exact walkCount_single hn he ht (Nat.lt_add_right _ hlt) (closer_edge_home hn ht)

theorem walks_agg_home {a : Nat} (ha : a < n) : walkCount cfg n t 2 (agg n (podOf n t) a) = 1 := by
  have hlt := agg_lt (podOf_lt' hn ht) ha
  rw [walkCount_single hn he ht (Nat.lt_add_right _ hlt) (closer_agg_home hn ht ha)]
  exact walks_edge_home hn he ht

theorem walks_core {i j : Nat} (hi : i < n) (hj : j < n) :
    walkCount cfg n t 3 (core n i j) = 1 := by
  have hlt := (core_lt hi hj).trans_le (square_le_switchCount n)
  rw [walkCount_single hn he ht (Nat.lt_add_right _ hlt) (closer_core hn ht hi hj)]
  exact walks_agg_home hn he ht hi

/-- From an edge switch of the pod, over any of its aggregation switches. -/
theorem walks_edge_pod {e : Nat} (he' : e < n) (hne : e ≠ edgeOf n t) :
    walkCount cfg n t 3 (edge n (podOf n t) e) = n := by
  have hpod := podOf_lt' hn ht
  have hup : closer cfg n t (edge n (podOf n t) e) = (List.range n).map fun a => agg n (podOf n t) a :=
    closer_edge_away hn hpod he' fun h => hne h.2
  rw [walkCount_row hn he ht (Nat.lt_add_right _ (edge_lt hpod he')) hup fun a ha =>
    walks_agg_home hn he ht ha, Nat.mul_one]

/-- From an aggregation switch of another pod, over any core switch of its row. -/
theorem walks_agg_away {pod a : Nat} (hpod : pod < 2 * n) (hne : pod ≠ podOf n t) (ha : a < n) :
    walkCount cfg n t 4 (agg n pod a) = n := by
  have hup : closer cfg n t (agg n pod a) = (List.range n).map fun j => core n a j :=
    closer_agg_away hn hpod hne ha
  rw [walkCount_row hn he ht (Nat.lt_add_right _ (agg_lt hpod ha)) hup fun j hj =>
    walks_core hn he ht ha hj, Nat.mul_one]

/-- From an edge switch of another pod, both choices. -/
theorem walks_edge_away {pod e : Nat} (hpod : pod < 2 * n) (he' : e < n) (hne : pod ≠ podOf n t) :
    walkCount cfg n t 5 (edge n pod e) = n * n :=
  walkCount_row hn he ht (Nat.lt_add_right _ (edge_lt hpod he'))
    (closer_edge_away hn hpod he' fun h => hne h.1) fun _ ha => walks_agg_away hn he ht hpod hne ha

/-- The walks from one host to another. -/
theorem ncard_walks_hosts {s : Nat} (hs : s < hostCount n) (hne : s ≠ t) :
    Set.ncard {route | RouteTable.CandidateWalk (RouteTable.buildShortestPath (builder cfg n).build)
      (builder cfg n).build t (host n s) route (host n t)} =
      if s / n = t / n then 1 else if podOf n s = podOf n t then n else n * n := by
  have hnodes : (builder cfg n).build.nodeCount = switchCount n + hostCount n :=
    switchesFirst.nodeCount
  have hhosts : (builder cfg n).build.hostCount = hostCount n := switchesFirst.hostCount
  have hat : (builder cfg n).build.hostAt t = host n t := switchesFirst.hostAt ht
  have hu : host n s < switchCount n + hostCount n := Nat.add_lt_add_left hs _
  have hvalid : (builder cfg n).Valid := valid hn
  have hcard := RouteTable.ncard_walks (u := host n s) (h := t) hvalid (connected hn)
    (by rw [length_entries hn]; exact he) (by rw [hnodes]; exact hu)
    (by rw [hhosts]; exact ht)
  rw [hat, dist_hosts hn hs ht hne] at hcard
  rw [hcard]
  have hup : closer cfg n t (host n s) = [edge n (podOf n s) (edgeOf n s)] := closer_host hn hs hne
  have hpod := podOf_lt' hn hs
  have hedge := edgeOf_lt' hn s
  have hblock := same_block_iff hn s t
  show walkCount cfg n t _ (host n s) = _
  by_cases hb : s / n = t / n
  · obtain ⟨h1, h2⟩ := hblock.mp hb
    rw [if_pos hb, if_pos hb]
    refine (walkCount_single hn he ht (m := 1) hu hup).trans ?_
    rw [h1, h2]
    exact walks_edge_home hn he ht
  · rw [if_neg hb, if_neg hb]
    by_cases hp : podOf n s = podOf n t
    · rw [if_pos hp, if_pos hp]
      refine (walkCount_single hn he ht (m := 3) hu hup).trans ?_
      rw [hp]
      exact walks_edge_pod hn he ht hedge fun h => hb (hblock.mpr ⟨hp, h⟩)
    · rw [if_neg hp, if_neg hp]
      exact (walkCount_single hn he ht (m := 5) hu hup).trans
        (walks_edge_away hn he ht hpod hedge hp)

end Count


/-! ## The fabric, in the words of the index functions -/

/-- The shape of a `k`-ary fat tree. -/
structure Structure (k : Nat) (f : Fabric) : Prop where
  connected : f.Connected
  nodeCount : f.nodeCount = fatTreeSwitchCount k + fatTreeHostCount k
  hostCount : f.hostCount = fatTreeHostCount k
  portCount : ∀ u, u < f.nodeCount →
    (f.node u).portCount = if (f.node u).isHost then 1 else k
  hostAt : ∀ h, h < f.hostCount →
    f.hostAt h = fatTreeSwitchCount k + h ∧ f.hostIndex (f.hostAt h) = h
  -- every node is where one of the index functions says, and is wired as its tier is
  ids : ∀ u, u < f.nodeCount →
    (∃ i j, i < k / 2 ∧ j < k / 2 ∧ u = fatTreeCore k i j) ∨
    (∃ pod a, pod < k ∧ a < k / 2 ∧ u = fatTreeAgg k pod a) ∨
    (∃ pod e, pod < k ∧ e < k / 2 ∧ u = fatTreeEdge k pod e) ∨
    ∃ h, h < f.hostCount ∧ u = f.hostAt h
  core : ∀ i j, i < k / 2 → j < k / 2 →
    f.neighbours (fatTreeCore k i j) = (List.range k).map fun pod => fatTreeAgg k pod i
  agg : ∀ pod a, pod < k → a < k / 2 → f.neighbours (fatTreeAgg k pod a) =
    ((List.range (k / 2)).map fun j => fatTreeCore k a j) ++
      (List.range (k / 2)).map fun e => fatTreeEdge k pod e
  edge : ∀ pod e, pod < k → e < k / 2 → f.neighbours (fatTreeEdge k pod e) =
    ((List.range (k / 2)).map fun a => fatTreeAgg k pod a) ++
      (List.range (k / 2)).map fun x => f.hostAt ((pod * (k / 2) + e) * (k / 2) + x)
  host : ∀ h, h < f.hostCount →
    f.neighbours (f.hostAt h) = [fatTreeEdge k (h / (k ^ 2 / 4)) (h / (k / 2) % (k / 2))]
  hops : ∀ s d, s < f.hostCount → d < f.hostCount → s ≠ d →
    f.graph.dist (f.hostAt s) (f.hostAt d) = fatTreeHops k s d

/-- As many candidate walks between two hosts as there are shortest paths. -/
def PathCounts (k : Nat) (f : Fabric) : Prop :=
  ∀ s d, s < f.hostCount → d < f.hostCount → s ≠ d →
    Set.ncard {route | RouteTable.CandidateWalk (RouteTable.buildShortestPath f) f d (f.hostAt s) route
      (f.hostAt d)} =
      if fatTreeEdgeOfHost k s = fatTreeEdgeOfHost k d then 1
      else if fatTreePodOfHost k s = fatTreePodOfHost k d then k / 2
      else k ^ 2 / 4

omit hn in
theorem Fits.square {k : Nat} (h : Fits k n) : k ^ 2 / 4 = n * n := by
  have hk : k ^ 2 = 4 * (n * n) := by
    rw [h.twice]
    ring
  rw [hk]
  omega

omit hn in
theorem block_host_lt {pod e x : Nat} (hpod : pod < 2 * n) (he : e < n) (hx : x < n) :
    (pod * n + e) * n + x < hostCount n := by
  have hblock : pod * n + e < 2 * n * n := by
    calc pod * n + e < pod * n + n := by omega
      _ = (pod + 1) * n := (Nat.succ_mul pod n).symm
      _ ≤ 2 * n * n := Nat.mul_le_mul_right n hpod
  calc (pod * n + e) * n + x < (pod * n + e) * n + n := by omega
    _ = (pod * n + e + 1) * n := (Nat.succ_mul _ n).symm
    _ ≤ 2 * n * n * n := Nat.mul_le_mul_right n hblock
    _ = hostCount n := Nat.mul_assoc (2 * n) n n

theorem structure_builder (h : Fits cfg.k n) : Structure cfg.k (builder cfg n).build := by
  have hhosts : (builder cfg n).build.hostCount = hostCount n := switchesFirst.hostCount
  have hnodes : (builder cfg n).build.nodeCount = switchCount n + hostCount n :=
    switchesFirst.nodeCount
  have hat : ∀ {i}, i < hostCount n → (builder cfg n).build.hostAt i = host n i := fun hi =>
    switchesFirst.hostAt hi
  have hk := h.twice
  refine
    { connected := connected hn
      nodeCount := by rw [hnodes, h.switchCount_eq, h.hostCount_eq]
      hostCount := by rw [hhosts, h.hostCount_eq]
      portCount := ?_
      hostAt := ?_
      ids := ?_
      core := ?_
      agg := ?_
      edge := ?_
      host := ?_
      hops := ?_ }
  · intro u hu
    rw [hnodes] at hu
    rw [portCount_eq hn hu, hk]
    have hfirst : (builder cfg n).SwitchesFirst (switchCount n) (hostCount n) := switchesFirst
    have hiff := hfirst.isHost_iff u
    by_cases hlt : u < switchCount n
    · rw [if_pos hlt, if_neg fun hh => not_le.mpr hlt (hiff.mp hh).1]
    · rw [if_neg hlt, if_pos (hiff.mpr ⟨not_lt.mp hlt, hu⟩)]
  · intro i hi
    rw [hhosts] at hi
    rw [hat hi, h.switchCount_eq]
    exact ⟨rfl, switchesFirst.hostIndex (valid hn) hi⟩
  · intro u hu
    rw [hnodes] at hu
    rw [h.half]
    cases tier hn hu with
    | @core i j hi hj => exact Or.inl ⟨i, j, hi, hj, (fatTreeCore_eq h hi hj).symm⟩
    | @agg pod a hpod ha =>
      exact Or.inr (Or.inl ⟨pod, a, hk ▸ hpod, ha, (fatTreeAgg_eq h hpod ha).symm⟩)
    | @edge pod e hpod he =>
      exact Or.inr (Or.inr (Or.inl ⟨pod, e, hk ▸ hpod, he, (fatTreeEdge_eq h hpod he).symm⟩))
    | @host i hi =>
      exact Or.inr (Or.inr (Or.inr ⟨i, by rw [hhosts]; exact hi, (hat hi).symm⟩))
  · intro i j hi hj
    rw [h.half] at hi hj
    rw [fatTreeCore_eq h hi hj, neighbours_core hn hi hj]
    rw [← hk]
    refine List.map_congr_left fun pod hpod => ?_
    rw [hk] at hpod
    exact (fatTreeAgg_eq h (List.mem_range.mp hpod) hi).symm
  · intro pod a hpod ha
    rw [h.half] at ha ⊢
    rw [hk] at hpod
    rw [fatTreeAgg_eq h hpod ha, neighbours_agg hn hpod ha]
    congr 1
    · exact List.map_congr_left fun j hj => (fatTreeCore_eq h ha (List.mem_range.mp hj)).symm
    · exact List.map_congr_left fun e he => (fatTreeEdge_eq h hpod (List.mem_range.mp he)).symm
  · intro pod e hpod he
    rw [h.half] at he ⊢
    rw [hk] at hpod
    rw [fatTreeEdge_eq h hpod he, neighbours_edge hn hpod he]
    congr 1
    · exact List.map_congr_left fun a ha => (fatTreeAgg_eq h hpod (List.mem_range.mp ha)).symm
    · exact List.map_congr_left fun x hx =>
        (hat (block_host_lt hpod he (List.mem_range.mp hx))).symm
  · intro i hi
    rw [hhosts] at hi
    rw [hat hi, neighbours_host hn hi, edgeOf_eq h, h.square]
    rw [← fatTreeEdge_eq h (podOf_lt h hi) (edgeOf_lt h i)]
    rfl
  · intro s d hs hd hne
    rw [hhosts] at hs hd
    rw [hat hs, hat hd, dist_hosts hn hs hd hne]
    unfold fatTreeHops
    rw [edgeOfHost_eq h, edgeOfHost_eq h, podOfHost_eq h, podOfHost_eq h]

/-- The counts are right exactly while the entries can be counted in 32 bits. -/
theorem pathCounts_iff (h : Fits cfg.k n) :
    PathCounts cfg.k (builder cfg n).build ↔ 12 * n ^ 6 < 2 ^ 32 := by
  have hhosts : (builder cfg n).build.hostCount = hostCount n := switchesFirst.hostCount
  have hat : ∀ {i}, i < hostCount n → (builder cfg n).build.hostAt i = host n i := fun hi =>
    switchesFirst.hostAt hi
  constructor
  · intro hcounts
    by_contra hge
    have htwo : 1 < hostCount n := by
      have hpos := Nat.mul_pos hn (Nat.mul_pos hn hn)
      unfold hostCount
      rw [Nat.mul_assoc]
      omega
    have hlt := h.nodes_lt
    -- `2 ^ 32` is no multiple of 12
    have hmany : 2 ^ 32 < (RouteTable.buildShortestPath (builder cfg n).build).entries.length := by
      rw [length_entries hn]
      omega
    have hwalk := RouteTable.no_walk_last (valid hn) (singlePortHosts hn) switchesFirst htwo
      (by omega) hmany
    have hcount := hcounts (hostCount n - 1) (hostCount n - 2) (by omega) (by omega) (by omega)
    rw [hat (by omega), hat (by omega)] at hcount
    have hempty : {route | RouteTable.CandidateWalk (RouteTable.buildShortestPath (builder cfg n).build)
        (builder cfg n).build (hostCount n - 2) (host n (hostCount n - 1)) route
        (host n (hostCount n - 2))} = ∅ := Set.eq_empty_iff_forall_notMem.mpr hwalk
    rw [hempty, Set.ncard_empty, h.half, h.square] at hcount
    have hsq := Nat.mul_pos hn hn
    split at hcount
    · omega
    · split at hcount <;> omega
  · intro he s d hs hd hne
    rw [hhosts] at hs hd
    rw [hat hs, hat hd, ncard_walks_hosts hn he hd hs hne, edgeOfHost_eq h, edgeOfHost_eq h,
      podOfHost_eq h, podOfHost_eq h, h.half, h.square]


omit hn in
/-- Twelve ports for every pod, row and column. -/
theorem fits {k : Nat} (hk : 2 ≤ k) (heven : k % 2 = 0)
    (hports : 5 * k ^ 2 / 4 * k + k ^ 3 / 4 < 2 ^ 32) : Fits k (k / 2) := by
  obtain ⟨n, rfl⟩ : ∃ n, k = 2 * n := ⟨k / 2, by omega⟩
  have hhalf : 2 * n / 2 = n := by omega
  have hsquare : 5 * (2 * n) ^ 2 / 4 = 5 * (n * n) := by
    have : 5 * (2 * n) ^ 2 = 4 * (5 * (n * n)) := by ring
    omega
  have hcube : (2 * n) ^ 3 / 4 = 2 * (n * n * n) := by
    have : (2 * n) ^ 3 = 4 * (2 * (n * n * n)) := by ring
    omega
  have hsum : 5 * (n * n) * (2 * n) + 2 * (n * n * n) = 12 * (n * n * n) := by ring
  rw [hsquare, hcube, hsum] at hports
  rw [hhalf]
  exact ⟨rfl, by omega, hports⟩

end Paths

end FatTree

/-- The builder makes the fat tree of every arity whose ports can be counted in 32
bits: connected, with the degrees, the node ids and the wiring of a fat tree, and with
`fatTreeHops` for its distances. The route table offers as many walks as there are
shortest paths exactly while its entries, one for every host and link, can be counted
in 32 bits too. -/
theorem fat_tree_exact (cfg : FatTreeConfig) (hk : 2 ≤ cfg.k) (heven : cfg.k % 2 = 0)
    (hports : 5 * cfg.k ^ 2 / 4 * cfg.k + cfg.k ^ 3 / 4 < 2 ^ 32) :
    ∃ f, buildFatTree cfg = some f ∧ FatTree.Structure cfg.k f ∧
      (FatTree.PathCounts cfg.k f ↔ 12 * (cfg.k / 2) ^ 6 < 2 ^ 32) := by
  have hfits := FatTree.fits hk heven hports
  refine ⟨_, FatTree.buildFatTree_eq hfits, FatTree.structure_builder hfits.pos hfits, ?_⟩
  exact FatTree.pathCounts_iff hfits.pos hfits

/-- Arity 4, where the table is exact. -/
theorem fat_tree_exact_four :
    ∃ f, buildFatTree { k := 4 } = some f ∧ FatTree.Structure 4 f ∧ FatTree.PathCounts 4 f := by
  obtain ⟨f, hf, hs, hp⟩ := fat_tree_exact { k := 4 } (by decide) (by decide) (by decide)
  exact ⟨f, hf, hs, hp.mpr (by decide)⟩

/-- At arity 54 every count of the fabric is a small number, but the table has more than
`2 ^ 32` entries: the last host is offered no walk to the one next to it. -/
theorem fat_tree_loses_paths :
    ∃ f, buildFatTree { k := 54 } = some f ∧ f.nodeCount = 43011 ∧
      5 * 54 ^ 2 / 4 * 54 + 54 ^ 3 / 4 = 236196 ∧ ¬ FatTree.PathCounts 54 f := by
  have hfits : FatTree.Fits (FatTreeConfig.k { k := 54 }) 27 := FatTree.fits (by decide) (by decide) (by decide)
  refine ⟨_, FatTree.buildFatTree_eq hfits, ?_, by decide, fun hcounts => ?_⟩
  · exact FatTree.switchesFirst.nodeCount
  · exact absurd ((FatTree.pathCounts_iff hfits.pos hfits).mp hcounts) (by decide)

end FabricSim
