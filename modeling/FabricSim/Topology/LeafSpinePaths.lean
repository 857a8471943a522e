import FabricSim.Routing.CandidateWalks
import FabricSim.Topology.LeafSpine

/-!
# Ports and candidates of a leaf/spine fabric

The neighbours of a node in port order, tier by tier, and those of them that are one hop
closer to a host: all spines from a leaf of other hosts, one node from everywhere else.
The table has a run for each of these sets, of its length whatever the size of the fabric
(`RouteTable.length_candidates`), and in its place while the entries, one for every host and
link, can be counted in 32 bits.
-/

namespace FabricSim

open Digits FabricBuilder

namespace LeafSpine

/-- The entries of the route table can be counted in 32 bits. -/
def TableFits (cfg : LeafSpineConfig) : Prop :=
  hostTotal cfg * (cfg.leafCount * cfg.spineCount + hostTotal cfg) < 2 ^ 32

instance (cfg : LeafSpineConfig) : Decidable (TableFits cfg) := by
  unfold TableFits
  infer_instance

section Paths

variable {cfg : LeafSpineConfig} (hk : 0 < cfg.hostsPerLeaf)

include hk

/-! ## Neighbours -/

theorem neighbours_eq (u : NodeId) : (builder cfg).build.neighbours u =
    ((List.range cfg.leafCount).flatMap fun l => (List.range cfg.spineCount).filterMap fun s =>
      otherEnd u ⟨cfg.spineCount + l, s, cfg.fabricLink⟩) ++
    (List.range (hostTotal cfg)).filterMap fun h =>
      otherEnd u ⟨switchCount cfg + h, cfg.spineCount + h / cfg.hostsPerLeaf, cfg.hostLink⟩ := by
  rw [FabricBuilder.neighbours_eq (valid hk), builder_eq cfg hk]
  show (meshEdges cfg ++ hostEdges cfg).filterMap _ = _
  unfold meshEdges hostEdges
  rw [List.filterMap_append, List.filterMap_flatMap, List.filterMap_map]
  simp only [List.filterMap_map]
  rfl

omit hk in
theorem spine_ne_leaf {s : Nat} (hs : s < cfg.spineCount) (l : Nat) : s ≠ cfg.spineCount + l := by
  omega

omit hk in
theorem leaf_ne_host {l : Nat} (hl : l < cfg.leafCount) (h : Nat) :
    cfg.spineCount + l ≠ switchCount cfg + h := by
  unfold switchCount
  omega

omit hk in
theorem spine_ne_host {s : Nat} (hs : s < cfg.spineCount) (h : Nat) : s ≠ switchCount cfg + h := by
  unfold switchCount
  omega

/-- A spine has all leaves. -/
theorem neighbours_spine {s : Nat} (hs : s < cfg.spineCount) :
    (builder cfg).build.neighbours s =
      (List.range cfg.leafCount).map fun l => cfg.spineCount + l := by
  rw [neighbours_eq hk,
    filterMap_range_nil fun h _ => otherEnd_none (spine_ne_host hs h) (spine_ne_leaf hs _),
    List.append_nil]
  refine flatMap_range_map fun l _ => ?_
  refine filterMap_range_single hs (otherEnd_right (spine_ne_leaf hs l)) fun s' _ hne => ?_
  exact otherEnd_none (spine_ne_leaf hs l) hne.symm

/-- A leaf has all spines above, and its block of hosts below. -/
theorem neighbours_leaf {l : Nat} (hl : l < cfg.leafCount) :
    (builder cfg).build.neighbours (cfg.spineCount + l) = List.range cfg.spineCount ++
      (List.range cfg.hostsPerLeaf).map fun i => switchCount cfg + (l * cfg.hostsPerLeaf + i) := by
  rw [neighbours_eq hk]
  congr 1
  · rw [flatMap_range_single hl]
    · simp only [otherEnd_left]
      rw [List.filterMap_eq_map', List.map_id']
    · intro l' _ hne
      refine filterMap_range_nil fun s hs => otherEnd_none ?_ (spine_ne_leaf hs l).symm
      exact fun heq => hne (Nat.add_left_cancel heq).symm
  · refine filterMap_range_block hl (fun i hi => ?_) fun l' _ hne i hi => ?_
    · rw [block_div hi]
      exact otherEnd_right (leaf_ne_host hl _)
    · rw [block_div hi]
      exact otherEnd_none (leaf_ne_host hl _) fun heq => hne (Nat.add_left_cancel heq).symm

/-- A host has its leaf. -/
theorem neighbours_host {h : Nat} (hh : h < hostTotal cfg) :
    (builder cfg).build.neighbours (switchCount cfg + h) =
      [cfg.spineCount + h / cfg.hostsPerLeaf] := by
  have hmesh : ((List.range cfg.leafCount).flatMap fun l =>
      (List.range cfg.spineCount).filterMap fun s =>
        otherEnd (switchCount cfg + h) ⟨cfg.spineCount + l, s, cfg.fabricLink⟩) = [] := by
    rw [List.flatMap_eq_nil_iff]
    intro l hl
    refine filterMap_range_nil fun s hs => otherEnd_none ?_ (spine_ne_host hs h).symm
    exact (leaf_ne_host (List.mem_range.mp hl) h).symm
  rw [neighbours_eq hk, hmesh, List.nil_append]
  refine filterMap_range_single hh otherEnd_left fun h' hh' hne => ?_
  exact otherEnd_none (fun heq => hne (Nat.add_left_cancel heq).symm)
    (leaf_ne_host (leaf_lt hk hh') h).symm

omit hk in
theorem leaf_node_lt {l : Nat} (hl : l < cfg.leafCount) :
    cfg.spineCount + l < switchCount cfg + hostTotal cfg := by
  unfold switchCount
  omega

omit hk in
theorem spine_node_lt {s : Nat} (hs : s < cfg.spineCount) :
    s < switchCount cfg + hostTotal cfg := by
  unfold switchCount
  omega

/-! ## The neighbours one hop closer -/

omit hk in
/-- The neighbours of `u` that are one hop closer to host `t`. -/
def closer (cfg : LeafSpineConfig) (t u : Nat) : List Nat :=
  ((builder cfg).build.neighbours u).filter fun v => hopsTo cfg t v + 1 == hopsTo cfg t u

/-- From a spine the leaf of the host. -/
theorem closer_spine {t s : Nat} (ht : t < hostTotal cfg) (hs : s < cfg.spineCount) :
    closer cfg t s = [cfg.spineCount + t / cfg.hostsPerLeaf] := by
  unfold closer
  rw [neighbours_spine hk hs, hopsTo_spine t hs]
  refine filter_map_range_single (leaf_lt hk ht) ?_ fun l hl hne => ?_
  · rw [hopsTo_leaf t (leaf_lt hk ht), if_pos rfl]
    rfl
  · rw [hopsTo_leaf t hl, if_neg hne]
    rfl

/-- From the leaf of the host the host. -/
theorem closer_leaf_home {t : Nat} (ht : t < hostTotal cfg) :
    closer cfg t (cfg.spineCount + t / cfg.hostsPerLeaf) = [switchCount cfg + t] := by
  have hup : (List.range cfg.spineCount).filter (fun v => hopsTo cfg t v + 1 == 1) = [] := by
    rw [List.filter_eq_nil_iff]
    intro s hs
    rw [hopsTo_spine t (List.mem_range.mp hs)]
    decide
  have hself : t / cfg.hostsPerLeaf * cfg.hostsPerLeaf + t % cfg.hostsPerLeaf = t := by
    rw [Nat.mul_comm]
    exact Nat.div_add_mod t cfg.hostsPerLeaf
  have hdown := filter_map_range_single (p := fun v => hopsTo cfg t v + 1 == 1)
    (g := fun i => switchCount cfg + (t / cfg.hostsPerLeaf * cfg.hostsPerLeaf + i))
    (Nat.mod_lt t hk)
    (by
      rw [hself, hopsTo_host, if_pos rfl]
      rfl)
    (by
      intro i hi hne
      rw [hopsTo_host, if_neg fun heq => hne (by omega), block_div hi, if_pos rfl]
      rfl)
  unfold closer
  rw [neighbours_leaf hk (leaf_lt hk ht), hopsTo_leaf t (leaf_lt hk ht), if_pos rfl,
    List.filter_append, hup, List.nil_append, hdown, hself]

/-- From another leaf every spine. -/
theorem closer_leaf_away {t l : Nat} (hl : l < cfg.leafCount) (hne : l ≠ t / cfg.hostsPerLeaf) :
    closer cfg t (cfg.spineCount + l) = List.range cfg.spineCount := by
  have hup : (List.range cfg.spineCount).filter (fun v => hopsTo cfg t v + 1 == 3) =
      List.range cfg.spineCount := by
    rw [List.filter_eq_self]
    intro s hs
    rw [hopsTo_spine t (List.mem_range.mp hs)]
    rfl
  have hdown : ((List.range cfg.hostsPerLeaf).map fun i =>
      switchCount cfg + (l * cfg.hostsPerLeaf + i)).filter
        (fun v => hopsTo cfg t v + 1 == 3) = [] := by
    rw [List.filter_eq_nil_iff]
    intro v hv
    obtain ⟨i, hi, rfl⟩ := List.mem_map.mp hv
    have hi := List.mem_range.mp hi
    have hother : l * cfg.hostsPerLeaf + i ≠ t := by
      intro heq
      rw [← heq, block_div hi] at hne
      exact hne rfl
    rw [hopsTo_host, if_neg hother, block_div hi, if_neg hne]
    decide
  unfold closer
  rw [neighbours_leaf hk hl, hopsTo_leaf t hl, if_neg hne, List.filter_append, hup, hdown,
    List.append_nil]

/-! ## The table -/

variable (hsp : 0 < cfg.spineCount) (hlf : 0 < cfg.leafCount)

include hsp hlf

/-- A cell of the table leads to the closer neighbours. -/
theorem map_peer_nextHopsTo {t u : Nat} (ht : t < hostTotal cfg)
    (hu : u < switchCount cfg + hostTotal cfg) :
    (RouteTable.nextHopsTo (builder cfg).build u t).map
      (fun p => ((builder cfg).build.port p).peerNode) = closer cfg t u := by
  have hwf := build_wellFormed (valid hk)
  have hnodes := (switchesFirst hk).nodeCount
  have hhosts := (switchesFirst hk).hostCount
  have hat := (switchesFirst hk).hostAt ht
  rw [RouteTable.map_peer_nextHopsTo (valid hk) (connected hsp hlf hk) (by rw [hnodes]; exact hu)
    (by rw [hhosts]; exact ht)]
  unfold closer
  refine List.filter_congr fun v hv => ?_
  have hlt := hwf.linked_lt v u ((hwf.adj_iff v u).mp ((hwf.adj_iff_mem u v).mpr hv).symm)
  rw [hnodes] at hlt
  rw [hat, (dist_eq_hopsTo hsp hk ht hlt).2, (dist_eq_hopsTo hsp hk ht hu).2]

/-- A cell is as long as there are closer neighbours. -/
theorem length_nextHopsTo {t u : Nat} (ht : t < hostTotal cfg)
    (hu : u < switchCount cfg + hostTotal cfg) :
    (RouteTable.nextHopsTo (builder cfg).build u t).length = (closer cfg t u).length := by
  have hmap := congrArg List.length (map_peer_nextHopsTo hk hsp hlf ht hu)
  rwa [List.length_map] at hmap

/-- A run of the table is as long as there are closer neighbours. -/
theorem length_candidates {t u : Nat} (ht : t < hostTotal cfg) (hu : u < switchCount cfg + hostTotal cfg)
    (hfit : (closer cfg t u).length < 2 ^ 32) :
    ((RouteTable.buildShortestPath (builder cfg).build).candidates u t).length =
      (closer cfg t u).length := by
  rw [← length_nextHopsTo hk hsp hlf ht hu] at hfit ⊢
  refine RouteTable.length_candidates ?_ ?_ hfit
  · rw [(switchesFirst hk).nodeCount]
    exact hu
  · rw [(switchesFirst hk).hostCount]
    exact ht

omit hsp hlf in
theorem length_edges : (builder cfg).edges.length =
    cfg.leafCount * cfg.spineCount + hostTotal cfg := by
  rw [builder_eq cfg hk]
  show (meshEdges cfg ++ hostEdges cfg).length = _
  unfold meshEdges hostEdges hostTotal
  simp

/-- A link leads one hop closer or one hop away. -/
theorem length_entries : (RouteTable.buildShortestPath (builder cfg).build).entries.length =
    hostTotal cfg * (cfg.leafCount * cfg.spineCount + hostTotal cfg) := by
  have hhosts := (switchesFirst hk).hostCount
  have hentries := RouteTable.length_entries (valid hk) (connected hsp hlf hk) fun t ht x hx => by
    rw [hhosts] at ht
    have hlen : (builder cfg).isHost.length = switchCount cfg + hostTotal cfg :=
      (switchesFirst hk).nodeCount
    obtain ⟨ha, hb, -⟩ := valid hk x hx
    rw [hlen] at ha hb
    rw [(switchesFirst hk).hostAt ht, (dist_eq_hopsTo hsp hk ht ha).2,
      (dist_eq_hopsTo hsp hk ht hb).2]
    rcases (mem_edges hk).mp hx with ⟨l, s, hl, hs, rfl⟩ | ⟨h, hh, rfl⟩
    · dsimp only
      rw [hopsTo_leaf t hl, hopsTo_spine t hs]
      split
      · exact Or.inl rfl
      · exact Or.inr rfl
    · dsimp only
      rw [hopsTo_host, hopsTo_leaf t (leaf_lt hk hh)]
      by_cases hself : h = t
      · subst hself
        rw [if_pos rfl, if_pos rfl]
        exact Or.inl rfl
      · rw [if_neg hself]
        split
        · exact Or.inr rfl
        · exact Or.inr rfl
  rw [hentries, hhosts, length_edges hk]

/-- While the entries can be counted, a run leads to the closer neighbours. -/
theorem map_peer_candidates {t u : Nat} (ht : t < hostTotal cfg)
    (hu : u < switchCount cfg + hostTotal cfg)
    (he : hostTotal cfg * (cfg.leafCount * cfg.spineCount + hostTotal cfg) < 2 ^ 32) :
    ((RouteTable.buildShortestPath (builder cfg).build).candidates u t).map
      (fun p => ((builder cfg).build.port p).peerNode) = closer cfg t u := by
  rw [← map_peer_nextHopsTo hk hsp hlf ht hu, RouteTable.candidates_eq_nextHopsTo]
  · rw [length_entries hk hsp hlf]
    exact he
  · rw [(switchesFirst hk).nodeCount]
    exact hu
  · rw [(switchesFirst hk).hostCount]
    exact ht

/-! ## Where the rows and the ports of a node begin -/

omit hk hsp hlf in
/-- The length of a cell. -/
def cellLength (cfg : LeafSpineConfig) (c : Nat) : Nat :=
  (RouteTable.perCell (builder cfg).build c).length

theorem cellLength_eq {u t : Nat} (ht : t < hostTotal cfg)
    (hu : u < switchCount cfg + hostTotal cfg) :
    cellLength cfg (u * hostTotal cfg + t) = (closer cfg t u).length := by
  have hhosts := (switchesFirst hk).hostCount
  unfold cellLength
  rw [← length_nextHopsTo hk hsp hlf ht hu, ← RouteTable.perCell_eq_nextHopsTo _
    (by rw [(switchesFirst hk).nodeCount]; exact hu) (by rw [hhosts]; exact ht), hhosts]

/-- A spine has one port for each host. -/
theorem row_spine {s : Nat} (hs : s < cfg.spineCount) :
    ∑ t ∈ Finset.range (hostTotal cfg), cellLength cfg (s * hostTotal cfg + t) =
      hostTotal cfg := by
  have hone : ∀ t ∈ Finset.range (hostTotal cfg),
      cellLength cfg (s * hostTotal cfg + t) = 1 := by
    intro t ht
    have ht := Finset.mem_range.mp ht
    rw [cellLength_eq hk hsp hlf ht (spine_node_lt hs), closer_spine hk ht hs]
    rfl
  rw [Finset.sum_congr rfl hone, Finset.sum_const, Finset.card_range, smul_eq_mul, Nat.mul_one]

/-- A leaf has one port for each of its hosts, and all its uplinks for each other. -/
theorem row_leaf {l : Nat} (hl : l < cfg.leafCount) :
    ∑ t ∈ Finset.range (hostTotal cfg), cellLength cfg ((cfg.spineCount + l) * hostTotal cfg + t) =
      cfg.hostsPerLeaf + (cfg.leafCount - 1) * (cfg.hostsPerLeaf * cfg.spineCount) := by
  have hcell : ∀ t ∈ Finset.range (hostTotal cfg),
      cellLength cfg ((cfg.spineCount + l) * hostTotal cfg + t) =
        if t / cfg.hostsPerLeaf = l then 1 else cfg.spineCount := by
    intro t ht
    have ht := Finset.mem_range.mp ht
    rw [cellLength_eq hk hsp hlf ht (leaf_node_lt hl)]
    by_cases hhome : t / cfg.hostsPerLeaf = l
    · subst hhome
      rw [if_pos rfl, closer_leaf_home hk ht]
      rfl
    · rw [if_neg hhome, closer_leaf_away hk hl (Ne.symm hhome), List.length_range]
  rw [Finset.sum_congr rfl hcell]
  unfold hostTotal
  rw [sum_range_block hl, Nat.mul_one]

/-- The entries before the row of a leaf. -/
theorem place_leaf {l : Nat} (hl : l ≤ cfg.leafCount) :
    Csr.prefixSum (cellLength cfg) ((cfg.spineCount + l) * hostTotal cfg) =
      cfg.spineCount * hostTotal cfg +
        l * (cfg.hostsPerLeaf + (cfg.leafCount - 1) * (cfg.hostsPerLeaf * cfg.spineCount)) := by
  rw [prefixSum_eq_sum, sum_range_mul, Finset.sum_range_add,
    Finset.sum_congr rfl fun s hs => row_spine hk hsp hlf (Finset.mem_range.mp hs),
    Finset.sum_congr rfl fun r hr =>
      row_leaf hk hsp hlf (lt_of_lt_of_le (Finset.mem_range.mp hr) hl)]
  simp

omit hsp hlf in
/-- The ports before those of a leaf. -/
theorem firstPort_leaf {l : Nat} (hl : l ≤ cfg.leafCount) :
    FabricBuilder.firstPort (builder cfg).edges (cfg.spineCount + l) =
      cfg.spineCount * cfg.leafCount + l * (cfg.spineCount + cfg.hostsPerLeaf) := by
  have hspine : ∀ s ∈ Finset.range cfg.spineCount,
      FabricBuilder.degree (builder cfg).edges s = cfg.leafCount := by
    intro s hs
    rw [degree_neighbours (valid hk), neighbours_spine hk (Finset.mem_range.mp hs), List.length_map,
      List.length_range]
  have hleaf : ∀ r ∈ Finset.range l,
      FabricBuilder.degree (builder cfg).edges (cfg.spineCount + r) =
        cfg.spineCount + cfg.hostsPerLeaf := by
    intro r hr
    rw [degree_neighbours (valid hk), neighbours_leaf hk (lt_of_lt_of_le (Finset.mem_range.mp hr) hl)]
    simp
  unfold FabricBuilder.firstPort
  rw [prefixSum_eq_sum, Finset.sum_range_add, Finset.sum_congr rfl hspine,
    Finset.sum_congr rfl hleaf]
  simp

omit hsp hlf in
/-- The ports before that of a host. -/
theorem firstPort_host {h : Nat} (hh : h ≤ hostTotal cfg) :
    FabricBuilder.firstPort (builder cfg).edges (switchCount cfg + h) =
      cfg.spineCount * cfg.leafCount + cfg.leafCount * (cfg.spineCount + cfg.hostsPerLeaf) + h := by
  have hhost : ∀ t ∈ Finset.range h,
      FabricBuilder.degree (builder cfg).edges (switchCount cfg + t) = 1 := by
    intro t ht
    rw [degree_neighbours (valid hk), neighbours_host hk (lt_of_lt_of_le (Finset.mem_range.mp ht) hh)]
    rfl
  have hswitches := firstPort_leaf hk le_rfl
  unfold FabricBuilder.firstPort at hswitches ⊢
  rw [prefixSum_eq_sum] at hswitches ⊢
  rw [Finset.sum_range_add, Finset.sum_congr rfl hhost]
  unfold switchCount
  rw [hswitches]
  simp

/-- From the leaf of a host the port behind the uplinks. -/
theorem nextHopsTo_home {t : Nat} (ht : t < hostTotal cfg) :
    RouteTable.nextHopsTo (builder cfg).build (cfg.spineCount + t / cfg.hostsPerLeaf) t =
      [FabricBuilder.firstPort (builder cfg).edges (cfg.spineCount + t / cfg.hostsPerLeaf) +
        (cfg.spineCount + t % cfg.hostsPerLeaf)] := by
  have hl := leaf_lt hk ht
  have hmap := map_peer_nextHopsTo hk hsp hlf ht (leaf_node_lt hl)
  rw [closer_leaf_home hk ht] at hmap
  refine RouteTable.nextHopsTo_single (valid hk) hmap fun i hat => ?_
  rw [neighbours_leaf hk hl] at hat
  -- the host is behind the spines
  have hbehind : cfg.spineCount ≤ i := by
    by_contra hlt
    rw [List.getElem?_append_left (by rw [List.length_range]; omega),
      List.getElem?_range (by omega)] at hat
    have := Option.some.inj hat
    unfold switchCount at this
    omega
  rw [List.getElem?_append_right (by rw [List.length_range]; exact hbehind), List.length_range,
    List.getElem?_map] at hat
  obtain ⟨j, hj, heq⟩ := Option.map_eq_some_iff.mp hat
  obtain ⟨hlt, hval⟩ := List.getElem?_eq_some_iff.mp hj
  rw [List.getElem_range] at hval
  subst hval
  have heq := Nat.add_left_cancel heq
  have hself := Nat.div_add_mod' t cfg.hostsPerLeaf
  omega

omit hk hsp hlf

/-! ## The fabric -/

/-- The shape of a leaf/spine fabric. -/
structure Structure (cfg : LeafSpineConfig) (f : Fabric) : Prop where
  connected : f.Connected
  nodeCount : f.nodeCount =
    cfg.spineCount + cfg.leafCount + cfg.leafCount * cfg.hostsPerLeaf
  hostCount : f.hostCount = cfg.leafCount * cfg.hostsPerLeaf
  hostAt : ∀ h, h < f.hostCount → f.hostAt h = cfg.spineCount + cfg.leafCount + h ∧
    (f.node (f.hostAt h)).isHost = true ∧ f.hostIndex (f.hostAt h) = h
  hostPorts : ∀ h, h < f.hostCount → (f.node (f.hostAt h)).portCount = 1
  -- the neighbours in port order
  spine : ∀ s, s < cfg.spineCount → f.neighbours s =
    (List.range cfg.leafCount).map fun l => cfg.spineCount + l
  leaf : ∀ l, l < cfg.leafCount → f.neighbours (cfg.spineCount + l) =
    List.range cfg.spineCount ++
      (List.range cfg.hostsPerLeaf).map fun i => f.hostAt (l * cfg.hostsPerLeaf + i)
  host : ∀ h, h < f.hostCount →
    f.neighbours (f.hostAt h) = [cfg.spineCount + h / cfg.hostsPerLeaf]
  hops : ∀ s d, s < f.hostCount → d < f.hostCount → s ≠ d →
    f.graph.dist (f.hostAt s) (f.hostAt d) =
      if s / cfg.hostsPerLeaf = d / cfg.hostsPerLeaf then 2 else 4

/-- How many candidates the table has at the switches. -/
structure CandidateCounts (cfg : LeafSpineConfig) (f : Fabric) : Prop where
  remote : ∀ l h, l < cfg.leafCount → h < f.hostCount → h / cfg.hostsPerLeaf ≠ l →
    ((RouteTable.buildShortestPath f).candidates (cfg.spineCount + l) h).length = cfg.spineCount
  home : ∀ h, h < f.hostCount →
    ((RouteTable.buildShortestPath f).candidates (cfg.spineCount + h / cfg.hostsPerLeaf) h).length = 1
  spine : ∀ s h, s < cfg.spineCount → h < f.hostCount →
    ((RouteTable.buildShortestPath f).candidates s h).length = 1

/-- Where they lead. -/
structure CandidatePeers (cfg : LeafSpineConfig) (f : Fabric) : Prop where
  remote : ∀ l h, l < cfg.leafCount → h < f.hostCount → h / cfg.hostsPerLeaf ≠ l →
    ((RouteTable.buildShortestPath f).candidates (cfg.spineCount + l) h).map (fun p => (f.port p).peerNode) =
      List.range cfg.spineCount
  home : ∀ h, h < f.hostCount →
    ((RouteTable.buildShortestPath f).candidates (cfg.spineCount + h / cfg.hostsPerLeaf) h).map
      (fun p => (f.port p).peerNode) = [f.hostAt h]
  spine : ∀ s h, s < cfg.spineCount → h < f.hostCount →
    ((RouteTable.buildShortestPath f).candidates s h).map (fun p => (f.port p).peerNode) =
      [cfg.spineCount + h / cfg.hostsPerLeaf]

include hk hsp hlf

theorem structure_builder : Structure cfg (builder cfg).build := by
  have hnodes := (switchesFirst hk).nodeCount
  have hhosts := (switchesFirst hk).hostCount
  have hat : ∀ {h}, h < hostTotal cfg → (builder cfg).build.hostAt h = switchCount cfg + h :=
    fun hh => (switchesFirst hk).hostAt hh
  have hwf := build_wellFormed (valid hk)
  refine
    { connected := connected hsp hlf hk
      nodeCount := hnodes
      hostCount := hhosts
      hostAt := ?_
      hostPorts := ?_
      spine := fun s hs => neighbours_spine hk hs
      leaf := ?_
      host := ?_
      hops := ?_ }
  · intro h hh
    have hhost := hwf.isHost_hostAt h hh
    rw [hhosts] at hh
    rw [hat hh] at hhost ⊢
    exact ⟨rfl, hhost, (switchesFirst hk).hostIndex (valid hk) hh⟩
  · exact fun h hh => singlePortHosts hk _ (hwf.isHost_hostAt h hh)
  · intro l hl
    rw [neighbours_leaf hk hl]
    congr 1
    exact List.map_congr_left fun i hi => (hat (block_lt hl (List.mem_range.mp hi))).symm
  · intro h hh
    rw [hhosts] at hh
    rw [hat hh, neighbours_host hk hh]
  · intro s d hs hd hne
    rw [hhosts] at hs hd
    rw [hat hs, hat hd, dist_hosts hsp hk hs hd hne]
    rfl

theorem candidateCounts_builder (hfit : cfg.spineCount < 2 ^ 32) :
    CandidateCounts cfg (builder cfg).build := by
  have hhosts := (switchesFirst hk).hostCount
  refine { remote := ?_, home := ?_, spine := ?_ }
  · intro l h hl hh hne
    rw [hhosts] at hh
    have haway := closer_leaf_away hk hl hne.symm
    rw [length_candidates hk hsp hlf hh (leaf_node_lt hl), haway, List.length_range]
    rw [haway, List.length_range]
    exact hfit
  · intro h hh
    rw [hhosts] at hh
    have hhome := closer_leaf_home hk hh
    rw [length_candidates hk hsp hlf hh (leaf_node_lt (leaf_lt hk hh)), hhome]
    · rfl
    · rw [hhome]
      exact (by decide : 1 < 2 ^ 32)
  · intro s h hs hh
    rw [hhosts] at hh
    have hdown := closer_spine hk hh hs
    rw [length_candidates hk hsp hlf hh (spine_node_lt hs), hdown]
    · rfl
    · rw [hdown]
      exact (by decide : 1 < 2 ^ 32)

theorem candidatePeers_builder
    (he : hostTotal cfg * (cfg.leafCount * cfg.spineCount + hostTotal cfg) < 2 ^ 32) :
    CandidatePeers cfg (builder cfg).build := by
  have hhosts := (switchesFirst hk).hostCount
  refine { remote := ?_, home := ?_, spine := ?_ }
  · intro l h hl hh hne
    rw [hhosts] at hh
    rw [map_peer_candidates hk hsp hlf hh (leaf_node_lt hl) he]
    exact closer_leaf_away hk hl hne.symm
  · intro h hh
    rw [hhosts] at hh
    rw [map_peer_candidates hk hsp hlf hh (leaf_node_lt (leaf_lt hk hh)) he,
      (switchesFirst hk).hostAt hh]
    exact closer_leaf_home hk hh
  · intro s h hs hh
    rw [hhosts] at hh
    rw [map_peer_candidates hk hsp hlf hh (spine_node_lt hs) he]
    exact closer_spine hk hh hs

end Paths

end LeafSpine

end FabricSim
