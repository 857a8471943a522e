import FabricSim.Topology.Shape

/-!
# Two-tier leaf/spine

Node ids: spines first, then leaves, then hosts grouped by leaf. The builder's
edge list is computed (`leafSpine_edges`), and the hop distances follow by a
labelling: a host is 2 hops from the hosts on its leaf and 4 from the others.
-/

namespace FabricSim

structure LeafSpineConfig where
  spineCount : Nat := 2
  leafCount : Nat := 2
  hostsPerLeaf : Nat := 4
  hostLink : LinkParams := {}
  fabricLink : LinkParams := {}

def kLeafSpineCrossLeafHops : Nat := 4
def kLeafSpineSameLeafHops : Nat := 2

namespace LeafSpine

/-- `count` calls of `add_switch`, and the ids they return. -/
def addSwitches (b : FabricBuilder) (count : Nat) : FabricBuilder × List NodeId :=
  (List.range count).foldl (fun acc _ => (acc.1.addSwitch, acc.2 ++ [acc.1.isHost.length])) (b, [])

def builder (cfg : LeafSpineConfig) : FabricBuilder :=
  let (b, spines) := addSwitches {} cfg.spineCount
  let (b, leaves) := addSwitches b cfg.leafCount
  -- full bipartite leaf-spine mesh
  let b := leaves.foldl (fun b leaf =>
    spines.foldl (fun b spine => b.connect leaf spine cfg.fabricLink) b) b
  -- hosts, grouped by leaf
  leaves.foldl (fun b leaf =>
    (List.range cfg.hostsPerLeaf).foldl (fun b _ =>
      b.addHost.connect b.isHost.length leaf cfg.hostLink) b) b

end LeafSpine

/-- `none` when the assertion on the counts fails. -/
def buildLeafSpine (cfg : LeafSpineConfig) : Option Fabric :=
  if 0 < cfg.spineCount ∧ 0 < cfg.leafCount ∧ 0 < cfg.hostsPerLeaf then
    some (LeafSpine.builder cfg).build
  else none

namespace LeafSpine

variable (cfg : LeafSpineConfig)

/-- The number of switches, and the id of the first host. -/
def switchCount : Nat := cfg.spineCount + cfg.leafCount

def meshEdges : List Edge :=
  (List.range cfg.leafCount).flatMap fun l => (List.range cfg.spineCount).map fun s =>
    ⟨cfg.spineCount + l, s, cfg.fabricLink⟩

def hostEdges : List Edge :=
  (List.range (cfg.leafCount * cfg.hostsPerLeaf)).map fun h =>
    ⟨switchCount cfg + h, cfg.spineCount + h / cfg.hostsPerLeaf, cfg.hostLink⟩

theorem addSwitches_eq (b : FabricBuilder) (count : Nat) :
    addSwitches b count =
      ({ b with isHost := b.isHost ++ List.replicate count false },
        (List.range count).map (b.isHost.length + ·)) := by
  unfold addSwitches
  induction count with
  | zero => simp
  | succ n ih =>
    rw [List.range_succ, List.foldl_append, ih, List.foldl_cons, List.foldl_nil, List.map_append,
      List.replicate_succ']
    simp [FabricBuilder.addSwitch]

theorem foldl_mesh (b : FabricBuilder) (leaves spines : List NodeId) (link : LinkParams) :
    leaves.foldl (fun b leaf => spines.foldl (fun b spine => b.connect leaf spine link) b) b =
      { b with edges := b.edges ++ leaves.flatMap fun leaf => spines.map fun spine =>
        ⟨leaf, spine, link⟩ } :=
  FabricBuilder.foldl_edges
    (fun leaf _ => FabricBuilder.foldl_connect (fun _ => leaf) (fun spine => spine) link spines) b

theorem foldl_hosts (b : FabricBuilder) (leaf : NodeId) (link : LinkParams) (count : Nat) :
    (List.range count).foldl (fun b _ => b.addHost.connect b.isHost.length leaf link) b =
      { isHost := b.isHost ++ List.replicate count true
        edges := b.edges ++ (List.range count).map fun i => ⟨b.isHost.length + i, leaf, link⟩ } := by
  induction count with
  | zero => simp
  | succ n ih =>
    rw [List.range_succ, List.foldl_append, ih, List.foldl_cons, List.foldl_nil, List.map_append,
      List.replicate_succ']
    simp [FabricBuilder.addHost, FabricBuilder.connect]

theorem foldl_leaves (b : FabricBuilder) (base : Nat) (link : LinkParams) {k : Nat} (hk : 0 < k)
    (count : Nat) :
    ((List.range count).map (base + ·)).foldl (fun b leaf =>
      (List.range k).foldl (fun b _ => b.addHost.connect b.isHost.length leaf link) b) b =
      { isHost := b.isHost ++ List.replicate (count * k) true
        edges := b.edges ++ (List.range (count * k)).map fun h =>
          ⟨b.isHost.length + h, base + h / k, link⟩ } := by
  induction count with
  | zero => simp
  | succ n ih =>
    have hrange : List.range ((n + 1) * k) = List.range (n * k) ++ (List.range k).map (n * k + ·) := by
      rw [Nat.succ_mul, List.range_add]
    have hdiv : ∀ i ∈ List.range k, (n * k + i) / k = n := by
      intro i hi
      rw [Nat.mul_comm, Nat.mul_add_div hk, Nat.div_eq_of_lt (List.mem_range.mp hi), Nat.add_zero]
    rw [List.range_succ, List.map_append, List.foldl_append, ih, List.map_singleton,
      List.foldl_cons, List.foldl_nil, foldl_hosts, hrange, List.map_append, List.map_map,
      Nat.succ_mul, List.replicate_add]
    simp only [List.append_assoc, List.length_append, List.length_replicate]
    congr 3
    refine List.map_congr_left fun i hi => ?_
    simp only [Function.comp]
    rw [hdiv i hi, Nat.add_assoc]

theorem builder_eq (hk : 0 < cfg.hostsPerLeaf) : builder cfg =
    { isHost := List.replicate (switchCount cfg) false ++
        List.replicate (cfg.leafCount * cfg.hostsPerLeaf) true
      edges := meshEdges cfg ++ hostEdges cfg } := by
  unfold builder
  rw [addSwitches_eq]
  dsimp only
  rw [addSwitches_eq]
  dsimp only
  rw [foldl_mesh, foldl_leaves _ _ _ hk]
  simp [switchCount, meshEdges, hostEdges, List.flatMap_map]

/-! ## Shape -/

section Shape

variable {cfg} (hsp : 0 < cfg.spineCount) (hlf : 0 < cfg.leafCount) (hk : 0 < cfg.hostsPerLeaf)

/-- The number of hosts. -/
def hostTotal (cfg : LeafSpineConfig) : Nat := cfg.leafCount * cfg.hostsPerLeaf

include hk

theorem leaf_lt {h : Nat} (hh : h < hostTotal cfg) : h / cfg.hostsPerLeaf < cfg.leafCount := by
  rw [Nat.div_lt_iff_lt_mul hk]
  exact hh

theorem switchesFirst : (builder cfg).SwitchesFirst (switchCount cfg) (hostTotal cfg) := by
  unfold FabricBuilder.SwitchesFirst
  rw [builder_eq cfg hk]
  rfl

theorem mem_edges {e : Edge} : e ∈ (builder cfg).edges ↔
    (∃ l s, l < cfg.leafCount ∧ s < cfg.spineCount ∧ e = ⟨cfg.spineCount + l, s, cfg.fabricLink⟩) ∨
    ∃ h, h < hostTotal cfg ∧
      e = ⟨switchCount cfg + h, cfg.spineCount + h / cfg.hostsPerLeaf, cfg.hostLink⟩ := by
  rw [builder_eq cfg hk, List.mem_append]
  unfold meshEdges hostEdges
  rw [List.mem_flatMap, List.mem_map]
  constructor
  · rintro (⟨l, hl, he⟩ | ⟨h, hh, rfl⟩)
    · obtain ⟨s, hs, rfl⟩ := List.mem_map.mp he
      exact Or.inl ⟨l, s, List.mem_range.mp hl, List.mem_range.mp hs, rfl⟩
    · exact Or.inr ⟨h, List.mem_range.mp hh, rfl⟩
  · rintro (⟨l, s, hl, hs, rfl⟩ | ⟨h, hh, rfl⟩)
    · exact Or.inl ⟨l, List.mem_range.mpr hl, List.mem_map.mpr ⟨s, List.mem_range.mpr hs, rfl⟩⟩
    · exact Or.inr ⟨h, List.mem_range.mpr hh, rfl⟩

theorem valid : (builder cfg).Valid := by
  intro e he
  have hlen : (builder cfg).isHost.length = switchCount cfg + hostTotal cfg :=
    (switchesFirst hk).nodeCount
  rw [hlen]
  rcases (mem_edges hk).mp he with ⟨l, s, hl, hs, rfl⟩ | ⟨h, hh, rfl⟩
  · refine ⟨?_, ?_, ?_⟩
    · show cfg.spineCount + l < cfg.spineCount + cfg.leafCount + _
      omega
    · show s < cfg.spineCount + cfg.leafCount + _
      omega
    · show cfg.spineCount + l ≠ s
      omega
  · have hleaf := leaf_lt hk hh
    refine ⟨?_, ?_, ?_⟩
    · show switchCount cfg + h < _
      omega
    · show cfg.spineCount + h / cfg.hostsPerLeaf < cfg.spineCount + cfg.leafCount + _
      omega
    · show cfg.spineCount + cfg.leafCount + h ≠ cfg.spineCount + h / cfg.hostsPerLeaf
      omega

/-- Every link of the fabric, in one direction. -/
theorem linked_iff (u v : Nat) : (builder cfg).build.Linked u v ↔
    (∃ l s, l < cfg.leafCount ∧ s < cfg.spineCount ∧
      (u = cfg.spineCount + l ∧ v = s ∨ u = s ∧ v = cfg.spineCount + l)) ∨
    ∃ h, h < hostTotal cfg ∧
      (u = switchCount cfg + h ∧ v = cfg.spineCount + h / cfg.hostsPerLeaf ∨
        u = cfg.spineCount + h / cfg.hostsPerLeaf ∧ v = switchCount cfg + h) := by
  rw [FabricBuilder.build_linked_iff (valid hk)]
  constructor
  · rintro ⟨e, he, hj⟩
    rcases (mem_edges hk).mp he with ⟨l, s, hl, hs, rfl⟩ | ⟨h, hh, rfl⟩
    · refine Or.inl ⟨l, s, hl, hs, ?_⟩
      rcases hj with ⟨rfl, rfl⟩ | ⟨rfl, rfl⟩
      · exact Or.inl ⟨rfl, rfl⟩
      · exact Or.inr ⟨rfl, rfl⟩
    · refine Or.inr ⟨h, hh, ?_⟩
      rcases hj with ⟨rfl, rfl⟩ | ⟨rfl, rfl⟩
      · exact Or.inl ⟨rfl, rfl⟩
      · exact Or.inr ⟨rfl, rfl⟩
  · rintro (⟨l, s, hl, hs, hj⟩ | ⟨h, hh, hj⟩)
    · refine ⟨_, (mem_edges hk).mpr (Or.inl ⟨l, s, hl, hs, rfl⟩), ?_⟩
      rcases hj with ⟨rfl, rfl⟩ | ⟨rfl, rfl⟩
      · exact Or.inl ⟨rfl, rfl⟩
      · exact Or.inr ⟨rfl, rfl⟩
    · refine ⟨_, (mem_edges hk).mpr (Or.inr ⟨h, hh, rfl⟩), ?_⟩
      rcases hj with ⟨rfl, rfl⟩ | ⟨rfl, rfl⟩
      · exact Or.inl ⟨rfl, rfl⟩
      · exact Or.inr ⟨rfl, rfl⟩

theorem singlePortHosts : (builder cfg).build.SinglePortHosts := by
  intro (u : Nat) hu
  obtain ⟨hlo, hhi⟩ := ((switchesFirst hk).isHost_iff u).mp hu
  obtain ⟨h, rfl⟩ : ∃ h, u = switchCount cfg + h := ⟨u - switchCount cfg, by omega⟩
  rw [FabricBuilder.portCount_eq (valid hk), builder_eq cfg hk, List.countP_append]
  have hmesh : (meshEdges cfg).countP
      (fun e => decide (switchCount cfg + h = e.a ∨ switchCount cfg + h = e.b)) = 0 := by
    rw [List.countP_eq_zero]
    intro e he
    obtain ⟨l, hl, he⟩ := List.mem_flatMap.mp he
    obtain ⟨s, hs, rfl⟩ := List.mem_map.mp he
    have hl := List.mem_range.mp hl
    have hs := List.mem_range.mp hs
    have hne : ¬ (switchCount cfg + h = cfg.spineCount + l ∨ switchCount cfg + h = s) := by
      unfold switchCount
      omega
    simpa using hne
  have hhost : (hostEdges cfg).countP
      (fun e => decide (switchCount cfg + h = e.a ∨ switchCount cfg + h = e.b)) = 1 := by
    unfold hostEdges
    rw [List.countP_map]
    have hiff : ∀ i ∈ List.range (cfg.leafCount * cfg.hostsPerLeaf),
        ((fun e : Edge => decide (switchCount cfg + h = e.a ∨ switchCount cfg + h = e.b)) ∘
          fun h => (⟨switchCount cfg + h, cfg.spineCount + h / cfg.hostsPerLeaf, cfg.hostLink⟩ : Edge)) i
            = true ↔ (i == h) = true := by
      intro i hi
      have hleaf := leaf_lt hk (List.mem_range.mp hi)
      have hne : (switchCount cfg + h = switchCount cfg + i ∨
          switchCount cfg + h = cfg.spineCount + i / cfg.hostsPerLeaf) ↔ i = h := by
        unfold switchCount
        omega
      simpa using hne
    rw [List.countP_congr hiff]
    refine List.count_eq_one_of_mem List.nodup_range (List.mem_range.mpr ?_)
    show h < hostTotal cfg
    omega
  rw [hmesh, hhost]

/-- Hops to host `t`. -/
def hopsTo (cfg : LeafSpineConfig) (t : Nat) (u : Nat) : Nat :=
  if u < cfg.spineCount then 2
  else if u < switchCount cfg then
    if u = cfg.spineCount + t / cfg.hostsPerLeaf then 1 else 3
  else if u = switchCount cfg + t then 0
  else if (u - switchCount cfg) / cfg.hostsPerLeaf = t / cfg.hostsPerLeaf then 2
  else 4

omit hk in
theorem hopsTo_spine (t : Nat) {s : Nat} (hs : s < cfg.spineCount) : hopsTo cfg t s = 2 := if_pos hs

omit hk in
theorem hopsTo_leaf (t : Nat) {l : Nat} (hl : l < cfg.leafCount) :
    hopsTo cfg t (cfg.spineCount + l) = if l = t / cfg.hostsPerLeaf then 1 else 3 := by
  unfold hopsTo
  rw [if_neg (by omega), if_pos (by unfold switchCount; omega)]
  simp only [Nat.add_left_cancel_iff]

omit hk in
theorem hopsTo_host (t h : Nat) : hopsTo cfg t (switchCount cfg + h) =
    if h = t then 0 else if h / cfg.hostsPerLeaf = t / cfg.hostsPerLeaf then 2 else 4 := by
  unfold hopsTo
  rw [if_neg (by unfold switchCount; omega), if_neg (by omega), Nat.add_sub_cancel_left]
  simp only [Nat.add_left_cancel_iff]

include hsp

/-- The labelling is the distance. -/
theorem dist_eq_hopsTo {t : Nat} (ht : t < hostTotal cfg) {v : Nat}
    (hv : v < switchCount cfg + hostTotal cfg) :
    (builder cfg).build.graph.Reachable v (switchCount cfg + t) ∧
      (builder cfg).build.graph.dist v (switchCount cfg + t) = hopsTo cfg t v := by
  have hwf := FabricBuilder.build_wellFormed (valid hk)
  have htl := leaf_lt hk ht
  refine HopDistance.dist_eq_of_labelling
    (S := fun u => u < switchCount cfg + hostTotal cfg) ?_ ?_ ?_ ?_ hv
  · rw [hopsTo_host, if_pos rfl]
  · intro u w huw
    rcases (linked_iff hk u w).mp ((hwf.adj_iff u w).mp huw) with
      ⟨l, s, hl, hs, ⟨rfl, rfl⟩ | ⟨rfl, rfl⟩⟩ | ⟨h, hh, ⟨rfl, rfl⟩ | ⟨rfl, rfl⟩⟩
    · rw [hopsTo_leaf t hl, hopsTo_spine t hs]
      split <;> omega
    · rw [hopsTo_leaf t hl, hopsTo_spine t hs]
      split <;> omega
    · rw [hopsTo_host, hopsTo_leaf t (leaf_lt hk hh)]
      split <;> split <;> omega
    · rw [hopsTo_host, hopsTo_leaf t (leaf_lt hk hh)]
      by_cases hht : h = t
      · subst hht; simp
      · rw [if_neg hht]
        split <;> omega
  · intro u hu h0
    unfold hopsTo at h0
    split at h0
    · omega
    · split at h0
      · split at h0 <;> omega
      · split at h0
        · assumption
        · split at h0 <;> omega
  · intro u hu hne
    have hadj : ∀ w, (builder cfg).build.Linked u w → (builder cfg).build.graph.Adj u w :=
      fun w hw => (hwf.adj_iff u w).mpr hw
    rcases Nat.lt_or_ge u cfg.spineCount with hs | hs
    · -- a spine: down to the leaf of `t`
      refine ⟨cfg.spineCount + t / cfg.hostsPerLeaf, ?_, hadj _ ((linked_iff hk _ _).mpr
        (Or.inl ⟨_, u, htl, hs, Or.inr ⟨rfl, rfl⟩⟩)), ?_⟩
      · unfold switchCount
        omega
      · rw [hopsTo_leaf t htl, hopsTo_spine t hs, if_pos rfl]
    · rcases Nat.lt_or_ge u (switchCount cfg) with hl | hl
      · obtain ⟨l, rfl⟩ : ∃ l, u = cfg.spineCount + l := ⟨u - cfg.spineCount, by omega⟩
        have hl : l < cfg.leafCount := by unfold switchCount at hl; omega
        by_cases hlt : l = t / cfg.hostsPerLeaf
        · -- the leaf of `t`: down to `t`
          refine ⟨switchCount cfg + t, by omega, hadj _ ((linked_iff hk _ _).mpr
            (Or.inr ⟨t, ht, Or.inr ⟨by rw [hlt], rfl⟩⟩)), ?_⟩
          rw [hopsTo_host, hopsTo_leaf t hl, if_pos rfl, if_pos hlt]
        · -- another leaf: up to a spine
          refine ⟨0, by unfold switchCount; omega, hadj _ ((linked_iff hk _ _).mpr
            (Or.inl ⟨l, 0, hl, hsp, Or.inl ⟨rfl, rfl⟩⟩)), ?_⟩
          rw [hopsTo_spine t hsp, hopsTo_leaf t hl, if_neg hlt]
      · -- a host: up to its leaf
        obtain ⟨h, rfl⟩ : ∃ h, u = switchCount cfg + h := ⟨u - switchCount cfg, by omega⟩
        have hh : h < hostTotal cfg := by omega
        have hhl := leaf_lt hk hh
        rw [hopsTo_host] at hne ⊢
        refine ⟨cfg.spineCount + h / cfg.hostsPerLeaf, by unfold switchCount; omega,
          hadj _ ((linked_iff hk _ _).mpr (Or.inr ⟨h, hh, Or.inl ⟨rfl, rfl⟩⟩)), ?_⟩
        rw [hopsTo_leaf t hhl]
        by_cases hht : h = t
        · rw [if_pos hht] at hne
          exact absurd rfl hne
        · rw [if_neg hht]
          split <;> omega

/-- Hop distance between two hosts: the two cases the harness knows. -/
theorem dist_hosts {i j : Nat} (hi : i < hostTotal cfg) (hj : j < hostTotal cfg) (hij : i ≠ j) :
    (builder cfg).build.graph.dist (switchCount cfg + i) (switchCount cfg + j) =
      if i / cfg.hostsPerLeaf = j / cfg.hostsPerLeaf then kLeafSpineSameLeafHops
      else kLeafSpineCrossLeafHops := by
  rw [(dist_eq_hopsTo hsp hk hj (by omega)).2, hopsTo_host, if_neg hij]
  rfl

include hlf

theorem connected : (builder cfg).build.Connected := by
  have hpos : 0 < hostTotal cfg := Nat.mul_pos hlf hk
  intro u v hu hv
  rw [(switchesFirst hk).nodeCount] at hu hv
  exact (dist_eq_hopsTo hsp hk hpos hu).1.trans (dist_eq_hopsTo hsp hk hpos hv).1.symm

end Shape

end LeafSpine

end FabricSim
