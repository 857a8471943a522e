import FabricSim.Topology.Shape
import Mathlib.Tactic.Ring

/-!
# The `k`-ary fat tree

Node ids: core switches first, then pod by pod `k/2` aggregation and `k/2` edge
switches, then the hosts, grouped by pod and by edge switch. The index functions
compute in 32-bit words as the code does; `Fits` is what keeps them from wrapping,
and under it they are the plain sums and products (`fatTreeAgg_eq`, ...).

The builder's edge list is computed (`wire_edges`) and from it the neighbours of
every node, in port order (`neighbours_core`, `neighbours_agg`, `neighbours_edge`,
`neighbours_host`). Degrees, links, distances and candidates all come from these
four lists.
-/

namespace FabricSim

open Digits FabricBuilder

structure FatTreeConfig where
  k : Nat := 4
  hostLink : LinkParams := {}
  fabricLink : LinkParams := {}

def fatTreeHostCount (k : Nat) : Nat := u32 (k * k * k) / 4

def fatTreeCoreCount (k : Nat) : Nat := u32 (k * k) / 4

def fatTreeSwitchCount (k : Nat) : Nat := u32 (5 * k * k) / 4

def fatTreeHostsPerEdge (k : Nat) : Nat := k / 2

def fatTreeHostsPerPod (k : Nat) : Nat := u32 (k * k) / 4

def fatTreeCore (k i j : Nat) : NodeId := u32 (i * (k / 2) + j)

def fatTreeAgg (k pod a : Nat) : NodeId := u32 (fatTreeCoreCount k + pod * k + a)

def fatTreeEdge (k pod e : Nat) : NodeId := u32 (fatTreeCoreCount k + pod * k + k / 2 + e)

def fatTreePodOfHost (k host : Nat) : Nat := host / fatTreeHostsPerPod k

/-- The global index of the edge switch, not the one within its pod. -/
def fatTreeEdgeOfHost (k host : Nat) : Nat := host / fatTreeHostsPerEdge k

def kFatTreeSameEdgeHops : Nat := 2
def kFatTreeSamePodHops : Nat := 4
def kFatTreeCrossPodHops : Nat := 6

def fatTreeHops (k srcHost dstHost : Nat) : Nat :=
  if fatTreeEdgeOfHost k srcHost = fatTreeEdgeOfHost k dstHost then kFatTreeSameEdgeHops
  else if fatTreePodOfHost k srcHost = fatTreePodOfHost k dstHost then kFatTreeSamePodHops
  else kFatTreeCrossPodHops

def fatTreeCrossPodPaths (k : Nat) : Nat := u32 (k * k) / 4

namespace FatTree

/-- `add_switch`, with the assertion on the id it returns. -/
def addSwitchAs (b : FabricBuilder) (id : NodeId) : Option FabricBuilder :=
  if b.isHost.length = id then some b.addSwitch else none

/-- `add_host`, with the assertion on the id it returns. -/
def addHostAs (b : FabricBuilder) (id : NodeId) : Option FabricBuilder :=
  if b.isHost.length = id then some b.addHost else none

/-- The first half of the builder: the nodes. -/
def nodes (k : Nat) : Option FabricBuilder := do
  let half := k / 2
  let b ← (List.range (fatTreeCoreCount k)).foldlM (fun b c => addSwitchAs b c) {}
  let b ← (List.range k).foldlM (fun b pod => do
    let b ← (List.range half).foldlM (fun b a => addSwitchAs b (fatTreeAgg k pod a)) b
    (List.range half).foldlM (fun b e => addSwitchAs b (fatTreeEdge k pod e)) b) b
  (List.range (fatTreeHostCount k)).foldlM
    (fun b h => addHostAs b (u32 (fatTreeSwitchCount k + h))) b

/-- The second half: the links. -/
def wire (cfg : FatTreeConfig) (b : FabricBuilder) : FabricBuilder :=
  let k := cfg.k
  let half := k / 2
  let b := (List.range k).foldl (fun b pod =>
    (List.range half).foldl (fun b a =>
      -- up to core row `a`, then down to the edge switches of the pod
      let b := (List.range half).foldl (fun b j =>
        b.connect (fatTreeAgg k pod a) (fatTreeCore k a j) cfg.fabricLink) b
      (List.range half).foldl (fun b e =>
        b.connect (fatTreeAgg k pod a) (fatTreeEdge k pod e) cfg.fabricLink) b) b) b
  (List.range (fatTreeHostCount k)).foldl (fun b h =>
    b.connect (u32 (fatTreeSwitchCount k + h))
      (fatTreeEdge k (fatTreePodOfHost k h) (h / half % half)) cfg.hostLink) b

end FatTree

/-- `none` when an assertion fails: on the arity, or on the id of a node. -/
def buildFatTree (cfg : FatTreeConfig) : Option Fabric :=
  if 2 ≤ cfg.k ∧ cfg.k % 2 = 0 then
    (FatTree.nodes cfg.k).map fun b => (FatTree.wire cfg b).build
  else none

namespace FatTree

/-! ## Indices without words -/

/-- The arity is `2 * n`, and the `12 * n ^ 3` ports can be counted in 32 bits. -/
structure Fits (k n : Nat) : Prop where
  twice : k = 2 * n
  pos : 0 < n
  ports : 12 * (n * n * n) < 2 ^ 32

/-- The `j`-th core switch of row `i`. -/
def core (n i j : Nat) : Nat := i * n + j

/-- The `a`-th aggregation switch of a pod. -/
def agg (n pod a : Nat) : Nat := n * n + (pod * (2 * n) + a)

/-- The `e`-th edge switch of a pod. -/
def edge (n pod e : Nat) : Nat := n * n + (pod * (2 * n) + (n + e))

/-- The number of switches, and the id of the first host. -/
def switchCount (n : Nat) : Nat := 5 * (n * n)

def hostCount (n : Nat) : Nat := 2 * n * (n * n)

def host (n h : Nat) : Nat := switchCount n + h

/-- The pod of a host. -/
def podOf (n h : Nat) : Nat := h / (n * n)

/-- The edge switch of a host, within its pod. -/
def edgeOf (n h : Nat) : Nat := h / n % n

section Words

variable {k n : Nat} (h : Fits k n)

include h

theorem Fits.half : k / 2 = n := by
  rw [h.twice]
  omega

theorem Fits.square_le : n * n ≤ n * n * n := Nat.le_mul_of_pos_right _ h.pos

/-- All node ids are words. -/
theorem Fits.nodes_lt : switchCount n + hostCount n < 2 ^ 32 := by
  have hp := h.ports
  have hs := h.square_le
  have hc : hostCount n = 2 * (n * n * n) := by
    unfold hostCount
    ring
  unfold switchCount
  rw [hc]
  omega

theorem Fits.coreCount : fatTreeCoreCount k = n * n := by
  have hp := h.ports
  have hs := h.square_le
  have hk : k * k = 4 * (n * n) := by rw [h.twice]; ring
  unfold fatTreeCoreCount
  rw [hk, u32_of_lt (by omega)]
  omega

theorem Fits.hostsPerPod : fatTreeHostsPerPod k = n * n := h.coreCount

theorem Fits.switchCount_eq : fatTreeSwitchCount k = switchCount n := by
  have hp := h.ports
  have hs := h.square_le
  have hk : 5 * k * k = 4 * (5 * (n * n)) := by rw [h.twice]; ring
  have hlt : 20 * (n * n) < 2 ^ 32 := by
    rcases Nat.lt_or_ge 1 n with hn | hn
    · have htwo := Nat.mul_le_mul_left (n * n) hn
      omega
    · obtain rfl : n = 1 := le_antisymm hn h.pos
      decide
  unfold fatTreeSwitchCount switchCount
  rw [hk, u32_of_lt (by omega)]
  omega

theorem Fits.hostCount_eq : fatTreeHostCount k = hostCount n := by
  have hp := h.ports
  have hk : k * k * k = 4 * (2 * (n * n * n)) := by rw [h.twice]; ring
  have hc : hostCount n = 2 * (n * n * n) := by
    unfold hostCount
    ring
  unfold fatTreeHostCount
  rw [hk, hc, u32_of_lt (by omega)]
  omega

theorem fatTreeCore_eq {i j : Nat} (hi : i < n) (hj : j < n) : fatTreeCore k i j = core n i j := by
  have hlt := h.nodes_lt
  have hrow : i * n + j < n * n := by
    calc i * n + j < i * n + n := by omega
      _ = (i + 1) * n := (Nat.succ_mul i n).symm
      _ ≤ n * n := Nat.mul_le_mul_right n hi
  unfold fatTreeCore core
  unfold switchCount at hlt
  rw [h.half, u32_of_lt (by omega)]

omit h in
/-- Where a pod's switches are. -/
theorem pod_lt {pod r : Nat} (hpod : pod < 2 * n) (hr : r < 2 * n) :
    n * n + (pod * (2 * n) + r) < switchCount n := by
  have hrow : pod * (2 * n) + r < 2 * n * (2 * n) := by
    calc pod * (2 * n) + r < pod * (2 * n) + 2 * n := by omega
      _ = (pod + 1) * (2 * n) := (Nat.succ_mul pod (2 * n)).symm
      _ ≤ 2 * n * (2 * n) := Nat.mul_le_mul_right _ hpod
  have hsq : 2 * n * (2 * n) = 4 * (n * n) := by ring
  unfold switchCount
  omega

theorem fatTreeAgg_eq {pod a : Nat} (hpod : pod < 2 * n) (ha : a < n) :
    fatTreeAgg k pod a = agg n pod a := by
  have hlt := h.nodes_lt
  have hin := pod_lt hpod (show a < 2 * n by omega)
  unfold fatTreeAgg agg
  rw [h.coreCount, h.twice, Nat.add_assoc, u32_of_lt (by omega)]

theorem fatTreeEdge_eq {pod e : Nat} (hpod : pod < 2 * n) (he : e < n) :
    fatTreeEdge k pod e = edge n pod e := by
  have hlt := h.nodes_lt
  have hin := pod_lt hpod (show n + e < 2 * n by omega)
  unfold fatTreeEdge edge
  rw [h.coreCount, h.half, h.twice, Nat.add_assoc, Nat.add_assoc, u32_of_lt (by omega)]

theorem podOfHost_eq (i : Nat) : fatTreePodOfHost k i = podOf n i := by
  unfold fatTreePodOfHost podOf
  rw [h.hostsPerPod]

theorem edgeOfHost_eq (i : Nat) : fatTreeEdgeOfHost k i = i / n := by
  unfold fatTreeEdgeOfHost fatTreeHostsPerEdge
  rw [h.half]

theorem podOf_lt {i : Nat} (hi : i < hostCount n) : podOf n i < 2 * n := by
  have hpos : 0 < n * n := Nat.mul_pos h.pos h.pos
  exact (Nat.div_lt_iff_lt_mul hpos).mpr hi

theorem edgeOf_lt (i : Nat) : edgeOf n i < n := Nat.mod_lt _ h.pos

theorem edgeOf_eq (i : Nat) : i / (k / 2) % (k / 2) = edgeOf n i := by
  unfold edgeOf
  rw [h.half]

end Words

/-! ## What the builder makes -/

/-- Switches in a row whose ids are the next ones. -/
theorem foldlM_addSwitchAs (b : FabricBuilder) (id : Nat → NodeId) (m : Nat)
    (hid : ∀ i, i < m → id i = b.isHost.length + i) :
    (List.range m).foldlM (fun b i => addSwitchAs b (id i)) b =
      some { b with isHost := b.isHost ++ List.replicate m false } := by
  induction m with
  | zero => simp
  | succ m ih =>
    rw [List.range_succ, List.foldlM_append, ih fun i hi => hid i (by omega)]
    simp only [Option.bind_eq_bind, Option.bind_some, List.foldlM_cons, List.foldlM_nil, bind_pure]
    unfold addSwitchAs
    rw [if_pos (by rw [List.length_append, List.length_replicate, hid m (by omega)]),
      List.replicate_succ', ← List.append_assoc]
    rfl

/-- Hosts in a row whose ids are the next ones. -/
theorem foldlM_addHostAs (b : FabricBuilder) (id : Nat → NodeId) (m : Nat)
    (hid : ∀ i, i < m → id i = b.isHost.length + i) :
    (List.range m).foldlM (fun b i => addHostAs b (id i)) b =
      some { b with isHost := b.isHost ++ List.replicate m true } := by
  induction m with
  | zero => simp
  | succ m ih =>
    rw [List.range_succ, List.foldlM_append, ih fun i hi => hid i (by omega)]
    simp only [Option.bind_eq_bind, Option.bind_some, List.foldlM_cons, List.foldlM_nil, bind_pure]
    unfold addHostAs
    rw [if_pos (by rw [List.length_append, List.length_replicate, hid m (by omega)]),
      List.replicate_succ', ← List.append_assoc]
    rfl

section Build

variable {k n : Nat} (h : Fits k n)

include h

/-- The switches of the first `m` pods. -/
theorem foldlM_pods (b : FabricBuilder) (hb : b.isHost.length = n * n) {m : Nat} (hm : m ≤ 2 * n) :
    (List.range m).foldlM (fun b pod => do
        let b ← (List.range n).foldlM (fun b a => addSwitchAs b (fatTreeAgg k pod a)) b
        (List.range n).foldlM (fun b e => addSwitchAs b (fatTreeEdge k pod e)) b) b =
      some { b with isHost := b.isHost ++ List.replicate (m * (2 * n)) false } := by
  induction m with
  | zero => simp
  | succ m ih =>
    rw [List.range_succ, List.foldlM_append, ih (by omega)]
    have hagg := foldlM_addSwitchAs
      { b with isHost := b.isHost ++ List.replicate (m * (2 * n)) false } (fatTreeAgg k m) n
      fun a ha => by
        rw [fatTreeAgg_eq h (by omega) ha, List.length_append, List.length_replicate, hb]
        exact (Nat.add_assoc _ _ _).symm
    have hedge := foldlM_addSwitchAs
      { b with isHost := b.isHost ++ List.replicate (m * (2 * n)) false ++ List.replicate n false }
      (fatTreeEdge k m) n fun e he => by
        rw [fatTreeEdge_eq h (by omega) he, List.length_append, List.length_append,
          List.length_replicate, List.length_replicate, hb]
        unfold edge
        ring
    simp only [Option.bind_eq_bind, Option.bind_some, List.foldlM_cons, List.foldlM_nil, bind_pure,
      hagg, hedge]
    rw [List.append_assoc, List.append_assoc, ← List.replicate_add, ← List.replicate_add]
    have hsum : m * (2 * n) + (n + n) = (m + 1) * (2 * n) := by ring
    rw [hsum]

/-- No assertion on an id fails: the nodes are numbered as the index functions
say. -/
theorem nodes_eq : nodes k = some (FabricBuilder.mk
    (List.replicate (switchCount n) false ++ List.replicate (hostCount n) true) []) := by
  have hcore := foldlM_addSwitchAs {} (fun c => c) (n * n) fun i _ => (Nat.zero_add i).symm
  have hpods := foldlM_pods h (FabricBuilder.mk (List.replicate (n * n) false) []) (by simp) le_rfl
  have hsum : n * n + 2 * n * (2 * n) = switchCount n := by
    unfold switchCount
    ring
  have hhosts := foldlM_addHostAs (FabricBuilder.mk (List.replicate (switchCount n) false) [])
    (fun i => u32 (fatTreeSwitchCount k + i)) (hostCount n) fun i hi => by
      have hlt := h.nodes_lt
      show u32 (fatTreeSwitchCount k + i) = _
      rw [h.switchCount_eq, u32_of_lt (by omega), List.length_replicate]
  simp only [Option.bind_eq_bind] at hpods
  unfold nodes
  simp only [h.coreCount, h.half, h.hostCount_eq, hcore, Option.bind_eq_bind, Option.bind_some,
    List.nil_append]
  rw [show (List.range k) = List.range (2 * n) by rw [h.twice], hpods]
  simp only [Option.bind_some]
  rw [← List.replicate_add, hsum]
  exact hhosts

variable (cfg : FatTreeConfig)

omit h in
/-- The links of the switches, in the builder's order. -/
def fabricEdges (cfg : FatTreeConfig) (n : Nat) : List Edge :=
  (List.range (2 * n)).flatMap fun pod => (List.range n).flatMap fun a =>
    ((List.range n).map fun j => ⟨agg n pod a, core n a j, cfg.fabricLink⟩) ++
      (List.range n).map fun e => ⟨agg n pod a, edge n pod e, cfg.fabricLink⟩

omit h in
/-- The links of the hosts. -/
def hostEdges (cfg : FatTreeConfig) (n : Nat) : List Edge :=
  (List.range (hostCount n)).map fun i =>
    ⟨host n i, edge n (podOf n i) (edgeOf n i), cfg.hostLink⟩

theorem wire_eq (hk : cfg.k = k) (b : FabricBuilder) :
    wire cfg b = { b with edges := b.edges ++ (fabricEdges cfg n ++ hostEdges cfg n) } := by
  have hup : ∀ (pod a : Nat) (b : FabricBuilder), pod < 2 * n → a < n →
      (List.range n).foldl (fun b e => b.connect (fatTreeAgg k pod a) (fatTreeEdge k pod e)
          cfg.fabricLink)
        ((List.range n).foldl (fun b j => b.connect (fatTreeAgg k pod a) (fatTreeCore k a j)
          cfg.fabricLink) b) =
        { b with edges := b.edges ++
          (((List.range n).map fun j => ⟨agg n pod a, core n a j, cfg.fabricLink⟩) ++
            (List.range n).map fun e => ⟨agg n pod a, edge n pod e, cfg.fabricLink⟩) } := by
    intro pod a b hpod ha
    rw [FabricBuilder.foldl_connect, FabricBuilder.foldl_connect, List.append_assoc]
    congr 3
    · refine List.map_congr_left fun j hj => ?_
      rw [fatTreeAgg_eq h hpod ha, fatTreeCore_eq h ha (List.mem_range.mp hj)]
    · refine List.map_congr_left fun e he => ?_
      rw [fatTreeAgg_eq h hpod ha, fatTreeEdge_eq h hpod (List.mem_range.mp he)]
  have hpods := FabricBuilder.foldl_edges (fun pod hpod b =>
    FabricBuilder.foldl_edges (fun a ha b =>
      hup pod a b (List.mem_range.mp hpod) (List.mem_range.mp ha)) b) b
  unfold wire
  simp only [hk, h.half, h.hostCount_eq, h.switchCount_eq]
  rw [show List.range k = List.range (2 * n) by rw [h.twice], hpods, FabricBuilder.foldl_connect,
    List.append_assoc]
  congr 3
  refine List.map_congr_left fun i hi => ?_
  have hi := List.mem_range.mp hi
  have hlt := h.nodes_lt
  rw [podOfHost_eq h, u32_of_lt (by omega)]
  exact congrArg (Edge.mk (host n i) · cfg.hostLink) (fatTreeEdge_eq h (podOf_lt h hi) (edgeOf_lt h i))

end Build

/-- The builder's result, under the plain indices. -/
def builder (cfg : FatTreeConfig) (n : Nat) : FabricBuilder where
  isHost := List.replicate (switchCount n) false ++ List.replicate (hostCount n) true
  edges := fabricEdges cfg n ++ hostEdges cfg n

theorem buildFatTree_eq {cfg : FatTreeConfig} {n : Nat} (h : Fits cfg.k n) :
    buildFatTree cfg = some (builder cfg n).build := by
  have hpos := h.pos
  have htwice := h.twice
  unfold buildFatTree
  rw [if_pos ⟨by omega, by omega⟩, nodes_eq h, Option.map_some, wire_eq h cfg rfl]
  rfl

/-! ## Shape -/

section Shape

variable {cfg : FatTreeConfig} {n : Nat}

theorem switchesFirst : (builder cfg n).SwitchesFirst (switchCount n) (hostCount n) := rfl

/-- The two digits of a number. -/
theorem digits_inj {m p p' r r' : Nat} (hr : r < m) (hr' : r' < m)
    (h : p * m + r = p' * m + r') : p = p' ∧ r = r' := by
  have hp : p = p' := by
    have hdiv := congrArg (· / m) h
    simpa [Nat.mul_comm _ m, Nat.mul_add_div (Nat.zero_lt_of_lt hr), Nat.div_eq_of_lt hr,
      Nat.div_eq_of_lt hr'] using hdiv
  subst hp
  exact ⟨rfl, Nat.add_left_cancel h⟩

theorem core_lt {i j : Nat} (hi : i < n) (hj : j < n) : core n i j < n * n := by
  calc i * n + j < i * n + n := by omega
    _ = (i + 1) * n := (Nat.succ_mul i n).symm
    _ ≤ n * n := Nat.mul_le_mul_right n hi

theorem core_inj {i j i' j' : Nat} (hj : j < n) (hj' : j' < n) (h : core n i j = core n i' j') :
    i = i' ∧ j = j' := digits_inj hj hj' h

theorem le_agg (pod a : Nat) : n * n ≤ agg n pod a := Nat.le_add_right _ _

theorem le_edge (pod e : Nat) : n * n ≤ edge n pod e := Nat.le_add_right _ _

theorem agg_lt {pod a : Nat} (hpod : pod < 2 * n) (ha : a < n) : agg n pod a < switchCount n :=
  pod_lt hpod (by omega)

theorem edge_lt {pod e : Nat} (hpod : pod < 2 * n) (he : e < n) : edge n pod e < switchCount n :=
  pod_lt hpod (by omega)

theorem agg_inj {pod a pod' a' : Nat} (ha : a < n) (ha' : a' < n)
    (h : agg n pod a = agg n pod' a') : pod = pod' ∧ a = a' :=
  digits_inj (by omega) (by omega) (Nat.add_left_cancel h)

theorem edge_inj {pod e pod' e' : Nat} (he : e < n) (he' : e' < n)
    (h : edge n pod e = edge n pod' e') : pod = pod' ∧ e = e' := by
  obtain ⟨h1, h2⟩ := digits_inj (m := 2 * n) (by omega) (by omega) (Nat.add_left_cancel h)
  exact ⟨h1, Nat.add_left_cancel h2⟩

theorem agg_ne_edge {pod a pod' e : Nat} (ha : a < n) (he : e < n) :
    agg n pod a ≠ edge n pod' e := by
  intro h
  obtain ⟨-, h2⟩ := digits_inj (m := 2 * n) (by omega) (by omega) (Nat.add_left_cancel h)
  omega

theorem square_le_switchCount (n : Nat) : n * n ≤ switchCount n := by
  unfold switchCount
  omega

theorem le_host (i : Nat) : switchCount n ≤ host n i := Nat.le_add_right _ _

/-- The edges of the builder. -/
theorem mem_edges {x : Edge} : x ∈ (builder cfg n).edges ↔
    (∃ pod a j, pod < 2 * n ∧ a < n ∧ j < n ∧ x = ⟨agg n pod a, core n a j, cfg.fabricLink⟩) ∨
    (∃ pod a e, pod < 2 * n ∧ a < n ∧ e < n ∧ x = ⟨agg n pod a, edge n pod e, cfg.fabricLink⟩) ∨
    ∃ i, i < hostCount n ∧ x = ⟨host n i, edge n (podOf n i) (edgeOf n i), cfg.hostLink⟩ := by
  show x ∈ fabricEdges cfg n ++ hostEdges cfg n ↔ _
  unfold fabricEdges hostEdges
  simp only [List.mem_append, List.mem_flatMap, List.mem_map, List.mem_range]
  constructor
  · rintro (⟨pod, hpod, a, ha, ⟨j, hj, rfl⟩ | ⟨e, he, rfl⟩⟩ | ⟨i, hi, rfl⟩)
    · exact Or.inl ⟨pod, a, j, hpod, ha, hj, rfl⟩
    · exact Or.inr (Or.inl ⟨pod, a, e, hpod, ha, he, rfl⟩)
    · exact Or.inr (Or.inr ⟨i, hi, rfl⟩)
  · rintro (⟨pod, a, j, hpod, ha, hj, rfl⟩ | ⟨pod, a, e, hpod, ha, he, rfl⟩ | ⟨i, hi, rfl⟩)
    · exact Or.inl ⟨pod, hpod, a, ha, Or.inl ⟨j, hj, rfl⟩⟩
    · exact Or.inl ⟨pod, hpod, a, ha, Or.inr ⟨e, he, rfl⟩⟩
    · exact Or.inr ⟨i, hi, rfl⟩

variable (hn : 0 < n)

include hn

theorem podOf_lt' {i : Nat} (hi : i < hostCount n) : podOf n i < 2 * n :=
  (Nat.div_lt_iff_lt_mul (Nat.mul_pos hn hn)).mpr hi

theorem edgeOf_lt' (i : Nat) : edgeOf n i < n := Nat.mod_lt _ hn

omit hn in
/-- Pod and edge switch of a host are the digits of its block. -/
theorem div_eq_digits (i : Nat) : i / n = podOf n i * n + edgeOf n i := by
  unfold podOf edgeOf
  rw [← Nat.div_div_eq_div_mul, Nat.mul_comm]
  exact (Nat.div_add_mod (i / n) n).symm

omit hn in
/-- The hosts of one edge switch. -/
theorem block_digits (pod : Nat) {e x : Nat} (he : e < n) (hx : x < n) :
    podOf n ((pod * n + e) * n + x) = pod ∧ edgeOf n ((pod * n + e) * n + x) = e := by
  have hdiv : ((pod * n + e) * n + x) / n = pod * n + e := by
    rw [Nat.mul_comm, Nat.mul_add_div (by omega), Nat.div_eq_of_lt hx, Nat.add_zero]
  exact digits_inj (edgeOf_lt' (by omega) _) he ((div_eq_digits _).symm.trans hdiv)

theorem valid : (builder cfg n).Valid := by
  intro x hx
  have hlen : (builder cfg n).isHost.length = switchCount n + hostCount n :=
    switchesFirst.nodeCount
  rw [hlen]
  rcases mem_edges.mp hx with ⟨pod, a, j, hpod, ha, hj, rfl⟩ | ⟨pod, a, e, hpod, ha, he, rfl⟩ |
    ⟨i, hi, rfl⟩
  · exact ⟨Nat.lt_add_right _ (agg_lt hpod ha),
      Nat.lt_add_right _ ((core_lt ha hj).trans_le (square_le_switchCount n)),
      ((core_lt ha hj).trans_le (le_agg pod a)).ne'⟩
  · exact ⟨Nat.lt_add_right _ (agg_lt hpod ha), Nat.lt_add_right _ (edge_lt hpod he),
      agg_ne_edge ha he⟩
  · have hedge := edge_lt (podOf_lt' hn hi) (edgeOf_lt' hn i)
    exact ⟨Nat.add_lt_add_left hi _, Nat.lt_add_right _ hedge, (hedge.trans_le (le_host i)).ne'⟩

theorem wellFormed (cfg : FatTreeConfig) : (builder cfg n).build.WellFormed :=
  FabricBuilder.build_wellFormed (valid hn)

/-! ## Neighbours -/

/-- The neighbours of a node, tier by tier. -/
theorem neighbours_eq (u : NodeId) : (builder cfg n).build.neighbours u =
    ((List.range (2 * n)).flatMap fun pod => (List.range n).flatMap fun a =>
      ((List.range n).filterMap fun j =>
        FabricBuilder.otherEnd u ⟨agg n pod a, core n a j, cfg.fabricLink⟩) ++
      (List.range n).filterMap fun e =>
        FabricBuilder.otherEnd u ⟨agg n pod a, edge n pod e, cfg.fabricLink⟩) ++
    (List.range (hostCount n)).filterMap fun i =>
      FabricBuilder.otherEnd u ⟨host n i, edge n (podOf n i) (edgeOf n i), cfg.hostLink⟩ := by
  rw [FabricBuilder.neighbours_eq (valid hn)]
  show (fabricEdges cfg n ++ hostEdges cfg n).filterMap _ = _
  unfold fabricEdges hostEdges
  simp only [List.filterMap_append, List.filterMap_flatMap, List.filterMap_map]
  rfl

/-- A core switch has one aggregation switch in every pod. -/
theorem neighbours_core {i j : Nat} (hi : i < n) (hj : j < n) :
    (builder cfg n).build.neighbours (core n i j) =
      (List.range (2 * n)).map fun pod => agg n pod i := by
  have hlow := core_lt hi hj
  have hagg : ∀ pod a, core n i j ≠ agg n pod a := fun pod a => (hlow.trans_le (le_agg pod a)).ne
  have hedge : ∀ pod e, core n i j ≠ edge n pod e := fun pod e => (hlow.trans_le (le_edge pod e)).ne
  have hhost : ∀ h, core n i j ≠ host n h := fun h =>
    (hlow.trans_le ((square_le_switchCount n).trans (le_host h))).ne
  rw [neighbours_eq hn, filterMap_range_nil fun h _ => otherEnd_none (hhost h) (hedge _ _),
    List.append_nil]
  refine flatMap_range_map fun pod hpod => ?_
  rw [flatMap_range_single hi]
  · rw [filterMap_range_single hj (otherEnd_right (hagg pod i)),
      filterMap_range_nil fun e _ => otherEnd_none (hagg pod i) (hedge pod e)]
    · rfl
    · intro j' hj' hne
      exact otherEnd_none (hagg pod i) fun heq => hne (core_inj hj hj' heq).2.symm
  · intro a ha hne
    rw [filterMap_range_nil fun j' hj' => otherEnd_none (hagg pod a) fun heq =>
        hne (core_inj hj hj' heq).1.symm,
      filterMap_range_nil fun e _ => otherEnd_none (hagg pod a) (hedge pod e)]
    rfl

/-- An aggregation switch has its row of core switches above, and the edge
switches of its pod below. -/
theorem neighbours_agg {pod a : Nat} (hpod : pod < 2 * n) (ha : a < n) :
    (builder cfg n).build.neighbours (agg n pod a) =
      ((List.range n).map fun j => core n a j) ++ (List.range n).map fun e => edge n pod e := by
  have hcore : ∀ {i j}, i < n → j < n → agg n pod a ≠ core n i j := fun hi hj =>
    ((core_lt hi hj).trans_le (le_agg pod a)).ne'
  have hedge : ∀ {pod' e}, e < n → agg n pod a ≠ edge n pod' e := fun he => agg_ne_edge ha he
  have hhost : ∀ h, agg n pod a ≠ host n h := fun h => ((agg_lt hpod ha).trans_le (le_host h)).ne
  rw [neighbours_eq hn,
    filterMap_range_nil fun h _ => otherEnd_none (hhost h) (hedge (edgeOf_lt' hn h)),
    List.append_nil, flatMap_range_single hpod, flatMap_range_single ha]
  · simp only [otherEnd_left]
    rw [List.filterMap_eq_map', List.filterMap_eq_map']
  · intro a' ha' hne
    have hagg : agg n pod a ≠ agg n pod a' := fun heq => hne (agg_inj ha ha' heq).2.symm
    rw [filterMap_range_nil fun j hj => otherEnd_none hagg (hcore ha' hj),
      filterMap_range_nil fun e he => otherEnd_none hagg (hedge he)]
    rfl
  · intro pod' _ hne
    rw [List.flatMap_eq_nil_iff]
    intro a' ha'
    have ha' := List.mem_range.mp ha'
    have hagg : agg n pod a ≠ agg n pod' a' := fun heq => hne (agg_inj ha ha' heq).1.symm
    rw [filterMap_range_nil fun j hj => otherEnd_none hagg (hcore ha' hj),
      filterMap_range_nil fun e he => otherEnd_none hagg (hedge he)]
    rfl

/-- An edge switch has the aggregation switches of its pod above, and a block of
hosts below. -/
theorem neighbours_edge {pod e : Nat} (hpod : pod < 2 * n) (he : e < n) :
    (builder cfg n).build.neighbours (edge n pod e) =
      ((List.range n).map fun a => agg n pod a) ++
        (List.range n).map fun x => host n ((pod * n + e) * n + x) := by
  have hcore : ∀ {i j}, i < n → j < n → edge n pod e ≠ core n i j := fun hi hj =>
    ((core_lt hi hj).trans_le (le_edge pod e)).ne'
  have hagg : ∀ {pod' a}, a < n → edge n pod e ≠ agg n pod' a := fun ha => (agg_ne_edge ha he).symm
  have hhost : ∀ h, edge n pod e ≠ host n h := fun h => ((edge_lt hpod he).trans_le (le_host h)).ne
  rw [neighbours_eq hn]
  congr 1
  · rw [flatMap_range_single hpod]
    · refine flatMap_range_map fun a ha => ?_
      rw [filterMap_range_nil fun j hj => otherEnd_none (hagg ha) (hcore ha hj),
        filterMap_range_single he (otherEnd_right (hagg ha))]
      · rfl
      · intro e' he' hne
        exact otherEnd_none (hagg ha) fun heq => hne (edge_inj he he' heq).2.symm
    · intro pod' _ hne
      rw [List.flatMap_eq_nil_iff]
      intro a ha
      have ha := List.mem_range.mp ha
      rw [filterMap_range_nil fun j hj => otherEnd_none (hagg ha) (hcore ha hj),
        filterMap_range_nil fun e' he' => otherEnd_none (hagg ha) fun heq =>
          hne (edge_inj he he' heq).1.symm]
      rfl
  · -- the hosts come in blocks of `n`, one block an edge switch
    have hcount : hostCount n = 2 * n * n * n := by
      unfold hostCount
      rw [Nat.mul_assoc (2 * n) n n]
    rw [hcount]
    refine filterMap_range_block (m := 2 * n * n) (q := pod * n + e) ?_ ?_ ?_
    · calc pod * n + e < pod * n + n := by omega
        _ = (pod + 1) * n := (Nat.succ_mul pod n).symm
        _ ≤ 2 * n * n := Nat.mul_le_mul_right n hpod
    · intro x hx
      obtain ⟨h1, h2⟩ := block_digits pod he hx
      rw [h1, h2]
      exact otherEnd_right (hhost _)
    · intro q hq hne x hx
      have hq : q = q / n * n + q % n := by
        rw [Nat.mul_comm]
        exact (Nat.div_add_mod q n).symm
      obtain ⟨h1, h2⟩ := block_digits (q / n) (Nat.mod_lt q hn) hx
      rw [← hq] at h1 h2
      rw [h1, h2]
      refine otherEnd_none (hhost _) fun heq => ?_
      obtain ⟨hp, he⟩ := edge_inj he (Nat.mod_lt q hn) heq
      rw [hp, he] at hne
      exact hne hq

/-- A host has its edge switch. -/
theorem neighbours_host {i : Nat} (hi : i < hostCount n) :
    (builder cfg n).build.neighbours (host n i) = [edge n (podOf n i) (edgeOf n i)] := by
  have hlow : ∀ {u : Nat}, u < switchCount n → host n i ≠ u := fun hu => (hu.trans_le (le_host i)).ne'
  have hcore : ∀ {i' j}, i' < n → j < n → host n i ≠ core n i' j := fun hi hj =>
    hlow ((core_lt hi hj).trans_le (square_le_switchCount n))
  rw [neighbours_eq hn, filterMap_range_single hi otherEnd_left]
  · have hnil : ((List.range (2 * n)).flatMap fun pod => (List.range n).flatMap fun a =>
        ((List.range n).filterMap fun j =>
          FabricBuilder.otherEnd (host n i) ⟨agg n pod a, core n a j, cfg.fabricLink⟩) ++
        (List.range n).filterMap fun e =>
          FabricBuilder.otherEnd (host n i) ⟨agg n pod a, edge n pod e, cfg.fabricLink⟩) = [] := by
      rw [List.flatMap_eq_nil_iff]
      intro pod hpod
      rw [List.flatMap_eq_nil_iff]
      intro a ha
      have hpod := List.mem_range.mp hpod
      have ha := List.mem_range.mp ha
      rw [filterMap_range_nil fun j hj => otherEnd_none (hlow (agg_lt hpod ha)) (hcore ha hj),
        filterMap_range_nil fun e he => otherEnd_none (hlow (agg_lt hpod ha)) (hlow (edge_lt hpod he))]
      rfl
    rw [hnil, List.nil_append]
  · intro i' hi' hne
    refine otherEnd_none (fun heq => hne (Nat.add_left_cancel heq).symm) ?_
    exact hlow (edge_lt (podOf_lt' hn hi') (edgeOf_lt' hn i'))

/-- One kind of link for all ports. -/
theorem links_alike {link : LinkParams} (hhost : cfg.hostLink = link)
    (hfabric : cfg.fabricLink = link) {p : PortId} (hp : p < (builder cfg n).build.portCount) :
    ((builder cfg n).build.port p).rate = link.rate ∧
      ((builder cfg n).build.port p).propDelayNs = link.propDelayNs ∧
      ((builder cfg n).build.port p).queueCapacity = link.queueCapacityPkts := by
  refine FabricBuilder.build_params (valid hn) (fun e he => ?_) hp
  rcases mem_edges.mp he with ⟨_, _, _, -, -, -, rfl⟩ | ⟨_, _, _, -, -, -, rfl⟩ | ⟨_, -, rfl⟩
  · exact hfabric
  · exact hfabric
  · exact hhost

/-- The four tiers. -/
inductive Tier (n : Nat) : Nat → Prop where
  | core {i j : Nat} (hi : i < n) (hj : j < n) : Tier n (core n i j)
  | agg {pod a : Nat} (hpod : pod < 2 * n) (ha : a < n) : Tier n (agg n pod a)
  | edge {pod e : Nat} (hpod : pod < 2 * n) (he : e < n) : Tier n (edge n pod e)
  | host {i : Nat} (hi : i < hostCount n) : Tier n (host n i)

/-- Every node is in one of them. -/
theorem tier {u : Nat} (hu : u < switchCount n + hostCount n) : Tier n u := by
  rcases Nat.lt_or_ge u (n * n) with hc | hc
  · have hrow : u = core n (u / n) (u % n) := by
      unfold core
      rw [Nat.mul_comm]
      exact (Nat.div_add_mod u n).symm
    rw [hrow]
    exact Tier.core ((Nat.div_lt_iff_lt_mul hn).mpr hc) (Nat.mod_lt u hn)
  · rcases Nat.lt_or_ge u (switchCount n) with hs | hs
    · -- a switch of a pod: which pod, and where in it
      have hpos : 0 < 2 * n := by omega
      have hin : u - n * n < 2 * n * (2 * n) := by
        have hsq : 2 * n * (2 * n) = 4 * (n * n) := by ring
        unfold switchCount at hs
        omega
      have hpod : (u - n * n) / (2 * n) < 2 * n := (Nat.div_lt_iff_lt_mul hpos).mpr hin
      have hmod := Nat.mod_lt (u - n * n) hpos
      have hdigits : u = n * n + ((u - n * n) / (2 * n) * (2 * n) + (u - n * n) % (2 * n)) := by
        rw [Nat.mul_comm _ (2 * n), Nat.div_add_mod]
        omega
      rcases Nat.lt_or_ge ((u - n * n) % (2 * n)) n with ha | ha
      · rw [hdigits]
        exact Tier.agg hpod ha
      · have he : u = edge n ((u - n * n) / (2 * n)) ((u - n * n) % (2 * n) - n) := by
          unfold edge
          rw [Nat.add_sub_cancel' ha]
          exact hdigits
        rw [he]
        exact Tier.edge hpod (by omega)
    · have hh : u = host n (u - switchCount n) := by
        unfold host
        omega
      rw [hh]
      exact Tier.host (by omega)

/-- Hosts have one port, switches `k`. -/
theorem portCount_eq {u : Nat} (hu : u < switchCount n + hostCount n) :
    ((builder cfg n).build.node u).portCount = if u < switchCount n then 2 * n else 1 := by
  have hlen : ((builder cfg n).build.node u).portCount =
      ((builder cfg n).build.neighbours u).length := by
    unfold Fabric.neighbours Fabric.portsOf
    rw [List.length_map, List.length_map, List.length_range]
  rw [hlen]
  cases tier hn hu with
  | core hi hj =>
    rw [neighbours_core hn hi hj, List.length_map, List.length_range,
      if_pos ((core_lt hi hj).trans_le (square_le_switchCount n))]
  | agg hpod ha =>
    rw [neighbours_agg hn hpod ha, List.length_append, List.length_map, List.length_map,
      List.length_range, if_pos (agg_lt hpod ha), Nat.two_mul]
  | edge hpod he =>
    rw [neighbours_edge hn hpod he, List.length_append, List.length_map, List.length_map,
      List.length_range, if_pos (edge_lt hpod he), Nat.two_mul]
  | host hi =>
    rw [neighbours_host hn hi, if_neg (not_lt.mpr (le_host _))]
    rfl

theorem singlePortHosts : (builder cfg n).build.SinglePortHosts := by
  intro (u : Nat) hu
  obtain ⟨hlo, hhi⟩ := (switchesFirst.isHost_iff u).mp hu
  rw [portCount_eq hn hhi, if_neg (not_lt.mpr hlo)]

end Shape

end FatTree

end FabricSim
