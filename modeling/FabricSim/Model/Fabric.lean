import FabricSim.Model.Packet
import FabricSim.Lib.Csr
import FabricSim.Lib.Distance

/-!
# The fabric: nodes and directed links

`Fabric` is the shape of the network, which a run only reads; the state a run
changes in a port (`PortState`) is kept apart. A directed link is the output
side of one endpoint, so a `PortId` names both.

`FabricBuilder.build` is the code's two-pass construction. Pass 1 counts the
ports of each node and lays the nodes' runs out one after the other; pass 2
walks the edges and claims one slot in each endpoint's run. What it produces is
stated against `halfLinks`, the incidence lists of the edge sequence:
`build_port` reads port `k` of node `u` as the `k`-th half-link of `u`, and
`build_linked_iff` says two nodes are linked exactly when an edge joins them.

Vectors the code only indexes are functions here; reading past their end, which
the code never does, gives a default.
-/

namespace FabricSim

structure LinkParams where
  rate : Nat := gbps 100
  propDelayNs : Nat := 100
  queueCapacityPkts : Nat := 128
  deriving DecidableEq, Repr

structure Node where
  firstPort : Nat := 0
  portCount : Nat := 0
  isHost : Bool := false
  deriving DecidableEq, Repr

/-- One directed link. -/
structure Port where
  owner : NodeId := 0
  peerNode : NodeId := 0
  peerPort : PortId := 0
  rate : Nat := 0
  propDelayNs : Nat := 0
  queueCapacity : Nat := 0
  deriving DecidableEq, Repr

/-- What a run changes in a port. -/
structure PortState where
  busy : Bool
  inFlight : Packet
  queue : PacketRing
  packetsSent : Nat
  bytesSent : Nat
  packetsDropped : Nat
  bytesDropped : Nat

structure Fabric where
  nodeCount : Nat
  node : NodeId → Node
  portCount : Nat
  port : PortId → Port
  portIds : Nat → PortId
  hosts : List NodeId
  hostIndex : NodeId → Nat

namespace Fabric

def hostCount (f : Fabric) : Nat := f.hosts.length

/-- The ports of a node, contiguous in the flat id array. -/
def portsOf (f : Fabric) (n : NodeId) : List PortId :=
  (List.range (f.node n).portCount).map fun i => f.portIds ((f.node n).firstPort + i)

def hostAt (f : Fabric) (hostIndex : Nat) : NodeId := f.hosts.getD hostIndex 0

/-- The nodes at the far ends of a node's ports, in port order. -/
def neighbours (f : Fabric) (n : NodeId) : List NodeId :=
  (f.portsOf n).map fun p => (f.port p).peerNode

/-- Some port of `u` leads to `v`. -/
def Linked (f : Fabric) (u v : NodeId) : Prop := ∃ p ∈ f.portsOf u, (f.port p).peerNode = v

/-- The undirected graph of the links; its `dist` is the hop distance. -/
def graph (f : Fabric) : SimpleGraph NodeId := SimpleGraph.fromRel f.Linked

/-- Every two nodes are joined by a walk of links. -/
def Connected (f : Fabric) : Prop :=
  ∀ u v, u < f.nodeCount → v < f.nodeCount → f.graph.Reachable u v

/-- Every host has exactly one port. -/
def SinglePortHosts (f : Fabric) : Prop := ∀ u, (f.node u).isHost = true → (f.node u).portCount = 1

/-- All links have one rate and one delay. -/
def LinksAlike (f : Fabric) (rate delay : Nat) : Prop :=
  ∀ p, p < f.portCount → (f.port p).rate = rate ∧ (f.port p).propDelayNs = delay

/-- The reset port: idle, empty, counters at zero. -/
def resetPort (f : Fabric) (p : PortId) : PortState where
  busy := false
  inFlight := default
  queue := BoundedFifo.init (f.port p).queueCapacity
  packetsSent := 0
  bytesSent := 0
  packetsDropped := 0
  bytesDropped := 0

/-- What every built fabric guarantees to the rest of the model. -/
structure WellFormed (f : Fabric) : Prop where
  owner : ∀ u, ∀ p ∈ f.portsOf u, (f.port p).owner = u
  port_lt : ∀ u, ∀ p ∈ f.portsOf u, p < f.portCount
  linked_lt : ∀ u v, f.Linked u v → u < f.nodeCount
  linked_symm : ∀ u v, f.Linked u v → f.Linked v u
  linked_irrefl : ∀ u, ¬ f.Linked u u
  host_lt : ∀ u, (f.node u).isHost = true → u < f.nodeCount
  hostIndex_lt : ∀ u, (f.node u).isHost = true → f.hostIndex u < f.hostCount
  hostAt_hostIndex : ∀ u, (f.node u).isHost = true → f.hostAt (f.hostIndex u) = u
  isHost_hostAt : ∀ i, i < f.hostCount → (f.node (f.hostAt i)).isHost = true

theorem WellFormed.adj_iff {f : Fabric} (h : f.WellFormed) (u v : NodeId) :
    f.graph.Adj u v ↔ f.Linked u v := by
  unfold graph
  rw [SimpleGraph.fromRel_adj]
  constructor
  · rintro ⟨_, huv | hvu⟩
    · exact huv
    · exact h.linked_symm v u hvu
  · intro huv
    refine ⟨?_, Or.inl huv⟩
    rintro rfl
    exact h.linked_irrefl u huv

theorem WellFormed.adj_iff_mem {f : Fabric} (h : f.WellFormed) (u v : NodeId) :
    f.graph.Adj u v ↔ v ∈ f.neighbours u := by
  rw [h.adj_iff, neighbours, List.mem_map]
  rfl

end Fabric

structure Edge where
  a : NodeId
  b : NodeId
  params : LinkParams

structure FabricBuilder where
  isHost : List Bool := []
  edges : List Edge := []

namespace FabricBuilder

def addSwitch (b : FabricBuilder) : FabricBuilder := { b with isHost := b.isHost ++ [false] }

def addHost (b : FabricBuilder) : FabricBuilder := { b with isHost := b.isHost ++ [true] }

def connect (b : FabricBuilder) (u v : NodeId) (params : LinkParams) : FabricBuilder :=
  { b with edges := b.edges ++ [⟨u, v, params⟩] }

/-- The assertions of `connect`, for every recorded edge. -/
def Valid (b : FabricBuilder) : Prop :=
  ∀ e ∈ b.edges, e.a < b.isHost.length ∧ e.b < b.isHost.length ∧ e.a ≠ e.b

/-- Pass 1: ports per node. -/
def degree (edges : List Edge) : NodeId → Nat :=
  edges.foldl (fun d e =>
    let d := Function.update d e.a (d e.a + 1)
    Function.update d e.b (d e.b + 1)) fun _ => 0

/-- Where a node's run of ports starts. -/
def firstPort (edges : List Edge) : NodeId → Nat := Csr.prefixSum (degree edges)

/-- The vectors pass 2 fills. -/
structure Ports where
  claimed : NodeId → Nat
  port : PortId → Port
  portIds : Nat → PortId

/-- Pass 2, one edge: claim a slot in each endpoint's run and write both
directed ports. -/
def place (first : NodeId → Nat) (st : Ports) (e : Edge) : Ports :=
  let sa := first e.a + st.claimed e.a
  let claimed := Function.update st.claimed e.a (st.claimed e.a + 1)
  let sb := first e.b + claimed e.b
  { claimed := Function.update claimed e.b (claimed e.b + 1)
    port := Function.update
      (Function.update st.port sa
        ⟨e.a, e.b, sb, e.params.rate, e.params.propDelayNs, e.params.queueCapacityPkts⟩) sb
      ⟨e.b, e.a, sa, e.params.rate, e.params.propDelayNs, e.params.queueCapacityPkts⟩
    portIds := Function.update (Function.update st.portIds sa sa) sb sb }

/-- Pass 2. -/
def places (edges : List Edge) : Ports :=
  edges.foldl (place (firstPort edges)) ⟨fun _ => 0, fun _ => {}, fun _ => 0⟩

def build (b : FabricBuilder) : Fabric where
  nodeCount := b.isHost.length
  node u := ⟨firstPort b.edges u, (places b.edges).claimed u, b.isHost.getD u false⟩
  portCount := firstPort b.edges b.isHost.length
  port := (places b.edges).port
  portIds := (places b.edges).portIds
  hosts := (List.range b.isHost.length).filter fun u => b.isHost.getD u false
  hostIndex u := ((List.range u).filter fun v => b.isHost.getD v false).length

/-! ## Incidence lists -/

/-- One end of an edge, seen from a node: the node at the other end, the
position among that node's half-links, and the link's parameters. -/
structure HalfLink where
  peer : NodeId
  rank : Nat
  params : LinkParams

/-- What one more edge adds to the incidence lists. -/
def addHalf (inc : NodeId → List HalfLink) (e : Edge) (u : NodeId) : List HalfLink :=
  inc u ++
    if u = e.a then [⟨e.b, (inc e.b).length, e.params⟩]
    else if u = e.b then [⟨e.a, (inc e.a).length, e.params⟩]
    else []

/-- The half-links of each node, in edge order. -/
def halfLinks (edges : List Edge) : NodeId → List HalfLink := edges.foldl addHalf fun _ => []

theorem halfLinks_concat (edges : List Edge) (e : Edge) :
    halfLinks (edges ++ [e]) = addHalf (halfLinks edges) e := by
  unfold halfLinks
  rw [List.foldl_append, List.foldl_cons, List.foldl_nil]

theorem length_addHalf (inc : NodeId → List HalfLink) (e : Edge) (u : NodeId) :
    (addHalf inc e u).length = (inc u).length + if u = e.a ∨ u = e.b then 1 else 0 := by
  unfold addHalf
  rw [List.length_append]
  by_cases ha : u = e.a
  · rw [if_pos ha, if_pos (Or.inl ha)]
    rfl
  · by_cases hb : u = e.b
    · rw [if_neg ha, if_pos hb, if_pos (Or.inr hb)]
      rfl
    · rw [if_neg ha, if_neg hb, if_neg (by tauto)]
      rfl

theorem degree_eq {edges : List Edge} (h : ∀ e ∈ edges, e.a ≠ e.b) (u : NodeId) :
    degree edges u = (halfLinks edges u).length := by
  induction edges using List.reverseRecOn with
  | nil => rfl
  | append_singleton es e ih =>
    have ih := ih fun e he => h e (List.mem_append_left _ he)
    have hne : e.a ≠ e.b := h e (by simp)
    unfold degree at ih ⊢
    rw [halfLinks_concat, length_addHalf, List.foldl_append, List.foldl_cons, List.foldl_nil,
      ← ih]
    dsimp only
    by_cases ha : u = e.a
    · subst ha
      rw [Function.update_of_ne hne, Function.update_self, if_pos (Or.inl rfl)]
    · by_cases hb : u = e.b
      · subst hb
        rw [Function.update_self, Function.update_of_ne (Ne.symm hne), if_pos (Or.inr rfl)]
      · rw [Function.update_of_ne hb, Function.update_of_ne ha, if_neg (by tauto)]
        rfl

theorem length_halfLinks_le (done todo : List Edge) (u : NodeId) :
    (halfLinks done u).length ≤ (halfLinks (done ++ todo) u).length := by
  induction todo using List.reverseRecOn with
  | nil => rw [List.append_nil]
  | append_singleton es e ih =>
    rw [← List.append_assoc, halfLinks_concat, length_addHalf]
    omega

theorem mem_halfLinks {edges : List Edge} (h : ∀ e ∈ edges, e.a ≠ e.b) (u v : NodeId) :
    (∃ l ∈ halfLinks edges u, l.peer = v) ↔
      ∃ e ∈ edges, (e.a = u ∧ e.b = v) ∨ (e.b = u ∧ e.a = v) := by
  induction edges using List.reverseRecOn with
  | nil => simp [halfLinks]
  | append_singleton es e ih =>
    have ih := ih fun e he => h e (List.mem_append_left _ he)
    have hne : e.a ≠ e.b := h e (by simp)
    rw [halfLinks_concat]
    have hsplit : (∃ l ∈ addHalf (halfLinks es) e u, l.peer = v) ↔
        (∃ l ∈ halfLinks es u, l.peer = v) ∨
          ((e.a = u ∧ e.b = v) ∨ (e.b = u ∧ e.a = v)) := by
      unfold addHalf
      by_cases ha : u = e.a
      · subst ha
        simp [or_and_right, exists_or, Ne.symm hne]
      · by_cases hb : u = e.b
        · subst hb
          simp [or_and_right, exists_or, ha, Ne.symm ha]
        · simp [ha, hb, Ne.symm ha, Ne.symm hb]
    rw [hsplit, ih]
    constructor
    · rintro (⟨e', he', hj⟩ | hj)
      · exact ⟨e', List.mem_append_left _ he', hj⟩
      · exact ⟨e, by simp, hj⟩
    · rintro ⟨e', he', hj⟩
      rcases List.mem_append.mp he' with he' | he'
      · exact Or.inl ⟨e', he', hj⟩
      · obtain rfl := List.mem_singleton.mp he'
        exact Or.inr hj

/-- The port a half-link of `u` becomes. -/
def HalfLink.toPort (first : NodeId → Nat) (u : NodeId) (l : HalfLink) : Port :=
  ⟨u, l.peer, first l.peer + l.rank, l.params.rate, l.params.propDelayNs,
    l.params.queueCapacityPkts⟩

/-- Pass 2 after a part of the edges: the cursors count that part's half-links
and the claimed slots hold them. -/
structure Placed (first : NodeId → Nat) (done : List Edge) (st : Ports) : Prop where
  claimed : ∀ u, st.claimed u = (halfLinks done u).length
  port : ∀ u k, (h : k < (halfLinks done u).length) →
    st.port (first u + k) = ((halfLinks done u)[k]).toPort first u
  portIds : ∀ u k, k < (halfLinks done u).length → st.portIds (first u + k) = first u + k

theorem Placed.step {first : NodeId → Nat} {d : NodeId → Nat} (hfirst : first = Csr.prefixSum d)
    {done : List Edge} {st : Ports} {e : Edge} (hne : e.a ≠ e.b)
    (hd : ∀ u, (halfLinks (done ++ [e]) u).length ≤ d u) (h : Placed first done st) :
    Placed first (done ++ [e]) (place first st e) := by
  have hlen : ∀ u, (halfLinks (done ++ [e]) u).length =
      (halfLinks done u).length + if u = e.a ∨ u = e.b then 1 else 0 := by
    intro u
    rw [halfLinks_concat, length_addHalf]
  have hda := hd e.a
  have hdb := hd e.b
  rw [hlen, if_pos (Or.inl rfl)] at hda
  rw [hlen, if_pos (Or.inr rfl)] at hdb
  -- two slots coincide only when node and position do
  have hslot : ∀ {u v k l : Nat}, k < d u → l < d v → first u + k = first v + l →
      u = v ∧ k = l := by
    intro u v k l hk hl heq
    rw [hfirst] at heq
    exact Csr.slot_inj d hk hl heq
  have hca := h.claimed e.a
  have hcb := h.claimed e.b
  have hup : Function.update st.claimed e.a (st.claimed e.a + 1) e.b = (halfLinks done e.b).length := by
    rw [Function.update_of_ne (Ne.symm hne), hcb]
  have hold : ∀ u k, k < (halfLinks done u).length → k < d u := by
    intro u k hk
    have := hd u
    rw [hlen] at this
    omega
  -- a slot of the enlarged lists is an old one or one of the two claimed now
  have hcase : ∀ u k, k < (halfLinks (done ++ [e]) u).length →
      k < (halfLinks done u).length ∨ (u = e.a ∧ k = (halfLinks done e.a).length) ∨
        (u = e.b ∧ k = (halfLinks done e.b).length) := by
    intro u k hk
    rw [hlen] at hk
    by_cases ha : u = e.a
    · subst ha
      rw [if_pos (Or.inl rfl)] at hk
      rcases Nat.lt_succ_iff_lt_or_eq.mp hk with hk | hk
      · exact Or.inl hk
      · exact Or.inr (Or.inl ⟨rfl, hk⟩)
    · by_cases hb : u = e.b
      · subst hb
        rw [if_pos (Or.inr rfl)] at hk
        rcases Nat.lt_succ_iff_lt_or_eq.mp hk with hk | hk
        · exact Or.inl hk
        · exact Or.inr (Or.inr ⟨rfl, hk⟩)
      · rw [if_neg (by tauto)] at hk
        exact Or.inl hk
  have hsab : first e.a + (halfLinks done e.a).length ≠ first e.b + (halfLinks done e.b).length :=
    fun heq => hne (hslot (by omega) (by omega) heq).1
  constructor
  · intro u
    rw [hlen]
    unfold place
    dsimp only
    by_cases hb : u = e.b
    · subst hb
      rw [Function.update_self, hup, if_pos (Or.inr rfl)]
    · rw [Function.update_of_ne hb]
      by_cases ha : u = e.a
      · subst ha
        rw [Function.update_self, hca, if_pos (Or.inl rfl)]
      · rw [Function.update_of_ne ha, h.claimed, if_neg (by tauto)]
        rfl
  · intro u k hk
    have hk' : k < (addHalf (halfLinks done) e u).length := by
      rw [← halfLinks_concat]
      exact hk
    have hget : (halfLinks (done ++ [e]) u)[k] = (addHalf (halfLinks done) e u)[k] := by
      congr 1
      rw [halfLinks_concat]
    rw [hget]
    unfold place
    dsimp only
    rw [hup, hca]
    rcases hcase u k hk with hk' | ⟨rfl, rfl⟩ | ⟨rfl, rfl⟩
    · rw [Function.update_of_ne, Function.update_of_ne, h.port u k hk']
      · congr 1
        exact (List.getElem_append_left hk').symm
      · intro heq
        have := hslot (hold u k hk') (by omega) heq
        obtain ⟨rfl, rfl⟩ := this
        exact absurd hk' (lt_irrefl _)
      · intro heq
        have := hslot (hold u k hk') (by omega) heq
        obtain ⟨rfl, rfl⟩ := this
        exact absurd hk' (lt_irrefl _)
    · rw [Function.update_of_ne hsab, Function.update_self]
      simp [addHalf, HalfLink.toPort]
    · rw [Function.update_self]
      simp [addHalf, HalfLink.toPort, Ne.symm hne]
  · intro u k hk
    unfold place
    dsimp only
    rw [hup, hca]
    rcases hcase u k hk with hk' | ⟨rfl, rfl⟩ | ⟨rfl, rfl⟩
    · rw [Function.update_of_ne, Function.update_of_ne, h.portIds u k hk']
      · intro heq
        have := hslot (hold u k hk') (by omega) heq
        obtain ⟨rfl, rfl⟩ := this
        exact absurd hk' (lt_irrefl _)
      · intro heq
        have := hslot (hold u k hk') (by omega) heq
        obtain ⟨rfl, rfl⟩ := this
        exact absurd hk' (lt_irrefl _)
    · rw [Function.update_of_ne hsab, Function.update_self]
    · rw [Function.update_self]

theorem places_placed {edges : List Edge} (h : ∀ e ∈ edges, e.a ≠ e.b) :
    Placed (firstPort edges) edges (places edges) := by
  have hpre : ∀ done todo, done ++ todo = edges →
      Placed (firstPort edges) done
        (done.foldl (place (firstPort edges)) ⟨fun _ => 0, fun _ => {}, fun _ => 0⟩) := by
    intro done
    induction done using List.reverseRecOn with
    | nil =>
      intro _ _
      exact ⟨fun _ => rfl, fun _ _ hk => absurd hk (Nat.not_lt_zero _),
        fun _ _ hk => absurd hk (Nat.not_lt_zero _)⟩
    | append_singleton es e ih =>
      intro todo hsplit
      rw [List.foldl_append, List.foldl_cons, List.foldl_nil]
      refine Placed.step (d := degree edges) rfl ?_ ?_ (ih (e :: todo) (by simpa using hsplit))
      · exact h e (by rw [← hsplit]; simp)
      · intro u
        rw [degree_eq h, ← hsplit]
        exact length_halfLinks_le _ _ u
  exact hpre edges [] (List.append_nil _)

/-! ## What `build` guarantees -/

variable {b : FabricBuilder}

theorem Valid.ne (h : b.Valid) : ∀ e ∈ b.edges, e.a ≠ e.b := fun e he => (h e he).2.2

/-- A node's run of ports: as many as it has half-links, from its first slot. -/
theorem build_portsOf (h : b.Valid) (u : NodeId) :
    b.build.portsOf u =
      (List.range (halfLinks b.edges u).length).map (firstPort b.edges u + ·) := by
  have hp := places_placed h.ne
  show (List.range ((places b.edges).claimed u)).map
    (fun i => (places b.edges).portIds (firstPort b.edges u + i)) = _
  rw [hp.claimed]
  exact List.map_congr_left fun k hk => hp.portIds u k (List.mem_range.mp hk)

/-- Port `k` of node `u` is its `k`-th half-link. -/
theorem build_port (h : b.Valid) (u : NodeId) (k : Nat) (hk : k < (halfLinks b.edges u).length) :
    b.build.port (firstPort b.edges u + k) =
      ((halfLinks b.edges u)[k]).toPort (firstPort b.edges) u :=
  (places_placed h.ne).port u k hk

theorem mem_build_portsOf (h : b.Valid) {u : NodeId} {p : PortId} :
    p ∈ b.build.portsOf u ↔
      ∃ k, ∃ hk : k < (halfLinks b.edges u).length, p = firstPort b.edges u + k ∧
        b.build.port p = ((halfLinks b.edges u)[k]).toPort (firstPort b.edges) u := by
  rw [build_portsOf h, List.mem_map]
  constructor
  · rintro ⟨k, hk, rfl⟩
    have hk := List.mem_range.mp hk
    exact ⟨k, hk, rfl, build_port h u k hk⟩
  · rintro ⟨k, hk, rfl, _⟩
    exact ⟨k, List.mem_range.mpr hk, rfl⟩

theorem build_linked_iff (h : b.Valid) (u v : NodeId) :
    b.build.Linked u v ↔ ∃ e ∈ b.edges, (e.a = u ∧ e.b = v) ∨ (e.b = u ∧ e.a = v) := by
  rw [← mem_halfLinks h.ne]
  constructor
  · rintro ⟨p, hp, hv⟩
    obtain ⟨k, hk, _, hport⟩ := (mem_build_portsOf h).mp hp
    rw [hport] at hv
    exact ⟨_, List.getElem_mem hk, hv⟩
  · rintro ⟨l, hl, rfl⟩
    obtain ⟨k, hk, rfl⟩ := List.mem_iff_getElem.mp hl
    have hport := build_port h u k hk
    exact ⟨firstPort b.edges u + k, (mem_build_portsOf h).mpr ⟨k, hk, rfl, hport⟩, by rw [hport]; rfl⟩

/-- The hosts before `u` come before it in the host list. -/
theorem getElem?_filter_range (p : Nat → Bool) {n u : Nat} (hu : u < n) (hp : p u = true) :
    ((List.range n).filter p)[((List.range u).filter p).length]? = some u := by
  obtain ⟨m, rfl⟩ : ∃ m, n = u + 1 + m := ⟨n - (u + 1), by omega⟩
  rw [List.range_add, List.range_succ, List.filter_append, List.filter_append, List.append_assoc,
    List.getElem?_append_right (Nat.le_refl _), Nat.sub_self]
  simp [hp]

theorem build_wellFormed (h : b.Valid) : b.build.WellFormed where
  owner := by
    intro u p hp
    obtain ⟨k, hk, _, hport⟩ := (mem_build_portsOf h).mp hp
    rw [hport]
    rfl
  port_lt := by
    intro u p hp
    obtain ⟨k, hk, rfl, hport⟩ := (mem_build_portsOf h).mp hp
    obtain ⟨e, he, hj⟩ := (mem_halfLinks h.ne u _).mp ⟨_, List.getElem_mem hk, rfl⟩
    have hu : u < b.isHost.length := by
      obtain ⟨h1, h2, _⟩ := h e he
      rcases hj with ⟨rfl, _⟩ | ⟨rfl, _⟩ <;> assumption
    have hle := Csr.prefixSum_add_le (degree b.edges) hu
    rw [← degree_eq h.ne] at hk
    show Csr.prefixSum (degree b.edges) u + k < Csr.prefixSum (degree b.edges) b.isHost.length
    omega
  linked_lt := by
    intro u v huv
    obtain ⟨e, he, hj⟩ := (build_linked_iff h u v).mp huv
    obtain ⟨h1, h2, _⟩ := h e he
    rcases hj with ⟨rfl, _⟩ | ⟨rfl, _⟩
    · exact h1
    · exact h2
  linked_symm := by
    intro u v huv
    rw [build_linked_iff h] at huv ⊢
    obtain ⟨e, he, hj⟩ := huv
    exact ⟨e, he, hj.symm.imp And.symm And.symm⟩
  linked_irrefl := by
    intro u huu
    obtain ⟨e, he, hj⟩ := (build_linked_iff h u u).mp huu
    rcases hj with ⟨h1, h2⟩ | ⟨h1, h2⟩
    · exact h.ne e he (h1.trans h2.symm)
    · exact h.ne e he (h2.trans h1.symm)
  host_lt := by
    intro u hu
    by_contra hge
    have : b.isHost.getD u false = true := hu
    rw [List.getD_eq_default _ _ (not_lt.mp hge)] at this
    exact absurd this (by simp)
  hostIndex_lt := by
    intro u hu
    have hlt : u < b.isHost.length := by
      by_contra hge
      have : b.isHost.getD u false = true := hu
      rw [List.getD_eq_default _ _ (not_lt.mp hge)] at this
      exact absurd this (by simp)
    have := getElem?_filter_range (fun v => b.isHost.getD v false) hlt hu
    exact (List.getElem?_eq_some_iff.mp this).1
  hostAt_hostIndex := by
    intro u hu
    have hlt : u < b.isHost.length := by
      by_contra hge
      have : b.isHost.getD u false = true := hu
      rw [List.getD_eq_default _ _ (not_lt.mp hge)] at this
      exact absurd this (by simp)
    have := getElem?_filter_range (fun v => b.isHost.getD v false) hlt hu
    show (List.filter _ _).getD _ 0 = u
    rw [List.getD_eq_getElem?_getD]
    exact congrArg (Option.getD · 0) this
  isHost_hostAt := by
    intro i hi
    have hmem : b.build.hostAt i ∈ b.build.hosts := by
      show b.build.hosts.getD i 0 ∈ b.build.hosts
      rw [List.getD_eq_getElem _ _ hi]
      exact List.getElem_mem hi
    exact (List.mem_filter.mp hmem).2

end FabricBuilder

end FabricSim
