import FabricSim.Lib.Digits
import FabricSim.Model.Fabric

/-!
# Fabrics that number their switches first

Both topologies create all switches before the first host, so node `m + h` is
host `h` when there are `m` switches. Ports are counted from the edge list
(`portCount_eq`): a host named by exactly one edge has one port.
-/

namespace FabricSim

namespace FabricBuilder

variable {b : FabricBuilder}

/-- A loop whose every turn appends some edges. -/
theorem foldl_edges {α : Type} {step : FabricBuilder → α → FabricBuilder} {es : α → List Edge}
    {l : List α} (h : ∀ x ∈ l, ∀ b, step b x = { b with edges := b.edges ++ es x })
    (b : FabricBuilder) : l.foldl step b = { b with edges := b.edges ++ l.flatMap es } := by
  induction l generalizing b with
  | nil => simp
  | cons x l ih =>
    rw [List.foldl_cons, ih (fun y hy => h y (List.mem_cons_of_mem _ hy)),
      h x (List.mem_cons_self ..), List.flatMap_cons, List.append_assoc]

/-- A loop that connects one pair of nodes a turn. -/
theorem foldl_connect {α : Type} (u v : α → NodeId) (link : LinkParams) (l : List α)
    (b : FabricBuilder) :
    l.foldl (fun b x => b.connect (u x) (v x) link) b =
      { b with edges := b.edges ++ l.map fun x => ⟨u x, v x, link⟩ } := by
  have hstep : ∀ x ∈ l, ∀ b : FabricBuilder,
      b.connect (u x) (v x) link = { b with edges := b.edges ++ [⟨u x, v x, link⟩] } :=
    fun _ _ _ => rfl
  rw [foldl_edges hstep, ← List.map_eq_flatMap]

/-- `m` switches, then `n` hosts. -/
def SwitchesFirst (b : FabricBuilder) (m n : Nat) : Prop :=
  b.isHost = List.replicate m false ++ List.replicate n true

theorem length_halfLinks (edges : List Edge) (u : NodeId) :
    (halfLinks edges u).length = edges.countP fun e => u = e.a ∨ u = e.b := by
  induction edges using List.reverseRecOn with
  | nil => rfl
  | append_singleton es e ih =>
    rw [halfLinks_concat, length_addHalf, ih, List.countP_append, List.countP_singleton]
    simp only [decide_eq_true_eq]

theorem portCount_eq (h : b.Valid) (u : NodeId) :
    (b.build.node u).portCount = b.edges.countP fun e => u = e.a ∨ u = e.b := by
  rw [← length_halfLinks]
  exact (places_placed h.ne).claimed u

/-- A half-link is one end of an edge. -/
theorem source_halfLinks (edges : List Edge) (u : NodeId) {l : HalfLink}
    (hl : l ∈ halfLinks edges u) :
    ∃ e ∈ edges, l.params = e.params ∧ (u = e.a ∧ l.peer = e.b ∨ u = e.b ∧ l.peer = e.a) := by
  induction edges using List.reverseRecOn with
  | nil => exact absurd hl List.not_mem_nil
  | append_singleton es e ih =>
    rw [halfLinks_concat] at hl
    unfold addHalf at hl
    rcases List.mem_append.mp hl with hl | hl
    · obtain ⟨e', he', hp⟩ := ih hl
      exact ⟨e', List.mem_append_left _ he', hp⟩
    · refine ⟨e, by simp, ?_⟩
      split at hl
      · next ha =>
        rw [List.mem_singleton.mp hl]
        exact ⟨rfl, Or.inl ⟨ha, rfl⟩⟩
      · split at hl
        · next hb =>
          rw [List.mem_singleton.mp hl]
          exact ⟨rfl, Or.inr ⟨hb, rfl⟩⟩
        · exact absurd hl List.not_mem_nil

/-- A port is one end of an edge. -/
theorem port_source (h : b.Valid) {u : NodeId} {p : PortId} (hp : p ∈ b.build.portsOf u) :
    ∃ e ∈ b.edges, ((b.build.port p).rate = e.params.rate ∧
      (b.build.port p).propDelayNs = e.params.propDelayNs ∧
      (b.build.port p).queueCapacity = e.params.queueCapacityPkts) ∧
      (u = e.a ∧ (b.build.port p).peerNode = e.b ∨ u = e.b ∧ (b.build.port p).peerNode = e.a) := by
  obtain ⟨k, hk, -, hport⟩ := (mem_build_portsOf h).mp hp
  obtain ⟨e, he, hparams, hends⟩ := source_halfLinks b.edges u (List.getElem_mem hk)
  refine ⟨e, he, ?_, ?_⟩
  · rw [hport]
    unfold HalfLink.toPort
    dsimp only
    rw [hparams]
    exact ⟨rfl, rfl, rfl⟩
  · rw [hport]
    exact hends

/-- Equal edges make equal ports. -/
theorem build_params (h : b.Valid) {link : LinkParams} (hall : ∀ e ∈ b.edges, e.params = link)
    {p : PortId} (hp : p < b.build.portCount) :
    (b.build.port p).rate = link.rate ∧ (b.build.port p).propDelayNs = link.propDelayNs ∧
      (b.build.port p).queueCapacity = link.queueCapacityPkts := by
  obtain ⟨u, k, -, hk, rfl⟩ := Csr.exists_slot (degree b.edges) hp
  rw [degree_eq h.ne] at hk
  obtain ⟨e, he, hparams, -⟩ := port_source h
    ((mem_build_portsOf h).mpr ⟨k, hk, rfl, build_port h u k hk⟩)
  rw [hall e he] at hparams
  exact hparams

/-- The node an edge of `u` leads to. -/
def otherEnd (u : NodeId) (e : Edge) : Option NodeId :=
  if u = e.a then some e.b else if u = e.b then some e.a else none

theorem otherEnd_left {u v : NodeId} {link : LinkParams} :
    otherEnd u ⟨u, v, link⟩ = some v := if_pos rfl

theorem otherEnd_right {u v : NodeId} {link : LinkParams} (h : v ≠ u) :
    otherEnd v ⟨u, v, link⟩ = some u := (if_neg h).trans (if_pos rfl)

theorem otherEnd_none {w u v : NodeId} {link : LinkParams} (hu : w ≠ u) (hv : w ≠ v) :
    otherEnd w ⟨u, v, link⟩ = none := (if_neg hu).trans (if_neg hv)

theorem peers_halfLinks (edges : List Edge) (u : NodeId) :
    (halfLinks edges u).map HalfLink.peer = edges.filterMap (otherEnd u) := by
  induction edges using List.reverseRecOn with
  | nil => rfl
  | append_singleton es e ih =>
    rw [halfLinks_concat, List.filterMap_append, ← ih]
    unfold addHalf
    rw [List.map_append]
    congr 1
    by_cases ha : u = e.a
    · have ho : otherEnd u e = some e.b := if_pos ha
      rw [if_pos ha, List.filterMap_cons_some ho]
      rfl
    · by_cases hb : u = e.b
      · have ho : otherEnd u e = some e.a := (if_neg ha).trans (if_pos hb)
        rw [if_neg ha, if_pos hb, List.filterMap_cons_some ho]
        rfl
      · have ho : otherEnd u e = none := (if_neg ha).trans (if_neg hb)
        rw [if_neg ha, if_neg hb, List.filterMap_cons_none ho]
        rfl

/-- The neighbours of a node, in port order, are read off the edge list. -/
theorem neighbours_eq (h : b.Valid) (u : NodeId) :
    b.build.neighbours u = b.edges.filterMap (otherEnd u) := by
  rw [← peers_halfLinks]
  unfold Fabric.neighbours
  rw [build_portsOf h, List.map_map]
  refine List.ext_getElem (by simp) fun k hk hk' => ?_
  rw [List.getElem_map, List.getElem_map, List.getElem_range, Function.comp_apply,
    build_port h u k (by simpa using hk')]
  rfl

/-- A port is followed to the neighbour of its rank. -/
theorem peer_of_neighbours (h : b.Valid) {u v : NodeId} {i : Nat}
    (hv : (b.build.neighbours u)[i]? = some v) :
    firstPort b.edges u + i ∈ b.build.portsOf u ∧
      (b.build.port (firstPort b.edges u + i)).peerNode = v := by
  unfold Fabric.neighbours at hv
  rw [build_portsOf h, List.map_map, List.getElem?_map] at hv
  obtain ⟨j, hj, hpeer⟩ := Option.map_eq_some_iff.mp hv
  obtain ⟨hlt, hval⟩ := List.getElem?_eq_some_iff.mp hj
  rw [List.getElem_range] at hval
  subst hval
  refine ⟨?_, hpeer⟩
  rw [build_portsOf h]
  exact List.mem_map_of_mem (List.mem_range.mpr (by rwa [List.length_range] at hlt))

theorem degree_neighbours (h : b.Valid) (u : NodeId) :
    degree b.edges u = (b.build.neighbours u).length := by
  rw [degree_eq h.ne]
  unfold Fabric.neighbours
  rw [build_portsOf h, List.length_map, List.length_map, List.length_range]

/-- The only port of a node with one neighbour. -/
theorem portsOf_single (h : b.Valid) {u v : NodeId} (hv : b.build.neighbours u = [v]) :
    b.build.portsOf u = [firstPort b.edges u] := by
  have hone := degree_neighbours h u
  rw [degree_eq h.ne, hv] at hone
  rw [build_portsOf h, hone]
  rfl

variable {m n : Nat}

theorem SwitchesFirst.nodeCount (h : b.SwitchesFirst m n) : b.build.nodeCount = m + n := by
  show b.isHost.length = m + n
  rw [h, List.length_append, List.length_replicate, List.length_replicate]

theorem SwitchesFirst.isHost_iff (h : b.SwitchesFirst m n) (u : Nat) :
    (b.build.node u).isHost = true ↔ m ≤ u ∧ u < m + n := by
  show b.isHost.getD u false = true ↔ _
  rw [h, List.getD_eq_getElem?_getD, List.getElem?_append, List.length_replicate]
  split
  · next hu =>
    rw [List.getElem?_replicate_of_lt hu]
    simp only [Option.getD_some, Bool.false_eq_true, false_iff, not_and, not_lt]
    intro hm
    omega
  · next hu =>
    rw [List.getElem?_replicate]
    split
    · simp only [Option.getD_some, true_iff]
      omega
    · simp only [Option.getD_none, Bool.false_eq_true, false_iff]
      omega

theorem SwitchesFirst.hosts (h : b.SwitchesFirst m n) :
    b.build.hosts = (List.range n).map (m + ·) := by
  show (List.range b.isHost.length).filter (fun u => b.isHost.getD u false) = _
  have hlen : b.isHost.length = m + n := h.nodeCount
  have hhost : ∀ u, b.isHost.getD u false = decide (m ≤ u ∧ u < m + n) := by
    intro u
    have := h.isHost_iff u
    rw [Bool.eq_iff_iff, decide_eq_true_eq]
    exact this
  simp only [hhost]
  rw [hlen, List.range_add, List.filter_append]
  have hlow : (List.range m).filter (fun u => decide (m ≤ u ∧ u < m + n)) = [] := by
    rw [List.filter_eq_nil_iff]
    intro u hu
    have := List.mem_range.mp hu
    simp
    omega
  have hhigh : ((List.range n).map (m + ·)).filter (fun u => decide (m ≤ u ∧ u < m + n)) =
      (List.range n).map (m + ·) := by
    rw [List.filter_eq_self]
    intro u hu
    obtain ⟨i, hi, rfl⟩ := List.mem_map.mp hu
    have := List.mem_range.mp hi
    simp
    omega
  rw [hlow, hhigh, List.nil_append]

theorem SwitchesFirst.hostCount (h : b.SwitchesFirst m n) : b.build.hostCount = n := by
  unfold Fabric.hostCount
  rw [h.hosts, List.length_map, List.length_range]

theorem SwitchesFirst.hostAt (h : b.SwitchesFirst m n) {i : Nat} (hi : i < n) :
    b.build.hostAt i = m + i := by
  unfold Fabric.hostAt
  rw [h.hosts, List.getD_eq_getElem _ _ (by simpa using hi)]
  simp

theorem SwitchesFirst.hostIndex (h : b.SwitchesFirst m n) (hv : b.Valid) {i : Nat} (hi : i < n) :
    b.build.hostIndex (m + i) = i := by
  have hhost : (b.build.node (m + i)).isHost = true :=
    (h.isHost_iff (m + i)).mpr ⟨Nat.le_add_right _ _, Nat.add_lt_add_left hi _⟩
  have hwf := build_wellFormed hv
  have hlt := hwf.hostIndex_lt _ hhost
  rw [h.hostCount] at hlt
  have hback := hwf.hostAt_hostIndex _ hhost
  rw [h.hostAt hlt] at hback
  exact Nat.add_left_cancel hback

/-- A host with one neighbour, as the builder lays it out. -/
theorem node_single (h : b.Valid) {u v : NodeId} {p : PortId} (hhost : (b.build.node u).isHost = true)
    (hv : b.build.neighbours u = [v]) (hp : firstPort b.edges u = p) :
    b.build.node u = ⟨p, 1, true⟩ ∧ b.build.portsOf u = [p] := by
  have hcount := congrArg List.length hv
  unfold Fabric.neighbours Fabric.portsOf at hcount
  rw [List.length_map, List.length_map, List.length_range] at hcount
  refine ⟨?_, hp ▸ portsOf_single h hv⟩
  have hfirst : (b.build.node u).firstPort = p := hp
  rw [← hfirst, ← hhost]
  exact congrArg (fun c => (⟨(b.build.node u).firstPort, c, (b.build.node u).isHost⟩ : Node)) hcount

end FabricBuilder

/-! ## A fabric with entries written out

What a run of a few packets looks up in a large fabric, so that the run can be computed. -/

namespace Fabric

/-- Hosts with their ports, switches, and links of one kind with the nodes they lead to. -/
def written (f : Fabric) (link : LinkParams) (hosts : List (NodeId × PortId))
    (switches : List NodeId) (links : List (PortId × NodeId)) : Fabric :=
  { f with
    node := fun u =>
      match hosts.lookup u with
      | some p => ⟨p, 1, true⟩
      | none => if u ∈ switches then { f.node u with isHost := false } else f.node u
    port := fun p =>
      match links.lookup p with
      | some v =>
        { f.port p with
          peerNode := v
          rate := link.rate
          propDelayNs := link.propDelayNs
          queueCapacity := link.queueCapacityPkts }
      | none => f.port p
    portIds := fun i => if i ∈ hosts.map Prod.snd then i else f.portIds i }

/-- The fabric has them. -/
structure Shows (f : Fabric) (link : LinkParams) (hosts : List (NodeId × PortId))
    (switches : List NodeId) (links : List (PortId × NodeId)) : Prop where
  hosts : ∀ x ∈ hosts, f.node x.1 = ⟨x.2, 1, true⟩ ∧ f.portsOf x.1 = [x.2]
  switches : ∀ u ∈ switches, (f.node u).isHost = false
  links : ∀ x ∈ links, (f.port x.1).peerNode = x.2 ∧ (f.port x.1).rate = link.rate ∧
    (f.port x.1).propDelayNs = link.propDelayNs ∧
    (f.port x.1).queueCapacity = link.queueCapacityPkts

section Shows

variable {f : Fabric} {link : LinkParams} {hosts : List (NodeId × PortId)}
  {switches : List NodeId} {links : List (PortId × NodeId)} {u : NodeId} {p : PortId}

theorem Shows.empty : f.Shows link [] [] [] :=
  ⟨fun _ h => absurd h List.not_mem_nil, fun _ h => absurd h List.not_mem_nil,
    fun _ h => absurd h List.not_mem_nil⟩

theorem Shows.consHost (h : f.Shows link hosts switches links)
    (hnode : f.node u = ⟨p, 1, true⟩ ∧ f.portsOf u = [p]) :
    f.Shows link ((u, p) :: hosts) switches links :=
  ⟨List.forall_mem_cons.mpr ⟨hnode, h.hosts⟩, h.switches, h.links⟩

theorem Shows.consSwitch (h : f.Shows link hosts switches links) (hnode : (f.node u).isHost = false) :
    f.Shows link hosts (u :: switches) links :=
  ⟨h.hosts, List.forall_mem_cons.mpr ⟨hnode, h.switches⟩, h.links⟩

theorem Shows.consLink (h : f.Shows link hosts switches links)
    (hport : (f.port p).peerNode = u ∧ (f.port p).rate = link.rate ∧
      (f.port p).propDelayNs = link.propDelayNs ∧
      (f.port p).queueCapacity = link.queueCapacityPkts) :
    f.Shows link hosts switches ((p, u) :: links) :=
  ⟨h.hosts, h.switches, List.forall_mem_cons.mpr ⟨hport, h.links⟩⟩

end Shows

theorem mem_of_lookup {l : List (Nat × Nat)} {k v : Nat} (h : l.lookup k = some v) : (k, v) ∈ l := by
  obtain ⟨l₁, l₂, rfl, -⟩ := List.lookup_eq_some_iff.mp h
  exact List.mem_append_right _ (List.mem_cons_self ..)

/-- Nothing changes where what is written was there. -/
theorem Shows.written_eq {f : Fabric} {link : LinkParams} {hosts : List (NodeId × PortId)}
    {switches : List NodeId} {links : List (PortId × NodeId)}
    (h : f.Shows link hosts switches links) : f.written link hosts switches links = f := by
  have hnode : (f.written link hosts switches links).node = f.node := by
    funext u
    unfold written
    dsimp only
    split
    · next p hp => exact (h.hosts _ (mem_of_lookup hp)).1.symm
    · split
      · next hu => rw [← h.switches u hu]
      · rfl
  have hport : (f.written link hosts switches links).port = f.port := by
    funext p
    unfold written
    dsimp only
    split
    · next v hv =>
      obtain ⟨hpeer, hrate, hprop, hqueue⟩ := h.links _ (mem_of_lookup hv)
      dsimp only at hpeer hrate hprop hqueue
      rw [← hpeer, ← hrate, ← hprop, ← hqueue]
    · rfl
  have hids : (f.written link hosts switches links).portIds = f.portIds := by
    funext i
    unfold written
    dsimp only
    split
    · next hi =>
      obtain ⟨x, hx, rfl⟩ := List.mem_map.mp hi
      obtain ⟨hn, hp⟩ := h.hosts x hx
      unfold portsOf at hp
      rw [hn] at hp
      exact (List.head_eq_of_cons_eq hp).symm
    · rfl
  calc f.written link hosts switches links
      = ⟨f.nodeCount, (f.written link hosts switches links).node, f.portCount,
          (f.written link hosts switches links).port,
          (f.written link hosts switches links).portIds, f.hosts, f.hostIndex⟩ := rfl
    _ = f := by rw [hnode, hport, hids]

end Fabric

end FabricSim
