import FabricSim.Model.Fabric

/-!
# The layout of a built fabric

The `k`-th `connect` becomes two ports, one in the run of either endpoint: the port
at node `u` is in the slot that is as far into the run of `u` as there are half-links
of `u` in the edges before (`slotAt`). Since runs do not meet and a slot belongs to
one edge only, this numbers all ports, and what pairs a port with its twin is the
edge they share.
-/

namespace FabricSim

namespace FabricBuilder

/-! ## Calls -/

inductive Call where
  | addSwitch
  | addHost
  | connect (u v : NodeId) (params : LinkParams)

/-- One call; `none` when an assertion of `connect` fails. -/
def call (b : FabricBuilder) : Call → Option FabricBuilder
  | .addSwitch => some b.addSwitch
  | .addHost => some b.addHost
  | .connect u v params =>
    if u < b.isHost.length ∧ v < b.isHost.length ∧ u ≠ v then some (b.connect u v params) else none

theorem Valid.append (h : Valid b) (kind : Bool) :
    Valid { b with isHost := b.isHost ++ [kind] } := by
  intro e he
  obtain ⟨ha, hb, hne⟩ := h e he
  have hlen : (b.isHost ++ [kind]).length = b.isHost.length + 1 := List.length_append
  refine ⟨ha.trans ?_, hb.trans ?_, hne⟩
  · exact (Nat.lt_succ_self _).trans_eq hlen.symm
  · exact (Nat.lt_succ_self _).trans_eq hlen.symm

theorem Valid.call {b b' : FabricBuilder} (h : b.Valid) {c : Call} (hc : b.call c = some b') :
    b'.Valid := by
  cases c with
  | addSwitch =>
    obtain rfl := Option.some.inj hc
    exact h.append false
  | addHost =>
    obtain rfl := Option.some.inj hc
    exact h.append true
  | connect u v params =>
    unfold FabricBuilder.call at hc
    dsimp only at hc
    split at hc
    · next hends =>
      obtain rfl := Option.some.inj hc
      intro e he
      rcases List.mem_append.mp he with he | he
      · exact h e he
      · rw [List.mem_singleton.mp he]
        exact hends
    · exact absurd hc (by simp)

/-- Every sequence of calls leaves a valid builder. -/
theorem Valid.calls {cs : List Call} {b b' : FabricBuilder} (h : b.Valid)
    (hcs : cs.foldlM FabricBuilder.call b = some b') : b'.Valid := by
  induction cs generalizing b with
  | nil =>
    obtain rfl := Option.some.inj hcs
    exact h
  | cons c cs ih =>
    rw [List.foldlM_cons] at hcs
    obtain ⟨b₁, hfirst, hrest⟩ := Option.bind_eq_some_iff.mp hcs
    exact ih (h.call hfirst) hrest

/-! ## The slots of the edges -/

variable {b : FabricBuilder} {edges : List Edge} {u : NodeId} {k : Nat} {e : Edge}

/-- An endpoint of an edge. -/
def Ends (e : Edge) (u : NodeId) : Prop := u = e.a ∨ u = e.b

instance (e : Edge) (u : NodeId) : Decidable (Ends e u) := by
  unfold Ends
  infer_instance

/-- Where the `k`-th edge comes among the half-links of `u`. -/
def rankAt (edges : List Edge) (k : Nat) (u : NodeId) : Nat := (halfLinks (edges.take k) u).length

/-- The port of the `k`-th edge at `u`. -/
def slotAt (edges : List Edge) (k : Nat) (u : NodeId) : PortId :=
  firstPort edges u + rankAt edges k u

theorem halfLinks_prefix (done todo : List Edge) (u : NodeId) :
    halfLinks done u <+: halfLinks (done ++ todo) u := by
  induction todo using List.reverseRecOn with
  | nil => rw [List.append_nil]
  | append_singleton es e ih =>
    rw [← List.append_assoc, halfLinks_concat]
    exact ih.trans (List.prefix_append _ _)

theorem take_succ_of_getElem? (h : edges[k]? = some e) : edges.take (k + 1) = edges.take k ++ [e] := by
  rw [List.take_add_one, h]
  rfl

theorem rankAt_succ (h : edges[k]? = some e) (u : NodeId) :
    rankAt edges (k + 1) u = rankAt edges k u + if Ends e u then 1 else 0 := by
  unfold rankAt
  rw [take_succ_of_getElem? h, halfLinks_concat, length_addHalf]
  rfl

theorem rankAt_mono (edges : List Edge) {k k' : Nat} (h : k ≤ k') (u : NodeId) :
    rankAt edges k u ≤ rankAt edges k' u := by
  have hsplit : edges.take k ++ (edges.take k').drop k = edges.take k' := by
    conv_rhs => rw [← List.take_append_drop k (edges.take k'), List.take_take, min_eq_left h]
  unfold rankAt
  rw [← hsplit]
  exact length_halfLinks_le _ _ _

theorem rankAt_le (edges : List Edge) (k : Nat) (u : NodeId) : rankAt edges k u ≤ (halfLinks edges u).length := by
  unfold rankAt
  conv_rhs => rw [← List.take_append_drop k edges]
  exact length_halfLinks_le _ _ _

theorem rankAt_lt (h : edges[k]? = some e) (hu : Ends e u) :
    rankAt edges k u < (halfLinks edges u).length := by
  have hle := rankAt_le edges (k + 1) u
  rw [rankAt_succ h, if_pos hu] at hle
  exact hle

/-- Edges with a common endpoint have different ranks there. -/
theorem rankAt_inj {k k' : Nat} {e e' : Edge} (h : edges[k]? = some e) (h' : edges[k']? = some e')
    (hu : Ends e u) (hu' : Ends e' u) (heq : rankAt edges k u = rankAt edges k' u) : k = k' := by
  have hsucc := rankAt_succ h u
  have hsucc' := rankAt_succ h' u
  rw [if_pos hu] at hsucc
  rw [if_pos hu'] at hsucc'
  rcases Nat.lt_trichotomy k k' with hlt | rfl | hlt
  · have hmono : rankAt edges (k + 1) u ≤ rankAt edges k' u := rankAt_mono edges hlt u
    omega
  · rfl
  · have hmono : rankAt edges (k' + 1) u ≤ rankAt edges k u := rankAt_mono edges hlt u
    omega

/-- The half-link of the `k`-th edge at an endpoint. -/
theorem halfLinks_rankAt (h : edges[k]? = some e) (hu : Ends e u) :
    (halfLinks edges u)[rankAt edges k u]? =
      some (if u = e.a then ⟨e.b, rankAt edges k e.b, e.params⟩
        else ⟨e.a, rankAt edges k e.a, e.params⟩) := by
  have hprefix : halfLinks (edges.take (k + 1)) u <+: halfLinks edges u := by
    conv_rhs => rw [← List.take_append_drop (k + 1) edges]
    exact halfLinks_prefix _ _ _
  rw [take_succ_of_getElem? h, halfLinks_concat] at hprefix
  obtain ⟨rest, hrest⟩ := hprefix
  rw [← hrest]
  unfold addHalf rankAt
  rw [List.append_assoc, List.getElem?_append_right (Nat.le_refl _), Nat.sub_self]
  by_cases ha : u = e.a
  · rw [if_pos ha, if_pos ha]
    rfl
  · rw [if_neg ha, if_neg ha, if_pos (hu.resolve_left ha)]
    rfl

/-- Every half-link is some edge's. -/
theorem exists_edge_of_lt {i : Nat} (hi : i < (halfLinks edges u).length) :
    ∃ k e, edges[k]? = some e ∧ Ends e u ∧ i = rankAt edges k u := by
  induction edges using List.reverseRecOn with
  | nil => exact absurd hi (Nat.not_lt_zero i)
  | append_singleton es e ih =>
    rw [halfLinks_concat, length_addHalf] at hi
    rcases Nat.lt_or_ge i (halfLinks es u).length with hlt | hge
    · obtain ⟨k, e', hk, hu, rfl⟩ := ih hlt
      have hklt : k < es.length := (List.getElem?_eq_some_iff.mp hk).1
      refine ⟨k, e', (List.getElem?_append_left hklt).trans hk, hu, ?_⟩
      unfold rankAt
      rw [List.take_append_of_le_length hklt.le]
    · split at hi
      · next hu =>
        refine ⟨es.length, e, List.getElem?_concat_length, hu, ?_⟩
        unfold rankAt
        rw [List.take_left]
        omega
      · omega

/-- The half-links of a node, numbered by the edges that make them. -/
theorem range_halfLinks (c : Nat) (edges : List Edge) (u : NodeId) :
    (List.range (halfLinks edges u).length).map (c + ·) =
      (List.range edges.length).filterMap fun k =>
        (edges[k]?).bind fun e => if Ends e u then some (c + rankAt edges k u) else none := by
  induction edges using List.reverseRecOn with
  | nil => rfl
  | append_singleton es e ih =>
    have hold : ((List.range es.length).filterMap fun k =>
        ((es ++ [e])[k]?).bind fun e' =>
          if Ends e' u then some (c + rankAt (es ++ [e]) k u) else none) =
        (List.range es.length).filterMap fun k =>
          (es[k]?).bind fun e' => if Ends e' u then some (c + rankAt es k u) else none := by
      refine List.filterMap_congr fun k hk => ?_
      have hk := List.mem_range.mp hk
      unfold rankAt
      rw [List.getElem?_append_left hk, List.take_append_of_le_length hk.le]
    have hlast : rankAt (es ++ [e]) es.length u = (halfLinks es u).length := by
      unfold rankAt
      rw [List.take_left]
    rw [List.length_append, List.length_singleton, List.range_succ, List.filterMap_append, hold, ← ih,
      halfLinks_concat, length_addHalf]
    by_cases hu : Ends e u
    · rw [if_pos (show u = e.a ∨ u = e.b from hu), List.range_succ, List.map_append]
      simp [hu, hlast]
    · rw [if_neg (show ¬ (u = e.a ∨ u = e.b) from hu)]
      simp [hu]

/-! ## What `build` makes of them -/

/-- The ports of a node, edge by edge. -/
def portAt (edges : List Edge) (u : NodeId) (k : Nat) : Option PortId :=
  (edges[k]?).bind fun e => if Ends e u then some (slotAt edges k u) else none

/-- What a correct layout of the edges is. -/
structure LaidOut (b : FabricBuilder) (f : Fabric) : Prop where
  nodes : f.nodeCount = b.isHost.length ∧ ∀ u, (f.node u).isHost = b.isHost.getD u false
  portCount : f.portCount = 2 * b.edges.length
  /-- The two ports of a connection point at each other and carry its parameters. -/
  ends : ∀ k e, b.edges[k]? = some e →
    f.port (slotAt b.edges k e.a) = ⟨e.a, e.b, slotAt b.edges k e.b, e.params.rate,
      e.params.propDelayNs, e.params.queueCapacityPkts⟩ ∧
    f.port (slotAt b.edges k e.b) = ⟨e.b, e.a, slotAt b.edges k e.a, e.params.rate,
      e.params.propDelayNs, e.params.queueCapacityPkts⟩
  /-- Every port is one connection's, at one of its endpoints. -/
  owned_once : ∀ p, p < f.portCount ↔ ∃! ku : Nat × NodeId,
    (∃ e, b.edges[ku.1]? = some e ∧ Ends e ku.2) ∧ p = slotAt b.edges ku.1 ku.2
  run : ∀ u, f.portsOf u = (List.range (f.node u).portCount).map ((f.node u).firstPort + ·)
  inOrder : ∀ u, f.portsOf u = (List.range b.edges.length).filterMap (portAt b.edges u)
  owned : ∀ u p, p ∈ f.portsOf u ↔ p < f.portCount ∧ (f.port p).owner = u
  partition : (List.range f.nodeCount).flatMap f.portsOf = List.range f.portCount
  twin : ∀ p, p < f.portCount → (f.port p).peerPort < f.portCount ∧ (f.port p).peerPort ≠ p ∧
    (f.port (f.port p).peerPort).peerPort = p ∧
    (f.port (f.port p).peerPort).owner = (f.port p).peerNode ∧
    (f.port (f.port p).peerPort).peerNode = (f.port p).owner ∧
    (f.port (f.port p).peerPort).rate = (f.port p).rate ∧
    (f.port (f.port p).peerPort).propDelayNs = (f.port p).propDelayNs ∧
    (f.port (f.port p).peerPort).queueCapacity = (f.port p).queueCapacity
  hosts : f.hosts = (List.range f.nodeCount).filter fun u => (f.node u).isHost
  hostIndex : ∀ u, u < f.nodeCount → (f.node u).isHost = true →
    f.hostIndex u < f.hostCount ∧ f.hostAt (f.hostIndex u) = u
  hostAt : ∀ i, i < f.hostCount →
    (f.node (f.hostAt i)).isHost = true ∧ f.hostIndex (f.hostAt i) = i

section Build

variable (h : b.Valid)

include h

theorem build_slotAt {k : Nat} {e : Edge} (hk : b.edges[k]? = some e) {u : NodeId}
    (hu : Ends e u) : b.build.port (slotAt b.edges k u) =
      HalfLink.toPort (firstPort b.edges) u
        (if u = e.a then ⟨e.b, rankAt b.edges k e.b, e.params⟩
          else ⟨e.a, rankAt b.edges k e.a, e.params⟩) := by
  have hget := halfLinks_rankAt hk hu
  obtain ⟨hlt, hget⟩ := List.getElem?_eq_some_iff.mp hget
  rw [← hget]
  exact build_port h u _ hlt

theorem build_ends {k : Nat} {e : Edge} (hk : b.edges[k]? = some e) :
    b.build.port (slotAt b.edges k e.a) = ⟨e.a, e.b, slotAt b.edges k e.b, e.params.rate,
      e.params.propDelayNs, e.params.queueCapacityPkts⟩ ∧
    b.build.port (slotAt b.edges k e.b) = ⟨e.b, e.a, slotAt b.edges k e.a, e.params.rate,
      e.params.propDelayNs, e.params.queueCapacityPkts⟩ := by
  have hne : e.b ≠ e.a := (h.ne e (List.mem_of_getElem? hk)).symm
  rw [build_slotAt h hk (Or.inl rfl), build_slotAt h hk (Or.inr rfl), if_pos rfl, if_neg hne]
  exact ⟨rfl, rfl⟩

theorem slotAt_lt {k : Nat} {e : Edge} (hk : b.edges[k]? = some e) {u : NodeId}
    (hu : Ends e u) : slotAt b.edges k u < b.build.portCount := by
  refine (build_wellFormed h).port_lt u _ ?_
  rw [mem_build_portsOf h]
  have hlt := rankAt_lt hk hu
  exact ⟨rankAt b.edges k u, hlt, rfl, build_port h u _ hlt⟩

theorem exists_slotAt {p : PortId} (hp : p < b.build.portCount) :
    ∃ k e u, b.edges[k]? = some e ∧ Ends e u ∧ p = slotAt b.edges k u := by
  obtain ⟨u, i, -, hi, rfl⟩ := Csr.exists_slot (degree b.edges) hp
  rw [degree_eq h.ne] at hi
  obtain ⟨k, e, hk, hu, rfl⟩ := exists_edge_of_lt hi
  exact ⟨k, e, u, hk, hu, rfl⟩

theorem slotAt_inj {k k' : Nat} {e e' : Edge} (hk : b.edges[k]? = some e)
    (hk' : b.edges[k']? = some e') {u u' : NodeId} (hu : Ends e u) (hu' : Ends e' u')
    (heq : slotAt b.edges k u = slotAt b.edges k' u') : k = k' ∧ u = u' := by
  have hlt := rankAt_lt hk hu
  have hlt' := rankAt_lt hk' hu'
  rw [← degree_eq h.ne] at hlt hlt'
  obtain ⟨rfl, hrank⟩ := Csr.slot_inj (degree b.edges) hlt hlt' heq
  exact ⟨rankAt_inj hk hk' hu hu' hrank, rfl⟩

omit h in
theorem prefixSum_halfLinks {n : Nat} {edges : List Edge}
    (h : ∀ e ∈ edges, e.a < n ∧ e.b < n ∧ e.a ≠ e.b) :
    Csr.prefixSum (fun u => (halfLinks edges u).length) n = 2 * edges.length := by
  induction edges using List.reverseRecOn with
  | nil =>
    induction n with
    | zero => rfl
    | succ n ih => exact ih fun e he => absurd he List.not_mem_nil
  | append_singleton es e ih =>
    obtain ⟨ha, hb, hne⟩ := h e (by simp)
    have hstep : (fun u => (halfLinks (es ++ [e]) u).length) = fun u =>
        ((halfLinks es u).length + if u = e.a then 1 else 0) + if u = e.b then 1 else 0 := by
      funext u
      rw [halfLinks_concat, length_addHalf]
      by_cases h1 : u = e.a
      · have h2 : u ≠ e.b := fun h2 => hne (h1.symm.trans h2)
        rw [if_pos (Or.inl h1), if_pos h1, if_neg h2]
      · rw [if_neg h1]
        simp [h1]
    rw [hstep, Csr.prefixSum_add_one, Csr.prefixSum_add_one, if_pos ha, if_pos hb,
      ih fun e he => h e (List.mem_append_left _ he), List.length_append, List.length_singleton]
    omega

theorem build_portCount : b.build.portCount = 2 * b.edges.length := by
  rw [← prefixSum_halfLinks h]
  show Csr.prefixSum (degree b.edges) _ = _
  rw [funext (degree_eq h.ne)]

omit h in
theorem nodup_hosts (b : FabricBuilder) : b.build.hosts.Nodup := List.Nodup.filter _ List.nodup_range

theorem hostIndex_hostAt {i : Nat} (hi : i < b.build.hostCount) :
    b.build.hostIndex (b.build.hostAt i) = i := by
  have hwf := build_wellFormed h
  have hhost := hwf.isHost_hostAt i hi
  have hlt := hwf.hostIndex_lt _ hhost
  have hback := hwf.hostAt_hostIndex _ hhost
  generalize b.build.hostIndex (b.build.hostAt i) = j at hlt hback ⊢
  unfold Fabric.hostAt at hback
  rw [List.getD_eq_getElem _ _ hlt, List.getD_eq_getElem _ _ hi] at hback
  exact (List.Nodup.getElem_inj_iff (nodup_hosts b)).mp hback

end Build

/-- The fabric that a sequence of calls builds is laid out correctly. -/
theorem build_lays_out (cs : List Call) (b : FabricBuilder)
    (hcs : cs.foldlM call {} = some b) : LaidOut b b.build := by
  have h : b.Valid := Valid.calls (fun e he => absurd he List.not_mem_nil) hcs
  have hwf := build_wellFormed h
  have hcount : ∀ u, (b.build.node u).portCount = (halfLinks b.edges u).length :=
    (places_placed h.ne).claimed
  have hrun : ∀ u, b.build.portsOf u =
      (List.range (b.build.node u).portCount).map ((b.build.node u).firstPort + ·) := by
    intro u
    rw [build_portsOf h, hcount]
    rfl
  refine ⟨⟨rfl, fun _ => rfl⟩, build_portCount h, fun k e => build_ends h, fun p => ⟨?_, ?_⟩, hrun,
    fun u => ?_, fun u p => ⟨fun hp => ⟨hwf.port_lt u p hp, hwf.owner u p hp⟩, ?_⟩, ?_, fun p hp => ?_,
    rfl, fun u _ hu => ⟨hwf.hostIndex_lt u hu, hwf.hostAt_hostIndex u hu⟩,
    fun i hi => ⟨hwf.isHost_hostAt i hi, hostIndex_hostAt h hi⟩⟩
  · intro hp
    obtain ⟨k, e, u, hk, hu, rfl⟩ := exists_slotAt h hp
    refine ⟨(k, u), ⟨⟨e, hk, hu⟩, rfl⟩, ?_⟩
    rintro ⟨k', u'⟩ ⟨⟨e', hk', hu'⟩, heq⟩
    obtain ⟨rfl, rfl⟩ := slotAt_inj h hk hk' hu hu' heq
    rfl
  · rintro ⟨ku, ⟨⟨e, hk, hu⟩, rfl⟩, -⟩
    exact slotAt_lt h hk hu
  · rw [build_portsOf h]
    exact range_halfLinks _ _ _
  · rintro ⟨hp, rfl⟩
    obtain ⟨k, e, u, hk, hu, rfl⟩ := exists_slotAt h hp
    have hlt := rankAt_lt hk hu
    rw [build_slotAt h hk hu]
    exact (mem_build_portsOf h).mpr ⟨rankAt b.edges k u, hlt, rfl, build_port h u _ hlt⟩
  · have hdegree : ∀ u, b.build.portsOf u =
        (List.range (degree b.edges u)).map (Csr.prefixSum (degree b.edges) u + ·) := by
      intro u
      rw [build_portsOf h, ← degree_eq h.ne]
      rfl
    rw [List.flatMap_congr fun u _ => hdegree u]
    exact Csr.flatMap_runs _ _
  · obtain ⟨k, e, u, hk, hu, rfl⟩ := exists_slotAt h hp
    obtain ⟨ha, hb⟩ := build_ends h hk
    have hne := h.ne e (List.mem_of_getElem? hk)
    have hslots : slotAt b.edges k e.a ≠ slotAt b.edges k e.b :=
      fun heq => hne (slotAt_inj h hk hk (Or.inl rfl) (Or.inr rfl) heq).2
    rcases hu with rfl | rfl
    · rw [ha]
      dsimp only
      rw [hb]
      exact ⟨slotAt_lt h hk (Or.inr rfl), hslots.symm, rfl, rfl, rfl, rfl, rfl, rfl⟩
    · rw [hb]
      dsimp only
      rw [ha]
      exact ⟨slotAt_lt h hk (Or.inl rfl), hslots, rfl, rfl, rfl, rfl, rfl, rfl⟩

/-- A switch between two hosts, with two links to one of them. -/
theorem build_lays_out_three : LaidOut
    (((([Call.addHost, .addSwitch, .addHost, .connect 0 1 {}, .connect 1 2 {},
      .connect 1 0 {}] : List Call).foldlM call {}).get (by decide)))
    ((([Call.addHost, .addSwitch, .addHost, .connect 0 1 {}, .connect 1 2 {},
      .connect 1 0 {}] : List Call).foldlM call {}).get (by decide)).build :=
  build_lays_out _ _ (Option.some_get _).symm

end FabricBuilder

end FabricSim
