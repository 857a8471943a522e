import FabricSim.Topology.FatTreePaths

/-!
# The table of a fat tree, row by row

A core switch has one entry for each host. An aggregation switch has one for each host of
its pod and all its uplinks for each other, and an edge switch likewise with its own hosts.
So every row has its place (`place_agg`, `place_edge`). Where that is past `2 ^ 32` the
packed table reads another node's cell; when it is one of a core switch,
`head_candidates_low` says which port it finds there.
-/

namespace FabricSim

open FabricBuilder Finset

namespace FatTree

section Table

variable {cfg : FatTreeConfig} {n : Nat} (hn : 0 < n)

include hn

/-! ## Ports -/

omit hn in
theorem core_digits (c : Nat) : core n (c / n) (c % n) = c := Nat.div_add_mod' c n

theorem degree_switch {u : Nat} (hu : u < switchCount n) :
    degree (builder cfg n).edges u = 2 * n := by
  have hcount := @portCount_eq cfg n hn _ (Nat.lt_add_right (hostCount n) hu)
  rw [if_pos hu] at hcount
  rw [degree_neighbours (valid hn), ← hcount]
  unfold Fabric.neighbours Fabric.portsOf
  rw [List.length_map, List.length_map, List.length_range]

/-- The ports before those of a switch. -/
theorem firstPort_switch {u : Nat} (hu : u ≤ switchCount n) :
    firstPort (builder cfg n).edges u = u * (2 * n) := by
  have hdegree : ∀ v ∈ range u, degree (builder cfg n).edges v = 2 * n := fun v hv =>
    degree_switch hn ((mem_range.mp hv).trans_le hu)
  unfold firstPort
  rw [prefixSum_eq_sum, sum_congr rfl hdegree, sum_const, card_range, smul_eq_mul]

/-- The ports before that of a host. -/
theorem firstPort_host {h : Nat} (hh : h < hostCount n) :
    firstPort (builder cfg n).edges (host n h) = switchCount n * (2 * n) + h := by
  have hdegree : ∀ i ∈ range h, degree (builder cfg n).edges (switchCount n + i) = 1 := by
    intro i hi
    rw [degree_neighbours (valid hn)]
    exact congrArg List.length (neighbours_host hn ((mem_range.mp hi).trans hh))
  have hswitches := @firstPort_switch cfg n hn _ le_rfl
  unfold firstPort at hswitches ⊢
  rw [prefixSum_eq_sum] at hswitches ⊢
  unfold host
  rw [sum_range_add, sum_congr rfl hdegree, hswitches]
  simp

/-- The port of a core switch to a pod. -/
theorem peer_core {c pod : Nat} (hc : c < n * n) (hpod : pod < 2 * n) :
    c * (2 * n) + pod ∈ (builder cfg n).build.portsOf c ∧
      ((builder cfg n).build.port (c * (2 * n) + pod)).peerNode = agg n pod (c / n) := by
  have hrow : c / n < n := (Nat.div_lt_iff_lt_mul hn).mpr hc
  have hall := @neighbours_core cfg n hn _ _ hrow (Nat.mod_lt c hn)
  rw [core_digits] at hall
  have hat : ((builder cfg n).build.neighbours c)[pod]? = some (agg n pod (c / n)) := by
    rw [hall, List.getElem?_map, List.getElem?_range hpod]
    rfl
  have hpeer := peer_of_neighbours (valid hn) hat
  rwa [firstPort_switch hn (hc.le.trans (square_le_switchCount n))] at hpeer

/-- The first ports are those of the core switches. -/
theorem peer_low {p : PortId} (hp : p < n * n * (2 * n)) :
    p ∈ (builder cfg n).build.portsOf (p / (2 * n)) ∧
      ((builder cfg n).build.port p).peerNode = agg n (p % (2 * n)) (p / (2 * n) / n) := by
  have hpos : 0 < 2 * n := by omega
  have hpeer := @peer_core cfg n hn _ _ ((Nat.div_lt_iff_lt_mul hpos).mpr hp)
    (Nat.mod_lt p hpos)
  rwa [Nat.div_add_mod'] at hpeer

omit hn in
/-- Hosts and their ports. -/
def hostPorts (n : Nat) (hosts : List Nat) : List (NodeId × PortId) :=
  hosts.map fun h => (host n h, switchCount n * (2 * n) + h)

omit hn in
/-- Where the ports of hosts and of core switches lead. -/
def peers (n : Nat) (hosts : List Nat) (low : List PortId) : List (PortId × NodeId) :=
  (hosts.map fun h => (switchCount n * (2 * n) + h, edge n (podOf n h) (edgeOf n h))) ++
    low.map fun p => (p, agg n (p % (2 * n)) (p / (2 * n) / n))

/-- What of a fat tree of equal links can be written out. -/
theorem shows {link : LinkParams} (hhost : cfg.hostLink = link) (hfabric : cfg.fabricLink = link)
    {hosts : List Nat} {switches : List NodeId} {low : List PortId}
    (hhosts : ∀ h ∈ hosts, h < hostCount n) (hswitches : ∀ u ∈ switches, u < switchCount n)
    (hlow : ∀ p ∈ low, p < n * n * (2 * n)) :
    (builder cfg n).build.Shows link (hostPorts n hosts) switches (peers n hosts low) := by
  have hfirst : (builder cfg n).SwitchesFirst (switchCount n) (hostCount n) := switchesFirst
  have hparams : ∀ {u p}, p ∈ (builder cfg n).build.portsOf u → _ := fun hp =>
    links_alike hn hhost hfabric ((wellFormed hn cfg).port_lt _ _ hp)
  refine ⟨fun x hx => ?_, fun u hu => ?_, fun x hx => ?_⟩
  · obtain ⟨h, hh, rfl⟩ := List.mem_map.mp hx
    have hin := hhosts h hh
    have hhost := (hfirst.isHost_iff (host n h)).mpr ⟨le_host h, Nat.add_lt_add_left hin _⟩
    exact node_single (valid hn) hhost (neighbours_host hn hin) (firstPort_host hn hin)
  · rw [Bool.eq_false_iff, Ne, hfirst.isHost_iff]
    exact fun h => absurd (hswitches u hu) (not_lt.mpr h.1)
  · rcases List.mem_append.mp hx with hx | hx
    · obtain ⟨h, hh, rfl⟩ := List.mem_map.mp hx
      have hin := hhosts h hh
      have hpeer := peer_of_neighbours (u := host n h) (i := 0) (valid hn) (by
        rw [@neighbours_host cfg n hn _ hin]
        rfl)
      rw [firstPort_host hn hin, Nat.add_zero] at hpeer
      exact ⟨hpeer.2, hparams hpeer.1⟩
    · obtain ⟨p, hp, rfl⟩ := List.mem_map.mp hx
      have hpeer := @peer_low cfg n hn _ (hlow p hp)
      exact ⟨hpeer.2, hparams hpeer.1⟩

/-! ## Cells -/

theorem map_peer_nextHopsTo {t u : Nat} (ht : t < hostCount n)
    (hu : u < switchCount n + hostCount n) :
    (RouteTable.nextHopsTo (builder cfg n).build u t).map
      (fun p => ((builder cfg n).build.port p).peerNode) = closer cfg n t u := by
  have hwf := wellFormed hn cfg
  have hvalid : (builder cfg n).Valid := valid hn
  have hnodes : (builder cfg n).build.nodeCount = switchCount n + hostCount n :=
    switchesFirst.nodeCount
  have hhosts : (builder cfg n).build.hostCount = hostCount n := switchesFirst.hostCount
  have hat : (builder cfg n).build.hostAt t = host n t := switchesFirst.hostAt ht
  rw [RouteTable.map_peer_nextHopsTo hvalid (connected hn) (by rw [hnodes]; exact hu)
    (by rw [hhosts]; exact ht)]
  refine List.filter_congr fun v hv => ?_
  have hlt := hwf.linked_lt v u ((hwf.adj_iff v u).mp ((hwf.adj_iff_mem u v).mpr hv).symm)
  rw [hnodes] at hlt
  rw [hat, (dist_eq_hopsTo hn ht hlt).2, (dist_eq_hopsTo hn ht hu).2]

/-- From a core switch the port to the pod of the host. -/
theorem nextHopsTo_core {c t : Nat} (hc : c < n * n) (ht : t < hostCount n) :
    RouteTable.nextHopsTo (builder cfg n).build c t = [c * (2 * n) + podOf n t] := by
  have hrow : c / n < n := (Nat.div_lt_iff_lt_mul hn).mpr hc
  have hswitch := hc.trans_le (square_le_switchCount n)
  have hall := @neighbours_core cfg n hn _ _ hrow (Nat.mod_lt c hn)
  have hdown := @closer_core cfg n hn _ _ _ ht hrow (Nat.mod_lt c hn)
  rw [core_digits] at hall hdown
  have hcell := @map_peer_nextHopsTo cfg n hn _ _ ht (Nat.lt_add_right _ hswitch)
  rw [hdown] at hcell
  rw [← @firstPort_switch cfg n hn _ hswitch.le]
  refine RouteTable.nextHopsTo_single (valid hn) hcell fun j hj => ?_
  rw [hall, List.getElem?_map] at hj
  obtain ⟨pod, hpod, heq⟩ := Option.map_eq_some_iff.mp hj
  obtain ⟨hlt, hval⟩ := List.getElem?_eq_some_iff.mp hpod
  rw [List.getElem_range] at hval
  exact hval.trans (agg_inj hrow hrow heq).1

omit hn in
/-- The length of a cell. -/
def cellLength (cfg : FatTreeConfig) (n c : Nat) : Nat :=
  (RouteTable.perCell (builder cfg n).build c).length

theorem cellLength_eq {t u : Nat} (ht : t < hostCount n) (hu : u < switchCount n + hostCount n) :
    cellLength cfg n (u * hostCount n + t) = (closer cfg n t u).length := by
  have hnodes : (builder cfg n).build.nodeCount = switchCount n + hostCount n :=
    switchesFirst.nodeCount
  have hhosts : (builder cfg n).build.hostCount = hostCount n := switchesFirst.hostCount
  have hcell := RouteTable.perCell_eq_nextHopsTo (builder cfg n).build (u := u) (h := t)
    (by rw [hnodes]; exact hu) (by rw [hhosts]; exact ht)
  rw [hhosts] at hcell
  have hlength := congrArg List.length (@map_peer_nextHopsTo cfg n hn _ _ ht hu)
  rw [List.length_map] at hlength
  unfold cellLength
  rw [hcell, hlength]

theorem cellLength_agg {t pod a : Nat} (ht : t < hostCount n) (hpod : pod < 2 * n) (ha : a < n) :
    cellLength cfg n (agg n pod a * hostCount n + t) = if t / (n * n) = pod then 1 else n := by
  rw [cellLength_eq hn ht (Nat.lt_add_right _ (agg_lt hpod ha))]
  by_cases hhome : podOf n t = pod
  · subst hhome
    rw [closer_agg_home hn ht ha]
    exact (if_pos rfl).symm
  · rw [closer_agg_away hn hpod (Ne.symm hhome) ha, List.length_map, List.length_range]
    exact (if_neg hhome).symm

theorem cellLength_edge {t pod e : Nat} (ht : t < hostCount n) (hpod : pod < 2 * n) (he : e < n) :
    cellLength cfg n (edge n pod e * hostCount n + t) = if t / n = pod * n + e then 1 else n := by
  rw [cellLength_eq hn ht (Nat.lt_add_right _ (edge_lt hpod he)), div_eq_digits t]
  by_cases hhome : pod = podOf n t ∧ e = edgeOf n t
  · obtain ⟨rfl, rfl⟩ := hhome
    rw [if_pos rfl, closer_edge_home hn ht]
    rfl
  · rw [closer_edge_away hn hpod he hhome, List.length_map, List.length_range, if_neg]
    intro heq
    obtain ⟨hp, hx⟩ := digits_inj (edgeOf_lt' hn t) he heq
    exact hhome ⟨hp.symm, hx.symm⟩

/-! ## Rows -/

omit hn in
/-- The entries of an aggregation switch. -/
def aggRow (n : Nat) : Nat := n * n + (2 * n - 1) * (n * n * n)

omit hn in
/-- The entries of an edge switch. -/
def edgeRow (n : Nat) : Nat := n + (2 * n * n - 1) * (n * n)

/-- The cells of the core switches come first and hold one entry each. -/
theorem place_low {m : Nat} (hm : m ≤ n * n * hostCount n) :
    Csr.prefixSum (cellLength cfg n) m = m := by
  have hpos := hostCount_pos hn
  have hone : ∀ x ∈ range m, cellLength cfg n x = 1 := by
    intro x hx
    -- cell `x` is that of core switch `x / hostCount n`, whose way down is the only one
    have hnode : x / hostCount n < n * n :=
      (Nat.div_lt_iff_lt_mul hpos).mpr ((mem_range.mp hx).trans_le hm)
    have hswitch := hnode.trans_le (square_le_switchCount n)
    have hhost : x % hostCount n < hostCount n := Nat.mod_lt x hpos
    have hcell := @cellLength_eq cfg n hn _ _ hhost (Nat.lt_add_right _ hswitch)
    have hrow : x / hostCount n / n < n := (Nat.div_lt_iff_lt_mul hn).mpr hnode
    have hdown := @closer_core cfg n hn _ _ _ hhost hrow (Nat.mod_lt (x / hostCount n) hn)
    rw [core_digits] at hdown
    rw [Nat.div_add_mod', hdown] at hcell
    exact hcell
  rw [prefixSum_eq_sum, sum_congr rfl hone, sum_const, card_range, smul_eq_mul, Nat.mul_one]

theorem row_agg {pod a : Nat} (hpod : pod < 2 * n) (ha : a < n) :
    ∑ t ∈ range (hostCount n), cellLength cfg n (agg n pod a * hostCount n + t) = aggRow n := by
  rw [sum_congr rfl fun t ht => cellLength_agg hn (mem_range.mp ht) hpod ha]
  unfold hostCount aggRow
  rw [sum_range_block hpod, Nat.mul_one]

theorem row_edge {pod e : Nat} (hpod : pod < 2 * n) (he : e < n) :
    ∑ t ∈ range (hostCount n), cellLength cfg n (edge n pod e * hostCount n + t) = edgeRow n := by
  have hblock : pod * n + e < 2 * n * n := Digits.block_lt hpod he
  rw [sum_congr rfl fun t ht => cellLength_edge hn (mem_range.mp ht) hpod he]
  unfold hostCount edgeRow
  rw [← Nat.mul_assoc, sum_range_block hblock, Nat.mul_one]

/-- The entries of the first switches of a pod. -/
theorem rows_pod {pod e : Nat} (hpod : pod < 2 * n) (he : e ≤ n) :
    ∑ x ∈ range (n + e), ∑ t ∈ range (hostCount n),
      cellLength cfg n ((n * n + (pod * (2 * n) + x)) * hostCount n + t) =
        n * aggRow n + e * edgeRow n := by
  have haggs : ∀ a ∈ range n, ∑ t ∈ range (hostCount n),
      cellLength cfg n ((n * n + (pod * (2 * n) + a)) * hostCount n + t) = aggRow n :=
    fun a ha => row_agg hn hpod (mem_range.mp ha)
  have hedges : ∀ x ∈ range e, ∑ t ∈ range (hostCount n),
      cellLength cfg n ((n * n + (pod * (2 * n) + (n + x))) * hostCount n + t) = edgeRow n :=
    fun x hx => row_edge hn hpod ((mem_range.mp hx).trans_le he)
  rw [sum_range_add, sum_congr rfl haggs, sum_congr rfl hedges]
  simp

/-- The entries before a pod. -/
theorem place_pod {pod : Nat} (hpod : pod ≤ 2 * n) :
    Csr.prefixSum (cellLength cfg n) ((n * n + pod * (2 * n)) * hostCount n) =
      n * n * hostCount n + pod * (n * aggRow n + n * edgeRow n) := by
  have hlow := @place_low cfg n hn _ le_rfl
  -- behind the rows of the core switches, pod by pod
  have hpods : ∀ p ∈ range pod, ∑ x ∈ range (2 * n), ∑ t ∈ range (hostCount n),
      cellLength cfg n ((n * n + (p * (2 * n) + x)) * hostCount n + t) =
        n * aggRow n + n * edgeRow n := by
    intro p hp
    have hrows := @rows_pod cfg n hn _ _ ((mem_range.mp hp).trans_le hpod) le_rfl
    rwa [← Nat.two_mul] at hrows
  rw [prefixSum_eq_sum, sum_range_mul] at hlow ⊢
  rw [sum_range_add, hlow, sum_range_mul, sum_congr rfl hpods]
  simp

theorem place_agg {pod a : Nat} (hpod : pod < 2 * n) (ha : a < n) :
    Csr.prefixSum (cellLength cfg n) (agg n pod a * hostCount n) =
      n * n * hostCount n + pod * (n * aggRow n + n * edgeRow n) + a * aggRow n := by
  have hbefore := @place_pod cfg n hn _ hpod.le
  have haggs : ∀ x ∈ range a, ∑ t ∈ range (hostCount n),
      cellLength cfg n ((n * n + pod * (2 * n) + x) * hostCount n + t) = aggRow n := by
    intro x hx
    rw [Nat.add_assoc]
    exact row_agg hn hpod ((mem_range.mp hx).trans ha)
  unfold agg
  rw [← Nat.add_assoc]
  rw [prefixSum_eq_sum, sum_range_mul] at hbefore ⊢
  rw [sum_range_add, hbefore, sum_congr rfl haggs]
  simp

theorem place_edge {pod e : Nat} (hpod : pod < 2 * n) (he : e < n) :
    Csr.prefixSum (cellLength cfg n) (edge n pod e * hostCount n) =
      n * n * hostCount n + pod * (n * aggRow n + n * edgeRow n) +
        (n * aggRow n + e * edgeRow n) := by
  have hbefore := @place_pod cfg n hn _ hpod.le
  have hrows := @rows_pod cfg n hn _ _ hpod he.le
  simp only [← Nat.add_assoc (n * n)] at hrows
  unfold edge
  rw [← Nat.add_assoc]
  rw [prefixSum_eq_sum, sum_range_mul] at hbefore ⊢
  rw [sum_range_add, hbefore, hrows]

omit hn in
/-- The first cells of a row, where they are equally long. -/
theorem place_add {u t w : Nat}
    (h : ∀ i, i < t → cellLength cfg n (u * hostCount n + i) = w) :
    Csr.prefixSum (cellLength cfg n) (u * hostCount n + t) =
      Csr.prefixSum (cellLength cfg n) (u * hostCount n) + t * w := by
  rw [prefixSum_eq_sum, prefixSum_eq_sum, sum_range_add,
    sum_congr rfl fun i hi => h i (mem_range.mp hi), sum_const, card_range, smul_eq_mul]

/-- A cell whose place, modulo `2 ^ 32`, is among those of the core switches begins with a
core switch's port. -/
theorem head_candidates_low {u t q : Nat} (hu : u < switchCount n) (ht : t < hostCount n)
    (hfit : n < 2 ^ 31)
    (hplace : Csr.prefixSum (cellLength cfg n) (u * hostCount n + t) % 2 ^ 32 = q)
    (hlow : q < n * n * hostCount n) :
    ((RouteTable.buildShortestPath (builder cfg n).build).candidates u t).head? =
      some (q / hostCount n * (2 * n) + podOf n (q % hostCount n)) := by
  have hnodes : (builder cfg n).build.nodeCount = switchCount n + hostCount n :=
    switchesFirst.nodeCount
  have hhosts : (builder cfg n).build.hostCount = hostCount n := switchesFirst.hostCount
  have hpos := hostCount_pos hn
  have hnode : q / hostCount n < n * n := (Nat.div_lt_iff_lt_mul hpos).mpr hlow
  have hswitch := hnode.trans_le (square_le_switchCount n)
  have hlength := congrArg List.length
    (@map_peer_nextHopsTo cfg n hn _ _ ht (Nat.lt_add_right (hostCount n) hu))
  rw [List.length_map] at hlength
  have hsome := @closer_ne_nil cfg n hn _ _ ht (Nat.lt_add_right (hostCount n) hu)
    (hu.trans_le (le_host t)).ne
  -- a cell has no more entries than its switch has ports, so it does not wrap itself
  have hlen : (closer cfg n t u).length ≤ 2 * n := by
    refine (List.length_filter_le _ _).trans ?_
    rw [← degree_neighbours (valid hn), degree_switch hn hu]
  have hq := @place_low cfg n hn _ hlow.le
  refine RouteTable.head_candidates (v := q / hostCount n) (g := q % hostCount n) ?_ ?_ ?_ ?_ ?_ ?_
    ?_ (nextHopsTo_core hn hnode (Nat.mod_lt q hpos))
  · rw [hnodes]
    exact Nat.lt_add_right _ hu
  · rw [hhosts]
    exact ht
  · rw [hnodes]
    exact Nat.lt_add_right _ hswitch
  · rw [hhosts]
    exact Nat.mod_lt q hpos
  · rw [hhosts, Nat.div_add_mod']
    exact hplace.trans hq.symm
  · intro hnil
    rw [hnil] at hlength
    exact hsome (List.length_eq_zero_iff.mp hlength.symm)
  · rw [hlength]
    omega

end Table

end FatTree

end FabricSim
