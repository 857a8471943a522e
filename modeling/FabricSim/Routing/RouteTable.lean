import FabricSim.Model.Fabric

/-!
# The shortest-path route table

`buildShortestPath` runs one breadth-first search per destination host and
collects, for every (node, host) cell, the node's ports that lead one step
closer; the cells are then packed into one flat array behind an offset table.

`nextHopsTo` is what the cell of a node and a host holds (`perCell_eq_nextHopsTo`):
the ports whose far end is exactly one hop closer to the host
(`mem_nextHopsTo_iff`). The code keeps the offsets in 32-bit words. A looked up run
always has the length of its cell (`length_candidates`), but its place is taken
modulo `2 ^ 32` (`candidates_eq_slice`): only while the entries can be counted in a
word is it the cell (`candidates_eq_nextHopsTo`).
-/

namespace FabricSim

structure RouteTable where
  entries : List PortId
  offsets : Nat → Nat
  numHosts : Nat

namespace RouteTable

/-- The run of ports of one (node, destination host) cell. Both offsets are words,
and so is their difference. -/
def candidates (rt : RouteTable) (at' : NodeId) (dstHost : Nat) : List PortId :=
  let cell := at' * rt.numHosts + dstHost
  let first := rt.offsets cell
  let last := rt.offsets (cell + 1)
  (rt.entries.drop first).take (u32 (last + 2 ^ 32 - first))

/-- Hop distance from `source` to every node; `none` is the code's
`kUnreachable`. -/
def bfsDistances (f : Fabric) (source : NodeId) : NodeId → Option Nat :=
  Bfs.run f.neighbours f.nodeCount source

/-- The ports of `u` one step closer, in port order; none at the destination
itself or at a disconnected node. -/
def nextHops (f : Fabric) (dist : NodeId → Option Nat) (u : NodeId) : List PortId :=
  match dist u with
  | none => []
  | some 0 => []
  | some (d + 1) => (f.portsOf u).filter fun p => dist (f.port p).peerNode == some d

/-- The cells of one destination. -/
def addDestination (f : Fabric) (perCell : Nat → List PortId) (h : Nat) : Nat → List PortId :=
  let dist := bfsDistances f (f.hostAt h)
  (List.range f.nodeCount).foldl (fun pc u =>
    Function.update pc (u * f.hostCount + h) (pc (u * f.hostCount + h) ++ nextHops f dist u)) perCell

def perCell (f : Fabric) : Nat → List PortId :=
  (List.range f.hostCount).foldl (addDestination f) fun _ => []

/-- The running offset of the packing loop. -/
def running (d : Nat → Nat) : Nat → Nat
  | 0 => 0
  | c + 1 => u32 (running d c + u32 (d c))

def buildShortestPath (f : Fabric) : RouteTable where
  entries := (List.range (f.nodeCount * f.hostCount)).flatMap (perCell f)
  offsets := running fun c => (perCell f c).length
  numHosts := f.hostCount

/-- What the cell of a node and a host holds. -/
def nextHopsTo (f : Fabric) (u : NodeId) (h : Nat) : List PortId :=
  nextHops f (bfsDistances f (f.hostAt h)) u

/-! ## Cells -/

theorem addDestination_apply (f : Fabric) (pc : Nat → List PortId) {h : Nat}
    (hh : h < f.hostCount) (c : Nat) :
    addDestination f pc h c =
      if c % f.hostCount = h ∧ c / f.hostCount < f.nodeCount then
        pc c ++ nextHops f (bfsDistances f (f.hostAt h)) (c / f.hostCount)
      else pc c := by
  unfold addDestination
  generalize f.nodeCount = n
  induction n with
  | zero => simp
  | succ n ih =>
    rw [List.range_succ, List.foldl_append, List.foldl_cons, List.foldl_nil, Function.update_apply]
    have hdiv : (n * f.hostCount + h) / f.hostCount = n := by
      rw [Nat.mul_comm, Nat.mul_add_div (by omega), Nat.div_eq_of_lt hh, Nat.add_zero]
    have hmod : (n * f.hostCount + h) % f.hostCount = h := by
      rw [Nat.mul_comm, Nat.mul_add_mod, Nat.mod_eq_of_lt hh]
    by_cases hc : c = n * f.hostCount + h
    · subst hc
      rw [ih, if_pos rfl, hdiv, hmod, if_neg (by simp), if_pos ⟨rfl, Nat.lt_succ_self n⟩]
    · rw [if_neg hc, ih]
      have hiff : (c % f.hostCount = h ∧ c / f.hostCount < n) ↔
          (c % f.hostCount = h ∧ c / f.hostCount < n + 1) := by
        constructor
        · rintro ⟨h1, h2⟩
          exact ⟨h1, Nat.lt_succ_of_lt h2⟩
        · rintro ⟨h1, h2⟩
          refine ⟨h1, lt_of_le_of_ne (Nat.lt_succ_iff.mp h2) fun hn => hc ?_⟩
          rw [← Nat.div_add_mod c f.hostCount, h1, hn, Nat.mul_comm]
      simp only [hiff]

theorem perCell_apply (f : Fabric) {c : Nat} (hc : c / f.hostCount < f.nodeCount)
    (hpos : 0 < f.hostCount) :
    perCell f c = nextHops f (bfsDistances f (f.hostAt (c % f.hostCount))) (c / f.hostCount) := by
  have hfold : ∀ m, m ≤ f.hostCount →
      ((List.range m).foldl (addDestination f) fun _ => []) c =
        if c % f.hostCount < m then
          nextHops f (bfsDistances f (f.hostAt (c % f.hostCount))) (c / f.hostCount)
        else [] := by
    intro m
    induction m with
    | zero => intro _; rw [if_neg (Nat.not_lt_zero _)]; rfl
    | succ m ih =>
      intro hm
      rw [List.range_succ, List.foldl_append, List.foldl_cons, List.foldl_nil,
        addDestination_apply f _ (by omega), ih (by omega)]
      by_cases hcm : c % f.hostCount = m
      · rw [if_pos ⟨hcm, hc⟩, if_neg (by omega), if_pos (by omega), List.nil_append, hcm]
      · rw [if_neg (fun h => hcm h.1)]
        by_cases hlt : c % f.hostCount < m
        · rw [if_pos hlt, if_pos (by omega)]
        · rw [if_neg hlt, if_neg (by omega)]
  unfold perCell
  rw [hfold _ (Nat.le_refl _), if_pos (Nat.mod_lt _ hpos)]

theorem cell_lt (f : Fabric) {u h : Nat} (hu : u < f.nodeCount) (hh : h < f.hostCount) :
    u * f.hostCount + h < f.nodeCount * f.hostCount := by
  calc u * f.hostCount + h < u * f.hostCount + f.hostCount := Nat.add_lt_add_left hh _
    _ = (u + 1) * f.hostCount := (Nat.succ_mul u f.hostCount).symm
    _ ≤ f.nodeCount * f.hostCount := Nat.mul_le_mul_right _ hu

theorem perCell_eq_nextHopsTo (f : Fabric) {u h : Nat} (hu : u < f.nodeCount)
    (hh : h < f.hostCount) : perCell f (u * f.hostCount + h) = nextHopsTo f u h := by
  have hpos : 0 < f.hostCount := by omega
  have hdiv : (u * f.hostCount + h) / f.hostCount = u := by
    rw [Nat.mul_comm, Nat.mul_add_div hpos, Nat.div_eq_of_lt hh, Nat.add_zero]
  have hmod : (u * f.hostCount + h) % f.hostCount = h := by
    rw [Nat.mul_comm, Nat.mul_add_mod, Nat.mod_eq_of_lt hh]
  rw [perCell_apply f (by rw [hdiv]; exact hu) hpos, hdiv, hmod]
  rfl

theorem nextHops_sublist (f : Fabric) (dist : NodeId → Option Nat) (u : NodeId) :
    (nextHops f dist u).Sublist (f.portsOf u) := by
  unfold nextHops
  split
  · exact List.nil_sublist _
  · exact List.nil_sublist _
  · exact List.filter_sublist

/-! ## Offsets in words -/

theorem running_mod (d : Nat → Nat) (c : Nat) : running d c = Csr.prefixSum d c % 2 ^ 32 := by
  induction c with
  | zero => rfl
  | succ c ih =>
    show u32 (running d c + u32 (d c)) = (Csr.prefixSum d c + d c) % 2 ^ 32
    rw [ih]
    unfold u32
    exact (Nat.add_mod _ _ _).symm

/-- A run keeps its length; its place is taken modulo `2 ^ 32`. -/
theorem candidates_eq_slice (f : Fabric) (u h : Nat) :
    let c := u * f.hostCount + h
    (buildShortestPath f).candidates u h =
      ((buildShortestPath f).entries.drop
        (Csr.prefixSum (fun c => (perCell f c).length) c % 2 ^ 32)).take
          (u32 (perCell f c).length) := by
  intro c
  show ((buildShortestPath f).entries.drop (running _ c)).take
    (u32 (running _ (c + 1) + 2 ^ 32 - running _ c)) = _
  rw [running_mod, running_mod]
  congr 1
  show u32 ((Csr.prefixSum _ c + (perCell f c).length) % 2 ^ 32 + 2 ^ 32 -
    Csr.prefixSum _ c % 2 ^ 32) = _
  unfold u32
  omega

theorem entries_length (f : Fabric) : (buildShortestPath f).entries.length =
    Csr.prefixSum (fun c => (perCell f c).length) (f.nodeCount * f.hostCount) :=
  Csr.length_flatMap_range _ _

/-- While the entries can be counted, the lookup finds its cell. -/
theorem candidates_eq_nextHopsTo {f : Fabric}
    (he : (buildShortestPath f).entries.length < 2 ^ 32) {u h : Nat} (hu : u < f.nodeCount)
    (hh : h < f.hostCount) : (buildShortestPath f).candidates u h = nextHopsTo f u h := by
  have hcell := cell_lt f hu hh
  have hrow := Csr.prefixSum_add_le (fun c => (perCell f c).length) hcell
  rw [← entries_length] at hrow
  rw [candidates_eq_slice, u32_of_lt (by omega), Nat.mod_eq_of_lt (by omega),
    ← perCell_eq_nextHopsTo f hu hh]
  have hslice := Csr.slice_flatMap (perCell f) hcell
  have hlen : Csr.prefixSum (fun c => (perCell f c).length) (u * f.hostCount + h + 1) -
      Csr.prefixSum (fun c => (perCell f c).length) (u * f.hostCount + h) =
        (perCell f (u * f.hostCount + h)).length := Nat.add_sub_cancel_left _ _
  rw [hlen] at hslice
  exact hslice

/-- A cell whose place is that of another, modulo `2 ^ 32`, is read from there on. -/
theorem head_candidates {f : Fabric} {u h v g : Nat} (hu : u < f.nodeCount) (hh : h < f.hostCount)
    (hv : v < f.nodeCount) (hg : g < f.hostCount)
    (hplace : Csr.prefixSum (fun c => (perCell f c).length) (u * f.hostCount + h) % 2 ^ 32 =
      Csr.prefixSum (fun c => (perCell f c).length) (v * f.hostCount + g))
    (hne : nextHopsTo f u h ≠ []) (hfit : (nextHopsTo f u h).length < 2 ^ 32) {p : PortId}
    {rest : List PortId} (hp : nextHopsTo f v g = p :: rest) :
    ((buildShortestPath f).candidates u h).head? = some p := by
  have hslice := Csr.slice_flatMap (perCell f) (cell_lt f hv hg)
  rw [perCell_eq_nextHopsTo f hv hg, hp] at hslice
  have hlen : 0 < (nextHopsTo f u h).length := List.length_pos_iff.mpr hne
  rw [candidates_eq_slice, hplace, perCell_eq_nextHopsTo f hu hh, u32_of_lt hfit,
    List.head?_take, if_neg (by omega)]
  have hhead := congrArg List.head? hslice
  rw [List.head?_take] at hhead
  split at hhead
  · nomatch hhead
  · exact hhead

/-- Whatever its place, a run is as long as its cell. -/
theorem length_candidates {f : Fabric} {u h : Nat} (hu : u < f.nodeCount) (hh : h < f.hostCount)
    (hfit : (nextHopsTo f u h).length < 2 ^ 32) :
    ((buildShortestPath f).candidates u h).length = (nextHopsTo f u h).length := by
  have hrow := Csr.prefixSum_add_le (fun c => (perCell f c).length) (cell_lt f hu hh)
  rw [← entries_length] at hrow
  rw [← perCell_eq_nextHopsTo f hu hh] at hfit ⊢
  have hmod := Nat.mod_le (Csr.prefixSum (fun c => (perCell f c).length) (u * f.hostCount + h))
    (2 ^ 32)
  rw [candidates_eq_slice, List.length_take, List.length_drop, u32_of_lt hfit]
  omega

/-- Whatever its place, a run holds ports of the fabric. -/
theorem port_of_mem_candidates {f : Fabric} {u h : Nat} {p : PortId}
    (hp : p ∈ (buildShortestPath f).candidates u h) : ∃ v, p ∈ f.portsOf v := by
  obtain ⟨c, hc, hmem⟩ := List.mem_flatMap.mp (List.mem_of_mem_drop (List.mem_of_mem_take hp))
  have hlt := List.mem_range.mp hc
  have hpos : 0 < f.hostCount := Nat.pos_of_mul_pos_left (Nat.zero_lt_of_lt hlt)
  rw [perCell_apply f ((Nat.div_lt_iff_lt_mul hpos).mpr hlt) hpos] at hmem
  exact ⟨_, (nextHops_sublist _ _ _).subset hmem⟩

/-! ## One hop closer -/

variable {f : Fabric}

theorem bfsDistances_eq_some_iff (hf : f.WellFormed) (source v d : Nat) (hv : v < f.nodeCount) :
    bfsDistances f source v = some d ↔ f.graph.Reachable v source ∧ f.graph.dist v source = d := by
  refine Bfs.run_eq_some_iff hf.adj_iff_mem ?_ v d hv
  intro u w huw
  exact hf.linked_lt w u ((hf.adj_iff w u).mp huw.symm)

/-- A cell holds the ports one hop closer to the host. -/
theorem mem_nextHopsTo_iff (hf : f.WellFormed) {u h : Nat} (hu : u < f.nodeCount) (p : PortId) :
    p ∈ nextHopsTo f u h ↔
      p ∈ f.portsOf u ∧ f.graph.Reachable (f.port p).peerNode (f.hostAt h) ∧
        f.graph.dist (f.port p).peerNode (f.hostAt h) + 1 = f.graph.dist u (f.hostAt h) := by
  have hpeer : p ∈ f.portsOf u → f.graph.Adj u (f.port p).peerNode ∧
      (f.port p).peerNode < f.nodeCount := by
    intro hp
    have hl : f.Linked u (f.port p).peerNode := ⟨p, hp, rfl⟩
    exact ⟨(hf.adj_iff _ _).mpr hl, hf.linked_lt _ _ (hf.linked_symm _ _ hl)⟩
  unfold nextHopsTo nextHops
  constructor
  · intro hmem
    split at hmem
    · exact absurd hmem List.not_mem_nil
    · exact absurd hmem List.not_mem_nil
    · next d hd =>
      obtain ⟨hp, hpd⟩ := List.mem_filter.mp hmem
      obtain ⟨_, hlt⟩ := hpeer hp
      obtain ⟨hr, hdist⟩ := (bfsDistances_eq_some_iff hf _ _ d hlt).mp (by simpa using hpd)
      obtain ⟨_, hdu⟩ := (bfsDistances_eq_some_iff hf _ u _ hu).mp hd
      exact ⟨hp, hr, by omega⟩
  · rintro ⟨hp, hr, hdist⟩
    obtain ⟨hadj, hlt⟩ := hpeer hp
    have hru : f.graph.Reachable u (f.hostAt h) := hadj.reachable.trans hr
    rw [(bfsDistances_eq_some_iff hf _ u _ hu).mpr ⟨hru, hdist.symm⟩]
    refine List.mem_filter.mpr ⟨hp, ?_⟩
    simpa using (bfsDistances_eq_some_iff hf _ _ _ hlt).mpr ⟨hr, rfl⟩

/-- Away from a reachable host there is always such a port. -/
theorem nextHopsTo_ne_nil (hf : f.WellFormed) {u h : Nat} (hu : u < f.nodeCount)
    (hr : f.graph.Reachable u (f.hostAt h)) (hne : u ≠ f.hostAt h) :
    nextHopsTo f u h ≠ [] := by
  obtain ⟨w, hadj, hrw, hdw⟩ := HopDistance.exists_adj_dist_succ hr hne
  obtain ⟨p, hp, rfl⟩ := (hf.adj_iff u w).mp hadj
  exact List.ne_nil_of_mem ((mem_nextHopsTo_iff hf hu p).mpr ⟨hp, hrw, hdw⟩)

end RouteTable

end FabricSim
