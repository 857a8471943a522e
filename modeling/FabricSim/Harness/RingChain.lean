import FabricSim.Harness.OnFatTree
import FabricSim.Model.BuilderLayout
import FabricSim.Workload.Placement

/-!
# The dependencies of the ring

Flow `s * N + r` is rank `r`'s send in step `s`. It waits for rank `r - 1`'s send in the
step before, which ends where it starts. Going back along these dependencies the rank
drops by one per step and wraps around at 0, so the `2 * (N - 1)` steps of a chain
visit all ranks.
-/

namespace FabricSim

namespace AllReduce

/-- Flow `i` of the workload is started by flow `j`. -/
def WaitsFor (ar : AllReduce) (i j : Nat) : Prop :=
  ∃ flow, ar.flows[i]? = some flow ∧ flow.dependsOn = some j

/-- The rank before `r` on the ring. -/
def prev (N r : Nat) : Nat := (r + N - 1) % N

theorem prev_zero {N : Nat} (hN : 0 < N) : prev N 0 = N - 1 := by
  unfold prev
  rw [Nat.zero_add]
  exact Nat.mod_eq_of_lt (by omega)

theorem prev_succ {N r : Nat} (hr : r + 1 < N) : prev N (r + 1) = r := by
  unfold prev
  rw [show r + 1 + N - 1 = r + N by omega, Nat.add_mod_right]
  exact Nat.mod_eq_of_lt (by omega)

theorem prev_lt {N r : Nat} (hN : 0 < N) : prev N r < N := Nat.mod_lt _ hN

/-- The rank after the rank before. -/
theorem succ_prev {N r : Nat} (hN : 0 < N) (hr : r < N) : (prev N r + 1) % N = r := by
  cases r with
  | zero => rw [prev_zero hN, Nat.sub_add_cancel hN, Nat.mod_self]
  | succ r => rw [prev_succ hr, Nat.mod_eq_of_lt hr]

theorem prev_inj {N r r' : Nat} (hN : 0 < N) (hr : r < N) (hr' : r' < N)
    (h : prev N r = prev N r') : r = r' := by
  rw [← succ_prev hN hr, ← succ_prev hN hr', h]

/-- The next rank is another one. -/
theorem succ_mod_self_ne {N r : Nat} (hN : 2 ≤ N) (hr : r < N) : (r + 1) % N ≠ r := by
  rcases Nat.lt_or_ge (r + 1) N with hlt | hge
  · rw [Nat.mod_eq_of_lt hlt]
    omega
  · rw [show r + 1 = N by omega, Nat.mod_self]
    omega

section Made

variable {f : Fabric} {params : AllReduceParams} {draws : Draws} {ar : AllReduce}
  (h : ar.Made f params draws) (hids : 2 * (ar.gpus - 1) * ar.gpus < 2 ^ 32)

include h hids

theorem Made.steps : ar.steps = 2 * (ar.gpus - 1) := by
  have hge := h.gpus_ge
  have hle : 2 * (ar.gpus - 1) * 1 ≤ 2 * (ar.gpus - 1) * ar.gpus :=
    Nat.mul_le_mul_left _ (by omega)
  rw [h.steps_eq]
  exact u32_of_lt (by omega)

theorem Made.flows_map : ar.flows = (List.range (2 * (ar.gpus - 1) * ar.gpus)).map fun i =>
    ringFlow f params draws ar.gpus ar.chunkBytes ar.rankToHost (i / ar.gpus) (i % ar.gpus) := by
  rw [h.flows_eq, Digits.flatMap_map_range, h.steps hids]

theorem Made.flow_at {s r : Nat} (hs : s < 2 * (ar.gpus - 1)) (hr : r < ar.gpus) :
    ar.flows[s * ar.gpus + r]? =
      some (ringFlow f params draws ar.gpus ar.chunkBytes ar.rankToHost s r) := by
  rw [h.flows_map hids, List.getElem?_map, List.getElem?_range (Digits.block_lt hs hr),
    Option.map_some, Digits.block_div hr, Digits.block_mod hr]

/-- Every index is a step and a rank. -/
theorem Made.exists_at {i : Nat} {flow : FlowSpec} (hi : ar.flows[i]? = some flow) :
    ∃ s r, s < 2 * (ar.gpus - 1) ∧ r < ar.gpus ∧ i = s * ar.gpus + r := by
  have hlt := (List.getElem?_eq_some_iff.mp hi).1
  rw [h.flows_map hids, List.length_map, List.length_range] at hlt
  have hpos : 0 < ar.gpus := by
    have := h.gpus_ge
    omega
  refine ⟨i / ar.gpus, i % ar.gpus, ?_, Nat.mod_lt _ hpos, ?_⟩
  · rw [Nat.div_lt_iff_lt_mul hpos]
    exact hlt
  · rw [Nat.mul_comm]
    exact (Nat.div_add_mod _ _).symm

theorem Made.dependsOn_succ {s r : Nat} (hs : s + 1 < 2 * (ar.gpus - 1)) (hr : r < ar.gpus) :
    (ringFlow f params draws ar.gpus ar.chunkBytes ar.rankToHost (s + 1) r).dependsOn =
      some (s * ar.gpus + prev ar.gpus r) := by
  have hgpus := h.gpus_ge
  have hprev := prev_lt (r := r) (show 0 < ar.gpus by omega)
  have hlt := Digits.block_lt (show s < 2 * (ar.gpus - 1) by omega) hprev
  have hsum : r + ar.gpus - 1 < 2 ^ 32 := by
    have hle : 2 * (ar.gpus - 1) * 2 ≤ 2 * (ar.gpus - 1) * ar.gpus := Nat.mul_le_mul_left _ hgpus
    omega
  unfold ringFlow
  dsimp only
  rw [if_pos (Nat.succ_pos s), Nat.add_sub_cancel, u32_of_lt hsum]
  exact congrArg some (u32_of_lt (hlt.trans hids))

theorem Made.waitsFor_iff {i j : Nat} : ar.WaitsFor i j ↔ ∃ s r, s + 1 < 2 * (ar.gpus - 1) ∧
    r < ar.gpus ∧ i = (s + 1) * ar.gpus + r ∧ j = s * ar.gpus + prev ar.gpus r := by
  constructor
  · rintro ⟨flow, hi, hdep⟩
    obtain ⟨s, r, hs, hr, rfl⟩ := h.exists_at hids hi
    rw [h.flow_at hids hs hr] at hi
    obtain rfl := Option.some.inj hi
    cases s with
    | zero => exact absurd hdep (by simp [ringFlow])
    | succ s =>
      rw [h.dependsOn_succ hids hs hr] at hdep
      exact ⟨s, r, hs, hr, rfl, (Option.some.inj hdep).symm⟩
  · rintro ⟨s, r, hs, hr, rfl, rfl⟩
    exact ⟨_, h.flow_at hids hs hr, h.dependsOn_succ hids hs hr⟩

/-! ## Chains -/

/-- One step back. -/
theorem Made.waitsFor {s r : Nat} (hs : s + 1 < 2 * (ar.gpus - 1)) (hr : r < ar.gpus) :
    ar.WaitsFor ((s + 1) * ar.gpus + r) (s * ar.gpus + prev ar.gpus r) :=
  (h.waitsFor_iff hids).mpr ⟨s, r, hs, hr, rfl, rfl⟩

/-- Down the ranks, as long as none of them is 0. -/
theorem Made.chain_down {s r : Nat} (hs : s < 2 * (ar.gpus - 1)) (hr : r < ar.gpus) {t : Nat}
    (htr : t ≤ r) (hts : t ≤ s) :
    Relation.ReflTransGen ar.WaitsFor (s * ar.gpus + r) ((s - t) * ar.gpus + (r - t)) := by
  induction t with
  | zero => exact .refl
  | succ t ih =>
    have hback := h.waitsFor hids (s := s - (t + 1)) (r := r - t) (by omega) (by omega)
    rw [show s - (t + 1) + 1 = s - t by omega] at hback
    rw [show r - t = r - (t + 1) + 1 by omega, prev_succ (by omega),
      show r - (t + 1) + 1 = r - t by omega] at hback
    exact (ih (by omega) (by omega)).tail hback

/-- Every rank is within one turn of the ring. -/
theorem Made.chain {s r q : Nat} (hs : s < 2 * (ar.gpus - 1)) (hturn : ar.gpus - 1 ≤ s)
    (hr : r < ar.gpus) (hq : q < ar.gpus) : ∃ s', s' < 2 * (ar.gpus - 1) ∧
      Relation.ReflTransGen ar.WaitsFor (s * ar.gpus + r) (s' * ar.gpus + q) := by
  rcases Nat.lt_or_ge r q with hlt | hge
  · -- down to rank 0, around, and down again
    have hzero := h.chain_down hids hs hr (le_refl r) (by omega)
    have haround := h.waitsFor hids (s := s - (r + 1)) (r := 0) (by omega) (by omega)
    rw [prev_zero (by omega), show s - (r + 1) + 1 = s - r by omega] at haround
    have hdown := h.chain_down hids (s := s - (r + 1)) (r := ar.gpus - 1) (by omega) (by omega)
      (t := ar.gpus - 1 - q) (by omega) (by omega)
    rw [show ar.gpus - 1 - (ar.gpus - 1 - q) = q by omega] at hdown
    rw [Nat.sub_self] at hzero
    exact ⟨_, by omega, (hzero.tail haround).trans hdown⟩
  · have hdown := h.chain_down hids hs hr (t := r - q) (by omega) (by omega)
    rw [show r - (r - q) = q by omega] at hdown
    exact ⟨_, by omega, hdown⟩

end Made

/-! ## Hosts -/

/-- Round-robin placement is told the arity of the fabric: the hosts are those of a fat
tree of that arity. -/
def ArityFits (f : Fabric) (params : AllReduceParams) : Prop :=
  params.placement = .roundRobinPods →
    2 ≤ params.fatTreeK ∧ params.fatTreeK % 2 = 0 ∧ f.hostCount = params.fatTreeK ^ 3 / 4

section Placed

variable {f : Fabric} {params : AllReduceParams} {N : Nat} (harity : ArityFits f params)
  (hN : N ≤ f.hostCount) (hfit : N < 2 ^ 32)

include harity hN hfit

/-- Every rank has a host of its own. -/
theorem placeRanks_hosts {ranks : List Nat} (h : placeRanks f params N = some ranks) :
    (∀ r, r < N → hostOf ranks r < f.hostCount) ∧
      ∀ r r', r < N → r' < N → hostOf ranks r = hostOf ranks r' → r = r' := by
  cases hp : params.placement with
  | sequential =>
    unfold placeRanks at h
    rw [hp] at h
    obtain rfl := Option.some.inj h
    have hid : ∀ r, r < N → hostOf (List.range N) r = r := by
      intro r hr
      have := hostOf_map (g := id) hr
      rwa [List.map_id] at this
    refine ⟨fun r hr => ?_, fun r r' hr hr' heq => ?_⟩
    · rw [hid r hr]
      omega
    · rw [hid r hr, hid r' hr'] at heq
      exact heq
  | roundRobinPods =>
    obtain ⟨htwo, heven, hcount⟩ := harity hp
    obtain rfl : N = params.fatTreeK ^ 3 / 4 := by
      rw [← hcount]
      unfold placeRanks at h
      rw [hp] at h
      dsimp only at h
      split at h
      · next hall => exact hall.2.2
      · exact absurd h (by simp)
    obtain rfl := placeRanks_roundRobin heven hfit hp rfl h
    refine ⟨fun r hr => ?_, fun r r' hr hr' heq => ?_⟩
    · rw [hostOf_map hr, hcount]
      exact roundRobin_lt heven hr
    · rw [hostOf_map hr, hostOf_map hr'] at heq
      have hnodup := nodup_roundRobin heven
      exact (List.inj_on_of_nodup_map hnodup) (List.mem_range.mpr hr) (List.mem_range.mpr hr') heq

omit hN hfit in
/-- The generator's assertion on the placement holds. -/
theorem placeRanks_isSome (hall : params.placement = .roundRobinPods → N = f.hostCount) :
    ∃ ranks, placeRanks f params N = some ranks := by
  unfold placeRanks
  cases hp : params.placement with
  | sequential => exact ⟨_, rfl⟩
  | roundRobinPods =>
    obtain ⟨htwo, heven, -⟩ := harity hp
    dsimp only
    rw [if_pos ⟨htwo, heven, hall hp⟩]
    exact ⟨_, rfl⟩

end Placed

end AllReduce

theorem Fabric.hostAt_inj {f : Fabric} (h : f.hosts.Nodup) {i j : Nat} (hi : i < f.hostCount)
    (hj : j < f.hostCount) (heq : f.hostAt i = f.hostAt j) : i = j := by
  unfold Fabric.hostAt at heq
  rw [List.getD_eq_getElem _ _ hi, List.getD_eq_getElem _ _ hj] at heq
  exact (List.Nodup.getElem_inj_iff h).mp heq

open AllReduce

/-- The ring all-reduce of `N` ranks: its flows in step-major order, each from a rank's
host to the next rank's, waiting for the flow of the step before that ends there. No
two flows wait for one; flows are numbered before they are waited for; and the chain
behind any flow of the last step has a send of every rank in it. -/
theorem ring_dependency_structure (b : FabricBuilder) (params : AllReduceParams) (draws : Draws)
    (N : Nat) (hgpus : N = if params.gpuCount = 0 then u32 b.build.hostCount else params.gpuCount)
    (htwo : 2 ≤ N) (hhosts : N ≤ b.build.hostCount) (hbuffer : N ≤ params.bufferBytes)
    (hids : 2 * (N - 1) * N < 2 ^ 32) (harity : ArityFits b.build params)
    (hall : params.placement = .roundRobinPods → N = b.build.hostCount) :
    ∃ ar, makeRingAllReduce b.build params draws = some ar ∧ ar.gpus = N ∧
      ar.flows.length = 2 * (N - 1) * N ∧
      (∀ s r, s < 2 * (N - 1) → r < N → ∃ flow, ar.flows[s * N + r]? = some flow ∧
        flow.src = b.build.hostAt (hostOf ar.rankToHost r) ∧
        flow.dst = b.build.hostAt (hostOf ar.rankToHost ((r + 1) % N)) ∧ flow.src ≠ flow.dst ∧
        (s = 0 → flow.dependsOn = none) ∧
        (0 < s → ∃ j up, flow.dependsOn = some j ∧ j < s * N + r ∧ j / N = s - 1 ∧
          ar.flows[j]? = some up ∧ up.dst = flow.src)) ∧
      (∀ i i' j, ar.WaitsFor i j → ar.WaitsFor i' j → i = i') ∧
      (∀ (sim sim' : Simulation) (before after : List FlowSpec) (flow : FlowSpec),
        sim.specs = [] → ar.flows = before ++ flow :: after → sim.addFlows before = some sim' →
        sim'.flowCount = before.length ∧ ∀ j ∈ flow.dependsOn, j < sim'.flowCount) ∧
      (∀ r q, r < N → q < N → ∃ s, s < 2 * (N - 1) ∧
        Relation.ReflTransGen ar.WaitsFor ((2 * (N - 1) - 1) * N + r) (s * N + q)) := by
  have hN : N < 2 ^ 32 := by
    have hle : 1 * N ≤ 2 * (N - 1) * N := Nat.mul_le_mul_right _ (by omega)
    omega
  obtain ⟨ranks, hranks⟩ := placeRanks_isSome harity hall
  have hchunk : 0 < params.bufferBytes / N := Nat.div_pos hbuffer (by omega)
  have hsome : (makeRingAllReduce b.build params draws).isSome = true := by
    unfold makeRingAllReduce
    dsimp only
    rw [← hgpus, if_pos ⟨htwo, hhosts⟩, if_pos hchunk, hranks]
    rfl
  obtain ⟨ar, har⟩ := Option.isSome_iff_exists.mp hsome
  have hmade := makeRingAllReduce_made har
  obtain rfl : ar.gpus = N := hmade.gpus_eq.trans hgpus.symm
  obtain ⟨hlt, hinj⟩ := placeRanks_hosts harity hhosts hN hmade.placed
  have hnodup := FabricBuilder.nodup_hosts b
  have hnext : ∀ r, (u32 (r + 1)) % ar.gpus = (r + 1) % ar.gpus ∨ ar.gpus ≤ r := by
    intro r
    rcases Nat.lt_or_ge r ar.gpus with hr | hr
    · left
      rw [u32_of_lt (by omega)]
    · exact Or.inr hr
  refine ⟨ar, har, rfl, ?_, fun s r hs hr => ?_, fun i i' j hi hi' => ?_, ?_, fun r q hr hq => ?_⟩
  · rw [hmade.flows_map hids, List.length_map, List.length_range]
  · have hdst := (hnext r).resolve_right (by omega)
    have hmod : (r + 1) % ar.gpus < ar.gpus := Nat.mod_lt _ (by omega)
    refine ⟨_, hmade.flow_at hids hs hr, rfl, ?_, ?_, ?_, ?_⟩
    · show b.build.hostAt (hostOf ar.rankToHost (u32 (r + 1) % ar.gpus)) = _
      rw [hdst]
    · show b.build.hostAt (hostOf ar.rankToHost r) ≠
        b.build.hostAt (hostOf ar.rankToHost (u32 (r + 1) % ar.gpus))
      rw [hdst]
      intro heq
      have hsame := hinj _ _ hr hmod (Fabric.hostAt_inj hnodup (hlt r hr) (hlt _ hmod) heq)
      exact succ_mod_self_ne htwo hr hsame.symm
    · rintro rfl
      rfl
    · intro hpos
      obtain ⟨s, rfl⟩ : ∃ t, s = t + 1 := ⟨s - 1, by omega⟩
      have hprev := prev_lt (r := r) (show 0 < ar.gpus by omega)
      refine ⟨s * ar.gpus + prev ar.gpus r, _, hmade.dependsOn_succ hids hs hr, ?_, Digits.block_div hprev,
        hmade.flow_at hids (by omega) hprev, ?_⟩
      · have hstep : (s + 1) * ar.gpus = s * ar.gpus + ar.gpus := Nat.succ_mul _ _
        show s * ar.gpus + prev ar.gpus r < (s + 1) * ar.gpus + r
        omega
      · show b.build.hostAt (hostOf ar.rankToHost (u32 (prev ar.gpus r + 1) % ar.gpus)) =
          b.build.hostAt (hostOf ar.rankToHost r)
        rw [(hnext _).resolve_right (by omega), succ_prev (by omega) hr]
  · obtain ⟨s, r, hs, hr, rfl, rfl⟩ := (hmade.waitsFor_iff hids).mp hi
    obtain ⟨s', r', hs', hr', rfl, heq⟩ := (hmade.waitsFor_iff hids).mp hi'
    have hprev := prev_lt (r := r) (show 0 < ar.gpus by omega)
    have hprev' := prev_lt (r := r') (show 0 < ar.gpus by omega)
    have hdiv := congrArg (· / ar.gpus) heq
    have hmod := congrArg (· % ar.gpus) heq
    rw [Digits.block_div hprev, Digits.block_div hprev'] at hdiv
    rw [Digits.block_mod hprev, Digits.block_mod hprev'] at hmod
    rw [hdiv, prev_inj (by omega) hr hr' hmod]
  · intro sim sim' before after flow hempty hsplit hadd
    obtain ⟨-, -, -, hspecs⟩ := Simulation.addFlows_eq hadd
    have hcount : sim'.flowCount = before.length := by
      unfold Simulation.flowCount
      rw [hspecs, hempty, List.nil_append]
    refine ⟨hcount, fun j hj => ?_⟩
    have hat : ar.flows[before.length]? = some flow := by
      rw [hsplit, List.getElem?_append_right (Nat.le_refl _), Nat.sub_self]
      rfl
    obtain ⟨s, r, hs, hr, hi, rfl⟩ := (hmade.waitsFor_iff hids).mp ⟨flow, hat, hj⟩
    have hprev := prev_lt (r := r) (show 0 < ar.gpus by omega)
    have hstep : (s + 1) * ar.gpus = s * ar.gpus + ar.gpus := Nat.succ_mul _ _
    rw [hcount, hi]
    show s * ar.gpus + prev ar.gpus r < (s + 1) * ar.gpus + r
    omega
  · exact hmade.chain hids (by omega) (by omega) hr hq

/-- Four ranks on the sixteen hosts of a fat tree, and one on each over its pods. -/
theorem ring_dependency_structure_four :
    (∃ ar, makeRingAllReduce (FatTree.builder {} 2).build
      { gpuCount := 4, placement := .sequential } {} = some ar ∧
        ar.flows.length = 2 * (4 - 1) * 4) ∧
    ∃ ar, makeRingAllReduce (FatTree.builder {} 2).build { fatTreeK := 4 } {} = some ar ∧
      ar.flows.length = 2 * (16 - 1) * 16 := by
  have hhosts : (FatTree.builder {} 2).build.hostCount = 16 := FatTree.switchesFirst.hostCount
  constructor
  · obtain ⟨ar, har, -, hlen, -⟩ := ring_dependency_structure (FatTree.builder {} 2)
      { gpuCount := 4, placement := .sequential } {} 4 rfl (by decide) (by rw [hhosts]; decide)
      (by decide) (by decide) (fun h => absurd h (by decide)) (fun h => absurd h (by decide))
    exact ⟨ar, har, hlen⟩
  · obtain ⟨ar, har, -, hlen, -⟩ := ring_dependency_structure (FatTree.builder {} 2)
      { fatTreeK := 4 } {} 16 (by rw [hhosts, if_pos rfl, u32_of_lt (by decide)]) (by decide)
      hhosts.ge (by decide) (by decide) (fun _ => ⟨by decide, by decide, hhosts⟩)
      (fun _ => hhosts.symm)
    exact ⟨ar, har, hlen⟩

/-- Six hosts on a switch. -/
def sixHosts : FabricBuilder where
  isHost := [false, true, true, true, true, true, true]
  edges := (List.range 6).map fun i => ⟨0, i + 1, {}⟩

theorem sixHosts_ring :
    (makeRingAllReduce sixHosts.build { fatTreeK := 2 } {}).isSome = true := by decide +kernel

/-- Told an arity that is not the fabric's, round-robin placement puts two neighbours of
the ring on one host. -/
theorem ring_wrong_arity : 2 ≤ 6 ∧ 6 ≤ sixHosts.build.hostCount ∧ 2 * (6 - 1) * 6 < 2 ^ 32 ∧
    ∃ ar, makeRingAllReduce sixHosts.build { fatTreeK := 2 } {} = some ar ∧ ar.gpus = 6 ∧
      ∃ flow ∈ ar.flows[1]?, flow.src = flow.dst :=
  ⟨by decide, by decide +kernel, by decide, _, (Option.some_get sixHosts_ring).symm,
    by decide +kernel, by decide +kernel⟩

end FabricSim
