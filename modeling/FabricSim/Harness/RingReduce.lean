import FabricSim.Core.Completions
import FabricSim.Harness.RingBound
import FabricSim.Lib.RingSum

/-!
# The all-reduce reduces

The simulator moves bytes and knows nothing of what they mean. What the flows of the
workload are for is said by `RingSum`: flow `s * N + r` is the transfer of step `s` by
party `r`. Whatever the policy, the losses and the interleaving of the ranks, the order
in which the flows of a run complete is legal there (`Completions.legal`). So when all of
them are complete every rank has the sum of every chunk over all ranks
(`ring_all_reduce_sums`), and the chunk a flow carries is the same at any time from the
completion of the flow it waits for to its own: its packets may be filled, and filled
again on a retransmission, at any moment in between.
-/

namespace FabricSim

open AllReduce

namespace AllReduce

/-- What flow `i` of a ring of `N` ranks stands for. -/
def transfer (N i : Nat) : RingSum.Transfer N := (i / N, (i : ZMod N))

/-- What the ranks hold after the flows of the list, from what they had at first. -/
def reduced {N : Nat} {M : Type*} [AddCommMonoid M] (gradients : ZMod N → ZMod N → M)
    (log : List FlowId) : ZMod N → ZMod N → M :=
  RingSum.after gradients (log.map (transfer N))

theorem transfer_block {N s r : Nat} (hr : r < N) :
    transfer N (s * N + r) = (s, (r : ZMod N)) := by
  unfold transfer
  rw [Digits.block_div hr]
  simp

theorem transfer_inj {N i j : Nat} (h : transfer N i = transfer N j) : i = j := by
  obtain ⟨hdiv, hmod⟩ := Prod.mk.inj h
  rw [ZMod.natCast_eq_natCast_iff'] at hmod
  rw [← Nat.div_add_mod i N, ← Nat.div_add_mod j N, hdiv, hmod]

theorem cast_prev {N r : Nat} (hN : 0 < N) : (prev N r : ZMod N) = (r : ZMod N) - 1 := by
  unfold prev
  rw [ZMod.natCast_mod, Nat.cast_sub (by omega), Nat.cast_add, ZMod.natCast_self, add_zero,
    Nat.cast_one]

end AllReduce

/-- A simulation whose flows are those of the workload, for a transport that `begin_run`
accepts. -/
structure Collective (f : Fabric) (params : AllReduceParams) (draws : Draws) (ar : AllReduce)
    (sim : Simulation) : Prop where
  made : makeRingAllReduce f params draws = some ar
  ids : 2 * (ar.gpus - 1) * ar.gpus < 2 ^ 32
  specs : sim.specs = ar.flows
  transport : sim.transport.Accepted

namespace Collective

variable {f : Fabric} {params : AllReduceParams} {draws : Draws} {ar : AllReduce}
  {sim : Simulation} {policy : RoutingPolicy} {s : State} {log : List FlowId}

theorem gpus_pos (h : Collective f params draws ar sim) : 0 < ar.gpus := by
  have := (makeRingAllReduce_made h.made).gpus_ge
  omega

theorem flowCount_eq (h : Collective f params draws ar sim) :
    sim.flowCount = 2 * (ar.gpus - 1) * ar.gpus := by
  unfold Simulation.flowCount
  rw [h.specs, (makeRingAllReduce_made h.made).flows_map h.ids, List.length_map, List.length_range]

/-- Every flow is some rank's send in some step. -/
theorem exists_block (h : Collective f params draws ar sim) {i : FlowId}
    (hi : i < sim.flowCount) :
    ∃ t r, t < 2 * (ar.gpus - 1) ∧ r < ar.gpus ∧ i = t * ar.gpus + r := by
  rw [h.flowCount_eq] at hi
  refine ⟨i / ar.gpus, i % ar.gpus, ?_, Nat.mod_lt _ h.gpus_pos, ?_⟩
  · rwa [Nat.div_lt_iff_lt_mul h.gpus_pos]
  · rw [Nat.mul_comm]
    exact (Nat.div_add_mod _ _).symm

/-- From the second step on a flow waits for the rank before. -/
theorem dependsOn_succ (h : Collective f params draws ar sim) {t r : Nat}
    (ht : t + 1 < 2 * (ar.gpus - 1)) (hr : r < ar.gpus) :
    (sim.spec ((t + 1) * ar.gpus + r)).dependsOn = some (t * ar.gpus + prev ar.gpus r) := by
  have hmade := makeRingAllReduce_made h.made
  have hat := hmade.flow_at h.ids ht hr
  rw [← h.specs] at hat
  unfold Simulation.spec
  rw [List.getD_eq_getElem?_getD, hat]
  exact hmade.dependsOn_succ h.ids ht hr

/-- The flow a send waits for brings what it passes on. -/
theorem ready (h : Collective f params draws ar sim) {i : FlowId} (hi : i < sim.flowCount)
    (hwait : ∀ d, (sim.spec i).dependsOn = some d → d ∈ log) {t : Nat}
    (ht : (transfer ar.gpus i).1 = t + 1) :
    (t, (transfer ar.gpus i).2 - 1) ∈ log.map (transfer ar.gpus) := by
  obtain ⟨u, r, hu, hr, rfl⟩ := h.exists_block hi
  rw [transfer_block hr] at ht ⊢
  dsimp only at ht ⊢
  subst ht
  have hprev := prev_lt (r := r) h.gpus_pos
  refine List.mem_map.mpr ⟨_, hwait _ (h.dependsOn_succ hu hr), ?_⟩
  rw [transfer_block hprev, cast_prev h.gpus_pos]

/-- The flows of a run complete in an order the ring allows. -/
theorem legal (h : Collective f params draws ar sim) (hlog : sim.Completions policy log s) :
    RingSum.Legal (log.map (transfer ar.gpus)) := by
  induction hlog with
  | begin leftover => exact RingSum.Legal.nil
  | quiet _ _ _ ih => exact ih
  | @finish log s s' hrun hstep i hold hnew ih =>
    have hdone : sim.Completions policy (log ++ [i]) s' := hrun.finish hstep i hold hnew
    have hi : i < sim.flowCount :=
      hdone.lt_flowCount (List.mem_append_right _ (List.mem_singleton_self i))
    have hcomplete : (s'.result i).complete = true := by rw [hnew, if_pos rfl]
    have hwait : ∀ d, (sim.spec i).dependsOn = some d → d ∈ log := by
      intro d hd
      have hdone' := hdone.reachable.complete_dependsOn h.transport hd hcomplete
      have hne : d ≠ i := Nat.ne_of_lt ((sim.spec_accepted hi).depends_lt d hd)
      rw [hnew, if_neg hne] at hdone'
      exact (hrun.mem_iff d).mpr hdone'
    have hunsent : transfer ar.gpus i ∉ log.map (transfer ar.gpus) := by
      intro hmem
      obtain ⟨j, hj, heq⟩ := List.mem_map.mp hmem
      obtain rfl := transfer_inj heq
      rw [hrun.mem_iff, hold] at hj
      exact absurd hj (by simp)
    rw [List.map_append, List.map_singleton]
    refine ih.next _ ?_ hunsent fun t ht => h.ready hi hwait ht
    obtain ⟨t, r, ht, hr, rfl⟩ := h.exists_block hi
    rw [transfer_block hr]
    exact ht

end Collective

/-- In every run of a ring all-reduce, under any policy and losses: the flows complete one
at a time, and if each rank adds or copies the chunk a flow brought when it completes,
then, as soon as all flows are complete, every rank has the sum of every chunk over all
ranks; and what a flow is to carry does not change from when the flow it waits for is
complete until it is complete itself. Flows do not share packets as long as 32 bits index
all of them (`Simulation.Fits`). -/
theorem ring_all_reduce_sums {M : Type*} [AddCommMonoid M] (f : Fabric) (params : AllReduceParams)
    (draws : Draws) (ar : AllReduce) (sim : Simulation) (h : Collective f params draws ar sim)
    (gradients : ZMod ar.gpus → ZMod ar.gpus → M) (policy : RoutingPolicy) {s : State}
    (hs : sim.Reachable policy s) : ∃ log, sim.Completions policy log s ∧
      ((∀ i, i < sim.flowCount → (s.result i).complete = true) → ∀ rank chunk,
        reduced gradients log rank chunk = ∑ q ∈ Finset.range ar.gpus, gradients q chunk) ∧
      ∀ i s', i < sim.flowCount →
        (∀ d, (sim.spec i).dependsOn = some d → (s.result d).complete = true) →
        Relation.ReflTransGen (sim.Step policy) s s' → (s'.result i).complete = false →
        ∃ later, sim.Completions policy (log ++ later) s' ∧
          reduced gradients (log ++ later) i (RingSum.cell (transfer ar.gpus i)) =
            reduced gradients log i (RingSum.cell (transfer ar.gpus i)) := by
  have : NeZero ar.gpus := ⟨h.gpus_pos.ne'⟩
  obtain ⟨log, hlog⟩ := hs.completions
  refine ⟨log, hlog, fun hall rank chunk => ?_, fun i s' hi hwait hrun hold => ?_⟩
  · refine (h.legal hlog).total gradients (fun t r ht => ?_) rank chunk
    have hr : r.val < ar.gpus := ZMod.val_lt r
    have hlt : t * ar.gpus + r.val < sim.flowCount := by
      rw [h.flowCount_eq]
      exact Digits.block_lt ht hr
    refine List.mem_map.mpr ⟨_, (hlog.mem_iff _).mpr (hall _ hlt), ?_⟩
    rw [transfer_block hr, ZMod.natCast_zmod_val]
  · obtain ⟨later, hlater⟩ := hlog.extend hrun
    refine ⟨later, hlater, ?_⟩
    have hlegal := h.legal hlater
    rw [List.map_append] at hlegal
    have hsteady := hlegal.steady gradients (t := transfer ar.gpus i) (fun t ht => ?_) ?_
    · unfold reduced
      rw [List.map_append]
      exact hsteady
    · exact h.ready hi (fun d hd => (hlog.mem_iff d).mpr (hwait d hd)) ht
    · rw [← List.map_append]
      intro hmem
      obtain ⟨j, hj, heq⟩ := List.mem_map.mp hmem
      obtain rfl := transfer_inj heq
      rw [hlater.mem_iff, hold] at hj
      exact absurd hj (by simp)

theorem wholeRing_collective :
    Collective wholeRing.sim.fabric (pairRing 3000).params {} wholeReduce wholeRing.sim where
  made := wholeRing_ring.made
  ids := wholeRing_ring.ids
  specs := wholeRing_ring.specs.1
  transport := ⟨by decide +kernel, by decide +kernel, by decide +kernel, by decide +kernel,
    by decide +kernel⟩

/-- Rank `q` starts with `10 * q + c` in chunk `c`. -/
def wholeGradients (q c : ZMod wholeReduce.gpus) : Nat := 10 * q.val + c.val

/-- Two ranks with two chunks each: at the end of the run both hold both sums. -/
theorem ring_all_reduce_sums_whole : ∃ log,
    wholeRing.sim.Completions StaticFirstPolicy log wholeLast ∧ ∀ rank chunk,
      reduced wholeGradients log rank chunk =
        ∑ q ∈ Finset.range wholeReduce.gpus, wholeGradients q chunk := by
  obtain ⟨log, hlog, hsums, -⟩ := ring_all_reduce_sums _ _ _ _ _ wholeRing_collective
    wholeGradients StaticFirstPolicy (s := wholeLast) ((Simulation.Reachable.begin _).runFor 76)
  exact ⟨log, hlog, hsums (by decide +kernel)⟩

end FabricSim
