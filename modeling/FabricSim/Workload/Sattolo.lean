import FabricSim.Lib.SingleCycle
import FabricSim.Workload.Permutation

/-!
# The permutation is one cycle

The shuffle exchanges entry `i` with an entry strictly below it, for `i` from the last
down to 1. Read from the other end these are the transpositions that splice one point
after the other into a cycle. So every outcome is one cycle through all hosts, and the
draws and the cycles correspond one to one: uniform draws make a uniform cycle.
-/

namespace FabricSim

/-- What `below` can return for each position of `n` entries. -/
def Draws.Valid (draws : Draws) (n : Nat) : Prop := ∀ i, 0 < i → i < n → draws.swap i < i

theorem Draws.Valid.below {draws : Draws} {n : Nat} (h : draws.Valid n) (hn : 0 < n) :
    SingleCycle.Below draws.swap (n - 1) := fun i hpos hi => h i hpos (by omega)

theorem exchange_eq (dst : Nat → Nat) (i j : Nat) : exchange dst i j = dst ∘ Equiv.swap i j := by
  funext x
  show Function.update (Function.update dst i (dst j)) j (dst i) x = dst (Equiv.swap i j x)
  by_cases hj : x = j
  · rw [hj, Function.update_self, Equiv.swap_apply_right]
  · rw [Function.update_of_ne hj]
    by_cases hi : x = i
    · rw [hi, Function.update_self, Equiv.swap_apply_left]
    · rw [Function.update_of_ne hi, Equiv.swap_apply_of_ne_of_ne hi hj]

theorem sattolo_eq (swap : Nat → Nat) (m : Nat) (dst : Nat → Nat) :
    sattolo swap m dst = dst ∘ SingleCycle.spliced swap m := by
  induction m generalizing dst with
  | zero => rfl
  | succ m ih =>
    show sattolo swap m (exchange dst (m + 1) (swap (m + 1))) = _
    rw [ih, exchange_eq]
    rfl

theorem permutationOf_eq (draws : Draws) (n : Nat) :
    permutationOf draws n = SingleCycle.spliced draws.swap (n - 1) := sattolo_eq _ _ _

theorem Iic_pred {n : Nat} (hn : 0 < n) : Set.Iic (n - 1) = Set.Iio n := by
  ext x
  rw [Set.mem_Iic, Set.mem_Iio]
  omega

section Cycle

variable {draws : Draws} {n : Nat} (hn : 2 ≤ n) (h : draws.Valid n)

include hn h

theorem permutationOf_cycle :
    (SingleCycle.spliced draws.swap (n - 1)).IsCycleOn (Set.Iio n) := by
  rw [← Iic_pred (by omega)]
  exact SingleCycle.isCycleOn_spliced (h.below (by omega))

theorem permutationOf_lt {i : Nat} (hi : i < n) : permutationOf draws n i < n := by
  rw [permutationOf_eq]
  exact (permutationOf_cycle hn h).1.mapsTo hi

/-- No host is its own destination. -/
theorem permutationOf_ne {i : Nat} (hi : i < n) : permutationOf draws n i ≠ i := by
  rw [permutationOf_eq]
  have hpoints : (Set.Iio n).Nontrivial :=
    ⟨0, Set.mem_Iio.mpr (by omega), 1, Set.mem_Iio.mpr (by omega), by decide⟩
  exact (permutationOf_cycle hn h).apply_ne hpoints hi

theorem perm_range : ((List.range n).map (permutationOf draws n)).Perm (List.range n) := by
  have hbij := (permutationOf_cycle hn h).1
  rw [permutationOf_eq]
  refine (List.perm_ext_iff_of_nodup ?_ List.nodup_range).mpr fun x => ?_
  · exact List.nodup_range.map (SingleCycle.spliced draws.swap (n - 1)).injective
  · rw [List.mem_map, List.mem_range]
    constructor
    · rintro ⟨i, hi, rfl⟩
      exact hbij.mapsTo (List.mem_range.mp hi)
    · intro hx
      obtain ⟨i, hi, rfl⟩ := hbij.surjOn hx
      exact ⟨i, List.mem_range.mpr hi, rfl⟩

/-- Every host sends one flow and receives one. -/
theorem makePermutation_hosts {f : Fabric} {params : PermutationParams} (hcount : f.hostCount = n)
    (hfit : n < 2 ^ 32) (hload : 0 < params.loadPermille ∧ params.loadPermille ≤ 1000) :
    ∃ flows, makePermutation f params draws = some flows ∧ flows.map FlowSpec.src = f.hosts ∧
      (flows.map FlowSpec.dst).Perm f.hosts := by
  have hrange : (List.range n).map f.hostAt = f.hosts := by
    have hlen : ((List.range n).map f.hostAt).length = f.hosts.length := by
      rw [List.length_map, List.length_range]
      exact hcount.symm
    refine List.ext_getElem hlen fun i h1 h2 => ?_
    rw [List.getElem_map, List.getElem_range]
    exact List.getD_eq_getElem _ _ h2
  have hcheck : (2 ≤ n ∧ 0 < params.loadPermille ∧ params.loadPermille ≤ 1000) ∧
      ∀ i ∈ List.range n, permutationOf draws n i ≠ i :=
    ⟨⟨hn, hload⟩, fun i hi => permutationOf_ne hn h (List.mem_range.mp hi)⟩
  refine ⟨(List.range n).map (permutationFlow f params draws (permutationOf draws n)), ?_, ?_, ?_⟩
  · unfold makePermutation
    dsimp only
    rw [hcount, u32_of_lt hfit, if_pos hcheck]
  · rw [List.map_map]
    exact hrange
  · have hperm := (perm_range hn h).map f.hostAt
    rw [hrange, List.map_map] at hperm
    rw [List.map_map]
    exact hperm

end Cycle

/-- For every sequence of draws the destinations are one cycle of all hosts, so every
host sends one flow to another host and receives one; different sequences give
different cycles; and every cycle is reached. -/
theorem permutation_single_cycle (n : Nat) (hn : 2 ≤ n) :
    (∀ draws : Draws, draws.Valid n →
      (∃ σ : Equiv.Perm ℕ, (∀ i, i < n → permutationOf draws n i = σ i) ∧
        σ.IsCycleOn (Set.Iio n)) ∧
      (∀ i, i < n → permutationOf draws n i < n ∧ permutationOf draws n i ≠ i) ∧
      ∀ (f : Fabric) (params : PermutationParams), f.hostCount = n → n < 2 ^ 32 →
        0 < params.loadPermille ∧ params.loadPermille ≤ 1000 →
        ∃ flows, makePermutation f params draws = some flows ∧
          flows.map FlowSpec.src = f.hosts ∧ (flows.map FlowSpec.dst).Perm f.hosts) ∧
    (∀ draws draws' : Draws, draws.Valid n → draws'.Valid n →
      (∀ i, i < n → permutationOf draws n i = permutationOf draws' n i) →
      ∀ i, 0 < i → i < n → draws.swap i = draws'.swap i) ∧
    (∀ σ : Equiv.Perm ℕ, σ.IsCycleOn (Set.Iio n) →
      ∃ draws : Draws, draws.Valid n ∧ ∀ i, i < n → permutationOf draws n i = σ i) := by
  refine ⟨fun draws h => ⟨⟨SingleCycle.spliced draws.swap (n - 1), ?_, ?_⟩, ?_, ?_⟩, ?_, ?_⟩
  · intro i _
    rw [permutationOf_eq]
  · exact permutationOf_cycle hn h
  · exact fun i hi => ⟨permutationOf_lt hn h hi, permutationOf_ne hn h hi⟩
  · intro f params hcount hfit hload
    exact makePermutation_hosts hn h hcount hfit hload
  · intro draws draws' h h' heq i hpos hi
    refine SingleCycle.spliced_inj (h.below (by omega)) (h'.below (by omega)) ?_ i hpos (by omega)
    intro x hx
    have hx := heq x (by omega)
    rw [permutationOf_eq, permutationOf_eq] at hx
    exact hx
  · intro σ hσ
    rw [← Iic_pred (by omega)] at hσ
    obtain ⟨j, hbelow, hj⟩ := SingleCycle.exists_spliced hσ
    refine ⟨{ swap := j }, fun i hpos hi => hbelow i hpos (by omega), fun i hi => ?_⟩
    rw [permutationOf_eq]
    exact hj i (by omega)

/-- Three hosts. -/
theorem permutation_single_cycle_three :
    permutationOf {} 3 1 < 3 ∧ permutationOf {} 3 1 ≠ 1 :=
  ((permutation_single_cycle 3 (by decide)).1 {} (fun i hpos _ => hpos)).2.1 1 (by decide)

end FabricSim
