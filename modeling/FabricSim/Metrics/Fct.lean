import FabricSim.Core.Simulation
import Mathlib.Data.List.Sort

/-!
# Completion-time statistics

What the harness reports of the results of a run: the order statistics of the
completion times of the flows that finished, and the time a collective took, which is
0 unless all did.
-/

namespace FabricSim

/-- The results of all flows, in the order of their ids. -/
def Simulation.results (sim : Simulation) (s : State) : List FlowResult :=
  (List.range sim.flowCount).map s.result

/-- The nearest rank of an ascending sample. -/
def percentileNs (sorted : List Nat) (permille : Nat) : Nat :=
  let rank := u64 (u64 (permille * sorted.length) + 999) / 1000
  let rank := if rank = 0 then 1 else rank
  sorted.getD (rank - 1) 0

/-- The completion times of the flows that finished, ascending. -/
def completedFcts (results : List FlowResult) : List Nat :=
  ((results.filter FlowResult.complete).map FlowResult.fctNs).insertionSort (· ≤ ·)

/-- The loop of `collective_time_ns`, with the latest finish so far. -/
def latestFinish (last : Nat) : List FlowResult → Nat
  | [] => last
  | r :: results =>
    if r.complete = false then 0
    else latestFinish (if last < r.finishNs then r.finishNs else last) results

/-- When the last flow finished; 0 if one never did. -/
def collectiveTimeNs (results : List FlowResult) : Nat := latestFinish 0 results

structure FctSummary where
  flowsTotal : Nat := 0
  flowsComplete : Nat := 0
  flowsIncomplete : Nat := 0
  minNs : Nat := 0
  p50Ns : Nat := 0
  p90Ns : Nat := 0
  p99Ns : Nat := 0
  maxNs : Nat := 0
  meanNs : Nat := 0
  deriving DecidableEq, Repr

def summarizeFct (results : List FlowResult) : FctSummary :=
  let fcts := completedFcts results
  let total := u32 results.length
  let complete := u32 fcts.length
  let s : FctSummary :=
    { flowsTotal := total, flowsComplete := complete,
      flowsIncomplete := u32 (total + 2 ^ 32 - complete) }
  if fcts = [] then s
  else
    { s with
      minNs := fcts.headD 0
      maxNs := fcts.getLastD 0
      p50Ns := percentileNs fcts 500
      p90Ns := percentileNs fcts 900
      p99Ns := percentileNs fcts 990
      meanNs := u64 fcts.sum / fcts.length }

theorem mem_results {sim : Simulation} {s : State} {r : FlowResult} :
    r ∈ sim.results s ↔ ∃ f, f < sim.flowCount ∧ s.result f = r := by
  unfold Simulation.results
  rw [List.mem_map]
  simp only [List.mem_range]

theorem mem_completedFcts {results : List FlowResult} {t : Nat} :
    t ∈ completedFcts results ↔ ∃ r ∈ results, r.complete = true ∧ r.fctNs = t := by
  unfold completedFcts
  rw [List.mem_insertionSort, List.mem_map]
  simp only [List.mem_filter, and_assoc]

/-- The least completion time is that of a flow that completed. -/
theorem minNs_mem {results : List FlowResult} (h : completedFcts results ≠ []) :
    ∃ r ∈ results, r.complete = true ∧ r.fctNs = (summarizeFct results).minNs := by
  rw [← mem_completedFcts]
  unfold summarizeFct
  dsimp only
  rw [if_neg h]
  dsimp only
  rw [List.headD_eq_head?_getD, List.head?_eq_some_head h]
  exact List.head_mem h

/-- Once all flows are complete, the collective is as late as its last flow. -/
theorem latestFinish_ge {results : List FlowResult} (hall : ∀ r ∈ results, r.complete = true)
    (last : Nat) : last ≤ latestFinish last results ∧
      ∀ r ∈ results, r.finishNs ≤ latestFinish last results := by
  induction results generalizing last with
  | nil => exact ⟨le_rfl, fun _ hr => absurd hr List.not_mem_nil⟩
  | cons r results ih =>
    have hr := hall r (List.mem_cons_self ..)
    obtain ⟨hlast, hrest⟩ := ih (fun r hr => hall r (List.mem_cons_of_mem _ hr))
      (if last < r.finishNs then r.finishNs else last)
    unfold latestFinish
    rw [if_neg (by rw [hr]; decide)]
    refine ⟨le_trans ?_ hlast, fun r' hr' => ?_⟩
    · split <;> omega
    · rcases List.mem_cons.mp hr' with rfl | hr'
      · refine le_trans ?_ hlast
        split <;> omega
      · exact hrest r' hr'

theorem finishNs_le_collectiveTimeNs {results : List FlowResult}
    (hall : ∀ r ∈ results, r.complete = true) {r : FlowResult} (hr : r ∈ results) :
    r.finishNs ≤ collectiveTimeNs results := (latestFinish_ge hall 0).2 r hr

end FabricSim
