import FabricSim.Lib.NearestRank
import FabricSim.Metrics.Fct

/-!
# What the summary of completion times says

A percentile is the observation of nearest rank (`percentileNs_isLeast`). The summary takes
its figures from the completion times of the flows that completed and from nothing else
(`summarizeFct_congr`), so neither the order of the flows nor those that never completed
count.
-/

namespace FabricSim

/-- The rank that `percentile_ns` reads, counted from 1. -/
def percentileRank (n permille : Nat) : Nat :=
  let rank := u64 (u64 (permille * n) + 999) / 1000
  if rank = 0 then 1 else rank

theorem percentileNs_eq (sorted : List Nat) (permille : Nat) :
    percentileNs sorted permille = sorted.getD (percentileRank sorted.length permille - 1) 0 := rfl

theorem percentileRank_pos (n permille : Nat) : 0 < percentileRank n permille := by
  unfold percentileRank
  dsimp only
  split <;> omega

/-- The rank is one of the sample's, however large the sample. -/
theorem percentileRank_le {n permille : Nat} (hn : 0 < n) (hp : permille ≤ 1000) :
    percentileRank n permille ≤ n := by
  have hmul : permille * n ≤ 1000 * n := Nat.mul_le_mul_right n hp
  have hround := u64_le (u64 (permille * n) + 999)
  have hprod := u64_le (permille * n)
  unfold percentileRank
  dsimp only
  split
  · exact hn
  · rw [← Nat.lt_succ_iff, Nat.div_lt_iff_lt_mul (by decide)]
    omega

/-- The rank is the rounded-up share, and 1 at least. -/
theorem percentileRank_le_iff {n permille : Nat} (hn : n < 2 ^ 54) (hp : permille ≤ 1000) {c : Nat}
    (hc : 0 < c) : percentileRank n permille ≤ c ↔ permille * n ≤ 1000 * c := by
  have hmul : permille * n ≤ 1000 * n := Nat.mul_le_mul_right n hp
  rw [← NearestRank.ceil_le_iff (by decide)]
  unfold percentileRank
  rw [u64_of_lt (show permille * n < 2 ^ 64 by omega), u64_of_lt (by omega)]
  dsimp only
  split
  · next h =>
    show 1 ≤ c ↔ (permille * n + 999) / 1000 ≤ c
    rw [h]
    exact iff_of_true hc (Nat.zero_le c)
  · exact Iff.rfl

section Percentile

variable {sorted : List Nat} {permille : Nat} (hne : sorted ≠ []) (hp : permille ≤ 1000)

include hne hp

theorem percentileRank_lt :
    percentileRank sorted.length permille - 1 < sorted.length := by
  have hpos := percentileRank_pos sorted.length permille
  have hle := percentileRank_le (List.length_pos_iff.mpr hne) hp
  omega

theorem percentileNs_eq_getElem : percentileNs sorted permille =
    sorted.get ⟨percentileRank sorted.length permille - 1, percentileRank_lt hne hp⟩ := by
  rw [percentileNs_eq]
  exact List.getD_eq_getElem _ _ (percentileRank_lt hne hp)

theorem percentileNs_mem : percentileNs sorted permille ∈ sorted := by
  rw [percentileNs_eq_getElem hne hp]
  exact List.get_mem ..

/-- The least observation that the given share of the sample does not exceed. -/
theorem percentileNs_isLeast (hsorted : sorted.Pairwise (· ≤ ·)) (hlen : sorted.length < 2 ^ 54) :
    IsLeast {x | x ∈ sorted ∧
      permille * sorted.length ≤ 1000 * sorted.countP (fun y => decide (y ≤ x))}
      (percentileNs sorted permille) := by
  have hpos := percentileRank_pos sorted.length permille
  have hleast := NearestRank.isLeast_getElem hsorted (percentileRank_lt hne hp)
  have hset : {x | x ∈ sorted ∧
      permille * sorted.length ≤ 1000 * sorted.countP (fun y => decide (y ≤ x))} =
      {x | x ∈ sorted ∧ percentileRank sorted.length permille - 1 + 1 ≤
        sorted.countP (fun y => decide (y ≤ x))} := by
    ext x
    refine and_congr_right fun hx => ?_
    rw [Nat.sub_add_cancel hpos]
    exact (percentileRank_le_iff hlen hp (NearestRank.countP_pos hx)).symm
  rw [percentileNs_eq_getElem hne hp, hset]
  exact hleast

/-- A larger share has a larger percentile. -/
theorem percentileNs_mono (hsorted : sorted.Pairwise (· ≤ ·)) (hlen : sorted.length < 2 ^ 54)
    {share : Nat} (hshare : share ≤ permille) :
    percentileNs sorted share ≤ percentileNs sorted permille := by
  obtain ⟨hmem, hcount⟩ := (percentileNs_isLeast hne hp hsorted hlen).1
  refine (percentileNs_isLeast hne (hshare.trans hp) hsorted hlen).2 ⟨hmem, ?_⟩
  exact (Nat.mul_le_mul_right _ hshare).trans hcount

end Percentile

/-! ## The summary -/

theorem completedFcts_pairwise (results : List FlowResult) :
    (completedFcts results).Pairwise (· ≤ ·) := List.pairwise_insertionSort _ _

theorem length_completedFcts (results : List FlowResult) :
    (completedFcts results).length = (results.filter FlowResult.complete).length := by
  unfold completedFcts
  rw [List.length_insertionSort, List.length_map]

/-- The completion times depend on the flows that completed, in any order. -/
theorem completedFcts_congr {results results' : List FlowResult}
    (h : (results.filter FlowResult.complete).Perm (results'.filter FlowResult.complete)) :
    completedFcts results = completedFcts results' := by
  refine List.Perm.eq_of_pairwise' (r := (· ≤ ·)) (completedFcts_pairwise results)
    (completedFcts_pairwise results') ?_
  unfold completedFcts
  exact (List.perm_insertionSort _ _).trans ((h.map _).trans (List.perm_insertionSort _ _).symm)

/-- The figures of a summary that are completion times. -/
def FctSummary.figures (s : FctSummary) : List Nat := [s.minNs, s.p50Ns, s.p90Ns, s.p99Ns, s.maxNs]

theorem summarizeFct_figures {results : List FlowResult} (hne : completedFcts results ≠ []) :
    (summarizeFct results).figures =
      [(completedFcts results).headD 0, percentileNs (completedFcts results) 500,
        percentileNs (completedFcts results) 900, percentileNs (completedFcts results) 990,
        (completedFcts results).getLastD 0] := by
  unfold summarizeFct
  dsimp only
  rw [if_neg hne]
  rfl

theorem completedFcts_ne_nil {results : List FlowResult} (h : ∃ r ∈ results, r.complete = true) :
    completedFcts results ≠ [] := by
  obtain ⟨r, hr, hcomplete⟩ := h
  exact List.ne_nil_of_mem (mem_completedFcts.mpr ⟨r, hr, hcomplete, rfl⟩)

theorem headD_le {l : List Nat} (hl : l.Pairwise (· ≤ ·)) {x : Nat} (hx : x ∈ l) : l.headD 0 ≤ x := by
  cases l with
  | nil => exact absurd hx List.not_mem_nil
  | cons a l =>
    rcases List.mem_cons.mp hx with rfl | hx
    · exact le_rfl
    · exact (List.pairwise_cons.mp hl).1 x hx

theorem le_getLastD {l : List Nat} (hl : l.Pairwise (· ≤ ·)) {x : Nat} (hx : x ∈ l) :
    x ≤ l.getLastD 0 := by
  have hne := List.ne_nil_of_mem hx
  rw [List.getLastD_eq_getLast?, List.getLast?_eq_some_getLast hne]
  show x ≤ l.getLast hne
  rw [← List.dropLast_append_getLast hne] at hl hx
  rcases List.mem_append.mp hx with hx | hx
  · exact (List.pairwise_append.mp hl).2.2 x hx _ (List.mem_singleton.mpr rfl)
  · exact (List.mem_singleton.mp hx).le

/-- Every figure is the completion time of a flow that completed. -/
theorem mem_figures {results : List FlowResult} (h : ∃ r ∈ results, r.complete = true) {t : Nat}
    (ht : t ∈ (summarizeFct results).figures) :
    ∃ r ∈ results, r.complete = true ∧ r.fctNs = t := by
  have hne := completedFcts_ne_nil h
  rw [summarizeFct_figures hne] at ht
  rw [← mem_completedFcts]
  have hhead : (completedFcts results).headD 0 ∈ completedFcts results := by
    rw [List.headD_eq_head?_getD, List.head?_eq_some_head hne]
    exact List.head_mem hne
  have hlast : (completedFcts results).getLastD 0 ∈ completedFcts results := by
    rw [List.getLastD_eq_getLast?, List.getLast?_eq_some_getLast hne]
    exact List.getLast_mem hne
  simp only [List.mem_cons, List.not_mem_nil, or_false] at ht
  rcases ht with rfl | rfl | rfl | rfl | rfl
  · exact hhead
  · exact percentileNs_mem hne (by decide)
  · exact percentileNs_mem hne (by decide)
  · exact percentileNs_mem hne (by decide)
  · exact hlast

/-- Least first, greatest last, and the percentiles in between. -/
theorem figures_ordered {results : List FlowResult} (h : ∃ r ∈ results, r.complete = true)
    (hlen : (completedFcts results).length < 2 ^ 54) :
    (summarizeFct results).minNs ≤ (summarizeFct results).p50Ns ∧
      (summarizeFct results).p50Ns ≤ (summarizeFct results).p90Ns ∧
      (summarizeFct results).p90Ns ≤ (summarizeFct results).p99Ns ∧
      (summarizeFct results).p99Ns ≤ (summarizeFct results).maxNs := by
  have hne := completedFcts_ne_nil h
  have hsorted := completedFcts_pairwise results
  have hfigures := summarizeFct_figures hne
  unfold FctSummary.figures at hfigures
  simp only [List.cons.injEq, and_true] at hfigures
  obtain ⟨hmin, h50, h90, h99, hmax⟩ := hfigures
  rw [hmin, h50, h90, h99, hmax]
  refine ⟨?_, ?_, ?_, ?_⟩
  · exact headD_le hsorted (percentileNs_mem hne (by decide))
  · exact percentileNs_mono hne (by decide) hsorted hlen (by decide)
  · exact percentileNs_mono hne (by decide) hsorted hlen (by decide)
  · exact le_getLastD hsorted (percentileNs_mem hne (by decide))

/-- Neither the order of the flows nor those that never completed change a figure. -/
theorem figures_congr {results results' : List FlowResult}
    (hperm : (results.filter FlowResult.complete).Perm (results'.filter FlowResult.complete)) :
    (summarizeFct results).figures = (summarizeFct results').figures := by
  have heq := completedFcts_congr hperm
  by_cases hne : completedFcts results = []
  · unfold summarizeFct
    dsimp only
    rw [if_pos hne, if_pos (heq ▸ hne)]
    rfl
  · rw [summarizeFct_figures hne, summarizeFct_figures (heq ▸ hne), heq]

theorem flowsTotal_eq (results : List FlowResult) :
    (summarizeFct results).flowsTotal = u32 results.length ∧
      (summarizeFct results).flowsComplete = u32 (results.filter FlowResult.complete).length ∧
      (summarizeFct results).flowsIncomplete =
        u32 (u32 results.length + 2 ^ 32 - u32 (results.filter FlowResult.complete).length) := by
  rw [← length_completedFcts]
  unfold summarizeFct
  dsimp only
  split
  · exact ⟨rfl, rfl, rfl⟩
  · exact ⟨rfl, rfl, rfl⟩

/-- The counts add up in the 32-bit arithmetic of the code, and as numbers while the flows
can be counted in it. -/
theorem flows_add (results : List FlowResult) :
    u32 ((summarizeFct results).flowsComplete + (summarizeFct results).flowsIncomplete) =
        (summarizeFct results).flowsTotal ∧
      (results.length < 2 ^ 32 →
        (summarizeFct results).flowsTotal = results.length ∧
        (summarizeFct results).flowsComplete = (results.filter FlowResult.complete).length ∧
        (summarizeFct results).flowsComplete + (summarizeFct results).flowsIncomplete =
          (summarizeFct results).flowsTotal) := by
  obtain ⟨htotal, hcomplete, hincomplete⟩ := flowsTotal_eq results
  have hle := List.length_filter_le FlowResult.complete results
  rw [htotal, hcomplete, hincomplete]
  constructor
  · unfold u32
    omega
  · intro hfit
    rw [u32_of_lt hfit, u32_of_lt (hle.trans_lt hfit)]
    refine ⟨rfl, rfl, ?_⟩
    unfold u32
    omega

/-- A percentile is the observation of nearest rank. The figures of a summary are times of
flows that completed, in order, and depend on nothing else, and the flows that did not
complete are counted. -/
theorem fct_summary_nearest_rank :
    (∀ (sorted : List Nat) (permille : Nat), sorted ≠ [] → sorted.Pairwise (· ≤ ·) →
      sorted.length < 2 ^ 54 → permille ≤ 1000 →
      percentileRank sorted.length permille - 1 < sorted.length ∧
      percentileNs sorted permille =
        sorted.getD (percentileRank sorted.length permille - 1) 0 ∧
      IsLeast {x | x ∈ sorted ∧
        permille * sorted.length ≤ 1000 * sorted.countP (fun y => decide (y ≤ x))}
        (percentileNs sorted permille)) ∧
    ∀ results : List FlowResult,
      ((∃ r ∈ results, r.complete = true) →
        (∀ t ∈ (summarizeFct results).figures, ∃ r ∈ results, r.complete = true ∧ r.fctNs = t) ∧
        ((completedFcts results).length < 2 ^ 54 →
          (summarizeFct results).minNs ≤ (summarizeFct results).p50Ns ∧
          (summarizeFct results).p50Ns ≤ (summarizeFct results).p90Ns ∧
          (summarizeFct results).p90Ns ≤ (summarizeFct results).p99Ns ∧
          (summarizeFct results).p99Ns ≤ (summarizeFct results).maxNs) ∧
        ∀ results', (results.filter FlowResult.complete).Perm
          (results'.filter FlowResult.complete) →
          (summarizeFct results').figures = (summarizeFct results).figures) ∧
      u32 ((summarizeFct results).flowsComplete + (summarizeFct results).flowsIncomplete) =
        (summarizeFct results).flowsTotal ∧
      (results.length < 2 ^ 32 →
        (summarizeFct results).flowsTotal = results.length ∧
        (summarizeFct results).flowsComplete = (results.filter FlowResult.complete).length ∧
        (summarizeFct results).flowsComplete + (summarizeFct results).flowsIncomplete =
          (summarizeFct results).flowsTotal) := by
  refine ⟨fun sorted permille hne hsorted hlen hp => ⟨?_, ?_, ?_⟩,
    fun results => ⟨fun h => ⟨fun t ht => mem_figures h ht, figures_ordered h,
      fun results' hperm => (figures_congr hperm).symm⟩, flows_add results⟩⟩
  · exact percentileRank_lt hne hp
  · exact percentileNs_eq sorted permille
  · exact percentileNs_isLeast hne hp hsorted hlen

/-- Three observations, the last two the same, and a share of one half; one flow that
completed and one that did not. -/
theorem fct_summary_nearest_rank_half :
    IsLeast {x | x ∈ [10, 20, 20] ∧
      500 * 3 ≤ 1000 * [10, 20, 20].countP (fun y => decide (y ≤ x))} 20 ∧
      (summarizeFct [{ finishNs := 5, complete := true }, {}]).p50Ns ≤
        (summarizeFct [{ finishNs := 5, complete := true }, {}]).p90Ns := by
  have hleast := fct_summary_nearest_rank.1 [10, 20, 20] 500 (by decide) (by decide) (by decide)
    (by decide)
  have hvalue : percentileNs [10, 20, 20] 500 = 20 := by
    rw [hleast.2.1]
    decide +kernel
  rw [hvalue] at hleast
  have hsummary := fct_summary_nearest_rank.2 [{ finishNs := 5, complete := true }, {}]
  exact ⟨hleast.2.2, ((hsummary.1 ⟨_, List.mem_cons_self .., rfl⟩).2.1 (by decide)).2.1⟩

end FabricSim
