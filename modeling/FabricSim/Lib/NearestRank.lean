import Mathlib.Data.List.Count
import Mathlib.Order.Bounds.Basic

/-!
# The entry of a rank

In an ascending list the entries up to `x` come first, so the entry at index `i` is at
most `x` if and only if more than `i` entries are (`lt_countP_iff`). So the entry of rank
`k` is the least one that `k` entries do not exceed (`isLeast_getElem`), whether entries
repeat or not. The rank itself is often a rounded-up quotient (`ceil_le_iff`).
-/

namespace NearestRank

variable {α : Type*} [LinearOrder α]

theorem lt_countP_iff {l : List α} (hl : l.Pairwise (· ≤ ·)) {i : Nat} (hi : i < l.length) (x : α) :
    i < l.countP (fun y => decide (y ≤ x)) ↔ l[i] ≤ x := by
  induction l generalizing i with
  | nil => exact absurd hi (Nat.not_lt_zero i)
  | cons a l ih =>
    obtain ⟨hhead, htail⟩ := List.pairwise_cons.mp hl
    rw [List.countP_cons]
    by_cases hax : a ≤ x
    · rw [if_pos (decide_eq_true hax)]
      cases i with
      | zero => exact iff_of_true (Nat.succ_pos _) hax
      | succ i =>
        rw [Nat.add_lt_add_iff_right]
        exact ih htail (Nat.lt_of_succ_lt_succ hi)
    · -- the head is the least entry, so none is as small as `x`
      have hnone : l.countP (fun y => decide (y ≤ x)) = 0 := by
        rw [List.countP_eq_zero]
        intro y hy
        rw [decide_eq_true_iff]
        exact fun hyx => hax ((hhead y hy).trans hyx)
      have hge : a ≤ (a :: l)[i] := by
        cases i with
        | zero => exact le_rfl
        | succ i => exact hhead _ (List.getElem_mem _)
      rw [hnone, if_neg (by rw [decide_eq_true_iff]; exact hax)]
      exact iff_of_false (Nat.not_lt_zero i) fun h => hax (hge.trans h)

/-- The entry of rank `i + 1`. -/
theorem isLeast_getElem {l : List α} (hl : l.Pairwise (· ≤ ·)) {i : Nat} (hi : i < l.length) :
    IsLeast {x | x ∈ l ∧ i + 1 ≤ l.countP (fun y => decide (y ≤ x))} l[i] := by
  constructor
  · exact ⟨List.getElem_mem hi, (lt_countP_iff hl hi _).mpr le_rfl⟩
  · intro x hx
    exact (lt_countP_iff hl hi x).mp hx.2

/-- Every entry counts itself. -/
theorem countP_pos {l : List α} {x : α} (hx : x ∈ l) :
    0 < l.countP (fun y => decide (y ≤ x)) :=
  List.countP_pos_iff.mpr ⟨x, hx, decide_eq_true le_rfl⟩

theorem ceil_le_iff {m : Nat} (hm : 0 < m) {a c : Nat} : (a + (m - 1)) / m ≤ c ↔ a ≤ m * c := by
  rw [← Nat.lt_succ_iff, Nat.div_lt_iff_lt_mul hm, Nat.succ_mul, Nat.mul_comm c]
  omega

end NearestRank
