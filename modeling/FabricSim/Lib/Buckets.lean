import Mathlib.Order.Interval.Finset.Nat

/-!
# Scaling a range onto fewer values

`t ↦ t * n / N` maps `0, …, N - 1` onto `0, …, n - 1` in runs: index `i` gets the
`t` from `⌈i * N / n⌉` to `⌈(i + 1) * N / n⌉`. So each index gets `⌊N / n⌋` or
`⌈N / n⌉` of them, whether `n` divides `N` or not.
-/

namespace Buckets

variable {N n : Nat}

/-- The first of the values that are scaled to `i` or above. -/
def first (N n i : Nat) : Nat := (i * N + (n - 1)) / n

theorem first_le_iff (hn : 0 < n) {i t : Nat} : first N n i ≤ t ↔ i * N ≤ t * n := by
  unfold first
  rw [← Nat.lt_succ_iff, Nat.div_lt_iff_lt_mul hn, Nat.succ_mul]
  omega

/-- The values scaled to `i`. -/
def bucket (N n i : Nat) : Finset Nat := Finset.Ico (first N n i) (first N n (i + 1))

theorem mem_bucket (hN : 0 < N) (hn : 0 < n) {i t : Nat} : t ∈ bucket N n i ↔ t * n / N = i := by
  unfold bucket
  rw [Finset.mem_Ico, first_le_iff hn, ← not_le, first_le_iff hn, not_le,
    Nat.div_eq_iff hN, Nat.succ_mul]
  omega

theorem first_succ_le (hn : 0 < n) (i : Nat) :
    first N n (i + 1) ≤ first N n i + (N + (n - 1)) / n := by
  have hceil : N ≤ n * ((N + (n - 1)) / n) := by
    have := Nat.lt_mul_div_succ (N + (n - 1)) hn
    rw [Nat.mul_add] at this
    omega
  unfold first
  calc ((i + 1) * N + (n - 1)) / n
      ≤ (i * N + (n - 1) + n * ((N + (n - 1)) / n)) / n := by
        refine Nat.div_le_div_right ?_
        rw [Nat.succ_mul]
        omega
    _ = (i * N + (n - 1)) / n + (N + (n - 1)) / n := Nat.add_mul_div_left _ _ hn

theorem first_add_le (i : Nat) : first N n i + N / n ≤ first N n (i + 1) := by
  unfold first
  calc (i * N + (n - 1)) / n + N / n ≤ (i * N + (n - 1) + N) / n := Nat.div_add_div_le_add_div ..
    _ = ((i + 1) * N + (n - 1)) / n := by
        congr 1
        rw [Nat.succ_mul]
        omega

theorem card_bucket_bounds (hn : 0 < n) (i : Nat) :
    N / n ≤ (bucket N n i).card ∧ (bucket N n i).card ≤ (N + (n - 1)) / n := by
  unfold bucket
  rw [Nat.card_Ico]
  have hlo := @first_add_le N n i
  have hhi := @first_succ_le N n hn i
  exact ⟨by omega, Nat.sub_le_iff_le_add'.mpr hhi⟩

theorem ceil_le_floor_succ (hn : 0 < n) : (N + (n - 1)) / n ≤ N / n + 1 := by
  calc (N + (n - 1)) / n ≤ (N + n) / n := Nat.div_le_div_right (by omega)
    _ = N / n + 1 := Nat.add_div_right _ hn

/-- Every index gets its share, rounded down or up. -/
theorem card_bucket (hn : 0 < n) (i : Nat) :
    (bucket N n i).card = N / n ∨ (bucket N n i).card = (N + (n - 1)) / n := by
  obtain ⟨hlo, hhi⟩ := card_bucket_bounds (N := N) hn i
  have := ceil_le_floor_succ (N := N) hn
  omega

/-- No index gets two more than another. -/
theorem card_bucket_le_succ (hn : 0 < n) (i j : Nat) :
    (bucket N n i).card ≤ (bucket N n j).card + 1 := by
  obtain ⟨-, hhi⟩ := card_bucket_bounds (N := N) hn i
  obtain ⟨hlo, -⟩ := card_bucket_bounds (N := N) hn j
  have := ceil_le_floor_succ (N := N) hn
  omega

/-- Each index gets some, when there are enough. -/
theorem bucket_nonempty (hn : 0 < n) (h : n ≤ N) (i : Nat) : (bucket N n i).Nonempty := by
  rw [← Finset.card_pos]
  have hshare : 0 < N / n := Nat.div_pos h hn
  exact lt_of_lt_of_le hshare (card_bucket_bounds hn i).1

/-- The values scaled to an index in range are in range. -/
theorem lt_of_mem_bucket (hN : 0 < N) (hn : 0 < n) {i t : Nat} (hi : i < n)
    (h : t ∈ bucket N n i) : t < N := by
  rw [mem_bucket hN hn, Nat.div_eq_iff hN] at h
  by_contra hge
  have hbig : N * n ≤ t * n := Nat.mul_le_mul_right _ (not_lt.mp hge)
  have hsmall : i * N + N ≤ N * n := by
    rw [← Nat.succ_mul, Nat.mul_comm]
    exact Nat.mul_le_mul_left _ hi
  omega

end Buckets
