import Mathlib.Data.List.Flatten
import Mathlib.Data.List.Range

/-!
# Two-digit indices

Below `a * b` an index is two digits, `i / b` below `a` and `i % b` below `b`. A pair
of nested loops runs through them in order (`flatMap_map_range`), and where one turn of a
loop contributes the result is that turn's (`flatMap_range_single`,
`filterMap_range_block`). Exchanging the digits maps the two readings of the range onto each
other (`swap_swap`).
-/

namespace Digits

variable {α : Type}

/-- A range in blocks. -/
theorem range_mul (a b : Nat) :
    List.range (a * b) = (List.range a).flatMap fun i => (List.range b).map (i * b + ·) := by
  induction a with
  | zero => rw [Nat.zero_mul, List.range_zero, List.flatMap_nil]
  | succ a ih =>
    rw [Nat.succ_mul, List.range_add, ih, List.range_succ, List.flatMap_append,
      List.flatMap_singleton]

theorem block_div {b i j : Nat} (hj : j < b) : (i * b + j) / b = i := by
  rw [Nat.mul_comm, Nat.mul_add_div (by omega), Nat.div_eq_of_lt hj, Nat.add_zero]

theorem block_mod {b i j : Nat} (hj : j < b) : (i * b + j) % b = j := by
  rw [Nat.mul_comm, Nat.mul_add_mod, Nat.mod_eq_of_lt hj]

theorem block_lt {a b i j : Nat} (hi : i < a) (hj : j < b) : i * b + j < a * b := by
  calc i * b + j < (i + 1) * b := by
        rw [Nat.succ_mul]
        omega
    _ ≤ a * b := Nat.mul_le_mul_right _ hi

/-- Two nested loops are one loop over both digits. -/
theorem flatMap_map_range (f : Nat → Nat → α) (a b : Nat) :
    ((List.range a).flatMap fun i => (List.range b).map (f i)) =
      (List.range (a * b)).map fun k => f (k / b) (k % b) := by
  rw [range_mul, List.map_flatMap]
  refine List.flatMap_congr fun i _ => ?_
  rw [List.map_map]
  refine List.map_congr_left fun j hj => ?_
  have hj := List.mem_range.mp hj
  show f i j = f ((i * b + j) / b) ((i * b + j) % b)
  rw [block_div hj, block_mod hj]

/-! ## Loops that pick -/

/-- Only one turn of a loop contributes. -/
theorem flatMap_range_single {f : Nat → List α} {m i : Nat} (hi : i < m)
    (h : ∀ j, j < m → j ≠ i → f j = []) : (List.range m).flatMap f = f i := by
  induction m with
  | zero => exact absurd hi (Nat.not_lt_zero i)
  | succ m ih =>
    rw [List.range_succ, List.flatMap_append, List.flatMap_singleton]
    rcases Nat.lt_succ_iff_lt_or_eq.mp hi with hlt | rfl
    · rw [ih hlt fun j hj => h j (by omega), h m (by omega) (by omega), List.append_nil]
    · have hnil : (List.range i).flatMap f = [] := by
        rw [List.flatMap_eq_nil_iff]
        intro j hj
        have hj := List.mem_range.mp hj
        exact h j (by omega) (by omega)
      rw [hnil, List.nil_append]

/-- Every turn contributes one item. -/
theorem flatMap_range_map {f : Nat → List α} {g : Nat → α} {m : Nat}
    (h : ∀ i, i < m → f i = [g i]) : (List.range m).flatMap f = (List.range m).map g := by
  rw [List.map_eq_flatMap]
  exact List.flatMap_congr fun i hi => h i (List.mem_range.mp hi)

theorem filterMap_range_nil {f : Nat → Option α} {m : Nat}
    (h : ∀ i, i < m → f i = none) : (List.range m).filterMap f = [] :=
  List.filterMap_eq_nil_iff.mpr fun i hi => h i (List.mem_range.mp hi)

theorem filterMap_range_single {f : Nat → Option α} {m i : Nat} {x : α} (hi : i < m)
    (hx : f i = some x) (h : ∀ j, j < m → j ≠ i → f j = none) :
    (List.range m).filterMap f = [x] := by
  rw [List.filterMap_eq_flatMap_toList, flatMap_range_single hi, hx]
  · rfl
  · intro j hj hne
    rw [h j hj hne]
    rfl

/-- Only one block of a range contributes. -/
theorem filterMap_range_block {f : Nat → Option α} {g : Nat → α} {m w q : Nat}
    (hq : q < m) (hin : ∀ x, x < w → f (q * w + x) = some (g x))
    (hout : ∀ r, r < m → r ≠ q → ∀ x, x < w → f (r * w + x) = none) :
    (List.range (m * w)).filterMap f = (List.range w).map g := by
  rw [range_mul, List.filterMap_flatMap, flatMap_range_single hq, List.filterMap_map,
    ← List.filterMap_eq_map]
  · refine List.filterMap_congr fun x hx => ?_
    exact hin x (List.mem_range.mp hx)
  · intro r hr hne
    rw [List.filterMap_map, List.filterMap_eq_nil_iff]
    intro x hx
    exact hout r hr hne x (List.mem_range.mp hx)

theorem filter_map_range_single {g : Nat → α} {p : α → Bool} {m i : Nat} (hi : i < m)
    (hp : p (g i) = true) (h : ∀ j, j < m → j ≠ i → p (g j) = false) :
    ((List.range m).map g).filter p = [g i] := by
  rw [← List.filterMap_eq_filter, List.filterMap_map]
  refine filterMap_range_single hi ?_ fun j hj hne => ?_
  · exact Option.guard_eq_some_iff.mpr ⟨rfl, hp⟩
  · exact Option.guard_eq_none_iff.mpr (h j hj hne)

/-! ## Exchange -/

/-- The low digit to the base `a` becomes the high digit to the base `b`. -/
def swap (a b r : Nat) : Nat := r % a * b + r / a

section Swap

variable {a b r : Nat}

theorem div_lt (h : r < a * b) : r / a < b := Nat.div_lt_of_lt_mul h

theorem swap_lt (h : r < a * b) : swap a b r < a * b := by
  have ha : 0 < a := Nat.pos_of_ne_zero fun hzero => by
    rw [hzero, Nat.zero_mul] at h
    exact absurd h (Nat.not_lt_zero r)
  exact block_lt (Nat.mod_lt _ ha) (div_lt h)

theorem swap_div (h : r < a * b) : swap a b r / b = r % a := block_div (div_lt h)

theorem swap_mod (h : r < a * b) : swap a b r % b = r / a := block_mod (div_lt h)

theorem swap_swap (h : r < a * b) : swap b a (swap a b r) = r := by
  show swap a b r % b * a + swap a b r / b = r
  rw [swap_mod h, swap_div h, Nat.mul_comm]
  exact Nat.div_add_mod r a

end Swap

end Digits
