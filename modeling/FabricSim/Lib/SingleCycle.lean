import Mathlib.GroupTheory.Perm.Cycle.Basic
import Mathlib.Order.Interval.Set.Nat

/-!
# Growing one cycle

A transposition that involves a fixed point splices it into a cycle
(`isCycleOn_insert`), and the transposition of a point of a cycle with its image takes
it out again (`isCycleOn_remove`). So the product of the transpositions `(m, j m)` with
`j m < m` is one cycle through all points so far (`isCycleOn_spliced`), and every such
cycle is such a product, in one way only (`exists_spliced`, `spliced_inj`).
-/

namespace SingleCycle

open Equiv Equiv.Perm

section Splice

variable {α : Type} {f g : Perm α} {s : Set α} {m j x y : α}

theorem sameCycle_of_apply (h : g x = y) : g.SameCycle x y := by
  rw [← h]
  exact sameCycle_apply_right.mpr SameCycle.rfl

theorem isCycleOn_of_mapsTo (hs : s.Finite) (hmaps : Set.MapsTo g s s)
    (hall : ∀ x ∈ s, ∀ y ∈ s, g.SameCycle x y) : g.IsCycleOn s :=
  ⟨(hs.injOn_iff_bijOn_of_mapsTo hmaps).mp g.injective.injOn, fun x hx y hy => hall x hx y hy⟩

variable [DecidableEq α]

theorem swap_mul_of_ne (hm : f x ≠ m) (hj : f x ≠ j) : (swap m j * f) x = f x := by
  rw [Perm.mul_apply, swap_apply_of_ne_of_ne hm hj]

theorem isCycleOn_insert (hs : s.Finite) (hf : f.IsCycleOn s) (hj : j ∈ s) (hm : m ∉ s)
    (hfix : f m = m) : (swap m j * f).IsCycleOn (insert m s) := by
  have hnew : (swap m j * f) m = j := by rw [Perm.mul_apply, hfix, swap_apply_left]
  have hold : ∀ x, f x = j → (swap m j * f) x = m := by
    intro x hx
    rw [Perm.mul_apply, hx, swap_apply_right]
  have hmaps : Set.MapsTo (swap m j * f) (insert m s) (insert m s) := by
    rintro x (rfl | hx)
    · rw [hnew]
      exact Set.mem_insert_of_mem _ hj
    · have hfx := hf.1.mapsTo hx
      by_cases hxj : f x = j
      · rw [hold x hxj]
        exact Set.mem_insert _ _
      · have hfm : f x ≠ m := fun h => hm (h ▸ hfx)
        rw [swap_mul_of_ne hfm hxj]
        exact Set.mem_insert_of_mem _ hfx
  have hstep : ∀ x ∈ s, (swap m j * f).SameCycle x (f x) := by
    intro x hx
    have hfm : f x ≠ m := fun h => hm (h ▸ hf.1.mapsTo hx)
    by_cases hxj : f x = j
    · -- the way from `x` to `j` leads through `m` now
      rw [hxj]
      exact (sameCycle_of_apply (hold x hxj)).trans (sameCycle_of_apply hnew)
    · exact sameCycle_of_apply (swap_mul_of_ne hfm hxj)
  have hpow : ∀ (k : ℕ) (x : α), x ∈ s → (swap m j * f).SameCycle x ((f ^ k) x) := by
    intro k
    induction k with
    | zero => exact fun x _ => SameCycle.rfl
    | succ k ih =>
      intro x hx
      rw [pow_succ, Perm.mul_apply]
      exact (hstep x hx).trans (ih (f x) (hf.1.mapsTo hx))
  have hjoin : ∀ x ∈ insert m s, (swap m j * f).SameCycle x j := by
    rintro x (rfl | hx)
    · exact sameCycle_of_apply hnew
    · obtain ⟨k, rfl⟩ := hf.exists_pow_eq' hs hx hj
      exact hpow k x hx
  exact isCycleOn_of_mapsTo (hs.insert m) hmaps
    fun x hx y hy => (hjoin x hx).trans (hjoin y hy).symm

theorem isCycleOn_remove (hs : s.Finite) (hf : f.IsCycleOn (insert m s)) (hm : m ∉ s)
    (hne : f m ≠ m) : (swap m (f m) * f).IsCycleOn s := by
  have hmem : ∀ x ∈ s, f x ≠ m → f x ∈ s := fun x hx hfx =>
    (hf.1.mapsTo (Set.mem_insert_of_mem m hx)).resolve_left hfx
  have hfm : f m ∈ s := (hf.1.mapsTo (Set.mem_insert m s)).resolve_left hne
  have hshort : ∀ x, f x = m → (swap m (f m) * f) x = f m := by
    intro x hx
    rw [Perm.mul_apply, hx, swap_apply_left]
  have hkeep : ∀ x ∈ s, f x ≠ m → (swap m (f m) * f) x = f x := by
    intro x hx hfx
    exact swap_mul_of_ne hfx fun h => hm (f.injective h ▸ hx)
  have hmaps : Set.MapsTo (swap m (f m) * f) s s := by
    intro x hx
    by_cases hfx : f x = m
    · rw [hshort x hfx]
      exact hfm
    · rw [hkeep x hx hfx]
      exact hmem x hx hfx
  -- a way of `f` between points of `s`, with its stops at `m` left out
  have hpow : ∀ (k : ℕ) (x : α), x ∈ s → (f ^ k) x ∈ s →
      (swap m (f m) * f).SameCycle x ((f ^ k) x) := by
    intro k
    induction k using Nat.strong_induction_on with
    | _ k ih =>
      intro x hx hk
      match k with
      | 0 => exact SameCycle.rfl
      | 1 =>
        have hfx : f x ≠ m := fun h => hm (h ▸ hk)
        exact sameCycle_of_apply (hkeep x hx hfx)
      | k + 2 =>
        by_cases hfx : f x = m
        · have htwo : (f ^ (k + 2)) x = (f ^ k) (f m) := by
            rw [pow_succ, pow_succ, Perm.mul_apply, Perm.mul_apply, hfx]
          rw [htwo] at hk ⊢
          exact (sameCycle_of_apply (hshort x hfx)).trans (ih k (by omega) (f m) hfm hk)
        · have hone : (f ^ (k + 2)) x = (f ^ (k + 1)) (f x) := by
            rw [pow_succ, Perm.mul_apply]
          rw [hone] at hk ⊢
          exact (sameCycle_of_apply (hkeep x hx hfx)).trans
            (ih (k + 1) (by omega) (f x) (hmem x hx hfx) hk)
  refine isCycleOn_of_mapsTo hs hmaps fun x hx y hy => ?_
  obtain ⟨k, rfl⟩ := hf.exists_pow_eq' (hs.insert m) (Set.mem_insert_of_mem m hx)
    (Set.mem_insert_of_mem m hy)
  exact hpow k x hx hy

end Splice

/-! ## Products of transpositions -/

/-- Each point from 1 to `m`, spliced in where `j` says. -/
def spliced (j : ℕ → ℕ) : ℕ → Perm ℕ
  | 0 => 1
  | m + 1 => swap (m + 1) (j (m + 1)) * spliced j m

/-- Every choice is a point that is there already. -/
def Below (j : ℕ → ℕ) (m : ℕ) : Prop := ∀ i, 0 < i → i ≤ m → j i < i

variable {j j' : ℕ → ℕ} {m : ℕ}

theorem Below.mono (h : Below j (m + 1)) : Below j m := fun i hpos hi => h i hpos (by omega)

theorem Below.last (h : Below j (m + 1)) : j (m + 1) < m + 1 := h (m + 1) (by omega) (by omega)

theorem spliced_fix (h : Below j m) {x : ℕ} (hx : m < x) : spliced j m x = x := by
  induction m with
  | zero => rfl
  | succ m ih =>
    have hlast := h.last
    show swap (m + 1) (j (m + 1)) (spliced j m x) = x
    rw [ih h.mono (by omega), swap_apply_of_ne_of_ne (by omega) (by omega)]

theorem spliced_last (h : Below j (m + 1)) : spliced j (m + 1) (m + 1) = j (m + 1) := by
  show swap (m + 1) (j (m + 1)) (spliced j m (m + 1)) = _
  rw [spliced_fix h.mono (Nat.lt_succ_self m), swap_apply_left]

theorem spliced_congr (h : ∀ i, i ≤ m → j i = j' i) : spliced j m = spliced j' m := by
  induction m with
  | zero => rfl
  | succ m ih =>
    show swap (m + 1) (j (m + 1)) * spliced j m = swap (m + 1) (j' (m + 1)) * spliced j' m
    rw [h (m + 1) le_rfl, ih fun i hi => h i (by omega)]

theorem insert_Iic (m : ℕ) : insert (m + 1) (Set.Iic m) = Set.Iic (m + 1) := by
  ext x
  rw [Set.mem_insert_iff, Set.mem_Iic, Set.mem_Iic]
  omega

theorem isCycleOn_spliced (h : Below j m) : (spliced j m).IsCycleOn (Set.Iic m) := by
  induction m with
  | zero =>
    rw [show Set.Iic 0 = ({0} : Set ℕ) from by ext x; simp, isCycleOn_singleton]
    rfl
  | succ m ih =>
    have hlast := h.last
    rw [← insert_Iic]
    refine isCycleOn_insert (Set.finite_Iic m) (ih h.mono) ?_ ?_
      (spliced_fix h.mono (Nat.lt_succ_self m))
    · exact Set.mem_Iic.mpr (by omega)
    · exact fun hmem => absurd (Set.mem_Iic.mp hmem) (by omega)

theorem spliced_inj (h : Below j m) (h' : Below j' m)
    (heq : ∀ x, x ≤ m → spliced j m x = spliced j' m x) : ∀ i, 0 < i → i ≤ m → j i = j' i := by
  induction m with
  | zero => exact fun i hpos hi => absurd hpos (by omega)
  | succ m ih =>
    have hlast : j (m + 1) = j' (m + 1) := by
      rw [← spliced_last h, ← spliced_last h', heq (m + 1) le_rfl]
    intro i hpos hi
    rcases Nat.lt_succ_iff_lt_or_eq.mp (Nat.lt_succ_of_le hi) with hlt | rfl
    · refine ih h.mono h'.mono (fun x hx => ?_) i hpos (by omega)
      have hx := heq x (by omega)
      change swap (m + 1) (j (m + 1)) (spliced j m x) =
        swap (m + 1) (j' (m + 1)) (spliced j' m x) at hx
      rw [hlast] at hx
      exact (swap (m + 1) (j' (m + 1))).injective hx
    · exact hlast

theorem exists_spliced {f : Perm ℕ} (hf : f.IsCycleOn (Set.Iic m)) :
    ∃ j, Below j m ∧ ∀ x, x ≤ m → spliced j m x = f x := by
  induction m generalizing f with
  | zero =>
    refine ⟨fun _ => 0, fun i hpos hi => absurd hpos (by omega), fun x hx => ?_⟩
    obtain rfl : x = 0 := by omega
    have hzero := Set.mem_Iic.mp (hf.1.mapsTo (Set.mem_Iic.mpr (le_refl 0)))
    exact (Nat.le_zero.mp hzero).symm
  | succ m ih =>
    have hne : f (m + 1) ≠ m + 1 := by
      refine hf.apply_ne ⟨0, by simp, m + 1, by simp, by omega⟩ (by simp)
    have hle : f (m + 1) ≤ m + 1 := hf.1.mapsTo (Set.mem_Iic.mpr le_rfl)
    rw [← insert_Iic] at hf
    have hout : m + 1 ∉ Set.Iic m := fun hmem => absurd (Set.mem_Iic.mp hmem) (by omega)
    obtain ⟨j, hbelow, hj⟩ := ih (isCycleOn_remove (Set.finite_Iic m) hf hout hne)
    have hsame : spliced (Function.update j (m + 1) (f (m + 1))) m = spliced j m :=
      spliced_congr fun i hi => Function.update_of_ne (by omega) _ _
    refine ⟨Function.update j (m + 1) (f (m + 1)), fun i hpos hi => ?_, fun x hx => ?_⟩
    · rcases Nat.lt_succ_iff_lt_or_eq.mp (Nat.lt_succ_of_le hi) with hlt | rfl
      · rw [Function.update_of_ne (by omega)]
        exact hbelow i hpos (by omega)
      · rw [Function.update_self]
        omega
    · show swap (m + 1) (Function.update j (m + 1) (f (m + 1)) (m + 1))
        (spliced (Function.update j (m + 1) (f (m + 1))) m x) = f x
      rw [hsame, Function.update_self]
      rcases Nat.lt_succ_iff_lt_or_eq.mp (Nat.lt_succ_of_le hx) with hlt | rfl
      · rw [hj x (by omega), Perm.mul_apply, ← Perm.mul_apply, swap_mul_self, Perm.one_apply]
      · rw [spliced_fix hbelow (Nat.lt_succ_self m), swap_apply_left]

end SingleCycle
