import FabricSim.Lib.Words
import Mathlib.Data.Int.CardIntervalMod
import Mathlib.Data.Nat.Periodic
import Mathlib.SetTheory.Cardinal.Finite

/-!
# Folding a range onto fewer values, without bias

`r ↦ r % n` favours the small values when `n` does not divide the size `N` of the
range: the last fold is cut short. Without the first `N % n` numbers the range is a whole
number of folds, and every value has as many preimages as the others (`card_fold`).
-/

namespace Rejection

variable {N n : Nat}

theorem periodic_residue (n v k : Nat) : Function.Periodic (fun r => r % n = v) (n * k) := by
  intro r
  dsimp only
  rw [Nat.add_mul_mod_self_left]

/-- A residue turns up once in every fold. -/
theorem count_residue (hn : 0 < n) {v : Nat} (hv : v < n) (k : Nat) :
    (n * k).count (fun r => r % n = v) = k := by
  have hmod : (fun r => r % n = v) = (· ≡ v [MOD n]) := by
    funext r
    unfold Nat.ModEq
    rw [Nat.mod_eq_of_lt hv]
  have hcount := Nat.count_modEq_card (n * k) hn v
  rw [Nat.mul_div_cancel_left k hn, Nat.mul_mod_right, if_neg (Nat.not_lt_zero _)] at hcount
  simp only [hmod]
  exact hcount

/-- Above the cut every value has the same number of preimages. -/
theorem card_fold (hn : 0 < n) {v : Nat} (hv : v < n) :
    ((Finset.range N).filter fun r => N % n ≤ r ∧ r % n = v).card = N / n := by
  have hrange : (Finset.range N).filter (fun r => N % n ≤ r ∧ r % n = v) =
      (Finset.Ico (N % n) (N % n + n * (N / n))).filter fun r => r % n = v := by
    ext r
    rw [Nat.mod_add_div, Finset.mem_filter, Finset.mem_filter, Finset.mem_range, Finset.mem_Ico]
    constructor
    · intro h
      exact ⟨⟨h.2.1, h.1⟩, h.2.2⟩
    · intro h
      exact ⟨h.1.2, h.1.1, h.2⟩
  rw [hrange, Nat.filter_Ico_card_eq_of_periodic _ _ _ (periodic_residue n v (N / n))]
  exact count_residue hn hv _

theorem card_cut : ((Finset.range N).filter (· < N % n)).card = N % n := by
  have hrange : (Finset.range N).filter (· < N % n) = Finset.range (N % n) := by
    ext r
    have hle := Nat.mod_le N n
    rw [Finset.mem_filter, Finset.mem_range, Finset.mem_range]
    omega
  rw [hrange, Finset.card_range]

/-! ## In words -/

/-- A property of the value of a word is counted over the numbers below `2 ^ 64`. -/
theorem card_words (p : Nat → Prop) [DecidablePred p] :
    Nat.card {r : UInt64 // p r.toNat} = ((Finset.range (2 ^ 64)).filter p).card := by
  rw [← Nat.subtype_card (p := fun x => x < 2 ^ 64 ∧ p x) _ fun x => by
    rw [Finset.mem_filter, Finset.mem_range]]
  refine Nat.card_congr
    { toFun := fun r => ⟨r.1.toNat, r.1.toNat_lt, r.2⟩
      invFun := fun x => ⟨UInt64.ofNat x.1, ?_⟩
      left_inv := fun r => Subtype.ext UInt64.ofNat_toNat
      right_inv := fun x => Subtype.ext (UInt64.toNat_ofNat_of_lt' x.2.1) }
  rw [UInt64.toNat_ofNat_of_lt' x.2.1]
  exact x.2.2

/-- `2 ^ 64 mod n` without a word for `2 ^ 64`: `0 - n` wraps to `2 ^ 64 - n`. -/
theorem toNat_neg_mod {n : UInt64} (hn : 0 < n.toNat) :
    ((0 - n) % n).toNat = 2 ^ 64 % n.toNat := by
  have hlt := n.toNat_lt
  have hneg : (0 - n).toNat = 2 ^ 64 - n.toNat := by
    rw [UInt64.toNat_sub, UInt64.toNat_zero, Nat.add_zero]
    exact Nat.mod_eq_of_lt (by omega)
  rw [UInt64.toNat_mod, hneg]
  exact (Nat.mod_eq_sub_mod hlt.le).symm

end Rejection
