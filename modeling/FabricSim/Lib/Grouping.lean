import Mathlib.Algebra.BigOperators.Group.Finset.Basic
import Mathlib.Algebra.BigOperators.Group.Finset.Piecewise
import Mathlib.Algebra.BigOperators.Ring.Finset
import Mathlib.Algebra.BigOperators.Group.List.Basic

/-!
# Lists by key

A sum or a count over a list, taken group by group: the items are grouped by a
key below `n`, and those without a key count for nothing.
-/

namespace Grouping

open Finset

variable {α : Type} (key : α → Option Nat) {n : Nat} {l : List α}

/-- A sum over the list of what the key is worth. -/
theorem sum_by_key (g : Nat → Nat) (h : ∀ a ∈ l, ∀ k ∈ key a, k < n) :
    (l.map fun a => (key a).elim 0 g).sum =
      ∑ k ∈ range n, g k * l.countP fun a => key a = some k := by
  induction l with
  | nil => simp
  | cons a l ih =>
    have hone : (key a).elim 0 g =
        ∑ k ∈ range n, g k * if key a = some k then 1 else 0 := by
      cases hk : key a with
      | none => simp
      | some k =>
        have hlt := h a (List.mem_cons_self ..) k hk
        simp [mem_range.mpr hlt]
    rw [List.map_cons, List.sum_cons, ih fun b hb => h b (List.mem_cons_of_mem _ hb), hone,
      ← sum_add_distrib]
    refine sum_congr rfl fun k _ => ?_
    rw [List.countP_cons, Nat.mul_add, Nat.add_comm]
    simp

/-- The items that have a key. -/
theorem countP_by_key (h : ∀ a ∈ l, ∀ k ∈ key a, k < n) :
    (l.countP fun a => (key a).isSome) = ∑ k ∈ range n, l.countP fun a => key a = some k := by
  have hsum := sum_by_key key (fun _ => 1) h
  simp only [Nat.one_mul] at hsum
  rw [← hsum]
  clear hsum h
  induction l with
  | nil => rfl
  | cons a l ih =>
    rw [List.countP_cons, List.map_cons, List.sum_cons, ih, Nat.add_comm]
    cases key a <;> rfl

end Grouping
