import Mathlib.Data.List.Range
import Mathlib.Logic.Function.Basic

/-!
# Ring indices

The index arithmetic of a circular array of `n` cells: `slot n head i` is the
cell of the `i`-th live item and `next n head` the head after a removal, both
wrapping by comparison and never by division. `view` reads the live items in
order. Removing from the front drops the view's head (`view_succ`); writing the
slot after the last appends to it (`view_update`).
-/

namespace Ring

variable {α : Type}

/-- The cell of the `i`-th live item. -/
def slot (n head i : Nat) : Nat := if n ≤ head + i then head + i - n else head + i

/-- The head after one removal. -/
def next (n head : Nat) : Nat := if head + 1 = n then 0 else head + 1

/-- The live items, first to last. -/
def view (buf : Nat → α) (n head count : Nat) : List α :=
  (List.range count).map fun i => buf (slot n head i)

@[simp] theorem view_zero (buf : Nat → α) (n head : Nat) : view buf n head 0 = [] := rfl

@[simp] theorem length_view (buf : Nat → α) (n head count : Nat) :
    (view buf n head count).length = count := by
  simp [view]

theorem next_lt {n head : Nat} (h : head < n) : next n head < n := by
  unfold next
  split <;> omega

theorem slot_lt {n head i : Nat} (hh : head < n) (hi : i < n) : slot n head i < n := by
  unfold slot
  split <;> omega

theorem slot_ne {n head i j : Nat} (hi : i < n) (hj : j < n) (h : i ≠ j) :
    slot n head i ≠ slot n head j := by
  unfold slot
  split <;> split <;> omega

theorem slot_next {n head i : Nat} (hi : i + 1 < n) :
    slot n (next n head) i = slot n head (i + 1) := by
  unfold slot next
  split <;> split <;> split <;> omega

theorem view_succ (buf : Nat → α) {n head count : Nat} (hh : head < n) (hc : count < n) :
    view buf n head (count + 1) = buf head :: view buf n (next n head) count := by
  unfold view
  rw [List.range_succ_eq_map, List.map_cons, List.map_map]
  congr 1
  · unfold slot
    rw [if_neg (by omega)]
    rfl
  · refine List.map_congr_left fun i hi => ?_
    have hi : i < count := List.mem_range.mp hi
    show buf (slot n head (i + 1)) = _
    rw [slot_next (by omega)]

theorem view_update (buf : Nat → α) {n head count : Nat} (hc : count < n) (x : α) :
    view (Function.update buf (slot n head count) x) n head (count + 1)
      = view buf n head count ++ [x] := by
  unfold view
  rw [List.range_succ, List.map_append, List.map_singleton, Function.update_self]
  congr 1
  refine List.map_congr_left fun i hi => ?_
  have hi : i < count := List.mem_range.mp hi
  rw [Function.update_of_ne (slot_ne (by omega) hc (by omega))]

end Ring
