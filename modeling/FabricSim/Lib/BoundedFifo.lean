import FabricSim.Lib.Ring
import Mathlib.Data.List.GetD

/-!
# A fixed-capacity ring buffer is a FIFO list

`BoundedFifo` is the usual ring: a buffer of `capacity` cells, a head index
that wraps by comparison (`Ring`), and a count. The structure carries the three facts
that make the indices safe, so an ill-formed ring cannot be built.

`toList` reads the ring in queue order. `tryPush` appends to it unless the ring
is full (`toList_tryPush`, `tryPush_eq_none_iff`), `pop` drops its front
(`toList_eq_cons`).
-/

/-- A ring of at most `capacity` items. -/
structure BoundedFifo (α : Type) where
  buf : List α
  capacity : Nat
  head : Nat
  count : Nat
  buf_length : buf.length = capacity
  count_le : count ≤ capacity
  head_lt : head < capacity ∨ head = 0

namespace BoundedFifo

variable {α : Type} [Inhabited α]

/-- An empty ring with room for `capacity` items. -/
def init (capacity : Nat) : BoundedFifo α where
  buf := List.replicate capacity default
  capacity := capacity
  head := 0
  count := 0
  buf_length := List.length_replicate
  count_le := Nat.zero_le _
  head_lt := Or.inr rfl

instance : Inhabited (BoundedFifo α) := ⟨init 0⟩

def empty (r : BoundedFifo α) : Bool := r.count == 0

/-- The cell of the `i`-th queued item. -/
def slot (r : BoundedFifo α) (i : Nat) : Nat := Ring.slot r.capacity r.head i

/-- Append unless full. -/
def tryPush (r : BoundedFifo α) (x : α) : Option (BoundedFifo α) :=
  if h : r.count = r.capacity then none
  else some
    { buf := r.buf.set (r.slot r.count) x
      capacity := r.capacity
      head := r.head
      count := r.count + 1
      buf_length := by rw [List.length_set]; exact r.buf_length
      count_le := by have := r.count_le; omega
      head_lt := r.head_lt }

/-- The item `pop` returns. -/
def front (r : BoundedFifo α) : α := r.buf.getD r.head default

/-- Drop the front. On an empty ring the code's counter would wrap; here the
ring is returned as it is. -/
def pop (r : BoundedFifo α) : BoundedFifo α :=
  if h : r.count = 0 then r
  else
    { buf := r.buf
      capacity := r.capacity
      head := Ring.next r.capacity r.head
      count := r.count - 1
      buf_length := r.buf_length
      count_le := by have := r.count_le; omega
      head_lt := by
        have := r.count_le
        have := r.head_lt
        exact Or.inl (Ring.next_lt (by omega)) }

/-- The ring's items, front first. -/
def toList (r : BoundedFifo α) : List α :=
  Ring.view (fun i => r.buf.getD i default) r.capacity r.head r.count

@[simp] theorem length_toList (r : BoundedFifo α) : r.toList.length = r.count := by
  simp [toList]

@[simp] theorem toList_init (n : Nat) : (init n : BoundedFifo α).toList = [] := rfl

theorem empty_iff (r : BoundedFifo α) : r.empty = true ↔ r.toList = [] := by
  rw [← List.length_eq_zero_iff, length_toList]
  simp [empty]

omit [Inhabited α] in
theorem tryPush_eq_none_iff (r : BoundedFifo α) (x : α) :
    r.tryPush x = none ↔ r.count = r.capacity := by
  unfold tryPush
  split <;> simp_all

omit [Inhabited α] in
theorem tryPush_count {r r' : BoundedFifo α} {x : α} (h : r.tryPush x = some r') :
    r'.count = r.count + 1 ∧ r'.capacity = r.capacity := by
  unfold tryPush at h
  split at h
  · exact absurd h (by simp)
  · obtain rfl := Option.some.inj h
    exact ⟨rfl, rfl⟩

theorem toList_tryPush {r r' : BoundedFifo α} {x : α} (h : r.tryPush x = some r') :
    r'.toList = r.toList ++ [x] := by
  unfold tryPush at h
  split at h
  · exact absurd h (by simp)
  · next hfull =>
    have hroom : r.count < r.capacity := by have := r.count_le; omega
    have hhead : r.head < r.capacity := by have := r.head_lt; omega
    obtain rfl := Option.some.inj h
    have hslot : r.slot r.count < r.buf.length := by
      rw [r.buf_length]
      exact Ring.slot_lt hhead hroom
    have hset : (fun i => (r.buf.set (r.slot r.count) x).getD i default) =
        Function.update (fun i => r.buf.getD i default) (r.slot r.count) x := by
      funext i
      rw [Function.update_apply, List.getD_eq_getElem?_getD, List.getD_eq_getElem?_getD]
      by_cases hi : i = r.slot r.count
      · rw [if_pos hi, hi, List.getElem?_set_self hslot]
        rfl
      · rw [if_neg hi, List.getElem?_set_ne (Ne.symm hi)]
    unfold toList
    dsimp only
    rw [hset]
    exact Ring.view_update _ hroom x

omit [Inhabited α] in
@[simp] theorem pop_capacity (r : BoundedFifo α) : r.pop.capacity = r.capacity := by
  unfold pop
  split <;> rfl

theorem toList_eq_cons {r : BoundedFifo α} (h : r.count ≠ 0) :
    r.toList = r.front :: r.pop.toList := by
  have hle := r.count_le
  have hhd := r.head_lt
  obtain ⟨n, hn⟩ : ∃ n, r.count = n + 1 := ⟨r.count - 1, by omega⟩
  have hpop : r.pop.toList =
      Ring.view (fun i => r.buf.getD i default) r.capacity (Ring.next r.capacity r.head) n := by
    unfold pop toList
    rw [dif_neg h]
    dsimp only
    rw [hn, Nat.add_sub_cancel]
  rw [hpop]
  unfold toList
  rw [hn]
  exact Ring.view_succ _ (by omega) (by omega)

end BoundedFifo
