import FabricSim.Lib.Csr
import Mathlib.Logic.Function.Basic

/-!
# Arrays with every access checked

A program that indexes past the end of an array has no meaning, so here it has none: `read`
and `modify` fail outside the array. An array is its size and what each cell holds, so that
one of any size can be written down. `Each` says that an array has `n` cells and what each of
them holds; `Rows` says the same of a table whose rows of different lengths are laid out one
after the other, as `Csr` places them. A client that keeps one of the two gets both facts at
every access: that it is inside, and what is there (`Each.modify`, `Rows.modify`).
-/

structure Cells (α : Type) where
  size : Nat
  cell : Nat → α

namespace Cells

variable {α : Type}

def empty [Inhabited α] : Cells α := ⟨0, fun _ => default⟩

/-- What the cell holds; `none` when there is no such cell. -/
def read (a : Cells α) (i : Nat) : Option α := if i < a.size then some (a.cell i) else none

/-- Change one cell; `none` when there is no such cell. -/
def modify (a : Cells α) (i : Nat) (g : α → α) : Option (Cells α) :=
  if i < a.size then some { a with cell := Function.update a.cell i (g (a.cell i)) } else none

def map {β : Type} (g : α → β) (a : Cells α) : Cells β := ⟨a.size, fun i => g (a.cell i)⟩

def push (a : Cells α) (x : α) : Cells α := ⟨a.size + 1, Function.update a.cell a.size x⟩

/-- `n` more cells, which hold `x`. -/
def extend (a : Cells α) (n : Nat) (x : α) : Cells α :=
  ⟨a.size + n, fun i => if i < a.size then a.cell i else x⟩

def toList (a : Cells α) : List α := (List.range a.size).map a.cell

/-- The cells of the array, by what each of them holds. -/
structure Each (a : Cells α) (n : Nat) (R : Nat → α → Prop) : Prop where
  size : a.size = n
  holds : ∀ i, i < n → R i (a.cell i)

/-- A table of `n` rows, row `u` of `d u` cells, one row after the other. -/
structure Rows (a : Cells α) (n : Nat) (d : Nat → Nat) (R : Nat → Nat → α → Prop) : Prop where
  size : a.size = Csr.prefixSum d n
  holds : ∀ u k, u < n → k < d u → R u k (a.cell (Csr.prefixSum d u + k))

variable {a : Cells α} {n : Nat}

theorem read_eq_some {i : Nat} (hi : i < a.size) : a.read i = some (a.cell i) := if_pos hi

theorem modify_eq_some {i : Nat} (hi : i < a.size) (g : α → α) :
    a.modify i g = some { a with cell := Function.update a.cell i (g (a.cell i)) } := if_pos hi

namespace Each

variable {R S : Nat → α → Prop}

theorem read (h : Each a n R) {i : Nat} (hi : i < n) : ∃ x, a.read i = some x ∧ R i x :=
  ⟨a.cell i, read_eq_some (h.size ▸ hi), h.holds i hi⟩

theorem modify (h : Each a n R) {i : Nat} (hi : i < n) {g : α → α}
    (hself : ∀ x, R i x → S i (g x)) (hother : ∀ j x, j ≠ i → R j x → S j x) :
    ∃ a', a.modify i g = some a' ∧ Each a' n S := by
  refine ⟨_, modify_eq_some (h.size ▸ hi) g, h.size, fun j hj => ?_⟩
  dsimp only
  by_cases hji : j = i
  · subst hji
    rw [Function.update_self]
    exact hself _ (h.holds j hj)
  · rw [Function.update_of_ne hji]
    exact hother j _ hji (h.holds j hj)

theorem mono (h : Each a n R) (hR : ∀ i x, i < n → R i x → S i x) : Each a n S where
  size := h.size
  holds := fun i hi => hR i _ hi (h.holds i hi)

theorem map {β : Type} {S : Nat → β → Prop} (h : Each a n R) {g : α → β}
    (hg : ∀ i x, R i x → S i (g x)) : Each (a.map g) n S where
  size := h.size
  holds := fun i hi => hg i _ (h.holds i hi)

/-- One cell more at the end. -/
theorem push (h : Each a n R) {x : α} (hx : R n x) : Each (a.push x) (n + 1) R where
  size := congrArg (· + 1) h.size
  holds := by
    intro i hi
    unfold Cells.push
    dsimp only
    rw [h.size]
    by_cases hin : i = n
    · subst hin
      rw [Function.update_self]
      exact hx
    · rw [Function.update_of_ne hin]
      exact h.holds i (by omega)

/-- The list of an array whose cells are known. -/
theorem toList_eq {v : Nat → α} (h : Each a n fun i x => x = v i) :
    a.toList = (List.range n).map v := by
  unfold Cells.toList
  rw [h.size]
  exact List.map_congr_left fun i hi => h.holds i (List.mem_range.mp hi)

end Each

namespace Rows

variable {d : Nat → Nat} {R S : Nat → Nat → α → Prop}

theorem slot_lt (h : Rows a n d R) {u k : Nat} (hu : u < n) (hk : k < d u) :
    Csr.prefixSum d u + k < a.size := by
  rw [h.size]
  have := Csr.prefixSum_add_le d hu
  omega

theorem read (h : Rows a n d R) {u k : Nat} (hu : u < n) (hk : k < d u) :
    ∃ x, a.read (Csr.prefixSum d u + k) = some x ∧ R u k x :=
  ⟨_, read_eq_some (h.slot_lt hu hk), h.holds u k hu hk⟩

/-- A change to one cell of a row reaches no cell of another row. -/
theorem modify (h : Rows a n d R) {u k : Nat} (hu : u < n) (hk : k < d u) {g : α → α}
    (hself : ∀ x, R u k x → S u k (g x))
    (hother : ∀ v l x, ¬ (v = u ∧ l = k) → R v l x → S v l x) :
    ∃ a', a.modify (Csr.prefixSum d u + k) g = some a' ∧ Rows a' n d S := by
  refine ⟨_, modify_eq_some (h.slot_lt hu hk) g, h.size, fun v l hv hl => ?_⟩
  dsimp only
  by_cases hslot : Csr.prefixSum d v + l = Csr.prefixSum d u + k
  · obtain ⟨rfl, rfl⟩ := Csr.slot_inj d hl hk hslot
    rw [Function.update_self]
    exact hself _ (h.holds v l hv hl)
  · rw [Function.update_of_ne hslot]
    refine hother v l _ ?_ (h.holds v l hv hl)
    intro ⟨hvu, hlk⟩
    exact hslot (by rw [hvu, hlk])

theorem map {β : Type} {S : Nat → Nat → β → Prop} (h : Rows a n d R) {g : α → β}
    (hg : ∀ u k x, R u k x → S u k (g x)) : Rows (a.map g) n d S where
  size := h.size
  holds := fun u k hu hk => hg u k _ (h.holds u k hu hk)

theorem mono (h : Rows a n d R) (hR : ∀ u k x, u < n → k < d u → R u k x → S u k x) :
    Rows a n d S where
  size := h.size
  holds := fun u k hu hk => hR u k _ hu hk (h.holds u k hu hk)

/-- Only the lengths of the rows that are there matter. -/
theorem congr (h : Rows a n d R) {e : Nat → Nat} (hd : ∀ u, u < n → d u = e u) :
    Rows a n e R := by
  have hsum : ∀ u, u ≤ n → Csr.prefixSum d u = Csr.prefixSum e u := by
    intro u hu
    apply le_antisymm
    · exact Csr.prefixSum_le_prefixSum fun i hi => (hd i (by omega)).le
    · exact Csr.prefixSum_le_prefixSum fun i hi => (hd i (by omega)).ge
  refine ⟨by rw [h.size, hsum n le_rfl], fun u k hu hk => ?_⟩
  rw [← hsum u hu.le]
  exact h.holds u k hu (by rwa [hd u hu])

/-- One row more at the end. -/
theorem append (h : Rows a n d R) {x : α} (hx : ∀ k, k < d n → R n k x) :
    Rows (a.extend (d n) x) (n + 1) d R where
  size := by
    show a.size + d n = _
    rw [h.size]
    rfl
  holds := by
    intro u k hu hk
    unfold extend
    dsimp only
    rcases Nat.lt_succ_iff_lt_or_eq.mp hu with hlt | rfl
    · rw [if_pos (h.slot_lt hlt hk)]
      exact h.holds u k hlt hk
    · rw [if_neg (by rw [h.size]; omega)]
      exact hx k hk

end Rows

end Cells
