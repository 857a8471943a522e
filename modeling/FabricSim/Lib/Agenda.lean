import Mathlib.Data.List.Sort

/-!
# The dispatch order of a bag of keyed items

Whatever container a scheduler keeps its pending items in, the order in which
they will be dispatched is the bag sorted by key. `Agenda.sorted` is that
list; it is the same for any two arrangements of one bag as long as no two
items share a key (`sorted_eq_of_perm`).

The two operations a scheduler has then read as list operations: taking the
least item drops the head (`sorted_of_least`), adding an item is an ordered
insertion (`sorted_of_perm_cons`). `filterMap_insert_none` and
`filterMap_insert_last` say what an insertion does to a selected part of the
agenda: nothing, or an append when the new item goes after all selected ones.
-/

namespace Agenda

variable {α β γ : Type} [LinearOrder β]

/-- At or before, by key. -/
def NotAfter (key : α → β) (a b : α) : Prop := key a ≤ key b

instance (key : α → β) : DecidableRel (NotAfter key) :=
  fun a b => inferInstanceAs (Decidable (key a ≤ key b))

instance (key : α → β) : Std.Total (NotAfter key) := ⟨fun a b => le_total (key a) (key b)⟩

instance (key : α → β) : IsTrans α (NotAfter key) := ⟨fun _ _ _ => le_trans⟩

/-- The items of a bag in key order. -/
def sorted (key : α → β) (l : List α) : List α := l.insertionSort (NotAfter key)

/-- Put an item where its key belongs. -/
def insert (key : α → β) (x : α) (l : List α) : List α := l.orderedInsert (NotAfter key) x

theorem sorted_perm (key : α → β) (l : List α) : (sorted key l).Perm l :=
  List.perm_insertionSort _ l

theorem sorted_pairwise (key : α → β) (l : List α) : (sorted key l).Pairwise (NotAfter key) :=
  List.pairwise_insertionSort _ l

theorem insert_perm (key : α → β) (x : α) (l : List α) : (insert key x l).Perm (x :: l) :=
  List.perm_orderedInsert _ x l

@[simp] theorem mem_insert {key : α → β} {x y : α} {l : List α} :
    y ∈ insert key x l ↔ y = x ∨ y ∈ l :=
  List.mem_orderedInsert _

@[simp] theorem mem_sorted {key : α → β} {x : α} {l : List α} : x ∈ sorted key l ↔ x ∈ l :=
  (sorted_perm key l).mem_iff

/-- With distinct keys a bag has one key order. -/
theorem sorted_eq_of_perm {key : α → β} {l l' : List α} (hl : (l.map key).Nodup)
    (h : l.Perm l') : sorted key l = sorted key l' := by
  refine List.Perm.eq_of_pairwise ?_ (sorted_pairwise key l) (sorted_pairwise key l')
    ((sorted_perm key l).trans (h.trans (sorted_perm key l').symm))
  intro a b ha hb hab hba
  have ha' : a ∈ l := mem_sorted.mp ha
  have hb' : b ∈ l := h.mem_iff.mpr (mem_sorted.mp hb)
  exact List.inj_on_of_nodup_map hl ha' hb' (le_antisymm hab hba)

theorem sorted_of_perm_cons {key : α → β} {x : α} {l l' : List α} (hl : (l'.map key).Nodup)
    (h : l'.Perm (x :: l)) : sorted key l' = insert key x (sorted key l) :=
  sorted_eq_of_perm hl h

theorem sorted_of_least {key : α → β} {x : α} {l l' : List α} (hl : (l'.map key).Nodup)
    (h : l'.Perm (x :: l)) (hx : ∀ y ∈ l, key x ≤ key y) :
    sorted key l' = x :: sorted key l := by
  refine List.Perm.eq_of_pairwise ?_ (sorted_pairwise key l') ?_
    ((sorted_perm key l').trans (h.trans (List.Perm.cons x (sorted_perm key l).symm)))
  · intro a b ha hb hab hba
    have ha' : a ∈ l' := mem_sorted.mp ha
    have hb' : b ∈ l' := by
      rw [h.mem_iff, List.mem_cons]
      rcases List.mem_cons.mp hb with rfl | hb
      · exact Or.inl rfl
      · exact Or.inr (mem_sorted.mp hb)
    exact List.inj_on_of_nodup_map hl ha' hb' (le_antisymm hab hba)
  · exact List.pairwise_cons.mpr
      ⟨fun y hy => hx y (mem_sorted.mp hy), sorted_pairwise key l⟩

/-- An item the selection does not see leaves the selected part alone. -/
theorem filterMap_insert_none {key : α → β} {g : α → Option γ} {x : α} (hx : g x = none)
    (l : List α) : (insert key x l).filterMap g = l.filterMap g := by
  induction l with
  | nil => simp [insert, hx]
  | cons y l ih =>
    unfold insert at ih ⊢
    rw [List.orderedInsert_cons]
    split
    · rw [List.filterMap_cons_none hx]
    · rw [List.filterMap_cons, List.filterMap_cons, ih]

/-- An item that goes after every selected one is appended to the selection. -/
theorem filterMap_insert_last {key : α → β} {g : α → Option γ} {x : α} {b : γ}
    (hx : g x = some b) {l : List α} (hl : l.Pairwise (NotAfter key))
    (hlast : ∀ y ∈ l, (g y).isSome → key y < key x) :
    (insert key x l).filterMap g = l.filterMap g ++ [b] := by
  induction l with
  | nil => simp [insert, hx]
  | cons y l ih =>
    have ih := ih hl.of_cons fun z hz => hlast z (List.mem_cons_of_mem _ hz)
    unfold insert at ih ⊢
    rw [List.orderedInsert_cons]
    split
    · next hxy =>
      -- everything from `y` on has a key of at least `x`'s, so none of it is selected
      have hnone : (y :: l).filterMap g = [] := by
        rw [List.filterMap_eq_nil_iff]
        intro z hz
        by_contra hsome
        have hzx := hlast z hz (Option.isSome_iff_ne_none.mpr hsome)
        have hyz : key y ≤ key z := by
          rcases List.mem_cons.mp hz with rfl | hz'
          · exact le_rfl
          · exact List.rel_of_pairwise_cons hl hz'
        exact absurd (lt_of_le_of_lt ((hxy : key x ≤ key y).trans hyz) hzx) (lt_irrefl _)
      rw [List.filterMap_cons_some hx, hnone]
      rfl
    · rw [List.filterMap_cons, List.filterMap_cons, ih]
      split <;> rfl

end Agenda
