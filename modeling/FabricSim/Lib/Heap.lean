import Mathlib.Data.List.Perm.Basic
import Mathlib.Order.Lattice
import Mathlib.Data.List.GetD

/-!
# A binary min-heap on a flat list, sifted through a hole

The textbook array heap in the form event schedulers use it: the element being
moved is held aside, the sift copies parents down (or children up) over the
hole, and the held element is written back once at the end.

Everything is parametric in the strict order `before` that the sift evaluates
and in a `key` into a linear order that explains it. The two facts a client
needs are at the end: `push` and `pop` keep `IsHeap`, and both are permutations
of the obvious thing (`push_perm`, `pop_perm`), with the popped element first
among all (`pop_le`).
-/

namespace ArrayHeap

variable {α : Type} [Inhabited α]

/-- The sift towards the root: copy the parent into the hole while `held` goes
before it. `fuel ≥ i` always suffices, a parent has a smaller index. -/
def siftUp (before : α → α → Bool) (held : α) : Nat → Nat → List α → List α
  | 0, i, l => l.set i held
  | fuel + 1, i, l =>
    if i = 0 then l.set i held
    else if before held (l.getD ((i - 1) / 2) default) then
      siftUp before held fuel ((i - 1) / 2) (l.set i (l.getD ((i - 1) / 2) default))
    else l.set i held

/-- The child of `i` that goes first; `left` when there is no right child. -/
def firstChild (before : α → α → Bool) (l : List α) (i : Nat) : Nat :=
  if 2 * i + 2 < l.length ∧
      before (l.getD (2 * i + 2) default) (l.getD (2 * i + 1) default) = true
  then 2 * i + 2 else 2 * i + 1

/-- The sift towards the leaves: copy the first child into the hole while it
goes before `held`. `fuel ≥ length - i` always suffices. -/
def siftDown (before : α → α → Bool) (held : α) : Nat → Nat → List α → List α
  | 0, i, l => l.set i held
  | fuel + 1, i, l =>
    if l.length ≤ 2 * i + 1 then l.set i held
    else if before (l.getD (firstChild before l i) default) held then
      siftDown before held fuel (firstChild before l i)
        (l.set i (l.getD (firstChild before l i) default))
    else l.set i held

/-- Append and sift up. -/
def push (before : α → α → Bool) (l : List α) (x : α) : List α :=
  siftUp before x l.length l.length (l ++ [x])

/-- What is left when the root is removed: the last element takes its place
and sifts down. -/
def popRest (before : α → α → Bool) (l : List α) : List α :=
  match l.dropLast with
  | [] => []
  | _ :: rest =>
    siftDown before (l.getLastD default) (rest.length + 1) 0 (l.getLastD default :: rest)

/-! ## Both sifts permute -/

/-- Copying `l[j]` over the hole at `i` and holding on to `x` is a swap. -/
theorem set_set_perm_set {l : List α} {i j : Nat} (x : α) (hi : i < l.length)
    (hj : j < l.length) (hij : i ≠ j) :
    ((l.set i (l.getD j default)).set j x).Perm (l.set i x) := by
  have hi' : i < (l.set i x).length := by simpa using hi
  have hj' : j < (l.set i x).length := by simpa using hj
  have h := List.set_set_perm hi' hj'
  have hjv : (l.set i x)[j] = l.getD j default := by
    rw [List.getElem_set_ne hij, List.getD_eq_getElem _ _ hj]
  have hiv : (l.set i x)[i] = x := List.getElem_set_self _
  rw [hjv, hiv, List.set_set] at h
  exact h

theorem siftUp_perm (before : α → α → Bool) (held : α) :
    ∀ (fuel i : Nat) (l : List α), i < l.length →
      (siftUp before held fuel i l).Perm (l.set i held) := by
  intro fuel
  induction fuel with
  | zero => intro i l _; exact List.Perm.refl _
  | succ fuel ih =>
    intro i l hi
    unfold siftUp
    split
    · exact List.Perm.refl _
    · next h0 =>
      split
      · have hp : (i - 1) / 2 < l.length := by omega
        exact (ih _ _ (by simpa using hp)).trans
          (set_set_perm_set held hi hp (by omega))
      · exact List.Perm.refl _

theorem firstChild_lt (before : α → α → Bool) {l : List α} {i : Nat}
    (h : 2 * i + 1 < l.length) : firstChild before l i < l.length := by
  unfold firstChild
  split
  · next hc => exact hc.1
  · exact h

theorem lt_firstChild (before : α → α → Bool) (l : List α) (i : Nat) :
    i < firstChild before l i := by
  unfold firstChild
  split <;> omega

theorem siftDown_perm (before : α → α → Bool) (held : α) :
    ∀ (fuel i : Nat) (l : List α), i < l.length →
      (siftDown before held fuel i l).Perm (l.set i held) := by
  intro fuel
  induction fuel with
  | zero => intro i l _; exact List.Perm.refl _
  | succ fuel ih =>
    intro i l hi
    unfold siftDown
    split
    · exact List.Perm.refl _
    · next hlen =>
      split
      · have hc := firstChild_lt before (l := l) (i := i) (by omega)
        exact (ih _ _ (by simpa using hc)).trans
          (set_set_perm_set held hi hc (by have := lt_firstChild before l i; omega))
      · exact List.Perm.refl _

theorem push_perm (before : α → α → Bool) (l : List α) (x : α) :
    (push before l x).Perm (x :: l) := by
  have h := siftUp_perm before x l.length l.length (l ++ [x]) (by simp)
  have hset : (l ++ [x]).set l.length x = l ++ [x] := by simp
  rw [hset] at h
  exact h.trans (List.perm_append_singleton x l)

theorem pop_perm (before : α → α → Bool) (x : α) (l : List α) :
    (popRest before (x :: l)).Perm l := by
  rcases List.eq_nil_or_concat l with rfl | ⟨init, last, rfl⟩
  · exact List.Perm.refl _
  · have hlast : (x :: (init ++ [last])).getLastD default = last := by
      rw [← List.cons_append, List.getLastD_concat]
    have hdrop : (x :: (init ++ [last])).dropLast = x :: init := by
      rw [← List.cons_append, List.dropLast_concat]
    unfold popRest
    rw [List.concat_eq_append, hdrop, hlast]
    exact (siftDown_perm before last _ 0 (last :: init) (by simp)).trans
      (List.perm_append_singleton last init).symm

/-! ## Both sifts order -/

variable {β : Type} [LinearOrder β]

/-- The key at a position. -/
def keyAt (key : α → β) (l : List α) (i : Nat) : β := key (l.getD i default)

/-- No position's key is below its parent's. -/
def IsHeap (key : α → β) (l : List α) : Prop :=
  ∀ i, 0 < i → i < l.length → keyAt key l ((i - 1) / 2) ≤ keyAt key l i

omit [LinearOrder β] in
theorem keyAt_set_self {key : α → β} {l : List α} {i : Nat} {x : α} (hi : i < l.length) :
    keyAt key (l.set i x) i = key x := by
  unfold keyAt
  rw [List.getD_eq_getElem _ _ (by simpa using hi), List.getElem_set_self]

omit [LinearOrder β] in
theorem keyAt_set_ne {key : α → β} {l : List α} {i j : Nat} {x : α} (h : i ≠ j) :
    keyAt key (l.set i x) j = keyAt key l j := by
  unfold keyAt
  rw [List.getD_eq_getElem?_getD, List.getElem?_set_ne h, ← List.getD_eq_getElem?_getD]

/-- What both sifts keep about the positions that do not touch the hole. -/
def OrderedOff (key : α → β) (l : List α) (hole : Nat) : Prop :=
  ∀ i, 0 < i → i < l.length → i ≠ hole → (i - 1) / 2 ≠ hole →
    keyAt key l ((i - 1) / 2) ≤ keyAt key l i

/-- The hole's children are at or after the hole's parent. -/
def Bridged (key : α → β) (l : List α) (hole : Nat) : Prop :=
  0 < hole → ∀ i, 0 < i → i < l.length → (i - 1) / 2 = hole →
    keyAt key l ((hole - 1) / 2) ≤ keyAt key l i

/-- Writing the held element back closes the heap once it is in order with the
hole's parent and with the hole's children. -/
theorem isHeap_set {key : α → β} {l : List α} {hole : Nat} {held : α}
    (hlt : hole < l.length) (hoff : OrderedOff key l hole)
    (habove : 0 < hole → keyAt key l ((hole - 1) / 2) ≤ key held)
    (hbelow : ∀ i, 0 < i → i < l.length → (i - 1) / 2 = hole → key held ≤ keyAt key l i) :
    IsHeap key (l.set hole held) := by
  intro i hi0 hi
  rw [List.length_set] at hi
  by_cases hih : i = hole
  · subst hih
    rw [keyAt_set_self hlt, keyAt_set_ne (by omega)]
    exact habove hi0
  · rw [keyAt_set_ne (fun h => hih h.symm)]
    by_cases hph : (i - 1) / 2 = hole
    · rw [hph, keyAt_set_self hlt]
      exact hbelow i hi0 hi hph
    · rw [keyAt_set_ne (fun h => hph h.symm)]
      exact hoff i hi0 hi hih hph

theorem siftUp_isHeap {before : α → α → Bool} {key : α → β}
    (hb : ∀ a b, before a b = true ↔ key a < key b) {held : α} :
    ∀ (fuel i : Nat) (l : List α), i ≤ fuel → i < l.length →
      OrderedOff key l i → Bridged key l i →
      (∀ j, 0 < j → j < l.length → (j - 1) / 2 = i → key held ≤ keyAt key l j) →
      IsHeap key (siftUp before held fuel i l) := by
  intro fuel
  induction fuel with
  | zero =>
    intro i l hf hi hoff _ hbelow
    exact isHeap_set hi hoff (fun h => by omega) hbelow
  | succ fuel ih =>
    intro i l hf hi hoff hbr hbelow
    unfold siftUp
    split
    · next h0 => exact isHeap_set hi hoff (fun h => by omega) hbelow
    · next h0 =>
      have hp : (i - 1) / 2 < l.length := by omega
      split
      · next hlt =>
        have hlt : key held < keyAt key l ((i - 1) / 2) := (hb _ _).mp hlt
        -- the parent moves into the hole at `i`; the hole is now at the parent
        refine ih _ _ (by omega) (by simpa using hp) ?_ ?_ ?_
        · intro j hj0 hj hjp hpj
          rw [List.length_set] at hj
          by_cases hji : j = i
          · exact absurd (by rw [hji]) hpj
          · rw [keyAt_set_ne (fun h => hji h.symm)]
            by_cases hpi : (j - 1) / 2 = i
            · rw [hpi, keyAt_set_self hi]
              exact hbr (by omega) j hj0 hj hpi
            · rw [keyAt_set_ne (fun h => hpi h.symm)]
              exact hoff j hj0 hj hji hpi
        · intro hp0 j hj0 hj hpj
          rw [List.length_set] at hj
          rw [keyAt_set_ne (by omega)]
          have hup : keyAt key l (((i - 1) / 2 - 1) / 2) ≤ keyAt key l ((i - 1) / 2) :=
            hoff ((i - 1) / 2) hp0 hp (by omega) (by omega)
          by_cases hji : j = i
          · rw [hji, keyAt_set_self hi]
            exact hup
          · rw [keyAt_set_ne (fun h => hji h.symm)]
            exact hup.trans (by have := hoff j hj0 hj hji (by omega); rwa [hpj] at this)
        · intro j hj0 hj hpj
          rw [List.length_set] at hj
          by_cases hji : j = i
          · rw [hji, keyAt_set_self hi]
            exact hlt.le
          · rw [keyAt_set_ne (fun h => hji h.symm)]
            exact hlt.le.trans (by have := hoff j hj0 hj hji (by omega); rwa [hpj] at this)
      · next hge =>
        refine isHeap_set hi hoff (fun _ => ?_) hbelow
        exact not_lt.mp fun h => hge ((hb _ _).mpr h)

/-- The chosen child is at or before both children. -/
theorem firstChild_le {before : α → α → Bool} {key : α → β}
    (hb : ∀ a b, before a b = true ↔ key a < key b) {l : List α} {i j : Nat}
    (hj0 : 0 < j) (hj : j < l.length) (hji : (j - 1) / 2 = i) :
    keyAt key l (firstChild before l i) ≤ keyAt key l j := by
  have hcase : j = 2 * i + 1 ∨ j = 2 * i + 2 := by omega
  unfold firstChild
  split
  · next hc =>
    rcases hcase with rfl | rfl
    · exact ((hb _ _).mp hc.2).le
    · exact le_rfl
  · next hc =>
    rcases hcase with rfl | rfl
    · exact le_rfl
    · exact not_lt.mp fun h => hc ⟨hj, (hb _ _).mpr h⟩

theorem siftDown_isHeap {before : α → α → Bool} {key : α → β}
    (hb : ∀ a b, before a b = true ↔ key a < key b) {held : α} :
    ∀ (fuel i : Nat) (l : List α), l.length ≤ fuel + i → i < l.length →
      OrderedOff key l i → Bridged key l i →
      (0 < i → keyAt key l ((i - 1) / 2) ≤ key held) →
      IsHeap key (siftDown before held fuel i l) := by
  intro fuel
  induction fuel with
  | zero => intro i l hf hi; omega
  | succ fuel ih =>
    intro i l hf hi hoff hbr habove
    unfold siftDown
    split
    · next hleaf => exact isHeap_set hi hoff habove fun j hj0 hj hji => by omega
    · next hleaf =>
      have hc := firstChild_lt before (l := l) (i := i) (by omega)
      have hgt := lt_firstChild before l i
      have hcp : (firstChild before l i - 1) / 2 = i := by
        unfold firstChild
        split <;> omega
      have hmin : ∀ j, 0 < j → j < l.length → (j - 1) / 2 = i →
          keyAt key l (firstChild before l i) ≤ keyAt key l j :=
        fun j hj0 hj hji => firstChild_le hb hj0 hj hji
      generalize firstChild before l i = c at hc hgt hcp hmin ⊢
      split
      · next hlt =>
        have hlt : keyAt key l c < key held := (hb _ _).mp hlt
        -- the child moves into the hole at `i`; the hole is now at the child
        refine ih _ _ (by rw [List.length_set]; omega) (by simpa using hc) ?_ ?_ ?_
        · intro j hj0 hj hjc hpj
          rw [List.length_set] at hj
          by_cases hji : j = i
          · subst hji
            rw [keyAt_set_self hi, keyAt_set_ne (by omega)]
            exact hbr hj0 c (by omega) hc hcp
          · rw [keyAt_set_ne (fun h => hji h.symm)]
            by_cases hpi : (j - 1) / 2 = i
            · rw [hpi, keyAt_set_self hi]
              exact hmin j hj0 hj hpi
            · rw [keyAt_set_ne (fun h => hpi h.symm)]
              exact hoff j hj0 hj hji hpi
        · intro _ j hj0 hj hpj
          rw [List.length_set] at hj
          rw [hcp, keyAt_set_self hi, keyAt_set_ne (by omega)]
          have := hoff j hj0 hj (by omega) (by omega)
          rwa [hpj] at this
        · intro _
          rw [hcp, keyAt_set_self hi]
          exact hlt.le
      · next hge =>
        refine isHeap_set hi hoff habove fun j hj0 hj hji => ?_
        exact (not_lt.mp fun h => hge ((hb _ _).mpr h)).trans (hmin j hj0 hj hji)

/-! ## The client's view -/

theorem push_isHeap {before : α → α → Bool} {key : α → β}
    (hb : ∀ a b, before a b = true ↔ key a < key b) {l : List α} (h : IsHeap key l) (x : α) :
    IsHeap key (push before l x) := by
  have hold : ∀ i, i < l.length → keyAt key (l ++ [x]) i = keyAt key l i := by
    intro i hi
    unfold keyAt
    rw [List.getD_append _ _ _ _ hi]
  refine siftUp_isHeap hb _ _ _ (Nat.le_refl _) (by simp) ?_ ?_ ?_
  · intro i hi0 hi hin _
    rw [List.length_append, List.length_singleton] at hi
    rw [hold _ (by omega), hold _ (by omega)]
    exact h i hi0 (by omega)
  · intro _ i _ hi hip
    rw [List.length_append, List.length_singleton] at hi
    omega
  · intro i _ hi hip
    rw [List.length_append, List.length_singleton] at hi
    omega

theorem pop_isHeap {before : α → α → Bool} {key : α → β}
    (hb : ∀ a b, before a b = true ↔ key a < key b) {l : List α} (h : IsHeap key l) :
    IsHeap key (popRest before l) := by
  rcases List.eq_nil_or_concat l with rfl | ⟨init, last, rfl⟩
  · intro i _ hi
    exact absurd hi (by simp [popRest])
  · unfold popRest
    rw [List.concat_eq_append, List.dropLast_concat, List.getLastD_concat]
    cases init with
    | nil => intro i _ hi; exact absurd hi (by simp)
    | cons y rest =>
      -- away from the root the list is the old one without its last element
      have hold : ∀ i, 0 < i → i < rest.length + 1 →
          keyAt key (last :: rest) i = keyAt key (((y :: rest).concat last)) i := by
        intro i hi0 hi
        obtain ⟨j, rfl⟩ : ∃ j, i = j + 1 := ⟨i - 1, by omega⟩
        unfold keyAt
        rw [List.concat_eq_append, List.cons_append, List.getD_cons_succ, List.getD_cons_succ,
          List.getD_append _ _ _ _ (by omega)]
      refine siftDown_isHeap hb _ _ _ (by simp) (by simp) ?_ ?_ ?_
      · intro i hi0 hi hne hpne
        rw [List.length_cons] at hi
        rw [hold _ (by omega) (by omega), hold _ hi0 hi]
        exact h i hi0 (by simp; omega)
      · intro h0
        omega
      · intro h0
        omega

/-- The root of a heap is at or before everything in it. -/
theorem isHeap_root_le {key : α → β} {l : List α} (h : IsHeap key l) :
    ∀ i, i < l.length → keyAt key l 0 ≤ keyAt key l i := by
  intro i
  induction i using Nat.strongRecOn with
  | ind i ih =>
    intro hi
    rcases Nat.eq_zero_or_pos i with rfl | hi0
    · exact le_rfl
    · exact (ih ((i - 1) / 2) (by omega) (by omega)).trans (h i hi0 hi)

theorem pop_le {key : α → β} {x : α} {l : List α} (h : IsHeap key (x :: l)) :
    ∀ y ∈ l, key x ≤ key y := by
  intro y hy
  obtain ⟨i, hi, rfl⟩ := List.mem_iff_getElem.mp hy
  have := isHeap_root_le h (i + 1) (by simpa using hi)
  unfold keyAt at this
  rwa [List.getD_cons_zero, List.getD_cons_succ, List.getD_eq_getElem _ _ hi] at this

/-! ## The same heap over another type -/

section Map

variable {α γ : Type} [Inhabited α] [Inhabited γ] {before : α → α → Bool}
  {before' : γ → γ → Bool} {g : α → γ} {P : α → Prop}

theorem getD_map {l : List α} {i : Nat} (hi : i < l.length) :
    (l.map g).getD i default = g (l.getD i default) := by
  rw [List.getD_eq_getElem _ _ (by simpa using hi), List.getD_eq_getElem _ _ hi,
    List.getElem_map]

theorem getD_mem {l : List α} {i : Nat} (hi : i < l.length) : l.getD i default ∈ l := by
  rw [List.getD_eq_getElem _ _ hi]
  exact List.getElem_mem hi

omit [Inhabited α] in
theorem forall_mem_set {l : List α} {i : Nat} {x : α} (h : ∀ y ∈ l, P y) (hx : P x) :
    ∀ y ∈ l.set i x, P y := by
  intro y hy
  rcases List.mem_or_eq_of_mem_set hy with hy | rfl
  · exact h y hy
  · exact hx

/-- Where the two orders agree on the elements, the sifts make the same moves. -/
theorem siftUp_map (hb : ∀ x y, P x → P y → before' (g x) (g y) = before x y) {held : α}
    (hh : P held) : ∀ (fuel i : Nat) (l : List α), i < l.length → (∀ x ∈ l, P x) →
      siftUp before' (g held) fuel i (l.map g) = (siftUp before held fuel i l).map g := by
  intro fuel
  induction fuel with
  | zero => intro i l _ _; exact List.map_set.symm
  | succ fuel ih =>
    intro i l hi hl
    unfold siftUp
    by_cases h0 : i = 0
    · rw [if_pos h0, if_pos h0]
      exact List.map_set.symm
    · have hp : (i - 1) / 2 < l.length := by omega
      have hparent := hl _ (getD_mem hp)
      rw [if_neg h0, if_neg h0, getD_map hp, hb _ _ hh hparent]
      split
      · rw [← List.map_set]
        exact ih _ _ (by simpa using hp) (forall_mem_set hl hparent)
      · exact List.map_set.symm

theorem firstChild_map (hb : ∀ x y, P x → P y → before' (g x) (g y) = before x y) {l : List α}
    (hl : ∀ x ∈ l, P x) {i : Nat} (hi : 2 * i + 1 < l.length) :
    firstChild before' (l.map g) i = firstChild before l i := by
  unfold firstChild
  rw [List.length_map]
  by_cases hright : 2 * i + 2 < l.length
  · rw [getD_map hright, getD_map hi, hb _ _ (hl _ (getD_mem hright)) (hl _ (getD_mem hi))]
  · rw [if_neg (fun h => hright h.1), if_neg (fun h => hright h.1)]

theorem siftDown_map (hb : ∀ x y, P x → P y → before' (g x) (g y) = before x y) {held : α}
    (hh : P held) : ∀ (fuel i : Nat) (l : List α), i < l.length → (∀ x ∈ l, P x) →
      siftDown before' (g held) fuel i (l.map g) = (siftDown before held fuel i l).map g := by
  intro fuel
  induction fuel with
  | zero => intro i l _ _; exact List.map_set.symm
  | succ fuel ih =>
    intro i l hi hl
    unfold siftDown
    rw [List.length_map]
    by_cases hlen : l.length ≤ 2 * i + 1
    · rw [if_pos hlen, if_pos hlen]
      exact List.map_set.symm
    · have hc := firstChild_lt before (l := l) (i := i) (by omega)
      have hchild := hl _ (getD_mem hc)
      rw [if_neg hlen, if_neg hlen, firstChild_map hb hl (by omega), getD_map hc,
        hb _ _ hchild hh]
      split
      · rw [← List.map_set]
        exact ih _ _ (by simpa using hc) (forall_mem_set hl hchild)
      · exact List.map_set.symm

theorem push_map (hb : ∀ x y, P x → P y → before' (g x) (g y) = before x y) {l : List α} {x : α}
    (hl : ∀ y ∈ l, P y) (hx : P x) :
    push before' (l.map g) (g x) = (push before l x).map g := by
  unfold push
  rw [List.length_map, ← List.map_singleton, ← List.map_append]
  refine siftUp_map hb hx _ _ _ (by simp) ?_
  intro y hy
  rcases List.mem_append.mp hy with hy | hy
  · exact hl y hy
  · rw [List.mem_singleton.mp hy]
    exact hx

theorem popRest_map (hb : ∀ x y, P x → P y → before' (g x) (g y) = before x y) {x : α}
    {l : List α} (hl : ∀ y ∈ l, P y) :
    popRest before' (g x :: l.map g) = (popRest before (x :: l)).map g := by
  rcases List.eq_nil_or_concat l with rfl | ⟨init, last, rfl⟩
  · rfl
  · have hlast : P last := hl last (by simp)
    have hinit : ∀ y ∈ init, P y := fun y hy => hl y (by simp [hy])
    unfold popRest
    rw [List.concat_eq_append, List.map_append, List.map_singleton, ← List.cons_append,
      ← List.cons_append, List.dropLast_concat, List.dropLast_concat, List.getLastD_concat,
      List.getLastD_concat]
    dsimp only
    rw [List.length_map, ← List.map_cons]
    refine siftDown_map hb hlast _ _ _ (by simp) ?_
    intro y hy
    rcases List.mem_cons.mp hy with rfl | hy
    · exact hlast
    · exact hinit y hy

end Map

end ArrayHeap
