import Mathlib.Data.List.Flatten
import Mathlib.Data.List.Range
import Mathlib.Logic.Function.Basic

/-!
# Compressed rows: prefix sums, runs and slots

A CSR table keeps rows of different lengths in one flat array: row `u` occupies
the run of `d u` slots that starts at `prefixSum d u`. Two facts make it work.
Runs do not meet (`slot_inj`), so writing through a per-row cursor fills each
row without touching another (`fill_row`); and the flat concatenation of the
rows, cut at a row's run, is that row (`slice_flatMap`).
-/

namespace Csr

variable {α : Type}

/-- The running total before each row. -/
def prefixSum (d : Nat → Nat) : Nat → Nat
  | 0 => 0
  | i + 1 => prefixSum d i + d i

theorem prefixSum_mono (d : Nat → Nat) {u v : Nat} (h : u ≤ v) :
    prefixSum d u ≤ prefixSum d v := by
  induction h with
  | refl => exact Nat.le_refl _
  | step _ ih => exact Nat.le_trans ih (Nat.le_add_right _ _)

theorem prefixSum_add_le (d : Nat → Nat) {u v : Nat} (h : u < v) :
    prefixSum d u + d u ≤ prefixSum d v :=
  prefixSum_mono d (u := u + 1) h

/-- Every position before the end is in the slice of some row. -/
theorem exists_slot (d : Nat → Nat) {n q : Nat} (h : q < prefixSum d n) :
    ∃ u k, u < n ∧ k < d u ∧ q = prefixSum d u + k := by
  induction n with
  | zero => exact absurd h (Nat.not_lt_zero q)
  | succ n ih =>
    by_cases hq : q < prefixSum d n
    · obtain ⟨u, k, hu, hk, rfl⟩ := ih hq
      exact ⟨u, k, Nat.lt_succ_of_lt hu, hk, rfl⟩
    · have hlast : prefixSum d (n + 1) = prefixSum d n + d n := rfl
      exact ⟨n, q - prefixSum d n, Nat.lt_succ_self n, by omega, by omega⟩

theorem prefixSum_le_prefixSum {d d' : Nat → Nat} {n : Nat} (h : ∀ i, i < n → d i ≤ d' i) :
    prefixSum d n ≤ prefixSum d' n := by
  induction n with
  | zero => exact Nat.le_refl _
  | succ n ih =>
    exact Nat.add_le_add (ih fun i hi => h i (Nat.lt_succ_of_lt hi)) (h n (Nat.lt_succ_self n))

/-- Slots of different rows, or different slots of one row, are different. -/
theorem slot_inj (d : Nat → Nat) {u v k l : Nat} (hk : k < d u) (hl : l < d v)
    (h : prefixSum d u + k = prefixSum d v + l) : u = v ∧ k = l := by
  rcases Nat.lt_trichotomy u v with huv | rfl | hvu
  · have := prefixSum_add_le d huv
    omega
  · omega
  · have := prefixSum_add_le d hvu
    omega

/-- One more slot in row `x` moves everything after it by one. -/
theorem prefixSum_add_one (d : Nat → Nat) (x n : Nat) :
    prefixSum (fun u => d u + if u = x then 1 else 0) n =
      prefixSum d n + if x < n then 1 else 0 := by
  induction n with
  | zero => rfl
  | succ n ih =>
    show prefixSum (fun u => d u + if u = x then 1 else 0) n + (d n + if n = x then 1 else 0) =
      prefixSum d n + d n + if x < n + 1 then 1 else 0
    rw [ih]
    split_ifs <;> omega

/-- The runs of all rows, one after the other, are all slots in order. -/
theorem flatMap_runs (d : Nat → Nat) (n : Nat) :
    ((List.range n).flatMap fun u => (List.range (d u)).map (prefixSum d u + ·)) =
      List.range (prefixSum d n) := by
  induction n with
  | zero => rfl
  | succ n ih =>
    rw [List.range_succ, List.flatMap_append, ih, List.flatMap_singleton]
    exact List.range_add.symm

/-! ## Slices of a concatenation -/

theorem length_flatMap_range (f : Nat → List α) (n : Nat) :
    ((List.range n).flatMap f).length = prefixSum (fun c => (f c).length) n := by
  induction n with
  | zero => rfl
  | succ n ih => rw [List.range_succ, List.flatMap_append, List.length_append, ih]; simp [prefixSum]

/-- Row `c` cut out of the concatenation of the first `n` rows. -/
theorem slice_flatMap (f : Nat → List α) {c n : Nat} (h : c < n) :
    (((List.range n).flatMap f).drop (prefixSum (fun c => (f c).length) c)).take
      (prefixSum (fun c => (f c).length) (c + 1) - prefixSum (fun c => (f c).length) c) = f c := by
  obtain ⟨m, rfl⟩ : ∃ m, n = c + 1 + m := ⟨n - (c + 1), by omega⟩
  have hlen := length_flatMap_range f c
  have hsplit : (List.range (c + 1 + m)).flatMap f =
      (List.range c).flatMap f ++ (f c ++ ((List.range m).map (c + 1 + ·)).flatMap f) := by
    rw [List.range_add, List.flatMap_append, List.range_succ, List.flatMap_append,
      List.append_assoc]
    simp
  rw [hsplit, List.drop_append_of_le_length (by rw [hlen]), List.drop_of_length_le (by rw [hlen]),
    List.nil_append]
  have hd : prefixSum (fun c => (f c).length) (c + 1) - prefixSum (fun c => (f c).length) c
      = (f c).length := by
    show prefixSum _ c + (f c).length - _ = _
    omega
  rw [hd, List.take_left]

/-! ## Filling rows through a cursor -/

/-- One write: the next free slot of row `k` gets `v`. -/
def put (base : Nat → Nat) (st : (Nat → Nat) × (Nat → α)) (kv : Nat × α) :
    (Nat → Nat) × (Nat → α) :=
  (Function.update st.1 kv.1 (st.1 kv.1 + 1),
    Function.update st.2 (base kv.1 + st.1 kv.1) kv.2)

/-- The values destined for row `u`, in order. -/
def row (items : List (Nat × α)) (u : Nat) : List α :=
  (items.filter fun kv => kv.1 == u).map Prod.snd

theorem row_append (xs ys : List (Nat × α)) (u : Nat) : row (xs ++ ys) u = row xs u ++ row ys u := by
  simp [row]

theorem row_singleton (k u : Nat) (v : α) : row [(k, v)] u = if k = u then [v] else [] := by
  by_cases h : k = u <;> simp [row, h]

/-- Row lengths are what the counting pass counts. -/
def rowLength (items : List (Nat × α)) (u : Nat) : Nat := (row items u).length

/-- After the fill, row `u` read slot by slot is the values destined for it. -/
theorem fill_row (items : List (Nat × α)) (junk : Nat → α) (u : Nat) :
    let st := items.foldl (put (prefixSum (rowLength items))) (fun _ => 0, junk)
    (List.range (rowLength items u)).map (fun k => st.2 (prefixSum (rowLength items) u + k))
      = row items u := by
  intro st
  -- invariant over the processed part: the cursor counts it, the slots hold it
  have hinv : ∀ (done todo : List (Nat × α)), done ++ todo = items →
      ∀ st0 : (Nat → Nat) × (Nat → α), (∀ u, st0.1 u = rowLength done u) →
      (∀ u k, k < rowLength done u →
        some (st0.2 (prefixSum (rowLength items) u + k)) = (row done u)[k]?) →
      ∀ u k, k < rowLength items u →
        some ((todo.foldl (put (prefixSum (rowLength items))) st0).2
          (prefixSum (rowLength items) u + k)) = (row items u)[k]? := by
    intro done todo
    induction todo generalizing done with
    | nil =>
      intro hsplit st0 _ hslot u k hk
      rw [List.append_nil] at hsplit
      subst hsplit
      exact hslot u k hk
    | cons kv todo ih =>
      intro hsplit st0 hcnt hslot
      obtain ⟨w, v⟩ := kv
      rw [List.foldl_cons]
      refine ih (done ++ [(w, v)]) (by simpa using hsplit) _ ?_ ?_
      · intro u
        have hrow := row_append done [(w, v)] u
        rw [row_singleton] at hrow
        unfold put rowLength
        dsimp only
        rw [hrow, Function.update_apply, hcnt]
        by_cases huw : u = w
        · subst huw; simp [rowLength]
        · simp [huw, Ne.symm huw, rowLength, hcnt]
      · intro u k hk
        have hle : ∀ x, rowLength (done ++ [(w, v)]) x ≤ rowLength items x := by
          intro x
          have : row items x = row (done ++ [(w, v)]) x ++ row todo x := by
            rw [← row_append, ← hsplit]; simp
          unfold rowLength
          rw [this, List.length_append]
          exact Nat.le_add_right _ _
        have hrow := row_append done [(w, v)] u
        rw [row_singleton] at hrow
        have hw : rowLength (done ++ [(w, v)]) w = rowLength done w + 1 := by
          unfold rowLength
          rw [row_append, row_singleton, if_pos rfl]
          simp
        unfold put
        dsimp only
        rw [hcnt, hrow]
        by_cases hlast : u = w ∧ k = rowLength done w
        · obtain ⟨rfl, rfl⟩ := hlast
          rw [Function.update_self, if_pos rfl]
          exact (List.getElem?_concat_length ..).symm
        · have hk' : k < rowLength done u := by
            unfold rowLength at hk ⊢
            rw [hrow] at hk
            by_cases huw : u = w
            · subst huw
              rw [if_pos rfl, List.length_append, List.length_singleton] at hk
              have : k ≠ (row done u).length := fun h => hlast ⟨rfl, h⟩
              omega
            · rw [if_neg (Ne.symm huw), List.append_nil] at hk
              exact hk
          rw [Function.update_of_ne, hslot u k hk', List.getElem?_append_left hk']
          intro heq
          have hk1 : k < rowLength items u := lt_of_lt_of_le hk (hle u)
          have hk2 : rowLength done w < rowLength items w := by
            have := hle w
            omega
          obtain ⟨h1, h2⟩ := slot_inj (rowLength items) hk1 hk2 heq
          exact hlast ⟨h1, h2⟩
  have hfin := hinv [] items rfl (fun _ => 0, junk) (fun _ => rfl)
    (fun u k hk => absurd hk (Nat.not_lt_zero _)) u
  refine List.ext_getElem? fun k => ?_
  by_cases hk : k < rowLength items u
  · rw [List.getElem?_map, List.getElem?_range hk, ← hfin k hk]
    rfl
  · rw [List.getElem?_eq_none (by simpa using hk), List.getElem?_eq_none]
    exact Nat.le_of_not_lt hk

end Csr
