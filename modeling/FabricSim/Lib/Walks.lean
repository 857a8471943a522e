import Mathlib.Data.Set.Card
import Mathlib.Data.List.Nodup

/-!
# Counting walks

`cand u` are the labels on offer at a vertex and `next` says where a label leads.
The walks of a given length from a vertex can be listed (`ofLength`, each once) and
so counted, one step at a time (`count_succ`). Where the length of a walk tells
whether it has reached its target, that is the number of all walks there
(`ncard_walks`).
-/

namespace Walks

variable {V P : Type}

/-- `route` goes from `u` to `v`, a label on offer at every vertex it passes. -/
inductive Walk (cand : V → List P) (next : P → V) : V → List P → V → Prop
  | here (u : V) : Walk cand next u [] u
  | hop {u v : V} {p : P} {route : List P} :
    p ∈ cand u → Walk cand next (next p) route v → Walk cand next u (p :: route) v

/-- The walks of `n` steps from `u`. -/
def ofLength (cand : V → List P) (next : P → V) : Nat → V → List (List P)
  | 0, _ => [[]]
  | n + 1, u => (cand u).flatMap fun p => (ofLength cand next n (next p)).map (p :: ·)

/-- How many there are. -/
def count (cand : V → List P) (next : P → V) (n : Nat) (u : V) : Nat :=
  (ofLength cand next n u).length

variable {cand : V → List P} {next : P → V}

theorem mem_ofLength {n : Nat} {u : V} {route : List P} :
    route ∈ ofLength cand next n u ↔ route.length = n ∧ ∃ v, Walk cand next u route v := by
  induction n generalizing u route with
  | zero =>
    show route ∈ [[]] ↔ _
    rw [List.mem_singleton]
    constructor
    · rintro rfl
      exact ⟨rfl, u, .here u⟩
    · rintro ⟨hlen, -⟩
      exact List.length_eq_zero_iff.mp hlen
  | succ n ih =>
    show route ∈ (cand u).flatMap _ ↔ _
    rw [List.mem_flatMap]
    constructor
    · rintro ⟨p, hp, hmem⟩
      obtain ⟨rest, hrest, rfl⟩ := List.mem_map.mp hmem
      obtain ⟨hlen, v, hv⟩ := ih.mp hrest
      exact ⟨congrArg (· + 1) hlen, v, .hop hp hv⟩
    · rintro ⟨hlen, v, hv⟩
      cases hv with
      | here => exact absurd hlen (Nat.succ_ne_zero n).symm
      | hop hp hrest =>
        exact ⟨_, hp, List.mem_map_of_mem (ih.mpr ⟨Nat.succ.inj hlen, v, hrest⟩)⟩

theorem nodup_ofLength (h : ∀ u, (cand u).Nodup) (n : Nat) (u : V) :
    (ofLength cand next n u).Nodup := by
  induction n generalizing u with
  | zero => exact List.nodup_singleton _
  | succ n ih =>
    show ((cand u).flatMap _).Nodup
    refine List.nodup_flatMap.mpr ⟨fun p _ => ?_, ?_⟩
    · exact (ih (next p)).map fun _ _ heq => (List.cons.inj heq).2
    · -- different first labels, different walks
      refine (h u).imp fun {p q} hpq => ?_
      intro route hp hq
      obtain ⟨_, _, rfl⟩ := List.mem_map.mp hp
      obtain ⟨_, _, heq⟩ := List.mem_map.mp hq
      exact hpq (List.cons.inj heq).1.symm

/-- Where the length tells the end, the walks to the target are those of one length. -/
theorem ncard_walks (h : ∀ u, (cand u).Nodup) {u d : V} {n : Nat}
    (hend : ∀ route v, Walk cand next u route v → (v = d ↔ route.length = n)) :
    Set.ncard {route | Walk cand next u route d} = count cand next n u := by
  classical
  have hset : {route | Walk cand next u route d} =
      ((ofLength cand next n u).toFinset : Set (List P)) := by
    ext route
    rw [Set.mem_ofPred_eq, Finset.mem_coe, List.mem_toFinset, mem_ofLength]
    constructor
    · intro hw
      exact ⟨(hend route d hw).mp rfl, d, hw⟩
    · rintro ⟨hlen, v, hw⟩
      obtain rfl := (hend route v hw).mpr hlen
      exact hw
  rw [hset, Set.ncard_coe_finset, List.toFinset_card_of_nodup (nodup_ofLength h n u)]
  rfl

/-- One step, then the rest. -/
theorem count_succ (n : Nat) (u : V) :
    count cand next (n + 1) u = (((cand u).map next).map (count cand next n)).sum := by
  show ((cand u).flatMap _).length = _
  rw [List.length_flatMap, List.map_map]
  congr 1
  refine List.map_congr_left fun p _ => ?_
  rw [List.length_map]
  rfl

/-- Every choice of the first step leaves as many. -/
theorem count_succ_of_const {n c : Nat} {u : V} {vs : List V} (hvs : (cand u).map next = vs)
    (hc : ∀ v ∈ vs, count cand next n v = c) : count cand next (n + 1) u = vs.length * c := by
  rw [count_succ, hvs, List.map_congr_left hc, List.map_const', List.sum_replicate, Nat.nsmul_eq_mul]

end Walks
