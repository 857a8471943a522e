import Mathlib.Combinatorics.SimpleGraph.Metric

/-!
# Hop distance: labellings and level-synchronous search

Two ways to know a graph distance without enumerating walks.

* A *labelling* that is `0` only at the target, changes by at most one along an
  edge and has a smaller neighbour wherever it is positive is the distance
  (`dist_eq_of_labelling`). This is how the distances of a regular topology are
  computed.
* `Bfs.run` is the level-synchronous breadth-first search with a frontier and a
  next list. `Bfs.run_eq_some_iff`: after as many rounds as there are vertices
  it marks exactly the reachable vertices, each with its distance.
-/

namespace HopDistance

open SimpleGraph

variable {V : Type} {G : SimpleGraph V}

/-- A step towards a reachable target, from anywhere else. -/
theorem exists_adj_dist_succ {u t : V} (h : G.Reachable u t) (hne : u ≠ t) :
    ∃ w, G.Adj u w ∧ G.Reachable w t ∧ G.dist w t + 1 = G.dist u t := by
  obtain ⟨p, hp⟩ := h.exists_walk_length_eq_dist
  cases p with
  | nil => exact absurd rfl hne
  | cons hadj q =>
    have hle := dist_le q
    have hq : q.length + 1 = G.dist u t := hp
    have hup := dist_le (Walk.cons hadj (q.reachable.exists_walk_length_eq_dist).choose)
    have hch := (q.reachable.exists_walk_length_eq_dist).choose_spec
    rw [Walk.length_cons, hch] at hup
    exact ⟨_, hadj, q.reachable, by omega⟩

/-- One edge changes the distance by at most one. -/
theorem dist_le_succ_of_adj {u w t : V} (h : G.Adj u w) (hw : G.Reachable w t) :
    G.dist u t ≤ G.dist w t + 1 := by
  obtain ⟨q, hq⟩ := hw.exists_walk_length_eq_dist
  have := dist_le (Walk.cons h q)
  rwa [Walk.length_cons, hq] at this

/-- A function that drops by at most one per edge bounds the distance from below. -/
theorem le_dist_of_lipschitz {L : V → ℕ} {t : V} (ht : L t = 0)
    (hL : ∀ u w, G.Adj u w → L u ≤ L w + 1) {v : V} (h : G.Reachable v t) :
    L v ≤ G.dist v t := by
  obtain ⟨p, hp⟩ := h.exists_walk_length_eq_dist
  have hwalk : ∀ {a b : V} (q : G.Walk a b), L a ≤ L b + q.length := by
    intro a b q
    induction q with
    | nil => exact Nat.le_add_right _ _
    | cons hadj q ih =>
      have := hL _ _ hadj
      rw [Walk.length_cons]
      omega
  have := hwalk p
  omega

/-- A function with a smaller neighbour wherever it is positive, on a set of
vertices `S`, bounds the distance to its only zero from above. -/
theorem dist_le_of_descent {S : V → Prop} {L : V → ℕ} {t : V}
    (hzero : ∀ v, S v → L v = 0 → v = t)
    (hdown : ∀ v, S v → L v ≠ 0 → ∃ w, S w ∧ G.Adj v w ∧ L w + 1 = L v) :
    ∀ v, S v → G.Reachable v t ∧ G.dist v t ≤ L v := by
  intro v hv
  have hwalk : ∀ (n : ℕ) (v : V), S v → L v = n → ∃ p : G.Walk v t, p.length = n := by
    intro n
    induction n with
    | zero =>
      intro v hv hn
      obtain rfl := hzero v hv hn
      exact ⟨Walk.nil, rfl⟩
    | succ n ih =>
      intro v hv hn
      obtain ⟨w, hw, hadj, hlw⟩ := hdown v hv (by omega)
      obtain ⟨p, hp⟩ := ih w hw (by omega)
      exact ⟨Walk.cons hadj p, by rw [Walk.length_cons, hp]⟩
  obtain ⟨p, hp⟩ := hwalk _ v hv rfl
  exact ⟨p.reachable, hp ▸ dist_le p⟩

/-- A labelling that is Lipschitz and descends to its only zero is the distance. -/
theorem dist_eq_of_labelling {S : V → Prop} {L : V → ℕ} {t : V} (ht : L t = 0)
    (hL : ∀ u w, G.Adj u w → L u ≤ L w + 1)
    (hzero : ∀ v, S v → L v = 0 → v = t)
    (hdown : ∀ v, S v → L v ≠ 0 → ∃ w, S w ∧ G.Adj v w ∧ L w + 1 = L v) {v : V} (hv : S v) :
    G.Reachable v t ∧ G.dist v t = L v := by
  obtain ⟨hr, hle⟩ := dist_le_of_descent hzero hdown v hv
  exact ⟨hr, le_antisymm hle (le_dist_of_lipschitz ht hL hr)⟩

/-- A distance between vertices below `n` is below `n`, if edges stay there. -/
theorem dist_lt_of_bounded {G : SimpleGraph ℕ} {n : ℕ} (hG : ∀ u v, G.Adj u v → v < n)
    {u t : ℕ} (hu : u < n) (h : G.Reachable u t) : G.dist u t < n := by
  obtain ⟨p, hpath, hlen⟩ := h.exists_path_of_dist
  have hbound : ∀ {a b : ℕ} (q : G.Walk a b), a < n → ∀ x ∈ q.support, x < n := by
    intro a b q
    induction q with
    | nil => intro ha x hx; rw [Walk.support_nil, List.mem_singleton] at hx; exact hx ▸ ha
    | cons hadj q ih =>
      intro ha x hx
      rw [Walk.support_cons, List.mem_cons] at hx
      rcases hx with rfl | hx
      · exact ha
      · exact ih (hG _ _ hadj) x hx
  have hsub : p.support ⊆ List.range n := fun x hx => List.mem_range.mpr (hbound p hu x hx)
  have := (List.subperm_of_subset hpath.support_nodup hsub).length_le
  rw [Walk.length_support, List.length_range] at this
  omega

end HopDistance

namespace Bfs

open SimpleGraph

/-- Look at one neighbour: mark it and queue it if it is not marked yet. -/
def visit (depth : Nat) (st : (Nat → Option Nat) × List Nat) (v : Nat) :
    (Nat → Option Nat) × List Nat :=
  if st.1 v = none then (Function.update st.1 v (some depth), st.2 ++ [v]) else st

/-- One round: every neighbour of every frontier vertex. -/
def level (adj : Nat → List Nat) (depth : Nat) (frontier : List Nat) (mark : Nat → Option Nat) :
    (Nat → Option Nat) × List Nat :=
  (frontier.flatMap adj).foldl (visit depth) (mark, [])

/-- Rounds until the frontier is empty; `fuel` bounds their number. -/
def rounds (adj : Nat → List Nat) : Nat → Nat → List Nat → (Nat → Option Nat) → Nat → Option Nat
  | 0, _, _, mark => mark
  | _ + 1, _, [], mark => mark
  | fuel + 1, depth, u :: frontier, mark =>
    rounds adj fuel (depth + 1) (level adj (depth + 1) (u :: frontier) mark).2
      (level adj (depth + 1) (u :: frontier) mark).1

/-- The search from `source`, with `n` rounds. -/
def run (adj : Nat → List Nat) (n : Nat) (source : Nat) : Nat → Option Nat :=
  rounds adj n 0 [source] (Function.update (fun _ => none) source (some 0))

theorem visit_fold (depth : Nat) :
    ∀ (l : List Nat) (st : (Nat → Option Nat) × List Nat),
      (∀ v, (l.foldl (visit depth) st).1 v =
        if st.1 v = none ∧ v ∈ l then some depth else st.1 v) ∧
      (∀ v, v ∈ (l.foldl (visit depth) st).2 ↔ v ∈ st.2 ∨ (st.1 v = none ∧ v ∈ l)) := by
  intro l
  induction l with
  | nil => intro st; simp
  | cons w l ih =>
    intro st
    rw [List.foldl_cons]
    obtain ⟨hd, hn⟩ := ih (visit depth st w)
    by_cases hw : st.1 w = none
    · have hv : visit depth st w = (Function.update st.1 w (some depth), st.2 ++ [w]) := if_pos hw
      rw [hv] at hd hn ⊢
      constructor
      · intro v
        rw [hd v]
        dsimp only
        by_cases hvw : v = w
        · subst hvw; simp [hw]
        · simp [hvw]
      · intro v
        rw [hn v]
        dsimp only
        by_cases hvw : v = w
        · subst hvw; simp [hw]
        · simp [hvw]
    · have hv : visit depth st w = st := if_neg hw
      rw [hv] at hd hn ⊢
      have hne : ∀ v, st.1 v = none → v ≠ w := fun v h e => hw (e ▸ h)
      constructor
      · intro v
        rw [hd v]
        by_cases hvn : st.1 v = none
        · simp [hvn, hne v hvn]
        · simp [hvn]
      · intro v
        rw [hn v]
        by_cases hvn : st.1 v = none
        · simp [hvn, hne v hvn]
        · simp [hvn]

variable {G : SimpleGraph ℕ} {adj : Nat → List Nat} {source : Nat}

/-- What is known after `depth` rounds: marks are the distances up to `depth`,
the frontier is the sphere of radius `depth`. -/
structure Level (G : SimpleGraph ℕ) (source depth : Nat) (frontier : List Nat)
    (mark : Nat → Option Nat) : Prop where
  marks : ∀ v d, mark v = some d ↔ G.Reachable v source ∧ G.dist v source = d ∧ d ≤ depth
  sphere : ∀ v, v ∈ frontier ↔ G.Reachable v source ∧ G.dist v source = depth

theorem Level.start (G : SimpleGraph ℕ) (source : Nat) :
    Level G source 0 [source] (Function.update (fun _ => none) source (some 0)) where
  marks := by
    intro v d
    by_cases hv : v = source
    · subst hv
      rw [Function.update_self]
      constructor
      · intro h
        obtain rfl := Option.some.inj h
        exact ⟨Reachable.refl _, dist_self, le_rfl⟩
      · rintro ⟨_, hd, h0⟩
        rw [Nat.le_zero.mp h0]
    · rw [Function.update_of_ne hv]
      constructor
      · intro h; exact absurd h (by simp)
      · rintro ⟨hr, hd, h0⟩
        exact absurd (hr.dist_eq_zero_iff.mp (by omega)) hv
  sphere := by
    intro v
    rw [List.mem_singleton]
    constructor
    · rintro rfl; exact ⟨Reachable.refl _, dist_self⟩
    · rintro ⟨hr, h0⟩; exact hr.dist_eq_zero_iff.mp h0

/-- One round takes the search one level further. -/
theorem Level.step (hG : ∀ u v, G.Adj u v ↔ v ∈ adj u) {depth : Nat} {frontier : List Nat}
    {mark : Nat → Option Nat} (h : Level G source depth frontier mark) :
    Level G source (depth + 1) (level adj (depth + 1) frontier mark).2
      (level adj (depth + 1) frontier mark).1 := by
  obtain ⟨hd, hn⟩ := visit_fold (depth + 1) (frontier.flatMap adj) (mark, [])
  have hnone : ∀ v, mark v = none → G.Reachable v source → depth < G.dist v source := by
    intro v hv hr
    by_contra hle
    rw [(h.marks v _).mpr ⟨hr, rfl, not_lt.mp hle⟩] at hv
    exact absurd hv (by simp)
  -- unmarked neighbours of the frontier are the next sphere
  have hnew : ∀ v, (mark v = none ∧ v ∈ frontier.flatMap adj) ↔
      G.Reachable v source ∧ G.dist v source = depth + 1 := by
    intro v
    constructor
    · rintro ⟨hv, hmem⟩
      obtain ⟨u, hu, huv⟩ := List.mem_flatMap.mp hmem
      obtain ⟨hru, hdu⟩ := (h.sphere u).mp hu
      have hadj : G.Adj v u := ((hG u v).mpr huv).symm
      have hrv : G.Reachable v source := hadj.reachable.trans hru
      have := HopDistance.dist_le_succ_of_adj hadj hru
      have := hnone v hv hrv
      exact ⟨hrv, by omega⟩
    · rintro ⟨hr, hdv⟩
      have hvs : v ≠ source := by
        rintro rfl
        rw [dist_self] at hdv
        omega
      obtain ⟨w, hadj, hrw, hdw⟩ := HopDistance.exists_adj_dist_succ hr hvs
      refine ⟨?_, List.mem_flatMap.mpr ⟨w, (h.sphere w).mpr ⟨hrw, by omega⟩,
        (hG w v).mp hadj.symm⟩⟩
      by_contra hsome
      obtain ⟨d, hd'⟩ := Option.ne_none_iff_exists'.mp hsome
      obtain ⟨_, h1, h2⟩ := (h.marks v d).mp hd'
      omega
  constructor
  · intro v d
    show (level adj (depth + 1) frontier mark).1 v = some d ↔ _
    unfold level
    rw [hd v]
    dsimp only
    by_cases hc : mark v = none ∧ v ∈ frontier.flatMap adj
    · rw [if_pos hc]
      obtain ⟨hr, hdv⟩ := (hnew v).mp hc
      constructor
      · intro h'
        obtain rfl := Option.some.inj h'
        exact ⟨hr, hdv, le_rfl⟩
      · rintro ⟨_, h1, _⟩
        rw [← h1, hdv]
    · rw [if_neg hc, h.marks v d]
      constructor
      · rintro ⟨h1, h2, h3⟩
        exact ⟨h1, h2, by omega⟩
      · rintro ⟨h1, h2, h3⟩
        refine ⟨h1, h2, ?_⟩
        by_contra hgt
        exact hc ((hnew v).mpr ⟨h1, by omega⟩)
  · intro v
    show v ∈ (level adj (depth + 1) frontier mark).2 ↔ _
    unfold level
    rw [hn v]
    simpa using hnew v

theorem rounds_eq_some_iff (hG : ∀ u v, G.Adj u v ↔ v ∈ adj u) :
    ∀ (fuel depth : Nat) (frontier : List Nat) (mark : Nat → Option Nat),
      Level G source depth frontier mark → ∀ v d,
        rounds adj fuel depth frontier mark v = some d ↔
          G.Reachable v source ∧ G.dist v source = d ∧ d ≤ depth + fuel := by
  intro fuel
  induction fuel with
  | zero => intro depth frontier mark h v d; exact h.marks v d
  | succ fuel ih =>
    intro depth frontier mark h v d
    cases frontier with
    | nil =>
      show mark v = some d ↔ _
      rw [h.marks v d]
      constructor
      · rintro ⟨h1, h2, h3⟩
        exact ⟨h1, h2, by omega⟩
      · rintro ⟨h1, h2, _⟩
        refine ⟨h1, h2, ?_⟩
        -- an empty sphere: walking down from beyond it would have to cross it
        by_contra hgt
        have hcross : ∀ (k : Nat) (w : ℕ), G.Reachable w source →
            G.dist w source = depth + k → False := by
          intro k
          induction k with
          | zero => intro w hr hw; exact List.not_mem_nil ((h.sphere w).mpr ⟨hr, hw⟩)
          | succ k ihk =>
            intro w hr hw
            have hws : w ≠ source := by
              rintro rfl
              rw [dist_self] at hw
              omega
            obtain ⟨w', _, hr', hd'⟩ := HopDistance.exists_adj_dist_succ hr hws
            exact ihk w' hr' (by omega)
        exact hcross (d - depth) v h1 (by omega)
    | cons u frontier =>
      show rounds adj fuel (depth + 1) _ _ v = some d ↔ _
      rw [ih (depth + 1) _ _ (h.step hG) v d, Nat.add_right_comm, Nat.add_assoc]

/-- With as many rounds as vertices the search finds every reachable vertex. -/
theorem run_eq_some_iff (hG : ∀ u v, G.Adj u v ↔ v ∈ adj u) {n : Nat}
    (hn : ∀ u v, G.Adj u v → v < n) (v d : Nat) (hv : v < n) :
    run adj n source v = some d ↔ G.Reachable v source ∧ G.dist v source = d := by
  unfold run
  rw [rounds_eq_some_iff hG n 0 _ _ (Level.start G source) v d]
  constructor
  · rintro ⟨h1, h2, _⟩
    exact ⟨h1, h2⟩
  · rintro ⟨h1, h2⟩
    refine ⟨h1, h2, ?_⟩
    have := HopDistance.dist_lt_of_bounded hn hv h1
    omega

end Bfs
