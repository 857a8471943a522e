import FabricSim.Lib.Rejection
import FabricSim.Routing.EcmpHash
import FabricSim.Workload.Sattolo

/-!
# Random streams

A stream is its generator, an arbitrary source of 64-bit words, and how far it has been
read. `below64` folds a word onto `n` values and draws again while the word is under the
cut (`rejectBelow`), so that what is folded is a whole number of times `n`.

The loop gets fuel; how much it needs is said by `below64_eq_some_iff`: one more than the
number of words under the cut that come first.
-/

namespace FabricSim

/-- What is drawn, and how many words of it are gone. -/
structure RandomStream where
  gen : Nat → UInt64
  drawn : Nat := 0

namespace RandomStream

/-- The mixer that seeds a generator. -/
def splitmix (x : UInt64) : UInt64 := mix64 (x + 0x9E3779B97F4A7C15)

/-- The generator's seed, from that of the run and the name of the stream. -/
def seedOf (seed name : UInt64) : UInt64 := splitmix (seed ^^^ splitmix name)

/-- A stream of the run, where `engine` says what a generator makes of its seed. -/
def create (engine : UInt64 → Nat → UInt64) (seed name : UInt64) : RandomStream where
  gen := engine (seedOf seed name)

def next (s : RandomStream) : UInt64 × RandomStream :=
  (s.gen s.drawn, { s with drawn := s.drawn + 1 })

/-- `2 ^ 64 mod n`. -/
def rejectBelow (n : UInt64) : UInt64 := (0 - n) % n

/-- Draw until a word is not under the cut; `none` when the fuel is out. -/
def redraw (n : UInt64) : Nat → RandomStream → Option (UInt64 × RandomStream)
  | 0, _ => none
  | fuel + 1, s =>
    let (r, s) := s.next
    if r < rejectBelow n then redraw n fuel s else some (r, s)

/-- Uniform on `[0, n)`. -/
def below64 (fuel : Nat) (s : RandomStream) (n : UInt64) : Option (UInt64 × RandomStream) :=
  if n ≤ 1 then some (0, s)
  else (redraw n fuel s).map fun rs => (rs.1 % n, rs.2)

/-- The draw of 32 bits. -/
def below (fuel : Nat) (s : RandomStream) (n : UInt32) : Option (UInt32 × RandomStream) :=
  (below64 fuel s n.toUInt64).map fun rs => (rs.1.toUInt32, rs.2)

/-- What `below64` makes of one word of the generator; `none` is another draw. -/
def outcome (n r : UInt64) : Option UInt64 := (below64 1 { gen := fun _ => r } n).map Prod.fst

section

variable {n : UInt64} (hn : 2 ≤ n)

include hn

theorem toNat_ge : 2 ≤ n.toNat := UInt64.le_iff_toNat_le.mp hn

theorem not_le_one : ¬ n ≤ 1 := by
  have := toNat_ge hn
  rw [UInt64.le_iff_toNat_le]
  show ¬ n.toNat ≤ 1
  omega

theorem toNat_rejectBelow : (rejectBelow n).toNat = 2 ^ 64 % n.toNat := by
  have := toNat_ge hn
  exact Rejection.toNat_neg_mod (by omega)

theorem outcome_eq (r : UInt64) :
    outcome n r = if r < rejectBelow n then none else some (r % n) := by
  unfold outcome below64
  rw [if_neg (not_le_one hn)]
  unfold redraw
  dsimp only [next]
  split
  · rfl
  · rfl

theorem outcome_eq_some_iff {r v : UInt64} : outcome n r = some v ↔
    2 ^ 64 % n.toNat ≤ r.toNat ∧ r.toNat % n.toNat = v.toNat := by
  rw [outcome_eq hn, ← UInt64.toNat_mod, ← toNat_rejectBelow hn, UInt64.toNat_inj]
  have hcut : r < rejectBelow n ↔ ¬ (rejectBelow n).toNat ≤ r.toNat := by
    rw [UInt64.lt_iff_toNat_lt, not_le]
  by_cases hr : (rejectBelow n).toNat ≤ r.toNat
  · rw [if_neg (by rw [hcut]; exact fun h => h hr), Option.some_inj, and_iff_right hr]
  · rw [if_pos (hcut.mpr hr)]
    exact iff_of_false (by simp) fun h => hr h.1

theorem outcome_eq_none_iff {r : UInt64} : outcome n r = none ↔ r.toNat < 2 ^ 64 % n.toNat := by
  rw [outcome_eq hn, ← toNat_rejectBelow hn, ← UInt64.lt_iff_toNat_lt]
  split
  · next h => exact iff_of_true rfl h
  · next h => exact iff_of_false (by simp) h

theorem outcome_lt {r v : UInt64} (h : outcome n r = some v) : v < n := by
  have := toNat_ge hn
  rw [UInt64.lt_iff_toNat_lt, ← ((outcome_eq_some_iff hn).mp h).2]
  exact Nat.mod_lt _ (by omega)

/-- Every value has as many words as the others. -/
theorem card_outcome {v : UInt64} (hv : v < n) :
    Nat.card {r : UInt64 // outcome n r = some v} = 2 ^ 64 / n.toNat := by
  have := toNat_ge hn
  rw [← Rejection.card_fold (by omega) (UInt64.lt_iff_toNat_lt.mp hv), ← Rejection.card_words]
  simp only [outcome_eq_some_iff hn]

theorem card_rejected : Nat.card {r : UInt64 // outcome n r = none} = 2 ^ 64 % n.toNat := by
  rw [← Rejection.card_cut (N := 2 ^ 64) (n := n.toNat), ← Rejection.card_words]
  simp only [outcome_eq_none_iff hn]

/-- One turn of the loop. -/
theorem below64_succ (fuel : Nat) (s : RandomStream) : below64 (fuel + 1) s n =
    match outcome n (s.gen s.drawn) with
    | none => below64 fuel s.next.2 n
    | some v => some (v, s.next.2) := by
  rw [outcome_eq hn]
  unfold below64
  rw [if_neg (not_le_one hn), if_neg (not_le_one hn)]
  conv_lhs => unfold redraw
  dsimp only [next]
  split
  · rfl
  · rfl

/-- The loop returns what the first word over the cut is folded to. -/
theorem below64_eq_some_iff {fuel : Nat} {s s' : RandomStream} {v : UInt64} :
    below64 fuel s n = some (v, s') ↔ ∃ m, m < fuel ∧
      (∀ i, i < m → outcome n (s.gen (s.drawn + i)) = none) ∧
      outcome n (s.gen (s.drawn + m)) = some v ∧ s' = { s with drawn := s.drawn + m + 1 } := by
  induction fuel generalizing s with
  | zero =>
    unfold below64
    rw [if_neg (not_le_one hn)]
    exact iff_of_false (by simp [redraw]) fun ⟨m, hm, _⟩ => Nat.not_lt_zero m hm
  | succ fuel ih =>
    rw [below64_succ hn]
    cases hout : outcome n (s.gen s.drawn) with
    | none =>
      dsimp only
      rw [ih]
      -- the word is gone, and what is said of word `m` is said of word `m + 1`
      constructor
      · intro ⟨m, hm, hrej, hacc, hs'⟩
        refine ⟨m + 1, Nat.succ_lt_succ hm, fun i hi => ?_, ?_, ?_⟩
        · cases i with
          | zero => exact hout
          | succ i =>
            have := hrej i (Nat.lt_of_succ_lt_succ hi)
            rw [Nat.add_comm i, ← Nat.add_assoc]
            exact this
        · rw [Nat.add_comm m, ← Nat.add_assoc]
          exact hacc
        · rw [hs', Nat.add_comm m, ← Nat.add_assoc]
          rfl
      · intro ⟨m, hm, hrej, hacc, hs'⟩
        cases m with
        | zero =>
          rw [Nat.add_zero, hout] at hacc
          exact absurd hacc (by simp)
        | succ m =>
          refine ⟨m, Nat.lt_of_succ_lt_succ hm, fun i hi => ?_, ?_, ?_⟩
          · have := hrej (i + 1) (Nat.succ_lt_succ hi)
            rw [Nat.add_comm i, ← Nat.add_assoc] at this
            exact this
          · rw [Nat.add_comm m, ← Nat.add_assoc] at hacc
            exact hacc
          · rw [hs', Nat.add_comm m, ← Nat.add_assoc]
            rfl
    | some w =>
      dsimp only
      rw [Option.some_inj, Prod.mk.injEq]
      constructor
      · intro ⟨hv, hs'⟩
        exact ⟨0, Nat.succ_pos _, fun i hi => absurd hi (Nat.not_lt_zero i),
          by rw [Nat.add_zero, hout, hv], hs'.symm⟩
      · intro ⟨m, _, hrej, hacc, hs'⟩
        cases m with
        | zero =>
          rw [Nat.add_zero, hout] at hacc
          exact ⟨Option.some_inj.mp hacc, hs'.symm⟩
        | succ m =>
          have := hrej 0 (Nat.succ_pos m)
          rw [Nat.add_zero, hout] at this
          exact absurd this (by simp)

end

/-! ## The draw of 32 bits -/

theorem below64_fits {n : UInt32} {fuel : Nat} {s s' : RandomStream} {v : UInt64}
    (h : below64 fuel s n.toUInt64 = some (v, s')) : v.toNat < 2 ^ 32 := by
  by_cases hn : 2 ≤ n.toUInt64
  · obtain ⟨m, -, -, hout, -⟩ := (below64_eq_some_iff hn).mp h
    have hlt := UInt64.lt_iff_toNat_lt.mp (outcome_lt hn hout)
    rw [UInt32.toNat_toUInt64] at hlt
    exact hlt.trans n.toNat_lt
  · have hle : n.toUInt64 ≤ 1 := by
      rw [UInt64.le_iff_toNat_le] at hn ⊢
      exact Nat.lt_succ_iff.mp (not_le.mp hn)
    unfold below64 at h
    rw [if_pos hle, Option.some_inj] at h
    obtain ⟨rfl, -⟩ := Prod.mk.inj h
    decide

/-- Narrowing the draw loses nothing. -/
theorem below_eq_some_iff {n : UInt32} {fuel : Nat} {s s' : RandomStream} {w : UInt32} :
    below fuel s n = some (w, s') ↔ below64 fuel s n.toUInt64 = some (w.toUInt64, s') := by
  unfold below
  rw [Option.map_eq_some_iff]
  constructor
  · intro ⟨⟨v, t⟩, hdraw, heq⟩
    obtain ⟨rfl, rfl⟩ := Prod.mk.inj heq
    have hv : v.toUInt32.toUInt64 = v := by
      apply UInt64.toNat_inj.mp
      rw [UInt32.toNat_toUInt64, UInt64.toNat_toUInt32]
      exact Nat.mod_eq_of_lt (below64_fits hdraw)
    rw [hv]
    exact hdraw
  · intro hdraw
    exact ⟨_, hdraw, by rw [UInt32.toUInt32_toUInt64]⟩

theorem below_lt {n : UInt32} (hn : 0 < n) {fuel : Nat} {s s' : RandomStream} {w : UInt32}
    (h : below fuel s n = some (w, s')) : w < n := by
  have hdraw := below_eq_some_iff.mp h
  have hpos := UInt32.lt_iff_toNat_lt.mp hn
  rw [UInt32.lt_iff_toNat_lt]
  by_cases htwo : 2 ≤ n.toUInt64
  · obtain ⟨m, -, -, hout, -⟩ := (below64_eq_some_iff htwo).mp hdraw
    have hlt := UInt64.lt_iff_toNat_lt.mp (outcome_lt htwo hout)
    rw [UInt32.toNat_toUInt64, UInt32.toNat_toUInt64] at hlt
    exact hlt
  · have hle : n.toUInt64 ≤ 1 := by
      rw [UInt64.le_iff_toNat_le] at htwo ⊢
      exact Nat.lt_succ_iff.mp (not_le.mp htwo)
    unfold below64 at hdraw
    rw [if_pos hle, Option.some_inj] at hdraw
    have hzero := congrArg UInt64.toNat (Prod.mk.inj hdraw).1
    rw [UInt32.toNat_toUInt64] at hzero
    rw [← hzero]
    exact hpos

end RandomStream

open RandomStream in
/-- The bounded draw has no bias: for `n` from 2 on each value comes from equally many of
the `2 ^ 64` words, fewer than `n` words lead to another draw, and the loop returns what the
first of the others is folded to. The draw of 32 bits is the same number. -/
theorem bounded_draw_unbiased :
    (∀ n : UInt64, 2 ≤ n →
      (∀ r, outcome n r = if r < rejectBelow n then none else some (r % n)) ∧
      (rejectBelow n).toNat = 2 ^ 64 % n.toNat ∧
      (∀ v, v < n → Nat.card {r : UInt64 // outcome n r = some v} = 2 ^ 64 / n.toNat) ∧
      Nat.card {r : UInt64 // outcome n r = none} < n.toNat ∧
      ∀ fuel s v s', below64 fuel s n = some (v, s') ↔
        v < n ∧ ∃ m, m < fuel ∧ (∀ i, i < m → outcome n (s.gen (s.drawn + i)) = none) ∧
          outcome n (s.gen (s.drawn + m)) = some v ∧ s' = { s with drawn := s.drawn + m + 1 }) ∧
    ∀ (n : UInt32) fuel s,
      (∀ w s', below fuel s n = some (w, s') ↔
        below64 fuel s n.toUInt64 = some (w.toUInt64, s')) ∧
      ((below fuel s n).isSome ↔ (below64 fuel s n.toUInt64).isSome) := by
  refine ⟨fun n hn => ⟨outcome_eq hn, toNat_rejectBelow hn, fun v hv => card_outcome hn hv, ?_,
    fun fuel s v s' => ?_⟩, fun n fuel s => ⟨fun w s' => below_eq_some_iff, ?_⟩⟩
  · have := toNat_ge hn
    rw [card_rejected hn]
    exact Nat.mod_lt _ (by omega)
  · rw [below64_eq_some_iff hn]
    constructor
    · intro ⟨m, hm, hrej, hout, hs'⟩
      exact ⟨outcome_lt hn hout, m, hm, hrej, hout, hs'⟩
    · intro h
      exact h.2
  · unfold below
    rw [Option.isSome_map]

/-- Three values: the last word left over is 0. -/
theorem bounded_draw_unbiased_three :
    Nat.card {r : UInt64 // RandomStream.outcome 3 r = some 2} = 6148914691236517205 ∧
      (RandomStream.rejectBelow 3).toNat = 1 :=
  have h := bounded_draw_unbiased.1 3 (by decide)
  ⟨h.2.2.1 2 (by decide), h.2.1⟩

end FabricSim
