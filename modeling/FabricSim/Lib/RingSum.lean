import Mathlib.Algebra.BigOperators.Group.Finset.Basic
import Mathlib.Data.ZMod.Basic
import Mathlib.Tactic.Ring

/-!
# Summing around a ring

`N` parties stand in a ring, and each holds a value in each of `N` cells. In step `s`
party `r` passes what it holds in cell `r - s` on to party `r + 1`, who adds it to its
own in the first `N - 1` steps and replaces its own by it in the `N - 1` after. A
transfer is allowed as soon as the one that brought the value has been performed;
nothing else orders the transfers.

The transfers of one cell are a chain that goes almost twice around the ring, and no
other transfer touches that cell. So a legal order has performed a prefix of each chain
(`Legal.mem_iff`), and what is held depends on nothing but how long these prefixes are
(`Legal.holds`). At the end of the chains every party holds every sum (`Legal.total`).
What a party is to pass on stays as it is from the moment it may be passed on until it
has been (`Legal.steady`), so it does not matter when in between it is read.
-/

namespace RingSum

variable {M : Type*} [AddCommMonoid M] {N : Nat}

/-- The step and the sender. -/
abbrev Transfer (N : Nat) := Nat × ZMod N

/-- The cell a transfer is about. -/
def cell (t : Transfer N) : ZMod N := t.2 - t.1

/-- What each party holds in each cell after one transfer. -/
def perform (held : ZMod N → ZMod N → M) (t : Transfer N) : ZMod N → ZMod N → M :=
  Function.update held (t.2 + 1) (Function.update (held (t.2 + 1)) (cell t)
    (if t.1 + 1 < N then held (t.2 + 1) (cell t) + held t.2 (cell t) else held t.2 (cell t)))

def after (held : ZMod N → ZMod N → M) (log : List (Transfer N)) : ZMod N → ZMod N → M :=
  log.foldl perform held

/-- The orders in which transfers may be performed. -/
inductive Legal : List (Transfer N) → Prop where
  | nil : Legal []
  | next {log : List (Transfer N)} (h : Legal log) (t : Transfer N) (hstep : t.1 < 2 * (N - 1))
      (hnew : t ∉ log) (hready : ∀ s, t.1 = s + 1 → (s, t.2 - 1) ∈ log) : Legal (log ++ [t])

/-- How many transfers of a cell have been performed. -/
def progress (log : List (Transfer N)) (c : ZMod N) : Nat := log.countP fun t => cell t = c

/-- What is held in cell `c` by the party and the `j` before it, back to party `c`. -/
def partialSum (held : ZMod N → ZMod N → M) (c : ZMod N) (j : Nat) : M :=
  ∑ i ∈ Finset.range (j + 1), held (c + i) c

/-- What party `c + j` holds in cell `c` after `k` transfers of the cell. -/
def value (held : ZMod N → ZMod N → M) (c : ZMod N) (k j : Nat) : M :=
  if j + (N - 1) < k then partialSum held c (N - 1)
  else if j ≤ k then partialSum held c j
  else held (c + j) c

/-! ## The chain of a cell -/

theorem cell_chain (c : ZMod N) (s : Nat) : cell (s, c + (s : ZMod N)) = c := by
  unfold cell
  ring

theorem eq_chain (t : Transfer N) : t = (t.1, cell t + t.1) := by
  unfold cell
  rw [sub_add_cancel]

theorem progress_snoc (log : List (Transfer N)) (t : Transfer N) (c : ZMod N) :
    progress (log ++ [t]) c = progress log c + if cell t = c then 1 else 0 := by
  unfold progress
  rw [List.countP_append, List.countP_singleton]
  simp

namespace Legal

variable {log log' : List (Transfer N)} {c : ZMod N}

theorem before (h : Legal (log ++ log')) : Legal log := by
  induction log' using List.reverseRecOn with
  | nil => rwa [List.append_nil] at h
  | append_singleton log' t ih =>
    rw [← List.append_assoc] at h
    refine ih ?_
    generalize hall : log ++ log' ++ [t] = all at h
    cases h with
    | nil => exact absurd hall (by simp)
    | next h t' hstep hnew hready =>
      obtain ⟨rfl, -⟩ := List.append_inj' hall rfl
      exact h

/-- The next transfer is that of the step its chain has come to. -/
theorem step_eq {t : Transfer N} (hchain : ∀ (s : Nat) c, (s, c + (s : ZMod N)) ∈ log ↔ s < progress log c)
    (hnew : t ∉ log) (hready : ∀ s, t.1 = s + 1 → (s, t.2 - 1) ∈ log) :
    t.1 = progress log (cell t) := by
  have hge : ¬ t.1 < progress log (cell t) := by
    rw [← hchain, ← eq_chain]
    exact hnew
  cases hs : t.1 with
  | zero =>
    rw [hs] at hge
    omega
  | succ s =>
    have hmem := hready s hs
    have hparty : t.2 - 1 = cell t + (s : ZMod N) := by
      unfold cell
      rw [hs]
      push_cast
      ring
    rw [hparty, hchain] at hmem
    omega

/-- What has been performed of a chain is its beginning. -/
theorem mem_iff (h : Legal log) (s : Nat) (c : ZMod N) :
    (s, c + (s : ZMod N)) ∈ log ↔ s < progress log c := by
  induction h generalizing s c with
  | nil => simp [progress]
  | @next log h t hstep hnew hready ih =>
    have hat := step_eq ih hnew hready
    rw [List.mem_append, List.mem_singleton, ih, progress_snoc]
    by_cases hc : cell t = c
    · rw [if_pos hc]
      rw [hc] at hat
      have hself : (s, c + (s : ZMod N)) = t ↔ s = t.1 := by
        constructor
        · exact fun heq => congrArg Prod.fst heq
        · rintro rfl
          rw [← hc]
          exact (eq_chain t).symm
      rw [hself]
      omega
    · rw [if_neg hc]
      have hother : (s, c + (s : ZMod N)) ≠ t := by
        intro heq
        exact hc (by rw [← heq, cell_chain])
      simp [hother]

theorem progress_le (h : Legal log) (c : ZMod N) : progress log c ≤ 2 * (N - 1) := by
  induction h with
  | nil => exact Nat.zero_le _
  | @next log h t hstep hnew hready ih =>
    have hat := step_eq h.mem_iff hnew hready
    rw [progress_snoc]
    split
    · next hc =>
      rw [hc] at hat
      omega
    · exact ih

end Legal

/-! ## What is held -/

section Held

variable (held : ZMod N → ZMod N → M)

theorem after_snoc (log : List (Transfer N)) (t : Transfer N) :
    after held (log ++ [t]) = perform (after held log) t := by
  unfold after
  rw [List.foldl_append]
  rfl

theorem perform_other (t : Transfer N) {r c : ZMod N} (h : ¬ (r = t.2 + 1 ∧ c = cell t)) :
    perform held t r c = held r c := by
  unfold perform
  by_cases hr : r = t.2 + 1
  · subst hr
    rw [Function.update_self, Function.update_of_ne fun hc => h ⟨rfl, hc⟩]
  · rw [Function.update_of_ne hr]

theorem perform_self (t : Transfer N) : perform held t (t.2 + 1) (cell t) =
    if t.1 + 1 < N then held (t.2 + 1) (cell t) + held t.2 (cell t) else held t.2 (cell t) := by
  unfold perform
  rw [Function.update_self, Function.update_self]

theorem partialSum_succ (c : ZMod N) (j : Nat) :
    partialSum held c (j + 1) = held (c + (j + 1 : Nat)) c + partialSum held c j := by
  unfold partialSum
  rw [Finset.sum_range_succ _ (j + 1), add_comm]

theorem value_begin (c : ZMod N) {j : Nat} : value held c 0 j = held (c + j) c := by
  unfold value
  rw [if_neg (by omega)]
  split
  · next hj =>
    obtain rfl : j = 0 := by omega
    simp [partialSum]
  · rfl

/-- Where the chain has come to, counted in parties from `c`. -/
theorem value_passed (c : ZMod N) {k : Nat} (hk : k < 2 * (N - 1)) :
    value held c k (k % N) = partialSum held c (min k (N - 1)) := by
  unfold value
  rcases Nat.lt_or_ge k N with hlt | hge
  · rw [Nat.mod_eq_of_lt hlt, if_neg (by omega), if_pos (le_refl k), Nat.min_eq_left (by omega)]
  · rw [Nat.mod_eq_sub_mod hge, Nat.mod_eq_of_lt (by omega), if_pos (by omega),
      Nat.min_eq_right (by omega)]

theorem value_target (c : ZMod N) {k : Nat} (hk : k < 2 * (N - 1)) :
    value held c (k + 1) ((k + 1) % N) =
      if k + 1 < N then value held c k ((k + 1) % N) + value held c k (k % N)
      else value held c k (k % N) := by
  rw [value_passed held c hk]
  split
  · next hlt =>
    rw [Nat.mod_eq_of_lt hlt, Nat.min_eq_left (by omega)]
    unfold value
    rw [if_neg (by omega), if_pos (le_refl _), if_neg (by omega), if_neg (by omega),
      partialSum_succ]
  · next hge =>
    rw [Nat.mod_eq_sub_mod (by omega), Nat.mod_eq_of_lt (by omega), Nat.min_eq_right (by omega)]
    unfold value
    rw [if_pos (by omega)]

theorem value_other (c : ZMod N) {k j : Nat} (hj : j < N) (hne : j ≠ (k + 1) % N)
    (hk : k < 2 * (N - 1)) : value held c (k + 1) j = value held c k j := by
  have hmod : (k + 1) % N = if k + 1 < N then k + 1 else k + 1 - N := by
    split
    · next hlt => exact Nat.mod_eq_of_lt hlt
    · rw [Nat.mod_eq_sub_mod (by omega), Nat.mod_eq_of_lt (by omega)]
  have hlast : j + (N - 1) < k + 1 ↔ j + (N - 1) < k := by
    split at hmod <;> omega
  have hreached : j + (N - 1) < k ∨ (j ≤ k + 1 ↔ j ≤ k) := by
    split at hmod <;> omega
  unfold value
  rcases hreached with hdone | hreached
  · rw [if_pos hdone, if_pos (hlast.mpr hdone)]
  · simp only [hlast, hreached]

/-- The party at a distance from `c`. -/
theorem party_eq_iff (c : ZMod N) {j : Nat} (hj : j < N) (k : Nat) :
    c + (j : ZMod N) = c + (k : ZMod N) ↔ j = k % N := by
  rw [add_right_inj, ZMod.natCast_eq_natCast_iff', Nat.mod_eq_of_lt hj]

/-- What every party holds in every cell, in any legal order. -/
theorem Legal.holds {log : List (Transfer N)} (h : Legal log) (c : ZMod N) {j : Nat}
    (hj : j < N) : after held log (c + j) c = value held c (progress log c) j := by
  induction h generalizing j with
  | nil => exact (value_begin held c).symm
  | @next log h t hstep hnew hready ih =>
    have hat := step_eq h.mem_iff hnew hready
    rw [after_snoc, progress_snoc]
    by_cases hc : cell t = c
    · subst hc
      rw [if_pos rfl, ← hat]
      rw [← hat] at ih
      have hfrom : t.2 = cell t + (t.1 : ZMod N) := congrArg Prod.snd (eq_chain t)
      have hpassed : after held log t.2 (cell t) = value held (cell t) t.1 (t.1 % N) := by
        rw [← ih (Nat.mod_lt _ (by omega)), ZMod.natCast_mod, ← hfrom]
      have hto : t.2 + 1 = cell t + ((t.1 + 1 : Nat) : ZMod N) := by
        rw [Nat.cast_succ, ← add_assoc, ← hfrom]
      by_cases htarget : j = (t.1 + 1) % N
      · subst htarget
        have hparty := (party_eq_iff (cell t) hj (t.1 + 1)).mpr rfl
        have hheld := ih hj
        rw [hparty, ← hto] at hheld ⊢
        rw [perform_self, hheld, hpassed, value_target held (cell t) hstep]
      · rw [perform_other, ih hj, value_other held (cell t) hj htarget hstep]
        rintro ⟨hparty, -⟩
        rw [hto, party_eq_iff (cell t) hj] at hparty
        exact htarget hparty
    · rw [if_neg hc, perform_other _ _ fun hboth => hc hboth.2.symm]
      exact ih hj

/-! ## The end of the chains -/

variable [NeZero N]

theorem exists_party (c r : ZMod N) : ∃ j, j < N ∧ r = c + (j : ZMod N) := by
  refine ⟨(r - c).val, ZMod.val_lt _, ?_⟩
  rw [ZMod.natCast_zmod_val, add_sub_cancel]

/-- The parties, counted from any of them. -/
theorem sum_parties (g : ZMod N → M) (c : ZMod N) :
    ∑ i ∈ Finset.range N, g (c + i) = ∑ q : ZMod N, g q := by
  refine Finset.sum_nbij' (fun i => c + (i : ZMod N)) (fun q => (q - c).val) ?_ ?_ ?_ ?_ ?_
  · exact fun i _ => Finset.mem_univ _
  · exact fun q _ => Finset.mem_range.mpr (ZMod.val_lt _)
  · intro i hi
    rw [add_sub_cancel_left]
    exact ZMod.val_cast_of_lt (Finset.mem_range.mp hi)
  · intro q _
    rw [ZMod.natCast_zmod_val, add_sub_cancel]
  · exact fun i _ => rfl

/-- All the way around is everyone. -/
theorem partialSum_full (c : ZMod N) :
    partialSum held c (N - 1) = ∑ q ∈ Finset.range N, held q c := by
  have hzero := sum_parties (fun q => held q c) 0
  simp only [zero_add] at hzero
  unfold partialSum
  rw [Nat.sub_add_cancel (Nat.pos_of_neZero N), sum_parties (fun q => held q c), hzero]

/-- Once every transfer has been performed, in whatever legal order, every party holds
every sum. -/
theorem Legal.total {log : List (Transfer N)} (h : Legal log)
    (hall : ∀ s r, s < 2 * (N - 1) → (s, r) ∈ log) (r c : ZMod N) :
    after held log r c = ∑ q ∈ Finset.range N, held q c := by
  obtain ⟨j, hj, rfl⟩ := exists_party c r
  have hend : progress log c = 2 * (N - 1) := by
    refine le_antisymm (h.progress_le c) (Nat.not_lt.mp fun hlt => ?_)
    have hmem := (h.mem_iff _ c).mp (hall (progress log c) _ hlt)
    exact absurd hmem (Nat.lt_irrefl _)
  rw [h.holds held c hj, hend, ← partialSum_full]
  unfold value
  rcases Nat.lt_or_ge j (N - 1) with hlt | hge
  · rw [if_pos (by omega)]
  · obtain rfl : j = N - 1 := by omega
    rw [if_neg (by omega), if_pos (by omega)]

/-- From when it may be passed on until it has been, a value does not change. -/
theorem Legal.steady {log log' : List (Transfer N)} (h : Legal (log ++ log')) {t : Transfer N}
    (hready : ∀ s, t.1 = s + 1 → (s, t.2 - 1) ∈ log) (hnew : t ∉ log ++ log') :
    after held (log ++ log') t.2 (cell t) = after held log t.2 (cell t) := by
  have hbefore := h.before
  have hthen : t.1 = progress log (cell t) :=
    step_eq hbefore.mem_iff (fun hmem => hnew (List.mem_append_left _ hmem)) hready
  have hnow : t.1 = progress (log ++ log') (cell t) :=
    step_eq h.mem_iff hnew fun s hs => List.mem_append_left _ (hready s hs)
  obtain ⟨j, hj, hparty⟩ := exists_party (cell t) t.2
  rw [hparty, h.holds held _ hj, hbefore.holds held _ hj, ← hthen, ← hnow]

end Held

end RingSum
