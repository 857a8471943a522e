import Mathlib.Data.List.Basic

/-!
# A pipeline of queues

Queues in a row, as many as it takes; items enter at queue `0`, move from the head of one
queue to the end of the next, and leave from the head of a queue behind which all others
are empty. Read from the far end back, the first `n` queues form one `line`. Moving on
within them changes nothing in it (`line_advance`), entering appends (`line_enter`), leaving
takes the head (`line_exit`), and a loss on the way deletes one item (`line_drop`). So what
comes out is a subsequence of what went in.
-/

namespace Pipeline

variable {α : Type} {stage stage' : Nat → List α} {n i : Nat} {x : α} {rest : List α}

/-- The items of the first `n` queues, furthest on first. -/
def line : Nat → (Nat → List α) → List α
  | 0, _ => []
  | n + 1, stage => stage n ++ line n stage

theorem line_congr (h : ∀ j, j < n → stage' j = stage j) : line n stage' = line n stage := by
  induction n with
  | zero => rfl
  | succ n ih =>
    show stage' n ++ line n stage' = stage n ++ line n stage
    rw [h n (Nat.lt_succ_self n), ih fun j hj => h j (Nat.lt_succ_of_lt hj)]

/-- A longer line has the same end. -/
theorem line_sublist {m : Nat} (h : m ≤ n) : (line m stage).Sublist (line n stage) := by
  induction h with
  | refl => exact List.Sublist.refl _
  | step _ ih => exact ih.trans (List.sublist_append_right _ _)

theorem line_enter (hn : 0 < n) (hin : stage' 0 = stage 0 ++ [x])
    (hother : ∀ j, j ≠ 0 → stage' j = stage j) : line n stage' = line n stage ++ [x] := by
  induction n with
  | zero => exact absurd hn (Nat.lt_irrefl 0)
  | succ n ih =>
    show stage' n ++ line n stage' = stage n ++ line n stage ++ [x]
    rcases Nat.eq_zero_or_pos n with rfl | hpos
    · rw [hin]
      show _ ++ [] = _ ++ [] ++ _
      simp
    · rw [hother n (by omega), ih hpos, List.append_assoc]

theorem line_drop (stage' : Nat → List α) (hi : i < n) (hhead : stage i = x :: rest) (hrest : stage' i = rest)
    (hother : ∀ j, j ≠ i → stage' j = stage j) : (line n stage').Sublist (line n stage) := by
  induction n with
  | zero => exact absurd hi (Nat.not_lt_zero i)
  | succ n ih =>
    show (stage' n ++ line n stage').Sublist (stage n ++ line n stage)
    by_cases hin : i = n
    · subst hin
      rw [hrest, hhead, line_congr fun j hj => hother j (by omega)]
      exact (List.sublist_cons_self x _)
    · rw [hother n (Ne.symm hin)]
      exact (ih (by omega)).append_left _

theorem line_exit (hi : i < n) (hempty : ∀ j, i < j → stage j = []) (hhead : stage i = x :: rest)
    (hrest : stage' i = rest) (hother : ∀ j, j ≠ i → stage' j = stage j) :
    line n stage = x :: line n stage' := by
  induction n with
  | zero => exact absurd hi (Nat.not_lt_zero i)
  | succ n ih =>
    show stage n ++ line n stage = x :: (stage' n ++ line n stage')
    by_cases hin : i = n
    · subst hin
      rw [hhead, hrest, line_congr fun j hj => hother j (by omega)]
      rfl
    · rw [hother n (Ne.symm hin), hempty n (by omega), ih (by omega)]
      rfl

theorem line_advance (stage' : Nat → List α) (hi : i + 1 < n) (hhead : stage i = x :: rest) (hrest : stage' i = rest)
    (hnext : stage' (i + 1) = stage (i + 1) ++ [x])
    (hother : ∀ j, j ≠ i → j ≠ i + 1 → stage' j = stage j) : line n stage' = line n stage := by
  induction n with
  | zero => exact absurd hi (Nat.not_lt_zero _)
  | succ n ih =>
    show stage' n ++ line n stage' = stage n ++ line n stage
    by_cases hin : i + 1 = n
    · subst hin
      show stage' (i + 1) ++ (stage' i ++ line i stage') = stage (i + 1) ++ (stage i ++ line i stage)
      rw [hnext, hrest, hhead, line_congr fun j hj => hother j (by omega) (by omega)]
      simp
    · rw [hother n (by omega) (Ne.symm hin), ih (by omega)]

end Pipeline
