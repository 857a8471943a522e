import Mathlib.Data.Multiset.MapFold
import Mathlib.Algebra.BigOperators.Group.Multiset.Defs
import Mathlib.Algebra.Order.Group.Nat
import Mathlib.Logic.Relation

/-!
# A paced sender and its wake-ups

A sender that may not send before `next` asks to be woken at that time, and its
`flag` remembers that it asked. Something else starts it, and it is visited for other
reasons too; a visit sends while the gate is open and asks at most once.

The clock may run backwards. All the same at most one wake-up is pending (`Regular`),
and a visit that sends nothing asks only if the gate is shut at its start
(`Moves.cost`): so wake-ups do not beget wake-ups for ever. While the clock runs
forwards no wake-up is wasted: there is at most one more than there are transmissions
(`Frugal.wakeups_le`).
-/

namespace PacingGate

@[ext]
structure Gate where
  /-- The times of the wake-ups to come. -/
  pending : Multiset Nat
  /-- The wake-ups so far. -/
  taken : Nat
  sent : Nat
  flag : Bool
  next : Nat

/-- What a visit at time `now` can do. -/
inductive Move (now : Nat) : Gate → Gate → Prop
  | send {g : Gate} (t : Nat) (hopen : g.next ≤ now) :
    Move now g { g with sent := g.sent + 1, next := t }
  | wait {g : Gate} (hshut : now < g.next) (hflag : g.flag = false) :
    Move now g { g with flag := true, pending := g.next ::ₘ g.pending }

def Moves (now : Nat) : Gate → Gate → Prop := Relation.ReflTransGen (Move now)

namespace Gate

/-- The wake-up pending at `t` comes. -/
def take (g : Gate) (t : Nat) : Gate :=
  { g with pending := g.pending.erase t, taken := g.taken + 1, flag := false }

/-- The sender is started. -/
def start (g : Gate) (now : Nat) : Gate := { g with pending := now ::ₘ g.pending, next := now }

/-- A wake-up for another time than `next` may lead to one more. -/
def cost (g : Gate) : Nat := (g.pending.map fun t => if t = g.next then 1 else 2).sum

/-- A visit now would ask for a wake-up. -/
def due (g : Gate) (now : Nat) : Nat := if g.flag = false ∧ now < g.next then 1 else 0

theorem due_le (g : Gate) (now : Nat) : g.due now ≤ 1 := by
  unfold due
  split <;> omega

theorem cost_bounds (g : Gate) :
    Multiset.card g.pending ≤ g.cost ∧ g.cost ≤ 2 * Multiset.card g.pending := by
  unfold cost
  induction g.pending using Multiset.induction_on with
  | empty => exact ⟨le_rfl, le_rfl⟩
  | cons t l ih =>
    rw [Multiset.map_cons, Multiset.sum_cons, Multiset.card_cons]
    split <;> omega

end Gate

/-! ## One wake-up at a time -/

structure Regular (g : Gate) : Prop where
  early : g.taken = 0 → g.flag = false ∧ g.sent = 0
  one : Multiset.card g.pending ≤ 1
  late : 0 < g.taken → Multiset.card g.pending = if g.flag then 1 else 0

namespace Regular

variable {g g' : Gate} {now t : Nat}

theorem pending_eq_zero (h : Regular g) (ht : 0 < g.taken) (hflag : g.flag = false) :
    g.pending = 0 := by
  have hcard := h.late ht
  rw [hflag] at hcard
  exact Multiset.card_eq_zero.mp hcard

theorem pending_eq (h : Regular g) (hmem : t ∈ g.pending) : g.pending = {t} := by
  obtain ⟨l, hl⟩ := Multiset.exists_cons_of_mem hmem
  have hone := h.one
  rw [hl, Multiset.card_cons] at hone
  rw [hl, Multiset.card_eq_zero.mp (Nat.le_zero.mp (Nat.le_of_succ_le_succ hone))]
  rfl

theorem move (h : Regular g) (ht : 0 < g.taken) (hm : Move now g g') :
    Regular g' ∧ g'.taken = g.taken := by
  cases hm with
  | send t hopen => exact ⟨⟨fun h0 => absurd h0 ht.ne', h.one, h.late⟩, rfl⟩
  | wait hshut hflag =>
    have hnone := h.pending_eq_zero ht hflag
    refine ⟨⟨fun h0 => absurd h0 ht.ne', ?_, fun _ => ?_⟩, rfl⟩
    · show Multiset.card (g.next ::ₘ g.pending) ≤ 1
      rw [hnone]
      exact le_rfl
    · show Multiset.card (g.next ::ₘ g.pending) = 1
      rw [hnone]
      rfl

theorem moves (h : Regular g) (ht : 0 < g.taken) (hm : Moves now g g') :
    Regular g' ∧ g'.taken = g.taken := by
  induction hm with
  | refl => exact ⟨h, rfl⟩
  | tail _ hstep ih =>
    obtain ⟨h1, h2⟩ := ih
    obtain ⟨h3, h4⟩ := h1.move (h2 ▸ ht) hstep
    exact ⟨h3, h4.trans h2⟩

theorem take (h : Regular g) (hmem : t ∈ g.pending) : Regular (g.take t) := by
  have hnone : (g.take t).pending = 0 := by
    show g.pending.erase t = 0
    rw [h.pending_eq hmem]
    exact Multiset.erase_singleton t
  refine ⟨fun h0 => absurd h0 (Nat.succ_ne_zero _), ?_, fun _ => ?_⟩
  · rw [hnone]
    exact Nat.zero_le 1
  · rw [hnone]
    rfl

theorem start (h : Regular g) (ht : g.taken = 0) (hnone : g.pending = 0) :
    Regular (g.start now) := by
  refine ⟨h.early, ?_, fun hpos => absurd ht hpos.ne'⟩
  show Multiset.card (now ::ₘ g.pending) ≤ 1
  rw [hnone]
  exact le_rfl

end Regular

/-! ## Wake-ups run out -/

theorem Move.cost {g g' : Gate} {now : Nat} (h : Regular g) (ht : 0 < g.taken)
    (hm : Move now g g') :
    g'.cost + g'.due now + 2 * g.sent ≤ g.cost + g.due now + 2 * g'.sent := by
  cases hm with
  | send t hopen =>
    -- the pending wake-up may now be one for another time
    have hbefore := g.cost_bounds
    have hafter := Gate.cost_bounds { g with sent := g.sent + 1, next := t }
    have hdue := Gate.due_le { g with sent := g.sent + 1, next := t } now
    have hone := h.one
    show Gate.cost _ + Gate.due _ now + 2 * g.sent ≤ g.cost + g.due now + 2 * (g.sent + 1)
    dsimp only at hafter
    omega
  | wait hshut hflag =>
    have hnone := h.pending_eq_zero ht hflag
    have hbefore : g.due now = 1 := if_pos ⟨hflag, hshut⟩
    have hcost : Gate.cost { g with flag := true, pending := g.next ::ₘ g.pending } = 1 := by
      unfold Gate.cost
      dsimp only
      rw [hnone, Multiset.map_cons, Multiset.sum_cons, if_pos rfl]
      rfl
    rw [hcost, hbefore]
    show 1 + 0 + 2 * g.sent ≤ g.cost + 1 + 2 * g.sent
    omega

/-- A visit at `now`. -/
theorem Moves.cost {g g' : Gate} {now : Nat} (h : Regular g) (ht : 0 < g.taken)
    (hm : Moves now g g') :
    g'.cost + g'.due now + 2 * g.sent ≤ g.cost + g.due now + 2 * g'.sent := by
  induction hm with
  | refl => exact le_rfl
  | tail hms hstep ih =>
    obtain ⟨h1, h2⟩ := h.moves ht hms
    have := Move.cost h1 (h2 ▸ ht) hstep
    omega

/-- A wake-up pays for the one it may lead to. -/
theorem Regular.cost_take {g : Gate} {t : Nat} (h : Regular g) (hmem : t ∈ g.pending) :
    (g.take t).cost + (g.take t).due t + 1 ≤ g.cost := by
  have hone := h.pending_eq hmem
  have hnone : (g.take t).cost = 0 := by
    show ((g.pending.erase t).map _).sum = 0
    rw [hone, Multiset.erase_singleton]
    rfl
  have hcost : g.cost = if t = g.next then 1 else 2 := by
    unfold Gate.cost
    rw [hone]
    exact Multiset.sum_singleton _
  have hdue : (g.take t).due t = if t < g.next then 1 else 0 := by
    show (if false = false ∧ t < g.next then 1 else 0) = _
    simp
  rw [hnone, hcost, hdue]
  split <;> split <;> omega

/-! ## A clock that runs forwards -/

/-- No wake-up is wasted: the next one will find a transmission it may make, or one
was made since the last. -/
structure Frugal (now : Nat) (g : Gate) : Prop where
  free : g.flag = false →
    g.taken + Multiset.card g.pending + (if now < g.next then 1 else 0) ≤ g.sent + 1
  waiting : g.flag = true → ∀ t ∈ g.pending,
    g.taken + Multiset.card g.pending + (if t < g.next then 1 else 0) ≤ g.sent + 1

namespace Frugal

variable {g g' : Gate} {now t : Nat}

theorem wakeups_le (h : Frugal now g) (hr : Regular g) :
    g.taken + Multiset.card g.pending ≤ g.sent + 1 := by
  cases hflag : g.flag with
  | false =>
    have := h.free hflag
    omega
  | true =>
    have ht : 0 < g.taken := by
      by_contra h0
      rw [(hr.early (by omega)).1] at hflag
      exact absurd hflag (by simp)
    have hcard := hr.late ht
    rw [hflag, if_pos rfl] at hcard
    obtain ⟨t, hmem⟩ := Multiset.card_pos_iff_exists_mem.mp (by omega : 0 < Multiset.card g.pending)
    have := h.waiting hflag t hmem
    omega

theorem move (h : Frugal now g) (hr : Regular g) (ht : 0 < g.taken) (hm : Move now g g') :
    Frugal now g' := by
  have hle := h.wakeups_le hr
  cases hm with
  | send t hopen =>
    constructor
    · intro _
      dsimp only
      split <;> omega
    · intro _ t' _
      dsimp only
      split <;> omega
  | wait hshut hflag =>
    have hnone := hr.pending_eq_zero ht hflag
    have hfree := h.free hflag
    rw [if_pos hshut, hnone, Multiset.card_zero] at hfree
    constructor
    · exact fun hf => absurd hf (by simp)
    · intro _ t' ht'
      dsimp only at ht' ⊢
      rw [hnone] at ht' ⊢
      obtain rfl := Multiset.mem_singleton.mp ht'
      rw [if_neg (lt_irrefl _), Multiset.card_cons, Multiset.card_zero]
      omega

theorem moves (h : Frugal now g) (hr : Regular g) (ht : 0 < g.taken) (hm : Moves now g g') :
    Frugal now g' := by
  induction hm with
  | refl => exact h
  | tail hms hstep ih =>
    obtain ⟨h1, h2⟩ := hr.moves ht hms
    exact ih.move h1 (h2 ▸ ht) hstep

theorem mono (h : Frugal now g) {now' : Nat} (hle : now ≤ now') : Frugal now' g := by
  refine ⟨fun hflag => ?_, h.waiting⟩
  have := h.free hflag
  by_cases hlt : now' < g.next
  · rw [if_pos (hle.trans_lt hlt)] at this
    rw [if_pos hlt]
    exact this
  · rw [if_neg hlt]
    omega

theorem take (h : Frugal now g) (hr : Regular g) (hmem : t ∈ g.pending) (hle : now ≤ t) :
    Frugal t (g.take t) := by
  have hone := hr.pending_eq hmem
  refine ⟨fun _ => ?_, fun hf => absurd hf (by simp [Gate.take])⟩
  show g.taken + 1 + Multiset.card (g.pending.erase t) + (if t < g.next then 1 else 0) ≤ g.sent + 1
  rw [hone, Multiset.erase_singleton, Multiset.card_zero]
  cases hflag : g.flag with
  | false =>
    have := (h.mono hle).free hflag
    rw [hone, Multiset.card_singleton] at this
    exact this
  | true =>
    have := h.waiting hflag t hmem
    rw [hone, Multiset.card_singleton] at this
    exact this

theorem start (hr : Regular g) (ht : g.taken = 0) (hnone : g.pending = 0) :
    Frugal now (g.start now) := by
  obtain ⟨hflag, -⟩ := hr.early ht
  constructor
  · intro _
    show g.taken + Multiset.card (now ::ₘ g.pending) + (if now < now then 1 else 0) ≤ g.sent + 1
    rw [ht, hnone, if_neg (lt_irrefl _), Multiset.card_cons, Multiset.card_zero]
    omega
  · intro hf
    exact absurd (hf.symm.trans hflag) (by simp)

end Frugal

end PacingGate
