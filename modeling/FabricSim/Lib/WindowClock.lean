import FabricSim.Lib.FifoServer
import Mathlib.Algebra.Order.Group.Nat
import Mathlib.Data.List.Dedup
import Mathlib.Data.List.Induction
import Mathlib.Tactic.Ring

/-!
# A window and its acks

A sender sends packet after packet, `gap` apart at the least and with at most `w + 1` of
them not acked. The ack of a packet comes a round trip of `trip` after it, and `echo`
after the ack before it. `sent` and `acked` are the times, each packet as soon as both
rules let it.

Where acks are no slower than packets, a window is worth the longer of a round trip and
its own length in packets (`sent_eq`). Packets leave a `gap` apart throughout exactly when
the ack that the last one waits for is back by then (`sent_eq_mul_iff`).

The acks come from a server that spends an `echo` on each: they are back at `acked` if it
gets them when the packets have come over (`serve_eq`), and not before if it gets them
later, whatever else it serves (`acked_le_serve`).
-/

namespace WindowClock

variable (gap trip echo w : Nat)

mutual

def sent : Nat → Nat
  | 0 => 0
  | n + 1 => max (sent n + gap) (if w ≤ n then acked (n - w) else 0)
termination_by n => 2 * n
decreasing_by all_goals omega

def acked : Nat → Nat
  | 0 => sent 0 + trip
  | n + 1 => max (sent (n + 1) + trip) (acked n + echo)
termination_by n => 2 * n + 1
decreasing_by all_goals omega

end

variable {gap trip echo w : Nat}

theorem sent_zero : sent gap trip echo w 0 = 0 := by rw [sent]

theorem sent_succ (n : Nat) : sent gap trip echo w (n + 1) =
    max (sent gap trip echo w n + gap) (if w ≤ n then acked gap trip echo w (n - w) else 0) := by
  rw [sent]

theorem acked_zero : acked gap trip echo w 0 = trip := by
  rw [acked, sent_zero, Nat.zero_add]

theorem acked_succ (n : Nat) : acked gap trip echo w (n + 1) =
    max (sent gap trip echo w (n + 1) + trip) (acked gap trip echo w n + echo) := by
  rw [acked]

theorem sent_add_le (n : Nat) : sent gap trip echo w n + gap ≤ sent gap trip echo w (n + 1) := by
  rw [sent_succ]
  exact le_max_left _ _

theorem mul_gap_le (n : Nat) : n * gap ≤ sent gap trip echo w n := by
  induction n with
  | zero =>
    rw [Nat.zero_mul]
    exact Nat.zero_le _
  | succ n ih =>
    have hstep : sent gap trip echo w n + gap ≤ sent gap trip echo w (n + 1) := sent_add_le n
    rw [Nat.succ_mul]
    omega

theorem sent_mono {m n : Nat} (h : m ≤ n) : sent gap trip echo w m ≤ sent gap trip echo w n :=
  monotone_nat_of_le_succ (f := sent gap trip echo w)
    (fun n => (Nat.le_add_right _ _).trans (sent_add_le n)) h

theorem sent_add_trip_le (n : Nat) :
    sent gap trip echo w n + trip ≤ acked gap trip echo w n := by
  cases n with
  | zero => rw [acked_zero, sent_zero, Nat.zero_add]
  | succ n =>
    rw [acked_succ]
    exact le_max_left _ _

theorem acked_add_le (n : Nat) : acked gap trip echo w n + echo ≤ acked gap trip echo w (n + 1) := by
  rw [acked_succ]
  exact le_max_right _ _

theorem acked_mono {m n : Nat} (h : m ≤ n) :
    acked gap trip echo w m ≤ acked gap trip echo w n :=
  monotone_nat_of_le_succ (f := acked gap trip echo w)
    (fun n => (Nat.le_add_right _ _).trans (acked_add_le n)) h

/-- A packet past the first window waits for the ack of the one a window before it. -/
theorem acked_le_sent {m n : Nat} (h : m + w < n) :
    acked gap trip echo w m ≤ sent gap trip echo w n := by
  obtain ⟨k, rfl⟩ : ∃ k, n = k + 1 := ⟨n - 1, by omega⟩
  rw [sent_succ, if_pos (by omega)]
  exact (acked_mono (by omega)).trans (le_max_right _ _)

/-! ## Acks no slower than packets -/

theorem acked_eq (h : echo ≤ gap) (n : Nat) :
    acked gap trip echo w n = sent gap trip echo w n + trip := by
  induction n with
  | zero => rw [acked_zero, sent_zero, Nat.zero_add]
  | succ n ih =>
    have hstep : sent gap trip echo w n + gap ≤ sent gap trip echo w (n + 1) := sent_add_le n
    rw [acked_succ, ih]
    exact max_eq_left (by omega)

/-- Whole windows, and the packets of the last one. -/
theorem sent_eq (h : echo ≤ gap) (n : Nat) : sent gap trip echo w n =
    n / (w + 1) * max trip ((w + 1) * gap) + n % (w + 1) * gap := by
  induction n using Nat.strong_induction_on with
  | _ n ih =>
    cases n with
    | zero => rw [sent_zero, Nat.zero_div, Nat.zero_mod, Nat.zero_mul, Nat.zero_mul]
    | succ n =>
      rw [sent_succ, ih n (Nat.lt_succ_self n)]
      have hacked : ∀ m, m ≤ n → acked gap trip echo w m =
          m / (w + 1) * max trip ((w + 1) * gap) + m % (w + 1) * gap + trip := fun m hm => by
        rw [acked_eq h, ih m (Nat.lt_succ_of_le hm)]
      have hn := Nat.div_add_mod n (w + 1)
      have hr := Nat.mod_lt n (Nat.succ_pos w)
      generalize hq : n / (w + 1) = q at hn
      generalize n % (w + 1) = r at hn hr
      generalize hM : max trip ((w + 1) * gap) = M at hacked ⊢
      by_cases hlast : r = w
      · -- the first packet of the next window
        have hnext : n + 1 = (q + 1) * (w + 1) := by rw [Nat.succ_mul, Nat.mul_comm q]; omega
        have hprev : n - w = q * (w + 1) := by rw [Nat.mul_comm q]; omega
        rw [if_pos (by omega), hacked _ (Nat.sub_le _ _), hprev, hnext,
          Nat.mul_div_cancel _ (Nat.succ_pos w), Nat.mul_div_cancel _ (Nat.succ_pos w),
          Nat.mul_mod_left, Nat.mul_mod_left, hlast, Nat.succ_mul q, ← hM,
          Nat.succ_mul w gap]
        omega
      · have hnext : n + 1 = (r + 1) + (w + 1) * q := by omega
        rw [hnext, Nat.add_mul_div_left _ _ (Nat.succ_pos w),
          Nat.add_mul_mod_self_left, Nat.div_eq_of_lt (by omega), Nat.mod_eq_of_lt (by omega),
          Nat.zero_add, Nat.succ_mul r]
        split
        · next hw =>
          -- the ack of a window before is back by then
          obtain ⟨q, rfl⟩ : ∃ p, q = p + 1 := by
            refine ⟨q - 1, ?_⟩
            rcases Nat.eq_zero_or_pos q with rfl | hpos
            · omega
            · omega
          have hmul : (w + 1) * (q + 1) = (w + 1) * q + (w + 1) := Nat.mul_succ _ _
          have hprev : n - w = (r + 1) + (w + 1) * q := by omega
          rw [hacked _ (Nat.sub_le _ _), hprev, Nat.add_mul_div_left _ _ (Nat.succ_pos w),
            Nat.add_mul_mod_self_left, Nat.div_eq_of_lt (by omega), Nat.mod_eq_of_lt (by omega),
            Nat.zero_add, Nat.succ_mul r, Nat.succ_mul q]
          have htrip : trip ≤ M := hM ▸ le_max_left _ _
          omega
        · omega

/-! ## Packets a gap apart -/

/-- While packets leave a gap apart, their acks come the longer of a gap and an echo apart. -/
theorem acked_of_sent {n : Nat} (h : ∀ m, m ≤ n → sent gap trip echo w m = m * gap) :
    acked gap trip echo w n = n * max gap echo + trip := by
  induction n with
  | zero => rw [acked_zero, Nat.zero_mul, Nat.zero_add]
  | succ n ih =>
    have hle : n * gap ≤ n * max gap echo := Nat.mul_le_mul_left _ (le_max_left _ _)
    have hsucc : (n + 1) * gap = n * gap + gap := Nat.succ_mul _ _
    have hsucc' : (n + 1) * max gap echo = n * max gap echo + max gap echo := Nat.succ_mul _ _
    rw [acked_succ, h _ le_rfl, ih fun m hm => h m (Nat.le_succ_of_le hm), hsucc, hsucc']
    rcases Nat.le_total echo gap with hge | hge
    · rw [max_eq_left hge] at *
      omega
    · rw [max_eq_right hge] at *
      omega

theorem sent_of_le {m n : Nat} (hmn : m ≤ n) (h : sent gap trip echo w n = n * gap) :
    sent gap trip echo w m = m * gap := by
  induction n with
  | zero =>
    obtain rfl := Nat.le_zero.mp hmn
    exact h
  | succ n ih =>
    rcases Nat.lt_or_eq_of_le hmn with hlt | rfl
    · refine ih (Nat.le_of_lt_succ hlt) ?_
      have hstep : sent gap trip echo w n + gap ≤ sent gap trip echo w (n + 1) := sent_add_le n
      have hlow : n * gap ≤ sent gap trip echo w n := mul_gap_le n
      have hsucc : (n + 1) * gap = n * gap + gap := Nat.succ_mul _ _
      omega
    · exact h

theorem sent_eq_mul_iff (n : Nat) : sent gap trip echo w n = n * gap ↔
    n ≤ w ∨ (n - 1 - w) * max gap echo + trip ≤ n * gap := by
  induction n with
  | zero => simp [sent_zero]
  | succ n ih =>
    have hsucc : (n + 1) * gap = n * gap + gap := Nat.succ_mul _ _
    constructor
    · intro h
      by_cases hw : w ≤ n
      · refine Or.inr ?_
        have hack : acked gap trip echo w (n - w) = (n - w) * max gap echo + trip :=
          acked_of_sent fun m hm => sent_of_le (by omega) h
        rw [sent_succ, if_pos hw, hack] at h
        rw [Nat.add_sub_cancel, ← h]
        exact le_max_right _ _
      · exact Or.inl (by omega)
    · intro h
      -- what the last packet waits for is back in time, so all the more what those before do
      have hprev : sent gap trip echo w n = n * gap := by
        refine ih.mpr ?_
        by_cases hw : n ≤ w
        · exact Or.inl hw
        · refine Or.inr ?_
          rcases h with h | h
          · omega
          · have hstep : n + 1 - 1 - w = (n - 1 - w) + 1 := by omega
            have hgap : gap ≤ max gap echo := le_max_left _ _
            rw [hstep, Nat.succ_mul] at h
            omega
      rw [sent_succ, hprev]
      split
      · next hw =>
        have hack : acked gap trip echo w (n - w) = (n - w) * max gap echo + trip :=
          acked_of_sent fun m hm => sent_of_le (by omega) hprev
        rw [hack]
        rcases h with h | h
        · omega
        · rw [Nat.add_sub_cancel] at h
          omega
      · omega

/-! ## The server of the acks -/

/-- Each number comes after the one below it. -/
def Climbs (l : List Nat) : Prop := ∀ l₁ i l₂, l = l₁ ++ (i + 1) :: l₂ → i ∈ l₁

theorem Climbs.of_init {l l' : List Nat} (h : Climbs l) (hl : l' <+: l) : Climbs l' := by
  obtain ⟨r, rfl⟩ := hl
  intro l₁ i l₂ heq
  refine h l₁ i (l₂ ++ r) ?_
  rw [heq, List.append_assoc, List.cons_append]

/-- What comes for the first time in order climbs. -/
theorem climbs_of_dedup {l : List Nat} {n : Nat} (h : l.dedup = (List.range n).reverse) :
    Climbs l.reverse := by
  have hsuffix : ∀ l : List Nat, ∀ n, l.dedup = (List.range n).reverse → ∀ i r,
      (i + 1) :: r <:+ l → i ∈ r := by
    intro l
    induction l with
    | nil => exact fun _ _ i r hr => absurd (List.suffix_nil.mp hr) (List.cons_ne_nil _ _)
    | cons a l ih =>
      intro n h i r hr
      -- what is dropped by `dedup` was there before
      have hmem : ∀ j, j ∈ a :: l ↔ j < n := fun j => by
        rw [← List.mem_dedup, h, List.mem_reverse, List.mem_range]
      by_cases ha : a ∈ l
      · rw [List.dedup_cons_of_mem ha] at h
        rcases List.suffix_cons_iff.mp hr with heq | hr
        · obtain ⟨rfl, rfl⟩ := List.cons.inj heq
          have hlt := (hmem (i + 1)).mp (List.mem_cons_self ..)
          rcases List.mem_cons.mp ((hmem i).mpr (Nat.lt_of_succ_lt hlt)) with hi | hi
          · omega
          · exact hi
        · exact ih n h i r hr
      · rw [List.dedup_cons_of_notMem ha] at h
        obtain ⟨m, rfl⟩ : ∃ m, n = m + 1 := by
          cases n with
          | zero => exact absurd h (List.cons_ne_nil _ _)
          | succ m => exact ⟨m, rfl⟩
        rw [List.range_succ, List.reverse_append, List.reverse_singleton,
          List.singleton_append] at h
        obtain ⟨rfl, hl⟩ := List.cons.inj h
        rcases List.suffix_cons_iff.mp hr with heq | hr
        · obtain ⟨hi, rfl⟩ := List.cons.inj heq
          rw [← List.mem_dedup, hl, List.mem_reverse, List.mem_range]
          omega
        · exact ih a hl i r hr
  intro l₁ i l₂ heq
  have hl : l = l₂.reverse ++ (i + 1) :: l₁.reverse := by
    rw [← List.reverse_reverse l, heq, List.reverse_append, List.reverse_cons, List.append_assoc,
      List.singleton_append]
  exact List.mem_reverse.mp (hsuffix l n h i l₁.reverse ⟨l₂.reverse, hl.symm⟩)

section Server

open FifoServer

variable {α : Type} {service : α → Nat} {index : α → Nat} {there back : Nat}
  {l : List (Nat × α)}

/-- No ack is back earlier than the window says. -/
theorem acked_le_serve (hs : ∀ a ∈ l, service a.2 = echo) (htrip : trip ≤ there + echo + back)
    (hl : Climbs (l.map fun a => index a.2))
    (hlate : ∀ a ∈ l, sent gap trip echo w (index a.2) + there ≤ a.1) :
    ∀ d ∈ serve service 0 l, acked gap trip echo w (index d.2) ≤ d.1 + back := by
  induction l using List.reverseRecOn with
  | nil => exact fun _ hd => absurd hd List.not_mem_nil
  | append_singleton l a ih =>
    have hold := ih (fun b hb => hs b (List.mem_append_left _ hb))
      (hl.of_init (by rw [List.map_append]; exact List.prefix_append _ _))
      fun b hb => hlate b (List.mem_append_left _ hb)
    have ha := hlate a (List.mem_append_right _ (List.mem_singleton_self _))
    have hecho := hs a (List.mem_append_right _ (List.mem_singleton_self _))
    intro d hd
    rw [serve_concat] at hd
    rcases List.mem_append.mp hd with hd | hd
    · exact hold d hd
    · obtain rfl := List.mem_singleton.mp hd
      have hfirst := le_max_left a.1 (freeAfter service 0 l)
      have hfree := le_max_right a.1 (freeAfter service 0 l)
      dsimp only
      rw [hecho]
      cases hi : index a.2 with
      | zero =>
        rw [acked_zero]
        omega
      | succ i =>
        -- the ack of the packet before is served first
        have hmem : i ∈ l.map fun b => index b.2 := by
          refine hl _ i [] ?_
          rw [List.map_append, List.map_singleton, hi]
        have hsame : (serve service 0 l).map (fun c => index c.2) = l.map fun b => index b.2 := by
          have := congrArg (List.map index) (map_snd_serve service 0 l)
          rwa [List.map_map, List.map_map] at this
        rw [← hsame] at hmem
        obtain ⟨c, hc, rfl⟩ := List.mem_map.mp hmem
        have hbefore := hold c hc
        have hdone : c.1 ≤ freeAfter service 0 l := (le_freeAfter service).2 c hc
        rw [hi] at ha
        rw [acked_succ]
        refine max_le (by omega) ?_
        omega

/-- Acks that the server gets on time are back on time. -/
theorem serve_eq {n : Nat} (hs : ∀ a ∈ l, service a.2 = echo) (htrip : trip = there + echo + back)
    (hl : (l.map fun a => (a.1, index a.2)) =
      (List.range n).map fun i => (sent gap trip echo w i + there, i)) :
    ((serve service 0 l).map fun d => (d.1 + back, index d.2)) =
      (List.range n).map fun i => (acked gap trip echo w i, i) := by
  suffices h : ((serve service 0 l).map fun d => (d.1 + back, index d.2)) =
      ((List.range n).map fun i => (acked gap trip echo w i, i)) ∧
      ∀ m, n = m + 1 → freeAfter service 0 l + back = acked gap trip echo w m from h.1
  induction n generalizing l with
  | zero =>
    obtain rfl : l = [] := List.map_eq_nil_iff.mp hl
    exact ⟨rfl, fun _ h => absurd h (by omega)⟩
  | succ n ih =>
    rw [List.range_succ, List.map_append, List.map_singleton] at hl
    obtain ⟨l', r, rfl, hl', hr⟩ := List.map_eq_append_iff.mp hl
    obtain ⟨a, rfl, ha⟩ := List.map_eq_singleton_iff.mp hr
    obtain ⟨htime, hindex⟩ := Prod.mk.inj ha
    obtain ⟨hmap, hfree⟩ := ih (fun b hb => hs b (List.mem_append_left _ hb)) hl'
    have hecho := hs a (List.mem_append_right _ (List.mem_singleton_self _))
    have hlast : max a.1 (freeAfter service 0 l') + service a.2 + back =
        acked gap trip echo w n := by
      rw [hecho, htime]
      cases n with
      | zero =>
        obtain rfl : l' = [] := List.map_eq_nil_iff.mp hl'
        rw [acked_zero, sent_zero]
        show max (0 + there) 0 + echo + back = trip
        omega
      | succ m =>
        have hbefore := hfree m rfl
        rw [acked_succ, ← hbefore]
        omega
    rw [serve_concat, List.range_succ, List.map_append, List.map_append, hmap,
      List.map_singleton, List.map_singleton, freeAfter_concat, hindex, hlast]
    exact ⟨rfl, fun m hm => by rw [Nat.succ.inj hm]⟩

end Server

end WindowClock
