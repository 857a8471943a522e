import FabricSim.Core.Undisturbed

/-!
# Retries are a timeout apart

Only a timer that finds its packet on the attempt it was set for, and not acked, changes
anything: the packet goes on to its next attempt, or the flow is given up (`RetryTurn`).
The timer was set when that attempt was transmitted, one timeout ago. So any two
transmissions of a packet are at least as many timeouts apart as their attempts, and a
flow is not given up before its last attempt has had its timeout as well.
-/

namespace FabricSim

open State

/-- What a turn does to attempts and failures. -/
inductive RetryTurn (sim : Simulation) (s s' : State) (e : Event) : Prop where
  | same (hnumber : s'.pktAttempt = s.pktAttempt)
      (hfailed : ∀ g, (s'.tx g).failed = (s.tx g).failed)
  | again (f : FlowId) (idx : Nat) (hb : e.body = .timeout f idx (s.pktAttempt f idx))
      (hack : (s.pkt f idx).acked = false)
      (hmore : s.pktAttempt f idx + 1 < sim.transport.maxAttempts)
      (hnumber : ∀ g i, s'.pktAttempt g i =
        if g = f ∧ i = idx then s.pktAttempt f idx + 1 else s.pktAttempt g i)
      (hfailed : ∀ g, (s'.tx g).failed = (s.tx g).failed)
  | gaveUp (f : FlowId) (idx : Nat) (hb : e.body = .timeout f idx (s.pktAttempt f idx))
      (hack : (s.pkt f idx).acked = false)
      (hlast : sim.transport.maxAttempts ≤ s.pktAttempt f idx + 1)
      (hnumber : s'.pktAttempt = s.pktAttempt)
      (hfailed : ∀ g, (s'.tx g).failed = if g = f then true else (s.tx g).failed)

section Turn

variable {sim : Simulation} {policy : RoutingPolicy} {s : State} {e : Event} {queue : EventQueue}

theorem nextAttempt_apply (s : State) (f : FlowId) (idx : Nat) (g : FlowId) (i : Nat) :
    (s.nextAttempt f idx).pktAttempt g i =
      if g = f ∧ i = idx then s.pktAttempt f idx + 1 else s.pktAttempt g i := by
  rw [nextAttempt_pktAttempt]
  by_cases hg : g = f
  · subst hg
    rw [Function.update_self]
    by_cases hi : i = idx
    · subst hi
      simp
    · simp [hi]
  · simp [hg]

theorem retryTurn_onTimeout (s : State) (f : FlowId) (idx a : Nat)
    (hb : e.body = .timeout f idx a) : RetryTurn sim s (s.onTimeout sim f idx a) e := by
  unfold onTimeout
  split
  · exact .same rfl fun _ => rfl
  next hack =>
  split
  · exact .same rfl fun _ => rfl
  next hat =>
  split
  · exact .same rfl fun _ => rfl
  have hat : s.pktAttempt f idx = a := not_not.mp hat
  subst hat
  have hack : (s.pkt f idx).acked = false := by simpa using hack
  have hland := (sameRecord_land s f idx).failed
  split
  · next hlast =>
    refine .gaveUp f idx hb hack hlast (pktAttempt_land s f idx) fun g => ?_
    rw [giveUp_tx]
    split
    · next hg =>
      subst hg
      simp
    · next hg => rw [Function.update_of_ne hg, hland]
  · next hmore =>
    refine .again f idx hb hack (not_le.mp hmore) (fun g i => ?_) fun g => ?_
    · rw [pktAttempt_trySend]
      show ((s.land f idx).nextAttempt f idx).pktAttempt g i = _
      rw [nextAttempt_apply, pktAttempt_land]
    · rw [(trySend_frame _ f).failed, requeue_tx, ← hland]
      by_cases hg : g = f
      · subst hg
        simp
      · simp [Function.update_of_ne hg]

/-- Every turn is one of the three. -/
theorem retryTurn (sim : Simulation) (policy : RoutingPolicy) (s : State) (e : Event)
    (queue : EventQueue) :
    RetryTurn sim s ((s.advance e queue).dispatch sim policy e.body) e := by
  by_cases htimer : ∃ f idx a, e.body = .timeout f idx a
  · obtain ⟨f, idx, a, hb⟩ := htimer
    rw [hb]
    -- taking the event changes neither attempts nor failures
    cases retryTurn_onTimeout (s.advance e queue) f idx a hb with
    | same hnumber hfailed => exact .same hnumber hfailed
    | again f idx hb hack hmore hnumber hfailed => exact .again f idx hb hack hmore hnumber hfailed
    | gaveUp f idx hb hack hlast hnumber hfailed => exact .gaveUp f idx hb hack hlast hnumber hfailed
  · have hother : ∀ f idx a, e.body ≠ .timeout f idx a :=
      fun f idx a hb => htimer ⟨f, idx, a, hb⟩
    exact .same (dispatch_pktAttempt _ hother) fun g => dispatch_failed _ fun idx a => hother g idx a

end Turn

/-! ## Transmissions of one packet -/

/-- A transmission of attempt `a` at a packet. -/
def IsAttempt (f : FlowId) (idx a : Nat) (b : Nat × Packet) : Prop :=
  b.2.kind = .data ∧ b.2.flow = f ∧ b.2.index = idx ∧ b.2.attempt = a

section Transmissions

variable {sim : Simulation} {s : State} {f : FlowId} {idx a : Nat}

theorem attemptOf_eq_some {b : Nat × Packet} : attemptOf f idx b = some a ↔ IsAttempt f idx a b := by
  unfold attemptOf IsAttempt
  constructor
  · intro h
    split at h
    · next hb => exact ⟨hb.1, hb.2.1, hb.2.2, Option.some.inj h⟩
    · nomatch h
  · rintro ⟨hk, hf, hi, rfl⟩
    exact if_pos ⟨hk, hf, hi⟩

theorem mem_attempts : a ∈ s.attempts f idx ↔ ∃ b ∈ s.emissions, IsAttempt f idx a b := by
  unfold State.attempts
  rw [List.mem_filterMap]
  simp only [attemptOf_eq_some]

/-- One attempt is one transmission. -/
theorem Attempts.unique (h : Attempts sim s f) {b b' : Nat × Packet} (hb : b ∈ s.emissions)
    (hb' : b' ∈ s.emissions) (ha : IsAttempt f idx a b) (ha' : IsAttempt f idx a b') : b = b' := by
  have hrising := List.pairwise_filterMap.mp (h.rising idx)
  refine List.Pairwise.forall_of_forall_of_flip
    (R := fun b b' : Nat × Packet => IsAttempt f idx a b → IsAttempt f idx a b' → b = b')
    (fun _ _ _ _ => rfl) ?_ ?_ hb hb' ha ha'
  · refine hrising.imp fun hlt h₁ h₂ => absurd ?_ (Nat.lt_irrefl a)
    exact hlt a (attemptOf_eq_some.mpr h₁) a (attemptOf_eq_some.mpr h₂)
  · refine hrising.imp fun hlt h₁ h₂ => absurd ?_ (Nat.lt_irrefl a)
    exact hlt a (attemptOf_eq_some.mpr h₂) a (attemptOf_eq_some.mpr h₁)

end Transmissions

/-- The attempts at a flow's packets, and when they were made. -/
structure Retried (sim : Simulation) (s : State) (f : FlowId) : Prop where
  used : ∀ idx a, a < s.pktAttempt f idx → a ∈ s.attempts f idx
  elapsed : ∀ idx a, ∀ b ∈ s.emissions, IsAttempt f idx a b →
    b.1 + (s.pktAttempt f idx - a) * sim.transport.rtoNs ≤ s.now
  apart : ∀ idx a a', ∀ b ∈ s.emissions, ∀ b' ∈ s.emissions, IsAttempt f idx a b →
    IsAttempt f idx a' b' → a < a' → b.1 + (a' - a) * sim.transport.rtoNs ≤ b'.1
  gaveUp : (s.tx f).failed = true → ∃ idx,
    (∀ a, a < sim.transport.maxAttempts → a ∈ s.attempts f idx) ∧
      ∃ b ∈ s.emissions, IsAttempt f idx 0 b ∧
        b.1 + sim.transport.maxAttempts * sim.transport.rtoNs ≤ s.now

namespace Retried

variable {sim : Simulation} {policy : RoutingPolicy} {s : State} {f : FlowId} {e : Event}
  {queue : EventQueue}

theorem begin (sim : Simulation) (leftover : State) (f : FlowId) :
    Retried sim (sim.beginRun leftover) f where
  used := fun _ _ ha => absurd ha (Nat.not_lt_zero _)
  elapsed := fun _ _ _ hb => absurd hb List.not_mem_nil
  apart := fun _ _ _ _ hb => absurd hb List.not_mem_nil
  gaveUp := fun h => absurd h (by simp [Simulation.beginRun])

/-- The attempt of the timer that is taken, and how long ago it was made. -/
theorem of_timer (hs : sim.Reachable policy s) (hw : s.wrapped = false)
    (hpop : s.queue.pop = some (e, queue)) {idx a : Nat} (hb : e.body = .timeout f idx a) :
    ∃ b ∈ s.emissions, IsAttempt f idx a b ∧ e.time = b.1 + sim.transport.rtoNs := by
  have he : e ∈ s.queue.agenda := by
    rw [EventQueue.agenda_of_pop hpop]
    exact List.mem_cons_self ..
  obtain ⟨b, hmem, hk, hf, hi, ha, htime⟩ := hs.armed hw e he f idx a hb
  exact ⟨b, hmem, ⟨hk, hf, hi, ha⟩, htime⟩

theorem mem_attempts_step {idx a : Nat} (h : a ∈ s.attempts f idx) :
    a ∈ ((s.advance e queue).dispatch sim policy e.body).attempts f idx := by
  obtain ⟨b, hb, ha⟩ := mem_attempts.mp h
  exact mem_attempts.mpr ⟨b, mem_emissions.mpr (mem_trace_step (mem_emissions.mp hb)), ha⟩

/-- Every attempt below the one a packet is on after a turn was made before it. -/
theorem used_before (h : Retried sim s f) (hs : sim.Reachable policy s) (hw : s.wrapped = false)
    (hpop : s.queue.pop = some (e, queue)) {idx a : Nat}
    (ha : a < ((s.advance e queue).dispatch sim policy e.body).pktAttempt f idx) :
    a ∈ s.attempts f idx := by
  cases retryTurn sim policy s e queue with
  | same hnumber _ => exact h.used idx a (hnumber ▸ ha)
  | gaveUp _ _ _ _ _ hnumber _ => exact h.used idx a (hnumber ▸ ha)
  | again g i hb _ _ hnumber _ =>
    rw [hnumber] at ha
    split at ha
    · next hgi =>
      obtain ⟨rfl, rfl⟩ := hgi
      rcases Nat.lt_succ_iff_lt_or_eq.mp ha with hlt | rfl
      · exact h.used _ a hlt
      · obtain ⟨b, hmem, hatt, -⟩ := of_timer hs hw hpop hb
        exact mem_attempts.mpr ⟨b, hmem, hatt⟩
    · exact h.used idx a ha

/-- What a turn transmits is on the attempt its packet is on after the turn. -/
theorem new_attempt (h : Retried sim s f) (hs : sim.Reachable policy s)
    (ht : sim.transport.Accepted) (hw : s.wrapped = false)
    (hpop : s.queue.pop = some (e, queue)) {idx a : Nat} {b : Nat × Packet}
    (hb : b ∈ ((s.advance e queue).dispatch sim policy e.body).emissions)
    (hnew : b ∉ s.emissions) (ha : IsAttempt f idx a b) :
    a = ((s.advance e queue).dispatch sim policy e.body).pktAttempt f idx := by
  have hnext := (hs.next (Simulation.step_eq_some_iff.mpr ⟨e, queue, hpop, rfl⟩)).attempts ht f
  have hle := hnext.le idx a (mem_attempts.mpr ⟨b, hb, ha⟩)
  by_contra hne
  -- that attempt was made before, and no attempt is made twice
  obtain ⟨b₀, hb₀, ha₀⟩ := mem_attempts.mp (h.used_before hs hw hpop (lt_of_le_of_ne hle hne))
  have hb₀' : b₀ ∈ ((s.advance e queue).dispatch sim policy e.body).emissions :=
    mem_emissions.mpr (mem_trace_step (mem_emissions.mp hb₀))
  exact hnew (hnext.unique hb hb₀' ha ha₀ ▸ hb₀)

/-- Each timeout that has passed since a transmission is counted by a later attempt. -/
theorem elapsed_step (h : Retried sim s f) (hs : sim.Reachable policy s)
    (ht : sim.transport.Accepted) (hw : s.wrapped = false)
    (hpop : s.queue.pop = some (e, queue)) {idx a : Nat} {b : Nat × Packet}
    (hb : b ∈ ((s.advance e queue).dispatch sim policy e.body).emissions)
    (ha : IsAttempt f idx a b) :
    b.1 + (((s.advance e queue).dispatch sim policy e.body).pktAttempt f idx - a) *
      sim.transport.rtoNs ≤ e.time := by
  by_cases hold : b ∈ s.emissions
  · have hclock : s.now ≤ e.time := ((hs.onTime hw).advance hpop).1
    have hbefore := h.elapsed idx a b hold ha
    cases retryTurn sim policy s e queue with
    | same hnumber _ =>
      rw [hnumber]
      omega
    | gaveUp _ _ _ _ _ hnumber _ =>
      rw [hnumber]
      omega
    | again g i hbody _ _ hnumber _ =>
      rw [hnumber]
      split
      · next hgi =>
        obtain ⟨rfl, rfl⟩ := hgi
        obtain ⟨b₁, hb₁, ha₁, htime⟩ := of_timer hs hw hpop hbody
        have hle := (hs.attempts ht f).le idx a (mem_attempts.mpr ⟨b, hold, ha⟩)
        rw [htime, Nat.sub_add_comm hle, Nat.succ_mul]
        -- the timer was set by the attempt before, and that one is far enough from this
        rcases Nat.lt_or_eq_of_le hle with hlt | heq
        · have := h.apart idx a _ b hold b₁ hb₁ ha ha₁ hlt
          omega
        · subst heq
          obtain rfl := (hs.attempts ht f).unique hold hb₁ ha ha₁
          rw [Nat.sub_self, Nat.zero_mul]
          omega
      · omega
  · have hat := h.new_attempt hs ht hw hpop hb hold ha
    rw [← hat, Nat.sub_self, Nat.zero_mul, Nat.add_zero]
    rcases emissions_dispatch sim policy (s.advance e queue) e.body b hb with hmem | hnow
    · rw [emissions_advance] at hmem
      exact absurd hmem hold
    · exact hnow.le

theorem apart_step (h : Retried sim s f) (hs : sim.Reachable policy s)
    (ht : sim.transport.Accepted) (hw : s.wrapped = false)
    (hpop : s.queue.pop = some (e, queue)) {idx a a' : Nat} {b b' : Nat × Packet}
    (hb : b ∈ ((s.advance e queue).dispatch sim policy e.body).emissions)
    (hb' : b' ∈ ((s.advance e queue).dispatch sim policy e.body).emissions)
    (ha : IsAttempt f idx a b) (ha' : IsAttempt f idx a' b') (hlt : a < a') :
    b.1 + (a' - a) * sim.transport.rtoNs ≤ b'.1 := by
  have hnext := (hs.next (Simulation.step_eq_some_iff.mpr ⟨e, queue, hpop, rfl⟩)).attempts ht f
  have hle := hnext.le idx a' (mem_attempts.mpr ⟨b', hb', ha'⟩)
  by_cases hold' : b' ∈ s.emissions
  · -- then the earlier attempt is not new either
    by_cases hold : b ∈ s.emissions
    · exact h.apart idx a a' b hold b' hold' ha ha' hlt
    · have hat := h.new_attempt hs ht hw hpop hb hold ha
      omega
  · have hat := h.new_attempt hs ht hw hpop hb' hold' ha'
    have helapsed := h.elapsed_step hs ht hw hpop hb ha
    rw [← hat] at helapsed
    rcases emissions_dispatch sim policy (s.advance e queue) e.body b' hb' with hmem | hnow
    · rw [emissions_advance] at hmem
      exact absurd hmem hold'
    · rw [hnow]
      exact helapsed

theorem gaveUp_step (h : Retried sim s f) (hs : sim.Reachable policy s)
    (ht : sim.transport.Accepted) (hw : s.wrapped = false)
    (hpop : s.queue.pop = some (e, queue))
    (hfail : (((s.advance e queue).dispatch sim policy e.body).tx f).failed = true) :
    ∃ idx, (∀ a, a < sim.transport.maxAttempts →
        a ∈ ((s.advance e queue).dispatch sim policy e.body).attempts f idx) ∧
      ∃ b ∈ ((s.advance e queue).dispatch sim policy e.body).emissions, IsAttempt f idx 0 b ∧
        b.1 + sim.transport.maxAttempts * sim.transport.rtoNs ≤ e.time := by
  have hclock : s.now ≤ e.time := ((hs.onTime hw).advance hpop).1
  have hbefore : (s.tx f).failed = true → ∃ idx, (∀ a, a < sim.transport.maxAttempts →
        a ∈ ((s.advance e queue).dispatch sim policy e.body).attempts f idx) ∧
      ∃ b ∈ ((s.advance e queue).dispatch sim policy e.body).emissions, IsAttempt f idx 0 b ∧
        b.1 + sim.transport.maxAttempts * sim.transport.rtoNs ≤ e.time := by
    intro hf
    obtain ⟨idx, hall, b, hb, ha, hle⟩ := h.gaveUp hf
    exact ⟨idx, fun a ha => mem_attempts_step (hall a ha), b,
      mem_emissions.mpr (mem_trace_step (mem_emissions.mp hb)), ha, hle.trans hclock⟩
  cases retryTurn sim policy s e queue with
  | same _ hfailed => exact hbefore (hfailed f ▸ hfail)
  | again _ _ _ _ _ _ hfailed => exact hbefore (hfailed f ▸ hfail)
  | gaveUp g idx hbody _ hlast hnumber hfailed =>
    by_cases hg : f = g
    · subst hg
      have hmax : s.pktAttempt f idx + 1 = sim.transport.maxAttempts := by
        have := (hs.attempts ht f).lt_max idx
        omega
      obtain ⟨b₁, hb₁, ha₁, htime⟩ := of_timer hs hw hpop hbody
      have hall : ∀ a, a < sim.transport.maxAttempts → a ∈ s.attempts f idx := by
        intro a ha
        rcases Nat.lt_or_eq_of_le (show a ≤ s.pktAttempt f idx by omega) with hlt | rfl
        · exact h.used idx a hlt
        · exact mem_attempts.mpr ⟨b₁, hb₁, ha₁⟩
      obtain ⟨b, hb, ha⟩ := mem_attempts.mp (hall 0 ht.attempts_pos)
      refine ⟨idx, fun a ha => mem_attempts_step (hall a ha), b,
        mem_emissions.mpr (mem_trace_step (mem_emissions.mp hb)), ha, ?_⟩
      -- the last attempt was made long enough after the first, and its timer has run
      rw [htime, ← hmax, Nat.succ_mul]
      rcases Nat.eq_zero_or_pos (s.pktAttempt f idx) with hzero | hpos
      · rw [hzero] at ha₁ ⊢
        obtain rfl := (hs.attempts ht f).unique hb hb₁ ha ha₁
        omega
      · have := h.apart idx 0 _ b hb b₁ hb₁ ha ha₁ hpos
        rw [Nat.sub_zero] at this
        omega
    · rw [hfailed, if_neg hg] at hfail
      exact hbefore hfail

theorem step (h : Retried sim s f) (hs : sim.Reachable policy s) (ht : sim.transport.Accepted)
    (hw : s.wrapped = false) (hpop : s.queue.pop = some (e, queue)) :
    Retried sim ((s.advance e queue).dispatch sim policy e.body) f where
  used := fun _ _ ha => mem_attempts_step (h.used_before hs hw hpop ha)
  elapsed := by
    intro idx a b hb ha
    rw [dispatch_now]
    exact h.elapsed_step hs ht hw hpop hb ha
  apart := fun _ _ _ _ hb _ hb' ha ha' hlt => h.apart_step hs ht hw hpop hb hb' ha ha' hlt
  gaveUp := by
    intro hfail
    rw [dispatch_now]
    exact h.gaveUp_step hs ht hw hpop hfail

end Retried

theorem Simulation.Reachable.retried {sim : Simulation} {policy : RoutingPolicy} {s : State}
    (h : sim.Reachable policy s) (ht : sim.transport.Accepted) (hw : s.wrapped = false)
    (f : FlowId) : Retried sim s f := by
  refine Simulation.Reachable.invariant (P := fun s => s.wrapped = false → Retried sim s f)
    (fun leftover _ => Retried.begin sim leftover f) ?_ h hw
  intro s e queue hs ih hpop hw'
  have hw := step_unwrapped hs.coherent hpop hw'
  exact (ih hw).step hs ht hw hpop

/-- In every state of every run in which no addition to the virtual time wraps, under any
policy and losses, as long as 32 bits index the packets of all flows: two transmissions of
one packet are at least one timeout apart for every attempt between them; every attempt
below the one a packet is on has been made; and a flow that was given up had a packet of
which every allowed attempt was made and had its timeout: it was not given up before the
start of the flow, the packet's turn at the pace of the flow, and all those timeouts had
passed. -/
theorem retries_apart (sim : Simulation) (policy : RoutingPolicy)
    (_hfit : sim.packetsExact ≤ 2 ^ 32) (ht : sim.transport.Accepted) {s : State}
    (hs : sim.Reachable policy s) (hw : s.wrapped = false) (f : FlowId) :
    (∀ idx a a', ∀ b ∈ s.emissions, ∀ b' ∈ s.emissions, IsAttempt f idx a b →
      IsAttempt f idx a' b' → a < a' → b.1 + (a' - a) * sim.transport.rtoNs ≤ b'.1) ∧
    (∀ idx a, a < s.pktAttempt f idx → a ∈ s.attempts f idx) ∧
    ((s.result f).failed = true → ∃ idx, idx < sim.packetsTotal f ∧
      (∀ a, a < sim.transport.maxAttempts → a ∈ s.attempts f idx) ∧
      (s.result f).startNs + idx * sim.periodNs f +
        sim.transport.maxAttempts * sim.transport.rtoNs ≤ s.now) := by
  have h := hs.retried ht hw f
  refine ⟨h.apart, h.used, fun hfail => ?_⟩
  rw [(hs.receiver f).failed_eq] at hfail
  obtain ⟨idx, hall, b, hb, ⟨hk, hf, hi, -⟩, hle⟩ := h.gaveUp hfail
  have hsent := (hs.paced hw f).sent b hb hf hk
  have hseq := hs.books.data b.1 b.2 (mem_emissions.mp hb) hk
  rw [hf, hi] at hseq
  rw [hi] at hsent
  exact ⟨idx, lt_of_lt_of_le hseq (hs.books.ledger f).seq_le, hall, by omega⟩

namespace Hasty

/-- The two hosts on a leaf, with a timeout shorter than the trip. -/
def simulation : Simulation :=
  { Pair.simulation with transport := { rtoNs := 100, maxAttempts := 2 } }

def last : State := (simulation.beginRun Pair.fresh).runFor simulation StaticFirstPolicy 20

theorem last_ended : simulation.packetsExact ≤ 2 ^ 32 ∧ last.wrapped = false ∧
    (last.result 0).failed = true := by
  unfold last
  decide +kernel

end Hasty

/-- Both attempts of a packet come to nothing, and the flow is given up. -/
theorem retries_apart_hasty : ∃ idx, idx < Hasty.simulation.packetsTotal 0 ∧
    (∀ a, a < 2 → a ∈ Hasty.last.attempts 0 idx) ∧
      (Hasty.last.result 0).startNs + idx * Hasty.simulation.periodNs 0 + 2 * 100 ≤
        Hasty.last.now :=
  (retries_apart Hasty.simulation StaticFirstPolicy Hasty.last_ended.1
    ⟨by decide, by decide, by decide, by decide, by decide⟩ (s := Hasty.last)
    ((Simulation.Reachable.begin _).runFor 20) Hasty.last_ended.2.1 0).2.2
    Hasty.last_ended.2.2

end FabricSim
