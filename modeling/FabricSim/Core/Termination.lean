import FabricSim.Core.Headcount
import FabricSim.Core.Injects
import FabricSim.Lib.Grouping
import Mathlib.Tactic.Ring

/-!
# Every run ends

Handlers consume events and create events, so no counter of pending events goes
down. But everything a run does is caused by transmissions, and there are at
most `maxAttempts` of each packet. A transmission sets one timer and has its
packet and the ack of it carried over the links of two shortest paths (`toll`);
timers and acks pay for the wake-ups of the pacing gate. So the events of every
run are bounded by the flow set alone, clock or no clock.

The sharper bound on injects, one for each transmission and one for each flow,
needs a clock that does not wrap (`Reachable.created_inject_le`). On a clock that
does, an ack can arrive in the past and find a gate shut that was already open:
`injects_exceed` is a run with one wake-up too many.
-/

namespace FabricSim

open State Finset

/-! ## Events on links -/

/-- Two events for each link that is left. -/
noncomputable def toll (sim : Simulation) : Tariff where
  queued := fun p x => 2 * sim.fabric.graph.dist (sim.fabric.port p).peerNode (sim.target x) + 2
  flying := fun p x => 2 * sim.fabric.graph.dist (sim.fabric.port p).peerNode (sim.target x) + 1
  landing := fun _ _ => 1
  sending := 1

section Toll

variable {sim : Simulation} {policy : RoutingPolicy} {s : State}

theorem toll_sound (hr : sim.Routed) (hm : policy.Member) : (toll sim).Sound sim policy (OnWay sim) where
  send := fun _ _ _ => le_rfl
  forward := by
    intro s p x hway hsw
    obtain ⟨-, hd, -⟩ := (hway.next (s := s) hr hm hsw).trail
    change sim.fabric.graph.dist (sim.fabric.port (nextPort sim policy s p x)).peerNode
      (sim.target x) + 1 = sim.fabric.graph.dist (sim.fabric.port p).peerNode (sim.target x) at hd
    show 2 * sim.fabric.graph.dist (sim.fabric.port (nextPort sim policy s p x)).peerNode
      (sim.target x) + 2 + 1 ≤
        2 * sim.fabric.graph.dist (sim.fabric.port p).peerNode (sim.target x) + 1
    omega
  land := fun _ _ _ _ => Nat.le_add_left _ _

/-- An emitted packet owes two events for each link of its path. -/
theorem toll_queued (hr : sim.Routed) {x : Packet} (hf : x.flow < sim.flowCount) :
    (toll sim).queued (nic sim x) x = 2 * sim.hops x.flow := by
  obtain ⟨hs, ht, hne⟩ := Simulation.ends_of_flow_lt hf
  have hnic := Fabric.dist_nic hr.wellFormed hr.connected hr.singlePort hs
    (hr.wellFormed.host_lt _ ht) hne
  rw [← Simulation.nic_eq, Simulation.dist_source_target] at hnic
  show 2 * sim.fabric.graph.dist (sim.fabric.port (nic sim x)).peerNode (sim.target x) + 2 = _
  omega

end Toll

/-! ## Events by flow -/

/-- A wake-up of any flow. -/
def anyWake : EventBody → Bool
  | .inject _ => true
  | _ => false

/-- The flow that an event wakes. -/
def EventBody.woken : EventBody → Option FlowId
  | .inject f => some f
  | _ => none

/-- The flow whose timer an event is. -/
def EventBody.timed : EventBody → Option FlowId
  | .timeout f _ _ => some f
  | _ => none

theorem EventBody.sender_of_woken {b : EventBody} {f : FlowId} (h : f ∈ b.woken) :
    f ∈ b.sender := by
  cases b with
  | inject => exact h
  | txComplete | arrive | timeout => exact absurd h (by simp [EventBody.woken])

theorem EventBody.sender_of_timed {b : EventBody} {f : FlowId} (h : f ∈ b.timed) :
    f ∈ b.sender := by
  cases b with
  | timeout => exact h
  | inject | txComplete | arrive => exact absurd h (by simp [EventBody.timed])

/-- What the history records the dispatch of. -/
def Obs.body : Obs → Option EventBody
  | .dispatched e => some e.body
  | _ => none

namespace State

variable {sim : Simulation} {policy : RoutingPolicy} {s : State} {f : FlowId}

/-- Every event taken is one on a link, a timer or a wake-up. -/
theorem length_dispatchTimes (sim : Simulation) (s : State) : s.dispatchTimes.length = (toll sim).paid s +
    (s.trace.countP fun o => (o.body.bind EventBody.timed).isSome) +
    s.trace.countP fun o => (o.body.bind EventBody.woken).isSome := by
  unfold dispatchTimes Tariff.paid
  induction s.trace with
  | nil => rfl
  | cons o l ih =>
    rw [List.map_cons, List.sum_cons, List.countP_cons, List.countP_cons]
    cases o with
    | emitted | offered | released =>
      rw [List.filterMap_cons_none rfl, ih]
      show _ = 0 + _ + (_ + 0) + (_ + 0)
      omega
    | dispatched e =>
      have hself : Obs.dispatchTime (.dispatched e) = some e.time := rfl
      rw [List.filterMap_cons_some hself, List.length_cons, ih]
      obtain ⟨t, q, b⟩ := e
      cases b with
      | inject f =>
        show _ = 0 + _ + (_ + 0) + (_ + 1)
        omega
      | timeout f idx a =>
        show _ = 0 + _ + (_ + 1) + (_ + 0)
        omega
      | txComplete p =>
        show _ = 1 + _ + (_ + 0) + (_ + 0)
        omega
      | arrive p x =>
        show _ = 1 + _ + (_ + 0) + (_ + 0)
        omega

/-- Nudges are timers that fire and acks that come back. -/
theorem nudges_eq (sim : Simulation) (s : State) (f : FlowId) : s.nudges sim f =
    s.trace.countP (Obs.dispatches (timerOf fun g _ _ => g = f)) +
      s.landings sim (ackOf fun g _ _ => g = f) := by
  unfold nudges landings
  induction s.trace with
  | nil => rfl
  | cons o l ih =>
    rw [List.countP_cons, List.countP_cons, List.countP_cons, ih]
    cases o with
    | emitted | offered | released => rfl
    | dispatched e =>
      obtain ⟨t, q, b⟩ := e
      cases b with
      | inject | txComplete => rfl
      | timeout g idx a =>
        show _ + (if decide (g = f) = true then 1 else 0) =
          _ + (if decide (g = f) = true then 1 else 0) + (_ + 0)
        omega
      | arrive p x =>
        have heq : Event.nudges sim f ⟨t, q, .arrive p x⟩ =
            Obs.lands sim (ackOf fun g _ _ => g = f) (.dispatched ⟨t, q, .arrive p x⟩) := by
          rw [Bool.eq_iff_iff]
          simp only [Event.nudges, Obs.lands, ackOf, decide_eq_true_eq, Bool.and_eq_true]
          tauto
        show _ + (if Event.nudges sim f ⟨t, q, .arrive p x⟩ = true then 1 else 0) = _ + 0 + (_ + _)
        rw [heq]
        omega

end State

/-! ## Bounds for one flow -/

namespace Simulation.Reachable

variable {sim : Simulation} {policy : RoutingPolicy} {s : State}

/-- A packet of the flow is sent `maxAttempts` times at most. -/
theorem transmissions_le (h : sim.Reachable policy s) (ht : sim.transport.Accepted) (f : FlowId) :
    s.transmissions f ≤ sim.packetsTotal f * sim.transport.maxAttempts := by
  let key : Nat × Packet → Option Nat := fun a =>
    if a.2.kind = .data ∧ a.2.flow = f then some a.2.index else none
  have hrange : ∀ a ∈ s.emissions, ∀ k ∈ key a, k < sim.packetsTotal f := by
    rintro ⟨t, x⟩ ha k hk
    by_cases hx : x.kind = .data ∧ x.flow = f
    · have hk : x.index = k := by simpa [key, hx] using hk
      have hlt := h.books.data t x (mem_emissions.mp ha) hx.1
      rw [hx.2, hk] at hlt
      exact hlt.trans_le (h.books.ledger f).seq_le
    · exact absurd hk (by simp [key, hx])
  have hcount : s.transmissions f = s.emissions.countP fun a => (key a).isSome := by
    refine List.countP_congr fun a _ => ?_
    by_cases hx : a.2.kind = .data ∧ a.2.flow = f <;> simp [key, sentOf, hx]
  rw [hcount, Grouping.countP_by_key key hrange]
  -- each packet on its own
  have hone : ∀ idx ∈ range (sim.packetsTotal f),
      (s.emissions.countP fun a => key a = some idx) ≤ sim.transport.maxAttempts := by
    intro idx _
    refine le_trans (le_of_eq ?_) ((h.attempts ht f).length_le idx)
    unfold State.attempts
    rw [List.length_filterMap_eq_countP]
    refine List.countP_congr fun a _ => ?_
    by_cases hx : a.2.kind = .data ∧ a.2.flow = f
    · by_cases hi : a.2.index = idx <;> simp [key, attemptOf, hx, hi]
    · have hno : ¬ (a.2.kind = .data ∧ a.2.flow = f ∧ a.2.index = idx) := fun hy => hx ⟨hy.1, hy.2.1⟩
      simp [key, attemptOf, hx, hno]
  refine (sum_le_sum hone).trans (le_of_eq ?_)
  rw [sum_const, card_range, smul_eq_mul]

/-- Timers are transmissions. -/
theorem timers_le (h : sim.Reachable policy s) (K : FlowId → Nat → Nat → Bool) :
    s.trace.countP (Obs.dispatches (timerOf K)) ≤ s.emissions.countP (sentOf K) := by
  rw [← h.timers K]
  exact Nat.le_add_right _ _

/-- The data packets emitted are the transmissions. -/
theorem countP_dataOf (h : sim.Reachable policy s) (K : FlowId → Nat → Nat → Bool) :
    (s.emissions.countP fun a => dataOf K a.2) = s.emissions.countP (sentOf K) := by
  refine List.countP_congr fun a ha => ?_
  by_cases hk : a.2.kind = .data
  · simp [dataOf, sentOf, h.tagged a ha hk]
  · simp [dataOf, sentOf, hk]

/-- Acks are transmissions that arrived. -/
theorem acks_le (h : sim.Reachable policy s) (hr : sim.Steered) (hm : policy.Member)
    (K : FlowId → Nat → Nat → Bool) :
    s.landings sim (dataOf K) ≤ s.emissions.countP (sentOf K) := by
  rw [← h.countP_dataOf K]
  exact h.landings_le hr hm fun _ _ => rfl

theorem nudges_le (h : sim.Reachable policy s) (hr : sim.Steered) (hm : policy.Member) (f : FlowId) :
    s.nudges sim f ≤ 2 * s.transmissions f := by
  have htimers := h.timers_le fun g _ _ => g = f
  have hland := h.landings_le hr hm (P := ackOf fun g _ _ => g = f) fun _ _ => rfl
  rw [h.acked] at hland
  have hacks := h.acks_le hr hm fun g _ _ => g = f
  rw [nudges_eq]
  unfold State.transmissions
  omega

/-- Any clock: a wake-up is paid for by a transmission, a timer or an ack. -/
theorem woken_le (h : sim.Reachable policy s) (hr : sim.Steered) (hm : policy.Member)
    (ht : sim.transport.Accepted) (f : FlowId) :
    s.trace.countP (Obs.dispatches (wakeOf f)) ≤ 4 * s.transmissions f + 2 := by
  have hpaid := (h.injects ht f).paid
  have hnudges := h.nudges_le hr hm f
  change s.trace.countP (Obs.dispatches (wakeOf f)) + _ ≤ 2 * s.transmissions f + _ + 2 at hpaid
  omega

/-! ## Bounds for the whole run -/

/-- Every timer and wake-up taken is of a flow of the simulation. -/
theorem dispatched_sender (h : sim.Reachable policy s) :
    ∀ e, .dispatched e ∈ s.trace → ∀ f ∈ e.body.sender, f < sim.flowCount := by
  refine Simulation.Reachable.invariant
    (P := fun s => ∀ e, .dispatched e ∈ s.trace → ∀ f ∈ e.body.sender, f < sim.flowCount)
    (fun _ _ he => absurd he List.not_mem_nil) ?_ h
  intro s e queue hs ih hpop e' he'
  rcases mem_dispatched_step he' with rfl | he'
  · refine hs.inRange.events e' ?_
    rw [EventQueue.agenda_of_pop hpop]
    exact List.mem_cons_self ..
  · exact ih e' he'

theorem sum_woken (h : sim.Reachable policy s) :
    (s.trace.countP fun o => (o.body.bind EventBody.woken).isSome) =
      ∑ f ∈ range sim.flowCount, s.trace.countP (Obs.dispatches (wakeOf f)) := by
  rw [Grouping.countP_by_key fun o : Obs => o.body.bind EventBody.woken]
  · refine sum_congr rfl fun f _ => List.countP_congr fun o _ => ?_
    cases o with
    | emitted | offered | released => simp [Obs.body, Obs.dispatches]
    | dispatched e =>
      obtain ⟨t, q, b⟩ := e
      cases b <;> simp [Obs.body, EventBody.woken, Obs.dispatches, wakeOf]
  · intro o ho f hf
    cases o with
    | emitted | offered | released => exact absurd hf (by simp [Obs.body])
    | dispatched e => exact h.dispatched_sender e ho f (EventBody.sender_of_woken hf)

theorem sum_timed (h : sim.Reachable policy s) :
    (s.trace.countP fun o => (o.body.bind EventBody.timed).isSome) =
      ∑ f ∈ range sim.flowCount, s.trace.countP (Obs.dispatches (timerOf fun g _ _ => g = f)) := by
  rw [Grouping.countP_by_key fun o : Obs => o.body.bind EventBody.timed]
  · refine sum_congr rfl fun f _ => List.countP_congr fun o _ => ?_
    cases o with
    | emitted | offered | released => simp [Obs.body, Obs.dispatches]
    | dispatched e =>
      obtain ⟨t, q, b⟩ := e
      cases b <;> simp [Obs.body, EventBody.timed, Obs.dispatches, timerOf]
  · intro o ho f hf
    cases o with
    | emitted | offered | released => exact absurd hf (by simp [Obs.body])
    | dispatched e => exact h.dispatched_sender e ho f (EventBody.sender_of_timed hf)

/-- The links see each transmission twice, as a packet and as an ack. -/
theorem paid_toll_le (h : sim.Reachable policy s) (hr : sim.Routed) (hm : policy.Member) :
    (toll sim).paid s ≤ ∑ f ∈ range sim.flowCount, s.transmissions f * (4 * sim.hops f) := by
  have hpaid := h.paid_le (toll_sound hr hm) (Simulation.onWay_lt hr hm)
  have hflow : ∀ a ∈ s.emissions, a.2.flow < sim.flowCount := fun a ha =>
    h.inRange.emitted a.1 a.2 (mem_emissions.mp ha)
  have hcharged : (toll sim).charged sim s =
      (s.emissions.map fun a => (some a.2.flow).elim 0 fun f => 2 * sim.hops f).sum := by
    unfold Tariff.charged
    congr 1
    exact List.map_congr_left fun a ha => toll_queued hr (hflow a ha)
  rw [hcharged, Grouping.sum_by_key (fun a : Nat × Packet => some a.2.flow) _ ?_] at hpaid
  · refine hpaid.trans (sum_le_sum fun f _ => ?_)
    -- data of the flow, and acks for some of it
    have hsplit : (s.emissions.countP fun a => some a.2.flow = some f) =
        (s.emissions.countP fun a => dataOf (fun g _ _ => g = f) a.2) +
          s.emissions.countP fun a => ackOf (fun g _ _ => g = f) a.2 := by
      clear hcharged hpaid hflow h
      induction s.emissions with
      | nil => rfl
      | cons a l ih =>
        rw [List.countP_cons, List.countP_cons, List.countP_cons, ih]
        by_cases hf : a.2.flow = f
        · cases hk : a.2.kind <;> simp [dataOf, ackOf, hf, hk] <;> omega
        · simp [dataOf, ackOf, hf]
    have hacks := h.acks_le hr.steered hm fun g _ _ => g = f
    rw [hsplit, h.acked, h.countP_dataOf]
    change s.landings sim (dataOf fun g _ _ => g = f) ≤ s.transmissions f at hacks
    change 2 * sim.hops f * (s.transmissions f + _) ≤ _
    calc 2 * sim.hops f * (s.transmissions f + s.landings sim (dataOf fun g _ _ => g = f))
        ≤ 2 * sim.hops f * (s.transmissions f + s.transmissions f) :=
          Nat.mul_le_mul_left _ (Nat.add_le_add_left hacks _)
      _ = s.transmissions f * (4 * sim.hops f) := by ring
  · intro a ha k hk
    obtain rfl := Option.some.inj hk
    exact hflow a ha

/-- The events of a run, bounded by its flows. -/
theorem dispatched_le (h : sim.Reachable policy s) (hr : sim.Routed) (hm : policy.Member)
    (ht : sim.transport.Accepted) : s.dispatchTimes.length ≤ ∑ f ∈ range sim.flowCount,
      (sim.packetsTotal f * sim.transport.maxAttempts * (4 * sim.hops f + 5) + 2) := by
  rw [length_dispatchTimes sim, h.sum_timed, h.sum_woken]
  have hlinks := h.paid_toll_le hr hm
  have htimers : ∑ f ∈ range sim.flowCount,
      s.trace.countP (Obs.dispatches (timerOf fun g _ _ => g = f)) ≤
      ∑ f ∈ range sim.flowCount, s.transmissions f :=
    sum_le_sum fun f _ => h.timers_le fun g _ _ => g = f
  have hwakes : ∑ f ∈ range sim.flowCount, s.trace.countP (Obs.dispatches (wakeOf f)) ≤
      ∑ f ∈ range sim.flowCount, (4 * s.transmissions f + 2) :=
    sum_le_sum fun f _ => h.woken_le hr.steered hm ht f
  refine (Nat.add_le_add (Nat.add_le_add hlinks htimers) hwakes).trans ?_
  rw [← sum_add_distrib, ← sum_add_distrib]
  refine sum_le_sum fun f _ => ?_
  calc s.transmissions f * (4 * sim.hops f) + s.transmissions f + (4 * s.transmissions f + 2)
      = s.transmissions f * (4 * sim.hops f + 5) + 2 := by ring
    _ ≤ sim.packetsTotal f * sim.transport.maxAttempts * (4 * sim.hops f + 5) + 2 :=
      Nat.add_le_add_right (Nat.mul_le_mul_right _ (h.transmissions_le ht f)) _

/-- Injects by flow. -/
theorem created_anyWake (h : sim.Reachable policy s) :
    s.created anyWake = ∑ f ∈ range sim.flowCount, s.created (wakeOf f) := by
  have hagenda : (s.queue.agenda.countP fun e => anyWake e.body) =
      ∑ f ∈ range sim.flowCount, s.queue.agenda.countP fun e => wakeOf f e.body := by
    have hkey := Grouping.countP_by_key (l := s.queue.agenda) (n := sim.flowCount)
      (fun e : Event => e.body.woken) fun e he f hf =>
        h.inRange.events e he f (EventBody.sender_of_woken hf)
    refine Eq.trans ?_ (hkey.trans (sum_congr rfl fun f _ => ?_))
    · refine List.countP_congr fun e _ => ?_
      obtain ⟨t, q, b⟩ := e
      cases b <;> simp [anyWake, EventBody.woken]
    · refine List.countP_congr fun e _ => ?_
      obtain ⟨t, q, b⟩ := e
      cases b <;> simp [wakeOf, EventBody.woken]
  have htrace : s.trace.countP (Obs.dispatches anyWake) =
      s.trace.countP fun o => (o.body.bind EventBody.woken).isSome := by
    refine List.countP_congr fun o _ => ?_
    cases o with
    | emitted | offered | released => simp [Obs.body, Obs.dispatches]
    | dispatched e =>
      obtain ⟨t, q, b⟩ := e
      cases b <;> simp [Obs.body, EventBody.woken, Obs.dispatches, anyWake]
  unfold State.created
  rw [hagenda, htrace, h.sum_woken, ← sum_add_distrib]

/-- Transmissions by flow. -/
theorem sum_transmissions (h : sim.Reachable policy s) :
    ∑ f ∈ range sim.flowCount, s.transmissions f = s.emissions.countP (sentOf fun _ _ _ => true) := by
  let key : Nat × Packet → Option Nat := fun a => if a.2.kind = .data then some a.2.flow else none
  have hkey := Grouping.countP_by_key (l := s.emissions) (n := sim.flowCount) key fun a ha f hf => by
    have hflow := h.inRange.emitted a.1 a.2 (mem_emissions.mp ha)
    by_cases hk : a.2.kind = .data
    · obtain rfl : a.2.flow = f := by simpa [key, hk] using hf
      exact hflow
    · exact absurd hf (by simp [key, hk])
  refine Eq.trans (sum_congr rfl fun f _ => ?_) (hkey.symm.trans ?_)
  · refine List.countP_congr fun a _ => ?_
    by_cases hk : a.2.kind = .data <;> simp [key, sentOf, hk]
  · refine List.countP_congr fun a _ => ?_
    by_cases hk : a.2.kind = .data <;> simp [key, sentOf, hk]

end Simulation.Reachable

/-- One attempt at one packet. -/
def oneAttempt (f : FlowId) (idx a : Nat) (f' : FlowId) (idx' a' : Nat) : Bool :=
  f' = f ∧ idx' = idx ∧ a' = a

theorem State.count_attempts (s : State) (f : FlowId) (idx a : Nat) :
    (s.attempts f idx).count a = s.emissions.countP (sentOf (oneAttempt f idx a)) := by
  unfold State.attempts List.count
  rw [List.countP_filterMap]
  refine List.countP_congr fun e _ => ?_
  unfold attemptOf sentOf oneAttempt
  split
  · next hx => simp [hx.1, hx.2.1, hx.2.2]
  · next hx =>
    simp only [Option.map_none, Option.getD_none, Bool.false_eq_true, Bool.and_eq_true,
      decide_eq_true_eq, false_iff]
    exact fun hy => hx ⟨hy.1, hy.2.1, hy.2.2.1⟩

/-- As many turns as there are events, and the run is over. -/
theorem Simulation.drained_of_bound {sim : Simulation} {policy : RoutingPolicy} {bound : Nat}
    (hbound : ∀ s, sim.Reachable policy s → s.dispatchTimes.length ≤ bound) (leftover : State) :
    ∃ n, ((sim.beginRun leftover).runFor sim policy n).Drained := by
  -- a state reached in `k` turns that has `n` more is `n` turns from the end, or past the bound
  have hgo : ∀ (n : Nat) (s : State), sim.Reachable policy s →
      (s.runFor sim policy n).Drained ∨
        s.dispatchTimes.length + n ≤ (s.runFor sim policy n).dispatchTimes.length := by
    intro n
    induction n with
    | zero => exact fun s _ => Or.inr le_rfl
    | succ n ih =>
      intro s hs
      unfold State.runFor
      cases hstep : s.step sim policy with
      | none =>
        left
        have hpop : s.queue.pop = none := by
          unfold State.step at hstep
          split at hstep
          · assumption
          · exact absurd hstep (by simp)
        rw [EventQueue.pop_eq_none_iff, EventQueue.agenda_eq_nil_iff] at hpop
        exact List.isEmpty_iff.mpr hpop
      | some s' =>
        obtain ⟨e, queue, hpop, rfl⟩ := Simulation.step_eq_some_iff.mp hstep
        rcases ih _ (hs.next hstep) with hd | hlen
        · exact Or.inl hd
        · rw [dispatchTimes_step, List.length_cons] at hlen
          refine Or.inr (le_trans ?_ hlen)
          omega
  refine ⟨bound + 1, ((hgo (bound + 1) _ (Simulation.Reachable.begin leftover)).resolve_right ?_)⟩
  intro hlen
  have hbegin : sim.Reachable policy (sim.beginRun leftover) := Simulation.Reachable.begin leftover
  have := hbound _ (hbegin.runFor (bound + 1))
  omega

/-- Every run ends, on every routed fabric, for every flow set, transport and policy
that picks a candidate: the number of its events has a bound that depends on the
flows alone. Every transmission of a packet is another attempt at it, below the
transport's limit and so within eight bits. Each transmission makes one timer, and
at most one copy of it arrives and is answered with one ack. In a run whose times
have not wrapped there is at most one inject for each transmission and one for each
flow. -/
theorem run_terminates (sim : Simulation) (policy : RoutingPolicy) (hr : sim.Routed)
    (hm : policy.Member) (ht : sim.transport.Accepted) :
    (∀ leftover, ∃ n, ((sim.beginRun leftover).runFor sim policy n).Drained) ∧
    ∀ s, sim.Reachable policy s →
      s.dispatchTimes.length ≤ ∑ f ∈ range sim.flowCount,
        (sim.packetsTotal f * sim.transport.maxAttempts * (4 * sim.hops f + 5) + 2) ∧
      (∀ f idx, (s.attempts f idx).Nodup ∧
        (s.attempts f idx).length ≤ sim.transport.maxAttempts ∧ s.pktAttempt f idx < 256) ∧
      (∀ f idx a, s.created (timerOf (oneAttempt f idx a)) = (s.attempts f idx).count a ∧
        (s.emissions.countP fun e => ackOf (oneAttempt f idx a) e.2) =
          s.landings sim (dataOf (oneAttempt f idx a)) ∧
        s.landings sim (dataOf (oneAttempt f idx a)) ≤ (s.attempts f idx).count a) ∧
      (s.wrapped = false →
        s.created anyWake ≤ s.emissions.countP (sentOf fun _ _ _ => true) + sim.flowCount) := by
  refine ⟨Simulation.drained_of_bound fun s hs => hs.dispatched_le hr hm ht, fun s hs =>
    ⟨hs.dispatched_le hr hm ht, fun f idx => ?_, fun f idx a => ?_, fun hw => ?_⟩⟩
  · have hatt := hs.attempts ht f
    exact ⟨(hatt.rising idx).imp fun hlt => hlt.ne', hatt.length_le idx,
      (hatt.lt_max idx).trans ht.attempts_lt⟩
  · rw [State.count_attempts]
    exact ⟨hs.timers _, hs.acked _, hs.acks_le hr.steered hm _⟩
  · rw [hs.created_anyWake, ← hs.sum_transmissions]
    have hflow : ∑ f ∈ range sim.flowCount, s.created (wakeOf f) ≤
        ∑ f ∈ range sim.flowCount, (s.transmissions f + 1) :=
      sum_le_sum fun f _ => hs.created_inject_le ht hw f
    rw [sum_add_distrib, sum_const, card_range, smul_eq_mul, Nat.mul_one] at hflow
    exact hflow

/-- Two hosts on a leaf: the run ends, with two wake-ups for two packets. -/
theorem run_terminates_pair :
    (∃ n, ((Pair.simulation.beginRun Pair.fresh).runFor Pair.simulation StaticFirstPolicy n).Drained) ∧
      Pair.last.created anyWake ≤ Pair.last.emissions.countP (sentOf fun _ _ _ => true) + 1 := by
  obtain ⟨hends, hall⟩ := run_terminates Pair.simulation StaticFirstPolicy Pair.routed
    staticFirst_member Pair.transport_accepted
  obtain ⟨-, -, -, hinjects⟩ := hall Pair.last ((Simulation.Reachable.begin _).runFor 100)
  exact ⟨hends Pair.fresh, hinjects Pair.last_unwrapped⟩

namespace Pair

/-- Two small packets, sent just before the clock wraps. -/
def lateFlow : FlowSpec where
  src := 2
  dst := 3
  sizeBytes := 300
  mtuBytes := 150
  startNs := 2 ^ 64 - 300

theorem lateFlow_accepted : lateFlow.Accepted fabric 0 := by decide +kernel

/-- The timers are set for times that still fit. -/
def late : Simulation where
  fabric := fabric
  routes := RouteTable.buildShortestPath fabric
  transport := { rtoNs := 230 }
  specs := [lateFlow]
  accepted := by
    intro i hi
    obtain rfl : i = 0 := Nat.lt_one_iff.mp hi
    exact lateFlow_accepted

theorem late_routed : late.Routed :=
  ⟨⟨routed.built, routed.connected, routed.singlePort, rfl⟩, routed.counted⟩

theorem late_transport : late.transport.Accepted :=
  ⟨by decide, by decide, by decide, by decide, by decide⟩

end Pair

/-- Four injects for two transmissions and one flow: each of the two acks arrives
after the clock has wrapped, long before the gate opens by that clock, and asks for a
wake-up that will find nothing to do. -/
theorem injects_exceed :
    ¬ ∀ (sim : Simulation) (policy : RoutingPolicy) (s : State), sim.Routed → policy.Member →
      sim.transport.Accepted → sim.packetsExact < 2 ^ 32 → sim.Reachable policy s →
      s.created anyWake ≤ s.emissions.countP (sentOf fun _ _ _ => true) + sim.flowCount := by
  intro h
  have hle := h Pair.late StaticFirstPolicy
    ((Pair.late.beginRun Pair.fresh).runFor Pair.late StaticFirstPolicy 100) Pair.late_routed
    staticFirst_member Pair.late_transport (by decide +kernel)
    ((Simulation.Reachable.begin _).runFor 100)
  revert hle
  decide +kernel

end FabricSim
