import FabricSim.Core.Echo
import FabricSim.Lib.WindowClock

/-!
# No packet leaves early

The clock of a lone flow is `WindowClock`: a packet takes `ser .data` to send, its ack is
back a round trip later and takes `ser .ack`. In a run that loses nothing no index is sent
before its time on that clock (`Uniform.early`), whatever timers fire: the pacing gate
keeps packets apart, and with the window full of packets not acked nothing new is sent.

An ack tells of its arrival (`Reachable.acked_arrived`), and acks are served in the order
of their packets, so that the arrival was not early either (`Uniform.ack_early`).
-/

namespace FabricSim

open State FifoServer WindowClock

/-! ## An acked packet's ack -/

namespace State

variable {sim : Simulation} {policy : RoutingPolicy} {s : State} {f : FlowId} {i : Nat}

theorem acked_of_onAck (g : FlowId) (idx : Nat)
    (h : ((s.onAck sim g idx).pkt f i).acked = true) :
    (s.pkt f i).acked = true ∨ f = g ∧ i = idx := by
  by_contra hnot
  obtain ⟨hnew, hne⟩ := not_or.mp hnot
  refine hnew ?_
  unfold onAck at h
  split at h
  · exact h
  · rw [acked_trySend, acked_land] at h
    by_cases hf : f = g
    · subst hf
      have hi : i ≠ idx := fun hi => hne ⟨rfl, hi⟩
      simpa [hi] using h
    · simpa [hf] using h

/-- Only the arrival of its ack makes a packet acked. -/
theorem acked_of_dispatch {b : EventBody} (h : ((s.dispatch sim policy b).pkt f i).acked = true) :
    (s.pkt f i).acked = true ∨ ∃ p x, b = .arrive p x ∧
      (sim.fabric.node (sim.fabric.port p).peerNode).isHost = true ∧ x.kind = .ack ∧
      x.flow = f ∧ x.index = i := by
  cases b with
  | inject g =>
    change ((s.onInject sim g).pkt f i).acked = true at h
    unfold onInject at h
    rw [acked_trySend] at h
    exact Or.inl h
  | txComplete p =>
    change ((s.onTxComplete sim p).pkt f i).acked = true at h
    rcases onTxComplete_cases sim s p with ⟨-, h'⟩ | ⟨-, h'⟩
    · rw [h'] at h
      exact Or.inl h
    · rw [h'] at h
      exact Or.inl h
  | timeout g idx a =>
    change ((s.onTimeout sim g idx a).pkt f i).acked = true at h
    rw [acked_onTimeout] at h
    exact Or.inl h
  | arrive p x =>
    change ((s.onArrive sim policy p x).pkt f i).acked = true at h
    cases hh : (sim.fabric.node (sim.fabric.port p).peerNode).isHost with
    | false =>
      rw [onArrive_switch hh, enqueue_pkt] at h
      exact Or.inl h
    | true =>
      cases hk : x.kind with
      | data =>
        rw [onArrive_data hh hk, acked_onDataArrival] at h
        exact Or.inl h
      | ack =>
        rw [onArrive_ack hh hk] at h
        rcases acked_of_onAck x.flow x.index h with h | ⟨rfl, rfl⟩
        · exact Or.inl h
        · exact Or.inr ⟨p, x, rfl, hh, hk, rfl, rfl⟩

end State

namespace Simulation

theorem Reachable.acked_arrived {sim : Simulation} {policy : RoutingPolicy} {s : State}
    (h : sim.Reachable policy s) {f : FlowId} {i : Nat} (hack : (s.pkt f i).acked = true) :
    ∃ e, .dispatched e ∈ s.trace ∧ ∃ p x, e.body = .arrive p x ∧
      (sim.fabric.node (sim.fabric.port p).peerNode).isHost = true ∧ x.kind = .ack ∧
      x.flow = f ∧ x.index = i := by
  refine Reachable.invariant (P := fun s => (s.pkt f i).acked = true →
    ∃ e, .dispatched e ∈ s.trace ∧ ∃ p x, e.body = .arrive p x ∧
      (sim.fabric.node (sim.fabric.port p).peerNode).isHost = true ∧ x.kind = .ack ∧
      x.flow = f ∧ x.index = i) (fun _ h => absurd h (by simp [beginRun])) ?_ h hack
  intro s e queue _ ih _ hack
  rcases acked_of_dispatch hack with hold | hnew
  · obtain ⟨e', he', hrest⟩ := ih hold
    exact ⟨e', mem_trace_step he', hrest⟩
  · obtain ⟨l, hl⟩ := dispatch_trace sim policy (s.advance e queue) e.body
    refine ⟨e, ?_, hnew⟩
    rw [hl, advance_trace]
    exact List.mem_append_right _ (List.mem_cons_self ..)

/-- The round trip of a packet that nothing delays. -/
noncomputable def tripNs (sim : Simulation) (delay : Nat) (ser : PacketKind → Nat) : Nat :=
  sim.hops 0 * (ser .data + delay) + sim.hops 0 * (ser .ack + delay)

/-- The way there, the first link of the way back, and the rest of it. -/
theorem Lone.tripNs_eq {sim : Simulation} {policy : RoutingPolicy} (hl : sim.Lone policy)
    (delay : Nat) (ser : PacketKind → Nat) :
    sim.tripNs delay ser = sim.hops 0 * (ser .data + delay) + ser .ack +
      (delay + (sim.hops 0 - 1) * (ser .ack + delay)) := by
  obtain ⟨h, hh⟩ : ∃ h, sim.hops 0 = h + 1 := ⟨sim.hops 0 - 1, by have := hl.hops_pos; omega⟩
  unfold tripNs
  rw [hh, Nat.add_sub_cancel, Nat.succ_mul h (ser .ack + delay)]
  omega

/-- When the flow's packet is sent. -/
noncomputable def dueNs (sim : Simulation) (delay : Nat) (ser : PacketKind → Nat) : Nat → Nat :=
  sent (ser .data) (sim.tripNs delay ser) (ser .ack) (sim.window 0 - 1)

/-- When its ack is back. -/
noncomputable def backNs (sim : Simulation) (delay : Nat) (ser : PacketKind → Nat) : Nat → Nat :=
  acked (ser .data) (sim.tripNs delay ser) (ser .ack) (sim.window 0 - 1)

end Simulation

namespace Simulation.Uniform

variable {sim : Simulation} {policy : RoutingPolicy} {s : State} {rate delay : Nat}
  {ser : PacketKind → Nat}

/-! ## Acks come in the order of their packets -/

theorem data_climbs (hl : sim.Lone policy) (hs : sim.Reachable policy s)
    (ht : sim.transport.Accepted) (hw : s.wrapped = false) :
    Climbs ((s.out .data).map fun b => b.2.index) := by
  have h := climbs_of_dedup (hs.discipline ht hw 0).inOrder
  rw [← List.map_reverse, ← hl.out_data hs] at h
  exact h

theorem ack_service (hu : sim.Uniform rate delay ser) (hl : sim.Lone policy)
    (hs : sim.Reachable policy s) : ∀ b ∈ s.out .ack,
    sim.serNs (sim.link policy 0 .ack 0) b.2 = ser .ack := by
  have hport := (hl.onWay s .ack hl.hops_pos).port_lt hl.routed
  intro b hb
  unfold serNs
  rw [hu.bytes_out hl hs .ack b hb, (hu.links _ hport).1, hu.service]

section

variable (hu : sim.Uniform rate delay ser) (hl : sim.Lone policy) (hs : sim.Reachable policy s)
  (ht : sim.transport.Accepted) (hw : s.wrapped = false) (hloss : Lossless s)

include hu hl hs hw hloss

/-- An ack arrives over a link as long after it left its receiver as the links take. -/
theorem ack_served {j : Nat} (hj : j < sim.hops 0) {a : Nat × Packet}
    (ha : a ∈ s.passing sim (sim.link policy 0 .ack j)) :
    ∃ d ∈ serve (sim.serNs (sim.link policy 0 .ack 0)) 0 (s.out .ack),
      d.2.index = a.2.index ∧ a.1 = d.1 + delay + j * (ser .ack + delay) := by
  have htandem := hs.tandem hl hloss
  have hpre := (htandem.through hl (hs.served hw) hu.links (hu.service .ack)
    (hu.bytes_out hl hs .ack) hj).2
  have hport := (hl.onWay s .ack hl.hops_pos).port_lt hl.routed
  obtain ⟨c, hc, heq⟩ := List.mem_map.mp (hpre.subset (List.mem_map_of_mem ha))
  obtain ⟨b, hb, rfl⟩ := List.mem_map.mp hc
  unfold passing at hb
  rw [← (hs.served hw _).wire, htandem.first, (hu.links _ hport).2] at hb
  obtain ⟨d, hd, rfl⟩ := List.mem_map.mp hb
  refine ⟨d, hd, ?_, (congrArg Prod.fst heq).symm⟩
  exact congrArg (fun c => c.2.index) heq

include ht

/-- An ack leaves its receiver when its packet has come over. -/
theorem out_ack_prefix : ((s.out .ack).map fun b => (b.1, b.2.index)) <+:
    (s.out .data).map fun b => (b.1 + sim.hops 0 * (ser .data + delay), b.2.index) := by
  have hpos := hl.hops_pos
  rw [hl.out_ack hs]
  have hpre := (hu.passing_prefix hl hs hw hloss ht (k := .data) le_rfl
    (j := sim.hops 0 - 1) (by omega)).map fun a => (a.1, a.2.index)
  rw [Nat.sub_add_cancel hpos, List.map_map, List.map_map, List.map_map] at hpre
  refine List.IsPrefix.trans ?_ hpre
  exact (List.prefix_append _ _).map _

/-- Where no packet was early no ack is. -/
theorem ack_early (hearly : ∀ b ∈ s.out .data, sim.dueNs delay ser b.2.index ≤ b.1)
    {a : Nat × Packet} (ha : a ∈ s.passing sim (sim.link policy 0 .ack (sim.hops 0 - 1))) :
    sim.backNs delay ser a.2.index ≤ a.1 := by
  have hpos := hl.hops_pos
  have hpre := hu.out_ack_prefix hl hs ht hw hloss
  have hclimbs : Climbs ((s.out .ack).map fun b => b.2.index) := by
    have hidx := hpre.map Prod.snd
    rw [List.map_map, List.map_map] at hidx
    exact (data_climbs hl hs ht hw).of_init hidx
  have hlate : ∀ b ∈ s.out .ack,
      sim.dueNs delay ser b.2.index + sim.hops 0 * (ser .data + delay) ≤ b.1 := by
    intro b hb
    obtain ⟨c, hc, heq⟩ := List.mem_map.mp (hpre.subset
      (List.mem_map_of_mem (f := fun b : Nat × Packet => (b.1, b.2.index)) hb))
    obtain ⟨htime, hidx⟩ := Prod.mk.inj heq
    have := hearly c hc
    rw [hidx] at this
    omega
  obtain ⟨d, hd, hidx, htime⟩ := hu.ack_served hl hs hw hloss (j := sim.hops 0 - 1) (by omega) ha
  have := acked_le_serve (hu.ack_service hl hs) (hl.tripNs_eq delay ser).le hclimbs hlate d hd
  rw [htime, ← hidx, Nat.add_assoc]
  exact this

end

/-! ## The clock as a lower bound -/

/-- A turn that sends leaves the flow not failed. -/
theorem not_failed_of_sent {e : Event} {queue : EventQueue} {b : Nat × Packet}
    (hl : sim.Lone policy) (hs : sim.Reachable policy s) (hpop : s.queue.pop = some (e, queue))
    (hb : b ∈ ((s.advance e queue).dispatch sim policy e.body).out .data)
    (hnew : b ∉ s.out .data) :
    (((s.advance e queue).dispatch sim policy e.body).tx 0).failed = false := by
  have hnext := hs.next (step_eq_some_iff.mpr ⟨e, queue, hpop, rfl⟩)
  obtain ⟨l, htr⟩ := dispatch_trace sim policy (s.advance e queue) e.body
  rw [advance_trace, List.append_cons] at htr
  have hturn := Turn.of_step hs hpop 0
  rw [hl.out_data hs, List.mem_reverse] at hnew
  rw [hl.out_data hnext, List.mem_reverse] at hb
  generalize (s.advance e queue).dispatch sim policy e.body = s' at *
  have hsame : s'.gate 0 = s.gate 0 → False := fun hgate =>
    hnew (sentBy_eq_of_transmissions htr (congrArg PacingGate.Gate.sent hgate) ▸ hb)
  cases hturn with
  | idle hgate _ _ => exact (hsame hgate).elim
  | start g _ _ hgate _ _ =>
    exact (hnew (sentBy_eq_of_transmissions htr (congrArg PacingGate.Gate.sent hgate) ▸ hb)).elim
  | visit s₀ _ hsent _ _ _ _ _ hend =>
    cases hfail : (s₀.tx 0).failed with
    | true =>
      rw [hend, trySend_failed hfail, hsent] at hb
      exact absurd hb hnew
    | false =>
      rw [hend, (trySend_frame s₀ 0).failed]
      exact hfail

section

variable {e : Event} {queue : EventQueue}

variable (hu : sim.Uniform rate delay ser) (hl : sim.Lone policy) (hs : sim.Reachable policy s)
  (ht : sim.transport.Accepted) (hearly : ∀ b ∈ s.out .data, sim.dueNs delay ser b.2.index ≤ b.1)
  (hpop : s.queue.pop = some (e, queue))
  (hw : ((s.advance e queue).dispatch sim policy e.body).wrapped = false)
  (hloss : Lossless ((s.advance e queue).dispatch sim policy e.body))

include hu hl hs ht hearly hpop hw hloss

/-- A packet that is acked by the end of a turn was not acked early. -/
theorem acked_early {i : Nat}
    (hack : (((s.advance e queue).dispatch sim policy e.body).pkt 0 i).acked = true) :
    sim.backNs delay ser i ≤ e.time := by
  have hnext := hs.next (step_eq_some_iff.mpr ⟨e, queue, hpop, rfl⟩)
  obtain ⟨e', he', p, x, hb, hhost, hk, -, rfl⟩ := hnext.acked_arrived hack
  obtain rfl := (hl.last_iff hnext he' hb .ack).mpr ⟨hhost, hk⟩
  have hpass : (e'.time, x) ∈ s.passing sim _ :=
    mem_passing_of_arrived hpop (mem_arrived.mpr ⟨e', he', hb, rfl⟩)
  refine (hu.ack_early hl hs ht (step_unwrapped hs.coherent hpop hw) hloss.of_step hearly
    hpass).trans ?_
  have hpast := (hnext.forward hw).past e'.time (List.mem_filterMap.mpr ⟨.dispatched e', he', rfl⟩)
  rw [dispatch_now] at hpast
  exact hpast

/-- What is sent in a turn is not early: the packet before it was sent a transmission
ago, and of a whole window one is acked. -/
theorem early_step : ∀ b ∈ ((s.advance e queue).dispatch sim policy e.body).out .data,
    sim.dueNs delay ser b.2.index ≤ b.1 := by
  have hnext := hs.next (step_eq_some_iff.mpr ⟨e, queue, hpop, rfl⟩)
  intro b hb
  by_cases hold : b ∈ s.out .data
  · exact hearly b hold
  have htime : ∀ c ∈ ((s.advance e queue).dispatch sim policy e.body).out .data,
      c ∉ s.out .data → c.1 = e.time := by
    intro c hc hcnew
    rcases emissions_dispatch sim policy (s.advance e queue) e.body c (mem_out.mp hc).1 with h | h
    · rw [emissions_advance] at h
      exact absurd (mem_out.mpr ⟨h, (mem_out.mp hc).2⟩) hcnew
    · exact h
  rw [htime b hb hold]
  obtain ⟨l₁, l₂, hsplit⟩ := List.append_of_mem hb
  cases hk : b.2.index with
  | zero =>
    unfold dueNs
    rw [sent_zero]
    exact Nat.zero_le _
  | succ k =>
    have hspaced := hu.spaced_data hl hnext ht hw
    rw [hsplit, List.map_append, List.map_cons] at hspaced
    have hbefore : k ∈ l₁.map fun c => c.2.index := by
      refine data_climbs hl hnext ht hw _ k (l₂.map fun c => c.2.index) ?_
      rw [hsplit, List.map_append, List.map_cons, hk]
    obtain ⟨c, hc, rfl⟩ := List.mem_map.mp hbefore
    have hgap := (List.pairwise_append.mp hspaced).2.2 c.1 (List.mem_map_of_mem hc) b.1
      (List.mem_cons_self ..)
    rw [htime b hb hold] at hgap
    have hcout : c ∈ ((s.advance e queue).dispatch sim policy e.body).out .data := by
      rw [hsplit]
      exact List.mem_append_left _ hc
    have hcold : c ∈ s.out .data := by
      by_contra hcnew
      have := htime c hcout hcnew
      have := hu.pos
      omega
    have hprev := hearly c hcold
    unfold dueNs
    rw [sent_succ]
    refine max_le ((Nat.add_le_add_right hprev _).trans hgap) ?_
    split
    · next hwin =>
      have htr := mem_emissions.mp (mem_out.mp hb).1
      have hseq := hnext.books.data b.1 b.2 htr (mem_out.mp hb).2
      rw [hl.flow_eq (hnext.inRange.emitted b.1 b.2 htr), hk] at hseq
      have hpos : 0 < sim.window 0 := (sim.spec 0).window_pos
      obtain ⟨j, hlo, -, hack⟩ := (hnext.books.ledger 0).exists_acked
        (not_failed_of_sent hl hs hpop hb hold) hseq (by omega)
      refine le_trans (acked_mono ?_) (hu.acked_early hl hs ht hearly hpop hw hloss hack)
      omega
    · exact Nat.zero_le _

end

/-- Nothing is sent before its time. -/
theorem early (hu : sim.Uniform rate delay ser) (hl : sim.Lone policy)
    (hs : sim.Reachable policy s) (ht : sim.transport.Accepted) (hw : s.wrapped = false)
    (hloss : Lossless s) : ∀ b ∈ s.out .data, sim.dueNs delay ser b.2.index ≤ b.1 := by
  refine Reachable.invariant (P := fun s => s.wrapped = false → Lossless s →
    ∀ b ∈ s.out .data, sim.dueNs delay ser b.2.index ≤ b.1)
    (fun _ _ _ _ hb => absurd hb List.not_mem_nil) ?_ hs hw hloss
  intro s e queue hs ih hpop hw hloss
  have hearly := ih (step_unwrapped hs.coherent hpop hw) hloss.of_step
  exact hu.early_step hl hs ht hearly hpop hw hloss

end Simulation.Uniform

end FabricSim
