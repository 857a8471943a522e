import FabricSim.Core.Backlog
import FabricSim.Core.Punctual

/-!
# A timer that fires before its ack

Acks that take longer than data wait where they start, and those of a long flow ever
longer. In a run that loses nothing the queue there bounds the wait (`Uniform.back_le`): a
timeout that outlasts it (`Patient`) fires for no packet whose ack is still to come as long
as there are packets left to send (`Uniform.timer_idle`). When all are sent it may, and what
is sent again then delays no first transmission (`Uniform.sent_on_time`).
-/

namespace FabricSim

open State FifoServer WindowClock

/-- No timer fires for a packet whose ack is to come while there are packets to send: the
timeout covers a full queue of acks, or on the clock each ack is back before it, as far as
it comes before the last packet. -/
def Simulation.Patient (sim : Simulation) (policy : RoutingPolicy) (delay : Nat)
    (ser : PacketKind → Nat) : Prop :=
  ((sim.fabric.port (sim.link policy 0 .ack 0)).queueCapacity + 1) * ser .data +
      sim.tripNs delay ser < sim.transport.rtoNs ∨
    ∀ i, i < sim.packetsTotal 0 → sim.dueNs delay ser i + sim.transport.rtoNs ≤
      sim.dueNs delay ser (sim.packetsTotal 0 - 1) →
        sim.backNs delay ser i < sim.dueNs delay ser i + sim.transport.rtoNs

namespace Simulation.Uniform

variable {sim : Simulation} {policy : RoutingPolicy} {s : State} {rate delay : Nat}
  {ser : PacketKind → Nat}

section

variable (hu : sim.Uniform rate delay ser) (hl : sim.Lone policy) (hs : sim.Reachable policy s)
  (ht : sim.transport.Accepted) (hw : s.wrapped = false) (hloss : Lossless s)
  (hun : Undisturbed s) (hdue : ∀ b ∈ s.out .data, b.1 = sim.dueNs delay ser b.2.index)

include hu hl hs ht hw hloss hun hdue

/-- When an ack finds room, one that left no room for it is past its first link. -/
theorem back_le {i j : Nat}
    (hij : i + (sim.fabric.port (sim.link policy 0 .ack 0)).queueCapacity < j)
    (hj : ∃ z ∈ s.out .ack, z.2.index = j) :
    sim.backNs delay ser i ≤ sim.dueNs delay ser j + sim.tripNs delay ser := by
  obtain ⟨m, hm⟩ := hu.ack_eq hl hs ht hw hloss hun hdue
  have htrip := hl.tripNs_eq delay ser
  have hjm : j < m := by
    obtain ⟨z, hz, rfl⟩ := hj
    have hmem := List.mem_map_of_mem (f := fun b : Nat × Packet => (b.1, b.2.index)) hz
    rw [hm] at hmem
    obtain ⟨k, hk, heq⟩ := List.mem_map.mp hmem
    rw [← (Prod.mk.inj heq).2]
    exact List.mem_range.mp hk
  have hserve := serve_eq (hu.ack_service hl hs) htrip hm
  have haccepted := (hs.tandem hl hloss).first .ack
  -- the two acks in the lists of the first link
  have hget : ∀ (g : Nat → Nat × Nat) (k : Nat), k < m →
      ((List.range m).map g)[k]? = some (g k) := by
    intro g k hk
    rw [List.getElem?_map, List.getElem?_range hk, Option.map_some]
  have hlast := congrArg (fun l : List (Nat × Nat) => l[j]?) hm
  have hfirst := congrArg (fun l : List (Nat × Nat) => l[i]?) hserve
  rw [hget _ j hjm, List.getElem?_map] at hlast
  rw [hget _ i (by omega), List.getElem?_map] at hfirst
  obtain ⟨a, ha, haeq⟩ := Option.map_eq_some_iff.mp hlast
  obtain ⟨d, hd, hdeq⟩ := Option.map_eq_some_iff.mp hfirst
  rw [← haccepted] at ha hd
  have hle := hs.departed_le hw hij ha hd
  have hatime := (Prod.mk.inj haeq).1
  have hdtime : d.1 + _ = sim.backNs delay ser i := (Prod.mk.inj hdeq).1
  omega

end

section

variable {e : Event} {queue : EventQueue}

variable (hu : sim.Uniform rate delay ser) (hl : sim.Lone policy) (ht : sim.transport.Accepted)
  (hstart : (sim.spec 0).startNs = 0)
  (hgap : ∀ i, i < sim.packetsTotal 0 → sim.dueNs delay ser i = i * ser .data)
  (hrto : sim.Patient policy delay ser)

include hu hl ht hstart hgap hrto

/-- While packets are left to send no timer fires for one that is not acked. -/
theorem timer_idle (hs : sim.Reachable policy s) (hun : Undisturbed s)
    (hdue : ∀ b ∈ s.out .data, b.1 = sim.dueNs delay ser b.2.index)
    (hpop : s.queue.pop = some (e, queue))
    (hw : ((s.advance e queue).dispatch sim policy e.body).wrapped = false)
    (hloss : Lossless ((s.advance e queue).dispatch sim policy e.body))
    (hleft : (s.tx 0).nextSeq < sim.packetsTotal 0) {i a : Nat} (hb : e.body = .timeout 0 i a) :
    (s.pkt 0 i).acked = true := by
  by_contra hack
  obtain ⟨htime, hback, hlt, hnext⟩ := hu.timer_le hl hs ht hstart hun hdue hpop hw hloss hb
    (by simpa using hack)
  have hw₀ := step_unwrapped hs.coherent hpop hw
  have htrip : sim.hops 0 * (ser .data + delay) ≤ sim.tripNs delay ser := Nat.le_add_right _ _
  have hmul := Nat.add_mul i ((sim.fabric.port (sim.link policy 0 .ack 0)).queueCapacity + 1)
    (ser .data)
  have hnext := hnext hleft
  rcases hrto with hrto | hrto
  case inr =>
    have hmono : sim.dueNs delay ser (s.tx 0).nextSeq ≤
        sim.dueNs delay ser (sim.packetsTotal 0 - 1) := sent_mono (by omega)
    have := hrto i (by omega) (by omega)
    omega
  rw [hgap i (by omega)] at htime
  rw [hgap _ hleft] at hnext
  -- the packet that fills the queue behind this one was sent, and came over, before
  have hj : i + ((sim.fabric.port (sim.link policy 0 .ack 0)).queueCapacity + 1) <
      (s.tx 0).nextSeq := by
    apply lt_of_mul_lt_mul_right (a := ser .data) ?_ (Nat.zero_le _)
    omega
  have hdone := hu.answered_of_lt hl hs ht hw₀ hloss.of_step hun hdue hpop hj (by
    rw [hgap _ (by omega)]
    omega)
  have hle := hu.back_le hl hs ht hw₀ hloss.of_step hun hdue (i := i) (by omega) hdone
  rw [hgap _ (by omega)] at hle
  omega

/-- Every packet is sent for the first time when the clock says: up to the last one nothing
is sent twice. -/
theorem sent_on_time (hs : sim.Reachable policy s) (hw : s.wrapped = false) (hloss : Lossless s) :
    (Undisturbed s ∧ ∀ b ∈ s.out .data, b.1 = sim.dueNs delay ser b.2.index) ∨
      ∀ i, i < sim.packetsTotal 0 → ∃ b ∈ s.out .data, b.2.index = i ∧
        b.1 = sim.dueNs delay ser i := by
  refine Reachable.invariant (P := fun s => s.wrapped = false → Lossless s →
    (Undisturbed s ∧ ∀ b ∈ s.out .data, b.1 = sim.dueNs delay ser b.2.index) ∨
      ∀ i, i < sim.packetsTotal 0 → ∃ b ∈ s.out .data, b.2.index = i ∧
        b.1 = sim.dueNs delay ser i) ?_ ?_ hs hw hloss
  · intro leftover _ _
    exact Or.inl ⟨⟨fun _ _ => rfl, fun _ => rfl⟩, fun _ hb => absurd hb List.not_mem_nil⟩
  intro s e queue hs ih hpop hw hloss
  have hw₀ := step_unwrapped hs.coherent hpop hw
  have hkeep : (∀ i, i < sim.packetsTotal 0 → ∃ b ∈ s.out .data, b.2.index = i ∧
      b.1 = sim.dueNs delay ser i) → ∀ i, i < sim.packetsTotal 0 →
        ∃ b ∈ ((s.advance e queue).dispatch sim policy e.body).out .data, b.2.index = i ∧
          b.1 = sim.dueNs delay ser i := by
    intro hall i hi
    obtain ⟨b, hb, hrest⟩ := hall i hi
    refine ⟨b, mem_out.mpr ⟨mem_emissions.mpr (mem_trace_step ?_), (mem_out.mp hb).2⟩, hrest⟩
    exact mem_emissions.mp (mem_out.mp hb).1
  rcases ih hw₀ hloss.of_step with ⟨hun, hdue⟩ | hall
  · by_cases hleft : (s.tx 0).nextSeq < sim.packetsTotal 0
    · refine Or.inl ?_
      have hun' : Undisturbed ((s.advance e queue).dispatch sim policy e.body) := by
        refine hun.step fun f i a hb => ?_
        obtain rfl := hl.flow_eq (hs.endpoint_lt hpop (Or.inr (Or.inl ⟨i, a, hb⟩)))
        exact hu.timer_idle hl ht hstart hgap hrto hs hun hdue hpop hw hloss hleft hb
      exact ⟨hun', hu.punctual_step hl hs ht hstart hun hdue hpop hw hloss hun'⟩
    · -- all are sent, whatever fires now
      refine Or.inr (hkeep fun i hi => ?_)
      obtain ⟨b, hb, rfl⟩ := mem_out_of_lt hl hs ht hw₀ hun (by omega : i < (s.tx 0).nextSeq)
      exact ⟨b, hb, rfl, hdue b hb⟩
  · exact Or.inr (hkeep hall)

end

end Simulation.Uniform

end FabricSim
