import FabricSim.Core.Timeline

/-!
# Virtual time

The hot loop asserts that no event it takes is earlier than the last one. Every
handler schedules at `now` plus something, so this holds as long as the sum is
taken over the naturals (`OnTime.future`). The code takes it in 64 bits without
a check, and a configuration it admits can make it wrap: `virtual_time_wraps`
runs into an event of the past after three dispatches.
-/

namespace FabricSim

open State

/-- The time of an event the hot loop took. -/
def Obs.dispatchTime : Obs → Option Nat
  | .dispatched e => some e.time
  | _ => none

/-- The times of the events taken so far, latest first. -/
def State.dispatchTimes (s : State) : List Nat := s.trace.filterMap Obs.dispatchTime

/-- Virtual time has not run backwards so far. -/
structure Forward (s : State) : Prop where
  falling : s.dispatchTimes.Pairwise fun t t' => t' ≤ t
  past : ∀ t ∈ s.dispatchTimes, t ≤ s.now

/-- A step adds the time of its event to the history and no other. -/
theorem State.dispatchTimes_step {sim : Simulation} {policy : RoutingPolicy} {s : State}
    {e : Event} {queue : EventQueue} :
    ((s.advance e queue).dispatch sim policy e.body).dispatchTimes = e.time :: s.dispatchTimes := by
  have hadv : (s.advance e queue).dispatchTimes = e.time :: s.dispatchTimes := by
    unfold State.dispatchTimes
    rw [advance_trace]
    exact List.filterMap_cons_some rfl
  have hoffer : ∀ (s : State) (p : PortId) (x : Packet),
      (s.enqueue sim p x).dispatchTimes = s.dispatchTimes := by
    intro s p x
    unfold State.dispatchTimes
    obtain ⟨room, h⟩ := enqueue_trace sim s p x
    rw [h]
    exact List.filterMap_cons_none rfl
  rw [← hadv]
  rcases dispatch_cases sim policy (s.advance e queue) e.body with
    ⟨p, -, heq⟩ | ⟨p, x, -, -, heq⟩ | ⟨f, s₁, -, -, htr, -, -, -, -, -, hm, -⟩
  · rw [heq]
    rcases onTxComplete_cases sim (s.advance e queue) p with ⟨-, h⟩ | ⟨-, h⟩ <;> rw [h] <;> rfl
  · rw [heq, hoffer]
  · have h₁ : s₁.dispatchTimes = (s.advance e queue).dispatchTimes :=
      congrArg (List.filterMap Obs.dispatchTime) htr
    rw [← h₁]
    refine hm.preserve (P := fun s' => s'.dispatchTimes = s₁.dispatchTimes) ?_ rfl
    intro s₂ s₃ hm ih
    rw [← ih]
    rcases hm.net with ⟨-, -, -, -, l, hl, hrel⟩ | ⟨s₄, x, -, -, -, -, htr, rfl⟩
    · -- releases carry no event
      have hnone : l.filterMap Obs.dispatchTime = [] := by
        rw [List.filterMap_eq_nil_iff]
        intro o ho
        obtain ⟨t, g, d, rfl⟩ := hrel o ho
        rfl
      unfold State.dispatchTimes
      rw [hl, List.filterMap_append, hnone, List.nil_append]
    · rw [hoffer]
      unfold State.dispatchTimes
      rw [htr]
      exact List.filterMap_cons_none rfl

/-- What a step adds to the history besides the dispatch of its event is no dispatch. -/
theorem State.step_trace {sim : Simulation} {policy : RoutingPolicy} {s : State} (e : Event)
    (queue : EventQueue) : ∃ l, ((s.advance e queue).dispatch sim policy e.body).trace =
      l ++ .dispatched e :: s.trace ∧ ∀ o ∈ l, Obs.dispatchTime o = none := by
  obtain ⟨l, hl⟩ := dispatch_trace sim policy (s.advance e queue) e.body
  have htimes : ((s.advance e queue).dispatch sim policy e.body).dispatchTimes =
      e.time :: s.dispatchTimes := dispatchTimes_step
  have hself : Obs.dispatchTime (.dispatched e) = some e.time := rfl
  refine ⟨l, by rw [hl, advance_trace], List.filterMap_eq_nil_iff.mp ?_⟩
  unfold State.dispatchTimes at htimes
  rw [hl, advance_trace, List.filterMap_append, List.filterMap_cons_some hself] at htimes
  have hlen := congrArg List.length htimes
  rw [List.length_append] at hlen
  exact List.length_eq_zero_iff.mp (by omega)

theorem Forward.step {sim : Simulation} {policy : RoutingPolicy} {s : State} (h : Forward s)
    {e : Event} {queue : EventQueue} (hnow : s.now ≤ e.time) :
    Forward ((s.advance e queue).dispatch sim policy e.body) := by
  have hpast : ∀ t ∈ s.dispatchTimes, t ≤ e.time := fun t ht => (h.past t ht).trans hnow
  have htimes : ((s.advance e queue).dispatch sim policy e.body).dispatchTimes =
      e.time :: s.dispatchTimes := dispatchTimes_step
  refine ⟨?_, ?_⟩
  · rw [htimes]
    exact List.pairwise_cons.mpr ⟨hpast, h.falling⟩
  · rw [htimes, dispatch_now]
    intro t ht
    rcases List.mem_cons.mp ht with rfl | ht
    · exact le_rfl
    · exact hpast t ht

theorem Simulation.Reachable.forward {sim : Simulation} {policy : RoutingPolicy} {s : State}
    (hs : sim.Reachable policy s) (hw : s.wrapped = false) : Forward s := by
  refine Simulation.Reachable.invariant (P := fun s => s.wrapped = false → Forward s) ?_ ?_ hs hw
  · exact fun leftover _ => ⟨List.Pairwise.nil, fun t ht => absurd ht List.not_mem_nil⟩
  · intro s e queue hs ih hpop hw
    have hold := step_unwrapped hs.coherent hpop hw
    exact (ih hold).step ((hs.onTime hold).advance hpop).1

/-- Virtual time never runs backwards in a run whose times have not wrapped: the
times of the events taken so far rise, and the next event is not in the past.
Any fabric, flow set, transport and policy; the packets are those of the code as
long as 32 bits index them (`Simulation.Fits`). -/
theorem virtual_time_monotone (sim : Simulation) (policy : RoutingPolicy) {s : State}
    (hs : sim.Reachable policy s) (hw : s.wrapped = false) :
    (s.dispatchTimes.Pairwise fun t t' => t' ≤ t) ∧
      ∀ e queue, s.queue.pop = some (e, queue) → s.now ≤ e.time :=
  ⟨(hs.forward hw).falling, fun _ _ hpop => ((hs.onTime hw).advance hpop).1⟩

/-- Two hosts on a leaf, after the whole run. -/
theorem virtual_time_monotone_pair :
    Pair.last.dispatchTimes.Pairwise fun t t' => t' ≤ t :=
  (virtual_time_monotone Pair.simulation StaticFirstPolicy
    ((Simulation.Reachable.begin _).runFor 100) Pair.last_unwrapped).1

namespace Pair

/-- The longest timeout that `rto_ns` holds. -/
def patient : Simulation :=
  { simulation with transport := { rtoNs := 2 ^ 64 - 1 } }

/-- Both packets are sent, the second at 120 ns: its timer is set for 119 ns. -/
def wrappedState : State := (patient.beginRun fresh).runFor patient StaticFirstPolicy 3

theorem patient_accepted : patient.transport.Accepted :=
  ⟨by decide, by decide, by decide, by decide, by decide⟩

end Pair

/-- An admitted configuration whose fourth event is earlier than its third. -/
theorem virtual_time_wraps :
    ¬ ∀ (sim : Simulation) (policy : RoutingPolicy) (s : State), sim.Routed →
      sim.transport.Accepted → policy.Member → sim.Reachable policy s →
      ∀ e queue, s.queue.pop = some (e, queue) → s.now ≤ e.time := by
  intro h
  have hpast : Pair.wrappedState.queue.pop.any
      (fun r => decide (r.1.time < Pair.wrappedState.now)) = true := by
    unfold Pair.wrappedState
    decide +kernel
  obtain ⟨⟨e, queue⟩, hpop, hlt⟩ := (Option.any_eq_true _ _).mp hpast
  have hle := h Pair.patient StaticFirstPolicy Pair.wrappedState
    ⟨⟨Pair.routed.built, Pair.routed.connected, Pair.routed.singlePort, Pair.routed.routes⟩,
      Pair.routed.counted⟩
    Pair.patient_accepted staticFirst_member ((Simulation.Reachable.begin _).runFor 3) e queue hpop
  exact absurd hle (not_le.mpr (of_decide_eq_true hlt))

end FabricSim
