import FabricSim.Core.Clock
import FabricSim.Core.LinkServer

/-!
# What a full queue keeps waiting

A port holds as many packets as its queue has cells and the one it transmits. So by the
time a packet is accepted those more than that many places before it are gone
(`Reachable.departed_le`), whatever the others are.
-/

namespace FabricSim

open State FifoServer

namespace State

/-- What a handler makes a port accept it accepts now. -/
theorem accepted_dispatch (sim : Simulation) (policy : RoutingPolicy) (s : State) (b : EventBody)
    (p : PortId) : ∃ new, accepted (s.dispatch sim policy b).trace p = accepted s.trace p ++ new ∧
      ∀ a ∈ new, a.1 = s.now := by
  have hoffer : ∀ (s₁ : State) (q : PortId) (x : Packet), ∃ new,
      accepted (s₁.enqueue sim q x).trace p = accepted s₁.trace p ++ new ∧
        ∀ a ∈ new, a.1 = s₁.now := by
    intro s₁ q x
    rw [enqueue_trace_room]
    by_cases hq : q = p
    · subst hq
      rw [accepted_offered]
      split
      · refine ⟨[(s₁.now, x)], rfl, fun a ha => ?_⟩
        rw [List.mem_singleton.mp ha]
      · exact ⟨[], (List.append_nil _).symm, fun a ha => absurd ha List.not_mem_nil⟩
    · refine ⟨[], ?_, fun a ha => absurd ha List.not_mem_nil⟩
      rw [List.append_nil]
      exact (SamePort.other s₁.trace s₁.now x _ hq : SamePort 0 p _ _).accepted
  rcases dispatch_cases sim policy s b with
    ⟨q, -, heq⟩ | ⟨q, x, -, -, heq⟩ | ⟨f, s₁, -, hnow, htr, -, -, -, -, -, hm, -⟩
  · rw [heq, onTxComplete_trace]
    exact ⟨[], (List.append_nil _).symm, fun a ha => absurd ha List.not_mem_nil⟩
  · rw [heq]
    exact hoffer s _ _
  · refine (hm.preserve (P := fun s' => s'.now = s.now ∧ ∃ new,
      accepted s'.trace p = accepted s.trace p ++ new ∧ ∀ a ∈ new, a.1 = s.now) ?_
      ⟨hnow, [], by rw [htr, List.append_nil], fun a ha => absurd ha List.not_mem_nil⟩).2
    intro s₂ s₃ hm ⟨hnow₂, new, hnew, htimes⟩
    refine ⟨hm.now.trans hnow₂, ?_⟩
    rcases hm.net with ⟨-, -, -, -, l, hl, hrel⟩ | ⟨s₄, x, -, -, hnow₄, -, htr₄, rfl⟩
    · have hside : ∀ o ∈ l, o.Aside := by
        intro o ho
        obtain ⟨t, g, d, rfl⟩ := hrel o ho
        exact trivial
      refine ⟨new, ?_, htimes⟩
      rw [hl, (SamePort.aside 0 p s₂.trace hside).accepted]
      exact hnew
    · have hside : ∀ o ∈ [Obs.emitted s₂.now x], o.Aside := by simp [Obs.Aside]
      have hacc : accepted s₄.trace p = accepted s₂.trace p := by
        rw [htr₄]
        exact (SamePort.aside 0 p s₂.trace hside).accepted
      obtain ⟨more, hmore, htimes'⟩ := hoffer s₄ (nic sim x) x
      refine ⟨new ++ more, ?_, fun a ha => ?_⟩
      · rw [hmore, hacc, hnew, List.append_assoc]
      · rcases List.mem_append.mp ha with ha | ha
        · exact htimes a ha
        · exact (htimes' a ha).trans (hnow₄.trans hnow₂)

end State

namespace Simulation

variable {sim : Simulation} {policy : RoutingPolicy} {s : State}

theorem Reachable.finished_le (hs : sim.Reachable policy s) (hw : s.wrapped = false) {p : PortId}
    {t : Nat} (ht : t ∈ finished s.trace p) : t ≤ s.now := by
  apply (hs.forward hw).past
  unfold finished at ht
  obtain ⟨o, ho, heq⟩ := List.mem_filterMap.mp (List.mem_reverse.mp ht)
  refine List.mem_filterMap.mpr ⟨o, ho, ?_⟩
  cases o with
  | dispatched e =>
    have hcompletion : e.completion p = some t := heq
    unfold Event.completion at hcompletion
    split at hcompletion
    · split at hcompletion
      · exact hcompletion
      · nomatch hcompletion
    · nomatch hcompletion
  | _ => nomatch heq

/-- All but as many transmissions as fit the port have ended. -/
theorem Reachable.departed_now (hs : sim.Reachable policy s) (hw : s.wrapped = false) {p : PortId}
    {i : Nat} {d : Nat × Packet}
    (hi : i + (sim.fabric.port p).queueCapacity + 1 < (FabricSim.accepted s.trace p).length)
    (hd : (serve (sim.serNs p) 0 (FabricSim.accepted s.trace p))[i]? = some d) : d.1 ≤ s.now := by
  have hserved := hs.served hw p
  have hcount := (s.port p).queue.count_le
  rw [hserved.capacity] at hcount
  have hlen := congrArg List.length hserved.sent
  rw [List.length_map, length_serve, List.length_append, List.length_map,
    length_sends sim hs.coherent] at hlen
  have hfew : (if (s.port p).busy then (s.port p).queue.count + 1 else 0) ≤
      (sim.fabric.port p).queueCapacity + 1 := by
    split <;> omega
  have htime : ((serve (sim.serNs p) 0 (FabricSim.accepted s.trace p)).map Prod.fst)[i]? = _ :=
    congrArg (fun l : List Nat => l[i]?) hserved.sent
  rw [List.getElem?_map, hd, List.getElem?_append_left (by omega), Option.map_some] at htime
  exact hs.finished_le hw (List.mem_of_getElem? htime.symm)

/-- When a packet is accepted, those that found no place behind it are gone. -/
theorem Reachable.departed_le (hs : sim.Reachable policy s) (hw : s.wrapped = false) {p : PortId}
    {i j : Nat} {a d : Nat × Packet} (hij : i + (sim.fabric.port p).queueCapacity < j)
    (ha : (FabricSim.accepted s.trace p)[j]? = some a)
    (hd : (serve (sim.serNs p) 0 (FabricSim.accepted s.trace p))[i]? = some d) : d.1 ≤ a.1 := by
  refine Reachable.invariant (P := fun s => s.wrapped = false → ∀ a d,
    (FabricSim.accepted s.trace p)[j]? = some a →
      (serve (sim.serNs p) 0 (FabricSim.accepted s.trace p))[i]? = some d → d.1 ≤ a.1)
    (fun _ _ _ _ ha => nomatch ha) ?_ hs hw a d ha hd
  intro s e queue hs ih hpop hw a d ha hd
  have hnext := hs.next (step_eq_some_iff.mpr ⟨e, queue, hpop, rfl⟩)
  obtain ⟨new, hnew, htimes⟩ := accepted_dispatch sim policy (s.advance e queue) e.body p
  rw [advance_trace, accepted_dispatched] at hnew
  by_cases hold : j < (FabricSim.accepted s.trace p).length
  · rw [hnew, List.getElem?_append_left hold] at ha
    rw [hnew, serve_append, List.getElem?_append_left (by rw [length_serve]; omega)] at hd
    exact ih (step_unwrapped hs.coherent hpop hw) a d ha hd
  · -- a packet of this turn
    have ha' := ha
    rw [hnew, List.getElem?_append_right (by omega)] at ha'
    rw [htimes a (List.mem_of_getElem? ha')]
    have hlt := (List.getElem?_eq_some_iff.mp ha).1
    refine (hnext.departed_now hw (by omega) hd).trans ?_
    rw [dispatch_now]

end Simulation

end FabricSim
