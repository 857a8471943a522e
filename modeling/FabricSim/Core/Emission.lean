import FabricSim.Core.Transit

/-!
# Emissions

Every packet in the network was put there by an endpoint, at a time the history
records. Emissions are numbered upwards, so the serial number of a packet
identifies the one emission it comes from; and an endpoint gives each packet the
size its kind prescribes.
-/

namespace FabricSim

open State

/-- The emission an entry of the history records. -/
def Obs.emission : Obs → Option (Nat × Packet)
  | .emitted t x => some (t, x)
  | _ => none

/-- All emissions so far, latest first. -/
def State.emissions (s : State) : List (Nat × Packet) := s.trace.filterMap Obs.emission

namespace State

variable {sim : Simulation} {policy : RoutingPolicy} {s s' : State} {f : FlowId}

theorem mem_emissions {t : Nat} {x : Packet} : (t, x) ∈ s.emissions ↔ .emitted t x ∈ s.trace := by
  unfold emissions
  rw [List.mem_filterMap]
  constructor
  · rintro ⟨o, ho, heq⟩
    cases o with
    | emitted t' x' =>
      obtain ⟨rfl, rfl⟩ := Prod.mk.inj (Option.some.inj heq)
      exact ho
    | dispatched | offered | released => exact absurd heq (by simp [Obs.emission])
  · exact fun h => ⟨_, h, rfl⟩

theorem emissions_enqueue (sim : Simulation) (s : State) (p : PortId) (x : Packet) :
    (s.enqueue sim p x).emissions = s.emissions := by
  obtain ⟨room, h⟩ := enqueue_trace sim s p x
  unfold emissions
  rw [h]
  exact List.filterMap_cons_none rfl

theorem emissions_advance (e : Event) (queue : EventQueue) :
    (s.advance e queue).emissions = s.emissions := by
  unfold emissions
  rw [advance_trace]
  exact List.filterMap_cons_none rfl

theorem emissions_onTxComplete (sim : Simulation) (s : State) (p : PortId) :
    (s.onTxComplete sim p).emissions = s.emissions := by
  unfold emissions
  rcases onTxComplete_cases sim s p with ⟨-, h⟩ | ⟨-, h⟩ <;> rw [h] <;> rfl

/-- A new packet offered to a port is the latest emission. -/
theorem emissions_emit {x : Packet} {t : Nat} (htr : s'.trace = .emitted t x :: s.trace)
    (p : PortId) (y : Packet) : (s'.enqueue sim p y).emissions = (t, x) :: s.emissions := by
  rw [emissions_enqueue]
  unfold emissions
  rw [htr]
  exact List.filterMap_cons_some rfl

/-- Releases are no emissions. -/
theorem emissions_release {l : List Obs} (hl : s'.trace = l ++ s.trace)
    (hrel : ∀ o ∈ l, ∃ t g d, o = .released t g d) : s'.emissions = s.emissions := by
  have hnone : l.filterMap Obs.emission = [] := by
    rw [List.filterMap_eq_nil_iff]
    intro o ho
    obtain ⟨t, g, d, rfl⟩ := hrel o ho
    rfl
  unfold emissions
  rw [hl, List.filterMap_append, hnone, List.nil_append]

theorem emissions_sendPacket (sim : Simulation) (s : State) (f : FlowId) (idx : Nat) :
    (s.sendPacket sim f idx).emissions = (s.now, dataPacket sim s f idx) :: s.emissions := by
  obtain ⟨room, h⟩ := sendPacket_trace sim s f idx
  unfold emissions
  rw [h, List.filterMap_cons_none rfl]
  exact List.filterMap_cons_some rfl

theorem emissions_sendAck (sim : Simulation) (s : State) (f : FlowId) (idx a : Nat) :
    (s.sendAck sim f idx a).emissions = (s.now, ackPacket sim s f idx a) :: s.emissions := by
  unfold sendAck
  exact emissions_emit (s := s) rfl _ _

theorem emissions_releaseFlow (s : State) (g d : FlowId) :
    (releaseFlow g s d).emissions = s.emissions := by
  refine emissions_release (l := [.released s.now g d]) (by simp) fun o ho => ?_
  exact ⟨s.now, g, d, List.mem_singleton.mp ho⟩

/-- An endpoint operation emits nothing, or one packet. -/
theorem Micro.emissions (hm : Micro sim f s s') :
    (s'.emissions = s.emissions ∧ s'.serial = s.serial) ∨
    ∃ x, Fresh sim f s x ∧ s'.emissions = (s.now, x) :: s.emissions ∧ s'.serial = s.serial + 1 := by
  rcases hm.net with ⟨-, -, -, hserial, l, hl, hrel⟩ | ⟨s₁, x, -, hfresh, -, hserial, htr, rfl⟩
  · exact Or.inl ⟨emissions_release hl hrel, hserial⟩
  · exact Or.inr ⟨x, hfresh, emissions_emit htr _ _, by rw [enqueue_serial, hserial]⟩

end State

/-- Serial numbers rise along the emissions, and sizes are as prescribed. -/
structure Numbered (sim : Simulation) (s : State) : Prop where
  rising : s.emissions.Pairwise fun a b => b.2.tag.serial < a.2.tag.serial
  below : ∀ a ∈ s.emissions, a.2.tag.serial < s.serial
  bytes : ∀ a ∈ s.emissions, a.2.bytes = wireBytes sim a.2

namespace Numbered

variable {sim : Simulation} {policy : RoutingPolicy} {s s' : State} {f : FlowId}

theorem congr (h : Numbered sim s) (hem : s'.emissions = s.emissions)
    (hserial : s'.serial = s.serial) : Numbered sim s' := by
  constructor
  · rw [hem]
    exact h.rising
  · rw [hem, hserial]
    exact h.below
  · rw [hem]
    exact h.bytes

theorem micro (h : Numbered sim s) (hm : Micro sim f s s') : Numbered sim s' := by
  rcases hm.emissions with ⟨hem, hserial⟩ | ⟨x, hfresh, hem, hserial⟩
  · exact h.congr hem hserial
  · constructor
    · rw [hem, List.pairwise_cons]
      refine ⟨fun a ha => ?_, h.rising⟩
      show a.2.tag.serial < x.tag.serial
      rw [hfresh.serial]
      exact h.below a ha
    · intro a ha
      rw [hem] at ha
      rw [hserial]
      rcases List.mem_cons.mp ha with rfl | ha
      · exact Nat.lt_succ_of_le hfresh.serial.le
      · exact Nat.lt_succ_of_lt (h.below a ha)
    · intro a ha
      rw [hem] at ha
      rcases List.mem_cons.mp ha with rfl | ha
      · exact hfresh.bytes
      · exact h.bytes a ha

theorem step (h : Numbered sim s) (e : Event) (queue : EventQueue) :
    Numbered sim ((s.advance e queue).dispatch sim policy e.body) := by
  have hadv : Numbered sim (s.advance e queue) := h.congr (emissions_advance e queue) rfl
  rcases dispatch_cases sim policy (s.advance e queue) e.body with
    ⟨p, -, heq⟩ | ⟨p, x, -, -, heq⟩ | ⟨g, s₁, -, -, htr, hserial, -, -, -, -, hm, -⟩
  · rw [heq]
    refine hadv.congr (emissions_onTxComplete sim _ p) ?_
    rcases onTxComplete_cases sim (s.advance e queue) p with ⟨-, h⟩ | ⟨-, h⟩ <;> rw [h] <;> rfl
  · rw [heq]
    exact hadv.congr (emissions_enqueue sim _ _ _) (enqueue_serial ..)
  · refine hm.preserve (P := fun s' => Numbered sim s') (fun _ _ hm h => h.micro hm)
      (hadv.congr ?_ hserial)
    unfold State.emissions
    rw [htr]

/-- Two emissions with one serial number are one emission. -/
theorem unique (h : Numbered sim s) {a b : Nat × Packet} (ha : a ∈ s.emissions)
    (hb : b ∈ s.emissions) (hab : a.2.tag.serial = b.2.tag.serial) : a = b := by
  refine List.Pairwise.forall_of_forall_of_flip
    (R := fun a b : Nat × Packet => a.2.tag.serial = b.2.tag.serial → a = b)
    (fun _ _ _ => rfl) ?_ ?_ ha hb hab
  · exact h.rising.imp fun hlt heq => absurd heq hlt.ne'
  · exact h.rising.imp fun hlt heq => absurd heq hlt.ne

end Numbered

theorem Simulation.Reachable.numbered {sim : Simulation} {policy : RoutingPolicy} {s : State}
    (h : sim.Reachable policy s) : Numbered sim s :=
  Simulation.Reachable.invariant (P := Numbered sim)
    (fun _ => ⟨List.Pairwise.nil, fun _ hx => absurd hx List.not_mem_nil,
      fun _ hx => absurd hx List.not_mem_nil⟩)
    (fun _ _ _ _ h _ => h.step _ _) h

end FabricSim
