import FabricSim.Core.Dependents
import FabricSim.Core.Network

/-!
# The network over a whole run

Four facts hold in every reachable state, whatever the fabric, the flows and the
policy: ports and schedule are coherent; every event and every packet belongs to
a flow of the simulation; the history only grows; and a packet at a link was put
there by an endpoint or forwarded there by a switch (`Reachable.located`, an
induction principle for properties of packets and the links they are at).
-/

namespace FabricSim

namespace State

variable {sim : Simulation} {policy : RoutingPolicy} {s : State} {e : Event} {queue : EventQueue}

/-! ## Taking an event -/

/-- Taking an event that ends no transmission keeps ports and schedule in
agreement. -/
theorem Coherent.advance (hs : s.Coherent) (hpop : s.queue.pop = some (e, queue))
    (hb : ∀ p, e.body ≠ .txComplete p) : (s.advance e queue).Coherent where
  idle := hs.idle
  tx := by
    intro q
    have hnone : e.completion q = none := by
      unfold Event.completion
      split
      · next p hp => exact absurd hp (hb p)
      · rfl
    have := hs.tx q
    rw [EventQueue.completions_of_pop hpop, hnone] at this
    exact this

theorem advance_finishing (hs : s.Coherent) (hpop : s.queue.pop = some (e, queue)) {p : PortId}
    (hb : e.body = .txComplete p) : (s.advance e queue).Finishing p := by
  have hp : e.completion p = some e.time := by
    unfold Event.completion
    rw [hb]
    exact if_pos rfl
  have hlen := hs.tx p
  rw [EventQueue.completions_of_pop hpop, hp] at hlen
  have hbusy : (s.port p).busy = true := by
    by_contra hne
    rw [if_neg hne] at hlen
    exact absurd hlen (by simp)
  rw [hbusy, if_pos rfl] at hlen
  refine ⟨hs.idle, hbusy, ?_, ?_⟩
  · show queue.completions p = []
    rw [← List.length_eq_zero_iff]
    simpa using hlen
  · intro q hq
    have hnone : e.completion q = none := by
      unfold Event.completion
      rw [hb]
      exact if_neg (Ne.symm hq)
    have := hs.tx q
    rw [EventQueue.completions_of_pop hpop, hnone] at this
    exact this

theorem onLink_advance_txComplete (hpop : s.queue.pop = some (e, queue)) {p : PortId}
    (hb : e.body = .txComplete p) (q : PortId) : (s.advance e queue).onLink q = s.onLink q := by
  have hnone : e.arrival q = none := by
    unfold Event.arrival
    rw [hb]
  unfold onLink wire
  rw [EventQueue.arrivals_of_pop hpop, hnone]
  rfl

/-- An arrival takes the first packet of its link. -/
theorem onLink_advance_arrive (hpop : s.queue.pop = some (e, queue)) {p : PortId} {pkt : Packet}
    (hb : e.body = .arrive p pkt) (q : PortId) :
    s.onLink q =
      if q = p then pkt :: (s.advance e queue).onLink q else (s.advance e queue).onLink q := by
  have harr : e.arrival q = if p = q then some (e.time, pkt) else none := by
    unfold Event.arrival
    rw [hb]
  unfold onLink wire
  rw [EventQueue.arrivals_of_pop hpop, harr]
  by_cases hqp : q = p
  · subst hqp
    rw [if_pos rfl, if_pos rfl]
    rfl
  · rw [if_neg (Ne.symm hqp), if_neg hqp]
    rfl

/-- The packet of an arrival is at the head of its link. -/
theorem mem_onLink_of_arrive (hpop : s.queue.pop = some (e, queue)) {p : PortId} {pkt : Packet}
    (hb : e.body = .arrive p pkt) : pkt ∈ s.onLink p := by
  rw [onLink_advance_arrive hpop hb, if_pos rfl]
  exact List.mem_cons_self ..

theorem netEq_countDelivered (s : State) (n : Nat) : NetEq s (s.countDelivered n) :=
  ⟨rfl, fun _ => rfl, fun _ => rfl⟩

theorem netEq_countAckDelivered (s : State) (n : Nat) : NetEq s (s.countAckDelivered n) :=
  ⟨rfl, fun _ => rfl, fun _ => rfl⟩

/-! ## One turn, seen from the network -/

/-- What a dispatch is to the network: a transmission that ends, a packet
forwarded, or endpoint operations of one flow after at most one arrival. -/
theorem dispatch_cases (sim : Simulation) (policy : RoutingPolicy) (s : State) (b : EventBody) :
    (∃ p, b = .txComplete p ∧ s.dispatch sim policy b = s.onTxComplete sim p) ∨
    (∃ p pkt, b = .arrive p pkt ∧
      (sim.fabric.node (sim.fabric.port p).peerNode).isHost = false ∧
      s.dispatch sim policy b = s.enqueue sim (nextPort sim policy s p pkt) (forwarded p pkt)) ∨
    ∃ f s₁, NetEq s s₁ ∧ s₁.now = s.now ∧ s₁.trace = s.trace ∧ s₁.serial = s.serial ∧
      s₁.queue = s.queue ∧ s₁.pkt = s.pkt ∧ s₁.tx = s.tx ∧ s₁.wrapped = s.wrapped ∧
      Micros sim f s₁ (s.dispatch sim policy b) ∧
      (b = .inject f ∨ (∃ idx a, b = .timeout f idx a) ∨ ∃ p pkt, b = .arrive p pkt ∧ pkt.flow = f ∧
        (sim.fabric.node (sim.fabric.port p).peerNode).isHost = true) := by
  cases b with
  | inject f =>
    exact Or.inr (Or.inr ⟨f, s, NetEq.refl s, rfl, rfl, rfl, rfl, rfl, rfl, rfl, onInject_micros s f,
      Or.inl rfl⟩)
  | txComplete p => exact Or.inl ⟨p, rfl, rfl⟩
  | timeout f idx a =>
    exact Or.inr (Or.inr ⟨f, s, NetEq.refl s, rfl, rfl, rfl, rfl, rfl, rfl, rfl,
      onTimeout_micros s f idx a, Or.inr (Or.inl ⟨idx, a, rfl⟩)⟩)
  | arrive p pkt =>
    cases hh : (sim.fabric.node (sim.fabric.port p).peerNode).isHost with
    | false => exact Or.inr (Or.inl ⟨p, pkt, rfl, hh, onArrive_switch hh⟩)
    | true =>
      refine Or.inr (Or.inr ?_)
      cases hk : pkt.kind with
      | data =>
        refine ⟨pkt.flow, s.countDelivered pkt.bytes, netEq_countDelivered s _, rfl, rfl, rfl, rfl,
          rfl, rfl, rfl, ?_, Or.inr (Or.inr ⟨p, pkt, rfl, rfl, hh⟩)⟩
        show Micros sim pkt.flow _ (s.onArrive sim policy p pkt)
        rw [onArrive_data hh hk]
        exact onDataArrival_micros s _ _ _ _
      | ack =>
        refine ⟨pkt.flow, s.countAckDelivered pkt.bytes, netEq_countAckDelivered s _, rfl, rfl, rfl,
          rfl, rfl, rfl, rfl, ?_, Or.inr (Or.inr ⟨p, pkt, rfl, rfl, hh⟩)⟩
        show Micros sim pkt.flow _ (s.onArrive sim policy p pkt)
        rw [onArrive_ack hh hk]
        exact onAck_micros _ _ _

theorem Coherent.step (hs : s.Coherent) (hpop : s.queue.pop = some (e, queue)) :
    ((s.advance e queue).dispatch sim policy e.body).Coherent := by
  rcases dispatch_cases sim policy (s.advance e queue) e.body with
    ⟨p, hb, h⟩ | ⟨p, pkt, hb, -, h⟩ | ⟨f, s₁, hnet, -, -, -, -, -, -, -, hm, hb⟩
  · rw [h]
    exact (advance_finishing hs hpop hb).onTxComplete
  · rw [h]
    exact (hs.advance hpop (by rw [hb]; simp)).enqueue _ _
  · refine hm.preserve (fun _ _ hm h => hm.coherent h) (hnet.coherent (hs.advance hpop ?_))
    rcases hb with hb | ⟨idx, a, hb⟩ | ⟨p, pkt, hb, -, -⟩ <;> simp [hb]

/-- Taking an event never puts a packet on a link. -/
theorem onLink_advance_subset (hpop : s.queue.pop = some (e, queue)) {p : PortId} {x : Packet}
    (hx : x ∈ (s.advance e queue).onLink p) : x ∈ s.onLink p := by
  unfold onLink wire at hx ⊢
  rw [EventQueue.arrivals_of_pop hpop]
  rcases List.mem_append.mp hx with hx | hx
  · refine List.mem_append_left _ ?_
    rw [List.map_append]
    exact List.mem_append_right _ hx
  · exact List.mem_append_right _ hx

/-! ## The history grows -/

theorem Micro.trace {f : FlowId} {s s' : State} (h : Micro sim f s s') :
    ∃ l, s'.trace = l ++ s.trace := by
  rcases h.net with ⟨-, -, -, -, l, hl, -⟩ | ⟨s₁, pkt, -, -, -, -, htr, rfl⟩
  · exact ⟨l, hl⟩
  · obtain ⟨room, h⟩ := enqueue_trace sim s₁ (nic sim pkt) pkt
    exact ⟨[_, _], by rw [h, htr]; rfl⟩

theorem Micros.trace {f : FlowId} {s s' : State} (h : Micros sim f s s') :
    ∃ l, s'.trace = l ++ s.trace := by
  refine h.preserve (P := fun s' => ∃ l, s'.trace = l ++ s.trace) ?_ ⟨[], rfl⟩
  rintro s₁ s₂ hm ⟨l, hl⟩
  obtain ⟨l', hl'⟩ := hm.trace
  exact ⟨l' ++ l, by rw [hl', hl, List.append_assoc]⟩

/-- A step adds to the history and never rewrites it. -/
theorem dispatch_trace (sim : Simulation) (policy : RoutingPolicy) (s : State) (b : EventBody) :
    ∃ l, (s.dispatch sim policy b).trace = l ++ s.trace := by
  rcases dispatch_cases sim policy s b with
    ⟨p, -, h⟩ | ⟨p, pkt, -, -, h⟩ | ⟨f, s₁, -, -, htr, -, -, -, -, -, hm, -⟩
  · rw [h]
    rcases onTxComplete_cases sim s p with ⟨-, h⟩ | ⟨-, h⟩ <;> rw [h]
    · exact ⟨[], rfl⟩
    · exact ⟨[], rfl⟩
  · rw [h]
    obtain ⟨room, h⟩ := enqueue_trace sim s (nextPort sim policy s p pkt) (forwarded p pkt)
    exact ⟨[_], h⟩
  · obtain ⟨l, hl⟩ := hm.trace
    exact ⟨l, by rw [hl, htr]⟩

/-- A handler works at one instant. -/
theorem dispatch_now (sim : Simulation) (policy : RoutingPolicy) (s : State) (b : EventBody) :
    (s.dispatch sim policy b).now = s.now := by
  rcases dispatch_cases sim policy s b with
    ⟨p, -, h⟩ | ⟨p, pkt, -, -, h⟩ | ⟨f, s₁, -, hnow, -, -, -, -, -, -, hm, -⟩
  · rw [h]
    rcases onTxComplete_cases sim s p with ⟨-, h⟩ | ⟨-, h⟩ <;> rw [h] <;> rfl
  · rw [h, enqueue_now]
  · refine (hm.preserve (P := fun s' => s'.now = s₁.now) ?_ rfl).trans hnow
    intro s₂ s₃ hm ih
    rcases hm.net with ⟨-, h, -⟩ | ⟨s₄, pkt, -, -, h, -, -, rfl⟩
    · exact h.trans ih
    · rw [enqueue_now, h, ih]

theorem mem_trace_step {o : Obs} (ho : o ∈ s.trace) :
    o ∈ ((s.advance e queue).dispatch sim policy e.body).trace := by
  obtain ⟨l, hl⟩ := dispatch_trace sim policy (s.advance e queue) e.body
  rw [hl]
  exact List.mem_append_right _ (List.mem_cons_of_mem _ ho)

/-- The only event a turn adds to the history is the one it took. -/
theorem mem_dispatched_step {e' : Event}
    (h : .dispatched e' ∈ ((s.advance e queue).dispatch sim policy e.body).trace) :
    e' = e ∨ .dispatched e' ∈ s.trace := by
  have hadv : .dispatched e' ∈ (s.advance e queue).trace → e' = e ∨ .dispatched e' ∈ s.trace := by
    intro h
    rw [advance_trace] at h
    exact (List.mem_cons.mp h).imp_left Obs.dispatched.inj
  rcases dispatch_cases sim policy (s.advance e queue) e.body with
    ⟨p, -, heq⟩ | ⟨p, pkt, -, -, heq⟩ | ⟨f, s₁, -, -, htr, -, -, -, -, -, hm, -⟩
  · rw [heq] at h
    refine hadv ?_
    rcases onTxComplete_cases sim (s.advance e queue) p with ⟨-, heq⟩ | ⟨-, heq⟩ <;>
      rw [heq] at h <;> exact h
  · rw [heq] at h
    obtain ⟨room, htr⟩ := enqueue_trace sim (s.advance e queue)
      (nextPort sim policy (s.advance e queue) p pkt) (forwarded p pkt)
    rw [htr] at h
    exact hadv (by simpa using h)
  · refine hm.preserve (P := fun s' => .dispatched e' ∈ s'.trace → e' = e ∨ .dispatched e' ∈ s.trace)
      ?_ (by rw [htr]; exact hadv) h
    intro s₂ s₃ hm ih h
    rcases hm.net with ⟨-, -, -, -, l, hl, hrel⟩ | ⟨s₄, pkt, -, -, -, -, htr, rfl⟩
    · rw [hl] at h
      rcases List.mem_append.mp h with h | h
      · obtain ⟨t, g, d, heq⟩ := hrel _ h
        exact absurd heq (by simp)
      · exact ih h
    · obtain ⟨room, he⟩ := enqueue_trace sim s₄ (nic sim pkt) pkt
      rw [he, htr] at h
      exact ih (by simpa using h)

/-! ## Where packets come from -/

theorem Micros.mem_onLink {f : FlowId} {s s' : State} (h : Micros sim f s s') (hs : s.Coherent) :
    ∀ p, ∀ x ∈ s'.onLink p, x ∈ s.onLink p ∨
      (p = nic sim x ∧ x.flow = f ∧ x.tag.route = [] ∧ ∃ t, .emitted t x ∈ s'.trace) := by
  refine (h.preserve (P := fun s' => s'.Coherent ∧ ∀ p, ∀ x ∈ s'.onLink p, x ∈ s.onLink p ∨
      (p = nic sim x ∧ x.flow = f ∧ x.tag.route = [] ∧ ∃ t, .emitted t x ∈ s'.trace)) ?_
      ⟨hs, fun _ _ => Or.inl⟩).2
  rintro s₁ s₂ hm ⟨hc, hl⟩
  refine ⟨hm.coherent hc, fun p x hx => ?_⟩
  have hkeep : ∀ {x}, (∃ t, Obs.emitted t x ∈ s₁.trace) → ∃ t, Obs.emitted t x ∈ s₂.trace := by
    rintro x ⟨t, ht⟩
    obtain ⟨l, hl⟩ := hm.trace
    exact ⟨t, by rw [hl]; exact List.mem_append_right _ ht⟩
  rcases hm.net with ⟨hnet, -⟩ | ⟨s₃, pkt, hnet, hfresh, -, -, htr, rfl⟩
  · rw [hnet.onLink] at hx
    exact (hl p x hx).imp_right fun ⟨h1, h2, h3, h4⟩ => ⟨h1, h2, h3, hkeep h4⟩
  · rw [onLink_enqueue sim (hnet.coherent hc).idle, hnet.onLink] at hx
    have hold : x ∈ s₁.onLink p → x ∈ s.onLink p ∨ (p = nic sim x ∧ x.flow = f ∧
        x.tag.route = [] ∧ ∃ t, .emitted t x ∈ (s₃.enqueue sim (nic sim pkt) pkt).trace) :=
      fun hx => (hl p x hx).imp_right fun ⟨h1, h2, h3, h4⟩ => ⟨h1, h2, h3, hkeep h4⟩
    split at hx
    · next hp =>
      rcases List.mem_append.mp hx with hx | hx
      · exact hold hx
      · obtain rfl := List.mem_singleton.mp hx
        refine Or.inr ⟨hp.1, hfresh.flow, hfresh.route, s₁.now, ?_⟩
        obtain ⟨room, h⟩ := enqueue_trace sim s₃ (nic sim x) x
        rw [h, htr]
        simp
    · exact hold hx

/-- After a step, a packet at a link was there before, has just been emitted,
or has just been forwarded. -/
theorem mem_onLink_step (hs : s.Coherent) (hpop : s.queue.pop = some (e, queue)) (p : PortId)
    (x : Packet) (hx : x ∈ ((s.advance e queue).dispatch sim policy e.body).onLink p) :
    x ∈ s.onLink p ∨
    (p = nic sim x ∧ x.tag.route = [] ∧
      ∃ t, .emitted t x ∈ ((s.advance e queue).dispatch sim policy e.body).trace) ∨
    ∃ p₀ pkt, e.body = .arrive p₀ pkt ∧ pkt ∈ s.onLink p₀ ∧
      (sim.fabric.node (sim.fabric.port p₀).peerNode).isHost = false ∧
      p = nextPort sim policy (s.advance e queue) p₀ pkt ∧ x = forwarded p₀ pkt := by
  rcases dispatch_cases sim policy (s.advance e queue) e.body with
    ⟨p₀, hb, h⟩ | ⟨p₀, pkt, hb, hsw, h⟩ | ⟨f, s₁, hnet, -, -, -, -, -, -, -, hm, hb⟩
  · rw [h] at hx
    have hx := (onLink_onTxComplete sim (advance_finishing hs hpop hb) p).mem_iff.mp hx
    exact Or.inl (onLink_advance_subset hpop hx)
  · rw [h, onLink_enqueue sim (hs.advance hpop (by rw [hb]; simp)).idle] at hx
    have hmem : pkt ∈ s.onLink p₀ := mem_onLink_of_arrive hpop hb
    split at hx
    · next hp =>
      rcases List.mem_append.mp hx with hx | hx
      · exact Or.inl (onLink_advance_subset hpop hx)
      · exact Or.inr (Or.inr ⟨p₀, pkt, hb, hmem, hsw, hp.1, List.mem_singleton.mp hx⟩)
    · exact Or.inl (onLink_advance_subset hpop hx)
  · have hc : (s.advance e queue).Coherent := by
      refine hs.advance hpop ?_
      rcases hb with hb | ⟨idx, a, hb⟩ | ⟨p, pkt, hb, -, -⟩ <;> simp [hb]
    rcases hm.mem_onLink (hnet.coherent hc) p x hx with hx | ⟨h1, -, h2, h3⟩
    · rw [hnet.onLink] at hx
      exact Or.inl (onLink_advance_subset hpop hx)
    · exact Or.inr (Or.inl ⟨h1, h2, h3⟩)

end State

namespace Simulation

open State

variable {sim : Simulation} {policy : RoutingPolicy}

/-- The initial events are the flows that wait on nothing. -/
theorem mem_agenda_beginRun (leftover : State) {e : Event}
    (he : e ∈ (sim.beginRun leftover).queue.agenda) :
    ∃ f, f < sim.flowCount ∧ (sim.spec f).dependsOn = none ∧ e.body = .inject f ∧
      e.time = (sim.spec f).startNs := by
  have hfold : ∀ (l : List Nat) (q : EventQueue), (∀ f ∈ l, f < sim.flowCount) →
      (∀ e ∈ q.agenda, ∃ f, f < sim.flowCount ∧ (sim.spec f).dependsOn = none ∧
        e.body = .inject f ∧ e.time = (sim.spec f).startNs) →
      ∀ e ∈ (l.foldl (fun q i => if (sim.spec i).dependsOn = none then
          q.push (sim.spec i).startNs (.inject i) else q) q).agenda,
        ∃ f, f < sim.flowCount ∧ (sim.spec f).dependsOn = none ∧ e.body = .inject f ∧
          e.time = (sim.spec f).startNs := by
    intro l
    induction l with
    | nil => intro q _ hq; exact hq
    | cons i l ih =>
      intro q hl hq
      rw [List.foldl_cons]
      refine ih _ (fun f hf => hl f (List.mem_cons_of_mem _ hf)) ?_
      split
      · next hd =>
        intro e he
        rcases EventQueue.mem_agenda_push.mp he with rfl | he
        · exact ⟨i, hl i (List.mem_cons_self ..), hd, rfl, rfl⟩
        · exact hq e he
      · exact hq
  exact hfold _ _ (fun f hf => List.mem_range.mp hf)
    (fun e he => absurd he (by rw [EventQueue.agenda_clear]; exact List.not_mem_nil)) e he

/-- Conversely each of them is there. -/
theorem inject_mem_beginRun (leftover : State) {f : FlowId} (hf : f < sim.flowCount)
    (hd : (sim.spec f).dependsOn = none) :
    ∃ e ∈ (sim.beginRun leftover).queue.agenda, e.body = .inject f := by
  have hfold : ∀ (l : List Nat) (q : EventQueue), (f ∈ l ∨ ∃ e ∈ q.agenda, e.body = .inject f) →
      ∃ e ∈ (l.foldl (fun q i => if (sim.spec i).dependsOn = none then
          q.push (sim.spec i).startNs (.inject i) else q) q).agenda, e.body = .inject f := by
    intro l
    induction l with
    | nil =>
      rintro q (h | h)
      · exact absurd h List.not_mem_nil
      · exact h
    | cons i l ih =>
      rintro q h
      rw [List.foldl_cons]
      refine ih _ ?_
      rcases h with h | ⟨e, he, hb⟩
      · rcases List.mem_cons.mp h with rfl | h
        · rw [if_pos hd]
          exact Or.inr ⟨_, EventQueue.mem_agenda_push.mpr (Or.inl rfl), rfl⟩
        · exact Or.inl h
      · refine Or.inr ⟨e, ?_, hb⟩
        split
        · exact EventQueue.mem_agenda_push.mpr (Or.inr he)
        · exact he
  exact hfold _ _ (Or.inl (List.mem_range.mpr hf))

theorem arrivals_beginRun (leftover : State) (p : PortId) :
    (sim.beginRun leftover).queue.arrivals p = [] := by
  unfold EventQueue.arrivals
  rw [List.filterMap_eq_nil_iff]
  intro e he
  obtain ⟨f, -, -, hb, -⟩ := mem_agenda_beginRun leftover he
  unfold Event.arrival
  rw [hb]

theorem completions_beginRun (leftover : State) (p : PortId) :
    (sim.beginRun leftover).queue.completions p = [] := by
  unfold EventQueue.completions
  rw [List.filterMap_eq_nil_iff]
  intro e he
  obtain ⟨f, -, -, hb, -⟩ := mem_agenda_beginRun leftover he
  unfold Event.completion
  rw [hb]

theorem onLink_beginRun (leftover : State) (p : PortId) :
    (sim.beginRun leftover).onLink p = [] := by
  unfold onLink wire
  rw [arrivals_beginRun]
  rfl

theorem Reachable.coherent {s : State} (h : sim.Reachable policy s) : s.Coherent := by
  refine h.invariant ?_ ?_
  · intro leftover
    refine ⟨fun p _ => BoundedFifo.toList_init _, fun p => ?_⟩
    rw [completions_beginRun]
    rfl
  · exact fun s e queue _ hs hpop => hs.step hpop

/-- A property of packets and the links they are at holds throughout a run if
steps keep it, emitted packets have it at their NIC, and forwarding keeps it. -/
theorem Reachable.located {N : State → PortId → Packet → Prop}
    (hmono : ∀ s s' p x, sim.Reachable policy s → sim.Step policy s s' → N s p x → N s' p x)
    (hemit : ∀ s t x, sim.Reachable policy s → .emitted t x ∈ s.trace → x.tag.route = [] →
      N s (nic sim x) x)
    (hforward : ∀ s e queue p pkt, sim.Reachable policy s → s.queue.pop = some (e, queue) →
      e.body = .arrive p pkt → N s p pkt →
      (sim.fabric.node (sim.fabric.port p).peerNode).isHost = false →
      N s (nextPort sim policy (s.advance e queue) p pkt) (forwarded p pkt))
    {s : State} (h : sim.Reachable policy s) : ∀ p, ∀ x ∈ s.onLink p, N s p x := by
  refine Reachable.invariant (P := fun s => ∀ p, ∀ x ∈ s.onLink p, N s p x) ?_ ?_ h
  · intro leftover p x hx
    rw [onLink_beginRun] at hx
    exact absurd hx List.not_mem_nil
  · intro s e queue hr hN hpop p x hx
    have hstep : sim.Step policy s _ := step_eq_some_iff.mpr ⟨e, queue, hpop, rfl⟩
    rcases mem_onLink_step hr.coherent hpop p x hx with hx | ⟨rfl, hroute, t, ht⟩ |
      ⟨p₀, pkt, hb, hmem, hsw, rfl, rfl⟩
    · exact hmono _ _ p x hr hstep (hN p x hx)
    · exact hemit _ t x (hr.next hstep) ht hroute
    · exact hmono _ _ _ _ hr hstep (hforward s e queue p₀ pkt hr hpop hb (hN p₀ pkt hmem) hsw)

theorem Step.trace {s s' : State} (h : sim.Step policy s s') {o : Obs} (ho : o ∈ s.trace) :
    o ∈ s'.trace := by
  obtain ⟨e, queue, -, rfl⟩ := step_eq_some_iff.mp h
  exact mem_trace_step ho

end Simulation

/-- What forwarding leaves of a packet. -/
def Packet.core (x : Packet) : Packet :=
  { x with attempt := 0, tag := { x.tag with route := [] } }

theorem Packet.core_inj {x y : Packet} (h : x.core = y.core) :
    x.flow = y.flow ∧ x.index = y.index ∧ x.bytes = y.bytes ∧ x.kind = y.kind ∧
      x.tag.serial = y.tag.serial ∧ x.tag.attempt = y.tag.attempt := by
  simp only [Packet.core, Packet.mk.injEq, Tag.mk.injEq] at h
  obtain ⟨h1, h2, h3, h4, -, h5, h6, -⟩ := h
  exact ⟨h1, h2, h3, h4, h5, h6⟩

namespace Simulation

open State

variable {sim : Simulation} {policy : RoutingPolicy}

/-- No packet comes out of nothing: one at a link was emitted. -/
theorem Reachable.genuine {s : State} (h : sim.Reachable policy s) :
    ∀ p, ∀ x ∈ s.onLink p, ∃ t x₀, .emitted t x₀ ∈ s.trace ∧ x₀.core = x.core := by
  refine Reachable.located (N := fun s _ x => ∃ t x₀, .emitted t x₀ ∈ s.trace ∧ x₀.core = x.core)
    ?_ ?_ ?_ h
  · rintro s s' p x - hstep ⟨t, x₀, ht, hx⟩
    exact ⟨t, x₀, hstep.trace ht, hx⟩
  · intro s t x _ ht _
    exact ⟨t, x, ht, rfl⟩
  · rintro s e queue p pkt - - - ⟨t, x₀, ht, hx⟩ -
    exact ⟨t, x₀, ht, hx⟩

end Simulation

end FabricSim
