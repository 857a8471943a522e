import FabricSim.Core.Headcount
import FabricSim.Core.Journey
import FabricSim.Core.RoutingSafety

/-!
# What a live timer tells

A timer that fires for a packet that is neither acked nor on a later attempt was
set by the transmission of that very attempt (`Armed`). If the data packet came
through, it was answered when it arrived, and if the ack came through, the packet
is acked (`Answered`). So one of the two is still on its way or was dropped, and
when the timeout covers a full queue at every link both ways, none is still on
its way (`live_timer`).
-/

namespace FabricSim

open State

/-- Every pending timer was set by a transmission, one timeout ago. -/
def Armed (sim : Simulation) (s : State) : Prop :=
  ∀ e ∈ s.queue.agenda, ∀ f idx a, e.body = .timeout f idx a →
    ∃ b ∈ s.emissions, b.2.kind = .data ∧ b.2.flow = f ∧ b.2.index = idx ∧ b.2.attempt = a ∧
      e.time = b.1 + sim.transport.rtoNs

namespace Armed

variable {sim : Simulation} {policy : RoutingPolicy} {s s' : State} {f : FlowId}

/-- A step that sets no timer. -/
theorem congr (h : Armed sim s)
    (hq : ∀ e ∈ s'.queue.agenda, ∀ f idx a, e.body = .timeout f idx a → e ∈ s.queue.agenda)
    (hem : ∀ b ∈ s.emissions, b ∈ s'.emissions) : Armed sim s' := by
  intro e he f idx a hb
  obtain ⟨b, hmem, hrest⟩ := h e (hq e he f idx a hb) f idx a hb
  exact ⟨b, hem b hmem, hrest⟩

/-- A step that schedules one event, which is no timer. -/
theorem push (h : Armed sim s) {t : Nat} {b : EventBody} (hq : s'.queue = s.queue.push t b)
    (hb : ∀ f idx a, b ≠ .timeout f idx a) (hem : s'.emissions = s.emissions) : Armed sim s' := by
  refine h.congr ?_ ?_
  · intro e he f idx a hbody
    rw [hq] at he
    rcases EventQueue.mem_agenda_push.mp he with rfl | he
    · exact absurd hbody (hb f idx a)
    · exact he
  · rw [hem]
    exact fun _ hx => hx

theorem enqueue (h : Armed sim s) (p : PortId) (x : Packet) : Armed sim (s.enqueue sim p x) := by
  rcases enqueue_queue sim s p x with hq | ⟨t, hq⟩
  · refine h.congr ?_ ?_
    · rw [hq]
      exact fun e he _ _ _ _ => he
    · rw [emissions_enqueue]
      exact fun _ hx => hx
  · exact h.push hq (fun _ _ _ => by simp) (emissions_enqueue sim s p x)

theorem micro (h : Armed sim s) (hm : Micro sim f s s') (hc : s.Coherent)
    (hw : s'.wrapped = false) : Armed sim s' := by
  cases hm with
  | send idx =>
    obtain ⟨-, -, hrto⟩ := sendPacket_unwrapped hc hw
    have hem := emissions_sendPacket sim s f idx
    intro e he g i a hb
    rw [hem]
    -- the offer to the NIC sets no timer, so it is an old one or the one just set
    have hold : e = ⟨u64 (s.now + sim.transport.rtoNs), e.seq, .timeout f idx (s.pktAttempt f idx)⟩ ∨
        e ∈ s.queue.agenda := by
      unfold State.sendPacket at he
      rw [mem_agenda_enqueue _ _ _ _ (by rw [hb]; simp)] at he
      simp only [log_queue, pushAfter_queue, markSent_queue, markSent_now] at he
      rcases EventQueue.mem_agenda_push.mp he with rfl | he
      · exact Or.inl rfl
      · exact Or.inr he
    rcases hold with heq | he
    · rw [heq] at hb ⊢
      obtain ⟨rfl, rfl, rfl⟩ : f = g ∧ idx = i ∧ s.pktAttempt f idx = a := by simpa using hb
      exact ⟨_, List.mem_cons_self .., rfl, rfl, rfl, rfl, u64_of_lt hrto⟩
    · obtain ⟨b, hmem, hrest⟩ := h e he g i a hb
      exact ⟨b, List.mem_cons_of_mem _ hmem, hrest⟩
  | ack idx a =>
    have hlog : Armed sim (((s.modifyStats fun st =>
        { st with ackBytesInjected := st.ackBytesInjected + sim.transport.ackBytes }).nextSerial).log
          (.emitted s.now (ackPacket sim s f idx a))) := by
      refine h.congr (fun e he _ _ _ _ => he) fun b hb => ?_
      exact List.mem_cons_of_mem _ hb
    exact hlog.enqueue _ _
  | tx u => exact h
  | pkt idx u => exact h
  | result u _ => exact h
  | attempt idx => exact h
  | ring slot idx => exact h
  | wake t _ => exact h.push rfl (fun _ _ _ => by simp) rfl
  | release d _ => exact h.push rfl (fun _ _ _ => by simp) (emissions_releaseFlow s f d)

theorem step (h : Armed sim s) (hs : sim.Reachable policy s) {e : Event} {queue : EventQueue}
    (hpop : s.queue.pop = some (e, queue))
    (hw : ((s.advance e queue).dispatch sim policy e.body).wrapped = false) :
    Armed sim ((s.advance e queue).dispatch sim policy e.body) := by
  have hadv : Armed sim (s.advance e queue) := by
    refine h.congr (fun e' he _ _ _ _ => ?_) (by rw [emissions_advance]; exact fun _ hx => hx)
    rw [EventQueue.agenda_of_pop hpop]
    exact List.mem_cons_of_mem _ he
  rcases dispatch_cases sim policy (s.advance e queue) e.body with
    ⟨p, hb, heq⟩ | ⟨p, x, -, -, heq⟩ | ⟨g, s₁, hnet, hnow, htr, -, hq, -, -, -, hm, hb⟩
  · rw [heq]
    have hoff : Armed sim ((s.advance e queue).sendOff sim p) :=
      hadv.push (sendOff_queue ..) (fun _ _ _ => by simp)
        (congrArg (List.filterMap Obs.emission) (sendOff_trace ..))
    rcases onTxComplete_cases sim (s.advance e queue) p with ⟨-, h'⟩ | ⟨-, h'⟩
    · rw [h']
      exact hoff
    · rw [h']
      exact hoff.push (startTx_queue ..) (fun _ _ _ => by simp)
        (congrArg (List.filterMap Obs.emission) (startTx_trace ..))
  · rw [heq]
    exact hadv.enqueue _ _
  · have hc : (s.advance e queue).Coherent := by
      refine hs.coherent.advance hpop ?_
      rcases hb with hb | ⟨idx, a, hb⟩ | ⟨p, x, hb, -, -⟩ <;> simp [hb]
    have h₁ : Armed sim s₁ := by
      refine hadv.congr ?_ ?_
      · rw [hq]
        exact fun e he _ _ _ _ => he
      · unfold State.emissions
        rw [htr]
        exact fun _ hx => hx
    have htime := (hs.onTime (step_unwrapped hs.coherent hpop hw)).advance hpop
    exact (hm.timely (hnet.coherent hc) (htime.2.of_netEq hnet hq hnow) h₁
      (fun _ _ hm hc _ hw h => h.micro hm hc hw) hw).2.2

end Armed

theorem Simulation.Reachable.armed {sim : Simulation} {policy : RoutingPolicy} {s : State}
    (h : sim.Reachable policy s) (hw : s.wrapped = false) : Armed sim s := by
  refine Simulation.Reachable.invariant (P := fun s => s.wrapped = false → Armed sim s) ?_ ?_ h hw
  · intro leftover _ e he f idx a hb
    obtain ⟨g, -, -, hinject, -⟩ := Simulation.mem_agenda_beginRun leftover he
    rw [hinject] at hb
    exact absurd hb (by simp)
  · exact fun s e queue hs ih hpop hw' =>
      (ih (step_unwrapped hs.coherent hpop hw')).step hs hpop hw'

/-! ## Acks that came through -/

namespace State

variable {sim : Simulation} {policy : RoutingPolicy} {s : State} {f g : FlowId}

theorem acked_modifyPkt (s : State) (g : FlowId) (idx : Nat) {u : PktState → PktState}
    (hu : ∀ st, (u st).acked = st.acked) (f : FlowId) (i : Nat) :
    ((s.modifyPkt g idx u).pkt f i).acked = (s.pkt f i).acked := by
  by_cases hf : f = g
  · subst hf
    by_cases hi : i = idx
    · subst hi
      simp [hu]
    · simp [hi]
  · simp [hf]

theorem acked_sendPacket (sim : Simulation) (s : State) (g : FlowId) (idx : Nat) (f : FlowId)
    (i : Nat) : ((s.sendPacket sim g idx).pkt f i).acked = (s.pkt f i).acked := by
  rw [sendPacket_pkt]
  exact acked_modifyPkt s g idx (u := fun st => { st with inFlight := true }) (fun _ => rfl) f i

theorem acked_trySend (s : State) (g f : FlowId) (i : Nat) :
    ((s.trySend sim g).pkt f i).acked = (s.pkt f i).acked := by
  refine trySend_rule (P := fun s' => (s'.pkt f i).acked = (s.pkt f i).acked)
    (Q := fun s' => (s'.pkt f i).acked = (s.pkt f i).acked) (fun _ h _ => h) ?_ ?_ ?_ ?_
    (fun _ => rfl) rfl
  · intro s' h _ _
    unfold waitTurn
    split <;> exact h
  · exact fun _ _ _ h _ _ _ => h
  · intro s' idx head count h _ _ _
    rw [acked_sendPacket]
    exact h
  · intro s' head count h _ _ _ _
    rw [acked_sendPacket]
    exact h

theorem acked_land (s : State) (g : FlowId) (idx : Nat) (f : FlowId) (i : Nat) :
    ((s.land g idx).pkt f i).acked = (s.pkt f i).acked := by
  unfold land
  split
  · exact acked_modifyPkt s g idx (u := fun st => { st with inFlight := false }) (fun _ => rfl) f i
  · rfl

/-- An ack is noted, and nothing that was noted is forgotten. -/
theorem acked_onAck (s : State) (g : FlowId) (idx : Nat) (f : FlowId) (i : Nat)
    (h : (s.pkt f i).acked = true ∨ f = g ∧ i = idx) :
    ((s.onAck sim g idx).pkt f i).acked = true := by
  unfold onAck
  split
  · next hacked =>
    rcases h with h | ⟨rfl, rfl⟩
    · exact h
    · exact hacked
  · rw [acked_trySend, acked_land]
    by_cases hf : f = g
    · subst hf
      by_cases hi : i = idx
      · subst hi
        simp
      · simpa [hi] using h
    · simpa [hf] using h

theorem acked_onTimeout (s : State) (g : FlowId) (idx a : Nat) (f : FlowId) (i : Nat) :
    ((s.onTimeout sim g idx a).pkt f i).acked = (s.pkt f i).acked := by
  unfold onTimeout
  split
  · rfl
  · split
    · rfl
    · split
      · rfl
      · split
        · exact acked_land s g idx f i
        · rw [acked_trySend]
          exact acked_land s g idx f i

theorem acked_onDataArrival (s : State) (g : FlowId) (idx bytes a : Nat) (f : FlowId) (i : Nat) :
    ((s.onDataArrival sim g idx bytes a).pkt f i).acked = (s.pkt f i).acked := by
  have hdeliver : ∀ s : State, ((s.deliver sim g idx bytes).pkt f i).acked = (s.pkt f i).acked := by
    intro s
    have hmark := acked_modifyPkt s g idx (u := fun st => { st with delivered := true })
      (fun _ => rfl) f i
    unfold deliver
    dsimp only
    split
    · rw [Books.delivered_completeFlow]
      exact hmark
    · exact hmark
  rw [onDataArrival_eq]
  unfold sendAck
  rw [enqueue_pkt]
  show ((if _ then _ else _ : State).pkt f i).acked = _
  split
  · rfl
  · exact hdeliver _

/-- What was acked stays so. -/
theorem acked_dispatch (s : State) (b : EventBody) (f : FlowId) (i : Nat)
    (h : (s.pkt f i).acked = true) : ((s.dispatch sim policy b).pkt f i).acked = true := by
  cases b with
  | inject g =>
    show ((s.onInject sim g).pkt f i).acked = true
    unfold onInject
    rw [acked_trySend]
    exact h
  | txComplete p =>
    show ((s.onTxComplete sim p).pkt f i).acked = true
    rcases onTxComplete_cases sim s p with ⟨-, h'⟩ | ⟨-, h'⟩
    · rw [h']
      exact h
    · rw [h']
      exact h
  | timeout g idx a =>
    show ((s.onTimeout sim g idx a).pkt f i).acked = true
    rw [acked_onTimeout]
    exact h
  | arrive p x =>
    show ((s.onArrive sim policy p x).pkt f i).acked = true
    cases hh : (sim.fabric.node (sim.fabric.port p).peerNode).isHost with
    | false =>
      rw [onArrive_switch hh, enqueue_pkt]
      exact h
    | true =>
      cases hk : x.kind with
      | data =>
        rw [onArrive_data hh hk, acked_onDataArrival]
        exact h
      | ack =>
        rw [onArrive_ack hh hk]
        exact acked_onAck _ _ _ f i (Or.inl h)

end State

/-- A data packet that arrived was answered then with an ack of its attempt, and
an ack that arrived is noted. -/
structure Answered (sim : Simulation) (s : State) : Prop where
  data : ∀ e, .dispatched e ∈ s.trace → ∀ p x, e.body = .arrive p x →
    (sim.fabric.node (sim.fabric.port p).peerNode).isHost = true → x.kind = .data →
    ∃ z, (e.time, z) ∈ s.emissions ∧ z.kind = .ack ∧ z.flow = x.flow ∧ z.index = x.index ∧
      z.tag.attempt = x.tag.attempt
  ack : ∀ e, .dispatched e ∈ s.trace → ∀ p x, e.body = .arrive p x →
    (sim.fabric.node (sim.fabric.port p).peerNode).isHost = true → x.kind = .ack →
    (s.pkt x.flow x.index).acked = true

namespace Answered

variable {sim : Simulation} {policy : RoutingPolicy} {s : State}

theorem step (h : Answered sim s) (e : Event) (queue : EventQueue) :
    Answered sim ((s.advance e queue).dispatch sim policy e.body) where
  data := by
    intro e' he p x hb hh hk
    rcases mem_dispatched_step he with rfl | he
    · rw [hb]
      show ∃ z, (_, z) ∈ ((s.advance e' queue).onArrive sim policy p x).emissions ∧ _
      rw [onArrive_data hh hk, onDataArrival_eq, emissions_sendAck]
      refine ⟨_, List.mem_cons.mpr (Or.inl (Prod.ext ?_ rfl)), rfl, rfl, rfl, rfl⟩
      split
      · rfl
      · exact (deliver_now ((s.advance e' queue).countDelivered x.bytes) x.flow x.index x.bytes).symm
    · obtain ⟨z, hz, hrest⟩ := h.data e' he p x hb hh hk
      exact ⟨z, mem_emissions.mpr (mem_trace_step (mem_emissions.mp hz)), hrest⟩
  ack := by
    intro e' he p x hb hh hk
    rcases mem_dispatched_step he with rfl | he
    · rw [hb]
      show (((s.advance e' queue).onArrive sim policy p x).pkt x.flow x.index).acked = true
      rw [onArrive_ack hh hk]
      exact acked_onAck _ _ _ _ _ (Or.inr ⟨rfl, rfl⟩)
    · exact acked_dispatch _ _ _ _ (h.ack e' he p x hb hh hk)

end Answered

theorem Simulation.Reachable.answered {sim : Simulation} {policy : RoutingPolicy} {s : State}
    (h : sim.Reachable policy s) : Answered sim s :=
  Simulation.Reachable.invariant (P := Answered sim)
    (fun _ => ⟨fun _ he => absurd he List.not_mem_nil, fun _ he => absurd he List.not_mem_nil⟩)
    (fun _ e queue _ h _ => h.step e queue) h

/-! ## A live timer -/

/-- The packet of this emission was refused by a full queue. -/
def Dropped (s : State) (x : Packet) : Prop :=
  ∃ t p y, .offered t p y false ∈ s.trace ∧ y.core = x.core

/-- Packet `x` arrived at its receiver, which answered it with the ack `z`. -/
def AnsweredBy (sim : Simulation) (s : State) (x z : Packet) : Prop :=
  ∃ e p y, .dispatched e ∈ s.trace ∧ e.body = .arrive p y ∧
    (sim.fabric.node (sim.fabric.port p).peerNode).isHost = true ∧ y.core = x.core ∧
    (e.time, z) ∈ s.emissions ∧ z.kind = .ack ∧ z.flow = x.flow ∧ z.index = x.index ∧
    z.tag.attempt = x.tag.attempt

/-- Attempt `a` at the packet was made, and it or the ack it produced was
dropped. -/
def LostAttempt (sim : Simulation) (s : State) (f : FlowId) (idx a : Nat) : Prop :=
  ∃ t x, (t, x) ∈ s.emissions ∧ x.kind = .data ∧ x.flow = f ∧ x.index = idx ∧ x.attempt = a ∧
    (Dropped s x ∨ ∃ z, AnsweredBy sim s x z ∧ Dropped s z)

namespace State

variable {sim : Simulation} {policy : RoutingPolicy} {s : State} {p : PortId} {e : Event}
  {queue : EventQueue}

/-- The next event is the first one. -/
theorem le_of_mem_agenda (hpop : s.queue.pop = some (e, queue)) {e' : Event}
    (he' : e' ∈ s.queue.agenda) : e.time ≤ e'.time := by
  have hsorted := s.queue.agenda_pairwise
  rw [EventQueue.agenda_of_pop hpop] at he' hsorted
  rcases List.mem_cons.mp he' with rfl | he'
  · exact le_rfl
  · exact Event.time_le_of_key_le ((List.pairwise_cons.mp hsorted).1 e' he')

/-- No transmission ends before the next event. -/
theorem le_of_mem_sends (hpop : s.queue.pop = some (e, queue)) {d : Nat × Packet}
    (hd : d ∈ s.sends sim p) : e.time ≤ d.1 := by
  unfold sends at hd
  split at hd
  · exact absurd hd List.not_mem_nil
  · next c rest hcomp =>
    have hc : e.time ≤ c := by
      obtain ⟨e', he', heq⟩ := List.mem_filterMap.mp
        (show c ∈ s.queue.completions p by rw [hcomp]; exact List.mem_cons_self ..)
      have htime : c = e'.time := by
        unfold Event.completion at heq
        split at heq
        · split at heq
          · exact (Option.some.inj heq).symm
          · exact absurd heq (by simp)
        · exact absurd heq (by simp)
      rw [htime]
      exact le_of_mem_agenda hpop he'
    rcases List.mem_cons.mp hd with rfl | hd
    · exact hc
    · exact hc.trans ((Nat.le_add_right _ _).trans (FifoServer.le_of_mem_finish _ hd).1)

/-- No packet on a link reaches its end before the next event. -/
theorem le_of_mem_timed (hpop : s.queue.pop = some (e, queue)) {a : Nat × Packet}
    (ha : a ∈ s.timed sim p) : e.time ≤ a.1 := by
  unfold timed at ha
  rcases List.mem_append.mp ha with ha | ha
  · obtain ⟨e', he', heq⟩ := List.mem_filterMap.mp ha
    have htime : a.1 = e'.time := by
      unfold Event.arrival at heq
      split at heq
      · split at heq
        · exact (congrArg Prod.fst (Option.some.inj heq)).symm
        · exact absurd heq (by simp)
      · exact absurd heq (by simp)
    rw [htime]
    exact le_of_mem_agenda hpop he'
  · obtain ⟨d, hd, rfl⟩ := List.mem_map.mp ha
    exact (le_of_mem_sends hpop hd).trans (Nat.le_add_right _ _)

end State

/-- The links a packet has crossed are no more than those of its flow. -/
theorem OnWay.length_le {sim : Simulation} {p : PortId} {x : Packet} (h : OnWay sim p x) :
    (p :: x.tag.route).length ≤ sim.hops x.flow := by
  have hlen := h.trail.length_add_dist
  rw [sim.dist_source_target] at hlen
  omega

namespace Bounded

variable {sim : Simulation} {policy : RoutingPolicy} {bound : Nat} {s : State}

/-- A packet still on its way was emitted no longer ago than a jam of all its
links lasts. -/
theorem time_le_of_onLink (h : Bounded sim bound s) (hs : sim.Reachable policy s) {e : Event}
    {queue : EventQueue} (hpop : s.queue.pop = some (e, queue)) {p : PortId} {y : Packet}
    (hy : y ∈ s.onLink p) {b : Nat × Packet} (hb : b ∈ s.emissions) (hcore : y.core = b.2.core) :
    e.time ≤ b.1 + sim.jamNs bound y (p :: y.tag.route) := by
  rw [← map_snd_timed sim hs.coherent] at hy
  obtain ⟨a, ha, rfl⟩ := List.mem_map.mp hy
  obtain ⟨t, x₀, hmem, hcore₀, -, hhi⟩ := h.onLink p a ha
  have hserial := (Packet.core_inj (hcore₀.trans hcore)).2.2.2.2
  obtain rfl := hs.numbered.unique hmem hb hserial.1
  exact (le_of_mem_timed hpop ha).trans hhi

/-- Nor did one that arrived take longer. -/
theorem arrival_le (h : Bounded sim bound s) (hs : sim.Reachable policy s) {e : Event}
    (he : .dispatched e ∈ s.trace) {p : PortId} {y : Packet} (hbody : e.body = .arrive p y)
    {b : Nat × Packet} (hb : b ∈ s.emissions) (hcore : y.core = b.2.core) :
    e.time ≤ b.1 + sim.jamNs bound y (p :: y.tag.route) := by
  obtain ⟨t, x₀, hmem, hcore₀, -, hhi⟩ := h.arrived e he p y hbody
  have hserial := (Packet.core_inj (hcore₀.trans hcore)).2.2.2.2
  obtain rfl := hs.numbered.unique hmem hb hserial.1
  exact hhi

end Bounded

/-- The timeout covers a jam of every link on the way of a data packet and on the
way of its ack. -/
def Simulation.TimeoutCovers (sim : Simulation) (bound : Nat) : Prop :=
  ∀ x z : Packet, x.flow < sim.flowCount → z.flow = x.flow → x.bytes ≤ bound →
    z.bytes = sim.transport.ackBytes → ∀ l l' : List PortId,
    (∀ q ∈ l, q < sim.fabric.portCount) → l.length ≤ sim.hops x.flow →
    (∀ q ∈ l', q < sim.fabric.portCount) → l'.length ≤ sim.hops x.flow →
    sim.jamNs bound x l + sim.jamNs bound z l' < sim.transport.rtoNs

/-- A timer that fires for a packet not yet acked belongs to an attempt of which
the data packet or its ack was dropped. -/
theorem live_timer {sim : Simulation} {policy : RoutingPolicy} {s : State} {bound : Nat}
    (hs : sim.Reachable policy s) (hr : sim.Routed) (hm : policy.Member)
    (hw : s.wrapped = false)
    (hsize : ∀ x : Packet, x.flow < sim.flowCount → wireBytes sim x ≤ bound)
    (hcover : sim.TimeoutCovers bound) {e : Event} {queue : EventQueue}
    (hpop : s.queue.pop = some (e, queue)) {f : FlowId} {idx a : Nat}
    (hb : e.body = .timeout f idx a) (hack : (s.pkt f idx).acked = false) :
    LostAttempt sim s f idx a := by
  have hbounded := hs.bounded hsize hw
  have hmem : e ∈ s.queue.agenda := by
    rw [EventQueue.agenda_of_pop hpop]
    exact List.mem_cons_self ..
  obtain ⟨⟨t, x⟩, hx, hk, rfl, rfl, rfl, htime⟩ := hs.armed hw e hmem f idx a hb
  dsimp only at hk htime hack ⊢
  refine ⟨t, x, hx, hk, rfl, rfl, rfl, ?_⟩
  have hflow : x.flow < sim.flowCount := hs.inRange.emitted t x (mem_emissions.mp hx)
  have hxbytes : x.bytes ≤ bound := by
    rw [hs.numbered.bytes _ hx]
    exact hsize x hflow
  have hackbytes : (ackPacket sim s x.flow x.index x.attempt).bytes = sim.transport.ackBytes := rfl
  -- where the data packet is
  cases hs.fate hr hm t x (mem_emissions.mp hx) with
  | dropped t' p y ht' hcore => exact Or.inl ⟨t', p, y, ht', hcore⟩
  | onWay p y hy hcore =>
    obtain ⟨hfl, -, hby, -, -, -⟩ := Packet.core_inj hcore
    have hway := hs.onWay hr hm p y hy
    have hlate := hbounded.time_le_of_onLink hs hpop hy hx hcore
    have hjam := hcover y (ackPacket sim s x.flow x.index x.attempt) (hfl ▸ hflow) hfl.symm
      (hby ▸ hxbytes) hackbytes _ [] (hway.links_lt hr) hway.length_le
      (fun _ hq => absurd hq List.not_mem_nil) (Nat.zero_le _)
    dsimp only at hlate
    omega
  | arrived e' p y he' hb' hcore htarget hsafe hlinks =>
    right
    obtain ⟨hfl, hidx, hby, hkind, -, hatt⟩ := Packet.core_inj hcore
    have hhost : (sim.fabric.node (sim.fabric.port p).peerNode).isHost = true := by
      rw [htarget]
      exact (Simulation.ends_of_flow_lt hflow).2.1
    obtain ⟨z, hz, hzk, hzf, hzi, hza⟩ :=
      hs.answered.data e' he' p y hb' hhost (hkind.trans hk)
    refine ⟨z, ⟨e', p, y, he', hb', hhost, hcore, hz, hzk, hzf.trans hfl, hzi.trans hidx,
      hza.trans hatt⟩, ?_⟩
    have hway := hs.arrivals_onWay hr hm e' he' p y hb'
    have hfirst := hbounded.arrival_le hs he' hb' hx hcore
    have hzbytes : z.bytes = sim.transport.ackBytes := by
      rw [hs.numbered.bytes _ hz]
      unfold wireBytes
      dsimp only
      rw [hzk]
    -- where its ack is
    cases hs.fate hr hm e'.time z (mem_emissions.mp hz) with
    | dropped t' q w ht' hcore' => exact ⟨t', q, w, ht', hcore'⟩
    | onWay q w hwl hcore' =>
      obtain ⟨hwf, -, hwb, -, -, -⟩ := Packet.core_inj hcore'
      have hback := hs.onWay hr hm q w hwl
      have hlate := hbounded.time_le_of_onLink hs hpop hwl hz hcore'
      have hwy : w.flow = y.flow := hwf.trans hzf
      have hjam := hcover y w (hfl ▸ hflow) hwy (hby ▸ hxbytes) (hwb.trans hzbytes) _ _
        (hway.links_lt hr) hway.length_le (hback.links_lt hr) (hwy ▸ hback.length_le)
      dsimp only at hlate hfirst
      omega
    | arrived e'' q w he'' hb'' hcore' htarget' _ _ =>
      obtain ⟨hwf, hwi, -, hwk, -, -⟩ := Packet.core_inj hcore'
      have hhost' : (sim.fabric.node (sim.fabric.port q).peerNode).isHost = true := by
        rw [htarget']
        refine (Simulation.ends_of_flow_lt (x := z) ?_).2.1
        exact hs.inRange.emitted _ z (mem_emissions.mp hz)
      have hnoted := hs.answered.ack e'' he'' q w hb'' hhost' (hwk.trans hzk)
      rw [hwf, hzf, hfl, hwi, hzi, hidx, hack] at hnoted
      exact absurd hnoted (by simp)

end FabricSim
