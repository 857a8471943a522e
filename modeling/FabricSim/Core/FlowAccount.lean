import FabricSim.Core.Losses
import FabricSim.Core.Population
import FabricSim.Core.Retries
import FabricSim.Core.Unheard

/-!
# The account of one flow

Every packet that was emitted has arrived at its host, was refused by a queue, or is on a
link (`Balanced`); this is an equation, for any kind of packet that forwarding does not
change. A flow's own counters count what the history records of it (`Billed`): a drop is
billed to the flow of the data packet, a transmission that is not the first is a
retransmission. Put together, what a flow reports when the run is over says how many copies
its receiver threw away.
-/

namespace FabricSim

open State Finset

/-- How many such packets are on the links of the fabric. -/
def State.inNetwork (sim : Simulation) (s : State) (P : Packet → Bool) : Nat :=
  ∑ p ∈ range sim.fabric.portCount, (s.onLink p).countP P

/-! ## Where the packets are -/

section Balance

variable {sim : Simulation} {policy : RoutingPolicy} {s s' : State} {f : FlowId} {p : PortId}
  {x : Packet} {P : Packet → Bool} {hand : Nat} {e : Event} {queue : EventQueue}

/-- Every packet emitted is accounted for; `hand` of them are between two links. -/
def Balanced (sim : Simulation) (P : Packet → Bool) (s : State) (hand : Nat) : Prop :=
  (s.emissions.countP fun a => P a.2) =
    s.landings sim P + s.refusals.countP P + s.inNetwork sim P + hand

theorem refusals_full (sim : Simulation) (hfull : (s.port p).queue.count = (s.port p).queue.capacity)
    (x : Packet) : (s.enqueue sim p x).refusals = x :: s.refusals := by
  unfold refusals
  rw [enqueue_full sim s p x hfull, drop_trace, log_trace]
  exact List.filterMap_cons_some rfl

theorem refusals_room (sim : Simulation) (hroom : (s.port p).queue.count ≠ (s.port p).queue.capacity)
    (x : Packet) : (s.enqueue sim p x).refusals = s.refusals := by
  unfold refusals
  rcases enqueue_cases s p x sim with ⟨h, -⟩ | ⟨q, -, ⟨-, h⟩ | ⟨-, h⟩⟩
  · exact absurd h hroom
  · rw [h, modifyPort_trace, log_trace]
    exact List.filterMap_cons_none rfl
  · rw [h, startTx_trace, modifyPort_trace, log_trace]
    exact List.filterMap_cons_none rfl

/-- Neither a refusal nor an arrival. -/
theorem refusals_of_trace {l : List Obs} (htr : s'.trace = l ++ s.trace)
    (hl : ∀ o ∈ l, Obs.refused o = none) : s'.refusals = s.refusals := by
  unfold refusals
  rw [htr, List.filterMap_append, List.filterMap_eq_nil_iff.mpr hl, List.nil_append]

/-- A packet is emitted before it is offered. -/
theorem emissions_emitted {t : Nat} (htr : s'.trace = .emitted t x :: s.trace) :
    s'.emissions = (t, x) :: s.emissions := by
  unfold emissions
  rw [htr]
  exact List.filterMap_cons_some rfl

theorem refusals_emitted {t : Nat} (htr : s'.trace = .emitted t x :: s.trace) :
    s'.refusals = s.refusals := by
  unfold refusals
  rw [htr]
  exact List.filterMap_cons_none rfl

/-- The offer is refused, or the link has the packet. -/
theorem inNetwork_enqueue (hc : s.Coherent) (hp : p < sim.fabric.portCount) (x : Packet)
    (P : Packet → Bool) :
    (s.enqueue sim p x).inNetwork sim P + (s.enqueue sim p x).refusals.countP P =
      s.inNetwork sim P + s.refusals.countP P + (P x).toNat := by
  have hlink := onLink_enqueue sim hc.idle p x
  have hone : [x].countP P = (P x).toNat := by
    rw [← sum_map_toNat]
    rfl
  unfold inNetwork
  by_cases hfull : (s.port p).queue.count = (s.port p).queue.capacity
  · have hsame : ∀ q, (s.enqueue sim p x).onLink q = s.onLink q := by
      intro q
      rw [hlink, if_neg fun h => h.2 hfull]
    simp only [hsame]
    rw [refusals_full sim hfull, ← List.singleton_append, List.countP_append, hone]
    omega
  · have hsum := sum_range_of_change (F := fun q => (s.onLink q).countP P)
      (G := fun q => ((s.enqueue sim p x).onLink q).countP P) hp fun q hq => by
        rw [hlink, if_neg fun h => hq h.1]
    rw [hlink p, if_pos ⟨rfl, hfull⟩, List.countP_append, hone] at hsum
    rw [refusals_room sim hfull]
    omega

theorem landings_enqueue (sim : Simulation) (s : State) (p : PortId) (x : Packet)
    (P : Packet → Bool) : (s.enqueue sim p x).landings sim P = s.landings sim P := by
  obtain ⟨room, htr⟩ := enqueue_trace sim s p x
  unfold landings
  rw [htr, List.countP_cons_of_neg (by simp [Obs.lands])]

/-- A packet in hand is offered to a port. -/
theorem Balanced.enqueue (h : Balanced sim P s (hand + (P x).toNat)) (hc : s.Coherent)
    (hp : p < sim.fabric.portCount) : Balanced sim P (s.enqueue sim p x) hand := by
  have hmove := inNetwork_enqueue hc hp x P
  unfold Balanced at h ⊢
  rw [emissions_enqueue, landings_enqueue]
  omega

/-- A turn of the endpoints away from the network. -/
theorem Balanced.congr (h : Balanced sim P s hand) (hnet : NetEq s s') {l : List Obs}
    (htr : s'.trace = l ++ s.trace) (hl : ∀ o ∈ l, ∃ t g d, o = .released t g d) :
    Balanced sim P s' hand := by
  have hland : s'.landings sim P = s.landings sim P := by
    unfold landings
    rw [htr, List.countP_append, List.countP_eq_zero.mpr, Nat.zero_add]
    intro o ho
    obtain ⟨t, g, d, rfl⟩ := hl o ho
    simp [Obs.lands]
  have href : s'.refusals = s.refusals := by
    apply refusals_of_trace htr
    intro o ho
    obtain ⟨t, g, d, rfl⟩ := hl o ho
    rfl
  unfold Balanced inNetwork at h ⊢
  simp only [hnet.onLink]
  rw [emissions_release htr hl, hland, href]
  exact h

theorem Balanced.micro (h : Balanced sim P s 0) (hr : sim.Wired) (hf : f < sim.flowCount)
    (hc : s.Coherent) (hm : Micro sim f s s') : Balanced sim P s' 0 := by
  rcases hm.net with ⟨hnet, -, -, -, l, hl, hrel⟩ | ⟨s₁, x, hnet, hfresh, -, -, htr, rfl⟩
  · exact h.congr hnet hl hrel
  · have hway := AtPort.emitted hr (x := x) (hfresh.flow ▸ hf)
    refine Balanced.enqueue ?_ (hnet.coherent hc) (hway.port_lt hr)
    unfold Balanced inNetwork landings at h ⊢
    simp only [hnet.onLink]
    rw [emissions_emitted htr, List.countP_cons, h, refusals_emitted htr, htr, List.countP_cons_of_neg (by simp [Obs.lands])]
    cases P x <;> simp

theorem Balanced.micros (h : Balanced sim P s 0) (hr : sim.Wired) (hf : f < sim.flowCount)
    (hc : s.Coherent) (hm : Micros sim f s s') : Balanced sim P s' 0 :=
  (hm.preserve (P := fun s' => s'.Coherent ∧ Balanced sim P s' 0)
    (fun _ _ hm h => ⟨hm.coherent h.1, h.2.micro hr hf h.1 hm⟩) ⟨hc, h⟩).2

/-- A turn that takes no packet off a wire. -/
theorem Balanced.advance (h : Balanced sim P s 0) (hpop : s.queue.pop = some (e, queue))
    (hb : ∀ p x, e.body ≠ .arrive p x) : Balanced sim P (s.advance e queue) 0 := by
  have howed : (s.advance e queue).inNetwork sim P = s.inNetwork sim P := by
    have heq : (headcount sim P).owed sim (s.advance e queue) = (headcount sim P).owed sim s :=
      Tariff.owed_advance hpop hb
    rwa [owed_headcount, owed_headcount] at heq
  have hland : (s.advance e queue).landings sim P = s.landings sim P := by
    unfold landings
    rw [advance_trace, List.countP_cons_of_neg]
    unfold Obs.lands
    dsimp only
    split
    · next p x hbody => exact absurd hbody (hb p x)
    · exact Bool.false_ne_true
  have href : (s.advance e queue).refusals = s.refusals :=
    refusals_of_trace (l := [.dispatched e]) (advance_trace ..) fun o ho => by
      rw [List.mem_singleton.mp ho]
      rfl
  unfold Balanced at h ⊢
  rw [emissions_advance, h, howed, hland, href]

/-- An arrival takes its packet off the wire: it is at its host, or in hand. -/
theorem Balanced.advance_arrive (h : Balanced sim P s 0) (hpop : s.queue.pop = some (e, queue))
    (hb : e.body = .arrive p x) (hp : p < sim.fabric.portCount) :
    Balanced sim P (s.advance e queue)
      (if (sim.fabric.node (sim.fabric.port p).peerNode).isHost then 0 else (P x).toNat) := by
  have howed : s.inNetwork sim P = (s.advance e queue).inNetwork sim P + (P x).toNat := by
    have heq := Tariff.owed_advance_arrive (w := headcount sim P) sim hpop hb hp
    rwa [owed_headcount, owed_headcount] at heq
  have hlands : Obs.lands sim P (.dispatched e) =
      ((sim.fabric.node (sim.fabric.port p).peerNode).isHost && P x) := by
    unfold Obs.lands
    dsimp only
    rw [hb]
  have hland : (s.advance e queue).landings sim P = s.landings sim P +
      if (sim.fabric.node (sim.fabric.port p).peerNode).isHost then (P x).toNat else 0 := by
    unfold landings
    rw [advance_trace, List.countP_cons, hlands]
    cases (sim.fabric.node (sim.fabric.port p).peerNode).isHost <;> cases P x <;> rfl
  have href : (s.advance e queue).refusals = s.refusals :=
    refusals_of_trace (l := [.dispatched e]) (advance_trace ..) fun o ho => by
      rw [List.mem_singleton.mp ho]
      rfl
  unfold Balanced at h ⊢
  rw [emissions_advance, h, howed, hland, href]
  split <;> omega

theorem Balanced.step (h : Balanced sim P s 0) (hr : sim.Steered) (hm : policy.Member)
    (hP : ∀ p x, P (forwarded p x) = P x) (hs : sim.Reachable policy s)
    (hpop : s.queue.pop = some (e, queue)) :
    Balanced sim P ((s.advance e queue).dispatch sim policy e.body) 0 := by
  have he : e ∈ s.queue.agenda := by
    rw [EventQueue.agenda_of_pop hpop]
    exact List.mem_cons_self
  have hin := hs.inRange
  cases hb : e.body with
  | txComplete p =>
    have hfin := advance_finishing hs.coherent hpop hb
    have hadv := h.advance hpop (by rw [hb]; simp)
    show Balanced sim P ((s.advance e queue).onTxComplete sim p) 0
    have hlink : ((s.advance e queue).onTxComplete sim p).inNetwork sim P =
        (s.advance e queue).inNetwork sim P :=
      sum_congr rfl fun q _ => (onLink_onTxComplete sim hfin q).countP_eq P
    have htr := onTxComplete_trace sim (s.advance e queue) p
    unfold Balanced landings refusals at hadv ⊢
    rw [emissions_onTxComplete, hlink, htr]
    exact hadv
  | inject f =>
    exact (h.advance hpop (by rw [hb]; simp)).micros hr.toWired (hin.events e he f (by rw [hb]; rfl))
      (hs.coherent.advance hpop (by rw [hb]; simp)) (onInject_micros _ f)
  | timeout f idx a =>
    exact (h.advance hpop (by rw [hb]; simp)).micros hr.toWired (hin.events e he f (by rw [hb]; rfl))
      (hs.coherent.advance hpop (by rw [hb]; simp)) (onTimeout_micros _ f idx a)
  | arrive p x =>
    have hway := hs.atPort hr hm p x (mem_onLink_of_arrive hpop hb)
    have hc : (s.advance e queue).Coherent := hs.coherent.advance hpop (by rw [hb]; simp)
    have hadv := h.advance_arrive hpop hb (hway.port_lt hr.toWired)
    show Balanced sim P ((s.advance e queue).onArrive sim policy p x) 0
    cases hh : (sim.fabric.node (sim.fabric.port p).peerNode).isHost with
    | false =>
      rw [hh, if_neg Bool.false_ne_true, ← hP p x] at hadv
      rw [onArrive_switch hh]
      refine Balanced.enqueue ?_ hc ((hway.next hr hm hh).port_lt hr.toWired)
      rwa [Nat.zero_add]
    | true =>
      rw [hh, if_pos rfl] at hadv
      cases hk : x.kind with
      | data =>
        rw [onArrive_data hh hk]
        refine Balanced.micros (s := (s.advance e queue).countDelivered x.bytes) ?_ hr.toWired
          hway.flow_lt
          ((netEq_countDelivered _ _).coherent hc) (onDataArrival_micros _ _ _ _ _)
        exact hadv.congr (netEq_countDelivered _ _) (l := []) rfl fun _ ho => nomatch ho
      | ack =>
        rw [onArrive_ack hh hk]
        refine Balanced.micros (s := (s.advance e queue).countAckDelivered x.bytes) ?_ hr.toWired
          hway.flow_lt ((netEq_countAckDelivered _ _).coherent hc) (onAck_micros _ _ _)
        exact hadv.congr (netEq_countAckDelivered _ _) (l := []) rfl fun _ ho => nomatch ho

/-- Of the packets that `P` selects, those emitted are those that arrived, were refused or
are on a link. -/
theorem Simulation.Reachable.balanced (hs : sim.Reachable policy s) (hr : sim.Steered)
    (hm : policy.Member) (hP : ∀ p x, P (forwarded p x) = P x) :
    (s.emissions.countP fun a => P a.2) =
      s.landings sim P + s.refusals.countP P + s.inNetwork sim P := by
  refine Simulation.Reachable.invariant (P := fun s => Balanced sim P s 0) (fun leftover => ?_)
    (fun _ _ _ hs h hpop => h.step hr hm hP hs hpop) hs
  have hnone : (sim.beginRun leftover).inNetwork sim P = 0 := by
    unfold inNetwork
    refine sum_eq_zero fun p _ => ?_
    rw [Simulation.onLink_beginRun]
    rfl
  unfold Balanced
  rw [hnone]
  rfl

end Balance

/-! ## The counters of a flow -/

/-- How many packets of the flow a queue refused. -/
def State.losses (s : State) (f : FlowId) : Nat := s.refusals.countP (dataOf (onlyFlow f))

/-- The counters of every flow count what the history records of it, in 32 bits. -/
structure Billed (s : State) : Prop where
  dropped : ∀ f, (s.result f).packetsDropped = u32 (s.losses f)
  resent : ∀ f, (s.result f).packetsRetransmitted = u32 (s.retransmissions f)

namespace Billed

variable {sim : Simulation} {policy : RoutingPolicy} {s s' : State} {f : FlowId} {e : Event}
  {queue : EventQueue}

theorem congr (h : Billed s)
    (hres : ∀ g, (s'.result g).packetsDropped = (s.result g).packetsDropped ∧
      (s'.result g).packetsRetransmitted = (s.result g).packetsRetransmitted)
    (hem : s'.emissions = s.emissions) (href : s'.refusals = s.refusals) : Billed s' where
  dropped f := by
    unfold State.losses
    rw [(hres f).1, href]
    exact h.dropped f
  resent f := by
    unfold State.retransmissions
    rw [(hres f).2, hem]
    exact h.resent f

/-- Only a refused data packet is billed, and to its flow. -/
theorem enqueue (h : Billed s) (p : PortId) (x : Packet) : Billed (s.enqueue sim p x) := by
  by_cases hfull : (s.port p).queue.count = (s.port p).queue.capacity
  · refine ⟨fun f => ?_, fun f => ?_⟩
    · have hold := h.dropped f
      unfold State.losses at hold ⊢
      rw [refusals_full sim hfull, List.countP_cons, enqueue_full sim s p x hfull]
      unfold drop
      cases hk : x.kind with
      | ack => simpa [dataOf, hk] using hold
      | data =>
        by_cases hf : x.flow = f
        · subst hf
          simp [dataOf, onlyFlow, hk, hold, u32_u32_add]
        · have hne : f ≠ x.flow := fun heq => hf heq.symm
          simpa [dataOf, onlyFlow, hk, hf, Function.update_of_ne hne] using hold
    · obtain ⟨n, hn⟩ := enqueue_result sim s p x f
      unfold State.retransmissions
      rw [hn, emissions_enqueue]
      exact h.resent f
  · refine h.congr (fun f => ?_) (emissions_enqueue sim s p x) (refusals_room sim hfull x)
    rcases enqueue_cases s p x sim with ⟨h', -⟩ | ⟨q, -, ⟨-, h'⟩ | ⟨-, h'⟩⟩
    · exact absurd h' hfull
    · rw [h']
      exact ⟨rfl, rfl⟩
    · rw [h']
      exact ⟨rfl, rfl⟩

/-- The emission of a packet is billed to the flows that count it. -/
theorem emitted {t : Nat} {x : Packet} (h : Billed s) (htr : s'.trace = .emitted t x :: s.trace)
    (hres : ∀ g, (s'.result g).packetsDropped = (s.result g).packetsDropped ∧
      (s'.result g).packetsRetransmitted = if againOf g (t, x) then
        u32 ((s.result g).packetsRetransmitted + 1) else (s.result g).packetsRetransmitted) :
    Billed s' where
  dropped g := by
    unfold State.losses
    rw [refusals_emitted htr, (hres g).1]
    exact h.dropped g
  resent g := by
    have hold := h.resent g
    unfold State.retransmissions at hold ⊢
    rw [emissions_emitted htr, List.countP_cons, (hres g).2, hold]
    split
    · exact u32_u32_add _ _
    · rfl

/-- A transmission is billed to its flow unless it is the first of its packet. -/
theorem countRetx_bills (s : State) (f : FlowId) (idx : Nat) (g : FlowId) :
    ((s.countRetx f idx).result g).packetsDropped = (s.result g).packetsDropped ∧
      ((s.countRetx f idx).result g).packetsRetransmitted =
        if againOf g (s.now, dataPacket sim s f idx) then
          u32 ((s.result g).packetsRetransmitted + 1) else (s.result g).packetsRetransmitted := by
  unfold countRetx
  split
  · next hpos =>
    by_cases hg : g = f
    · subst hg
      simp [againOf, again, dataPacket, hpos]
    · have hne : ¬ f = g := fun heq => hg heq.symm
      simp [againOf, dataPacket, Function.update_of_ne hg, hne]
  · next hzero => simp [againOf, again, dataPacket, hzero]

theorem send (h : Billed s) (f : FlowId) (idx : Nat) : Billed (s.sendPacket sim f idx) := by
  unfold sendPacket
  apply Billed.enqueue
  refine h.emitted (t := s.now) (x := dataPacket sim s f idx) ?_ fun g => ?_
  · rw [log_trace, pushAfter_trace, markSent_trace]
  · have hres : (s.markSent sim f idx).result = (s.countRetx f idx).result := rfl
    rw [log_result, pushAfter_result, hres]
    exact countRetx_bills s f idx g

theorem micro (h : Billed s) (hm : Micro sim f s s') : Billed s' := by
  cases hm with
  | send idx => exact h.send f idx
  | ack idx a =>
    unfold sendAck
    apply Billed.enqueue
    refine h.emitted (t := s.now) (x := ackPacket sim s f idx a) rfl fun g => ⟨rfl, ?_⟩
    simp [againOf, again, ackPacket]
  | tx u | pkt idx u | attempt idx | ring slot idx | wake t _ => exact ⟨h.dropped, h.resent⟩
  | result u hu =>
    refine h.congr (fun g => ?_) rfl rfl
    by_cases hg : g = f
    · subst hg
      simpa using hu _
    · simp [Function.update_of_ne hg]
  | release d _ =>
    refine h.congr (fun g => ?_) (emissions_releaseFlow s f d) ?_
    · by_cases hg : g = d
      · subst hg
        simp
      · simp [Function.update_of_ne hg]
    · exact refusals_of_trace (l := [.released s.now f d]) (by simp) fun o ho => by
        rw [List.mem_singleton.mp ho]
        rfl

theorem micros (h : Billed s) (hm : Micros sim f s s') : Billed s' :=
  hm.preserve (fun _ _ hm h => h.micro hm) h

theorem onTxComplete (h : Billed s) (p : PortId) : Billed (s.onTxComplete sim p) := by
  have htr := onTxComplete_trace sim s p
  refine h.congr (fun g => ?_) (emissions_onTxComplete sim s p) (by unfold refusals; rw [htr])
  rcases onTxComplete_cases sim s p with ⟨-, h'⟩ | ⟨-, h'⟩
  · rw [h']
    exact ⟨rfl, rfl⟩
  · rw [h']
    exact ⟨rfl, rfl⟩

theorem step (h : Billed s) (e : Event) (queue : EventQueue) :
    Billed ((s.advance e queue).dispatch sim policy e.body) := by
  have hadv : Billed (s.advance e queue) := by
    refine h.congr (fun _ => ⟨rfl, rfl⟩) (emissions_advance e queue) ?_
    exact refusals_of_trace (l := [.dispatched e]) (advance_trace ..) fun o ho => by
      rw [List.mem_singleton.mp ho]
      rfl
  cases e.body with
  | txComplete p => exact hadv.onTxComplete p
  | inject f => exact hadv.micros (onInject_micros _ f)
  | timeout f idx a => exact hadv.micros (onTimeout_micros _ f idx a)
  | arrive p x =>
    show Billed ((s.advance e queue).onArrive sim policy p x)
    cases hh : (sim.fabric.node (sim.fabric.port p).peerNode).isHost with
    | false =>
      rw [onArrive_switch hh]
      exact hadv.enqueue _ _
    | true =>
      cases hk : x.kind with
      | ack =>
        rw [onArrive_ack hh hk]
        refine Billed.micros (s := (s.advance e queue).countAckDelivered x.bytes) ?_
          (onAck_micros _ _ _)
        exact hadv.congr (fun _ => ⟨rfl, rfl⟩) rfl rfl
      | data =>
        rw [onArrive_data hh hk]
        refine Billed.micros (s := (s.advance e queue).countDelivered x.bytes) ?_
          (onDataArrival_micros _ _ _ _ _)
        exact hadv.congr (fun _ => ⟨rfl, rfl⟩) rfl rfl

end Billed

theorem Simulation.Reachable.billed {sim : Simulation} {policy : RoutingPolicy} {s : State}
    (hs : sim.Reachable policy s) : Billed s := by
  refine Simulation.Reachable.invariant (P := Billed) (fun leftover => ?_)
    (fun _ e queue _ h _ => h.step e queue) hs
  have hzero : u32 0 = 0 := u32_of_lt (by decide)
  exact ⟨fun _ => hzero.symm, fun _ => hzero.symm⟩

/-! ## The account -/

section Account

variable {sim : Simulation} {policy : RoutingPolicy} {s : State}

/-- In a run that does not wrap, every packet that was taken from its flow was sent a first
time: a packet at a later attempt has used the attempts before it. -/
theorem nextSeq_le_firsts (hs : sim.Reachable policy s) (ht : sim.transport.Accepted)
    (hw : s.wrapped = false) (f : FlowId) :
    (s.tx f).nextSeq ≤ s.emissions.countP (firstOf f) := by
  have hsub : List.range (s.tx f).nextSeq ⊆
      (s.emissions.filter (firstOf f)).map fun a => a.2.index := by
    intro idx hidx
    obtain ⟨a, ha⟩ := List.exists_mem_of_ne_nil _
      ((hs.attempts ht f).sent idx (List.mem_range.mp hidx))
    have hzero : 0 ∈ s.attempts f idx := by
      rcases Nat.eq_zero_or_pos a with rfl | hpos
      · exact ha
      · exact (hs.retried ht hw f).used idx 0 (hpos.trans_le ((hs.attempts ht f).le idx a ha))
    obtain ⟨b, hb, hk, hf, hi, hat⟩ := mem_attempts.mp hzero
    refine List.mem_map.mpr ⟨b, List.mem_filter.mpr ⟨hb, ?_⟩, hi⟩
    simp [firstOf, hk, hf, hat]
  have hle := (List.nodup_range.subperm hsub).length_le
  rwa [List.length_range, List.length_map, ← List.countP_eq_length_filter] at hle

/-- A flow transmits its packets, and what it transmits again. -/
theorem transmissions_eq (hs : sim.Reachable policy s) (ht : sim.transport.Accepted)
    (hw : s.wrapped = false) (f : FlowId) :
    s.transmissions f = (s.tx f).nextSeq + s.retransmissions f := by
  rw [transmissions_split, (firsts_le hs ht f).antisymm (nextSeq_le_firsts hs ht hw f)]

/-- A complete flow has sent each of its packets. -/
theorem nextSeq_of_complete (hs : sim.Reachable policy s) (hw : s.wrapped = false) {f : FlowId}
    (hc : (s.result f).complete = true) : (s.tx f).nextSeq = sim.packetsTotal f := by
  have hpos := (hs.receipt hw f).total hc
  have hset := ((hs.tally f).complete_iff (hs.receiver f) hpos).mp hc
  have hlast : (s.pkt f (sim.packetsTotal f - 1)).delivered = true := by
    apply ((hs.tally f).bits _).mpr
    rw [hset]
    exact mem_range.mpr (by omega)
  apply (hs.books.ledger f).seq_le.antisymm
  by_contra hlt
  rw [(hs.books.ledger f).untouched _ (by omega)] at hlast
  exact absurd hlast (by simp)

/-- A refusal is of a data packet of some flow, or of an ack. -/
theorem length_refusals_split (hs : sim.Reachable policy s) (hr : sim.Steered)
    (hm : policy.Member) : s.refusals.length =
      ∑ f ∈ range sim.flowCount, s.losses f + s.refusals.countP fun x => x.kind = .ack := by
  have hkey := Grouping.countP_by_key (l := s.refusals) (n := sim.flowCount)
    (fun x => if x.kind = .data then some x.flow else none) fun x hx f hf => by
      obtain ⟨o, ho, hox⟩ := List.mem_filterMap.mp hx
      cases o with
      | offered t p y room =>
        cases room with
        | true => nomatch hox
        | false =>
          obtain rfl : y = x := Option.some.inj hox
          split at hf
          · rw [← Option.mem_some.mp hf]
            exact (hs.offered_atPort hr hm ho).flow_lt
          · nomatch hf
      | dispatched | emitted | released => nomatch hox
  have hdata : ∑ f ∈ range sim.flowCount, s.losses f =
      s.refusals.countP fun x => x.kind = .data := by
    refine Eq.trans (sum_congr rfl fun f _ => ?_) (hkey.symm.trans ?_)
    · unfold State.losses
      refine List.countP_congr fun x _ => ?_
      cases hk : x.kind <;> simp [dataOf, onlyFlow, hk]
    · refine List.countP_congr fun x _ => ?_
      cases hk : x.kind <;> simp
  rw [hdata, List.length_eq_countP_add_countP (fun x : Packet => x.kind = .data)]
  refine congrArg _ (List.countP_congr fun x _ => ?_)
  cases hk : x.kind <;> simp

end Account

/-- A sum of counters taken modulo a width is exact only if none has left it. -/
theorem sum_u32_eq_iff {n : Nat} {c : Nat → Nat} :
    ∑ f ∈ range n, u32 (c f) = ∑ f ∈ range n, c f ↔ ∀ f, f < n → c f < 2 ^ 32 := by
  rw [sum_eq_sum_iff_of_le fun f _ => u32_le (c f)]
  refine forall_congr' fun f => ?_
  rw [mem_range]
  exact imp_congr_right fun _ => ⟨fun h => h ▸ u32_lt _, u32_of_lt⟩

/-- In every state between two dispatches: for data and for acks, what was
injected is what was delivered, dropped, or sits in a queue, a transmitter or a
pending arrival; for every port, what was offered is what was sent, dropped, or
sits there; the ports' dropped bytes sum to the global counters. A drained run leaves
nothing in between. The flows' retransmissions sum to the global counter as long as
each of them fits the 32 bits of its own, and no longer. -/
theorem conservation (sim : Simulation) (policy : RoutingPolicy) (hr : sim.Wired)
    (hports : sim.fabric.portCount < 2 ^ 32) (hm : policy.Member) {s : State}
    (hs : sim.Reachable policy s) :
    (∀ k, s.stats.injected k = s.stats.delivered k + s.stats.dropped k +
      (queuedBytes sim s k + transmittingBytes sim s k + flyingBytes s k)) ∧
    (∀ p, s.offers p = (s.port p).packetsSent + (s.port p).packetsDropped +
      (s.port p).queue.count + if (s.port p).busy then 1 else 0) ∧
    ∑ p ∈ range sim.fabric.portCount, (s.port p).bytesDropped =
      s.stats.bytesDropped + s.stats.ackBytesDropped ∧
    (s.Drained → ∀ k, s.stats.injected k = s.stats.delivered k + s.stats.dropped k) ∧
    (∑ f ∈ range sim.flowCount, (s.result f).packetsRetransmitted =
        s.stats.packetsRetransmitted ↔
      ∀ f, f < sim.flowCount → s.retransmissions f < 2 ^ 32) := by
  have hst := hr.steered hports
  have h := hs.conserved hst hm
  refine ⟨fun k => ?_, fun p => ?_, h.drops, fun hd k => ?_, ?_⟩
  · rw [← sum_onLink k fun e he p x hb =>
      (hs.atPort hst hm p x (mem_onLink_of_agenda he hb)).port_lt hr]
    exact h.bytes k
  · rw [h.ports, PortState.length_backlog, Nat.add_assoc, Nat.add_assoc, Nat.add_assoc]
  · rw [h.bytes k]
    simp [hd.onLink hs.coherent]
  · rw [sum_congr rfl fun f _ => hs.billed.resent f, ← sum_again hs]
    exact sum_u32_eq_iff

/-- Two hosts on a leaf, after five dispatches. -/
theorem conservation_pair :
    let s := (Pair.simulation.beginRun Pair.fresh).runFor Pair.simulation StaticFirstPolicy 5
    (∀ k, s.stats.injected k = s.stats.delivered k + s.stats.dropped k +
      (queuedBytes Pair.simulation s k + transmittingBytes Pair.simulation s k + flyingBytes s k)) ∧
    (∀ p, s.offers p = (s.port p).packetsSent + (s.port p).packetsDropped +
      (s.port p).queue.count + if (s.port p).busy then 1 else 0) ∧
    ∑ p ∈ range Pair.simulation.fabric.portCount, (s.port p).bytesDropped =
      s.stats.bytesDropped + s.stats.ackBytesDropped := by
  obtain ⟨hbytes, hoffers, hdrops, -⟩ := conservation Pair.simulation StaticFirstPolicy
    Pair.routed.toWired Pair.ports_lt staticFirst_member
    ((Simulation.Reachable.begin Pair.fresh).runFor 5)
  exact ⟨hbytes, hoffers, hdrops⟩

namespace Unheard

/-! Seventeen million packets of one byte, and 254 retransmissions of each. -/

def config : LeafSpineConfig where
  spineCount := 1
  leafCount := 1
  hostsPerLeaf := 2
  hostLink := { queueCapacityPkts := 0 }

def fabric : Fabric := (LeafSpine.builder config).build

def flow : FlowSpec where
  src := 2
  dst := 3
  sizeBytes := 17000000
  mtuBytes := 1
  windowPkts := 17000000

theorem flow_accepted : flow.Accepted fabric 0 := by decide +kernel

def simulation : Simulation where
  fabric := fabric
  routes := RouteTable.buildShortestPath fabric
  transport := { rtoNs := 1, maxAttempts := 255 }
  specs := [flow]
  accepted := by
    intro i hi
    obtain rfl : i = 0 := Nat.lt_one_iff.mp hi
    exact flow_accepted

theorem wired : simulation.Wired where
  built := ⟨_, LeafSpine.valid (by decide), rfl⟩
  connected := show (LeafSpine.builder config).build.Connected from
    LeafSpine.connected (by decide) (by decide) (by decide)
  singlePort := show (LeafSpine.builder config).build.SinglePortHosts from
    LeafSpine.singlePortHosts (by decide)
  routes := rfl

theorem transport_accepted : simulation.transport.Accepted :=
  ⟨by decide, by decide, by decide, by decide, by decide⟩

theorem numbers : simulation.fabric.portCount < 2 ^ 32 ∧ simulation.window 0 = 17000000 ∧
    simulation.packetsTotal 0 = 17000000 ∧ simulation.periodNs 0 = 0 ∧
    (simulation.fabric.port (simulation.route 0).srcNic).queueCapacity = 0 := by
  decide +kernel

theorem refused : Flow simulation 17000000 where
  pos := by decide
  one := rfl
  free := rfl
  start := rfl
  window := numbers.2.1
  total := numbers.2.2.1
  pace := numbers.2.2.2.1
  rto := rfl
  attempts := by decide
  room := numbers.2.2.2.2

end Unheard

/-- Where a flow is retransmitted `2 ^ 32` times its own counter wraps, and the global one
does not. -/
theorem conservation_wrapped : ¬ ∀ (sim : Simulation) (policy : RoutingPolicy), sim.Wired →
    sim.fabric.portCount < 2 ^ 32 → policy.Member → sim.transport.Accepted → ∀ s,
      sim.Reachable policy s → s.Drained →
        ∑ f ∈ range sim.flowCount, (s.result f).packetsRetransmitted =
          s.stats.packetsRetransmitted := by
  intro h
  obtain ⟨s, hs, hdrained, hmany⟩ :=
    Unheard.reachable_exhausted Unheard.refused StaticFirstPolicy Pair.fresh
  have hsum := h _ _ Unheard.wired Unheard.numbers.1 staticFirst_member
    Unheard.transport_accepted s hs hdrained
  -- the sum has one term, a 32-bit number
  have hown : (s.result 0).packetsRetransmitted < 2 ^ 32 := by
    rw [hs.billed.resent 0]
    exact u32_lt _
  have hone : Unheard.simulation.flowCount = 1 := rfl
  have hmax : Unheard.simulation.transport.maxAttempts = 255 := rfl
  rw [hone, sum_range_one] at hsum
  rw [hmax] at hmany
  omega

/-- In every state of every run in which no addition to the virtual time wraps, under any
policy, losses and timers, as long as 32 bits index the packets of all flows. For every
flow: the packets it has sent a first time and those it has sent again are those that
arrived, those a queue refused and those on the links; the acks of the ones that arrived are
back, refused or on the links. Every drop of a port is of a packet of one flow, or of an
ack. When the run is over, the copies that the receiver of a complete flow threw away are
its retransmissions less its losses. The flow's own counters are these numbers in 32 bits. -/
theorem flow_account (sim : Simulation) (policy : RoutingPolicy) (hr : sim.Wired)
    (hports : sim.fabric.portCount < 2 ^ 32) (_hfit : sim.packetsExact ≤ 2 ^ 32) (hm : policy.Member)
    (ht : sim.transport.Accepted) {s : State} (hs : sim.Reachable policy s)
    (hw : s.wrapped = false) :
    (∀ f,
      (s.tx f).nextSeq + s.retransmissions f =
        s.landings sim (dataOf (onlyFlow f)) + s.losses f +
          s.inNetwork sim (dataOf (onlyFlow f)) ∧
      s.landings sim (dataOf (onlyFlow f)) =
        s.landings sim (ackOf (onlyFlow f)) + s.refusals.countP (ackOf (onlyFlow f)) +
          s.inNetwork sim (ackOf (onlyFlow f))) ∧
    ∑ p ∈ range sim.fabric.portCount, (s.port p).packetsDropped =
      ∑ f ∈ range sim.flowCount, s.losses f + s.refusals.countP (fun x => x.kind = .ack) ∧
    (s.Drained → ∀ f, (s.result f).complete = true →
      s.landings sim (dataOf (onlyFlow f)) + s.losses f =
        (s.result f).packetsDelivered + s.retransmissions f) ∧
    ∀ f, (s.result f).packetsDropped = u32 (s.losses f) ∧
      (s.result f).packetsRetransmitted = u32 (s.retransmissions f) := by
  have hst := hr.steered hports
  have hflow : ∀ f, (s.tx f).nextSeq + s.retransmissions f =
      s.landings sim (dataOf (onlyFlow f)) + s.losses f +
        s.inNetwork sim (dataOf (onlyFlow f)) := by
    intro f
    have hbal := hs.balanced hst hm (P := dataOf (onlyFlow f)) fun _ _ => rfl
    rw [← transmissions_eq hs ht hw f]
    exact hbal
  refine ⟨fun f => ⟨hflow f, ?_⟩, ?_, fun hd f hc => ?_,
    fun f => ⟨hs.billed.dropped f, hs.billed.resent f⟩⟩
  · rw [← hs.acked (onlyFlow f)]
    exact hs.balanced hst hm fun _ _ => rfl
  · rw [← hs.length_refusals hst hm]
    exact length_refusals_split hs hst hm
  · have hnone : s.inNetwork sim (dataOf (onlyFlow f)) = 0 := by
      unfold State.inNetwork
      refine sum_eq_zero fun p _ => ?_
      rw [hd.onLink hs.coherent p]
      rfl
    have hdelivered := ((hs.receiver f).complete_iff ((hs.receipt hw f).total hc)).mp hc
    have := hflow f
    rw [hnone, nextSeq_of_complete hs hw hc] at this
    omega

/-- Two hosts on a leaf, after the whole run: nothing arrived twice. -/
theorem flow_account_pair :
    Pair.last.landings Pair.simulation (dataOf (onlyFlow 0)) + Pair.last.losses 0 =
      (Pair.last.result 0).packetsDelivered + Pair.last.retransmissions 0 :=
  (flow_account Pair.simulation StaticFirstPolicy Pair.routed.toWired Pair.ports_lt
    Pair.packets_le staticFirst_member Pair.transport_accepted
    ((Simulation.Reachable.begin _).runFor 100) Pair.last_unwrapped).2.2.1 Pair.last_drained 0
      Pair.last_complete

end FabricSim
