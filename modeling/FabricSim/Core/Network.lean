import FabricSim.Core.Steps

/-!
# Where the packets are

A packet in the network is at one directed link: on its wire (a pending
`arrive`), in its transmitter or in its queue. `onLink` lists them in the order
they will leave, and every operation is an operation on these lists: offering a
packet appends it to one list unless the queue is full (`onLink_enqueue`),
finishing a transmission only moves it within its list (`onLink_onTxComplete`),
an arrival takes it out.

`Coherent` ties ports to the schedule: a port is busy exactly when its one
`txComplete` is pending, and an idle port has an empty queue. `Micro.net` is the
inversion the later modules use: an endpoint operation leaves the network alone
or offers one newly emitted packet to its flow's NIC.
-/

namespace FabricSim

/-- The packet an event delivers over link `p`, with its time. -/
def Event.arrival (p : PortId) (e : Event) : Option (Nat × Packet) :=
  match e.body with
  | .arrive q pkt => if q = p then some (e.time, pkt) else none
  | _ => none

/-- The time at which an event frees the transmitter of port `p`. -/
def Event.completion (p : PortId) (e : Event) : Option Nat :=
  match e.body with
  | .txComplete q => if q = p then some e.time else none
  | _ => none

namespace EventQueue

/-- The packets on the wire of link `p`, with their arrival times. -/
def arrivals (q : EventQueue) (p : PortId) : List (Nat × Packet) :=
  q.agenda.filterMap (Event.arrival p)

/-- The pending completions of port `p`. -/
def completions (q : EventQueue) (p : PortId) : List Nat :=
  q.agenda.filterMap (Event.completion p)

variable (q : EventQueue) (t : Nat) (p : PortId)

@[simp] theorem arrivals_push_inject (f : FlowId) :
    (q.push t (.inject f)).arrivals p = q.arrivals p := by
  unfold arrivals; rw [agenda_push]; exact Agenda.filterMap_insert_none rfl _
@[simp] theorem arrivals_push_txComplete (r : PortId) :
    (q.push t (.txComplete r)).arrivals p = q.arrivals p := by
  unfold arrivals; rw [agenda_push]; exact Agenda.filterMap_insert_none rfl _
@[simp] theorem arrivals_push_timeout (f : FlowId) (idx a : Nat) :
    (q.push t (.timeout f idx a)).arrivals p = q.arrivals p := by
  unfold arrivals; rw [agenda_push]; exact Agenda.filterMap_insert_none rfl _
@[simp] theorem completions_push_inject (f : FlowId) :
    (q.push t (.inject f)).completions p = q.completions p := by
  unfold completions; rw [agenda_push]; exact Agenda.filterMap_insert_none rfl _
@[simp] theorem completions_push_arrive (r : PortId) (pkt : Packet) :
    (q.push t (.arrive r pkt)).completions p = q.completions p := by
  unfold completions; rw [agenda_push]; exact Agenda.filterMap_insert_none rfl _
@[simp] theorem completions_push_timeout (f : FlowId) (idx a : Nat) :
    (q.push t (.timeout f idx a)).completions p = q.completions p := by
  unfold completions; rw [agenda_push]; exact Agenda.filterMap_insert_none rfl _

theorem completions_push_of_ne {r : PortId} (h : r ≠ p) :
    (q.push t (.txComplete r)).completions p = q.completions p := by
  have hx : Event.completion p ⟨t, q.nextSeq, .txComplete r⟩ = none := if_neg h
  unfold completions
  rw [agenda_push]
  exact Agenda.filterMap_insert_none hx _

theorem arrivals_push_of_ne {r : PortId} (h : r ≠ p) (pkt : Packet) :
    (q.push t (.arrive r pkt)).arrivals p = q.arrivals p := by
  have hx : Event.arrival p ⟨t, q.nextSeq, .arrive r pkt⟩ = none := if_neg h
  unfold arrivals
  rw [agenda_push]
  exact Agenda.filterMap_insert_none hx _

theorem completions_push_self (h : q.completions p = []) :
    (q.push t (.txComplete p)).completions p = [t] := by
  have hperm := (Agenda.insert_perm Event.key ⟨t, q.nextSeq, .txComplete p⟩ q.agenda).filterMap
    (Event.completion p)
  have hself : Event.completion p ⟨t, q.nextSeq, .txComplete p⟩ = some t := if_pos rfl
  rw [← agenda_push, List.filterMap_cons_some hself] at hperm
  change List.Perm (completions _ p) (t :: q.completions p) at hperm
  rw [h] at hperm
  exact List.perm_singleton.mp hperm

theorem arrivals_push_perm (pkt : Packet) :
    ((q.push t (.arrive p pkt)).arrivals p).Perm ((t, pkt) :: q.arrivals p) := by
  have hperm := (Agenda.insert_perm Event.key ⟨t, q.nextSeq, .arrive p pkt⟩ q.agenda).filterMap
    (Event.arrival p)
  have hself : Event.arrival p ⟨t, q.nextSeq, .arrive p pkt⟩ = some (t, pkt) := if_pos rfl
  rw [← agenda_push, List.filterMap_cons_some hself] at hperm
  exact hperm

variable {q} {q' : EventQueue} {e : Event}

theorem arrivals_of_pop (h : q.pop = some (e, q')) (p : PortId) :
    q.arrivals p = (e.arrival p).toList ++ q'.arrivals p := by
  unfold arrivals
  rw [agenda_of_pop h, List.filterMap_cons]
  cases e.arrival p <;> rfl

theorem completions_of_pop (h : q.pop = some (e, q')) (p : PortId) :
    q.completions p = (e.completion p).toList ++ q'.completions p := by
  unfold completions
  rw [agenda_of_pop h, List.filterMap_cons]
  cases e.completion p <;> rfl

end EventQueue

/-- The packets in the transmitter and the queue of a port, next to leave
first. -/
def PortState.backlog (ps : PortState) : List Packet :=
  (if ps.busy then [ps.inFlight] else []) ++ ps.queue.toList

namespace State

/-- The packets on the wire of a link. -/
def wire (s : State) (p : PortId) : List Packet := (s.queue.arrivals p).map Prod.snd

/-- The packets at a link, first to leave it first. -/
def onLink (s : State) (p : PortId) : List Packet := s.wire p ++ (s.port p).backlog

/-- Ports and schedule agree. -/
structure Coherent (s : State) : Prop where
  idle : ∀ p, (s.port p).busy = false → (s.port p).queue.toList = []
  tx : ∀ p, (s.queue.completions p).length = if (s.port p).busy then 1 else 0

/-- `s'` has the network of `s`. -/
structure NetEq (s s' : State) : Prop where
  port : s'.port = s.port
  arrivals : ∀ p, s'.queue.arrivals p = s.queue.arrivals p
  completions : ∀ p, s'.queue.completions p = s.queue.completions p

variable {sim : Simulation} {s s' : State} {p : PortId}

theorem NetEq.refl (s : State) : NetEq s s := ⟨rfl, fun _ => rfl, fun _ => rfl⟩

theorem NetEq.trans {s₁ s₂ s₃ : State} (h₁ : NetEq s₁ s₂) (h₂ : NetEq s₂ s₃) : NetEq s₁ s₃ :=
  ⟨h₂.port.trans h₁.port, fun p => (h₂.arrivals p).trans (h₁.arrivals p),
    fun p => (h₂.completions p).trans (h₁.completions p)⟩

theorem NetEq.onLink (h : NetEq s s') (p : PortId) : s'.onLink p = s.onLink p := by
  unfold State.onLink wire
  rw [h.port, h.arrivals]

theorem NetEq.coherent (h : NetEq s s') (hs : s.Coherent) : s'.Coherent where
  idle := by rw [h.port]; exact hs.idle
  tx := by
    intro p
    rw [h.port, h.completions]
    exact hs.tx p

/-! ## Offering a packet -/

theorem backlog_push_busy {ps : PortState} {queue : PacketRing} {pkt : Packet}
    (hq : ps.queue.tryPush pkt = some queue) (hb : ps.busy = true) :
    ({ ps with queue := queue } : PortState).backlog = ps.backlog ++ [pkt] := by
  unfold PortState.backlog
  dsimp only
  rw [hb, if_pos rfl, BoundedFifo.toList_tryPush hq, List.append_assoc]

theorem toList_push_idle {r queue : PacketRing} {pkt : Packet} (hq : r.tryPush pkt = some queue)
    (hr : r.toList = []) : queue.front = pkt ∧ queue.pop.toList = [] := by
  have hl := BoundedFifo.toList_tryPush hq
  rw [hr, List.nil_append] at hl
  have hc : queue.count ≠ 0 := by
    rw [← BoundedFifo.length_toList, hl]
    simp
  rw [BoundedFifo.toList_eq_cons hc] at hl
  exact ⟨(List.cons.inj hl).1, (List.cons.inj hl).2⟩

/-- A full queue: nothing moves. -/
theorem enqueue_full (sim : Simulation) (s : State) (p : PortId) (pkt : Packet)
    (hfull : (s.port p).queue.count = (s.port p).queue.capacity) :
    s.enqueue sim p pkt = (s.log (.offered s.now p pkt false)).drop p pkt := by
  rcases enqueue_cases s p pkt sim with ⟨-, h⟩ | ⟨q, hq, -⟩
  · exact h
  · rw [(BoundedFifo.tryPush_eq_none_iff _ _).mpr hfull] at hq
    exact absurd hq (by simp)

theorem backlog_drop (s : State) (p q : PortId) (pkt : Packet) :
    ((s.drop p pkt).port q).backlog = (s.port q).backlog := by
  rw [drop_port]
  by_cases hq : q = p
  · subst hq
    rw [Function.update_self]
    rfl
  · rw [Function.update_of_ne hq]

/-- What offering a packet to a port with room does to the port and its
schedule. -/
theorem enqueue_room (sim : Simulation) (hidle : ∀ p, (s.port p).busy = false → (s.port p).queue.toList = [])
    (p : PortId) (pkt : Packet)
    (hroom : (s.port p).queue.count ≠ (s.port p).queue.capacity) :
    (∀ q, ((s.enqueue sim p pkt).port q).backlog =
      if q = p then (s.port q).backlog ++ [pkt] else (s.port q).backlog) ∧
    (∀ q, ((s.enqueue sim p pkt).port q).busy = if q = p then true else (s.port q).busy) ∧
    (s.enqueue sim p pkt).queue =
      (if (s.port p).busy then s.queue
        else s.queue.push (u64 (s.now + serializationNs pkt.bytes (sim.fabric.port p).rate))
          (.txComplete p)) := by
  rcases enqueue_cases s p pkt sim with ⟨hfull, -⟩ | ⟨queue, hq, ⟨hb, h⟩ | ⟨hb, h⟩⟩
  · exact absurd hfull hroom
  · rw [h]
    refine ⟨?_, ?_, ?_⟩
    · intro q
      rw [modifyPort_port]
      by_cases hqp : q = p
      · subst hqp
        rw [Function.update_self, if_pos rfl]
        exact backlog_push_busy hq hb
      · rw [Function.update_of_ne hqp, if_neg hqp]
        rfl
    · intro q
      rw [modifyPort_port]
      by_cases hqp : q = p
      · subst hqp
        rw [Function.update_self, if_pos rfl]
        exact hb
      · rw [Function.update_of_ne hqp, if_neg hqp]
        rfl
    · rw [hb, if_pos rfl]
      rfl
  · obtain ⟨hfront, hrest⟩ := toList_push_idle hq (hidle p hb)
    rw [h]
    refine ⟨?_, ?_, ?_⟩
    · intro q
      by_cases hqp : q = p
      · subst hqp
        simp [PortState.backlog, hfront, hrest, hb, hidle q hb]
      · simp [hqp]
    · intro q
      by_cases hqp : q = p
      · subst hqp; simp
      · simp [hqp]
    · simp [hfront, hb]

/-- A packet offered to a port joins the end of its link, or is dropped. -/
theorem onLink_enqueue (sim : Simulation) (hidle : ∀ p, (s.port p).busy = false → (s.port p).queue.toList = [])
    (p : PortId) (pkt : Packet) (q : PortId) :
    (s.enqueue sim p pkt).onLink q =
      if q = p ∧ (s.port p).queue.count ≠ (s.port p).queue.capacity then s.onLink q ++ [pkt]
      else s.onLink q := by
  unfold onLink wire
  by_cases hroom : (s.port p).queue.count = (s.port p).queue.capacity
  · rw [if_neg (fun h => h.2 hroom), enqueue_full sim s p pkt hroom, drop_queue, backlog_drop]
    rfl
  · obtain ⟨hback, -, hqueue⟩ := enqueue_room sim hidle p pkt hroom
    have harr : (s.enqueue sim p pkt).queue.arrivals q = s.queue.arrivals q := by
      rw [hqueue]
      split
      · rfl
      · exact EventQueue.arrivals_push_txComplete ..
    rw [hback, harr]
    by_cases hqp : q = p
    · rw [if_pos hqp, if_pos ⟨hqp, hroom⟩, List.append_assoc]
    · rw [if_neg hqp, if_neg (fun h => hqp h.1)]

theorem Coherent.enqueue (hs : s.Coherent) (p : PortId) (pkt : Packet) :
    (s.enqueue sim p pkt).Coherent := by
  by_cases hroom : (s.port p).queue.count = (s.port p).queue.capacity
  · rw [enqueue_full sim s p pkt hroom]
    refine ⟨?_, ?_⟩ <;> intro q
    · rw [drop_port]
      by_cases hqp : q = p
      · subst hqp
        rw [Function.update_self]
        exact hs.idle q
      · rw [Function.update_of_ne hqp]
        exact hs.idle q
    · rw [drop_port, drop_queue]
      by_cases hqp : q = p
      · subst hqp
        rw [Function.update_self]
        exact hs.tx q
      · rw [Function.update_of_ne hqp]
        exact hs.tx q
  · obtain ⟨hback, hbusy, hqueue⟩ := enqueue_room sim hs.idle p pkt hroom
    refine ⟨?_, ?_⟩ <;> intro q
    · intro hb
      rw [hbusy] at hb
      by_cases hqp : q = p
      · rw [if_pos hqp] at hb
        exact absurd hb (by simp)
      · rw [if_neg hqp] at hb
        have := hback q
        rw [if_neg hqp] at this
        unfold PortState.backlog at this
        rw [hbusy, if_neg hqp, hb, hs.idle q hb] at this
        simpa using this
    · rw [hbusy, hqueue]
      by_cases hqp : q = p
      · subst hqp
        rw [if_pos rfl]
        cases hb : (s.port q).busy with
        | true =>
          have := hs.tx q
          rw [hb] at this
          exact this
        | false =>
          have := hs.tx q
          rw [hb] at this
          rw [if_neg (by simp), EventQueue.completions_push_self _ _ _
            (List.length_eq_zero_iff.mp this)]
          rfl
      · rw [if_neg hqp]
        cases hb : (s.port p).busy with
        | true => exact hs.tx q
        | false =>
          rw [if_neg (by simp), EventQueue.completions_push_of_ne _ _ _ (Ne.symm hqp)]
          exact hs.tx q

/-! ## Finishing a transmission -/

/-- `Coherent` in the middle of a `txComplete` of `p`: its event is taken, the
port is still busy. -/
structure Finishing (s : State) (p : PortId) : Prop where
  idle : ∀ q, (s.port q).busy = false → (s.port q).queue.toList = []
  busy : (s.port p).busy = true
  done : s.queue.completions p = []
  others : ∀ q, q ≠ p → (s.queue.completions q).length = if (s.port q).busy then 1 else 0

/-- What finishing a transmission does to ports and schedule. -/
theorem onTxComplete_effect (sim : Simulation) (h : s.Finishing p) :
    (∀ q, ((s.onTxComplete sim p).port q).backlog =
      if q = p then (s.port p).queue.toList else (s.port q).backlog) ∧
    (∀ q, ((s.onTxComplete sim p).port q).busy =
      if q = p then !(s.port p).queue.empty else (s.port q).busy) ∧
    (s.onTxComplete sim p).queue =
      (if (s.port p).queue.empty then (s.sendOff sim p).queue
        else (s.sendOff sim p).queue.push
          (u64 (s.now + serializationNs (s.port p).queue.front.bytes (sim.fabric.port p).rate))
          (.txComplete p)) := by
  rcases onTxComplete_cases sim s p with ⟨he, heq⟩ | ⟨he, heq⟩
  · have hnil := (BoundedFifo.empty_iff _).mp he
    rw [heq, he]
    refine ⟨?_, ?_, ?_⟩
    · intro q
      by_cases hqp : q = p
      · subst hqp
        simp [PortState.backlog, hnil]
      · simp [hqp]
    · intro q
      by_cases hqp : q = p
      · subst hqp; simp
      · simp [hqp]
    · rfl
  · have hcount : (s.port p).queue.count ≠ 0 := by
      intro h0
      have : (s.port p).queue.empty = true := by unfold BoundedFifo.empty; simp [h0]
      rw [he] at this
      exact absurd this (by simp)
    rw [heq, he]
    refine ⟨?_, ?_, ?_⟩
    · intro q
      by_cases hqp : q = p
      · subst hqp
        simp [PortState.backlog, BoundedFifo.toList_eq_cons hcount]
      · simp [hqp]
    · intro q
      by_cases hqp : q = p
      · subst hqp; simp
      · simp [hqp]
    · simp

theorem arrivals_onTxComplete (h : s.Finishing p) (q : PortId) :
    (s.onTxComplete sim p).queue.arrivals q = (s.sendOff sim p).queue.arrivals q := by
  rw [(onTxComplete_effect sim h).2.2]
  split
  · rfl
  · exact EventQueue.arrivals_push_txComplete ..

theorem Finishing.onTxComplete (h : s.Finishing p) : (s.onTxComplete sim p).Coherent := by
  obtain ⟨hback, hbusy, hqueue⟩ := onTxComplete_effect sim h
  refine ⟨?_, ?_⟩ <;> intro q
  · intro hb
    have hback := hback q
    unfold PortState.backlog at hback
    rw [hb] at hback
    rw [hbusy] at hb
    by_cases hqp : q = p
    · subst hqp
      rw [if_pos rfl] at hb hback
      have he : (s.port q).queue.empty = true := by simpa using hb
      rw [(BoundedFifo.empty_iff _).mp he] at hback
      simpa using hback
    · rw [if_neg hqp] at hb hback
      rw [hb, h.idle q hb] at hback
      simpa using hback
  · rw [hbusy, hqueue]
    have hoff : ∀ r, (s.sendOff sim p).queue.completions r = s.queue.completions r := by
      intro r
      simp
    by_cases hqp : q = p
    · subst hqp
      rw [if_pos rfl]
      cases he : (s.port q).queue.empty with
      | true => rw [if_pos rfl, hoff, h.done]; rfl
      | false =>
        rw [if_neg (by simp), EventQueue.completions_push_self _ _ _ (by rw [hoff]; exact h.done)]
        rfl
    · rw [if_neg hqp, ← h.others q hqp]
      split
      · rw [hoff]
      · rw [EventQueue.completions_push_of_ne _ _ _ (Ne.symm hqp), hoff]

/-- A finished transmission moves its packet to the wire and no other packet. -/
theorem onLink_onTxComplete (sim : Simulation) (h : s.Finishing p) (q : PortId) :
    ((s.onTxComplete sim p).onLink q).Perm (s.onLink q) := by
  unfold onLink wire
  rw [arrivals_onTxComplete h, (onTxComplete_effect sim h).1]
  by_cases hqp : q = p
  · subst hqp
    rw [if_pos rfl]
    have hperm := (EventQueue.arrivals_push_perm s.queue
      (u64 (s.now + (sim.fabric.port q).propDelayNs)) q (s.port q).inFlight).map Prod.snd
    rw [List.map_cons] at hperm
    refine (hperm.append_right _).trans ?_
    unfold PortState.backlog
    rw [h.busy, if_pos rfl]
    exact List.perm_middle.symm
  · rw [if_neg hqp]
    have harr : (s.sendOff sim p).queue.arrivals q = s.queue.arrivals q := by
      rw [sendOff_queue]
      exact EventQueue.arrivals_push_of_ne _ _ _ (Ne.symm hqp) _
    rw [harr]

/-! ## Endpoint operations -/

/-- The port an endpoint puts its packets on. -/
def nic (sim : Simulation) (pkt : Packet) : PortId :=
  match pkt.kind with
  | .data => (sim.route pkt.flow).srcNic
  | .ack => (sim.route pkt.flow).dstNic

/-- The size an endpoint gives a packet. -/
def wireBytes (sim : Simulation) (pkt : Packet) : Nat :=
  match pkt.kind with
  | .data => (sim.spec pkt.flow).packetBytes pkt.index
  | .ack => sim.transport.ackBytes

/-- A packet as an endpoint emits it. -/
structure Fresh (sim : Simulation) (f : FlowId) (s : State) (pkt : Packet) : Prop where
  flow : pkt.flow = f
  route : pkt.tag.route = []
  serial : pkt.tag.serial = s.serial
  bytes : pkt.bytes = wireBytes sim pkt

/-- An endpoint operation leaves the network alone, or offers one newly emitted
packet to its NIC. -/
theorem Micro.net {f : FlowId} (h : Micro sim f s s') :
    (NetEq s s' ∧ s'.now = s.now ∧ (∀ t pkt, .emitted t pkt ∈ s'.trace → .emitted t pkt ∈ s.trace) ∧
        s'.serial = s.serial ∧
        ∃ l, s'.trace = l ++ s.trace ∧ ∀ o ∈ l, ∃ t g d, o = .released t g d) ∨
    ∃ s₁ pkt, NetEq s s₁ ∧ Fresh sim f s pkt ∧ s₁.now = s.now ∧ s₁.serial = s.serial + 1 ∧
      s₁.trace = .emitted s.now pkt :: s.trace ∧ s' = s₁.enqueue sim (nic sim pkt) pkt := by
  cases h with
  | send idx =>
    refine Or.inr ⟨_, dataPacket sim s f idx, ⟨?_, ?_, ?_⟩, ⟨rfl, rfl, rfl, rfl⟩, ?_, ?_, ?_, rfl⟩ <;>
      simp
  | ack idx a =>
    refine Or.inr ⟨_, ackPacket sim s f idx a, ⟨?_, ?_, ?_⟩, ⟨rfl, rfl, rfl, rfl⟩, ?_, ?_, ?_, rfl⟩ <;>
      simp
  | tx g => exact Or.inl ⟨⟨rfl, fun _ => rfl, fun _ => rfl⟩, rfl, fun _ _ h => h, rfl, [], rfl, by simp⟩
  | pkt idx g => exact Or.inl ⟨⟨rfl, fun _ => rfl, fun _ => rfl⟩, rfl, fun _ _ h => h, rfl, [], rfl, by simp⟩
  | result g hg => exact Or.inl ⟨⟨rfl, fun _ => rfl, fun _ => rfl⟩, rfl, fun _ _ h => h, rfl, [], rfl, by simp⟩
  | attempt idx => exact Or.inl ⟨⟨rfl, fun _ => rfl, fun _ => rfl⟩, rfl, fun _ _ h => h, rfl, [], rfl, by simp⟩
  | ring slot idx => exact Or.inl ⟨⟨rfl, fun _ => rfl, fun _ => rfl⟩, rfl, fun _ _ h => h, rfl, [], rfl, by simp⟩
  | wake t _ =>
    exact Or.inl ⟨⟨rfl, fun _ => by simp, fun _ => by simp⟩, rfl, fun _ _ h => h, rfl, [], rfl, by simp⟩
  | release d hd =>
    exact Or.inl ⟨⟨rfl, fun _ => by simp, fun _ => by simp⟩, rfl, fun _ _ h => by simpa using h,
      rfl, [_], rfl, by simp⟩

theorem Micro.now {f : FlowId} (hm : Micro sim f s s') : s'.now = s.now := by
  rcases hm.net with ⟨-, hnow, -⟩ | ⟨s₁, x, -, -, hnow, -, -, rfl⟩
  · exact hnow
  · rw [enqueue_now]
    exact hnow

theorem Micro.coherent {f : FlowId} (h : Micro sim f s s') (hs : s.Coherent) : s'.Coherent := by
  rcases h.net with ⟨hnet, -⟩ | ⟨s₁, pkt, hnet, -, -, -, -, rfl⟩
  · exact hnet.coherent hs
  · exact (hnet.coherent hs).enqueue _ _

end State

end FabricSim
