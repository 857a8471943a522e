import FabricSim.Core.EventCount

/-!
# How far the clock goes

Nothing is scheduled further ahead than the longest delay of the simulation (`Stride`): a
timeout, the service of a packet, the delay of a link, the pause of a pacing gate. So every
turn takes the clock at most that much further, and the number of turns is bounded
(`eventBound`). `Soon` is the invariant inside a turn: whatever is pending is due by `B`.
Where the product fits 64 bits the clock of no run wraps, and every result about runs whose
times have not wrapped holds of all runs.
-/

namespace FabricSim

open State Finset

/-- No delay of a run is longer. -/
structure Simulation.Stride (sim : Simulation) (D : Nat) : Prop where
  rto : sim.transport.rtoNs ≤ D
  link : ∀ p, p < sim.fabric.portCount →
    serializationNs kMaxPacketBytes (sim.fabric.port p).rate ≤ D ∧
      (sim.fabric.port p).propDelayNs ≤ D
  pace : ∀ f, f < sim.flowCount → sim.periodNs f ≤ D

variable {sim : Simulation} {policy : RoutingPolicy} {s s' : State} {f : FlowId} {p : PortId}
  {D B : Nat}

/-- Everything scheduled is due by `B`, and so is what the clock may still be asked for. -/
structure Soon (D B : Nat) (s : State) : Prop where
  clock : s.now + D ≤ B
  wrapped : s.wrapped = false
  due : ∀ e ∈ s.queue.agenda, e.time ≤ B
  gate : ∀ f, (s.tx f).nextSendNs ≤ B
  carried : ∀ e ∈ s.queue.agenda, ∀ p x, e.body = .arrive p x → x.bytes ≤ kMaxPacketBytes
  queued : ∀ p, ∀ x ∈ (s.port p).inFlight :: (s.port p).queue.toList, x.bytes ≤ kMaxPacketBytes

namespace Soon

/-- Only these members count. -/
theorem congr (h : Soon D B s) (hnow : s'.now = s.now) (hwrapped : s'.wrapped = s.wrapped)
    (hqueue : s'.queue = s.queue) (hport : s'.port = s.port)
    (hgate : ∀ f, (s'.tx f).nextSendNs = (s.tx f).nextSendNs) : Soon D B s' where
  clock := hnow ▸ h.clock
  wrapped := hwrapped ▸ h.wrapped
  due := hqueue ▸ h.due
  gate := fun f => hgate f ▸ h.gate f
  carried := hqueue ▸ h.carried
  queued := hport ▸ h.queued

theorem modifyTx (h : Soon D B s) (f : FlowId) {g : FlowTx → FlowTx}
    (hg : ∀ tx : FlowTx, tx.nextSendNs ≤ B → (g tx).nextSendNs ≤ B) : Soon D B (s.modifyTx f g) :=
  { h with
    gate := by
      intro f'
      rw [modifyTx_tx]
      by_cases hf : f' = f
      · rw [hf, Function.update_self]
        exact hg _ (h.gate f)
      · rw [Function.update_of_ne hf]
        exact h.gate f' }

theorem modifyPort (h : Soon D B s) (p : PortId) {g : PortState → PortState}
    (hg : ∀ x ∈ (g (s.port p)).inFlight :: (g (s.port p)).queue.toList,
      x.bytes ≤ kMaxPacketBytes) : Soon D B (s.modifyPort p g) :=
  { h with
    queued := by
      intro q
      rw [modifyPort_port]
      by_cases hq : q = p
      · rw [hq, Function.update_self]
        exact hg
      · rw [Function.update_of_ne hq]
        exact h.queued q }

theorem pushAt (h : Soon D B s) {t : Nat} (ht : t ≤ B) {b : EventBody}
    (hb : ∀ p x, b = .arrive p x → x.bytes ≤ kMaxPacketBytes) : Soon D B (s.pushAt t b) :=
  { h with
    due := by
      intro e he
      rcases EventQueue.mem_agenda_push.mp he with rfl | he
      · exact ht
      · exact h.due e he
    carried := by
      intro e he
      rcases EventQueue.mem_agenda_push.mp he with rfl | he
      · exact hb
      · exact h.carried e he }

theorem noteTime (h : Soon D B s) (hB : B < 2 ^ 64) {δ : Nat} (hδ : δ ≤ D) :
    Soon D B (s.noteTime (s.now + δ)) :=
  { h with
    wrapped := by
      have hclock := h.clock
      rw [noteTime_wrapped, h.wrapped, Bool.false_or, decide_eq_false_iff_not]
      omega }

theorem u64_le (h : Soon D B s) {δ : Nat} (hδ : δ ≤ D) : u64 (s.now + δ) ≤ B :=
  (FabricSim.u64_le _).trans ((Nat.add_le_add_left hδ _).trans h.clock)

theorem pushAfter (h : Soon D B s) (hB : B < 2 ^ 64) {δ : Nat} (hδ : δ ≤ D) {b : EventBody}
    (hb : ∀ p x, b = .arrive p x → x.bytes ≤ kMaxPacketBytes) : Soon D B (s.pushAfter δ b) :=
  (h.noteTime hB hδ).pushAt (h.u64_le hδ) hb

section Handlers

variable (hB : B < 2 ^ 64) (hD : sim.Stride D)

/-! ## Ports -/

include hB hD in
theorem startTx (h : Soon D B s) (hp : p < sim.fabric.portCount) (hne : (s.port p).queue.count ≠ 0) :
    Soon D B (s.startTx sim p) := by
  have hqueued := h.queued p
  rw [BoundedFifo.toList_eq_cons hne] at hqueued
  have hfront := hqueued _ (List.mem_cons_of_mem _ List.mem_cons_self)
  unfold State.startTx
  apply (h.modifyPort p ?_).pushAfter hB
  · exact (serializationNs_mono hfront _).trans (hD.link p hp).1
  · exact fun _ _ hb => nomatch hb
  · exact fun x hx => hqueued x (List.mem_cons_of_mem _ hx)

theorem drop (h : Soon D B s) (p : PortId) (x : Packet) : Soon D B (s.drop p x) := by
  have hport := h.modifyPort p (g := fun ps =>
    { ps with
      packetsDropped := ps.packetsDropped + 1, bytesDropped := ps.bytesDropped + x.bytes })
    (h.queued p)
  unfold State.drop
  cases x.kind with
  | ack => exact hport.congr rfl rfl rfl rfl fun _ => rfl
  | data => exact hport.congr rfl rfl rfl rfl fun _ => rfl

include hB hD in
theorem enqueue (h : Soon D B s) (hp : p < sim.fabric.portCount) {x : Packet}
    (hx : x.bytes ≤ kMaxPacketBytes) :
    Soon D B (s.enqueue sim p x) := by
  unfold State.enqueue
  split
  · exact (h.congr rfl rfl rfl rfl fun _ => rfl : Soon D B (s.log _)).drop p x
  · next queue hpush =>
    have hin : Soon D B ((s.log (.offered s.now p x true)).modifyPort p fun ps =>
        { ps with queue := queue }) := by
      refine modifyPort (h.congr rfl rfl rfl rfl fun _ => rfl : Soon D B (s.log _)) p ?_
      intro y hy
      dsimp only at hy
      rw [BoundedFifo.toList_tryPush hpush, ← List.cons_append] at hy
      rcases List.mem_append.mp hy with hy | hy
      · exact h.queued p y hy
      · exact (List.mem_singleton.mp hy) ▸ hx
    dsimp only
    split
    · exact hin
    · refine hin.startTx hB hD hp ?_
      have hroom := (BoundedFifo.tryPush_count hpush).1
      rw [modifyPort_port, Function.update_self]
      dsimp only
      omega

include hB hD in
theorem onTxComplete (h : Soon D B s) (hp : p < sim.fabric.portCount) : Soon D B (s.onTxComplete sim p) := by
  have hsent : Soon D B (s.sendOff sim p) := by
    unfold State.sendOff
    apply (h.modifyPort p (h.queued p)).pushAfter hB (hD.link p hp).2
    intro q x hb
    obtain ⟨rfl, rfl⟩ := EventBody.arrive.inj hb
    exact h.queued p _ List.mem_cons_self
  unfold State.onTxComplete
  split
  · exact hsent.modifyPort p (hsent.queued p)
  · next hq =>
    refine hsent.startTx hB hD hp fun hzero => hq ?_
    unfold BoundedFifo.empty
    rw [hzero]
    rfl

/-! ## The endpoints -/

section Sender

variable (hr : sim.Routed) (ht : sim.transport.Accepted) (hf : f < sim.flowCount)

include hB hD hf in
theorem markSent (h : Soon D B s) (idx : Nat) : Soon D B (s.markSent sim f idx) where
  clock := by
    rw [markSent_now]
    exact h.clock
  wrapped := by
    have hnote := (h.noteTime hB (hD.pace f hf)).wrapped
    rwa [markSent_wrapped]
  due := by
    rw [markSent_queue]
    exact h.due
  gate := by
    intro f'
    rw [markSent_tx]
    by_cases hf' : f' = f
    · rw [hf', Function.update_self]
      exact h.u64_le (hD.pace f hf)
    · rw [Function.update_of_ne hf']
      exact h.gate f'
  carried := by
    rw [markSent_queue]
    exact h.carried
  queued := by
    rw [markSent_port]
    exact h.queued

include hB hD hr hf

theorem sendPacket (h : Soon D B s) (idx : Nat) : Soon D B (s.sendPacket sim f idx) := by
  have hbytes : (dataPacket sim s f idx).bytes ≤ kMaxPacketBytes :=
    (FlowSpec.packetBytes_le _ idx).trans (sim.spec_accepted hf).mtu_le
  unfold State.sendPacket
  refine enqueue hB hD ?_ (hr.srcNic_lt hf) hbytes
  refine congr ((h.markSent hB hD hf idx).pushAfter hB hD.rto ?_) rfl rfl rfl rfl fun _ => rfl
  exact fun _ _ hb => nomatch hb

theorem trySend (h : Soon D B s) : Soon D B (s.trySend sim f) := by
  have htake : ∀ {s : State} (head count : Nat), Soon D B s → Soon D B (s.drainRetx f head count) :=
    fun _ _ h => h.modifyTx f fun _ hgate => hgate
  refine trySend_rule (P := Soon D B) (Q := Soon D B) (fun _ h _ => h) ?_ ?_ ?_ ?_ (fun _ => h) h
  · intro s h _ _
    unfold State.waitTurn
    split
    · exact h
    · refine (h.modifyTx f (g := fun tx => { tx with sendScheduled := true })
        fun _ hgate => hgate).pushAt (h.gate f) ?_
      exact fun _ _ hb => nomatch hb
  · exact fun s head count h _ _ _ => htake head count h
  · exact fun s idx head count h _ _ _ => (htake head count h).sendPacket hB hD hr hf idx
  · intro s head count h _ _ _ _
    refine sendPacket hB hD hr hf (modifyTx (htake head count h) f ?_) _
    exact fun _ hgate => hgate

theorem onInject (h : Soon D B s) : Soon D B (s.onInject sim f) := by
  refine trySend hB hD hr hf (h.modifyTx f ?_)
  exact fun _ hgate => hgate

omit hB hD hr hf in
theorem land (h : Soon D B s) (f : FlowId) (idx : Nat) : Soon D B (s.land f idx) := by
  unfold State.land
  split
  · exact (h.congr rfl rfl rfl rfl fun _ => rfl : Soon D B (s.modifyPkt f idx _)).modifyTx f
      fun _ hgate => hgate
  · exact h

theorem onAck (h : Soon D B s) (idx : Nat) : Soon D B (s.onAck sim f idx) := by
  unfold State.onAck
  split
  · exact h
  · have hpkt : Soon D B (s.modifyPkt f idx fun st => { st with acked := true }) :=
      h.congr rfl rfl rfl rfl fun _ => rfl
    refine trySend hB hD hr hf (land (hpkt.modifyTx f ?_) f idx)
    exact fun _ hgate => hgate

theorem onTimeout (h : Soon D B s) (idx a : Nat) : Soon D B (s.onTimeout sim f idx a) := by
  have hland := h.land f idx
  unfold State.onTimeout
  split
  · exact h
  split
  · exact h
  split
  · exact h
  split
  · exact congr (hland.modifyTx f (g := fun tx => { tx with failed := true })
      fun _ hgate => hgate) rfl rfl rfl rfl fun _ => rfl
  · refine trySend hB hD hr hf ?_
    unfold State.requeue
    refine modifyTx ?_ f fun _ hgate => hgate
    exact hland.congr rfl rfl rfl rfl fun _ => rfl

omit hB hD hr hf in
theorem releaseFlow (h : Soon D B s) (f d : FlowId) : Soon D B (s.releaseFlow f d) := by
  have hnow : s.now ≤ B := (Nat.le_add_right _ D).trans h.clock
  have hstart : Soon D B (s.modifyResult d fun r => { r with startNs := s.now }) :=
    h.congr rfl rfl rfl rfl fun _ => rfl
  have hgate := hstart.modifyTx d (g := fun tx => { tx with nextSendNs := s.now }) fun _ _ => hnow
  unfold State.releaseFlow
  apply pushAt
  · exact hgate.congr rfl rfl rfl rfl fun _ => rfl
  · exact hnow
  · exact fun _ _ hb => nomatch hb

omit hB hD hr hf in
theorem deliver (h : Soon D B s) (f : FlowId) (idx bytes : Nat) :
    Soon D B (s.deliver sim f idx bytes) := by
  have hcount : Soon D B ((s.modifyPkt f idx fun st => { st with delivered := true }).modifyResult f
      fun r => { r with
        packetsDelivered := r.packetsDelivered + 1, deliveredBytes := r.deliveredBytes + bytes }) :=
    h.congr rfl rfl rfl rfl fun _ => rfl
  unfold State.deliver
  dsimp only
  split
  · unfold State.completeFlow
    refine List.foldlRecOn (motive := Soon D B) _ _ ?_ fun _ h d _ => h.releaseFlow f d
    exact hcount.congr rfl rfl rfl rfl fun _ => rfl
  · exact hcount

include ht in
theorem onDataArrival (h : Soon D B s) (idx bytes a : Nat) :
    Soon D B (s.onDataArrival sim f idx bytes a) := by
  have hcount : Soon D B (s.modifyStats fun st =>
      { st with bytesDelivered := st.bytesDelivered + bytes }) :=
    h.congr rfl rfl rfl rfl fun _ => rfl
  have hbytes : (ackPacket sim s f idx a).bytes ≤ kMaxPacketBytes := ht.ack_le
  unfold State.onDataArrival State.sendAck
  refine enqueue hB hD ?_ (hr.dstNic_lt hf) hbytes
  refine congr (s := if (s.pkt f idx).delivered then _ else _) ?_ rfl rfl rfl rfl fun _ => rfl
  split
  · exact hcount
  · exact hcount.deliver f idx bytes

end Sender

/-! ## Turns -/

include hB hD in
/-- A turn, with what the network says of its event. -/
theorem step (hr : sim.Routed) (hm : policy.Member) (ht : sim.transport.Accepted)
    (hs : sim.Reachable policy s) {e : Event} {queue : EventQueue}
    (hpop : s.queue.pop = some (e, queue)) (h : Soon D B (s.advance e queue))
    (hcarried : ∀ p x, e.body = .arrive p x → x.bytes ≤ kMaxPacketBytes) :
    Soon D B ((s.advance e queue).dispatch sim policy e.body) := by
  have he : e ∈ s.queue.agenda := by
    rw [EventQueue.agenda_of_pop hpop]
    exact List.mem_cons_self
  have hflow := hs.inRange.events e he
  obtain ⟨t, q, b⟩ := e
  cases b with
  | inject f => exact h.onInject hB hD hr (hflow f rfl)
  | txComplete p =>
    have hbusy : (s.port p).busy = true := (advance_finishing hs.coherent hpop rfl).busy
    have hon : (s.port p).inFlight ∈ s.onLink p := by
      unfold State.onLink PortState.backlog
      rw [hbusy, if_pos rfl]
      exact List.mem_append_right _ (List.mem_append_left _ List.mem_cons_self)
    exact h.onTxComplete hB hD ((hs.onWay hr hm p _ hon).port_lt hr)
  | timeout f idx a => exact h.onTimeout hB hD hr (hflow f rfl) idx a
  | arrive p x =>
    have hway := hs.onWay hr hm p x (mem_onLink_of_arrive hpop rfl)
    show Soon D B ((s.advance _ queue).onArrive sim policy p x)
    cases hh : (sim.fabric.node (sim.fabric.port p).peerNode).isHost with
    | true =>
      cases hk : x.kind with
      | ack =>
        rw [onArrive_ack hh hk]
        refine onAck hB hD hr hway.flow_lt ?_ x.index
        exact h.congr rfl rfl rfl rfl fun _ => rfl
      | data =>
        rw [onArrive_data hh hk]
        exact h.onDataArrival hB hD hr ht hway.flow_lt _ _ _
    | false =>
      rw [onArrive_switch hh]
      exact h.enqueue hB hD ((hway.next hr hm hh).port_lt hr) (hcarried p x rfl)

end Handlers

end Soon

section Run

variable {S : Nat}

theorem soon_begin (hstarts : ∀ f, f < sim.flowCount → (sim.spec f).startNs ≤ S)
    (leftover : State) : Soon D (S + D) (sim.beginRun leftover) where
  clock := by
    show 0 + D ≤ S + D
    omega
  wrapped := rfl
  due := by
    intro e he
    obtain ⟨f, hf, -, -, ht⟩ := Simulation.mem_agenda_beginRun leftover he
    have := hstarts f hf
    omega
  gate := fun _ => Nat.zero_le _
  carried := by
    intro e he p x hb
    obtain ⟨f, -, -, hinject, -⟩ := Simulation.mem_agenda_beginRun leftover he
    rw [hb] at hinject
    nomatch hinject
  queued := by
    intro p x hx
    obtain rfl : x = default := List.mem_singleton.mp hx
    exact Nat.zero_le _

/-- The clock moves to the event: what may be asked for moves along. -/
theorem Soon.advance (h : Soon D B s) {e : Event} {queue : EventQueue}
    (hpop : s.queue.pop = some (e, queue)) : Soon D (B + D) (s.advance e queue) := by
  have hagenda := EventQueue.agenda_of_pop hpop
  have hrest : ∀ e' ∈ queue.agenda, e' ∈ s.queue.agenda := by
    intro e' he'
    rw [hagenda]
    exact List.mem_cons_of_mem _ he'
  have he : e ∈ s.queue.agenda := by
    rw [hagenda]
    exact List.mem_cons_self
  exact
    { clock := Nat.add_le_add_right (h.due e he) D
      wrapped := h.wrapped
      due := fun e' he' => (h.due e' (hrest e' he')).trans (Nat.le_add_right B D)
      gate := fun f => (h.gate f).trans (Nat.le_add_right B D)
      carried := fun e' he' => h.carried e' (hrest e' he')
      queued := h.queued }

/-- The run: one stride more for every event taken. -/
theorem Simulation.Reachable.soon (hs : sim.Reachable policy s) (hr : sim.Routed)
    (hm : policy.Member) (ht : sim.transport.Accepted) (hD : sim.Stride D)
    (hstarts : ∀ f, f < sim.flowCount → (sim.spec f).startNs ≤ S)
    (hfit : S + (sim.eventBound + 1) * D < 2 ^ 64) :
    Soon D (S + (s.dispatchTimes.length + 1) * D) s := by
  refine Simulation.Reachable.invariant
    (P := fun s => Soon D (S + (s.dispatchTimes.length + 1) * D) s) (fun leftover => ?_) ?_ hs
  · have hnone : (sim.beginRun leftover).dispatchTimes = [] := rfl
    rw [hnone, List.length_nil, Nat.zero_add, Nat.one_mul]
    exact soon_begin hstarts leftover
  · intro s e queue hs ih hpop
    have hnext := hs.next (Simulation.step_eq_some_iff.mpr ⟨e, queue, hpop, rfl⟩)
    have hlen := hnext.dispatched_le hr hm ht
    rw [dispatchTimes_step, List.length_cons] at hlen
    have hstep : S + (s.dispatchTimes.length + 1 + 1) * D =
        S + (s.dispatchTimes.length + 1) * D + D := by
      rw [Nat.succ_mul, Nat.add_assoc]
    rw [dispatchTimes_step, List.length_cons, hstep]
    have hle : S + (s.dispatchTimes.length + 1) * D + D < 2 ^ 64 := by
      rw [← hstep]
      refine lt_of_le_of_lt (Nat.add_le_add_left (Nat.mul_le_mul_right D ?_) S) hfit
      exact Nat.succ_le_succ hlen
    refine (ih.advance hpop).step hle hD hr hm ht hs hpop fun p x hb => ?_
    refine ih.carried e ?_ p x hb
    rw [EventQueue.agenda_of_pop hpop]
    exact List.mem_cons_self

end Run

/-- A static bound on virtual time. When no delay of a simulation is longer than `D`, no flow
starts after `S`, and the most events that a run can have, at `D` each, fit after `S` into 64
bits, then no time of any run wraps; the clock has gone at most `D` for every event taken; it
never goes back; and what is pending is due within one more `D`. -/
theorem clock_never_wraps (sim : Simulation) (policy : RoutingPolicy) (hr : sim.Routed)
    (hm : policy.Member) (ht : sim.transport.Accepted) {D S : Nat} (hD : sim.Stride D)
    (hstarts : ∀ f, f < sim.flowCount → (sim.spec f).startNs ≤ S)
    (hfit : S + (sim.eventBound + 1) * D < 2 ^ 64) {s : State} (hs : sim.Reachable policy s) :
    s.wrapped = false ∧ s.now ≤ S + s.dispatchTimes.length * D ∧
      (s.dispatchTimes.Pairwise fun t t' => t' ≤ t) ∧
      ∀ e ∈ s.queue.agenda, s.now ≤ e.time ∧ e.time ≤ S + (s.dispatchTimes.length + 1) * D := by
  have hsoon := hs.soon hr hm ht hD hstarts hfit
  have hclock := hsoon.clock
  rw [Nat.succ_mul] at hclock
  refine ⟨hsoon.wrapped, by omega, (hs.forward hsoon.wrapped).falling, fun e he => ?_⟩
  exact ⟨(hs.onTime hsoon.wrapped).future e he, hsoon.due e he⟩

namespace Pair

/-- The timeout is the longest delay. -/
theorem stride : simulation.Stride 100000 where
  rto := le_rfl
  link := by
    intro p hp
    obtain ⟨hrate, hdelay⟩ := linksAlike p hp
    rw [hrate, hdelay]
    decide +kernel
  pace := by
    intro f hf
    obtain rfl : f = 0 := Nat.lt_one_iff.mp hf
    decide +kernel

end Pair

/-- Two hosts on a leaf: two packets, eight attempts at each, and links enough for 210
events. -/
theorem clock_never_wraps_pair : Pair.last.wrapped = false ∧
    Pair.last.now ≤ 0 + Pair.last.dispatchTimes.length * 100000 := by
  have hstarts : ∀ f, f < Pair.simulation.flowCount → (Pair.simulation.spec f).startNs ≤ 0 := by
    intro f hf
    obtain rfl : f = 0 := Nat.lt_one_iff.mp hf
    decide +kernel
  have hbound : Pair.simulation.eventBound = 210 := by
    have htotal : Pair.simulation.packetsTotal 0 = 2 := by decide +kernel
    have hattempts : Pair.simulation.transport.maxAttempts = 8 := rfl
    unfold Simulation.eventBound
    rw [show Pair.simulation.flowCount = 1 from rfl, sum_range_one, htotal, Pair.hops_eq, hattempts]
  have hfit : 0 + (Pair.simulation.eventBound + 1) * 100000 < 2 ^ 64 := by
    rw [hbound]
    omega
  have hs : Pair.simulation.Reachable StaticFirstPolicy Pair.last :=
    (Simulation.Reachable.begin Pair.fresh).runFor 100
  obtain ⟨hw, hnow, -⟩ := clock_never_wraps Pair.simulation StaticFirstPolicy Pair.routed
    staticFirst_member Pair.transport_accepted Pair.stride hstarts hfit hs
  exact ⟨hw, hnow⟩

end FabricSim
