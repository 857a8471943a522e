import FabricSim.Core.Ending
import FabricSim.Core.LaidOut
import FabricSim.Core.RoutingSafety
import FabricSim.Core.Sender

/-!
# The run in memory is the run on tables

Handler by handler, from `enqueue` up to the hot loop: on arrays that hold a state, the
handler of `Memory` stays inside them, and they hold afterwards what the handler of `State`
makes of that state. Three facts about runs are needed on the way. A packet at a link is on
a way of its flow, so the port that the policy picks exists (`Reachable.onWay`). A timer that
finds its packet alive finds a free place in the ring, for the packet was in flight
(`Books.timer`). And the counter of the events does not wrap (`Typed.nextSeq_le`), or the heap
would not compare its records as the agenda compares events.

`run_in_memory` puts a run between any other calls on the object.
-/

namespace FabricSim

open State Finset

namespace Laid

variable {sim : Simulation} {s : State} {m : Memory} {f : FlowId} {p : PortId} {x : Packet}

/-! ## Ports -/

theorem shows_count {ps : PortState} {r : PortRecord} (h : ps.Shows sim r) :
    r.queue.count = ps.queue.count := by
  have hlen := congrArg List.length h.items
  rwa [List.length_map, BoundedFifo.length_toList, BoundedFifo.length_toList] at hlen

theorem startTx (h : Laid sim s m) (hp : p < sim.fabric.portCount)
    (hne : (s.port p).queue.count ≠ 0) : Yields sim (m.startTx sim p) (s.startTx sim p) := by
  obtain ⟨r, hr, hshow⟩ := h.ports.read hp
  have hfront : ∀ r, (s.port p).Shows sim r → r.queue.front = (s.port p).queue.front.record ∧
      r.queue.pop.toList = (s.port p).queue.pop.toList.map Packet.record := by
    intro r hshow
    have hitems := hshow.items
    rw [BoundedFifo.toList_eq_cons hne, List.map_cons,
      BoundedFifo.toList_eq_cons (by rw [shows_count hshow]; exact hne)] at hitems
    exact List.cons.inj hitems
  have hin : ∀ y ∈ (s.port p).queue.toList, y.Fits sim := fun y hy =>
    hshow.fits y (List.mem_append_right _ hy)
  rw [BoundedFifo.toList_eq_cons hne] at hin
  have hbytes : r.queue.front.bytes.toNat = (s.port p).queue.front.bytes := by
    rw [(hfront r hshow).1]
    exact UInt16.toNat_ofNat_of_lt' (hin _ List.mem_cons_self).bytes_lt
  unfold Memory.startTx State.startTx
  refine Yields.read hr (Yields.bind (h.modifyPort hp (g := fun ps =>
    { ps with inFlight := (s.port p).queue.front, queue := ps.queue.pop, busy := true }) ?_)
      fun m₁ h₁ => ?_)
  · intro r hshow
    obtain ⟨hf, hpop⟩ := hfront r hshow
    refine ⟨rfl, fun _ => hf, hpop, ?_, hshow.sent, hshow.dropped, ?_⟩
    · dsimp only
      rw [BoundedFifo.pop_capacity, BoundedFifo.pop_capacity]
      exact hshow.capacity
    · intro y hy
      unfold PortState.backlog at hy
      exact hin y (by simpa using hy)
  · dsimp only
    rw [hbytes]
    exact (h₁.pushAfter _ (b := .txComplete p) hp).yields

theorem drop (h : Laid sim s m) (hp : p < sim.fabric.portCount) (hx : x.Fits sim)
    (hty : sim.Typed) : Yields sim (m.drop p x.record) (s.drop p x) := by
  have hbytes : x.record.bytes.toUInt64 = .ofNat x.bytes := UInt16.toUInt64_ofNat' hx.bytes_lt
  have hflow : x.record.flow.toNat = x.flow :=
    UInt32.toNat_ofNat_of_lt' (hx.flow_lt.trans (Simulation.flowCount_lt hty.packets))
  have hkind : x.record.kind = x.kind := rfl
  unfold Memory.drop State.drop
  refine Yields.bind (h.modifyPort hp (g := fun ps =>
    { ps with
      packetsDropped := ps.packetsDropped + 1, bytesDropped := ps.bytesDropped + x.bytes })
    fun r hshow => ?_) fun m₁ h₁ => ?_
  · exact ⟨hshow.busy, hshow.inFlight, hshow.items, hshow.capacity, hshow.sent,
      ⟨by simp [hshow.dropped.1], by simp [hshow.dropped.2, hbytes]⟩, hshow.fits⟩
  · rw [hkind, hbytes, hflow]
    cases x.kind with
    | ack => exact (h₁.modifyStats _ _ (by simp [RunStats.record])).yields
    | data =>
      refine (h₁.modifyStats _ _ ?_).modifyResult hx.flow_lt ?_
      · simp [RunStats.record]
      · simp [FlowResult.row]

theorem enqueue (h : Laid sim s m) (hp : p < sim.fabric.portCount) (hx : x.Fits sim)
    (hty : sim.Typed) : Yields sim (m.enqueue sim p x.record) (s.enqueue sim p x) := by
  obtain ⟨r, hr, hshow⟩ := h.ports.read hp
  have hcount := shows_count hshow
  unfold Memory.enqueue State.enqueue
  refine Yields.read hr ?_
  cases hpush : (s.port p).queue.tryPush x with
  | none =>
    have hfull : r.queue.tryPush x.record = none := by
      rw [BoundedFifo.tryPush_eq_none_iff, hcount, hshow.capacity]
      exact (BoundedFifo.tryPush_eq_none_iff _ _).mp hpush
    rw [hfull]
    exact (h.log _).drop hp hx hty
  | some queue =>
    cases hpush' : r.queue.tryPush x.record with
    | none =>
      rw [BoundedFifo.tryPush_eq_none_iff, hcount, hshow.capacity,
        ← BoundedFifo.tryPush_eq_none_iff _ x, hpush] at hpush'
      nomatch hpush'
    | some queue' =>
      have hroom := (BoundedFifo.tryPush_count hpush).1
      refine Yields.bind ((h.log (.offered s.now p x true)).modifyPort hp
        (g := fun ps => { ps with queue := queue }) fun r' hshow' => ?_) fun m₁ h₁ => ?_
      · refine ⟨hshow'.busy, hshow'.inFlight, ?_, ?_, hshow'.sent, hshow'.dropped, ?_⟩
        · dsimp only
          rw [BoundedFifo.toList_tryPush hpush, BoundedFifo.toList_tryPush hpush', hshow.items,
            List.map_append, List.map_singleton]
        · dsimp only
          rw [(BoundedFifo.tryPush_count hpush).2, (BoundedFifo.tryPush_count hpush').2]
          exact hshow.capacity
        · intro y hy
          unfold PortState.backlog at hy
          dsimp only at hy
          rw [BoundedFifo.toList_tryPush hpush, ← List.append_assoc] at hy
          rcases List.mem_append.mp hy with hy | hy
          · exact hshow.fits y hy
          · rw [List.mem_singleton.mp hy]
            exact hx
      · rw [hshow.busy]
        cases hb : (s.port p).busy with
        | true => exact h₁.yields
        | false =>
          refine h₁.startTx hp ?_
          simp only [State.modifyPort_port, State.log_port, Function.update_self]
          omega

theorem onTxComplete (h : Laid sim s m) {e : EventRecord} (hport : e.port = p)
    (hp : p < sim.fabric.portCount) (hbusy : (s.port p).busy = true) :
    Yields sim (m.onTxComplete sim e) (s.onTxComplete sim p) := by
  subst hport
  obtain ⟨r, hr, hshow⟩ := h.ports.read hp
  have hpkt := hshow.inFlight hbusy
  have hx : (s.port e.port).inFlight.Fits sim := by
    refine hshow.fits _ (List.mem_append_left _ ?_)
    rw [hbusy, if_pos rfl]
    exact List.mem_singleton.mpr rfl
  have hempty : r.queue.empty = (s.port e.port).queue.empty := by
    unfold BoundedFifo.empty
    rw [shows_count hshow]
  have hqueue : ((s.sendOff sim e.port).port e.port).queue = (s.port e.port).queue := by simp
  unfold Memory.onTxComplete State.onTxComplete
  refine Yields.read hr (Yields.bind (h.modifyPort hp (g := fun ps =>
    { ps with
      packetsSent := ps.packetsSent + 1
      bytesSent := ps.bytesSent + (s.port e.port).inFlight.bytes }) ?_) fun m₁ h₁ => ?_)
  · intro r' hshow'
    refine ⟨hshow'.busy, hshow'.inFlight, hshow'.items, hshow'.capacity, ⟨?_, ?_⟩,
      hshow'.dropped, hshow'.fits⟩
    · simp [hshow'.sent.1]
    · dsimp only
      rw [hshow'.sent.2, hshow'.inFlight hbusy, UInt64.ofNat_add]
      exact congrArg (_ + ·) (UInt16.toUInt64_ofNat' hx.bytes_lt)
  · have h₂ := h₁.pushAfter (sim.fabric.port e.port).propDelayNs
      (b := .arrive e.port (s.port e.port).inFlight) ⟨hp, hx⟩
    dsimp only
    rw [hqueue, hempty, hpkt]
    cases hq : (s.port e.port).queue.empty with
    | true =>
      rw [if_pos rfl, if_pos rfl]
      refine h₂.modifyPort hp (g := fun ps => { ps with busy := false }) fun r' hshow' => ?_
      refine ⟨rfl, fun hb => absurd hb Bool.false_ne_true, hshow'.items, hshow'.capacity, hshow'.sent,
        hshow'.dropped, fun y hy => hshow'.fits y (List.mem_append_right _ ?_)⟩
      unfold PortState.backlog at hy
      simpa using hy
    | false =>
      rw [if_neg (by simp), if_neg (by simp)]
      refine h₂.startTx hp ?_
      simpa [BoundedFifo.empty] using hq

/-! ## The sender -/

section Sender

variable (hr : sim.Routed) (hty : sim.Typed)

theorem packetBytes_lt (hf : f < sim.flowCount) (idx : Nat) :
    (sim.spec f).packetBytes idx < 2 ^ 16 := by
  have hle := (sim.spec f).packetBytes_le idx
  have hmtu := (sim.spec_accepted hf).mtu_le
  unfold kMaxPacketBytes at hmtu
  omega

theorem countRetx (h : Laid sim s m) (hf : f < sim.flowCount) {idx : Nat} {a : UInt8}
    (ha : a.toNat = s.pktAttempt f idx) :
    Yields sim (m.countRetx f a) (s.countRetx f idx) := by
  have hpos : 0 < a ↔ 0 < s.pktAttempt f idx := by
    rw [UInt8.lt_iff_toNat_lt, ha]
    rfl
  unfold Memory.countRetx State.countRetx
  by_cases hagain : 0 < s.pktAttempt f idx
  · rw [if_pos (hpos.mpr hagain), if_pos hagain]
    refine (h.modifyStats _ _ ?_).modifyResult hf ?_
    · simp [RunStats.record]
    · simp [FlowResult.row]
  · rw [if_neg (fun hlt => hagain (hpos.mp hlt)), if_neg hagain]
    exact h.yields

include hr hty

theorem sendPacket (h : Laid sim s m) (hf : f < sim.flowCount) {idx : Nat}
    (hidx : idx < sim.packetsTotal f) (hroom : (s.tx f).inFlight < sim.window f) :
    Yields sim (m.sendPacket sim f idx) (s.sendPacket sim f idx) := by
  obtain ⟨a, ha, hval⟩ := h.readAttempt hty hf hidx
  have hacc := sim.spec_accepted hf
  have hwire : (sim.spec f).wireBytes idx = .ofNat ((sim.spec f).packetBytes idx) :=
    FlowSpec.wireBytes_eq hacc.mtu_pos hacc.mtu_le (Simulation.packetsExact_le hty.packets hf) hidx
  have hwide : (UInt16.ofNat ((sim.spec f).packetBytes idx)).toUInt64 =
      .ofNat ((sim.spec f).packetBytes idx) := UInt16.toUInt64_ofNat' (packetBytes_lt hf idx)
  have hbyte : a = .ofNat (s.pktAttempt f idx) := by
    rw [← hval]
    exact UInt8.ofNat_toNat.symm
  have hattempt : s.pktAttempt f idx < 2 ^ 8 := hval ▸ a.toNat_lt
  unfold Memory.sendPacket State.sendPacket State.markSent
  dsimp only
  rw [hwire, hwide]
  refine Yields.read ha (Yields.bind (h.countRetx hf hval) fun m₁ h₁ => ?_)
  refine Yields.bind (h₁.modifyPkt hty hf hidx (g := fun st => { st with inFlight := true })
    (PktState.flags_inFlight _)) fun m₂ h₂ => ?_
  have h₃ := h₂.modifyStats (fun st =>
      { st with bytesInjected := st.bytesInjected + (sim.spec f).packetBytes idx })
    (fun st =>
      { st with bytesInjected := st.bytesInjected + .ofNat ((sim.spec f).packetBytes idx) })
    (by simp [RunStats.record])
  have htx : (s.countRetx f idx).tx = s.tx := by
    unfold State.countRetx
    split <;> rfl
  refine Yields.bind (h₃.modifyTx hf (g := fun tx =>
    { tx with
      inFlight := tx.inFlight + 1, nextSendNs := u64 ((s.countRetx f idx).now + sim.periodNs f) })
      ?_ ?_) fun m₄ h₄ => ?_
  · simp [FlowTx.record, h₃.later]
  · have hsound := h₃.senders f hf
    refine { hsound with room := ?_, next_lt := u64_lt _ }
    show ((s.countRetx f idx).tx f).inFlight < sim.window f
    rwa [htx]
  have h₅ := (h₄.noteTime ((s.countRetx f idx).now + sim.periodNs f)).nextSerial.pushAfter
    sim.transport.rtoNs (b := .timeout f idx (s.pktAttempt f idx)) ⟨hf, hidx, hattempt⟩
  have hfits : (dataPacket sim s f idx).Fits sim := ⟨hf, hidx, packetBytes_lt hf idx⟩
  rw [hbyte]
  exact (h₅.log _).enqueue (hr.srcNic_lt hf) hfits hty

omit hr in
theorem popRetx (h : Laid sim s m) (hf : f < sim.flowCount) : ∀ {count head : Nat},
    RingSound (sim.window f) (sim.packetsTotal f) head count (s.retxRing f) →
      m.popRetx sim f (.ofNat head) count =
        some ((State.popRetx (sim.window f) (s.retxRing f) (fun i => (s.pkt f i).acked) head
          count).map id (.map .ofNat id)) := by
  have hwindow := hty.window_lt hf
  intro count
  induction count with
  | zero => intro head _; rfl
  | succ count ih =>
    intro head hring
    have hhead := hring.head_lt
    obtain ⟨w, hw, hval⟩ := h.readRing hty hf hhead
    have hst := h.readState hty hf hring.front
    have hword : (UInt32.ofNat head).toNat = head := UInt32.toNat_ofNat_of_lt' (hhead.trans hwindow)
    have hnext : (if UInt32.ofNat head + 1 = .ofNat (sim.window f) then 0
        else UInt32.ofNat head + 1) = .ofNat (Ring.next (sim.window f) head) := by
      have hinj : UInt32.ofNat (head + 1) = .ofNat (sim.window f) ↔ head + 1 = sim.window f := by
        rw [← UInt32.toNat_inj, UInt32.toNat_ofNat_of_lt' hwindow,
          UInt32.toNat_ofNat_of_lt' (Nat.lt_of_le_of_lt hhead hwindow)]
      have hone : UInt32.ofNat head + 1 = .ofNat (head + 1) := (UInt32.ofNat_add head 1).symm
      unfold Ring.next
      rw [hone]
      simp only [hinj]
      split <;> rfl
    rw [← hval] at hst
    unfold Memory.popRetx State.popRetx
    rw [hword, hw]
    simp only [Option.bind_eq_bind, Option.bind_some, hst, hnext]
    rw [← hval]
    have hflag := PktState.acked_iff (s.pkt f w.toNat)
    cases hack : (s.pkt f w.toNat).acked with
    | true =>
      rw [if_neg (hflag.mpr hack), if_pos rfl]
      exact ih hring.pop
    | false =>
      rw [if_pos (not_not.mp fun hne => by simp [hflag.mp hne] at hack), if_neg (by simp)]
      rfl

omit hr hty in
theorem waitTurn (h : Laid sim s m) (hf : f < sim.flowCount) :
    Yields sim (m.waitTurn f) (s.waitTurn f) := by
  have hsound := h.senders f hf
  unfold Memory.waitTurn State.waitTurn
  refine Yields.read (h.readTx hf) ?_
  show Yields sim (if (s.tx f).sendScheduled = true then _ else _) _
  split
  · exact h.yields
  · refine Yields.bind (h.modifyTx hf (g := fun tx => { tx with sendScheduled := true }) rfl
      { hsound with }) fun m₁ h₁ => ?_
    exact (h₁.pushAt hsound.next_lt (b := .inject f) hf).yields

theorem sendLoop (hf : f < sim.flowCount) : ∀ (fuel : Nat) {s : State} {m : Memory},
    Laid sim s m → Yields sim (Memory.sendLoop sim f fuel m) (State.sendLoop sim f fuel s) := by
  have hwindow := hty.window_lt hf
  intro fuel
  induction fuel with
  | zero => intro s m h; exact h.yields
  | succ fuel ih =>
    intro s m h
    have hsound := h.senders f hf
    have hring := hsound.ring
    obtain ⟨hin, hleft⟩ := hring.popRetx fun i => (s.pkt f i).acked
    -- the comparisons of words are those of numbers
    have hroom : (s.tx f).record.inFlight < .ofNat (sim.window f) ↔
        (s.tx f).inFlight < sim.window f :=
      UInt32.ofNat_lt_iff_lt (hsound.room.trans_lt hwindow) hwindow
    have hgate : m.now < (s.tx f).record.nextSendNs ↔ s.now < (s.tx f).nextSendNs := by
      rw [h.now]
      exact UInt64.ofNat_lt_iff_lt h.now_lt hsound.next_lt
    have hdone : UInt32.ofNat (sim.packetsTotal f) ≤ (s.tx f).record.nextSeq ↔
        sim.packetsTotal f ≤ (s.tx f).nextSeq :=
      UInt32.ofNat_le_iff_le (u32_lt _) (hsound.seq.trans_lt (u32_lt _))
    have hcount : (s.tx f).record.retxCount.toNat = (s.tx f).retxCount :=
      UInt32.toNat_ofNat_of_lt' (hring.count_le.trans_lt hwindow)
    have hseq : (s.tx f).record.nextSeq.toNat = (s.tx f).nextSeq :=
      UInt32.toNat_ofNat_of_lt' (hsound.seq.trans_lt (u32_lt _))
    unfold Memory.sendLoop State.sendLoop
    refine Yields.read (h.readTx hf) ?_
    simp only [hroom, hgate, hdone, hcount, hseq]
    split
    · next hopen =>
      split
      · exact h.waitTurn hf
      · show Yields sim (m.popRetx sim f (.ofNat (s.tx f).retxHead) _ >>= _) _
        rw [h.popRetx hty hf hring]
        unfold State.nextRetx
        generalize State.popRetx (sim.window f) (s.retxRing f) (fun i => (s.pkt f i).acked)
          (s.tx f).retxHead (s.tx f).retxCount = r at *
        obtain ⟨next, head, count⟩ := r
        refine Yields.bind (h.modifyTx hf (g := fun tx =>
          { tx with retxHead := head, retxCount := count }) rfl { hsound with ring := hleft })
            fun m₁ h₁ => ?_
        have h₁ : Laid sim (s.drainRetx f head count) m₁ := h₁
        have hopen₁ : ((s.drainRetx f head count).tx f).inFlight < sim.window f := by
          simpa using hopen
        cases next with
        | some idx =>
          exact (h₁.sendPacket hr hty hf (hin idx rfl) hopen₁).bind fun m₂ h₂ => ih h₂
        | none =>
          show Yields sim (if sim.packetsTotal f ≤ (s.tx f).nextSeq then _ else _) _
          dsimp only
          split
          · exact h₁.yields
          · next hmore =>
            have hmore := Nat.not_le.mp hmore
            refine Yields.bind (h₁.modifyTx hf (g := fun tx =>
              { tx with nextSeq := tx.nextSeq + 1 }) (by simp [FlowTx.record])
                { h₁.senders f hf with seq := ?_ }) fun m₂ h₂ => ?_
            · show ((s.drainRetx f head count).tx f).nextSeq + 1 ≤ sim.packetsTotal f
              simpa using hmore
            have h₂ : Laid sim ((s.drainRetx f head count).takeSeq f) m₂ := h₂
            exact (h₂.sendPacket hr hty hf hmore (by simpa using hopen)).bind fun m₃ h₃ => ih h₃
    · exact h.yields

theorem trySend (h : Laid sim s m) (hf : f < sim.flowCount) :
    Yields sim (m.trySend sim f) (s.trySend sim f) := by
  have hfuel : (s.tx f).record.inFlight.toNat = (s.tx f).inFlight :=
    UInt32.toNat_ofNat_of_lt' ((h.senders f hf).room.trans_lt (hty.window_lt hf))
  unfold Memory.trySend State.trySend
  refine Yields.read (h.readTx hf) ?_
  rw [hfuel]
  show Yields sim (if (s.tx f).failed = true then _ else _) _
  split
  · exact h.yields
  · exact sendLoop hr hty hf _ h

theorem onInject (h : Laid sim s m) {e : EventRecord} (hflow : e.flow = f)
    (hf : f < sim.flowCount) : Yields sim (m.onInject sim e) (s.onInject sim f) := by
  subst hflow
  unfold Memory.onInject State.onInject
  refine Yields.bind (h.modifyTx hf (g := fun tx => { tx with sendScheduled := false }) rfl
    { h.senders _ hf with }) fun m₁ h₁ => ?_
  exact h₁.trySend hr hty hf

omit hr in
/-- A packet in flight is counted there. -/
theorem land (h : Laid sim s m) (hf : f < sim.flowCount) {idx : Nat}
    (hidx : idx < sim.packetsTotal f)
    (hcounted : (s.pkt f idx).inFlight = true → 0 < (s.tx f).inFlight) :
    Yields sim (m.land sim f idx) (s.land f idx) := by
  have hflag := PktState.inFlight_iff (s.pkt f idx)
  unfold Memory.land State.land
  refine Yields.read (h.readState hty hf hidx) ?_
  cases hair : (s.pkt f idx).inFlight with
  | true =>
    rw [if_pos (hflag.mpr hair), if_pos rfl]
    refine Yields.bind (h.modifyPkt hty hf hidx (g := fun st => { st with inFlight := false })
      (PktState.flags_landed _)) fun m₁ h₁ => ?_
    have hsound := h₁.senders f hf
    refine h₁.modifyTx hf ?_ { hsound with room := (Nat.sub_le _ 1).trans hsound.room }
    have hminus := UInt32.ofNat_sub (hcounted hair)
    simpa [FlowTx.record] using hminus.symm
  | false =>
    rw [if_neg (fun hne => by simp [hflag.mp hne] at hair), if_neg (by simp)]
    exact h.yields

theorem onAck (h : Laid sim s m) (hf : f < sim.flowCount) {idx : Nat}
    (hidx : idx < sim.packetsTotal f)
    (hcounted : (s.pkt f idx).inFlight = true → 0 < (s.tx f).inFlight) :
    Yields sim (m.onAck sim f idx) (s.onAck sim f idx) := by
  have hflag := PktState.acked_iff (s.pkt f idx)
  unfold Memory.onAck State.onAck
  refine Yields.read (h.readState hty hf hidx) ?_
  cases hack : (s.pkt f idx).acked with
  | true =>
    rw [if_pos (hflag.mpr hack), if_pos rfl]
    exact h.yields
  | false =>
    rw [if_neg (fun hne => by simp [hflag.mp hne] at hack), if_neg (by simp)]
    refine Yields.bind (h.modifyPkt hty hf hidx (g := fun st => { st with acked := true })
      (PktState.flags_acked _)) fun m₁ h₁ => ?_
    refine Yields.bind (h₁.modifyTx hf (g := fun tx =>
      { tx with ackedCount := tx.ackedCount + 1 }) (by simp [FlowTx.record])
        { h₁.senders f hf with }) fun m₂ h₂ => ?_
    refine (h₂.land hty hf hidx ?_).bind fun m₃ h₃ => h₃.trySend hr hty hf
    simpa using hcounted

omit hr in
/-- There is a free slot for a packet that was in flight. -/
theorem requeue (h : Laid sim s m) (hf : f < sim.flowCount) {idx : Nat}
    (hidx : idx < sim.packetsTotal f) (hlt : s.pktAttempt f idx + 1 < 2 ^ 8)
    (hroom : (s.tx f).retxCount < sim.window f) :
    Yields sim (m.requeue sim f idx) (s.requeue sim f idx) := by
  have hring := (h.senders f hf).ring
  have hhead := hring.head_lt
  have hslot := Ring.slot_lt hhead hroom
  have hwindow := hty.windows f hf
  -- the word of the sum, for windows up to `2 ^ 31`
  have htail : (if UInt32.ofNat (sim.window f) ≤ (s.tx f).record.retxHead + (s.tx f).record.retxCount
      then (s.tx f).record.retxHead + (s.tx f).record.retxCount - .ofNat (sim.window f)
      else (s.tx f).record.retxHead + (s.tx f).record.retxCount) =
        .ofNat (Ring.slot (sim.window f) (s.tx f).retxHead (s.tx f).retxCount) := by
    have hsum : (s.tx f).record.retxHead + (s.tx f).record.retxCount =
        .ofNat ((s.tx f).retxHead + (s.tx f).retxCount) := (UInt32.ofNat_add _ _).symm
    have hle : UInt32.ofNat (sim.window f) ≤ .ofNat ((s.tx f).retxHead + (s.tx f).retxCount) ↔
        sim.window f ≤ (s.tx f).retxHead + (s.tx f).retxCount :=
      UInt32.ofNat_le_iff_le (hwindow.trans_lt (by decide)) (by show _ < 2 ^ 32; omega)
    rw [hsum]
    unfold Ring.slot
    simp only [hle]
    split
    · next hwrap => exact (UInt32.ofNat_sub hwrap).symm
    · rfl
  have htailNat : (UInt32.ofNat (Ring.slot (sim.window f) (s.tx f).retxHead
      (s.tx f).retxCount)).toNat = Ring.slot (sim.window f) (s.tx f).retxHead (s.tx f).retxCount :=
    UInt32.toNat_ofNat_of_lt' (hslot.trans (hty.window_lt hf))
  unfold Memory.requeue State.requeue State.retxTail
  refine Yields.bind (h.nextAttempt hty hf hidx hlt) fun m₁ h₁ => ?_
  refine Yields.read (h₁.readTx hf) ?_
  dsimp only
  rw [nextAttempt_tx, htail, htailNat]
  refine Yields.bind (h₁.setRing hty hf hslot hidx) fun m₂ h₂ => ?_
  have hsound := h₂.senders f hf
  refine h₂.modifyTx hf (by simp [FlowTx.record]) { hsound with ring := ?_ }
  refine RingSound.grow hsound.ring hroom ?_
  simpa using hidx

theorem onTimeout (h : Laid sim s m) (ht : sim.transport.Accepted) {e : EventRecord}
    {idx a : Nat} (hflow : e.flow = f) (hindex : e.packetIndex = idx) (ha : e.attempt.toNat = a)
    (hf : f < sim.flowCount) (hidx : idx < sim.packetsTotal f)
    (hroom : (s.pkt f idx).acked = false → s.pktAttempt f idx = a → (s.tx f).failed = false →
      ((s.land f idx).tx f).retxCount < sim.window f)
    (hcounted : (s.pkt f idx).inFlight = true → 0 < (s.tx f).inFlight) :
    Yields sim (m.onTimeout sim e) (s.onTimeout sim f idx a) := by
  subst hflow hindex
  have hflag := PktState.acked_iff (s.pkt e.flow e.packetIndex)
  obtain ⟨b, hb, hval⟩ := h.readAttempt hty hf hidx
  have hstale : b ≠ e.attempt ↔ s.pktAttempt e.flow e.packetIndex ≠ a := by
    rw [← hval, ← ha, ne_eq, ne_eq, UInt8.toNat_inj]
  unfold Memory.onTimeout State.onTimeout
  refine Yields.read (h.readState hty hf hidx) (Yields.read hb (Yields.read (h.readTx hf) ?_))
  cases hack : (s.pkt e.flow e.packetIndex).acked with
  | true =>
    rw [if_pos (hflag.mpr hack), if_pos rfl]
    exact h.yields
  | false =>
    rw [if_neg (fun hne => by simp [hflag.mp hne] at hack), if_neg Bool.false_ne_true]
    by_cases hatt : s.pktAttempt e.flow e.packetIndex ≠ a
    · rw [if_pos (hstale.mpr hatt), if_pos hatt]
      exact h.yields
    · rw [if_neg (fun hne => hatt (hstale.mp hne)), if_neg hatt]
      have hfailed : (s.tx e.flow).record.failed = (s.tx e.flow).failed := rfl
      rw [hfailed]
      cases hfail : (s.tx e.flow).failed with
      | true =>
        rw [if_pos rfl, if_pos rfl]
        exact h.yields
      | false =>
        rw [if_neg Bool.false_ne_true, if_neg Bool.false_ne_true, hval]
        have hcount := hroom hack (not_not.mp hatt) hfail
        refine Yields.bind (h.land hty hf hidx hcounted) fun m₁ h₁ => ?_
        split
        · refine Yields.bind (h₁.modifyTx hf (g := fun tx => { tx with failed := true }) rfl
            { h₁.senders _ hf with }) fun m₂ h₂ => ?_
          exact h₂.modifyResult hf rfl
        · next hmore =>
          have hlt : (s.land e.flow e.packetIndex).pktAttempt e.flow e.packetIndex + 1 < 2 ^ 8 := by
            have hmax := ht.attempts_lt
            have hsame : (s.land e.flow e.packetIndex).pktAttempt = s.pktAttempt := by
              unfold State.land
              split <;> rfl
            rw [hsame]
            omega
          exact (h₁.requeue hty hf hidx hlt hcount).bind fun m₂ h₂ => h₂.trySend hr hty hf

/-! ## The receiver -/

omit hr hty in
theorem releaseFlow (h : Laid sim s m) (byFlow : FlowId) {d : FlowId} (hd : d < sim.flowCount) :
    Yields sim (m.releaseFlow d) (s.releaseFlow byFlow d) := by
  unfold Memory.releaseFlow State.releaseFlow
  refine Yields.bind (h.modifyResult hd (g := fun r => { r with startNs := s.now })
    (by rw [h.now]; rfl)) fun m₁ h₁ => ?_
  refine Yields.bind (h₁.modifyTx hd (g := fun tx => { tx with nextSendNs := s.now })
    (by rw [h₁.now]; rfl) { h₁.senders d hd with next_lt := h.now_lt }) fun m₂ h₂ => ?_
  have h₃ := (h₂.log (.released s.now byFlow d)).pushAt h.now_lt (b := .inject d) hd
  have hnow : m₂.now = .ofNat s.now := h₂.now
  rw [← hnow] at h₃
  exact h₃.yields

omit hr hty in
theorem completeFlow (h : Laid sim s m) (hf : f < sim.flowCount) :
    Yields sim (m.completeFlow sim f) (s.completeFlow sim f) := by
  have hloop : ∀ (l : List FlowId) {s : State} {m : Memory}, (∀ d ∈ l, d < sim.flowCount) →
      Laid sim s m → Yields sim (l.foldlM Memory.releaseFlow m) (l.foldl (State.releaseFlow f) s) := by
    intro l
    induction l with
    | nil => intro s m _ h; exact h.yields
    | cons d l ih =>
      intro s m hl h
      rw [List.foldlM_cons, List.foldl_cons]
      exact (h.releaseFlow f (hl d List.mem_cons_self)).bind fun m₁ h₁ =>
        ih (fun d' hd' => hl d' (List.mem_cons_of_mem _ hd')) h₁
  unfold Memory.completeFlow State.completeFlow
  refine Yields.bind (h.modifyResult hf (g := fun r => { r with finishNs := s.now, complete := true })
    (by rw [h.now]; rfl)) fun m₁ h₁ => ?_
  exact hloop _ (fun d hd => ((Simulation.mem_dependents sim).mp hd).1) h₁

omit hr in
theorem deliver (h : Laid sim s m) (hf : f < sim.flowCount) {idx : Nat}
    (hidx : idx < sim.packetsTotal f) {bytes : UInt16} {n : Nat} (hn : bytes.toNat = n)
    (hmore : (s.result f).packetsDelivered < sim.packetsTotal f) :
    Yields sim (m.deliver sim f idx bytes) (s.deliver sim f idx n) := by
  unfold Memory.deliver State.deliver
  refine Yields.bind (h.modifyPkt hty hf hidx (g := fun st => { st with delivered := true })
    (PktState.flags_delivered _)) fun m₁ h₁ => ?_
  refine Yields.bind (h₁.modifyResult hf (g := fun r =>
    { r with
      packetsDelivered := r.packetsDelivered + 1, deliveredBytes := r.deliveredBytes + n })
        (by simp [FlowResult.row, toUInt64_of_toNat hn])) fun m₂ h₂ => ?_
  refine Yields.read (h₂.readResult hf) ?_
  have hword : sim.packetsTotal f < 2 ^ 32 := u32_lt _
  have hall : UInt32.ofNat ((s.result f).packetsDelivered + 1) = .ofNat (sim.packetsTotal f) ↔
      (s.result f).packetsDelivered + 1 = sim.packetsTotal f := by
    rw [← UInt32.toNat_inj, UInt32.toNat_ofNat_of_lt' hword,
      UInt32.toNat_ofNat_of_lt' (Nat.lt_of_le_of_lt hmore hword)]
  simp only [FlowResult.row, modifyResult_result, modifyPkt_result, Function.update_self, hall]
  split
  · exact h₂.completeFlow hf
  · exact h₂.yields

omit hr in
theorem receive (h : Laid sim s m) (hf : f < sim.flowCount) {idx : Nat}
    (hidx : idx < sim.packetsTotal f) {bytes : UInt16} {n : Nat} (hn : bytes.toNat = n)
    (hmore : (s.pkt f idx).delivered = false →
      (s.result f).packetsDelivered < sim.packetsTotal f) : Yields sim (m.receive sim f idx bytes)
      (if (s.pkt f idx).delivered then s else s.deliver sim f idx n) := by
  have hflag := PktState.delivered_iff (s.pkt f idx)
  unfold Memory.receive
  refine Yields.read (h.readState hty hf hidx) ?_
  cases hdel : (s.pkt f idx).delivered with
  | true =>
    rw [if_pos (hflag.mpr hdel), if_pos rfl]
    exact h.yields
  | false =>
    rw [if_neg (fun hne => by simp [hflag.mp hne] at hdel), if_neg Bool.false_ne_true]
    exact h.deliver hty hf hidx hn (hmore hdel)

theorem onDataArrival (h : Laid sim s m) (ht : sim.transport.Accepted) (hf : f < sim.flowCount)
    {idx : Nat} (hidx : idx < sim.packetsTotal f) {bytes : UInt16} {n : Nat}
    (hn : bytes.toNat = n) (attempt : Nat)
    (hmore : (s.pkt f idx).delivered = false →
      (s.result f).packetsDelivered < sim.packetsTotal f) :
    Yields sim (m.onDataArrival sim f idx bytes) (s.onDataArrival sim f idx n attempt) := by
  have hack : sim.transport.ackBytes < 2 ^ 16 := by
    have hle := ht.ack_le
    unfold kMaxPacketBytes at hle
    omega
  have hwide : (UInt16.ofNat sim.transport.ackBytes).toUInt64 = .ofNat sim.transport.ackBytes :=
    UInt16.toUInt64_ofNat' hack
  unfold Memory.onDataArrival State.onDataArrival
  have h₁ := h.modifyStats
    (fun st => { st with bytesDelivered := st.bytesDelivered + n })
    (fun st => { st with bytesDelivered := st.bytesDelivered + bytes.toUInt64 })
    (by simp [RunStats.record, toUInt64_of_toNat hn])
  refine Yields.bind (h₁.receive hty hf hidx hn hmore) fun m₂ h₂ => ?_
  unfold State.sendAck
  have h₃ := (h₂.modifyStats
    (fun st => { st with ackBytesInjected := st.ackBytesInjected + sim.transport.ackBytes })
    (fun st =>
      { st with ackBytesInjected := st.ackBytesInjected + .ofNat sim.transport.ackBytes })
    (by simp [RunStats.record])).nextSerial
  dsimp only
  rw [hwide]
  exact (h₃.log _).enqueue (x := ackPacket sim _ f idx attempt) (hr.dstNic_lt hf)
    ⟨hf, hidx, hack⟩ hty

/-! ## Arrivals and the hot loop -/

theorem onArrive (h : Laid sim s m) (ht : sim.transport.Accepted) (policy : RoutingPolicy)
    (t q : UInt64) (hp : p < sim.fabric.portCount) (hx : x.Fits sim)
    (hnext : (sim.fabric.node (sim.fabric.port p).peerNode).isHost = false →
      nextPort sim policy s p x < sim.fabric.portCount)
    (hcounted : (s.pkt x.flow x.index).inFlight = true → 0 < (s.tx x.flow).inFlight)
    (hmore : (s.pkt x.flow x.index).delivered = false →
      (s.result x.flow).packetsDelivered < sim.packetsTotal x.flow)
    (hevents : s.stats.eventsProcessed < 2 ^ 64) :
    Yields sim (m.onArrive sim policy { (EventBody.arrive p x).record t with seq := q })
      (s.onArrive sim policy p x) := by
  have hport : (UInt32.ofNat p).toNat = p := UInt32.toNat_ofNat_of_lt' (hp.trans_le hty.ports)
  have hflow : (UInt32.ofNat x.flow).toNat = x.flow :=
    UInt32.toNat_ofNat_of_lt' (hx.flow_lt.trans (Simulation.flowCount_lt hty.packets))
  have hindex : (UInt32.ofNat x.index).toNat = x.index :=
    UInt32.toNat_ofNat_of_lt' (hx.index_lt.trans (u32_lt _))
  have hbytes : (UInt16.ofNat x.bytes).toNat = x.bytes := UInt16.toNat_ofNat_of_lt' hx.bytes_lt
  unfold Memory.onArrive
  simp only [EventRecord.port, EventRecord.flow, EventRecord.packetIndex, EventBody.record,
    EventRecord.arrive, Packet.record, hport, hflow, hindex]
  cases hh : (sim.fabric.node (sim.fabric.port p).peerNode).isHost with
  | true =>
    rw [if_pos rfl]
    cases hk : x.kind with
    | ack =>
      rw [onArrive_ack hh hk]
      refine (h.modifyStats _ _ ?_).onAck hr hty hx.flow_lt hx.index_lt hcounted
      simp [RunStats.record, toUInt64_of_toNat hbytes]
    | data =>
      rw [onArrive_data hh hk]
      exact h.onDataArrival hr hty ht hx.flow_lt hx.index_lt hbytes _ hmore
  | false =>
    have hcall : s.stats.record.eventsProcessed.toNat = s.stats.eventsProcessed :=
      UInt64.toNat_ofNat_of_lt' hevents
    rw [if_neg Bool.false_ne_true, onArrive_switch hh, h.now_toNat, h.stats, hcall]
    have hfits : (forwarded p x).Fits sim := ⟨hx.flow_lt, hx.index_lt, hx.bytes_lt⟩
    have hselect : policy.select s.stats.eventsProcessed (sim.fabric.port p).peerNode
        (if x.kind = .ack then (sim.route x.flow).revKey else (sim.route x.flow).fwdKey)
        (sim.routes.candidates (sim.fabric.port p).peerNode
          (if x.kind = .ack then (sim.route x.flow).srcHost else (sim.route x.flow).dstHost))
        s.now = nextPort sim policy s p x := by
      unfold nextPort routeOf
      cases x.kind <;> rfl
    rw [hselect]
    exact h.enqueue (hnext hh) hfits hty

end Sender

section Step

variable {policy : RoutingPolicy} {e : Event} {queue : EventQueue} (hr : sim.Routed)
  (hm : policy.Member) (ht : sim.transport.Accepted) (hty : sim.Typed)

/-- The event leaves the heap. -/
theorem advance (h : Laid sim s m) {r : EventHeap} (he : e.time < 2 ^ 64)
    (hqueue : queue.Shows sim r) :
    Laid sim (s.advance e queue) ({ m with queue := r, now := .ofNat e.time }.modifyStats fun st =>
      { st with eventsProcessed := st.eventsProcessed + 1 }) :=
  { h with
    now := rfl, now_lt := he, queue := hqueue
    stats := by
      show ({ m.stats with eventsProcessed := m.stats.eventsProcessed + 1 } : StatsRecord) =
        RunStats.record { s.stats with eventsProcessed := s.stats.eventsProcessed + 1 }
      rw [h.stats]
      simp [RunStats.record] }

/-- A packet is missing, so not all were counted. -/
theorem delivered_lt (hs : sim.Reachable policy s) {idx : Nat} (hidx : idx < sim.packetsTotal f)
    (hdel : (s.pkt f idx).delivered = false) :
    (s.result f).packetsDelivered < sim.packetsTotal f := by
  rw [(hs.receiver f).count]
  refine lt_of_le_of_ne (Nat.count_le _) fun hall => ?_
  have hhere := Nat.count_iff_forall.mp hall idx hidx
  rw [hdel] at hhere
  exact Bool.false_ne_true hhere

theorem inFlight_pos (hs : sim.Reachable policy s) (idx : Nat) :
    (s.pkt f idx).inFlight = true → 0 < (s.tx f).inFlight := fun hair =>
  ((hs.books.ledger f).toSlots.land hair).2

/-- The events taken are fewer than those numbered. -/
theorem eventsProcessed_lt (hs : sim.Reachable policy s) (hpop : s.queue.pop = some (e, queue)) :
    s.stats.eventsProcessed < s.queue.nextSeq := by
  have htaken : s.stats.eventsProcessed = s.dispatchTimes.length :=
    congrArg RunStats.Kept.eventsProcessed hs.kept
  have hlen := (EventQueue.heap_of_pop hpop).length_eq
  rw [List.length_cons] at hlen
  rw [hs.nextSeq_eq, htaken, hlen]
  omega

include hr hm ht hty

/-- One case for each kind of event, its operands read back from its slots. -/
theorem dispatch (hs : sim.Reachable policy s) (hpop : s.queue.pop = some (e, queue))
    (hseq : s.queue.nextSeq < 2 ^ 64) (h : Laid sim (s.advance e queue) m)
    (hfits : e.body.Fits sim) :
    Yields sim (m.dispatch sim policy e.record)
      ((s.advance e queue).dispatch sim policy e.body) := by
  have hflow : ∀ {f : FlowId}, f < sim.flowCount → (UInt32.ofNat f).toNat = f := fun hf =>
    UInt32.toNat_ofNat_of_lt' (hf.trans (Simulation.flowCount_lt hty.packets))
  have hport : ∀ {p : PortId}, p < sim.fabric.portCount → (UInt32.ofNat p).toNat = p := fun hp =>
    UInt32.toNat_ofNat_of_lt' (hp.trans_le hty.ports)
  obtain ⟨t, q, b⟩ := e
  cases b with
  | inject f => exact h.onInject hr hty (hflow hfits) hfits
  | txComplete p =>
    have hbusy := (advance_finishing hs.coherent hpop rfl).busy
    exact h.onTxComplete (hport hfits) hfits hbusy
  | arrive p x =>
    obtain ⟨hp, hx⟩ := hfits
    have hevents := eventsProcessed_lt hs hpop
    refine h.onArrive hr hty ht policy _ _ hp hx (fun hsw => ?_) (inFlight_pos hs x.index)
      (delivered_lt hs hx.index_lt) (Nat.lt_of_le_of_lt hevents hseq)
    exact ((hs.onWay hr hm p x (mem_onLink_of_arrive hpop rfl)).next hr hm hsw).port_lt hr
  | timeout f idx a =>
    obtain ⟨hf, hidx, ha⟩ := hfits
    have hattempt : (UInt8.ofNat a).toUInt32.toUInt8.toNat = a := by
      rw [UInt8.toUInt8_toUInt32]
      exact UInt8.toNat_ofNat_of_lt' ha
    refine h.onTimeout hr hty ht (hflow hf) (UInt32.toNat_ofNat_of_lt' (hidx.trans (u32_lt _)))
      hattempt hf hidx ?_ (inFlight_pos hs idx)
    intro hack hatt hfail
    -- the timer is alive, so its packet still holds a place in the window
    have he : (⟨t, q, .timeout f idx a⟩ : Event) ∈ s.queue.agenda := by
      rw [EventQueue.agenda_of_pop hpop]
      exact List.mem_cons_self
    have hair := (hs.books.timer _ he f idx a rfl).inFlight hatt.symm hack hfail
    have hpos := ((hs.books.ledger f).toSlots.land hair).2
    have hroom := (hs.books.ledger f).room
    have hcount : (((s.advance ⟨t, q, .timeout f idx a⟩ queue).land f idx).tx f).retxCount =
        (s.tx f).retxCount := by
      unfold State.land
      split <;> simp
    omega

end Step

end Laid

/-! ## Runs -/

section Run

variable {sim : Simulation} {policy : RoutingPolicy} {s s' : State} {m : Memory} {f : FlowId}

theorem Laid.runFor (hr : sim.Routed) (hm : policy.Member) (ht : sim.transport.Accepted)
    (hty : sim.Typed) : ∀ (n : Nat) {s : State} {m : Memory}, sim.Reachable policy s →
      Laid sim s m → (s.runFor sim policy n).queue.nextSeq < 2 ^ 64 →
      Yields sim (m.runFor sim policy n) (s.runFor sim policy n) := by
  intro n
  induction n with
  | zero => intro s m _ h _; exact h.yields
  | succ n ih =>
    intro s m hs h hseq
    have hnow := (nextSeq_le_runFor sim policy (n + 1) s).trans_lt hseq
    unfold Memory.runFor
    unfold State.runFor at hseq ⊢
    cases hpop : s.queue.pop with
    | none =>
      have hstep : s.step sim policy = none := by
        unfold State.step
        rw [hpop]
      rw [h.queue.pop_none hnow.le hpop, hstep]
      exact h.yields
    | some a =>
      obtain ⟨e, queue⟩ := a
      obtain ⟨hfits, r, hr', hqueue⟩ := h.queue.pop hnow.le hpop
      have hstep : s.step sim policy = some ((s.advance e queue).dispatch sim policy e.body) :=
        Simulation.step_eq_some_iff.mpr ⟨e, queue, hpop, rfl⟩
      rw [hr']
      rw [hstep] at hseq ⊢
      have htime : e.record.timeNs = .ofNat e.time := by
        obtain ⟨t, q, b⟩ := e
        cases b <;> rfl
      unfold Memory.turn
      dsimp only
      rw [htime]
      exact ((h.advance hfits.time_lt hqueue).dispatch hr hm ht hty hs hpop hnow hfits.body).bind
        fun m₁ h₁ => ih (hs.next hstep) h₁ hseq

theorem sum_packetsTotal (sim : Simulation) (n : Nat) :
    ∑ f ∈ range n, sim.packetsTotal f = Csr.prefixSum sim.packetsTotal n := by
  induction n with
  | zero => rfl
  | succ n ih => rw [sum_range_succ, ih]; rfl

/-- No run of such a simulation takes the counter past its 64 bits. -/
theorem Simulation.Typed.nextSeq_lt (hty : sim.Typed) (hr : sim.Routed) (hm : policy.Member)
    (ht : sim.transport.Accepted) (leftover : State) (n : Nat) :
    ((sim.beginRun leftover).runFor sim policy n).queue.nextSeq < 2 ^ 64 := by
  have htotal : ∑ f ∈ range sim.flowCount, sim.packetsTotal f < 2 ^ 32 := by
    rw [sum_packetsTotal]
    exact (sim.prefixSum_packetsTotal_le le_rfl).trans_lt hty.packets
  have hcount := Simulation.flowCount_lt hty.packets
  -- `2 ^ 8` attempts, each of `4 * 2 ^ 20 + 5` events at most
  have hflow : ∀ f ∈ range sim.flowCount,
      sim.packetsTotal f * sim.transport.maxAttempts * (4 * sim.hops f + 5) + 2 ≤
        sim.packetsTotal f * (2 ^ 8 * (2 ^ 22 + 5)) + 2 := by
    intro f hf
    have hhops := hty.hops f (mem_range.mp hf)
    have hatt := ht.attempts_lt
    rw [Nat.mul_assoc]
    refine Nat.add_le_add_right (Nat.mul_le_mul_left _ ?_) 2
    exact Nat.mul_le_mul (by omega) (by omega)
  apply (Simulation.nextSeq_runFor_le hr hm ht leftover n).trans_lt
  apply (sum_le_sum hflow).trans_lt
  rw [sum_add_distrib, ← sum_mul, sum_const, card_range, smul_eq_mul]
  omega

/-! ## The start of a run -/

/-- The arrays have the cells that `add_flow` gave them, whatever is in these. -/
structure Memory.Shaped (sim : Simulation) (m : Memory) : Prop where
  ports : Cells.Each m.ports sim.fabric.portCount fun p r =>
    r.queue.capacity = (sim.fabric.port p).queueCapacity
  tx : Cells.Each m.tx sim.flowCount fun _ _ => True
  results : Cells.Each m.results sim.flowCount fun _ _ => True
  pktState : Cells.Rows m.pktState sim.flowCount sim.packetsTotal fun _ _ _ => True
  pktAttempt : Cells.Rows m.pktAttempt sim.flowCount sim.packetsTotal fun _ _ _ => True
  retxRing : Cells.Rows m.retxRing sim.flowCount sim.window fun _ _ _ => True

/-- The arrays of a run keep their cells. -/
theorem Laid.shaped (h : Laid sim s m) (hs : sim.Reachable policy s) : m.Shaped sim where
  ports := h.ports.mono fun p _ _ hshow => hshow.capacity.trans (hs.capacity p)
  tx := h.tx.mono fun _ _ _ _ => trivial
  results := h.results.mono fun _ _ _ _ => trivial
  pktState := h.pktState.mono fun _ _ _ _ _ _ => trivial
  pktAttempt := h.pktAttempt.mono fun _ _ _ _ _ _ => trivial
  retxRing := h.retxRing.mono fun _ _ _ _ _ _ => trivial

/-- The pending events after the turns of `begin_run` for the first `k` flows. -/
def Simulation.injects (sim : Simulation) (k : Nat) : EventQueue :=
  (List.range k).foldl (fun q i =>
    if (sim.spec i).dependsOn = none then q.push (sim.spec i).startNs (.inject i) else q)
    EventQueue.clear

theorem Memory.Shaped.beginFlows (h : m.Shaped sim) (hty : sim.Typed) : ∀ k, k ≤ sim.flowCount →
    ∃ r a b, (List.range k).foldlM (Memory.beginFlow sim) { m with queue := {} } =
        some { m with queue := r, tx := a, results := b } ∧
      (sim.injects k).Shows sim r ∧
      Cells.Each a sim.flowCount (fun f x => f < k → x = {}) ∧
      Cells.Each b sim.flowCount
        (fun f x => f < k → x = { startNs := .ofNat (sim.spec f).startNs }) := by
  intro k
  induction k with
  | zero =>
    intro _
    refine ⟨{}, m.tx, m.results, rfl, EventQueue.Shows.clear sim, h.tx.mono ?_,
      h.results.mono ?_⟩ <;> exact fun f _ _ _ hf => absurd hf (Nat.not_lt_zero f)
  | succ k ih =>
    intro hk
    obtain ⟨r, a, b, hfold, hqueue, htx, hres⟩ := ih (Nat.le_of_succ_le hk)
    obtain ⟨a', ha, htx'⟩ := htx.modify hk (g := fun _ => {}) (S := fun f x => f < k + 1 → x = {})
      (fun _ _ _ => rfl) fun f x hf hx hlt => hx (by omega)
    obtain ⟨b', hb, hres'⟩ := hres.modify hk
      (g := fun _ => { startNs := .ofNat (sim.spec k).startNs })
      (S := fun f x => f < k + 1 → x = { startNs := .ofNat (sim.spec f).startNs })
      (fun _ _ _ => rfl) fun f x hf hx hlt => hx (by omega)
    have hnext : sim.injects (k + 1) = if (sim.spec k).dependsOn = none then
        (sim.injects k).push (sim.spec k).startNs (.inject k) else sim.injects k := by
      unfold Simulation.injects
      rw [List.range_succ, List.foldl_append]
      rfl
    rw [List.range_succ, List.foldlM_append, hfold, hnext]
    by_cases hdep : (sim.spec k).dependsOn = none
    · refine ⟨r.push (.inject (.ofNat (sim.spec k).startNs) k), a', b', ?_, ?_, htx', hres'⟩
      · simp [Memory.beginFlow, Memory.modifyTx, Memory.modifyResult, Memory.push, ha, hb, hdep]
      · rw [if_pos hdep]
        exact hqueue.push (hty.starts k hk) (b := .inject k) hk
    · refine ⟨r, a', b', ?_, ?_, htx', hres'⟩
      · simp [Memory.beginFlow, Memory.modifyTx, Memory.modifyResult, ha, hb, hdep]
      · rwa [if_neg hdep]

/-- A state whose rings hold what the array holds: `begin_run` leaves these cells alone. -/
def Memory.leftover (sim : Simulation) (m : Memory) : State where
  queue := EventQueue.clear
  now := 0
  port := sim.fabric.resetPort
  tx := fun _ => {}
  result := fun _ => {}
  pkt := fun _ _ => {}
  pktAttempt := fun _ _ => 0
  retxRing := fun f i => (m.retxRing.cell (Csr.prefixSum sim.window f + i)).toNat
  stats := {}
  wrapped := false
  serial := 0
  trace := []

theorem Memory.Shaped.beginRun (h : m.Shaped sim) (hty : sim.Typed) :
    Yields sim (m.beginRun sim) (sim.beginRun (m.leftover sim)) := by
  have hcleared : Memory.Shaped sim
      { m with
        now := 0
        ports := m.ports.map Memory.resetPort
        pktState := m.pktState.map fun _ => 0
        pktAttempt := m.pktAttempt.map fun _ => 0
        stats := {} } :=
    { h with
      ports := h.ports.map fun _ _ hr => hr
      pktState := h.pktState.map (g := fun _ => 0) (S := fun _ _ _ => True) fun _ _ _ _ => trivial
      pktAttempt := h.pktAttempt.map (g := fun _ => 0) (S := fun _ _ _ => True) fun _ _ _ _ => trivial }
  obtain ⟨r, a, b, hfold, hqueue, htx, hres⟩ :=
    hcleared.beginFlows hty sim.flowCount (Nat.le_refl _)
  refine ⟨_, hfold, ?_⟩
  exact
    { now := rfl
      now_lt := Nat.two_pow_pos 64
      queue := hqueue
      ports := h.ports.map fun p r hr =>
        ⟨rfl, fun hb => absurd hb Bool.false_ne_true, rfl, hr, ⟨rfl, rfl⟩, ⟨rfl, rfl⟩,
          fun x hx => absurd hx List.not_mem_nil⟩
      tx := htx.mono fun f x hf hx => hx hf
      results := hres.mono fun f x hf hx => hx hf
      pktState := h.pktState.map (g := fun _ => 0) (S := fun _ _ b => b = PktState.flags {})
        fun _ _ _ _ => by decide
      pktAttempt := h.pktAttempt.map (g := fun _ => 0) (S := fun _ _ (b : UInt8) => b.toNat = 0)
        fun _ _ _ _ => rfl
      retxRing := ⟨h.retxRing.size, fun _ _ _ _ => rfl⟩
      senders := fun f hf =>
        { ring := ⟨FlowSpec.window_pos _, Nat.zero_le _, fun i hi => absurd hi (Nat.not_lt_zero i)⟩
          room := Nat.zero_le _
          seq := Nat.zero_le _
          next_lt := Nat.two_pow_pos 64 }
      stats := rfl }

end Run

/-! ## The object between calls -/

theorem Memory.shaped_create (fabric : Fabric) (routes : RouteTable) :
    (Memory.create fabric).Shaped (Simulation.create fabric routes) where
  ports := ⟨rfl, fun _ _ => rfl⟩
  tx := ⟨rfl, fun i hi => absurd hi (Nat.not_lt_zero i)⟩
  results := ⟨rfl, fun i hi => absurd hi (Nat.not_lt_zero i)⟩
  pktState := ⟨rfl, fun i _ hi => absurd hi (Nat.not_lt_zero i)⟩
  pktAttempt := ⟨rfl, fun i _ hi => absurd hi (Nat.not_lt_zero i)⟩
  retxRing := ⟨rfl, fun i _ hi => absurd hi (Nat.not_lt_zero i)⟩

/-- `add_flow` gives the new flow its cells and leaves the others where they are. -/
theorem Memory.Shaped.addFlow {sim sim' : Simulation} {m : Memory} (h : m.Shaped sim)
    {spec : FlowSpec} (hadd : sim.addFlow spec = some sim') : (m.addFlow spec).Shaped sim' := by
  obtain ⟨hfabric, hcount, hlast, hold⟩ : sim'.fabric = sim.fabric ∧
      sim'.flowCount = sim.flowCount + 1 ∧ sim'.spec sim.flowCount = spec ∧
      ∀ f, f < sim.flowCount → sim'.spec f = sim.spec f := by
    unfold Simulation.addFlow at hadd
    split at hadd
    · obtain rfl := Option.some.inj hadd
      refine ⟨rfl, List.length_append, ?_, fun f hf => ?_⟩
      · show (sim.specs ++ [spec]).getD sim.specs.length default = spec
        simp [List.getD_eq_getElem?_getD]
      · exact List.getD_append _ _ _ _ hf
    · exact absurd hadd (by simp)
  have hrow : ∀ {α : Type} {a : Cells α} {d : Simulation → FlowId → Nat} {g : FlowSpec → Nat}
      (x : α), (∀ sim f, d sim f = g (sim.spec f)) →
      Cells.Rows a sim.flowCount (d sim) (fun _ _ _ => True) →
      Cells.Rows (a.extend (g spec) x) sim'.flowCount (d sim') fun _ _ _ => True := by
    intro α a d g x hd hrows
    have hrows := hrows.congr (e := d sim') fun f hf => by rw [hd, hd, hold f hf]
    rw [hcount, ← hlast, ← hd sim']
    exact hrows.append fun _ _ => trivial
  refine ⟨?_, ?_, ?_, ?_, ?_, ?_⟩
  · rw [hfabric]
    exact h.ports
  · rw [hcount]
    exact h.tx.push trivial
  · rw [hcount]
    exact h.results.push trivial
  · exact hrow 0 (fun _ _ => rfl) h.pktState
  · exact hrow 0 (fun _ _ => rfl) h.pktAttempt
  · exact hrow 0 (fun _ _ => rfl) h.retxRing

/-- What memory can hold after some calls on the object. -/
inductive Memory.Past : Simulation → Memory → Prop where
  | create (fabric : Fabric) (routes : RouteTable) :
      Past (Simulation.create fabric routes) (Memory.create fabric)
  | setTransport {sim : Simulation} {m : Memory} (h : Past sim m) (cfg : TransportConfig) :
      Past (sim.setTransport cfg) m
  | addFlow {sim sim' : Simulation} {m : Memory} (h : Past sim m) (spec : FlowSpec)
      (hadd : sim.addFlow spec = some sim') : Past sim' (m.addFlow spec)
  | run {sim : Simulation} {m m' : Memory} (h : Past sim m) (policy : RoutingPolicy) (n : Nat)
      (hr : sim.Routed) (hm : policy.Member) (ht : sim.transport.Accepted) (hty : sim.Typed)
      (hrun : (m.beginRun sim).bind (Memory.runFor sim policy n) = some m') : Past sim m'

section Object

variable {sim : Simulation} {policy : RoutingPolicy} {m : Memory}

theorem Memory.Shaped.run (h : m.Shaped sim) (hr : sim.Routed) (hm : policy.Member)
    (ht : sim.transport.Accepted) (hty : sim.Typed) (n : Nat) :
    Yields sim ((m.beginRun sim).bind (Memory.runFor sim policy n))
      ((sim.beginRun (m.leftover sim)).runFor sim policy n) := by
  apply (h.beginRun hty).bind
  intro m₁ h₁
  exact h₁.runFor hr hm ht hty n (Simulation.Reachable.begin _) (hty.nextSeq_lt hr hm ht _ n)

theorem Memory.Past.shaped (h : Memory.Past sim m) : m.Shaped sim := by
  induction h with
  | create fabric routes => exact Memory.shaped_create fabric routes
  | setTransport h cfg ih => exact { ih with }
  | addFlow h spec hadd ih => exact ih.addFlow hadd
  | run h policy n hr hm ht hty hrun ih =>
    obtain ⟨m₁, hm₁, hlaid⟩ := ih.run hr hm ht hty n
    obtain rfl := Option.some.inj (hrun.symm.trans hm₁)
    exact hlaid.shaped ((Simulation.Reachable.begin _).runFor n)

/-- The outcomes, in flow order. -/
theorem Laid.results_eq {s : State} (h : Laid sim s m) :
    m.results.toList = (List.range sim.flowCount).map fun f => (s.result f).row :=
  h.results.toList_eq

/-- `end_run` counts the rows as it counts the results. -/
theorem foldl_countFlow_record (s : State) : ∀ (l : List FlowId) (st : RunStats),
    (l.map fun f => (s.result f).row).foldl Memory.countFlow st.record =
      (l.foldl (Simulation.countFlow s) st).record := by
  intro l
  induction l with
  | nil => intro st; rfl
  | cons f l ih =>
    intro st
    have hflow : Memory.countFlow st.record (s.result f).row =
        (Simulation.countFlow s st f).record := by
      unfold Memory.countFlow Simulation.countFlow FlowResult.row
      cases (s.result f).complete <;> cases (s.result f).failed <;> simp [RunStats.record]
    rw [List.map_cons, List.foldl_cons, List.foldl_cons, hflow]
    exact ih _

theorem Laid.endRun {s : State} (h : Laid sim s m) : Laid sim (sim.endRun s) m.endRun := by
  refine h.modifyStats _ _ ?_
  rw [h.results_eq, foldl_countFlow_record, h.now]
  rfl

/-- The heap is empty when the schedule is. -/
theorem Laid.heap_eq_nil {s : State} (h : Laid sim s m) (hd : s.Drained)
    (hseq : s.queue.nextSeq ≤ 2 ^ 64) : m.queue.heap = [] := by
  rw [h.queue.heap hseq, List.isEmpty_iff.mp hd]
  rfl

/-- The simulator on its words and flat arrays. Whatever was called on the object before, a run
with a policy that picks a candidate never leaves an array, and after every turn the arrays hold
what the run on tables computes, counters reduced to their words: the flags of a packet, its
attempts and its place in a ring are never those of another, nothing that the code indexes with
or compares was cut short, and the events come in the same order. The loop comes to an empty
heap, with the outcome of every flow and the statistics of the run on tables. -/
theorem run_in_memory (h : Memory.Past sim m) (hr : sim.Routed) (hm : policy.Member)
    (ht : sim.transport.Accepted) (hty : sim.Typed) :
    (∀ n, Yields sim ((m.beginRun sim).bind (Memory.runFor sim policy n))
      ((sim.beginRun (m.leftover sim)).runFor sim policy n)) ∧
    ∃ n m', (m.beginRun sim).bind (Memory.runFor sim policy n) = some m' ∧ m'.queue.heap = [] ∧
      ∃ s, sim.Reachable policy s ∧ s.Drained ∧
        m'.endRun.results.toList = (List.range sim.flowCount).map (fun f => (s.result f).row) ∧
        m'.endRun.stats = (sim.endRun s).stats.record := by
  have hruns := fun n => h.shaped.run hr hm ht hty n
  refine ⟨hruns, ?_⟩
  obtain ⟨n, hd⟩ := Simulation.drained_of_bound (fun s hs => hs.dispatched_le hr hm ht)
    (m.leftover sim)
  obtain ⟨m', hrun, hlaid⟩ := hruns n
  refine ⟨n, m', hrun, hlaid.heap_eq_nil hd (hty.nextSeq_lt hr hm ht _ n).le, _,
    (Simulation.Reachable.begin _).runFor n, hd, ?_, hlaid.endRun.stats⟩
  rw [hlaid.endRun.results_eq, Simulation.endRun_result]

end Object

namespace Pair

theorem typed : simulation.Typed where
  packets := by decide +kernel
  ports := by decide +kernel
  windows := by
    intro f hf
    obtain rfl : f = 0 := Nat.lt_one_iff.mp hf
    decide +kernel
  starts := by
    intro f hf
    obtain rfl : f = 0 := Nat.lt_one_iff.mp hf
    decide +kernel
  hops := by
    intro f hf
    obtain rfl : f = 0 := Nat.lt_one_iff.mp hf
    exact hops_eq.trans_le (by decide)

/-- The object of `simulation`, before its run. -/
def memory : Memory := (Memory.create fabric).addFlow flow

theorem memory_past : Memory.Past simulation memory :=
  ((Memory.Past.create fabric (RouteTable.buildShortestPath fabric)).setTransport
    { rtoNs := 100000 }).addFlow flow (dif_pos flow_accepted)

end Pair

/-- Two hosts on a leaf: the loop on arrays ends, and the first three turns do not leave
them. -/
theorem run_in_memory_pair :
    (∃ n m', (Pair.memory.beginRun Pair.simulation).bind
      (Memory.runFor Pair.simulation StaticFirstPolicy n) = some m' ∧ m'.queue.heap = []) ∧
    ((Pair.memory.beginRun Pair.simulation).bind
      (Memory.runFor Pair.simulation StaticFirstPolicy 3)).isSome := by
  obtain ⟨hall, n, m', hrun, hheap, -⟩ := run_in_memory Pair.memory_past Pair.routed
    staticFirst_member Pair.transport_accepted Pair.typed
  refine ⟨⟨n, m', hrun, hheap⟩, ?_⟩
  obtain ⟨m₃, hm₃, -⟩ := hall 3
  rw [hm₃]
  rfl

/-- All of it, on the arrays. -/
example : ((Pair.memory.beginRun Pair.simulation).bind
    (Memory.runFor Pair.simulation StaticFirstPolicy 100)).map
      (fun m => (m.queue.heap.length, m.stats.eventsProcessed)) = some (0, 20) := by
  decide +kernel

/-! ## Rings that share cells

Beyond `2 ^ 32` cells the offsets start over, and the rings of two flows meet. -/

namespace Memory

/-- The packets of `f` that a turn from `m` to `m'` sends: each leaves a timer, and the turn
numbers what it pushes. -/
def sentIn (f : FlowId) (m m' : Memory) : List Nat :=
  (List.range (m'.queue.nextSeq - m.queue.nextSeq).toNat).filterMap fun i =>
    (m'.queue.heap.find? fun e =>
      e.seq = m.queue.nextSeq + .ofNat i ∧ e.type = .timeout ∧ e.flow = f).map
        EventRecord.packetIndex

/-- The packets of `f` that the first `n` turns send, in order. -/
def transmitted (sim : Simulation) (policy : RoutingPolicy) (f : FlowId) :
    Nat → Memory → Option (List Nat)
  | 0, _ => some []
  | n + 1, m =>
    match m.queue.pop with
    | none => some []
    | some (e, queue) => do
      let m' ← m.turn sim policy e queue
      let rest ← transmitted sim policy f n m'
      return m.sentIn f m' ++ rest

end Memory

namespace Shared

/-- Four hosts on a leaf, a microsecond away from it. -/
def config : LeafSpineConfig where
  spineCount := 1
  leafCount := 1
  hostsPerLeaf := 4
  hostLink := { propDelayNs := 1000 }

def fabric : Fabric := (LeafSpine.builder config).build

/-- A flow of `2 ^ 32 - 1` packets, all of them in its window. -/
def long : FlowSpec where
  src := 2
  dst := 3
  sizeBytes := (2 ^ 32 - 1) * 1500
  windowPkts := 2 ^ 32 - 1

/-- It waits for the long flow, and keeps the packets of the last flow from those that the
long one sends first. -/
def filler : FlowSpec where
  src := 2
  dst := 3
  sizeBytes := 1001 * 1500
  windowPkts := 3
  dependsOn := some 0

/-- Its ring starts in the third cell of the long flow's. -/
def late : FlowSpec where
  src := 4
  dst := 5
  sizeBytes := 4 * 1500
  windowPkts := 4
  loadPermille := 240

def simulation : Simulation where
  fabric := fabric
  routes := RouteTable.buildShortestPath fabric
  transport := { rtoNs := 250 }
  specs := [long, filler, late]
  accepted := by decide +kernel

theorem wired : simulation.Wired where
  built := ⟨_, LeafSpine.valid (by decide), rfl⟩
  connected := show (LeafSpine.builder config).build.Connected from
    LeafSpine.connected (by decide) (by decide) (by decide)
  singlePort := show (LeafSpine.builder config).build.SinglePortHosts from
    LeafSpine.singlePortHosts (by decide)
  routes := rfl

/-- The object as a caller sets it up. -/
def memory : Memory :=
  (((Memory.create fabric).addFlow long).addFlow filler).addFlow late

theorem memory_past : Memory.Past simulation memory :=
  ((((Memory.Past.create fabric (RouteTable.buildShortestPath fabric)).setTransport
    { rtoNs := 250 }).addFlow long (dif_pos (by decide +kernel))).addFlow filler
      (dif_pos (by decide +kernel))).addFlow late (dif_pos (by decide +kernel))

end Shared

/-- The long flow's third timeout writes its packet 2 over the late flow's packet 0. Half a
microsecond into the run the late flow, which has sent packet 0 only, sends packet 2. -/
theorem pacing_discipline_shared :
    Memory.Past Shared.simulation Shared.memory ∧ Shared.simulation.Wired ∧
      Shared.simulation.transport.Accepted ∧
      ((Shared.memory.beginRun Shared.simulation).bind
        (Memory.runFor Shared.simulation StaticFirstPolicy 16)).map (·.now) = some 500 ∧
      (Shared.memory.beginRun Shared.simulation).bind
        (Memory.transmitted Shared.simulation StaticFirstPolicy 2 16) = some [0, 2] :=
  ⟨Shared.memory_past, Shared.wired, ⟨by decide, by decide, by decide, by decide, by decide⟩,
    by decide +kernel, by decide +kernel⟩

end FabricSim
