import FabricSim.Core.Schedule

/-!
# No packet leaves late

As long as no timer has fired for a packet that is not acked, every packet was sent once and
in order (`Undisturbed.indices`). Then a flow that has packets left to send never sleeps past
the time of the next one: either its wake-up comes when the gate opens, a transmission after
the last packet (`gate_eq`), or its window is full, and the packet a window back, or its ack,
is on a link and on time (`Uniform.unacked_le`). With the bound of `Uniform.early` this pins every packet to the
clock (`Uniform.punctual_step`).
-/

namespace FabricSim

open State FifoServer WindowClock PacingGate

/-! ## Every packet once -/

theorem length_attempts (s : State) (f : FlowId) (idx : Nat) :
    (s.attempts f idx).length = ((s.sentBy f).map fun b => b.2.index).count idx := by
  unfold State.attempts sentBy
  induction s.emissions with
  | nil => rfl
  | cons b l ih =>
    by_cases hb : b.2.kind = .data ∧ b.2.flow = f
    · have hsent : sentOf (fun g _ _ => g = f) b = true := by simp [sentOf, hb.1, hb.2]
      rw [List.filter_cons_of_pos hsent, List.map_cons, List.count_cons, ← ih]
      by_cases hi : b.2.index = idx
      · have hsome : attemptOf f idx b = some b.2.attempt := if_pos ⟨hb.1, hb.2, hi⟩
        rw [List.filterMap_cons_some hsome, List.length_cons, hi]
        simp
      · have hnone : attemptOf f idx b = none := if_neg fun h => hi h.2.2
        rw [List.filterMap_cons_none hnone]
        simp [hi]
    · have hsent : ¬ sentOf (fun g _ _ => g = f) b = true := by
        intro h
        exact hb (by simpa [sentOf] using h)
      have hnone : attemptOf f idx b = none := if_neg fun h => hb ⟨h.1, h.2.1⟩
      rw [List.filter_cons_of_neg hsent, List.filterMap_cons_none hnone]
      exact ih

namespace Undisturbed

variable {sim : Simulation} {policy : RoutingPolicy} {s : State} {f : FlowId}

theorem count_le_one (h : Undisturbed s) (hs : sim.Reachable policy s)
    (ht : sim.transport.Accepted) (idx : Nat) : (s.attempts f idx).length ≤ 1 := by
  have hatt := hs.attempts ht f
  have hnodup : (s.attempts f idx).Nodup := (hatt.rising idx).imp fun hlt => hlt.ne'
  have hsub : s.attempts f idx ⊆ [0] := by
    intro a ha
    have := hatt.le idx a ha
    rw [h.attempt] at this
    exact List.mem_singleton.mpr (by omega)
  exact (hnodup.subperm hsub).length_le

theorem indices (h : Undisturbed s) (hs : sim.Reachable policy s) (ht : sim.transport.Accepted)
    (hw : s.wrapped = false) :
    ((s.sentBy f).map fun b => b.2.index) = (List.range (s.tx f).nextSeq).reverse := by
  rw [← (hs.discipline ht hw f).inOrder]
  refine (List.Nodup.dedup ?_).symm
  rw [List.nodup_iff_count_le_one]
  intro idx
  rw [← length_attempts]
  exact h.count_le_one hs ht idx

end Undisturbed

/-! ## When the gate opens -/

/-- A transmission after the last packet, and at once before the first. -/
def Simulation.gateNs (sim : Simulation) (f : FlowId) : List (Nat × Packet) → Nat
  | [] => 0
  | b :: _ => b.1 + sim.periodNs f

namespace Simulation

variable {sim : Simulation} {policy : RoutingPolicy} {s : State}

theorem gate_eq_trySend {f : FlowId} (hc : s.Coherent)
    (h : s.wrapped = false → (s.tx f).nextSendNs = sim.gateNs f (s.sentBy f))
    (hw : (s.trySend sim f).wrapped = false) :
    ((s.trySend sim f).tx f).nextSendNs = sim.gateNs f ((s.trySend sim f).sentBy f) := by
  have hsend : ∀ (s₀ : State) (idx : Nat), s₀.Coherent → (s₀.sendPacket sim f idx).Coherent ∧
      ((s₀.sendPacket sim f idx).wrapped = false →
        ((s₀.sendPacket sim f idx).tx f).nextSendNs =
          sim.gateNs f ((s₀.sendPacket sim f idx).sentBy f)) := by
    intro s₀ idx hc
    have hmicro : Micro sim f s₀ (s₀.sendPacket sim f idx) := Micro.send s₀ idx
    refine ⟨hmicro.coherent hc, fun hw => ?_⟩
    obtain ⟨-, hperiod, -⟩ := sendPacket_unwrapped hc hw
    rw [sentBy_sendPacket]
    have hgate := congrArg Gate.next (gate_sendPacket sim s₀ f idx f)
    rw [if_pos rfl, u64_of_lt hperiod] at hgate
    exact hgate
  refine trySend_rule
    (P := fun s => s.Coherent ∧ (s.wrapped = false → (s.tx f).nextSendNs = sim.gateNs f (s.sentBy f)))
    (Q := fun s => s.wrapped = false → (s.tx f).nextSendNs = sim.gateNs f (s.sentBy f))
    (fun _ h _ => h.2) ?_ ?_ ?_ ?_ (fun _ => h) ⟨hc, h⟩ hw
  · intro s h _ _
    have hsame : (s.waitTurn f).sentBy f = s.sentBy f ∧
        ((s.waitTurn f).tx f).nextSendNs = (s.tx f).nextSendNs ∧
        (s.waitTurn f).wrapped = s.wrapped := by
      unfold waitTurn
      split
      · exact ⟨rfl, rfl, rfl⟩
      · exact ⟨rfl, by simp, rfl⟩
    rw [hsame.1, hsame.2.1, hsame.2.2]
    exact h.2
  · intro s head count h _ _ _ hw
    have hnext : ((s.drainRetx f head count).tx f).nextSendNs = (s.tx f).nextSendNs := by simp
    rw [hnext]
    exact h.2 hw
  · exact fun s idx head count h _ _ _ => hsend (s.drainRetx f head count) idx
      (NetEq.coherent (s := s) ⟨rfl, fun _ => rfl, fun _ => rfl⟩ h.1)
  · exact fun s head count h _ _ _ _ => hsend ((s.drainRetx f head count).takeSeq f) _
      (NetEq.coherent (s := s) ⟨rfl, fun _ => rfl, fun _ => rfl⟩ h.1)

/-- The gate of a flow that waits for none opens a transmission after its last packet. -/
theorem Reachable.gate_eq (h : sim.Reachable policy s) {f : FlowId}
    (hdep : (sim.spec f).dependsOn = none) (hw : s.wrapped = false) :
    (s.tx f).nextSendNs = sim.gateNs f (s.sentBy f) := by
  refine Reachable.invariant (P := fun s => s.wrapped = false →
    (s.tx f).nextSendNs = sim.gateNs f (s.sentBy f)) (fun _ _ => rfl) ?_ h hw
  intro s e queue hs ih hpop hw
  have hold := ih (step_unwrapped hs.coherent hpop hw)
  obtain ⟨l, hl⟩ := dispatch_trace sim policy (s.advance e queue) e.body
  rw [advance_trace, List.append_cons] at hl
  have hturn := Turn.of_step hs hpop f
  generalize (s.advance e queue).dispatch sim policy e.body = s' at *
  cases hturn with
  | idle hgate _ _ =>
    rw [sentBy_eq_of_transmissions hl (congrArg Gate.sent hgate), ← hold]
    exact congrArg Gate.next hgate
  | start g hdep' _ _ _ _ => exact absurd (hdep.symm.trans hdep') (by simp)
  | visit s₀ _ hsent _ _ hgate hc _ hend =>
    subst hend
    refine gate_eq_trySend hc (fun _ => ?_) hw
    rw [hsent, ← hold]
    rcases hgate with hgate | ⟨-, hgate⟩
    · exact congrArg Gate.next hgate
    · exact congrArg Gate.next hgate

/-- After its first wake-up a flow is not woken later than its gate opens. -/
theorem Reachable.wake_le (h : sim.Reachable policy s) (ht : sim.transport.Accepted)
    (hw : s.wrapped = false) {f : FlowId} (htaken : 0 < (s.gate f).taken) {t : Nat}
    (hmem : t ∈ s.queue.wakeTimes f) : t ≤ (s.tx f).nextSendNs := by
  have hreg := (h.injects ht f).regular
  have hpending : s.queue.wakeTimes f = {t} := hreg.pending_eq hmem
  have hcard : Multiset.card (s.queue.wakeTimes f) = if (s.tx f).sendScheduled then 1 else 0 :=
    hreg.late htaken
  have hflag : (s.tx f).sendScheduled = true := by
    by_contra hflag
    rw [if_neg hflag, hpending] at hcard
    exact absurd hcard (by simp)
  obtain ⟨t', hmem', hle⟩ := (h.discipline ht hw f).prompt hflag
  rw [hpending] at hmem'
  obtain rfl := Multiset.mem_singleton.mp hmem'
  exact hle

/-- The first event of a run of one flow wakes it. -/
theorem Lone.woken (hl : sim.Lone policy) (hs : sim.Reachable policy s) :
    (∃ leftover, s = sim.beginRun leftover) ∨ 0 < (s.gate 0).taken := by
  refine Reachable.invariant (P := fun s => (∃ leftover, s = sim.beginRun leftover) ∨
    0 < (s.gate 0).taken) (fun leftover => Or.inl ⟨leftover, rfl⟩) ?_ hs
  intro s e queue _ ih hpop
  refine Or.inr ?_
  obtain ⟨l, htr⟩ := dispatch_trace sim policy (s.advance e queue) e.body
  show 0 < List.countP _ _
  rw [htr, advance_trace, List.countP_append, List.countP_cons]
  rcases ih with ⟨leftover, rfl⟩ | htaken
  · have he : e ∈ (sim.beginRun leftover).queue.agenda := by
      rw [EventQueue.agenda_of_pop hpop]
      exact List.mem_cons_self ..
    obtain ⟨f, hf, -, hb, -⟩ := mem_agenda_beginRun leftover he
    rw [hl.flow_eq hf] at hb
    have hwake : Obs.dispatches (wakeOf 0) (.dispatched e) = true := by
      simp [Obs.dispatches, wakeOf, hb]
    rw [if_pos hwake]
    omega
  · have hold : 0 < s.trace.countP (Obs.dispatches (wakeOf 0)) := htaken
    omega

end Simulation

/-! ## On the clock -/

theorem Simulation.Lone.independent {sim : Simulation} {policy : RoutingPolicy}
    (hl : sim.Lone policy) : (sim.spec 0).dependsOn = none := by
  cases h : (sim.spec 0).dependsOn with
  | none => rfl
  | some d => exact absurd ((sim.spec_accepted hl.flow_lt).depends_lt d h) (Nat.not_lt_zero _)

/-- A packet on its way is on one of the links of its kind. -/
theorem Simulation.Lone.of_onLink {sim : Simulation} {policy : RoutingPolicy} {s : State}
    (hl : sim.Lone policy) (hs : sim.Reachable policy s) {p : PortId} {y : Packet}
    (hy : y ∈ s.onLink p) :
    ∃ j, j < sim.hops 0 ∧ p = sim.link policy 0 y.kind j ∧ ∃ t, (t, y) ∈ s.timed sim p := by
  have hway := hs.onWay hl.routed hl.member p y hy
  have hflow := hl.flow_eq hway.flow_lt
  have hpath := hs.onPath hl.perFlow p y hy
  have hlen := hway.length_le
  rw [hflow] at hpath hlen
  rw [List.length_cons] at hlen
  rw [← map_snd_timed sim hs.coherent] at hy
  obtain ⟨⟨t, x⟩, ha, rfl⟩ := List.mem_map.mp hy
  exact ⟨_, hlen, hpath, t, ha⟩

namespace Simulation.Uniform

variable {sim : Simulation} {policy : RoutingPolicy} {s : State} {rate delay : Nat}
  {ser : PacketKind → Nat}

section

variable (hu : sim.Uniform rate delay ser) (hl : sim.Lone policy) (hs : sim.Reachable policy s)
  (ht : sim.transport.Accepted) (hw : s.wrapped = false) (hloss : Lossless s)
  (hun : Undisturbed s) (hdue : ∀ b ∈ s.out .data, b.1 = sim.dueNs delay ser b.2.index)

section

include hl hs ht hw hun

theorem indices_out : ((s.out .data).map fun b => b.2.index) = List.range (s.tx 0).nextSeq := by
  rw [hl.out_data hs, List.map_reverse, hun.indices hs ht hw, List.reverse_reverse]

theorem mem_out_of_lt {i : Nat} (hi : i < (s.tx 0).nextSeq) :
    ∃ b ∈ s.out .data, b.2.index = i := by
  have hmem : i ∈ (s.out .data).map fun b => b.2.index := by
    rw [indices_out hl hs ht hw hun]
    exact List.mem_range.mpr hi
  exact List.mem_map.mp hmem

end

include hu hl hs ht hw hloss hun hdue

/-- The acks that left did so in order, each when its packet came. -/
theorem ack_eq : ∃ m, ((s.out .ack).map fun b => (b.1, b.2.index)) =
    (List.range m).map fun i => (sim.dueNs delay ser i + sim.hops 0 * (ser .data + delay), i) := by
  have hdata : ((s.out .data).map fun b =>
      (b.1 + sim.hops 0 * (ser .data + delay), b.2.index)) =
      (List.range (s.tx 0).nextSeq).map fun i =>
        (sim.dueNs delay ser i + sim.hops 0 * (ser .data + delay), i) := by
    rw [← indices_out hl hs ht hw hun, List.map_map]
    exact List.map_congr_left fun b hb => by rw [hdue b hb]; rfl
  have hpre := hu.out_ack_prefix hl hs ht hw hloss
  rw [hdata, List.prefix_iff_eq_take, ← List.map_take, List.take_range] at hpre
  exact ⟨_, hpre⟩

/-- An ack on its way is on time. -/
theorem ack_punctual {j : Nat} (hj : j < sim.hops 0) {a : Nat × Packet}
    (ha : a ∈ s.passing sim (sim.link policy 0 .ack j)) :
    a.1 + (sim.hops 0 - 1 - j) * (ser .ack + delay) = sim.backNs delay ser a.2.index := by
  obtain ⟨m, hm⟩ := hu.ack_eq hl hs ht hw hloss hun hdue
  have hserve := serve_eq (hu.ack_service hl hs) (hl.tripNs_eq delay ser) hm
  obtain ⟨d, hd, hidx, htime⟩ := hu.ack_served hl hs hw hloss hj ha
  have hmem := List.mem_map_of_mem (f := fun d : Nat × Packet =>
    (d.1 + (delay + (sim.hops 0 - 1) * (ser .ack + delay)), d.2.index)) hd
  rw [hserve] at hmem
  obtain ⟨i, -, heq⟩ := List.mem_map.mp hmem
  obtain ⟨hback, rfl⟩ := Prod.mk.inj heq
  have hsplit : (sim.hops 0 - 1) * (ser .ack + delay) =
      j * (ser .ack + delay) + (sim.hops 0 - 1 - j) * (ser .ack + delay) := by
    rw [← Nat.add_mul]
    congr 1
    omega
  unfold backNs
  rw [htime, ← hidx, hback, hsplit]
  omega

/-- A packet that has had the time to come over is answered. -/
theorem answered_of_lt {e : Event} {queue : EventQueue} (hpop : s.queue.pop = some (e, queue))
    {i : Nat} (hi : i < (s.tx 0).nextSeq)
    (hlt : sim.dueNs delay ser i + sim.hops 0 * (ser .data + delay) < e.time) :
    ∃ z ∈ s.out .ack, z.2.index = i := by
  obtain ⟨⟨t, x⟩, hb, rfl⟩ := mem_out_of_lt hl hs ht hw hun hi
  obtain ⟨hmem, hk⟩ := mem_out.mp hb
  dsimp only at hk hlt ⊢
  cases hs.fate hl.routed hl.member t x (mem_emissions.mp hmem) with
  | dropped t' p y ht' _ => exact absurd ht' (hloss t' p y)
  | onWay p y hy hcore =>
    -- on a link it would be late
    obtain ⟨-, hidx, -, hkind, -, -⟩ := Packet.core_inj hcore
    obtain ⟨j, hj, hp, c, hc⟩ := hl.of_onLink hs hy
    rw [hkind.trans hk] at hp
    subst hp
    have hpass : (c, y) ∈ s.passing sim (sim.link policy 0 .data j) := List.mem_append_right _ hc
    obtain ⟨b, hbout, hbcore, htime⟩ := hu.on_time hl hs hw hloss ht le_rfl hj hpass
    have hbdue := hdue b hbout
    rw [(Packet.core_inj hbcore).2.1, hidx] at hbdue
    have hle := le_of_mem_timed hpop hc
    have hlinks : (j + 1) * (ser .data + delay) ≤ sim.hops 0 * (ser .data + delay) :=
      Nat.mul_le_mul_right _ hj
    dsimp only at hle htime
    omega
  | arrived e' p y he' hb' hcore htarget _ _ =>
    obtain ⟨-, hidx, -, hkind, -, -⟩ := Packet.core_inj hcore
    have hhost : (sim.fabric.node (sim.fabric.port p).peerNode).isHost = true := by
      rw [htarget]
      exact (Simulation.ends_of_flow_lt (hs.inRange.emitted t x (mem_emissions.mp hmem))).2.1
    obtain ⟨z, hz, hzk, -, hzi, -⟩ := hs.answered.data e' he' p y hb' hhost (hkind.trans hk)
    exact ⟨(e'.time, z), mem_out.mpr ⟨hz, hzk⟩, hzi.trans hidx⟩

/-- The data of a packet that is not acked is on a link, on time, or its ack is. -/
theorem unacked_le {e : Event} {queue : EventQueue} (hpop : s.queue.pop = some (e, queue)) {i : Nat}
    (hi : i < (s.tx 0).nextSeq) (hack : (s.pkt 0 i).acked = false) :
    e.time ≤ sim.backNs delay ser i := by
  have hback : sim.dueNs delay ser i + sim.tripNs delay ser ≤ sim.backNs delay ser i :=
    sent_add_trip_le _
  have htrip : sim.hops 0 * (ser .data + delay) ≤ sim.tripNs delay ser := Nat.le_add_right _ _
  by_cases hlt : sim.dueNs delay ser i + sim.hops 0 * (ser .data + delay) < e.time
  · obtain ⟨⟨t, z⟩, hz, rfl⟩ := hu.answered_of_lt hl hs ht hw hloss hun hdue hpop hi hlt
    obtain ⟨hmem, hk⟩ := mem_out.mp hz
    have hzflow := hs.inRange.emitted t z (mem_emissions.mp hmem)
    cases hs.fate hl.routed hl.member t z (mem_emissions.mp hmem) with
    | dropped t' q w ht' _ => exact absurd ht' (hloss t' q w)
    | onWay q w hwl hcore =>
      obtain ⟨-, hwi, -, hwk, -, -⟩ := Packet.core_inj hcore
      obtain ⟨j, hj, hq, c, hc⟩ := hl.of_onLink hs hwl
      rw [hwk.trans hk] at hq
      subst hq
      have hpass : (c, w) ∈ s.passing sim (sim.link policy 0 .ack j) := List.mem_append_right _ hc
      have hpunctual := hu.ack_punctual hl hs ht hw hloss hun hdue hj hpass
      have hle := le_of_mem_timed hpop hc
      dsimp only at hle hpunctual ⊢
      rw [hwi] at hpunctual
      omega
    | arrived e' q w he' hb' hcore htarget _ _ =>
      obtain ⟨hwf, hwi, -, hwk, -, -⟩ := Packet.core_inj hcore
      have hhost : (sim.fabric.node (sim.fabric.port q).peerNode).isHost = true := by
        rw [htarget]
        exact (Simulation.ends_of_flow_lt hzflow).2.1
      have hnoted := hs.answered.ack e' he' q w hb' hhost (hwk.trans hk)
      rw [hwf, hl.flow_eq hzflow, hwi, hack] at hnoted
      exact absurd hnoted (by simp)
  · omega

/-- A flow with packets left does not sleep past the time of the next one. -/
theorem next_le {e : Event} {queue : EventQueue} (hpop : s.queue.pop = some (e, queue))
    (hstart : (sim.spec 0).startNs = 0) (hleft : (s.tx 0).nextSeq < sim.packetsTotal 0) :
    e.time ≤ sim.dueNs delay ser (s.tx 0).nextSeq := by
  rcases hl.woken hs with ⟨leftover, rfl⟩ | htaken
  · have he : e ∈ (sim.beginRun leftover).queue.agenda := by
      rw [EventQueue.agenda_of_pop hpop]
      exact List.mem_cons_self ..
    obtain ⟨f, hf, -, -, htime⟩ := mem_agenda_beginRun leftover he
    rw [htime, hl.flow_eq hf, hstart]
    exact Nat.zero_le _
  have hledger := hs.books.ledger 0
  have hpos : 0 < sim.window 0 := (sim.spec 0).window_pos
  rcases (hs.awake hl.flow_lt).busy (Or.inl hl.independent) with h | h | h | h
  · exact absurd (hun.failed 0) (by simp [h])
  · -- the wake-up comes when the gate opens
    obtain ⟨e', he', hb'⟩ := h
    have hwake : e'.time ∈ s.queue.wakeTimes 0 := EventQueue.mem_wakeTimes.mpr ⟨e', he', hb', rfl⟩
    refine (le_of_mem_agenda hpop he').trans ((hs.wake_le ht hw htaken hwake).trans ?_)
    rw [hs.gate_eq hl.independent hw]
    have hidx := hun.indices (f := 0) hs ht hw
    cases hsent : s.sentBy 0 with
    | nil => exact Nat.zero_le _
    | cons b l =>
      rw [hsent, List.map_cons] at hidx
      obtain ⟨k, hk⟩ : ∃ k, (s.tx 0).nextSeq = k + 1 := by
        cases hn : (s.tx 0).nextSeq with
        | zero =>
          rw [hn] at hidx
          exact absurd hidx (by simp)
        | succ k => exact ⟨k, rfl⟩
      rw [hk, List.range_succ, List.reverse_append, List.reverse_singleton,
        List.singleton_append] at hidx
      have hb : b ∈ s.out .data := by
        rw [hl.out_data hs, hsent]
        simp
      show b.1 + sim.periodNs 0 ≤ _
      rw [hu.period, hdue b hb, (List.cons.inj hidx).1, hk]
      exact sent_add_le k
  · -- the packet a window back is not acked
    rw [hledger.inFlight_below] at h
    obtain ⟨i, hi, hair⟩ := exists_of_le_count hpos h
    have hack : (s.pkt 0 i).acked = false := by
      by_contra hack
      have := (hledger.settled i (by simpa using hack)).1
      rw [hair] at this
      exact absurd this (by simp)
    refine (hu.unacked_le hl hs ht hw hloss hun hdue hpop (by omega) hack).trans ?_
    exact acked_le_sent (by omega)
  · omega

end

section

variable {e : Event} {queue : EventQueue}

variable (hu : sim.Uniform rate delay ser) (hl : sim.Lone policy) (hs : sim.Reachable policy s)
  (ht : sim.transport.Accepted) (hstart : (sim.spec 0).startNs = 0) (hun : Undisturbed s)
  (hdue : ∀ b ∈ s.out .data, b.1 = sim.dueNs delay ser b.2.index)
  (hpop : s.queue.pop = some (e, queue))
  (hw : ((s.advance e queue).dispatch sim policy e.body).wrapped = false)
  (hloss : Lossless ((s.advance e queue).dispatch sim policy e.body))

include hu hl hs ht hstart hun hdue hpop hw hloss

/-- What is sent in a turn is sent on time. -/
theorem punctual_step (hun' : Undisturbed ((s.advance e queue).dispatch sim policy e.body)) :
    ∀ b ∈ ((s.advance e queue).dispatch sim policy e.body).out .data,
      b.1 = sim.dueNs delay ser b.2.index := by
  have hnext := hs.next (step_eq_some_iff.mpr ⟨e, queue, hpop, rfl⟩)
  have hw₀ := step_unwrapped hs.coherent hpop hw
  intro b hb
  by_cases hold : b ∈ s.out .data
  · exact hdue b hold
  have hearly := hu.early hl hnext ht hw hloss b hb
  have htime : b.1 = e.time := by
    rcases emissions_dispatch sim policy (s.advance e queue) e.body b (mem_out.mp hb).1 with h | h
    · rw [emissions_advance] at h
      exact absurd (mem_out.mpr ⟨h, (mem_out.mp hb).2⟩) hold
    · exact h
  -- an index that was sent before is not sent again
  have hfresh : (s.tx 0).nextSeq ≤ b.2.index := by
    by_contra hlt
    obtain ⟨c, hc, hidx⟩ := mem_out_of_lt hl hs ht hw₀ hun (not_le.mp hlt)
    have hc' : c ∈ ((s.advance e queue).dispatch sim policy e.body).out .data :=
      mem_out.mpr ⟨mem_emissions.mpr (mem_trace_step (mem_emissions.mp (mem_out.mp hc).1)),
        (mem_out.mp hc).2⟩
    have hnodup : ((((s.advance e queue).dispatch sim policy e.body).out .data).map
        fun b => b.2.index).Nodup := by
      rw [indices_out hl hnext ht hw hun']
      exact List.nodup_range
    exact hold (List.inj_on_of_nodup_map hnodup hc' hb hidx ▸ hc)
  have hlt : b.2.index < sim.packetsTotal 0 := by
    have hmem : b.2.index ∈ (((s.advance e queue).dispatch sim policy e.body).out .data).map
        fun b => b.2.index := List.mem_map_of_mem hb
    rw [indices_out hl hnext ht hw hun', List.mem_range] at hmem
    exact hmem.trans_le (hnext.books.ledger 0).seq_le
  have hlate := hu.next_le hl hs ht hw₀ hloss.of_step hun hdue hpop hstart (by omega)
  have hmono : sim.dueNs delay ser (s.tx 0).nextSeq ≤ sim.dueNs delay ser b.2.index :=
    sent_mono hfresh
  omega

/-- A timer that fires for a packet not acked found its ack late, with the next packet not
sent. -/
theorem timer_le {i a : Nat} (hb : e.body = .timeout 0 i a) (hack : (s.pkt 0 i).acked = false) :
    e.time = sim.dueNs delay ser i + sim.transport.rtoNs ∧ e.time ≤ sim.backNs delay ser i ∧
      i < (s.tx 0).nextSeq ∧ ((s.tx 0).nextSeq < sim.packetsTotal 0 →
        e.time ≤ sim.dueNs delay ser (s.tx 0).nextSeq) := by
  have hw₀ := step_unwrapped hs.coherent hpop hw
  have hmem : e ∈ s.queue.agenda := by
    rw [EventQueue.agenda_of_pop hpop]
    exact List.mem_cons_self ..
  obtain ⟨b, hem, hk, -, rfl, -, htime⟩ := hs.armed hw₀ e hmem 0 i a hb
  have hlt := (hs.books.timer e hmem 0 b.2.index a hb).sent
  rw [hdue b (mem_out.mpr ⟨hem, hk⟩)] at htime
  exact ⟨htime, hu.unacked_le hl hs ht hw₀ hloss.of_step hun hdue hpop hlt hack, hlt,
    hu.next_le hl hs ht hw₀ hloss.of_step hun hdue hpop hstart⟩

end

/-- Where acks take no longer than data and a timeout more than a round trip, any room in
the queues keeps the flow on the clock. -/
theorem punctual (hu : sim.Uniform rate delay ser) (hl : sim.Lone policy)
    (hs : sim.Reachable policy s) (ht : sim.transport.Accepted)
    (hstart : (sim.spec 0).startNs = 0) (hle : ∀ k, ser k ≤ ser .data)
    (hcap : ∀ p, p < sim.fabric.portCount → 0 < (sim.fabric.port p).queueCapacity)
    (hrto : sim.tripNs delay ser < sim.transport.rtoNs) (hw : s.wrapped = false) :
    Undisturbed s ∧ ∀ b ∈ s.out .data, b.1 = sim.dueNs delay ser b.2.index := by
  refine Reachable.invariant (P := fun s => s.wrapped = false →
    Undisturbed s ∧ ∀ b ∈ s.out .data, b.1 = sim.dueNs delay ser b.2.index)
    (fun _ _ => ⟨⟨fun _ _ => rfl, fun _ => rfl⟩, fun _ hb => absurd hb List.not_mem_nil⟩) ?_ hs hw
  intro s e queue hs ih hpop hw
  obtain ⟨hun, hdue⟩ := ih (step_unwrapped hs.coherent hpop hw)
  have hnext := hs.next (step_eq_some_iff.mpr ⟨e, queue, hpop, rfl⟩)
  have hloss := hu.lossless hl hnext ht hle hcap hw
  have hun' : Undisturbed ((s.advance e queue).dispatch sim policy e.body) := by
    refine hun.step fun f i a hb => ?_
    by_contra hack
    have hmem : e ∈ s.queue.agenda := by
      rw [EventQueue.agenda_of_pop hpop]
      exact List.mem_cons_self ..
    obtain rfl := hl.flow_eq (hs.endpoint_lt hpop (Or.inr (Or.inl ⟨i, a, hb⟩)))
    obtain ⟨htime, hback, -⟩ := hu.timer_le hl hs ht hstart hun hdue hpop hw hloss hb
      (by simpa using hack)
    have hon : sim.backNs delay ser i = sim.dueNs delay ser i + sim.tripNs delay ser :=
      acked_eq (hle .ack) i
    omega
  exact ⟨hun', hu.punctual_step hl hs ht hstart hun hdue hpop hw hloss hun'⟩

/-! ## When the flow finishes -/

section

variable (hu : sim.Uniform rate delay ser) (hl : sim.Lone policy) (hs : sim.Reachable policy s)
  (ht : sim.transport.Accepted) (hw : s.wrapped = false) (hloss : Lossless s)
  (hc : (s.result 0).complete = true)

include hu hl hs ht hw hloss

/-- Data arrives as long after it left as its links take. -/
theorem arrival_time {e : Event} (he : .dispatched e ∈ s.trace) {p : PortId} {x : Packet}
    (hb : e.body = .arrive p x)
    (hhost : (sim.fabric.node (sim.fabric.port p).peerNode).isHost = true) (hk : x.kind = .data) :
    ∃ b ∈ s.out .data, b.2.core = x.core ∧
      e.time = b.1 + sim.hops 0 * (ser .data + delay) := by
  have hpos := hl.hops_pos
  obtain rfl := (hl.last_iff hs he hb .data).mpr ⟨hhost, hk⟩
  have hpass : (e.time, x) ∈ s.passing sim (sim.link policy 0 .data (sim.hops 0 - 1)) :=
    List.mem_append_left _ (mem_arrived.mpr ⟨e, he, hb, rfl⟩)
  obtain ⟨b, hbout, hcore, htime⟩ := hu.on_time hl hs hw hloss ht le_rfl
    (Nat.sub_lt hpos Nat.one_pos) hpass
  rw [Nat.sub_add_cancel hpos] at htime
  exact ⟨b, hbout, hcore, htime⟩

/-- After the run every packet that was sent has come over. -/
theorem came_of_sent (hd : s.Drained) {b : Nat × Packet} (hbout : b ∈ s.out .data) :
    (b.1 + sim.hops 0 * (ser .data + delay), b.2.index) ∈ s.deliveries sim 0 := by
  obtain ⟨hmem, hk⟩ := mem_out.mp hbout
  have htr := mem_emissions.mp hmem
  cases hs.fate hl.routed hl.member b.1 b.2 htr with
  | dropped t' p y ht' _ => exact absurd ht' (hloss t' p y)
  | onWay p y hy _ =>
    rw [hd.onLink hs.coherent] at hy
    exact absurd hy List.not_mem_nil
  | arrived e p y he hb hcore htarget _ _ =>
    obtain ⟨-, hidx, -, hkind, hserial, -⟩ := Packet.core_inj hcore
    have hhost : (sim.fabric.node (sim.fabric.port p).peerNode).isHost = true := by
      rw [htarget]
      exact (Simulation.ends_of_flow_lt (hs.inRange.emitted b.1 b.2 htr)).2.1
    obtain ⟨c, hcout, hccore, htime⟩ := hu.arrival_time hl hs ht hw hloss he hb hhost
      (hkind.trans hk)
    obtain rfl : c = b := hs.numbered.unique (mem_out.mp hcout).1 hmem
      ((Packet.core_inj hccore).2.2.2.2.1.trans hserial)
    have hlast := (hl.last_iff hs he hb .data).mpr ⟨hhost, hkind.trans hk⟩
    have hmem := List.mem_map_of_mem (f := fun a : Nat × Packet => (a.1, a.2.index))
      (mem_arrived.mpr ⟨e, he, hlast ▸ hb, rfl⟩ : (e.time, y) ∈ _)
    rw [hl.arrived_data hs, List.mem_reverse] at hmem
    rw [← htime, ← hidx]
    exact hmem

/-- Of a flow that sent them all every packet is delivered. -/
theorem complete_of_sent (hd : s.Drained) (hpos : 0 < sim.packetsTotal 0)
    (hsent : ∀ i, i < sim.packetsTotal 0 → ∃ b ∈ s.out .data, b.2.index = i) :
    (s.result 0).complete = true := by
  have hrecv := hs.receiver 0
  rw [hrecv.complete_iff hpos, hrecv.count]
  refine Nat.count_of_forall fun i hi => ?_
  obtain ⟨b, hb, rfl⟩ := hsent i hi
  rw [(hs.tally 0).bits]
  unfold arrivedSet
  rw [List.mem_toFinset]
  exact List.mem_map_of_mem (hu.came_of_sent hl hs ht hw hloss hd hb)

include hc

/-- No flow finishes before the clock says. -/
theorem due_le_finish {idx : Nat} (hidx : idx < sim.packetsTotal 0) :
    sim.dueNs delay ser idx + sim.hops 0 * (ser .data + delay) ≤ (s.result 0).finishNs := by
  obtain ⟨e, p, x, he, hb, hhost, -, hk, rfl, hle⟩ := (hs.receipt hw 0).finish hc idx hidx
  obtain ⟨b, hbout, hcore, htime⟩ := hu.arrival_time hl hs ht hw hloss he hb hhost hk
  have hearly := hu.early hl hs ht hw hloss b hbout
  rw [(Packet.core_inj hcore).2.1] at hearly
  omega

/-- One that sent every packet on time, and is over, finished when the clock says. -/
theorem finish_eq (hd : s.Drained) (hdue : ∀ i, i < sim.packetsTotal 0 →
    ∃ b ∈ s.out .data, b.2.index = i ∧ b.1 = sim.dueNs delay ser i) :
    (s.result 0).finishNs =
      sim.dueNs delay ser (sim.packetsTotal 0 - 1) + sim.hops 0 * (ser .data + delay) := by
  have hpos := hl.hops_pos
  have htotal := (hs.receipt hw 0).total hc
  refine le_antisymm ?_ (hu.due_le_finish hl hs ht hw hloss hc (by omega))
  obtain ⟨later, i, earlier, hsplit, hfirst, hall⟩ := (hs.tally 0).finish hc
  have hi : i < sim.packetsTotal 0 := by
    refine (hs.tally 0).range i ?_
    unfold arrivedSet
    rw [hsplit, List.mem_toFinset]
    simp
  obtain ⟨b, hbout, rfl, hbtime⟩ := hdue i hi
  -- the packet came, no earlier than the first of its index
  have hcame := hu.came_of_sent hl hs ht hw hloss hd hbout
  have hspaced := hu.passing_spaced hl hs hw hloss (Nat.sub_lt hpos Nat.one_pos) .data
  unfold passing at hspaced
  rw [List.map_append] at hspaced
  have htimes := congrArg (List.map Prod.fst) (hl.arrived_data hs)
  rw [List.map_map] at htimes
  have hordered := (List.pairwise_append.mp hspaced).1
  change List.map Prod.fst _ = _ at htimes
  rw [htimes, hsplit, List.reverse_append, List.reverse_cons, List.map_append, List.map_append,
    List.map_singleton, List.append_assoc] at hordered
  have hlater := (List.pairwise_append.mp (List.pairwise_append.mp hordered).2.1).2.2
  have hle : (s.result 0).finishNs ≤ b.1 + sim.hops 0 * (ser .data + delay) := by
    rw [hsplit] at hcame
    rcases List.mem_append.mp hcame with h | h
    · have := hlater _ (List.mem_singleton_self _) _
        (List.mem_map_of_mem (List.mem_reverse.mpr h))
      dsimp only at this
      omega
    · rcases List.mem_cons.mp h with h | h
      · exact (congrArg Prod.fst h).ge
      · exact absurd (List.mem_map_of_mem h) hfirst
  have hmono : sim.dueNs delay ser b.2.index ≤ sim.dueNs delay ser (sim.packetsTotal 0 - 1) :=
    sent_mono (by omega)
  omega

end

end Simulation.Uniform

end FabricSim
