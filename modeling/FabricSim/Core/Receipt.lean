import FabricSim.Core.Pacing

/-!
# Arrivals, completions and starts

A delivered bit is set by an arrival in the history, a flow is complete once all
its packets have arrived, and the flows that wait on it start at that very time.
The sender changes none of this (`SameReceipt`), so only the arrival of a data
packet has to be looked at.
-/

namespace FabricSim

open State

/-- A data packet of the flow has arrived at a host by time `t`. -/
def Arrived (sim : Simulation) (s : State) (f : FlowId) (idx t : Nat) : Prop :=
  ∃ e p x, .dispatched e ∈ s.trace ∧ e.body = .arrive p x ∧
    (sim.fabric.node (sim.fabric.port p).peerNode).isHost = true ∧
    x.flow = f ∧ x.kind = .data ∧ x.index = idx ∧ e.time ≤ t

structure Receipt (sim : Simulation) (s : State) (f : FlowId) : Prop where
  total : (s.result f).complete = true → 0 < sim.packetsTotal f
  bits : ∀ idx, (s.pkt f idx).delivered = true → Arrived sim s f idx s.now
  finish : (s.result f).complete = true → ∀ idx, idx < sim.packetsTotal f →
    Arrived sim s f idx (s.result f).finishNs
  handover : (s.result f).complete = true → ∀ d ∈ sim.dependents f,
    (s.result d).startNs = (s.result f).finishNs

namespace State

variable {sim : Simulation} {s s' s'' : State}

/-- `s'` has the times, completions and delivered bits of `s`. -/
structure SameReceipt (s s' : State) : Prop where
  start : ∀ f, (s'.result f).startNs = (s.result f).startNs
  finish : ∀ f, (s'.result f).finishNs = (s.result f).finishNs
  complete : ∀ f, (s'.result f).complete = (s.result f).complete
  delivered : ∀ f i, (s'.pkt f i).delivered = (s.pkt f i).delivered

theorem SameReceipt.refl (s : State) : SameReceipt s s :=
  ⟨fun _ => rfl, fun _ => rfl, fun _ => rfl, fun _ _ => rfl⟩

theorem SameReceipt.trans (h : SameReceipt s s') (h' : SameReceipt s' s'') : SameReceipt s s'' :=
  ⟨fun f => (h'.start f).trans (h.start f), fun f => (h'.finish f).trans (h.finish f),
    fun f => (h'.complete f).trans (h.complete f),
    fun f i => (h'.delivered f i).trans (h.delivered f i)⟩

theorem SameRecord.receipt (h : SameRecord s s')
    (hstart : ∀ f, (s'.result f).startNs = (s.result f).startNs) : SameReceipt s s' :=
  ⟨hstart, fun f => (FlowResult.outcome_inj (h.outcome f)).1, h.complete, h.delivered⟩

theorem trySend_start (s : State) (g f : FlowId) :
    ((s.trySend sim g).result f).startNs = (s.result f).startNs := by
  refine trySend_rule (P := fun s' => (s'.result f).startNs = (s.result f).startNs)
    (Q := fun s' => (s'.result f).startNs = (s.result f).startNs) (fun _ h _ => h) ?_ ?_ ?_ ?_
    (fun _ => rfl) rfl
  · intro s' h _ _
    unfold waitTurn
    split <;> exact h
  · exact fun _ _ _ h _ _ _ => h
  · intro s' idx head count h _ _ _
    rw [sendPacket_start]
    exact h
  · intro s' head count h _ _ _ _
    rw [sendPacket_start]
    exact h

theorem sameReceipt_trySend (s : State) (g : FlowId) : SameReceipt s (s.trySend sim g) :=
  (trySend_frame s g).receipt (trySend_start s g)

theorem sameReceipt_land (s : State) (g : FlowId) (idx : Nat) : SameReceipt s (s.land g idx) := by
  refine (sameRecord_land s g idx).receipt fun f => ?_
  unfold land
  split <;> rfl

theorem sameReceipt_onInject (s : State) (g : FlowId) : SameReceipt s (s.onInject sim g) := by
  have hflag : SameReceipt s (s.modifyTx g fun tx => { tx with sendScheduled := false }) :=
    ⟨fun _ => rfl, fun _ => rfl, fun _ => rfl, fun _ _ => rfl⟩
  exact hflag.trans (sameReceipt_trySend _ g)

theorem sameReceipt_onAck (s : State) (g : FlowId) (idx : Nat) :
    SameReceipt s (s.onAck sim g idx) := by
  refine (sameRecord_onAck s g idx).receipt fun f => ?_
  unfold onAck
  split
  · rfl
  · rw [trySend_start, (sameReceipt_land _ g idx).start]
    rfl

theorem sameReceipt_onTimeout (s : State) (g : FlowId) (idx a : Nat) :
    SameReceipt s (s.onTimeout sim g idx a) := by
  unfold onTimeout
  split
  · exact SameReceipt.refl s
  · split
    · exact SameReceipt.refl s
    · split
      · exact SameReceipt.refl s
      · split
        · refine (sameReceipt_land s g idx).trans ?_
          refine ⟨fun f => ?_, fun f => ?_, fun f => ?_, fun _ _ => rfl⟩
          all_goals
            by_cases hf : f = g
            · subst hf; simp
            · simp [hf]
        · refine ((sameReceipt_land s g idx).trans ?_).trans (sameReceipt_trySend _ g)
          exact ⟨fun _ => rfl, fun _ => rfl, fun _ => rfl, fun _ _ => rfl⟩

theorem sameReceipt_enqueue (s : State) (p : PortId) (x : Packet) :
    SameReceipt s (s.enqueue sim p x) :=
  (sameRecord_enqueue s p x).receipt (enqueue_start p x)

theorem sameReceipt_sendAck (s : State) (g : FlowId) (idx a : Nat) :
    SameReceipt s (s.sendAck sim g idx a) := by
  refine (sameRecord_sendAck s g idx a).receipt fun f => ?_
  unfold sendAck
  rw [enqueue_start]
  rfl

theorem sameReceipt_onTxComplete (s : State) (p : PortId) :
    SameReceipt s (s.onTxComplete sim p) := by
  refine (sameRecord_onTxComplete s p).receipt fun f => ?_
  rcases onTxComplete_cases sim s p with ⟨-, h⟩ | ⟨-, h⟩ <;> rw [h] <;> rfl

/-- Who is released starts now; nobody else's times change. -/
theorem foldl_releaseFlow_start (g : FlowId) (l : List FlowId) (s : State) (f : FlowId) :
    (l.foldl (releaseFlow g) s).now = s.now ∧
      ((l.foldl (releaseFlow g) s).result f).startNs =
        if f ∈ l then s.now else (s.result f).startNs := by
  induction l generalizing s with
  | nil => exact ⟨rfl, (if_neg List.not_mem_nil).symm⟩
  | cons d l ih =>
    obtain ⟨h1, h2⟩ := ih (releaseFlow g s d)
    rw [List.foldl_cons]
    refine ⟨h1, ?_⟩
    rw [h2]
    by_cases hd : f = d
    · subst hd
      simp
    · simp [hd]

end State

theorem Arrived.mono {sim : Simulation} {s s' : State} {f : FlowId} {idx t t' : Nat}
    (h : Arrived sim s f idx t) (ht : t ≤ t') (htr : ∀ o ∈ s.trace, o ∈ s'.trace) :
    Arrived sim s' f idx t' := by
  obtain ⟨e, p, x, he, hb, hh, hf, hk, hi, hle⟩ := h
  exact ⟨e, p, x, htr _ he, hb, hh, hf, hk, hi, hle.trans ht⟩

namespace Receipt

variable {sim : Simulation} {policy : RoutingPolicy} {s s' : State} {f g : FlowId}

theorem congr (h : Receipt sim s f) (hs : SameReceipt s s') (hnow : s.now ≤ s'.now)
    (htr : ∀ o ∈ s.trace, o ∈ s'.trace) : Receipt sim s' f where
  total := by
    rw [hs.complete]
    exact h.total
  bits := by
    intro idx hd
    rw [hs.delivered] at hd
    exact (h.bits idx hd).mono hnow htr
  finish := by
    rw [hs.complete, hs.finish]
    exact fun hc idx hidx => (h.finish hc idx hidx).mono le_rfl htr
  handover := by
    rw [hs.complete, hs.finish]
    intro hc d hd
    rw [hs.start]
    exact h.handover hc d hd

/-- The last packet of a flow completes it: its dependents start now. -/
theorem completeFlow (h : ∀ f, Receipt sim s f) (hpos : 0 < sim.packetsTotal g)
    (hall : ∀ idx, idx < sim.packetsTotal g → (s.pkt g idx).delivered = true) (f : FlowId) :
    Receipt sim (s.completeFlow sim g) f := by
  obtain ⟨hrec, -, htr⟩ := completeFlow_spec sim s g
  have hstart := foldl_releaseFlow_start g (sim.dependents g)
    (s.modifyResult g fun r => { r with finishNs := s.now, complete := true })
  change ∀ f, (s.completeFlow sim g).now = s.now ∧
    ((s.completeFlow sim g).result f).startNs = if f ∈ sim.dependents g then s.now else
      ((s.modifyResult g fun r => { r with finishNs := s.now, complete := true }).result f).startNs
    at hstart
  have hfinish : ∀ c, ((s.completeFlow sim g).result c).finishNs =
      if c = g then s.now else (s.result c).finishNs := by
    intro c
    rw [(FlowResult.outcome_inj (hrec.outcome c)).1]
    by_cases hc : c = g
    · subst hc; simp
    · simp [hc]
  have hcomplete : ∀ c, ((s.completeFlow sim g).result c).complete =
      if c = g then true else (s.result c).complete := by
    intro c
    rw [hrec.complete]
    by_cases hc : c = g
    · subst hc; simp
    · simp [hc]
  have hdelivered : ∀ i, ((s.completeFlow sim g).pkt f i).delivered = (s.pkt f i).delivered :=
    fun i => hrec.delivered f i
  refine ⟨?_, ?_, ?_, ?_⟩
  · rw [hcomplete]
    by_cases hf : f = g
    · subst hf
      exact fun _ => hpos
    · rw [if_neg hf]
      exact (h f).total
  · intro idx hd
    rw [hdelivered] at hd
    exact ((h f).bits idx hd).mono (hstart f).1.ge htr
  · rw [hcomplete, hfinish]
    by_cases hf : f = g
    · subst hf
      rw [if_pos rfl, if_pos rfl]
      exact fun _ idx hidx => ((h f).bits idx (hall idx hidx)).mono le_rfl htr
    · rw [if_neg hf, if_neg hf]
      exact fun hc idx hidx => ((h f).finish hc idx hidx).mono le_rfl htr
  · rw [hcomplete, hfinish]
    by_cases hf : f = g
    · subst hf
      rw [if_pos rfl, if_pos rfl]
      intro _ d hd
      rw [(hstart d).2, if_pos hd]
    · rw [if_neg hf, if_neg hf]
      intro hc d hd
      -- a dependent of another flow is not released
      have hdep := ((Simulation.mem_dependents sim).mp hd).2
      have hnot : d ∉ sim.dependents g := by
        intro hmem
        have := ((Simulation.mem_dependents sim).mp hmem).2
        exact hf (Option.some.inj (hdep.symm.trans this))
      rw [(hstart d).2, if_neg hnot, ← (h f).handover hc d hd]
      by_cases hdg : d = g
      · subst hdg; simp
      · simp [hdg]

theorem deliver (h : ∀ f, Receipt sim s f) (hrecv : Receiver sim s g) {idx : Nat} (bytes : Nat)
    (hidx : idx < sim.packetsTotal g) (hnew : (s.pkt g idx).delivered = false)
    (harr : Arrived sim s g idx s.now) (f : FlowId) :
    Receipt sim (s.deliver sim g idx bytes) f := by
  have hcount := hrecv.count_deliver hidx hnew
  have hbits : ∀ f, Receipt sim ((s.modifyPkt g idx fun st =>
      { st with delivered := true }).modifyResult g fun r =>
      { r with
        packetsDelivered := r.packetsDelivered + 1, deliveredBytes := r.deliveredBytes + bytes }) f := by
    intro f
    have hres : ∀ c, (((s.modifyPkt g idx fun st => { st with delivered := true }).modifyResult g
        fun r => { r with
          packetsDelivered := r.packetsDelivered + 1, deliveredBytes := r.deliveredBytes + bytes
        }).result c).complete = (s.result c).complete ∧
        (((s.modifyPkt g idx fun st => { st with delivered := true }).modifyResult g
        fun r => { r with
          packetsDelivered := r.packetsDelivered + 1, deliveredBytes := r.deliveredBytes + bytes
        }).result c).finishNs = (s.result c).finishNs ∧
        (((s.modifyPkt g idx fun st => { st with delivered := true }).modifyResult g
        fun r => { r with
          packetsDelivered := r.packetsDelivered + 1, deliveredBytes := r.deliveredBytes + bytes
        }).result c).startNs = (s.result c).startNs := by
      intro c
      by_cases hc : c = g
      · subst hc; simp
      · simp [hc]
    refine ⟨?_, ?_, ?_, ?_⟩
    · rw [(hres f).1]
      exact (h f).total
    · intro i hd
      by_cases hf : f = g
      · subst hf
        by_cases hi : i = idx
        · subst hi
          exact harr
        · exact (h f).bits i (by simpa [Function.update_of_ne hi] using hd)
      · exact (h f).bits i (by simpa [Function.update_of_ne hf] using hd)
    · rw [(hres f).1, (hres f).2.1]
      exact (h f).finish
    · rw [(hres f).1, (hres f).2.1]
      intro hc d hd
      rw [(hres d).2.2]
      exact (h f).handover hc d hd
  unfold State.deliver
  dsimp only
  split
  · next hfull =>
    rw [modifyResult_result, Function.update_self] at hfull
    refine completeFlow hbits (by omega) ?_ f
    have hall := Nat.count_iff_forall.mp (hcount.symm.trans hfull)
    simpa using hall
  · exact hbits f

theorem step (h : ∀ f, Receipt sim s f) (hs : sim.Reachable policy s) {e : Event}
    {queue : EventQueue} (hpop : s.queue.pop = some (e, queue))
    (hw : ((s.advance e queue).dispatch sim policy e.body).wrapped = false) (f : FlowId) :
    Receipt sim ((s.advance e queue).dispatch sim policy e.body) f := by
  have he : e ∈ s.queue.agenda := by
    rw [EventQueue.agenda_of_pop hpop]
    exact List.mem_cons_self ..
  have hnow := (hs.onTime (step_unwrapped hs.coherent hpop hw)).future e he
  have hadv : ∀ f, Receipt sim (s.advance e queue) f := fun f =>
    (h f).congr ⟨fun _ => rfl, fun _ => rfl, fun _ => rfl, fun _ _ => rfl⟩ hnow
      fun o ho => by simp [ho]
  obtain ⟨l, hl⟩ := dispatch_trace sim policy (s.advance e queue) e.body
  have htr : ∀ o ∈ (s.advance e queue).trace,
      o ∈ ((s.advance e queue).dispatch sim policy e.body).trace := by
    intro o ho
    rw [hl]
    exact List.mem_append_right _ ho
  clear hl
  have hclock := dispatch_now sim policy (s.advance e queue) e.body
  cases hb : e.body with
  | inject g =>
    rw [hb] at htr hclock
    exact (hadv f).congr (sameReceipt_onInject _ g) hclock.ge htr
  | txComplete p =>
    rw [hb] at htr hclock
    exact (hadv f).congr (sameReceipt_onTxComplete _ p) hclock.ge htr
  | timeout g idx a =>
    rw [hb] at htr hclock
    exact (hadv f).congr (sameReceipt_onTimeout _ g idx a) hclock.ge htr
  | arrive p x =>
    rw [hb] at htr hclock
    change ∀ o ∈ _, o ∈ ((s.advance e queue).onArrive sim policy p x).trace at htr
    change ((s.advance e queue).onArrive sim policy p x).now = _ at hclock
    show Receipt sim ((s.advance e queue).onArrive sim policy p x) f
    cases hh : (sim.fabric.node (sim.fabric.port p).peerNode).isHost with
    | false =>
      rw [onArrive_switch hh] at htr hclock ⊢
      exact (hadv f).congr (sameReceipt_enqueue _ _ _) hclock.ge htr
    | true =>
      cases hk : x.kind with
      | ack =>
        rw [onArrive_ack hh hk] at htr hclock ⊢
        have hcount : SameReceipt (s.advance e queue)
            ((s.advance e queue).countAckDelivered x.bytes) :=
          ⟨fun _ => rfl, fun _ => rfl, fun _ => rfl, fun _ _ => rfl⟩
        exact (hadv f).congr (hcount.trans (sameReceipt_onAck _ _ _)) hclock.ge htr
      | data =>
        rw [onArrive_data hh hk]
        have hseq := (hs.books.arrived hs (mem_onLink_of_arrive hpop hb)).1 hk
        have hidx : x.index < sim.packetsTotal x.flow :=
          lt_of_lt_of_le hseq (hs.books.ledger x.flow).seq_le
        have hcount : ∀ f, Receipt sim ((s.advance e queue).countDelivered x.bytes) f := fun f =>
          (hadv f).congr ⟨fun _ => rfl, fun _ => rfl, fun _ => rfl, fun _ _ => rfl⟩ le_rfl
            fun _ ho => ho
        have hrecv : Receiver sim ((s.advance e queue).countDelivered x.bytes) x.flow :=
          (hs.receiver x.flow).congr ⟨fun _ => rfl, fun _ _ => rfl, fun _ => rfl⟩
            fun _ ho => List.mem_cons_of_mem _ ho
        have harr : Arrived sim ((s.advance e queue).countDelivered x.bytes) x.flow x.index
            ((s.advance e queue).countDelivered x.bytes).now :=
          ⟨e, p, x, List.mem_cons_self .., hb, hh, rfl, hk, rfl, le_rfl⟩
        unfold State.onDataArrival
        refine Receipt.congr ?_ (sameReceipt_sendAck _ _ _ _) ?_ ?_
        · split
          · exact hcount f
          · next hnew =>
            exact deliver hcount hrecv _ hidx (by simpa [countDelivered] using hnew) harr f
        · unfold State.sendAck
          rw [enqueue_now]
          rfl
        · intro o ho
          obtain ⟨l, hl⟩ := (Micro.ack _ x.index x.tag.attempt : Micro sim x.flow _ _).trace
          rw [hl]
          exact List.mem_append_right _ ho

theorem begin (sim : Simulation) (leftover : State) (f : FlowId) :
    Receipt sim (sim.beginRun leftover) f :=
  ⟨fun h => absurd h (by simp [Simulation.beginRun]),
    fun _ h => absurd h (by simp [Simulation.beginRun]),
    fun h => absurd h (by simp [Simulation.beginRun]),
    fun h => absurd h (by simp [Simulation.beginRun])⟩

end Receipt

theorem Simulation.Reachable.receipt {sim : Simulation} {policy : RoutingPolicy} {s : State}
    (h : sim.Reachable policy s) (hw : s.wrapped = false) (f : FlowId) : Receipt sim s f := by
  refine Simulation.Reachable.invariant (P := fun s => s.wrapped = false → ∀ f, Receipt sim s f)
    (fun leftover _ => Receipt.begin sim leftover) ?_ h hw f
  exact fun s e queue hs ih hpop hw' =>
    Receipt.step (ih (step_unwrapped hs.coherent hpop hw')) hs hpop hw'

/-! ## Flows that wait for none -/

namespace State

variable {sim : Simulation} {policy : RoutingPolicy} {s : State} {f g : FlowId}

theorem start_deliver (hf : f ∉ sim.dependents g) (idx bytes : Nat) :
    ((s.deliver sim g idx bytes).result f).startNs = (s.result f).startNs := by
  have hsame : ∀ (s : State) (r : FlowResult → FlowResult),
      (∀ r', (r r').startNs = r'.startNs) →
      ((s.modifyResult g r).result f).startNs = (s.result f).startNs := by
    intro s r hr
    by_cases hg : f = g
    · subst hg
      simp [hr]
    · simp [hg]
  unfold deliver
  dsimp only
  split
  · unfold completeFlow
    rw [(foldl_releaseFlow_start g _ _ f).2, if_neg hf]
    refine (hsame _ _ ?_).trans (hsame _ _ ?_)
    · exact fun _ => rfl
    · exact fun _ => rfl
  · refine hsame _ _ ?_
    exact fun _ => rfl

/-- Only the completion of the flow it waits for moves a flow's start. -/
theorem start_dispatch (hf : ∀ g, f ∉ sim.dependents g) (b : EventBody) :
    ((s.dispatch sim policy b).result f).startNs = (s.result f).startNs := by
  cases b with
  | inject g => exact (sameReceipt_onInject s g).start f
  | txComplete p => exact (sameReceipt_onTxComplete s p).start f
  | timeout g idx a => exact (sameReceipt_onTimeout s g idx a).start f
  | arrive p x =>
    show ((s.onArrive sim policy p x).result f).startNs = _
    cases hh : (sim.fabric.node (sim.fabric.port p).peerNode).isHost with
    | false =>
      rw [onArrive_switch hh]
      exact (sameReceipt_enqueue s _ _).start f
    | true =>
      cases hk : x.kind with
      | ack =>
        rw [onArrive_ack hh hk]
        exact (sameReceipt_onAck _ _ _).start f
      | data =>
        rw [onArrive_data hh hk]
        unfold onDataArrival
        rw [(sameReceipt_sendAck _ _ _ _).start]
        split
        · rfl
        · exact start_deliver (hf _) _ _

end State

theorem Simulation.Reachable.start_eq_spec {sim : Simulation} {policy : RoutingPolicy} {s : State}
    (h : sim.Reachable policy s) {f : FlowId} (hf : (sim.spec f).dependsOn = none) :
    (s.result f).startNs = (sim.spec f).startNs := by
  have hnone : ∀ g, f ∉ sim.dependents g := fun g hmem => by
    have hdep := ((Simulation.mem_dependents sim).mp hmem).2
    exact absurd (hf.symm.trans hdep) (by simp)
  refine Simulation.Reachable.invariant
    (P := fun s => (s.result f).startNs = (sim.spec f).startNs) (fun _ => rfl) ?_ h
  intro s e queue _ ih _
  rw [State.start_dispatch hnone]
  exact ih

end FabricSim
