import FabricSim.Core.Sender

/-!
# The receiver's record of a flow

`Receiver` ties a flow's result to its per-packet bits: `packetsDelivered`
counts the delivered bits, the flow is complete exactly when all of them are
set, and completion released every dependent. Everything the sender does leaves
this record alone (`trySend_frame`), so only a data arrival and a give-up have to
be looked at.
-/

namespace FabricSim

/-- The part of a result that losses, retransmissions and a release leave
alone. -/
def FlowResult.outcome (r : FlowResult) : FlowResult :=
  { r with startNs := 0, packetsDropped := 0, packetsRetransmitted := 0 }

theorem FlowResult.outcome_inj {r r' : FlowResult} (h : r'.outcome = r.outcome) :
    r'.finishNs = r.finishNs ∧ r'.deliveredBytes = r.deliveredBytes ∧
      r'.packetsDelivered = r.packetsDelivered ∧ r'.complete = r.complete ∧
      r'.failed = r.failed := by
  simp only [FlowResult.outcome, FlowResult.mk.injEq] at h
  obtain ⟨-, h1, h2, h3, -, -, h4, h5⟩ := h
  exact ⟨h1, h2, h3, h4, h5⟩

namespace State

variable {sim : Simulation} {policy : RoutingPolicy} {s s' : State}

/-- `s'` has the receiver records, delivered bits and failure flags of `s`. -/
structure SameRecord (s s' : State) : Prop where
  outcome : ∀ f, (s'.result f).outcome = (s.result f).outcome
  delivered : ∀ f i, (s'.pkt f i).delivered = (s.pkt f i).delivered
  failed : ∀ f, (s'.tx f).failed = (s.tx f).failed

theorem SameRecord.refl (s : State) : SameRecord s s := ⟨fun _ => rfl, fun _ _ => rfl, fun _ => rfl⟩

theorem SameRecord.trans {s₁ s₂ s₃ : State} (h₁ : SameRecord s₁ s₂) (h₂ : SameRecord s₂ s₃) :
    SameRecord s₁ s₃ :=
  ⟨fun f => (h₂.outcome f).trans (h₁.outcome f),
    fun f i => (h₂.delivered f i).trans (h₁.delivered f i),
    fun f => (h₂.failed f).trans (h₁.failed f)⟩

theorem sameRecord_enqueue (s : State) (p : PortId) (pkt : Packet) :
    SameRecord s (s.enqueue sim p pkt) := by
  refine ⟨fun f => ?_, fun f i => by simp, fun f => by simp⟩
  obtain ⟨n, h⟩ := enqueue_result sim s p pkt f
  rw [h]
  rfl

theorem sameRecord_modifyTx (s : State) (f : FlowId) (g : FlowTx → FlowTx)
    (hg : (g (s.tx f)).failed = (s.tx f).failed) : SameRecord s (s.modifyTx f g) := by
  refine ⟨fun _ => rfl, fun _ _ => rfl, fun f' => ?_⟩
  by_cases hf : f' = f
  · subst hf
    simpa using hg
  · simp [Function.update_of_ne hf]

theorem sameRecord_sendPacket (s : State) (f : FlowId) (idx : Nat) :
    SameRecord s (s.sendPacket sim f idx) := by
  refine ⟨fun f' => ?_, fun f' i => ?_, fun f' => ?_⟩
  · unfold sendPacket
    obtain ⟨n, h⟩ := enqueue_result sim (((s.markSent sim f idx).pushAfter sim.transport.rtoNs
      (.timeout f idx (s.pktAttempt f idx))).log (.emitted s.now (dataPacket sim s f idx)))
      (sim.route f).srcNic (dataPacket sim s f idx) f'
    rw [h]
    show ({ (s.markSent sim f idx).result f' with packetsDropped := n } : FlowResult).outcome = _
    unfold markSent
    simp only [nextSerial_result, noteTime_result, modifyTx_result, modifyStats_result,
      modifyPkt_result]
    unfold countRetx
    split
    · simp only [modifyResult_result, modifyStats_result]
      by_cases hf : f' = f
      · subst hf
        rw [Function.update_self]
        rfl
      · rw [Function.update_of_ne hf]
        rfl
    · rfl
  · simp only [sendPacket_pkt]
    by_cases hf : f' = f
    · subst hf
      rw [Function.update_self]
      by_cases hi : i = idx
      · subst hi; simp
      · rw [Function.update_of_ne hi]
    · rw [Function.update_of_ne hf]
  · simp only [sendPacket_tx]
    by_cases hf : f' = f
    · subst hf; simp
    · rw [Function.update_of_ne hf]

/-- The sending loop leaves every record alone. -/
theorem trySend_frame (s : State) (f : FlowId) : SameRecord s (s.trySend sim f) := by
  refine trySend_rule (P := SameRecord s) (Q := SameRecord s) (fun _ h _ => h) ?_ ?_ ?_ ?_
    (fun _ => SameRecord.refl s) (SameRecord.refl s)
  · intro s' h _ _
    unfold waitTurn
    split
    · exact h
    · exact (h.trans (sameRecord_modifyTx s' f (fun tx => { tx with sendScheduled := true }) rfl)).trans
        ⟨fun _ => rfl, fun _ _ => rfl, fun _ => rfl⟩
  · exact fun s' head count h _ _ _ => h.trans (sameRecord_modifyTx s' f _ rfl)
  · intro s' idx head count h _ _ _
    exact (h.trans (sameRecord_modifyTx s' f _ rfl)).trans (sameRecord_sendPacket _ f idx)
  · intro s' head count h _ _ _ _
    exact ((h.trans (sameRecord_modifyTx s' f _ rfl)).trans (sameRecord_modifyTx _ f _ rfl)).trans
      (sameRecord_sendPacket _ f _)

theorem sameRecord_land (s : State) (f : FlowId) (idx : Nat) : SameRecord s (s.land f idx) := by
  unfold land
  split
  · refine SameRecord.trans ?_ (sameRecord_modifyTx _ f _ rfl)
    refine ⟨fun _ => rfl, fun f' i => ?_, fun _ => rfl⟩
    by_cases hf : f' = f
    · subst hf
      by_cases hi : i = idx
      · subst hi; simp
      · simp [Function.update_of_ne hi]
    · simp [Function.update_of_ne hf]
  · exact SameRecord.refl s

theorem sameRecord_onAck (s : State) (f : FlowId) (idx : Nat) :
    SameRecord s (s.onAck sim f idx) := by
  unfold onAck
  split
  · exact SameRecord.refl s
  · refine SameRecord.trans ?_ (trySend_frame _ f)
    refine SameRecord.trans ?_ (sameRecord_land _ f idx)
    refine SameRecord.trans ?_ (sameRecord_modifyTx _ f _ rfl)
    refine ⟨fun _ => rfl, fun f' i => ?_, fun _ => rfl⟩
    by_cases hf : f' = f
    · subst hf
      by_cases hi : i = idx
      · subst hi; simp
      · simp [Function.update_of_ne hi]
    · simp [Function.update_of_ne hf]

theorem sameRecord_onInject (s : State) (f : FlowId) : SameRecord s (s.onInject sim f) :=
  (sameRecord_modifyTx s f _ rfl).trans (trySend_frame _ f)

theorem sameRecord_releaseFlow (s : State) (f d : FlowId) :
    SameRecord s (releaseFlow f s d) := by
  refine ⟨fun f' => ?_, fun _ _ => rfl, fun f' => ?_⟩
  · simp only [releaseFlow_result]
    by_cases hf : f' = d
    · subst hf
      rw [Function.update_self]
      rfl
    · rw [Function.update_of_ne hf]
  · simp only [releaseFlow_tx]
    by_cases hf : f' = d
    · subst hf; simp
    · rw [Function.update_of_ne hf]

theorem sameRecord_sendAck (s : State) (f : FlowId) (idx attempt : Nat) :
    SameRecord s (s.sendAck sim f idx attempt) := by
  unfold sendAck
  refine SameRecord.trans ?_ (sameRecord_enqueue _ _ _)
  exact ⟨fun _ => rfl, fun _ _ => rfl, fun _ => rfl⟩

theorem sameRecord_onTxComplete (s : State) (p : PortId) :
    SameRecord s (s.onTxComplete sim p) := by
  rcases onTxComplete_cases sim s p with ⟨-, h⟩ | ⟨-, h⟩ <;> rw [h]
  · exact ⟨fun _ => rfl, fun _ _ => rfl, fun _ => rfl⟩
  · exact ⟨fun _ => rfl, fun _ _ => rfl, fun _ => rfl⟩

/-! ## Completion -/

/-- Releasing flows in turn: the records stay, each release is in the history,
and the history grows. -/
theorem foldl_releaseFlow (f : FlowId) (l : List FlowId) (s : State) :
    SameRecord s (l.foldl (releaseFlow f) s) ∧
      (∀ d ∈ l, ∃ t, .released t f d ∈ (l.foldl (releaseFlow f) s).trace) ∧
      ∀ o ∈ s.trace, o ∈ (l.foldl (releaseFlow f) s).trace := by
  induction l generalizing s with
  | nil => exact ⟨SameRecord.refl s, by simp, fun _ h => h⟩
  | cons d l ih =>
    obtain ⟨h1, h2, h3⟩ := ih (releaseFlow f s d)
    rw [List.foldl_cons]
    refine ⟨(sameRecord_releaseFlow s f d).trans h1, ?_, fun o ho => h3 o (by simp [ho])⟩
    intro d' hd
    rcases List.mem_cons.mp hd with rfl | hd
    · exact ⟨s.now, h3 _ (by simp)⟩
    · exact h2 d' hd

theorem completeFlow_spec (sim : Simulation) (s : State) (f : FlowId) :
    SameRecord (s.modifyResult f fun r => { r with finishNs := s.now, complete := true })
      (s.completeFlow sim f) ∧
      (∀ d ∈ sim.dependents f, ∃ t, .released t f d ∈ (s.completeFlow sim f).trace) ∧
      ∀ o ∈ s.trace, o ∈ (s.completeFlow sim f).trace :=
  foldl_releaseFlow f (sim.dependents f) _

end State

open State

structure Receiver (sim : Simulation) (s : State) (f : FlowId) : Prop where
  count : (s.result f).packetsDelivered =
    Nat.count (fun i => (s.pkt f i).delivered = true) (sim.packetsTotal f)
  complete_iff : 0 < sim.packetsTotal f →
    ((s.result f).complete = true ↔ (s.result f).packetsDelivered = sim.packetsTotal f)
  failed_eq : (s.result f).failed = (s.tx f).failed
  released : (s.result f).complete = true → ∀ d ∈ sim.dependents f,
    ∃ t, .released t f d ∈ s.trace

namespace Receiver

variable {sim : Simulation} {policy : RoutingPolicy} {s s' : State} {f : FlowId}

theorem congr (h : Receiver sim s f) (hs : SameRecord s s') (htr : ∀ o ∈ s.trace, o ∈ s'.trace) :
    Receiver sim s' f := by
  obtain ⟨-, -, hpd, hc, hf⟩ := FlowResult.outcome_inj (hs.outcome f)
  refine ⟨?_, ?_, ?_, ?_⟩
  · rw [hpd, h.count]
    simp only [hs.delivered]
  · rw [hc, hpd]
    exact h.complete_iff
  · rw [hf, hs.failed]
    exact h.failed_eq
  · rw [hc]
    intro hcomp d hd
    obtain ⟨t, ht⟩ := h.released hcomp d hd
    exact ⟨t, htr _ ht⟩

theorem begin (leftover : State) (f : FlowId) : Receiver sim (sim.beginRun leftover) f where
  count := by
    show 0 = Nat.count (fun _ => false = true) (sim.packetsTotal f)
    simp
  complete_iff := by
    intro hpos
    simp [Simulation.beginRun]
    omega
  failed_eq := rfl
  released := fun h => absurd h (by simp [Simulation.beginRun])

/-- A flow that completes with all its packets delivered. -/
theorem complete_self (hcount : (s.result f).packetsDelivered =
    Nat.count (fun i => (s.pkt f i).delivered = true) (sim.packetsTotal f))
    (hall : (s.result f).packetsDelivered = sim.packetsTotal f)
    (hfail : (s.result f).failed = (s.tx f).failed) : Receiver sim (s.completeFlow sim f) f := by
  obtain ⟨hrec, hrel, -⟩ := completeFlow_spec sim s f
  obtain ⟨-, -, hpd, hc, hf⟩ := FlowResult.outcome_inj (hrec.outcome f)
  refine ⟨?_, ?_, ?_, fun _ d hd => hrel d hd⟩
  · simp only [hrec.delivered]
    refine hpd.trans ?_
    simpa using hcount
  · intro _
    refine ⟨fun _ => hpd.trans ?_, fun _ => hc.trans ?_⟩
    · simpa using hall
    · simp
  · refine hf.trans ?_
    rw [hrec.failed]
    simpa using hfail

theorem complete_other {g : FlowId} (hfg : f ≠ g) (h : Receiver sim s f) :
    Receiver sim (s.completeFlow sim g) f := by
  obtain ⟨hrec, -, htr⟩ := completeFlow_spec sim s g
  refine Receiver.congr (s := s.modifyResult g fun r =>
    { r with finishNs := s.now, complete := true }) ?_ hrec htr
  refine ⟨?_, ?_, ?_, ?_⟩
  · simpa [Function.update_of_ne hfg] using h.count
  · simpa [Function.update_of_ne hfg] using h.complete_iff
  · simpa [Function.update_of_ne hfg] using h.failed_eq
  · simpa [Function.update_of_ne hfg] using h.released

theorem count_deliver {idx : Nat} (h : Receiver sim s f) (hidx : idx < sim.packetsTotal f)
    (hnew : (s.pkt f idx).delivered = false) :
    (s.result f).packetsDelivered + 1 = Nat.count (fun i => (Function.update (s.pkt f) idx
      { s.pkt f idx with delivered := true } i).delivered = true) (sim.packetsTotal f) := by
  rw [h.count]
  symm
  refine count_of_gain hidx (fun i hi => ?_) (by simp [hnew]) (by simp)
  rw [Function.update_of_ne hi]

/-- The receiver's record over one delivery. -/
theorem deliver (h : ∀ f, Receiver sim s f) {g : FlowId} {idx : Nat} (bytes : Nat)
    (hidx : idx < sim.packetsTotal g) (hnew : (s.pkt g idx).delivered = false) (f : FlowId) :
    Receiver sim (s.deliver sim g idx bytes) f := by
  have hcount := (h g).count_deliver hidx hnew
  by_cases hfg : f = g
  · subst hfg
    unfold State.deliver
    dsimp only
    split
    · next hall =>
      refine complete_self ?_ hall ?_
      · simpa using hcount
      · simpa using (h f).failed_eq
    · next hpart =>
      simp only [modifyResult_result, Function.update_self, modifyPkt_result] at hpart
      have hnc : (s.result f).complete ≠ true := by
        intro hc
        have hfull := ((h f).complete_iff (by omega)).mp hc
        have hle := Nat.count_le (p := fun i => (Function.update (s.pkt f) idx
          { s.pkt f idx with delivered := true } i).delivered = true) (n := sim.packetsTotal f)
        omega
      refine ⟨?_, ?_, ?_, ?_⟩
      · simpa using hcount
      · intro _
        simp only [modifyResult_result, Function.update_self]
        exact ⟨fun hc => absurd hc hnc, fun hd => absurd hd hpart⟩
      · simpa using (h f).failed_eq
      · intro hc
        exact absurd (by simpa using hc) hnc
  · have hrecord : Receiver sim ((s.modifyPkt g idx fun st =>
        { st with delivered := true }).modifyResult g fun r =>
        { r with packetsDelivered := r.packetsDelivered + 1, deliveredBytes := r.deliveredBytes + bytes
        }) f := by
      refine ⟨?_, ?_, ?_, ?_⟩
      · simpa [Function.update_of_ne hfg] using (h f).count
      · simpa [Function.update_of_ne hfg] using (h f).complete_iff
      · simpa [Function.update_of_ne hfg] using (h f).failed_eq
      · simpa [Function.update_of_ne hfg] using (h f).released
    unfold State.deliver
    dsimp only
    split
    · exact complete_other hfg hrecord
    · exact hrecord

theorem onTimeout (h : Receiver sim s f) (g : FlowId) (idx a : Nat) :
    Receiver sim (s.onTimeout sim g idx a) f := by
  have htr : ∀ o ∈ s.trace, o ∈ (s.onTimeout sim g idx a).trace := by
    intro o ho
    obtain ⟨l, hl⟩ := (onTimeout_micros s g idx a : Micros sim g s _).trace
    rw [hl]
    exact List.mem_append_right _ ho
  revert htr
  unfold State.onTimeout
  split
  · exact fun _ => h
  · split
    · exact fun _ => h
    · split
      · exact fun _ => h
      · split
        · intro _
          have hland : Receiver sim (s.land g idx) f := by
            refine h.congr (sameRecord_land s g idx) fun o ho => ?_
            obtain ⟨l, hl⟩ := (land_micros s g idx : Micros sim g s _).trace
            rw [hl]
            exact List.mem_append_right _ ho
          by_cases hfg : f = g
          · subst hfg
            refine ⟨?_, ?_, ?_, ?_⟩
            · simpa using hland.count
            · simpa using hland.complete_iff
            · simp
            · simpa using hland.released
          · refine ⟨?_, ?_, ?_, ?_⟩
            · simpa [Function.update_of_ne hfg] using hland.count
            · simpa [Function.update_of_ne hfg] using hland.complete_iff
            · simpa [Function.update_of_ne hfg] using hland.failed_eq
            · simpa [Function.update_of_ne hfg] using hland.released
        · intro htr
          refine h.congr (((sameRecord_land s g idx).trans ?_).trans (trySend_frame _ g)) htr
          have hring : SameRecord (s.land g idx) (((s.land g idx).nextAttempt g idx).setRing g
              ((s.land g idx).retxTail sim g) idx) := ⟨fun _ => rfl, fun _ _ => rfl, fun _ => rfl⟩
          exact hring.trans (sameRecord_modifyTx _ g _ rfl)

theorem step (h : ∀ f, Receiver sim s f) (hr : sim.Reachable policy s) {e : Event}
    {queue : EventQueue} (hpop : s.queue.pop = some (e, queue)) (f : FlowId) :
    Receiver sim ((s.advance e queue).dispatch sim policy e.body) f := by
  have hadv : ∀ f, Receiver sim (s.advance e queue) f := fun f =>
    (h f).congr ⟨fun _ => rfl, fun _ _ => rfl, fun _ => rfl⟩ fun o ho => by simp [ho]
  obtain ⟨l, hl⟩ := dispatch_trace sim policy (s.advance e queue) e.body
  have htr : ∀ o ∈ (s.advance e queue).trace,
      o ∈ ((s.advance e queue).dispatch sim policy e.body).trace := by
    intro o ho
    rw [hl]
    exact List.mem_append_right _ ho
  clear hl
  cases hb : e.body with
  | inject g => rw [hb] at htr; exact (hadv f).congr (sameRecord_onInject _ g) htr
  | txComplete p => rw [hb] at htr; exact (hadv f).congr (sameRecord_onTxComplete _ p) htr
  | timeout g idx a => exact (hadv f).onTimeout g idx a
  | arrive p pkt =>
    rw [hb] at htr
    change ∀ o ∈ _, o ∈ ((s.advance e queue).onArrive sim policy p pkt).trace at htr
    show Receiver sim ((s.advance e queue).onArrive sim policy p pkt) f
    cases hh : (sim.fabric.node (sim.fabric.port p).peerNode).isHost with
    | false =>
      rw [onArrive_switch hh] at htr ⊢
      exact (hadv f).congr (sameRecord_enqueue _ _ _) htr
    | true =>
      cases hk : pkt.kind with
      | ack =>
        rw [onArrive_ack hh hk] at htr ⊢
        have hcount : SameRecord (s.advance e queue)
            ((s.advance e queue).countAckDelivered pkt.bytes) :=
          ⟨fun _ => rfl, fun _ _ => rfl, fun _ => rfl⟩
        exact (hadv f).congr (hcount.trans (sameRecord_onAck _ _ _)) htr
      | data =>
        rw [onArrive_data hh hk]
        have hseq := (hr.books.arrived hr (mem_onLink_of_arrive hpop hb)).1 hk
        have hidx : pkt.index < sim.packetsTotal pkt.flow :=
          lt_of_lt_of_le hseq (hr.books.ledger pkt.flow).seq_le
        have hcount : ∀ f, Receiver sim ((s.advance e queue).countDelivered pkt.bytes) f :=
          fun f => (hadv f).congr ⟨fun _ => rfl, fun _ _ => rfl, fun _ => rfl⟩ fun _ ho => ho
        unfold State.onDataArrival
        refine Receiver.congr ?_ (sameRecord_sendAck _ _ _ _) ?_
        · split
          · exact hcount f
          · next hnew =>
            exact deliver hcount _ hidx (by simpa [countDelivered] using hnew) f
        · intro o ho
          obtain ⟨l, hl⟩ := (Micro.ack _ pkt.index pkt.tag.attempt :
            Micro sim pkt.flow _ _).trace
          rw [hl]
          exact List.mem_append_right _ ho

end Receiver

theorem Simulation.Reachable.receiver {sim : Simulation} {policy : RoutingPolicy} {s : State}
    (h : sim.Reachable policy s) (f : FlowId) : Receiver sim s f :=
  Simulation.Reachable.invariant (P := fun s => ∀ f, Receiver sim s f) Receiver.begin
    (fun _ _ _ hr hs hpop => Receiver.step hs hr hpop) h f

end FabricSim
