import FabricSim.Core.Journey
import FabricSim.Core.Sender

/-!
# A run leaves no residue

`begin_run` clears every array of the object but one: the cells of the
retransmission rings keep what an earlier run wrote. `Alike` relates two states
that differ in nothing else, and agree on the cells the senders' heads and counts
call live. Every step keeps it, since a ring is only read where it is live
(`popRetx_congr`) and a cell is written when it becomes live (`Alike.requeue`).

`Session` is the object between calls, with everything a call leaves in it. Its
`begin` is `begin_run` as the code writes it, ports reset to the capacity they
have; `Past` are the objects a sequence of calls can produce, `Fresh` those that
have never run.
-/

namespace FabricSim

open State

namespace Ledger

/-- `pop_retx` reads live entries only, and what stays live stays the same. -/
theorem popRetx_congr {window : Nat} {ring ring' : Nat → Nat} {acked : Nat → Bool} :
    ∀ {count head : Nat}, head < window → count ≤ window →
      Ring.view ring' window head count = Ring.view ring window head count →
      ∀ {r : Option Nat} {head' count' : Nat},
        State.popRetx window ring acked head count = (r, head', count') →
        State.popRetx window ring' acked head count = (r, head', count') ∧
          Ring.view ring' window head' count' = Ring.view ring window head' count' := by
  intro count
  induction count with
  | zero =>
    intro head _ _ _ r head' count' hr
    obtain ⟨rfl, rfl, rfl⟩ : none = r ∧ head = head' ∧ 0 = count' := by
      simpa [State.popRetx] using hr
    exact ⟨rfl, rfl⟩
  | succ count ih =>
    intro head hh hc hview r head' count' hr
    rw [Ring.view_succ ring hh (by omega), Ring.view_succ ring' hh (by omega)] at hview
    obtain ⟨hfirst, hrest⟩ := List.cons.inj hview
    unfold State.popRetx at hr ⊢
    dsimp only at hr ⊢
    rw [hfirst]
    split at hr
    · next hacked =>
      rw [if_pos hacked]
      exact ih (Ring.next_lt hh) (by omega) hrest hr
    · next hacked =>
      rw [if_neg hacked]
      obtain ⟨rfl, rfl, rfl⟩ : some (ring head) = r ∧ Ring.next window head = head' ∧
          count = count' := by simpa using hr
      exact ⟨rfl, hrest⟩

end Ledger

namespace State

/-- The state with other ring contents. -/
@[simps -fullyApplied]
def withRing (s : State) (ring : FlowId → Nat → Nat) : State := { s with retxRing := ring }

variable {sim : Simulation} {policy : RoutingPolicy} {s t : State}

/-! ## What never looks at the rings -/

section Blind

variable (s) (ring : FlowId → Nat → Nat)

theorem withRing_enqueue (p : PortId) (x : Packet) :
    (s.withRing ring).enqueue sim p x = (s.enqueue sim p x).withRing ring := by
  unfold enqueue
  rw [withRing_port]
  split
  · unfold drop
    cases x.kind <;> rfl
  · dsimp only
    split <;> rfl

theorem withRing_onTxComplete (p : PortId) :
    (s.withRing ring).onTxComplete sim p = (s.onTxComplete sim p).withRing ring := by
  have hport : ((s.withRing ring).sendOff sim p).port = (s.sendOff sim p).port := rfl
  unfold onTxComplete
  rw [hport]
  split <;> rfl

theorem withRing_markSent (f : FlowId) (idx : Nat) :
    (s.withRing ring).markSent sim f idx = (s.markSent sim f idx).withRing ring := by
  unfold markSent countRetx
  rw [withRing_pktAttempt]
  split <;> rfl

theorem withRing_sendPacket (f : FlowId) (idx : Nat) :
    (s.withRing ring).sendPacket sim f idx = (s.sendPacket sim f idx).withRing ring := by
  unfold sendPacket
  rw [withRing_markSent, ← withRing_enqueue]
  rfl

theorem withRing_sendAck (f : FlowId) (idx a : Nat) :
    (s.withRing ring).sendAck sim f idx a = (s.sendAck sim f idx a).withRing ring := by
  unfold sendAck
  rw [← withRing_enqueue]
  rfl

end Blind

end State

/-- The two states differ at most in dead cells of the retransmission rings. -/
structure Alike (sim : Simulation) (s t : State) : Prop where
  rest : s.withRing t.retxRing = t
  head_lt : ∀ f, (s.tx f).retxHead < sim.window f
  count_le : ∀ f, (s.tx f).retxCount ≤ sim.window f
  live : ∀ f, waiting (sim.window f) (s.tx f) (t.retxRing f) =
    waiting (sim.window f) (s.tx f) (s.retxRing f)

namespace Alike

variable {sim : Simulation} {policy : RoutingPolicy} {s t : State} {f : FlowId}

theorem tx (h : Alike sim s t) : t.tx = s.tx := by rw [← h.rest]; rfl
theorem queue (h : Alike sim s t) : t.queue = s.queue := by rw [← h.rest]; rfl
theorem now (h : Alike sim s t) : t.now = s.now := by rw [← h.rest]; rfl
theorem port (h : Alike sim s t) : t.port = s.port := by rw [← h.rest]; rfl
theorem result (h : Alike sim s t) : t.result = s.result := by rw [← h.rest]; rfl
theorem pkt (h : Alike sim s t) : t.pkt = s.pkt := by rw [← h.rest]; rfl
theorem pktAttempt (h : Alike sim s t) : t.pktAttempt = s.pktAttempt := by rw [← h.rest]; rfl
theorem stats (h : Alike sim s t) : t.stats = s.stats := by rw [← h.rest]; rfl

/-- An operation that neither looks at the rings nor moves a sender's head or
count. -/
theorem blind {g : State → State} (h : Alike sim s t)
    (hg : ∀ s ring, g (State.withRing s ring) = (g s).withRing ring)
    (hring : (g s).retxRing = s.retxRing)
    (htx : ∀ d, ((g s).tx d).retxHead = (s.tx d).retxHead ∧
      ((g s).tx d).retxCount = (s.tx d).retxCount) : Alike sim (g s) (g t) := by
  have ht : g t = (g s).withRing t.retxRing := by rw [← hg, h.rest]
  refine ⟨?_, ?_, ?_, ?_⟩
  · rw [ht]
    rfl
  · intro d
    rw [(htx d).1]
    exact h.head_lt d
  · intro d
    rw [(htx d).2]
    exact h.count_le d
  · intro d
    have hlive := h.live d
    unfold waiting at hlive ⊢
    rw [ht, hring, (htx d).1, (htx d).2]
    exact hlive

theorem enqueue (h : Alike sim s t) (p : PortId) (x : Packet) :
    Alike sim (s.enqueue sim p x) (t.enqueue sim p x) :=
  h.blind (g := fun s => s.enqueue sim p x) (fun s ring => withRing_enqueue s ring p x)
    (enqueue_retxRing ..) fun g => by rw [enqueue_tx]; exact ⟨rfl, rfl⟩

theorem onTxComplete (h : Alike sim s t) (p : PortId) :
    Alike sim (s.onTxComplete sim p) (t.onTxComplete sim p) := by
  refine h.blind (g := fun s => s.onTxComplete sim p)
    (fun s ring => withRing_onTxComplete s ring p) ?_ fun g => ?_
  · rcases onTxComplete_cases sim s p with ⟨-, heq⟩ | ⟨-, heq⟩ <;> rw [heq] <;> rfl
  · rcases onTxComplete_cases sim s p with ⟨-, heq⟩ | ⟨-, heq⟩ <;> rw [heq] <;> exact ⟨rfl, rfl⟩

/-- Changes to one sender's record, but to its ring. -/
theorem modifyTx (h : Alike sim s t) (f : FlowId) {g : FlowTx → FlowTx}
    (hg : ∀ tx, (g tx).retxHead = tx.retxHead ∧ (g tx).retxCount = tx.retxCount) :
    Alike sim (s.modifyTx f g) (t.modifyTx f g) := by
  refine h.blind (g := fun s => s.modifyTx f g) (fun _ _ => rfl) rfl fun d => ?_
  rw [modifyTx_tx]
  by_cases hd : d = f
  · subst hd
    rw [Function.update_self]
    exact hg _
  · rw [Function.update_of_ne hd]
    exact ⟨rfl, rfl⟩

theorem sendPacket (h : Alike sim s t) (f : FlowId) (idx : Nat) :
    Alike sim (s.sendPacket sim f idx) (t.sendPacket sim f idx) := by
  refine h.blind (g := fun s => s.sendPacket sim f idx)
    (fun s ring => withRing_sendPacket s ring f idx) (sendPacket_retxRing ..) fun d => ?_
  rw [sendPacket_tx]
  by_cases hd : d = f
  · subst hd
    rw [Function.update_self]
    exact ⟨rfl, rfl⟩
  · rw [Function.update_of_ne hd]
    exact ⟨rfl, rfl⟩

theorem waitTurn (h : Alike sim s t) (f : FlowId) : Alike sim (s.waitTurn f) (t.waitTurn f) := by
  unfold State.waitTurn
  rw [h.tx]
  split
  · exact h
  · have hflag : Alike sim (s.modifyTx f fun tx => { tx with sendScheduled := true })
        (t.modifyTx f fun tx => { tx with sendScheduled := true }) :=
      h.modifyTx f fun _ => ⟨rfl, rfl⟩
    exact hflag.blind (g := fun s₁ => s₁.pushAt (s.tx f).nextSendNs (.inject f))
      (fun _ _ => rfl) rfl fun _ => ⟨rfl, rfl⟩

theorem land (h : Alike sim s t) (f : FlowId) (idx : Nat) :
    Alike sim (s.land f idx) (t.land f idx) := by
  unfold State.land
  rw [h.pkt]
  split
  · have hpkt : Alike sim (s.modifyPkt f idx fun st => { st with inFlight := false })
        (t.modifyPkt f idx fun st => { st with inFlight := false }) :=
      h.blind (g := fun s => s.modifyPkt f idx fun st => { st with inFlight := false })
        (fun _ _ => rfl) rfl fun _ => ⟨rfl, rfl⟩
    exact hpkt.modifyTx f fun _ => ⟨rfl, rfl⟩
  · exact h

theorem sendAck (h : Alike sim s t) (f : FlowId) (idx a : Nat) :
    Alike sim (s.sendAck sim f idx a) (t.sendAck sim f idx a) :=
  h.blind (g := fun s => s.sendAck sim f idx a) (fun s ring => withRing_sendAck s ring f idx a)
    (by unfold State.sendAck; exact enqueue_retxRing ..) fun g => by
      unfold State.sendAck
      rw [enqueue_tx]
      exact ⟨rfl, rfl⟩

/-! ## Operations on the rings -/

/-- The ring of one flow is read: both states take the same entry. -/
theorem nextRetx (h : Alike sim s t) (f : FlowId) {r : Option Nat} {head count : Nat}
    (hr : s.nextRetx sim f = (r, head, count)) :
    t.nextRetx sim f = (r, head, count) ∧
      Alike sim (s.drainRetx f head count) (t.drainRetx f head count) := by
  obtain ⟨hhead, hcount, -⟩ := Ledger.popRetx_spec (h.head_lt f) (h.count_le f) hr
  obtain ⟨ht, hview⟩ := Ledger.popRetx_congr (h.head_lt f) (h.count_le f) (h.live f) hr
  refine ⟨?_, ?_, ?_, ?_, ?_⟩
  · unfold State.nextRetx
    rw [h.pkt, h.tx]
    exact ht
  · conv_rhs => rw [← h.rest]
    rfl
  · intro g
    rw [drainRetx_tx]
    by_cases hg : g = f
    · subst hg
      rw [Function.update_self]
      exact hhead
    · rw [Function.update_of_ne hg]
      exact h.head_lt g
  · intro g
    rw [drainRetx_tx]
    by_cases hg : g = f
    · subst hg
      rw [Function.update_self]
      exact hcount.trans (h.count_le g)
    · rw [Function.update_of_ne hg]
      exact h.count_le g
  · intro g
    rw [drainRetx_tx, drainRetx_retxRing, drainRetx_retxRing]
    by_cases hg : g = f
    · subst hg
      rw [Function.update_self]
      exact hview
    · rw [Function.update_of_ne hg]
      exact h.live g

/-- A cell is written in both states when it becomes live. -/
theorem requeue (h : Alike sim s t) (f : FlowId) (idx : Nat)
    (hroom : (s.tx f).retxCount < sim.window f) :
    Alike sim (s.requeue sim f idx) (t.requeue sim f idx) := by
  have htail : t.retxTail sim f = s.retxTail sim f := by
    unfold State.retxTail
    rw [h.tx]
  refine ⟨?_, ?_, ?_, ?_⟩
  · have hring : (t.requeue sim f idx).retxRing =
        Function.update t.retxRing f (Function.update (t.retxRing f) (s.retxTail sim f) idx) := by
      rw [requeue_retxRing, htail]
    rw [hring]
    unfold State.requeue
    rw [htail]
    conv_rhs => rw [← h.rest]
    rfl
  · intro g
    rw [requeue_tx]
    by_cases hg : g = f
    · subst hg
      rw [Function.update_self]
      exact h.head_lt g
    · rw [Function.update_of_ne hg]
      exact h.head_lt g
  · intro g
    rw [requeue_tx]
    by_cases hg : g = f
    · subst hg
      rw [Function.update_self]
      exact hroom
    · rw [Function.update_of_ne hg]
      exact h.count_le g
  · intro g
    rw [requeue_tx, requeue_retxRing, requeue_retxRing, htail]
    by_cases hg : g = f
    · subst hg
      rw [Function.update_self, Function.update_self, Function.update_self]
      have hlive := h.live g
      unfold waiting at hlive ⊢
      unfold State.retxTail
      dsimp only
      rw [Ring.view_update _ hroom, Ring.view_update _ hroom, hlive]
    · rw [Function.update_of_ne hg, Function.update_of_ne hg, Function.update_of_ne hg]
      exact h.live g

theorem sendLoop (f : FlowId) : ∀ (fuel : Nat) {s t : State}, Alike sim s t →
    Alike sim (State.sendLoop sim f fuel s) (State.sendLoop sim f fuel t) := by
  intro fuel
  induction fuel with
  | zero => exact fun h => h
  | succ fuel ih =>
    intro s t h
    unfold State.sendLoop
    rw [h.tx, h.now]
    split
    · split
      · exact h.waitTurn f
      · split
        · next idx head count hr =>
          obtain ⟨ht, hd⟩ := h.nextRetx f hr
          rw [ht]
          exact ih (hd.sendPacket f idx)
        · next head count hr =>
          obtain ⟨ht, hd⟩ := h.nextRetx f hr
          rw [ht]
          dsimp only
          split
          · exact hd
          · have htake : Alike sim ((s.drainRetx f head count).takeSeq f)
                ((t.drainRetx f head count).takeSeq f) := hd.modifyTx f fun _ => ⟨rfl, rfl⟩
            exact ih (htake.sendPacket f _)
    · exact h

theorem trySend (h : Alike sim s t) (f : FlowId) :
    Alike sim (s.trySend sim f) (t.trySend sim f) := by
  unfold State.trySend
  rw [h.tx]
  split
  · exact h
  · exact h.sendLoop f _

/-! ## Handlers -/

theorem onInject (h : Alike sim s t) (f : FlowId) :
    Alike sim (s.onInject sim f) (t.onInject sim f) := by
  have hflag : Alike sim (s.modifyTx f fun tx => { tx with sendScheduled := false })
      (t.modifyTx f fun tx => { tx with sendScheduled := false }) :=
    h.modifyTx f fun _ => ⟨rfl, rfl⟩
  exact hflag.trySend f

theorem onAck (h : Alike sim s t) (f : FlowId) (idx : Nat) :
    Alike sim (s.onAck sim f idx) (t.onAck sim f idx) := by
  unfold State.onAck
  rw [h.pkt]
  split
  · exact h
  · have hpkt : Alike sim (s.modifyPkt f idx fun st => { st with acked := true })
        (t.modifyPkt f idx fun st => { st with acked := true }) :=
      h.blind (g := fun s => s.modifyPkt f idx fun st => { st with acked := true })
        (fun _ _ => rfl) rfl fun _ => ⟨rfl, rfl⟩
    have htx : Alike sim
        ((s.modifyPkt f idx fun st => { st with acked := true }).modifyTx f fun tx =>
          { tx with ackedCount := tx.ackedCount + 1 })
        ((t.modifyPkt f idx fun st => { st with acked := true }).modifyTx f fun tx =>
          { tx with ackedCount := tx.ackedCount + 1 }) :=
      hpkt.modifyTx f fun _ => ⟨rfl, rfl⟩
    exact (htx.land f idx).trySend f

/-- The packet whose timer goes off leaves the flight, so the ring has a cell to
spare for it. -/
theorem onTimeout (h : Alike sim s t) (f : FlowId) (idx a : Nat)
    (hroom : (s.tx f).inFlight + (s.tx f).retxCount ≤ sim.window f)
    (hair : a = s.pktAttempt f idx → (s.pkt f idx).acked = false → (s.tx f).failed = false →
      0 < (s.tx f).inFlight) :
    Alike sim (s.onTimeout sim f idx a) (t.onTimeout sim f idx a) := by
  unfold State.onTimeout
  rw [h.pkt, h.pktAttempt, h.tx]
  split
  · exact h
  · next hacked =>
    split
    · exact h
    · next hatt =>
      split
      · exact h
      · next hfail =>
        split
        · refine (h.land f idx).blind (g := fun s => s.giveUp f) (fun _ _ => rfl) rfl fun d => ?_
          rw [giveUp_tx]
          by_cases hd : d = f
          · subst hd
            rw [Function.update_self]
            exact ⟨rfl, rfl⟩
          · rw [Function.update_of_ne hd]
            exact ⟨rfl, rfl⟩
        · have hcount : ((s.land f idx).tx f).retxCount = (s.tx f).retxCount := by
            unfold State.land
            split <;> simp
          have hpos := hair (not_not.mp hatt).symm (by simpa using hacked) (by simpa using hfail)
          exact ((h.land f idx).requeue f idx (by rw [hcount]; omega)).trySend f

theorem releaseFlow (h : Alike sim s t) (f d : FlowId) :
    Alike sim (State.releaseFlow f s d) (State.releaseFlow f t d) := by
  refine h.blind (g := fun s => State.releaseFlow f s d) (fun _ _ => rfl) rfl fun d' => ?_
  rw [releaseFlow_tx]
  by_cases hd : d' = d
  · subst hd
    rw [Function.update_self]
    exact ⟨rfl, rfl⟩
  · rw [Function.update_of_ne hd]
    exact ⟨rfl, rfl⟩

theorem completeFlow (h : Alike sim s t) (f : FlowId) :
    Alike sim (s.completeFlow sim f) (t.completeFlow sim f) := by
  have hfold : ∀ (l : List FlowId) {s t : State}, Alike sim s t →
      Alike sim (l.foldl (State.releaseFlow f) s) (l.foldl (State.releaseFlow f) t) := by
    intro l
    induction l with
    | nil => exact fun h => h
    | cons d l ih => exact fun h => ih (h.releaseFlow f d)
  unfold State.completeFlow
  rw [h.now]
  exact hfold _ (h.blind
    (g := fun s₁ => s₁.modifyResult f fun r => { r with finishNs := s.now, complete := true })
    (fun _ _ => rfl) rfl fun _ => ⟨rfl, rfl⟩)

theorem deliver (h : Alike sim s t) (f : FlowId) (idx bytes : Nat) :
    Alike sim (s.deliver sim f idx bytes) (t.deliver sim f idx bytes) := by
  have hmark := h.blind
    (g := fun s => (s.modifyPkt f idx fun st => { st with delivered := true }).modifyResult f fun r =>
      { r with
        packetsDelivered := r.packetsDelivered + 1, deliveredBytes := r.deliveredBytes + bytes })
    (fun _ _ => rfl) rfl fun _ => ⟨rfl, rfl⟩
  unfold State.deliver
  dsimp only at hmark ⊢
  rw [hmark.result]
  split
  · exact hmark.completeFlow f
  · exact hmark

theorem onDataArrival (h : Alike sim s t) (f : FlowId) (idx bytes a : Nat) :
    Alike sim (s.onDataArrival sim f idx bytes a) (t.onDataArrival sim f idx bytes a) := by
  have hcount : Alike sim (s.countDelivered bytes) (t.countDelivered bytes) :=
    h.blind (g := fun s => s.countDelivered bytes) (fun _ _ => rfl) rfl fun _ => ⟨rfl, rfl⟩
  show Alike sim
    ((if ((s.countDelivered bytes).pkt f idx).delivered then s.countDelivered bytes
      else (s.countDelivered bytes).deliver sim f idx bytes).sendAck sim f idx a)
    ((if ((t.countDelivered bytes).pkt f idx).delivered then t.countDelivered bytes
      else (t.countDelivered bytes).deliver sim f idx bytes).sendAck sim f idx a)
  rw [hcount.pkt]
  split
  · exact hcount.sendAck f idx a
  · exact (hcount.deliver f idx bytes).sendAck f idx a

theorem onArrive (h : Alike sim s t) (p : PortId) (x : Packet) :
    Alike sim (s.onArrive sim policy p x) (t.onArrive sim policy p x) := by
  cases hh : (sim.fabric.node (sim.fabric.port p).peerNode).isHost with
  | false =>
    have hnext : nextPort sim policy t p x = nextPort sim policy s p x := by
      unfold nextPort
      rw [h.stats, h.now]
    rw [onArrive_switch hh, onArrive_switch hh, hnext]
    exact h.enqueue _ _
  | true =>
    cases hk : x.kind with
    | data =>
      rw [onArrive_data hh hk, onArrive_data hh hk]
      exact h.onDataArrival _ _ _ _
    | ack =>
      rw [onArrive_ack hh hk, onArrive_ack hh hk]
      have hcount : Alike sim (s.countAckDelivered x.bytes) (t.countAckDelivered x.bytes) :=
        h.blind (g := fun s => s.countAckDelivered x.bytes) (fun _ _ => rfl) rfl
          fun _ => ⟨rfl, rfl⟩
      exact hcount.onAck _ _

/-- One turn of the hot loop from a reachable state. -/
theorem step (h : Alike sim s t) (hs : sim.Reachable policy s) {e : Event} {queue : EventQueue}
    (hpop : s.queue.pop = some (e, queue)) :
    Alike sim ((s.advance e queue).dispatch sim policy e.body)
      ((t.advance e queue).dispatch sim policy e.body) := by
  have hadv : Alike sim (s.advance e queue) (t.advance e queue) :=
    h.blind (g := fun s => s.advance e queue) (fun _ _ => rfl) rfl fun _ => ⟨rfl, rfl⟩
  unfold State.dispatch
  cases hb : e.body with
  | inject f => exact hadv.onInject f
  | txComplete p => exact hadv.onTxComplete p
  | arrive p x => exact hadv.onArrive p x
  | timeout f idx a =>
    have he : e ∈ s.queue.agenda := by
      rw [EventQueue.agenda_of_pop hpop]
      exact List.mem_cons_self ..
    have hledger := hs.books.ledger f
    refine hadv.onTimeout f idx a hledger.room fun hatt hacked hfail => ?_
    have hlive := (hs.books.timer e he f idx a hb).inFlight hatt hacked hfail
    exact (hledger.toSlots.land hlive).2

/-- Two runs from states that are alike stay alike. -/
theorem runFor : ∀ (n : Nat) {s t : State}, Alike sim s t → sim.Reachable policy s →
    Alike sim (s.runFor sim policy n) (t.runFor sim policy n) := by
  intro n
  induction n with
  | zero => exact fun h _ => h
  | succ n ih =>
    intro s t h hs
    unfold State.runFor State.step
    rw [h.queue]
    cases hpop : s.queue.pop with
    | none => exact h
    | some r =>
      obtain ⟨e, queue⟩ := r
      have hstep : sim.Step policy s _ := Simulation.step_eq_some_iff.mpr ⟨e, queue, hpop, rfl⟩
      exact ih (h.step hs hpop) (hs.next hstep)

/-- `begin_run` on two objects of the same flows. -/
theorem begin (sim : Simulation) (leftover leftover' : State) :
    Alike sim (sim.beginRun leftover) (sim.beginRun leftover') where
  rest := rfl
  head_lt := fun f => (sim.spec f).window_pos
  count_le := fun _ => Nat.zero_le _
  live := fun _ => rfl

theorem endRun (h : Alike sim s t) : Alike sim (sim.endRun s) (sim.endRun t) := by
  have hg : sim.endRun t = t.modifyStats fun st =>
      { (List.range sim.flowCount).foldl (fun (st : RunStats) i =>
          let st := if (s.result i).complete then { st with flowsComplete := st.flowsComplete + 1 }
            else { st with flowsIncomplete := st.flowsIncomplete + 1 }
          if (s.result i).failed then { st with flowsFailed := st.flowsFailed + 1 } else st) st with
        virtualEndNs := s.now } := by
    unfold Simulation.endRun
    rw [h.result, h.now]
  rw [hg]
  exact h.blind (g := fun s₁ => s₁.modifyStats _) (fun _ _ => rfl) rfl fun _ => ⟨rfl, rfl⟩

end Alike

/-- No step changes the capacity of a port's queue. -/
theorem Simulation.Reachable.capacity {sim : Simulation} {policy : RoutingPolicy} {s : State}
    (h : sim.Reachable policy s) (p : PortId) :
    (s.port p).queue.capacity = (sim.fabric.port p).queueCapacity := by
  refine Simulation.Reachable.invariant
    (P := fun s => (s.port p).queue.capacity = (sim.fabric.port p).queueCapacity)
    (fun _ => rfl) ?_ h
  intro s e queue _ ih _
  rcases dispatch_cases sim policy (s.advance e queue) e.body with
    ⟨q, -, heq⟩ | ⟨q, x, -, -, heq⟩ | ⟨f, s₁, hnet, -, -, -, -, -, -, -, hm, -⟩
  · rw [heq, capacity_onTxComplete]
    exact ih
  · rw [heq, capacity_enqueue]
    exact ih
  · refine hm.preserve
      (P := fun s => (s.port p).queue.capacity = (sim.fabric.port p).queueCapacity) ?_ ?_
    · intro s₂ s₃ hm ih
      rcases hm.net with ⟨hnet, -⟩ | ⟨s₄, x, hnet, -, -, -, -, rfl⟩
      · rw [hnet.port]
        exact ih
      · rw [capacity_enqueue, hnet.port]
        exact ih
    · rw [hnet.port]
      exact ih

/-! ## The object between calls -/

/-- `Fabric::reset_state` on the ports an earlier run left. -/
def State.resetState (s : State) (p : PortId) : PortState where
  busy := false
  inFlight := default
  queue := BoundedFifo.init (s.port p).queue.capacity
  packetsSent := 0
  bytesSent := 0
  packetsDropped := 0
  bytesDropped := 0

/-- `result_digest` over the flow outcomes, in flow order. -/
def resultDigest (results : List FlowResult) : UInt64 :=
  results.foldl (fun h r =>
    let packed := ((UInt32.ofNat r.packetsDelivered).toUInt64 <<< (32 : UInt64)) |||
      (UInt32.ofNat r.packetsDropped).toUInt64
    let flags := ((UInt32.ofNat r.packetsRetransmitted).toUInt64 <<< (2 : UInt64)) |||
      (r.failed.toUInt64 <<< (1 : UInt64)) ||| r.complete.toUInt64
    let h := mix64 (h ^^^ UInt64.ofNat r.startNs)
    let h := mix64 (h ^^^ UInt64.ofNat r.finishNs)
    let h := mix64 (h ^^^ UInt64.ofNat r.deliveredBytes)
    let h := mix64 (h ^^^ packed)
    mix64 (h ^^^ flags)) 0xCBF29CE484222325

/-- A `Simulation` object between two calls: its configuration, and the members
a run writes. -/
structure Session where
  sim : Simulation
  state : State

namespace Session

variable (d : Session)

/-- The constructor, on the fabric as its builder leaves it. -/
def create (fabric : Fabric) (routes : RouteTable) : Session where
  sim := Simulation.create fabric routes
  state :=
    { queue := EventQueue.clear, now := 0, port := fabric.resetPort, tx := fun _ => {}
      result := fun _ => {}, pkt := fun _ _ => {}, pktAttempt := fun _ _ => 0
      retxRing := fun _ _ => 0, stats := {}, wrapped := false, serial := 0, trace := [] }

def setTransport (cfg : TransportConfig) : Session :=
  { d with sim := d.sim.setTransport cfg }

/-- `add_flow` appends fresh cells to every array. -/
def addFlow (spec : FlowSpec) : Option Session :=
  (d.sim.addFlow spec).map fun sim =>
    { sim := sim
      state :=
        { d.state with
          tx := Function.update d.state.tx d.sim.flowCount {}
          result := Function.update d.state.result d.sim.flowCount { startNs := spec.startNs }
          pkt := Function.update d.state.pkt d.sim.flowCount fun _ => {}
          pktAttempt := Function.update d.state.pktAttempt d.sim.flowCount fun _ => 0
          retxRing := Function.update d.state.retxRing d.sim.flowCount fun _ => 0 } }

/-- `begin_run` on what the object holds. -/
def begin : State := { d.sim.beginRun d.state with port := d.state.resetState }

/-- `run(policy)` returns, and leaves the object `d'`. -/
def Runs (policy : RoutingPolicy) (d d' : Session) : Prop :=
  ∃ n, (d.begin.runFor d.sim policy n).Drained ∧
    d' = { d with state := d.sim.endRun (d.begin.runFor d.sim policy n) }

/-- What `results()` shows: the outcome of every flow and its packet count. -/
def results : List (FlowResult × Nat) :=
  (List.range d.sim.flowCount).map fun f => (d.state.result f, d.sim.packetsTotal f)

def digest : UInt64 := resultDigest (d.results.map Prod.fst)

/-- Objects that have never run. -/
inductive Fresh : Session → Prop where
  | create (fabric : Fabric) (routes : RouteTable) : Fresh (create fabric routes)
  | setTransport {d : Session} (h : Fresh d) (cfg : TransportConfig) : Fresh (d.setTransport cfg)
  | addFlow {d d' : Session} (h : Fresh d) (spec : FlowSpec) (hd : d.addFlow spec = some d') :
      Fresh d'

/-- Objects after any sequence of calls. -/
inductive Past : Session → Prop where
  | create (fabric : Fabric) (routes : RouteTable) : Past (create fabric routes)
  | setTransport {d : Session} (h : Past d) (cfg : TransportConfig) : Past (d.setTransport cfg)
  | addFlow {d d' : Session} (h : Past d) (spec : FlowSpec) (hd : d.addFlow spec = some d') :
      Past d'
  | run {d d' : Session} (h : Past d) (policy : RoutingPolicy) (hd : d.Runs policy d') : Past d'

variable {d : Session} {d' d₀ : Session} {policy : RoutingPolicy}

theorem Fresh.past (h : d.Fresh) : d.Past := by
  induction h with
  | create fabric routes => exact Past.create fabric routes
  | setTransport _ cfg ih => exact Past.setTransport ih cfg
  | addFlow _ spec hd ih => exact Past.addFlow ih spec hd

theorem addFlow_fabric {spec : FlowSpec} (h : d.addFlow spec = some d') :
    d'.sim.fabric = d.sim.fabric ∧ d'.state.port = d.state.port := by
  obtain ⟨sim, hsim, rfl⟩ := Option.map_eq_some_iff.mp h
  unfold Simulation.addFlow at hsim
  split at hsim
  · obtain rfl := Option.some.inj hsim
    exact ⟨rfl, rfl⟩
  · exact absurd hsim (by simp)

/-- The queues of the ports keep the capacity they were built with. -/
def Sound (d : Session) : Prop :=
  ∀ p, (d.state.port p).queue.capacity = (d.sim.fabric.port p).queueCapacity

/-- `begin_run` needs nothing else of an object. -/
theorem Sound.begin (h : d.Sound) : d.begin = d.sim.beginRun d.state := by
  have hport : d.state.resetState = d.sim.fabric.resetPort := by
    funext p
    unfold State.resetState Fabric.resetPort
    rw [h p]
  unfold Session.begin
  rw [hport]
  rfl

theorem Past.sound (h : d.Past) : d.Sound := by
  induction h with
  | create fabric routes => exact fun _ => rfl
  | setTransport _ cfg ih => exact ih
  | addFlow _ spec hd ih =>
    intro p
    obtain ⟨hfabric, hport⟩ := addFlow_fabric hd
    rw [hfabric, hport]
    exact ih p
  | run _ policy hd ih =>
    obtain ⟨n, -, rfl⟩ := hd
    intro p
    rw [ih.begin]
    show ((State.runFor _ policy n _).port p).queue.capacity = _
    exact ((Simulation.Reachable.begin _).runFor n).capacity p

/-- Once the queue has drained, nothing more happens. -/
theorem runFor_drained {sim : Simulation} {s : State} {n : Nat}
    (h : (s.runFor sim policy n).Drained) (k : Nat) :
    s.runFor sim policy (n + k) = s.runFor sim policy n := by
  induction n generalizing s with
  | zero =>
    have hnone : s.queue.pop = none := by
      rw [EventQueue.pop_eq_none_iff, EventQueue.agenda_eq_nil_iff]
      exact List.isEmpty_iff.mp h
    rw [Nat.zero_add]
    cases k with
    | zero => rfl
    | succ k =>
      unfold State.runFor State.step
      rw [hnone]
  | succ n ih =>
    rw [Nat.succ_add]
    unfold State.runFor at h ⊢
    cases hstep : s.step sim policy with
    | none => rfl
    | some s' =>
      rw [hstep] at h
      exact ih h

/-- A run ends in one state. -/
theorem Runs.unique {d'' : Session} (h : d.Runs policy d') (h' : d.Runs policy d'') : d' = d'' := by
  obtain ⟨n, hn, rfl⟩ := h
  obtain ⟨m, hm, rfl⟩ := h'
  have heq : d.begin.runFor d.sim policy n = d.begin.runFor d.sim policy m := by
    rcases Nat.le_total n m with hle | hle
    · obtain ⟨k, rfl⟩ := Nat.exists_eq_add_of_le hle
      exact (runFor_drained hn k).symm
    · obtain ⟨k, rfl⟩ := Nat.exists_eq_add_of_le hle
      exact runFor_drained hm k
  rw [heq]

/-- For every object there is a fresh one of the same configuration. -/
theorem Past.exists_fresh (h : d.Past) : ∃ d₀ : Session, d₀.Fresh ∧ d₀.sim = d.sim := by
  induction h with
  | create fabric routes => exact ⟨_, Fresh.create fabric routes, rfl⟩
  | setTransport _ cfg ih =>
    obtain ⟨d₀, hfresh, hsim⟩ := ih
    refine ⟨_, Fresh.setTransport hfresh cfg, ?_⟩
    show d₀.sim.setTransport cfg = _
    rw [hsim]
    rfl
  | addFlow _ spec hd ih =>
    obtain ⟨d₀, hfresh, hsim⟩ := ih
    obtain ⟨sim, hadd, rfl⟩ := Option.map_eq_some_iff.mp hd
    rw [← hsim] at hadd
    exact ⟨_, Fresh.addFlow hfresh spec (Option.map_eq_some_iff.mpr ⟨sim, hadd, rfl⟩), rfl⟩
  | run _ policy hd ih =>
    obtain ⟨d₀, hfresh, hsim⟩ := ih
    obtain ⟨n, -, rfl⟩ := hd
    exact ⟨d₀, hfresh, hsim⟩

end Session

open Session

/-- A run leaves no residue. Let `d` be an object after any sequence of
`add_flow`, `set_transport` and `run` calls, with any policies and transports,
and `d₀` one that has never run and has the fabric, routes, flows and transport
of `d`; there always is one. Then `run(policy)` returns on one of them if and
only if it returns on the other, with the same statistics, and leaves the same
results, digest and port counters. The tables of packets and rings are the code's
arrays as long as 32 bits index these (`Simulation.Fits`). -/
theorem run_leaves_no_residue (d : Session) (hd : d.Past) (policy : RoutingPolicy) :
    (∃ d₀ : Session, d₀.Fresh ∧ d₀.sim = d.sim) ∧
    ∀ d₀ : Session, d₀.Fresh → d₀.sim = d.sim →
      ((∃ d', d.Runs policy d') ↔ ∃ d₀', d₀.Runs policy d₀') ∧
      ∀ d' d₀', d.Runs policy d' → d₀.Runs policy d₀' →
        d'.state.stats = d₀'.state.stats ∧ d'.results = d₀'.results ∧ d'.digest = d₀'.digest ∧
          d'.state.port = d₀'.state.port := by
  refine ⟨hd.exists_fresh, fun d₀ hfresh hsim => ?_⟩
  have halike : ∀ n, Alike d.sim (d₀.begin.runFor d.sim policy n) (d.begin.runFor d.sim policy n) := by
    intro n
    have hbegin : d₀.begin = d.sim.beginRun d₀.state := by rw [hfresh.past.sound.begin, hsim]
    rw [hbegin, hd.sound.begin]
    exact (Alike.begin d.sim d₀.state d.state).runFor n (Simulation.Reachable.begin d₀.state)
  have hdrained : ∀ n, (d.begin.runFor d.sim policy n).Drained ↔
      (d₀.begin.runFor d.sim policy n).Drained := by
    intro n
    unfold State.Drained
    rw [(halike n).queue]
  -- the fresh object returns after as many turns, and so in a state that is alike
  have hfrom : ∀ d', d.Runs policy d' → ∃ d₀', d₀.Runs policy d₀' ∧
      d₀'.sim = d'.sim ∧ Alike d.sim d₀'.state d'.state := by
    rintro d' ⟨n, hn, rfl⟩
    refine ⟨_, ⟨n, ?_, rfl⟩, hsim, ?_⟩
    · rw [hsim]
      exact (hdrained n).mp hn
    · show Alike d.sim (d₀.sim.endRun (d₀.begin.runFor d₀.sim policy n)) _
      rw [hsim]
      exact (halike n).endRun
  refine ⟨⟨fun ⟨d', h⟩ => ?_, fun ⟨d₀', n, hn, _⟩ => ?_⟩, fun d' d₀' h h₀ => ?_⟩
  · obtain ⟨d₀', h₀, -⟩ := hfrom d' h
    exact ⟨d₀', h₀⟩
  · rw [hsim] at hn
    exact ⟨_, n, (hdrained n).mpr hn, rfl⟩
  · obtain ⟨d₁, h₁, hsim₁, hlike⟩ := hfrom d' h
    obtain rfl := h₀.unique h₁
    have hresults : d'.results = d₀'.results := by
      unfold Session.results
      rw [hlike.result, hsim₁]
    refine ⟨hlike.stats, hresults, ?_, hlike.port⟩
    unfold Session.digest
    rw [hresults]

namespace Pair

/-- The pair as an object, before its first run. -/
def object : Session where
  sim := simulation
  state :=
    { (Session.create fabric (RouteTable.buildShortestPath fabric)).state with
      tx := Function.update (fun _ => {}) 0 {}
      result := Function.update (fun _ => {}) 0 { startNs := flow.startNs }
      pkt := Function.update (fun _ _ => {}) 0 fun _ => {}
      pktAttempt := Function.update (fun _ _ => 0) 0 fun _ => 0
      retxRing := Function.update (fun _ _ => 0) 0 fun _ => 0 }

theorem object_fresh : object.Fresh := by
  refine Session.Fresh.addFlow (Session.Fresh.setTransport
    (Session.Fresh.create fabric (RouteTable.buildShortestPath fabric)) simulation.transport) flow ?_
  exact Option.map_eq_some_iff.mpr ⟨simulation, dif_pos flow_accepted, rfl⟩

/-- The object after its first run. -/
def used : Session :=
  { object with
    state := simulation.endRun (object.begin.runFor simulation StaticFirstPolicy 100) }

theorem object_runs : object.Runs StaticFirstPolicy used := by
  refine ⟨100, ?_, rfl⟩
  rw [object_fresh.past.sound.begin]
  have halike := (Alike.begin simulation fresh object.state).runFor 100
    (Simulation.Reachable.begin fresh : simulation.Reachable StaticFirstPolicy _)
  show State.Drained ((simulation.beginRun object.state).runFor simulation StaticFirstPolicy 100)
  unfold State.Drained
  rw [halike.queue]
  exact last_drained

end Pair

/-- Two hosts on a leaf, run a second time: the same statistics, the same digest. -/
theorem run_leaves_no_residue_pair :
    ∃ d', Pair.used.Runs StaticFirstPolicy d' ∧ d'.state.stats = Pair.used.state.stats ∧
      d'.digest = Pair.used.digest := by
  have hpast : Pair.used.Past := Past.run Pair.object_fresh.past StaticFirstPolicy Pair.object_runs
  obtain ⟨-, h⟩ := run_leaves_no_residue Pair.used hpast StaticFirstPolicy
  obtain ⟨hreturns, hsame⟩ := h Pair.object Pair.object_fresh rfl
  obtain ⟨d', hd'⟩ := hreturns.mpr ⟨_, Pair.object_runs⟩
  obtain ⟨hstats, -, hdigest, -⟩ := hsame d' Pair.used hd' Pair.object_runs
  exact ⟨d', hd', hstats, hdigest⟩

end FabricSim
