import FabricSim.Core.Attempts
import FabricSim.Core.Completion
import FabricSim.Lib.PacingGate

/-!
# Wake-ups

Each flow's sender is a paced sender (`State.gate`): its wake-ups are the `inject`
events, its flag is `sendScheduled` and its gate `nextSendNs`. A handler either
leaves a gate alone, takes its wake-up and visits it, visits it for an ack or a
timer, or starts it because the flow it waits on completes (`gate_step`).

An inject is not always followed by a transmission: one taken in the same
nanosecond as an ack finds the gate shut again. While times do not wrap such a
wake-up is made up for (`Reachable.frugal`). With wrapping times it need not be,
but an inject that sends nothing is still paid for by an ack or a timer
(`Reachable.injects_le`).
-/

namespace FabricSim

open State PacingGate

/-- A wake-up of the flow. -/
def wakeOf (f : FlowId) (b : EventBody) : Bool := b = .inject f

/-- The time of the event, if it wakes the flow. -/
def Event.wake (f : FlowId) (e : Event) : Option Nat :=
  if e.body = .inject f then some e.time else none

/-- The times of the flow's wake-ups to come. -/
def EventQueue.wakeTimes (q : EventQueue) (f : FlowId) : Multiset Nat :=
  ↑(q.agenda.filterMap (Event.wake f))

theorem EventQueue.wakeTimes_push (q : EventQueue) (t : Nat) (b : EventBody) (f : FlowId) :
    (q.push t b).wakeTimes f = if b = .inject f then t ::ₘ q.wakeTimes f else q.wakeTimes f := by
  have hperm := (Agenda.insert_perm Event.key ⟨t, q.nextSeq, b⟩ q.agenda).filterMap (Event.wake f)
  rw [← EventQueue.agenda_push] at hperm
  unfold wakeTimes
  rw [Multiset.coe_eq_coe.mpr hperm]
  by_cases hb : b = .inject f
  · have hself : Event.wake f ⟨t, q.nextSeq, b⟩ = some t := if_pos hb
    rw [if_pos hb, List.filterMap_cons_some hself]
    rfl
  · have hself : Event.wake f ⟨t, q.nextSeq, b⟩ = none := if_neg hb
    rw [if_neg hb, List.filterMap_cons_none hself]

theorem EventQueue.card_wakeTimes (q : EventQueue) (f : FlowId) :
    Multiset.card (q.wakeTimes f) = q.agenda.countP fun e => wakeOf f e.body := by
  show (q.agenda.filterMap (Event.wake f)).length = _
  rw [List.length_filterMap_eq_countP]
  refine List.countP_congr fun e _ => ?_
  unfold Event.wake wakeOf
  split <;> simp [*]

theorem EventQueue.mem_wakeTimes {q : EventQueue} {f : FlowId} {t : Nat} :
    t ∈ q.wakeTimes f ↔ ∃ e ∈ q.agenda, e.body = .inject f ∧ e.time = t := by
  show t ∈ q.agenda.filterMap (Event.wake f) ↔ _
  rw [List.mem_filterMap]
  constructor
  · rintro ⟨e, he, heq⟩
    unfold Event.wake at heq
    split at heq
    · next hb => exact ⟨e, he, hb, Option.some.inj heq⟩
    · exact absurd heq (by simp)
  · rintro ⟨e, he, hb, rfl⟩
    exact ⟨e, he, if_pos hb⟩

namespace State

variable {sim : Simulation} {policy : RoutingPolicy} {s s' : State} {f g : FlowId}

def transmissions (s : State) (f : FlowId) : Nat :=
  s.emissions.countP (sentOf fun g _ _ => g = f)

/-- The sender of a flow. -/
def gate (s : State) (f : FlowId) : Gate where
  pending := s.queue.wakeTimes f
  taken := s.trace.countP (Obs.dispatches (wakeOf f))
  sent := s.transmissions f
  flag := (s.tx f).sendScheduled
  next := (s.tx f).nextSendNs

/-! ## What an operation does to a gate -/

theorem wakeTimes_push {t : Nat} {b : EventBody} (h : s'.queue = s.queue.push t b)
    (hb : b ≠ .inject f) : s'.queue.wakeTimes f = s.queue.wakeTimes f := by
  rw [h, EventQueue.wakeTimes_push, if_neg hb]

theorem wakeTimes_enqueue (sim : Simulation) (s : State) (p : PortId) (x : Packet) (f : FlowId) :
    (s.enqueue sim p x).queue.wakeTimes f = s.queue.wakeTimes f := by
  rcases enqueue_queue sim s p x with h | ⟨t, h⟩
  · rw [h]
  · exact wakeTimes_push h (by simp)

theorem gate_congr (hq : s'.queue.wakeTimes f = s.queue.wakeTimes f)
    (htr : s'.trace.countP (Obs.dispatches (wakeOf f)) =
      s.trace.countP (Obs.dispatches (wakeOf f)))
    (hem : s'.transmissions f = s.transmissions f)
    (hflag : (s'.tx f).sendScheduled = (s.tx f).sendScheduled)
    (hnext : (s'.tx f).nextSendNs = (s.tx f).nextSendNs) : s'.gate f = s.gate f :=
  Gate.ext hq htr hem hflag hnext

/-- An operation on other tables. -/
theorem gate_of_eq (hq : s'.queue = s.queue) (htr : s'.trace = s.trace)
    (hflag : (s'.tx f).sendScheduled = (s.tx f).sendScheduled)
    (hnext : (s'.tx f).nextSendNs = (s.tx f).nextSendNs) : s'.gate f = s.gate f := by
  refine gate_congr (by rw [hq]) ?_ ?_ hflag hnext
  · rw [htr]
  · unfold transmissions emissions
    rw [htr]

theorem gate_enqueue (sim : Simulation) (s : State) (p : PortId) (x : Packet) (f : FlowId) :
    (s.enqueue sim p x).gate f = s.gate f := by
  refine gate_congr (wakeTimes_enqueue sim s p x f) ?_ ?_ (by simp) (by simp)
  · obtain ⟨room, h⟩ := enqueue_trace sim s p x
    rw [h, List.countP_cons_of_neg (by simp [Obs.dispatches])]
  · unfold transmissions
    rw [emissions_enqueue]

/-- A transmission passes the gate and moves it on. -/
theorem gate_sendPacket (sim : Simulation) (s : State) (f : FlowId) (idx : Nat) (g : FlowId) :
    (s.sendPacket sim f idx).gate g =
      if g = f then { s.gate f with sent := (s.gate f).sent + 1, next := u64 (s.now + sim.periodNs f) }
      else s.gate g := by
  have hq : (s.sendPacket sim f idx).queue.wakeTimes g = s.queue.wakeTimes g := by
    unfold sendPacket
    rw [wakeTimes_enqueue]
    refine wakeTimes_push (t := u64 (s.now + sim.transport.rtoNs))
      (b := .timeout f idx (s.pktAttempt f idx)) ?_ (by simp)
    simp
  have htr : (s.sendPacket sim f idx).trace.countP (Obs.dispatches (wakeOf g)) =
      s.trace.countP (Obs.dispatches (wakeOf g)) := by
    obtain ⟨room, h⟩ := sendPacket_trace sim s f idx
    rw [h, List.countP_cons_of_neg (by simp [Obs.dispatches]),
      List.countP_cons_of_neg (by simp [Obs.dispatches])]
  have hem : (s.sendPacket sim f idx).transmissions g =
      s.transmissions g + if g = f then 1 else 0 := by
    unfold transmissions
    rw [emissions_sendPacket, List.countP_cons]
    by_cases hg : g = f
    · subst hg
      simp [sentOf, dataPacket]
    · simp [sentOf, dataPacket, hg, Ne.symm hg]
  by_cases hg : g = f
  · subst hg
    rw [if_pos rfl] at hem ⊢
    exact Gate.ext hq htr hem (by simp [gate]) (by simp [gate])
  · rw [if_neg hg] at hem ⊢
    exact gate_congr hq htr hem (by simp [Function.update_of_ne hg])
      (by simp [Function.update_of_ne hg])

theorem gate_sendAck (sim : Simulation) (s : State) (f : FlowId) (idx a : Nat) (g : FlowId) :
    (s.sendAck sim f idx a).gate g = s.gate g := by
  refine gate_congr ?_ ?_ ?_ (by simp [sendAck]) (by simp [sendAck])
  · unfold sendAck
    rw [wakeTimes_enqueue]
    rfl
  · obtain ⟨room, h⟩ := enqueue_trace sim (((s.modifyStats fun st =>
      { st with ackBytesInjected := st.ackBytesInjected + sim.transport.ackBytes }).nextSerial).log
        (.emitted s.now (ackPacket sim s f idx a))) (sim.route f).dstNic (ackPacket sim s f idx a)
    unfold sendAck
    rw [h, List.countP_cons_of_neg (by simp [Obs.dispatches])]
    exact List.countP_cons_of_neg (by simp [Obs.dispatches])
  · unfold transmissions
    rw [emissions_sendAck, List.countP_cons_of_neg (by simp [sentOf, ackPacket])]

/-- A sender that waits asks for one wake-up. -/
theorem gate_waitTurn (s : State) (f g : FlowId) : (s.waitTurn f).gate g =
    if g = f ∧ (s.tx f).sendScheduled = false then
      { s.gate f with flag := true, pending := (s.gate f).next ::ₘ (s.gate f).pending }
    else s.gate g := by
  unfold waitTurn
  cases hflag : (s.tx f).sendScheduled with
  | true => rw [if_pos rfl, if_neg (by simp)]
  | false =>
    rw [if_neg (by simp)]
    by_cases hg : g = f
    · subst hg
      rw [if_pos ⟨rfl, rfl⟩]
      refine Gate.ext ?_ rfl rfl (by simp [gate]) (by simp [gate])
      show (s.queue.push (s.tx g).nextSendNs (.inject g)).wakeTimes g = _
      rw [EventQueue.wakeTimes_push, if_pos rfl]
      rfl
    · rw [if_neg fun h => hg h.1]
      exact gate_congr (wakeTimes_push (s := s) rfl (by simp [Ne.symm hg])) rfl rfl
        (by simp [Function.update_of_ne hg]) (by simp [Function.update_of_ne hg])

theorem gate_drainRetx (s : State) (f : FlowId) (head count : Nat) (g : FlowId) :
    (s.drainRetx f head count).gate g = s.gate g := by
  by_cases hg : g = f
  · subst hg
    exact gate_of_eq rfl rfl (by simp) (by simp)
  · exact gate_of_eq rfl rfl (by simp [Function.update_of_ne hg]) (by simp [Function.update_of_ne hg])

theorem gate_takeSeq (s : State) (f g : FlowId) : (s.takeSeq f).gate g = s.gate g := by
  by_cases hg : g = f
  · subst hg
    exact gate_of_eq rfl rfl (by simp) (by simp)
  · exact gate_of_eq rfl rfl (by simp [Function.update_of_ne hg]) (by simp [Function.update_of_ne hg])

/-- The sending loop is a visit of the flow's gate. -/
theorem gate_trySend (sim : Simulation) (s : State) (f : FlowId) :
    Moves s.now (s.gate f) ((s.trySend sim f).gate f) ∧
      ∀ g, g ≠ f → (s.trySend sim f).gate g = s.gate g := by
  have hsend : ∀ (s₁ s₂ : State) (idx : Nat), s₂.now = s₁.now → (∀ g, s₂.gate g = s₁.gate g) →
      (s₁.tx f).nextSendNs ≤ s.now →
      (s₁.now = s.now ∧ Moves s.now (s.gate f) (s₁.gate f) ∧ ∀ g, g ≠ f → s₁.gate g = s.gate g) →
      (s₂.sendPacket sim f idx).now = s.now ∧
        Moves s.now (s.gate f) ((s₂.sendPacket sim f idx).gate f) ∧
        ∀ g, g ≠ f → (s₂.sendPacket sim f idx).gate g = s.gate g := by
    rintro s₁ s₂ idx hnow hgate hopen ⟨hnow₁, hmoves, hother⟩
    refine ⟨by rw [sendPacket_now, hnow, hnow₁], ?_, fun g hg => ?_⟩
    · rw [gate_sendPacket, if_pos rfl, hgate]
      exact Relation.ReflTransGen.tail hmoves (Move.send _ hopen)
    · rw [gate_sendPacket, if_neg hg, hgate]
      exact hother g hg
  refine trySend_rule (P := fun s' => s'.now = s.now ∧ Moves s.now (s.gate f) (s'.gate f) ∧
      ∀ g, g ≠ f → s'.gate g = s.gate g)
    (Q := fun s' => Moves s.now (s.gate f) (s'.gate f) ∧ ∀ g, g ≠ f → s'.gate g = s.gate g)
    (fun _ h _ => h.2) ?_ ?_ ?_ ?_ (fun _ => ⟨Relation.ReflTransGen.refl, fun _ _ => rfl⟩)
    ⟨rfl, Relation.ReflTransGen.refl, fun _ _ => rfl⟩
  · rintro s₁ ⟨hnow, hmoves, hother⟩ - hshut
    refine ⟨?_, fun g hg => ?_⟩
    · rw [gate_waitTurn]
      split
      · next hflag => exact Relation.ReflTransGen.tail hmoves (Move.wait (hnow ▸ hshut) hflag.2)
      · exact hmoves
    · rw [gate_waitTurn, if_neg fun h => hg h.1]
      exact hother g hg
  · rintro s₁ head count ⟨-, hmoves, hother⟩ - - -
    refine ⟨?_, fun g hg => ?_⟩
    · rw [gate_drainRetx]
      exact hmoves
    · rw [gate_drainRetx]
      exact hother g hg
  · intro s₁ idx head count h _ hopen _
    exact hsend s₁ _ idx rfl (gate_drainRetx s₁ f head count) (h.1 ▸ hopen) h
  · intro s₁ head count h _ hopen _ _
    refine hsend s₁ _ _ rfl (fun g => ?_) (h.1 ▸ hopen) h
    rw [gate_takeSeq, gate_drainRetx]

theorem gate_land (s : State) (f : FlowId) (idx : Nat) (g : FlowId) :
    (s.land f idx).gate g = s.gate g := by
  unfold land
  split
  · by_cases hg : g = f
    · subst hg
      exact gate_of_eq rfl rfl (by simp) (by simp)
    · exact gate_of_eq rfl rfl (by simp [Function.update_of_ne hg])
        (by simp [Function.update_of_ne hg])
  · rfl

theorem gate_requeue (s : State) (f : FlowId) (idx : Nat) (g : FlowId) :
    (s.requeue sim f idx).gate g = s.gate g := by
  by_cases hg : g = f
  · subst hg
    exact gate_of_eq rfl rfl (by simp) (by simp)
  · exact gate_of_eq rfl rfl (by simp [Function.update_of_ne hg]) (by simp [Function.update_of_ne hg])

theorem gate_giveUp (s : State) (f g : FlowId) : (s.giveUp f).gate g = s.gate g := by
  by_cases hg : g = f
  · subst hg
    exact gate_of_eq rfl rfl (by simp) (by simp)
  · exact gate_of_eq rfl rfl (by simp [Function.update_of_ne hg]) (by simp [Function.update_of_ne hg])

theorem gate_onTimeout (sim : Simulation) (s : State) (f : FlowId) (idx a : Nat) :
    Moves s.now (s.gate f) ((s.onTimeout sim f idx a).gate f) ∧
      ∀ g, g ≠ f → (s.onTimeout sim f idx a).gate g = s.gate g := by
  have hnone : Moves s.now (s.gate f) (s.gate f) ∧ ∀ g, g ≠ f → s.gate g = s.gate g :=
    ⟨Relation.ReflTransGen.refl, fun _ _ => rfl⟩
  unfold onTimeout
  split
  · exact hnone
  · split
    · exact hnone
    · split
      · exact hnone
      · split
        · refine ⟨?_, fun g _ => ?_⟩
          · rw [gate_giveUp, gate_land]
            exact Relation.ReflTransGen.refl
          · rw [gate_giveUp, gate_land]
        · obtain ⟨hmoves, hother⟩ := gate_trySend sim ((s.land f idx).requeue sim f idx) f
          have hnow : ((s.land f idx).requeue sim f idx).now = s.now := by
            unfold land
            split <;> rfl
          simp only [gate_requeue, gate_land] at hmoves hother
          rw [hnow] at hmoves
          exact ⟨hmoves, hother⟩

theorem gate_onAck (sim : Simulation) (s : State) (f : FlowId) (idx : Nat) :
    Moves s.now (s.gate f) ((s.onAck sim f idx).gate f) ∧
      ∀ g, g ≠ f → (s.onAck sim f idx).gate g = s.gate g := by
  unfold onAck
  split
  · exact ⟨Relation.ReflTransGen.refl, fun _ _ => rfl⟩
  · generalize hs₁ : ((s.modifyPkt f idx fun st => { st with acked := true }).modifyTx f fun tx =>
      { tx with ackedCount := tx.ackedCount + 1 }) = s₁
    have hgate : ∀ g, s₁.gate g = s.gate g := by
      intro g
      rw [← hs₁]
      by_cases hg : g = f
      · subst hg
        exact gate_of_eq rfl rfl (by simp) (by simp)
      · exact gate_of_eq rfl rfl (by simp [Function.update_of_ne hg])
          (by simp [Function.update_of_ne hg])
    have hnow : (s₁.land f idx).now = s.now := by
      rw [← hs₁]
      unfold land
      split <;> rfl
    obtain ⟨hmoves, hother⟩ := gate_trySend sim (s₁.land f idx) f
    simp only [gate_land, hgate] at hmoves hother
    rw [hnow] at hmoves
    exact ⟨hmoves, hother⟩

/-- A wake-up of the flow: the flag goes down, then the loop runs. -/
theorem gate_onInject (sim : Simulation) (s : State) (f : FlowId) :
    Moves s.now { s.gate f with flag := false } ((s.onInject sim f).gate f) ∧
      ∀ g, g ≠ f → (s.onInject sim f).gate g = s.gate g := by
  obtain ⟨hmoves, hother⟩ :=
    gate_trySend sim (s.modifyTx f fun tx => { tx with sendScheduled := false }) f
  have hself : (s.modifyTx f fun tx => { tx with sendScheduled := false }).gate f =
      { s.gate f with flag := false } :=
    Gate.ext rfl rfl rfl (by simp [gate]) (by simp [gate])
  rw [hself] at hmoves
  refine ⟨hmoves, fun g hg => (hother g hg).trans ?_⟩
  exact gate_of_eq rfl rfl (by simp [Function.update_of_ne hg]) (by simp [Function.update_of_ne hg])

theorem gate_releaseFlow (s : State) (g d f : FlowId) : (releaseFlow g s d).gate f =
    if f = d then (s.gate f).start s.now else s.gate f := by
  have htr : (releaseFlow g s d).trace.countP (Obs.dispatches (wakeOf f)) =
      s.trace.countP (Obs.dispatches (wakeOf f)) := by
    rw [releaseFlow_trace, List.countP_cons_of_neg (by simp [Obs.dispatches])]
  have hem : (releaseFlow g s d).transmissions f = s.transmissions f := by
    unfold transmissions
    rw [emissions_releaseFlow]
  have hq := s.queue.wakeTimes_push s.now (.inject d) f
  rw [← releaseFlow_queue g s d] at hq
  by_cases hf : f = d
  · subst hf
    rw [if_pos rfl] at hq ⊢
    exact Gate.ext hq htr hem (by simp [gate, Gate.start]) (by simp [gate, Gate.start])
  · rw [if_neg (by simp [Ne.symm hf])] at hq
    rw [if_neg hf]
    exact gate_congr hq htr hem (by simp [Function.update_of_ne hf])
      (by simp [Function.update_of_ne hf])

/-- A completed flow starts each of its dependents once. -/
theorem gate_completeFlow (sim : Simulation) (s : State) (g f : FlowId) :
    (s.completeFlow sim g).gate f =
      if f ∈ sim.dependents g then (s.gate f).start s.now else s.gate f := by
  have hfold : ∀ (l : List FlowId) (s : State), l.Nodup →
      (l.foldl (releaseFlow g) s).gate f =
        if f ∈ l then (s.gate f).start s.now else s.gate f := by
    intro l
    induction l with
    | nil => exact fun s _ => (if_neg List.not_mem_nil).symm
    | cons d l ih =>
      intro s hn
      obtain ⟨hd, hn⟩ := List.nodup_cons.mp hn
      rw [List.foldl_cons, ih _ hn, gate_releaseFlow]
      by_cases hf : f = d
      · subst hf
        rw [if_neg hd, if_pos rfl, if_pos (List.mem_cons_self ..)]
      · rw [if_neg hf]
        simp [hf]
  exact hfold _ _ (sim.nodup_dependents g)

theorem gate_onTxComplete (sim : Simulation) (s : State) (p : PortId) (f : FlowId) :
    (s.onTxComplete sim p).gate f = s.gate f := by
  have hoff : (s.sendOff sim p).queue.wakeTimes f = s.queue.wakeTimes f :=
    wakeTimes_push (sendOff_queue ..) (by simp)
  have hem : (s.onTxComplete sim p).transmissions f = s.transmissions f := by
    unfold transmissions
    rw [emissions_onTxComplete]
  rcases onTxComplete_cases sim s p with ⟨-, h⟩ | ⟨-, h⟩ <;> rw [h] at hem ⊢
  · exact gate_congr hoff rfl hem rfl rfl
  · exact gate_congr ((wakeTimes_push (startTx_queue ..) (by simp)).trans hoff) rfl hem rfl rfl

/-- The loop head takes the wake-up it found. -/
theorem gate_advance {e : Event} {queue : EventQueue} (hpop : s.queue.pop = some (e, queue))
    (f : FlowId) : e.body = .inject f ∧ e.time ∈ (s.gate f).pending ∧
        { (s.advance e queue).gate f with flag := false } = (s.gate f).take e.time ∨
      e.body ≠ .inject f ∧ (s.advance e queue).gate f = s.gate f := by
  have hq : s.queue.wakeTimes f = ↑((e :: queue.agenda).filterMap (Event.wake f)) := by
    unfold EventQueue.wakeTimes
    rw [EventQueue.agenda_of_pop hpop]
  have hem : (s.advance e queue).transmissions f = s.transmissions f := by
    unfold transmissions
    rw [emissions_advance]
  have htr : (s.advance e queue).trace.countP (Obs.dispatches (wakeOf f)) =
      s.trace.countP (Obs.dispatches (wakeOf f)) + if e.body = .inject f then 1 else 0 := by
    rw [advance_trace, List.countP_cons]
    simp [Obs.dispatches, wakeOf]
  by_cases hb : e.body = .inject f
  · have hself : Event.wake f e = some e.time := if_pos hb
    rw [List.filterMap_cons_some hself] at hq
    rw [if_pos hb] at htr
    refine Or.inl ⟨hb, ?_, Gate.ext ?_ htr hem rfl rfl⟩
    · show e.time ∈ s.queue.wakeTimes f
      rw [hq]
      exact List.mem_cons_self ..
    · show queue.wakeTimes f = (s.queue.wakeTimes f).erase e.time
      rw [hq]
      exact (Multiset.erase_cons_head e.time _).symm
  · have hself : Event.wake f e = none := if_neg hb
    rw [List.filterMap_cons_none hself] at hq
    rw [if_neg hb] at htr
    exact Or.inr ⟨hb, gate_congr hq.symm htr hem rfl rfl⟩

end State

/-! ## One turn of the hot loop -/

/-- The event has the sender of flow `f` looked at: a timer, or an ack that is back. -/
def Event.nudges (sim : Simulation) (f : FlowId) (e : Event) : Bool :=
  match e.body with
  | .timeout g _ _ => g = f
  | .arrive p x =>
    x.flow = f ∧ x.kind = .ack ∧ (sim.fabric.node (sim.fabric.port p).peerNode).isHost = true
  | _ => false

/-- What one turn is to the gate of flow `f`. -/
inductive GateStep (sim : Simulation) (f : FlowId) (s s' : State) (e : Event) : Prop
  | same (h : s'.gate f = s.gate f)
  | wake (hmem : e.time ∈ (s.gate f).pending)
      (hm : Moves e.time ((s.gate f).take e.time) (s'.gate f))
  | nudge (hb : e.nudges sim f = true) (hm : Moves e.time (s.gate f) (s'.gate f))
  | start (g : FlowId) (hdep : (sim.spec f).dependsOn = some g)
      (hold : (s.result g).complete = false) (hnew : (s'.result g).complete = true)
      (h : s'.gate f = (s.gate f).start e.time)

theorem complete_completeFlow {sim : Simulation} (s : State) (g : FlowId) :
    ((s.completeFlow sim g).result g).complete = true := by
  have hkeep := (FlowResult.outcome_inj ((completeFlow_spec sim s g).1.outcome g)).2.2.2.1
  rw [hkeep, modifyResult_result, Function.update_self]

/-- A data arrival starts the flows its own flow completes. -/
theorem gate_onDataArrival {sim : Simulation} {s : State} {g : FlowId} (hrecv : Receiver sim s g)
    (idx bytes a : Nat) (f : FlowId) :
    (s.onDataArrival sim g idx bytes a).gate f = s.gate f ∨
      (sim.spec f).dependsOn = some g ∧ (s.result g).complete = false ∧
        ((s.onDataArrival sim g idx bytes a).result g).complete = true ∧
        (s.onDataArrival sim g idx bytes a).gate f = (s.gate f).start s.now := by
  unfold State.onDataArrival
  rw [gate_sendAck]
  split
  · exact Or.inl rfl
  · have hkeep : ∀ s₁ : State, ((s₁.sendAck sim g idx a).result g).complete =
        (s₁.result g).complete := fun s₁ =>
      (FlowResult.outcome_inj ((sameRecord_sendAck s₁ g idx a).outcome g)).2.2.2.1
    rw [hkeep]
    unfold State.deliver
    dsimp only
    split
    · next hall =>
      rw [gate_completeFlow]
      split
      · next hf =>
        have hdep := ((Simulation.mem_dependents sim).mp hf).2
        refine Or.inr ⟨hdep, ?_, complete_completeFlow _ g, rfl⟩
        -- the flow lacked a packet until now
        have hlack : (s.result g).packetsDelivered + 1 = sim.packetsTotal g := by
          simpa using hall
        rw [Bool.eq_false_iff]
        intro hc
        have := (hrecv.complete_iff (by omega)).mp hc
        omega
      · exact Or.inl rfl
    · exact Or.inl rfl

theorem gate_step {sim : Simulation} {policy : RoutingPolicy} {s : State}
    (hs : sim.Reachable policy s) {e : Event} {queue : EventQueue}
    (hpop : s.queue.pop = some (e, queue)) (f : FlowId) :
    GateStep sim f s ((s.advance e queue).dispatch sim policy e.body) e := by
  have hnow : (s.advance e queue).now = e.time := rfl
  rcases gate_advance hpop f with ⟨hb, hmem, htake⟩ | ⟨hb, hadv⟩
  · rw [hb]
    refine GateStep.wake hmem ?_
    have hmoves := (gate_onInject sim (s.advance e queue) f).1
    rw [htake, hnow] at hmoves
    exact hmoves
  · cases hbody : e.body with
    | inject g =>
      have hne : f ≠ g := fun heq => hb (hbody.trans (by rw [heq]))
      exact GateStep.same (((gate_onInject sim _ g).2 f hne).trans hadv)
    | txComplete p => exact GateStep.same ((gate_onTxComplete sim _ p f).trans hadv)
    | timeout g idx a =>
      obtain ⟨hmoves, hother⟩ := gate_onTimeout sim (s.advance e queue) g idx a
      by_cases hf : f = g
      · subst hf
        rw [hadv, hnow] at hmoves
        exact GateStep.nudge (by simp [Event.nudges, hbody]) hmoves
      · exact GateStep.same ((hother f hf).trans hadv)
    | arrive p x =>
      show GateStep sim f s ((s.advance e queue).onArrive sim policy p x) e
      cases hh : (sim.fabric.node (sim.fabric.port p).peerNode).isHost with
      | false =>
        rw [onArrive_switch hh]
        exact GateStep.same ((gate_enqueue sim _ _ _ f).trans hadv)
      | true =>
        cases hk : x.kind with
        | ack =>
          rw [onArrive_ack hh hk]
          have hcount : ∀ g, ((s.advance e queue).countAckDelivered x.bytes).gate g =
              (s.advance e queue).gate g := fun g => gate_of_eq rfl rfl rfl rfl
          obtain ⟨hmoves, hother⟩ := gate_onAck sim
            ((s.advance e queue).countAckDelivered x.bytes) x.flow x.index
          by_cases hf : f = x.flow
          · subst hf
            rw [hcount, hadv] at hmoves
            exact GateStep.nudge (by simp [Event.nudges, hbody, hk, hh]) hmoves
          · exact GateStep.same ((hother f hf).trans ((hcount f).trans hadv))
        | data =>
          rw [onArrive_data hh hk]
          have hrecv : Receiver sim (s.advance e queue) x.flow := by
            refine (hs.receiver x.flow).congr ⟨fun _ => rfl, fun _ _ => rfl, fun _ => rfl⟩ ?_
            exact fun o ho => List.mem_cons_of_mem _ ho
          rcases gate_onDataArrival hrecv x.index x.bytes x.tag.attempt f with
            h | ⟨hdep, hold, hnew, h⟩
          · exact GateStep.same (h.trans hadv)
          · refine GateStep.start x.flow hdep hold hnew ?_
            rw [h, hadv, hnow]

/-! ## The gates over a run -/

/-- How often the flow's sender was looked at for a timer or an ack. -/
def State.nudges (sim : Simulation) (s : State) (f : FlowId) : Nat :=
  s.trace.countP fun o =>
    match o with
    | .dispatched e => e.nudges sim f
    | _ => false

namespace State

variable {sim : Simulation} {policy : RoutingPolicy} {s : State} {f : FlowId} {e : Event}
  {queue : EventQueue}

/-- A turn adds its own event to the history. -/
theorem nudges_step : s.nudges sim f + (if e.nudges sim f then 1 else 0) ≤
    ((s.advance e queue).dispatch sim policy e.body).nudges sim f := by
  obtain ⟨l, hl⟩ := dispatch_trace sim policy (s.advance e queue) e.body
  unfold nudges
  rw [hl, advance_trace, List.countP_append, List.countP_cons]
  exact Nat.le_add_left _ _

theorem transmissions_pos {idx : Nat} (h : s.attempts f idx ≠ []) : 0 < s.transmissions f := by
  obtain ⟨n, hn⟩ := List.exists_mem_of_ne_nil _ h
  obtain ⟨a, ha, heq⟩ := List.mem_filterMap.mp hn
  refine List.countP_pos_iff.mpr ⟨a, ha, ?_⟩
  unfold attemptOf at heq
  split at heq
  · next hx => simp [sentOf, hx.1, hx.2.1]
  · exact absurd heq (by simp)

end State

/-- A flow is nudged only once it has sent something. -/
theorem Simulation.Reachable.sent_of_nudge {sim : Simulation} {policy : RoutingPolicy} {s : State}
    (hs : sim.Reachable policy s) (ht : sim.transport.Accepted) {e : Event} {queue : EventQueue}
    (hpop : s.queue.pop = some (e, queue)) {f : FlowId} (hb : e.nudges sim f = true) :
    0 < s.transmissions f := by
  have hseq : ∀ idx, idx < (s.tx f).nextSeq → 0 < s.transmissions f := fun idx hidx =>
    transmissions_pos ((hs.attempts ht f).sent idx hidx)
  unfold Event.nudges at hb
  split at hb
  · next g idx a hbody =>
    obtain rfl : g = f := of_decide_eq_true hb
    have he : e ∈ s.queue.agenda := by
      rw [EventQueue.agenda_of_pop hpop]
      exact List.mem_cons_self ..
    exact hseq idx (hs.books.timer e he g idx a hbody).sent
  · next p x hbody =>
    obtain ⟨rfl, hk, -⟩ := of_decide_eq_true hb
    have hdel := (hs.books.arrived hs (mem_onLink_of_arrive hpop hbody)).2 hk
    -- an index never handed out has no bits
    refine hseq x.index (not_le.mp fun hle => ?_)
    rw [(hs.books.ledger x.flow).untouched x.index hle] at hdel
    exact absurd hdel (by simp)
  · exact absurd hb (by simp)

structure Injects (sim : Simulation) (s : State) (f : FlowId) : Prop where
  regular : Regular (s.gate f)
  asleep : ∀ d, (sim.spec f).dependsOn = some d → (s.result d).complete = false →
    (s.gate f).taken = 0 ∧ (s.gate f).pending = 0
  paid : (s.gate f).taken + (s.gate f).cost ≤ 2 * (s.gate f).sent + s.nudges sim f + 2

namespace Injects

variable {sim : Simulation} {policy : RoutingPolicy} {s : State} {f : FlowId} {e : Event}
  {queue : EventQueue}

theorem step (h : Injects sim s f) (hs : sim.Reachable policy s) (ht : sim.transport.Accepted)
    (hpop : s.queue.pop = some (e, queue)) :
    Injects sim ((s.advance e queue).dispatch sim policy e.body) f := by
  have hnudges : s.nudges sim f + (if e.nudges sim f then 1 else 0) ≤
      ((s.advance e queue).dispatch sim policy e.body).nudges sim f := nudges_step
  have hstep : sim.Step policy s ((s.advance e queue).dispatch sim policy e.body) :=
    Simulation.step_eq_some_iff.mpr ⟨e, queue, hpop, rfl⟩
  -- a flow that is not complete after the turn was not before
  have hback : ∀ d, (((s.advance e queue).dispatch sim policy e.body).result d).complete = false →
      (s.result d).complete = false := by
    intro d hd
    rw [Bool.eq_false_iff]
    intro hc
    have := (Tally.settled hs hc hstep).1
    rw [hd] at this
    exact absurd this (by simp)
  have hturn := gate_step hs hpop f
  generalize (s.advance e queue).dispatch sim policy e.body = s' at *
  cases hturn with
  | same heq =>
    refine ⟨?_, fun d hd hd' => ?_, ?_⟩
    · rw [heq]
      exact h.regular
    · rw [heq]
      exact h.asleep d hd (hback d hd')
    · rw [heq]
      have := h.paid
      omega
  | wake hmem hm =>
    have htake := h.regular.take hmem
    have hpos : 0 < ((s.gate f).take e.time).taken := Nat.succ_pos _
    obtain ⟨hreg, htaken⟩ := htake.moves hpos hm
    refine ⟨hreg, fun d hd hd' => ?_, ?_⟩
    · have hnone := (h.asleep d hd (hback d hd')).2
      rw [hnone] at hmem
      exact absurd hmem (Multiset.notMem_zero _)
    · -- the wake-up taken pays for the next one
      have hpaid := h.paid
      have hcost := h.regular.cost_take hmem
      have hvisit := Moves.cost htake hpos hm
      have hone : ((s.gate f).take e.time).taken = (s.gate f).taken + 1 := rfl
      have hsent : ((s.gate f).take e.time).sent = (s.gate f).sent := rfl
      omega
  | nudge hb hm =>
    have hsent := hs.sent_of_nudge ht hpop hb
    have hpos : 0 < (s.gate f).taken := by
      by_contra h0
      exact absurd (h.regular.early (by omega)).2 hsent.ne'
    obtain ⟨hreg, htaken⟩ := h.regular.moves hpos hm
    refine ⟨hreg, fun d hd hd' => ?_, ?_⟩
    · exact absurd (h.asleep d hd (hback d hd')).1 hpos.ne'
    · -- the nudge pays for the wake-up it may lead to
      have hpaid := h.paid
      have hvisit := Moves.cost h.regular hpos hm
      have hdue := (s.gate f).due_le e.time
      rw [if_pos hb] at hnudges
      omega
  | start g hdep hold hnew heq =>
    obtain ⟨h0, hnone⟩ := h.asleep g hdep hold
    have hreg : Regular ((s.gate f).start e.time) := h.regular.start h0 hnone
    refine ⟨?_, fun d hd hd' => ?_, ?_⟩
    · rw [heq]
      exact hreg
    · obtain rfl := Option.some.inj (hd.symm.trans hdep)
      rw [hnew] at hd'
      exact absurd hd' (by simp)
    · rw [heq]
      have hcost := ((s.gate f).start e.time).cost_bounds.2
      have hone := hreg.one
      have htaken : ((s.gate f).start e.time).taken = (s.gate f).taken := rfl
      omega

end Injects

/-- The first wake-up of a flow that waits on nothing is in the initial schedule. -/
theorem wakeTimes_beginRun (sim : Simulation) (leftover : State) (f : FlowId) :
    (sim.beginRun leftover).queue.wakeTimes f =
      if f < sim.flowCount ∧ (sim.spec f).dependsOn = none then {(sim.spec f).startNs} else 0 := by
  have hfold : ∀ (l : List Nat) (q : EventQueue), l.Nodup →
      (l.foldl (fun q i => if (sim.spec i).dependsOn = none then
        q.push (sim.spec i).startNs (.inject i) else q) q).wakeTimes f =
        (if f ∈ l ∧ (sim.spec f).dependsOn = none then {(sim.spec f).startNs} else 0) +
          q.wakeTimes f := by
    intro l
    induction l with
    | nil =>
      intro q _
      rw [if_neg fun h => absurd h.1 List.not_mem_nil, Multiset.zero_add]
      rfl
    | cons i l ih =>
      intro q hn
      obtain ⟨hi, hn⟩ := List.nodup_cons.mp hn
      rw [List.foldl_cons, ih _ hn]
      by_cases hf : i = f
      · subst hf
        rw [if_neg fun h => hi h.1, Multiset.zero_add]
        by_cases hd : (sim.spec i).dependsOn = none
        · rw [if_pos hd, if_pos ⟨List.mem_cons_self .., hd⟩, EventQueue.wakeTimes_push, if_pos rfl]
          rfl
        · rw [if_neg hd, if_neg fun h => hd h.2, Multiset.zero_add]
      · have hq : (if (sim.spec i).dependsOn = none then
            q.push (sim.spec i).startNs (.inject i) else q).wakeTimes f = q.wakeTimes f := by
          split
          · rw [EventQueue.wakeTimes_push, if_neg (by simp [hf])]
          · rfl
        rw [hq]
        simp [Ne.symm hf]
  refine (hfold _ _ List.nodup_range).trans ?_
  have hclear : EventQueue.clear.wakeTimes f = 0 := rfl
  rw [hclear, Multiset.add_zero]
  simp only [List.mem_range]

/-- The gate of a flow at the start of a run. -/
theorem card_pending_beginRun (sim : Simulation) (leftover : State) (f : FlowId) :
    Multiset.card ((sim.beginRun leftover).gate f).pending ≤ 1 := by
  show Multiset.card ((sim.beginRun leftover).queue.wakeTimes f) ≤ 1
  rw [wakeTimes_beginRun]
  split
  · exact le_rfl
  · exact Nat.zero_le 1

theorem Injects.begin (sim : Simulation) (leftover : State) (f : FlowId) :
    Injects sim (sim.beginRun leftover) f := by
  have hone := card_pending_beginRun sim leftover f
  refine ⟨⟨fun _ => ⟨rfl, rfl⟩, hone, fun h => absurd h (lt_irrefl 0)⟩, fun d hd _ => ⟨rfl, ?_⟩, ?_⟩
  · show (sim.beginRun leftover).queue.wakeTimes f = 0
    rw [wakeTimes_beginRun, if_neg]
    intro h
    rw [hd] at h
    exact absurd h.2 (by simp)
  · have hcost := ((sim.beginRun leftover).gate f).cost_bounds.2
    have htaken : ((sim.beginRun leftover).gate f).taken = 0 := rfl
    omega

theorem Simulation.Reachable.injects {sim : Simulation} {policy : RoutingPolicy} {s : State}
    (h : sim.Reachable policy s) (ht : sim.transport.Accepted) (f : FlowId) : Injects sim s f :=
  Simulation.Reachable.invariant (P := fun s => Injects sim s f)
    (fun leftover => Injects.begin sim leftover f) (fun _ _ _ hs h hpop => h.step hs ht hpop) h

/-- While times have not wrapped, no wake-up is wasted. -/
theorem Simulation.Reachable.frugal {sim : Simulation} {policy : RoutingPolicy} {s : State}
    (h : sim.Reachable policy s) (ht : sim.transport.Accepted) (hw : s.wrapped = false)
    (f : FlowId) : Frugal s.now (s.gate f) := by
  refine Simulation.Reachable.invariant
    (P := fun s => s.wrapped = false → Frugal s.now (s.gate f)) ?_ ?_ h hw
  · intro leftover _
    have hone := card_pending_beginRun sim leftover f
    refine ⟨fun _ => ?_, fun hf => absurd hf (by simp [gate, Simulation.beginRun])⟩
    show 0 + _ + 0 ≤ 0 + 1
    omega
  · intro s e queue hs ih hpop hw
    have hold := ih (step_unwrapped hs.coherent hpop hw)
    have hnow := ((hs.onTime (step_unwrapped hs.coherent hpop hw)).advance hpop).1
    have hreg := (hs.injects ht f).regular
    rw [dispatch_now]
    show Frugal e.time _
    cases gate_step hs hpop f with
    | same heq =>
      rw [heq]
      exact hold.mono hnow
    | wake hmem hm =>
      exact (hold.take hreg hmem hnow).moves (hreg.take hmem) (Nat.succ_pos _) hm
    | nudge hb hm =>
      refine (hold.mono hnow).moves hreg ?_ hm
      by_contra h0
      exact absurd (hreg.early (by omega)).2 (hs.sent_of_nudge ht hpop hb).ne'
    | start g hdep hc _ heq =>
      obtain ⟨h0, hnone⟩ := (hs.injects ht f).asleep g hdep hc
      rw [heq]
      exact Frugal.start hreg h0 hnone

/-- All injects of a flow, dispatched or pending: at most one more than its
transmissions, while times have not wrapped. -/
theorem Simulation.Reachable.created_inject_le {sim : Simulation} {policy : RoutingPolicy}
    {s : State} (h : sim.Reachable policy s) (ht : sim.transport.Accepted)
    (hw : s.wrapped = false) (f : FlowId) :
    s.created (wakeOf f) ≤ s.transmissions f + 1 := by
  have hle := (h.frugal ht hw f).wakeups_le (h.injects ht f).regular
  have hcard := s.queue.card_wakeTimes f
  have hpending : (s.gate f).pending = s.queue.wakeTimes f := rfl
  rw [hpending, hcard] at hle
  exact hle

end FabricSim
