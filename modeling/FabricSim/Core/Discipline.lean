import FabricSim.Core.Injects
import Mathlib.Data.List.Dedup

/-!
# Pacing and wake-up discipline

A turn of the hot loop either leaves the sender of a flow alone, starts it, or runs
its sending loop once (`turn`). Only the loop transmits, so what its two sending turns
keep holds of the whole run: transmissions lie a period apart because each finds the
gate open and moves it one period on, and an index is sent for the first time only
when it is the next in order.
-/

namespace FabricSim

open State PacingGate

namespace State

variable {sim : Simulation} {policy : RoutingPolicy} {s s' : State} {f g : FlowId}

/-- The transmissions of the flow so far, latest first. -/
def sentBy (s : State) (f : FlowId) : List (Nat × Packet) :=
  s.emissions.filter (sentOf fun g _ _ => g = f)

theorem length_sentBy (s : State) (f : FlowId) : (s.sentBy f).length = s.transmissions f :=
  List.countP_eq_length_filter.symm

theorem sentBy_sendPacket (sim : Simulation) (s : State) (f : FlowId) (idx : Nat) :
    (s.sendPacket sim f idx).sentBy f = (s.now, dataPacket sim s f idx) :: s.sentBy f := by
  unfold sentBy
  rw [emissions_sendPacket]
  exact List.filter_cons_of_pos (by simp [sentOf, dataPacket])

theorem sentBy_congr (h : s'.emissions = s.emissions) : s'.sentBy f = s.sentBy f := by
  unfold sentBy
  rw [h]

/-- The history only grows, so equally many transmissions are the same ones. -/
theorem sentBy_eq_of_transmissions {l : List Obs} (hl : s'.trace = l ++ s.trace)
    (h : s'.transmissions f = s.transmissions f) : s'.sentBy f = s.sentBy f := by
  have hgrow : s'.sentBy f =
      (l.filterMap Obs.emission).filter (sentOf fun g _ _ => g = f) ++ s.sentBy f := by
    unfold sentBy emissions
    rw [hl, List.filterMap_append, List.filter_append]
  have hlen := congrArg List.length hgrow
  rw [List.length_append, length_sentBy, length_sentBy, h] at hlen
  have hnone : (l.filterMap Obs.emission).filter (sentOf fun g _ _ => g = f) = [] :=
    List.length_eq_zero_iff.mp (by omega)
  rw [hgrow, hnone, List.nil_append]

/-- A packet that lands leaves the sequence and the history alone. -/
theorem land_frame (s : State) (f : FlowId) (idx : Nat) : (s.land f idx).now = s.now ∧
    (s.land f idx).emissions = s.emissions ∧ ((s.land f idx).tx f).nextSeq = (s.tx f).nextSeq ∧
    ((s.land f idx).tx f).failed = (s.tx f).failed ∧ NetEq s (s.land f idx) := by
  unfold land
  split
  · exact ⟨rfl, rfl, by simp, by simp, ⟨rfl, fun _ => rfl, fun _ => rfl⟩⟩
  · exact ⟨rfl, rfl, rfl, rfl, ⟨rfl, fun _ => rfl, fun _ => rfl⟩⟩

/-- A failed flow's loop does nothing. -/
theorem trySend_failed (h : (s.tx f).failed = true) : s.trySend sim f = s := by
  unfold trySend
  exact if_pos h

end State

/-! ## One turn, seen from a sender -/

/-- What one turn is to the sender of flow `f`. -/
inductive Turn (sim : Simulation) (f : FlowId) (s s' : State) (e : Event) : Prop
  | idle (hgate : s'.gate f = s.gate f) (hseq : (s'.tx f).nextSeq = (s.tx f).nextSeq)
      (hfailed : (s.tx f).failed = true → (s'.tx f).failed = true)
  | start (g : FlowId) (hdep : (sim.spec f).dependsOn = some g)
      (hold : (s.result g).complete = false) (hgate : s'.gate f = (s.gate f).start e.time)
      (hseq : (s'.tx f).nextSeq = (s.tx f).nextSeq)
      (hfailed : (s.tx f).failed = true → (s'.tx f).failed = true)
  | visit (s₀ : State) (hnow : s₀.now = e.time) (hsent : s₀.sentBy f = s.sentBy f)
      (hseq : (s₀.tx f).nextSeq = (s.tx f).nextSeq)
      (hfailed : (s₀.tx f).failed = (s.tx f).failed)
      (hgate : s₀.gate f = s.gate f ∨
        e.time ∈ (s.gate f).pending ∧ s₀.gate f = (s.gate f).take e.time)
      (hc : s₀.Coherent) (hb : Books sim s₀) (hend : s' = s₀.trySend sim f)

namespace Turn

variable {sim : Simulation} {policy : RoutingPolicy} {s s' : State} {f : FlowId} {e : Event}
  {queue : EventQueue}

theorem of_calm (hgate : s'.gate f = s.gate f) (hc : Calm sim s s' f) : Turn sim f s s' e := by
  refine Turn.idle hgate (FlowTx.nextSeq_of_books hc.books) fun h => ?_
  rw [FlowTx.failed_of_books hc.books]
  exact h

/-- A timer of the flow: stale, the last one allowed, or one that lets the loop run. -/
theorem onTimeout (hgate : s.gate f = s'.gate f) (hnow : s.now = e.time)
    (hsent : s.sentBy f = s'.sentBy f) (htx : s.tx f = s'.tx f) (hc : s.Coherent)
    (hb : Books sim s) {idx a : Nat} (hlive : Live s f idx a) :
    Turn sim f s' (s.onTimeout sim f idx a) e := by
  have hidle : Turn sim f s' s e := Turn.idle hgate (by rw [htx]) fun h => by rwa [htx]
  obtain ⟨hlnow, hlem, hlseq, hlfail, hlnet⟩ := land_frame s f idx
  unfold State.onTimeout
  split
  · exact hidle
  · next hacked =>
    split
    · exact hidle
    · next hatt =>
      split
      · exact hidle
      · next hfail =>
        have hair := hlive.inFlight (by omega) (by simpa using hacked) (by simpa using hfail)
        split
        · refine Turn.idle ?_ ?_ fun _ => by simp
          · rw [gate_giveUp, gate_land, hgate]
          · rw [← htx, ← hlseq]
            simp
        · refine Turn.visit ((s.land f idx).requeue sim f idx) (hlnow.trans hnow) ?_ ?_ ?_
            (Or.inl ?_) ?_ (hb.requeue f idx hair) rfl
          · exact (sentBy_congr (s := s) hlem).trans hsent
          · rw [← htx, ← hlseq]
            simp
          · rw [← htx, ← hlfail]
            simp
          · rw [gate_requeue, gate_land, hgate]
          · exact NetEq.coherent (s := s.land f idx) ⟨rfl, fun _ => rfl, fun _ => rfl⟩
              (hlnet.coherent hc)

/-- An ack of the flow: a duplicate, or one that lets the loop run. -/
theorem onAck (hgate : s.gate f = s'.gate f) (hnow : s.now = e.time)
    (hsent : s.sentBy f = s'.sentBy f) (htx : s.tx f = s'.tx f) (hc : s.Coherent)
    (hb : Books sim s) {idx : Nat} (hdel : (s.pkt f idx).delivered = true) :
    Turn sim f s' (s.onAck sim f idx) e := by
  unfold State.onAck
  split
  · exact Turn.idle hgate (by rw [htx]) fun h => by rwa [htx]
  · next hnot =>
    generalize hs₁ : ((s.modifyPkt f idx fun st => { st with acked := true }).modifyTx f fun tx =>
      { tx with ackedCount := tx.ackedCount + 1 }) = s₁
    have hbooks := hb.ackLanded f idx (by simpa using hnot) hdel
    rw [hs₁] at hbooks
    have hgate₁ : s₁.gate f = s.gate f := by
      rw [← hs₁]
      exact gate_of_eq rfl rfl (by simp) (by simp)
    have hsame : s₁.now = s.now ∧ s₁.emissions = s.emissions ∧
        (s₁.tx f).nextSeq = (s.tx f).nextSeq ∧ (s₁.tx f).failed = (s.tx f).failed ∧
        NetEq s s₁ := by
      rw [← hs₁]
      exact ⟨rfl, rfl, by simp, by simp, ⟨rfl, fun _ => rfl, fun _ => rfl⟩⟩
    obtain ⟨hnow₁, hem₁, hseq₁, hfail₁, hnet₁⟩ := hsame
    obtain ⟨hlnow, hlem, hlseq, hlfail, hlnet⟩ := land_frame s₁ f idx
    refine Turn.visit (s₁.land f idx) (by rw [hlnow, hnow₁, hnow]) ?_ ?_ ?_ (Or.inl ?_)
      (hlnet.coherent (hnet₁.coherent hc)) hbooks rfl
    · exact (sentBy_congr (hlem.trans hem₁)).trans hsent
    · rw [hlseq, hseq₁, htx]
    · rw [hlfail, hfail₁, htx]
    · rw [gate_land, hgate₁, hgate]

/-- What one turn is to the sender of a flow. -/
theorem of_step (hs : sim.Reachable policy s) (hpop : s.queue.pop = some (e, queue)) (f : FlowId) :
    Turn sim f s ((s.advance e queue).dispatch sim policy e.body) e := by
  have hbooks := hs.books.advance hpop
  have hem : (s.advance e queue).emissions = s.emissions := emissions_advance e queue
  rcases gate_advance hpop f with ⟨hb, hmem, htake⟩ | ⟨hb, hadv⟩
  · -- a wake-up of the flow itself
    have hc : (s.advance e queue).Coherent := hs.coherent.advance hpop (by rw [hb]; simp)
    rw [hb]
    refine Turn.visit ((s.advance e queue).modifyTx f fun tx => { tx with sendScheduled := false })
      rfl (sentBy_congr hem) (by simp) (by simp) (Or.inr ⟨hmem, ?_⟩) ?_ (hbooks.woken f) rfl
    · rw [← htake]
      exact Gate.ext rfl rfl rfl (by simp [gate]) (by simp [gate])
    · exact NetEq.coherent (s := s.advance e queue) ⟨rfl, fun _ => rfl, fun _ => rfl⟩ hc
  cases hbody : e.body with
  | inject g =>
    have hne : f ≠ g := fun heq => hb (hbody.trans (by rw [heq]))
    refine of_calm (((gate_onInject sim _ g).2 f hne).trans hadv) ?_
    refine Calm.trans (Calm.advance hpop hb (by rw [hbody]; simp)) ?_
    exact Calm.micros hne (onInject_micros _ g)
  | txComplete p =>
    refine of_calm ((gate_onTxComplete sim _ p f).trans hadv) ?_
    exact (Calm.advance hpop hb (by rw [hbody]; simp)).trans (Calm.onTxComplete _ p f)
  | timeout g idx a =>
    by_cases hf : f = g
    · subst hf
      have he : e ∈ s.queue.agenda := by
        rw [EventQueue.agenda_of_pop hpop]
        exact List.mem_cons_self ..
      obtain ⟨h1, h2, h3⟩ := hs.books.timer e he f idx a hbody
      have hc : (s.advance e queue).Coherent := hs.coherent.advance hpop (by rw [hbody]; simp)
      exact onTimeout hadv rfl (sentBy_congr hem) rfl hc hbooks ⟨h1, h2, h3⟩
    · refine of_calm (((gate_onTimeout sim _ g idx a).2 f hf).trans hadv) ?_
      refine Calm.trans (Calm.advance hpop hb ?_) (Calm.micros hf (onTimeout_micros _ g idx a))
      intro i a'
      rw [hbody]
      exact fun heq => hf (EventBody.timeout.inj heq).1.symm
  | arrive p x =>
    have hcalm : Calm sim s (s.advance e queue) f :=
      Calm.advance hpop hb (by rw [hbody]; simp)
    show Turn sim f s ((s.advance e queue).onArrive sim policy p x) e
    cases hh : (sim.fabric.node (sim.fabric.port p).peerNode).isHost with
    | false =>
      rw [onArrive_switch hh]
      exact of_calm ((gate_enqueue sim _ _ _ f).trans hadv) (hcalm.trans (Calm.enqueue _ _ _ f))
    | true =>
      cases hk : x.kind with
      | ack =>
        rw [onArrive_ack hh hk]
        have hcount : ((s.advance e queue).countAckDelivered x.bytes).gate f = s.gate f :=
          Eq.trans (gate_of_eq rfl rfl rfl rfl) hadv
        by_cases hf : f = x.flow
        · subst hf
          have hc : (s.advance e queue).Coherent := hs.coherent.advance hpop (by rw [hbody]; simp)
          have hb₁ : Books sim ((s.advance e queue).countAckDelivered x.bytes) :=
            hbooks.congr (fun _ => rfl) rfl rfl rfl (fun _ he _ _ _ _ => he) fun _ _ hx => hx
          exact onAck hcount rfl (sentBy_congr hem) rfl ((netEq_countAckDelivered _ _).coherent hc)
            hb₁ ((hs.books.arrived hs (mem_onLink_of_arrive hpop hbody)).2 hk)
        · refine of_calm (((gate_onAck sim _ x.flow x.index).2 f hf).trans hcount) (hcalm.trans ?_)
          refine Calm.trans ?_ (Calm.micros hf (onAck_micros _ _ _))
          exact Calm.of_eq rfl (fun _ => rfl) rfl (fun _ h => h) fun _ _ h => h
      | data =>
        rw [onArrive_data hh hk]
        have hrecv : Receiver sim (s.advance e queue) x.flow := by
          refine (hs.receiver x.flow).congr ⟨fun _ => rfl, fun _ _ => rfl, fun _ => rfl⟩ ?_
          exact fun o ho => List.mem_cons_of_mem _ ho
        have hcalm' := hcalm.trans (Calm.onDataArrival (s.advance e queue) x.flow x.index
          x.bytes x.tag.attempt f)
        rcases gate_onDataArrival hrecv x.index x.bytes x.tag.attempt f with h | ⟨hdep, hold, -, h⟩
        · exact of_calm (h.trans hadv) hcalm'
        · refine Turn.start x.flow hdep hold ?_ (FlowTx.nextSeq_of_books hcalm'.books) fun hf => ?_
          · rw [h, hadv]
            rfl
          · rwa [FlowTx.failed_of_books hcalm'.books]

end Turn

/-! ## What the loop keeps -/

structure Discipline (sim : Simulation) (s : State) (f : FlowId) : Prop where
  spaced : (s.sentBy f).Pairwise fun late early => early.1 + sim.periodNs f ≤ late.1
  gate : ∀ a ∈ s.sentBy f, a.1 + sim.periodNs f ≤ (s.tx f).nextSendNs
  /-- Of the transmissions of an index the first counts. -/
  inOrder : ((s.sentBy f).map fun a => a.2.index).dedup = (List.range (s.tx f).nextSeq).reverse
  prompt : (s.tx f).sendScheduled = true → ∃ t ∈ s.queue.wakeTimes f, t ≤ (s.tx f).nextSendNs

namespace Discipline

variable {sim : Simulation} {policy : RoutingPolicy} {s s' : State} {f : FlowId} {e : Event}
  {queue : EventQueue}

/-- Changes the flow's schedule does not notice. -/
theorem congr (h : Discipline sim s f) (hgate : s'.gate f = s.gate f)
    (hsent : s'.sentBy f = s.sentBy f) (hseq : (s'.tx f).nextSeq = (s.tx f).nextSeq) :
    Discipline sim s' f := by
  have hq : s'.queue.wakeTimes f = s.queue.wakeTimes f := congrArg Gate.pending hgate
  have hflag : (s'.tx f).sendScheduled = (s.tx f).sendScheduled := congrArg Gate.flag hgate
  have hnext : (s'.tx f).nextSendNs = (s.tx f).nextSendNs := congrArg Gate.next hgate
  refine ⟨?_, ?_, ?_, ?_⟩
  · rw [hsent]
    exact h.spaced
  · rw [hsent, hnext]
    exact h.gate
  · rw [hsent, hseq]
    exact h.inOrder
  · rw [hq, hflag, hnext]
    exact h.prompt

/-- One transmission through the open gate. -/
theorem sendPacket (h : Discipline sim s f) (hopen : (s.tx f).nextSendNs ≤ s.now) (s₀ : State)
    (hnow : s₀.now = s.now) (hgate : s₀.gate f = s.gate f) (hsent : s₀.sentBy f = s.sentBy f)
    {idx : Nat} (hidx : (idx :: (s.sentBy f).map fun a => a.2.index).dedup =
      (List.range (s₀.tx f).nextSeq).reverse)
    (hw : s.now + sim.periodNs f < 2 ^ 64) : Discipline sim (s₀.sendPacket sim f idx) f := by
  have hgate' := gate_sendPacket sim s₀ f idx f
  rw [if_pos rfl, hgate, hnow, u64_of_lt hw] at hgate'
  have hq : (s₀.sendPacket sim f idx).queue.wakeTimes f = s.queue.wakeTimes f :=
    congrArg Gate.pending hgate'
  have hflag : ((s₀.sendPacket sim f idx).tx f).sendScheduled = (s.tx f).sendScheduled :=
    congrArg Gate.flag hgate'
  have hnext : ((s₀.sendPacket sim f idx).tx f).nextSendNs = s.now + sim.periodNs f :=
    congrArg Gate.next hgate'
  have hcons : (s₀.sendPacket sim f idx).sentBy f =
      (s.now, dataPacket sim s₀ f idx) :: s.sentBy f := by
    rw [sentBy_sendPacket, hsent, hnow]
  refine ⟨?_, ?_, ?_, ?_⟩
  · rw [hcons, List.pairwise_cons]
    exact ⟨fun a ha => (h.gate a ha).trans hopen, h.spaced⟩
  · intro a ha
    rw [hcons] at ha
    rw [hnext]
    rcases List.mem_cons.mp ha with rfl | ha
    · exact le_rfl
    · exact (h.gate a ha).trans (hopen.trans (Nat.le_add_right _ _))
  · rw [hcons, List.map_cons]
    refine hidx.trans ?_
    simp
  · rw [hflag, hq, hnext]
    intro hf
    obtain ⟨t, ht, hle⟩ := h.prompt hf
    exact ⟨t, ht, hle.trans (hopen.trans (Nat.le_add_right _ _))⟩

theorem waitTurn (h : Discipline sim s f) : Discipline sim (s.waitTurn f) f := by
  have hgate := gate_waitTurn s f f
  have hsent : (s.waitTurn f).sentBy f = s.sentBy f ∧
      ((s.waitTurn f).tx f).nextSeq = (s.tx f).nextSeq := by
    unfold State.waitTurn
    split
    · exact ⟨rfl, rfl⟩
    · exact ⟨rfl, by simp⟩
  split at hgate
  · next hflag =>
    have hnext : ((s.waitTurn f).tx f).nextSendNs = (s.tx f).nextSendNs :=
      congrArg Gate.next hgate
    have hq : (s.waitTurn f).queue.wakeTimes f = (s.tx f).nextSendNs ::ₘ s.queue.wakeTimes f :=
      congrArg Gate.pending hgate
    refine ⟨?_, ?_, ?_, fun _ => ⟨(s.tx f).nextSendNs, ?_, hnext.ge⟩⟩
    · rw [hsent.1]
      exact h.spaced
    · rw [hsent.1, hnext]
      exact h.gate
    · rw [hsent.1, hsent.2]
      exact h.inOrder
    · rw [hq]
      exact Multiset.mem_cons_self _ _
  · exact h.congr hgate hsent.1 hsent.2

theorem trySend (h : Discipline sim s f) (hc : s.Coherent) (hb : Books sim s)
    (hw : (s.trySend sim f).wrapped = false) : Discipline sim (s.trySend sim f) f := by
  refine trySend_rule
    (P := fun s => s.Coherent ∧ Books sim s ∧ (s.wrapped = false → Discipline sim s f))
    (Q := fun s => s.wrapped = false → Discipline sim s f)
    (fun _ h _ => h.2.2) ?_ ?_ ?_ ?_ (fun _ _ => h) ⟨hc, hb, fun _ => h⟩ hw
  · intro s h _ _ hw
    refine (h.2.2 ?_).waitTurn
    unfold State.waitTurn at hw
    split at hw <;> exact hw
  · intro s head count h _ _ _ hw
    exact (h.2.2 hw).congr (gate_drainRetx s f head count f) rfl (by simp)
  · -- a packet sent before is in the list already
    rintro s idx head count ⟨hc, hb, h⟩ _ hopen hr
    have hc' : (s.drainRetx f head count).Coherent :=
      NetEq.coherent (s := s) ⟨rfl, fun _ => rfl, fun _ => rfl⟩ hc
    have hsend : Micro sim f _ _ := Micro.send (s.drainRetx f head count) idx
    refine ⟨hsend.coherent hc', hb.resend hr, fun hw => ?_⟩
    obtain ⟨hw₀, hperiod, -⟩ := sendPacket_unwrapped hc' hw
    have hd := h hw₀
    refine hd.sendPacket hopen (s.drainRetx f head count) rfl (gate_drainRetx s f head count f)
      rfl ?_ hperiod
    have hmem : idx ∈ (s.sentBy f).map fun a => a.2.index := by
      rw [← List.mem_dedup, hd.inOrder, List.mem_reverse, List.mem_range]
      exact hb.resend_lt hr
    rw [List.dedup_cons_of_mem hmem, hd.inOrder]
    simp
  · -- the next in order is new
    rintro s head count ⟨hc, hb, h⟩ hin hopen hr hleft
    have hc' : ((s.drainRetx f head count).takeSeq f).Coherent :=
      NetEq.coherent (s := s) ⟨rfl, fun _ => rfl, fun _ => rfl⟩ hc
    have hsend : Micro sim f _ _ :=
      Micro.send ((s.drainRetx f head count).takeSeq f) (s.tx f).nextSeq
    refine ⟨hsend.coherent hc', hb.fresh hin hr hleft, fun hw => ?_⟩
    obtain ⟨hw₀, hperiod, -⟩ := sendPacket_unwrapped hc' hw
    have hd := h hw₀
    refine hd.sendPacket hopen ((s.drainRetx f head count).takeSeq f) rfl ?_ rfl ?_ hperiod
    · rw [gate_takeSeq, gate_drainRetx]
    · have hnew : (s.tx f).nextSeq ∉ (s.sentBy f).map fun a => a.2.index := by
        rw [← List.mem_dedup, hd.inOrder, List.mem_reverse, List.mem_range]
        exact lt_irrefl _
      rw [List.dedup_cons_of_notMem hnew, hd.inOrder]
      simp [List.range_succ]

theorem step (h : Discipline sim s f) (hs : sim.Reachable policy s) (ht : sim.transport.Accepted)
    (hpop : s.queue.pop = some (e, queue))
    (hw : ((s.advance e queue).dispatch sim policy e.body).wrapped = false) :
    Discipline sim ((s.advance e queue).dispatch sim policy e.body) f := by
  obtain ⟨l, hl⟩ := dispatch_trace sim policy (s.advance e queue) e.body
  rw [advance_trace, List.append_cons] at hl
  have hturn := Turn.of_step hs hpop f
  generalize (s.advance e queue).dispatch sim policy e.body = s' at *
  have hsame : s'.transmissions f = s.transmissions f → s'.sentBy f = s.sentBy f :=
    sentBy_eq_of_transmissions hl
  cases hturn with
  | idle hgate hseq _ => exact h.congr hgate (hsame (congrArg Gate.sent hgate)) hseq
  | start g hdep hold hgate hseq _ =>
    -- what is started has sent nothing and asked for nothing
    have hi := hs.injects ht f
    obtain ⟨hflag, hnone⟩ := hi.regular.early (hi.asleep g hdep hold).1
    have hsent : s'.sentBy f = s.sentBy f := hsame (congrArg Gate.sent hgate)
    have hempty : s.sentBy f = [] := by
      rw [← List.length_eq_zero_iff, length_sentBy]
      exact hnone
    have hdown : (s'.tx f).sendScheduled = false := (congrArg Gate.flag hgate).trans hflag
    refine ⟨?_, ?_, ?_, fun hf => absurd (hdown.symm.trans hf) (by simp)⟩
    · rw [hsent]
      exact h.spaced
    · rw [hsent, hempty]
      exact fun _ ha => absurd ha List.not_mem_nil
    · rw [hsent, hseq]
      exact h.inOrder
  | visit s₀ _ hsent hseq _ hgate hc hb hend =>
    subst hend
    refine Discipline.trySend ?_ hc hb hw
    rcases hgate with hgate | ⟨-, hgate⟩
    · exact h.congr hgate hsent hseq
    · have hnext : (s₀.tx f).nextSendNs = (s.tx f).nextSendNs := congrArg Gate.next hgate
      have hflag : (s₀.tx f).sendScheduled = false := congrArg Gate.flag hgate
      refine ⟨?_, ?_, ?_, fun hf => absurd (hflag.symm.trans hf) (by simp)⟩
      · rw [hsent]
        exact h.spaced
      · rw [hsent, hnext]
        exact h.gate
      · rw [hsent, hseq]
        exact h.inOrder

theorem begin (sim : Simulation) (leftover : State) (f : FlowId) :
    Discipline sim (sim.beginRun leftover) f where
  spaced := List.Pairwise.nil
  gate := fun _ ha => absurd ha List.not_mem_nil
  inOrder := rfl
  prompt := fun h => absurd h (by simp [Simulation.beginRun])

end Discipline

namespace Simulation

variable {sim : Simulation} {policy : RoutingPolicy} {s s' : State} {f : FlowId}

theorem Reachable.discipline (h : sim.Reachable policy s) (ht : sim.transport.Accepted)
    (hw : s.wrapped = false) (f : FlowId) : Discipline sim s f := by
  refine Reachable.invariant (P := fun s => s.wrapped = false → Discipline sim s f)
    (fun leftover _ => Discipline.begin sim leftover f) ?_ h hw
  exact fun s e queue hs ih hpop hw =>
    (ih (step_unwrapped hs.coherent hpop hw)).step hs ht hpop hw

/-- A failed flow stays failed and sends nothing more. -/
theorem Reachable.failed_step (hs : sim.Reachable policy s)
    (hfail : (s.tx f).failed = true) (hstep : sim.Step policy s s') :
    (s'.tx f).failed = true ∧ s'.sentBy f = s.sentBy f := by
  obtain ⟨e, queue, hpop, rfl⟩ := step_eq_some_iff.mp hstep
  obtain ⟨l, hl⟩ := dispatch_trace sim policy (s.advance e queue) e.body
  rw [advance_trace, List.append_cons] at hl
  have hturn := Turn.of_step hs hpop f
  generalize (s.advance e queue).dispatch sim policy e.body = s' at *
  cases hturn with
  | idle hgate _ hkeep =>
    exact ⟨hkeep hfail, sentBy_eq_of_transmissions hl (congrArg Gate.sent hgate)⟩
  | start g _ _ hgate _ hkeep =>
    exact ⟨hkeep hfail, sentBy_eq_of_transmissions hl (congrArg Gate.sent hgate)⟩
  | visit s₀ _ hsent _ hfailed _ _ _ hend =>
    have hfail₀ : (s₀.tx f).failed = true := hfailed.trans hfail
    rw [hend, trySend_failed hfail₀]
    exact ⟨hfail₀, hsent⟩

theorem Reachable.failed_run (hs : sim.Reachable policy s)
    (hfail : (s.tx f).failed = true) (hrun : Relation.ReflTransGen (sim.Step policy) s s') :
    s'.sentBy f = s.sentBy f := by
  suffices h : sim.Reachable policy s' ∧ (s'.tx f).failed = true ∧ s'.sentBy f = s.sentBy f from
    h.2.2
  induction hrun with
  | refl => exact ⟨hs, hfail, rfl⟩
  | tail _ hstep ih =>
    obtain ⟨hs₁, hfail₁, hsent₁⟩ := ih
    obtain ⟨hfail₂, hsent₂⟩ := hs₁.failed_step hfail₁ hstep
    exact ⟨hs₁.next hstep, hfail₂, hsent₂.trans hsent₁⟩

end Simulation

/-- As long as 32 bits index the packets of all flows: transmissions of a flow, first or
repeated, lie its period apart; first ones come in index order; at most one wake-up is
pending, and the flag is up only while one is, at a time no later than the gate opens; and
a failed flow is silent from then on. -/
theorem pacing_discipline (sim : Simulation) (policy : RoutingPolicy)
    (_hfit : sim.packetsExact ≤ 2 ^ 32) (ht : sim.transport.Accepted) {s : State}
    (hs : sim.Reachable policy s) (hw : s.wrapped = false) (f : FlowId) :
    (s.sentBy f).Pairwise (fun late early => early.1 + sim.periodNs f ≤ late.1) ∧
    ((s.sentBy f).map fun a => a.2.index).dedup = (List.range (s.tx f).nextSeq).reverse ∧
    (s.queue.agenda.countP fun e => e.body = .inject f) ≤ 1 ∧
    ((s.tx f).sendScheduled = true →
      ∃ e ∈ s.queue.agenda, e.body = .inject f ∧ e.time ≤ (s.tx f).nextSendNs) ∧
    ((s.tx f).failed = true → ∀ s', Relation.ReflTransGen (sim.Step policy) s s' →
      s'.sentBy f = s.sentBy f) := by
  have h := hs.discipline ht hw f
  refine ⟨h.spaced, h.inOrder, ?_, fun hflag => ?_, fun hfail s' => hs.failed_run hfail⟩
  · have hcard := s.queue.card_wakeTimes f
    unfold wakeOf at hcard
    rw [← hcard]
    exact (hs.injects ht f).regular.one
  · obtain ⟨t, hmem, hle⟩ := h.prompt hflag
    obtain ⟨e, he, hb, rfl⟩ := EventQueue.mem_wakeTimes.mp hmem
    exact ⟨e, he, hb, hle⟩

/-- Two packets from a host to another. -/
theorem pacing_discipline_pair :
    (Pair.last.sentBy 0).Pairwise
      (fun late early => early.1 + Pair.simulation.periodNs 0 ≤ late.1) ∧
    ((Pair.last.sentBy 0).map fun a => a.2.index).dedup =
      (List.range (Pair.last.tx 0).nextSeq).reverse ∧
    (Pair.last.queue.agenda.countP fun e => e.body = .inject 0) ≤ 1 ∧
    ((Pair.last.tx 0).sendScheduled = true → ∃ e ∈ Pair.last.queue.agenda,
      e.body = .inject 0 ∧ e.time ≤ (Pair.last.tx 0).nextSendNs) ∧
    ((Pair.last.tx 0).failed = true →
      ∀ s', Relation.ReflTransGen (Pair.simulation.Step StaticFirstPolicy) Pair.last s' →
        s'.sentBy 0 = Pair.last.sentBy 0) :=
  pacing_discipline Pair.simulation StaticFirstPolicy Pair.packets_le Pair.transport_accepted
    ((Simulation.Reachable.begin _).runFor 100) Pair.last_unwrapped 0

end FabricSim
