import FabricSim.Core.Receipt

/-!
# The receiver's tally

What a receiver has on record, told from the history alone: which packets
arrived (`deliveries`) and which were acknowledged (`acks`), both latest first.
`Tally` says that the record is that history. A packet is marked delivered
exactly when it is in it, the delivered bytes are the sizes of the different
packets in it, every arrival was acknowledged at once, and a complete flow
became complete with the arrival that made the set of packets full (`FilledAt`).

Only the arrival of a data packet touches any of this (`dispatch_tally`). None of
it needs the clock, so it holds with wrapping times as well.
-/

namespace FabricSim

open State

/-- The arrival of a data packet of the flow at its host: when, and which. -/
def Obs.delivery (sim : Simulation) (f : FlowId) : Obs → Option (Nat × Nat)
  | .dispatched e =>
    match e.body with
    | .arrive p x =>
      if (sim.fabric.node (sim.fabric.port p).peerNode).isHost = true ∧ x.flow = f ∧
          x.kind = .data then some (e.time, x.index)
      else none
    | _ => none
  | _ => none

/-- The emission of an ack of the flow: when, and for which packet. -/
def Obs.acking (f : FlowId) : Obs → Option (Nat × Nat)
  | .emitted t x => if x.flow = f ∧ x.kind = .ack then some (t, x.index) else none
  | _ => none

theorem delivery_arrive (sim : Simulation) (f : FlowId) {e : Event} {p : PortId} {x : Packet}
    (hb : e.body = .arrive p x) : Obs.delivery sim f (.dispatched e) =
      if (sim.fabric.node (sim.fabric.port p).peerNode).isHost = true ∧ x.flow = f ∧
        x.kind = .data then some (e.time, x.index) else none := by
  unfold Obs.delivery
  dsimp only
  rw [hb]

theorem delivery_eq_none {sim : Simulation} {f : FlowId} {e : Event}
    (h : ∀ p x, e.body = .arrive p x →
      (sim.fabric.node (sim.fabric.port p).peerNode).isHost = true → x.kind ≠ .data) :
    Obs.delivery sim f (.dispatched e) = none := by
  unfold Obs.delivery
  dsimp only
  split
  · next p x hb => exact if_neg fun hx => h p x hb hx.1 hx.2.2
  · rfl

namespace State

variable (sim : Simulation) (s : State) (f : FlowId)

def deliveries : List (Nat × Nat) := s.trace.filterMap (Obs.delivery sim f)

def acks : List (Nat × Nat) := s.trace.filterMap (Obs.acking f)

/-- The different packets that have arrived. -/
def arrivedSet : Finset Nat := ((s.deliveries sim f).map Prod.snd).toFinset

variable {sim s f}

theorem mem_deliveries {a : Nat × Nat} (h : a ∈ s.deliveries sim f) :
    ∃ e p x, .dispatched e ∈ s.trace ∧ e.body = .arrive p x ∧ e.time = a.1 := by
  obtain ⟨o, ho, heq⟩ := List.mem_filterMap.mp h
  cases o with
  | dispatched e =>
    unfold Obs.delivery at heq
    dsimp only at heq
    split at heq
    · next p x hb =>
      split at heq
      · exact ⟨e, p, x, ho, hb, congrArg Prod.fst (Option.some.inj heq)⟩
      · exact absurd heq (by simp)
    · exact absurd heq (by simp)
  | emitted | offered | released => exact absurd heq (by simp [Obs.delivery])

end State

/-- In a history (latest first) of timed items below `n`, the set of items
became full at time `t`: one new item came then, and with the earlier ones it
makes all of them. -/
def FilledAt (l : List (Nat × Nat)) (n t : Nat) : Prop :=
  ∃ later i earlier, l = later ++ (t, i) :: earlier ∧ i ∉ earlier.map Prod.snd ∧
    ∀ j, j < n → j = i ∨ j ∈ earlier.map Prod.snd

theorem FilledAt.cons {l : List (Nat × Nat)} {n t : Nat} (h : FilledAt l n t) (a : Nat × Nat) :
    FilledAt (a :: l) n t := by
  obtain ⟨later, i, earlier, rfl, hi⟩ := h
  exact ⟨a :: later, i, earlier, rfl, hi⟩

structure Tally (sim : Simulation) (s : State) (f : FlowId) : Prop where
  bits : ∀ idx, (s.pkt f idx).delivered = true ↔ idx ∈ s.arrivedSet sim f
  range : ∀ idx ∈ s.arrivedSet sim f, idx < sim.packetsTotal f
  bytes : (s.result f).deliveredBytes =
    ∑ idx ∈ s.arrivedSet sim f, (sim.spec f).packetBytes idx
  acks : s.acks f = s.deliveries sim f
  finish : (s.result f).complete = true →
    FilledAt (s.deliveries sim f) (sim.packetsTotal f) (s.result f).finishNs

/-- What senders and switches write: an offer, or a data packet emitted. -/
def Obs.Quiet : Obs → Prop
  | .offered .. => True
  | .emitted _ x => x.kind = .data
  | _ => False

namespace State

variable {sim : Simulation} {policy : RoutingPolicy} {s s' s'' : State}

/-- `s'` has the arrivals and acks of `s` in its history. -/
structure SameLog (sim : Simulation) (s s' : State) : Prop where
  deliveries : ∀ f, s'.deliveries sim f = s.deliveries sim f
  acks : ∀ f, s'.acks f = s.acks f

theorem SameLog.refl (s : State) : SameLog sim s s := ⟨fun _ => rfl, fun _ => rfl⟩

theorem SameLog.trans (h : SameLog sim s s') (h' : SameLog sim s' s'') : SameLog sim s s'' :=
  ⟨fun f => (h'.deliveries f).trans (h.deliveries f), fun f => (h'.acks f).trans (h.acks f)⟩

theorem SameLog.of_eq (h : s'.trace = s.trace) : SameLog sim s s' := by
  constructor <;> intro f
  · unfold State.deliveries
    rw [h]
  · unfold State.acks
    rw [h]

/-- An entry that is neither an arrival nor an ack. -/
theorem SameLog.cons {o : Obs} (h : s'.trace = o :: s.trace)
    (hd : ∀ f, o.delivery sim f = none) (ha : ∀ f, o.acking f = none) : SameLog sim s s' := by
  constructor <;> intro f
  · unfold State.deliveries
    rw [h]
    exact List.filterMap_cons_none (hd f)
  · unfold State.acks
    rw [h]
    exact List.filterMap_cons_none (ha f)

/-- `s'` has the history of `s` and nothing after it but offers and data
packets emitted. -/
def Quiet (s s' : State) : Prop := ∃ l, s'.trace = l ++ s.trace ∧ ∀ o ∈ l, o.Quiet

theorem Quiet.of_eq (h : s'.trace = s.trace) : Quiet s s' :=
  ⟨[], h, fun _ ho => absurd ho List.not_mem_nil⟩

theorem Quiet.refl (s : State) : Quiet s s := Quiet.of_eq rfl

theorem Quiet.cons {o : Obs} (h : s'.trace = o :: s.trace) (ho : o.Quiet) : Quiet s s' :=
  ⟨[o], h, fun _ hmem => (List.mem_singleton.mp hmem) ▸ ho⟩

theorem Quiet.trans (h : Quiet s s') (h' : Quiet s' s'') : Quiet s s'' := by
  obtain ⟨l, hl, hq⟩ := h
  obtain ⟨l', hl', hq'⟩ := h'
  refine ⟨l' ++ l, by rw [hl', hl, List.append_assoc], fun o ho => ?_⟩
  rcases List.mem_append.mp ho with ho | ho
  · exact hq' o ho
  · exact hq o ho

/-- Who reads nothing in quiet entries sees no difference. -/
theorem Quiet.filterMap {α : Type} {g : Obs → Option α} (h : Quiet s s')
    (hg : ∀ o : Obs, o.Quiet → g o = none) : s'.trace.filterMap g = s.trace.filterMap g := by
  obtain ⟨l, hl, hq⟩ := h
  have hnone : l.filterMap g = [] := List.filterMap_eq_nil_iff.mpr fun o ho => hg o (hq o ho)
  rw [hl, List.filterMap_append, hnone, List.nil_append]

theorem Quiet.sameLog (sim : Simulation) (h : Quiet s s') : SameLog sim s s' := by
  constructor <;> intro f
  · refine h.filterMap fun o ho => ?_
    cases o with
    | dispatched e => exact absurd ho (by simp [Obs.Quiet])
    | emitted | offered | released => rfl
  · refine h.filterMap fun o ho => ?_
    cases o with
    | emitted t x =>
      have hdata : x.kind = .data := ho
      exact if_neg fun hx => absurd (hdata.symm.trans hx.2) (by simp)
    | dispatched | offered | released => rfl

theorem quiet_enqueue (sim : Simulation) (s : State) (p : PortId) (x : Packet) :
    Quiet s (s.enqueue sim p x) := by
  obtain ⟨room, h⟩ := enqueue_trace sim s p x
  exact Quiet.cons h trivial

theorem quiet_sendPacket (sim : Simulation) (s : State) (f : FlowId) (idx : Nat) :
    Quiet s (s.sendPacket sim f idx) := by
  have hemit : Quiet s (((s.markSent sim f idx).pushAfter sim.transport.rtoNs
      (.timeout f idx (s.pktAttempt f idx))).log (.emitted s.now (dataPacket sim s f idx))) := by
    refine Quiet.cons (o := .emitted s.now (dataPacket sim s f idx)) (by simp) ?_
    show (dataPacket sim s f idx).kind = .data
    rfl
  exact hemit.trans (quiet_enqueue sim _ _ _)

theorem quiet_trySend (sim : Simulation) (s : State) (f : FlowId) : Quiet s (s.trySend sim f) := by
  refine trySend_rule (P := Quiet s) (Q := Quiet s) (fun _ h _ => h) ?_ ?_ ?_ ?_
    (fun _ => Quiet.refl s) (Quiet.refl s)
  · intro s' h _ _
    unfold waitTurn
    split
    · exact h
    · exact h.trans (Quiet.of_eq rfl)
  · exact fun _ _ _ h _ _ _ => h.trans (Quiet.of_eq rfl)
  · intro s' idx head count h _ _ _
    refine Quiet.trans ?_ (quiet_sendPacket sim _ f idx)
    exact h.trans (Quiet.of_eq rfl)
  · intro s' head count h _ _ _ _
    refine Quiet.trans ?_ (quiet_sendPacket sim _ f _)
    exact h.trans (Quiet.of_eq rfl)

theorem quiet_land (s : State) (f : FlowId) (idx : Nat) : Quiet s (s.land f idx) := by
  refine Quiet.of_eq ?_
  unfold land
  split <;> rfl

theorem quiet_onAck (sim : Simulation) (s : State) (f : FlowId) (idx : Nat) :
    Quiet s (s.onAck sim f idx) := by
  unfold onAck
  split
  · exact Quiet.refl s
  · refine Quiet.trans ?_ (quiet_trySend sim _ f)
    refine Quiet.trans ?_ (quiet_land _ f idx)
    exact Quiet.of_eq rfl

theorem quiet_onTimeout (sim : Simulation) (s : State) (f : FlowId) (idx a : Nat) :
    Quiet s (s.onTimeout sim f idx a) := by
  unfold onTimeout
  split
  · exact Quiet.refl s
  · split
    · exact Quiet.refl s
    · split
      · exact Quiet.refl s
      · split
        · exact (quiet_land s f idx).trans (Quiet.of_eq rfl)
        · refine Quiet.trans ?_ (quiet_trySend sim _ f)
          exact (quiet_land s f idx).trans (Quiet.of_eq rfl)

theorem quiet_onTxComplete (sim : Simulation) (s : State) (p : PortId) :
    Quiet s (s.onTxComplete sim p) := by
  refine Quiet.of_eq ?_
  rcases onTxComplete_cases sim s p with ⟨-, h⟩ | ⟨-, h⟩ <;> rw [h] <;> rfl

theorem sameLog_completeFlow (s : State) (f : FlowId) : SameLog sim s (s.completeFlow sim f) := by
  have hfold : ∀ (l : List FlowId) (s : State), SameLog sim s (l.foldl (releaseFlow f) s) := by
    intro l
    induction l with
    | nil => exact SameLog.refl
    | cons d l ih =>
      intro s
      have hrel : SameLog sim s (releaseFlow f s d) :=
        SameLog.cons (o := .released s.now f d) (by simp) (fun _ => rfl) fun _ => rfl
      exact hrel.trans (ih _)
  have hmark : SameLog sim s (s.modifyResult f fun r =>
      { r with finishNs := s.now, complete := true }) := SameLog.of_eq rfl
  exact hmark.trans (hfold _ _)

theorem sameLog_deliver (sim : Simulation) (s : State) (f : FlowId) (idx bytes : Nat) :
    SameLog sim s (s.deliver sim f idx bytes) := by
  unfold deliver
  dsimp only
  split
  · refine SameLog.trans ?_ (sameLog_completeFlow _ f)
    exact SameLog.of_eq rfl
  · exact SameLog.of_eq rfl

/-- `s'` has the tally of `s`. -/
structure SameTally (sim : Simulation) (s s' : State) : Prop where
  log : SameLog sim s s'
  finish : ∀ f, (s'.result f).finishNs = (s.result f).finishNs
  complete : ∀ f, (s'.result f).complete = (s.result f).complete
  bytes : ∀ f, (s'.result f).deliveredBytes = (s.result f).deliveredBytes
  delivered : ∀ f i, (s'.pkt f i).delivered = (s.pkt f i).delivered

theorem SameRecord.tally (h : SameRecord s s') (hlog : SameLog sim s s') : SameTally sim s s' where
  log := hlog
  finish f := (FlowResult.outcome_inj (h.outcome f)).1
  complete f := (FlowResult.outcome_inj (h.outcome f)).2.2.2.1
  bytes f := (FlowResult.outcome_inj (h.outcome f)).2.1
  delivered := h.delivered

theorem SameTally.trans (h : SameTally sim s s') (h' : SameTally sim s' s'') :
    SameTally sim s s'' where
  log := h.log.trans h'.log
  finish f := (h'.finish f).trans (h.finish f)
  complete f := (h'.complete f).trans (h.complete f)
  bytes f := (h'.bytes f).trans (h.bytes f)
  delivered f i := (h'.delivered f i).trans (h.delivered f i)

theorem sameTally_onTimeout (s : State) (g : FlowId) (idx a : Nat) :
    SameTally sim s (s.onTimeout sim g idx a) := by
  have hr : SameReceipt s (s.onTimeout sim g idx a) := sameReceipt_onTimeout s g idx a
  refine ⟨(quiet_onTimeout sim s g idx a).sameLog sim, hr.finish, hr.complete, fun f => ?_, hr.delivered⟩
  have hland : ∀ f, ((s.land g idx).result f).deliveredBytes = (s.result f).deliveredBytes :=
    fun f => (FlowResult.outcome_inj ((sameRecord_land s g idx).outcome f)).2.1
  unfold onTimeout
  split
  · rfl
  · split
    · rfl
    · split
      · rfl
      · split
        · rw [giveUp_result]
          by_cases hf : f = g
          · subst hf
            rw [Function.update_self]
            exact hland f
          · rw [Function.update_of_ne hf]
            exact hland f
        · rw [(FlowResult.outcome_inj ((trySend_frame _ g).outcome f)).2.1]
          exact hland f

/-- Only data that arrives at a host touches the tally. -/
theorem dispatch_tally (sim : Simulation) (policy : RoutingPolicy) (s : State) (b : EventBody) :
    (∃ p x, b = .arrive p x ∧
      (sim.fabric.node (sim.fabric.port p).peerNode).isHost = true ∧ x.kind = .data) ∨
    SameTally sim s (s.dispatch sim policy b) ∧ Quiet s (s.dispatch sim policy b) := by
  cases b with
  | inject f =>
    have hquiet : Quiet s (s.onInject sim f) := by
      refine Quiet.trans ?_ (quiet_trySend sim _ f)
      exact Quiet.of_eq rfl
    exact Or.inr ⟨(sameRecord_onInject s f).tally (hquiet.sameLog sim), hquiet⟩
  | txComplete p =>
    have hquiet := quiet_onTxComplete sim s p
    exact Or.inr ⟨(sameRecord_onTxComplete s p).tally (hquiet.sameLog sim), hquiet⟩
  | timeout f idx a => exact Or.inr ⟨sameTally_onTimeout s f idx a, quiet_onTimeout sim s f idx a⟩
  | arrive p x =>
    cases hh : (sim.fabric.node (sim.fabric.port p).peerNode).isHost with
    | false =>
      refine Or.inr ?_
      show SameTally sim s (s.onArrive sim policy p x) ∧ Quiet s (s.onArrive sim policy p x)
      rw [onArrive_switch hh]
      have hquiet := quiet_enqueue sim s (nextPort sim policy s p x) (forwarded p x)
      exact ⟨(sameRecord_enqueue s _ _).tally (hquiet.sameLog sim), hquiet⟩
    | true =>
      cases hk : x.kind with
      | data => exact Or.inl ⟨p, x, rfl, hh, hk⟩
      | ack =>
        refine Or.inr ?_
        show SameTally sim s (s.onArrive sim policy p x) ∧ Quiet s (s.onArrive sim policy p x)
        rw [onArrive_ack hh hk]
        have hcount : SameTally sim s (s.countAckDelivered x.bytes) :=
          ⟨SameLog.of_eq rfl, fun _ => rfl, fun _ => rfl, fun _ => rfl, fun _ _ => rfl⟩
        have hquiet := quiet_onAck sim (s.countAckDelivered x.bytes) x.flow x.index
        refine ⟨hcount.trans ((sameRecord_onAck _ _ _).tally (hquiet.sameLog sim)), Quiet.trans ?_ hquiet⟩
        exact Quiet.of_eq rfl

/-! ## One delivery -/

theorem completeFlow_tally (sim : Simulation) (s : State) (f g : FlowId) :
    ((s.completeFlow sim f).result g).deliveredBytes = (s.result g).deliveredBytes ∧
      ((s.completeFlow sim f).result g).complete =
        (if g = f then true else (s.result g).complete) ∧
      ((s.completeFlow sim f).result g).finishNs =
        (if g = f then s.now else (s.result g).finishNs) ∧
      ∀ i, ((s.completeFlow sim f).pkt g i).delivered = (s.pkt g i).delivered := by
  obtain ⟨hrec, -, -⟩ := completeFlow_spec sim s f
  obtain ⟨hfin, hbytes, -, hcomp, -⟩ := FlowResult.outcome_inj (hrec.outcome g)
  refine ⟨?_, ?_, ?_, hrec.delivered g⟩
  · rw [hbytes]
    by_cases hg : g = f
    · subst hg; simp
    · simp [hg]
  · rw [hcomp]
    by_cases hg : g = f
    · subst hg; simp
    · simp [hg]
  · rw [hfin]
    by_cases hg : g = f
    · subst hg; simp
    · simp [hg]

theorem onDataArrival_eq (sim : Simulation) (s : State) (f : FlowId) (idx bytes a : Nat) :
    s.onDataArrival sim f idx bytes a =
      (if ((s.countDelivered bytes).pkt f idx).delivered then s.countDelivered bytes
        else (s.countDelivered bytes).deliver sim f idx bytes).sendAck sim f idx a := rfl

/-- What the first copy of a packet does to the tally. -/
theorem deliver_tally (sim : Simulation) (s : State) (f : FlowId) (idx bytes : Nat) (g : FlowId) :
    ((s.deliver sim f idx bytes).result g).deliveredBytes =
        (if g = f then (s.result f).deliveredBytes + bytes else (s.result g).deliveredBytes) ∧
      ((s.deliver sim f idx bytes).result g).complete =
        (if g = f ∧ (s.result f).packetsDelivered + 1 = sim.packetsTotal f then true
          else (s.result g).complete) ∧
      ((s.deliver sim f idx bytes).result g).finishNs =
        (if g = f ∧ (s.result f).packetsDelivered + 1 = sim.packetsTotal f then s.now
          else (s.result g).finishNs) ∧
      ∀ i, ((s.deliver sim f idx bytes).pkt g i).delivered =
        if g = f ∧ i = idx then true else (s.pkt g i).delivered := by
  have hpkt : ∀ i, ((s.modifyPkt f idx fun st => { st with delivered := true }).pkt g i).delivered =
      if g = f ∧ i = idx then true else (s.pkt g i).delivered := by
    intro i
    by_cases hg : g = f
    · subst hg
      by_cases hi : i = idx
      · subst hi; simp
      · simp [hi]
    · simp [hg]
  unfold deliver
  dsimp only
  split
  · next hall =>
    rw [modifyResult_result, Function.update_self] at hall
    obtain ⟨h1, h2, h3, h4⟩ := completeFlow_tally sim
      ((s.modifyPkt f idx fun st => { st with delivered := true }).modifyResult f fun r =>
        { r with
          packetsDelivered := r.packetsDelivered + 1,
          deliveredBytes := r.deliveredBytes + bytes }) f g
    refine ⟨h1.trans ?_, h2.trans ?_, h3.trans ?_, fun i => (h4 i).trans (hpkt i)⟩
    all_goals
      by_cases hg : g = f
      · subst hg
        simp [show (s.result g).packetsDelivered + 1 = sim.packetsTotal g from hall]
      · simp [hg]
  · next hpart =>
    rw [modifyResult_result, Function.update_self] at hpart
    have hpart' : (s.result f).packetsDelivered + 1 ≠ sim.packetsTotal f := hpart
    refine ⟨?_, ?_, ?_, hpkt⟩
    all_goals
      by_cases hg : g = f
      · subst hg; simp [hpart']
      · simp [hg]

theorem deliver_now (s : State) (f : FlowId) (idx bytes : Nat) :
    (s.deliver sim f idx bytes).now = s.now := by
  unfold deliver
  dsimp only
  split
  · exact (foldl_releaseFlow_start f (sim.dependents f) _ f).1
  · rfl

theorem acks_sendAck (s : State) (f : FlowId) (idx a : Nat) (g : FlowId) :
    (s.sendAck sim f idx a).acks g = if g = f then (s.now, idx) :: s.acks g else s.acks g := by
  unfold sendAck
  dsimp only
  rw [(Quiet.sameLog sim (quiet_enqueue sim _ _ _)).acks]
  unfold State.acks
  show (Obs.emitted s.now (ackPacket sim s f idx a) :: s.trace).filterMap (Obs.acking g) = _
  by_cases hg : g = f
  · subst hg
    have hack : Obs.acking g (.emitted s.now (ackPacket sim s g idx a)) = some (s.now, idx) :=
      if_pos ⟨rfl, rfl⟩
    rw [List.filterMap_cons_some hack, if_pos rfl]
  · have hnone : Obs.acking g (.emitted s.now (ackPacket sim s f idx a)) = none :=
      if_neg fun h => hg h.1.symm
    rw [List.filterMap_cons_none hnone, if_neg hg]

theorem sendAck_deliveries (s : State) (f : FlowId) (idx a : Nat) (g : FlowId) :
    (s.sendAck sim f idx a).deliveries sim g = s.deliveries sim g := by
  unfold sendAck
  dsimp only
  rw [(Quiet.sameLog sim (quiet_enqueue sim _ _ _)).deliveries]
  unfold State.deliveries
  exact List.filterMap_cons_none rfl

end State

namespace Tally

variable {sim : Simulation} {policy : RoutingPolicy} {s s' : State} {f : FlowId}

theorem congr (h : Tally sim s f) (hs : SameTally sim s s') : Tally sim s' f := by
  have hset : s'.arrivedSet sim f = s.arrivedSet sim f := by
    unfold arrivedSet
    rw [hs.log.deliveries]
  refine ⟨?_, ?_, ?_, ?_, ?_⟩
  · intro idx
    rw [hs.delivered, hset]
    exact h.bits idx
  · rw [hset]
    exact h.range
  · rw [hs.bytes, hset]
    exact h.bytes
  · rw [hs.log.acks, hs.log.deliveries]
    exact h.acks
  · rw [hs.complete, hs.finish, hs.log.deliveries]
    exact h.finish

theorem begin (sim : Simulation) (leftover : State) (f : FlowId) :
    Tally sim (sim.beginRun leftover) f where
  bits := by
    intro idx
    show false = true ↔ idx ∈ (∅ : Finset Nat)
    simp
  range := fun idx h => absurd h (Finset.notMem_empty idx)
  bytes := rfl
  acks := rfl
  finish := fun h => absurd h (by simp [Simulation.beginRun])

end Tally

/-- A data packet that arrives has the size its flow prescribes. -/
theorem Simulation.Reachable.data_bytes {sim : Simulation} {policy : RoutingPolicy} {s : State}
    (hs : sim.Reachable policy s) {p : PortId} {x : Packet} (hx : x ∈ s.onLink p)
    (hk : x.kind = .data) : x.bytes = (sim.spec x.flow).packetBytes x.index := by
  obtain ⟨t, x₀, ht, hcore⟩ := hs.genuine p x hx
  obtain ⟨hflow, hindex, hbytes, hkind, -, -⟩ := Packet.core_inj hcore
  have h₀ := hs.numbered.bytes (t, x₀) (mem_emissions.mpr ht)
  rw [← hbytes, ← hflow, ← hindex]
  refine h₀.trans ?_
  unfold wireBytes
  rw [hkind, hk]

namespace Tally

variable {sim : Simulation} {policy : RoutingPolicy} {s s' : State} {f g : FlowId}

/-- The state `s'` after packet `idx` of flow `g` arrived in `s` at time `t`. -/
structure Arrival (sim : Simulation) (s s' : State) (g : FlowId) (idx t : Nat) : Prop where
  deliveries : ∀ f, s'.deliveries sim f =
    if f = g then (t, idx) :: s.deliveries sim f else s.deliveries sim f
  acks : ∀ f, s'.acks f = if f = g then (t, idx) :: s.acks f else s.acks f
  bits : ∀ f i, (s'.pkt f i).delivered =
    if f = g ∧ i = idx then true else (s.pkt f i).delivered
  bytes : ∀ f, (s'.result f).deliveredBytes =
    if f = g ∧ (s.pkt g idx).delivered = false then
      (s.result f).deliveredBytes + (sim.spec g).packetBytes idx
    else (s.result f).deliveredBytes
  finish : ∀ f, (s'.result f).complete = (s.result f).complete ∧
      (s'.result f).finishNs = (s.result f).finishNs ∨
    f = g ∧ (s.pkt g idx).delivered = false ∧
      (s.result g).packetsDelivered + 1 = sim.packetsTotal g ∧ (s'.result g).finishNs = t

theorem Arrival.arrivedSet {idx t : Nat} (ha : Arrival sim s s' g idx t) (f : FlowId) :
    s'.arrivedSet sim f =
      if f = g then insert idx (s.arrivedSet sim f) else s.arrivedSet sim f := by
  unfold State.arrivedSet
  rw [ha.deliveries]
  split
  · rw [List.map_cons, List.toFinset_cons]
  · rfl

/-- A duplicate is in the tally already, anything else is added to it. -/
theorem arrival (h : ∀ f, Tally sim s f) (hrecv : Receiver sim s g) {idx t : Nat}
    (hidx : idx < sim.packetsTotal g) (ha : Arrival sim s s' g idx t) (f : FlowId) :
    Tally sim s' f := by
  have hset := ha.arrivedSet f
  by_cases hf : f = g
  · subst hf
    rw [if_pos rfl] at hset
    refine ⟨fun i => ?_, fun i hi => ?_, ?_, ?_, fun hc => ?_⟩
    · rw [ha.bits, hset, Finset.mem_insert]
      by_cases hi : i = idx
      · simp [hi]
      · rw [if_neg fun h => hi h.2, (h f).bits]
        simp [hi]
    · rw [hset] at hi
      rcases Finset.mem_insert.mp hi with rfl | hi
      · exact hidx
      · exact (h f).range i hi
    · rw [ha.bytes, hset]
      cases hd : (s.pkt f idx).delivered with
      | true =>
        rw [if_neg (by simp), Finset.insert_eq_of_mem (((h f).bits idx).mp hd)]
        exact (h f).bytes
      | false =>
        have hnew : idx ∉ s.arrivedSet sim f := by
          rw [← (h f).bits, hd]
          simp
        rw [if_pos ⟨rfl, rfl⟩, Finset.sum_insert hnew, (h f).bytes, Nat.add_comm]
    · rw [ha.acks, ha.deliveries, if_pos rfl, if_pos rfl, (h f).acks]
    · rw [ha.deliveries, if_pos rfl]
      rcases ha.finish f with ⟨hcs, hfs⟩ | ⟨-, hd, hall, hfin⟩
      · rw [hcs] at hc
        rw [hfs]
        exact ((h f).finish hc).cons _
      · have hnew : idx ∉ s.arrivedSet sim f := by
          rw [← (h f).bits, hd]
          simp
        have hcount := (hrecv.count_deliver hidx hd).symm.trans hall
        rw [hfin]
        refine ⟨[], idx, s.deliveries sim f, rfl, ?_, fun j hj => ?_⟩
        · exact fun hmem => hnew (List.mem_toFinset.mpr hmem)
        · have hbit := Nat.count_iff_forall.mp hcount j hj
          by_cases hji : j = idx
          · exact Or.inl hji
          · rw [Function.update_of_ne hji] at hbit
            exact Or.inr (List.mem_toFinset.mp (((h f).bits j).mp hbit))
  · rw [if_neg hf] at hset
    refine ⟨fun i => ?_, ?_, ?_, ?_, fun hc => ?_⟩
    · rw [ha.bits, if_neg fun h => hf h.1, hset]
      exact (h f).bits i
    · rw [hset]
      exact (h f).range
    · rw [ha.bytes, if_neg fun h => hf h.1, hset]
      exact (h f).bytes
    · rw [ha.acks, ha.deliveries, if_neg hf, if_neg hf]
      exact (h f).acks
    · rw [ha.deliveries, if_neg hf]
      rcases ha.finish f with ⟨hcs, hfs⟩ | ⟨hfg, -⟩
      · rw [hcs] at hc
        rw [hfs]
        exact (h f).finish hc
      · exact absurd hfg hf

/-- The arrival of a data packet at its host, as an `Arrival`. -/
theorem onArrive_arrival (hs : sim.Reachable policy s) {e : Event} {queue : EventQueue}
    (hpop : s.queue.pop = some (e, queue)) {p : PortId} {x : Packet} (hb : e.body = .arrive p x)
    (hh : (sim.fabric.node (sim.fabric.port p).peerNode).isHost = true) (hk : x.kind = .data) :
    Arrival sim s ((s.advance e queue).dispatch sim policy e.body) x.flow x.index e.time := by
  have hbytes := hs.data_bytes (mem_onLink_of_arrive hpop hb) hk
  rw [hb]
  show Arrival sim s ((s.advance e queue).onArrive sim policy p x) x.flow x.index e.time
  rw [onArrive_data hh hk]
  have hlog : ∀ f, ((s.advance e queue).countDelivered x.bytes).deliveries sim f =
      if f = x.flow then (e.time, x.index) :: s.deliveries sim f else s.deliveries sim f := by
    intro f
    have hobs := delivery_arrive sim f hb
    show (Obs.dispatched e :: s.trace).filterMap (Obs.delivery sim f) = _
    by_cases hf : f = x.flow
    · rw [if_pos ⟨hh, hf.symm, hk⟩] at hobs
      rw [List.filterMap_cons_some hobs, if_pos hf]
      rfl
    · rw [if_neg fun h => hf h.2.1.symm] at hobs
      rw [List.filterMap_cons_none hobs, if_neg hf]
      rfl
  have hacks : ∀ f, ((s.advance e queue).countDelivered x.bytes).acks f = s.acks f :=
    fun f => List.filterMap_cons_none rfl
  have hnow : ((s.advance e queue).countDelivered x.bytes).now = e.time := rfl
  have hres : ((s.advance e queue).countDelivered x.bytes).result = s.result := rfl
  have hpkt : ((s.advance e queue).countDelivered x.bytes).pkt = s.pkt := rfl
  rw [onDataArrival_eq]
  generalize (s.advance e queue).countDelivered x.bytes = s₁ at hlog hacks hnow hres hpkt ⊢
  have hrec : ∀ s₂ : State, SameRecord s₂ (s₂.sendAck sim x.flow x.index x.tag.attempt) :=
    fun s₂ => sameRecord_sendAck s₂ x.flow x.index x.tag.attempt
  rw [hpkt]
  cases hd : (s.pkt x.flow x.index).delivered with
  | true =>
    rw [if_pos rfl]
    refine ⟨fun f => ?_, fun f => ?_, fun f i => ?_, fun f => ?_, fun f => Or.inl ?_⟩
    · rw [sendAck_deliveries]
      exact hlog f
    · rw [acks_sendAck, hacks, hnow]
    · rw [(hrec s₁).delivered, hpkt]
      by_cases hi : f = x.flow ∧ i = x.index
      · obtain ⟨rfl, rfl⟩ := hi
        simp [hd]
      · rw [if_neg hi]
    · rw [if_neg (by simp [hd]), ← hres]
      exact (FlowResult.outcome_inj ((hrec s₁).outcome f)).2.1
    · rw [← hres]
      have h := FlowResult.outcome_inj ((hrec s₁).outcome f)
      exact ⟨h.2.2.2.1, h.1⟩
  | false =>
    rw [if_neg (by simp)]
    have htally := deliver_tally sim s₁ x.flow x.index x.bytes
    have hlog₂ := sameLog_deliver sim s₁ x.flow x.index x.bytes
    have hnow₂ : (s₁.deliver sim x.flow x.index x.bytes).now = s₁.now := deliver_now ..
    generalize s₁.deliver sim x.flow x.index x.bytes = s₂ at htally hlog₂ hnow₂ ⊢
    refine ⟨fun f => ?_, fun f => ?_, fun f i => ?_, fun f => ?_, fun f => ?_⟩
    · rw [sendAck_deliveries, hlog₂.deliveries]
      exact hlog f
    · rw [acks_sendAck, hlog₂.acks, hacks, hnow₂, hnow]
    · rw [(hrec s₂).delivered, (htally f).2.2.2, hpkt]
    · rw [(FlowResult.outcome_inj ((hrec s₂).outcome f)).2.1, (htally f).1, hres, hbytes]
      by_cases hf : f = x.flow
      · rw [if_pos hf, if_pos ⟨hf, hd⟩, hf]
      · rw [if_neg hf, if_neg fun h => hf h.1]
    · have h := FlowResult.outcome_inj ((hrec s₂).outcome f)
      obtain ⟨-, hc, hfin, -⟩ := htally f
      rw [hres] at hc hfin
      rw [h.2.2.2.1, hc]
      by_cases hall : f = x.flow ∧ (s.result x.flow).packetsDelivered + 1 = sim.packetsTotal x.flow
      · rw [if_pos hall, hnow] at hfin
        obtain ⟨rfl, hall⟩ := hall
        exact Or.inr ⟨rfl, hd, hall, h.1.trans hfin⟩
      · rw [if_neg hall] at hfin ⊢
        exact Or.inl ⟨rfl, h.1.trans hfin⟩

theorem step (h : ∀ f, Tally sim s f) (hs : sim.Reachable policy s) {e : Event}
    {queue : EventQueue} (hpop : s.queue.pop = some (e, queue)) (f : FlowId) :
    Tally sim ((s.advance e queue).dispatch sim policy e.body) f := by
  by_cases hdata : ∃ p x, e.body = .arrive p x ∧
      (sim.fabric.node (sim.fabric.port p).peerNode).isHost = true ∧ x.kind = .data
  · obtain ⟨p, x, hb, hh, hk⟩ := hdata
    have hseq := (hs.books.arrived hs (mem_onLink_of_arrive hpop hb)).1 hk
    have hidx : x.index < sim.packetsTotal x.flow :=
      lt_of_lt_of_le hseq (hs.books.ledger x.flow).seq_le
    exact arrival h (hs.receiver x.flow) hidx (onArrive_arrival hs hpop hb hh hk) f
  · rcases dispatch_tally sim policy (s.advance e queue) e.body with hd | ⟨hsame, -⟩
    · exact absurd hd hdata
    · refine (h f).congr (SameTally.trans ?_ hsame)
      refine ⟨SameLog.cons (o := .dispatched e) rfl (fun g => ?_) fun _ => rfl, fun _ => rfl,
        fun _ => rfl, fun _ => rfl, fun _ _ => rfl⟩
      exact delivery_eq_none fun p x hb hh hk => hdata ⟨p, x, hb, hh, hk⟩

end Tally

theorem Simulation.Reachable.tally {sim : Simulation} {policy : RoutingPolicy} {s : State}
    (h : sim.Reachable policy s) (f : FlowId) : Tally sim s f :=
  Simulation.Reachable.invariant (P := fun s => ∀ f, Tally sim s f) (Tally.begin sim)
    (fun _ _ _ hs ih hpop => Tally.step ih hs hpop) h f

end FabricSim
