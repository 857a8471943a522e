import FabricSim.Core.Attempts
import FabricSim.Core.Barrier
import FabricSim.Core.Conservation
import FabricSim.Core.LinkServer
import FabricSim.Core.Timeout

/-!
# A run without drops

Retransmissions are the transmissions of a later attempt (`retransmitted`), only
a live timer starts a later attempt or gives a flow up, and a live timer tells of
a drop (`live_timer`). So a run that has dropped nothing has retransmitted
nothing, and none of its flows has failed (`undisturbed`).
-/

namespace FabricSim

open State

/-- A transmission of any attempt but the first. -/
def again (a : Nat × Packet) : Bool := a.2.kind = .data && decide (0 < a.2.attempt)

namespace State

variable {sim : Simulation} {policy : RoutingPolicy} {s s' : State} {f : FlowId}

theorem retransmitted_enqueue (sim : Simulation) (s : State) (p : PortId) (x : Packet) :
    (s.enqueue sim p x).stats.packetsRetransmitted = s.stats.packetsRetransmitted := by
  rcases enqueue_cases s p x sim with ⟨-, h⟩ | ⟨queue, -, ⟨-, h⟩ | ⟨-, h⟩⟩ <;> rw [h]
  · unfold drop
    cases x.kind <;> rfl
  · rfl
  · rfl

theorem retransmitted_sendPacket (sim : Simulation) (s : State) (f : FlowId) (idx : Nat) :
    (s.sendPacket sim f idx).stats.packetsRetransmitted =
      s.stats.packetsRetransmitted + if 0 < s.pktAttempt f idx then 1 else 0 := by
  unfold sendPacket
  rw [retransmitted_enqueue]
  show (s.countRetx f idx).stats.packetsRetransmitted = _
  unfold countRetx
  split <;> rfl

/-- The counter of retransmissions counts them. -/
def Retransmitted (s : State) : Prop :=
  s.stats.packetsRetransmitted = s.emissions.countP again

theorem Retransmitted.congr (h : Retransmitted s)
    (hcount : s'.stats.packetsRetransmitted = s.stats.packetsRetransmitted)
    (hem : s'.emissions = s.emissions) : Retransmitted s' := by
  unfold Retransmitted
  rw [hcount, hem]
  exact h

theorem Retransmitted.micro (h : Retransmitted s) (hm : Micro sim f s s') : Retransmitted s' := by
  cases hm with
  | send idx =>
    unfold Retransmitted
    rw [retransmitted_sendPacket, emissions_sendPacket, List.countP_cons, h]
    by_cases hpos : 0 < s.pktAttempt f idx
    · simp [again, dataPacket, hpos]
    · simp [again, dataPacket, hpos]
  | ack idx a =>
    unfold Retransmitted sendAck
    rw [retransmitted_enqueue]
    have hem := emissions_sendAck sim s f idx a
    unfold sendAck at hem
    rw [hem, List.countP_cons_of_neg (by simp [again, ackPacket])]
    exact h
  | tx u => exact h
  | pkt idx u => exact h
  | result u _ => exact h
  | attempt idx => exact h
  | ring slot idx => exact h
  | wake t _ => exact h
  | release d _ => exact h.congr rfl (emissions_releaseFlow s f d)

theorem pktAttempt_trySend (s : State) (g : FlowId) :
    (s.trySend sim g).pktAttempt = s.pktAttempt := by
  refine trySend_rule (P := fun s' => s'.pktAttempt = s.pktAttempt)
    (Q := fun s' => s'.pktAttempt = s.pktAttempt) (fun _ h _ => h) ?_ ?_ ?_ ?_ (fun _ => rfl) rfl
  · intro s' h _ _
    unfold waitTurn
    split <;> exact h
  · exact fun _ _ _ h _ _ _ => h
  · intro s' idx head count h _ _ _
    rw [sendPacket_pktAttempt]
    exact h
  · intro s' head count h _ _ _ _
    rw [sendPacket_pktAttempt]
    exact h

theorem pktAttempt_land (s : State) (g : FlowId) (idx : Nat) :
    (s.land g idx).pktAttempt = s.pktAttempt := by
  unfold land
  split <;> rfl

/-- Only a timer starts another attempt. -/
theorem dispatch_pktAttempt (s : State) {b : EventBody} (hb : ∀ g idx a, b ≠ .timeout g idx a) :
    (s.dispatch sim policy b).pktAttempt = s.pktAttempt := by
  cases b with
  | inject g => exact pktAttempt_trySend _ g
  | txComplete p =>
    show (s.onTxComplete sim p).pktAttempt = _
    funext f
    exact (SameAttempts.onTxComplete s p).number
  | timeout g idx a => exact absurd rfl (hb g idx a)
  | arrive p x =>
    show (s.onArrive sim policy p x).pktAttempt = _
    cases hh : (sim.fabric.node (sim.fabric.port p).peerNode).isHost with
    | false => rw [onArrive_switch hh, enqueue_pktAttempt]
    | true =>
      cases hk : x.kind with
      | ack =>
        rw [onArrive_ack hh hk]
        unfold onAck
        split
        · rfl
        · rw [pktAttempt_trySend, pktAttempt_land]
          rfl
      | data =>
        rw [onArrive_data hh hk]
        funext f
        exact (SameAttempts.onDataArrival s x.flow x.index x.bytes x.tag.attempt).number

end State

theorem Simulation.Reachable.retransmitted {sim : Simulation} {policy : RoutingPolicy} {s : State}
    (h : sim.Reachable policy s) : Retransmitted s := by
  refine Simulation.Reachable.invariant (P := Retransmitted) (fun _ => rfl) ?_ h
  intro s e queue _ ih hpop
  have hadv : Retransmitted (s.advance e queue) := ih.congr rfl (emissions_advance e queue)
  cases hb : e.body with
  | txComplete p =>
    show Retransmitted ((s.advance e queue).onTxComplete sim p)
    refine hadv.congr ?_ (emissions_onTxComplete sim _ p)
    rcases onTxComplete_cases sim (s.advance e queue) p with ⟨-, h⟩ | ⟨-, h⟩
    · rw [h]
      rfl
    · rw [h]
      rfl
  | inject f =>
    exact (onInject_micros _ f).preserve (P := Retransmitted) (fun _ _ hm h => h.micro hm) hadv
  | timeout f idx a =>
    exact (onTimeout_micros _ f idx a).preserve (P := Retransmitted) (fun _ _ hm h => h.micro hm)
      hadv
  | arrive p x =>
    show Retransmitted ((s.advance e queue).onArrive sim policy p x)
    cases hh : (sim.fabric.node (sim.fabric.port p).peerNode).isHost with
    | false =>
      rw [onArrive_switch hh]
      exact hadv.congr (retransmitted_enqueue sim _ _ _) (emissions_enqueue sim _ _ _)
    | true =>
      cases hk : x.kind with
      | ack =>
        rw [onArrive_ack hh hk]
        exact (onAck_micros _ _ _).preserve (P := Retransmitted) (fun _ _ hm h => h.micro hm)
          (hadv.congr rfl rfl)
      | data =>
        rw [onArrive_data hh hk]
        exact (onDataArrival_micros _ _ _ _ _).preserve (P := Retransmitted)
          (fun _ _ hm h => h.micro hm) (hadv.congr rfl rfl)

/-! ## Drops are counted -/

/-- Port `p` refuses a packet. -/
def Obs.refusal (p : PortId) : Obs → Bool
  | .offered _ q _ room => decide (q = p) && !room
  | _ => false

/-- Each port counts the packets it refuses. -/
def DropsCounted (s : State) : Prop :=
  ∀ p, (s.port p).packetsDropped = s.trace.countP (Obs.refusal p)

namespace DropsCounted

variable {sim : Simulation} {policy : RoutingPolicy} {s s' : State} {f : FlowId}

theorem congr (h : DropsCounted s)
    (htr : ∀ p, s'.trace.countP (Obs.refusal p) = s.trace.countP (Obs.refusal p))
    (hport : ∀ p, (s'.port p).packetsDropped = (s.port p).packetsDropped) : DropsCounted s' := by
  intro p
  rw [hport, htr]
  exact h p

theorem enqueue (h : DropsCounted s) (q : PortId) (y : Packet) :
    DropsCounted (s.enqueue sim q y) := by
  intro p
  rcases enqueue_cases s q y sim with ⟨-, h'⟩ | ⟨queue, -, ⟨-, h'⟩ | ⟨-, h'⟩⟩
  · rw [h', drop_trace, log_trace, drop_port, List.countP_cons]
    by_cases hp : p = q
    · subst hp
      rw [Function.update_self]
      simpa [Obs.refusal] using h p
    · rw [Function.update_of_ne hp]
      have hq : ¬ q = p := fun heq => hp heq.symm
      simpa [Obs.refusal, hq] using h p
  all_goals
    rw [h']
    by_cases hp : p = q
    · subst hp
      simpa [Obs.refusal] using h p
    · simpa [Obs.refusal, hp] using h p

theorem micro (h : DropsCounted s) (hm : Micro sim f s s') : DropsCounted s' := by
  rcases hm.net with ⟨hnet, -, -, -, l, hl, hrel⟩ | ⟨s₁, x, hnet, -, -, -, htr, rfl⟩
  · refine h.congr (fun p => ?_) fun p => by rw [hnet.port]
    have hnone : l.countP (Obs.refusal p) = 0 := by
      rw [List.countP_eq_zero]
      intro o ho
      obtain ⟨t, g, d, rfl⟩ := hrel o ho
      simp [Obs.refusal]
    rw [hl, List.countP_append, hnone, Nat.zero_add]
  · refine enqueue (h.congr (fun p => ?_) fun p => by rw [hnet.port]) _ _
    rw [htr, List.countP_cons_of_neg (by simp [Obs.refusal])]

theorem step (h : DropsCounted s) (e : Event) (queue : EventQueue) :
    DropsCounted ((s.advance e queue).dispatch sim policy e.body) := by
  have hadv : DropsCounted (s.advance e queue) := by
    refine h.congr (fun p => ?_) fun _ => rfl
    rw [advance_trace, List.countP_cons_of_neg (by simp [Obs.refusal])]
  rcases dispatch_cases sim policy (s.advance e queue) e.body with
    ⟨p, -, heq⟩ | ⟨p, x, -, -, heq⟩ | ⟨g, s₁, hnet, -, htr, -, -, -, -, -, hm, -⟩
  · rw [heq]
    refine hadv.congr (fun q => by rw [onTxComplete_trace]) fun q => ?_
    rcases onTxComplete_cases sim (s.advance e queue) p with ⟨-, h'⟩ | ⟨-, h'⟩
    all_goals
      rw [h']
      by_cases hq : q = p
      · subst hq; simp
      · simp [hq]
  · rw [heq]
    exact hadv.enqueue _ _
  · refine hm.preserve (P := DropsCounted) (fun _ _ hm h => h.micro hm) ?_
    exact hadv.congr (fun p => by rw [htr]) fun p => by rw [hnet.port]

end DropsCounted

theorem Simulation.Reachable.dropsCounted {sim : Simulation} {policy : RoutingPolicy} {s : State}
    (h : sim.Reachable policy s) : DropsCounted s :=
  Simulation.Reachable.invariant (P := DropsCounted) (fun _ _ => rfl)
    (fun _ e queue _ h _ => h.step e queue) h

/-- No port has dropped anything. -/
def NoDrops (s : State) : Prop := ∀ p, (s.port p).packetsDropped = 0

/-- No packet was refused. -/
def Lossless (s : State) : Prop := ∀ t p x, .offered t p x false ∉ s.trace

/-- No offer that found no room. -/
def Obs.roomy : Obs → Bool
  | .offered _ _ _ room => room
  | _ => true

theorem Lossless.of_all {s : State} (h : s.trace.all Obs.roomy = true) : Lossless s := by
  intro t p x hx
  exact absurd (List.all_eq_true.mp h _ hx) Bool.false_ne_true

/-- A run that is over, at no wrapped time and with no packet refused. -/
def State.quiet (s : State) : Bool := !s.wrapped && s.queue.empty && s.trace.all Obs.roomy

theorem State.of_quiet {s : State} (h : s.quiet = true) :
    s.wrapped = false ∧ s.Drained ∧ Lossless s := by
  unfold quiet at h
  simp only [Bool.and_eq_true, Bool.not_eq_true'] at h
  exact ⟨h.1.1, h.1.2, Lossless.of_all h.2⟩

theorem Simulation.Reachable.noDrops_iff {sim : Simulation} {policy : RoutingPolicy} {s : State}
    (hs : sim.Reachable policy s) : NoDrops s ↔ Lossless s := by
  have hcount : NoDrops s ↔ ∀ p, s.trace.countP (Obs.refusal p) = 0 :=
    forall_congr' fun p => by rw [hs.dropsCounted p]
  rw [hcount]
  constructor
  · intro h t p x hx
    exact List.countP_eq_zero.mp (h p) _ hx (by simp [Obs.refusal])
  · intro h p
    rw [List.countP_eq_zero]
    intro o ho hrefuse
    cases o with
    | offered t q x room =>
      obtain ⟨-, hroom⟩ : q = p ∧ room = false := by simpa [Obs.refusal] using hrefuse
      exact h t q x (hroom ▸ ho)
    | dispatched | emitted | released => exact absurd hrefuse (by simp [Obs.refusal])

theorem not_lostAttempt {sim : Simulation} {s : State}
    (h : Lossless s) {f : FlowId} {idx a : Nat} :
    ¬ LostAttempt sim s f idx a := by
  have hnone : ∀ x, ¬ Dropped s x := fun x ⟨t, p, y, hy, _⟩ => h t p y hy
  intro ⟨t, x, _, _, _, _, _, hlost⟩
  rcases hlost with hx | ⟨z, -, hz⟩
  · exact hnone x hx
  · exact hnone z hz

/-! ## No drop, no retransmission -/

/-- Every packet is on its first attempt, and no flow was given up. -/
structure Undisturbed (s : State) : Prop where
  attempt : ∀ f idx, s.pktAttempt f idx = 0
  failed : ∀ f, (s.tx f).failed = false

/-- Only a timer of a packet not acked disturbs a run. -/
theorem Undisturbed.step {sim : Simulation} {policy : RoutingPolicy} {s : State} {e : Event}
    {queue : EventQueue} (h : Undisturbed s)
    (hquiet : ∀ f idx a, e.body = .timeout f idx a → (s.pkt f idx).acked = true) :
    Undisturbed ((s.advance e queue).dispatch sim policy e.body) := by
  by_cases htimer : ∃ f idx a, e.body = .timeout f idx a
  · obtain ⟨f, idx, a, hb⟩ := htimer
    have hacked := hquiet f idx a hb
    rw [hb]
    have hsame : (s.advance e queue).onTimeout sim f idx a = s.advance e queue := by
      unfold onTimeout
      exact if_pos hacked
    show Undisturbed ((s.advance e queue).onTimeout sim f idx a)
    rw [hsame]
    exact ⟨h.attempt, h.failed⟩
  · have hother : ∀ f idx a, e.body ≠ .timeout f idx a :=
      fun f idx a hb => htimer ⟨f, idx, a, hb⟩
    constructor
    · intro f idx
      rw [dispatch_pktAttempt _ hother]
      exact h.attempt f idx
    · intro f
      rw [dispatch_failed _ fun idx a => hother f idx a]
      exact h.failed f

theorem Simulation.Reachable.undisturbed {sim : Simulation} {policy : RoutingPolicy} {s : State}
    {bound : Nat} (h : sim.Reachable policy s) (hr : sim.Routed) (hm : policy.Member)
    (hsize : ∀ x : Packet, x.flow < sim.flowCount → wireBytes sim x ≤ bound)
    (hcover : sim.TimeoutCovers bound) (hw : s.wrapped = false)
    (hnone : Lossless s) : Undisturbed s := by
  refine Simulation.Reachable.invariant (P := fun s => s.wrapped = false → Lossless s →
    Undisturbed s)
    (fun _ _ _ => ⟨fun _ _ => rfl, fun _ => rfl⟩) ?_ h hw hnone
  intro s e queue hs ih hpop hw' hnone'
  have hw := step_unwrapped hs.coherent hpop hw'
  have hnone : Lossless s := fun t p x hx => hnone' t p x (mem_trace_step hx)
  refine (ih hw hnone).step fun f idx a hb => ?_
  -- the packet is acked, so the timer does nothing
  by_contra hack
  exact not_lostAttempt hnone (live_timer hs hr hm hw hsize hcover hpop hb (by simpa using hack))

/-- With every packet on its first attempt nothing was retransmitted. -/
theorem Undisturbed.retransmitted {sim : Simulation} {policy : RoutingPolicy} {s : State}
    (h : Undisturbed s) (hs : sim.Reachable policy s) (ht : sim.transport.Accepted) :
    s.stats.packetsRetransmitted = 0 := by
  rw [hs.retransmitted, List.countP_eq_zero]
  intro b hb hagain
  simp only [again, Bool.and_eq_true, decide_eq_true_eq] at hagain
  have hmem : b.2.attempt ∈ s.attempts b.2.flow b.2.index := by
    unfold State.attempts
    exact List.mem_filterMap.mpr ⟨b, hb, if_pos ⟨hagain.1, rfl, rfl⟩⟩
  have hle := (hs.attempts ht b.2.flow).le b.2.index _ hmem
  rw [h.attempt] at hle
  omega

end FabricSim
