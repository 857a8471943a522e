import FabricSim.Core.Retries
import FabricSim.Lib.Grouping

/-!
# Every retransmission is paid for by a drop

While the timeout covers the longest trip there and back, a packet goes on to its next
attempt only when the one before was lost (`Costly`): the packet or the ack it produced
was refused by a full queue. Attempts that differ are lost in refusals that differ, so a
run retransmits no more packets than its ports have dropped, and a flow that was given
up cost as many drops as it had attempts at one packet.
-/

namespace FabricSim

open State Finset

/-! ## Refusals -/

/-- The packet a port refused. -/
def Obs.refused : Obs → Option Packet
  | .offered _ _ x room => if room then none else some x
  | _ => none

/-- The port that refused a packet. -/
def Obs.refuser : Obs → Option PortId
  | .offered _ p _ room => if room then none else some p
  | _ => none

/-- The packets that full queues refused. -/
def State.refusals (s : State) : List Packet := s.trace.filterMap Obs.refused

section Refusals

variable {sim : Simulation} {policy : RoutingPolicy} {s s' : State}

theorem LostAttempt.mono (htr : ∀ o ∈ s.trace, o ∈ s'.trace) {f : FlowId} {idx a : Nat}
    (h : LostAttempt sim s f idx a) : LostAttempt sim s' f idx a := by
  have hem : ∀ b ∈ s.emissions, b ∈ s'.emissions := fun b hb =>
    mem_emissions.mpr (htr _ (mem_emissions.mp hb))
  have hdrop : ∀ x, Dropped s x → Dropped s' x := fun x ⟨t, p, y, hy, hcore⟩ =>
    ⟨t, p, y, htr _ hy, hcore⟩
  obtain ⟨t, x, hx, hk, hf, hi, ha, hlost⟩ := h
  refine ⟨t, x, hem _ hx, hk, hf, hi, ha, hlost.imp (hdrop x) ?_⟩
  rintro ⟨z, ⟨e, p, y, he, hb, hh, hcore, hz, hrest⟩, hz'⟩
  exact ⟨z, ⟨e, p, y, htr _ he, hb, hh, hcore, hem _ hz, hrest⟩, hdrop z hz'⟩

/-- A packet is offered where it is emitted or forwarded to. -/
theorem Simulation.Reachable.offered_located {N : PortId → Packet → Prop}
    (hemit : ∀ x : Packet, x.flow < sim.flowCount → x.tag.route = [] → N (nic sim x) x)
    (hforward : ∀ s s' p x, sim.Reachable policy s → x ∈ s.onLink p →
      (sim.fabric.node (sim.fabric.port p).peerNode).isHost = false →
        N (nextPort sim policy s' p x) (forwarded p x))
    (hs : sim.Reachable policy s) {t : Nat} {p : PortId} {x : Packet} {room : Bool}
    (h : .offered t p x room ∈ s.trace) : N p x := by
  refine Simulation.Reachable.invariant
    (P := fun s => ∀ t p x room, .offered t p x room ∈ s.trace → N p x)
    (fun _ _ _ _ _ h => absurd h List.not_mem_nil) ?_ hs t p x room h
  intro s e queue hs ih hpop t p x room h
  have hadv : ∀ t p x room, .offered t p x room ∈ (s.advance e queue).trace → N p x := by
    intro t p x room h
    rw [advance_trace] at h
    rcases List.mem_cons.mp h with h | h
    · nomatch h
    · exact ih t p x room h
  rcases dispatch_cases sim policy (s.advance e queue) e.body with
    ⟨q, -, heq⟩ | ⟨q, y, hb, hsw, heq⟩ | ⟨f, s₁, hnet, -, htr, -, -, -, -, -, hmic, hb⟩
  · rw [heq, onTxComplete_trace] at h
    exact hadv t p x room h
  · obtain ⟨room', htr⟩ := enqueue_trace sim (s.advance e queue)
      (nextPort sim policy (s.advance e queue) q y) (forwarded q y)
    rw [heq, htr] at h
    rcases List.mem_cons.mp h with h | h
    · obtain ⟨-, rfl, rfl, -⟩ := Obs.offered.inj h
      exact hforward _ _ q y hs (mem_onLink_of_arrive hpop hb) hsw
    · exact hadv t p x room h
  · have hf : f < sim.flowCount := hs.endpoint_lt hpop hb
    refine hmic.preserve (P := fun s' => ∀ t p x room, .offered t p x room ∈ s'.trace →
      N p x) ?_ (htr ▸ hadv) t p x room h
    intro s₂ s₃ hmic ih t p x room h
    rcases hmic.net with ⟨-, -, -, -, l, hl, hrel⟩ | ⟨s₄, y, -, hfresh, -, -, htr₄, rfl⟩
    · rw [hl] at h
      rcases List.mem_append.mp h with h | h
      · obtain ⟨_, _, _, heq⟩ := hrel _ h
        nomatch heq
      · exact ih t p x room h
    · obtain ⟨room', htr₅⟩ := enqueue_trace sim s₄ (nic sim y) y
      rw [htr₅, htr₄] at h
      rcases List.mem_cons.mp h with h | h
      · obtain ⟨-, rfl, rfl, -⟩ := Obs.offered.inj h
        exact hemit _ (hfresh.flow ▸ hf) hfresh.route
      · rcases List.mem_cons.mp h with h | h
        · nomatch h
        · exact ih t p x room h

/-- A packet is offered to ports of the fabric only. -/
theorem Simulation.Reachable.offered_atPort (hs : sim.Reachable policy s) (hr : sim.Steered)
    (hm : policy.Member) {t : Nat} {p : PortId} {x : Packet} {room : Bool}
    (h : .offered t p x room ∈ s.trace) : AtPort sim p x :=
  Simulation.Reachable.offered_located (fun _ hf _ => AtPort.emitted hr.toWired hf)
    (fun _ _ _ _ hs hx hsw => (hs.atPort hr hm _ _ hx).next hr hm hsw) hs h

/-- Each refusal is in the counter of some port. -/
theorem Simulation.Reachable.length_refusals (hs : sim.Reachable policy s) (hr : sim.Steered)
    (hm : policy.Member) :
    s.refusals.length = ∑ p ∈ range sim.fabric.portCount, (s.port p).packetsDropped := by
  have hkey : ∀ o ∈ s.trace, ∀ p ∈ o.refuser, p < sim.fabric.portCount := by
    intro o ho p hp
    cases o with
    | offered t q x room =>
      have hq : q = p := by
        cases room with
        | true => nomatch hp
        | false => exact Option.mem_some.mp hp
      rw [← hq]
      exact (hs.offered_atPort hr hm ho).port_lt hr.toWired
    | dispatched | emitted | released => nomatch hp
  have hsame : s.refusals.length = s.trace.countP fun o => (Obs.refuser o).isSome := by
    unfold State.refusals
    rw [List.length_filterMap_eq_countP]
    refine List.countP_congr fun o _ => ?_
    cases o with
    | offered t q x room => cases room <;> simp [Obs.refused, Obs.refuser]
    | dispatched | emitted | released => simp [Obs.refused, Obs.refuser]
  rw [hsame, Grouping.countP_by_key Obs.refuser hkey]
  refine sum_congr rfl fun p _ => ?_
  rw [hs.dropsCounted p]
  refine List.countP_congr fun o _ => ?_
  cases o with
  | offered t q x room => cases room <;> simp [Obs.refuser, Obs.refusal]
  | dispatched | emitted | released => simp [Obs.refuser, Obs.refusal]

end Refusals

/-! ## What a later attempt cost -/

/-- Attempts that a flow has gone past were lost. -/
structure Costly (sim : Simulation) (s : State) (f : FlowId) : Prop where
  spent : ∀ idx a, a < s.pktAttempt f idx → LostAttempt sim s f idx a
  gaveUp : (s.tx f).failed = true →
    ∃ idx, ∀ a, a < sim.transport.maxAttempts → LostAttempt sim s f idx a

section Costly

variable {sim : Simulation} {policy : RoutingPolicy} {s : State} {bound : Nat}
  (hr : sim.Routed) (hm : policy.Member)
  (hsize : ∀ x : Packet, x.flow < sim.flowCount → wireBytes sim x ≤ bound)
  (hcover : sim.TimeoutCovers bound)

include hr hm hsize hcover

theorem Costly.step {f : FlowId} (h : Costly sim s f) (hs : sim.Reachable policy s)
    (hw : s.wrapped = false) {e : Event} {queue : EventQueue}
    (hpop : s.queue.pop = some (e, queue)) :
    Costly sim ((s.advance e queue).dispatch sim policy e.body) f := by
  have hkeep : ∀ {idx a}, LostAttempt sim s f idx a →
      LostAttempt sim ((s.advance e queue).dispatch sim policy e.body) f idx a :=
    fun hlost => hlost.mono fun o ho => mem_trace_step ho
  cases retryTurn sim policy s e queue with
  | same hnumber hfailed =>
    constructor
    · intro idx a ha
      rw [hnumber] at ha
      exact hkeep (h.spent idx a ha)
    · intro hf
      rw [hfailed] at hf
      obtain ⟨idx, hall⟩ := h.gaveUp hf
      exact ⟨idx, fun a ha => hkeep (hall a ha)⟩
  | again g i hb hack _ hnumber hfailed =>
    constructor
    · intro idx a ha
      rw [hnumber] at ha
      split at ha
      · next hgi =>
        obtain ⟨rfl, rfl⟩ := hgi
        -- the timer that moves the packet on tells of the loss of the attempt it was set for
        rcases Nat.lt_succ_iff_lt_or_eq.mp ha with hlt | rfl
        · exact hkeep (h.spent _ a hlt)
        · exact hkeep (live_timer hs hr hm hw hsize hcover hpop hb hack)
      · exact hkeep (h.spent idx a ha)
    · intro hf
      rw [hfailed] at hf
      obtain ⟨idx, hall⟩ := h.gaveUp hf
      exact ⟨idx, fun a ha => hkeep (hall a ha)⟩
  | gaveUp g i hb hack hlast hnumber hfailed =>
    constructor
    · intro idx a ha
      rw [hnumber] at ha
      exact hkeep (h.spent idx a ha)
    · intro hf
      by_cases hg : f = g
      · subst hg
        refine ⟨i, fun a ha => hkeep ?_⟩
        rcases Nat.lt_or_eq_of_le (show a ≤ s.pktAttempt f i by omega) with hlt | rfl
        · exact h.spent i a hlt
        · exact live_timer hs hr hm hw hsize hcover hpop hb hack
      · rw [hfailed, if_neg hg] at hf
        obtain ⟨idx, hall⟩ := h.gaveUp hf
        exact ⟨idx, fun a ha => hkeep (hall a ha)⟩

end Costly

/-- When no flow has failed, a drained queue means that all flows are complete. -/
theorem Simulation.Reachable.all_complete {sim : Simulation} {policy : RoutingPolicy} {s : State}
    (hs : sim.Reachable policy s) (htotal : sim.packetsExact < 2 ^ 32) (hd : s.Drained)
    (hfail : ∀ f, f < sim.flowCount → (s.tx f).failed = false) {f : FlowId}
    (hf : f < sim.flowCount) : (s.result f).complete = true := by
  induction f using Nat.strong_induction_on with
  | _ f ih =>
    have hreleased : Released sim s f := by
      cases hdep : (sim.spec f).dependsOn with
      | none => exact Or.inl hdep
      | some d =>
        have hlt : d < f := (sim.spec_accepted hf).depends_lt d hdep
        obtain ⟨t, ht⟩ := (hs.receiver d).released (ih d hlt (hlt.trans hf)) f
          ((Simulation.mem_dependents sim).mpr ⟨hf, hdep⟩)
        exact Or.inr ⟨t, d, ht⟩
    obtain ⟨-, hdelivered⟩ := (hs.awake hf).settled (hs.books.ledger f) hd hreleased (hfail f hf)
    have hrecv := hs.receiver f
    refine (hrecv.complete_iff (Simulation.packetsTotal_eq htotal hf).2).mpr ?_
    rw [hrecv.count, Nat.count_of_forall hdelivered]

end FabricSim
