import FabricSim.Core.Completion

/-!
# Dependencies are barriers

A flow that names another is released by that flow's completion and by nothing
else. `releases` is what the history says about it and `handover` what the
results say; they agree in every state (`Reachable.releases_eq`), which is at
once that the release happens, once, from the right flow, at the right time.

The times along a chain follow: a dependent starts when its predecessor
finishes, and no flow finishes before it starts (`start_le_finish`), because what
completed it was sent after the start and arrived later still.
-/

namespace FabricSim

open State

/-- The release of flow `d` that an entry of the history records: when, and by
whom. -/
def Obs.release (d : FlowId) : Obs → Option (Nat × FlowId)
  | .released t g d' => if d' = d then some (t, g) else none
  | _ => none

/-- The releases of flow `d`, latest first. -/
def State.releases (s : State) (d : FlowId) : List (Nat × FlowId) :=
  s.trace.filterMap (Obs.release d)

/-- The one release a flow is due: when the flow it names has finished. -/
def Simulation.handover (sim : Simulation) (s : State) (d : FlowId) : List (Nat × FlowId) :=
  match (sim.spec d).dependsOn with
  | none => []
  | some g => if (s.result g).complete then [((s.result g).finishNs, g)] else []

/-- Only flows of the simulation name another. -/
theorem Simulation.lt_of_dependsOn {sim : Simulation} {d g : FlowId}
    (h : (sim.spec d).dependsOn = some g) : d < sim.flowCount := by
  by_contra hge
  have hdefault : sim.spec d = default :=
    List.getD_eq_default _ _ (not_lt.mp hge)
  rw [hdefault] at h
  exact absurd h (by simp [default])

namespace State

variable {sim : Simulation} {policy : RoutingPolicy} {s s' : State}

theorem Quiet.releases (h : Quiet s s') (d : FlowId) : s'.releases d = s.releases d := by
  refine h.filterMap fun o ho => ?_
  cases o with
  | released t g d' => exact absurd ho (by simp [Obs.Quiet])
  | dispatched | emitted | offered => rfl

theorem releases_sendAck (s : State) (f : FlowId) (idx a : Nat) (d : FlowId) :
    (s.sendAck sim f idx a).releases d = s.releases d := by
  unfold sendAck
  dsimp only
  rw [(quiet_enqueue sim _ _ _).releases]
  unfold State.releases
  exact List.filterMap_cons_none rfl

theorem releases_foldl (g : FlowId) {l : List FlowId} (hl : l.Nodup) (s : State) (d : FlowId) :
    (l.foldl (releaseFlow g) s).releases d =
      if d ∈ l then (s.now, g) :: s.releases d else s.releases d := by
  induction l generalizing s with
  | nil => rfl
  | cons c l ih =>
    obtain ⟨hc, hl⟩ := List.nodup_cons.mp hl
    have hstep : (releaseFlow g s c).releases d =
        if c = d then (s.now, g) :: s.releases d else s.releases d := by
      show (Obs.released s.now g c :: s.trace).filterMap (Obs.release d) = _
      by_cases hcd : c = d
      · have hsome : Obs.release d (.released s.now g c) = some (s.now, g) := if_pos hcd
        rw [List.filterMap_cons_some hsome, if_pos hcd]
        rfl
      · have hnone : Obs.release d (.released s.now g c) = none := if_neg hcd
        rw [List.filterMap_cons_none hnone, if_neg hcd]
        rfl
    have hnow : (releaseFlow g s c).now = s.now := rfl
    rw [List.foldl_cons, ih hl, hstep, hnow]
    by_cases hcd : c = d
    · subst hcd
      simp [hc]
    · have hdc : ¬ d = c := fun h => hcd h.symm
      simp [hcd, hdc]

theorem releases_deliver (sim : Simulation) (s : State) (f : FlowId) (idx bytes : Nat)
    (d : FlowId) :
    (s.deliver sim f idx bytes).releases d =
      if (s.result f).packetsDelivered + 1 = sim.packetsTotal f ∧ d ∈ sim.dependents f then
        (s.now, f) :: s.releases d
      else s.releases d := by
  unfold deliver
  dsimp only
  split
  · next hall =>
    rw [modifyResult_result, Function.update_self] at hall
    have hall : (s.result f).packetsDelivered + 1 = sim.packetsTotal f := hall
    unfold completeFlow
    rw [releases_foldl f (sim.nodup_dependents f)]
    by_cases hd : d ∈ sim.dependents f
    · rw [if_pos hd, if_pos ⟨hall, hd⟩]
      rfl
    · rw [if_neg hd, if_neg fun h => hd h.2]
      rfl
  · next hpart =>
    rw [modifyResult_result, Function.update_self] at hpart
    rw [if_neg fun h => hpart h.1]
    rfl

theorem handover_congr (hcomplete : ∀ g, (s'.result g).complete = (s.result g).complete)
    (hfinish : ∀ g, (s'.result g).finishNs = (s.result g).finishNs) (d : FlowId) :
    sim.handover s' d = sim.handover s d := by
  unfold Simulation.handover
  cases (sim.spec d).dependsOn with
  | none => rfl
  | some g => simp only [hcomplete, hfinish]

/-- The first copy of a packet: if it completes its flow, exactly the flows that
name it are released, none of which had been. -/
theorem releases_eq_deliver (h : ∀ d, s.releases d = sim.handover s d) {f : FlowId}
    (hrecv : Receiver sim s f) (idx bytes : Nat) (d : FlowId) :
    (s.deliver sim f idx bytes).releases d = sim.handover (s.deliver sim f idx bytes) d := by
  rw [releases_deliver]
  have hd := h d
  unfold Simulation.handover at hd ⊢
  cases hdep : (sim.spec d).dependsOn with
  | none =>
    rw [hdep] at hd
    rw [if_neg]
    · exact hd
    · rintro ⟨-, hmem⟩
      exact absurd (hdep.symm.trans ((Simulation.mem_dependents sim).mp hmem).2) (by simp)
  | some g =>
    rw [hdep] at hd
    obtain ⟨-, hcomp, hfin, -⟩ := deliver_tally sim s f idx bytes g
    dsimp only at hd ⊢
    by_cases hg : g = f
    · subst hg
      by_cases hall : (s.result g).packetsDelivered + 1 = sim.packetsTotal g
      · have hmem : d ∈ sim.dependents g :=
          (Simulation.mem_dependents sim).mpr ⟨Simulation.lt_of_dependsOn hdep, hdep⟩
        -- a packet was missing until now
        have hwas : (s.result g).complete = false := by
          by_contra hc
          have := (hrecv.complete_iff (by omega)).mp (by simpa using hc)
          omega
        rw [if_pos ⟨rfl, hall⟩] at hcomp hfin
        rw [if_pos ⟨hall, hmem⟩, hcomp, hfin, if_pos rfl, hd, hwas, if_neg (by simp)]
      · rw [if_neg fun h => hall h.2] at hcomp hfin
        rw [if_neg fun h => hall h.1, hcomp, hfin]
        exact hd
    · have hmem : d ∉ sim.dependents f := by
        intro hmem
        exact hg (Option.some.inj (hdep.symm.trans ((Simulation.mem_dependents sim).mp hmem).2))
      rw [if_neg fun h => hg h.1] at hcomp hfin
      rw [if_neg fun h => hmem h.2, hcomp, hfin]
      exact hd

theorem releases_step (h : ∀ d, s.releases d = sim.handover s d) (hs : sim.Reachable policy s)
    (e : Event) (queue : EventQueue) (d : FlowId) :
    ((s.advance e queue).dispatch sim policy e.body).releases d =
      sim.handover ((s.advance e queue).dispatch sim policy e.body) d := by
  have hadv : ∀ d, (s.advance e queue).releases d = s.releases d :=
    fun d => List.filterMap_cons_none rfl
  rcases dispatch_tally sim policy (s.advance e queue) e.body with
    ⟨p, x, hb, hh, hk⟩ | ⟨hsame, hquiet⟩
  · rw [hb]
    show ((s.advance e queue).onArrive sim policy p x).releases d =
      sim.handover ((s.advance e queue).onArrive sim policy p x) d
    rw [onArrive_data hh hk, onDataArrival_eq, releases_sendAck]
    have hcount : ∀ d, ((s.advance e queue).countDelivered x.bytes).releases d =
        sim.handover ((s.advance e queue).countDelivered x.bytes) d :=
      fun d => (hadv d).trans (h d)
    have hrecv : Receiver sim ((s.advance e queue).countDelivered x.bytes) x.flow :=
      (hs.receiver x.flow).congr ⟨fun _ => rfl, fun _ _ => rfl, fun _ => rfl⟩
        fun _ ho => List.mem_cons_of_mem _ ho
    have hack : ∀ s₂ : State, sim.handover (s₂.sendAck sim x.flow x.index x.tag.attempt) d =
        sim.handover s₂ d := fun s₂ =>
      handover_congr (sameRecord_sendAck s₂ _ _ _).complete
        (fun g => (FlowResult.outcome_inj ((sameRecord_sendAck s₂ _ _ _).outcome g)).1) d
    rw [hack]
    split
    · exact hcount d
    · exact releases_eq_deliver hcount hrecv x.index x.bytes d
  · rw [hquiet.releases, hadv, handover_congr hsame.complete hsame.finish]
    exact h d

end State

/-- The history and the results tell the same releases. -/
theorem Simulation.Reachable.releases_eq {sim : Simulation} {policy : RoutingPolicy} {s : State}
    (h : sim.Reachable policy s) (d : FlowId) : s.releases d = sim.handover s d := by
  refine Simulation.Reachable.invariant (P := fun s => ∀ d, s.releases d = sim.handover s d)
    (fun leftover d => ?_) (fun s e queue hs ih _ => releases_step ih hs e queue) h d
  unfold Simulation.handover
  cases (sim.spec d).dependsOn <;> rfl

/-! ## Times -/

namespace State

variable {sim : Simulation} {policy : RoutingPolicy} {s s' : State} {f : FlowId}

/-- A turn of the hot loop emits at the time of its event. -/
theorem emissions_dispatch (sim : Simulation) (policy : RoutingPolicy) (s : State)
    (b : EventBody) : ∀ a ∈ (s.dispatch sim policy b).emissions, a ∈ s.emissions ∨ a.1 = s.now := by
  rcases dispatch_cases sim policy s b with
    ⟨p, -, heq⟩ | ⟨p, x, -, -, heq⟩ | ⟨f, s₁, -, hnow, htr, -, -, -, -, -, hm, -⟩
  · rw [heq, emissions_onTxComplete]
    exact fun a ha => Or.inl ha
  · rw [heq, emissions_enqueue]
    exact fun a ha => Or.inl ha
  · have hstart : s₁.emissions = s.emissions := by
      unfold State.emissions
      rw [htr]
    refine (hm.preserve (P := fun s' => s'.now = s.now ∧
      ∀ a ∈ s'.emissions, a ∈ s.emissions ∨ a.1 = s.now) ?_ ⟨hnow, ?_⟩).2
    · rintro s₂ s₃ hm ⟨hnow₂, hem₂⟩
      refine ⟨hm.now.trans hnow₂, fun a ha => ?_⟩
      rcases hm.emissions with ⟨hem, -⟩ | ⟨x, -, hem, -⟩
      · exact hem₂ a (hem ▸ ha)
      · rw [hem] at ha
        rcases List.mem_cons.mp ha with rfl | ha
        · exact Or.inr hnow₂
        · exact hem₂ a ha
    · rw [hstart]
      exact fun a ha => Or.inl ha

end State

namespace Simulation

variable {sim : Simulation} {policy : RoutingPolicy} {s : State}

/-- Nothing was emitted in the future. -/
theorem Reachable.emitted_le (h : sim.Reachable policy s) (hw : s.wrapped = false) :
    ∀ a ∈ s.emissions, a.1 ≤ s.now := by
  refine Reachable.invariant (P := fun s => s.wrapped = false → ∀ a ∈ s.emissions, a.1 ≤ s.now)
    (fun _ _ _ ha => absurd ha List.not_mem_nil) ?_ h hw
  intro s e queue hs ih hpop hw' a ha
  have hw := step_unwrapped hs.coherent hpop hw'
  have he : e ∈ s.queue.agenda := by
    rw [EventQueue.agenda_of_pop hpop]
    exact List.mem_cons_self ..
  have hclock : s.now ≤ e.time := (hs.onTime hw).future e he
  rw [dispatch_now]
  show a.1 ≤ e.time
  rcases emissions_dispatch sim policy (s.advance e queue) e.body a ha with hold | hnew
  · rw [emissions_advance] at hold
    exact (ih hw a hold).trans hclock
  · exact hnew.le

/-- What arrived was emitted before. -/
theorem Reachable.origin (h : sim.Reachable policy s) (hw : s.wrapped = false) {e : Event}
    (he : .dispatched e ∈ s.trace) {p : PortId} {x : Packet} (hb : e.body = .arrive p x) :
    ∃ a ∈ s.emissions, a.2.core = x.core ∧ a.1 ≤ e.time := by
  refine Reachable.invariant (P := fun s => s.wrapped = false → ∀ e, .dispatched e ∈ s.trace →
    ∀ p x, e.body = .arrive p x → ∃ a ∈ s.emissions, a.2.core = x.core ∧ a.1 ≤ e.time)
    (fun _ _ _ he => absurd he List.not_mem_nil) ?_ h hw e he p x hb
  intro s e queue hs ih hpop hw' e' he' p x hb
  have hw := step_unwrapped hs.coherent hpop hw'
  have hkeep : ∀ a ∈ s.emissions, a ∈ ((s.advance e queue).dispatch sim policy e.body).emissions :=
    fun a ha => mem_emissions.mpr (mem_trace_step (mem_emissions.mp ha))
  rcases mem_dispatched_step he' with rfl | he'
  · obtain ⟨t, x₀, ht, hcore⟩ := hs.genuine p x (mem_onLink_of_arrive hpop hb)
    have hmem : e' ∈ s.queue.agenda := by
      rw [EventQueue.agenda_of_pop hpop]
      exact List.mem_cons_self ..
    have ha : (t, x₀) ∈ s.emissions := mem_emissions.mpr ht
    exact ⟨(t, x₀), hkeep _ ha, hcore,
      (hs.emitted_le hw _ ha).trans ((hs.onTime hw).future e' hmem)⟩
  · obtain ⟨a, ha, hcore, hle⟩ := ih hw e' he' p x hb
    exact ⟨a, hkeep a ha, hcore, hle⟩

/-- No flow finishes before it starts. -/
theorem Reachable.start_le_finish (h : sim.Reachable policy s) (hw : s.wrapped = false)
    {f : FlowId} (hc : (s.result f).complete = true) :
    (s.result f).startNs ≤ (s.result f).finishNs := by
  obtain ⟨e, p, x, he, hb, -, hf, hk, -, hle⟩ :=
    (h.receipt hw f).finish hc 0 ((h.receipt hw f).total hc)
  obtain ⟨a, ha, hcore, hae⟩ := h.origin hw he hb
  obtain ⟨hflow, -, -, hkind, -, -⟩ := Packet.core_inj hcore
  have hsent := (h.paced hw f).sent a ha (hflow.trans hf) (hkind.trans hk)
  omega

end Simulation

/-! ## Words -/

/-- All but the wake-ups, which may be given any start time, are due within 64
bits. -/
def InWords (s : State) : Prop :=
  ∀ e ∈ s.queue.agenda, (∀ f, e.body ≠ .inject f) → e.time < 2 ^ 64

namespace InWords

variable {sim : Simulation} {policy : RoutingPolicy} {s s' : State} {f : FlowId}

theorem push (h : InWords s) {q : EventQueue} {t : Nat} {b : EventBody}
    (hq : s'.queue = q.push t b) (hold : ∀ e ∈ q.agenda, e ∈ s.queue.agenda)
    (hb : (∃ f, b = .inject f) ∨ t < 2 ^ 64) : InWords s' := by
  intro e he hni
  rw [hq, EventQueue.mem_agenda_push] at he
  rcases he with rfl | he
  · rcases hb with ⟨f, rfl⟩ | hb
    · exact absurd rfl (hni f)
    · exact hb
  · exact h e (hold e he) hni

theorem congr (h : InWords s) (hq : s'.queue = s.queue) : InWords s' := by
  intro e he
  rw [hq] at he
  exact h e he

theorem enqueue (h : InWords s) (p : PortId) (x : Packet) : InWords (s.enqueue sim p x) := by
  rcases enqueue_cases s p x sim with ⟨-, heq⟩ | ⟨q, -, ⟨-, heq⟩ | ⟨-, heq⟩⟩ <;> rw [heq]
  · exact h.congr (by simp)
  · exact h.congr rfl
  · exact h.push (startTx_queue ..) (fun _ he => he) (Or.inr (u64_lt _))

theorem micro (h : InWords s) (hm : Micro sim f s s') : InWords s' := by
  cases hm with
  | send idx =>
    unfold State.sendPacket
    refine InWords.enqueue ?_ _ _
    refine h.push (b := .timeout f idx (s.pktAttempt f idx)) (q := s.queue) ?_ (fun _ he => he)
      (Or.inr (u64_lt (s.now + sim.transport.rtoNs)))
    simp
  | ack idx a =>
    unfold State.sendAck
    refine InWords.enqueue ?_ _ _
    exact h.congr rfl
  | tx g => exact h
  | pkt idx g => exact h
  | result g _ => exact h
  | attempt idx => exact h
  | ring slot idx => exact h
  | wake t _ => exact h.push rfl (fun _ he => he) (Or.inl ⟨f, rfl⟩)
  | release d _ => exact h.push (releaseFlow_queue ..) (fun _ he => he) (Or.inl ⟨d, rfl⟩)

theorem onTxComplete (h : InWords s) (p : PortId) : InWords (s.onTxComplete sim p) := by
  have hoff : InWords (s.sendOff sim p) :=
    h.push (sendOff_queue ..) (fun _ he => he) (Or.inr (u64_lt _))
  rcases onTxComplete_cases sim s p with ⟨-, heq⟩ | ⟨-, heq⟩ <;> rw [heq]
  · exact hoff.congr rfl
  · exact hoff.push (startTx_queue ..) (fun _ he => he) (Or.inr (u64_lt _))

theorem step (h : InWords s) {e : Event} {queue : EventQueue}
    (hpop : s.queue.pop = some (e, queue)) :
    InWords ((s.advance e queue).dispatch sim policy e.body) := by
  have hadv : InWords (s.advance e queue) := by
    intro e' he'
    refine h e' ?_
    rw [EventQueue.agenda_of_pop hpop]
    exact List.mem_cons_of_mem _ he'
  rcases dispatch_cases sim policy (s.advance e queue) e.body with
    ⟨p, -, heq⟩ | ⟨p, x, -, -, heq⟩ | ⟨f, s₁, -, -, -, -, hq, -, -, -, hm, -⟩
  · rw [heq]
    exact hadv.onTxComplete p
  · rw [heq]
    exact hadv.enqueue _ _
  · exact hm.preserve (P := InWords) (fun _ _ hm h => h.micro hm) (hadv.congr hq)

end InWords

namespace Simulation

variable {sim : Simulation} {policy : RoutingPolicy} {s : State}

theorem Reachable.inWords (h : sim.Reachable policy s) : InWords s := by
  refine Reachable.invariant (P := InWords) (fun leftover e he hni => ?_)
    (fun _ _ _ _ hs hpop => hs.step hpop) h
  obtain ⟨f, -, -, hb, -⟩ := mem_agenda_beginRun leftover he
  exact absurd hb (hni f)

/-- Every arrival of the history is within 64 bits. -/
theorem Reachable.arrival_lt (h : sim.Reachable policy s) :
    ∀ e, .dispatched e ∈ s.trace → ∀ p x, e.body = .arrive p x → e.time < 2 ^ 64 := by
  refine Reachable.invariant
    (P := fun s => ∀ e, .dispatched e ∈ s.trace → ∀ p x, e.body = .arrive p x → e.time < 2 ^ 64)
    (fun _ _ he => absurd he List.not_mem_nil) ?_ h
  intro s e queue hs ih hpop e' he' p x hb
  rcases mem_dispatched_step he' with rfl | he'
  · refine hs.inWords e' ?_ fun f => by rw [hb]; simp
    rw [EventQueue.agenda_of_pop hpop]
    exact List.mem_cons_self ..
  · exact ih e' he' p x hb

/-- The time a flow finished is the time of an arrival. -/
theorem Reachable.finish_lt (h : sim.Reachable policy s) {f : FlowId}
    (hc : (s.result f).complete = true) : (s.result f).finishNs < 2 ^ 64 := by
  obtain ⟨later, i, earlier, hl, -⟩ := (h.tally f).finish hc
  have hmem : ((s.result f).finishNs, i) ∈ s.deliveries sim f := by
    rw [hl]
    exact List.mem_append_right _ (List.mem_cons_self ..)
  obtain ⟨e, p, x, he, hb, ht⟩ := mem_deliveries hmem
  have hlt := h.arrival_lt e he p x hb
  rw [ht] at hlt
  exact hlt

/-- The completion time of a flow is the difference, without underflow. -/
theorem Reachable.fctNs_eq (h : sim.Reachable policy s) (hw : s.wrapped = false) {f : FlowId}
    (hc : (s.result f).complete = true) :
    (s.result f).startNs + (s.result f).fctNs = (s.result f).finishNs := by
  have hle := h.start_le_finish hw hc
  have hlt := h.finish_lt hc
  unfold FlowResult.fctNs u64
  have hsplit : (s.result f).finishNs + 2 ^ 64 - (s.result f).startNs =
      (s.result f).finishNs - (s.result f).startNs + 2 ^ 64 := by omega
  rw [hsplit, Nat.add_mod_right, Nat.mod_eq_of_lt (by omega)]
  omega

end Simulation

/-! ## Failures -/

namespace State

variable {sim : Simulation} {policy : RoutingPolicy} {s : State}

theorem deliver_failed (s : State) (g : FlowId) (idx bytes : Nat) (f : FlowId) :
    ((s.deliver sim g idx bytes).tx f).failed = (s.tx f).failed := by
  unfold deliver
  dsimp only
  split
  · exact (completeFlow_spec sim _ g).1.failed f
  · rfl

theorem onTimeout_failed (s : State) (g : FlowId) (idx a : Nat) {f : FlowId} (hf : f ≠ g) :
    ((s.onTimeout sim g idx a).tx f).failed = (s.tx f).failed := by
  have hland := (sameRecord_land s g idx).failed f
  unfold onTimeout
  split
  · rfl
  · split
    · rfl
    · split
      · rfl
      · split
        · rw [giveUp_tx, Function.update_of_ne hf]
          exact hland
        · rw [(trySend_frame _ g).failed, requeue_tx, Function.update_of_ne hf]
          exact hland

/-- Only a timer of its own makes a flow fail. -/
theorem dispatch_failed (s : State) {b : EventBody} {f : FlowId}
    (hb : ∀ idx a, b ≠ .timeout f idx a) :
    ((s.dispatch sim policy b).tx f).failed = (s.tx f).failed := by
  cases b with
  | inject g => exact (sameRecord_onInject s g).failed f
  | txComplete p => exact (sameRecord_onTxComplete s p).failed f
  | timeout g idx a =>
    refine onTimeout_failed s g idx a ?_
    rintro rfl
    exact hb idx a rfl
  | arrive p x =>
    show ((s.onArrive sim policy p x).tx f).failed = _
    cases hh : (sim.fabric.node (sim.fabric.port p).peerNode).isHost with
    | false =>
      rw [onArrive_switch hh]
      exact (sameRecord_enqueue s _ _).failed f
    | true =>
      cases hk : x.kind with
      | ack =>
        rw [onArrive_ack hh hk, (sameRecord_onAck _ _ _).failed]
        rfl
      | data =>
        rw [onArrive_data hh hk, onDataArrival_eq, (sameRecord_sendAck _ _ _ _).failed]
        split
        · rfl
        · exact deliver_failed _ _ _ _ f

end State

/-- Only a released flow fails. -/
theorem Simulation.Reachable.failed_released {sim : Simulation} {policy : RoutingPolicy}
    {s : State} (h : sim.Reachable policy s) (hw : s.wrapped = false) {d g : FlowId}
    (hd : (sim.spec d).dependsOn = some g) (hfail : (s.tx d).failed = true) :
    (s.result g).complete = true := by
  refine Simulation.Reachable.invariant (P := fun s => s.wrapped = false →
    (s.tx d).failed = true → (s.result g).complete = true)
    (fun _ _ hf => absurd hf (by simp [Simulation.beginRun])) ?_ h hw hfail
  intro s e queue hs ih hpop hw' hfail'
  have hw := step_unwrapped hs.coherent hpop hw'
  have hstep : sim.Step policy s _ := Simulation.step_eq_some_iff.mpr ⟨e, queue, hpop, rfl⟩
  have hcomplete : (s.result g).complete = true := by
    by_cases htimer : ∃ idx a, e.body = .timeout d idx a
    · obtain ⟨idx, a, hb⟩ := htimer
      have he : e ∈ s.queue.agenda := by
        rw [EventQueue.agenda_of_pop hpop]
        exact List.mem_cons_self ..
      have hsent := (hs.books.timer e he d idx a hb).sent
      exact (hs.paced hw d).released (Or.inl (by omega)) g hd
    · refine ih hw ?_
      rw [dispatch_failed] at hfail'
      · exact hfail'
      · exact fun idx a hb => htimer ⟨idx, a, hb⟩
  exact (Tally.settled hs hcomplete hstep).1

/-! ## The barrier -/

/-- What is left of a dependent flow whose predecessor has not completed. -/
structure Dormant (sim : Simulation) (s : State) (d : FlowId) : Prop where
  unreleased : s.releases d = []
  silent : ∀ a ∈ s.emissions, ¬ (a.2.flow = d ∧ a.2.kind = .data)
  incomplete : (s.result d).complete = false
  unfailed : (s.result d).failed = false

/-- A flow of which no packet was sent has done nothing. -/
theorem Simulation.Reachable.dormant {sim : Simulation} {policy : RoutingPolicy} {s : State}
    (h : sim.Reachable policy s) (hw : s.wrapped = false) {d g : FlowId}
    (hd : (sim.spec d).dependsOn = some g) (hg : (s.result g).complete = false) :
    Dormant sim s d := by
  have hseq := ((h.paced hw d).asleep g hd hg).1
  have hsilent : ∀ a ∈ s.emissions, ¬ (a.2.flow = d ∧ a.2.kind = .data) := by
    rintro a ha ⟨hf, hk⟩
    have hlt := h.books.data a.1 a.2 (mem_emissions.mp ha) hk
    rw [hf, hseq] at hlt
    exact absurd hlt (Nat.not_lt_zero _)
  refine ⟨?_, hsilent, ?_, ?_⟩
  · rw [h.releases_eq]
    unfold Simulation.handover
    rw [hd]
    dsimp only
    rw [hg, if_neg (by simp)]
  · -- a complete flow has received a packet, which was sent
    by_contra hc
    have hc : (s.result d).complete = true := by simpa using hc
    obtain ⟨e, p, x, he, hb, -, hf, hk, -⟩ :=
      (h.receipt hw d).finish hc 0 ((h.receipt hw d).total hc)
    obtain ⟨a, ha, hcore, -⟩ := h.origin hw he hb
    obtain ⟨hflow, -, -, hkind, -, -⟩ := Packet.core_inj hcore
    exact hsilent a ha ⟨hflow.trans hf, hkind.trans hk⟩
  · rw [(h.receiver d).failed_eq]
    by_contra hfail
    have hdone := h.failed_released hw hd (by simpa using hfail)
    exact absurd (hdone.symm.trans hg) (by simp)

/-- `d` waits for `g`. -/
def Simulation.WaitsFor (sim : Simulation) (g d : FlowId) : Prop :=
  (sim.spec d).dependsOn = some g

/-- A dependent flow starts when the flow it names has finished. -/
theorem Simulation.Reachable.start_eq {sim : Simulation} {policy : RoutingPolicy} {s : State}
    (h : sim.Reachable policy s) (hw : s.wrapped = false) {d g : FlowId}
    (hd : sim.WaitsFor g d) (hg : (s.result g).complete = true) :
    (s.result d).startNs = (s.result g).finishNs :=
  (h.receipt hw g).handover hg d
    ((Simulation.mem_dependents sim).mpr ⟨Simulation.lt_of_dependsOn hd, hd⟩)

/-- Along a chain of complete flows times do not decrease. -/
theorem Simulation.Reachable.chain {sim : Simulation} {policy : RoutingPolicy} {s : State}
    (h : sim.Reachable policy s) (hw : s.wrapped = false) {c d : FlowId}
    (hchain : Relation.ReflTransGen sim.WaitsFor c d) (hc : (s.result d).complete = true) :
    (s.result c).complete = true ∧ (s.result c).startNs ≤ (s.result d).startNs ∧
      (s.result c).finishNs ≤ (s.result d).finishNs := by
  induction hchain with
  | refl => exact ⟨hc, le_rfl, le_rfl⟩
  | @tail g d _ hd ih =>
    have hg : (s.result g).complete = true := by
      by_contra hnot
      have := (h.dormant hw hd (by simpa using hnot)).incomplete
      exact absurd (hc.symm.trans this) (by simp)
    obtain ⟨hcomp, hstart, hfinish⟩ := ih hg
    have heq := h.start_eq hw hd hg
    have hg' := h.start_le_finish hw hg
    have hd' := h.start_le_finish hw hc
    exact ⟨hcomp, by omega, by omega⟩

/-- Dependencies are barriers, under any policy and losses. A flow that names
another is released once, by that flow, when it completes; nothing of it is sent
earlier; it then starts at exactly that time. While the other flow has not
completed it stays dormant. Along every chain of complete flows start and finish
times do not decrease, and no completion time underflows. The packets of a flow are
its own as long as 32 bits index all of them (`Simulation.Fits`). -/
theorem dependency_barrier (sim : Simulation) (policy : RoutingPolicy) {s : State}
    (hs : sim.Reachable policy s) (hw : s.wrapped = false) :
    (∀ g d, sim.WaitsFor g d →
      s.releases d =
          (if (s.result g).complete then [((s.result g).finishNs, g)] else []) ∧
        (∀ a ∈ s.emissions, a.2.flow = d → a.2.kind = .data →
          (s.result g).complete = true ∧ (s.result g).finishNs ≤ a.1) ∧
        ((s.result g).complete = true → (s.result d).startNs = (s.result g).finishNs) ∧
        ((s.result g).complete = false → Dormant sim s d)) ∧
      (∀ c d, Relation.ReflTransGen sim.WaitsFor c d → (s.result d).complete = true →
        (s.result c).complete = true ∧ (s.result c).startNs ≤ (s.result d).startNs ∧
          (s.result c).finishNs ≤ (s.result d).finishNs) ∧
      ∀ d, (s.result d).complete = true →
        (s.result d).startNs + (s.result d).fctNs = (s.result d).finishNs := by
  refine ⟨fun g d hd => ⟨?_, fun a ha hf hk => ?_, fun hg => hs.start_eq hw hd hg,
    fun hg => hs.dormant hw hd hg⟩, fun c d hchain hc => hs.chain hw hchain hc,
    fun d hc => hs.fctNs_eq hw hc⟩
  · rw [hs.releases_eq]
    unfold Simulation.handover
    rw [hd]
  · have hg : (s.result g).complete = true := by
      by_contra hnot
      exact (hs.dormant hw hd (by simpa using hnot)).silent a ha ⟨hf, hk⟩
    have hsent := (hs.paced hw d).sent a ha hf hk
    have heq := hs.start_eq hw hd hg
    exact ⟨hg, by omega⟩

namespace Relay

/-- A flow from host 0 to host 1, and one back that waits for it. -/
def simulation : Simulation where
  fabric := Pair.fabric
  routes := RouteTable.buildShortestPath Pair.fabric
  transport := { rtoNs := 100000 }
  specs := [Pair.flow, { Pair.flow with src := 3, dst := 2, dependsOn := some 0 }]
  accepted := by
    intro i hi
    match i, hi with
    | 0, _ => exact Pair.flow_accepted
    | 1, _ =>
      show FlowSpec.Accepted Pair.fabric 1 { Pair.flow with src := 3, dst := 2, dependsOn := some 0 }
      decide +kernel

/-- The state after the whole run. -/
def last : State := (simulation.beginRun Pair.fresh).runFor simulation StaticFirstPolicy 200

theorem last_ended : last.wrapped = false ∧ (last.result 1).complete = true := by
  unfold last
  decide +kernel

end Relay

/-- The second flow of the relay starts when the first has finished. -/
theorem dependency_barrier_relay :
    (Relay.last.result 0).complete = true ∧
      (Relay.last.result 1).startNs = (Relay.last.result 0).finishNs ∧
      (Relay.last.result 0).finishNs ≤ (Relay.last.result 1).finishNs := by
  obtain ⟨hwait, hchain, -⟩ := dependency_barrier Relay.simulation StaticFirstPolicy
    (s := Relay.last) ((Simulation.Reachable.begin _).runFor 200) Relay.last_ended.1
  have h01 : Relay.simulation.WaitsFor 0 1 := rfl
  obtain ⟨hdone, -, hle⟩ := hchain 0 1 (Relation.ReflTransGen.single h01) Relay.last_ended.2
  exact ⟨hdone, (hwait 0 1 h01).2.2.1 hdone, hle⟩

end FabricSim
