import FabricSim.Core.EventCount
import FabricSim.Core.Rerun
import FabricSim.Core.Undisturbed

/-!
# A run from its call to its return

`run` begins, goes on while there is an event, and ends with the counts of the flows. The
handlers leave those counts alone, and only the loop counts the events (`kept_dispatch`), so
that what the statistics say of the flows is said of their results (`endRun_stats`). On a
routed fabric every run returns (`exists_run`).
-/

namespace FabricSim

open State

/-- What only the loop and its end write. -/
structure RunStats.Kept where
  virtualEndNs : Nat := 0
  eventsProcessed : Nat := 0
  flowsComplete : Nat := 0
  flowsIncomplete : Nat := 0
  flowsFailed : Nat := 0
  deriving DecidableEq

def RunStats.kept (st : RunStats) : RunStats.Kept :=
  ⟨st.virtualEndNs, st.eventsProcessed, st.flowsComplete, st.flowsIncomplete, st.flowsFailed⟩

/-- `run`, on an object that has not run; `none` when the fuel is out before the events. -/
def Simulation.run (sim : Simulation) (policy : RoutingPolicy) (fuel : Nat) : Option State :=
  let s := (sim.beginRun (Session.create sim.fabric sim.routes).state).runFor sim policy fuel
  if s.queue.empty then some (sim.endRun s) else none

namespace State

variable {sim : Simulation} {policy : RoutingPolicy} {s s' : State} {f : FlowId}

theorem kept_enqueue (p : PortId) (x : Packet) :
    (s.enqueue sim p x).stats.kept = s.stats.kept := by
  rcases enqueue_cases s p x sim with ⟨-, h⟩ | ⟨queue, -, ⟨-, h⟩ | ⟨-, h⟩⟩
  · rw [h]
    unfold drop
    cases x.kind <;> rfl
  · rw [h]
    rfl
  · rw [h]
    rfl

theorem kept_micro (hm : Micro sim f s s') : s'.stats.kept = s.stats.kept := by
  cases hm with
  | send idx =>
    unfold sendPacket
    rw [kept_enqueue]
    show (s.countRetx f idx).stats.kept = s.stats.kept
    unfold countRetx
    split
    · rfl
    · rfl
  | ack idx a =>
    unfold sendAck
    rw [kept_enqueue]
    rfl
  | tx u | pkt idx u | result u _ | attempt idx | ring slot idx | wake t _ | release d _ => rfl

theorem kept_micros (hm : Micros sim f s s') : s'.stats.kept = s.stats.kept :=
  hm.preserve (P := fun s' => s'.stats.kept = s.stats.kept)
    (fun _ _ hm h => (kept_micro hm).trans h) rfl

/-- No handler counts events or flows. -/
theorem kept_dispatch (s : State) (b : EventBody) :
    (s.dispatch sim policy b).stats.kept = s.stats.kept := by
  cases b with
  | txComplete p =>
    show (s.onTxComplete sim p).stats.kept = _
    rcases onTxComplete_cases sim s p with ⟨-, h⟩ | ⟨-, h⟩
    · rw [h]
      rfl
    · rw [h]
      rfl
  | inject f => exact kept_micros (onInject_micros s f)
  | timeout f idx a => exact kept_micros (onTimeout_micros s f idx a)
  | arrive p x =>
    show (s.onArrive sim policy p x).stats.kept = _
    cases hh : (sim.fabric.node (sim.fabric.port p).peerNode).isHost with
    | false =>
      rw [onArrive_switch hh]
      exact kept_enqueue _ _
    | true =>
      cases hk : x.kind with
      | ack =>
        rw [onArrive_ack hh hk]
        exact kept_micros (s := s.countAckDelivered x.bytes) (onAck_micros _ _ _)
      | data =>
        rw [onArrive_data hh hk]
        exact kept_micros (s := s.countDelivered x.bytes) (onDataArrival_micros _ _ _ _ _)

end State

/-- Between two turns the loop has counted its turns and nothing else. -/
theorem Simulation.Reachable.kept {sim : Simulation} {policy : RoutingPolicy} {s : State}
    (hs : sim.Reachable policy s) :
    s.stats.kept = { eventsProcessed := s.dispatchTimes.length } := by
  refine Simulation.Reachable.invariant
    (P := fun s => s.stats.kept = { eventsProcessed := s.dispatchTimes.length })
    (fun _ => rfl) ?_ hs
  intro s e queue _ ih hpop
  rw [kept_dispatch, dispatchTimes_step, List.length_cons]
  have hadv : (s.advance e queue).stats.kept =
      { s.stats.kept with eventsProcessed := s.stats.kept.eventsProcessed + 1 } := rfl
  rw [hadv, ih]

/-! ## Drops in bytes -/

/-- A port that has dropped no packet has dropped no byte. -/
def DropsPriced (s : State) : Prop :=
  ∀ p, (s.port p).packetsDropped = 0 → (s.port p).bytesDropped = 0

namespace DropsPriced

variable {sim : Simulation} {policy : RoutingPolicy} {s s' : State} {f : FlowId}

theorem congr (h : DropsPriced s)
    (hport : ∀ p, (s'.port p).packetsDropped = (s.port p).packetsDropped ∧
      (s'.port p).bytesDropped = (s.port p).bytesDropped) : DropsPriced s' := by
  intro p hp
  rw [(hport p).2]
  exact h p ((hport p).1 ▸ hp)

theorem enqueue (h : DropsPriced s) (q : PortId) (x : Packet) :
    DropsPriced (s.enqueue sim q x) := by
  rcases enqueue_cases s q x sim with ⟨-, h'⟩ | ⟨queue, -, ⟨-, h'⟩ | ⟨-, h'⟩⟩
  · intro p hp
    rw [h', drop_port] at hp ⊢
    by_cases hq : p = q
    · -- the port counts a packet
      rw [hq, Function.update_self] at hp
      exact absurd hp (Nat.succ_ne_zero _)
    · rw [Function.update_of_ne hq] at hp ⊢
      exact h p hp
  all_goals
    refine h.congr fun p => ?_
    rw [h']
    by_cases hq : p = q
    · subst hq
      simp
    · simp [hq]

theorem micro (h : DropsPriced s) (hm : Micro sim f s s') : DropsPriced s' := by
  rcases hm.net with ⟨hnet, -⟩ | ⟨s₁, x, hnet, -, -, -, -, rfl⟩
  · exact h.congr fun p => by rw [hnet.port]; exact ⟨rfl, rfl⟩
  · have h₁ : DropsPriced s₁ := h.congr fun p => by rw [hnet.port]; exact ⟨rfl, rfl⟩
    exact h₁.enqueue _ _

theorem step (h : DropsPriced s) (e : Event) (queue : EventQueue) :
    DropsPriced ((s.advance e queue).dispatch sim policy e.body) := by
  have hadv : DropsPriced (s.advance e queue) := h
  rcases dispatch_cases sim policy (s.advance e queue) e.body with
    ⟨p, -, heq⟩ | ⟨p, x, -, -, heq⟩ | ⟨g, s₁, hnet, -, -, -, -, -, -, -, hm, -⟩
  · rw [heq]
    refine hadv.congr fun q => ?_
    rcases onTxComplete_cases sim (s.advance e queue) p with ⟨-, h'⟩ | ⟨-, h'⟩
    all_goals
      rw [h']
      by_cases hq : q = p
      · subst hq
        simp
      · simp [hq]
  · rw [heq]
    exact hadv.enqueue _ _
  · refine hm.preserve (P := DropsPriced) (fun _ _ hm h => h.micro hm) ?_
    exact hadv.congr fun p => by rw [hnet.port]; exact ⟨rfl, rfl⟩

end DropsPriced

/-- A run in which no queue refuses a packet drops no byte, of data or of acks. -/
theorem Simulation.Reachable.bytesDropped_eq_zero {sim : Simulation} {policy : RoutingPolicy}
    {s : State} (hs : sim.Reachable policy s) (hr : sim.Routed) (hm : policy.Member)
    (hnone : NoDrops s) : s.stats.bytesDropped = 0 ∧ s.stats.ackBytesDropped = 0 := by
  have hpriced : DropsPriced s := Simulation.Reachable.invariant (P := DropsPriced)
    (fun _ _ _ => rfl) (fun _ e queue _ h _ => h.step e queue) hs
  have hsum := (hs.conserved hr.steered hm).drops
  rw [Finset.sum_eq_zero fun p _ => hpriced p (hnone p)] at hsum
  omega

/-! ## The counts of the flows -/

namespace Simulation

variable {sim : Simulation} {policy : RoutingPolicy} {s : State}

/-- One flow more is counted. -/
def countFlow (s : State) (st : RunStats) (f : FlowId) : RunStats :=
  let st := if (s.result f).complete then { st with flowsComplete := st.flowsComplete + 1 }
    else { st with flowsIncomplete := st.flowsIncomplete + 1 }
  if (s.result f).failed then { st with flowsFailed := st.flowsFailed + 1 } else st

theorem foldl_countFlow (s : State) (l : List FlowId) (st : RunStats) :
    l.foldl (countFlow s) st =
      { st with
        flowsComplete := st.flowsComplete + l.countP fun f => (s.result f).complete
        flowsIncomplete := st.flowsIncomplete + l.countP fun f => !(s.result f).complete
        flowsFailed := st.flowsFailed + l.countP fun f => (s.result f).failed } := by
  induction l generalizing st with
  | nil => rfl
  | cons f l ih =>
    rw [List.foldl_cons, ih, List.countP_cons, List.countP_cons, List.countP_cons]
    unfold countFlow
    cases (s.result f).complete <;> cases (s.result f).failed <;>
      simp [Nat.add_assoc, Nat.add_comm 1]

/-- What `run` returns: the counters of the loop, and the counts of the results. -/
theorem endRun_stats (hs : sim.Reachable policy s) : (sim.endRun s).stats =
    { s.stats with
      virtualEndNs := s.now
      flowsComplete := (List.range sim.flowCount).countP fun f => (s.result f).complete
      flowsIncomplete := (List.range sim.flowCount).countP fun f => !(s.result f).complete
      flowsFailed := (List.range sim.flowCount).countP fun f => (s.result f).failed } := by
  have hkept := hs.kept
  unfold RunStats.kept at hkept
  simp only [RunStats.Kept.mk.injEq] at hkept
  obtain ⟨-, -, hcomplete, hincomplete, hfailed⟩ := hkept
  have hend : (sim.endRun s).stats =
      { (List.range sim.flowCount).foldl (countFlow s) s.stats with virtualEndNs := s.now } := rfl
  rw [hend, foldl_countFlow, hcomplete, hincomplete, hfailed]
  simp only [Nat.zero_add]

theorem endRun_result (s : State) : (sim.endRun s).result = s.result := rfl

/-- The flows that are complete and those that are not are all the flows. -/
theorem complete_add_incomplete (hs : sim.Reachable policy s) :
    (sim.endRun s).stats.flowsComplete + (sim.endRun s).stats.flowsIncomplete = sim.flowCount := by
  rw [endRun_stats hs]
  have hlen := List.length_eq_countP_add_countP (fun f => (s.result f).complete)
    (l := List.range sim.flowCount)
  rw [List.length_range] at hlen
  simpa using hlen.symm

theorem flowsIncomplete_eq_zero_iff (hs : sim.Reachable policy s) :
    (sim.endRun s).stats.flowsIncomplete = 0 ↔
      ∀ f, f < sim.flowCount → (s.result f).complete = true := by
  rw [endRun_stats hs, List.countP_eq_zero]
  simp only [List.mem_range, Bool.not_eq_true', Bool.not_eq_false]

/-! ## The return -/

/-- On a routed fabric the call returns, and more fuel makes no difference. -/
theorem exists_run (hr : sim.Routed) (hm : policy.Member) (ht : sim.transport.Accepted) :
    ∃ N s, sim.Reachable policy s ∧ s.Drained ∧
      ∀ fuel, N ≤ fuel → sim.run policy fuel = some (sim.endRun s) := by
  obtain ⟨N, hd⟩ := drained_of_bound (fun s hs => hs.dispatched_le hr hm ht)
    (Session.create sim.fabric sim.routes).state
  refine ⟨N, _, (Reachable.begin _).runFor N, hd, fun fuel hfuel => ?_⟩
  obtain ⟨k, rfl⟩ := Nat.exists_eq_add_of_le hfuel
  unfold run
  dsimp only
  rw [Session.runFor_drained hd k]
  exact if_pos hd

end Simulation

end FabricSim
