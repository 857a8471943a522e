import FabricSim.Core.Rerun
import FabricSim.Core.Termination

/-!
# The counter of the event queue

`EventQueue` numbers what is pushed. A handler only pushes, and the hot loop only pops, so
the counter is what was taken and what is pending (`Reachable.nextSeq_eq`). At the end of the
run nothing is pending: the bound on the events of a run is a bound on its counter at every
time.
-/

namespace FabricSim

open State Finset

variable {sim : Simulation} {policy : RoutingPolicy} {s s' : State} {f : FlowId}

/-- What pushes do to a queue: the counter counts what the heap gains. -/
def EventQueue.Grows (q q' : EventQueue) : Prop :=
  ∃ k, q'.nextSeq = q.nextSeq + k ∧ q'.heap.length = q.heap.length + k

theorem EventQueue.Grows.refl (q : EventQueue) : q.Grows q := ⟨0, rfl, rfl⟩

theorem EventQueue.Grows.push {q q' : EventQueue} (h : q.Grows q') (t : Nat) (b : EventBody) :
    q.Grows (q'.push t b) := by
  obtain ⟨k, hseq, hlen⟩ := h
  refine ⟨k + 1, congrArg (· + 1) hseq, ?_⟩
  have hpush := (ArrayHeap.push_perm Event.earlier q'.heap ⟨t, q'.nextSeq, b⟩).length_eq
  rw [List.length_cons, hlen] at hpush
  exact hpush

theorem grows_enqueue (sim : Simulation) (p : PortId) (x : Packet) {q : EventQueue}
    (h : q.Grows s.queue) : q.Grows (s.enqueue sim p x).queue := by
  rcases enqueue_queue sim s p x with heq | ⟨t, heq⟩ <;> rw [heq]
  · exact h
  · exact h.push t _

theorem grows_micro (hm : Micro sim f s s') {q : EventQueue} (h : q.Grows s.queue) :
    q.Grows s'.queue := by
  cases hm with
  | send idx =>
    apply grows_enqueue
    rw [log_queue, pushAfter_queue, markSent_queue]
    exact h.push _ _
  | ack idx a =>
    unfold State.sendAck
    apply grows_enqueue
    exact h
  | wake t ht => exact h.push _ _
  | release d hd => exact h.push _ _
  | tx | pkt | result | attempt | ring => exact h

theorem grows_dispatch (sim : Simulation) (policy : RoutingPolicy) (s : State) (b : EventBody) :
    s.queue.Grows (s.dispatch sim policy b).queue := by
  have hrefl := EventQueue.Grows.refl s.queue
  rcases dispatch_cases sim policy s b with
    ⟨p, -, heq⟩ | ⟨p, x, -, -, heq⟩ | ⟨f, s₁, -, -, -, -, hqueue, -, -, -, hmic, -⟩
  · rw [heq]
    rcases onTxComplete_cases sim s p with ⟨-, h⟩ | ⟨-, h⟩ <;> rw [h]
    · exact hrefl.push _ _
    · exact (hrefl.push _ _).push _ _
  · rw [heq]
    exact grows_enqueue sim _ _ hrefl
  · rw [← hqueue]
    exact hmic.preserve (P := fun s' => s₁.queue.Grows s'.queue)
      (fun _ _ hm h => grows_micro hm h) (EventQueue.Grows.refl _)

/-- Every event pushed was taken or is pending. -/
theorem Simulation.Reachable.nextSeq_eq (hs : sim.Reachable policy s) :
    s.queue.nextSeq = s.dispatchTimes.length + s.queue.heap.length := by
  refine Simulation.Reachable.invariant (P := fun s : State =>
    s.queue.nextSeq = s.dispatchTimes.length + s.queue.heap.length) (fun leftover => ?_) ?_ hs
  · -- `begin_run` pushes the injects on an empty queue
    obtain ⟨k, hseq, hlen⟩ : EventQueue.clear.Grows (sim.beginRun leftover).queue := by
      unfold Simulation.beginRun
      refine List.foldlRecOn (motive := EventQueue.clear.Grows) _ _ (EventQueue.Grows.refl _) ?_
      intro q hq f _
      split
      · exact hq.push _ _
      · exact hq
    have hnone : (sim.beginRun leftover).dispatchTimes = [] := rfl
    have hclear : EventQueue.clear.nextSeq = 0 ∧ EventQueue.clear.heap = [] := ⟨rfl, rfl⟩
    rw [hnone, hseq, hlen, hclear.1, hclear.2, List.length_nil,
      List.length_nil, Nat.zero_add, Nat.zero_add]
  · intro s e queue _ ih hpop
    obtain ⟨k, hseq, hlen⟩ := grows_dispatch sim policy (s.advance e queue) e.body
    have htaken := (EventQueue.heap_of_pop hpop).length_eq
    rw [dispatchTimes_step, hseq, hlen, advance_queue, EventQueue.nextSeq_of_pop hpop, ih, htaken,
      List.length_cons, List.length_cons]
    omega

theorem nextSeq_le_step (h : s.step sim policy = some s') : s.queue.nextSeq ≤ s'.queue.nextSeq := by
  obtain ⟨e, queue, hpop, rfl⟩ := Simulation.step_eq_some_iff.mp h
  obtain ⟨k, hseq, -⟩ := grows_dispatch sim policy (s.advance e queue) e.body
  rw [hseq, advance_queue, EventQueue.nextSeq_of_pop hpop]
  exact Nat.le_add_right _ k

theorem runFor_add (sim : Simulation) (policy : RoutingPolicy) (k : Nat) : ∀ (n : Nat) (s : State),
    s.runFor sim policy (n + k) = (s.runFor sim policy n).runFor sim policy k := by
  intro n
  induction n with
  | zero => intro s; rw [Nat.zero_add]; rfl
  | succ n ih =>
    intro s
    rw [Nat.succ_add, State.runFor, State.runFor]
    cases hstep : s.step sim policy with
    | none =>
      cases k with
      | zero => rfl
      | succ k =>
        show s = s.runFor sim policy (k + 1)
        rw [State.runFor, hstep]
    | some s' => exact ih s'

theorem nextSeq_le_runFor (sim : Simulation) (policy : RoutingPolicy) : ∀ (n : Nat) (s : State),
    s.queue.nextSeq ≤ (s.runFor sim policy n).queue.nextSeq := by
  intro n
  induction n with
  | zero => intro s; exact Nat.le_refl _
  | succ n ih =>
    intro s
    unfold State.runFor
    split
    · exact Nat.le_refl _
    · next s' h => exact (nextSeq_le_step h).trans (ih s')

/-- The most events that a run of the flows can have. -/
noncomputable def Simulation.eventBound (sim : Simulation) : Nat :=
  ∑ f ∈ range sim.flowCount,
    (sim.packetsTotal f * sim.transport.maxAttempts * (4 * sim.hops f + 5) + 2)

/-- The counter goes no further than the bound on the events of the run. -/
theorem Simulation.nextSeq_runFor_le (hr : sim.Routed) (hm : policy.Member)
    (ht : sim.transport.Accepted) (leftover : State) (n : Nat) :
    ((sim.beginRun leftover).runFor sim policy n).queue.nextSeq ≤
      sim.eventBound := by
  obtain ⟨N, hd⟩ := Simulation.drained_of_bound (fun s hs => hs.dispatched_le hr hm ht) leftover
  have hs : sim.Reachable policy ((sim.beginRun leftover).runFor sim policy N) :=
    (Simulation.Reachable.begin leftover).runFor N
  -- when the run is over, every event pushed has been taken
  have hend := hs.nextSeq_eq
  rw [List.isEmpty_iff.mp hd, List.length_nil, Nat.add_zero] at hend
  rw [← Session.runFor_drained hd n] at hend hs
  have hle : ((sim.beginRun leftover).runFor sim policy n).queue.nextSeq ≤
      ((sim.beginRun leftover).runFor sim policy (N + n)).queue.nextSeq := by
    rw [Nat.add_comm N n, runFor_add]
    exact nextSeq_le_runFor sim policy N _
  exact hle.trans (hend.trans_le (hs.dispatched_le hr hm ht))

/-- Up to the leaf and down again. -/
theorem Pair.hops_eq : Pair.simulation.hops 0 = 2 :=
  @LeafSpine.dist_hosts Pair.config (by decide) (by decide) 0 1 (by decide) (by decide) (by decide)

end FabricSim
