import FabricSim.Core.EventQueue

/-!
# What a whole history of pushes and pops does

`EventQueue` says what one push and one pop do to the agenda. This file is about
histories: any interleaving of the two, from a cleared queue, with a pop only
where there is something to pop.

`QueueRun` keeps next to the queue what went in and what came out. The
invariant `QueueRun.Faithful` is the accounting of a stable priority queue: the
`k`-th event pushed is stamped `k`, it carries the time and the body it was
pushed with, and what came out together with what is in the heap is a
rearrangement of what went in. With distinct stamps that says at once that
nothing is returned twice, lost, or altered. That a pop returns the least of
what is pending is then the head of the agenda.

The counter of the code is 64 bits wide; here it does not wrap, which is the
code's behaviour for fewer than 2^64 pushes.
-/

namespace FabricSim

inductive QueueOp where
  | push (t : Nat) (b : EventBody)
  | pop
  deriving DecidableEq, Repr

/-- What an operation puts in. -/
def QueueOp.offered : QueueOp → Option (Nat × EventBody)
  | push t b => some (t, b)
  | pop => none

/-- A queue with its history since `clear`: `pushed` in the order of the pushes
and as the queue stamped them, `popped` in the order of the pops. -/
structure QueueRun where
  queue : EventQueue
  pushed : List Event
  popped : List Event

namespace QueueRun

def start : QueueRun := ⟨EventQueue.clear, [], []⟩

/-- One operation. A pop of an empty queue is outside the contract of `pop`. -/
def apply (r : QueueRun) : QueueOp → Option QueueRun
  | .push t b => some ⟨r.queue.push t b, r.pushed ++ [⟨t, r.queue.nextSeq, b⟩], r.popped⟩
  | .pop => r.queue.pop.map fun x => ⟨x.2, r.pushed, r.popped ++ [x.1]⟩

def run (r : QueueRun) (ops : List QueueOp) : Option QueueRun := ops.foldlM apply r

/-- The accounting of a stable priority queue. -/
structure Faithful (r : QueueRun) : Prop where
  stamps : r.pushed.map Event.seq = List.range r.pushed.length
  next : r.queue.nextSeq = r.pushed.length
  kept : (r.popped ++ r.queue.heap).Perm r.pushed

theorem faithful_start : Faithful start := ⟨rfl, rfl, List.Perm.refl _⟩

theorem Faithful.push {r : QueueRun} (h : r.Faithful) (t : Nat) (b : EventBody) :
    Faithful ⟨r.queue.push t b, r.pushed ++ [⟨t, r.queue.nextSeq, b⟩], r.popped⟩ where
  stamps := by
    rw [List.map_append, h.stamps, List.length_append, List.length_singleton,
      List.range_succ, List.map_singleton, h.next]
  next := by
    rw [List.length_append, List.length_singleton, ← h.next]
    rfl
  kept := by
    have hp : (r.queue.push t b).heap.Perm (⟨t, r.queue.nextSeq, b⟩ :: r.queue.heap) :=
      ArrayHeap.push_perm _ _ _
    refine (hp.append_left r.popped).trans ?_
    refine List.perm_middle.trans ?_
    exact (h.kept.cons _).trans (List.perm_append_singleton _ _).symm

theorem Faithful.pop {r : QueueRun} (h : r.Faithful) {e : Event} {q : EventQueue}
    (hp : r.queue.pop = some (e, q)) : Faithful ⟨q, r.pushed, r.popped ++ [e]⟩ where
  stamps := h.stamps
  next := by
    rw [← h.next]
    exact EventQueue.nextSeq_of_pop hp
  kept := by
    refine List.Perm.trans ?_ h.kept
    show (r.popped ++ [e] ++ q.heap).Perm (r.popped ++ r.queue.heap)
    rw [List.append_assoc, List.singleton_append]
    exact (EventQueue.heap_of_pop hp).symm.append_left _

theorem Faithful.apply {r r' : QueueRun} {o : QueueOp} (h : r.Faithful)
    (ho : r.apply o = some r') : r'.Faithful := by
  cases o with
  | push t b =>
    obtain rfl := Option.some.inj ho
    exact h.push t b
  | pop =>
    obtain ⟨⟨e, q⟩, hp, rfl⟩ := Option.map_eq_some_iff.mp ho
    exact h.pop hp

theorem Faithful.run {r r' : QueueRun} {ops : List QueueOp} (h : r.Faithful)
    (hr : r.run ops = some r') : r'.Faithful := by
  induction ops generalizing r with
  | nil =>
    obtain rfl := Option.some.inj hr
    exact h
  | cons o ops ih =>
    unfold QueueRun.run at hr
    rw [List.foldlM_cons] at hr
    obtain ⟨r₁, h₁, h₂⟩ := Option.bind_eq_some_iff.mp hr
    exact ih (h.apply h₁) h₂

/-- What was pushed, in order, is what the operations offered. -/
theorem pushed_of_run {r r' : QueueRun} {ops : List QueueOp} (hr : r.run ops = some r') :
    r'.pushed.map (fun e => (e.time, e.body)) =
      r.pushed.map (fun e => (e.time, e.body)) ++ ops.filterMap QueueOp.offered := by
  induction ops generalizing r with
  | nil =>
    obtain rfl := Option.some.inj hr
    simp
  | cons o ops ih =>
    unfold QueueRun.run at hr
    rw [List.foldlM_cons] at hr
    obtain ⟨r₁, h₁, h₂⟩ := Option.bind_eq_some_iff.mp hr
    rw [ih h₂]
    cases o with
    | push t b =>
      obtain rfl := Option.some.inj h₁
      simp [QueueOp.offered]
    | pop =>
      obtain ⟨x, -, rfl⟩ := Option.map_eq_some_iff.mp h₁
      rw [List.filterMap_cons_none rfl]

/-- Distinct stamps: no event was pushed twice. -/
theorem Faithful.nodup {r : QueueRun} (h : r.Faithful) : (r.popped ++ r.queue.heap).Nodup := by
  refine h.kept.nodup_iff.mpr (List.Nodup.of_map Event.seq ?_)
  rw [h.stamps]
  exact List.nodup_range

end QueueRun

/-- `EventQueue` is a stable priority queue. After any history of pushes and
pops, with `pushed` the events in the order they were pushed (the `k`-th stamped
`k`, time and body as offered): what was popped and what the heap holds are
together exactly what was pushed, each once; a pop fails only on an empty heap;
and what it returns is the pending event of least time, of equal times the one
pushed first, and leaves the others pending. -/
theorem stable_priority_queue (ops : List QueueOp) (r : QueueRun)
    (hr : QueueRun.start.run ops = some r) :
    r.pushed.map (fun e => (e.time, e.body)) = ops.filterMap QueueOp.offered ∧
      r.pushed.map Event.seq = List.range r.pushed.length ∧
      (r.popped ++ r.queue.heap).Perm r.pushed ∧ (r.popped ++ r.queue.heap).Nodup ∧
      (r.queue.pop = none ↔ r.queue.heap = []) ∧
      ∀ e q, r.queue.pop = some (e, q) →
        r.queue.heap.Perm (e :: q.heap) ∧
          ∀ x ∈ q.heap, e.time < x.time ∨ e.time = x.time ∧ e.seq < x.seq := by
  have hf := QueueRun.faithful_start.run hr
  refine ⟨QueueRun.pushed_of_run hr, hf.stamps, hf.kept, hf.nodup, ?_, ?_⟩
  · rw [EventQueue.pop_eq_none_iff, EventQueue.agenda_eq_nil_iff]
  · intro e q hp
    have hperm := EventQueue.heap_of_pop hp
    refine ⟨hperm, ?_⟩
    intro x hx
    exact Event.key_lt_iff.mp (EventQueue.least_of_pop hp x hx)

/-- Two events of one time and an earlier one. -/
def threeOps : List QueueOp :=
  [.push 5 (.inject 0), .push 5 (.inject 1), .push 3 (.inject 2), .pop, .pop]

/-- The earlier one comes out first, then the first pushed of the other two. -/
theorem stable_priority_queue_three :
    ∃ r : QueueRun, QueueRun.start.run threeOps = some r ∧
      r.popped = [⟨3, 2, .inject 2⟩, ⟨5, 0, .inject 0⟩] ∧
      r.pushed.map Event.seq = List.range r.pushed.length ∧
      (r.popped ++ r.queue.heap).Perm r.pushed := by
  have hsome : (QueueRun.start.run threeOps).isSome = true := by decide
  have hpop : (QueueRun.start.run threeOps).map QueueRun.popped =
      some [⟨3, 2, .inject 2⟩, ⟨5, 0, .inject 0⟩] := by decide
  obtain ⟨r, hr⟩ := Option.isSome_iff_exists.mp hsome
  rw [hr] at hpop
  obtain ⟨-, hs, hp, -⟩ := stable_priority_queue threeOps r hr
  exact ⟨r, hr, Option.some.inj hpop, hs, hp⟩

end FabricSim
