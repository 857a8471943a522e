import FabricSim.Core.Event
import FabricSim.Lib.Heap
import FabricSim.Lib.Agenda
import Mathlib.Data.Prod.Lex

/-!
# The event queue is a stable priority queue

`EventQueue` is the binary heap of the code with the sequence counter `push`
stamps events with. The structure carries what makes it a queue: heap order,
and sequence numbers that are distinct and below the counter.

`agenda` is the abstract view every later module works with: the pending events
in dispatch order. `agenda_push` inserts by `(time, seq)`, which with a fresh
`seq` is after every event of the same time, and `agenda_of_pop` says a pop
takes the head.
-/

namespace FabricSim

/-- The comparison of the heap: earlier time, then earlier push. -/
def Event.earlier (x y : Event) : Bool :=
  if x.time ≠ y.time then decide (x.time < y.time) else decide (x.seq < y.seq)

/-- The key `earlier` compares. -/
def Event.key (e : Event) : Nat ×ₗ Nat := toLex (e.time, e.seq)

theorem Event.earlier_iff (x y : Event) : x.earlier y = true ↔ x.key < y.key := by
  unfold earlier key
  rw [Prod.Lex.toLex_lt_toLex]
  split
  · next h => simp [h]
  · next h => simp [not_not.mp h]

theorem Event.key_lt_iff {x y : Event} :
    x.key < y.key ↔ x.time < y.time ∨ x.time = y.time ∧ x.seq < y.seq := by
  unfold key
  exact Prod.Lex.toLex_lt_toLex

theorem Event.time_le_of_key_le {x y : Event} (h : x.key ≤ y.key) : x.time ≤ y.time := by
  unfold key at h
  rw [Prod.Lex.toLex_le_toLex] at h
  rcases h with h | h
  · exact h.le
  · exact h.1.le

theorem Event.key_lt_of {x y : Event} (ht : x.time ≤ y.time) (hs : x.seq < y.seq) :
    x.key < y.key := by
  unfold key
  rw [Prod.Lex.toLex_lt_toLex]
  rcases lt_or_eq_of_le ht with h | h
  · exact Or.inl h
  · exact Or.inr ⟨h, hs⟩

structure EventQueue where
  heap : List Event
  nextSeq : Nat
  isHeap : ArrayHeap.IsHeap Event.key heap
  seq_lt : ∀ e ∈ heap, e.seq < nextSeq
  seq_nodup : (heap.map Event.seq).Nodup

namespace EventQueue

/-- The cleared queue. -/
def clear : EventQueue where
  heap := []
  nextSeq := 0
  isHeap := fun _ _ h => absurd h (by simp)
  seq_lt := by simp
  seq_nodup := List.nodup_nil

def empty (q : EventQueue) : Bool := q.heap.isEmpty

theorem push_seq_lt (q : EventQueue) (t : Nat) (b : EventBody) :
    ∀ e ∈ ArrayHeap.push Event.earlier q.heap ⟨t, q.nextSeq, b⟩, e.seq < q.nextSeq + 1 := by
  intro e he
  rcases List.mem_cons.mp ((ArrayHeap.push_perm _ _ _).mem_iff.mp he) with rfl | he
  · exact Nat.lt_succ_self _
  · exact Nat.lt_succ_of_lt (q.seq_lt e he)

theorem push_seq_nodup (q : EventQueue) (t : Nat) (b : EventBody) :
    ((ArrayHeap.push Event.earlier q.heap ⟨t, q.nextSeq, b⟩).map Event.seq).Nodup := by
  rw [((ArrayHeap.push_perm Event.earlier q.heap ⟨t, q.nextSeq, b⟩).map Event.seq).nodup_iff,
    List.map_cons, List.nodup_cons]
  refine ⟨fun h => ?_, q.seq_nodup⟩
  obtain ⟨e, he, hes⟩ := List.mem_map.mp h
  have := q.seq_lt e he
  dsimp only at hes
  omega

/-- Stamp, append, sift up. -/
def push (q : EventQueue) (t : Nat) (b : EventBody) : EventQueue where
  heap := ArrayHeap.push Event.earlier q.heap ⟨t, q.nextSeq, b⟩
  nextSeq := q.nextSeq + 1
  isHeap := ArrayHeap.push_isHeap Event.earlier_iff q.isHeap _
  seq_lt := q.push_seq_lt t b
  seq_nodup := q.push_seq_nodup t b

/-- The root and what is left; `none` on an empty heap, where the code must not
call it. -/
def pop (q : EventQueue) : Option (Event × EventQueue) :=
  match h : q.heap with
  | [] => none
  | x :: l =>
    some (x,
      { heap := ArrayHeap.popRest Event.earlier (x :: l)
        nextSeq := q.nextSeq
        isHeap := ArrayHeap.pop_isHeap Event.earlier_iff (h ▸ q.isHeap)
        seq_lt := fun e he => q.seq_lt e (by
          rw [h]
          exact List.mem_cons_of_mem _ ((ArrayHeap.pop_perm _ _ _).mem_iff.mp he))
        seq_nodup := by
          have hn := q.seq_nodup
          rw [h, List.map_cons, List.nodup_cons] at hn
          rw [((ArrayHeap.pop_perm Event.earlier x l).map Event.seq).nodup_iff]
          exact hn.2 })

/-- The pending events in dispatch order. -/
def agenda (q : EventQueue) : List Event := Agenda.sorted Event.key q.heap

theorem key_nodup {l : List Event} (h : (l.map Event.seq).Nodup) : (l.map Event.key).Nodup := by
  refine List.Nodup.of_map (fun k => (ofLex k).2) ?_
  rw [List.map_map]
  exact h

@[simp] theorem agenda_clear : clear.agenda = [] := rfl

theorem agenda_pairwise (q : EventQueue) : q.agenda.Pairwise (Agenda.NotAfter Event.key) :=
  Agenda.sorted_pairwise _ _

theorem seq_lt_of_mem_agenda {q : EventQueue} {e : Event} (h : e ∈ q.agenda) :
    e.seq < q.nextSeq :=
  q.seq_lt e (Agenda.mem_sorted.mp h)

theorem agenda_push (q : EventQueue) (t : Nat) (b : EventBody) :
    (q.push t b).agenda = Agenda.insert Event.key ⟨t, q.nextSeq, b⟩ q.agenda :=
  Agenda.sorted_of_perm_cons (key_nodup (q.push t b).seq_nodup)
    (ArrayHeap.push_perm Event.earlier q.heap _)

@[simp] theorem mem_agenda_push {q : EventQueue} {t : Nat} {b : EventBody} {e : Event} :
    e ∈ (q.push t b).agenda ↔ e = ⟨t, q.nextSeq, b⟩ ∨ e ∈ q.agenda := by
  rw [agenda_push]
  exact Agenda.mem_insert

/-- A pop takes the head of the agenda. -/
theorem agenda_of_pop {q q' : EventQueue} {e : Event} (h : q.pop = some (e, q')) :
    q.agenda = e :: q'.agenda := by
  unfold pop at h
  split at h
  · exact absurd h (by simp)
  · next x l hl =>
    obtain ⟨rfl, rfl⟩ := Prod.mk.inj (Option.some.inj h)
    have hperm := ArrayHeap.pop_perm Event.earlier x l
    refine Agenda.sorted_of_least (key_nodup q.seq_nodup) ?_ ?_
    · show q.heap.Perm (x :: ArrayHeap.popRest Event.earlier (x :: l))
      rw [hl]
      exact List.Perm.cons x hperm.symm
    · intro y hy
      exact ArrayHeap.pop_le (hl ▸ q.isHeap) y (hperm.mem_iff.mp hy)

theorem nextSeq_of_pop {q q' : EventQueue} {e : Event} (h : q.pop = some (e, q')) :
    q'.nextSeq = q.nextSeq := by
  unfold pop at h
  split at h
  · exact absurd h (by simp)
  · obtain ⟨-, rfl⟩ := Prod.mk.inj (Option.some.inj h)
    rfl

/-- A pop takes one event out of the heap and leaves the others. -/
theorem heap_of_pop {q q' : EventQueue} {e : Event} (h : q.pop = some (e, q')) :
    q.heap.Perm (e :: q'.heap) := by
  have ha := agenda_of_pop h
  have hp : q.heap.Perm q.agenda := (Agenda.sorted_perm Event.key q.heap).symm
  rw [ha] at hp
  exact hp.trans ((Agenda.sorted_perm Event.key q'.heap).cons e)

/-- What is left is strictly later in the order of the heap. -/
theorem least_of_pop {q q' : EventQueue} {e : Event} (h : q.pop = some (e, q')) :
    ∀ x ∈ q'.heap, e.key < x.key := by
  intro x hx
  have hx' : x ∈ q'.agenda := Agenda.mem_sorted.mpr hx
  have hp := q.agenda_pairwise
  rw [agenda_of_pop h] at hp
  have hle : e.key ≤ x.key := List.rel_of_pairwise_cons hp hx'
  have hn := (heap_of_pop h).map Event.key |>.nodup_iff.mp (key_nodup q.seq_nodup)
  rw [List.map_cons, List.nodup_cons] at hn
  exact lt_of_le_of_ne hle fun heq => hn.1 (heq ▸ List.mem_map_of_mem hx)

theorem agenda_eq_nil_iff (q : EventQueue) : q.agenda = [] ↔ q.heap = [] := by
  rw [← List.length_eq_zero_iff, ← List.length_eq_zero_iff]
  exact (Agenda.sorted_perm Event.key q.heap).length_eq ▸ Iff.rfl

theorem agenda_of_empty {q : EventQueue} (h : q.empty = true) : q.agenda = [] :=
  q.agenda_eq_nil_iff.mpr (List.isEmpty_iff.mp h)

theorem pop_eq_none_iff (q : EventQueue) : q.pop = none ↔ q.agenda = [] := by
  rw [agenda_eq_nil_iff]
  unfold pop
  split
  · next h => simp [h]
  · next h => simp [h]

theorem exists_pop {q : EventQueue} (h : q.agenda ≠ []) : ∃ e q', q.pop = some (e, q') := by
  rcases hpop : q.pop with _ | ⟨e, q'⟩
  · exact absurd (q.pop_eq_none_iff.mp hpop) h
  · exact ⟨e, q', rfl⟩

end EventQueue

end FabricSim
