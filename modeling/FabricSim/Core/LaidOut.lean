import FabricSim.Core.Memory
import FabricSim.Core.Network
import FabricSim.Core.Transit

/-!
# What it means that memory holds a state

`Laid sim s m`: the arrays, records and flags of `m` are the tables of `s`. A counter of `m` is
the counter of `s` as a word. What the code compares or indexes with also fits its word
(`Laid.senders`, `now_lt`), so that the comparison comes out as it does on numbers. The lemmas
go through the small operations that the handlers are made of: each of them stays inside its
arrays and leaves the changed state laid out (`Yields`). History is dropped on the way:
`record` forgets a packet's tag, and the operations on `wrapped`, `serial` and `trace` have no
counterpart.
-/

namespace FabricSim

/-- The sizes at which every number that a run indexes with or compares has a place in the
code's types. The windows keep the end of a ring's entries below `2 ^ 32`, the distances keep
the events of a run countable in 64 bits. -/
structure Simulation.Typed (sim : Simulation) : Prop where
  packets : sim.packetsExact < 2 ^ 32
  ports : sim.fabric.portCount ≤ 2 ^ 32
  windows : ∀ f, f < sim.flowCount → sim.window f ≤ 2 ^ 31
  starts : ∀ f, f < sim.flowCount → (sim.spec f).startNs < 2 ^ 64
  hops : ∀ f, f < sim.flowCount → sim.hops f ≤ 2 ^ 20

/-! ## Records -/

def Packet.record (x : Packet) : PacketRecord :=
  ⟨.ofNat x.flow, .ofNat x.index, .ofNat x.bytes, x.kind, .ofNat x.attempt⟩

def EventBody.record (t : UInt64) : EventBody → EventRecord
  | .inject f => .inject t f
  | .txComplete p => .txComplete t p
  | .arrive p x => .arrive t p x.record
  | .timeout f idx a => .timeout t f idx (.ofNat a)

def Event.record (e : Event) : EventRecord :=
  { e.body.record (.ofNat e.time) with seq := .ofNat e.seq }

def FlowTx.record (tx : FlowTx) : TxRecord where
  nextSeq := .ofNat tx.nextSeq
  inFlight := .ofNat tx.inFlight
  ackedCount := .ofNat tx.ackedCount
  retxHead := .ofNat tx.retxHead
  retxCount := .ofNat tx.retxCount
  nextSendNs := .ofNat tx.nextSendNs
  sendScheduled := tx.sendScheduled
  failed := tx.failed

def RunStats.record (st : RunStats) : StatsRecord where
  virtualEndNs := .ofNat st.virtualEndNs
  eventsProcessed := .ofNat st.eventsProcessed
  bytesInjected := .ofNat st.bytesInjected
  bytesDelivered := .ofNat st.bytesDelivered
  bytesDropped := .ofNat st.bytesDropped
  ackBytesInjected := .ofNat st.ackBytesInjected
  ackBytesDelivered := .ofNat st.ackBytesDelivered
  ackBytesDropped := .ofNat st.ackBytesDropped
  packetsRetransmitted := .ofNat st.packetsRetransmitted
  flowsComplete := .ofNat st.flowsComplete
  flowsIncomplete := .ofNat st.flowsIncomplete
  flowsFailed := .ofNat st.flowsFailed

/-- A counter that is reduced to 32 bits is the same word. -/
@[simp] theorem ofNat_u32 (n : Nat) : UInt32.ofNat (u32 n) = .ofNat n := by
  unfold u32
  exact UInt32.ofNat_mod_size

theorem toUInt64_of_toNat {b : UInt16} {n : Nat} (h : b.toNat = n) : b.toUInt64 = .ofNat n := by
  rw [← h, UInt64.ofNat_uInt16ToNat]

/-- The packets of a flow are as large on the wire as they are on paper. -/
theorem FlowSpec.wireBytes_eq {spec : FlowSpec} (hmtu : 0 < spec.mtuBytes)
    (hle : spec.mtuBytes ≤ kMaxPacketBytes) (hfit : spec.packetsExact < 2 ^ 32) {idx : Nat}
    (hidx : idx < spec.packetsTotal) : spec.wireBytes idx = .ofNat (spec.packetBytes idx) := by
  have hsize : spec.sizeBytes ≤ spec.packetsExact * spec.mtuBytes :=
    (packetsExact_le_iff hmtu).mp le_rfl
  have hword : spec.packetsExact * spec.mtuBytes ≤ 2 ^ 32 * kMaxPacketBytes :=
    Nat.mul_le_mul hfit.le hle
  have hstart : idx * spec.mtuBytes < spec.sizeBytes := by
    by_contra hnot
    have hall := (packetsExact_le_iff hmtu).mpr (not_lt.mp hnot)
    have hcount := spec.packetsTotal_le
    omega
  have hleft : spec.sizeBytes - idx * spec.mtuBytes < UInt64.size :=
    ((Nat.sub_le _ _).trans (hsize.trans hword)).trans_lt (by decide)
  have hmax : spec.mtuBytes < UInt64.size := hle.trans_lt (by decide)
  have hremaining : UInt64.ofNat spec.sizeBytes - UInt64.ofNat idx * UInt64.ofNat spec.mtuBytes =
      .ofNat (spec.sizeBytes - idx * spec.mtuBytes) := by
    rw [← UInt64.ofNat_mul, UInt64.ofNat_sub hstart.le]
  unfold wireBytes packetBytes
  dsimp only
  rw [hremaining]
  by_cases hlast : spec.sizeBytes - idx * spec.mtuBytes < spec.mtuBytes
  · rw [if_pos hlast, if_pos, UInt64.toUInt16_ofNat']
    exact (UInt64.ofNat_lt_iff_lt hleft hmax).mpr hlast
  · rw [if_neg hlast, if_neg, UInt64.toUInt16_ofNat']
    exact fun hlt => hlast ((UInt64.ofNat_lt_iff_lt hleft hmax).mp hlt)

structure Packet.Fits (sim : Simulation) (x : Packet) : Prop where
  flow_lt : x.flow < sim.flowCount
  index_lt : x.index < sim.packetsTotal x.flow
  bytes_lt : x.bytes < 2 ^ 16

def EventBody.Fits (sim : Simulation) : EventBody → Prop
  | .inject f => f < sim.flowCount
  | .txComplete p => p < sim.fabric.portCount
  | .arrive p x => p < sim.fabric.portCount ∧ x.Fits sim
  | .timeout f idx a => f < sim.flowCount ∧ idx < sim.packetsTotal f ∧ a < 2 ^ 8

structure Event.Fits (sim : Simulation) (e : Event) : Prop where
  time_lt : e.time < 2 ^ 64
  body : e.body.Fits sim

/-- The heap compares records as it compares events. -/
theorem Event.earlier_record {x y : Event} (hx : x.time < 2 ^ 64 ∧ x.seq < 2 ^ 64)
    (hy : y.time < 2 ^ 64 ∧ y.seq < 2 ^ 64) : x.record.earlier y.record = x.earlier y := by
  have htime : ∀ e : Event, e.record.timeNs = .ofNat e.time := by
    intro ⟨t, q, b⟩
    cases b <;> rfl
  have hseq : ∀ e : Event, e.record.seq = .ofNat e.seq := fun _ => rfl
  have hlt : ∀ a b : Nat, a < 2 ^ 64 → b < 2 ^ 64 →
      (UInt64.ofNat a < UInt64.ofNat b ↔ a < b) := by
    intro a b ha hb
    rw [UInt64.lt_iff_toNat_lt, UInt64.toNat_ofNat_of_lt' ha, UInt64.toNat_ofNat_of_lt' hb]
  have heq : UInt64.ofNat x.time = UInt64.ofNat y.time ↔ x.time = y.time := by
    rw [← UInt64.toNat_inj, UInt64.toNat_ofNat_of_lt' hx.1, UInt64.toNat_ofNat_of_lt' hy.1]
  unfold EventRecord.earlier Event.earlier
  simp only [htime, hseq, ne_eq, heq, hlt _ _ hx.1 hy.1, hlt _ _ hx.2 hy.2]

/-! ## The flags -/

namespace PktState

theorem acked_iff (st : PktState) : st.flags &&& kAcked ≠ 0 ↔ st.acked = true := by
  obtain ⟨d, a, i⟩ := st
  cases d <;> cases a <;> cases i <;> decide

theorem inFlight_iff (st : PktState) : st.flags &&& kInFlight ≠ 0 ↔ st.inFlight = true := by
  obtain ⟨d, a, i⟩ := st
  cases d <;> cases a <;> cases i <;> decide

theorem delivered_iff (st : PktState) : st.flags &&& kDelivered ≠ 0 ↔ st.delivered = true := by
  obtain ⟨d, a, i⟩ := st
  cases d <;> cases a <;> cases i <;> decide

theorem flags_delivered (st : PktState) :
    ({ st with delivered := true } : PktState).flags = st.flags ||| kDelivered := by
  obtain ⟨d, a, i⟩ := st
  cases d <;> cases a <;> cases i <;> decide

theorem flags_acked (st : PktState) :
    ({ st with acked := true } : PktState).flags = st.flags ||| kAcked := by
  obtain ⟨d, a, i⟩ := st
  cases d <;> cases a <;> cases i <;> decide

theorem flags_inFlight (st : PktState) :
    ({ st with inFlight := true } : PktState).flags = st.flags ||| kInFlight := by
  obtain ⟨d, a, i⟩ := st
  cases d <;> cases a <;> cases i <;> decide

theorem flags_landed (st : PktState) :
    ({ st with inFlight := false } : PktState).flags = st.flags &&& ~~~kInFlight := by
  obtain ⟨d, a, i⟩ := st
  cases d <;> cases a <;> cases i <;> decide

end PktState

/-! ## The relation -/

/-- The record of a port, up to the cells of its queue that hold nothing. -/
structure PortState.Shows (sim : Simulation) (ps : PortState) (r : PortRecord) : Prop where
  busy : r.busy = ps.busy
  inFlight : ps.busy = true → r.inFlight = ps.inFlight.record
  items : r.queue.toList = ps.queue.toList.map Packet.record
  capacity : r.queue.capacity = ps.queue.capacity
  sent : r.packetsSent = .ofNat ps.packetsSent ∧ r.bytesSent = .ofNat ps.bytesSent
  dropped : r.packetsDropped = .ofNat ps.packetsDropped ∧ r.bytesDropped = .ofNat ps.bytesDropped
  fits : ∀ x ∈ ps.backlog, x.Fits sim

/-- The heap of the queue, as long as the counter has not wrapped. -/
structure EventQueue.Shows (sim : Simulation) (q : EventQueue) (r : EventHeap) : Prop where
  nextSeq : r.nextSeq = .ofNat q.nextSeq
  heap : q.nextSeq ≤ 2 ^ 64 → r.heap = q.heap.map Event.record
  events : ∀ e ∈ q.heap, e.Fits sim

namespace EventQueue.Shows

variable {sim : Simulation} {q q' : EventQueue} {r : EventHeap} {e : Event}

theorem clear (sim : Simulation) : EventQueue.clear.Shows sim {} where
  nextSeq := rfl
  heap := fun _ => rfl
  events := fun _ he => absurd he List.not_mem_nil

/-- The event's record takes the place in the heap that the event takes. -/
theorem push (h : q.Shows sim r) {t : Nat} (ht : t < 2 ^ 64) {b : EventBody} (hb : b.Fits sim) :
    (q.push t b).Shows sim (r.push (b.record (.ofNat t))) where
  nextSeq := by
    show r.nextSeq + 1 = UInt64.ofNat (q.nextSeq + 1)
    rw [h.nextSeq, UInt64.ofNat_add]
    rfl
  heap := by
    intro hseq
    have hseq : q.nextSeq + 1 ≤ 2 ^ 64 := hseq
    show ArrayHeap.push EventRecord.earlier r.heap { b.record (.ofNat t) with seq := r.nextSeq } =
      (ArrayHeap.push Event.earlier q.heap ⟨t, q.nextSeq, b⟩).map Event.record
    rw [h.heap (Nat.le_of_succ_le hseq), h.nextSeq]
    refine ArrayHeap.push_map (P := fun e : Event => e.time < 2 ^ 64 ∧ e.seq < 2 ^ 64)
      (x := ⟨t, q.nextSeq, b⟩) (fun x y hx hy => Event.earlier_record hx hy)
      (fun e he => ⟨(h.events e he).time_lt, ?_⟩) ⟨ht, hseq⟩
    exact (q.seq_lt e he).trans_le (Nat.le_of_succ_le hseq)
  events := by
    intro e he
    rcases List.mem_cons.mp ((ArrayHeap.push_perm _ _ _).mem_iff.mp he) with rfl | he
    · exact ⟨ht, hb⟩
    · exact h.events e he

theorem pop (h : q.Shows sim r) (hseq : q.nextSeq ≤ 2 ^ 64) (hpop : q.pop = some (e, q')) :
    e.Fits sim ∧ ∃ r', r.pop = some (e.record, r') ∧ q'.Shows sim r' := by
  have hheap := h.heap hseq
  unfold EventQueue.pop at hpop
  split at hpop
  · nomatch hpop
  · next x l hq =>
    obtain ⟨rfl, rfl⟩ := Prod.mk.inj (Option.some.inj hpop)
    have hmem : ∀ y ∈ l, y ∈ q.heap := fun y hy => hq ▸ List.mem_cons_of_mem _ hy
    rw [hq, List.map_cons] at hheap
    refine ⟨h.events x (hq ▸ List.mem_cons_self), { r with
      heap := ArrayHeap.popRest EventRecord.earlier (x.record :: l.map Event.record) }, ?_,
      ⟨h.nextSeq, fun _ => ?_, ?_⟩⟩
    · unfold EventHeap.pop
      rw [hheap]
    · refine ArrayHeap.popRest_map (P := fun e : Event => e.time < 2 ^ 64 ∧ e.seq < 2 ^ 64)
        (fun x y hx hy => Event.earlier_record hx hy)
        fun y hy => ⟨(h.events y (hmem y hy)).time_lt, ?_⟩
      exact (q.seq_lt y (hmem y hy)).trans_le hseq
    · intro y hy
      exact h.events y (hmem y ((ArrayHeap.pop_perm _ _ _).mem_iff.mp hy))

theorem pop_none (h : q.Shows sim r) (hseq : q.nextSeq ≤ 2 ^ 64) (hpop : q.pop = none) :
    r.pop = none := by
  have hheap := h.heap hseq
  unfold EventQueue.pop at hpop
  split at hpop
  · next hq =>
    rw [hq] at hheap
    unfold EventHeap.pop
    rw [hheap]
    rfl
  · nomatch hpop

end EventQueue.Shows

/-- A ring whose live entries are indices of packets. -/
structure RingSound (window total head count : Nat) (ring : Nat → Nat) : Prop where
  head_lt : head < window
  count_le : count ≤ window
  entries : ∀ i, i < count → ring (Ring.slot window head i) < total

namespace RingSound

variable {window total head count : Nat} {ring : Nat → Nat}

theorem front (h : RingSound window total head (count + 1) ring) : ring head < total := by
  have hslot : Ring.slot window head 0 = head := if_neg (Nat.not_le.mpr h.head_lt)
  have hentry := h.entries 0 (Nat.succ_pos count)
  rwa [hslot] at hentry

theorem pop (h : RingSound window total head (count + 1) ring) :
    RingSound window total (Ring.next window head) count ring where
  head_lt := Ring.next_lt h.head_lt
  count_le := Nat.le_of_succ_le h.count_le
  entries := by
    intro i hi
    have hle := h.count_le
    rw [Ring.slot_next (by omega)]
    exact h.entries (i + 1) (Nat.succ_lt_succ hi)

theorem set (h : RingSound window total head count ring) (slot : Nat) {idx : Nat}
    (hidx : idx < total) : RingSound window total head count (Function.update ring slot idx) where
  head_lt := h.head_lt
  count_le := h.count_le
  entries := by
    intro i hi
    rw [Function.update_apply]
    split
    · exact hidx
    · exact h.entries i hi

/-- The entry behind the last one was written before it is counted. -/
theorem grow (h : RingSound window total head count ring) (hroom : count < window)
    (hlast : ring (Ring.slot window head count) < total) :
    RingSound window total head (count + 1) ring where
  head_lt := h.head_lt
  count_le := hroom
  entries := by
    intro i hi
    rcases Nat.lt_succ_iff_lt_or_eq.mp hi with hlt | rfl
    · exact h.entries i hlt
    · exact hlast

/-- What the inner loop of the sender leaves, and what it hands out. -/
theorem popRetx (acked : Nat → Bool) : ∀ {count head : Nat},
    RingSound window total head count ring →
      (∀ idx ∈ (State.popRetx window ring acked head count).1, idx < total) ∧
      RingSound window total (State.popRetx window ring acked head count).2.1
        (State.popRetx window ring acked head count).2.2 ring := by
  intro count
  induction count with
  | zero =>
    intro head h
    refine ⟨?_, h⟩
    intro idx hidx
    nomatch hidx
  | succ count ih =>
    intro head h
    unfold State.popRetx
    dsimp only
    split
    · exact ih h.pop
    · refine ⟨?_, h.pop⟩
      intro idx hidx
      rw [← Option.mem_some.mp hidx]
      exact h.front

end RingSound

/-- The numbers of a sender that its words are compared by. -/
structure TxSound (sim : Simulation) (f : FlowId) (tx : FlowTx) (ring : Nat → Nat) : Prop where
  ring : RingSound (sim.window f) (sim.packetsTotal f) tx.retxHead tx.retxCount ring
  room : tx.inFlight ≤ sim.window f
  seq : tx.nextSeq ≤ sim.packetsTotal f
  next_lt : tx.nextSendNs < 2 ^ 64

theorem Simulation.Typed.window_lt {sim : Simulation} (hty : sim.Typed) {f : FlowId}
    (hf : f < sim.flowCount) : sim.window f < 2 ^ 32 :=
  (hty.windows f hf).trans_lt (by decide)

structure Laid (sim : Simulation) (s : State) (m : Memory) : Prop where
  now : m.now = .ofNat s.now
  now_lt : s.now < 2 ^ 64
  queue : s.queue.Shows sim m.queue
  ports : Cells.Each m.ports sim.fabric.portCount fun p r => (s.port p).Shows sim r
  tx : Cells.Each m.tx sim.flowCount fun f x => x = (s.tx f).record
  results : Cells.Each m.results sim.flowCount fun f x => x = (s.result f).row
  pktState : Cells.Rows m.pktState sim.flowCount sim.packetsTotal fun f i b =>
    b = (s.pkt f i).flags
  pktAttempt : Cells.Rows m.pktAttempt sim.flowCount sim.packetsTotal fun f i b =>
    b.toNat = s.pktAttempt f i
  retxRing : Cells.Rows m.retxRing sim.flowCount sim.window fun f i w =>
    w.toNat = s.retxRing f i
  senders : ∀ f, f < sim.flowCount → TxSound sim f (s.tx f) (s.retxRing f)
  stats : m.stats = s.stats.record

/-- The computation stays inside its arrays, and lays out `s`. -/
def Yields (sim : Simulation) (x : Option Memory) (s : State) : Prop :=
  ∃ m, x = some m ∧ Laid sim s m

section Yields

variable {sim : Simulation} {s s' : State} {m : Memory}

theorem Laid.yields (h : Laid sim s m) : Yields sim (some m) s := ⟨m, rfl, h⟩

theorem Yields.bind {x : Option Memory} {k : Memory → Option Memory} (hx : Yields sim x s)
    (hk : ∀ m, Laid sim s m → Yields sim (k m) s') : Yields sim (x >>= k) s' := by
  obtain ⟨m, rfl, h⟩ := hx
  exact hk m h

/-- A read inside the array. -/
theorem Yields.read {α : Type} {x : Option α} {v : α} {k : α → Option Memory} (hx : x = some v)
    (hk : Yields sim (k v) s) : Yields sim (x >>= k) s := by
  rw [hx]
  exact hk

end Yields

namespace Laid

variable {sim : Simulation} {s : State} {m : Memory} {f : FlowId} {p : PortId}

/-! ## Reads -/

theorem readTx (h : Laid sim s m) (hf : f < sim.flowCount) :
    m.tx.read f = some (s.tx f).record := by
  obtain ⟨x, hx, rfl⟩ := h.tx.read hf
  exact hx

theorem readResult (h : Laid sim s m) (hf : f < sim.flowCount) :
    m.results.read f = some (s.result f).row := by
  obtain ⟨x, hx, rfl⟩ := h.results.read hf
  exact hx

theorem readState (h : Laid sim s m) (hty : sim.Typed) (hf : f < sim.flowCount) {idx : Nat}
    (hidx : idx < sim.packetsTotal f) :
    m.pktState.read (sim.pktSlot f idx) = some (s.pkt f idx).flags := by
  obtain ⟨x, hx, rfl⟩ := h.pktState.read hf hidx
  rw [Simulation.pktSlot_eq hty.packets hf hidx]
  exact hx

theorem readAttempt (h : Laid sim s m) (hty : sim.Typed) (hf : f < sim.flowCount) {idx : Nat}
    (hidx : idx < sim.packetsTotal f) : ∃ a : UInt8,
      m.pktAttempt.read (sim.pktSlot f idx) = some a ∧ a.toNat = s.pktAttempt f idx := by
  rw [Simulation.pktSlot_eq hty.packets hf hidx]
  exact h.pktAttempt.read hf hidx

theorem readRing (h : Laid sim s m) (hty : sim.Typed) (hf : f < sim.flowCount) {i : Nat}
    (hi : i < sim.window f) : ∃ w : UInt32,
      m.retxRing.read (sim.retxSlot f i) = some w ∧ w.toNat = s.retxRing f i := by
  rw [Simulation.retxSlot_eq hty.packets hf hi]
  exact h.retxRing.read hf hi

theorem now_toNat (h : Laid sim s m) : m.now.toNat = s.now := by
  rw [h.now]
  exact UInt64.toNat_ofNat_of_lt' h.now_lt

theorem later (h : Laid sim s m) (d : Nat) : m.now + .ofNat d = .ofNat (u64 (s.now + d)) := by
  unfold u64
  rw [h.now, ← UInt64.ofNat_add]
  exact (UInt64.ofNat_mod_size ..).symm

/-! ## Operations on one member -/

theorem log (h : Laid sim s m) (o : Obs) : Laid sim (s.log o) m := { h with }

theorem nextSerial (h : Laid sim s m) : Laid sim s.nextSerial m := { h with }

theorem noteTime (h : Laid sim s m) (t : Nat) : Laid sim (s.noteTime t) m := { h with }

theorem modifyStats (h : Laid sim s m) (g : RunStats → RunStats) (g' : StatsRecord → StatsRecord)
    (hg : g' s.stats.record = (g s.stats).record) :
    Laid sim (s.modifyStats g) (m.modifyStats g') :=
  { h with stats := (congrArg g' h.stats).trans hg }

theorem modifyTx (h : Laid sim s m) (hf : f < sim.flowCount) {g : FlowTx → FlowTx}
    {g' : TxRecord → TxRecord} (hg : g' (s.tx f).record = (g (s.tx f)).record)
    (hsound : TxSound sim f (g (s.tx f)) (s.retxRing f)) :
    Yields sim (m.modifyTx f g') (s.modifyTx f g) := by
  obtain ⟨a, ha, htx⟩ := h.tx.modify hf (g := g')
    (S := fun j x => x = ((s.modifyTx f g).tx j).record)
    (fun x hx => by simp [hx, hg]) (fun j x hj hx => by simp [hx, hj])
  refine ⟨{ m with tx := a }, ?_, { h with tx := htx, senders := ?_ }⟩
  · unfold Memory.modifyTx
    rw [ha]
    rfl
  · intro j hj
    by_cases hjf : j = f
    · subst hjf
      simpa using hsound
    · simpa [hjf] using h.senders j hj

theorem modifyResult (h : Laid sim s m) (hf : f < sim.flowCount) {g : FlowResult → FlowResult}
    {g' : ResultRow → ResultRow} (hg : g' (s.result f).row = (g (s.result f)).row) :
    Yields sim (m.modifyResult f g') (s.modifyResult f g) := by
  obtain ⟨a, ha, hres⟩ := h.results.modify hf (g := g')
    (S := fun j x => x = ((s.modifyResult f g).result j).row)
    (fun x hx => by simp [hx, hg]) (fun j x hj hx => by simp [hx, hj])
  refine ⟨{ m with results := a }, ?_, { h with results := hres }⟩
  unfold Memory.modifyResult
  rw [ha]
  rfl

theorem modifyPkt (h : Laid sim s m) (hty : sim.Typed) (hf : f < sim.flowCount) {idx : Nat}
    (hidx : idx < sim.packetsTotal f) {g : PktState → PktState} {g' : UInt8 → UInt8}
    (hg : (g (s.pkt f idx)).flags = g' (s.pkt f idx).flags) :
    Yields sim (m.modifyState (sim.pktSlot f idx) g') (s.modifyPkt f idx g) := by
  obtain ⟨a, ha, hpkt⟩ := h.pktState.modify hf hidx (g := g')
    (S := fun j i b => b = ((s.modifyPkt f idx g).pkt j i).flags)
    (fun b hb => by simp [hb, hg]) (fun j i b hji hb => by
      by_cases hj : j = f
      · subst hj
        have hi : i ≠ idx := fun hi => hji ⟨rfl, hi⟩
        simp [hb, hi]
      · simp [hb, hj])
  refine ⟨{ m with pktState := a }, ?_, { h with pktState := hpkt }⟩
  unfold Memory.modifyState
  rw [Simulation.pktSlot_eq hty.packets hf hidx, ha]
  rfl

/-- The attempt byte does not wrap. -/
theorem nextAttempt (h : Laid sim s m) (hty : sim.Typed) (hf : f < sim.flowCount) {idx : Nat}
    (hidx : idx < sim.packetsTotal f) (hlt : s.pktAttempt f idx + 1 < 2 ^ 8) :
    Yields sim (m.modifyAttempt (sim.pktSlot f idx) fun a => a + 1)
      (s.nextAttempt f idx) := by
  obtain ⟨a, ha, hatt⟩ := h.pktAttempt.modify hf hidx (g := fun a => a + 1)
    (S := fun j i b => b.toNat = (s.nextAttempt f idx).pktAttempt j i)
    (fun b hb => by
      have hsum : (b + 1).toNat = b.toNat + 1 := by
        rw [UInt8.toNat_add]
        exact Nat.mod_eq_of_lt (by rw [hb]; exact hlt)
      simp [hsum, hb]) (fun j i b hji hb => by
      by_cases hj : j = f
      · subst hj
        have hi : i ≠ idx := fun hi => hji ⟨rfl, hi⟩
        simp [hb, hi]
      · simp [hb, hj])
  refine ⟨{ m with pktAttempt := a }, ?_, { h with pktAttempt := hatt }⟩
  unfold Memory.modifyAttempt
  rw [Simulation.pktSlot_eq hty.packets hf hidx, ha]
  rfl

/-- A ring write: the other entries of the ring are where they were. -/
theorem setRing (h : Laid sim s m) (hty : sim.Typed) (hf : f < sim.flowCount) {slot idx : Nat}
    (hslot : slot < sim.window f) (hidx : idx < sim.packetsTotal f) :
    Yields sim (m.setRing (sim.retxSlot f slot) (.ofNat idx)) (s.setRing f slot idx) := by
  have hword : (UInt32.ofNat idx).toNat = idx :=
    UInt32.toNat_ofNat_of_lt' (hidx.trans (u32_lt _))
  obtain ⟨a, ha, hcells⟩ := h.retxRing.modify hf hslot (g := fun _ => UInt32.ofNat idx)
    (S := fun j i w => w.toNat = (s.setRing f slot idx).retxRing j i)
    (fun w _ => by simp [hword]) (fun j i w hji hw => by
      by_cases hj : j = f
      · subst hj
        have hi : i ≠ slot := fun hi => hji ⟨rfl, hi⟩
        simp [hw, hi]
      · simp [hw, hj])
  refine ⟨{ m with retxRing := a }, ?_, { h with retxRing := hcells, senders := ?_ }⟩
  · unfold Memory.setRing
    rw [Simulation.retxSlot_eq hty.packets hf hslot, ha]
    rfl
  · intro j hj
    rw [State.setRing_retxRing, State.setRing_tx]
    by_cases hjf : j = f
    · subst hjf
      rw [Function.update_self]
      exact { h.senders j hj with ring := (h.senders j hj).ring.set slot hidx }
    · rw [Function.update_of_ne hjf]
      exact h.senders j hj

theorem modifyPort (h : Laid sim s m) (hp : p < sim.fabric.portCount) {g : PortState → PortState}
    {g' : PortRecord → PortRecord}
    (hg : ∀ r, (s.port p).Shows sim r → (g (s.port p)).Shows sim (g' r)) :
    Yields sim (m.modifyPort p g') (s.modifyPort p g) := by
  obtain ⟨a, ha, hports⟩ := h.ports.modify hp (g := g')
    (S := fun q r => ((s.modifyPort p g).port q).Shows sim r)
    (fun r hr => by simpa using hg r hr) (fun q r hq hr => by simpa [hq] using hr)
  refine ⟨{ m with ports := a }, ?_, { h with ports := hports }⟩
  unfold Memory.modifyPort
  rw [ha]
  rfl

theorem pushAt (h : Laid sim s m) {t : Nat} (ht : t < 2 ^ 64) {b : EventBody} (hb : b.Fits sim) :
    Laid sim (s.pushAt t b) (m.push (b.record (.ofNat t))) :=
  { h with queue := h.queue.push ht hb }

theorem pushAfter (h : Laid sim s m) (d : Nat) {b : EventBody} (hb : b.Fits sim) :
    Laid sim (s.pushAfter d b) (m.push (b.record (m.now + .ofNat d))) := by
  rw [h.later]
  exact (h.noteTime (s.now + d)).pushAt (u64_lt _) hb

end Laid

end FabricSim
