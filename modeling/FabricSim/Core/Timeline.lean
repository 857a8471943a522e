import FabricSim.Core.RoutingSafety
import FabricSim.Lib.FifoServer

/-!
# The timed view of a link

As long as no addition to the virtual time has wrapped, a link is a first-come
first-served server followed by a fixed delay. `timed` lists the packets of a
link with the time each will reach the far end. That time is settled when the
packet is offered and never changes: an offer appends one entry
(`timed_enqueue`), the end of a transmission changes nothing
(`timed_onTxComplete`), an arrival takes the head off (`timed_advance_arrive`).

`OnTime` is the invariant behind it: no event is in the past, what is on the
wire of a link is at most its propagation delay away, and what is in a
transmitter at most its serialization time.
-/

namespace FabricSim

namespace EventQueue

theorem arrivals_push_last (q : EventQueue) {t : Nat} {p : PortId} (x : Packet)
    (h : ∀ a ∈ q.arrivals p, a.1 ≤ t) :
    (q.push t (.arrive p x)).arrivals p = q.arrivals p ++ [(t, x)] := by
  have hself : Event.arrival p ⟨t, q.nextSeq, .arrive p x⟩ = some (t, x) := if_pos rfl
  unfold arrivals
  rw [agenda_push]
  refine Agenda.filterMap_insert_last hself q.agenda_pairwise fun e he hsome => ?_
  obtain ⟨a, ha⟩ := Option.isSome_iff_exists.mp hsome
  refine Event.key_lt_of ?_ (seq_lt_of_mem_agenda he)
  have hle := h a (List.mem_filterMap.mpr ⟨e, he, ha⟩)
  have htime : a.1 = e.time := by
    unfold Event.arrival at ha
    split at ha
    · split at ha
      · rw [← Option.some.inj ha]
      · exact absurd ha (by simp)
    · exact absurd ha (by simp)
  exact htime ▸ hle

end EventQueue

/-- How long port `p` takes to clock out a packet. -/
def Simulation.serNs (sim : Simulation) (p : PortId) (x : Packet) : Nat :=
  serializationNs x.bytes (sim.fabric.port p).rate

namespace State

variable {sim : Simulation} {policy : RoutingPolicy} {s s' : State} {p : PortId} {e : Event}
  {queue : EventQueue}

/-- The packets in a port with the times their transmissions end. -/
def sends (sim : Simulation) (s : State) (p : PortId) : List (Nat × Packet) :=
  match s.queue.completions p with
  | [] => []
  | c :: _ =>
    (c, (s.port p).inFlight) :: FifoServer.finish (sim.serNs p) c (s.port p).queue.toList

/-- The packets of a link with the times they reach its far end, first to do so
first. -/
def timed (sim : Simulation) (s : State) (p : PortId) : List (Nat × Packet) :=
  s.queue.arrivals p ++
    (s.sends sim p).map fun d => (d.1 + (sim.fabric.port p).propDelayNs, d.2)

/-- When port `p` could start on one more packet. -/
def freeAt (sim : Simulation) (s : State) (p : PortId) : Nat :=
  match s.queue.completions p with
  | [] => s.now
  | c :: _ => FifoServer.drain (sim.serNs p) c (s.port p).queue.toList

structure OnTime (sim : Simulation) (s : State) : Prop where
  future : ∀ e ∈ s.queue.agenda, s.now ≤ e.time
  flying : ∀ p, ∀ a ∈ s.queue.arrivals p, a.1 ≤ s.now + (sim.fabric.port p).propDelayNs
  sending : ∀ p, ∀ c ∈ s.queue.completions p, c ≤ s.now + sim.serNs p (s.port p).inFlight

theorem Coherent.completions_eq_nil (hc : s.Coherent) :
    s.queue.completions p = [] ↔ (s.port p).busy = false := by
  rw [← List.length_eq_zero_iff, hc.tx]
  cases (s.port p).busy <;> simp

theorem Coherent.completions_eq_cons (hc : s.Coherent) (hb : (s.port p).busy = true) :
    ∃ c, s.queue.completions p = [c] := by
  have := hc.tx p
  rw [hb, if_pos rfl] at this
  exact List.length_eq_one_iff.mp this

theorem map_snd_timed (sim : Simulation) (hc : s.Coherent) (p : PortId) :
    (s.timed sim p).map Prod.snd = s.onLink p := by
  unfold timed sends onLink wire PortState.backlog
  rw [List.map_append, List.map_map]
  congr 1
  cases hb : (s.port p).busy with
  | false =>
    rw [hc.completions_eq_nil.mpr hb, hc.idle p hb]
    rfl
  | true =>
    obtain ⟨c, hcp⟩ := hc.completions_eq_cons hb
    rw [hcp]
    show _ :: (FifoServer.finish _ c _).map _ = _
    rw [show (Prod.snd ∘ fun d : Nat × Packet => (d.1 + (sim.fabric.port p).propDelayNs, d.2)) =
      Prod.snd from rfl, FifoServer.map_snd_finish]
    rfl

theorem mem_onLink_of_timed (hc : s.Coherent) {p : PortId} {d : Nat} {x : Packet}
    (h : (d, x) ∈ s.timed sim p) : x ∈ s.onLink p := by
  rw [← map_snd_timed sim hc]
  exact List.mem_map.mpr ⟨(d, x), h, rfl⟩

theorem NetEq.timed (h : NetEq s s') (p : PortId) : s'.timed sim p = s.timed sim p := by
  unfold State.timed sends
  rw [h.port, h.arrivals, h.completions]

theorem NetEq.freeAt (h : NetEq s s') (hnow : s'.now = s.now) (p : PortId) :
    s'.freeAt sim p = s.freeAt sim p := by
  unfold State.freeAt
  rw [h.port, h.completions, hnow]

/-! ## Offering a packet -/

/-- No addition wrapped in an offer: none had before, and the end of the
transmission it may start is within 64 bits. -/
theorem wrapped_enqueue (hc : s.Coherent) {x : Packet}
    (hw : (s.enqueue sim p x).wrapped = false) :
    s.wrapped = false ∧ ((s.port p).queue.count ≠ (s.port p).queue.capacity →
      (s.port p).busy = false → s.now + sim.serNs p x < 2 ^ 64) := by
  rcases enqueue_cases s p x sim with ⟨hfull, h⟩ | ⟨queue, hq, ⟨hb, h⟩ | ⟨hb, h⟩⟩
  · rw [h] at hw
    exact ⟨by simpa using hw, fun hroom => absurd hfull hroom⟩
  · rw [h] at hw
    exact ⟨hw, fun _ hidle => absurd hb (by rw [hidle]; simp)⟩
  · obtain ⟨hfront, -⟩ := toList_push_idle hq (hc.idle p hb)
    rw [h] at hw
    simp only [startTx_wrapped, modifyPort_wrapped, log_wrapped, modifyPort_port, modifyPort_now,
      log_now, Function.update_self, hfront, Bool.or_eq_false_iff, decide_eq_false_iff_not,
      not_le] at hw
    exact ⟨hw.1, fun _ _ => hw.2⟩

theorem completions_enqueue (hc : s.Coherent) {x : Packet}
    (hw : (s.enqueue sim p x).wrapped = false)
    (hroom : (s.port p).queue.count ≠ (s.port p).queue.capacity) (q : PortId) :
    (s.enqueue sim p x).queue.completions q =
      if q = p ∧ (s.port p).busy = false then [s.now + sim.serNs p x] else s.queue.completions q := by
  obtain ⟨-, -, hqueue⟩ := enqueue_room sim hc.idle p x hroom
  rw [hqueue]
  cases hb : (s.port p).busy with
  | true => rw [if_pos rfl, if_neg (by simp)]
  | false =>
    have hlt : s.now + serializationNs x.bytes (sim.fabric.port p).rate < 2 ^ 64 :=
      (wrapped_enqueue hc hw).2 hroom hb
    rw [if_neg (by simp), u64_of_lt hlt]
    by_cases hqp : q = p
    · subst hqp
      rw [if_pos ⟨rfl, rfl⟩, EventQueue.completions_push_self _ _ _ (hc.completions_eq_nil.mpr hb)]
      rfl
    · rw [if_neg (fun h => hqp h.1), EventQueue.completions_push_of_ne _ _ _ (Ne.symm hqp)]

theorem arrivals_enqueue (s : State) (p : PortId) (x : Packet) (q : PortId) :
    (s.enqueue sim p x).queue.arrivals q = s.queue.arrivals q := by
  rcases enqueue_queue sim s p x with h | ⟨t, h⟩ <;> rw [h]
  exact EventQueue.arrivals_push_txComplete ..

/-- What an offer with room does inside the port. -/
theorem enqueue_inside (sim : Simulation) (hc : s.Coherent) (x : Packet)
    (hroom : (s.port p).queue.count ≠ (s.port p).queue.capacity) :
    ((s.port p).busy = true → ((s.enqueue sim p x).port p).inFlight = (s.port p).inFlight ∧
      ((s.enqueue sim p x).port p).queue.toList = (s.port p).queue.toList ++ [x]) ∧
    ((s.port p).busy = false → ((s.enqueue sim p x).port p).inFlight = x ∧
      ((s.enqueue sim p x).port p).queue.toList = []) := by
  rcases enqueue_cases s p x sim with ⟨hfull, -⟩ | ⟨queue, hq, ⟨hb, h⟩ | ⟨hb, h⟩⟩
  · exact absurd hfull hroom
  · refine ⟨fun _ => ?_, fun hidle => absurd hb (by rw [hidle]; simp)⟩
    rw [h]
    simp [BoundedFifo.toList_tryPush hq]
  · obtain ⟨hfront, hrest⟩ := toList_push_idle hq (hc.idle p hb)
    refine ⟨fun hbusy => absurd hb (by rw [hbusy]; simp), fun _ => ?_⟩
    rw [h]
    simp [hfront, hrest]

/-- An offer leaves the other ports alone. -/
theorem enqueue_port_of_ne (s : State) {p q : PortId} (x : Packet) (h : q ≠ p) :
    (s.enqueue sim p x).port q = s.port q := by
  rcases enqueue_cases s p x sim with ⟨-, h'⟩ | ⟨queue, -, ⟨-, h'⟩ | ⟨-, h'⟩⟩ <;> rw [h'] <;> simp [h]

/-- An offered packet takes its place behind what the port has to send. -/
theorem sends_enqueue (hc : s.Coherent) {x : Packet}
    (hw : (s.enqueue sim p x).wrapped = false) (q : PortId) :
    (s.enqueue sim p x).sends sim q =
      if q = p ∧ (s.port p).queue.count ≠ (s.port p).queue.capacity then
        s.sends sim q ++ [(s.freeAt sim p + sim.serNs p x, x)]
      else s.sends sim q := by
  by_cases hfull : (s.port p).queue.count = (s.port p).queue.capacity
  · rw [if_neg (fun h => h.2 hfull), enqueue_full sim s p x hfull]
    unfold sends
    rw [drop_queue, drop_port]
    by_cases hqp : q = p
    · subst hqp
      rw [Function.update_self]
      rfl
    · rw [Function.update_of_ne hqp]
      rfl
  by_cases hqp : q = p
  · subst hqp
    rw [if_pos ⟨rfl, hfull⟩]
    obtain ⟨hbusy, hidle⟩ := enqueue_inside sim hc x hfull
    unfold sends freeAt
    rw [completions_enqueue hc hw hfull]
    cases hb : (s.port q).busy with
    | true =>
      obtain ⟨c, hcp⟩ := hc.completions_eq_cons hb
      obtain ⟨h1, h2⟩ := hbusy hb
      rw [if_neg (by simp), hcp, h1, h2]
      show _ :: FifoServer.finish _ c (_ ++ [x]) = _
      rw [FifoServer.finish_concat]
      rfl
    | false =>
      obtain ⟨h1, h2⟩ := hidle hb
      rw [if_pos ⟨rfl, rfl⟩, hc.completions_eq_nil.mpr hb, h1, h2]
      rfl
  · rw [if_neg (fun h => hqp h.1)]
    unfold sends
    rw [completions_enqueue hc hw hfull, if_neg (fun h => hqp h.1), enqueue_port_of_ne s x hqp]

/-- The time a packet reaches the far end is settled when it is offered. -/
theorem timed_enqueue (hc : s.Coherent) {x : Packet}
    (hw : (s.enqueue sim p x).wrapped = false) (q : PortId) :
    (s.enqueue sim p x).timed sim q =
      if q = p ∧ (s.port p).queue.count ≠ (s.port p).queue.capacity then
        s.timed sim q ++
          [(s.freeAt sim p + sim.serNs p x + (sim.fabric.port p).propDelayNs, x)]
      else s.timed sim q := by
  unfold timed
  rw [arrivals_enqueue, sends_enqueue hc hw]
  split
  · next h =>
    obtain rfl := h.1
    rw [List.map_append, List.append_assoc]
    rfl
  · rfl

theorem OnTime.enqueue (h : s.OnTime sim) (hc : s.Coherent) {x : Packet}
    (hw : (s.enqueue sim p x).wrapped = false) : (s.enqueue sim p x).OnTime sim := by
  by_cases hfull : (s.port p).queue.count = (s.port p).queue.capacity
  · rw [enqueue_full sim s p x hfull]
    refine ⟨?_, ?_, ?_⟩
    · rw [drop_queue, drop_now]
      exact h.future
    · rw [drop_queue, drop_now]
      exact h.flying
    · intro q c hcq
      rw [drop_queue] at hcq
      rw [drop_now, drop_port]
      have := h.sending q c hcq
      by_cases hqp : q = p
      · subst hqp
        rw [Function.update_self]
        exact this
      · rw [Function.update_of_ne hqp]
        exact this
  refine ⟨?_, ?_, ?_⟩
  · intro e he
    rw [enqueue_now]
    obtain ⟨-, -, hqueue⟩ := enqueue_room sim hc.idle p x hfull
    rw [hqueue] at he
    cases hb : (s.port p).busy with
    | true =>
      rw [hb, if_pos rfl] at he
      exact h.future e he
    | false =>
      have hlt : s.now + serializationNs x.bytes (sim.fabric.port p).rate < 2 ^ 64 :=
        (wrapped_enqueue hc hw).2 hfull hb
      rw [hb, if_neg (by simp), EventQueue.mem_agenda_push, u64_of_lt hlt] at he
      rcases he with rfl | he
      · exact Nat.le_add_right _ _
      · exact h.future e he
  · intro q
    rw [arrivals_enqueue, enqueue_now]
    exact h.flying q
  · intro q c hcq
    rw [completions_enqueue hc hw hfull] at hcq
    rw [enqueue_now]
    split at hcq
    · next hqp =>
      obtain ⟨rfl, hb⟩ := hqp
      obtain rfl := List.mem_singleton.mp hcq
      rw [((enqueue_inside sim hc x hfull).2 hb).1]
    · next hqp =>
      have hold := h.sending q c hcq
      by_cases hqp' : q = p
      · subst hqp'
        have hb : (s.port q).busy = true := by
          by_contra hb
          exact hqp ⟨rfl, by simpa using hb⟩
        rw [((enqueue_inside sim hc x hfull).1 hb).1]
        exact hold
      · rw [enqueue_port_of_ne s x hqp']
        exact hold

/-! ## The end of a transmission -/

theorem wrapped_onTxComplete (hw : (s.onTxComplete sim p).wrapped = false) :
    s.wrapped = false ∧ s.now + (sim.fabric.port p).propDelayNs < 2 ^ 64 ∧
      ((s.port p).queue.empty = false →
        s.now + sim.serNs p (s.port p).queue.front < 2 ^ 64) := by
  rcases onTxComplete_cases sim s p with ⟨he, heq⟩ | ⟨he, heq⟩
  · rw [heq] at hw
    simp only [modifyPort_wrapped, sendOff_wrapped, Bool.or_eq_false_iff, decide_eq_false_iff_not,
      not_le] at hw
    exact ⟨hw.1, hw.2, fun hne => absurd he (by rw [hne]; simp)⟩
  · rw [heq] at hw
    simp only [startTx_wrapped, sendOff_wrapped, sendOff_now, sendOff_port, Function.update_self,
      Bool.or_eq_false_iff, decide_eq_false_iff_not, not_le] at hw
    exact ⟨hw.1.1, hw.1.2, fun _ => hw.2⟩

/-- The schedule after a transmission: the packet is on the wire, the next one
in the transmitter. -/
theorem schedule_onTxComplete (h : s.Finishing p)
    (hfly : ∀ a ∈ s.queue.arrivals p, a.1 ≤ s.now + (sim.fabric.port p).propDelayNs)
    (hw : (s.onTxComplete sim p).wrapped = false) (q : PortId) :
    (s.onTxComplete sim p).queue.arrivals q =
      (if q = p then s.queue.arrivals p ++
        [(s.now + (sim.fabric.port p).propDelayNs, (s.port p).inFlight)]
      else s.queue.arrivals q) ∧
    (s.onTxComplete sim p).queue.completions q =
      (if q = p then if (s.port p).queue.empty then []
        else [s.now + sim.serNs p (s.port p).queue.front]
      else s.queue.completions q) := by
  obtain ⟨-, hprop, hser⟩ := wrapped_onTxComplete hw
  refine ⟨?_, ?_⟩
  · rw [arrivals_onTxComplete h, sendOff_queue, u64_of_lt hprop]
    by_cases hqp : q = p
    · subst hqp
      rw [if_pos rfl]
      exact EventQueue.arrivals_push_last _ _ hfly
    · rw [if_neg hqp]
      exact EventQueue.arrivals_push_of_ne _ _ _ (Ne.symm hqp) _
  · rw [(onTxComplete_effect sim h).2.2]
    have hoff : ∀ r, (s.sendOff sim p).queue.completions r = s.queue.completions r := by
      intro r
      simp
    cases he : (s.port p).queue.empty with
    | true =>
      rw [if_pos rfl, hoff]
      by_cases hqp : q = p
      · subst hqp
        rw [if_pos rfl, if_pos rfl, h.done]
      · rw [if_neg hqp]
    | false =>
      have hlt : s.now + serializationNs (s.port p).queue.front.bytes (sim.fabric.port p).rate <
          2 ^ 64 := hser he
      rw [if_neg (by simp), u64_of_lt hlt]
      by_cases hqp : q = p
      · subst hqp
        rw [if_pos rfl, if_neg (by simp),
          EventQueue.completions_push_self _ _ _ (by rw [hoff]; exact h.done)]
        rfl
      · rw [if_neg hqp, EventQueue.completions_push_of_ne _ _ _ (Ne.symm hqp), hoff]

/-- What the end of a transmission does inside the port. -/
theorem onTxComplete_inside (sim : Simulation) (s : State) (p : PortId) :
    (∀ q, q ≠ p → ((s.onTxComplete sim p).port q).inFlight = (s.port q).inFlight ∧
      ((s.onTxComplete sim p).port q).queue = (s.port q).queue) ∧
    ((s.port p).queue.empty = false →
      ((s.onTxComplete sim p).port p).inFlight = (s.port p).queue.front ∧
      ((s.onTxComplete sim p).port p).queue = (s.port p).queue.pop) := by
  rcases onTxComplete_cases sim s p with ⟨he, heq⟩ | ⟨he, heq⟩
  · refine ⟨fun q hq => ?_, fun hne => absurd he (by rw [hne]; simp)⟩
    rw [heq]
    simp [hq]
  · refine ⟨fun q hq => ?_, fun _ => ?_⟩
    · rw [heq]
      simp [hq]
    · rw [heq]
      simp

theorem sends_onTxComplete (h : s.Finishing p)
    (hfly : ∀ a ∈ s.queue.arrivals p, a.1 ≤ s.now + (sim.fabric.port p).propDelayNs)
    (hw : (s.onTxComplete sim p).wrapped = false) (q : PortId) :
    (s.onTxComplete sim p).sends sim q =
      if q = p then FifoServer.finish (sim.serNs p) s.now (s.port p).queue.toList
      else s.sends sim q := by
  obtain ⟨-, hcomp⟩ := schedule_onTxComplete h hfly hw q
  obtain ⟨hother, hnext⟩ := onTxComplete_inside sim s p
  unfold sends
  rw [hcomp]
  by_cases hqp : q = p
  · subst hqp
    rw [if_pos rfl, if_pos rfl]
    cases he : (s.port q).queue.empty with
    | true =>
      rw [(BoundedFifo.empty_iff _).mp he]
      rfl
    | false =>
      obtain ⟨h1, h2⟩ := hnext he
      have hcount : (s.port q).queue.count ≠ 0 := by
        intro h0
        unfold BoundedFifo.empty at he
        rw [h0] at he
        exact absurd he (by simp)
      rw [if_neg (by simp), h1, h2, BoundedFifo.toList_eq_cons hcount]
      rfl
  · obtain ⟨h1, h2⟩ := hother q hqp
    rw [if_neg hqp, if_neg hqp, h1, h2]

theorem timed_onTxComplete (h : s.Finishing p)
    (hfly : ∀ a ∈ s.queue.arrivals p, a.1 ≤ s.now + (sim.fabric.port p).propDelayNs)
    (hw : (s.onTxComplete sim p).wrapped = false) (q : PortId) :
    (s.onTxComplete sim p).timed sim q =
      if q = p then
        s.queue.arrivals p ++ ((s.now, (s.port p).inFlight) ::
          FifoServer.finish (sim.serNs p) s.now (s.port p).queue.toList).map fun d =>
            (d.1 + (sim.fabric.port p).propDelayNs, d.2)
      else s.timed sim q := by
  unfold timed
  rw [(schedule_onTxComplete h hfly hw q).1, sends_onTxComplete h hfly hw]
  by_cases hqp : q = p
  · subst hqp
    rw [if_pos rfl, if_pos rfl, if_pos rfl, List.append_assoc]
    rfl
  · rw [if_neg hqp, if_neg hqp, if_neg hqp]

theorem OnTime.onTxComplete (h : s.OnTime sim) (hfin : s.Finishing p)
    (hw : (s.onTxComplete sim p).wrapped = false) : (s.onTxComplete sim p).OnTime sim := by
  obtain ⟨-, hprop, hser⟩ := wrapped_onTxComplete hw
  have hnow : (s.onTxComplete sim p).now = s.now := by
    rcases onTxComplete_cases sim s p with ⟨-, heq⟩ | ⟨-, heq⟩ <;> rw [heq] <;> simp
  obtain ⟨hother, hnext⟩ := onTxComplete_inside sim s p
  refine ⟨?_, ?_, ?_⟩
  · intro e he
    rw [hnow]
    have hoff : ∀ e ∈ (s.sendOff sim p).queue.agenda, s.now ≤ e.time := by
      intro e he
      rw [sendOff_queue, EventQueue.mem_agenda_push] at he
      rcases he with rfl | he
      · show s.now ≤ u64 _
        rw [u64_of_lt hprop]
        exact Nat.le_add_right _ _
      · exact h.future e he
    rw [(onTxComplete_effect sim hfin).2.2] at he
    cases hem : (s.port p).queue.empty with
    | true =>
      rw [hem, if_pos rfl] at he
      exact hoff e he
    | false =>
      have hlt : s.now + serializationNs (s.port p).queue.front.bytes (sim.fabric.port p).rate <
          2 ^ 64 := hser hem
      rw [hem, if_neg (by simp), EventQueue.mem_agenda_push, u64_of_lt hlt] at he
      rcases he with rfl | he
      · exact Nat.le_add_right _ _
      · exact hoff e he
  · intro q a ha
    rw [(schedule_onTxComplete hfin (h.flying p) hw q).1] at ha
    rw [hnow]
    split at ha
    · next hqp =>
      subst hqp
      rcases List.mem_append.mp ha with ha | ha
      · exact h.flying q a ha
      · obtain rfl := List.mem_singleton.mp ha
        exact le_rfl
    · exact h.flying q a ha
  · intro q c hc
    rw [(schedule_onTxComplete hfin (h.flying p) hw q).2] at hc
    rw [hnow]
    by_cases hqp : q = p
    · subst hqp
      rw [if_pos rfl] at hc
      split at hc
      · exact absurd hc List.not_mem_nil
      · next hne =>
        obtain rfl := List.mem_singleton.mp hc
        rw [(hnext (by simpa using hne)).1]
    · rw [if_neg hqp] at hc
      rw [(hother q hqp).1]
      exact h.sending q c hc

/-! ## Taking an event -/

theorem OnTime.advance (h : s.OnTime sim) (hpop : s.queue.pop = some (e, queue)) :
    s.now ≤ e.time ∧ (s.advance e queue).OnTime sim := by
  have hag := EventQueue.agenda_of_pop hpop
  have hnow : s.now ≤ e.time := h.future e (by rw [hag]; exact List.mem_cons_self ..)
  refine ⟨hnow, ?_, ?_, ?_⟩
  · intro e' he'
    have hsorted := s.queue.agenda_pairwise
    rw [hag] at hsorted
    exact Event.time_le_of_key_le ((List.pairwise_cons.mp hsorted).1 e' he')
  · intro q a ha
    have := h.flying q a (by
      rw [EventQueue.arrivals_of_pop hpop]
      exact List.mem_append_right _ ha)
    show a.1 ≤ e.time + _
    omega
  · intro q c hc
    have hold := h.sending q c (by
      rw [EventQueue.completions_of_pop hpop]
      exact List.mem_append_right _ hc)
    show c ≤ e.time + sim.serNs q (s.port q).inFlight
    omega

/-- An arrival is due now, and first on its link. -/
theorem timed_advance_arrive (hpop : s.queue.pop = some (e, queue)) {x : Packet}
    (hb : e.body = .arrive p x) (q : PortId) :
    s.timed sim q =
      if q = p then (e.time, x) :: (s.advance e queue).timed sim q
      else (s.advance e queue).timed sim q := by
  have harr : e.arrival q = if p = q then some (e.time, x) else none := by
    unfold Event.arrival
    rw [hb]
  have hcomp : e.completion q = none := by
    unfold Event.completion
    rw [hb]
  unfold timed sends
  rw [EventQueue.arrivals_of_pop hpop, EventQueue.completions_of_pop hpop, harr, hcomp]
  by_cases hqp : q = p
  · subst hqp
    rw [if_pos rfl, if_pos rfl]
    rfl
  · rw [if_neg (Ne.symm hqp), if_neg hqp]
    rfl

/-- Taking any other event but a `txComplete` leaves the links alone. -/
theorem timed_advance (hpop : s.queue.pop = some (e, queue)) (hb : ∀ p x, e.body ≠ .arrive p x)
    (hb' : ∀ p, e.body ≠ .txComplete p) (q : PortId) :
    (s.advance e queue).timed sim q = s.timed sim q := by
  have harr : e.arrival q = none := by
    unfold Event.arrival
    split
    · next r x hx => exact absurd hx (hb r x)
    · rfl
  have hcomp : e.completion q = none := by
    unfold Event.completion
    split
    · next r hx => exact absurd hx (hb' r)
    · rfl
  unfold timed sends
  rw [EventQueue.arrivals_of_pop hpop, EventQueue.completions_of_pop hpop, harr, hcomp]
  rfl

/-- A transmission that ends is a step of the simulator and nothing on the
timed links. -/
theorem timed_step_txComplete (h : s.OnTime sim) (hc : s.Coherent)
    (hpop : s.queue.pop = some (e, queue)) (hb : e.body = .txComplete p)
    (hw : ((s.advance e queue).onTxComplete sim p).wrapped = false) (q : PortId) :
    ((s.advance e queue).onTxComplete sim p).timed sim q = s.timed sim q := by
  have hfin := advance_finishing hc hpop hb
  rw [timed_onTxComplete hfin ((h.advance hpop).2.flying p) hw]
  have harr : ∀ r, e.arrival r = none := by
    intro r
    unfold Event.arrival
    rw [hb]
  have hcomp : ∀ r, e.completion r = if p = r then some e.time else none := by
    intro r
    unfold Event.completion
    rw [hb]
  unfold timed sends
  rw [EventQueue.arrivals_of_pop hpop, EventQueue.completions_of_pop hpop, harr, hcomp]
  by_cases hqp : q = p
  · subst hqp
    rw [if_pos rfl, if_pos rfl, show queue.completions q = [] from hfin.done]
    rfl
  · rw [if_neg hqp, if_neg (Ne.symm hqp)]
    rfl

/-! ## Endpoint operations -/

/-- What no wrap in a transmission means. -/
theorem sendPacket_unwrapped (hc : s.Coherent) {f : FlowId} {idx : Nat}
    (hw : (s.sendPacket sim f idx).wrapped = false) :
    s.wrapped = false ∧ s.now + sim.periodNs f < 2 ^ 64 ∧
      s.now + sim.transport.rtoNs < 2 ^ 64 := by
  unfold State.sendPacket at hw
  have hnet : NetEq s (((s.markSent sim f idx).pushAfter sim.transport.rtoNs
      (.timeout f idx (s.pktAttempt f idx))).log (.emitted s.now (dataPacket sim s f idx))) :=
    ⟨by simp, fun p => by simp, fun p => by simp⟩
  have := (wrapped_enqueue (hnet.coherent hc) hw).1
  simpa [and_assoc] using this

theorem sendAck_unwrapped (hc : s.Coherent) {f : FlowId} {idx a : Nat}
    (hw : (s.sendAck sim f idx a).wrapped = false) : s.wrapped = false := by
  unfold State.sendAck at hw
  refine (wrapped_enqueue ?_ hw).1
  exact NetEq.coherent (s := s) ⟨rfl, fun _ => rfl, fun _ => rfl⟩ hc

theorem Micro.unwrapped {f : FlowId} (hm : Micro sim f s s') (hc : s.Coherent)
    (hw : s'.wrapped = false) : s.wrapped = false := by
  cases hm with
  | send idx => exact (sendPacket_unwrapped hc hw).1
  | ack idx a => exact sendAck_unwrapped hc hw
  | tx g => exact hw
  | pkt idx g => exact hw
  | result g _ => exact hw
  | attempt idx => exact hw
  | ring slot idx => exact hw
  | wake t _ => exact hw
  | release d _ => exact hw

theorem Micro.onTime {f : FlowId} (hm : Micro sim f s s') (hc : s.Coherent) (h : s.OnTime sim)
    (hw : s'.wrapped = false) : s'.OnTime sim := by
  have hpush : ∀ {t : Nat} {b : EventBody}, s.now ≤ t →
      ∀ e ∈ (s.queue.push t b).agenda, s.now ≤ e.time := by
    intro t b ht e he
    rcases EventQueue.mem_agenda_push.mp he with rfl | he
    · exact ht
    · exact h.future e he
  cases hm with
  | send idx =>
    obtain ⟨-, -, hrto⟩ := sendPacket_unwrapped hc hw
    unfold State.sendPacket at hw ⊢
    have hnet : NetEq s (((s.markSent sim f idx).pushAfter sim.transport.rtoNs
        (.timeout f idx (s.pktAttempt f idx))).log (.emitted s.now (dataPacket sim s f idx))) :=
      ⟨by simp, fun p => by simp, fun p => by simp⟩
    refine OnTime.enqueue ⟨?_, ?_, ?_⟩ (hnet.coherent hc) hw
    · simp only [log_queue, log_now, pushAfter_queue, pushAfter_now, markSent_queue, markSent_now]
      rw [u64_of_lt hrto]
      exact hpush (Nat.le_add_right _ _)
    · intro p
      rw [hnet.arrivals]
      simpa using h.flying p
    · intro p
      rw [hnet.completions, hnet.port]
      simpa using h.sending p
  | ack idx a =>
    unfold State.sendAck at hw ⊢
    refine OnTime.enqueue ?_ ?_ hw
    · exact ⟨h.future, h.flying, h.sending⟩
    · exact NetEq.coherent (s := s) ⟨rfl, fun _ => rfl, fun _ => rfl⟩ hc
  | tx g => exact ⟨h.future, h.flying, h.sending⟩
  | pkt idx g => exact ⟨h.future, h.flying, h.sending⟩
  | result g _ => exact ⟨h.future, h.flying, h.sending⟩
  | attempt idx => exact ⟨h.future, h.flying, h.sending⟩
  | ring slot idx => exact ⟨h.future, h.flying, h.sending⟩
  | wake t ht => exact ⟨hpush ht, by simpa using h.flying, by simpa using h.sending⟩
  | release d _ => exact ⟨hpush le_rfl, by simpa using h.flying, by simpa using h.sending⟩

/-- What holds of every endpoint operation on the timed links holds of a
sequence of them, as long as nothing wraps. -/
theorem Micros.timely {f : FlowId} (hm : Micros sim f s s') (hc : s.Coherent) (h : s.OnTime sim)
    {P : State → Prop} (hs : P s)
    (hP : ∀ s₁ s₂, Micro sim f s₁ s₂ → s₁.Coherent → s₁.OnTime sim → s₂.wrapped = false →
      P s₁ → P s₂) (hw : s'.wrapped = false) :
    s.wrapped = false ∧ s'.OnTime sim ∧ P s' := by
  refine (hm.preserve (P := fun s' => s'.Coherent ∧
    (s'.wrapped = false → s.wrapped = false ∧ s'.OnTime sim ∧ P s')) ?_
    ⟨hc, fun hw => ⟨hw, h, hs⟩⟩).2 hw
  rintro s₁ s₂ hm ⟨hc₁, ih⟩
  refine ⟨hm.coherent hc₁, fun hw => ?_⟩
  obtain ⟨h1, h2, h3⟩ := ih (hm.unwrapped hc₁ hw)
  exact ⟨h1, hm.onTime hc₁ h2 hw, hP s₁ s₂ hm hc₁ h2 hw h3⟩

theorem step_unwrapped (hc : s.Coherent) (hpop : s.queue.pop = some (e, queue))
    (hw : ((s.advance e queue).dispatch sim policy e.body).wrapped = false) :
    s.wrapped = false := by
  rcases dispatch_cases sim policy (s.advance e queue) e.body with
    ⟨p, hb, heq⟩ | ⟨p, x, hb, -, heq⟩ | ⟨f, s₁, hnet, hnow, htr, -, hq, -, -, hwr, hm, hb⟩
  · rw [heq] at hw
    exact (wrapped_onTxComplete hw).1
  · rw [heq] at hw
    exact (wrapped_enqueue (hc.advance hpop (by rw [hb]; simp)) hw).1
  · have hc₁ : s₁.Coherent := by
      refine hnet.coherent (hc.advance hpop ?_)
      rcases hb with hb | ⟨idx, a, hb⟩ | ⟨p, pkt, hb, -, -⟩ <;> simp [hb]
    have : s₁.wrapped = false := (hm.preserve (P := fun s' => s'.Coherent ∧
      (s'.wrapped = false → s₁.wrapped = false))
      (fun _ _ hm h => ⟨hm.coherent h.1, fun hw => h.2 (hm.unwrapped h.1 hw)⟩)
      ⟨hc₁, fun hw => hw⟩).2 hw
    rw [hwr] at this
    exact this

theorem OnTime.of_netEq (h : s.OnTime sim) (hnet : NetEq s s') (hq : s'.queue = s.queue)
    (hnow : s'.now = s.now) : s'.OnTime sim := by
  refine ⟨?_, ?_, ?_⟩
  · rw [hq, hnow]
    exact h.future
  · rw [hnow]
    simp only [hnet.arrivals]
    exact h.flying
  · rw [hnow, hnet.port]
    simp only [hnet.completions]
    exact h.sending

theorem OnTime.step (h : s.OnTime sim) (hc : s.Coherent) (hpop : s.queue.pop = some (e, queue))
    (hw : ((s.advance e queue).dispatch sim policy e.body).wrapped = false) :
    ((s.advance e queue).dispatch sim policy e.body).OnTime sim := by
  have hadv := (h.advance hpop).2
  rcases dispatch_cases sim policy (s.advance e queue) e.body with
    ⟨p, hb, heq⟩ | ⟨p, x, hb, -, heq⟩ | ⟨f, s₁, hnet, hnow, htr, -, hq, -, -, hwr, hm, hb⟩
  · rw [heq] at hw ⊢
    exact hadv.onTxComplete (advance_finishing hc hpop hb) hw
  · rw [heq] at hw ⊢
    exact hadv.enqueue (hc.advance hpop (by rw [hb]; simp)) hw
  · have hc₁ : s₁.Coherent := by
      refine hnet.coherent (hc.advance hpop ?_)
      rcases hb with hb | ⟨idx, a, hb⟩ | ⟨p, pkt, hb, -, -⟩ <;> simp [hb]
    exact (hm.timely hc₁ (hadv.of_netEq hnet hq hnow) trivial (fun _ _ _ _ _ _ _ => trivial) hw).2.1

end State

open State

theorem Simulation.Reachable.onTime {sim : Simulation} {policy : RoutingPolicy} {s : State}
    (h : sim.Reachable policy s) (hw : s.wrapped = false) : s.OnTime sim := by
  refine Simulation.Reachable.invariant (P := fun s => s.wrapped = false → s.OnTime sim) ?_ ?_ h hw
  · intro leftover _
    refine ⟨fun e _ => Nat.zero_le _, fun p a ha => ?_, fun p c hc => ?_⟩
    · rw [arrivals_beginRun] at ha
      exact absurd ha List.not_mem_nil
    · rw [completions_beginRun] at hc
      exact absurd hc List.not_mem_nil
  · exact fun s e queue hr ih hpop hw =>
      (ih (step_unwrapped hr.coherent hpop hw)).step hr.coherent hpop hw

end FabricSim
