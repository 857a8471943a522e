import FabricSim.Core.Network
import Mathlib.Algebra.Order.BigOperators.Group.List

/-!
# A sender that is not heard

One flow whose source port has no room for a packet. Every transmission is refused, every
timer fires, and the packets take turns: the timer that is due is that of a packet which
fewest attempts have been made for (`Volley.pop`). So when the first of them runs out of
attempts, all the others have made theirs (`reachable_exhausted`).
-/

namespace FabricSim

open State

namespace Unheard

/-- One flow of `n` packets, all in its window, sent without a pause. -/
structure Flow (sim : Simulation) (n : Nat) : Prop where
  pos : 0 < n
  one : sim.flowCount = 1
  free : (sim.spec 0).dependsOn = none
  start : (sim.spec 0).startNs = 0
  window : sim.window 0 = n
  total : sim.packetsTotal 0 = n
  pace : sim.periodNs 0 = 0
  rto : sim.transport.rtoNs = 1
  attempts : 1 < sim.transport.maxAttempts ∧ sim.transport.maxAttempts < 256
  room : (sim.fabric.port (sim.route 0).srcNic).queueCapacity = 0

/-- The packets of `l` are in flight, each with the timer of its attempt, and nothing else is
under way. -/
structure Volley (sim : Simulation) (l : List Nat) (s : State) : Prop where
  full : (s.port (sim.route 0).srcNic).queue.count =
    (s.port (sim.route 0).srcNic).queue.capacity
  gate : (s.tx 0).nextSendNs ≤ s.now
  failed : (s.tx 0).failed = false
  ring : (s.tx 0).retxCount = 0
  head : (s.tx 0).retxHead < sim.window 0
  nodup : l.Nodup
  count : (s.tx 0).inFlight = l.length
  flying : ∀ i ∈ l, (s.pkt 0 i).inFlight = true
  unacked : ∀ i, (s.pkt 0 i).acked = false
  timers : (s.queue.agenda.map Event.body).Perm (l.map fun i => .timeout 0 i (s.pktAttempt 0 i))
  due : ∀ e ∈ s.queue.agenda, ∀ i, e.body = .timeout 0 i (s.pktAttempt 0 i) →
    e.time = s.pktAttempt 0 i + 1
  past : ∀ i ∈ l, s.now ≤ s.pktAttempt 0 i + 1
  left : ∀ i ∈ l, s.pktAttempt 0 i < sim.transport.maxAttempts

/-- The popped event is the timer of a packet that fewest attempts have been made for. -/
structure Due (l : List Nat) (s : State) (i : Nat) (e : Event) (queue : EventQueue) : Prop where
  mem : i ∈ l
  body : e.body = .timeout 0 i (s.pktAttempt 0 i)
  time : e.time = s.pktAttempt 0 i + 1
  rest : (queue.agenda.map Event.body).Perm
    ((l.erase i).map fun j => .timeout 0 j (s.pktAttempt 0 j))
  later : ∀ e' ∈ queue.agenda, e' ∈ s.queue.agenda
  least : ∀ j ∈ l, s.pktAttempt 0 i ≤ s.pktAttempt 0 j

/-- The flow has given up, and only timers are left. -/
structure Spent (s : State) : Prop where
  failed : (s.tx 0).failed = true
  timers : ∀ e ∈ s.queue.agenda, ∃ i a, e.body = .timeout 0 i a

section Run

variable {sim : Simulation} {policy : RoutingPolicy} {n : Nat} {s : State} {l : List Nat} {i : Nat}
  {e : Event} {queue : EventQueue}

/-! ## One transmission -/

theorem drop_retransmitted (s : State) (p : PortId) (x : Packet) :
    (s.drop p x).stats.packetsRetransmitted = s.stats.packetsRetransmitted := by
  unfold drop
  cases x.kind <;> rfl

theorem countRetx_retransmitted (s : State) (f : FlowId) (idx : Nat) :
    (s.countRetx f idx).stats.packetsRetransmitted =
      s.stats.packetsRetransmitted + if 0 < s.pktAttempt f idx then 1 else 0 := by
  unfold countRetx
  split <;> rfl

/-- The packet is refused, and its timer is set. -/
theorem sendPacket_full (h : Volley sim l s) :
    (s.sendPacket sim 0 i).queue = s.queue.push (u64 (s.now + sim.transport.rtoNs))
      (.timeout 0 i (s.pktAttempt 0 i)) ∧
    (∀ p, ((s.sendPacket sim 0 i).port p).queue = (s.port p).queue) ∧
    (s.sendPacket sim 0 i).stats.packetsRetransmitted =
      s.stats.packetsRetransmitted + if 0 < s.pktAttempt 0 i then 1 else 0 := by
  unfold sendPacket
  rw [enqueue_full sim _ _ _ (by simpa using h.full)]
  refine ⟨by simp, fun p => ?_, ?_⟩
  · rw [drop_port]
    by_cases hp : p = (sim.route 0).srcNic
    · subst hp
      simp
    · simp [Function.update_of_ne hp]
  · rw [drop_retransmitted]
    exact countRetx_retransmitted s 0 i

/-- It joins the volley, when its attempt is due. -/
theorem Volley.send (h : Volley sim l s) (hd : Flow sim n) (hfresh : i ∉ l)
    (hnow : s.now = s.pktAttempt 0 i) (hleft : s.pktAttempt 0 i < sim.transport.maxAttempts) :
    Volley sim (i :: l) (s.sendPacket sim 0 i) := by
  obtain ⟨hqueue, hports, -⟩ := sendPacket_full (i := i) h
  have hsmall := hd.attempts.2
  have htime : u64 (s.now + sim.transport.rtoNs) = s.pktAttempt 0 i + 1 := by
    rw [hd.rto, hnow]
    exact u64_of_lt (by omega)
  refine
    { full := by rw [hports]; exact h.full
      gate := ?_
      failed := by simpa using h.failed
      ring := by simpa using h.ring
      head := by simpa using h.head
      nodup := List.nodup_cons.mpr ⟨hfresh, h.nodup⟩
      count := by simp [h.count]
      flying := ?_
      unacked := ?_
      timers := ?_
      due := ?_
      past := ?_
      left := ?_ }
  · simp only [sendPacket_tx, Function.update_self, sendPacket_now, hd.pace, Nat.add_zero]
    exact u64_le _
  · intro j hj
    simp only [sendPacket_pkt, Function.update_self]
    by_cases hji : j = i
    · subst hji
      simp
    · rw [Function.update_of_ne hji]
      exact h.flying j ((List.mem_cons.mp hj).resolve_left hji)
  · intro j
    simp only [sendPacket_pkt, Function.update_self]
    by_cases hji : j = i
    · subst hji
      simpa using h.unacked j
    · rw [Function.update_of_ne hji]
      exact h.unacked j
  · rw [hqueue, sendPacket_pktAttempt, EventQueue.agenda_push]
    exact ((Agenda.insert_perm ..).map _).trans (h.timers.cons _)
  · intro e he j hb
    rw [hqueue, EventQueue.mem_agenda_push] at he
    rw [sendPacket_pktAttempt] at hb ⊢
    rcases he with rfl | he
    · obtain ⟨-, rfl, -⟩ := EventBody.timeout.inj hb
      exact htime
    · exact h.due e he j hb
  · intro j hj
    rw [sendPacket_now, sendPacket_pktAttempt]
    rcases List.mem_cons.mp hj with rfl | hj
    · omega
    · exact h.past j hj
  · intro j hj
    rw [sendPacket_pktAttempt]
    rcases List.mem_cons.mp hj with rfl | hj
    · exact hleft
    · exact h.left j hj

/-! ## The first volley -/

theorem nextRetx_empty (hring : (s.tx 0).retxCount = 0) :
    s.nextRetx sim 0 = (none, (s.tx 0).retxHead, 0) := by
  unfold nextRetx
  rw [hring]
  rfl

theorem Volley.takeSeq (h : Volley sim l s) :
    Volley sim l ((s.drainRetx 0 (s.tx 0).retxHead 0).takeSeq 0) := by
  have htx : ((s.drainRetx 0 (s.tx 0).retxHead 0).takeSeq 0).tx 0 =
      { s.tx 0 with nextSeq := (s.tx 0).nextSeq + 1 } := by
    simp [h.ring]
  refine
    { full := h.full
      gate := ?_
      failed := ?_
      ring := ?_
      head := ?_
      nodup := h.nodup
      count := ?_
      flying := h.flying
      unacked := h.unacked
      timers := h.timers
      due := h.due
      past := h.past
      left := h.left }
  all_goals rw [htx]
  · exact h.gate
  · exact h.failed
  · exact h.ring
  · exact h.head
  · exact h.count

/-- The sending loop takes one packet after the other. -/
theorem Volley.fill (hd : Flow sim n) : ∀ (fuel k : Nat) (s : State),
    Volley sim (List.range k).reverse s → (s.tx 0).nextSeq = k → s.now = 0 →
    (∀ i, s.pktAttempt 0 i = 0) → s.stats.packetsRetransmitted = 0 → k + fuel = n →
      Volley sim (List.range n).reverse (sendLoop sim 0 fuel s) ∧
      (∀ i, (sendLoop sim 0 fuel s).pktAttempt 0 i = 0) ∧
      (sendLoop sim 0 fuel s).stats.packetsRetransmitted = 0 := by
  -- the first `k` packets are out, and the fuel is what the window has left
  intro fuel
  induction fuel with
  | zero =>
    intro k s h hnext hnow hattempt hzero hk
    obtain rfl : k = n := hk
    exact ⟨h, hattempt, hzero⟩
  | succ fuel ih =>
    intro k s h hnext hnow hattempt hzero hk
    have hcount : (s.tx 0).inFlight = k := by
      rw [h.count, List.length_reverse, List.length_range]
    have hopen : (s.tx 0).inFlight < sim.window 0 := by
      rw [hcount, hd.window]
      omega
    have hmore : ¬ sim.packetsTotal 0 ≤ (s.tx 0).nextSeq := by
      rw [hnext, hd.total]
      omega
    unfold sendLoop
    rw [if_pos hopen, if_neg (not_lt.mpr h.gate), nextRetx_empty h.ring]
    dsimp only
    rw [if_neg hmore, hnext]
    have hready := h.takeSeq
    have hleft : s.pktAttempt 0 k < sim.transport.maxAttempts := by
      rw [hattempt k]
      exact Nat.lt_of_succ_lt hd.attempts.1
    obtain ⟨-, -, hresent⟩ := sendPacket_full (i := k) hready
    refine ih (k + 1) _ ?_ ?_ ?_ ?_ ?_ (by omega)
    · rw [List.range_succ, List.reverse_append]
      exact hready.send hd (by simp) (hnow.trans (hattempt k).symm) hleft
    · simp [hnext]
    · simpa using hnow
    · intro i
      simpa using hattempt i
    · rw [hresent]
      show s.stats.packetsRetransmitted + (if 0 < s.pktAttempt 0 k then 1 else 0) = 0
      rw [hzero, hattempt k]
      rfl

/-! ## A timeout -/

theorem Volley.pop (h : Volley sim l s) (hpop : s.queue.pop = some (e, queue)) :
    ∃ i, Due l s i e queue := by
  have hagenda := EventQueue.agenda_of_pop hpop
  have htimers := h.timers
  rw [hagenda, List.map_cons] at htimers
  obtain ⟨i, hi, hb⟩ := List.mem_map.mp (htimers.mem_iff.mp (List.mem_cons_self ..))
  have htime := h.due e (hagenda ▸ List.mem_cons_self ..) i hb.symm
  refine ⟨i, hi, hb.symm, htime, ?_,
    fun e' he' => hagenda ▸ List.mem_cons_of_mem _ he', fun j hj => ?_⟩
  · have hsplit := ((List.perm_cons_erase hi).map fun j =>
      EventBody.timeout 0 j (s.pktAttempt 0 j)).symm
    rw [List.map_cons, hb] at hsplit
    exact (htimers.trans hsplit.symm).cons_inv
  · -- the timer of any other attempt is due an attempt later for each one that was made
    have hmem : EventBody.timeout 0 j (s.pktAttempt 0 j) ∈ s.queue.agenda.map Event.body :=
      h.timers.mem_iff.mpr (List.mem_map_of_mem hj)
    obtain ⟨e', he', hb'⟩ := List.mem_map.mp hmem
    have htime' := h.due e' he' j hb'
    rw [hagenda] at he'
    have hle : e.time ≤ e'.time := by
      rcases List.mem_cons.mp he' with rfl | hrest
      · exact le_rfl
      · exact Event.time_le_of_key_le
          (EventQueue.least_of_pop hpop e' (Agenda.mem_sorted.mp hrest)).le
    omega

theorem land_flying {f : FlowId} (h : (s.pkt f i).inFlight = true) :
    s.land f i = (s.modifyPkt f i fun st => { st with inFlight := false }).modifyTx f fun tx =>
      { tx with inFlight := tx.inFlight - 1 } := by
  unfold land
  rw [if_pos h]

/-- The popped packet with its next attempt in the ring. -/
def requeued (sim : Simulation) (s : State) (i : Nat) (e : Event) (queue : EventQueue) : State :=
  ((s.advance e queue).land 0 i).requeue sim 0 i

/-- The same with the ring drained. -/
def retaken (sim : Simulation) (s : State) (i : Nat) (e : Event) (queue : EventQueue) : State :=
  (requeued sim s i e queue).drainRetx 0 (Ring.next (sim.window 0) (s.tx 0).retxHead) 0

/-- What the sender knows when the packet is in the ring. -/
theorem requeued_eq (h : Volley sim l s) (hdue : Due l s i e queue) :
    (requeued sim s i e queue).queue = queue ∧ (requeued sim s i e queue).now = e.time ∧
    (requeued sim s i e queue).port = s.port ∧
    (requeued sim s i e queue).stats.packetsRetransmitted = s.stats.packetsRetransmitted ∧
    (requeued sim s i e queue).tx 0 =
      { s.tx 0 with inFlight := (s.tx 0).inFlight - 1, retxCount := 1 } ∧
    (requeued sim s i e queue).pkt 0 =
      Function.update (s.pkt 0) i { s.pkt 0 i with inFlight := false } ∧
    (requeued sim s i e queue).pktAttempt 0 =
      Function.update (s.pktAttempt 0) i (s.pktAttempt 0 i + 1) ∧
    (requeued sim s i e queue).retxRing 0 (s.tx 0).retxHead = i := by
  have hslot : Ring.slot (sim.window 0) (s.tx 0).retxHead 0 = (s.tx 0).retxHead :=
    if_neg (not_le.mpr h.head)
  have hland := land_flying (s := s.advance e queue) (f := 0) (h.flying i hdue.mem)
  unfold requeued
  rw [hland]
  refine ⟨rfl, rfl, rfl, rfl, ?_, ?_, ?_, ?_⟩
  · simp [h.ring]
  · simp
  · simp
  · simp [retxTail, h.ring, hslot]

/-- The packet leaves the volley. -/
theorem Volley.retaken (h : Volley sim l s) (hdue : Due l s i e queue) :
    Volley sim (l.erase i) (retaken sim s i e queue) := by
  obtain ⟨hqueue, hnow, hport, -, htx, hpkt, hattempt, -⟩ := requeued_eq h hdue
  have hother : ∀ j ∈ l.erase i, j ≠ i ∧ j ∈ l := fun j hj => h.nodup.mem_erase_iff.mp hj
  unfold Unheard.retaken
  refine
    { full := by rw [drainRetx_port, hport]; exact h.full
      gate := ?_
      failed := by rw [drainRetx_tx, Function.update_self, htx]; exact h.failed
      ring := by simp
      head := ?_
      nodup := h.nodup.erase i
      count := ?_
      flying := ?_
      unacked := ?_
      timers := ?_
      due := ?_
      past := ?_
      left := ?_ }
  · rw [drainRetx_now, drainRetx_tx, Function.update_self, htx, hnow, hdue.time]
    exact h.gate.trans (h.past i hdue.mem)
  · rw [drainRetx_tx, Function.update_self]
    exact Ring.next_lt h.head
  · rw [drainRetx_tx, Function.update_self, htx]
    show (s.tx 0).inFlight - 1 = _
    rw [h.count, List.length_erase_of_mem hdue.mem]
  · intro j hj
    rw [drainRetx_pkt, hpkt, Function.update_of_ne (hother j hj).1]
    exact h.flying j (hother j hj).2
  · intro j
    rw [drainRetx_pkt, hpkt]
    by_cases hj : j = i
    · subst hj
      simpa using h.unacked j
    · rw [Function.update_of_ne hj]
      exact h.unacked j
  · rw [drainRetx_queue, drainRetx_pktAttempt, hattempt, hqueue]
    refine hdue.rest.trans (List.Perm.of_eq (List.map_congr_left fun j hj => ?_))
    rw [Function.update_of_ne (hother j hj).1]
  · intro e' he' j hb
    rw [drainRetx_queue, hqueue] at he'
    rw [drainRetx_pktAttempt, hattempt] at hb ⊢
    -- the timer is that of another packet, whose attempt is the old one
    obtain ⟨j', hj', hb'⟩ := List.mem_map.mp (hdue.rest.mem_iff.mp (List.mem_map_of_mem he'))
    obtain ⟨-, rfl, -⟩ := EventBody.timeout.inj (hb'.trans hb)
    rw [Function.update_of_ne (hother j' hj').1] at hb ⊢
    exact h.due e' (hdue.later e' he') j' hb
  · intro j hj
    rw [drainRetx_now, hnow, hdue.time, drainRetx_pktAttempt, hattempt,
      Function.update_of_ne (hother j hj).1]
    exact Nat.add_le_add_right (hdue.least j (hother j hj).2) 1
  · intro j hj
    rw [drainRetx_pktAttempt, hattempt, Function.update_of_ne (hother j hj).1]
    exact h.left j (hother j hj).2

/-- With attempts left, the packet goes through the ring and is sent again at once. -/
theorem dispatch_again (h : Volley sim l s) (hd : Flow sim n) (hlength : l.length = n)
    (hdue : Due l s i e queue) (hmore : s.pktAttempt 0 i + 1 < sim.transport.maxAttempts) :
    (s.advance e queue).dispatch sim policy e.body =
      (retaken sim s i e queue).sendPacket sim 0 i := by
  obtain ⟨-, hnow, -, -, htx, hpkt, -, hcell⟩ := requeued_eq h hdue
  have hpos := hd.pos
  have hnext : (requeued sim s i e queue).nextRetx sim 0 =
      (some i, Ring.next (sim.window 0) (s.tx 0).retxHead, 0) := by
    have hunacked : ((requeued sim s i e queue).pkt 0 i).acked = false := by
      rw [hpkt, Function.update_self]
      exact h.unacked i
    unfold nextRetx
    rw [htx]
    dsimp only [popRetx]
    rw [hcell]
    exact if_neg (by simp [hunacked])
  -- the place that the packet has left is the only one, so the loop turns once
  have hfuel : sim.window 0 - ((requeued sim s i e queue).tx 0).inFlight = 1 := by
    rw [htx, hd.window]
    dsimp only
    rw [h.count, hlength]
    omega
  have hopen : ((requeued sim s i e queue).tx 0).inFlight < sim.window 0 := by omega
  -- packets are sent without a pause, and the last one was not sent after its timer
  have hgate : ¬ (requeued sim s i e queue).now <
      ((requeued sim s i e queue).tx 0).nextSendNs := by
    rw [hnow, hdue.time, htx]
    exact not_lt.mpr (h.gate.trans (h.past i hdue.mem))
  have hfailed : ((requeued sim s i e queue).tx 0).failed = false := by
    rw [htx]
    exact h.failed
  rw [hdue.body]
  show (s.advance e queue).onTimeout sim 0 i (s.pktAttempt 0 i) = _
  unfold onTimeout
  rw [if_neg (by simp [h.unacked i]), if_neg (by simp), if_neg (by simp [h.failed]),
    if_neg (by simpa using hmore)]
  show (requeued sim s i e queue).trySend sim 0 = _
  unfold trySend
  rw [hfailed, hfuel]
  unfold sendLoop
  rw [if_pos hopen, if_neg hgate, hnext]
  rfl

variable (policy) in
/-- The volley is full again, with one attempt more. -/
theorem Volley.resend (h : Volley sim l s) (hd : Flow sim n) (hlength : l.length = n)
    (hdue : Due l s i e queue) (hmore : s.pktAttempt 0 i + 1 < sim.transport.maxAttempts) :
    let s' := (s.advance e queue).dispatch sim policy e.body
    Volley sim (i :: l.erase i) s' ∧
      s'.pktAttempt 0 = Function.update (s.pktAttempt 0) i (s.pktAttempt 0 i + 1) ∧
      s'.stats.packetsRetransmitted = s.stats.packetsRetransmitted + 1 := by
  obtain ⟨-, hnow, -, hstats, -, -, hattempt, -⟩ := requeued_eq h hdue
  have hready := h.retaken hdue
  have hself : (Unheard.retaken sim s i e queue).pktAttempt 0 i = s.pktAttempt 0 i + 1 := by
    unfold Unheard.retaken
    rw [drainRetx_pktAttempt, hattempt, Function.update_self]
  have hclock : (Unheard.retaken sim s i e queue).now = s.pktAttempt 0 i + 1 :=
    hnow.trans hdue.time
  obtain ⟨-, -, hresent⟩ := sendPacket_full (i := i) hready
  rw [dispatch_again h hd hlength hdue hmore]
  refine ⟨hready.send hd h.nodup.not_mem_erase (hclock.trans hself.symm) (hself.trans_lt hmore),
    ?_, ?_⟩
  · rw [sendPacket_pktAttempt]
    exact hattempt
  · rw [hresent, hself, if_pos (Nat.succ_pos _)]
    exact congrArg (· + 1) hstats

/-! ## The end -/

variable (policy) in
/-- Without attempts left the flow gives up. -/
theorem Volley.spent (h : Volley sim l s) (hdue : Due l s i e queue)
    (hlast : sim.transport.maxAttempts ≤ s.pktAttempt 0 i + 1) :
    let s' := (s.advance e queue).dispatch sim policy e.body
    Spent s' ∧ s'.stats.packetsRetransmitted = s.stats.packetsRetransmitted := by
  have hgive : (s.advance e queue).dispatch sim policy e.body =
      ((s.advance e queue).land 0 i).giveUp 0 := by
    rw [hdue.body]
    show (s.advance e queue).onTimeout sim 0 i (s.pktAttempt 0 i) = _
    unfold onTimeout
    rw [if_neg (by simp [h.unacked i]), if_neg (by simp), if_neg (by simp [h.failed]),
      if_pos (by simpa using hlast)]
  have hland := land_flying (s := s.advance e queue) (f := 0) (h.flying i hdue.mem)
  rw [hgive, hland]
  refine ⟨⟨by simp, fun e' he' => ?_⟩, rfl⟩
  have he' : e' ∈ queue.agenda := he'
  obtain ⟨j, -, hb⟩ := List.mem_map.mp (hdue.rest.mem_iff.mp (List.mem_map_of_mem he'))
  exact ⟨j, _, hb.symm⟩

theorem Spent.dispatch (h : Spent s) (hpop : s.queue.pop = some (e, queue)) :
    (s.advance e queue).dispatch sim policy e.body = s.advance e queue := by
  obtain ⟨i, a, hb⟩ := h.timers e (EventQueue.agenda_of_pop hpop ▸ List.mem_cons_self ..)
  have hfailed : ((s.advance e queue).tx 0).failed = true := h.failed
  rw [hb]
  show (s.advance e queue).onTimeout sim 0 i a = _
  unfold onTimeout
  rw [if_pos hfailed]
  split
  · rfl
  · split <;> rfl

variable (policy) in
/-- Its timers run out. -/
theorem Spent.drain : ∀ (k : Nat) (s : State), s.queue.agenda.length = k → Spent s →
    ∃ s', Relation.ReflTransGen (sim.Step policy) s s' ∧ s'.Drained ∧
      s'.stats.packetsRetransmitted = s.stats.packetsRetransmitted := by
  intro k
  induction k with
  | zero =>
    intro s hk _
    have hempty := s.queue.agenda_eq_nil_iff.mp (List.length_eq_zero_iff.mp hk)
    exact ⟨s, .refl, List.isEmpty_iff.mpr hempty, rfl⟩
  | succ k ih =>
    intro s hk h
    have hsome : s.queue.agenda ≠ [] := fun hnil => by simp [hnil] at hk
    obtain ⟨e, queue, hpop⟩ := EventQueue.exists_pop hsome
    have hagenda := EventQueue.agenda_of_pop hpop
    have hlength : queue.agenda.length = k := by
      rw [hagenda] at hk
      exact Nat.succ.inj hk
    obtain ⟨s', hrun, hdrained, hsame⟩ := ih (s.advance e queue) hlength
      ⟨h.failed, fun e' he' => h.timers e' (hagenda ▸ List.mem_cons_of_mem _ he')⟩
    have hstep : sim.Step policy s (s.advance e queue) :=
      Simulation.step_eq_some_iff.mpr ⟨e, queue, hpop, (h.dispatch hpop).symm⟩
    exact ⟨s', .head hstep hrun, hdrained, hsame⟩

variable (policy) in
/-- From a full volley on all attempts are made. `k` bounds those that are left. -/
theorem Volley.exhaust (hd : Flow sim n) : ∀ (k : Nat) (l : List Nat) (s : State),
    Volley sim l s → l.length = n →
    s.stats.packetsRetransmitted = (l.map (s.pktAttempt 0)).sum →
    n * sim.transport.maxAttempts - s.stats.packetsRetransmitted ≤ k →
      ∃ s', Relation.ReflTransGen (sim.Step policy) s s' ∧ s'.Drained ∧
        n * (sim.transport.maxAttempts - 1) ≤ s'.stats.packetsRetransmitted := by
  have hpos := hd.pos
  intro k
  induction k with
  | zero =>
    -- a volley has an attempt left, so the bound was not reached
    intro l s h hlength hsum hk
    have hall := List.sum_le_card_nsmul (l.map (s.pktAttempt 0)) (sim.transport.maxAttempts - 1)
      fun a ha => by
        obtain ⟨j, hj, rfl⟩ := List.mem_map.mp ha
        exact Nat.le_sub_one_of_lt (h.left j hj)
    rw [List.length_map, hlength, smul_eq_mul, ← hsum, Nat.mul_sub, Nat.mul_one] at hall
    have hmax := Nat.le_mul_of_pos_right n (Nat.zero_lt_of_lt hd.attempts.1)
    omega
  | succ k ih =>
    intro l s h hlength hsum hk
    have hsome : s.queue.agenda ≠ [] := fun hnil => by
      have htimers := h.timers.length_eq
      rw [hnil, List.map_nil, List.length_nil, List.length_map, hlength] at htimers
      omega
    obtain ⟨e, queue, hpop⟩ := EventQueue.exists_pop hsome
    obtain ⟨i, hdue⟩ := h.pop hpop
    have hstep : sim.Step policy s ((s.advance e queue).dispatch sim policy e.body) :=
      Simulation.step_eq_some_iff.mpr ⟨e, queue, hpop, rfl⟩
    by_cases hmore : s.pktAttempt 0 i + 1 < sim.transport.maxAttempts
    · obtain ⟨hnext, hattempt, hresent⟩ := h.resend policy hd hlength hdue hmore
      -- the attempts of the packet rise by one, those of the others stay
      have hperm := List.perm_cons_erase hdue.mem
      have hsplit := (hperm.map (s.pktAttempt 0)).sum_eq
      have hkeep : (l.erase i).map (Function.update (s.pktAttempt 0) i (s.pktAttempt 0 i + 1)) =
          (l.erase i).map (s.pktAttempt 0) := List.map_congr_left fun j hj =>
        Function.update_of_ne (h.nodup.mem_erase_iff.mp hj).1 _ _
      rw [List.map_cons, List.sum_cons] at hsplit
      obtain ⟨s', hrun, hdrained, hle⟩ := ih (i :: l.erase i) _ hnext
        (hperm.length_eq.symm.trans hlength)
        (by
          rw [hresent, hattempt, List.map_cons, List.sum_cons, hkeep, Function.update_self]
          omega)
        (by rw [hresent]; omega)
      exact ⟨s', .head hstep hrun, hdrained, hle⟩
    · obtain ⟨hspent, hsame⟩ := h.spent policy hdue (not_lt.mp hmore)
      obtain ⟨s', hrun, hdrained, hkept⟩ := hspent.drain policy _ _ rfl
      refine ⟨s', .head hstep hrun, hdrained, ?_⟩
      rw [hkept, hsame, hsum]
      -- no packet has fewer attempts behind it than the one that is out of them
      have hall := List.card_nsmul_le_sum (l.map (s.pktAttempt 0)) (sim.transport.maxAttempts - 1)
        fun a ha => by
          obtain ⟨j, hj, rfl⟩ := List.mem_map.mp ha
          have := hdue.least j hj
          omega
      rwa [List.length_map, hlength, smul_eq_mul] at hall

/-- In some run all attempts are made. -/
theorem reachable_exhausted (hd : Flow sim n) (policy : RoutingPolicy) (leftover : State) :
    ∃ s, sim.Reachable policy s ∧ s.Drained ∧
      n * (sim.transport.maxAttempts - 1) ≤ s.stats.packetsRetransmitted := by
  have hagenda : (sim.beginRun leftover).queue.agenda =
      [⟨0, EventQueue.clear.nextSeq, .inject 0⟩] := by
    unfold Simulation.beginRun
    rw [hd.one]
    simp only [List.range_one, List.foldl_cons, List.foldl_nil, hd.free, if_pos, hd.start]
    exact EventQueue.agenda_push ..
  obtain ⟨e, queue, hpop⟩ := EventQueue.exists_pop (q := (sim.beginRun leftover).queue) (by
    rw [hagenda]
    exact List.cons_ne_nil _ _)
  rw [EventQueue.agenda_of_pop hpop] at hagenda
  obtain ⟨rfl, hnil⟩ := List.cons.inj hagenda
  -- the flow's own start is the only event, and its loop sends the first volley
  set s := ((sim.beginRun leftover).advance ⟨0, EventQueue.clear.nextSeq, .inject 0⟩
    queue).modifyTx 0 fun tx => { tx with sendScheduled := false } with hs
  have htx : s.tx 0 = {} := by
    rw [hs, modifyTx_tx, Function.update_self]
    rfl
  have hqueue : s.queue.agenda = [] := hnil
  have hstart : Volley sim (List.range 0).reverse s :=
    { full := hd.room.symm
      gate := by rw [htx]; exact Nat.zero_le _
      failed := by rw [htx]
      ring := by rw [htx]
      head := by rw [htx, hd.window]; exact hd.pos
      nodup := List.nodup_nil
      count := by rw [htx]; rfl
      flying := fun i hi => absurd hi List.not_mem_nil
      unacked := fun i => rfl
      timers := by rw [hqueue]; exact List.Perm.nil
      due := fun e he => by rw [hqueue] at he; exact absurd he List.not_mem_nil
      past := fun i hi => absurd hi List.not_mem_nil
      left := fun i hi => absurd hi List.not_mem_nil }
  obtain ⟨hvolley, hattempt, hzero⟩ := hstart.fill hd n 0 s (by rw [htx]) rfl (fun _ => rfl) rfl
    (Nat.zero_add n)
  have hstep : sim.Step policy (sim.beginRun leftover) (sendLoop sim 0 n s) := by
    refine Simulation.step_eq_some_iff.mpr ⟨_, queue, hpop, ?_⟩
    show _ = s.trySend sim 0
    unfold trySend
    rw [htx, hd.window]
    rfl
  have hsum : (sendLoop sim 0 n s).stats.packetsRetransmitted =
      ((List.range n).reverse.map ((sendLoop sim 0 n s).pktAttempt 0)).sum := by
    rw [hzero]
    refine (List.sum_eq_zero fun a ha => ?_).symm
    obtain ⟨i, -, rfl⟩ := List.mem_map.mp ha
    exact hattempt i
  obtain ⟨s', hrun, hdrained, hle⟩ := hvolley.exhaust policy hd _ _ _ (by simp) hsum le_rfl
  exact ⟨s', ⟨leftover, .head hstep hrun⟩, hdrained, hle⟩

end Run

end Unheard

end FabricSim
