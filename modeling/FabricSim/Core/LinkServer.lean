import FabricSim.Core.Journey

/-!
# A link is a finite-buffer FIFO server

The abstract server is `FifoServer.serve`: fed with the packets a port accepted
and the times it accepted them, it says when each leaves. The code spreads it
over `enqueue`, `start_tx`, `on_tx_complete`, a ring buffer and the event heap;
`Served` says that it is that server. What the history shows of a port, the
transmissions that ended and the packets that arrived, followed by what is still
to come according to the port and the schedule, is the list the server gives.

Whether a packet is accepted is a matter of the history too: `waitingAt` is the
number of packets in the queue told from the history alone, and `Lawful` says of
every offer ever made that it was refused exactly when as many were waiting as
the queue has cells.
-/

namespace FabricSim

open State

/-- The acceptance of a packet by port `p`. -/
def Obs.acceptance (p : PortId) : Obs → Option (Nat × Packet)
  | .offered t q x room => if q = p ∧ room = true then some (t, x) else none
  | _ => none

/-- The end of a transmission of port `p`. -/
def Obs.finishing (p : PortId) : Obs → Option Nat
  | .dispatched e => e.completion p
  | _ => none

/-- The arrival of a packet at the far end of port `p`. -/
def Obs.arriving (p : PortId) : Obs → Option (Nat × Packet)
  | .dispatched e => e.arrival p
  | _ => none

section History

variable (tr : List Obs) (p : PortId)

/-- The packets port `p` accepted, with the times, in order. -/
def accepted : List (Nat × Packet) := (tr.filterMap (Obs.acceptance p)).reverse

/-- When the transmissions of port `p` ended, in order. -/
def finished : List Nat := (tr.filterMap (Obs.finishing p)).reverse

/-- The packets that arrived over port `p`, with the times, in order. -/
def arrived : List (Nat × Packet) := (tr.filterMap (Obs.arriving p)).reverse

/-- The packets that wait behind the one being transmitted. -/
def waitingAt : Nat := (accepted tr p).length - (finished tr p).length - 1

end History

/-- Every offer to port `p` was refused exactly when `cap` packets were waiting. -/
def Lawful (cap : Nat) (p : PortId) : List Obs → Prop
  | [] => True
  | o :: tr =>
    (∀ t x room, o = .offered t p x room → (room = false ↔ waitingAt tr p = cap)) ∧ Lawful cap p tr

theorem Lawful.offer {cap : Nat} {p : PortId} {l tr : List Obs} {t : Nat} {x : Packet}
    {room : Bool} (h : Lawful cap p (l ++ .offered t p x room :: tr)) :
    room = false ↔ waitingAt tr p = cap := by
  induction l with
  | nil => exact h.1 t x room rfl
  | cons o l ih => exact ih h.2

/-- An entry of the history that is neither an offer nor an event. -/
def Obs.Aside : Obs → Prop
  | .emitted .. => True
  | .released .. => True
  | _ => False

/-- The two histories show the same of port `p`. -/
structure SamePort (cap : Nat) (p : PortId) (tr tr' : List Obs) : Prop where
  accepted : accepted tr' p = accepted tr p
  finished : finished tr' p = finished tr p
  arrived : arrived tr' p = arrived tr p
  lawful : Lawful cap p tr → Lawful cap p tr'

theorem SamePort.refl (cap : Nat) (p : PortId) (tr : List Obs) : SamePort cap p tr tr :=
  ⟨rfl, rfl, rfl, id⟩

theorem SamePort.trans {cap : Nat} {p : PortId} {tr tr' tr'' : List Obs}
    (h : SamePort cap p tr tr') (h' : SamePort cap p tr' tr'') : SamePort cap p tr tr'' :=
  ⟨h'.accepted.trans h.accepted, h'.finished.trans h.finished, h'.arrived.trans h.arrived,
    h'.lawful ∘ h.lawful⟩

theorem SamePort.cons {cap : Nat} {p : PortId} {o : Obs} (tr : List Obs)
    (ha : o.acceptance p = none) (hf : o.finishing p = none) (hr : o.arriving p = none)
    (ho : ∀ t x room, o ≠ .offered t p x room) : SamePort cap p tr (o :: tr) where
  accepted := by
    unfold FabricSim.accepted
    rw [List.filterMap_cons_none ha]
  finished := by
    unfold FabricSim.finished
    rw [List.filterMap_cons_none hf]
  arrived := by
    unfold FabricSim.arrived
    rw [List.filterMap_cons_none hr]
  lawful h := ⟨fun t x room heq => absurd heq (ho t x room), h⟩

theorem SamePort.aside (cap : Nat) (p : PortId) {l : List Obs} (tr : List Obs)
    (hl : ∀ o ∈ l, o.Aside) : SamePort cap p tr (l ++ tr) := by
  induction l with
  | nil => exact SamePort.refl cap p tr
  | cons o l ih =>
    refine (ih fun o ho => hl o (List.mem_cons_of_mem _ ho)).trans ?_
    have ho := hl o (List.mem_cons_self ..)
    cases o with
    | emitted t x => exact SamePort.cons _ rfl rfl rfl (by simp)
    | released t g d => exact SamePort.cons _ rfl rfl rfl (by simp)
    | dispatched e => exact absurd ho (by simp [Obs.Aside])
    | offered t q x room => exact absurd ho (by simp [Obs.Aside])

/-- An offer to another port. -/
theorem SamePort.other {cap : Nat} {p q : PortId} (tr : List Obs) (t : Nat) (x : Packet)
    (room : Bool) (h : q ≠ p) : SamePort cap p tr (.offered t q x room :: tr) :=
  SamePort.cons tr (if_neg fun hq => h hq.1) rfl rfl fun _ _ _ heq => h (by
    simp only [Obs.offered.injEq] at heq
    exact heq.2.1)

/-- The history of port `p`, followed by what the port and the schedule hold, is
what the abstract server does with the packets the port accepted. -/
structure Served (sim : Simulation) (s : State) (p : PortId) : Prop where
  sent : (FifoServer.serve (sim.serNs p) 0 (accepted s.trace p)).map Prod.fst =
    finished s.trace p ++ (s.sends sim p).map Prod.fst
  wire : (FifoServer.serve (sim.serNs p) 0 (accepted s.trace p)).map
      (fun d => (d.1 + (sim.fabric.port p).propDelayNs, d.2)) =
    arrived s.trace p ++ s.timed sim p
  free : s.freeAt sim p = max s.now (FifoServer.freeAfter (sim.serNs p) 0 (accepted s.trace p))
  capacity : (s.port p).queue.capacity = (sim.fabric.port p).queueCapacity
  lawful : Lawful (sim.fabric.port p).queueCapacity p s.trace

namespace State

variable {sim : Simulation} {s s' : State} {p : PortId}

/-- A port is free when the last of its transmissions ends. -/
theorem freeAt_eq (sim : Simulation) (s : State) (p : PortId) :
    s.freeAt sim p = (s.sends sim p).foldl (fun _ d => d.1) s.now := by
  unfold freeAt sends
  split
  · rfl
  · exact (FifoServer.foldl_finish _ _ _).symm

/-- As long as nothing is accepted or sent, only the clock moves. -/
theorem freeAt_of_sends (hsends : s'.sends sim p = s.sends sim p) (hnow : s.now ≤ s'.now)
    (hle : s'.now ≤ s'.freeAt sim p) : s'.freeAt sim p = max s'.now (s.freeAt sim p) := by
  rw [freeAt_eq, hsends] at hle ⊢
  rw [freeAt_eq]
  cases hl : s.sends sim p with
  | nil =>
    show s'.now = max s'.now s.now
    omega
  | cons d l =>
    rw [hl] at hle
    exact (max_eq_right hle).symm

theorem freeAt_enqueue (hc : s.Coherent) {x : Packet}
    (hw : (s.enqueue sim p x).wrapped = false)
    (hroom : (s.port p).queue.count ≠ (s.port p).queue.capacity) :
    (s.enqueue sim p x).freeAt sim p = s.freeAt sim p + sim.serNs p x := by
  rw [freeAt_eq, sends_enqueue hc hw, if_pos ⟨rfl, hroom⟩, List.foldl_append,
    List.foldl_cons, List.foldl_nil]

theorem NetEq.sends (h : NetEq s s') (p : PortId) : s'.sends sim p = s.sends sim p := by
  unfold State.sends
  rw [h.port, h.completions]

/-- As many transmissions are ahead as the port holds packets. -/
theorem length_sends (sim : Simulation) (hc : s.Coherent) (p : PortId) :
    (s.sends sim p).length = if (s.port p).busy then (s.port p).queue.count + 1 else 0 := by
  unfold State.sends
  cases hb : (s.port p).busy with
  | false =>
    rw [hc.completions_eq_nil.mpr hb]
    rfl
  | true =>
    obtain ⟨c, hcp⟩ := hc.completions_eq_cons hb
    rw [hcp, if_pos rfl, ← BoundedFifo.length_toList (s.port p).queue,
      ← congrArg List.length (FifoServer.map_snd_finish (sim.serNs p) c (s.port p).queue.toList),
      List.length_map]
    rfl

theorem enqueue_trace_room (sim : Simulation) (s : State) (p : PortId) (x : Packet) :
    (s.enqueue sim p x).trace =
      .offered s.now p x (decide ((s.port p).queue.count ≠ (s.port p).queue.capacity)) ::
        s.trace := by
  have hroom : ∀ queue, (s.port p).queue.tryPush x = some queue →
      (s.port p).queue.count ≠ (s.port p).queue.capacity := by
    intro queue hq hfull
    rw [(BoundedFifo.tryPush_eq_none_iff _ x).mpr hfull] at hq
    exact absurd hq (by simp)
  rcases enqueue_cases s p x sim with ⟨hfull, h⟩ | ⟨queue, hq, ⟨-, h⟩ | ⟨-, h⟩⟩ <;> rw [h]
  · rw [drop_trace, log_trace, decide_eq_false (not_not_intro hfull)]
  · rw [modifyPort_trace, log_trace, decide_eq_true (hroom queue hq)]
  · rw [startTx_trace, modifyPort_trace, log_trace, decide_eq_true (hroom queue hq)]

theorem onTxComplete_trace (sim : Simulation) (s : State) (p : PortId) :
    (s.onTxComplete sim p).trace = s.trace := by
  rcases onTxComplete_cases sim s p with ⟨-, h⟩ | ⟨-, h⟩ <;> rw [h] <;> rfl

end State

theorem accepted_offered (t : Nat) (x : Packet) (room : Bool) (tr : List Obs) (p : PortId) :
    accepted (.offered t p x room :: tr) p =
      if room then accepted tr p ++ [(t, x)] else accepted tr p := by
  unfold accepted
  cases room with
  | false => exact congrArg List.reverse (List.filterMap_cons_none (if_neg (by simp)))
  | true =>
    have hx : Obs.acceptance p (.offered t p x true) = some (t, x) := if_pos ⟨rfl, rfl⟩
    rw [List.filterMap_cons_some hx, List.reverse_cons]
    rfl

theorem accepted_dispatched (e : Event) (tr : List Obs) (p : PortId) :
    accepted (.dispatched e :: tr) p = accepted tr p := by
  unfold accepted
  rw [List.filterMap_cons_none rfl]

theorem finished_dispatched (e : Event) (tr : List Obs) (p : PortId) :
    finished (.dispatched e :: tr) p = finished tr p ++ (e.completion p).toList := by
  unfold finished
  cases he : Obs.finishing p (.dispatched e) with
  | none =>
    rw [List.filterMap_cons_none he, show e.completion p = none from he, Option.toList_none,
      List.append_nil]
  | some t =>
    rw [List.filterMap_cons_some he, List.reverse_cons, show e.completion p = some t from he,
      Option.toList_some]

theorem arrived_dispatched (e : Event) (tr : List Obs) (p : PortId) :
    arrived (.dispatched e :: tr) p = arrived tr p ++ (e.arrival p).toList := by
  unfold arrived
  cases he : Obs.arriving p (.dispatched e) with
  | none =>
    rw [List.filterMap_cons_none he, show e.arrival p = none from he, Option.toList_none,
      List.append_nil]
  | some a =>
    rw [List.filterMap_cons_some he, List.reverse_cons, show e.arrival p = some a from he,
      Option.toList_some]

theorem lawful_dispatched {cap : Nat} {p : PortId} {tr : List Obs} (e : Event)
    (h : Lawful cap p tr) : Lawful cap p (.dispatched e :: tr) :=
  ⟨fun t x room heq => absurd heq (by simp), h⟩

namespace Served

variable {sim : Simulation} {policy : RoutingPolicy} {s s' : State} {p : PortId}

/-- The number of packets in the queue, told from the history. -/
theorem count (h : Served sim s p) (hc : s.Coherent) :
    (s.port p).queue.count = waitingAt s.trace p := by
  have hlen := congrArg List.length h.sent
  rw [List.length_map, FifoServer.length_serve, List.length_append, List.length_map,
    length_sends sim hc] at hlen
  unfold waitingAt
  cases hb : (s.port p).busy with
  | false =>
    have hidle := congrArg List.length (hc.idle p hb)
    rw [BoundedFifo.length_toList, List.length_nil] at hidle
    rw [hb, if_neg (by simp)] at hlen
    omega
  | true =>
    rw [hb, if_pos rfl] at hlen
    omega

/-- A step that accepts nothing: what it adds to the history of the port it takes
from what was to come. -/
theorem move (h : Served sim s p) (hacc : accepted s'.trace p = accepted s.trace p)
    (hsent : finished s'.trace p ++ (s'.sends sim p).map Prod.fst =
      finished s.trace p ++ (s.sends sim p).map Prod.fst)
    (hwire : arrived s'.trace p ++ s'.timed sim p = arrived s.trace p ++ s.timed sim p)
    (hfree : s'.freeAt sim p = max s'.now (s.freeAt sim p)) (hnow : s.now ≤ s'.now)
    (hcap : (s'.port p).queue.capacity = (s.port p).queue.capacity)
    (hlawful : Lawful (sim.fabric.port p).queueCapacity p s'.trace) : Served sim s' p where
  sent := by rw [hacc, h.sent, hsent]
  wire := by rw [hacc, h.wire, hwire]
  free := by
    rw [hfree, h.free, hacc, ← max_assoc, max_eq_left hnow]
  capacity := hcap.trans h.capacity
  lawful := hlawful

/-- A step that leaves the links alone. -/
theorem congr (h : Served sim s p) (hnet : NetEq s s') (hnow : s'.now = s.now)
    (hle : s.now ≤ s.freeAt sim p)
    (htr : SamePort (sim.fabric.port p).queueCapacity p s.trace s'.trace) : Served sim s' p := by
  refine h.move htr.accepted ?_ ?_ ?_ hnow.ge (by rw [hnet.port]) (htr.lawful h.lawful)
  · rw [htr.finished, hnet.sends]
  · rw [htr.arrived, hnet.timed]
  · refine freeAt_of_sends (hnet.sends p) hnow.ge ?_
    rw [hnet.freeAt hnow, hnow]
    exact hle

theorem enqueue (h : Served sim s p) (hc : s.Coherent) {q : PortId} {x : Packet}
    (hw : (s.enqueue sim q x).wrapped = false)
    (hle : (s.enqueue sim q x).now ≤ (s.enqueue sim q x).freeAt sim p) :
    Served sim (s.enqueue sim q x) p := by
  have htr := enqueue_trace_room sim s q x
  by_cases hqp : q = p
  · subst hqp
    have hlaw : Lawful (sim.fabric.port q).queueCapacity q (s.enqueue sim q x).trace := by
      rw [htr]
      refine ⟨fun t y room heq => ?_, h.lawful⟩
      simp only [Obs.offered.injEq] at heq
      obtain ⟨-, -, -, rfl⟩ := heq
      rw [decide_eq_false_iff_not, not_not, h.count hc, h.capacity]
    by_cases hroom : (s.port q).queue.count = (s.port q).queue.capacity
    · -- refused: the history says so, and nothing else happens
      have hsends : (s.enqueue sim q x).sends sim q = s.sends sim q := by
        rw [sends_enqueue hc hw, if_neg fun hp => hp.2 hroom]
      have hacc : accepted (s.enqueue sim q x).trace q = accepted s.trace q := by
        rw [htr, accepted_offered, decide_eq_false (not_not_intro hroom)]
        rfl
      refine h.move hacc ?_ ?_ ?_ (enqueue_now ..).ge (capacity_enqueue sim s q x q) hlaw
      · rw [hsends, htr]
        rfl
      · rw [timed_enqueue hc hw, if_neg fun hp => hp.2 hroom, htr]
        rfl
      · exact freeAt_of_sends hsends (enqueue_now ..).ge hle
    · -- accepted: the packet leaves when the port has sent all the rest
      have hacc : accepted (s.enqueue sim q x).trace q = accepted s.trace q ++ [(s.now, x)] := by
        rw [htr, accepted_offered, decide_eq_true hroom]
        rfl
      have hdone : max s.now (FifoServer.freeAfter (sim.serNs q) 0 (accepted s.trace q)) +
          sim.serNs q x = s.freeAt sim q + sim.serNs q x := by rw [h.free]
      refine ⟨?_, ?_, ?_, (capacity_enqueue sim s q x q).trans h.capacity, hlaw⟩
      · rw [hacc, FifoServer.serve_concat, List.map_append, h.sent, sends_enqueue hc hw,
          if_pos ⟨rfl, hroom⟩, List.map_append, hdone, htr, List.append_assoc]
        rfl
      · rw [hacc, FifoServer.serve_concat, List.map_append, h.wire, timed_enqueue hc hw,
          if_pos ⟨rfl, hroom⟩, hdone, htr, List.append_assoc]
        rfl
      · rw [hacc, FifoServer.freeAfter_concat, freeAt_enqueue hc hw hroom, hdone, enqueue_now]
        omega
  · have hsends : (s.enqueue sim q x).sends sim p = s.sends sim p := by
      rw [sends_enqueue hc hw, if_neg fun hp => hqp hp.1.symm]
    have hsame : SamePort (sim.fabric.port p).queueCapacity p s.trace
        (s.enqueue sim q x).trace := by
      rw [htr]
      exact SamePort.other _ _ _ _ hqp
    refine h.move hsame.accepted ?_ ?_ ?_ (enqueue_now ..).ge (capacity_enqueue sim s q x p)
      (hsame.lawful h.lawful)
    · rw [hsends, hsame.finished]
    · rw [timed_enqueue hc hw, if_neg fun hp => hqp hp.1.symm, hsame.arrived]
    · exact freeAt_of_sends hsends (enqueue_now ..).ge hle

theorem micro (h : Served sim s p) {f : FlowId} (hm : Micro sim f s s') (hc : s.Coherent)
    (ht : s.OnTime sim) (hw : s'.wrapped = false) : Served sim s' p := by
  have ht' := hm.onTime hc ht hw
  rcases hm.net with ⟨hnet, hnow, -, -, l, hl, hrel⟩ | ⟨s₁, x, hnet, -, hnow, -, htr, rfl⟩
  · refine h.congr hnet hnow (ht.le_freeAt p) ?_
    rw [hl]
    refine SamePort.aside _ p _ fun o ho => ?_
    obtain ⟨t, g, d, rfl⟩ := hrel o ho
    exact trivial
  · -- an emission: the bookkeeping first, then the offer to the NIC
    have h₁ : Served sim s₁ p := by
      refine h.congr hnet hnow (ht.le_freeAt p) ?_
      rw [htr]
      exact SamePort.cons _ rfl rfl rfl (by simp)
    exact h₁.enqueue (hnet.coherent hc) hw (ht'.le_freeAt p)

theorem micros (h : Served sim s p) {f : FlowId} (hm : Micros sim f s s') (hc : s.Coherent)
    (ht : s.OnTime sim) (hw : s'.wrapped = false) : Served sim s' p :=
  (hm.timely (P := fun s => Served sim s p) hc ht h
    (fun _ _ hm hc ht hw h => h.micro hm hc ht hw) hw).2.2

/-- Taking an event that ends no transmission. -/
theorem advance (h : Served sim s p) (ht : s.OnTime sim) {e : Event} {queue : EventQueue}
    (hpop : s.queue.pop = some (e, queue)) (hb : ∀ q, e.body ≠ .txComplete q) :
    Served sim (s.advance e queue) p := by
  obtain ⟨hnow, htime⟩ := ht.advance hpop
  have hcomp : e.completion p = none := by
    unfold Event.completion
    split
    · next q hq => exact absurd hq (hb q)
    · rfl
  have hsends : (s.advance e queue).sends sim p = s.sends sim p := by
    unfold State.sends
    rw [EventQueue.completions_of_pop hpop, hcomp]
    rfl
  refine h.move ?_ ?_ ?_ (freeAt_of_sends hsends hnow (htime.le_freeAt p)) hnow rfl ?_
  · rw [advance_trace, accepted_dispatched]
  · rw [advance_trace, finished_dispatched, hcomp, hsends, Option.toList_none, List.append_nil]
  · unfold State.timed
    rw [advance_trace, arrived_dispatched, hsends, EventQueue.arrivals_of_pop hpop,
      List.append_assoc, List.append_assoc]
    rfl
  · rw [advance_trace]
    exact lawful_dispatched e h.lawful

/-- The end of a transmission: the first finishing time to come is past. -/
theorem txComplete (h : Served sim s p) (hc : s.Coherent) (ht : s.OnTime sim) {e : Event}
    {queue : EventQueue} (hpop : s.queue.pop = some (e, queue)) {q : PortId}
    (hb : e.body = .txComplete q)
    (hw : ((s.advance e queue).onTxComplete sim q).wrapped = false) :
    Served sim ((s.advance e queue).onTxComplete sim q) p := by
  obtain ⟨hnow, htime⟩ := ht.advance hpop
  have hfin := advance_finishing hc hpop hb
  have htr : ((s.advance e queue).onTxComplete sim q).trace = .dispatched e :: s.trace := by
    rw [onTxComplete_trace, advance_trace]
  have hnow' : ((s.advance e queue).onTxComplete sim q).now = e.time := by
    rcases onTxComplete_cases sim (s.advance e queue) q with ⟨-, heq⟩ | ⟨-, heq⟩ <;> rw [heq] <;> rfl
  have hcomp : e.completion p = if q = p then some e.time else none := by
    unfold Event.completion
    rw [hb]
  have harr : e.arrival p = none := by
    unfold Event.arrival
    rw [hb]
  have hsends := sends_onTxComplete hfin (htime.flying q) hw p
  have hle := ((htime.onTxComplete hfin hw).le_freeAt p)
  -- what was to come starts with the end of this transmission
  have hfirst : (s.sends sim p) = (if q = p then [(e.time, (s.port p).inFlight)] else []) ++
      ((s.advance e queue).onTxComplete sim q).sends sim p := by
    rw [hsends]
    by_cases hqp : q = p
    · subst hqp
      unfold State.sends
      rw [EventQueue.completions_of_pop hpop, hcomp, if_pos rfl, if_pos rfl, if_pos rfl]
      rfl
    · rw [if_neg hqp, if_neg (Ne.symm hqp)]
      unfold State.sends
      rw [EventQueue.completions_of_pop hpop, hcomp, if_neg hqp]
      rfl
  refine h.move ?_ ?_ ?_ ?_ (hnow'.symm ▸ hnow) ?_ ?_
  · rw [htr, accepted_dispatched]
  · rw [htr, finished_dispatched, hcomp, hfirst]
    by_cases hqp : q = p
    · rw [if_pos hqp, if_pos hqp, List.map_append, List.append_assoc]
      rfl
    · rw [if_neg hqp, if_neg hqp, List.nil_append, Option.toList_none, List.append_nil]
  · rw [htr, arrived_dispatched, harr, timed_step_txComplete ht hc hpop hb hw, Option.toList_none,
      List.append_nil]
  · by_cases hqp : q = p
    · rw [if_pos hqp] at hfirst
      rw [hnow'] at hle ⊢
      rw [freeAt_eq sim s, hfirst, List.foldl_append]
      rw [freeAt_eq, hnow'] at hle ⊢
      exact (max_eq_right hle).symm
    · rw [if_neg hqp, List.nil_append] at hfirst
      exact freeAt_of_sends hfirst.symm (hnow'.symm ▸ hnow) hle
  · exact capacity_onTxComplete sim (s.advance e queue) q p
  · rw [htr]
    exact lawful_dispatched e h.lawful

theorem step (h : Served sim s p) (hs : sim.Reachable policy s) {e : Event}
    {queue : EventQueue} (hpop : s.queue.pop = some (e, queue))
    (hw : ((s.advance e queue).dispatch sim policy e.body).wrapped = false) :
    Served sim ((s.advance e queue).dispatch sim policy e.body) p := by
  have ht := hs.onTime (step_unwrapped hs.coherent hpop hw)
  have ht' := ht.step hs.coherent hpop hw
  have hadvt := (ht.advance hpop).2
  rcases dispatch_cases sim policy (s.advance e queue) e.body with
    ⟨q, hb, heq⟩ | ⟨q, x, hb, -, heq⟩ | ⟨f, s₁, hnet, hnow, htr, -, hq, -, -, -, hm, hb⟩
  · rw [heq] at hw ⊢
    exact h.txComplete hs.coherent ht hpop hb hw
  · rw [heq] at hw ht' ⊢
    have hadv := h.advance ht hpop (by rw [hb]; simp)
    exact hadv.enqueue (hs.coherent.advance hpop (by rw [hb]; simp)) hw (ht'.le_freeAt p)
  · have hne : ∀ q, e.body ≠ .txComplete q := by
      rcases hb with hb | ⟨idx, a, hb⟩ | ⟨q, x, hb, -, -⟩ <;> simp [hb]
    have hc : (s.advance e queue).Coherent := hs.coherent.advance hpop hne
    have h₁ : Served sim s₁ p := by
      refine (h.advance ht hpop hne).congr hnet hnow (hadvt.le_freeAt p) ?_
      rw [htr]
      exact SamePort.refl _ p _
    exact h₁.micros hm (hnet.coherent hc) (hadvt.of_netEq hnet hq hnow) hw

theorem begin (sim : Simulation) (leftover : State) (p : PortId) :
    Served sim (sim.beginRun leftover) p := by
  have hsends : (sim.beginRun leftover).sends sim p = [] := by
    unfold State.sends
    rw [Simulation.completions_beginRun]
  have htimed : (sim.beginRun leftover).timed sim p = [] := by
    unfold State.timed
    rw [Simulation.arrivals_beginRun, hsends]
    rfl
  refine ⟨?_, ?_, ?_, rfl, trivial⟩
  · rw [hsends]
    rfl
  · rw [htimed]
    rfl
  · rw [freeAt_eq, hsends]
    rfl

end Served

/-- In every state of every run whose times have not wrapped. -/
theorem Simulation.Reachable.served {sim : Simulation} {policy : RoutingPolicy} {s : State}
    (h : sim.Reachable policy s) (hw : s.wrapped = false) (p : PortId) : Served sim s p := by
  refine Simulation.Reachable.invariant (P := fun s => s.wrapped = false → Served sim s p)
    (fun leftover _ => Served.begin sim leftover p) ?_ h hw
  exact fun s e queue hs ih hpop hw' => (ih (step_unwrapped hs.coherent hpop hw')).step hs hpop hw'

/-! ## The ring is never popped empty -/

namespace State

variable (sim : Simulation)

/-- `start_tx`, failing where it would pop an empty ring. -/
def startTxChecked (s : State) (p : PortId) : Option State :=
  if (s.port p).queue.empty then none else some (s.startTx sim p)

/-- `enqueue` over the checked `start_tx`. -/
def enqueueChecked (s : State) (p : PortId) (pkt : Packet) : Option State :=
  match (s.port p).queue.tryPush pkt with
  | none => some ((s.log (.offered s.now p pkt false)).drop p pkt)
  | some queue =>
    let s' := (s.log (.offered s.now p pkt true)).modifyPort p fun ps => { ps with queue := queue }
    if (s.port p).busy then some s' else s'.startTxChecked sim p

/-- `on_tx_complete` over the checked `start_tx`. -/
def onTxCompleteChecked (s : State) (p : PortId) : Option State :=
  if ((s.sendOff sim p).port p).queue.empty then
    some ((s.sendOff sim p).modifyPort p fun ps => { ps with busy := false })
  else (s.sendOff sim p).startTxChecked sim p

/-- A packet has just been pushed. -/
theorem enqueueChecked_eq (s : State) (p : PortId) (pkt : Packet) :
    s.enqueueChecked sim p pkt = some (s.enqueue sim p pkt) := by
  unfold enqueueChecked enqueue
  cases hq : (s.port p).queue.tryPush pkt with
  | none => rfl
  | some queue =>
    have hne : queue.empty = false := by
      unfold BoundedFifo.empty
      rw [(BoundedFifo.tryPush_count hq).1]
      exact beq_false_of_ne (Nat.succ_ne_zero _)
    cases hb : (s.port p).busy with
    | true => rfl
    | false =>
      show startTxChecked sim _ p = some (startTx sim _ p)
      unfold startTxChecked
      rw [modifyPort_port, Function.update_self, if_neg (by rw [hne]; simp)]

/-- The queue has just been tested. -/
theorem onTxCompleteChecked_eq (s : State) (p : PortId) :
    s.onTxCompleteChecked sim p = some (s.onTxComplete sim p) := by
  unfold onTxCompleteChecked onTxComplete startTxChecked
  cases he : ((s.sendOff sim p).port p).queue.empty with
  | true => rfl
  | false => rfl

end State

/-- Every port is a finite-buffer FIFO server, in every state of every run whose
times have not wrapped. Every offer of the history was refused exactly when as
many packets were waiting as the queue has cells, and what the history says was
waiting is what the ring holds. The `n`-th accepted packet ends its transmission
at `max A_n D_{n-1}` plus its serialization time and is at the peer a propagation
delay later: what the history shows of the port, followed by what the port and
the schedule still hold, is this list. A port is busy exactly when one
`txComplete` is pending for it, idle ports have empty queues, and neither caller
of `start_tx` ever pops an empty ring. Which packets are offered is the code's
choice as long as 32 bits index them (`Simulation.Fits`). -/
theorem link_is_fifo_server (sim : Simulation) (policy : RoutingPolicy) {s : State}
    (hs : sim.Reachable policy s) (hw : s.wrapped = false) (p : PortId) :
    (∀ l t x room tr, s.trace = l ++ .offered t p x room :: tr →
      (room = false ↔ waitingAt tr p = (sim.fabric.port p).queueCapacity)) ∧
    (s.port p).queue.count = waitingAt s.trace p ∧
    (FifoServer.serve (sim.serNs p) 0 (accepted s.trace p)).map Prod.fst =
      finished s.trace p ++ (s.sends sim p).map Prod.fst ∧
    (FifoServer.serve (sim.serNs p) 0 (accepted s.trace p)).map
        (fun d => (d.1 + (sim.fabric.port p).propDelayNs, d.2)) =
      arrived s.trace p ++ s.timed sim p ∧
    ((s.port p).busy = true ↔ (s.queue.completions p).length = 1) ∧
    ((s.port p).busy = false → (s.port p).queue.toList = [] ∧ s.queue.completions p = []) ∧
    ∀ s' : State, (∀ x, s'.enqueueChecked sim p x = some (s'.enqueue sim p x)) ∧
      s'.onTxCompleteChecked sim p = some (s'.onTxComplete sim p) := by
  have h := hs.served hw p
  have hc := hs.coherent
  refine ⟨?_, h.count hc, h.sent, h.wire, ?_, ?_, ?_⟩
  · intro l t x room tr htr
    have hl := h.lawful
    rw [htr] at hl
    exact hl.offer
  · rw [hc.tx p]
    cases (s.port p).busy <;> simp
  · exact fun hb => ⟨hc.idle p hb, hc.completions_eq_nil.mpr hb⟩
  · exact fun s' => ⟨enqueueChecked_eq sim s' p, onTxCompleteChecked_eq sim s' p⟩

/-- Two hosts on a leaf, after the whole run: the NIC of the first host. -/
theorem link_is_fifo_server_pair :
    (FifoServer.serve (Pair.simulation.serNs 0) 0 (accepted Pair.last.trace 0)).map Prod.fst =
        finished Pair.last.trace 0 ++ (Pair.last.sends Pair.simulation 0).map Prod.fst ∧
      (Pair.last.port 0).queue.count = waitingAt Pair.last.trace 0 := by
  obtain ⟨-, hcount, hsent, -⟩ := link_is_fifo_server Pair.simulation StaticFirstPolicy
    ((Simulation.Reachable.begin _).runFor 100) Pair.last_unwrapped 0
  exact ⟨hsent, hcount⟩

end FabricSim
