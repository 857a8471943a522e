import FabricSim.Core.Delivery
import FabricSim.Core.Discipline
import FabricSim.Core.Tandem

/-!
# Data and acks of a lone flow

On equal links, and with packets of equal size but for the acks, data leaves a
transmission apart and waits nowhere. Every data packet that arrives is answered at once
(`Tally.acks`), so the acks leave as far apart. Where they take no longer than data they
wait nowhere either, and with any room at all no queue is ever found full
(`Lone.lossless`).
-/

namespace FabricSim

open State FifoServer

theorem Event.arrival_eq_some_iff {e : Event} {p : PortId} {a : Nat × Packet} :
    e.arrival p = some a ↔ e.body = .arrive p a.2 ∧ e.time = a.1 := by
  unfold Event.arrival
  constructor
  · intro heq
    split at heq
    · next q x hb =>
      split at heq
      · next hq =>
        obtain rfl := Option.some.inj heq
        exact ⟨hq ▸ hb, rfl⟩
      · exact absurd heq (by simp)
    · exact absurd heq (by simp)
  · intro h
    rw [h.1, h.2]
    exact if_pos rfl

namespace State

variable {sim : Simulation} {policy : RoutingPolicy} {s : State}

theorem arrived_step (e : Event) (queue : EventQueue) (p : PortId) :
    arrived ((s.advance e queue).dispatch sim policy e.body).trace p =
      arrived s.trace p ++ (e.arrival p).toList := by
  obtain ⟨l, hl, hquiet⟩ := @step_trace sim policy s e queue
  have hnone : l.filterMap (Obs.arriving p) = [] := by
    rw [List.filterMap_eq_nil_iff]
    intro o ho
    have hno := hquiet o ho
    cases o with
    | dispatched e' => exact absurd hno (by simp [Obs.dispatchTime])
    | emitted | offered | released => rfl
  rw [← arrived_dispatched]
  unfold arrived
  rw [hl, List.filterMap_append, hnone, List.nil_append]

theorem mem_arrived {tr : List Obs} {p : PortId} {a : Nat × Packet} :
    a ∈ arrived tr p ↔ ∃ e, .dispatched e ∈ tr ∧ e.body = .arrive p a.2 ∧ e.time = a.1 := by
  unfold arrived
  rw [List.mem_reverse, List.mem_filterMap]
  constructor
  · intro h
    obtain ⟨o, ho, heq⟩ := h
    cases o with
    | dispatched e => exact ⟨e, ho, Event.arrival_eq_some_iff.mp heq⟩
    | emitted | offered | released => exact absurd heq (by simp [Obs.arriving])
  · intro h
    obtain ⟨e, he, hb⟩ := h
    exact ⟨_, he, Event.arrival_eq_some_iff.mpr hb⟩

/-- What has arrived by the end of a turn passed the link before. -/
theorem mem_passing_of_arrived {e : Event} {queue : EventQueue}
    (hpop : s.queue.pop = some (e, queue)) {p : PortId} {a : Nat × Packet}
    (ha : a ∈ arrived ((s.advance e queue).dispatch sim policy e.body).trace p) :
    a ∈ s.passing sim p := by
  rw [arrived_step] at ha
  rcases List.mem_append.mp ha with ha | ha
  · exact List.mem_append_left _ ha
  · have he : e ∈ s.queue.agenda := by
      rw [EventQueue.agenda_of_pop hpop]
      exact List.mem_cons_self ..
    refine List.mem_append_right _ (List.mem_append_left _ ?_)
    exact List.mem_filterMap.mpr ⟨e, he, Option.mem_toList.mp ha⟩

end State

/-- Whatever arrived came over its path. -/
theorem Simulation.Reachable.arrivals_onPath {sim : Simulation} {policy : RoutingPolicy} {s : State}
    (h : sim.Reachable policy s) (hflow : policy.PerFlow) :
    ∀ e, .dispatched e ∈ s.trace → ∀ p x, e.body = .arrive p x →
      p = sim.link policy x.flow x.kind x.tag.route.length := by
  refine Simulation.Reachable.invariant (P := fun s => ∀ e, .dispatched e ∈ s.trace → ∀ p x,
    e.body = .arrive p x → p = sim.link policy x.flow x.kind x.tag.route.length)
    (fun _ _ he => absurd he List.not_mem_nil) ?_ h
  intro s e queue hs ih hpop e' he p x hb
  rcases mem_dispatched_step he with rfl | he
  · exact hs.onPath hflow p x (mem_onLink_of_arrive hpop hb)
  · exact ih e' he p x hb

namespace Simulation.Lone

variable {sim : Simulation} {policy : RoutingPolicy} {s : State}

/-- A packet arrives at a host over the last link of its kind, and only such do. -/
theorem last_iff (hl : sim.Lone policy) (hs : sim.Reachable policy s) {e : Event}
    (he : .dispatched e ∈ s.trace) {p : PortId} {x : Packet} (hb : e.body = .arrive p x)
    (k : PacketKind) : p = sim.link policy 0 k (sim.hops 0 - 1) ↔
      (sim.fabric.node (sim.fabric.port p).peerNode).isHost = true ∧ x.kind = k := by
  have hway := hs.arrivals_onWay hl.routed hl.member e he p x hb
  have hpath := hs.arrivals_onPath hl.perFlow e he p x hb
  have hflow := hl.flow_eq hway.flow_lt
  have hpos := hl.hops_pos
  rw [hflow] at hpath
  cases hhost : (sim.fabric.node (sim.fabric.port p).peerNode).isHost with
  | false =>
    have hlt := hway.lt_hops hl.routed hhost
    rw [hflow] at hlt
    refine ⟨fun heq => ?_, fun h => absurd h.1 (by simp)⟩
    have := (hl.link_inj s (by omega) (by omega) (hpath.symm.trans heq)).2
    omega
  | true =>
    have hlen := ((hway.safe hl.routed).host hhost).2
    rw [hflow, List.length_cons] at hlen
    rw [show x.tag.route.length = sim.hops 0 - 1 by omega] at hpath
    refine ⟨fun heq => ⟨rfl, ?_⟩, fun h => by rw [hpath, h.2]⟩
    exact (hl.link_inj s (by omega) (by omega) (hpath.symm.trans heq)).1

/-- The deliveries are what arrives over the last link of the data. -/
theorem arrived_data (hl : sim.Lone policy) (hs : sim.Reachable policy s) :
    (arrived s.trace (sim.link policy 0 .data (sim.hops 0 - 1))).map
      (fun a => (a.1, a.2.index)) = (s.deliveries sim 0).reverse := by
  unfold arrived deliveries
  rw [List.map_reverse, List.map_filterMap]
  refine congrArg List.reverse (List.filterMap_congr fun o ho => ?_)
  cases o with
  | dispatched e =>
    cases hb : e.body with
    | arrive p x =>
      have hiff := hl.last_iff hs ho hb .data
      have hflow := hl.flow_eq (hs.arrivals_onWay hl.routed hl.member e ho p x hb).flow_lt
      rw [delivery_arrive sim 0 hb]
      show (e.arrival _).map _ = _
      unfold Event.arrival
      rw [hb]
      dsimp only
      by_cases hp : p = sim.link policy 0 .data (sim.hops 0 - 1)
      · rw [if_pos hp, if_pos ⟨(hiff.mp hp).1, hflow, (hiff.mp hp).2⟩]
        rfl
      · rw [if_neg hp, if_neg fun h => hp (hiff.mpr ⟨h.1, h.2.2⟩)]
        rfl
    | inject | txComplete | timeout =>
      rw [delivery_eq_none fun p x h => absurd (hb.symm.trans h) (by simp)]
      show (e.arrival _).map _ = _
      unfold Event.arrival
      rw [hb]
      rfl
  | emitted | offered | released => rfl

/-- Acks leave when data arrives, with its index. -/
theorem out_ack (hl : sim.Lone policy) (hs : sim.Reachable policy s) :
    (s.out .ack).map (fun b => (b.1, b.2.index)) =
      (arrived s.trace (sim.link policy 0 .data (sim.hops 0 - 1))).map
        fun a => (a.1, a.2.index) := by
  rw [hl.arrived_data hs, ← (hs.tally 0).acks]
  unfold out State.acks emissions
  rw [List.map_reverse, ← List.filterMap_eq_filter, List.filterMap_filterMap, List.map_filterMap]
  refine congrArg List.reverse (List.filterMap_congr fun o ho => ?_)
  cases o with
  | emitted t x =>
    have hflow := hl.flow_eq (hs.inRange.emitted t x ho)
    by_cases hk : x.kind = .ack
    · simp [Obs.emission, Obs.acking, hk, hflow, Option.guard]
    · simp [Obs.emission, Obs.acking, hk, Option.guard]
  | dispatched | offered | released => rfl

/-- The data that left is what the sender of the flow transmitted. -/
theorem out_data (hl : sim.Lone policy) (hs : sim.Reachable policy s) :
    s.out .data = (s.sentBy 0).reverse := by
  unfold out sentBy
  refine congrArg List.reverse (List.filter_congr fun b hb => ?_)
  have hflow := hl.flow_eq (hs.inRange.emitted b.1 b.2 (mem_emissions.mp hb))
  simp [sentOf, hflow]

end Simulation.Lone

/-! ## Equal packets on equal links -/

namespace Simulation

/-- The size of the flow's packets. -/
def kindBytes (sim : Simulation) : PacketKind → Nat
  | .data => (sim.spec 0).mtuBytes
  | .ack => sim.transport.ackBytes

/-- Links are equal, all data packets are full, each takes `ser` on a link, and the sender
paces them so. -/
structure Uniform (sim : Simulation) (rate delay : Nat) (ser : PacketKind → Nat) : Prop where
  links : sim.fabric.LinksAlike rate delay
  full : ∀ idx, idx < sim.packetsTotal 0 → (sim.spec 0).packetBytes idx = (sim.spec 0).mtuBytes
  service : ∀ k, serializationNs (sim.kindBytes k) rate = ser k
  period : sim.periodNs 0 = ser .data
  pos : 0 < ser .data

end Simulation

namespace Simulation.Uniform

variable {sim : Simulation} {policy : RoutingPolicy} {s : State} {rate delay : Nat}
  {ser : PacketKind → Nat} {k : PacketKind} {j : Nat}

theorem bytes_out (hu : sim.Uniform rate delay ser) (hl : sim.Lone policy)
    (hs : sim.Reachable policy s) (k : PacketKind) :
    ∀ b ∈ s.out k, b.2.bytes = sim.kindBytes k := by
  intro b hb
  obtain ⟨hmem, rfl⟩ := mem_out.mp hb
  have hflow := hl.flow_eq (hs.inRange.emitted b.1 b.2 (mem_emissions.mp hmem))
  rw [hs.numbered.bytes b hmem]
  unfold wireBytes kindBytes
  cases hk : b.2.kind with
  | data =>
    have hidx := hs.books.data b.1 b.2 (mem_emissions.mp hmem) hk
    rw [hflow] at hidx
    dsimp only
    rw [hflow]
    exact hu.full _ (hidx.trans_le (hs.books.ledger 0).seq_le)
  | ack => rfl

/-- Data leaves a transmission apart. -/
theorem spaced_data (hu : sim.Uniform rate delay ser) (hl : sim.Lone policy)
    (hs : sim.Reachable policy s) (ht : sim.transport.Accepted) (hw : s.wrapped = false) :
    Spaced (ser .data) ((s.out .data).map Prod.fst) := by
  have h := (hs.discipline ht hw 0).spaced
  rw [hl.out_data hs, List.map_reverse]
  unfold Spaced
  rw [List.pairwise_reverse, List.pairwise_map]
  rw [hu.period] at h
  exact h

variable (hu : sim.Uniform rate delay ser) (hl : sim.Lone policy) (hs : sim.Reachable policy s)
  (hw : s.wrapped = false) (hloss : Lossless s)

include hu hl hs hw hloss

/-- What passes a link does so a transmission apart. -/
theorem passing_spaced (hj : j < sim.hops 0) (k : PacketKind) :
    Spaced (ser k) ((s.passing sim (sim.link policy 0 k j)).map Prod.fst) :=
  ((hs.tandem hl hloss).through hl (hs.served hw) hu.links (hu.service k)
    (hu.bytes_out hl hs k) hj).1

variable (ht : sim.transport.Accepted)

include ht

/-- Both kinds leave as far apart as data takes. -/
theorem spaced_out (k : PacketKind) : Spaced (ser .data) ((s.out k).map Prod.fst) := by
  cases k with
  | data => exact hu.spaced_data hl hs ht hw
  | ack =>
    have hacks := congrArg (List.map Prod.fst) (hl.out_ack hs)
    rw [List.map_map, List.map_map] at hacks
    have htimes : (s.out .ack).map Prod.fst =
        (arrived s.trace (sim.link policy 0 .data (sim.hops 0 - 1))).map Prod.fst := hacks
    have hpos := hl.hops_pos
    rw [htimes]
    refine (hu.passing_spaced hl hs hw hloss (j := sim.hops 0 - 1) (by omega) .data).sublist ?_
    exact (List.prefix_append _ _).sublist.map _

variable (hle : ser k ≤ ser .data)

include hle

theorem passing_prefix (hj : j < sim.hops 0) :
    ((s.passing sim (sim.link policy 0 k j)).map sight) <+:
      ((s.out k).map sight).map (later ((j + 1) * (ser k + delay))) :=
  (hs.tandem hl hloss).through_spaced hl (hs.served hw) hu.links (hu.service k)
    (hu.bytes_out hl hs k) ((hu.spaced_out hl hs hw hloss ht k).mono hle) hj

/-- Packets no slower than data arrive on time. -/
theorem on_time (hj : j < sim.hops 0) {a : Nat × Packet}
    (ha : a ∈ s.passing sim (sim.link policy 0 k j)) :
    ∃ b ∈ s.out k, b.2.core = a.2.core ∧ a.1 = b.1 + (j + 1) * (ser k + delay) := by
  have hpre := hu.passing_prefix hl hs hw hloss ht hle hj
  obtain ⟨c, hc, heq⟩ := List.mem_map.mp (hpre.subset (List.mem_map_of_mem ha))
  obtain ⟨b, hb, rfl⟩ := List.mem_map.mp hc
  exact ⟨b, hb, congrArg Prod.snd heq, (congrArg Prod.fst heq).symm⟩

theorem passing_apart (hj : j < sim.hops 0) :
    Spaced (ser .data) ((s.passing sim (sim.link policy 0 k j)).map Prod.fst) := by
  have hpre := (hu.passing_prefix hl hs hw hloss ht hle hj).map Prod.fst
  rw [map_fst_later, map_fst_sight, map_fst_sight] at hpre
  exact ((hu.spaced_out hl hs hw hloss ht k).shift _).sublist hpre.sublist

theorem accepted_service (hj : j < sim.hops 0) :
    ∀ a ∈ FabricSim.accepted s.trace (sim.link policy 0 k j),
      sim.serNs (sim.link policy 0 k j) a.2 = ser k := by
  have hbytes : ∀ a ∈ FabricSim.accepted s.trace (sim.link policy 0 k j),
      a.2.bytes = sim.kindBytes k := by
    cases j with
    | zero =>
      rw [(hs.tandem hl hloss).first]
      exact hu.bytes_out hl hs k
    | succ i =>
      rw [(hs.tandem hl hloss).hop k i hj]
      intro a ha
      obtain ⟨a', ha', rfl⟩ := List.mem_map.mp ha
      obtain ⟨b, hb, hcore, -⟩ := hu.on_time hl hs hw hloss ht hle (Nat.lt_of_succ_lt hj)
        (List.mem_append_left _ ha')
      exact (Packet.core_inj hcore).2.2.1.symm.trans (hu.bytes_out hl hs k b hb)
  intro a ha
  unfold serNs
  rw [hbytes a ha, (hu.links _ ((hl.onWay s k hj).port_lt hl.routed)).1, hu.service]

end Simulation.Uniform

/-! ## Room in every queue -/

/-- Where packets came at least `gap` apart and that long ago, none waits. -/
theorem Served.count_eq_zero {sim : Simulation} {s : State} {p : PortId} {gap ser now : Nat}
    (h : Served sim s p) (hc : s.Coherent)
    (hservice : ∀ a ∈ accepted s.trace p, sim.serNs p a.2 = ser) (hle : ser ≤ gap) (hpos : 0 < gap)
    (hspaced : Spaced gap ((accepted s.trace p).map Prod.fst ++ [now]))
    (hfuture : ∀ d ∈ s.sends sim p, now ≤ d.1) : (s.port p).queue.count = 0 := by
  obtain ⟨hbefore, -, hlast⟩ := List.pairwise_append.mp hspaced
  have hlate : ∀ a ∈ accepted s.trace p, a.1 + gap ≤ now := fun a ha =>
    hlast a.1 (List.mem_map_of_mem ha) now (List.mem_singleton_self _)
  have hends : (accepted s.trace p).map (fun a => a.1 + ser) =
      finished s.trace p ++ (s.sends sim p).map Prod.fst := by
    rw [← h.sent, serve_spaced hservice (Spaced.mono hbefore hle) fun _ _ => Nat.zero_le _,
      List.map_map]
    rfl
  have hspaced' : Spaced gap ((s.sends sim p).map Prod.fst) := by
    have hall : Spaced gap ((accepted s.trace p).map fun a => a.1 + ser) := by
      have := Spaced.shift hbefore ser
      rwa [List.map_map] at this
    rw [hends] at hall
    exact hall.sublist (List.sublist_append_right _ _)
  -- what is being sent ends now
  have hnow : ∀ t ∈ (s.sends sim p).map Prod.fst, t = now := by
    intro t ht
    have hmem : t ∈ (accepted s.trace p).map fun a => a.1 + ser := by
      rw [hends]
      exact List.mem_append_right _ ht
    obtain ⟨a, ha, rfl⟩ := List.mem_map.mp hmem
    obtain ⟨d, hd, heq⟩ := List.mem_map.mp ht
    have := hlate a ha
    have := hfuture d hd
    omega
  have hlen := hspaced'.length_le_one hpos hnow
  rw [List.length_map, length_sends sim hc] at hlen
  cases hb : (s.port p).busy with
  | true =>
    rw [hb, if_pos rfl] at hlen
    omega
  | false => rw [← BoundedFifo.length_toList, hc.idle p hb, List.length_nil]

namespace Simulation.Lone

variable {sim : Simulation} {policy : RoutingPolicy} {s s' : State} {gap : Nat}

/-- Endpoints that emit far enough apart find room for the first packet of each kind, and
emit no other. -/
theorem lossless_micros (hl : sim.Lone policy) (hm : Micros sim 0 s s') (hloss : Lossless s)
    (hpos : 0 < gap) (hroom : ∀ k, Spaced gap ((s.out k).map Prod.fst ++ [s.now]) →
      (s.port (sim.link policy 0 k 0)).queue.count ≠
        (s.port (sim.link policy 0 k 0)).queue.capacity)
    (hspaced : ∀ k, Spaced gap ((s'.out k).map Prod.fst)) : Lossless s' := by
  have hgo : (∀ k, Spaced gap ((s'.out k).map Prod.fst)) → Lossless s' ∧ s'.now = s.now ∧
      ∀ k, (s'.out k = s.out k ∧ s'.port (sim.link policy 0 k 0) =
        s.port (sim.link policy 0 k 0)) ∨ ∃ b ∈ s'.out k, b.1 = s.now := by
    refine hm.preserve (P := fun s' => (∀ k, Spaced gap ((s'.out k).map Prod.fst)) →
      Lossless s' ∧ s'.now = s.now ∧
      ∀ k, (s'.out k = s.out k ∧ s'.port (sim.link policy 0 k 0) =
        s.port (sim.link policy 0 k 0)) ∨ ∃ b ∈ s'.out k, b.1 = s.now) ?_
      fun _ => ⟨hloss, rfl, fun _ => Or.inl ⟨rfl, rfl⟩⟩
    intro s₁ s₂ hm ih hspaced
    rcases hm.net with ⟨hnet, hnow, -, -, l, htr, hrel⟩ | ⟨s₃, x, hnet, hfresh, hnow, -, htr, rfl⟩
    · have hout : ∀ k, s₂.out k = s₁.out k := out_congr (emissions_release htr hrel)
      obtain ⟨hloss₁, hnow₁, hout₁⟩ := ih fun k => hout k ▸ hspaced k
      refine ⟨?_, hnow.trans hnow₁, fun k => ?_⟩
      · intro t p y hy
        rw [htr] at hy
        rcases List.mem_append.mp hy with hy | hy
        · obtain ⟨t', g, d, heq⟩ := hrel _ hy
          exact absurd heq (by simp)
        · exact hloss₁ t p y hy
      · rw [hout, hnet.port]
        exact hout₁ k
    · have hnic : nic sim x = sim.link policy 0 x.kind 0 := by
        rw [Simulation.nic_eq_link sim policy x, hfresh.flow]
      rw [hnic] at hspaced ⊢
      have hout : ∀ k, (s₃.enqueue sim (sim.link policy 0 x.kind 0) x).out k =
          if x.kind = k then s₁.out k ++ [(s₁.now, x)] else s₁.out k :=
        out_cons (emissions_emit htr _ x)
      obtain ⟨hloss₁, hnow₁, hout₁⟩ := ih fun k => by
        have := hspaced k
        rw [hout] at this
        split at this
        · rw [List.map_append] at this
          exact this.sublist (List.sublist_append_left _ _)
        · exact this
      have hthis := hspaced x.kind
      rw [hout, if_pos rfl, List.map_append] at hthis
      have hroom' : (s₃.port (sim.link policy 0 x.kind 0)).queue.count ≠
          (s₃.port (sim.link policy 0 x.kind 0)).queue.capacity := by
        rw [hnet.port]
        rcases hout₁ x.kind with ⟨hsame, hport⟩ | ⟨b, hb, hbnow⟩
        · rw [hport]
          refine hroom x.kind ?_
          rw [hsame, hnow₁] at hthis
          exact hthis
        · -- two packets of the kind at one time
          have := (List.pairwise_append.mp hthis).2.2 b.1 (List.mem_map_of_mem hb) s₁.now
            (List.mem_singleton_self _)
          omega
      refine ⟨?_, (enqueue_now ..).trans (hnow.trans hnow₁), fun k => ?_⟩
      · intro t p y hy
        rw [enqueue_trace_room, decide_eq_true hroom', htr] at hy
        refine hloss₁ t p y ?_
        simpa using hy
      · rw [hout]
        by_cases hk : x.kind = k
        · rw [if_pos hk]
          exact Or.inr ⟨(s₁.now, x), by simp, hnow₁⟩
        · rw [if_neg hk, enqueue_port_of_ne s₃ x fun heq =>
            hk (hl.link_inj s hl.hops_pos hl.hops_pos heq).1.symm, hnet.port]
          exact hout₁ k
  exact (hgo hspaced).1

end Simulation.Lone

namespace Simulation.Uniform

variable {sim : Simulation} {policy : RoutingPolicy} {s : State} {rate delay : Nat}
  {ser : PacketKind → Nat} {k : PacketKind} {j : Nat} {e : Event} {queue : EventQueue}

section

variable (hu : sim.Uniform rate delay ser) (hl : sim.Lone policy) (hs : sim.Reachable policy s)
  (ht : sim.transport.Accepted) (hloss : Lossless s) (hle : ∀ k, ser k ≤ ser .data)
  (hpop : s.queue.pop = some (e, queue))
  (hw : ((s.advance e queue).dispatch sim policy e.body).wrapped = false)

include hu hl hs ht hloss hle hpop hw

/-- An arrival comes as long after those before it as data takes. -/
theorem arrival_spaced (hj : j < sim.hops 0) {x : Packet}
    (hb : e.body = .arrive (sim.link policy 0 k j) x) :
    Spaced (ser .data) ((arrived s.trace (sim.link policy 0 k j)).map Prod.fst ++ [e.time]) := by
  have hw₀ := step_unwrapped hs.coherent hpop hw
  refine (hu.passing_apart hl hs hw₀ hloss ht (hle k) hj).sublist ?_
  unfold passing
  rw [timed_advance_arrive hpop hb, if_pos rfl, List.map_append, List.map_cons]
  refine List.Sublist.append_left ?_ _
  exact List.singleton_sublist.mpr (List.mem_cons_self ..)

variable (hcap : ∀ p, p < sim.fabric.portCount → 0 < (sim.fabric.port p).queueCapacity)

include hcap

theorem room (hj : j < sim.hops 0) (hspaced : Spaced (ser .data)
    ((FabricSim.accepted s.trace (sim.link policy 0 k j)).map Prod.fst ++ [e.time])) :
    (s.port (sim.link policy 0 k j)).queue.count ≠
      (s.port (sim.link policy 0 k j)).queue.capacity := by
  have hw₀ := step_unwrapped hs.coherent hpop hw
  have hserved := hs.served hw₀ (sim.link policy 0 k j)
  have hcount := hserved.count_eq_zero hs.coherent
    (hu.accepted_service hl hs hw₀ hloss ht (hle k) hj) (hle k) hu.pos hspaced
    fun d hd => le_of_mem_sends hpop hd
  have hpos := hcap _ ((hl.onWay s k hj).port_lt hl.routed)
  rw [hcount, hserved.capacity]
  exact hpos.ne

theorem lossless_step : Lossless ((s.advance e queue).dispatch sim policy e.body) := by
  have hadv : Lossless (s.advance e queue) := by
    intro t p x hx
    rw [advance_trace] at hx
    exact hloss t p x (by simpa using hx)
  have hnext := hs.next (step_eq_some_iff.mpr ⟨e, queue, hpop, rfl⟩)
  have htandem := hs.tandem hl hloss
  rcases dispatch_cases sim policy (s.advance e queue) e.body with
    ⟨p, hb, heq⟩ | ⟨p, x, hb, hsw, heq⟩ | ⟨f, s₁, hnet, hnow, htr, -, -, -, -, -, hm, hb⟩
  · rw [heq]
    intro t q x hx
    rw [onTxComplete_trace] at hx
    exact hadv t q x hx
  · rw [heq]
    have hx := mem_onLink_of_arrive hpop hb
    have hway := hs.onWay hl.routed hl.member p x hx
    have hi := hway.lt_hops hl.routed hsw
    have hflow := hl.flow_eq hway.flow_lt
    have hpath := hs.onPath hl.perFlow p x hx
    have hnext := Simulation.nextPort_eq_link hl.perFlow (s.advance e queue) hpath
    rw [hflow] at hpath hnext hi
    generalize x.tag.route.length = i at hpath hnext hi
    rw [hpath] at hb
    have hroom := hu.room hl hs ht hloss hle hpop hw hcap (k := x.kind) hi (by
      rw [htandem.hop _ i hi, List.map_map]
      exact hu.arrival_spaced hl hs ht hloss hle hpop hw (Nat.lt_of_succ_lt hi) hb)
    intro t q y hy
    rw [enqueue_trace_room, hnext] at hy
    change Obs.offered t q y false ∈ Obs.offered _ _ _ (decide ((s.port _).queue.count ≠
      (s.port _).queue.capacity)) :: _ at hy
    rw [decide_eq_true hroom] at hy
    exact hadv t q y (by simpa using hy)
  · obtain rfl : f = 0 := hl.flow_eq (hs.endpoint_lt hpop hb)
    have hem : s₁.emissions = s.emissions := by
      unfold State.emissions
      rw [htr]
      exact emissions_advance e queue
    have hout : ∀ k, s₁.out k = s.out k := out_congr hem
    refine hl.lossless_micros hm ?_ hu.pos (fun k hspaced => ?_) fun k => ?_
    · intro t p x hx
      rw [htr] at hx
      exact hadv t p x hx
    · rw [hnet.port]
      show (s.port _).queue.count ≠ (s.port _).queue.capacity
      refine hu.room hl hs ht hloss hle hpop hw hcap hl.hops_pos ?_
      rw [htandem.first, ← hout]
      rw [hnow] at hspaced
      exact hspaced
    · cases k with
      | data => exact hu.spaced_data hl hnext ht hw
      | ack =>
        -- acks leave when data arrives
        have hacks := congrArg (List.map Prod.fst) (hl.out_ack hnext)
        rw [List.map_map, List.map_map] at hacks
        have htimes : ((((s.advance e queue).dispatch sim policy e.body).out .ack)).map Prod.fst =
          (arrived ((s.advance e queue).dispatch sim policy e.body).trace
            (sim.link policy 0 .data (sim.hops 0 - 1))).map Prod.fst := hacks
        have hpos := hl.hops_pos
        rw [htimes, arrived_step, List.map_append]
        cases harr : e.arrival (sim.link policy 0 .data (sim.hops 0 - 1)) with
        | none =>
          refine (hu.passing_apart hl hs (step_unwrapped hs.coherent hpop hw) hloss ht le_rfl
            (j := sim.hops 0 - 1) (by omega)).sublist ?_
          rw [Option.toList_none, List.map_nil, List.append_nil]
          exact (List.prefix_append _ _).sublist.map _
        | some a =>
          obtain ⟨hb, htime⟩ := Event.arrival_eq_some_iff.mp harr
          rw [Option.toList_some, List.map_singleton, ← htime]
          exact hu.arrival_spaced hl hs ht hloss hle hpop hw (by omega) hb

end

/-- Acks no slower than data, and any room at all: nothing is refused. -/
theorem lossless (hu : sim.Uniform rate delay ser) (hl : sim.Lone policy)
    (hs : sim.Reachable policy s) (ht : sim.transport.Accepted) (hle : ∀ k, ser k ≤ ser .data)
    (hcap : ∀ p, p < sim.fabric.portCount → 0 < (sim.fabric.port p).queueCapacity)
    (hw : s.wrapped = false) : Lossless s := by
  refine Reachable.invariant (P := fun s => s.wrapped = false → Lossless s)
    (fun _ _ _ _ _ hx => absurd hx List.not_mem_nil) ?_ hs hw
  intro s e queue hs ih hpop hw
  have hloss := ih (step_unwrapped hs.coherent hpop hw)
  exact hu.lossless_step hl hs ht hloss hle hpop hw hcap

end Simulation.Uniform

end FabricSim
