import FabricSim.Core.Emission
import FabricSim.Core.Timeline

/-!
# How long a packet is under way

A packet offered to a port with room ends its transmission after everything the
port already has to send: no earlier than now, and no later than a full queue
and the packet in transmission take. Summed over the links a packet has crossed,
this bounds its time under way from both sides (`Journey`), for every packet at a
link and for every arrival of the history. The bounds hold under any cross
traffic, any policy and any loss.
-/

namespace FabricSim

open State

namespace Simulation

variable (sim : Simulation)

/-- The time a packet needs over the links `l` when every port is free. -/
def freeNs (x : Packet) (l : List PortId) : Nat :=
  (l.map fun q => sim.serNs q x + (sim.fabric.port q).propDelayNs).sum

/-- The time a port needs for as many packets of `bound` bytes as its queue
holds. -/
def backlogNs (bound : Nat) (q : PortId) : Nat :=
  (sim.fabric.port q).queueCapacity * serializationNs bound (sim.fabric.port q).rate

/-- The time a packet needs over the links `l` when it is the last to find room
at every port. -/
def jamNs (bound : Nat) (x : Packet) (l : List PortId) : Nat :=
  (l.map fun q =>
    sim.backlogNs bound q + (sim.serNs q x + (sim.fabric.port q).propDelayNs)).sum

end Simulation

theorem Simulation.freeNs_alike {sim : Simulation} {rate delay : Nat}
    (h : sim.fabric.LinksAlike rate delay) (x : Packet) {l : List PortId}
    (hl : ∀ q ∈ l, q < sim.fabric.portCount) :
    sim.freeNs x l = l.length * (serializationNs x.bytes rate + delay) := by
  unfold freeNs serNs
  rw [List.map_congr_left fun q hq => by rw [(h q (hl q hq)).1, (h q (hl q hq)).2],
    List.map_const', List.sum_replicate, smul_eq_mul]

/-- The packet was emitted, and reached the end of the links `l` at `d`, within
the bounds. -/
def Journey (sim : Simulation) (bound : Nat) (emissions : List (Nat × Packet)) (d : Nat)
    (l : List PortId) (x : Packet) : Prop :=
  ∃ t x₀, (t, x₀) ∈ emissions ∧ x₀.core = x.core ∧
    t + sim.freeNs x l ≤ d ∧ d ≤ t + sim.jamNs bound x l

namespace Journey

variable {sim : Simulation} {bound d : Nat} {emissions : List (Nat × Packet)} {l : List PortId}
  {x : Packet}

theorem mono {emissions' : List (Nat × Packet)} (h : Journey sim bound emissions d l x)
    (hsub : ∀ a ∈ emissions, a ∈ emissions') : Journey sim bound emissions' d l x := by
  obtain ⟨t, x₀, hmem, hrest⟩ := h
  exact ⟨t, x₀, hsub _ hmem, hrest⟩

/-- One more link, entered at `d` and free for the packet at `a`. -/
theorem next (h : Journey sim bound emissions d l x) {p q : PortId} {a : Nat} (hda : d ≤ a)
    (hwait : a ≤ d + sim.backlogNs bound q) :
    Journey sim bound emissions
      (a + sim.serNs q (forwarded p x) + (sim.fabric.port q).propDelayNs) (q :: l)
      (forwarded p x) := by
  obtain ⟨t, x₀, hmem, hcore, hlo, hhi⟩ := h
  refine ⟨t, x₀, hmem, hcore, ?_, ?_⟩
  · change t + (sim.serNs q x + (sim.fabric.port q).propDelayNs + sim.freeNs x l) ≤
      a + sim.serNs q x + (sim.fabric.port q).propDelayNs
    omega
  · change a + sim.serNs q x + (sim.fabric.port q).propDelayNs ≤
      t + (sim.backlogNs bound q + (sim.serNs q x + (sim.fabric.port q).propDelayNs) +
        sim.jamNs bound x l)
    omega

end Journey

/-- Ports hold what their fabric lets them, packets are of at most `bound` bytes,
and every packet is within its bounds. -/
structure Bounded (sim : Simulation) (bound : Nat) (s : State) : Prop where
  capacity : ∀ p, (s.port p).queue.capacity = (sim.fabric.port p).queueCapacity
  bytes : ∀ p, ∀ x ∈ s.onLink p, x.bytes ≤ bound
  onLink : ∀ p, ∀ a ∈ s.timed sim p,
    Journey sim bound s.emissions a.1 (p :: a.2.tag.route) a.2
  arrived : ∀ e, .dispatched e ∈ s.trace → ∀ p x, e.body = .arrive p x →
    Journey sim bound s.emissions e.time (p :: x.tag.route) x

namespace State

variable {sim : Simulation} {s : State} {p : PortId}

theorem OnTime.le_freeAt (h : s.OnTime sim) (p : PortId) : s.now ≤ s.freeAt sim p := by
  unfold freeAt
  split
  · exact le_rfl
  · next c rest hc =>
    have hmem : c ∈ s.queue.completions p := by rw [hc]; exact List.mem_cons_self ..
    obtain ⟨e, he, hce⟩ := List.mem_filterMap.mp hmem
    have htime : c = e.time := by
      unfold Event.completion at hce
      split at hce
      · split at hce
        · exact (Option.some.inj hce).symm
        · exact absurd hce (by simp)
      · exact absurd hce (by simp)
    calc s.now ≤ e.time := h.future e he
      _ = c := htime.symm
      _ ≤ _ := FifoServer.le_drain _ _ _

/-- A port with room is free after at most a full queue. -/
theorem OnTime.freeAt_le (h : s.OnTime sim) (hc : s.Coherent) {bound : Nat}
    (hcap : (s.port p).queue.capacity = (sim.fabric.port p).queueCapacity)
    (hbytes : ∀ x ∈ s.onLink p, x.bytes ≤ bound)
    (hroom : (s.port p).queue.count ≠ (s.port p).queue.capacity) :
    s.freeAt sim p ≤ s.now + sim.backlogNs bound p := by
  unfold freeAt
  split
  · exact Nat.le_add_right _ _
  · next c rest hcomp =>
    have hmem : c ∈ s.queue.completions p := by rw [hcomp]; exact List.mem_cons_self ..
    have hbusy : (s.port p).busy = true := by
      by_contra hb
      rw [hc.completions_eq_nil.mpr (by simpa using hb)] at hmem
      exact absurd hmem List.not_mem_nil
    have hlink : s.onLink p = s.wire p ++ (s.port p).inFlight :: (s.port p).queue.toList := by
      unfold onLink PortState.backlog
      rw [hbusy]
      rfl
    have hser : ∀ x ∈ (s.port p).inFlight :: (s.port p).queue.toList,
        sim.serNs p x ≤ serializationNs bound (sim.fabric.port p).rate := fun x hx =>
      serializationNs_mono (hbytes x (by rw [hlink]; exact List.mem_append_right _ hx)) _
    have hsend := h.sending p c hmem
    have hfirst := hser _ (List.mem_cons_self ..)
    have hdrain := FifoServer.drain_le (fun x hx => hser x (List.mem_cons_of_mem _ hx)) c
    rw [BoundedFifo.length_toList] at hdrain
    have hcount : (s.port p).queue.count + 1 ≤ (sim.fabric.port p).queueCapacity := by
      have := (s.port p).queue.count_le
      omega
    have hmul := Nat.mul_le_mul_right (serializationNs bound (sim.fabric.port p).rate) hcount
    rw [Nat.succ_mul] at hmul
    show FifoServer.drain _ c _ ≤ s.now + (sim.fabric.port p).queueCapacity * _
    omega

theorem capacity_enqueue (sim : Simulation) (s : State) (p : PortId) (x : Packet) (q : PortId) :
    ((s.enqueue sim p x).port q).queue.capacity = (s.port q).queue.capacity := by
  by_cases hqp : q = p
  · subst hqp
    rcases enqueue_cases s q x sim with ⟨-, h⟩ | ⟨queue, hq, ⟨-, h⟩ | ⟨-, h⟩⟩ <;> rw [h]
    · simp [drop_port]
    · simpa using (BoundedFifo.tryPush_count hq).2
    · simpa using (BoundedFifo.tryPush_count hq).2
  · rw [enqueue_port_of_ne s x hqp]

theorem capacity_onTxComplete (sim : Simulation) (s : State) (p q : PortId) :
    ((s.onTxComplete sim p).port q).queue.capacity = (s.port q).queue.capacity := by
  by_cases hqp : q = p
  · subst hqp
    rcases onTxComplete_cases sim s q with ⟨-, h⟩ | ⟨-, h⟩ <;> rw [h] <;> simp
  · rcases onTxComplete_cases sim s p with ⟨-, h⟩ | ⟨-, h⟩ <;> rw [h] <;> simp [hqp]

end State

namespace Bounded

variable {sim : Simulation} {policy : RoutingPolicy} {bound : Nat} {s s' : State} {f : FlowId}

/-- A step that moves no packet. -/
theorem congr (h : Bounded sim bound s)
    (hcap : ∀ p, (s'.port p).queue.capacity = (s.port p).queue.capacity)
    (hlink : ∀ p, s'.onLink p = s.onLink p) (htimed : ∀ p, s'.timed sim p = s.timed sim p)
    (hem : ∀ a ∈ s.emissions, a ∈ s'.emissions)
    (harr : ∀ e, .dispatched e ∈ s'.trace → .dispatched e ∈ s.trace ∨ ∀ p x, e.body ≠ .arrive p x) :
    Bounded sim bound s' where
  capacity := fun p => (hcap p).trans (h.capacity p)
  bytes := by
    intro p
    rw [hlink]
    exact h.bytes p
  onLink := by
    intro p
    rw [htimed]
    exact fun a ha => (h.onLink p a ha).mono hem
  arrived := by
    intro e he p x hb
    rcases harr e he with he | hne
    · exact (h.arrived e he p x hb).mono hem
    · exact absurd hb (hne p x)

/-- A packet offered to a port, after its journey so far. -/
theorem enqueue (h : Bounded sim bound s) (hc : s.Coherent) {q : PortId}
    (hfree : s.now ≤ s.freeAt sim q)
    (hwait : (s.port q).queue.count ≠ (s.port q).queue.capacity →
      s.freeAt sim q ≤ s.now + sim.backlogNs bound q) {x : Packet} (hw : (s.enqueue sim q x).wrapped = false) (hbytes : x.bytes ≤ bound)
    (hsource : ∃ t x₀, (t, x₀) ∈ s.emissions ∧ x₀.core = x.core ∧
      t + sim.freeNs x x.tag.route ≤ s.now ∧ s.now ≤ t + sim.jamNs bound x x.tag.route) :
    Bounded sim bound (s.enqueue sim q x) where
  capacity := fun p => (capacity_enqueue sim s q x p).trans (h.capacity p)
  bytes := by
    intro p y hy
    rw [onLink_enqueue sim hc.idle] at hy
    split at hy
    · rcases List.mem_append.mp hy with hy | hy
      · exact h.bytes p y hy
      · obtain rfl := List.mem_singleton.mp hy
        exact hbytes
    · exact h.bytes p y hy
  onLink := by
    intro p a ha
    rw [emissions_enqueue]
    rw [timed_enqueue hc hw] at ha
    split at ha
    · next hp =>
      obtain ⟨rfl, hroom⟩ := hp
      rcases List.mem_append.mp ha with ha | ha
      · exact h.onLink p a ha
      · obtain rfl := List.mem_singleton.mp ha
        obtain ⟨t, x₀, hmem, hcore, hlo, hhi⟩ := hsource
        have hwait := hwait hroom
        refine ⟨t, x₀, hmem, hcore, ?_, ?_⟩
        · show t + (sim.serNs p x + (sim.fabric.port p).propDelayNs + sim.freeNs x x.tag.route) ≤
            s.freeAt sim p + sim.serNs p x + (sim.fabric.port p).propDelayNs
          omega
        · show s.freeAt sim p + sim.serNs p x + (sim.fabric.port p).propDelayNs ≤
            t + (sim.backlogNs bound p + (sim.serNs p x + (sim.fabric.port p).propDelayNs) +
              sim.jamNs bound x x.tag.route)
          omega
    · exact h.onLink p a ha
  arrived := by
    intro e he p y hb
    rw [emissions_enqueue]
    obtain ⟨room, htr⟩ := enqueue_trace sim s q x
    rw [htr] at he
    exact h.arrived e (by simpa using he) p y hb

theorem micro (h : Bounded sim bound s) (hm : Micro sim f s s') (hc : s.Coherent)
    (ht : s.OnTime sim) (hw : s'.wrapped = false)
    (hsize : ∀ x : Packet, x.flow = f → wireBytes sim x ≤ bound) : Bounded sim bound s' := by
  rcases hm.net with ⟨hnet, -, -, -, l, hl, hrel⟩ | ⟨s₁, x, hnet, hfresh, hnow, -, htr, rfl⟩
  · refine h.congr (fun p => by rw [hnet.port]) hnet.onLink hnet.timed ?_ ?_
    · rw [emissions_release hl hrel]
      exact fun _ ha => ha
    · intro e he
      rw [hl] at he
      rcases List.mem_append.mp he with he | he
      · obtain ⟨t, g, d, heq⟩ := hrel _ he
        exact absurd heq (by simp)
      · exact Or.inl he
  · -- the operation is an emission: first the bookkeeping, then the offer
    have hem : s₁.emissions = (s.now, x) :: s.emissions := by
      unfold State.emissions
      rw [htr]
      exact List.filterMap_cons_some rfl
    have h₁ : Bounded sim bound s₁ := by
      refine h.congr (fun p => by rw [hnet.port]) hnet.onLink hnet.timed ?_ ?_
      · rw [hem]
        exact fun _ ha => List.mem_cons_of_mem _ ha
      · intro e he
        rw [htr] at he
        exact Or.inl (by simpa using he)
    have hfree : s₁.now ≤ s₁.freeAt sim (nic sim x) := by
      rw [hnet.freeAt hnow, hnow]
      exact ht.le_freeAt _
    have hwait : (s₁.port (nic sim x)).queue.count ≠ (s₁.port (nic sim x)).queue.capacity →
        s₁.freeAt sim (nic sim x) ≤ s₁.now + sim.backlogNs bound (nic sim x) := by
      rw [hnet.freeAt hnow, hnow, hnet.port]
      exact ht.freeAt_le hc (h.capacity _) (h.bytes _)
    refine h₁.enqueue (hnet.coherent hc) hfree hwait hw
      (hfresh.bytes.trans_le (hsize x hfresh.flow)) ?_
    refine ⟨s.now, x, by rw [hem]; exact List.mem_cons_self .., rfl, ?_, ?_⟩
    · rw [hfresh.route, hnow]
      exact le_rfl
    · rw [hfresh.route, hnow]
      exact le_rfl

theorem micros (h : Bounded sim bound s) (hm : Micros sim f s s') (hc : s.Coherent)
    (ht : s.OnTime sim) (hw : s'.wrapped = false)
    (hsize : ∀ x : Packet, x.flow = f → wireBytes sim x ≤ bound) : Bounded sim bound s' :=
  (hm.timely hc ht h (fun _ _ hm hc ht hw h => h.micro hm hc ht hw hsize) hw).2.2

/-- Taking an arrival puts it, with its journey, into the history. -/
theorem advance_arrive (h : Bounded sim bound s) {e : Event} {queue : EventQueue}
    (hpop : s.queue.pop = some (e, queue)) {p : PortId} {x : Packet} (hb : e.body = .arrive p x) :
    Bounded sim bound (s.advance e queue) where
  capacity := h.capacity
  bytes := fun q y hy => h.bytes q y (onLink_advance_subset hpop hy)
  onLink := by
    intro q a ha
    rw [emissions_advance]
    refine h.onLink q a ?_
    rw [timed_advance_arrive hpop hb]
    split
    · exact List.mem_cons_of_mem _ ha
    · exact ha
  arrived := by
    intro e' he q y hb'
    rw [emissions_advance]
    rw [advance_trace] at he
    rcases List.mem_cons.mp he with heq | he
    · obtain rfl := Obs.dispatched.inj heq
      obtain ⟨rfl, rfl⟩ : p = q ∧ x = y := by simpa [hb] using hb'
      refine h.onLink p (e'.time, x) ?_
      rw [timed_advance_arrive hpop hb, if_pos rfl]
      exact List.mem_cons_self ..
    · exact h.arrived e' he q y hb'

/-- Taking an event that is neither an arrival nor the end of a transmission. -/
theorem advance (h : Bounded sim bound s) {e : Event} {queue : EventQueue}
    (hpop : s.queue.pop = some (e, queue)) (hb : ∀ p x, e.body ≠ .arrive p x)
    (hb' : ∀ p, e.body ≠ .txComplete p) : Bounded sim bound (s.advance e queue) := by
  refine h.congr (fun _ => rfl) (onLink_advance hpop hb) (timed_advance hpop hb hb') ?_ ?_
  · rw [emissions_advance]
    exact fun _ ha => ha
  · intro e' he
    rw [advance_trace] at he
    rcases List.mem_cons.mp he with heq | he
    · obtain rfl := Obs.dispatched.inj heq
      exact Or.inr hb
    · exact Or.inl he

theorem step (h : Bounded sim bound s) (hs : sim.Reachable policy s)
    (hsize : ∀ x : Packet, x.flow < sim.flowCount → wireBytes sim x ≤ bound) {e : Event}
    {queue : EventQueue} (hpop : s.queue.pop = some (e, queue))
    (hw : ((s.advance e queue).dispatch sim policy e.body).wrapped = false) :
    Bounded sim bound ((s.advance e queue).dispatch sim policy e.body) := by
  have htime := hs.onTime (step_unwrapped hs.coherent hpop hw)
  have hadvt := (htime.advance hpop).2
  rcases dispatch_cases sim policy (s.advance e queue) e.body with
    ⟨p, hb, heq⟩ | ⟨p, x, hb, hsw, heq⟩ | ⟨f, s₁, hnet, hnow, htr, -, hq, -, -, hwr, hm, hb⟩
  · rw [heq] at hw ⊢
    have hc' : ((s.advance e queue).onTxComplete sim p).Coherent :=
      (advance_finishing hs.coherent hpop hb).onTxComplete
    have htimed := timed_step_txComplete htime hs.coherent hpop hb hw
    refine h.congr (fun q => capacity_onTxComplete sim (s.advance e queue) p q) ?_ htimed ?_ ?_
    · intro q
      rw [← map_snd_timed sim hc', htimed, map_snd_timed sim hs.coherent]
    · rw [emissions_onTxComplete, emissions_advance]
      exact fun _ ha => ha
    · intro e' he
      have htr : ((s.advance e queue).onTxComplete sim p).trace = .dispatched e :: s.trace := by
        rcases onTxComplete_cases sim (s.advance e queue) p with ⟨-, h⟩ | ⟨-, h⟩ <;> rw [h] <;> rfl
      rw [htr] at he
      rcases List.mem_cons.mp he with heq | he
      · obtain rfl := Obs.dispatched.inj heq
        exact Or.inr (by rw [hb]; simp)
      · exact Or.inl he
  · rw [heq] at hw ⊢
    have hadv := h.advance_arrive hpop hb
    have hc := hs.coherent.advance hpop (by rw [hb]; simp)
    have hx := mem_onLink_of_arrive hpop hb
    obtain ⟨t, x₀, hmem, hcore, hlo, hhi⟩ :=
      hadv.arrived e (by simp) p x hb
    exact hadv.enqueue hc (hadvt.le_freeAt _) (hadvt.freeAt_le hc (hadv.capacity _) (hadv.bytes _))
      hw (h.bytes p x hx) ⟨t, x₀, hmem, hcore, hlo, hhi⟩
  · have hf := hs.endpoint_lt hpop hb
    have hc : (s.advance e queue).Coherent := by
      refine hs.coherent.advance hpop ?_
      rcases hb with hb | ⟨idx, a, hb⟩ | ⟨p, x, hb, -, -⟩ <;> simp [hb]
    have hadv : Bounded sim bound (s.advance e queue) := by
      rcases hb with hb | ⟨idx, a, hb⟩ | ⟨p, x, hb, -, -⟩
      · exact h.advance hpop (by rw [hb]; simp) (by rw [hb]; simp)
      · exact h.advance hpop (by rw [hb]; simp) (by rw [hb]; simp)
      · exact h.advance_arrive hpop hb
    have h₁ : Bounded sim bound s₁ := by
      refine hadv.congr (fun p => by rw [hnet.port]) hnet.onLink hnet.timed ?_ ?_
      · unfold State.emissions
        rw [htr]
        exact fun _ ha => ha
      · rw [htr]
        exact fun _ he => Or.inl he
    exact h₁.micros hm (hnet.coherent hc) (hadvt.of_netEq hnet hq hnow) hw
      fun x hx => hsize x (hx ▸ hf)

theorem begin (sim : Simulation) (bound : Nat) (leftover : State) :
    Bounded sim bound (sim.beginRun leftover) where
  capacity := fun _ => rfl
  bytes := by
    intro p x hx
    rw [Simulation.onLink_beginRun] at hx
    exact absurd hx List.not_mem_nil
  onLink := by
    intro p a ha
    have hs : sim.Reachable StaticFirstPolicy (sim.beginRun leftover) :=
      Simulation.Reachable.begin leftover
    have hmem := mem_onLink_of_timed hs.coherent ha
    rw [Simulation.onLink_beginRun] at hmem
    exact absurd hmem List.not_mem_nil
  arrived := fun _ he => absurd he List.not_mem_nil

end Bounded

/-- The journey bounds, in every state of every run whose times have not
wrapped. -/
theorem Simulation.Reachable.bounded {sim : Simulation} {policy : RoutingPolicy} {bound : Nat}
    {s : State} (h : sim.Reachable policy s)
    (hsize : ∀ x : Packet, x.flow < sim.flowCount → wireBytes sim x ≤ bound)
    (hw : s.wrapped = false) : Bounded sim bound s := by
  refine Simulation.Reachable.invariant (P := fun s => s.wrapped = false → Bounded sim bound s)
    (fun leftover _ => Bounded.begin sim bound leftover) ?_ h hw
  exact fun s e queue hs ih hpop hw' =>
    (ih (step_unwrapped hs.coherent hpop hw')).step hs hsize hpop hw'

end FabricSim
