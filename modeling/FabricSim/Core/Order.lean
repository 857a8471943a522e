import FabricSim.Core.Emission
import FabricSim.Core.Timeline
import FabricSim.Lib.Pipeline

/-!
# Per-flow routing never reorders

Under a policy whose choice depends on node, key and candidates only, all
packets of one flow and one kind take the same links (`Reachable.onPath`),
whatever the table says: the path may be longer than it need be, or never end.
The parts of these links' queues that belong to the flow form a pipeline, and every
turn of the hot loop is one of its operations: an emission enters, a forwarding
moves on, a drop deletes, an arrival leaves, and none is ahead of it, for a packet
stops at the first host (`Reachable.crossed`). The timed view is what makes a link
a queue at all: a transmission that ends puts its packet behind every other
packet on the wire.

Packets are compared by `core`, what a hop leaves alone; it contains the serial
number of the emission, so equal cores mean one transmission.
-/

namespace FabricSim

open State

/-- The packet of an emission, if it is of this flow and kind. -/
def ofFlow (f : FlowId) (k : PacketKind) (a : Nat × Packet) : Option Packet :=
  if a.2.flow = f ∧ a.2.kind = k then some a.2.core else none

/-- The arrival of such a packet at a host. -/
def Obs.arrival (sim : Simulation) (f : FlowId) (k : PacketKind) : Obs → Option Packet
  | .dispatched e =>
    match e.body with
    | .arrive p x =>
      if (sim.fabric.node (sim.fabric.port p).peerNode).isHost = true ∧ x.flow = f ∧ x.kind = k then
        some x.core
      else none
    | _ => none
  | _ => none

/-- The transmissions of a flow (or the acks its receiver sent), in order. -/
def State.sent (s : State) (f : FlowId) (k : PacketKind) : List Packet :=
  (s.emissions.filterMap (ofFlow f k)).reverse

/-- Those that arrived at a host, in order of arrival. -/
def State.hostArrivals (sim : Simulation) (s : State) (f : FlowId) (k : PacketKind) : List Packet :=
  (s.trace.filterMap (Obs.arrival sim f k)).reverse

/-! ## One path per flow and kind -/

namespace Simulation

variable (sim : Simulation) (policy : RoutingPolicy)

/-- The links the packets of one flow and kind cross. -/
def link (f : FlowId) (k : PacketKind) : Nat → PortId
  | 0 => nic sim ⟨f, 0, 0, k, 0, {}⟩
  | j + 1 =>
    policy.select 0 (sim.fabric.port (link f k j)).peerNode (routeOf sim ⟨f, 0, 0, k, 0, {}⟩).2
      (sim.routes.candidates (sim.fabric.port (link f k j)).peerNode
        (routeOf sim ⟨f, 0, 0, k, 0, {}⟩).1) 0

theorem nic_eq_link (x : Packet) : nic sim x = sim.link policy x.flow x.kind 0 := by
  unfold link nic
  cases x.kind <;> rfl

variable {sim policy}

theorem nextPort_eq_link (hflow : policy.PerFlow) (s : State) {p : PortId} {x : Packet} {j : Nat}
    (hp : p = sim.link policy x.flow x.kind j) :
    nextPort sim policy s p x = sim.link policy x.flow x.kind (j + 1) := by
  have hroute : routeOf sim x = routeOf sim ⟨x.flow, 0, 0, x.kind, 0, {}⟩ := by
    unfold routeOf
    cases x.kind <;> rfl
  unfold nextPort link
  rw [hroute, hp]
  exact hflow _ _ _ _ _ _ _

theorem Reachable.onPath {s : State} (h : sim.Reachable policy s) (hflow : policy.PerFlow) :
    ∀ p, ∀ x ∈ s.onLink p, p = sim.link policy x.flow x.kind x.tag.route.length := by
  refine Reachable.located
    (N := fun _ p x => p = sim.link policy x.flow x.kind x.tag.route.length)
    (fun _ _ _ _ _ _ hx => hx) ?_ ?_ h
  · intro s t x _ _ hroute
    rw [hroute]
    exact nic_eq_link sim policy x
  · intro s e queue p x _ _ _ hp _
    exact nextPort_eq_link hflow _ hp

/-- Only switches pass a packet on. -/
theorem Reachable.crossed {s : State} (h : sim.Reachable policy s) (hflow : policy.PerFlow) :
    ∀ p, ∀ x ∈ s.onLink p, ∀ j, j < x.tag.route.length →
      (sim.fabric.node (sim.fabric.port (sim.link policy x.flow x.kind j)).peerNode).isHost =
        false := by
  suffices hboth : ∀ p, ∀ x ∈ s.onLink p, p = sim.link policy x.flow x.kind x.tag.route.length ∧
      ∀ j, j < x.tag.route.length →
        (sim.fabric.node (sim.fabric.port (sim.link policy x.flow x.kind j)).peerNode).isHost =
          false from fun p x hx => (hboth p x hx).2
  refine Reachable.located
    (N := fun _ p x => p = sim.link policy x.flow x.kind x.tag.route.length ∧
      ∀ j, j < x.tag.route.length →
        (sim.fabric.node (sim.fabric.port (sim.link policy x.flow x.kind j)).peerNode).isHost =
          false)
    (fun _ _ _ _ _ _ hx => hx) ?_ ?_ h
  · intro s t x _ _ hroute
    rw [hroute]
    exact ⟨nic_eq_link sim policy x, fun j hj => absurd hj (Nat.not_lt_zero j)⟩
  · intro s e queue p x _ _ _ ⟨hp, hsw⟩ hhere
    refine ⟨nextPort_eq_link hflow _ hp, fun j hj => ?_⟩
    rcases Nat.lt_succ_iff_lt_or_eq.mp hj with hlt | rfl
    · exact hsw j hlt
    · show (sim.fabric.node (sim.fabric.port (sim.link policy x.flow x.kind _)).peerNode).isHost = _
      rw [← hp]
      exact hhere

end Simulation

/-! ## The flow's pipeline -/

/-- The packet is of this flow and kind, at its `j`-th link. -/
def Mine (f : FlowId) (k : PacketKind) (j : Nat) (x : Packet) : Prop :=
  x.flow = f ∧ x.kind = k ∧ x.tag.route.length = j

instance (f : FlowId) (k : PacketKind) (j : Nat) : DecidablePred (Mine f k j) :=
  fun _ => inferInstanceAs (Decidable (_ ∧ _ ∧ _))

/-- The flow's packets at its `j`-th link. -/
def stage (sim : Simulation) (policy : RoutingPolicy) (f : FlowId) (k : PacketKind) (s : State)
    (j : Nat) : List Packet :=
  ((s.onLink (sim.link policy f k j)).filter fun x => Mine f k j x).map Packet.core

section Stages

variable {sim : Simulation} {policy : RoutingPolicy} {f : FlowId} {k : PacketKind} {s s' : State}

theorem stage_congr (h : ∀ p, s'.onLink p = s.onLink p) :
    stage sim policy f k s' = stage sim policy f k s := by
  funext j
  unfold stage
  rw [h]

theorem stage_enqueue (hc : s.Coherent) (p : PortId) (x : Packet) (j : Nat) :
    stage sim policy f k (s.enqueue sim p x) j =
      if Mine f k j x ∧ sim.link policy f k j = p ∧
          (s.port p).queue.count ≠ (s.port p).queue.capacity then
        stage sim policy f k s j ++ [x.core]
      else stage sim policy f k s j := by
  unfold stage
  rw [onLink_enqueue sim hc.idle]
  by_cases hp : sim.link policy f k j = p ∧ (s.port p).queue.count ≠ (s.port p).queue.capacity
  · rw [if_pos hp]
    by_cases hm : Mine f k j x
    · rw [if_pos ⟨hm, hp⟩, List.filter_append, List.map_append]
      simp [hm]
    · rw [if_neg fun h => hm h.1, List.filter_append]
      simp [hm]
  · rw [if_neg hp, if_neg fun h => hp h.2]

/-- Taking an arrival takes the head of its stage, and only if it is the
flow's own. -/
theorem stage_advance_arrive {e : Event} {queue : EventQueue}
    (hpop : s.queue.pop = some (e, queue)) {p : PortId} {x : Packet} (hb : e.body = .arrive p x)
    (j : Nat) :
    stage sim policy f k s j =
      if Mine f k j x ∧ sim.link policy f k j = p then
        x.core :: stage sim policy f k (s.advance e queue) j
      else stage sim policy f k (s.advance e queue) j := by
  unfold stage
  rw [onLink_advance_arrive hpop hb]
  by_cases hp : sim.link policy f k j = p
  · rw [if_pos hp]
    by_cases hm : Mine f k j x
    · rw [if_pos ⟨hm, hp⟩, List.filter_cons_of_pos (by simpa using hm)]
      rfl
    · rw [if_neg fun h => hm h.1, List.filter_cons_of_neg (by simpa using hm)]
  · rw [if_neg hp, if_neg fun h => hp h.2]

end Stages

/-- What arrived, then what is under way on the first `n` links, furthest first, is a
subsequence of what was emitted. -/
def InOrder (sim : Simulation) (policy : RoutingPolicy) (s : State) (f : FlowId)
    (k : PacketKind) : Prop :=
  ∀ n, (s.hostArrivals sim f k ++ Pipeline.line n (stage sim policy f k s)).Sublist (s.sent f k)

namespace InOrder

variable {sim : Simulation} {policy : RoutingPolicy} {s s' : State} {f g : FlowId} {k : PacketKind}

/-- It is enough to look at long lines. -/
theorem of_long (m : Nat) (h : ∀ n, m ≤ n →
    (s.hostArrivals sim f k ++ Pipeline.line n (stage sim policy f k s)).Sublist (s.sent f k)) :
    InOrder sim policy s f k := by
  intro n
  refine List.Sublist.trans ?_ (h _ (Nat.le_max_right n m))
  exact (Pipeline.line_sublist (Nat.le_max_left n m)).append_left _

/-- A step the flow does not notice. -/
theorem congr (h : InOrder sim policy s f k)
    (harr : s'.trace.filterMap (Obs.arrival sim f k) = s.trace.filterMap (Obs.arrival sim f k))
    (hem : s'.emissions = s.emissions)
    (hstage : stage sim policy f k s' = stage sim policy f k s) : InOrder sim policy s' f k := by
  unfold InOrder State.hostArrivals State.sent at h ⊢
  rw [harr, hem, hstage]
  exact h

/-- An endpoint operation: a new packet of the flow enters the pipeline, or is
dropped at once. -/
theorem micro (h : InOrder sim policy s f k) (hc : s.Coherent) (hm : Micro sim g s s') :
    InOrder sim policy s' f k := by
  rcases hm.net with ⟨hnet, -, -, -, l, hl, hrel⟩ | ⟨s₁, x, hnet, hfresh, -, -, htr, rfl⟩
  · refine h.congr ?_ (emissions_release hl hrel) (stage_congr hnet.onLink)
    have hnone : l.filterMap (Obs.arrival sim f k) = [] := by
      rw [List.filterMap_eq_nil_iff]
      intro o ho
      obtain ⟨t, a, b, rfl⟩ := hrel o ho
      rfl
    rw [hl, List.filterMap_append, hnone, List.nil_append]
  · have hc₁ := hnet.coherent hc
    have hstage₁ : stage sim policy f k s₁ = stage sim policy f k s := stage_congr hnet.onLink
    obtain ⟨room, he⟩ := enqueue_trace sim s₁ (nic sim x) x
    have hem : (s₁.enqueue sim (nic sim x) x).emissions = (s.now, x) :: s.emissions :=
      emissions_emit htr _ _
    have harr : (s₁.enqueue sim (nic sim x) x).hostArrivals sim f k = s.hostArrivals sim f k := by
      unfold State.hostArrivals
      rw [he, htr]
      rfl
    by_cases hmine : x.flow = f ∧ x.kind = k
    · obtain ⟨rfl, rfl⟩ := hmine
      have hsent : (s₁.enqueue sim (nic sim x) x).sent x.flow x.kind =
          s.sent x.flow x.kind ++ [x.core] := by
        have hx : ofFlow x.flow x.kind (s.now, x) = some x.core := if_pos ⟨rfl, rfl⟩
        unfold State.sent
        rw [hem, List.filterMap_cons_some hx, List.reverse_cons]
      have hat : ∀ j, stage sim policy x.flow x.kind (s₁.enqueue sim (nic sim x) x) j =
          if j = 0 ∧ (s₁.port (nic sim x)).queue.count ≠ (s₁.port (nic sim x)).queue.capacity then
            stage sim policy x.flow x.kind s j ++ [x.core]
          else stage sim policy x.flow x.kind s j := by
        intro j
        rw [stage_enqueue hc₁, hstage₁]
        by_cases hj : j = 0
        · subst hj
          have hm : Mine x.flow x.kind 0 x := ⟨rfl, rfl, by rw [hfresh.route]; rfl⟩
          simp [hm, Simulation.nic_eq_link sim policy x]
        · have hm : ¬ Mine x.flow x.kind j x := by
            rintro ⟨-, -, hlen⟩
            rw [hfresh.route] at hlen
            exact hj hlen.symm
          simp [hm, hj]
      refine of_long 1 fun n hn => ?_
      rw [harr, hsent]
      by_cases hroom : (s₁.port (nic sim x)).queue.count = (s₁.port (nic sim x)).queue.capacity
      · have hsame : stage sim policy x.flow x.kind (s₁.enqueue sim (nic sim x) x) =
            stage sim policy x.flow x.kind s := by
          funext j
          rw [hat, if_neg fun hj => hj.2 hroom]
        rw [hsame]
        exact (h n).trans (List.sublist_append_left _ _)
      · have henter : Pipeline.line n
            (stage sim policy x.flow x.kind (s₁.enqueue sim (nic sim x) x)) =
            Pipeline.line n (stage sim policy x.flow x.kind s) ++ [x.core] :=
          Pipeline.line_enter hn (by rw [hat, if_pos ⟨rfl, hroom⟩])
            fun j hj => by rw [hat, if_neg fun h => hj h.1]
        rw [henter, ← List.append_assoc]
        exact (h n).append (List.Sublist.refl _)
    · have hsent : (s₁.enqueue sim (nic sim x) x).sent f k = s.sent f k := by
        have hx : ofFlow f k (s.now, x) = none := if_neg hmine
        unfold State.sent
        rw [hem, List.filterMap_cons_none hx]
      have hsame : stage sim policy f k (s₁.enqueue sim (nic sim x) x) =
          stage sim policy f k s := by
        funext j
        rw [stage_enqueue hc₁, hstage₁, if_neg]
        rintro ⟨hm, -⟩
        exact hmine ⟨hm.1, hm.2.1⟩
      unfold InOrder at h ⊢
      rw [harr, hsent, hsame]
      exact h

theorem micros (h : InOrder sim policy s f k) (hc : s.Coherent) (hm : Micros sim g s s') :
    InOrder sim policy s' f k :=
  (hm.preserve (P := fun s' => s'.Coherent ∧ InOrder sim policy s' f k)
    (fun _ _ hm h => ⟨hm.coherent h.1, h.2.micro h.1 hm⟩) ⟨hc, h⟩).2

/-- An arrival at a switch: the packet moves on, or is dropped. -/
theorem forward (h : InOrder sim policy s f k) (hflow : policy.PerFlow)
    (hs : sim.Reachable policy s) {e : Event} {queue : EventQueue}
    (hpop : s.queue.pop = some (e, queue)) {p : PortId} {x : Packet} (hb : e.body = .arrive p x)
    (hsw : (sim.fabric.node (sim.fabric.port p).peerNode).isHost = false) :
    InOrder sim policy ((s.advance e queue).enqueue sim
      (nextPort sim policy (s.advance e queue) p x) (forwarded p x)) f k := by
  have hx := mem_onLink_of_arrive hpop hb
  have hpath := hs.onPath hflow p x hx
  have hc : (s.advance e queue).Coherent := hs.coherent.advance hpop (by rw [hb]; simp)
  obtain ⟨room, he⟩ := enqueue_trace sim (s.advance e queue)
    (nextPort sim policy (s.advance e queue) p x) (forwarded p x)
  have hnextp := Simulation.nextPort_eq_link hflow (s.advance e queue) hpath
  have hnoarr : Obs.arrival sim f k (.dispatched e) = none := by
    unfold Obs.arrival
    simp [hb, hsw]
  have harr : ((s.advance e queue).enqueue sim (nextPort sim policy (s.advance e queue) p x)
      (forwarded p x)).trace.filterMap (Obs.arrival sim f k) =
      s.trace.filterMap (Obs.arrival sim f k) := by
    rw [he, advance_trace, List.filterMap_cons_none rfl, List.filterMap_cons_none hnoarr]
  have hem : ((s.advance e queue).enqueue sim (nextPort sim policy (s.advance e queue) p x)
      (forwarded p x)).emissions = s.emissions :=
    (emissions_enqueue sim _ _ _).trans (emissions_advance e queue)
  by_cases hmine : x.flow = f ∧ x.kind = k
  · obtain ⟨rfl, rfl⟩ := hmine
    have htake : ∀ j, stage sim policy x.flow x.kind s j =
        if j = x.tag.route.length then
          x.core :: stage sim policy x.flow x.kind (s.advance e queue) j
        else stage sim policy x.flow x.kind (s.advance e queue) j := by
      intro j
      rw [stage_advance_arrive hpop hb]
      by_cases hj : j = x.tag.route.length
      · subst hj
        rw [if_pos ⟨⟨rfl, rfl, rfl⟩, hpath.symm⟩, if_pos rfl]
      · rw [if_neg fun h => hj h.1.2.2.symm, if_neg hj]
    have hput : ∀ j, stage sim policy x.flow x.kind ((s.advance e queue).enqueue sim
        (nextPort sim policy (s.advance e queue) p x) (forwarded p x)) j =
        if j = x.tag.route.length + 1 ∧
            ((s.advance e queue).port (nextPort sim policy (s.advance e queue) p x)).queue.count ≠
              ((s.advance e queue).port (nextPort sim policy (s.advance e queue) p x)).queue.capacity
        then stage sim policy x.flow x.kind (s.advance e queue) j ++ [x.core]
        else stage sim policy x.flow x.kind (s.advance e queue) j := by
      intro j
      rw [stage_enqueue hc]
      by_cases hj : j = x.tag.route.length + 1
      · subst hj
        have hm : Mine x.flow x.kind (x.tag.route.length + 1) (forwarded p x) := ⟨rfl, rfl, rfl⟩
        rw [hnextp]
        simp [hm]
        rfl
      · have hm : ¬ Mine x.flow x.kind j (forwarded p x) := fun h => hj h.2.2.symm
        simp [hm, hj]
    have hhead := htake x.tag.route.length
    rw [if_pos rfl] at hhead
    refine of_long (x.tag.route.length + 2) fun n hbound => ?_
    have hn := h n
    unfold State.hostArrivals State.sent at hn ⊢
    rw [harr, hem]
    by_cases hroom : ((s.advance e queue).port
        (nextPort sim policy (s.advance e queue) p x)).queue.count =
        ((s.advance e queue).port (nextPort sim policy (s.advance e queue) p x)).queue.capacity
    · have hdrop := Pipeline.line_drop (n := n)
        (stage sim policy x.flow x.kind ((s.advance e queue).enqueue sim
          (nextPort sim policy (s.advance e queue) p x) (forwarded p x))) (by omega) hhead
        (by rw [hput, if_neg fun h => h.2 hroom])
        fun j hj => by rw [hput, if_neg fun h => h.2 hroom, htake, if_neg hj]
      exact (hdrop.append_left _).trans hn
    · have hmove := Pipeline.line_advance (stage sim policy x.flow x.kind
          ((s.advance e queue).enqueue sim (nextPort sim policy (s.advance e queue) p x)
            (forwarded p x))) hbound hhead
        (by rw [hput, if_neg fun h => by omega])
        (by rw [hput, if_pos ⟨rfl, hroom⟩, htake, if_neg (by omega)])
        fun j hj hj' => by rw [hput, if_neg fun h => hj' h.1, htake, if_neg hj]
      rw [hmove]
      exact hn
  · refine h.congr harr hem ?_
    funext j
    rw [stage_enqueue hc, if_neg fun h => hmine ⟨h.1.1, h.1.2.1⟩, stage_advance_arrive hpop hb,
      if_neg fun h => hmine ⟨h.1.1, h.1.2.1⟩]

/-- An arrival at a host leaves the pipeline. -/
theorem arrive (h : InOrder sim policy s f k) (hflow : policy.PerFlow)
    (hs : sim.Reachable policy s) {e : Event} {queue : EventQueue}
    (hpop : s.queue.pop = some (e, queue)) {p : PortId} {x : Packet} (hb : e.body = .arrive p x)
    (hh : (sim.fabric.node (sim.fabric.port p).peerNode).isHost = true) :
    InOrder sim policy (s.advance e queue) f k := by
  have hx := mem_onLink_of_arrive hpop hb
  have hpath := hs.onPath hflow p x hx
  by_cases hmine : x.flow = f ∧ x.kind = k
  · obtain ⟨rfl, rfl⟩ := hmine
    have hhead : stage sim policy x.flow x.kind s x.tag.route.length =
        x.core :: stage sim policy x.flow x.kind (s.advance e queue) x.tag.route.length := by
      rw [stage_advance_arrive hpop hb, if_pos ⟨⟨rfl, rfl, rfl⟩, hpath.symm⟩]
    -- no packet is ahead of it, for none has been passed on by the host
    have hempty : ∀ j, x.tag.route.length < j → stage sim policy x.flow x.kind s j = [] := by
      intro j hj
      refine List.map_eq_nil_iff.mpr (List.filter_eq_nil_iff.mpr fun y hy hmine => ?_)
      obtain ⟨hyf, hyk, hlen⟩ := of_decide_eq_true hmine
      have hsw := hs.crossed hflow _ y hy x.tag.route.length (hlen ▸ hj)
      rw [hyf, hyk, ← hpath, hh] at hsw
      exact Bool.noConfusion hsw
    have hother : ∀ j, j ≠ x.tag.route.length →
        stage sim policy x.flow x.kind (s.advance e queue) j =
          stage sim policy x.flow x.kind s j := by
      intro j hj
      rw [stage_advance_arrive hpop hb, if_neg fun h => hj h.1.2.2.symm]
    have harr : (s.advance e queue).hostArrivals sim x.flow x.kind =
        s.hostArrivals sim x.flow x.kind ++ [x.core] := by
      unfold State.hostArrivals
      simp [Obs.arrival, hb, hh]
    have hsent : (s.advance e queue).sent x.flow x.kind = s.sent x.flow x.kind := by
      unfold State.sent
      rw [emissions_advance]
    refine of_long (x.tag.route.length + 1) fun n hlt => ?_
    have hn := h n
    rw [Pipeline.line_exit hlt hempty hhead rfl hother] at hn
    rw [harr, hsent, List.append_assoc]
    exact hn
  · refine h.congr ?_ (emissions_advance e queue) ?_
    · rw [advance_trace, List.filterMap_cons_none]
      unfold Obs.arrival
      simp only [hb]
      exact if_neg fun hm => hmine hm.2
    · funext j
      rw [stage_advance_arrive hpop hb, if_neg fun hm => hmine ⟨hm.1.1, hm.1.2.1⟩]

/-- Any other event leaves the pipeline alone when it is taken. -/
theorem advance (h : InOrder sim policy s f k) {e : Event} {queue : EventQueue}
    (hpop : s.queue.pop = some (e, queue)) (hb : ∀ p x, e.body ≠ .arrive p x) :
    InOrder sim policy (s.advance e queue) f k := by
  refine h.congr ?_ (emissions_advance e queue) (stage_congr (onLink_advance hpop hb))
  rw [advance_trace, List.filterMap_cons_none]
  cases he : e.body with
  | arrive p x => exact absurd he (hb p x)
  | inject | txComplete | timeout => simp [Obs.arrival, he]

theorem step (h : InOrder sim policy s f k) (hflow : policy.PerFlow)
    (hs : sim.Reachable policy s) {e : Event} {queue : EventQueue} (hpop : s.queue.pop = some (e, queue))
    (hw : ((s.advance e queue).dispatch sim policy e.body).wrapped = false) :
    InOrder sim policy ((s.advance e queue).dispatch sim policy e.body) f k := by
  cases hb : e.body with
  | txComplete p =>
    have hadv := h.advance hpop (by rw [hb]; simp)
    have htime := hs.onTime (step_unwrapped hs.coherent hpop hw)
    rw [hb] at hw
    have hc' : ((s.advance e queue).onTxComplete sim p).Coherent :=
      (advance_finishing hs.coherent hpop hb).onTxComplete
    -- the timed link does not change, so neither does its order
    have hlink : ∀ q, ((s.advance e queue).onTxComplete sim p).onLink q =
        (s.advance e queue).onLink q := by
      intro q
      rw [← map_snd_timed sim hc', timed_step_txComplete htime hs.coherent hpop hb hw,
        map_snd_timed sim hs.coherent, onLink_advance_txComplete hpop hb]
    have htr : ((s.advance e queue).onTxComplete sim p).trace = (s.advance e queue).trace := by
      rcases onTxComplete_cases sim (s.advance e queue) p with ⟨-, heq⟩ | ⟨-, heq⟩ <;> rw [heq] <;> rfl
    exact hadv.congr (by rw [← htr]; rfl) (emissions_onTxComplete sim _ p) (stage_congr hlink)
  | inject g =>
    exact (h.advance hpop (by rw [hb]; simp)).micros (hs.coherent.advance hpop (by rw [hb]; simp))
      (onInject_micros _ g)
  | timeout g idx a =>
    exact (h.advance hpop (by rw [hb]; simp)).micros (hs.coherent.advance hpop (by rw [hb]; simp))
      (onTimeout_micros _ g idx a)
  | arrive p x =>
    show InOrder sim policy ((s.advance e queue).onArrive sim policy p x) f k
    cases hh : (sim.fabric.node (sim.fabric.port p).peerNode).isHost with
    | false =>
      rw [onArrive_switch hh]
      exact h.forward hflow hs hpop hb hh
    | true =>
      have hadv := h.arrive hflow hs hpop hb hh
      have hc : (s.advance e queue).Coherent := hs.coherent.advance hpop (by rw [hb]; simp)
      cases hk : x.kind with
      | data =>
        rw [onArrive_data hh hk]
        have hcount : InOrder sim policy ((s.advance e queue).countDelivered x.bytes) f k :=
          hadv.congr rfl rfl (stage_congr (netEq_countDelivered _ _).onLink)
        exact hcount.micros ((netEq_countDelivered _ _).coherent hc)
          (onDataArrival_micros _ _ _ _ _)
      | ack =>
        rw [onArrive_ack hh hk]
        have hcount : InOrder sim policy ((s.advance e queue).countAckDelivered x.bytes) f k :=
          hadv.congr rfl rfl (stage_congr (netEq_countAckDelivered _ _).onLink)
        exact hcount.micros ((netEq_countAckDelivered _ _).coherent hc) (onAck_micros _ _ _)

theorem begin (sim : Simulation) (policy : RoutingPolicy) (leftover : State) (f : FlowId)
    (k : PacketKind) : InOrder sim policy (sim.beginRun leftover) f k := by
  have hempty : stage sim policy f k (sim.beginRun leftover) = fun _ => [] := by
    funext j
    unfold stage
    rw [Simulation.onLink_beginRun]
    rfl
  have hline : ∀ n, Pipeline.line n (fun _ => ([] : List Packet)) = [] := by
    intro n
    induction n with
    | zero => rfl
    | succ n ih => exact ih
  intro n
  rw [hempty, hline]
  exact List.nil_sublist _

end InOrder

theorem Simulation.Reachable.inOrder {sim : Simulation} {policy : RoutingPolicy} {s : State}
    (h : sim.Reachable policy s) (hflow : policy.PerFlow) (hw : s.wrapped = false) (f : FlowId)
    (k : PacketKind) : InOrder sim policy s f k := by
  refine Simulation.Reachable.invariant (P := fun s => s.wrapped = false → InOrder sim policy s f k)
    (fun leftover _ => InOrder.begin sim policy leftover f k) ?_ h hw
  intro s e queue hs ih hpop hw'
  exact (ih (step_unwrapped hs.coherent hpop hw')).step hflow hs hpop hw'

theorem sent_rising {sim : Simulation} {s : State} (h : Numbered sim s) (f : FlowId)
    (k : PacketKind) : (s.sent f k).Pairwise fun x y => x.tag.serial < y.tag.serial := by
  unfold State.sent
  rw [List.pairwise_reverse]
  refine h.rising.filterMap _ fun a b hab x hx y hy => ?_
  obtain rfl : a.2.core = x := by
    unfold ofFlow at hx
    split at hx
    · exact Option.some.inj hx
    · exact absurd hx (by simp)
  obtain rfl : b.2.core = y := by
    unfold ofFlow at hy
    split at hy
    · exact Option.some.inj hy
    · exact absurd hy (by simp)
  exact hab

/-- Under `StaticFirstPolicy`, and under `EcmpPolicy` with any seed, in every
state of every run whose times have not wrapped: the transmissions of a flow that
reached a host, and the acks that came back, did so in the order in which
they were emitted. Emissions carry rising serial numbers, so the subsequence
matches each arrival with the one emission it comes from. -/
theorem per_flow_order (sim : Simulation) (algo : RoutingAlgorithm) (hashSeed : UInt64)
    {s : State} (hs : sim.Reachable (algo.policy hashSeed) s) (hw : s.wrapped = false)
    (f : FlowId) (k : PacketKind) :
    (s.hostArrivals sim f k).Sublist (s.sent f k) ∧
      (s.sent f k).Pairwise fun x y => x.tag.serial < y.tag.serial := by
  have horder := hs.inOrder (algo.policy_perFlow hashSeed) hw f k 0
  exact ⟨(List.sublist_append_left _ _).trans horder, sent_rising hs.numbered f k⟩

/-- Two hosts on a leaf, after the whole run. -/
theorem per_flow_order_pair :
    (Pair.last.hostArrivals Pair.simulation 0 .data).Sublist (Pair.last.sent 0 .data) ∧
      (Pair.last.sent 0 .data).Pairwise fun x y => x.tag.serial < y.tag.serial :=
  per_flow_order Pair.simulation .staticFirst 0 ((Simulation.Reachable.begin _).runFor 100)
    Pair.last_unwrapped 0 .data

end FabricSim
