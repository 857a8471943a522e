import FabricSim.Core.FlowAccount
import FabricSim.Harness.Buildable
import FabricSim.Topology.FatTreeTable

/-!
# The sized timeout does not fire early

A packet accepted by a port waits for at most a full queue and the packet in
transmission, so over `hops` equal links a data packet and then its ack take at
most `hops` times that, both ways. `defaultRtoNs` is twice a round trip and twice
a full queue at every hop, which is more. So every live timer stands for a loss
(`live_timer`).
-/

namespace FabricSim

open State

/-- A jam of equal links. -/
theorem Simulation.jamNs_alike {sim : Simulation} {link : LinkParams} (bound : Nat) (x : Packet)
    {l : List PortId}
    (hl : ∀ q ∈ l, (sim.fabric.port q).rate = link.rate ∧
      (sim.fabric.port q).propDelayNs = link.propDelayNs ∧
      (sim.fabric.port q).queueCapacity = link.queueCapacityPkts) :
    sim.jamNs bound x l = l.length *
      (link.queueCapacityPkts * serializationNs bound link.rate +
        (serializationNs x.bytes link.rate + link.propDelayNs)) := by
  unfold jamNs backlogNs serNs
  rw [List.map_congr_left fun q hq => by
      obtain ⟨hrate, hdelay, hqueue⟩ := hl q hq
      rw [hrate, hdelay, hqueue],
    List.map_const', List.sum_replicate, smul_eq_mul]

namespace FatTreeScenario

variable {sc : FatTreeScenario} {n : Nat} {draws : Draws}

/-- The timeout of the scenario before any reduction. -/
def exactRtoNs (sc : FatTreeScenario) : Nat :=
  let link := sc.topology.hostLink
  let ser := serializationNs sc.mtuBytes link.rate
  let ackSer := serializationNs sc.transport.ackBytes link.rate
  2 * (sc.hops * (ser + link.propDelayNs) + sc.hops * (ackSer + link.propDelayNs) +
    sc.hops * link.queueCapacityPkts * ser)

/-- The timeout is computed without leaving a width: the capacity fits 32 bits and
the result 64. -/
def SizedExactly (sc : FatTreeScenario) : Prop :=
  sc.topology.hostLink.queueCapacityPkts < 2 ^ 32 ∧ sc.exactRtoNs < 2 ^ 64

namespace Facts

theorem rto_eq (h : sc.Facts n) (hauto : sc.transport.rtoNs = 0) (hsized : sc.SizedExactly) :
    sc.sim.transport.rtoNs = sc.exactRtoNs ∧
      sc.sim.transport.ackBytes = sc.transport.ackBytes := by
  obtain ⟨hcap, hrto⟩ := hsized
  rw [h.transport]
  unfold sizedTransport
  rw [if_pos hauto]
  refine ⟨?_, rfl⟩
  dsimp only
  have htrip : sc.hops * (serializationNs sc.mtuBytes sc.topology.hostLink.rate +
      sc.topology.hostLink.propDelayNs) + sc.hops * (serializationNs sc.transport.ackBytes
      sc.topology.hostLink.rate + sc.topology.hostLink.propDelayNs) < 2 ^ 64 := by
    refine lt_of_le_of_lt ?_ hrto
    unfold exactRtoNs
    dsimp only
    omega
  unfold defaultRtoNs roundTripNs
  rw [u32_of_lt hcap, u64_of_lt htrip]
  exact u64_of_lt hrto

/-- Packets are no larger than the MTU, acks included. -/
theorem wireBytes_le (h : sc.Facts n) (hack : sc.sim.transport.ackBytes ≤ sc.mtuBytes)
    (x : Packet) (hx : x.flow < sc.sim.flowCount) : wireBytes sc.sim x ≤ sc.mtuBytes := by
  unfold wireBytes
  cases x.kind with
  | data => exact (FlowSpec.packetBytes_le _ _).trans (h.mtu x.flow hx).le
  | ack => exact hack

/-- The sized timeout covers a jam both ways. -/
theorem timeoutCovers (h : sc.Facts n) (hauto : sc.transport.rtoNs = 0)
    (hsized : sc.SizedExactly) (hlinks : sc.topology.fabricLink = sc.topology.hostLink)
    (hpos : 0 < sc.sim.transport.rtoNs) : sc.sim.TimeoutCovers sc.mtuBytes := by
  intro x z hx hzx hbytes hzbytes l l' hl hlen hl' hlen'
  obtain ⟨hrto, hackeq⟩ := h.rto_eq hauto hsized
  rw [Simulation.jamNs_alike sc.mtuBytes x fun q hq => h.links rfl hlinks (hl q hq),
    Simulation.jamNs_alike sc.mtuBytes z fun q hq => h.links rfl hlinks (hl' q hq), hzbytes, hackeq]
  rw [hrto] at hpos ⊢
  have hhops := h.hops x.flow hx
  have hser := serializationNs_mono hbytes sc.topology.hostLink.rate
  unfold exactRtoNs at hpos ⊢
  dsimp only at hpos ⊢
  generalize serializationNs x.bytes sc.topology.hostLink.rate = serX at hser ⊢
  generalize serializationNs sc.mtuBytes sc.topology.hostLink.rate = ser at hser hpos ⊢
  generalize serializationNs sc.transport.ackBytes sc.topology.hostLink.rate = ackSer at hpos ⊢
  generalize sc.topology.hostLink.propDelayNs = prop at hpos ⊢
  generalize sc.topology.hostLink.queueCapacityPkts = cap at hpos ⊢
  -- a full queue at every hop, and the packet itself
  have hout : l.length * (cap * ser + (serX + prop)) ≤
      sc.hops * cap * ser + sc.hops * (ser + prop) := by
    calc l.length * (cap * ser + (serX + prop))
        ≤ sc.hops * (cap * ser + (ser + prop)) := Nat.mul_le_mul (hlen.trans hhops) (by omega)
      _ = sc.hops * cap * ser + sc.hops * (ser + prop) := by rw [Nat.mul_add, Nat.mul_assoc]
  have hback : l'.length * (cap * ser + (ackSer + prop)) ≤
      sc.hops * cap * ser + sc.hops * (ackSer + prop) := by
    calc l'.length * (cap * ser + (ackSer + prop))
        ≤ sc.hops * (cap * ser + (ackSer + prop)) := Nat.mul_le_mul_right _ (hlen'.trans hhops)
      _ = sc.hops * cap * ser + sc.hops * (ackSer + prop) := by rw [Nat.mul_add, Nat.mul_assoc]
  -- a positive timeout has a positive round trip in it
  have htrip : 0 < sc.hops * (ser + prop) + sc.hops * (ackSer + prop) := by
    by_contra hzero
    have hnone : sc.hops * ser = 0 := by
      rw [Nat.mul_add] at hzero
      omega
    have hqueue : sc.hops * cap * ser = 0 := by
      rw [Nat.mul_right_comm, hnone, Nat.zero_mul]
    omega
  omega

end Facts

end FatTreeScenario

/-- In every state of every run of a permutation or an all-reduce on equal links,
with a timeout that the harness sized and acks no larger than the MTU: a timer
that is dispatched, not stale, for a packet not acked, of a flow not given up,
belongs to an attempt whose data packet or ack a full queue refused. A run that
dropped nothing has retransmitted nothing and has no failed flow. -/
theorem auto_timeout_never_early (draws : Draws) (sc : FatTreeScenario) (hbuilt : sc.Built draws)
    (htable : FatTree.TableFits sc.topology.k) (hauto : sc.transport.rtoNs = 0)
    (hsized : sc.SizedExactly) (haccepted : sc.sim.transport.Accepted)
    (hlinks : sc.topology.fabricLink = sc.topology.hostLink)
    (hack : sc.transport.ackBytes ≤ sc.mtuBytes) (algo : RoutingAlgorithm) (seed : UInt64)
    {s : State} (hs : sc.sim.Reachable (algo.policy seed) s) (hw : s.wrapped = false) :
    (∀ e queue, s.queue.pop = some (e, queue) → ∀ f idx a, e.body = .timeout f idx a →
      s.pktAttempt f idx = a → (s.pkt f idx).acked = false → (s.tx f).failed = false →
      LostAttempt sc.sim s f idx a) ∧
    (NoDrops s → s.stats.packetsRetransmitted = 0 ∧ ∀ f, f < sc.sim.flowCount →
      (s.result f).packetsRetransmitted = 0 ∧ (s.result f).failed = false) := by
  have hfacts := hbuilt.facts htable.ports
  have hr := hfacts.routed htable
  have hm := algo.policy_member seed
  have hbytes : sc.sim.transport.ackBytes ≤ sc.mtuBytes := by
    rw [(hfacts.rto_eq hauto hsized).2]
    exact hack
  have hsize := hfacts.wireBytes_le hbytes
  have hcover := hfacts.timeoutCovers hauto hsized hlinks haccepted.rto_pos
  constructor
  · intro e queue hpop f idx a hb _ hunacked _
    exact live_timer hs hr hm hw hsize hcover hpop hb hunacked
  · intro hnone
    have hstill := hs.undisturbed hr hm hsize hcover hw (hs.noDrops_iff.mp hnone)
    have hzero := hstill.retransmitted hs haccepted
    refine ⟨hzero, fun f hf => ⟨?_, ?_⟩⟩
    · have hsum := (sum_again hs).trans hzero
      rw [Finset.sum_eq_zero_iff] at hsum
      rw [hs.billed.resent f, hsum f (Finset.mem_range.mpr hf)]
      exact u32_of_lt (by decide)
    · rw [(hs.receiver f).failed_eq]
      exact hstill.failed f

namespace FatTreeScenario

/-- Two hosts in two pods, each sending to the other. -/
def pairConfig : PermutationConfig where
  topology := { k := 2 }
  workload := { flowBytes := 3000 }

theorem pair_builds : (buildPermutation pairConfig {}).isSome = true := by decide +kernel

def pair : FatTreeScenario where
  topology := pairConfig.topology
  transport := pairConfig.transport
  mtuBytes := pairConfig.workload.mtuBytes
  hops := kFatTreeCrossPodHops
  sim := ((buildPermutation pairConfig {}).get pair_builds).sim

theorem pair_built : pair.Built {} :=
  .permutation pairConfig _ (Option.some_get pair_builds).symm

/-- The state of that scenario after 40 dispatches. -/
def pairState : State := (pair.sim.beginRun Pair.fresh).runFor pair.sim (EcmpPolicy 7) 40

end FatTreeScenario

open FatTreeScenario in
theorem auto_timeout_never_early_pair :
    (∀ e queue, pairState.queue.pop = some (e, queue) → ∀ f idx a, e.body = .timeout f idx a →
      pairState.pktAttempt f idx = a → (pairState.pkt f idx).acked = false →
      (pairState.tx f).failed = false → LostAttempt pair.sim pairState f idx a) ∧
    (NoDrops pairState → pairState.stats.packetsRetransmitted = 0 ∧ ∀ f, f < pair.sim.flowCount →
      (pairState.result f).packetsRetransmitted = 0 ∧ (pairState.result f).failed = false) :=
  auto_timeout_never_early {} pair pair_built (by decide) rfl
    ⟨by decide +kernel, by decide +kernel⟩
    ⟨by decide +kernel, by decide +kernel, by decide +kernel, by decide +kernel, by decide +kernel⟩
    rfl (by decide) .ecmp 7 ((Simulation.Reachable.begin _).runFor 40) (by decide +kernel)

namespace Astray

/-! Two neighbours under edge switch 0 of pod 0, whose row of the table begins past `2 ^ 32`.
It is read in the row of a core switch, so the edge switch sends packets for its own hosts to
another pod. The aggregation switch that they reach there is misled in the same way, and so
is each after it. -/

def config : AllReduceConfig where
  topology := { k := 140 }
  workload := { bufferBytes := 2, mtuBytes := 1, gpuCount := 2, placement := .sequential }
  routing := .staticFirst
  transport := { ackBytes := 1 }

theorem fits : FatTree.Fits config.topology.k 70 := ⟨rfl, by decide, by decide⟩

def built : Fabric := (FatTree.builder config.topology 70).build

/-- The aggregation switches on the way, by pod and number, and the port each is given
towards host 0 or 1. -/
def stops : List (Nat × Nat × PortId) :=
  [(86, 50, 412504), (64, 42, 60248), (48, 6, 625938), (138, 63, 629820), (100, 64, 404625),
    (25, 41, 201538)]

/-- The same with the edge switch in front. -/
def way : List (NodeId × PortId) :=
  (FatTree.edge 70 0 0, 490646) :: stops.map fun x => (FatTree.agg 70 x.1 x.2.1, x.2.2)

def fabric : Fabric :=
  built.written {} (FatTree.hostPorts 70 [0, 1]) (way.map Prod.fst)
    (FatTree.peers 70 [0, 1] (way.map Prod.snd))

theorem fabric_eq : fabric = built :=
  (FatTree.shows fits.pos rfl rfl (by decide) (by decide) (by decide)).written_eq

/-! ### The table -/

/-- The place of a cell of an aggregation switch, modulo `2 ^ 32`. -/
def place (pod a h : Nat) : Nat :=
  (70 * 70 * FatTree.hostCount 70 + pod * (70 * FatTree.aggRow 70 + 70 * FatTree.edgeRow 70) +
    a * FatTree.aggRow 70 + h * 70) % 2 ^ 32

/-- Each stop reads its port in the row of a core switch. -/
theorem stops_low : ∀ x ∈ stops, x.1 < 2 * 70 ∧ x.1 ≠ 0 ∧ x.2.1 < 70 ∧ ∀ h < 2,
    place x.1 x.2.1 h < 70 * 70 * FatTree.hostCount 70 ∧
      place x.1 x.2.1 h / FatTree.hostCount 70 * (2 * 70) +
        FatTree.podOf 70 (place x.1 x.2.1 h % FatTree.hostCount 70) = x.2.2 := by
  decide

theorem head_stops {x : Nat × Nat × PortId} (hx : x ∈ stops) {h : Nat} (hh : h < 2) :
    ((RouteTable.buildShortestPath built).candidates (FatTree.agg 70 x.1 x.2.1) h).head? =
      some x.2.2 := by
  obtain ⟨hpod, hne, ha, hlow⟩ := stops_low x hx
  obtain ⟨hlow, hport⟩ := hlow h hh
  have hin : h < FatTree.hostCount 70 := hh.trans (by decide)
  have hplace := @FatTree.place_agg config.topology 70 fits.pos _ _ hpod ha
  -- the hosts are of another pod, so each cell before holds all uplinks
  have hcells := @FatTree.place_add config.topology 70 (FatTree.agg 70 x.1 x.2.1) h 70
    fun i hi => by
      have hzero : i / (70 * 70) = 0 := Nat.div_eq_of_lt ((hi.trans hh).trans (by decide))
      rw [FatTree.cellLength_agg fits.pos (hi.trans hin) hpod ha, hzero, if_neg (Ne.symm hne)]
  rw [hplace] at hcells
  rw [← hport]
  exact FatTree.head_candidates_low fits.pos (FatTree.agg_lt hpod ha) hin (by decide)
    (congrArg (· % 2 ^ 32) hcells) hlow

/-- The place of the edge switch's cells. -/
def edgePlace (h : Nat) : Nat :=
  (70 * 70 * FatTree.hostCount 70 + 0 * (70 * FatTree.aggRow 70 + 70 * FatTree.edgeRow 70) +
    (70 * FatTree.aggRow 70 + 0 * FatTree.edgeRow 70) + h * 1) % 2 ^ 32

theorem edge_low : ∀ h < 2, edgePlace h < 70 * 70 * FatTree.hostCount 70 ∧
    edgePlace h / FatTree.hostCount 70 * (2 * 70) +
      FatTree.podOf 70 (edgePlace h % FatTree.hostCount 70) = 490646 := by
  decide

theorem head_edge {h : Nat} (hh : h < 2) :
    ((RouteTable.buildShortestPath built).candidates (FatTree.edge 70 0 0) h).head? =
      some 490646 := by
  obtain ⟨hlow, hport⟩ := edge_low h hh
  have hin : h < FatTree.hostCount 70 := hh.trans (by decide)
  have hplace := @FatTree.place_edge config.topology 70 fits.pos 0 0 (by decide) (by decide)
  -- the hosts are its own, so each cell before holds one port
  have hcells := @FatTree.place_add config.topology 70 (FatTree.edge 70 0 0) h 1
    fun i hi => by
      have hzero : i / 70 = 0 * 70 + 0 := Nat.div_eq_of_lt ((hi.trans hh).trans (by decide))
      rw [FatTree.cellLength_edge fits.pos (hi.trans hin) (by decide) (by decide), if_pos hzero]
  rw [hplace] at hcells
  rw [← hport]
  exact FatTree.head_candidates_low fits.pos (FatTree.edge_lt (by decide) (by decide)) hin
    (by decide) (congrArg (· % 2 ^ 32) hcells) hlow

theorem head_way {x : NodeId × PortId} (hx : x ∈ way) {h : Nat} (hh : h < 2) :
    ((RouteTable.buildShortestPath built).candidates x.1 h).head? = some x.2 := by
  rcases List.mem_cons.mp hx with rfl | hx
  · exact head_edge hh
  · obtain ⟨y, hy, rfl⟩ := List.mem_map.mp hx
    exact head_stops hy hh

/-! ### The run -/

/-- The send of a rank in a step, one byte to the other. -/
def send (s r : Nat) : FlowSpec where
  src := FatTree.host 70 r
  dst := FatTree.host 70 ((r + 1) % 2)
  sizeBytes := 1
  mtuBytes := 1
  srcPort := ephemeralPort {} r
  dstPort := 5001
  dependsOn := if 0 < s then some (u32 ((s - 1) * 2 + u32 (r + 2 - 1) % 2)) else none

def simulation : Simulation where
  fabric := fabric
  routes := RouteTable.buildShortestPath fabric
  transport := { ackBytes := 1, rtoNs := 800 }
  specs := (List.range 2).flatMap fun s => (List.range 2).map (send s)
  accepted := by decide +kernel

/-- The ports of the way where it has one, and the first candidate elsewhere. -/
def guide : RoutingPolicy where
  -- a sum is computed before it is compared, and so without a look at the candidates
  select _ at' _ cand _ := (way.lookup at').getD (cand.getD 0 0) + 0

theorem hostIndex_lt {spec : FlowSpec} (h : spec ∈ simulation.specs) :
    built.hostIndex spec.src < 2 ∧ built.hostIndex spec.dst < 2 := by
  have hfirst : (FatTree.builder config.topology 70).SwitchesFirst (FatTree.switchCount 70)
    (FatTree.hostCount 70) := FatTree.switchesFirst
  have hindex : ∀ h < 2, built.hostIndex (FatTree.host 70 h) = h := fun h hh =>
    hfirst.hostIndex (FatTree.valid fits.pos) (hh.trans (by decide))
  obtain ⟨s, -, hr⟩ := List.mem_flatMap.mp h
  obtain ⟨r, hin, rfl⟩ := List.mem_map.mp hr
  have hr := List.mem_range.mp hin
  have hnext := Nat.mod_lt (r + 1) (by decide : 0 < 2)
  exact ⟨(hindex r hr).trans_lt hr, (hindex _ hnext).trans_lt hnext⟩

/-- All packets are routed to host 0 or 1. -/
theorem routeOf_lt (x : Packet) : (State.routeOf simulation x).1 < 2 := by
  have hspec : built.hostIndex (simulation.spec x.flow).src < 2 ∧
      built.hostIndex (simulation.spec x.flow).dst < 2 := by
    by_cases hlt : x.flow < simulation.flowCount
    · exact hostIndex_lt (simulation.spec_mem hlt)
    · have hnone : simulation.spec x.flow = default := List.getD_eq_default _ _ (not_lt.mp hlt)
      rw [hnone]
      exact ⟨Nat.two_pos, Nat.two_pos⟩
  rw [simulation.routeOf_fst, show simulation.fabric = built from fabric_eq]
  unfold Simulation.target
  cases x.kind with
  | data => exact hspec.2
  | ack => exact hspec.1

theorem routes_eq : simulation.routes = RouteTable.buildShortestPath built := by
  have hown : simulation.routes = RouteTable.buildShortestPath fabric := by simp only [simulation]
  rw [hown, fabric_eq]

theorem nextPort_guide (s : State) (p : PortId) (x : Packet) :
    nextPort simulation guide s p x = nextPort simulation StaticFirstPolicy s p x := by
  have hlt := routeOf_lt x
  unfold nextPort
  rw [routes_eq]
  generalize (simulation.fabric.port p).peerNode = u
  generalize (routeOf simulation x).1 = h at hlt ⊢
  generalize hcand : (RouteTable.buildShortestPath built).candidates u h = cand
  show (way.lookup u).getD (cand.getD 0 0) = cand.getD 0 0
  cases hway : way.lookup u with
  | none => rw [Option.getD_none]
  | some q =>
    -- what is written there is the head of the wrapped table's cell
    have hhead : ((RouteTable.buildShortestPath built).candidates u h).head? = some q :=
      head_way (x := (u, q)) (Fabric.mem_of_lookup hway) hlt
    rw [hcand, List.head?_eq_getElem?] at hhead
    rw [List.getD_eq_getElem?_getD, hhead, Option.getD_some, Option.getD_some]

/-- The state after the first timeout, when both packets are on their eighth link. -/
def astray : State := (simulation.beginRun Pair.fresh).runFor simulation guide 33

theorem reachable_astray : simulation.Reachable StaticFirstPolicy astray := by
  unfold astray
  rw [runFor_congr nextPort_guide]
  exact (Simulation.Reachable.begin _).runFor 33

theorem astray_resent : astray.wrapped = false ∧ astray.trace.all Obs.roomy = true ∧
    astray.stats.packetsRetransmitted = 1 := by
  unfold astray
  decide +kernel

/-! ### The scenario -/

/-- The hosts of the ring are the first two, and its flows those of the run. -/
theorem made_eq {ar : AllReduce} (h : ar.Made built config.params {}) :
    ar.flows = simulation.specs ∧ config.hops ar = 2 := by
  obtain ⟨flows, ranks, gpus, steps, chunk, packets, exact⟩ := ar
  have hgpus : gpus = 2 := h.gpus_eq
  subst hgpus
  have hsteps : steps = 2 := h.steps_eq.trans (u32_of_lt (by decide : 2 * (2 - 1) < 2 ^ 32))
  have hchunk : chunk = 1 := h.chunk_eq.trans (by decide : config.params.bufferBytes / 2 = 1)
  have hranks : [0, 1] = ranks := Option.some.inj h.placed
  subst hsteps hchunk hranks
  have hhops : config.hops ⟨[], [0, 1], 2, 2, 1, 0, false⟩ = 2 := by decide +kernel
  refine ⟨?_, hhops⟩
  have hfirst : (FatTree.builder config.topology 70).SwitchesFirst (FatTree.switchCount 70)
    (FatTree.hostCount 70) := FatTree.switchesFirst
  have hat : ∀ r < 2, built.hostAt r = FatTree.host 70 r := fun r hr =>
    hfirst.hostAt (hr.trans (by decide))
  rw [show flows = _ from h.flows_eq]
  refine List.flatMap_congr fun s _ => List.map_congr_left fun r hr => ?_
  have hr : r < 2 := List.mem_range.mp hr
  have hrank : ∀ r < 2, AllReduce.hostOf [0, 1] r = r := by decide
  have hword : u32 (r + 1) % 2 = (r + 1) % 2 := by rw [u32_of_lt (by omega)]
  have hnext := Nat.mod_lt (r + 1) (by decide : 0 < 2)
  unfold AllReduce.ringFlow send
  dsimp only
  rw [hword, hrank r hr, hrank _ hnext, hat r hr, hat _ hnext]
  rfl

theorem scenario : ∃ sc, buildAllReduce config {} = some sc ∧ sc.sim = simulation ∧ sc.hops = 2 := by
  have hring : config.params.Fits (FatTree.hostCount 70) :=
    ⟨by decide, by decide, (nomatch ·), by decide⟩
  obtain ⟨sc, hsc⟩ := (buildAllReduce_builds_iff fits ⟨by decide, by decide⟩
    ⟨by decide, by decide⟩ {}).mpr hring
  obtain ⟨fab, ar, hfab, har, -, hhops, -, -, hbuilt, hspecs⟩ := buildAllReduce_eq hsc
  have hfacts := (FatTreeScenario.Built.allReduce config sc hsc).facts
    (by decide : FatTree.PortsFit 140)
  rw [FatTree.buildFatTree_eq fits] at hfab
  obtain rfl := Option.some.inj hfab
  obtain ⟨hflows, htwo⟩ := made_eq (makeRingAllReduce_made har)
  rw [htwo] at hhops
  refine ⟨sc, hsc, ?_, hhops⟩
  have hfabric : sc.sim.fabric = fabric := hbuilt.trans fabric_eq.symm
  have hroutes : sc.sim.routes = simulation.routes := by
    rw [routes_eq, ← fabric_eq, ← hfabric]
    exact hfacts.routes
  have htransport : sc.sim.transport = simulation.transport := by
    refine hfacts.transport.trans ?_
    dsimp only
    rw [hhops]
    decide +kernel
  rw [hflows] at hspecs
  generalize sc.sim = sim at hfabric hroutes htransport hspecs
  cases sim
  dsimp only at hfabric hroutes htransport hspecs
  subst hfabric hroutes htransport hspecs
  simp only [simulation]

end Astray

/-- Where the table has `2 ^ 32` entries or more, its offsets wrap: two packets circle through
the fabric, nothing is dropped, and the timeout fires. -/
theorem auto_timeout_never_early_wrapped : ¬ ∀ (draws : Draws) (sc : FatTreeScenario),
    sc.Built draws → FatTree.PortsFit sc.topology.k → sc.transport.rtoNs = 0 → sc.SizedExactly →
    sc.sim.transport.Accepted → sc.topology.fabricLink = sc.topology.hostLink →
    sc.transport.ackBytes ≤ sc.mtuBytes → ∀ (algo : RoutingAlgorithm) (seed : UInt64) (s : State),
      sc.sim.Reachable (algo.policy seed) s → s.wrapped = false →
        (∀ e queue, s.queue.pop = some (e, queue) → ∀ f idx a, e.body = .timeout f idx a →
          s.pktAttempt f idx = a → (s.pkt f idx).acked = false → (s.tx f).failed = false →
          LostAttempt sc.sim s f idx a) ∧
        (NoDrops s → s.stats.packetsRetransmitted = 0 ∧ ∀ f, f < sc.sim.flowCount →
          (s.result f).packetsRetransmitted = 0 ∧ (s.result f).failed = false) := by
  intro h
  obtain ⟨sc, hsc, hsim, hhops⟩ := Astray.scenario
  obtain ⟨hw, hroomy, hresent⟩ := Astray.astray_resent
  have hreach : sc.sim.Reachable (RoutingAlgorithm.staticFirst.policy 0) Astray.astray := by
    rw [hsim]
    exact Astray.reachable_astray
  have hsized : FatTreeScenario.SizedExactly ⟨Astray.config.topology, Astray.config.transport, 1,
      2, sc.sim⟩ := by
    rw [hsim]
    exact ⟨by decide, by decide +kernel⟩
  rw [← hhops] at hsized
  have haccepted : sc.sim.transport.Accepted := by
    rw [hsim]
    exact ⟨by decide +kernel, by decide, by decide, by decide, by decide⟩
  have hquiet := (h {} _ (.allReduce Astray.config sc hsc) (by decide : FatTree.PortsFit 140) rfl
    hsized haccepted rfl (by decide : 1 ≤ 1) .staticFirst 0 Astray.astray hreach hw).2
  have hzero := (hquiet (hreach.noDrops_iff.mpr (Lossless.of_all hroomy))).1
  rw [hresent] at hzero
  exact absurd hzero (by decide)

end FabricSim
