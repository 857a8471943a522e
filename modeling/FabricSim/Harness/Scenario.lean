import FabricSim.Core.Pair
import FabricSim.Harness.ClosedForm
import FabricSim.Workload.AllReduce

/-!
# The scenarios

What the command line builds: one flow on a leaf-spine fabric (`smoke`), a
permutation and a ring all-reduce on a fat tree. A builder makes the fabric and
its route table, sizes the retransmission timeout unless the caller did, adds the
flows of the workload in order, and computes the closed form it reports next to
the measurement. An assertion that fails on the way makes the result `none`.
-/

namespace FabricSim

/-- The transport, its timeout sized from the topology when the caller left it at
0. -/
def sizedTransport (t : TransportConfig) (link : LinkParams) (mtuBytes hops : Nat) :
    TransportConfig :=
  if t.rtoNs = 0 then
    { t with
      rtoNs := defaultRtoNs hops (serializationNs mtuBytes link.rate)
        (serializationNs t.ackBytes link.rate) link.propDelayNs (u32 link.queueCapacityPkts) }
  else t

/-- `add_flow` for each of the flows, in order. -/
def Simulation.addFlows (sim : Simulation) (flows : List FlowSpec) : Option Simulation :=
  flows.foldlM Simulation.addFlow sim

/-- The pacing period of a source that offers `loadPermille` of the line rate. -/
def pacingNs (serNs loadPermille : Nat) : Nat := u64 (serNs * 1000) / loadPermille

/-- The packets of a transfer, as the harness counts them. -/
def packetCount (bytes mtuBytes : Nat) : Nat := u32 (u64 (bytes + mtuBytes - 1) / mtuBytes)

/-- Equal rates and delays on the links of the hosts and of the switches. -/
def homogeneous (hostLink fabricLink : LinkParams) : Bool :=
  hostLink.rate == fabricLink.rate && hostLink.propDelayNs == fabricLink.propDelayNs

/-! ## smoke -/

structure SmokeConfig where
  topology : LeafSpineConfig := {}
  flowBytes : Nat := 1500000
  mtuBytes : Nat := 1500
  srcHost : Nat := 0
  dstHost : Nat := 4
  windowPkts : Nat := 512

structure SmokeScenario where
  sim : Simulation
  flow : FlowId
  packets : Nat
  hops : Nat
  analyticalNs : Nat
  analyticalExact : Bool

namespace SmokeConfig

variable (cfg : SmokeConfig)

def hops : Nat :=
  if cfg.srcHost / cfg.topology.hostsPerLeaf = cfg.dstHost / cfg.topology.hostsPerLeaf then
    kLeafSpineSameLeafHops
  else kLeafSpineCrossLeafHops

def packets : Nat := packetCount cfg.flowBytes cfg.mtuBytes

def transport : TransportConfig := sizedTransport {} cfg.topology.hostLink cfg.mtuBytes cfg.hops

def serNs : Nat := serializationNs cfg.mtuBytes cfg.topology.hostLink.rate

def ackSerNs : Nat := serializationNs cfg.transport.ackBytes cfg.topology.hostLink.rate

def analyticalNs : Nat :=
  analyticalFctNs cfg.packets cfg.hops cfg.serNs cfg.topology.hostLink.propDelayNs

def analyticalExact : Bool :=
  homogeneous cfg.topology.hostLink cfg.topology.fabricLink &&
    cfg.flowBytes % cfg.mtuBytes == 0 &&
    serializationIsExact cfg.mtuBytes cfg.topology.hostLink.rate &&
    windowIsSufficient cfg.windowPkts cfg.packets cfg.hops cfg.serNs cfg.ackSerNs
      cfg.topology.hostLink.propDelayNs

/-- The one flow of the scenario. -/
def spec (f : Fabric) : FlowSpec where
  src := f.hostAt cfg.srcHost
  dst := f.hostAt cfg.dstHost
  sizeBytes := cfg.flowBytes
  mtuBytes := cfg.mtuBytes
  windowPkts := cfg.windowPkts

end SmokeConfig

def buildSmoke (cfg : SmokeConfig) : Option SmokeScenario := do
  let fab ← buildLeafSpine cfg.topology
  guard (cfg.srcHost < fab.hostCount ∧ cfg.dstHost < fab.hostCount)
  let sim := (Simulation.create fab (RouteTable.buildShortestPath fab)).setTransport cfg.transport
  let flow := sim.flowCount
  let sim ← sim.addFlow (cfg.spec fab)
  return ⟨sim, flow, cfg.packets, cfg.hops, cfg.analyticalNs, cfg.analyticalExact⟩

/-! ## permutation -/

structure PermutationConfig where
  topology : FatTreeConfig := {}
  workload : PermutationParams := {}
  routing : RoutingAlgorithm := .ecmp
  transport : TransportConfig := {}

structure PermutationScenario where
  sim : Simulation
  k : Nat
  flowCount : Nat
  routing : RoutingAlgorithm
  seed : UInt64
  bestCaseNs : Nat
  analyticalExact : Bool

/-- The uncongested time of one flow of the workload. -/
def permutationFlowLowerBoundNs (cfg : PermutationConfig) (srcHost dstHost : Nat) : Nat :=
  let w := cfg.workload
  let ser := serializationNs w.mtuBytes cfg.topology.hostLink.rate
  pacedFctNs (packetCount w.flowBytes w.mtuBytes) (fatTreeHops cfg.topology.k srcHost dstHost) ser
    (pacingNs ser w.loadPermille) cfg.topology.hostLink.propDelayNs

/-- The least of the flows' uncongested times; 0 stands for none yet. -/
def bestCase (cfg : PermutationConfig) (f : Fabric) (flows : List FlowSpec) : Nat :=
  flows.zipIdx.foldl (fun best fi =>
    let lb := permutationFlowLowerBoundNs cfg fi.2 (f.hostIndex fi.1.dst)
    if best = 0 ∨ lb < best then lb else best) 0

def buildPermutation (cfg : PermutationConfig) (draws : Draws) : Option PermutationScenario := do
  let fab ← buildFatTree cfg.topology
  let flows ← makePermutation fab cfg.workload draws
  let hostLink := cfg.topology.hostLink
  let mtu := cfg.workload.mtuBytes
  let transport := sizedTransport cfg.transport hostLink mtu kFatTreeCrossPodHops
  let sim ← ((Simulation.create fab (RouteTable.buildShortestPath fab)).setTransport
    transport).addFlows flows
  return {
    sim
    k := cfg.topology.k
    flowCount := u32 flows.length
    routing := cfg.routing
    seed := cfg.workload.seed
    bestCaseNs := bestCase cfg fab flows
    analyticalExact :=
      homogeneous hostLink cfg.topology.fabricLink &&
        cfg.workload.flowBytes % mtu == 0 && serializationIsExact mtu hostLink.rate &&
        windowIsSufficient cfg.workload.windowPkts (packetCount cfg.workload.flowBytes mtu)
          kFatTreeCrossPodHops (serializationNs mtu hostLink.rate)
          (serializationNs transport.ackBytes hostLink.rate) hostLink.propDelayNs }

/-! ## all-reduce -/

structure AllReduceConfig where
  topology : FatTreeConfig := {}
  workload : AllReduceParams := {}
  routing : RoutingAlgorithm := .ecmp
  transport : TransportConfig := {}

structure AllReduceScenario where
  sim : Simulation
  gpus : Nat
  steps : Nat
  chunkPackets : Nat
  hops : Nat
  chunkBytes : Nat
  analyticalNs : Nat
  routing : RoutingAlgorithm
  seed : UInt64
  uniformHops : Bool
  analyticalExact : Bool

namespace AllReduce

/-- The links from rank `r` to the next one. -/
def ringHops (k : Nat) (ar : AllReduce) (r : Nat) : Nat :=
  fatTreeHops k (hostOf ar.rankToHost r) (hostOf ar.rankToHost (u32 (r + 1) % ar.gpus))

/-- The most links between two neighbours of the ring. -/
def maxHops (k : Nat) (ar : AllReduce) : Nat :=
  (List.range ar.gpus).foldl (fun m r => if m < ar.ringHops k r then ar.ringHops k r else m) 0

/-- All neighbours of the ring are as far apart as the first two. -/
def uniformHops (k : Nat) (ar : AllReduce) : Bool :=
  (List.range ar.gpus).all fun r => ar.ringHops k r == ar.ringHops k 0

end AllReduce

namespace AllReduceConfig

variable (cfg : AllReduceConfig)

/-- The workload's parameters, with the arity of the fabric. -/
def params : AllReduceParams := { cfg.workload with fatTreeK := cfg.topology.k }

def serNs : Nat := serializationNs cfg.params.mtuBytes cfg.topology.hostLink.rate

def periodNs : Nat := pacingNs cfg.serNs cfg.params.loadPermille

/-- The transport of the run, its timeout sized for the longest hop of the ring. -/
def sized (ar : AllReduce) : TransportConfig :=
  sizedTransport cfg.transport cfg.topology.hostLink cfg.params.mtuBytes
    (ar.maxHops cfg.topology.k)

/-- The hop count that is reported: that of every neighbour, or of the furthest. -/
def hops (ar : AllReduce) : Nat :=
  if ar.uniformHops cfg.topology.k then ar.ringHops cfg.topology.k 0
  else ar.maxHops cfg.topology.k

def analyticalNs (ar : AllReduce) : Nat :=
  allReduceAnalyticalNs ar.steps ar.chunkPackets (cfg.hops ar) cfg.serNs cfg.periodNs
    cfg.topology.hostLink.propDelayNs

def analyticalExact (ar : AllReduce) : Bool :=
  let hostLink := cfg.topology.hostLink
  ar.uniformHops cfg.topology.k && ar.ringHops cfg.topology.k 0 == kFatTreeSameEdgeHops &&
    ar.chunkExact && homogeneous hostLink cfg.topology.fabricLink &&
    serializationIsExact cfg.params.mtuBytes hostLink.rate &&
    ackIsFree (cfg.sized ar).ackBytes hostLink.rate &&
    u64 (cfg.serNs * 1000) % cfg.params.loadPermille == 0 &&
    windowIsSufficient cfg.params.windowPkts ar.chunkPackets (ar.ringHops cfg.topology.k 0)
      cfg.serNs (serializationNs (cfg.sized ar).ackBytes hostLink.rate) hostLink.propDelayNs

end AllReduceConfig

def buildAllReduce (cfg : AllReduceConfig) (draws : Draws) : Option AllReduceScenario := do
  let fab ← buildFatTree cfg.topology
  let ar ← makeRingAllReduce fab cfg.params draws
  let sim ← ((Simulation.create fab (RouteTable.buildShortestPath fab)).setTransport
    (cfg.sized ar)).addFlows ar.flows
  return {
    sim
    gpus := ar.gpus
    steps := ar.steps
    chunkPackets := ar.chunkPackets
    hops := cfg.hops ar
    chunkBytes := ar.chunkBytes
    analyticalNs := cfg.analyticalNs ar
    routing := cfg.routing
    seed := cfg.params.seed
    uniformHops := ar.uniformHops cfg.topology.k
    analyticalExact := cfg.analyticalExact ar }

end FabricSim
