import FabricSim.Apps.Preconditions
import FabricSim.Core.ClockBound
import FabricSim.Core.Ending
import FabricSim.Core.Losses
import FabricSim.Core.Population
import FabricSim.Harness.AckLimited
import FabricSim.Harness.RingBound
import FabricSim.Metrics.Summary
import FabricSim.Workload.Streams

/-!
# The program

From the arguments to the exit code. A job builds its scenario, runs it, and prints a report
that ends with the exit code; what is printed is a record of the values, without the texts
around them and the times of the wall clock. `words` is the fuel of one draw and `turns` that
of the hot loop.

An accepted command line whose ring fits does not keep the program from returning
(`fabricsim_returns`). What it prints then is so of the last state of the run: the counters
(`Tail.Sound`), and the exit code with its warning (`PermutationReport.Sound`,
`AllReduceReport.Sound`). The flow of the default scenario is on time to the nanosecond
(`smoke_exact`).
-/

namespace FabricSim

/-- `routing_name`. -/
def routingName : RoutingAlgorithm → String
  | .staticFirst => "static"
  | .ecmp => "ecmp"

/-- `build_permutation`, on the draws of its own streams. -/
def buildPermutationOn (engine : UInt64 → Nat → UInt64) (words : Nat) (cfg : PermutationConfig) :
    Option PermutationScenario := do
  let fab ← buildFatTree cfg.topology
  let draws ← Draws.ofStreams engine words cfg.workload.seed (u32 fab.hostCount)
    cfg.workload.maxStartJitterNs
  buildPermutation cfg draws

/-- `build_all_reduce`, on the draws of its own stream. -/
def buildAllReduceOn (engine : UInt64 → Nat → UInt64) (words : Nat) (cfg : AllReduceConfig) :
    Option AllReduceScenario := do
  let fab ← buildFatTree cfg.topology
  let ports ← Drawing.each (fun _ => portDraw words) (List.range (cfg.params.ranks (u32 fab.hostCount)))
    (RandomStream.create engine cfg.params.seed kStreamPorts)
  buildAllReduce cfg { port := fun r => ports.1.getD r 0 }

namespace CommandLine

/-! ## What is printed -/

/-- What `print_tail` prints. -/
structure Tail where
  stats : RunStats
  digest : UInt64

/-- So many of so many flows never completed; for percentiles, over how many they are. -/
structure Warning where
  incomplete : Nat
  total : Nat
  survivors : Option Nat
  deriving DecidableEq

structure SmokeReport where
  spineCount : Nat
  leafCount : Nat
  hosts : Nat
  ports : Nat
  flowBytes : Nat
  mtuBytes : Nat
  packets : Nat
  hops : Nat
  windowPkts : Nat
  ackBytes : Nat
  rtoNs : Nat
  fctNs : Nat
  analyticalNs : Nat
  approximate : Bool
  deltaNs : Int
  tail : Tail
  code : Nat

structure PermutationReport where
  k : Nat
  hosts : Nat
  switches : Nat
  ports : Nat
  paths : Nat
  routing : String
  seed : UInt64
  flows : Nat
  flowBytes : Nat
  mtuBytes : Nat
  loadPermille : Nat
  windowPkts : Nat
  ackBytes : Nat
  rtoNs : Nat
  p50Ns : Nat
  p90Ns : Nat
  p99Ns : Nat
  maxNs : Nat
  bestCaseNs : Nat
  tail : Tail
  warning : Option Warning
  code : Nat

structure AllReduceReport where
  k : Nat
  hosts : Nat
  switches : Nat
  ports : Nat
  gpus : Nat
  steps : Nat
  bufferBytes : Nat
  chunkBytes : Nat
  chunkPackets : Nat
  hops : Nat
  uniformHops : Bool
  placement : RingPlacement
  routing : String
  seed : UInt64
  windowPkts : Nat
  ackBytes : Nat
  rtoNs : Nat
  measuredNs : Nat
  analyticalNs : Nat
  analyticalExact : Bool
  tail : Tail
  warning : Option Warning
  code : Nat

/-- The cast of a 64-bit time to a signed one. -/
def int64 (n : Nat) : Int := (BitVec.ofNat 64 n).toInt

def tailOf (sim : Simulation) (s : State) : Tail := ⟨s.stats, resultDigest (sim.results s)⟩

def smokeReport (cfg : SmokeConfig) (sc : SmokeScenario) (s : State) : SmokeReport :=
  let r := s.result sc.flow
  { spineCount := cfg.topology.spineCount
    leafCount := cfg.topology.leafCount
    hosts := sc.sim.fabric.hostCount
    ports := sc.sim.fabric.portCount
    flowBytes := cfg.flowBytes
    mtuBytes := cfg.mtuBytes
    packets := sc.packets
    hops := sc.hops
    windowPkts := cfg.windowPkts
    ackBytes := sc.sim.transport.ackBytes
    rtoNs := sc.sim.transport.rtoNs
    fctNs := r.fctNs
    analyticalNs := sc.analyticalNs
    approximate := !sc.analyticalExact
    deltaNs := int64 r.fctNs - int64 sc.analyticalNs
    tail := tailOf sc.sim s
    code := if r.complete ∧ s.stats.bytesDropped = 0 then 0 else 1 }

def permutationReport (opt : Options) (sc : PermutationScenario) (s : State) : PermutationReport :=
  let fct := summarizeFct (sc.sim.results s)
  { k := opt.k
    hosts := sc.sim.fabric.hostCount
    switches := fatTreeSwitchCount opt.k
    ports := sc.sim.fabric.portCount
    paths := fatTreeCrossPodPaths opt.k
    routing := routingName sc.routing
    seed := sc.seed
    flows := sc.flowCount
    flowBytes := opt.flowBytes
    mtuBytes := opt.mtuBytes
    loadPermille := opt.loadPermille
    windowPkts := opt.windowPkts
    ackBytes := sc.sim.transport.ackBytes
    rtoNs := sc.sim.transport.rtoNs
    p50Ns := fct.p50Ns
    p90Ns := fct.p90Ns
    p99Ns := fct.p99Ns
    maxNs := fct.maxNs
    bestCaseNs := sc.bestCaseNs
    tail := tailOf sc.sim s
    -- the percentiles of the survivors are too good
    warning := if fct.flowsIncomplete = 0 then none
      else some ⟨fct.flowsIncomplete, fct.flowsTotal, some fct.flowsComplete⟩
    code := if fct.flowsIncomplete = 0 then 0 else 1 }

def allReduceReport (opt : Options) (sc : AllReduceScenario) (s : State) : AllReduceReport :=
  let measured := collectiveTimeNs (sc.sim.results s)
  { k := opt.k
    hosts := sc.sim.fabric.hostCount
    switches := fatTreeSwitchCount opt.k
    ports := sc.sim.fabric.portCount
    gpus := sc.gpus
    steps := sc.steps
    bufferBytes := opt.bufferBytes
    chunkBytes := sc.chunkBytes
    chunkPackets := sc.chunkPackets
    hops := sc.hops
    uniformHops := sc.uniformHops
    placement := opt.placement
    routing := routingName sc.routing
    seed := sc.seed
    windowPkts := opt.windowPkts
    ackBytes := sc.sim.transport.ackBytes
    rtoNs := sc.sim.transport.rtoNs
    measuredNs := measured
    analyticalNs := sc.analyticalNs
    analyticalExact := sc.analyticalExact
    tail := tailOf sc.sim s
    warning := if measured = 0 then
        some ⟨s.stats.flowsIncomplete, s.stats.flowsComplete + s.stats.flowsIncomplete, none⟩
      else none
    code := if measured = 0 then 1 else 0 }

/-! ## The jobs -/

def runSmoke (turns : Nat) : Option SmokeReport := do
  let cfg : SmokeConfig := {}
  let sc ← buildSmoke cfg
  let s ← sc.sim.run StaticFirstPolicy turns
  return smokeReport cfg sc s

def runPermutation (engine : UInt64 → Nat → UInt64) (words turns : Nat) (opt : Options) :
    Option PermutationReport := do
  let sc ← buildPermutationOn engine words opt.permutation
  let s ← sc.sim.run (sc.routing.policy sc.seed) turns
  return permutationReport opt sc s

def runAllReduce (engine : UInt64 → Nat → UInt64) (words turns : Nat) (opt : Options) :
    Option AllReduceReport := do
  let sc ← buildAllReduceOn engine words opt.allReduce
  let s ← sc.sim.run (sc.routing.policy sc.seed) turns
  return allReduceReport opt sc s

/-- How the program ends. -/
inductive Outcome where
  | stopped (e : Exit)
  | smoke (r : SmokeReport)
  | permutation (r : PermutationReport)
  | allReduce (r : AllReduceReport)

def Outcome.code : Outcome → Nat
  | .stopped e => e.code
  | .smoke r => r.code
  | .permutation r => r.code
  | .allReduce r => r.code

/-- `none` when an assertion of a builder fails or the fuel is out. -/
def fabricsim (engine : UInt64 → Nat → UInt64) (words turns : Nat) (args : List String) :
    Option Outcome :=
  match main args with
  | .error e => some (.stopped e)
  | .ok .smoke => (runSmoke turns).map .smoke
  | .ok (.permutation opt) => (runPermutation engine words turns opt).map .permutation
  | .ok (.allReduce opt) => (runAllReduce engine words turns opt).map .allReduce

/-- Fuel for the loop beyond some bound makes the program end so. -/
def Ends (engine : UInt64 → Nat → UInt64) (words : Nat) (args : List String) (out : Outcome) :
    Prop :=
  ∃ N, ∀ turns, N ≤ turns → fabricsim engine words turns args = some out

end CommandLine

/-! ## What the printed numbers say -/

open CommandLine State Finset

/-- The printed counters, for a run whose last state is `s`. -/
structure CommandLine.Tail.Sound (t : Tail) (sim : Simulation) (s : State) : Prop where
  data : t.stats.bytesInjected = t.stats.bytesDelivered + t.stats.bytesDropped
  acks : t.stats.ackBytesInjected = t.stats.ackBytesDelivered + t.stats.ackBytesDropped
  retransmits : t.stats.packetsRetransmitted =
    ∑ f ∈ range sim.flowCount, s.retransmissions f
  complete : t.stats.flowsComplete =
    (List.range sim.flowCount).countP fun f => (s.result f).complete
  incomplete : t.stats.flowsComplete + t.stats.flowsIncomplete = sim.flowCount
  failed : t.stats.flowsFailed = (List.range sim.flowCount).countP fun f => (s.result f).failed
  gaveUp : sim.packetsExact < 2 ^ 32 → 0 < t.stats.flowsIncomplete → 0 < t.stats.flowsFailed
  events : t.stats.eventsProcessed = s.dispatchTimes.length

section Tail

variable {sim : Simulation} {policy : RoutingPolicy} {s : State}

theorem tailOf_sound (hs : sim.Reachable policy s) (hd : s.Drained) (hr : sim.Routed)
    (hm : policy.Member) : (tailOf sim (sim.endRun s)).Sound sim s := by
  have hstats : (tailOf sim (sim.endRun s)).stats = _ := Simulation.endRun_stats hs
  have hconserved := hs.conserved hr.steered hm
  have hbytes : ∀ k, s.stats.injected k = s.stats.delivered k + s.stats.dropped k := by
    intro k
    rw [hconserved.bytes k]
    simp [hd.onLink hs.coherent]
  have hkept := hs.kept
  refine ⟨?_, ?_, ?_, ?_, Simulation.complete_add_incomplete hs, ?_, fun htotal hsome => ?_, ?_⟩
  · rw [hstats]
    exact hbytes .data
  · rw [hstats]
    exact hbytes .ack
  · rw [hstats]
    exact (sum_again hs).symm
  · rw [hstats]
  · rw [hstats]
  · -- were no flow given up, all would be complete
    by_contra hnone
    rw [hstats] at hnone
    have hfailed := List.countP_eq_zero.mp (Nat.eq_zero_of_not_pos hnone)
    refine hsome.ne' ((Simulation.flowsIncomplete_eq_zero_iff hs).mpr fun f hf => ?_)
    refine hs.all_complete htotal hd (fun g hg => ?_) hf
    rw [← (hs.receiver g).failed_eq]
    simpa using hfailed g (List.mem_range.mpr hg)
  · rw [hstats]
    exact congrArg RunStats.Kept.eventsProcessed hkept

/-- The 32 bits of a summary hold the flows of a run, and then it counts what the run did. -/
theorem summary_counts (hs : sim.Reachable policy s) (hfit : sim.flowCount < 2 ^ 32) :
    (summarizeFct (sim.results s)).flowsTotal = sim.flowCount ∧
      (summarizeFct (sim.results s)).flowsComplete = (sim.endRun s).stats.flowsComplete ∧
      (summarizeFct (sim.results s)).flowsIncomplete = (sim.endRun s).stats.flowsIncomplete := by
  have hlen : (sim.results s).length = sim.flowCount := by
    unfold Simulation.results
    rw [List.length_map, List.length_range]
  obtain ⟨htotal, hcomplete, hadd⟩ := (flows_add (sim.results s)).2 (hlen ▸ hfit)
  have hsame : (summarizeFct (sim.results s)).flowsComplete = (sim.endRun s).stats.flowsComplete := by
    rw [hcomplete, Simulation.endRun_stats hs]
    unfold Simulation.results
    rw [← List.countP_eq_length_filter, List.countP_map]
    rfl
  have hall := Simulation.complete_add_incomplete hs
  refine ⟨htotal.trans hlen, hsame, ?_⟩
  omega

end Tail

/-- A collective has a time only if all of its flows are complete. -/
theorem complete_of_collectiveTimeNs {results : List FlowResult}
    (h : collectiveTimeNs results ≠ 0) : ∀ r ∈ results, r.complete = true := by
  have hloop : ∀ last, latestFinish last results ≠ 0 → ∀ r ∈ results, r.complete = true := by
    clear h
    induction results with
    | nil => exact fun _ _ _ hr => nomatch hr
    | cons r results ih =>
      intro last hne
      unfold latestFinish at hne
      by_cases hc : r.complete = false
      · exact absurd (if_pos hc) hne
      · rw [if_neg hc] at hne
        exact List.forall_mem_cons.mpr ⟨by simpa using hc, ih _ hne⟩
  exact hloop 0 h

/-! ## The jobs return -/

namespace Options.Checked

variable {engine : UInt64 → Nat → UInt64} {words : Nat} {opt : Options} (h : opt.Checked)

include h

/-- The fabric of both jobs. -/
theorem fabric_builds : buildFatTree opt.topology =
      some (FatTree.builder opt.topology (opt.k / 2)).build ∧
    u32 (FatTree.builder opt.topology (opt.k / 2)).build.hostCount = opt.k ^ 3 / 4 := by
  have hfits : FatTree.Fits opt.topology.k (opt.k / 2) := h.fits
  have hcount : (FatTree.builder opt.topology (opt.k / 2)).build.hostCount =
      FatTree.hostCount (opt.k / 2) := FatTree.switchesFirst.hostCount
  refine ⟨FatTree.buildFatTree_eq hfits, ?_⟩
  rw [hcount, u32_of_lt h.fits.hosts_lt, h.fits.cube]

theorem hosts_lt : opt.k ^ 3 / 4 < 2 ^ 32 := by
  rw [h.fits.cube]
  exact h.fits.hosts_lt

/-- One flow from every host. -/
theorem flowCount_eq {draws : Draws} {sc : PermutationScenario}
    (hsc : buildPermutation opt.permutation draws = some sc) : sc.sim.flowCount = opt.k ^ 3 / 4 := by
  obtain ⟨hfab, hcount⟩ := h.fabric_builds
  have hfab : buildFatTree opt.permutation.topology = _ := hfab
  unfold buildPermutation at hsc
  rw [hfab, Option.bind_eq_bind, Option.bind_some] at hsc
  obtain ⟨flows, hflows, hsc⟩ := Option.bind_eq_some_iff.mp hsc
  obtain ⟨sim, hsim, hsc⟩ := Option.bind_eq_some_iff.mp hsc
  obtain rfl := Option.some.inj hsc
  obtain ⟨-, -, -, hspecs⟩ := Simulation.addFlows_eq hsim
  obtain rfl : sim.specs = flows := hspecs
  show sim.specs.length = _
  rw [makePermutation_eq hflows, List.length_map, List.length_range, hcount]

/-- The permutation is built from streams with a word for every host. -/
theorem permutation_on (hrich : ∀ name ∈ [kStreamPermutation, kStreamPorts, kStreamStartTimes],
    (RandomStream.create engine (UInt64.ofNat opt.seed) name).Rich words (opt.k ^ 3 / 4)) :
    ∃ draws sc, buildPermutationOn engine words opt.permutation = some sc ∧
      buildPermutation opt.permutation draws = some sc ∧ sc.sim.transport.Accepted := by
  obtain ⟨hfab, hcount⟩ := h.fabric_builds
  have hfab : buildFatTree opt.permutation.topology = _ := hfab
  obtain ⟨draws, hdraws⟩ := Option.isSome_iff_exists.mp (isSome_ofStreams 0 hrich)
  obtain ⟨hvalid, -⟩ := ofStreams_valid (h.hosts_lt).le hdraws
  obtain ⟨sc, hsc, ht⟩ := h.permutation_builds hvalid
  refine ⟨draws, sc, ?_, hsc, ht⟩
  unfold buildPermutationOn
  -- the builder counts the hosts of its fabric, and the streams hold a word for each
  rw [hfab, Option.bind_eq_bind, Option.bind_some, hcount]
  change (Draws.ofStreams engine words (UInt64.ofNat opt.seed) (opt.k ^ 3 / 4) 0).bind _ = _
  rw [hdraws, Option.bind_some]
  exact hsc

/-- The ring is built from a stream with a word for every rank. -/
theorem allReduce_on (hring : opt.allReduce.params.Fits (opt.k ^ 3 / 4))
    (hrich : (RandomStream.create engine (UInt64.ofNat opt.seed) kStreamPorts).Rich words
      (opt.allReduce.params.ranks (opt.k ^ 3 / 4))) :
    ∃ draws sc, buildAllReduceOn engine words opt.allReduce = some sc ∧
      buildAllReduce opt.allReduce draws = some sc ∧ sc.sim.transport.Accepted := by
  obtain ⟨hfab, hcount⟩ := h.fabric_builds
  have hfab : buildFatTree opt.allReduce.topology = _ := hfab
  obtain ⟨ports, hports⟩ := Option.isSome_iff_exists.mp (isSome_ports hrich)
  obtain ⟨sc, hsc, ht, -⟩ :=
    (h.allReduce_builds_iff { port := fun r => ports.1.getD r 0 }).mpr hring
  refine ⟨_, sc, ?_, hsc, ht⟩
  unfold buildAllReduceOn
  rw [hfab, Option.bind_eq_bind, Option.bind_some, hcount]
  change (Drawing.each _ (List.range (opt.allReduce.params.ranks (opt.k ^ 3 / 4)))
    (RandomStream.create engine (UInt64.ofNat opt.seed) kStreamPorts)).bind _ = _
  rw [hports, Option.bind_some]
  exact hsc

end Options.Checked

/-! ## The default flow -/

namespace SmokeConfig

theorem default_builds : (buildSmoke {}).isSome = true := by decide +kernel

theorem default_checked : ({} : SmokeConfig).Checked :=
  checked (by decide +kernel) (by decide)

end SmokeConfig

section Smoke

variable {sc : SmokeScenario} {s : State} (hbuilt : buildSmoke {} = some sc)
  (hs : sc.sim.Reachable StaticFirstPolicy s)

include hbuilt

theorem smoke_accepted : sc.sim.transport.Accepted := by
  have h := buildSmoke_facts hbuilt
  apply h.accepted
  rw [h.transport]
  decide +kernel

/-- Nothing in the scenario waits for longer than the timeout. -/
theorem smoke_stride : sc.sim.Stride ({} : SmokeConfig).transport.rtoNs := by
  have h := buildSmoke_facts hbuilt
  have hcheck := SmokeConfig.default_checked
  refine ⟨h.transport ▸ le_rfl, fun p hp => ?_, fun f hf => ?_⟩
  · obtain ⟨hrate, hdelay⟩ := h.linksAlike hcheck.alike p hp
    rw [hrate, hdelay]
    decide +kernel
  · rw [h.flowCount] at hf
    obtain rfl := Nat.lt_one_iff.mp hf
    rw [(h.uniform hcheck.alike hcheck.whole hcheck.ser_pos).period]
    decide +kernel

include hs

/-- A thousand packets, eight attempts at each, over four links there and back. -/
theorem smoke_unwrapped : s.wrapped = false := by
  have h := buildSmoke_facts hbuilt
  have hpackets : ({} : SmokeConfig).packets = 1000 := by decide +kernel
  have hhops : ({} : SmokeConfig).hops = 4 := by decide +kernel
  have hattempts : sc.sim.transport.maxAttempts = 8 := by
    rw [h.transport]
    decide +kernel
  have hbound : sc.sim.eventBound = 168002 := by
    unfold Simulation.eventBound
    rw [h.flowCount, sum_range_one, h.packetsTotal, h.dist, hattempts, hpackets, hhops]
  -- the clock gains a timeout at most with each event, and starts at 0
  refine (hs.soon (h.routed (by decide)) staticFirst_member (smoke_accepted hbuilt) (smoke_stride hbuilt)
    (S := 0) (fun f hf => ?_) ?_).wrapped
  · rw [h.flowCount] at hf
    obtain rfl := Nat.lt_one_iff.mp hf
    exact h.start_eq.le
  · rw [hbound]
    decide +kernel

/-- Acks are smaller than packets, and the window holds a round trip. -/
theorem smoke_exact (hd : s.Drained) : sc.Identity s ∧ NoDrops s := by
  have h := buildSmoke_facts hbuilt
  have hcheck := SmokeConfig.default_checked
  have hw := smoke_unwrapped hbuilt hs
  have ht := smoke_accepted hbuilt
  have htable : LeafSpine.TableFits ({} : SmokeConfig).topology := by decide
  have hl := h.lone htable .staticFirst 0
  have hu := h.uniform hcheck.alike hcheck.whole hcheck.ser_pos
  have hle : ∀ k, ({} : SmokeConfig).kindNs k ≤ ({} : SmokeConfig).kindNs .data := by
    intro k
    cases k with
    | data => exact le_rfl
    | ack => decide +kernel
  have hroom : ∀ p, p < sc.sim.fabric.portCount → 0 < (sc.sim.fabric.port p).queueCapacity := by
    intro p hp
    rcases h.ports hp with ⟨-, -, hcapacity⟩ | ⟨-, -, hcapacity⟩
    · rw [hcapacity]
      decide
    · rw [hcapacity]
      decide
  -- acks are no slower than data, and every queue has room for one
  have hloss := hu.lossless hl hs ht hle hroom hw
  have hkeep : ({} : SmokeConfig).AcksKeepUp := by
    unfold SmokeConfig.AcksKeepUp
    decide +kernel
  have hcovers := h.covers_of_fits hcheck.ser_pos (by decide) (by decide +kernel)
  have hs : sc.sim.Reachable (RoutingAlgorithm.staticFirst.policy 0) s := hs
  exact ⟨h.identity_of_keepUp htable hcheck hs ht hw hloss hd hkeep hcovers,
    hs.noDrops_iff.mpr hloss⟩

end Smoke

/-! ## Exit codes -/

/-- What the report of a permutation says, of a run whose last state is `s`. -/
structure CommandLine.PermutationReport.Sound (r : PermutationReport) (sim : Simulation)
    (s : State) : Prop where
  tail : r.tail.Sound sim s
  code : r.code = 0 ↔ ∀ f, f < sim.flowCount → (s.result f).complete = true
  warning : r.warning = if r.code = 0 then none
    else some ⟨r.tail.stats.flowsIncomplete, sim.flowCount, some r.tail.stats.flowsComplete⟩
  ordered : (∃ f, f < sim.flowCount ∧ (s.result f).complete = true) →
    r.p50Ns ≤ r.p90Ns ∧ r.p90Ns ≤ r.p99Ns ∧ r.p99Ns ≤ r.maxNs

/-- What the report of an all-reduce says; a time of 0 stands for none. -/
structure CommandLine.AllReduceReport.Sound (r : AllReduceReport) (sim : Simulation)
    (s : State) : Prop where
  tail : r.tail.Sound sim s
  complete : r.code = 0 → ∀ f, f < sim.flowCount →
    (s.result f).complete = true ∧ (s.result f).finishNs ≤ r.measuredNs
  code : s.wrapped = false → (∀ f, f < sim.flowCount → (s.result f).complete = true) → r.code = 0
  warning : r.warning = if r.code = 0 then none
    else some ⟨r.tail.stats.flowsIncomplete, sim.flowCount, none⟩

section Sound

variable {opt : Options} {s : State}

theorem permutationReport_sound {sc : PermutationScenario}
    (hs : sc.sim.Reachable (sc.routing.policy sc.seed) s) (hd : s.Drained) (hr : sc.sim.Routed)
    (hfit : sc.sim.flowCount < 2 ^ 32) :
    (permutationReport opt sc (sc.sim.endRun s)).Sound sc.sim s := by
  have htail := tailOf_sound hs hd hr (sc.routing.policy_member sc.seed)
  have hcode : (permutationReport opt sc (sc.sim.endRun s)).code = 0 ↔
      (summarizeFct (sc.sim.results s)).flowsIncomplete = 0 := by
    show (if (summarizeFct (sc.sim.results s)).flowsIncomplete = 0 then 0 else 1) = 0 ↔ _
    split <;> simp [*]
  obtain ⟨htotal, hcomplete, hincomplete⟩ := summary_counts hs hfit
  refine ⟨htail, ?_, ?_, fun ⟨f, hf, hc⟩ => ?_⟩
  · rw [hcode, hincomplete]
    exact Simulation.flowsIncomplete_eq_zero_iff hs
  · simp only [hcode]
    show (if (summarizeFct (sc.sim.results s)).flowsIncomplete = 0 then none
      else some (Warning.mk (summarizeFct (sc.sim.results s)).flowsIncomplete
        (summarizeFct (sc.sim.results s)).flowsTotal
        (some (summarizeFct (sc.sim.results s)).flowsComplete))) = _
    rw [htotal, hcomplete, hincomplete]
    rfl
  · have hlen : (completedFcts (sc.sim.results s)).length < 2 ^ 54 := by
      rw [length_completedFcts]
      refine (List.length_filter_le _ _).trans_lt ?_
      unfold Simulation.results
      rw [List.length_map, List.length_range]
      omega
    exact (figures_ordered ⟨_, mem_results.mpr ⟨f, hf, rfl⟩, hc⟩ hlen).2

theorem allReduceReport_sound {sc : AllReduceScenario} {draws : Draws} {ar : AllReduce}
    (hring : Ring opt.allReduce draws sc ar)
    (hs : sc.sim.Reachable (sc.routing.policy sc.seed) s) (hd : s.Drained) :
    (allReduceReport opt sc (sc.sim.endRun s)).Sound sc.sim s := by
  have hr := hring.facts.routed hring.table
  have hm := sc.routing.policy_member sc.seed
  have htail := tailOf_sound hs hd hr hm
  have hcode : (allReduceReport opt sc (sc.sim.endRun s)).code = 0 ↔
      collectiveTimeNs (sc.sim.results s) ≠ 0 := by
    show (if collectiveTimeNs (sc.sim.results s) = 0 then 1 else 0) = 0 ↔ _
    split <;> simp [*]
  refine ⟨htail, fun hzero f hf => ?_, fun hw hall => ?_, ?_⟩
  · have hall := complete_of_collectiveTimeNs (hcode.mp hzero)
    have hmem : s.result f ∈ sc.sim.results s := mem_results.mpr ⟨f, hf, rfl⟩
    exact ⟨hall _ hmem, finishNs_le_collectiveTimeNs hall hmem⟩
  · -- the first flow of the ring takes some time
    have hgpus := (makeRingAllReduce_made hring.made).gpus_ge
    obtain ⟨hf, -⟩ := hring.spec (show 0 < 2 * (ar.gpus - 1) by omega) hring.gpus_pos
    rw [Nat.zero_mul, Nat.zero_add] at hf
    have hc := hall 0 hf
    have hpos := (hs.receipt hw 0).total hc
    have hfinish := hs.start_add_le_finish hr hm hring.linksAlike hw hc hpos
    have hdelay : 0 < serializationNs ((sc.sim.spec 0).packetBytes 0)
        opt.allReduce.topology.hostLink.rate + opt.allReduce.topology.hostLink.propDelayNs :=
      Nat.add_pos_right _ (show 0 < 100 by decide)
    have hhops : 0 < sc.sim.hops 0 := hr.hops_pos hf
    have hway := Nat.mul_pos hhops hdelay
    have hlast : (s.result 0).finishNs ≤ collectiveTimeNs (sc.sim.results s) := by
      refine finishNs_le_collectiveTimeNs (fun r hmem => ?_) (mem_results.mpr ⟨0, hf, rfl⟩)
      obtain ⟨g, hg, rfl⟩ := mem_results.mp hmem
      exact hall g hg
    rw [hcode]
    omega
  · simp only [hcode]
    show (if collectiveTimeNs (sc.sim.results s) = 0 then some (Warning.mk
      (sc.sim.endRun s).stats.flowsIncomplete ((sc.sim.endRun s).stats.flowsComplete +
        (sc.sim.endRun s).stats.flowsIncomplete) none) else none) = _
    rw [Simulation.complete_add_incomplete hs, ite_not]
    rfl

end Sound

/-! ## The three jobs return -/

namespace CommandLine

/-- The default flow is delivered without a loss, in exactly the time of its closed form. -/
theorem runSmoke_returns :
    ∃ sc s, buildSmoke {} = some sc ∧ sc.sim.Reachable StaticFirstPolicy s ∧ s.Drained ∧
      (∃ N, ∀ turns, N ≤ turns →
        runSmoke turns = some (smokeReport {} sc (sc.sim.endRun s))) ∧
      (smokeReport {} sc (sc.sim.endRun s)).tail.Sound sc.sim s ∧
      (smokeReport {} sc (sc.sim.endRun s)).code = 0 ∧
      (smokeReport {} sc (sc.sim.endRun s)).deltaNs = 0 := by
  obtain ⟨sc, hbuilt⟩ := Option.isSome_iff_exists.mp SmokeConfig.default_builds
  have hr := (buildSmoke_facts hbuilt).routed (by decide)
  obtain ⟨N, s, hs, hd, hrun⟩ :=
    Simulation.exists_run hr staticFirst_member (smoke_accepted hbuilt)
  obtain ⟨⟨hcomplete, hfct⟩, hnone⟩ := smoke_exact hbuilt hs hd
  obtain ⟨hbytes, -⟩ := hs.bytesDropped_eq_zero hr staticFirst_member hnone
  refine ⟨sc, s, hbuilt, hs, hd, ⟨N, fun turns hturns => ?_⟩,
    tailOf_sound hs hd hr staticFirst_member, if_pos ⟨hcomplete, ?_⟩, ?_⟩
  · unfold runSmoke
    dsimp only
    rw [hbuilt, Option.bind_eq_bind, Option.bind_some, hrun turns hturns]
    rfl
  · -- the code asks for a difference of zero and for no byte lost
    show int64 (s.result sc.flow).fctNs - int64 sc.analyticalNs = 0
    rw [hfct, Int.sub_self]
  · rw [Simulation.endRun_stats hs]
    exact hbytes

variable {engine : UInt64 → Nat → UInt64} {words : Nat} {opt : Options}

theorem runPermutation_returns (h : opt.Checked) (htable : FatTree.TableFits opt.k)
    (hrich : ∀ name ∈ [kStreamPermutation, kStreamPorts, kStreamStartTimes],
      (RandomStream.create engine (UInt64.ofNat opt.seed) name).Rich words (opt.k ^ 3 / 4)) :
    ∃ sc s, sc.sim.Reachable (sc.routing.policy sc.seed) s ∧ s.Drained ∧
      sc.sim.flowCount = opt.k ^ 3 / 4 ∧
      (∃ N, ∀ turns, N ≤ turns → runPermutation engine words turns opt =
        some (permutationReport opt sc (sc.sim.endRun s))) ∧
      (permutationReport opt sc (sc.sim.endRun s)).Sound sc.sim s := by
  obtain ⟨draws, sc, hon, hbuilt, ht⟩ := h.permutation_on hrich
  have hr := ((FatTreeScenario.Built.permutation _ sc hbuilt).facts htable.ports).routed htable
  have hcount := h.flowCount_eq hbuilt
  obtain ⟨N, s, hs, hd, hrun⟩ := Simulation.exists_run hr (sc.routing.policy_member sc.seed) ht
  refine ⟨sc, s, hs, hd, hcount, ⟨N, fun turns hturns => ?_⟩,
    permutationReport_sound hs hd hr (hcount ▸ h.hosts_lt)⟩
  unfold runPermutation
  rw [hon, Option.bind_eq_bind, Option.bind_some, hrun turns hturns]
  rfl

theorem runAllReduce_returns (h : opt.Checked) (htable : FatTree.TableFits opt.k) {ranks : Nat}
    (hranks : ranks = opt.allReduce.params.ranks (opt.k ^ 3 / 4))
    (hring : opt.allReduce.params.Fits (opt.k ^ 3 / 4)) (hids : 2 * (ranks - 1) * ranks < 2 ^ 32)
    (hrich : (RandomStream.create engine (UInt64.ofNat opt.seed) kStreamPorts).Rich words ranks) :
    ∃ sc s, sc.sim.Reachable (sc.routing.policy sc.seed) s ∧ s.Drained ∧
      sc.sim.flowCount = 2 * (ranks - 1) * ranks ∧
      (∃ N, ∀ turns, N ≤ turns → runAllReduce engine words turns opt =
        some (allReduceReport opt sc (sc.sim.endRun s))) ∧
      (allReduceReport opt sc (sc.sim.endRun s)).Sound sc.sim s := by
  obtain ⟨draws, sc, hon, hbuilt, ht⟩ := h.allReduce_on hring (hranks ▸ hrich)
  obtain ⟨fab, ar, hfab, har, -, -, -, -, hfabric, hspecs⟩ := buildAllReduce_eq hbuilt
  obtain ⟨hbuild, hhosts⟩ := h.fabric_builds
  have hmade := makeRingAllReduce_made har
  have hgpus : ar.gpus = ranks := by
    rw [hmade.gpus_eq, hranks]
    obtain rfl := Option.some.inj (hfab.symm.trans hbuild)
    rw [hhosts]
    rfl
  -- one id for each flow of the ring
  have hring' : Ring opt.allReduce draws sc ar :=
    ⟨hbuilt, htable, rfl, hfabric ▸ har, hgpus ▸ hids⟩
  obtain ⟨N, s, hs, hd, hrun⟩ :=
    Simulation.exists_run (hring'.facts.routed htable) (sc.routing.policy_member sc.seed) ht
  refine ⟨sc, s, hs, hd, ?_, ⟨N, fun turns hturns => ?_⟩, allReduceReport_sound hring' hs hd⟩
  · show sc.sim.specs.length = _
    rw [hspecs, hmade.flows_map (hgpus ▸ hids), List.length_map, List.length_range, hgpus]
  · unfold runAllReduce
    rw [hon, Option.bind_eq_bind, Option.bind_some, hrun turns hturns]
    rfl

/-- The options of a job that `main` starts have passed its checks. -/
theorem checked_of_main {args : List String} {job : Job} (hmain : main args = .ok job)
    (hjob : job = .permutation opt ∨ job = .allReduce opt) : opt.Checked := by
  obtain ⟨st, hst, hopt⟩ := loop_of_main hmain
  obtain rfl := hopt opt hjob
  exact checked_of_accepted hst

/-- Every job that its builder can build, on a fabric whose route table has fewer than `2 ^ 32`
entries, comes to an end, whatever generator of words seeds
its streams: the program returns with the report of a run that has drained, and fuel beyond
that makes no difference. The default flow takes exactly its closed form, and the exit code is
0. A permutation has a flow of every host, and its exit code is 0 if and only if all are
complete. The exit code of a ring is 0 only if all are, and if they are and no time has
wrapped. What is printed of a run is so of its last state. -/
theorem fabricsim_returns (engine : UInt64 → Nat → UInt64) (words : Nat) (args : List String) :
    (main args = .ok .smoke → ∃ sc s, buildSmoke {} = some sc ∧
      sc.sim.Reachable StaticFirstPolicy s ∧ s.Drained ∧
      Ends engine words args (.smoke (smokeReport {} sc (sc.sim.endRun s))) ∧
      (smokeReport {} sc (sc.sim.endRun s)).tail.Sound sc.sim s ∧
      (smokeReport {} sc (sc.sim.endRun s)).code = 0 ∧
      (smokeReport {} sc (sc.sim.endRun s)).deltaNs = 0) ∧
    (∀ opt, main args = .ok (.permutation opt) → FatTree.TableFits opt.k →
      (∀ name ∈ [kStreamPermutation, kStreamPorts, kStreamStartTimes],
        (RandomStream.create engine (UInt64.ofNat opt.seed) name).Rich words (opt.k ^ 3 / 4)) →
      ∃ sc s, sc.sim.Reachable (sc.routing.policy sc.seed) s ∧ s.Drained ∧
        sc.sim.flowCount = opt.k ^ 3 / 4 ∧
        Ends engine words args (.permutation (permutationReport opt sc (sc.sim.endRun s))) ∧
        (permutationReport opt sc (sc.sim.endRun s)).Sound sc.sim s) ∧
    ∀ opt ranks, main args = .ok (.allReduce opt) → FatTree.TableFits opt.k →
      ranks = opt.allReduce.params.ranks (opt.k ^ 3 / 4) →
      opt.allReduce.params.Fits (opt.k ^ 3 / 4) → 2 * (ranks - 1) * ranks < 2 ^ 32 →
      (RandomStream.create engine (UInt64.ofNat opt.seed) kStreamPorts).Rich words ranks →
      ∃ sc s, sc.sim.Reachable (sc.routing.policy sc.seed) s ∧ s.Drained ∧
        sc.sim.flowCount = 2 * (ranks - 1) * ranks ∧
        Ends engine words args (.allReduce (allReduceReport opt sc (sc.sim.endRun s))) ∧
        (allReduceReport opt sc (sc.sim.endRun s)).Sound sc.sim s := by
  refine ⟨fun hmain => ?_, fun opt hmain htable hrich => ?_,
    fun opt ranks hmain htable hranks hring hids hrich => ?_⟩
  · obtain ⟨sc, s, hbuilt, hs, hd, ⟨N, hrun⟩, hreport⟩ := runSmoke_returns
    refine ⟨sc, s, hbuilt, hs, hd, ⟨N, fun turns hturns => ?_⟩, hreport⟩
    unfold fabricsim
    rw [hmain]
    exact congrArg (Option.map Outcome.smoke) (hrun turns hturns)
  · obtain ⟨sc, s, hs, hd, hcount, ⟨N, hrun⟩, hreport⟩ :=
      runPermutation_returns (checked_of_main hmain (Or.inl rfl)) htable hrich
    refine ⟨sc, s, hs, hd, hcount, ⟨N, fun turns hturns => ?_⟩, hreport⟩
    unfold fabricsim
    rw [hmain]
    exact congrArg (Option.map Outcome.permutation) (hrun turns hturns)
  · obtain ⟨sc, s, hs, hd, hcount, ⟨N, hrun⟩, hreport⟩ :=
      runAllReduce_returns (checked_of_main hmain (Or.inr rfl)) htable hranks hring hids hrich
    refine ⟨sc, s, hs, hd, hcount, ⟨N, fun turns hturns => ?_⟩, hreport⟩
    unfold fabricsim
    rw [hmain]
    exact congrArg (Option.map Outcome.allReduce) (hrun turns hturns)

/-- No arguments, and the generator of the standard library for two hosts, as a permutation
and as a ring: eight words are more than enough. -/
theorem fabricsim_returns_two :
    (∃ r, Ends mt19937_64 8 [] (.smoke r) ∧ r.code = 0) ∧
    (∃ r, Ends mt19937_64 8 ["--scenario=permutation", "--k=2"] (.permutation r)) ∧
    ∃ r, Ends mt19937_64 8 ["--scenario=allreduce", "--k=2"] (.allReduce r) := by
  have hrich : ∀ name ∈ [kStreamPermutation, kStreamPorts, kStreamStartTimes],
      (RandomStream.create mt19937_64 (UInt64.ofNat 0) name).Rich 8 2 :=
    RandomStream.rich_of_all (by decide +kernel)
  obtain ⟨hsmoke, -, -⟩ := fabricsim_returns mt19937_64 8 []
  obtain ⟨-, hpermutation, -⟩ :=
    fabricsim_returns mt19937_64 8 ["--scenario=permutation", "--k=2"]
  obtain ⟨-, -, hring⟩ := fabricsim_returns mt19937_64 8 ["--scenario=allreduce", "--k=2"]
  obtain ⟨sc, s, -, -, -, hends, -, hcode, -⟩ := hsmoke (by decide +kernel)
  obtain ⟨sc₁, s₁, -, -, -, hends₁, -⟩ := hpermutation { k := 2 } (by decide +kernel) (by decide) hrich
  obtain ⟨sc₂, s₂, -, -, -, hends₂, -⟩ := hring { k := 2 } 2 (by decide +kernel)
    (by decide) (by decide +kernel) ⟨by decide +kernel, by decide +kernel, fun _ => by decide +kernel,
      by decide +kernel⟩ (by decide) (hrich _ (by simp))
  exact ⟨⟨_, hends, hcode⟩, ⟨_, hends₁⟩, _, hends₂⟩

end CommandLine

end FabricSim
