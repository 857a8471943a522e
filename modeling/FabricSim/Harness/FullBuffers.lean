import FabricSim.Harness.OnLeafSpine

/-!
# What the sized timeout covers

The timeout of a scenario is computed from the host links, the MTU and one hop count.
What it has to cover is a round trip over any shortest path of any flow, behind a full
buffer at every port both ways, where each packet ahead may be of either size. On a
fabric with two kinds of links that is two host links and a fabric link for each hop in
between, so the timeout covers it exactly when the product it is computed from does.

On equal links, and without a wrap, it does so unless an ack outlasts a data packet by
more than its link's share of the round trip, or nothing takes any time
(`sufficient_alike_iff`).
-/

namespace FabricSim

/-- The longest trip over one link and back: behind a full buffer and the packet on the
wire, and behind a full buffer again as an ack. -/
def LinkParams.fullTripNs (link : LinkParams) (mtuBytes ackBytes : Nat) : Nat :=
  let ser := serializationNs mtuBytes link.rate
  let ackSer := serializationNs ackBytes link.rate
  let longer := max ser ackSer
  (link.queueCapacityPkts + 1) * longer + link.propDelayNs +
    (link.queueCapacityPkts * longer + ackSer + link.propDelayNs)

/-- The link the port is an end of. -/
def Port.link (p : Port) : LinkParams := ⟨p.rate, p.propDelayNs, p.queueCapacity⟩

namespace Simulation

variable (sim : Simulation)

/-- The timeout is positive, and covers the trips over each link of any shortest path of
any flow. -/
def CoversFullBuffers : Prop :=
  0 < sim.transport.rtoNs ∧ ∀ f, f < sim.flowCount → ∀ route,
    sim.fabric.Trail (sim.spec f).src (sim.spec f).dst route →
      sim.fabric.endOf (sim.spec f).src route = (sim.spec f).dst →
        (route.map fun p => (sim.fabric.port p).link.fullTripNs (sim.spec f).mtuBytes
          sim.transport.ackBytes).sum ≤ sim.transport.rtoNs

variable {sim}

/-- Every shortest path of a flow costs the same, and there is one. -/
theorem coversFullBuffers_iff (hr : sim.Wired) {hostLink fabricLink : LinkParams}
    (htier : sim.fabric.TwoTier hostLink fabricLink) : sim.CoversFullBuffers ↔
      0 < sim.transport.rtoNs ∧ ∀ f, f < sim.flowCount →
        2 * hostLink.fullTripNs (sim.spec f).mtuBytes sim.transport.ackBytes +
          (sim.hops f - 2) * fabricLink.fullTripNs (sim.spec f).mtuBytes sim.transport.ackBytes ≤
            sim.transport.rtoNs := by
  have hf := hr.wellFormed
  have hon : ∀ (f : FlowId) (link : LinkParams) (p : PortId), (sim.fabric.port p).On link →
      (sim.fabric.port p).link.fullTripNs (sim.spec f).mtuBytes sim.transport.ackBytes =
        link.fullTripNs (sim.spec f).mtuBytes sim.transport.ackBytes := by
    rintro f link p ⟨h1, h2, h3⟩
    unfold LinkParams.fullTripNs Port.link
    dsimp only
    rw [h1, h2, h3]
  have hsum : ∀ f, f < sim.flowCount → ∀ route,
      sim.fabric.Trail (sim.spec f).src (sim.spec f).dst route →
        sim.fabric.endOf (sim.spec f).src route = (sim.spec f).dst →
          (route.map fun p => (sim.fabric.port p).link.fullTripNs (sim.spec f).mtuBytes
            sim.transport.ackBytes).sum =
          2 * hostLink.fullTripNs (sim.spec f).mtuBytes sim.transport.ackBytes +
            (sim.hops f - 2) *
              fabricLink.fullTripNs (sim.spec f).mtuBytes sim.transport.ackBytes := by
    intro f hlt route htrail hend
    have hacc := sim.spec_accepted hlt
    exact htrail.sum_twoTier hf hr.connected hr.singlePort htier (hon f _) (hon f _)
      hacc.src_host hacc.dst_host hacc.src_ne_dst hend
  unfold CoversFullBuffers
  constructor
  · rintro ⟨hpos, hall⟩
    refine ⟨hpos, fun f hlt => ?_⟩
    have hacc := sim.spec_accepted hlt
    have hreach := hr.connected _ _ (hf.host_lt _ hacc.src_host) (hf.host_lt _ hacc.dst_host)
    obtain ⟨route, htrail, hend⟩ := Fabric.exists_trail hf _ _ hreach rfl [] _ trivial rfl
    rw [← hsum f hlt route htrail hend]
    exact hall f hlt route htrail hend
  · rintro ⟨hpos, hall⟩
    refine ⟨hpos, fun f hlt route htrail hend => ?_⟩
    rw [hsum f hlt route htrail hend]
    exact hall f hlt

end Simulation

/-- A scenario of any of the three builders, with what its timeout is sized from. -/
structure SizedScenario where
  hostLink : LinkParams
  fabricLink : LinkParams
  transport : TransportConfig
  mtuBytes : Nat
  hops : Nat
  sim : Simulation

inductive SizedScenario.Built (draws : Draws) : SizedScenario → Prop where
  | smoke (cfg : SmokeConfig) (sc : SmokeScenario) (h : buildSmoke cfg = some sc) : Built draws
      ⟨cfg.topology.hostLink, cfg.topology.fabricLink, {}, cfg.mtuBytes, cfg.hops, sc.sim⟩
  | permutation (cfg : PermutationConfig) (sc : PermutationScenario)
      (h : buildPermutation cfg draws = some sc) (hports : FatTree.PortsFit cfg.topology.k) :
      Built draws ⟨cfg.topology.hostLink, cfg.topology.fabricLink, cfg.transport,
        cfg.workload.mtuBytes, kFatTreeCrossPodHops, sc.sim⟩
  | allReduce (cfg : AllReduceConfig) (sc : AllReduceScenario)
      (h : buildAllReduce cfg draws = some sc) (hports : FatTree.PortsFit cfg.topology.k) :
      Built draws ⟨cfg.topology.hostLink, cfg.topology.fabricLink, cfg.transport,
        cfg.workload.mtuBytes, sc.hops, sc.sim⟩

namespace SizedScenario

structure Facts (sc : SizedScenario) : Prop where
  wired : sc.sim.Wired
  twoTier : sc.sim.fabric.TwoTier sc.hostLink sc.fabricLink
  transport : sc.sim.transport = sizedTransport sc.transport sc.hostLink sc.mtuBytes sc.hops
  mtu : ∀ f, f < sc.sim.flowCount → (sc.sim.spec f).mtuBytes = sc.mtuBytes

variable {sc : SizedScenario} {draws : Draws}

theorem Built.facts (h : Built draws sc) : sc.Facts := by
  have hfat : ∀ (ft : FatTreeScenario), ft.Built draws → FatTree.PortsFit ft.topology.k →
      Facts ⟨ft.topology.hostLink, ft.topology.fabricLink, ft.transport, ft.mtuBytes, ft.hops,
        ft.sim⟩ := by
    intro ft hbuilt hports
    have hfacts := hbuilt.facts hports
    refine ⟨hfacts.wired, ?_, hfacts.transport, hfacts.mtu⟩
    dsimp only
    rw [hfacts.fabric]
    exact FatTree.twoTier hfacts.fits.pos
  cases h with
  | smoke cfg out h =>
    have hfacts := buildSmoke_facts h
    refine ⟨hfacts.wired, hfacts.twoTier, hfacts.transport, fun f hf => ?_⟩
    rw [hfacts.flowCount] at hf
    obtain rfl := Nat.lt_one_iff.mp hf
    dsimp only
    rw [hfacts.spec]
    rfl
  | permutation cfg out h hports => exact hfat _ (.permutation cfg out h) hports
  | allReduce cfg out h hports => exact hfat _ (.allReduce cfg out h) hports

/-- What the timeout is computed from: for each hop a round trip and a full buffer of data
packets on the host link, twice. -/
def budgetNs (sc : SizedScenario) : Nat :=
  let ser := serializationNs sc.mtuBytes sc.hostLink.rate
  let ackSer := serializationNs sc.transport.ackBytes sc.hostLink.rate
  sc.hops * (2 * (ser + ackSer + 2 * sc.hostLink.propDelayNs +
    u32 sc.hostLink.queueCapacityPkts * ser))

/-- The budget, as far as 64 bits hold it, is positive and covers two host links and the
fabric links of every flow. -/
def Sufficient (sc : SizedScenario) : Prop :=
  0 < u64 sc.budgetNs ∧ ∀ f, f < sc.sim.flowCount →
    2 * sc.hostLink.fullTripNs sc.mtuBytes sc.transport.ackBytes +
      (sc.sim.hops f - 2) * sc.fabricLink.fullTripNs sc.mtuBytes sc.transport.ackBytes ≤
        u64 sc.budgetNs

theorem Facts.covers_iff (h : sc.Facts) (hauto : sc.transport.rtoNs = 0) :
    sc.sim.CoversFullBuffers ↔ sc.Sufficient := by
  have hrto : sc.sim.transport.rtoNs = u64 sc.budgetNs ∧
      sc.sim.transport.ackBytes = sc.transport.ackBytes := by
    rw [h.transport]
    unfold sizedTransport
    rw [if_pos hauto]
    exact ⟨defaultRtoNs_eq _ _ _ _ _, rfl⟩
  rw [Simulation.coversFullBuffers_iff h.wired h.twoTier, hrto.1, hrto.2]
  unfold Sufficient
  refine and_congr_right fun _ => forall_congr' fun f => imp_congr_right fun hf => ?_
  rw [h.mtu f hf]

/-- One link's trip against its share of the budget. -/
theorem trip_le_share_iff (ser ackSer prop cap : Nat) :
    (cap + 1) * max ser ackSer + prop + (cap * max ser ackSer + ackSer + prop) ≤
      2 * (ser + ackSer + 2 * prop + cap * ser) ↔ cap * (ackSer - ser) ≤ ser + prop := by
  have hone : (cap + 1) * max ser ackSer = cap * max ser ackSer + max ser ackSer :=
    Nat.succ_mul _ _
  rcases Nat.le_total ackSer ser with h | h
  · rw [hone, max_eq_left h, Nat.sub_eq_zero_of_le h, Nat.mul_zero]
    omega
  · have hmul : cap * ser ≤ cap * ackSer := Nat.mul_le_mul_left _ h
    rw [hone, max_eq_right h, Nat.mul_sub]
    omega

/-- Where all links are equal, nothing wraps, and some flow goes as far as the timeout is
sized for: acks that outlast data must not do so by more than a link's share. -/
theorem sufficient_alike_iff (hlinks : sc.fabricLink = sc.hostLink)
    (hcap : sc.hostLink.queueCapacityPkts < 2 ^ 32) (hfit : sc.budgetNs < 2 ^ 64)
    (hhops : 2 ≤ sc.hops) (hle : ∀ f, f < sc.sim.flowCount → sc.sim.hops f ≤ sc.hops)
    (hfar : ∃ f, f < sc.sim.flowCount ∧ sc.sim.hops f = sc.hops) :
    sc.Sufficient ↔
      0 < serializationNs sc.mtuBytes sc.hostLink.rate +
        serializationNs sc.transport.ackBytes sc.hostLink.rate + sc.hostLink.propDelayNs ∧
      sc.hostLink.queueCapacityPkts * (serializationNs sc.transport.ackBytes sc.hostLink.rate -
        serializationNs sc.mtuBytes sc.hostLink.rate) ≤
          serializationNs sc.mtuBytes sc.hostLink.rate + sc.hostLink.propDelayNs := by
  unfold Sufficient
  rw [u64_of_lt hfit, hlinks]
  unfold budgetNs LinkParams.fullTripNs
  dsimp only
  rw [u32_of_lt hcap]
  generalize serializationNs sc.mtuBytes sc.hostLink.rate = ser
  generalize serializationNs sc.transport.ackBytes sc.hostLink.rate = ackSer
  generalize sc.hostLink.propDelayNs = prop
  generalize sc.hostLink.queueCapacityPkts = cap
  rw [← trip_le_share_iff ser ackSer prop cap]
  generalize hshare : 2 * (ser + ackSer + 2 * prop + cap * ser) = share
  generalize (cap + 1) * max ser ackSer + prop + (cap * max ser ackSer + ackSer + prop) = trip
  have hpos : 0 < sc.hops * share ↔ 0 < ser + ackSer + prop := by
    rw [Nat.mul_pos_iff_of_pos_left (by omega : 0 < sc.hops), ← hshare]
    constructor
    · intro h
      by_contra hnone
      obtain rfl : ser = 0 := by omega
      rw [Nat.mul_zero] at h
      omega
    · intro h
      omega
  have hsum : ∀ g, g ≤ sc.hops → 2 * trip + (g - 2) * trip ≤ sc.hops * trip := by
    intro g hg
    rw [← Nat.add_mul]
    exact Nat.mul_le_mul_right _ (by omega)
  rw [hpos]
  refine and_congr_right fun _ => ⟨fun hall => ?_, fun htrip f hf => ?_⟩
  · obtain ⟨f, hf, hfar⟩ := hfar
    have hmost := hall f hf
    rw [hfar, ← Nat.add_mul, show 2 + (sc.hops - 2) = sc.hops by omega] at hmost
    exact Nat.le_of_mul_le_mul_left hmost (by omega)
  · exact (hsum _ (hle f hf)).trans (Nat.mul_le_mul_left _ htrip)

end SizedScenario

/-- In every scenario that one of the builders makes and whose timeout it sizes: the
timeout is positive and covers full buffers both ways on every shortest path of every
flow exactly when its budget is sufficient. -/
theorem sized_timeout_covers_iff (draws : Draws) (sc : SizedScenario) (hbuilt : sc.Built draws)
    (hauto : sc.transport.rtoNs = 0) : sc.sim.CoversFullBuffers ↔ sc.Sufficient :=
  hbuilt.facts.covers_iff hauto

namespace SizedScenario

/-- Packets of one byte between two leaves, on the default links: their acks of 64 bytes
take 5 ns, they themselves less than one. -/
def tinyConfig : SmokeConfig where
  flowBytes := 10
  mtuBytes := 1

theorem tiny_builds : (buildSmoke tinyConfig).isSome = true := by decide +kernel

def tiny : SizedScenario where
  hostLink := tinyConfig.topology.hostLink
  fabricLink := tinyConfig.topology.fabricLink
  transport := {}
  mtuBytes := tinyConfig.mtuBytes
  hops := tinyConfig.hops
  sim := ((buildSmoke tinyConfig).get tiny_builds).sim

theorem tiny_built (draws : Draws) : tiny.Built draws :=
  .smoke tinyConfig _ (Option.some_get tiny_builds).symm

end SizedScenario

open SizedScenario in
theorem sized_timeout_covers_iff_tiny : tiny.sim.CoversFullBuffers ↔ tiny.Sufficient :=
  sized_timeout_covers_iff {} tiny (tiny_built {}) rfl

open SizedScenario in
/-- The timeout of 1640 ns does not cover the 5960 ns behind full buffers of acks. -/
theorem tiny_packets_outrun_timeout : ¬ ∀ (cfg : SmokeConfig) (sc : SmokeScenario),
    buildSmoke cfg = some sc → 0 < cfg.topology.hostLink.rate → 0 < cfg.topology.fabricLink.rate →
      sc.sim.CoversFullBuffers := by
  intro hall
  have hfacts := (tiny_built {}).facts
  have hsmoke := buildSmoke_facts (Option.some_get tiny_builds).symm
  have hcovers := hall tinyConfig _ (Option.some_get tiny_builds).symm (by decide) (by decide)
  have hone : tiny.sim.flowCount = 1 := hsmoke.flowCount
  have hhops : tiny.sim.hops 0 = tiny.hops := hsmoke.dist
  have hsufficient := (hfacts.covers_iff rfl).mp hcovers
  rw [sufficient_alike_iff rfl (by decide) (by decide +kernel) (by decide)] at hsufficient
  · exact absurd hsufficient.2 (by decide)
  · intro f hf
    rw [hone] at hf
    obtain rfl := Nat.lt_one_iff.mp hf
    exact hhops.le
  · exact ⟨0, hone ▸ Nat.one_pos, hhops⟩

end FabricSim
