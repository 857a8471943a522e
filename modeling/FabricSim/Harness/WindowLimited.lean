import FabricSim.Core.Punctual
import FabricSim.Core.Termination
import FabricSim.Harness.LowerBound
import FabricSim.Harness.OnLeafSpine

/-!
# One flow behind its window

The smoke scenario runs a single flow, so on links of one rate and delay it keeps to the
clock of its window (`Uniform.punctual`): a whole window of packets takes a round trip, or
its own length in packets where that is longer, and what is left over comes a packet at a
time. The sized timeout is longer than a round trip, and with acks no slower than data any
room in the queues is enough.
-/

namespace FabricSim

open State

namespace SmokeConfig

variable (cfg : SmokeConfig)

/-- The time a packet of the flow takes on a link. -/
def kindNs : PacketKind → Nat
  | .data => cfg.serNs
  | .ack => cfg.ackSerNs

/-- The round trip before any reduction. -/
def exactTripNs : Nat :=
  cfg.hops * (cfg.serNs + cfg.topology.hostLink.propDelayNs) +
    cfg.hops * (cfg.ackSerNs + cfg.topology.hostLink.propDelayNs)

/-- The timeout before any reduction. -/
def exactRtoNs : Nat :=
  2 * (cfg.exactTripNs + cfg.hops * cfg.topology.hostLink.queueCapacityPkts * cfg.serNs)

/-- The sizes the builder computes leave no width: packets, queues and the entries of the
route table are counted in 32 bits, bytes and times in 64. -/
structure FitsWords : Prop where
  bytes : cfg.flowBytes + cfg.mtuBytes ≤ 2 ^ 64
  packets : (cfg.flowBytes + cfg.mtuBytes - 1) / cfg.mtuBytes < 2 ^ 32
  capacity : cfg.topology.hostLink.queueCapacityPkts < 2 ^ 32
  rto : cfg.exactRtoNs < 2 ^ 64
  table : LeafSpine.TableFits cfg.topology

end SmokeConfig

namespace SmokeScenario.Facts

variable {cfg : SmokeConfig} {sc : SmokeScenario}

theorem lone (h : sc.Facts cfg) (htable : LeafSpine.TableFits cfg.topology) (algo : RoutingAlgorithm) (seed : UInt64) :
    sc.sim.Lone (algo.policy seed) where
  routed := h.routed htable
  one := h.flowCount
  member := algo.policy_member seed
  perFlow := algo.policy_perFlow seed

theorem ports (h : sc.Facts cfg) {p : PortId} (hp : p < sc.sim.fabric.portCount) :
    (sc.sim.fabric.port p).On cfg.topology.hostLink ∨
      (sc.sim.fabric.port p).On cfg.topology.fabricLink := by
  have htier := h.twoTier
  rw [h.fabric] at hp htier ⊢
  exact FabricBuilder.on_of_twoTier (LeafSpine.valid h.counts.2.2) htier hp

theorem linksAlike (h : sc.Facts cfg)
    (hsame : cfg.topology.fabricLink.rate = cfg.topology.hostLink.rate ∧
      cfg.topology.fabricLink.propDelayNs = cfg.topology.hostLink.propDelayNs) :
    sc.sim.fabric.LinksAlike cfg.topology.hostLink.rate cfg.topology.hostLink.propDelayNs := by
  intro p hp
  rcases h.ports hp with ⟨hrate, hdelay, -⟩ | ⟨hrate, hdelay, -⟩
  · exact ⟨hrate, hdelay⟩
  · exact ⟨hrate.trans hsame.1, hdelay.trans hsame.2⟩

theorem packetsTotal (h : sc.Facts cfg) : sc.sim.packetsTotal 0 = cfg.packets := by
  unfold Simulation.packetsTotal
  rw [h.spec]
  rfl

theorem window (h : sc.Facts cfg) :
    sc.sim.window 0 = max 1 (min cfg.windowPkts cfg.packets) := by
  have hwin : sc.sim.window 0 = if min cfg.windowPkts cfg.packets = 0 then 1
      else min cfg.windowPkts cfg.packets := by
    unfold Simulation.window
    rw [h.spec]
    rfl
  rw [hwin]
  split <;> omega

theorem ackBytes (h : sc.Facts cfg) : sc.sim.transport.ackBytes = cfg.transport.ackBytes := by
  rw [h.transport]

/-- All packets of a flow of whole packets are full. -/
theorem full (h : sc.Facts cfg) (hdvd : cfg.mtuBytes ∣ cfg.flowBytes) {idx : Nat}
    (hidx : idx < sc.sim.packetsTotal 0) :
    (sc.sim.spec 0).packetBytes idx = (sc.sim.spec 0).mtuBytes := by
  obtain ⟨q, hq⟩ := hdvd
  have hmtu := (sc.sim.spec_accepted (f := 0) (by rw [h.flowCount]; exact Nat.one_pos)).mtu_pos
  rw [h.packetsTotal] at hidx
  rw [h.spec] at hmtu ⊢
  change 0 < cfg.mtuBytes at hmtu
  have hle : cfg.packets ≤ q := by
    unfold SmokeConfig.packets packetCount
    refine (u32_le _).trans ((Nat.div_le_div_right (u64_le _)).trans ?_)
    rw [hq, Nat.add_sub_assoc hmtu, Nat.mul_add_div hmtu,
      Nat.div_eq_of_lt (Nat.sub_lt hmtu Nat.one_pos), Nat.add_zero]
  have hroom : (idx + 1) * cfg.mtuBytes ≤ cfg.flowBytes := by
    rw [hq, Nat.mul_comm]
    exact Nat.mul_le_mul_left _ (by omega)
  rw [Nat.succ_mul] at hroom
  unfold FlowSpec.packetBytes SmokeConfig.spec
  dsimp only
  exact if_neg (by omega)

theorem uniform (h : sc.Facts cfg)
    (hsame : cfg.topology.fabricLink.rate = cfg.topology.hostLink.rate ∧
      cfg.topology.fabricLink.propDelayNs = cfg.topology.hostLink.propDelayNs)
    (hdvd : cfg.mtuBytes ∣ cfg.flowBytes) (hser : 0 < cfg.serNs) :
    sc.sim.Uniform cfg.topology.hostLink.rate cfg.topology.hostLink.propDelayNs cfg.kindNs where
  links := h.linksAlike hsame
  full := fun _ hidx => h.full hdvd hidx
  service := by
    intro k
    cases k with
    | data =>
      unfold Simulation.kindBytes
      rw [h.spec]
      rfl
    | ack =>
      unfold Simulation.kindBytes
      rw [h.ackBytes]
      rfl
  period := by
    rw [h.wired.periodNs_eq (h.linksAlike hsame) (by rw [h.flowCount]; exact Nat.one_pos), h.spec]
    exact Nat.mul_div_cancel _ (by decide)
  pos := hser

theorem tripNs (h : sc.Facts cfg) :
    sc.sim.tripNs cfg.topology.hostLink.propDelayNs cfg.kindNs = cfg.exactTripNs := by
  unfold Simulation.tripNs SmokeConfig.exactTripNs
  rw [h.dist]
  rfl

/-! ## The sized timeout -/

/-- The smoke scenario always sizes its timeout. -/
theorem transport_eq (h : sc.Facts cfg) : sc.sim.transport = { ({} : TransportConfig) with
    rtoNs := defaultRtoNs cfg.hops cfg.serNs cfg.ackSerNs cfg.topology.hostLink.propDelayNs
      (u32 cfg.topology.hostLink.queueCapacityPkts) } := by
  rw [h.transport]
  rfl

theorem roundTrip_eq (hrto : cfg.exactRtoNs < 2 ^ 64) :
    roundTripNs cfg.hops cfg.serNs cfg.ackSerNs cfg.topology.hostLink.propDelayNs =
      cfg.exactTripNs := by
  refine u64_of_lt (lt_of_le_of_lt ?_ hrto)
  unfold SmokeConfig.exactRtoNs SmokeConfig.exactTripNs
  omega

theorem rto_eq (h : sc.Facts cfg) (hcap : cfg.topology.hostLink.queueCapacityPkts < 2 ^ 32)
    (hrto : cfg.exactRtoNs < 2 ^ 64) : sc.sim.transport.rtoNs = cfg.exactRtoNs := by
  rw [h.transport_eq]
  show defaultRtoNs _ _ _ _ _ = _
  unfold defaultRtoNs
  rw [roundTrip_eq hrto, u32_of_lt hcap]
  exact u64_of_lt hrto

theorem hops_pos (h : sc.Facts cfg) : 0 < cfg.hops := by
  rw [← h.dist]
  exact h.wired.hops_pos (by rw [h.flowCount]; exact Nat.one_pos)

theorem trip_pos (h : sc.Facts cfg) (hser : 0 < cfg.serNs) : 0 < cfg.exactTripNs := by
  unfold SmokeConfig.exactTripNs
  have := Nat.mul_pos h.hops_pos (Nat.add_pos_left hser cfg.topology.hostLink.propDelayNs)
  omega

theorem trip_lt_rto (h : sc.Facts cfg) (hfits : cfg.FitsWords) (hser : 0 < cfg.serNs) :
    cfg.exactTripNs < sc.sim.transport.rtoNs := by
  have := h.trip_pos hser
  rw [h.rto_eq hfits.capacity hfits.rto]
  unfold SmokeConfig.exactRtoNs
  omega

theorem accepted (h : sc.Facts cfg) (hpos : 0 < sc.sim.transport.rtoNs) :
    sc.sim.transport.Accepted := by
  rw [h.transport_eq] at hpos ⊢
  exact ⟨hpos, Nat.lt_of_sub_eq_succ rfl, Nat.lt_of_sub_eq_succ rfl, Nat.lt_of_sub_eq_succ rfl,
    Nat.le_of_ble_eq_true rfl⟩

theorem packets_eq (hfits : cfg.FitsWords) (hmtu : 0 < cfg.mtuBytes) {n : Nat}
    (hsize : cfg.flowBytes = n * cfg.mtuBytes) : cfg.packets = n := by
  have hbytes := hfits.bytes
  have hcount := hfits.packets
  have hn : (cfg.flowBytes + cfg.mtuBytes - 1) / cfg.mtuBytes = n := by
    rw [hsize, Nat.add_sub_assoc hmtu, Nat.mul_comm, Nat.mul_add_div hmtu,
      Nat.div_eq_of_lt (Nat.sub_lt hmtu Nat.one_pos), Nat.add_zero]
  unfold SmokeConfig.packets packetCount
  rw [u64_of_lt (by omega), hn]
  rw [hn] at hcount
  exact u32_of_lt hcount

end SmokeScenario.Facts

/-- A drained run of one flow that has not failed has sent and completed it. -/
theorem Simulation.Lone.complete {sim : Simulation} {policy : RoutingPolicy} {s : State}
    (hl : sim.Lone policy) (hs : sim.Reachable policy s) (hpos : 0 < sim.packetsTotal 0)
    (hd : s.Drained) (hfail : (s.tx 0).failed = false) :
    (s.result 0).complete = true ∧ (s.tx 0).nextSeq = sim.packetsTotal 0 := by
  have hledger := hs.books.ledger 0
  obtain ⟨-, hdel⟩ := (hs.awake hl.flow_lt).settled hledger hd (Or.inl hl.independent) hfail
  have hrecv := hs.receiver 0
  constructor
  · rw [hrecv.complete_iff hpos, hrecv.count]
    exact Nat.count_of_forall hdel
  · refine le_antisymm hledger.seq_le (not_lt.mp fun hlt => ?_)
    have hnew := hdel _ hlt
    rw [hledger.untouched _ le_rfl] at hnew
    exact absurd hnew (by simp)

/-- On equal links with any room, a single flow of whole packets whose acks take no longer
than its data runs to the end without a drop or a retransmission, and takes as long as its
windows do: each the longer of a round trip and its packets. -/
theorem window_limited_fct (cfg : SmokeConfig) (sc : SmokeScenario) (n : Nat)
    (hbuilt : buildSmoke cfg = some sc)
    (hlinks : cfg.topology.fabricLink = cfg.topology.hostLink)
    (hcap : 0 < cfg.topology.hostLink.queueCapacityPkts)
    (hsize : cfg.flowBytes = n * cfg.mtuBytes) (hser : 0 < cfg.serNs)
    (hack : cfg.ackSerNs ≤ cfg.serNs) (hfits : cfg.FitsWords)
    (algo : RoutingAlgorithm) (seed : UInt64) :
    (∀ leftover, ∃ m,
      ((sc.sim.beginRun leftover).runFor sc.sim (algo.policy seed) m).Drained) ∧
    ∀ s, sc.sim.Reachable (algo.policy seed) s → s.wrapped = false →
      NoDrops s ∧ s.stats.packetsRetransmitted = 0 ∧
      (s.Drained → (s.result sc.flow).complete = true ∧ (s.result sc.flow).fctNs =
        (n - 1) / max 1 (min cfg.windowPkts n) *
          max (roundTripNs cfg.hops cfg.serNs cfg.ackSerNs cfg.topology.hostLink.propDelayNs)
            (max 1 (min cfg.windowPkts n) * cfg.serNs) +
          (n - 1) % max 1 (min cfg.windowPkts n) * cfg.serNs +
            cfg.hops * (cfg.serNs + cfg.topology.hostLink.propDelayNs)) := by
  have h := buildSmoke_facts hbuilt
  have hl := h.lone hfits.table algo seed
  have hu := h.uniform (by rw [hlinks]; exact ⟨rfl, rfl⟩) (Dvd.intro_left n hsize.symm) hser
  have hrto := h.trip_lt_rto hfits hser
  have ht := h.accepted ((Nat.zero_le _).trans_lt hrto)
  have hle : ∀ k, cfg.kindNs k ≤ cfg.kindNs .data := by
    intro k
    cases k with
    | data => exact le_rfl
    | ack => exact hack
  have hroom : ∀ p, p < sc.sim.fabric.portCount → 0 < (sc.sim.fabric.port p).queueCapacity := by
    intro p hp
    rcases h.ports hp with ⟨-, -, hcapacity⟩ | ⟨-, -, hcapacity⟩
    · exact hcapacity ▸ hcap
    · rw [hcapacity, hlinks]
      exact hcap
  have hstart : (sc.sim.spec 0).startNs = 0 := by
    rw [h.spec]
    rfl
  have hmtu : 0 < cfg.mtuBytes := by
    have := (sc.sim.spec_accepted hl.flow_lt).mtu_pos
    rw [h.spec] at this
    exact this
  have hbytes : 0 < cfg.flowBytes := by
    have := (sc.sim.spec_accepted hl.flow_lt).size_pos
    rw [h.spec] at this
    exact this
  have htotal : sc.sim.packetsTotal 0 = n :=
    h.packetsTotal.trans (SmokeScenario.Facts.packets_eq hfits hmtu hsize)
  have hn : 0 < n := by
    by_contra hzero
    rw [hsize, show n = 0 by omega, Nat.zero_mul] at hbytes
    exact absurd hbytes (lt_irrefl _)
  refine ⟨Simulation.drained_of_bound fun s hs => hs.dispatched_le hl.routed hl.member ht, ?_⟩
  intro s hs hw
  have hloss := hu.lossless hl hs ht hle hroom hw
  rw [h.tripNs.symm] at hrto
  obtain ⟨hun, hdue⟩ := hu.punctual hl hs ht hstart hle hroom hrto hw
  refine ⟨hs.noDrops_iff.mpr hloss, hun.retransmitted hs ht, fun hd => ?_⟩
  obtain ⟨hc, hseq⟩ := hl.complete hs (by omega) hd (hun.failed 0)
  have hsent : ∀ i, i < sc.sim.packetsTotal 0 → ∃ b ∈ s.out .data, b.2.index = i ∧
      b.1 = sc.sim.dueNs cfg.topology.hostLink.propDelayNs cfg.kindNs i := by
    intro i hi
    obtain ⟨b, hb, rfl⟩ :=
      Simulation.Uniform.mem_out_of_lt hl hs ht hw hun (hi.trans_eq hseq.symm)
    exact ⟨b, hb, rfl, hdue b hb⟩
  have hfinish := hu.finish_eq hl hs ht hw hloss hc hd hsent
  have hfct := hs.fctNs_eq hw hc
  have hbegin := (hs.start_eq_spec hl.independent).trans hstart
  have hclock : sc.sim.dueNs cfg.topology.hostLink.propDelayNs cfg.kindNs (n - 1) =
      (n - 1) / max 1 (min cfg.windowPkts n) *
        max cfg.exactTripNs (max 1 (min cfg.windowPkts n) * cfg.serNs) +
          (n - 1) % max 1 (min cfg.windowPkts n) * cfg.serNs := by
    have hwindow := h.window
    rw [← h.packetsTotal, htotal] at hwindow
    unfold Simulation.dueNs
    rw [WindowClock.sent_eq (hle .ack), h.tripNs, hwindow, Nat.sub_add_cancel (le_max_left _ _)]
    rfl
  rw [h.flow, SmokeScenario.Facts.roundTrip_eq hfits.rto, ← hclock]
  rw [htotal, h.dist] at hfinish
  change _ = _ + cfg.hops * (cfg.serNs + _) at hfinish
  refine ⟨hc, ?_⟩
  omega

namespace SmokeConfig

/-- Two packets to a host on the same leaf, one at a time. -/
def oneAtATime : SmokeConfig where
  topology := { spineCount := 1, leafCount := 1, hostsPerLeaf := 2 }
  flowBytes := 3000
  dstHost := 1
  windowPkts := 1

theorem oneAtATime_builds : (buildSmoke oneAtATime).isSome = true := by decide +kernel

theorem oneAtATime_fits : oneAtATime.FitsWords :=
  ⟨by decide, by decide, by decide, by decide +kernel, by decide⟩

end SmokeConfig

/-- The end of a run of a smoke scenario. -/
def SmokeScenario.ending (sc : SmokeScenario) : State :=
  (sc.sim.beginRun Pair.fresh).runFor sc.sim StaticFirstPolicy 100

theorem SmokeScenario.ending_reachable (sc : SmokeScenario) :
    sc.sim.Reachable (RoutingAlgorithm.staticFirst.policy 0) sc.ending :=
  (Simulation.Reachable.begin Pair.fresh).runFor 100

open SmokeConfig in
/-- A round trip of 650 ns, and the 440 ns of the way of the second packet. -/
theorem window_limited_fct_oneAtATime :
    (((buildSmoke oneAtATime).get oneAtATime_builds).ending.result 0).complete = true ∧
    (((buildSmoke oneAtATime).get oneAtATime_builds).ending.result 0).fctNs =
      1090 := by
  obtain ⟨-, -, hend⟩ := (window_limited_fct oneAtATime _ 2 (Option.some_get oneAtATime_builds).symm
    rfl (by decide) rfl (by decide) (by decide) oneAtATime_fits .staticFirst 0).2 _
    (SmokeScenario.ending_reachable _) (by decide +kernel)
  obtain ⟨hcomplete, hfct⟩ := hend (by unfold State.Drained; decide +kernel)
  exact ⟨hcomplete, hfct.trans (by decide +kernel)⟩

end FabricSim
