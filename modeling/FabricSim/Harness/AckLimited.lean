import FabricSim.Core.Overdue
import FabricSim.Harness.WindowLimited

/-!
# When the closed form of one flow holds

The builder calls a window sufficient that holds a round trip of packets. That leaves out
that acks which take longer than packets come back further and further apart: a flow that
is longer than its window falls behind as soon as the ack its last packet waits for does
(`WindowClock.sent_eq_mul_iff`). In a run without drops this is the only thing that can go
wrong, as long as the sized timeout is the one on paper (`patient_of_fits`).
-/

namespace FabricSim

open State WindowClock

namespace SmokeConfig

variable (cfg : SmokeConfig)

/-- The flow has packets, and either they all fit the window or the ack that the last one
waits for is back by its turn. -/
def AcksKeepUp : Prop :=
  0 < cfg.packets ∧ (cfg.packets ≤ max 1 cfg.windowPkts ∨
    (cfg.packets - 1 - max 1 cfg.windowPkts) * max cfg.serNs cfg.ackSerNs + cfg.exactTripNs ≤
      (cfg.packets - 1) * cfg.serNs)

/-- The timeout covers a full queue of acks, or a packet whose timer ends by the turn of the
last packet has its ack before that. -/
def TimeoutCovers : Prop :=
  (cfg.topology.hostLink.queueCapacityPkts + 1) * cfg.serNs + cfg.exactTripNs <
      cfg.transport.rtoNs ∨
    ∀ i, i < cfg.packets → i * cfg.serNs + cfg.transport.rtoNs ≤ (cfg.packets - 1) * cfg.serNs →
      i * max cfg.serNs cfg.ackSerNs + cfg.exactTripNs < i * cfg.serNs + cfg.transport.rtoNs

/-- What the closed form is on paper. -/
def exactNs : Nat :=
  (cfg.packets - 1 + cfg.hops) * cfg.serNs + cfg.hops * cfg.topology.hostLink.propDelayNs

/-- What the builder has checked of a flow whose closed form it calls exact. -/
structure Checked : Prop where
  alike : cfg.topology.fabricLink.rate = cfg.topology.hostLink.rate ∧
    cfg.topology.fabricLink.propDelayNs = cfg.topology.hostLink.propDelayNs
  whole : cfg.mtuBytes ∣ cfg.flowBytes
  ser_pos : 0 < cfg.serNs

variable {cfg}

theorem checked (h : cfg.analyticalExact = true) (hmtu : 0 < cfg.mtuBytes) : cfg.Checked := by
  unfold analyticalExact homogeneous serializationIsExact at h
  simp only [Bool.and_eq_true, beq_iff_eq] at h
  obtain ⟨⟨⟨⟨hrate, hprop⟩, hsize⟩, hexact⟩, -⟩ := h
  refine ⟨⟨hrate.symm, hprop.symm⟩, Nat.dvd_of_mod_eq_zero hsize, ?_⟩
  -- a whole number of nanoseconds, and not none
  have hbits : 0 < cfg.mtuBytes * kBitsPerByte * kNanosPerSec :=
    Nat.mul_pos (Nat.mul_pos hmtu (by decide)) (by decide)
  have hdvd := Nat.dvd_of_mod_eq_zero hexact
  exact Nat.div_pos (Nat.le_of_dvd hbits hdvd) (Nat.pos_of_dvd_of_pos hdvd hbits)

theorem exactNs_eq : cfg.exactNs = (cfg.packets - 1) * cfg.serNs +
    cfg.hops * (cfg.serNs + cfg.topology.hostLink.propDelayNs) := by
  unfold exactNs
  rw [Nat.add_mul, Nat.mul_add, Nat.add_assoc]

theorem analyticalNs_le (hpos : 0 < cfg.packets) : cfg.analyticalNs ≤ cfg.exactNs := by
  unfold analyticalNs
  rw [analyticalFctNs_eq_paced, exactNs_eq]
  exact pacedFctNs_le hpos _ _ _ _

theorem analyticalNs_eq (hpos : 0 < cfg.packets) (hfit : cfg.exactNs < 2 ^ 64) :
    cfg.analyticalNs = cfg.exactNs := by
  unfold analyticalNs
  rw [analyticalFctNs_eq_paced]
  rw [exactNs_eq] at hfit ⊢
  exact pacedFctNs_eq hpos hfit

end SmokeConfig

/-- The measured time is the one the scenario computed. -/
def SmokeScenario.Identity (sc : SmokeScenario) (s : State) : Prop :=
  (s.result sc.flow).complete = true ∧ (s.result sc.flow).fctNs = sc.analyticalNs

namespace SmokeScenario.Facts

variable {cfg : SmokeConfig} {sc : SmokeScenario}

theorem mtu_pos (h : sc.Facts cfg) : 0 < cfg.mtuBytes := by
  have := (sc.sim.spec_accepted (f := 0) (by rw [h.flowCount]; exact Nat.one_pos)).mtu_pos
  rw [h.spec] at this
  exact this

theorem start_eq (h : sc.Facts cfg) : (sc.sim.spec 0).startNs = 0 := by
  rw [h.spec]
  rfl

/-- Acks start on the link of the receiving host. -/
theorem ackCapacity (h : sc.Facts cfg) (policy : RoutingPolicy) :
    (sc.sim.fabric.port (sc.sim.link policy 0 .ack 0)).queueCapacity =
      cfg.topology.hostLink.queueCapacityPkts := by
  have hacc := sc.sim.spec_accepted (f := 0) (by rw [h.flowCount]; exact Nat.one_pos)
  exact (h.twoTier.hostSide _ _ (h.wired.singlePort.nic_mem hacc.dst_host)
    (Or.inl hacc.dst_host)).2.2

/-! ## The clock of the flow -/

/-- The last packet has its turn at line rate as long as acks keep up. -/
theorem due_last_iff (h : sc.Facts cfg) (hpos : 0 < cfg.packets) :
    sc.sim.dueNs cfg.topology.hostLink.propDelayNs cfg.kindNs (cfg.packets - 1) =
      (cfg.packets - 1) * cfg.serNs ↔ cfg.AcksKeepUp := by
  have hwindow := h.window
  unfold Simulation.dueNs SmokeConfig.AcksKeepUp
  rw [h.tripNs]
  refine (sent_eq_mul_iff _).trans ?_
  change _ ∨ _ * max cfg.serNs cfg.ackSerNs + _ ≤ _ ↔ _
  by_cases hfew : cfg.packets ≤ max 1 cfg.windowPkts
  · -- the window holds the flow
    have hall : cfg.packets - 1 ≤ sc.sim.window 0 - 1 := by omega
    exact ⟨fun _ => ⟨hpos, Or.inl hfew⟩, fun _ => Or.inl hall⟩
  · have hless : cfg.packets - 1 - 1 - (sc.sim.window 0 - 1) =
        cfg.packets - 1 - max 1 cfg.windowPkts := by omega
    have hmore : ¬ cfg.packets - 1 ≤ sc.sim.window 0 - 1 := by omega
    rw [hless]
    constructor
    · intro hback
      exact ⟨hpos, Or.inr (hback.resolve_left hmore)⟩
    · intro hback
      exact Or.inr (hback.2.resolve_left hfew)

theorem due_eq (h : sc.Facts cfg) (hkeep : cfg.AcksKeepUp) {i : Nat} (hi : i < cfg.packets) :
    sc.sim.dueNs cfg.topology.hostLink.propDelayNs cfg.kindNs i = i * cfg.serNs :=
  sent_of_le (by omega : i ≤ cfg.packets - 1) ((h.due_last_iff hkeep.1).mpr hkeep)

theorem back_eq (h : sc.Facts cfg) (hkeep : cfg.AcksKeepUp) {i : Nat} (hi : i < cfg.packets) :
    sc.sim.backNs cfg.topology.hostLink.propDelayNs cfg.kindNs i =
      i * max cfg.serNs cfg.ackSerNs + cfg.exactTripNs := by
  rw [← h.tripNs]
  exact acked_of_sent fun j hj => h.due_eq hkeep (by omega)

theorem patient (h : sc.Facts cfg) (policy : RoutingPolicy) (hkeep : cfg.AcksKeepUp)
    (hcovers : cfg.TimeoutCovers) :
    sc.sim.Patient policy cfg.topology.hostLink.propDelayNs cfg.kindNs := by
  unfold Simulation.Patient
  rw [h.ackCapacity, h.tripNs, h.transport, h.packetsTotal]
  rcases hcovers with hfull | hback
  · exact Or.inl hfull
  · refine Or.inr fun i hi hturn => ?_
    have hpos := hkeep.1
    rw [h.due_eq hkeep hi, h.due_eq hkeep (by omega)] at hturn
    rw [h.due_eq hkeep hi, h.back_eq hkeep hi]
    exact hback i hi hturn

/-- The timeout on paper allows for a full queue at every hop. -/
theorem covers_of_fits (h : sc.Facts cfg) (hser : 0 < cfg.serNs)
    (hcap : cfg.topology.hostLink.queueCapacityPkts < 2 ^ 32) (hrto : cfg.exactRtoNs < 2 ^ 64) :
    cfg.TimeoutCovers := by
  refine Or.inl ?_
  rw [← h.transport, h.rto_eq hcap hrto]
  have htwo : 2 ≤ cfg.hops := by
    unfold SmokeConfig.hops
    split
    · exact le_rfl
    · exact Nat.le_of_ble_eq_true rfl
  have hqueue : cfg.topology.hostLink.queueCapacityPkts * cfg.serNs ≤
      cfg.hops * cfg.topology.hostLink.queueCapacityPkts * cfg.serNs := by
    rw [Nat.mul_assoc]
    exact Nat.le_mul_of_pos_left _ h.hops_pos
  have htrip : 2 * cfg.serNs ≤ cfg.exactTripNs := by
    have hway : 2 * (cfg.serNs + cfg.topology.hostLink.propDelayNs) ≤
        cfg.hops * (cfg.serNs + cfg.topology.hostLink.propDelayNs) := Nat.mul_le_mul_right _ htwo
    unfold SmokeConfig.exactTripNs
    omega
  unfold SmokeConfig.exactRtoNs
  rw [Nat.succ_mul]
  omega

/-! ## The time of the flow -/

section

variable {algo : RoutingAlgorithm} {seed : UInt64} {s : State}

variable (h : sc.Facts cfg) (htable : LeafSpine.TableFits cfg.topology) (hcheck : cfg.Checked) (hs : sc.sim.Reachable (algo.policy seed) s)
  (ht : sc.sim.transport.Accepted) (hw : s.wrapped = false) (hloss : Lossless s)

include h htable hcheck hs ht hw hloss

theorem keepUp_of_identity (hid : sc.Identity s) :
    cfg.AcksKeepUp ∧ sc.analyticalNs = cfg.exactNs := by
  obtain ⟨hc, hfct⟩ := hid
  rw [h.flow] at hc hfct
  have hl := h.lone htable algo seed
  have hu := h.uniform hcheck.alike hcheck.whole hcheck.ser_pos
  have hpos := (hs.receipt hw 0).total hc
  rw [h.packetsTotal] at hpos
  have hlast : cfg.packets - 1 < sc.sim.packetsTotal 0 := by
    rw [h.packetsTotal]
    omega
  have hfinish := hu.due_le_finish hl hs ht hw hloss hc hlast
  have htime := hs.fctNs_eq hw hc
  rw [hs.start_eq_spec hl.independent, h.start_eq, hfct, h.analyticalNs] at htime
  have hpaper := SmokeConfig.analyticalNs_le hpos
  have hturn : (cfg.packets - 1) * cfg.serNs ≤
    sc.sim.dueNs cfg.topology.hostLink.propDelayNs cfg.kindNs (cfg.packets - 1) := mul_gap_le _
  rw [h.dist] at hfinish
  change _ + cfg.hops * (cfg.serNs + _) ≤ _ at hfinish
  have hexact := cfg.exactNs_eq
  refine ⟨(h.due_last_iff hpos).mp (by omega), ?_⟩
  rw [h.analyticalNs]
  omega

theorem identity_of_keepUp (hd : s.Drained) (hkeep : cfg.AcksKeepUp)
    (hcovers : cfg.TimeoutCovers) : sc.Identity s := by
  have hl := h.lone htable algo seed
  have hu := h.uniform hcheck.alike hcheck.whole hcheck.ser_pos
  have hpos := hkeep.1
  have htotal := h.packetsTotal
  have hsent : ∀ i, i < sc.sim.packetsTotal 0 → ∃ b ∈ s.out .data, b.2.index = i ∧
      b.1 = sc.sim.dueNs cfg.topology.hostLink.propDelayNs cfg.kindNs i := by
    rcases hu.sent_on_time hl ht h.start_eq
      (fun i hi => h.due_eq hkeep (htotal ▸ hi)) (h.patient _ hkeep hcovers) hs hw hloss with
        ⟨hun, hdue⟩ | hall
    · -- no timer fired early, so the flow sent all it had
      obtain ⟨-, hseq⟩ := hl.complete hs (by omega) hd (hun.failed 0)
      intro i hi
      obtain ⟨b, hb, rfl⟩ :=
        Simulation.Uniform.mem_out_of_lt hl hs ht hw hun (hi.trans_eq hseq.symm)
      exact ⟨b, hb, rfl, hdue b hb⟩
    · exact hall
  have hc := hu.complete_of_sent hl hs ht hw hloss hd (by omega) fun i hi => by
    obtain ⟨b, hb, hidx, -⟩ := hsent i hi
    exact ⟨b, hb, hidx⟩
  have hfinish := hu.finish_eq hl hs ht hw hloss hc hd hsent
  rw [htotal, h.dist, h.due_eq hkeep (by omega)] at hfinish
  change _ = _ + cfg.hops * (cfg.serNs + _) at hfinish
  rw [← cfg.exactNs_eq] at hfinish
  have htime := hs.fctNs_eq hw hc
  rw [hs.start_eq_spec hl.independent, h.start_eq, Nat.zero_add, hfinish] at htime
  have hfit := hs.finish_lt hc
  rw [hfinish] at hfit
  unfold SmokeScenario.Identity
  rw [h.flow, h.analyticalNs, SmokeConfig.analyticalNs_eq hpos hfit]
  exact ⟨hc, htime⟩

end

end SmokeScenario.Facts

/-- In every run of a smoke scenario whose closed form is called exact, that ends without a
drop: the flow completes in the time of the closed form only if its acks keep up, and it
does if besides the timeout covers them, as the sized one does that leaves no width. -/
theorem closed_form_holds_when (cfg : SmokeConfig) (sc : SmokeScenario)
    (hbuilt : buildSmoke cfg = some sc) (htable : LeafSpine.TableFits cfg.topology)
    (hexact : sc.analyticalExact = true)
    (ht : sc.sim.transport.Accepted) (algo : RoutingAlgorithm) (seed : UInt64) :
    (cfg.topology.hostLink.queueCapacityPkts < 2 ^ 32 → cfg.exactRtoNs < 2 ^ 64 →
      cfg.TimeoutCovers) ∧
    (∀ leftover, ∃ m,
      ((sc.sim.beginRun leftover).runFor sc.sim (algo.policy seed) m).Drained) ∧
    ∀ s, sc.sim.Reachable (algo.policy seed) s → s.wrapped = false → s.Drained → NoDrops s →
      (sc.Identity s → cfg.AcksKeepUp ∧ sc.analyticalNs = cfg.exactNs) ∧
      (cfg.AcksKeepUp → cfg.TimeoutCovers → sc.Identity s) := by
  have h := buildSmoke_facts hbuilt
  have hcheck := SmokeConfig.checked (h.analyticalExact ▸ hexact) h.mtu_pos
  have hl := h.lone htable algo seed
  refine ⟨h.covers_of_fits hcheck.ser_pos,
    Simulation.drained_of_bound fun s hs => hs.dispatched_le hl.routed hl.member ht, ?_⟩
  intro s hs hw hd hdrops
  have hloss := hs.noDrops_iff.mp hdrops
  exact ⟨h.keepUp_of_identity htable hcheck hs ht hw hloss,
    h.identity_of_keepUp htable hcheck hs ht hw hloss hd⟩

namespace SmokeConfig

/-- Ten packets of 32 bytes at 1 Gb/s, 256 ns each, their acks of 64 bytes twice that. The
round trip of 1536 ns asks for a window of seven. -/
def slowAcks : SmokeConfig where
  topology :=
    { spineCount := 1, leafCount := 1, hostsPerLeaf := 2
      hostLink := { rate := gbps 1, propDelayNs := 0 }
      fabricLink := { rate := gbps 1, propDelayNs := 0 } }
  flowBytes := 320
  mtuBytes := 32
  dstHost := 1
  windowPkts := 7

/-- One packet less, and the ack of the second is back just at the turn of the last. -/
def slowAcksNine : SmokeConfig := { slowAcks with flowBytes := 288 }

theorem slowAcks_builds : (buildSmoke slowAcks).isSome = true := by decide +kernel

theorem slowAcksNine_builds : (buildSmoke slowAcksNine).isSome = true := by decide +kernel

end SmokeConfig

open SmokeConfig in
/-- Nine packets take the 2560 ns of the closed form. -/
theorem closed_form_holds_when_nine :
    ((buildSmoke slowAcksNine).get slowAcksNine_builds).Identity
      ((buildSmoke slowAcksNine).get slowAcksNine_builds).ending := by
  have hbuilt := (Option.some_get slowAcksNine_builds).symm
  have ht := (buildSmoke_facts hbuilt).accepted (by decide +kernel)
  have hs := ((buildSmoke slowAcksNine).get slowAcksNine_builds).ending_reachable
  obtain ⟨hcovers, -, hrun⟩ := closed_form_holds_when slowAcksNine _ hbuilt (by decide)
    (by decide +kernel) ht .staticFirst 0
  obtain ⟨hw, hd, hloss⟩ := State.of_quiet
    (by decide +kernel : ((buildSmoke slowAcksNine).get slowAcksNine_builds).ending.quiet = true)
  exact (hrun _ hs hw hd (hs.noDrops_iff.mpr hloss)).2
    (by unfold AcksKeepUp; decide +kernel) (hcovers (by decide) (by decide +kernel))

open SmokeConfig in
/-- Ten take 3072 ns, though nothing is dropped and the closed form of 2816 ns is called
exact. -/
theorem slow_acks_break_closed_form : ¬ ∀ (cfg : SmokeConfig) (sc : SmokeScenario),
    buildSmoke cfg = some sc → 0 < cfg.topology.hostLink.rate → 0 < cfg.topology.fabricLink.rate →
      sc.analyticalExact = true → ∀ (algo : RoutingAlgorithm) (seed : UInt64) (s : State),
        sc.sim.Reachable (algo.policy seed) s → s.wrapped = false → s.Drained → NoDrops s →
          sc.Identity s := by
  intro hall
  have hs := ((buildSmoke slowAcks).get slowAcks_builds).ending_reachable
  obtain ⟨hw, hd, hloss⟩ := State.of_quiet
    (by decide +kernel : ((buildSmoke slowAcks).get slowAcks_builds).ending.quiet = true)
  have hid := hall slowAcks _ (Option.some_get slowAcks_builds).symm (by decide) (by decide)
    (by decide +kernel) .staticFirst 0 _ hs hw hd (hs.noDrops_iff.mpr hloss)
  exact absurd hid.2 (by decide +kernel)

end FabricSim
