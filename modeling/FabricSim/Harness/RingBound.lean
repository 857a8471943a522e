import FabricSim.Harness.LowerBound
import FabricSim.Harness.RingChain
import FabricSim.Harness.RingHops
import FabricSim.Metrics.Fct
import Mathlib.Algebra.Order.BigOperators.Group.Finset

/-!
# The bound of the all-reduce

The flows of a dependency chain run one after the other: each starts when the one before
it finishes, and takes at least the time of its packets on an empty network. So the
collective is no faster than any of its chains (`chainNs_le_collective`). The figure the
builder reports puts every edge of the ring at the same length and every packet at the
MTU; it is a bound as long as one of the chains is not shorter (`ring_bound`).
-/

namespace FabricSim

open AllReduce

namespace AllReduceConfig

variable (cfg : AllReduceConfig) (ar : AllReduce)

/-- The packets of a chunk. -/
def chunk : FlowSpec where
  sizeBytes := ar.chunkBytes
  mtuBytes := cfg.params.mtuBytes

/-- The least time between two sends of a rank. -/
def exactPeriodNs : Nat := cfg.serNs * 1000 / cfg.params.loadPermille

/-- A chunk over so many links of an empty network: until the latest of its packets. -/
def stepNs (hops : Nat) : Nat :=
  (Finset.range (cfg.chunk ar).packetsTotal).sup fun idx =>
    idx * cfg.exactPeriodNs + hops *
      (serializationNs ((cfg.chunk ar).packetBytes idx) cfg.topology.hostLink.rate +
        cfg.topology.hostLink.propDelayNs)

/-- The chain that starts at rank `r`, on an empty network. -/
def chainNs (r : Nat) : Nat :=
  ∑ s ∈ Finset.range (2 * (ar.gpus - 1)), cfg.stepNs ar (ar.ringHops cfg.topology.k ((r + s) % ar.gpus))

end AllReduceConfig

namespace AllReduce

/-- Going on along the ring and back is where we were. -/
theorem prev_succ_mod {N x : Nat} (hN : 0 < N) : prev N ((x + 1) % N) = x % N := by
  have hlt : x % N < N := Nat.mod_lt _ hN
  rw [← Nat.mod_add_mod]
  rcases Nat.lt_or_ge (x % N + 1) N with h | h
  · rw [Nat.mod_eq_of_lt h]
    exact prev_succ h
  · rw [show x % N + 1 = N by omega, Nat.mod_self, prev_zero hN]
    omega

end AllReduce

/-- A built all-reduce on equal links, and the workload in it. -/
structure Ring (cfg : AllReduceConfig) (draws : Draws) (sc : AllReduceScenario) (ar : AllReduce) :
    Prop where
  built : buildAllReduce cfg draws = some sc
  table : FatTree.TableFits cfg.topology.k
  links : cfg.topology.fabricLink = cfg.topology.hostLink
  made : makeRingAllReduce sc.sim.fabric cfg.params draws = some ar
  ids : 2 * (ar.gpus - 1) * ar.gpus < 2 ^ 32

namespace Ring

variable {cfg : AllReduceConfig} {draws : Draws} {sc : AllReduceScenario} {ar : AllReduce}

theorem facts (h : Ring cfg draws sc ar) : FatTreeScenario.Facts
    ⟨cfg.topology, cfg.transport, cfg.workload.mtuBytes, sc.hops, sc.sim⟩ (cfg.topology.k / 2) :=
  FatTreeScenario.Built.facts (.allReduce cfg sc h.built) h.table.ports

/-- The flows are those of the workload, and the figure is its. -/
theorem specs (h : Ring cfg draws sc ar) :
    sc.sim.specs = ar.flows ∧ sc.analyticalNs = cfg.analyticalNs ar := by
  obtain ⟨fab, ar', -, har, -, -, -, hfigure, hfabric, hspecs⟩ := buildAllReduce_eq h.built
  have hmade := h.made
  rw [hfabric, har] at hmade
  obtain rfl := Option.some.inj hmade
  exact ⟨hspecs, hfigure⟩

theorem gpus_pos (h : Ring cfg draws sc ar) : 0 < ar.gpus := by
  have := (makeRingAllReduce_made h.made).gpus_ge
  omega

/-- The flow of rank `r` in step `s`. -/
theorem spec (h : Ring cfg draws sc ar) {s r : Nat} (hs : s < 2 * (ar.gpus - 1))
    (hr : r < ar.gpus) : s * ar.gpus + r < sc.sim.flowCount ∧
      sc.sim.spec (s * ar.gpus + r) = ringFlow sc.sim.fabric cfg.params draws ar.gpus ar.chunkBytes
        ar.rankToHost s r := by
  have hat := (makeRingAllReduce_made h.made).flow_at h.ids hs hr
  rw [← h.specs.1] at hat
  obtain ⟨hlt, heq⟩ := List.getElem?_eq_some_iff.mp hat
  refine ⟨hlt, ?_⟩
  unfold Simulation.spec
  rw [List.getD_eq_getElem _ _ hlt, heq]

theorem hops (h : Ring cfg draws sc ar) {s r : Nat} (hs : s < 2 * (ar.gpus - 1))
    (hr : r < ar.gpus) : sc.sim.hops (s * ar.gpus + r) = ar.ringHops cfg.topology.k r := by
  obtain ⟨hlt, hspec⟩ := h.spec hs hr
  have hacc := sc.sim.spec_accepted hlt
  have hsrc := hacc.src_host
  have hdst := hacc.dst_host
  have hne := hacc.src_ne_dst
  have hfabric : sc.sim.fabric = (FatTree.builder cfg.topology (cfg.topology.k / 2)).build :=
    h.facts.fabric
  show sc.sim.fabric.graph.dist (sc.sim.spec _).src (sc.sim.spec _).dst = _
  rw [hspec] at hsrc hdst hne ⊢
  rw [hfabric] at hsrc hdst hne ⊢
  exact FatTreeScenario.dist_hostAt h.facts.fits hsrc hdst hne

theorem linksAlike (h : Ring cfg draws sc ar) :
    sc.sim.fabric.LinksAlike cfg.topology.hostLink.rate cfg.topology.hostLink.propDelayNs := by
  intro p hp
  obtain ⟨hrate, hdelay, -⟩ := h.facts.links rfl h.links hp
  exact ⟨hrate, hdelay⟩

/-- The next flow of a chain waits for the one before it. -/
theorem waits (h : Ring cfg draws sc ar) {s x : Nat} (hs : s + 1 < 2 * (ar.gpus - 1)) :
    (s + 1) * ar.gpus + (x + 1) % ar.gpus ∈ sc.sim.dependents (s * ar.gpus + x % ar.gpus) := by
  have hpos := h.gpus_pos
  have hlt : (x + 1) % ar.gpus < ar.gpus := Nat.mod_lt _ hpos
  obtain ⟨hcount, hspec⟩ := h.spec hs hlt
  rw [Simulation.mem_dependents]
  refine ⟨hcount, ?_⟩
  rw [hspec, (makeRingAllReduce_made h.made).dependsOn_succ h.ids hs hlt, prev_succ_mod hpos]

variable {policy : RoutingPolicy} {s : State}

/-- One send takes at least the time of its packets on an empty network. -/
theorem start_add_step_le (h : Ring cfg draws sc ar) (hm : policy.Member)
    (hs : sc.sim.Reachable policy s) (hw : s.wrapped = false) {t r : Nat}
    (ht : t < 2 * (ar.gpus - 1)) (hr : r < ar.gpus)
    (hc : (s.result (t * ar.gpus + r)).complete = true) :
    (s.result (t * ar.gpus + r)).startNs + cfg.stepNs ar (ar.ringHops cfg.topology.k r) ≤
      (s.result (t * ar.gpus + r)).finishNs := by
  obtain ⟨hlt, hspec⟩ := h.spec ht hr
  have hrouted := h.facts.routed h.table
  have hbound : ∀ idx ∈ Finset.range (cfg.chunk ar).packetsTotal,
      (s.result (t * ar.gpus + r)).startNs + (idx * cfg.exactPeriodNs +
        ar.ringHops cfg.topology.k r *
          (serializationNs ((cfg.chunk ar).packetBytes idx) cfg.topology.hostLink.rate +
            cfg.topology.hostLink.propDelayNs)) ≤ (s.result (t * ar.gpus + r)).finishNs := by
    intro idx hidx
    have htotal : idx < sc.sim.packetsTotal (t * ar.gpus + r) := by
      unfold Simulation.packetsTotal
      rw [hspec]
      exact Finset.mem_range.mp hidx
    have hle := hs.start_add_le_finish hrouted hm h.linksAlike hw hc htotal
    rw [hrouted.periodNs_eq h.linksAlike hlt, h.hops ht hr, hspec] at hle
    rw [← Nat.add_assoc]
    exact hle
  have hstart : (s.result (t * ar.gpus + r)).startNs ≤ (s.result (t * ar.gpus + r)).finishNs := by
    obtain ⟨idx, hidx⟩ : ∃ idx, idx < sc.sim.packetsTotal (t * ar.gpus + r) :=
      ⟨0, (hs.receipt hw _).total hc⟩
    have := hs.start_add_le_finish hrouted hm h.linksAlike hw hc hidx
    omega
  have hsup : cfg.stepNs ar (ar.ringHops cfg.topology.k r) ≤
      (s.result (t * ar.gpus + r)).finishNs - (s.result (t * ar.gpus + r)).startNs := by
    refine Finset.sup_le fun idx hidx => ?_
    have := hbound idx hidx
    omega
  omega

/-- A chain takes as long as its sends, one after the other. -/
theorem chain_le_finish (h : Ring cfg draws sc ar) (hm : policy.Member)
    (hs : sc.sim.Reachable policy s) (hw : s.wrapped = false)
    (hall : ∀ f, f < sc.sim.flowCount → (s.result f).complete = true) (r : Nat) {t : Nat}
    (ht : t < 2 * (ar.gpus - 1)) :
    ∑ u ∈ Finset.range (t + 1), cfg.stepNs ar (ar.ringHops cfg.topology.k ((r + u) % ar.gpus)) ≤
      (s.result (t * ar.gpus + (r + t) % ar.gpus)).finishNs := by
  have hlt : ∀ u, (r + u) % ar.gpus < ar.gpus := fun u => Nat.mod_lt _ h.gpus_pos
  induction t with
  | zero =>
    have hstep := h.start_add_step_le hm hs hw ht (hlt 0) (hall _ (h.spec ht (hlt 0)).1)
    rw [Finset.sum_range_one]
    omega
  | succ t ih =>
    have hbefore := ih (by omega)
    have hdone := hall _ (h.spec (show t < 2 * (ar.gpus - 1) by omega) (hlt t)).1
    have hstep := h.start_add_step_le hm hs hw ht (hlt (t + 1)) (hall _ (h.spec ht (hlt (t + 1))).1)
    -- the next flow starts when this one finishes
    have hnext := (hs.receipt hw _).handover hdone _ (h.waits (x := r + t) ht)
    rw [Nat.add_assoc] at hnext
    rw [hnext] at hstep
    rw [Finset.sum_range_succ]
    omega

theorem chainNs_le_collective (h : Ring cfg draws sc ar) (hm : policy.Member)
    (hs : sc.sim.Reachable policy s) (hw : s.wrapped = false)
    (hall : ∀ f, f < sc.sim.flowCount → (s.result f).complete = true) (r : Nat) :
    cfg.chainNs ar r ≤ collectiveTimeNs (sc.sim.results s) := by
  have hgpus := (makeRingAllReduce_made h.made).gpus_ge
  have hlast : 2 * (ar.gpus - 1) - 1 < 2 * (ar.gpus - 1) := by omega
  have hchain := h.chain_le_finish hm hs hw hall r hlast
  rw [Nat.sub_add_cancel (by omega)] at hchain
  refine hchain.trans (finishNs_le_collectiveTimeNs ?_ ?_)
  · intro res hres
    obtain ⟨f, hf, rfl⟩ := mem_results.mp hres
    exact hall f hf
  · exact mem_results.mpr ⟨_, (h.spec hlast (Nat.mod_lt _ h.gpus_pos)).1, rfl⟩

/-- On a ring of equal hops, with chunks of whole packets, the figure is every chain's. -/
theorem analyticalNs_le_chainNs (h : Ring cfg draws sc ar)
    (huniform : ar.uniformHops cfg.topology.k = true)
    (hwhole : cfg.params.mtuBytes ∣ ar.chunkBytes) (hpackets : 0 < ar.chunkPackets) (r : Nat) :
    cfg.analyticalNs ar ≤ cfg.chainNs ar r := by
  have hmade := makeRingAllReduce_made h.made
  have htotal : ar.chunkPackets = (cfg.chunk ar).packetsTotal := hmade.packets_eq
  have hperiod : cfg.periodNs ≤ cfg.exactPeriodNs := Nat.div_le_div_right (u64_le _)
  have hhops : cfg.hops ar = ar.ringHops cfg.topology.k 0 := if_pos huniform
  have hstep : ∀ x, pacedFctNs ar.chunkPackets (cfg.hops ar) cfg.serNs cfg.periodNs
      cfg.topology.hostLink.propDelayNs ≤
        cfg.stepNs ar (ar.ringHops cfg.topology.k (x % ar.gpus)) := by
    intro x
    have hsame : ar.ringHops cfg.topology.k (x % ar.gpus) = cfg.hops ar := by
      rw [hhops]
      unfold AllReduce.uniformHops at huniform
      exact beq_iff_eq.mp (List.all_eq_true.mp huniform _
        (List.mem_range.mpr (Nat.mod_lt _ h.gpus_pos)))
    have hlast : ar.chunkPackets - 1 ∈ Finset.range (cfg.chunk ar).packetsTotal := by
      rw [Finset.mem_range, ← htotal]
      omega
    have hfull : (cfg.chunk ar).packetBytes (ar.chunkPackets - 1) = cfg.params.mtuBytes :=
      FlowSpec.packetBytes_of_dvd hwhole (Finset.mem_range.mp hlast)
    calc pacedFctNs ar.chunkPackets (cfg.hops ar) cfg.serNs cfg.periodNs
          cfg.topology.hostLink.propDelayNs
        ≤ (ar.chunkPackets - 1) * cfg.periodNs + cfg.hops ar *
            (cfg.serNs + cfg.topology.hostLink.propDelayNs) := pacedFctNs_le hpackets ..
      _ ≤ (ar.chunkPackets - 1) * cfg.exactPeriodNs + cfg.hops ar *
            (serializationNs ((cfg.chunk ar).packetBytes (ar.chunkPackets - 1))
              cfg.topology.hostLink.rate + cfg.topology.hostLink.propDelayNs) := by
          rw [hfull]
          exact Nat.add_le_add_right (Nat.mul_le_mul_left _ hperiod) _
      _ ≤ cfg.stepNs ar (ar.ringHops cfg.topology.k (x % ar.gpus)) := by
          rw [hsame]
          exact Finset.le_sup (f := fun idx => idx * cfg.exactPeriodNs + cfg.hops ar *
            (serializationNs ((cfg.chunk ar).packetBytes idx) cfg.topology.hostLink.rate +
              cfg.topology.hostLink.propDelayNs)) hlast
  calc cfg.analyticalNs ar
      ≤ ar.steps * pacedFctNs ar.chunkPackets (cfg.hops ar) cfg.serNs cfg.periodNs
          cfg.topology.hostLink.propDelayNs := u64_le _
    _ ≤ 2 * (ar.gpus - 1) * pacedFctNs ar.chunkPackets (cfg.hops ar) cfg.serNs cfg.periodNs
          cfg.topology.hostLink.propDelayNs := by
        rw [hmade.steps_eq]
        exact Nat.mul_le_mul_right _ (u32_le _)
    _ = ∑ _u ∈ Finset.range (2 * (ar.gpus - 1)), pacedFctNs ar.chunkPackets (cfg.hops ar) cfg.serNs
          cfg.periodNs cfg.topology.hostLink.propDelayNs := by
        rw [Finset.sum_const, Finset.card_range, smul_eq_mul]
    _ ≤ cfg.chainNs ar r := Finset.sum_le_sum fun u _ => hstep (r + u)

end Ring

/-- In every run of an all-reduce on equal links in which no addition to the virtual time
wraps: once all flows are complete, the collective has taken at least the reported figure,
provided that some dependency chain takes that long on an empty network. -/
theorem ring_bound (cfg : AllReduceConfig) (draws : Draws) (sc : AllReduceScenario)
    (ar : AllReduce) (h : Ring cfg draws sc ar)
    (hchain : ∃ r, r < ar.gpus ∧ cfg.analyticalNs ar ≤ cfg.chainNs ar r) (policy : RoutingPolicy)
    (hm : policy.Member) {s : State} (hs : sc.sim.Reachable policy s) (hw : s.wrapped = false)
    (hall : ∀ f, f < sc.sim.flowCount → (s.result f).complete = true) :
    sc.analyticalNs ≤ collectiveTimeNs (sc.sim.results s) := by
  obtain ⟨r, -, hle⟩ := hchain
  rw [h.specs.2]
  exact hle.trans (h.chainNs_le_collective hm hs hw hall r)

/-! ## Two hosts in two pods -/

/-- The two hosts, with so many bytes to reduce. -/
def pairRing (bytes : Nat) : AllReduceConfig where
  topology := { k := 2 }
  workload := { bufferBytes := bytes }

theorem pairRing_table (bytes : Nat) : FatTree.TableFits (pairRing bytes).topology.k := by
  show FatTree.TableFits 2
  decide

theorem wholeRing_builds : (buildAllReduce (pairRing 3000) {}).isSome = true := by decide +kernel

def wholeRing : AllReduceScenario := (buildAllReduce (pairRing 3000) {}).get wholeRing_builds

theorem wholeRing_makes :
    (makeRingAllReduce wholeRing.sim.fabric (pairRing 3000).params {}).isSome = true := by
  decide +kernel

def wholeReduce : AllReduce :=
  (makeRingAllReduce wholeRing.sim.fabric (pairRing 3000).params {}).get wholeRing_makes

theorem wholeRing_ring : Ring (pairRing 3000) {} wholeRing wholeReduce where
  built := (Option.some_get wholeRing_builds).symm
  table := pairRing_table _
  links := rfl
  made := (Option.some_get wholeRing_makes).symm
  ids := by decide +kernel

/-- One packet each way, twice: the run until the last has arrived. -/
def wholeLast : State :=
  (wholeRing.sim.beginRun Pair.fresh).runFor wholeRing.sim StaticFirstPolicy 76

theorem ring_bound_whole :
    wholeRing.analyticalNs ≤ collectiveTimeNs (wholeRing.sim.results wholeLast) :=
  ring_bound (pairRing 3000) {} wholeRing wholeReduce wholeRing_ring
    ⟨0, by decide +kernel, wholeRing_ring.analyticalNs_le_chainNs (by decide +kernel)
      (by decide +kernel) (by decide +kernel) 0⟩ StaticFirstPolicy staticFirst_member
    ((Simulation.Reachable.begin _).runFor 76) (by decide +kernel) (by decide +kernel)

theorem byteRing_builds : (buildAllReduce (pairRing 2) {}).isSome = true := by decide +kernel

def byteRing : AllReduceScenario := (buildAllReduce (pairRing 2) {}).get byteRing_builds

def byteLast : State :=
  (byteRing.sim.beginRun Pair.fresh).runFor byteRing.sim StaticFirstPolicy 76

/-- One byte each way, twice, takes 1230 ns, the second packet behind an ack on each of six
links; the figure is 2640 ns. -/
theorem one_byte_beats_ring_bound : ¬ ∀ (cfg : AllReduceConfig) (sc : AllReduceScenario) (s : State),
    buildAllReduce cfg {} = some sc → cfg.topology.fabricLink = cfg.topology.hostLink →
      sc.sim.Reachable StaticFirstPolicy s →
        (∀ f, f < sc.sim.flowCount → (s.result f).complete = true) →
          sc.analyticalNs ≤ collectiveTimeNs (sc.sim.results s) := by
  intro hall
  have hbound := hall (pairRing 2) byteRing byteLast (Option.some_get byteRing_builds).symm rfl
    ((Simulation.Reachable.begin _).runFor 76) (by decide +kernel)
  exact absurd hbound (by decide +kernel)

end FabricSim
