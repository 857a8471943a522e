import FabricSim.Core.Completion

/-!
# When `add_flow` sizes and lays out a flow correctly

The packet count is a 64-bit ceiling division narrowed to 32 bits, and the
slices of the flat arrays start at 32-bit offsets and are indexed in 32 bits
(`pktSlot`, `retxSlot`). `LaidOut` is what the rest of the code takes for
granted about both, down to what it is for: a flow reported complete has
delivered its size. `Fits` is when that is so, and nothing weaker will do: a
count that does not fit is too small, and the first slot past the 32-bit range
is the first slot of flow 0.
-/

namespace FabricSim

namespace Simulation

variable (sim : Simulation)

/-- A flow's cells are its own slice, inside the array, and no other flow's. -/
def Slices (slot : FlowId → Nat → Nat) (offset length : FlowId → Nat) : Prop :=
  ∀ f, f < sim.flowCount → ∀ i, i < length f →
    slot f i = offset f + i ∧ offset f + i < Csr.prefixSum length sim.flowCount ∧
      ∀ g, g < sim.flowCount → ∀ j, j < length g → offset f + i = offset g + j → f = g

structure LaidOut : Prop where
  count : ∀ f, f < sim.flowCount → 1 ≤ sim.packetsTotal f ∧
    (sim.packetsTotal f - 1) * (sim.spec f).mtuBytes < (sim.spec f).sizeBytes ∧
    (sim.spec f).sizeBytes ≤ sim.packetsTotal f * (sim.spec f).mtuBytes
  window : ∀ f, f < sim.flowCount → 1 ≤ sim.window f ∧ sim.window f ≤ sim.packetsTotal f
  pkt : sim.Slices sim.pktSlot sim.flowPktOffset sim.packetsTotal
  retx : sim.Slices sim.retxSlot sim.retxOffset sim.window
  delivered : ∀ (policy : RoutingPolicy) (s : State), sim.Reachable policy s →
    ∀ f, f < sim.flowCount → (s.result f).complete = true →
      (s.result f).deliveredBytes = (sim.spec f).sizeBytes

/-- No flow has more packets than 32 bits count, and all flows together have no
more than 32 bits index. -/
structure Fits : Prop where
  size_le : ∀ f, f < sim.flowCount →
    (sim.spec f).sizeBytes ≤ (2 ^ 32 - 1) * (sim.spec f).mtuBytes
  total_le : sim.packetsExact ≤ 2 ^ 32

variable {sim}

/-- Slices at 32-bit running offsets work exactly up to `2^32` cells. -/
theorem slices_iff {slot : FlowId → Nat → Nat} {offset length : FlowId → Nat}
    (hslot : ∀ f i, slot f i = u32 (offset f + i))
    (hoffset : ∀ f, offset f = u32 (Csr.prefixSum length f))
    (hpos : ∀ f, f < sim.flowCount → 0 < length f) :
    sim.Slices slot offset length ↔ Csr.prefixSum length sim.flowCount ≤ 2 ^ 32 := by
  constructor
  · intro h
    have hprefix : ∀ f, f ≤ sim.flowCount → Csr.prefixSum length f ≤ 2 ^ 32 := by
      intro f
      induction f with
      | zero => exact fun _ => Nat.zero_le _
      | succ f ih =>
        intro hf
        have hlen := hpos f hf
        rcases lt_or_eq_of_le (ih (Nat.le_of_succ_le hf)) with hlt | heq
        · -- the last slot of flow `f` is in range
          have hexact : offset f = Csr.prefixSum length f := (hoffset f).trans (u32_of_lt hlt)
          obtain ⟨hlast, -, -⟩ := h f hf (length f - 1) (by omega)
          have hbound : slot f (length f - 1) < 2 ^ 32 := by
            rw [hslot]
            exact u32_lt _
          show Csr.prefixSum length f + length f ≤ 2 ^ 32
          omega
        · -- flow `f` starts where flow 0 does
          have h0 : Csr.prefixSum length 0 = 0 := rfl
          have hzero : offset f = offset 0 := by
            rw [hoffset, hoffset, heq, h0]
            unfold u32
            rfl
          have hfirst : 0 < length 0 := hpos 0 (by omega)
          obtain ⟨-, -, hother⟩ := h f hf 0 hlen
          have hf0 : f = 0 := hother 0 (by omega) 0 hfirst (by rw [hzero])
          rw [hf0, h0] at heq
          exact absurd heq (by decide)
    exact hprefix _ (Nat.le_refl _)
  · intro h f hf i hi
    have hexact : ∀ g, g < sim.flowCount → ∀ j, j < length g →
        offset g = Csr.prefixSum length g ∧
          Csr.prefixSum length g + j < Csr.prefixSum length sim.flowCount := by
      intro g hg j hj
      have hle := Csr.prefixSum_add_le length hg
      exact ⟨(hoffset g).trans (u32_of_lt (by omega)), by omega⟩
    obtain ⟨hoff, hin⟩ := hexact f hf i hi
    refine ⟨?_, by omega, fun g hg j hj heq => ?_⟩
    · rw [hslot]
      exact u32_of_lt (by omega)
    · rw [hoff, (hexact g hg j hj).1] at heq
      exact (Csr.slot_inj length hi hj heq).1

/-- The sizing of one flow is right exactly when the count fits 32 bits. -/
theorem count_iff {f : FlowId} (hf : f < sim.flowCount) :
    (1 ≤ sim.packetsTotal f ∧
      (sim.packetsTotal f - 1) * (sim.spec f).mtuBytes < (sim.spec f).sizeBytes ∧
      (sim.spec f).sizeBytes ≤ sim.packetsTotal f * (sim.spec f).mtuBytes) ↔
    (sim.spec f).packetsExact < 2 ^ 32 := by
  have hacc := sim.spec_accepted hf
  constructor
  · rintro ⟨-, -, hle⟩
    have hword : sim.packetsTotal f < 2 ^ 32 := u32_lt _
    refine lt_of_le_of_lt ?_ hword
    rw [FlowSpec.packetsExact_le_iff hacc.mtu_pos]
    exact hle
  · intro h
    have htotal : sim.packetsTotal f = (sim.spec f).packetsExact :=
      FlowSpec.packetsTotal_eq hacc.mtu_pos hacc.mtu_le h
    have hpos := FlowSpec.packetsExact_pos hacc.mtu_pos hacc.size_pos
    rw [htotal]
    refine ⟨hpos, ?_, (FlowSpec.packetsExact_le_iff hacc.mtu_pos).mp le_rfl⟩
    by_contra hnot
    have := (FlowSpec.packetsExact_le_iff hacc.mtu_pos).mpr (not_lt.mp hnot)
    omega

theorem prefixSum_congr {d d' : Nat → Nat} {n : Nat} (h : ∀ i, i < n → d i = d' i) :
    Csr.prefixSum d n = Csr.prefixSum d' n :=
  le_antisymm (Csr.prefixSum_le_prefixSum fun i hi => (h i hi).le)
    (Csr.prefixSum_le_prefixSum fun i hi => (h i hi).ge)

theorem Fits.packetsExact_lt (h : sim.Fits) {f : FlowId} (hf : f < sim.flowCount) :
    (sim.spec f).packetsExact < 2 ^ 32 :=
  Nat.lt_of_le_pred (by decide)
    ((FlowSpec.packetsExact_le_iff (sim.spec_accepted hf).mtu_pos).mpr (h.size_le f hf))

theorem Fits.packetsTotal (h : sim.Fits) {f : FlowId} (hf : f < sim.flowCount) :
    sim.packetsTotal f = (sim.spec f).packetsExact :=
  FlowSpec.packetsTotal_eq (sim.spec_accepted hf).mtu_pos (sim.spec_accepted hf).mtu_le
    (h.packetsExact_lt hf)

theorem window_bounds {f : FlowId} (hpos : 0 < sim.packetsTotal f) :
    1 ≤ sim.window f ∧ sim.window f ≤ sim.packetsTotal f := by
  refine ⟨FlowSpec.window_pos _, ?_⟩
  unfold Simulation.packetsTotal at hpos ⊢
  unfold window FlowSpec.window
  split <;> omega

theorem Fits.laidOut (h : sim.Fits) : sim.LaidOut := by
  have hcount := fun f (hf : f < sim.flowCount) => (count_iff hf).mpr (h.packetsExact_lt hf)
  have htotal : Csr.prefixSum sim.packetsTotal sim.flowCount ≤ 2 ^ 32 := by
    rw [prefixSum_congr fun f hf => h.packetsTotal hf]
    exact h.total_le
  refine ⟨hcount, fun f hf => window_bounds (hcount f hf).1, ?_, ?_, ?_⟩
  · exact (slices_iff (fun _ _ => rfl) (fun _ => rfl) fun f hf => (hcount f hf).1).mpr htotal
  · refine (slices_iff (fun _ _ => rfl) (fun _ => rfl) fun f hf =>
      (window_bounds (hcount f hf).1).1).mpr ?_
    exact (Csr.prefixSum_le_prefixSum fun f hf => (window_bounds (hcount f hf).1).2).trans htotal
  · intro policy s hs f hf hc
    have hpos : 0 < sim.packetsTotal f := (hcount f hf).1
    have hall := ((hs.tally f).complete_iff (hs.receiver f) hpos).mp hc
    exact ((hs.tally f).bytes_eq_size_iff (sim.spec_accepted hf).mtu_pos
      (h.packetsTotal hf)).2.mpr hall

theorem LaidOut.fits (h : sim.LaidOut) : sim.Fits := by
  have hexact : ∀ f, f < sim.flowCount → (sim.spec f).packetsExact < 2 ^ 32 :=
    fun f hf => (count_iff hf).mp (h.count f hf)
  refine ⟨fun f hf => ?_, ?_⟩
  · exact (FlowSpec.packetsExact_le_iff (sim.spec_accepted hf).mtu_pos).mp
      (Nat.le_pred_of_lt (hexact f hf))
  · have htotal := (slices_iff (fun _ _ => rfl) (fun _ => rfl) fun f hf =>
      (h.count f hf).1).mp h.pkt
    have heq : ∀ f, f < sim.flowCount → (sim.spec f).packetsExact = sim.packetsTotal f := by
      intro f hf
      have hacc := sim.spec_accepted hf
      exact (FlowSpec.packetsTotal_eq hacc.mtu_pos hacc.mtu_le (hexact f hf)).symm
    unfold packetsExact
    rw [prefixSum_congr heq]
    exact htotal

end Simulation

/-- What `add_flow` accepts is sized and laid out correctly, and its completions
are real, exactly when every flow's packets can be counted in 32 bits and all
flows' packets together can be indexed in 32 bits. -/
theorem add_flow_layout (sim : Simulation) : sim.LaidOut ↔ sim.Fits :=
  ⟨fun h => h.fits, fun h => h.laidOut⟩

namespace Truncated

/-- One byte more than `2^32` full packets: the count is narrowed to 1. -/
def flow : FlowSpec where
  src := 2
  dst := 3
  sizeBytes := 2 ^ 32 * 1500 + 1

def simulation : Simulation where
  fabric := Pair.fabric
  routes := RouteTable.buildShortestPath Pair.fabric
  transport := { rtoNs := 100000 }
  specs := [flow]
  accepted := by
    intro i hi
    obtain rfl : i = 0 := Nat.lt_one_iff.mp hi
    show flow.Accepted Pair.fabric 0
    decide +kernel

/-- An object as a caller sets it up, before the flow. -/
def base : Simulation :=
  (Simulation.create Pair.fabric (RouteTable.buildShortestPath Pair.fabric)).setTransport
    { rtoNs := 100000 }

def last : State := (simulation.beginRun Pair.fresh).runFor simulation StaticFirstPolicy 100

end Truncated

/-- A flow of 6.4 TB that `add_flow` accepts, has one packet, and is complete
after 1500 bytes. -/
theorem add_flow_truncates :
    Truncated.base.addFlow Truncated.flow = some Truncated.simulation ∧
      Truncated.simulation.packetsTotal 0 = 1 ∧ (Truncated.last.result 0).complete = true ∧
      (Truncated.last.result 0).deliveredBytes = 1500 ∧ ¬ Truncated.simulation.LaidOut := by
  have haccepted : Truncated.flow.Accepted Pair.fabric 0 := by decide +kernel
  refine ⟨dif_pos haccepted, by decide +kernel, by decide +kernel, by decide +kernel, fun h => ?_⟩
  obtain ⟨-, -, hsize⟩ := h.count 0 (by decide)
  exact absurd hsize (by decide +kernel)

end FabricSim
