import FabricSim.Core.Dependents

/-!
# The flat per-flow arrays

`add_flow` gives every flow a slice of the per-packet arrays and a slice of the
retransmission ring, at 32-bit offsets. As long as the packets of all flows
together fit 32 bits, the offsets are the exact running sums, so slots of
different flows never meet: tables indexed by flow and position, as `State` has
them, are a faithful view of the flat arrays.
-/

namespace FabricSim.Simulation

/-- The index of a packet's cell in `pkt_state_` and `pkt_attempt_`. -/
def pktSlot (sim : Simulation) (f : FlowId) (idx : Nat) : Nat := u32 (sim.flowPktOffset f + idx)

/-- The index of a cell of a flow's ring in `retx_ring_`. -/
def retxSlot (sim : Simulation) (f : FlowId) (i : Nat) : Nat := u32 (sim.retxOffset f + i)

variable {sim : Simulation}

/-- The packets of all flows together, in exact arithmetic. -/
def packetsExact (sim : Simulation) : Nat :=
  Csr.prefixSum (fun f => (sim.spec f).packetsExact) sim.flowCount

theorem packetsExact_le (h : sim.packetsExact < 2 ^ 32) {f : FlowId} (hf : f < sim.flowCount) :
    (sim.spec f).packetsExact < 2 ^ 32 := by
  have := Csr.prefixSum_add_le (fun f => (sim.spec f).packetsExact) hf
  unfold packetsExact at h
  omega

/-- The count is exact and positive. -/
theorem packetsTotal_eq (h : sim.packetsExact < 2 ^ 32) {f : FlowId} (hf : f < sim.flowCount) :
    sim.packetsTotal f = (sim.spec f).packetsExact ∧ 0 < sim.packetsTotal f := by
  have hacc := sim.spec_accepted hf
  have heq : sim.packetsTotal f = (sim.spec f).packetsExact :=
    FlowSpec.packetsTotal_eq hacc.mtu_pos hacc.mtu_le (packetsExact_le h hf)
  exact ⟨heq, heq ▸ FlowSpec.packetsExact_pos hacc.mtu_pos hacc.size_pos⟩

theorem window_le (h : sim.packetsExact < 2 ^ 32) {f : FlowId} (hf : f < sim.flowCount) :
    sim.window f ≤ (sim.spec f).packetsExact := by
  obtain ⟨heq, hpos⟩ := packetsTotal_eq h hf
  unfold packetsTotal at heq hpos
  unfold window FlowSpec.window
  split <;> omega

theorem retxOffset_eq (h : sim.packetsExact < 2 ^ 32) {f : FlowId} (hf : f ≤ sim.flowCount) :
    sim.retxOffset f = Csr.prefixSum sim.window f := by
  refine u32_of_lt (lt_of_le_of_lt ?_ h)
  calc Csr.prefixSum sim.window f
      ≤ Csr.prefixSum (fun f => (sim.spec f).packetsExact) f :=
        Csr.prefixSum_le_prefixSum fun i hi => window_le h (lt_of_lt_of_le hi hf)
    _ ≤ sim.packetsExact := Csr.prefixSum_mono _ hf

/-- The packets of all flows, narrowed or not. -/
theorem prefixSum_packetsTotal_le (sim : Simulation) {f : FlowId} (hf : f ≤ sim.flowCount) :
    Csr.prefixSum sim.packetsTotal f ≤ sim.packetsExact :=
  (Csr.prefixSum_le_prefixSum fun _ _ => FlowSpec.packetsTotal_le _).trans (Csr.prefixSum_mono _ hf)

theorem flowPktOffset_eq (h : sim.packetsExact < 2 ^ 32) {f : FlowId} (hf : f ≤ sim.flowCount) :
    sim.flowPktOffset f = Csr.prefixSum sim.packetsTotal f :=
  u32_of_lt ((sim.prefixSum_packetsTotal_le hf).trans_lt h)

/-- Every flow has a packet, so a flow's id fits where a count of packets does. -/
theorem flowCount_lt (h : sim.packetsExact < 2 ^ 32) : sim.flowCount < 2 ^ 32 := by
  have hle : ∀ n, n ≤ sim.flowCount → n ≤ Csr.prefixSum sim.packetsTotal n := by
    intro n
    induction n with
    | zero => intro _; exact Nat.zero_le _
    | succ n ih =>
      intro hn
      have hpos := (packetsTotal_eq h (show n < sim.flowCount from hn)).2
      exact Nat.add_le_add (ih (Nat.le_of_succ_le hn)) hpos
  exact ((hle _ (Nat.le_refl _)).trans (sim.prefixSum_packetsTotal_le (Nat.le_refl _))).trans_lt h

/-- A packet's cell is where the exact sum puts it. -/
theorem pktSlot_eq (h : sim.packetsExact < 2 ^ 32) {f : FlowId} (hf : f < sim.flowCount) {idx : Nat}
    (hidx : idx < sim.packetsTotal f) :
    sim.pktSlot f idx = Csr.prefixSum sim.packetsTotal f + idx := by
  have hin := Csr.prefixSum_add_le sim.packetsTotal hf
  have hle := sim.prefixSum_packetsTotal_le (Nat.le_refl sim.flowCount)
  unfold pktSlot
  rw [flowPktOffset_eq h hf.le]
  exact u32_of_lt (by omega)

theorem retxSlot_eq (h : sim.packetsExact < 2 ^ 32) {f : FlowId} (hf : f < sim.flowCount) {i : Nat}
    (hi : i < sim.window f) : sim.retxSlot f i = Csr.prefixSum sim.window f + i := by
  have hnext := retxOffset_eq h (show f + 1 ≤ sim.flowCount from hf)
  have hlt : Csr.prefixSum sim.window (f + 1) < 2 ^ 32 := hnext ▸ u32_lt _
  have hin : Csr.prefixSum sim.window f + i < Csr.prefixSum sim.window (f + 1) :=
    Nat.add_lt_add_left hi _
  unfold retxSlot
  rw [retxOffset_eq h hf.le]
  exact u32_of_lt (hin.trans hlt)

end FabricSim.Simulation
