import FabricSim.Model.Fabric
import FabricSim.Routing.FlowKey
import Mathlib.Algebra.BigOperators.Group.Finset.Basic

/-!
# Flow specifications and what the simulator derives from them

A `FlowSpec` is what a workload asks for; `FlowSpec.Accepted` is what `add_flow`
asserts of it. The packet count, window and packet sizes below are the code's
own arithmetic: the count is computed in 64 bits and narrowed to 32.
-/

namespace FabricSim

structure TransportConfig where
  ackBytes : Nat := 64
  rtoNs : Nat := 0
  maxAttempts : Nat := 8
  deriving DecidableEq, Repr

/-- The assertions of `begin_run`; `maxAttempts` is a `uint8_t`. -/
structure TransportConfig.Accepted (t : TransportConfig) : Prop where
  rto_pos : 0 < t.rtoNs
  attempts_pos : 0 < t.maxAttempts
  attempts_lt : t.maxAttempts < 256
  ack_pos : 0 < t.ackBytes
  ack_le : t.ackBytes ≤ kMaxPacketBytes

structure FlowSpec where
  src : NodeId := 0
  dst : NodeId := 0
  sizeBytes : Nat := 0
  startNs : Nat := 0
  mtuBytes : Nat := 1500
  srcPort : UInt16 := 0
  dstPort : UInt16 := 0
  protocol : UInt8 := 6
  windowPkts : Nat := 32
  loadPermille : Nat := 1000
  /-- The flow whose completion starts this one. -/
  dependsOn : Option FlowId := none
  deriving DecidableEq, Repr

instance : Inhabited FlowSpec := ⟨{}⟩

namespace FlowSpec

/-- The assertions of `add_flow` on the `count`-th flow of a simulation. -/
structure Accepted (f : Fabric) (count : Nat) (s : FlowSpec) : Prop where
  mtu_pos : 0 < s.mtuBytes
  mtu_le : s.mtuBytes ≤ kMaxPacketBytes
  size_pos : 0 < s.sizeBytes
  src_host : (f.node s.src).isHost = true
  dst_host : (f.node s.dst).isHost = true
  src_ne_dst : s.src ≠ s.dst
  load_pos : 0 < s.loadPermille
  load_le : s.loadPermille ≤ 1000
  depends_lt : ∀ d ∈ s.dependsOn, d < count

theorem accepted_iff (f : Fabric) (count : Nat) (s : FlowSpec) :
    s.Accepted f count ↔
      0 < s.mtuBytes ∧ s.mtuBytes ≤ kMaxPacketBytes ∧ 0 < s.sizeBytes ∧
        (f.node s.src).isHost = true ∧ (f.node s.dst).isHost = true ∧ s.src ≠ s.dst ∧
        0 < s.loadPermille ∧ s.loadPermille ≤ 1000 ∧ ∀ d ∈ s.dependsOn, d < count :=
  ⟨fun ⟨a, b, c, d, e, f, g, h, i⟩ => ⟨a, b, c, d, e, f, g, h, i⟩,
    fun ⟨a, b, c, d, e, f, g, h, i⟩ => ⟨a, b, c, d, e, f, g, h, i⟩⟩

instance (f : Fabric) (count : Nat) (s : FlowSpec) : Decidable (s.Accepted f count) :=
  decidable_of_iff _ (accepted_iff f count s).symm

def packetsTotal (s : FlowSpec) : Nat := u32 (u64 (s.sizeBytes + s.mtuBytes - 1) / s.mtuBytes)

/-- The packets a flow has on paper: `⌈size / mtu⌉`, in exact arithmetic. -/
def packetsExact (s : FlowSpec) : Nat := (s.sizeBytes + s.mtuBytes - 1) / s.mtuBytes

def window (s : FlowSpec) : Nat :=
  if min s.windowPkts s.packetsTotal = 0 then 1 else min s.windowPkts s.packetsTotal

/-- The size of packet `idx`; the last one carries the remainder. -/
def packetBytes (s : FlowSpec) (idx : Nat) : Nat :=
  let remaining := s.sizeBytes - idx * s.mtuBytes
  if remaining < s.mtuBytes then remaining else s.mtuBytes

theorem window_pos (s : FlowSpec) : 0 < s.window := by
  unfold window
  split <;> omega

theorem packetBytes_le (s : FlowSpec) (idx : Nat) : s.packetBytes idx ≤ s.mtuBytes := by
  unfold packetBytes
  dsimp only
  split <;> omega

/-- A count that fits 32 bits is computed exactly. -/
theorem packetsTotal_eq {s : FlowSpec} (hmtu : 0 < s.mtuBytes) (hle : s.mtuBytes ≤ kMaxPacketBytes)
    (h : s.packetsExact < 2 ^ 32) : s.packetsTotal = s.packetsExact := by
  have hsum : s.sizeBytes + s.mtuBytes - 1 < 2 ^ 64 := by
    have hlt : s.sizeBytes + s.mtuBytes - 1 < (s.packetsExact + 1) * s.mtuBytes := by
      unfold packetsExact
      have := Nat.div_add_mod (s.sizeBytes + s.mtuBytes - 1) s.mtuBytes
      have := Nat.mod_lt (s.sizeBytes + s.mtuBytes - 1) hmtu
      rw [Nat.succ_mul, Nat.mul_comm]
      omega
    calc s.sizeBytes + s.mtuBytes - 1 < (s.packetsExact + 1) * s.mtuBytes := hlt
      _ ≤ 2 ^ 32 * kMaxPacketBytes := Nat.mul_le_mul (by omega) hle
      _ ≤ 2 ^ 64 := by decide
  unfold packetsTotal
  rw [u64_of_lt hsum]
  exact u32_of_lt h

/-- Narrowing can only lose packets. -/
theorem packetsTotal_le (s : FlowSpec) : s.packetsTotal ≤ s.packetsExact :=
  (u32_le _).trans (Nat.div_le_div_right (u64_le _))

/-- Every packet of a flow of whole packets is whole. -/
theorem packetBytes_of_dvd {s : FlowSpec} (h : s.mtuBytes ∣ s.sizeBytes) {idx : Nat}
    (hidx : idx < s.packetsTotal) : s.packetBytes idx = s.mtuBytes := by
  obtain ⟨k, hk⟩ := h
  have hlt := lt_of_lt_of_le hidx s.packetsTotal_le
  unfold packetsExact at hlt
  have hroom : idx * s.mtuBytes + s.mtuBytes ≤ s.sizeBytes := by
    rcases Nat.eq_zero_or_pos s.mtuBytes with hzero | hpos
    · rw [hzero]
      exact Nat.zero_le _
    have hdiv : (s.sizeBytes + s.mtuBytes - 1) / s.mtuBytes ≤ k := by
      rw [← Nat.lt_succ_iff, Nat.div_lt_iff_lt_mul hpos, hk, Nat.succ_mul, Nat.mul_comm k]
      omega
    rw [hk, ← Nat.succ_mul, Nat.mul_comm]
    exact Nat.mul_le_mul_left _ (by omega)
  unfold packetBytes
  dsimp only
  split <;> omega

/-- The exact count is the least that covers the size. -/
theorem packetsExact_le_iff {s : FlowSpec} (hmtu : 0 < s.mtuBytes) {k : Nat} :
    s.packetsExact ≤ k ↔ s.sizeBytes ≤ k * s.mtuBytes := by
  unfold packetsExact
  rw [← Nat.lt_succ_iff, Nat.div_lt_iff_lt_mul hmtu, Nat.succ_mul]
  omega

/-- The first `k` packets carry what `k` full packets would, up to the size. -/
theorem sum_packetBytes_range (s : FlowSpec) (k : Nat) :
    ∑ i ∈ Finset.range k, s.packetBytes i = min (k * s.mtuBytes) s.sizeBytes := by
  induction k with
  | zero => simp
  | succ k ih =>
    rw [Finset.sum_range_succ, ih, Nat.succ_mul]
    unfold packetBytes
    dsimp only
    split <;> omega

/-- All packets of a flow together carry its size. -/
theorem sum_packetBytes {s : FlowSpec} (hmtu : 0 < s.mtuBytes) :
    ∑ i ∈ Finset.range s.packetsExact, s.packetBytes i = s.sizeBytes := by
  rw [sum_packetBytes_range]
  exact Nat.min_eq_right ((packetsExact_le_iff hmtu).mp le_rfl)

theorem packetBytes_pos {s : FlowSpec} (hmtu : 0 < s.mtuBytes) {idx : Nat}
    (hidx : idx < s.packetsExact) : 0 < s.packetBytes idx := by
  have hle : (idx + 1) * s.mtuBytes ≤ s.sizeBytes + s.mtuBytes - 1 :=
    (Nat.le_div_iff_mul_le hmtu).mp hidx
  rw [Nat.succ_mul] at hle
  unfold packetBytes
  dsimp only
  split <;> omega

theorem packetsExact_pos {s : FlowSpec} (hmtu : 0 < s.mtuBytes) (hsize : 0 < s.sizeBytes) :
    0 < s.packetsExact :=
  Nat.div_pos (by omega) hmtu

end FlowSpec

/-- Per-flow routing state: two hash keys and two table columns, because an ack
is routed independently of its data. -/
structure FlowRoute where
  fwdKey : FlowKey
  revKey : FlowKey
  dstHost : Nat
  srcHost : Nat
  srcNic : PortId
  dstNic : PortId

def FlowSpec.route (s : FlowSpec) (f : Fabric) : FlowRoute where
  fwdKey := ⟨UInt32.ofNat (f.hostIndex s.src), UInt32.ofNat (f.hostIndex s.dst), s.srcPort,
    s.dstPort, s.protocol⟩
  revKey := ⟨UInt32.ofNat (f.hostIndex s.dst), UInt32.ofNat (f.hostIndex s.src), s.dstPort,
    s.srcPort, s.protocol⟩
  dstHost := f.hostIndex s.dst
  srcHost := f.hostIndex s.src
  srcNic := (f.portsOf s.src).getD 0 0
  dstNic := (f.portsOf s.dst).getD 0 0

end FabricSim
