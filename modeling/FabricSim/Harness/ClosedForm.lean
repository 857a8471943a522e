import FabricSim.Core.Units
import Mathlib.Tactic.Ring

/-!
# The closed forms of the harness

What the scenarios compute from hop counts and per-link times: completion times,
the sufficient window, the retransmission timeout. `Nanos` arithmetic is modulo
`2^64`; addition and multiplication commute with the reduction, so one reduction
at the end is all there is to it. The lemmas say what the numbers are when
nothing wraps, and bound them when something might.
-/

namespace FabricSim

/-- Subtraction of one in `uint64`. -/
def pred64 (n : Nat) : Nat := n + (2 ^ 64 - 1)

def analyticalFctNs (packets hops serNs propNs : Nat) : Nat :=
  u64 ((pred64 packets + hops) * serNs + hops * propNs)

def pacedFctNs (packets hops serNs periodNs propNs : Nat) : Nat :=
  u64 (pred64 packets * periodNs + hops * serNs + hops * propNs)

/-- From putting a packet on the wire to its ack coming back, uncongested. -/
def roundTripNs (hops serNs ackSerNs propNs : Nat) : Nat :=
  u64 (hops * (serNs + propNs) + hops * (ackSerNs + propNs))

/-- The smallest window that keeps the pipe full of data. -/
def minWindowPackets (hops serNs ackSerNs propNs : Nat) : Nat :=
  u32 (u32 (roundTripNs hops serNs ackSerNs propNs / serNs) + 1)

def windowIsSufficient (windowPkts packets hops serNs ackSerNs propNs : Nat) : Bool :=
  packets ≤ windowPkts || minWindowPackets hops serNs ackSerNs propNs ≤ windowPkts

/-- Twice a round trip through a full buffer at every hop of the way out. -/
def defaultRtoNs (hops serNs ackSerNs propNs queuePkts : Nat) : Nat :=
  u64 (2 * (roundTripNs hops serNs ackSerNs propNs + hops * queuePkts * serNs))

def ackIsFree (ackBytes rate : Nat) : Bool := serializationNs ackBytes rate == 0

def allReduceAnalyticalNs (steps chunkPackets hops serNs periodNs propNs : Nat) : Nat :=
  u64 (steps * pacedFctNs chunkPackets hops serNs periodNs propNs)

theorem u64_add_mul (n m : Nat) : u64 (n + 2 ^ 64 * m) = u64 n := by
  unfold u64
  exact Nat.add_mul_mod_self_left ..

/-- One reduction at the end is all there is to it. -/
theorem defaultRtoNs_eq (hops serNs ackSerNs propNs queuePkts : Nat) :
    defaultRtoNs hops serNs ackSerNs propNs queuePkts =
      u64 (hops * (2 * (serNs + ackSerNs + 2 * propNs + queuePkts * serNs))) := by
  have hsplit : hops * (2 * (serNs + ackSerNs + 2 * propNs + queuePkts * serNs)) =
      2 * (hops * (serNs + propNs) + hops * (ackSerNs + propNs) + hops * queuePkts * serNs) := by
    ring
  rw [hsplit]
  unfold defaultRtoNs roundTripNs u64
  rw [Nat.mul_mod, Nat.mod_add_mod, ← Nat.mul_mod]

/-- A source at line rate. -/
theorem analyticalFctNs_eq_paced (packets hops serNs propNs : Nat) :
    analyticalFctNs packets hops serNs propNs = pacedFctNs packets hops serNs serNs propNs := by
  unfold analyticalFctNs pacedFctNs
  rw [Nat.add_mul]

/-- The decrement wraps, and the product with it, by whole words. -/
theorem pacedFctNs_u64 {packets : Nat} (h : 0 < packets) (hops serNs periodNs propNs : Nat) :
    pacedFctNs packets hops serNs periodNs propNs =
      u64 ((packets - 1) * periodNs + hops * (serNs + propNs)) := by
  have hsum : pred64 packets * periodNs + hops * serNs + hops * propNs =
      (packets - 1) * periodNs + hops * (serNs + propNs) + 2 ^ 64 * periodNs := by
    have hpred : pred64 packets = packets - 1 + 2 ^ 64 := by
      unfold pred64
      omega
    rw [hpred, Nat.add_mul, Nat.mul_add]
    omega
  unfold pacedFctNs
  rw [hsum, u64_add_mul]

/-- The closed form never exceeds its value on paper. -/
theorem pacedFctNs_le {packets : Nat} (h : 0 < packets) (hops serNs periodNs propNs : Nat) :
    pacedFctNs packets hops serNs periodNs propNs ≤
      (packets - 1) * periodNs + hops * (serNs + propNs) := by
  rw [pacedFctNs_u64 h]
  exact u64_le _

/-- It is that value when it fits. -/
theorem pacedFctNs_eq {packets hops serNs periodNs propNs : Nat} (h : 0 < packets)
    (hfit : (packets - 1) * periodNs + hops * (serNs + propNs) < 2 ^ 64) :
    pacedFctNs packets hops serNs periodNs propNs =
      (packets - 1) * periodNs + hops * (serNs + propNs) := by
  rw [pacedFctNs_u64 h]
  exact u64_of_lt hfit

end FabricSim
