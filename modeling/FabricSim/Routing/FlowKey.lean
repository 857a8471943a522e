import Mathlib.Data.UInt

/-!
# The 5-tuple and its hash

The machine words here are fixed-width types, with their wrapping arithmetic:
this is the one part of the model where the code means the reduction.
-/

namespace FabricSim

structure FlowKey where
  srcIp : UInt32 := 0
  dstIp : UInt32 := 0
  srcPort : UInt16 := 0
  dstPort : UInt16 := 0
  protocol : UInt8 := 6
  deriving DecidableEq, Repr

/-- The splitmix64 finalizer. -/
def mix64 (x : UInt64) : UInt64 :=
  let x := x ^^^ (x >>> 30)
  let x := x * 0xBF58476D1CE4E5B9
  let x := x ^^^ (x >>> 27)
  let x := x * 0x94D049BB133111EB
  x ^^^ (x >>> 31)

/-- Hash of the 5-tuple under a per-switch salt. -/
def flowHash (k : FlowKey) (salt : UInt64) : UInt64 :=
  let addrs := (k.srcIp.toUInt64 <<< 32) ||| k.dstIp.toUInt64
  let ports := (k.srcPort.toUInt64 <<< 48) ||| (k.dstPort.toUInt64 <<< 32) |||
    (k.protocol.toUInt64 <<< 24)
  mix64 (mix64 (addrs ^^^ 0x9E3779B97F4A7C15) ^^^ ports ^^^ salt)

/-- Per-switch hash seed. -/
def switchSalt (node : UInt32) (seed : UInt64) : UInt64 :=
  mix64 (seed ^^^ ((node.toUInt64 <<< 1) ||| 1))

/-- Map a hash onto `[0, n)` by multiply and shift. -/
def hashToIndex (h : UInt64) (n : Nat) : UInt32 :=
  (((h >>> 32) * UInt64.ofNat n) >>> 32).toUInt32

/-- The index is in range for every positive fan-out. From `2^32` on the
product wraps, and the 32-bit result is in range for that reason instead. -/
theorem hashToIndex_lt (h : UInt64) {n : Nat} (hn : 0 < n) : (hashToIndex h n).toNat < n := by
  have htop : (h >>> 32).toNat < 2 ^ 32 := by
    rw [UInt64.toNat_shiftRight]
    have := h.toNat_lt
    show h.toNat >>> 32 < 2 ^ 32
    rw [Nat.shiftRight_eq_div_pow]
    omega
  rcases Nat.lt_or_ge n (2 ^ 32) with hsmall | hbig
  · have hmul : (h >>> 32).toNat * n < 2 ^ 32 * n := Nat.mul_lt_mul_of_pos_right htop hn
    have hprod : ((h >>> 32) * UInt64.ofNat n).toNat = (h >>> 32).toNat * n := by
      rw [UInt64.toNat_mul, UInt64.toNat_ofNat']
      rw [Nat.mod_eq_of_lt (show n < 2 ^ 64 by omega), Nat.mod_eq_of_lt (by omega)]
    unfold hashToIndex
    rw [UInt64.toNat_toUInt32, UInt64.toNat_shiftRight, hprod]
    show (((h >>> 32).toNat * n) >>> 32) % 2 ^ 32 < n
    rw [Nat.shiftRight_eq_div_pow]
    have hdiv : (h >>> 32).toNat * n / 2 ^ 32 < n := by
      rw [Nat.div_lt_iff_lt_mul (by decide), Nat.mul_comm n]
      exact hmul
    rw [Nat.mod_eq_of_lt (by omega)]
    exact hdiv
  · exact lt_of_lt_of_le (hashToIndex h n).toNat_lt hbig

end FabricSim
