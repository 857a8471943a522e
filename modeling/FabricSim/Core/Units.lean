import Mathlib.Algebra.Order.Group.Nat

/-!
# Integer units and fixed-width arithmetic

Virtual time (`Nanos`) is a `uint64` count of nanoseconds, sizes (`Bytes`) are
`uint64` counts, rates (`BitsPerSec`) too. All are `Nat` here, and wherever the
code's arithmetic can leave its width the reduction is written out with `u64`
or `u32`. Handles (`NodeId`, `PortId`, `FlowId`) are dense `uint32` indices in
the code and plain `Nat` here: an index is only ever compared and looked up.
-/

namespace FabricSim

abbrev NodeId := Nat
abbrev PortId := Nat
abbrev FlowId := Nat

/-- Reduction to a `std::uint64_t`. -/
@[irreducible] def u64 (n : Nat) : Nat := n % 2 ^ 64

/-- `static_cast<std::uint32_t>`. -/
@[irreducible] def u32 (n : Nat) : Nat := n % 2 ^ 32

theorem u64_of_lt {n : Nat} (h : n < 2 ^ 64) : u64 n = n := by
  unfold u64
  exact Nat.mod_eq_of_lt h

theorem u64_lt (n : Nat) : u64 n < 2 ^ 64 := by
  unfold u64
  exact Nat.mod_lt _ (by decide)

theorem u64_le (n : Nat) : u64 n ≤ n := by
  unfold u64
  exact Nat.mod_le _ _

theorem u32_le (n : Nat) : u32 n ≤ n := by
  unfold u32
  exact Nat.mod_le _ _

theorem u32_lt (n : Nat) : u32 n < 2 ^ 32 := by
  unfold u32
  exact Nat.mod_lt _ (by decide)

theorem u32_of_lt {n : Nat} (h : n < 2 ^ 32) : u32 n = n := by
  unfold u32
  exact Nat.mod_eq_of_lt h

/-- A counter of a word counts modulo its width. -/
theorem u32_u32_add (n k : Nat) : u32 (u32 n + k) = u32 (n + k) := by
  unfold u32
  exact Nat.mod_add_mod n _ k

def kNanosPerSec : Nat := 1000000000
def kBitsPerByte : Nat := 8

/-- The largest packet the model accepts. -/
def kMaxPacketBytes : Nat := 9216

def gbps (g : Nat) : Nat := g * 1000000000

/-- Time to clock `bytes` onto a link of the given rate: a truncating division.
The numerator of a single packet stays far below `2^64`. -/
def serializationNs (bytes : Nat) (rate : Nat) : Nat :=
  bytes * kBitsPerByte * kNanosPerSec / rate

/-- Whether `serializationNs` divides without remainder. -/
def serializationIsExact (bytes : Nat) (rate : Nat) : Bool :=
  bytes * kBitsPerByte * kNanosPerSec % rate == 0

theorem serializationNs_mono {a b : Nat} (h : a ≤ b) (rate : Nat) :
    serializationNs a rate ≤ serializationNs b rate :=
  Nat.div_le_div_right (Nat.mul_le_mul_right _ (Nat.mul_le_mul_right _ h))

end FabricSim
