import FabricSim.Core.Flow

/-!
# Permutation traffic

Every host sends one flow to another host. The three random streams of the
generator enter as the values that their draws returned (`Draws`): the model is
a function of those, and what is proved of it for all draws holds for every seed.
-/

namespace FabricSim

/-- What the streams of a workload returned: `below i` of the permutation stream
when it places position `i`, the `i`-th `below 63488` of the port stream, and the
`i`-th `below64 n` of the stream of starting times. -/
structure Draws where
  swap : Nat → Nat := fun _ => 0
  port : Nat → Nat := fun _ => 0
  start : Nat → Nat → Nat := fun _ _ => 0

structure PermutationParams where
  seed : UInt64 := 0
  flowBytes : Nat := 1000000
  mtuBytes : Nat := 1500
  loadPermille : Nat := 1000
  windowPkts : Nat := 32
  /-- 0: every flow starts at time 0. -/
  maxStartJitterNs : Nat := 0

/-- Exchange two entries. -/
def exchange (dst : Nat → Nat) (i j : Nat) : Nat → Nat :=
  Function.update (Function.update dst i (dst j)) j (dst i)

/-- The positions from `i` down to 1, each exchanged with one strictly below it. -/
def sattolo (swap : Nat → Nat) : Nat → (Nat → Nat) → Nat → Nat
  | 0, dst => dst
  | i + 1, dst => sattolo swap i (exchange dst (i + 1) (swap (i + 1)))

/-- Where each of `n` hosts sends. -/
def permutationOf (draws : Draws) (n : Nat) : Nat → Nat := sattolo draws.swap (n - 1) id

/-- The source port of a flow: ephemeral, and what ECMP hashes on. -/
def ephemeralPort (draws : Draws) (i : Nat) : UInt16 := UInt16.ofNat (u32 (1024 + draws.port i))

/-- The flow of host `h`. -/
def permutationFlow (f : Fabric) (params : PermutationParams) (draws : Draws) (dst : Nat → Nat)
    (h : Nat) : FlowSpec where
  src := f.hostAt h
  dst := f.hostAt (dst h)
  sizeBytes := params.flowBytes
  mtuBytes := params.mtuBytes
  loadPermille := params.loadPermille
  windowPkts := params.windowPkts
  srcPort := ephemeralPort draws h
  dstPort := 5001
  startNs := if params.maxStartJitterNs = 0 then 0
    else draws.start (u64 (params.maxStartJitterNs + 1)) h

/-- `none` when an assertion fails: too few hosts, a load out of range, or a host
that is its own destination. -/
def makePermutation (f : Fabric) (params : PermutationParams) (draws : Draws) :
    Option (List FlowSpec) :=
  let n := u32 f.hostCount
  let dst := permutationOf draws n
  if (2 ≤ n ∧ 0 < params.loadPermille ∧ params.loadPermille ≤ 1000) ∧
      ∀ h ∈ List.range n, dst h ≠ h then
    some ((List.range n).map (permutationFlow f params draws dst))
  else none

theorem makePermutation_eq {f : Fabric} {params : PermutationParams} {draws : Draws}
    {flows : List FlowSpec} (h : makePermutation f params draws = some flows) :
    flows = (List.range (u32 f.hostCount)).map
      (permutationFlow f params draws (permutationOf draws (u32 f.hostCount))) := by
  unfold makePermutation at h
  dsimp only at h
  split at h
  · exact (Option.some.inj h).symm
  · exact absurd h (by simp)

/-- Each flow of the workload is one host's. -/
theorem mem_makePermutation {f : Fabric} {params : PermutationParams} {draws : Draws}
    {flows : List FlowSpec} (h : makePermutation f params draws = some flows) {spec : FlowSpec}
    (hs : spec ∈ flows) : ∃ i,
      spec = permutationFlow f params draws (permutationOf draws (u32 f.hostCount)) i := by
  rw [makePermutation_eq h] at hs
  obtain ⟨i, -, hi⟩ := List.mem_map.mp hs
  exact ⟨i, hi.symm⟩

end FabricSim
