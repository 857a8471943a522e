import FabricSim.Topology.FatTree
import FabricSim.Workload.Permutation

/-!
# Ring all-reduce

`2 (N - 1)` steps of `N` flows each, in step-major order: in every step rank `r`
sends one chunk to rank `r + 1`, and from the second step on only after the chunk
of the step before has come in from rank `r - 1`. The simulator numbers flows in
the order they are added, so flow `s * N + r` is rank `r`'s send in step `s`, and
the dependencies are written down with those numbers.
-/

namespace FabricSim

inductive RingPlacement where
  /-- Rank `r` on host `r`. -/
  | sequential
  /-- Rank `r` in pod `r mod k`. -/
  | roundRobinPods
  deriving DecidableEq, Repr

structure AllReduceParams where
  seed : UInt64 := 0
  bufferBytes : Nat := 19200000
  mtuBytes : Nat := 1500
  windowPkts : Nat := 32
  /-- 0: every host of the fabric. -/
  gpuCount : Nat := 0
  loadPermille : Nat := 1000
  placement : RingPlacement := .roundRobinPods
  fatTreeK : Nat := 0

structure AllReduce where
  flows : List FlowSpec
  rankToHost : List Nat
  gpus : Nat
  steps : Nat
  chunkBytes : Nat
  chunkPackets : Nat
  chunkExact : Bool

/-- `none` when an assertion fails. -/
def placeRanks (f : Fabric) (p : AllReduceParams) (gpus : Nat) : Option (List Nat) :=
  match p.placement with
  | .sequential => some (List.range gpus)
  | .roundRobinPods =>
    let k := p.fatTreeK
    if 2 ≤ k ∧ k % 2 = 0 ∧ gpus = f.hostCount then
      some ((List.range gpus).map fun r => u32 (r % k * fatTreeHostsPerPod k + r / k))
    else none

namespace AllReduce

/-- The host a rank runs on. -/
def hostOf (rankToHost : List Nat) (r : Nat) : Nat := rankToHost.getD r 0

/-- Rank `r`'s send in step `s`. -/
def ringFlow (f : Fabric) (params : AllReduceParams) (draws : Draws) (gpus chunkBytes : Nat)
    (rankToHost : List Nat) (s r : Nat) : FlowSpec where
  src := f.hostAt (hostOf rankToHost r)
  dst := f.hostAt (hostOf rankToHost (u32 (r + 1) % gpus))
  sizeBytes := chunkBytes
  mtuBytes := params.mtuBytes
  windowPkts := params.windowPkts
  loadPermille := params.loadPermille
  srcPort := ephemeralPort draws r
  dstPort := 5001
  startNs := 0
  -- what rank `r` forwards in step `s` is what rank `r - 1` sent in step `s - 1`
  dependsOn := if 0 < s then some (u32 ((s - 1) * gpus + u32 (r + gpus - 1) % gpus)) else none

end AllReduce

/-- `none` when an assertion fails. -/
def makeRingAllReduce (f : Fabric) (params : AllReduceParams) (draws : Draws) :
    Option AllReduce :=
  let gpus := if params.gpuCount = 0 then u32 f.hostCount else params.gpuCount
  if 2 ≤ gpus ∧ gpus ≤ f.hostCount then
    let steps := u32 (2 * (gpus - 1))
    let chunkBytes := params.bufferBytes / gpus
    if 0 < chunkBytes then
      (placeRanks f params gpus).map fun rankToHost =>
        { flows := (List.range steps).flatMap fun s => (List.range gpus).map fun r =>
            AllReduce.ringFlow f params draws gpus chunkBytes rankToHost s r
          rankToHost := rankToHost
          gpus := gpus
          steps := steps
          chunkBytes := chunkBytes
          chunkPackets := u32 (u64 (chunkBytes + params.mtuBytes - 1) / params.mtuBytes)
          chunkExact := params.bufferBytes % gpus == 0 && chunkBytes % params.mtuBytes == 0 }
    else none
  else none

/-- What the generator returns, when its assertions hold. -/
structure AllReduce.Made (f : Fabric) (params : AllReduceParams) (draws : Draws) (ar : AllReduce) :
    Prop where
  gpus_eq : ar.gpus = if params.gpuCount = 0 then u32 f.hostCount else params.gpuCount
  gpus_ge : 2 ≤ ar.gpus
  gpus_le : ar.gpus ≤ f.hostCount
  steps_eq : ar.steps = u32 (2 * (ar.gpus - 1))
  chunk_eq : ar.chunkBytes = params.bufferBytes / ar.gpus
  chunk_pos : 0 < ar.chunkBytes
  placed : placeRanks f params ar.gpus = some ar.rankToHost
  flows_eq : ar.flows = (List.range ar.steps).flatMap fun s => (List.range ar.gpus).map fun r =>
    AllReduce.ringFlow f params draws ar.gpus ar.chunkBytes ar.rankToHost s r
  packets_eq : ar.chunkPackets = u32 (u64 (ar.chunkBytes + params.mtuBytes - 1) / params.mtuBytes)
  exact_eq : ar.chunkExact =
    (params.bufferBytes % ar.gpus == 0 && ar.chunkBytes % params.mtuBytes == 0)

theorem makeRingAllReduce_made {f : Fabric} {params : AllReduceParams} {draws : Draws}
    {ar : AllReduce} (h : makeRingAllReduce f params draws = some ar) :
    ar.Made f params draws := by
  unfold makeRingAllReduce at h
  dsimp only at h
  generalize hgpus : (if params.gpuCount = 0 then u32 f.hostCount else params.gpuCount) = gpus at h
  split at h
  · next hg =>
    split at h
    · next hchunk =>
      obtain ⟨ranks, hranks, rfl⟩ := Option.map_eq_some_iff.mp h
      exact ⟨hgpus.symm, hg.1, hg.2, rfl, rfl, hchunk, hranks, rfl, rfl, rfl⟩
    · exact absurd h (by simp)
  · exact absurd h (by simp)

/-- Each flow of the workload is one rank's send in one step. -/
theorem mem_makeRingAllReduce {f : Fabric} {params : AllReduceParams} {draws : Draws}
    {ar : AllReduce} (h : makeRingAllReduce f params draws = some ar) {spec : FlowSpec}
    (hs : spec ∈ ar.flows) : ∃ s r, s < ar.steps ∧ r < ar.gpus ∧
      spec = AllReduce.ringFlow f params draws ar.gpus ar.chunkBytes ar.rankToHost s r := by
  rw [(makeRingAllReduce_made h).flows_eq] at hs
  obtain ⟨s, hsteps, hin⟩ := List.mem_flatMap.mp hs
  obtain ⟨r, hr, rfl⟩ := List.mem_map.mp hin
  exact ⟨s, r, List.mem_range.mp hsteps, List.mem_range.mp hr, rfl⟩

end FabricSim
