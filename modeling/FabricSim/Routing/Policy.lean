import FabricSim.Core.Units
import FabricSim.Routing.FlowKey
import Mathlib.Data.List.GetD

/-!
# Routing policies

A policy is whatever `select` returns. The code's concept lets it depend on the
node, the flow key, the candidates and the time; the first argument here is the
number of the event being dispatched, so that a `RoutingPolicy` may also choose
differently for every packet. What the results need of one is in `Member` (it
returns one of the candidates) and in `PerFlow` (it depends on node, key and
candidates only).
-/

namespace FabricSim

structure RoutingPolicy where
  select : Nat → NodeId → FlowKey → List PortId → Nat → PortId

namespace RoutingPolicy

/-- The choice is one of the candidates. -/
def Member (P : RoutingPolicy) : Prop :=
  ∀ call at' key cand now, cand ≠ [] → P.select call at' key cand now ∈ cand

/-- The choice does not depend on the packet or on the time. -/
def PerFlow (P : RoutingPolicy) : Prop :=
  ∀ call call' at' key cand now now',
    P.select call at' key cand now = P.select call' at' key cand now'

end RoutingPolicy

inductive RoutingAlgorithm where
  | staticFirst
  | ecmp
  deriving DecidableEq, Repr

/-- Always the first candidate. -/
def StaticFirstPolicy : RoutingPolicy where
  select _ _ _ cand _ := cand.getD 0 0

/-- Hash the 5-tuple, index the candidates. -/
def EcmpPolicy (seed : UInt64) : RoutingPolicy where
  select _ at' key cand _ :=
    if cand.length = 1 then cand.getD 0 0
    else cand.getD (hashToIndex (flowHash key (switchSalt (UInt32.ofNat at') seed)) cand.length).toNat 0

/-- The runtime dispatch of `run_with_routing`. -/
def RoutingAlgorithm.policy (algo : RoutingAlgorithm) (hashSeed : UInt64) : RoutingPolicy :=
  match algo with
  | .staticFirst => StaticFirstPolicy
  | .ecmp => EcmpPolicy hashSeed

theorem staticFirst_member : StaticFirstPolicy.Member := by
  intro call at' key cand now hne
  show cand.getD 0 0 ∈ cand
  rw [List.getD_eq_getElem _ _ (List.length_pos_of_ne_nil hne)]
  exact List.getElem_mem _

theorem ecmp_member (seed : UInt64) : (EcmpPolicy seed).Member := by
  intro call at' key cand now hne
  have hpos : 0 < cand.length := List.length_pos_of_ne_nil hne
  unfold EcmpPolicy
  dsimp only
  split
  · rw [List.getD_eq_getElem _ _ hpos]
    exact List.getElem_mem _
  · rw [List.getD_eq_getElem _ _ (hashToIndex_lt _ hpos)]
    exact List.getElem_mem _

theorem RoutingAlgorithm.policy_member (algo : RoutingAlgorithm) (seed : UInt64) :
    (algo.policy seed).Member := by
  cases algo with
  | staticFirst => exact staticFirst_member
  | ecmp => exact ecmp_member seed

theorem RoutingAlgorithm.policy_perFlow (algo : RoutingAlgorithm) (seed : UInt64) :
    (algo.policy seed).PerFlow := by
  cases algo with
  | staticFirst => exact fun _ _ _ _ _ _ _ => rfl
  | ecmp => exact fun _ _ _ _ _ _ _ => rfl

end FabricSim
