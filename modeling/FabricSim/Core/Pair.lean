import FabricSim.Core.Layout
import FabricSim.Topology.LeafSpine

/-!
# Routed simulations

`Simulation.Wired` is what a run needs of its simulation: a connected fabric of
the builder whose hosts have one port, and the shortest-path table of the code.
`Simulation.Routed` adds that the entries of that table can be counted in 32 bits,
as its offsets are; only then does a switch find its own cell in it. `pair` is the
smallest such simulation with a flow in it, two hosts on one leaf.
-/

namespace FabricSim

structure Simulation.Wired (sim : Simulation) : Prop where
  built : ∃ b : FabricBuilder, b.Valid ∧ sim.fabric = b.build
  connected : sim.fabric.Connected
  singlePort : sim.fabric.SinglePortHosts
  routes : sim.routes = RouteTable.buildShortestPath sim.fabric

structure Simulation.Routed (sim : Simulation) : Prop extends sim.Wired where
  counted : sim.routes.entries.length < 2 ^ 32

theorem Simulation.Wired.wellFormed {sim : Simulation} (h : sim.Wired) :
    sim.fabric.WellFormed := by
  obtain ⟨b, hb, hf⟩ := h.built
  rw [hf]
  exact FabricBuilder.build_wellFormed hb

namespace Pair

def config : LeafSpineConfig where
  spineCount := 1
  leafCount := 1
  hostsPerLeaf := 2

def fabric : Fabric := (LeafSpine.builder config).build

/-- Two packets from host 0 to host 1. -/
def flow : FlowSpec where
  src := 2
  dst := 3
  sizeBytes := 3000

theorem flow_accepted : flow.Accepted fabric 0 := by decide +kernel

def simulation : Simulation where
  fabric := fabric
  routes := RouteTable.buildShortestPath fabric
  transport := { rtoNs := 100000 }
  specs := [flow]
  accepted := by
    intro i hi
    obtain rfl : i = 0 := Nat.lt_one_iff.mp hi
    exact flow_accepted

/-- What its numbers fit. -/
theorem fits : (RouteTable.buildShortestPath fabric).entries.length < 2 ^ 32 ∧
    simulation.fabric.portCount < 2 ^ 32 ∧ simulation.packetsExact ≤ 2 ^ 32 ∧
    ∀ p, p < simulation.fabric.portCount → (simulation.fabric.port p).rate = gbps 100 ∧
      (simulation.fabric.port p).propDelayNs = 100 := by
  decide +kernel

theorem ports_lt : simulation.fabric.portCount < 2 ^ 32 := fits.2.1

theorem packets_le : simulation.packetsExact ≤ 2 ^ 32 := fits.2.2.1

theorem linksAlike : simulation.fabric.LinksAlike (gbps 100) 100 := fits.2.2.2

theorem routed : simulation.Routed where
  built := ⟨_, LeafSpine.valid (by decide), rfl⟩
  connected := show (LeafSpine.builder config).build.Connected from
    LeafSpine.connected (by decide) (by decide) (by decide)
  singlePort := show (LeafSpine.builder config).build.SinglePortHosts from
    LeafSpine.singlePortHosts (by decide)
  routes := rfl
  counted := fits.1

theorem transport_accepted : simulation.transport.Accepted :=
  ⟨by decide, by decide, by decide, by decide, by decide⟩

/-- A state of a fresh object: nothing is left over from a run. -/
def fresh : State where
  queue := EventQueue.clear
  now := 0
  port := fabric.resetPort
  tx := fun _ => {}
  result := fun _ => {}
  pkt := fun _ _ => {}
  pktAttempt := fun _ _ => 0
  retxRing := fun _ _ => 0
  stats := {}
  wrapped := false
  serial := 0
  trace := []

/-- The last state of the run under `StaticFirstPolicy`. -/
def last : State := (simulation.beginRun fresh).runFor simulation StaticFirstPolicy 100

theorem last_ended : last.queue.empty = true ∧ last.wrapped = false ∧
    (last.result 0).complete = true := by
  unfold last
  decide +kernel

theorem last_drained : last.Drained := last_ended.1

theorem last_unwrapped : last.wrapped = false := last_ended.2.1

theorem last_complete : (last.result 0).complete = true := last_ended.2.2

end Pair

end FabricSim
