import FabricSim.Core.Barrier
import FabricSim.Core.Bookkeeping
import FabricSim.Core.Clock
import FabricSim.Core.ClockBound
import FabricSim.Core.Completion
import FabricSim.Core.Conservation
import FabricSim.Core.Discipline
import FabricSim.Core.FlowAccount
import FabricSim.Core.LinkServer
import FabricSim.Core.MemoryRun
import FabricSim.Core.Order
import FabricSim.Core.QueueHistory
import FabricSim.Core.Rerun
import FabricSim.Core.Sizing
import FabricSim.Core.Termination
import FabricSim.Harness.AckLimited
import FabricSim.Harness.AutoTimeout
import FabricSim.Apps.Program
import FabricSim.Harness.BestCase
import FabricSim.Harness.FullBuffers
import FabricSim.Harness.LossTolerance
import FabricSim.Harness.RingReduce
import FabricSim.Harness.WindowLimited
import FabricSim.Metrics.Digest
import FabricSim.Metrics.Summary
import FabricSim.Model.BuilderLayout
import FabricSim.Routing.EcmpHash
import FabricSim.Routing.Multipath
import FabricSim.Topology.FatTreePaths
import FabricSim.Workload.Rng
import FabricSim.Workload.Streams
