import FabricSim.Core.Units
import FabricSim.Lib.BoundedFifo

/-!
# Packets and the drop-tail queue

A packet is metadata only. `Tag` is the one thing here that the code does not
have: a history tag written when a packet is emitted and extended when it is
forwarded, read by no function of the model. It gives the statements a name for
one transmission (`serial`, and the `attempt` it belongs to) and for the links
it has crossed (`route`); the code rebuilds the packet at every hop and forgets
both.

`PacketRing` is the library's bounded FIFO at packets.
-/

namespace FabricSim

/-- Data and acknowledgements share queues and wires. -/
inductive PacketKind where
  | data
  | ack
  deriving DecidableEq, Repr

/-- History of one emission: its serial number, the attempt of the data
transmission it belongs to, and the links already crossed, latest first. -/
structure Tag where
  serial : Nat := 0
  attempt : Nat := 0
  route : List PortId := []
  deriving DecidableEq, Repr

structure Packet where
  flow : FlowId
  index : Nat
  bytes : Nat
  kind : PacketKind
  attempt : Nat
  tag : Tag := {}
  deriving DecidableEq, Repr

instance : Inhabited Packet := ⟨⟨0, 0, 0, .data, 0, {}⟩⟩

abbrev PacketRing := BoundedFifo Packet

end FabricSim
