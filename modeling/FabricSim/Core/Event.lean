import FabricSim.Model.Packet

/-!
# Events

The code's `Event` has three generic slots and typed accessors over them; the
constructors of `EventBody` are its four `static` builders with the slots each
of them fills.
-/

namespace FabricSim

/-- What an event does when it is dispatched. -/
inductive EventBody where
  /-- A flow may send. -/
  | inject (f : FlowId)
  /-- An output port finished clocking its in-flight packet onto the wire. -/
  | txComplete (p : PortId)
  /-- A packet reached the far end of the link of port `p`. -/
  | arrive (p : PortId) (pkt : Packet)
  /-- The retransmission timer of one attempt at one packet expired. -/
  | timeout (f : FlowId) (idx : Nat) (attempt : Nat)
  deriving DecidableEq, Repr

/-- A scheduled event: `seq` is stamped by `EventQueue.push`. -/
structure Event where
  time : Nat
  seq : Nat
  body : EventBody
  deriving DecidableEq, Repr

instance : Inhabited Event := ⟨⟨0, 0, .inject 0⟩⟩

end FabricSim
