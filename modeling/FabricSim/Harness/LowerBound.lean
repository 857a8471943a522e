import FabricSim.Core.Receipt
import FabricSim.Harness.ClosedForm

/-!
# No flow beats its uncongested bound

The last packet of a flow is not sent before its turn (`Paced.sent`), it takes at
least the time of its links when they are free (`Journey`), those are as many as
the hop distance (`SafeArrival.host`), and the flow is not complete before it has
arrived (`Receipt.finish`). Retransmissions, cross traffic and the policy can
only add to this.
-/

namespace FabricSim

open State

variable {sim : Simulation} {policy : RoutingPolicy} {s : State} {f : FlowId}

/-- The size of a packet never exceeds this. -/
def Simulation.maxBytes (sim : Simulation) : Nat := max kMaxPacketBytes sim.transport.ackBytes

theorem Simulation.wireBytes_le (sim : Simulation) {x : Packet} (h : x.flow < sim.flowCount) :
    wireBytes sim x ≤ sim.maxBytes := by
  unfold wireBytes maxBytes
  cases x.kind with
  | data =>
    have hmtu := (sim.spec_accepted h).mtu_le
    exact ((FlowSpec.packetBytes_le _ _).trans hmtu).trans (Nat.le_max_left ..)
  | ack => exact Nat.le_max_right ..

/-- Packet `idx` is at its receiver, before the flow is complete, no earlier than
this. -/
theorem Simulation.Reachable.start_add_le_finish (hs : sim.Reachable policy s) (hr : sim.Routed)
    (hm : policy.Member) {rate delay : Nat} (hlinks : sim.fabric.LinksAlike rate delay)
    (hw : s.wrapped = false) (hc : (s.result f).complete = true) {idx : Nat}
    (hidx : idx < sim.packetsTotal f) :
    (s.result f).startNs + idx * sim.periodNs f +
      sim.hops f * (serializationNs ((sim.spec f).packetBytes idx) rate + delay) ≤
      (s.result f).finishNs := by
  obtain ⟨e, p, x, he, hb, hhost, rfl, hk, rfl, hle⟩ := (hs.receipt hw f).finish hc idx hidx
  have hway := hs.arrivals_onWay hr hm e he p x hb
  have hbounded := hs.bounded (fun x hx => sim.wireBytes_le hx) hw
  obtain ⟨t, x₀, hmem, hcore, hlo, -⟩ := hbounded.arrived e he p x hb
  obtain ⟨hf, hi, hbytes, hkind, -, -⟩ := Packet.core_inj hcore
  have hsent := (hs.paced hw x.flow).sent (t, x₀) hmem hf (hkind.trans hk)
  have hsize : x.bytes = (sim.spec x.flow).packetBytes x.index := by
    rw [← hbytes, hs.numbered.bytes _ hmem]
    unfold wireBytes
    dsimp only
    rw [hkind, hk, hf, hi]
  rw [sim.freeNs_alike hlinks x (hway.links_lt hr), ((hway.safe hr).host hhost).2, hsize] at hlo
  dsimp only at hsent
  rw [hi] at hsent
  omega

theorem Simulation.Wired.periodNs_eq (hr : sim.Wired) {rate delay : Nat}
    (hlinks : sim.fabric.LinksAlike rate delay) (hf : f < sim.flowCount) :
    sim.periodNs f =
      serializationNs (sim.spec f).mtuBytes rate * 1000 / (sim.spec f).loadPermille := by
  have hnic : (sim.route f).srcNic < sim.fabric.portCount :=
    hr.wellFormed.port_lt _ _ (hr.singlePort.nic_mem (sim.spec_accepted hf).src_host)
  unfold Simulation.periodNs
  rw [(hlinks _ hnic).1]

namespace Shortcut

/-- The packet has arrived. -/
def last : State := passed.runFor simulation StaticFirstPolicy 2

theorem linksAlike : simulation.fabric.LinksAlike (gbps 100) 100 := by
  show fabric.LinksAlike (gbps 100) 100
  rw [fabric_eq]
  intro p hp
  have hparams := params_eq hp
  exact ⟨hparams.1, hparams.2.1⟩

end Shortcut

end FabricSim
