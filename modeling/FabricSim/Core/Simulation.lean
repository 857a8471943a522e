import FabricSim.Core.EventQueue
import FabricSim.Core.Flow
import FabricSim.Routing.Policy
import FabricSim.Routing.RouteTable
import Mathlib.Logic.Relation
import Mathlib.Tactic.Simps.Basic

/-!
# The discrete-event core

`Simulation` is the object between runs: fabric, routes, transport and the flows
accepted so far. `State` is what a run changes. Every handler of the code is a
function on `State` under its name, `dispatch` is the switch of the hot loop and
`step` one turn of it. Handlers follow the code with assertions off; what the
assertions say is proved of the reachable states.

Per-packet tables are indexed by flow and packet; `Simulation.flowPktOffset` and
`retxOffset` are where the code's flat arrays put them, at 32-bit indices. So the
tables are those arrays as long as 32 bits index the packets and the ring slots
of all flows (`Simulation.Fits`); beyond that two flows share cells, and what is
proved of the per-flow cells is not about them. Additions to the virtual
time are reduced to 64 bits, and `wrapped` remembers whether a reduction ever
changed one. `wrapped`, `serial` and `trace` are history: no handler reads the
first and the last, and `serial` only numbers the emissions.
-/

namespace FabricSim

structure Simulation where
  fabric : Fabric
  routes : RouteTable
  transport : TransportConfig := {}
  specs : List FlowSpec := []
  accepted : ∀ (i : Nat) (h : i < specs.length), (specs[i]).Accepted fabric i

namespace Simulation

def create (fabric : Fabric) (routes : RouteTable) : Simulation where
  fabric := fabric
  routes := routes
  accepted := fun _ h => absurd h (Nat.not_lt_zero _)

def setTransport (sim : Simulation) (cfg : TransportConfig) : Simulation :=
  { sim with transport := cfg }

theorem accepted_append {fabric : Fabric} {specs : List FlowSpec} {spec : FlowSpec}
    (h : ∀ (i : Nat) (h : i < specs.length), (specs[i]).Accepted fabric i)
    (hs : spec.Accepted fabric specs.length) :
    ∀ (i : Nat) (h : i < (specs ++ [spec]).length), ((specs ++ [spec])[i]).Accepted fabric i := by
  intro i hi
  rw [List.length_append, List.length_singleton] at hi
  rcases Nat.lt_succ_iff_lt_or_eq.mp hi with hlt | rfl
  · rw [List.getElem_append_left hlt]
    exact h i hlt
  · rw [List.getElem_concat_length rfl]
    exact hs

/-- `none` when one of the assertions fails. The new flow's id is the number of
flows before it. -/
def addFlow (sim : Simulation) (spec : FlowSpec) : Option Simulation :=
  if h : spec.Accepted sim.fabric sim.specs.length then
    some
      { sim with
        specs := sim.specs ++ [spec]
        accepted := accepted_append sim.accepted h }
  else none

variable (sim : Simulation)

def flowCount : Nat := sim.specs.length

def spec (f : FlowId) : FlowSpec := sim.specs.getD f default

def route (f : FlowId) : FlowRoute := (sim.spec f).route sim.fabric

def packetsTotal (f : FlowId) : Nat := (sim.spec f).packetsTotal

def window (f : FlowId) : Nat := (sim.spec f).window

/-- The pacing floor between two sends. -/
def periodNs (f : FlowId) : Nat :=
  serializationNs (sim.spec f).mtuBytes (sim.fabric.port (sim.route f).srcNic).rate * 1000 /
    (sim.spec f).loadPermille

/-- Where the flow's slice of the per-packet arrays starts. -/
def flowPktOffset (f : FlowId) : Nat := u32 (Csr.prefixSum sim.packetsTotal f)

/-- Where the flow's slice of the retransmission array starts. -/
def retxOffset (f : FlowId) : Nat := u32 (Csr.prefixSum sim.window f)

/-! ## Dependents, CSR-packed -/

/-- The (predecessor, dependent) pairs, in flow order. -/
def dependencies : List (FlowId × FlowId) :=
  (List.range sim.flowCount).filterMap fun i => (sim.spec i).dependsOn.map fun d => (d, i)

def dependentCount : FlowId → Nat :=
  sim.dependencies.foldl (fun c di => Function.update c di.1 (c di.1 + 1)) fun _ => 0

def dependentsOffset : Nat → Nat := Csr.prefixSum sim.dependentCount

def dependentsArray : Nat → FlowId :=
  (sim.dependencies.foldl (Csr.put sim.dependentsOffset) (fun _ => 0, fun _ => 0)).2

/-- The flows `complete_flow` releases, in the order it releases them. -/
def dependents (f : FlowId) : List FlowId :=
  (List.range (sim.dependentsOffset (f + 1) - sim.dependentsOffset f)).map fun k =>
    sim.dependentsArray (sim.dependentsOffset f + k)

end Simulation

/-! ## The state of a run -/

structure PktState where
  delivered : Bool := false
  acked : Bool := false
  inFlight : Bool := false
  deriving DecidableEq, Repr

structure FlowTx where
  nextSeq : Nat := 0
  inFlight : Nat := 0
  ackedCount : Nat := 0
  retxHead : Nat := 0
  retxCount : Nat := 0
  nextSendNs : Nat := 0
  sendScheduled : Bool := false
  failed : Bool := false
  deriving DecidableEq, Repr

structure FlowResult where
  startNs : Nat := 0
  finishNs : Nat := 0
  deliveredBytes : Nat := 0
  packetsDelivered : Nat := 0
  packetsDropped : Nat := 0
  packetsRetransmitted : Nat := 0
  complete : Bool := false
  failed : Bool := false
  deriving DecidableEq, Repr

/-- Subtraction of `uint64` times. -/
def FlowResult.fctNs (r : FlowResult) : Nat := u64 (r.finishNs + 2 ^ 64 - r.startNs)

structure RunStats where
  virtualEndNs : Nat := 0
  eventsProcessed : Nat := 0
  bytesInjected : Nat := 0
  bytesDelivered : Nat := 0
  bytesDropped : Nat := 0
  ackBytesInjected : Nat := 0
  ackBytesDelivered : Nat := 0
  ackBytesDropped : Nat := 0
  packetsRetransmitted : Nat := 0
  flowsComplete : Nat := 0
  flowsIncomplete : Nat := 0
  flowsFailed : Nat := 0
  deriving DecidableEq, Repr

/-- What the history records. -/
inductive Obs where
  /-- The hot loop took this event. -/
  | dispatched (e : Event)
  /-- A sender or a receiver put a new packet on its NIC. -/
  | emitted (t : Nat) (pkt : Packet)
  /-- A packet was offered to a port, and whether it found room. -/
  | offered (t : Nat) (p : PortId) (pkt : Packet) (room : Bool)
  /-- The completion of one flow released another. -/
  | released (t : Nat) (byFlow : FlowId) (d : FlowId)
  deriving DecidableEq

structure State where
  queue : EventQueue
  now : Nat
  port : PortId → PortState
  tx : FlowId → FlowTx
  result : FlowId → FlowResult
  pkt : FlowId → Nat → PktState
  pktAttempt : FlowId → Nat → Nat
  retxRing : FlowId → Nat → Nat
  stats : RunStats
  wrapped : Bool
  serial : Nat
  trace : List Obs

namespace State

@[simps -fullyApplied queue now port tx result pkt pktAttempt retxRing stats wrapped serial trace]
def modifyPort (s : State) (p : PortId) (g : PortState → PortState) : State :=
  { s with port := Function.update s.port p (g (s.port p)) }

@[simps -fullyApplied queue now port tx result pkt pktAttempt retxRing stats wrapped serial trace]
def modifyTx (s : State) (f : FlowId) (g : FlowTx → FlowTx) : State :=
  { s with tx := Function.update s.tx f (g (s.tx f)) }

@[simps -fullyApplied queue now port tx result pkt pktAttempt retxRing stats wrapped serial trace]
def modifyResult (s : State) (f : FlowId) (g : FlowResult → FlowResult) : State :=
  { s with result := Function.update s.result f (g (s.result f)) }

@[simps -fullyApplied queue now port tx result pkt pktAttempt retxRing stats wrapped serial trace]
def modifyPkt (s : State) (f : FlowId) (idx : Nat) (g : PktState → PktState) : State :=
  { s with pkt := Function.update s.pkt f (Function.update (s.pkt f) idx (g (s.pkt f idx))) }

@[simps -fullyApplied queue now port tx result pkt pktAttempt retxRing stats wrapped serial trace]
def modifyStats (s : State) (g : RunStats → RunStats) : State :=
  { s with stats := g s.stats }

@[simps -fullyApplied queue now port tx result pkt pktAttempt retxRing stats wrapped serial trace]
def log (s : State) (o : Obs) : State := { s with trace := o :: s.trace }

@[simps -fullyApplied queue now port tx result pkt pktAttempt retxRing stats wrapped serial trace]
def nextSerial (s : State) : State := { s with serial := s.serial + 1 }

/-- Remember whether the time `t`, before reduction, leaves 64 bits. -/
@[simps -fullyApplied queue now port tx result pkt pktAttempt retxRing stats wrapped serial trace]
def noteTime (s : State) (t : Nat) : State :=
  { s with wrapped := s.wrapped || decide (2 ^ 64 ≤ t) }

@[simps -fullyApplied queue now port tx result pkt pktAttempt retxRing stats wrapped serial trace]
def pushAt (s : State) (t : Nat) (b : EventBody) : State :=
  { s with queue := s.queue.push t b }

/-- Schedule an event `delay` from now, in 64-bit arithmetic. -/
@[simps! -fullyApplied queue now port tx result pkt pktAttempt retxRing stats wrapped serial trace]
def pushAfter (s : State) (delay : Nat) (b : EventBody) : State :=
  (s.noteTime (s.now + delay)).pushAt (u64 (s.now + delay)) b

variable (sim : Simulation)

/-! ## Ports -/

@[simps! -fullyApplied queue now port tx result pkt pktAttempt retxRing stats wrapped serial trace]
def startTx (s : State) (p : PortId) : State :=
  let pkt := (s.port p).queue.front
  (s.modifyPort p fun ps =>
      { ps with inFlight := pkt, queue := ps.queue.pop, busy := true }).pushAfter
    (serializationNs pkt.bytes (sim.fabric.port p).rate) (.txComplete p)

/-- Drop-tail accounting of one refused packet. -/
def drop (s : State) (p : PortId) (pkt : Packet) : State :=
  let s := s.modifyPort p fun ps =>
    { ps with packetsDropped := ps.packetsDropped + 1, bytesDropped := ps.bytesDropped + pkt.bytes }
  match pkt.kind with
  | .ack => s.modifyStats fun st => { st with ackBytesDropped := st.ackBytesDropped + pkt.bytes }
  | .data =>
    (s.modifyStats fun st => { st with bytesDropped := st.bytesDropped + pkt.bytes }).modifyResult
      pkt.flow fun r => { r with packetsDropped := u32 (r.packetsDropped + 1) }

def enqueue (s : State) (p : PortId) (pkt : Packet) : State :=
  match (s.port p).queue.tryPush pkt with
  | none => (s.log (.offered s.now p pkt false)).drop p pkt
  | some queue =>
    let s' := (s.log (.offered s.now p pkt true)).modifyPort p fun ps => { ps with queue := queue }
    if (s.port p).busy then s' else s'.startTx sim p

/-- The transmitted packet leaves for the wire. -/
@[simps! -fullyApplied queue now port tx result pkt pktAttempt retxRing stats wrapped serial trace]
def sendOff (s : State) (p : PortId) : State :=
  let pkt := (s.port p).inFlight
  (s.modifyPort p fun ps =>
      { ps with packetsSent := ps.packetsSent + 1, bytesSent := ps.bytesSent + pkt.bytes }).pushAfter
    (sim.fabric.port p).propDelayNs (.arrive p pkt)

def onTxComplete (s : State) (p : PortId) : State :=
  if ((s.sendOff sim p).port p).queue.empty then
    (s.sendOff sim p).modifyPort p fun ps => { ps with busy := false }
  else (s.sendOff sim p).startTx sim p

/-! ## The sender -/

/-- The next packet to retransmit, and the ring's head and count once the
entries before it are gone: an entry that was acked meanwhile is skipped. -/
def popRetx (window : Nat) (ring : Nat → Nat) (acked : Nat → Bool) (head : Nat) :
    Nat → Option Nat × Nat × Nat
  | 0 => (none, head, 0)
  | count + 1 =>
    let idx := ring head
    let head' := Ring.next window head
    if acked idx then popRetx window ring acked head' count else (some idx, head', count)

/-- The packet `send_packet` puts on the NIC. -/
def dataPacket (s : State) (f : FlowId) (idx : Nat) : Packet :=
  ⟨f, idx, (sim.spec f).packetBytes idx, .data, s.pktAttempt f idx,
    ⟨s.serial, s.pktAttempt f idx, []⟩⟩

/-- Any attempt but the first counts as a retransmission. -/
def countRetx (s : State) (f : FlowId) (idx : Nat) : State :=
  if 0 < s.pktAttempt f idx then
    (s.modifyStats fun st => { st with packetsRetransmitted := st.packetsRetransmitted + 1 }).modifyResult
      f fun r => { r with packetsRetransmitted := u32 (r.packetsRetransmitted + 1) }
  else s

/-- The sender's own bookkeeping of one transmission. -/
def markSent (s : State) (f : FlowId) (idx : Nat) : State :=
  let s := ((s.countRetx f idx).modifyPkt f idx fun st => { st with inFlight := true }).modifyStats
    fun st => { st with bytesInjected := st.bytesInjected + (sim.spec f).packetBytes idx }
  ((s.modifyTx f fun tx =>
    { tx with inFlight := tx.inFlight + 1, nextSendNs := u64 (s.now + sim.periodNs f) }).noteTime
      (s.now + sim.periodNs f)).nextSerial

def sendPacket (s : State) (f : FlowId) (idx : Nat) : State :=
  let pkt := dataPacket sim s f idx
  (((s.markSent sim f idx).pushAfter sim.transport.rtoNs
    (.timeout f idx (s.pktAttempt f idx))).log (.emitted s.now pkt)).enqueue sim
      (sim.route f).srcNic pkt

/-- Wait for the pacing gate: at most one wake-up is pending. -/
def waitTurn (s : State) (f : FlowId) : State :=
  if (s.tx f).sendScheduled then s
  else (s.modifyTx f fun tx => { tx with sendScheduled := true }).pushAt (s.tx f).nextSendNs (.inject f)

/-- The ring after `popRetx`. -/
@[simps! -fullyApplied queue now port tx result pkt pktAttempt retxRing stats wrapped serial trace]
def drainRetx (s : State) (f : FlowId) (head count : Nat) : State :=
  s.modifyTx f fun tx => { tx with retxHead := head, retxCount := count }

/-- The next packet to retransmit, from the state's own ring. -/
def nextRetx (s : State) (f : FlowId) : Option Nat × Nat × Nat :=
  popRetx (sim.window f) (s.retxRing f) (fun i => (s.pkt f i).acked) (s.tx f).retxHead
    (s.tx f).retxCount

/-- Consume the lowest index never sent. -/
@[simps! -fullyApplied queue now port tx result pkt pktAttempt retxRing stats wrapped serial trace]
def takeSeq (s : State) (f : FlowId) : State :=
  s.modifyTx f fun tx => { tx with nextSeq := tx.nextSeq + 1 }

/-- The sending loop. Every turn that goes on takes one more packet in flight,
so `fuel` never runs out before the window closes. -/
def sendLoop (f : FlowId) : Nat → State → State
  | 0, s => s
  | fuel + 1, s =>
    if (s.tx f).inFlight < sim.window f then
      if s.now < (s.tx f).nextSendNs then s.waitTurn f
      else
        match s.nextRetx sim f with
        | (some idx, head, count) => sendLoop f fuel ((s.drainRetx f head count).sendPacket sim f idx)
        | (none, head, count) =>
          if sim.packetsTotal f ≤ (s.tx f).nextSeq then s.drainRetx f head count
          else
            sendLoop f fuel
              (((s.drainRetx f head count).takeSeq f).sendPacket sim f (s.tx f).nextSeq)
    else s

def trySend (s : State) (f : FlowId) : State :=
  if (s.tx f).failed then s else sendLoop sim f (sim.window f - (s.tx f).inFlight) s

def onInject (s : State) (f : FlowId) : State :=
  (s.modifyTx f fun tx => { tx with sendScheduled := false }).trySend sim f

/-- The packet leaves the flight, if it was in it. -/
def land (s : State) (f : FlowId) (idx : Nat) : State :=
  if (s.pkt f idx).inFlight then
    (s.modifyPkt f idx fun st => { st with inFlight := false }).modifyTx f fun tx =>
      { tx with inFlight := tx.inFlight - 1 }
  else s

def onAck (s : State) (f : FlowId) (idx : Nat) : State :=
  if (s.pkt f idx).acked then s
  else
    let s := (s.modifyPkt f idx fun st => { st with acked := true }).modifyTx f fun tx =>
      { tx with ackedCount := tx.ackedCount + 1 }
    (s.land f idx).trySend sim f

/-- The ring slot the next entry goes to. `on_timeout` adds head and count in 32 bits: the
same slot for every window up to `2 ^ 31`, as they are both below it. -/
def retxTail (s : State) (f : FlowId) : Nat :=
  Ring.slot (sim.window f) (s.tx f).retxHead (s.tx f).retxCount

/-- The packet starts its next attempt. -/
@[simps -fullyApplied queue now port tx result pkt pktAttempt retxRing stats wrapped serial trace]
def nextAttempt (s : State) (f : FlowId) (idx : Nat) : State :=
  { s with
    pktAttempt := Function.update s.pktAttempt f
      (Function.update (s.pktAttempt f) idx (s.pktAttempt f idx + 1)) }

/-- Write one cell of the flow's retransmission ring. -/
@[simps -fullyApplied queue now port tx result pkt pktAttempt retxRing stats wrapped serial trace]
def setRing (s : State) (f : FlowId) (slot idx : Nat) : State :=
  { s with
    retxRing := Function.update s.retxRing f (Function.update (s.retxRing f) slot idx) }

/-- The packet joins the ring's tail for its next attempt. -/
@[simps! -fullyApplied queue now port tx result pkt pktAttempt retxRing stats wrapped serial trace]
def requeue (s : State) (f : FlowId) (idx : Nat) : State :=
  (((s.nextAttempt f idx).setRing f (s.retxTail sim f) idx).modifyTx f fun tx =>
    { tx with retxCount := tx.retxCount + 1 })

@[simps! -fullyApplied queue now port tx result pkt pktAttempt retxRing stats wrapped serial trace]
def giveUp (s : State) (f : FlowId) : State :=
  (s.modifyTx f fun tx => { tx with failed := true }).modifyResult f fun r =>
    { r with failed := true }

def onTimeout (s : State) (f : FlowId) (idx attempt : Nat) : State :=
  if (s.pkt f idx).acked then s
  else if s.pktAttempt f idx ≠ attempt then s
  else if (s.tx f).failed then s
  else if sim.transport.maxAttempts ≤ s.pktAttempt f idx + 1 then (s.land f idx).giveUp f
  else ((s.land f idx).requeue sim f idx).trySend sim f

/-! ## The receiver -/

@[simps! -fullyApplied queue now port tx result pkt pktAttempt retxRing stats wrapped serial trace]
def releaseFlow (byFlow : FlowId) (s : State) (d : FlowId) : State :=
  (((s.modifyResult d fun r => { r with startNs := s.now }).modifyTx d fun tx =>
    { tx with nextSendNs := s.now }).log (.released s.now byFlow d)).pushAt s.now (.inject d)

def completeFlow (s : State) (f : FlowId) : State :=
  (sim.dependents f).foldl (releaseFlow f)
    (s.modifyResult f fun r => { r with finishNs := s.now, complete := true })

/-- The first copy of a packet to arrive. -/
def deliver (s : State) (f : FlowId) (idx bytes : Nat) : State :=
  let s := (s.modifyPkt f idx fun st => { st with delivered := true }).modifyResult f fun r =>
    { r with
      packetsDelivered := r.packetsDelivered + 1, deliveredBytes := r.deliveredBytes + bytes }
  if (s.result f).packetsDelivered = sim.packetsTotal f then s.completeFlow sim f else s

/-- The ack of an arrived data packet, tagged with that packet's attempt. -/
def ackPacket (s : State) (f : FlowId) (idx attempt : Nat) : Packet :=
  ⟨f, idx, sim.transport.ackBytes, .ack, 0, ⟨s.serial, attempt, []⟩⟩

/-- Ack even a duplicate. -/
def sendAck (s : State) (f : FlowId) (idx attempt : Nat) : State :=
  let pkt := ackPacket sim s f idx attempt
  (((s.modifyStats fun st =>
    { st with ackBytesInjected := st.ackBytesInjected + sim.transport.ackBytes }).nextSerial).log
      (.emitted s.now pkt)).enqueue sim (sim.route f).dstNic pkt

def onDataArrival (s : State) (f : FlowId) (idx bytes attempt : Nat) : State :=
  let s := s.modifyStats fun st => { st with bytesDelivered := st.bytesDelivered + bytes }
  (if (s.pkt f idx).delivered then s else s.deliver sim f idx bytes).sendAck sim f idx attempt

/-! ## Arrivals and the hot loop -/

variable (policy : RoutingPolicy)

/-- The destination column and the hash key a switch routes a packet by. -/
def routeOf (pkt : Packet) : Nat × FlowKey :=
  match pkt.kind with
  | .data => ((sim.route pkt.flow).dstHost, (sim.route pkt.flow).fwdKey)
  | .ack => ((sim.route pkt.flow).srcHost, (sim.route pkt.flow).revKey)

/-- The packet as the next hop sees it: rebuilt from the event's fields. -/
def forwarded (p : PortId) (pkt : Packet) : Packet :=
  { pkt with attempt := 0, tag := { pkt.tag with route := p :: pkt.tag.route } }

def onArrive (s : State) (p : PortId) (pkt : Packet) : State :=
  let node := (sim.fabric.port p).peerNode
  if (sim.fabric.node node).isHost then
    match pkt.kind with
    | .ack =>
      (s.modifyStats fun st =>
        { st with ackBytesDelivered := st.ackBytesDelivered + pkt.bytes }).onAck sim pkt.flow pkt.index
    | .data => s.onDataArrival sim pkt.flow pkt.index pkt.bytes pkt.tag.attempt
  else
    let cand := sim.routes.candidates node (routeOf sim pkt).1
    s.enqueue sim (policy.select s.stats.eventsProcessed node (routeOf sim pkt).2 cand s.now)
      (forwarded p pkt)

def dispatch (s : State) (b : EventBody) : State :=
  match b with
  | .inject f => s.onInject sim f
  | .txComplete p => s.onTxComplete sim p
  | .arrive p pkt => s.onArrive sim policy p pkt
  | .timeout f idx attempt => s.onTimeout sim f idx attempt

/-- The loop head: the event leaves the queue and the clock moves to it. -/
@[simps! -fullyApplied queue now port tx result pkt pktAttempt retxRing wrapped serial trace]
def advance (s : State) (e : Event) (queue : EventQueue) : State :=
  ({ s with queue := queue, now := e.time }.modifyStats fun st =>
    { st with eventsProcessed := st.eventsProcessed + 1 }).log (.dispatched e)

/-- One turn of the hot loop; `none` when the queue has drained. -/
def step (s : State) : Option State :=
  match s.queue.pop with
  | none => none
  | some (e, queue) => some ((s.advance e queue).dispatch sim policy e.body)

/-- At most `n` turns. -/
def runFor : Nat → State → State
  | 0, s => s
  | n + 1, s =>
    match s.step sim policy with
    | none => s
    | some s' => runFor n s'

/-- The run is over: the queue has drained. -/
def Drained (s : State) : Prop := s.queue.empty = true

end State

namespace Simulation

variable (sim : Simulation)

/-- The state `begin_run` leaves, whatever an earlier run left behind. The
retransmission ring is the one array it does not clear. -/
def beginRun (leftover : State) : State where
  queue := (List.range sim.flowCount).foldl (fun q i =>
    if (sim.spec i).dependsOn = none then q.push (sim.spec i).startNs (.inject i) else q)
    EventQueue.clear
  now := 0
  port := sim.fabric.resetPort
  tx := fun _ => {}
  result := fun f => { startNs := (sim.spec f).startNs }
  pkt := fun _ _ => {}
  pktAttempt := fun _ _ => 0
  retxRing := leftover.retxRing
  stats := {}
  wrapped := false
  serial := 0
  trace := []

def endRun (s : State) : State :=
  s.modifyStats fun st =>
    { (List.range sim.flowCount).foldl (fun (st : RunStats) i =>
        let st := if (s.result i).complete then { st with flowsComplete := st.flowsComplete + 1 }
          else { st with flowsIncomplete := st.flowsIncomplete + 1 }
        if (s.result i).failed then { st with flowsFailed := st.flowsFailed + 1 } else st) st with
      virtualEndNs := s.now }

/-- One event dispatched. -/
def Step (policy : RoutingPolicy) (s s' : State) : Prop := s.step sim policy = some s'

/-- The states between two dispatches of a run. -/
def Reachable (policy : RoutingPolicy) (s : State) : Prop :=
  ∃ leftover, Relation.ReflTransGen (sim.Step policy) (sim.beginRun leftover) s

end Simulation

end FabricSim
