import FabricSim.Core.Layout
import FabricSim.Lib.Cells

/-!
# The members of the simulator as they lie in memory

`State` gives every flow its own tables of numbers. The code has words and flat arrays: one
byte of flags and one attempt byte for every packet of every flow, one array for all
retransmission rings, 32-bit and 64-bit counters, and 32-byte events whose slots mean what
their type says. `Memory` is that layout, and the functions below are the handlers on it, with
the code's offsets, masks and conversions; sums of words are sums modulo the width.

Every access to an array is checked: a handler that would leave its arrays returns `none`.
What has no part in the code is not here: no packet carries a history tag, and nothing
records the run.
-/

namespace FabricSim

/-! ## Packets and events -/

/-- `struct Packet`. -/
structure PacketRecord where
  flow : UInt32
  index : UInt32
  bytes : UInt16
  kind : PacketKind
  attempt : UInt8
  deriving DecidableEq, Repr

/-- `Packet{}`, whose flow is the invalid one. -/
instance : Inhabited PacketRecord := ⟨⟨0xFFFFFFFF, 0, 0, .data, 0⟩⟩

inductive EventType where
  | inject
  | txComplete
  | arrive
  | timeout
  deriving DecidableEq, Repr

/-- `struct Event`: `a` is a port or an attempt, `b` the flow, `c` the packet index. -/
structure EventRecord where
  timeNs : UInt64 := 0
  seq : UInt64 := 0
  a : UInt32 := 0
  b : UInt32 := 0
  c : UInt32 := 0
  bytes : UInt16 := 0
  type : EventType := .inject
  kind : PacketKind := .data
  deriving DecidableEq, Repr

namespace EventRecord

instance : Inhabited EventRecord := ⟨{}⟩

def port (e : EventRecord) : PortId := e.a.toNat

def flow (e : EventRecord) : FlowId := e.b.toNat

def packetIndex (e : EventRecord) : Nat := e.c.toNat

def attempt (e : EventRecord) : UInt8 := e.a.toUInt8

def inject (t : UInt64) (f : FlowId) : EventRecord :=
  { timeNs := t, type := .inject, b := .ofNat f }

def txComplete (t : UInt64) (p : PortId) : EventRecord :=
  { timeNs := t, type := .txComplete, a := .ofNat p }

def arrive (t : UInt64) (traversed : PortId) (pkt : PacketRecord) : EventRecord :=
  { timeNs := t, type := .arrive, kind := pkt.kind, a := .ofNat traversed, b := pkt.flow,
    c := pkt.index, bytes := pkt.bytes }

def timeout (t : UInt64) (f : FlowId) (pkt : Nat) (attempt : UInt8) : EventRecord :=
  { timeNs := t, type := .timeout, a := attempt.toUInt32, b := .ofNat f, c := .ofNat pkt }

def earlier (x y : EventRecord) : Bool :=
  if x.timeNs ≠ y.timeNs then decide (x.timeNs < y.timeNs) else decide (x.seq < y.seq)

end EventRecord

/-- The vector and the counter of `EventQueue`. -/
structure EventHeap where
  heap : List EventRecord := []
  nextSeq : UInt64 := 0

namespace EventHeap

def push (q : EventHeap) (e : EventRecord) : EventHeap where
  heap := ArrayHeap.push EventRecord.earlier q.heap { e with seq := q.nextSeq }
  nextSeq := q.nextSeq + 1

def pop (q : EventHeap) : Option (EventRecord × EventHeap) :=
  match q.heap with
  | [] => none
  | e :: l => some (e, { q with heap := ArrayHeap.popRest EventRecord.earlier (e :: l) })

end EventHeap

/-- The members of `Port` that a run changes. -/
structure PortRecord where
  busy : Bool
  inFlight : PacketRecord
  queue : BoundedFifo PacketRecord
  packetsSent : UInt64
  bytesSent : UInt64
  packetsDropped : UInt64
  bytesDropped : UInt64

/-! ## The records of a flow and of a run -/

/-- The members of `FlowTx` that a run changes. -/
structure TxRecord where
  nextSeq : UInt32 := 0
  inFlight : UInt32 := 0
  ackedCount : UInt32 := 0
  retxHead : UInt32 := 0
  retxCount : UInt32 := 0
  nextSendNs : UInt64 := 0
  sendScheduled : Bool := false
  failed : Bool := false
  deriving DecidableEq, Repr

instance : Inhabited TxRecord := ⟨{}⟩

/-- The result of a flow in machine words. -/
@[ext]
structure ResultRow where
  startNs : UInt64 := 0
  finishNs : UInt64 := 0
  deliveredBytes : UInt64 := 0
  packetsDelivered : UInt32 := 0
  packetsDropped : UInt32 := 0
  packetsRetransmitted : UInt32 := 0
  complete : Bool := false
  failed : Bool := false
  deriving DecidableEq, Repr

instance : Inhabited ResultRow := ⟨{}⟩

def FlowResult.row (r : FlowResult) : ResultRow where
  startNs := UInt64.ofNat r.startNs
  finishNs := UInt64.ofNat r.finishNs
  deliveredBytes := UInt64.ofNat r.deliveredBytes
  packetsDelivered := UInt32.ofNat r.packetsDelivered
  packetsDropped := UInt32.ofNat r.packetsDropped
  packetsRetransmitted := UInt32.ofNat r.packetsRetransmitted
  complete := r.complete
  failed := r.failed

/-- `RunStats` in machine words. -/
structure StatsRecord where
  virtualEndNs : UInt64 := 0
  eventsProcessed : UInt64 := 0
  bytesInjected : UInt64 := 0
  bytesDelivered : UInt64 := 0
  bytesDropped : UInt64 := 0
  ackBytesInjected : UInt64 := 0
  ackBytesDelivered : UInt64 := 0
  ackBytesDropped : UInt64 := 0
  packetsRetransmitted : UInt64 := 0
  flowsComplete : UInt32 := 0
  flowsIncomplete : UInt32 := 0
  flowsFailed : UInt32 := 0
  deriving DecidableEq, Repr

/-- The size on the wire: 64-bit arithmetic, narrowed to 16 bits. -/
def FlowSpec.wireBytes (spec : FlowSpec) (idx : Nat) : UInt16 :=
  let mtu := UInt64.ofNat spec.mtuBytes
  let remaining := UInt64.ofNat spec.sizeBytes - UInt64.ofNat idx * mtu
  (if remaining < mtu then remaining else mtu).toUInt16

/-! ## One byte of flags per packet -/

def kDelivered : UInt8 := (1 : UInt8) <<< (0 : UInt8)

def kAcked : UInt8 := (1 : UInt8) <<< (1 : UInt8)

def kInFlight : UInt8 := (1 : UInt8) <<< (2 : UInt8)

/-- The flags as one byte. -/
def PktState.flags (st : PktState) : UInt8 :=
  (if st.delivered then kDelivered else 0) ||| (if st.acked then kAcked else 0) |||
    (if st.inFlight then kInFlight else 0)

/-! ## The members -/

structure Memory where
  queue : EventHeap
  now : UInt64
  ports : Cells PortRecord
  tx : Cells TxRecord
  results : Cells ResultRow
  pktState : Cells UInt8
  pktAttempt : Cells UInt8
  retxRing : Cells UInt32
  stats : StatsRecord

namespace Memory

/-- The constructor, on the ports as their builder leaves them. -/
def create (fabric : Fabric) : Memory where
  queue := {}
  now := 0
  ports := ⟨fabric.portCount, fun p =>
    { busy := false, inFlight := default
      queue := BoundedFifo.init (fabric.port p).queueCapacity
      packetsSent := 0, bytesSent := 0, packetsDropped := 0, bytesDropped := 0 }⟩
  tx := Cells.empty
  results := Cells.empty
  pktState := Cells.empty
  pktAttempt := Cells.empty
  retxRing := Cells.empty
  stats := {}

/-- What `add_flow` appends to the arrays. -/
def addFlow (m : Memory) (spec : FlowSpec) : Memory :=
  { m with
    tx := m.tx.push {}
    results := m.results.push { startNs := .ofNat spec.startNs }
    pktState := m.pktState.extend spec.packetsTotal 0
    pktAttempt := m.pktAttempt.extend spec.packetsTotal 0
    retxRing := m.retxRing.extend spec.window 0 }

def push (m : Memory) (e : EventRecord) : Memory := { m with queue := m.queue.push e }

def modifyStats (m : Memory) (g : StatsRecord → StatsRecord) : Memory :=
  { m with stats := g m.stats }

def modifyPort (m : Memory) (p : PortId) (g : PortRecord → PortRecord) : Option Memory :=
  (m.ports.modify p g).map fun a => { m with ports := a }

def modifyTx (m : Memory) (f : FlowId) (g : TxRecord → TxRecord) : Option Memory :=
  (m.tx.modify f g).map fun a => { m with tx := a }

def modifyResult (m : Memory) (f : FlowId) (g : ResultRow → ResultRow) : Option Memory :=
  (m.results.modify f g).map fun a => { m with results := a }

def modifyState (m : Memory) (i : Nat) (g : UInt8 → UInt8) : Option Memory :=
  (m.pktState.modify i g).map fun a => { m with pktState := a }

def modifyAttempt (m : Memory) (i : Nat) (g : UInt8 → UInt8) : Option Memory :=
  (m.pktAttempt.modify i g).map fun a => { m with pktAttempt := a }

def setRing (m : Memory) (i : Nat) (idx : UInt32) : Option Memory :=
  (m.retxRing.modify i fun _ => idx).map fun a => { m with retxRing := a }

variable (sim : Simulation)

/-! ## Ports -/

def startTx (m : Memory) (pid : PortId) : Option Memory := do
  let p ← m.ports.read pid
  let m ← m.modifyPort pid fun p =>
    { p with inFlight := p.queue.front, queue := p.queue.pop, busy := true }
  let ser := serializationNs p.queue.front.bytes.toNat (sim.fabric.port pid).rate
  return m.push (.txComplete (m.now + .ofNat ser) pid)

/-- Drop-tail accounting of one refused packet. -/
def drop (m : Memory) (pid : PortId) (pkt : PacketRecord) : Option Memory := do
  let m ← m.modifyPort pid fun p =>
    { p with
      packetsDropped := p.packetsDropped + 1
      bytesDropped := p.bytesDropped + pkt.bytes.toUInt64 }
  match pkt.kind with
  | .ack =>
    return m.modifyStats fun st =>
      { st with ackBytesDropped := st.ackBytesDropped + pkt.bytes.toUInt64 }
  | .data =>
    (m.modifyStats fun st =>
      { st with bytesDropped := st.bytesDropped + pkt.bytes.toUInt64 }).modifyResult
        pkt.flow.toNat fun r => { r with packetsDropped := r.packetsDropped + 1 }

def enqueue (m : Memory) (pid : PortId) (pkt : PacketRecord) : Option Memory := do
  let p ← m.ports.read pid
  match p.queue.tryPush pkt with
  | none => m.drop pid pkt
  | some queue =>
    let m ← m.modifyPort pid fun p => { p with queue := queue }
    if p.busy then return m else m.startTx sim pid

def onTxComplete (m : Memory) (e : EventRecord) : Option Memory := do
  let p ← m.ports.read e.port
  let m ← m.modifyPort e.port fun p =>
    { p with
      packetsSent := p.packetsSent + 1, bytesSent := p.bytesSent + p.inFlight.bytes.toUInt64 }
  let m := m.push (.arrive (m.now + .ofNat (sim.fabric.port e.port).propDelayNs) e.port p.inFlight)
  if p.queue.empty then m.modifyPort e.port fun p => { p with busy := false }
  else m.startTx sim e.port

/-! ## The sender -/

/-- Any attempt but the first counts as a retransmission. -/
def countRetx (m : Memory) (f : FlowId) (attempt : UInt8) : Option Memory :=
  if 0 < attempt then
    (m.modifyStats fun st =>
      { st with packetsRetransmitted := st.packetsRetransmitted + 1 }).modifyResult f fun r =>
        { r with packetsRetransmitted := r.packetsRetransmitted + 1 }
  else some m

def sendPacket (m : Memory) (f : FlowId) (idx : Nat) : Option Memory := do
  let bytes := (sim.spec f).wireBytes idx
  let attempt ← m.pktAttempt.read (sim.pktSlot f idx)
  let m ← m.countRetx f attempt
  let m ← m.modifyState (sim.pktSlot f idx) fun st => st ||| kInFlight
  let m := m.modifyStats fun st => { st with bytesInjected := st.bytesInjected + bytes.toUInt64 }
  let m ← m.modifyTx f fun tx =>
    { tx with inFlight := tx.inFlight + 1, nextSendNs := m.now + .ofNat (sim.periodNs f) }
  let m := m.push (.timeout (m.now + .ofNat sim.transport.rtoNs) f idx attempt)
  m.enqueue sim (sim.route f).srcNic ⟨.ofNat f, .ofNat idx, bytes, .data, attempt⟩

/-- The pacing gate is closed: one wake-up at most is pending. -/
def waitTurn (m : Memory) (f : FlowId) : Option Memory := do
  let tx ← m.tx.read f
  if tx.sendScheduled then return m
  else
    let m ← m.modifyTx f fun tx => { tx with sendScheduled := true }
    return m.push (.inject tx.nextSendNs f)

/-- The inner loop of `try_send`: the entries of the ring up to the first that is not
acked. -/
def popRetx (m : Memory) (f : FlowId) (head : UInt32) : Nat → Option (Option Nat × UInt32 × Nat)
  | 0 => some (none, head, 0)
  | count + 1 => do
    let idx ← m.retxRing.read (sim.retxSlot f head.toNat)
    let st ← m.pktState.read (sim.pktSlot f idx.toNat)
    let head := if head + 1 = .ofNat (sim.window f) then 0 else head + 1
    if st &&& kAcked = 0 then return (some idx.toNat, head, count)
    else m.popRetx f head count

/-- The outer loop of `try_send`. -/
def sendLoop (f : FlowId) : Nat → Memory → Option Memory
  | 0, m => some m
  | fuel + 1, m => do
    let tx ← m.tx.read f
    if tx.inFlight < .ofNat (sim.window f) then
      if m.now < tx.nextSendNs then m.waitTurn f
      else
        let (next, head, count) ← m.popRetx sim f tx.retxHead tx.retxCount.toNat
        let m ← m.modifyTx f fun tx => { tx with retxHead := head, retxCount := .ofNat count }
        match next with
        | some idx => (m.sendPacket sim f idx).bind (sendLoop f fuel)
        | none =>
          if .ofNat (sim.packetsTotal f) ≤ tx.nextSeq then return m
          else
            let m ← m.modifyTx f fun tx => { tx with nextSeq := tx.nextSeq + 1 }
            (m.sendPacket sim f tx.nextSeq.toNat).bind (sendLoop f fuel)
    else return m

def trySend (m : Memory) (f : FlowId) : Option Memory := do
  let tx ← m.tx.read f
  if tx.failed then return m else sendLoop sim f (sim.window f - tx.inFlight.toNat) m

def onInject (m : Memory) (e : EventRecord) : Option Memory := do
  let m ← m.modifyTx e.flow fun tx => { tx with sendScheduled := false }
  m.trySend sim e.flow

/-- The packet leaves the flight, if its flag says that it is in it. -/
def land (m : Memory) (f : FlowId) (idx : Nat) : Option Memory := do
  let st ← m.pktState.read (sim.pktSlot f idx)
  if st &&& kInFlight ≠ 0 then
    let m ← m.modifyState (sim.pktSlot f idx) fun st => st &&& ~~~kInFlight
    m.modifyTx f fun tx => { tx with inFlight := tx.inFlight - 1 }
  else return m

def onAck (m : Memory) (f : FlowId) (idx : Nat) : Option Memory := do
  let st ← m.pktState.read (sim.pktSlot f idx)
  if st &&& kAcked ≠ 0 then return m
  else
    let m ← m.modifyState (sim.pktSlot f idx) fun st => st ||| kAcked
    let m ← m.modifyTx f fun tx => { tx with ackedCount := tx.ackedCount + 1 }
    let m ← m.land sim f idx
    m.trySend sim f

/-- The packet joins the ring's tail for its next attempt. -/
def requeue (m : Memory) (f : FlowId) (idx : Nat) : Option Memory := do
  let m ← m.modifyAttempt (sim.pktSlot f idx) fun a => a + 1
  let tx ← m.tx.read f
  let window := UInt32.ofNat (sim.window f)
  let sum := tx.retxHead + tx.retxCount
  let tail := if window ≤ sum then sum - window else sum
  let m ← m.setRing (sim.retxSlot f tail.toNat) (.ofNat idx)
  m.modifyTx f fun tx => { tx with retxCount := tx.retxCount + 1 }

def onTimeout (m : Memory) (e : EventRecord) : Option Memory := do
  let f := e.flow
  let idx := e.packetIndex
  let st ← m.pktState.read (sim.pktSlot f idx)
  let attempt ← m.pktAttempt.read (sim.pktSlot f idx)
  let tx ← m.tx.read f
  if st &&& kAcked ≠ 0 then return m
  else if attempt ≠ e.attempt then return m
  else if tx.failed then return m
  else
    let m ← m.land sim f idx
    if sim.transport.maxAttempts ≤ attempt.toNat + 1 then
      let m ← m.modifyTx f fun tx => { tx with failed := true }
      m.modifyResult f fun r => { r with failed := true }
    else
      let m ← m.requeue sim f idx
      m.trySend sim f

/-! ## The receiver -/

def releaseFlow (m : Memory) (d : FlowId) : Option Memory := do
  let m ← m.modifyResult d fun r => { r with startNs := m.now }
  let m ← m.modifyTx d fun tx => { tx with nextSendNs := m.now }
  return m.push (.inject m.now d)

def completeFlow (m : Memory) (f : FlowId) : Option Memory := do
  let m ← m.modifyResult f fun r => { r with finishNs := m.now, complete := true }
  (sim.dependents f).foldlM releaseFlow m

/-- The first copy of a packet to arrive. -/
def deliver (m : Memory) (f : FlowId) (idx : Nat) (bytes : UInt16) : Option Memory := do
  let m ← m.modifyState (sim.pktSlot f idx) fun st => st ||| kDelivered
  let m ← m.modifyResult f fun r =>
    { r with
      packetsDelivered := r.packetsDelivered + 1
      deliveredBytes := r.deliveredBytes + bytes.toUInt64 }
  let r ← m.results.read f
  if r.packetsDelivered = .ofNat (sim.packetsTotal f) then m.completeFlow sim f else return m

/-- A copy of a packet that arrived before is not counted again. -/
def receive (m : Memory) (f : FlowId) (idx : Nat) (bytes : UInt16) : Option Memory := do
  let st ← m.pktState.read (sim.pktSlot f idx)
  if st &&& kDelivered ≠ 0 then return m else m.deliver sim f idx bytes

/-- Ack even a duplicate. -/
def onDataArrival (m : Memory) (f : FlowId) (idx : Nat) (bytes : UInt16) : Option Memory := do
  let m := m.modifyStats fun st => { st with bytesDelivered := st.bytesDelivered + bytes.toUInt64 }
  let m ← m.receive sim f idx bytes
  let ackBytes := UInt16.ofNat sim.transport.ackBytes
  let m := m.modifyStats fun st =>
    { st with ackBytesInjected := st.ackBytesInjected + ackBytes.toUInt64 }
  m.enqueue sim (sim.route f).dstNic ⟨.ofNat f, .ofNat idx, ackBytes, .ack, 0⟩

/-! ## Arrivals and the hot loop -/

variable (policy : RoutingPolicy)

def onArrive (m : Memory) (e : EventRecord) : Option Memory :=
  let node := (sim.fabric.port e.port).peerNode
  if (sim.fabric.node node).isHost then
    match e.kind with
    | .ack =>
      (m.modifyStats fun st =>
        { st with ackBytesDelivered := st.ackBytesDelivered + e.bytes.toUInt64 }).onAck sim e.flow
          e.packetIndex
    | .data => m.onDataArrival sim e.flow e.packetIndex e.bytes
  else
    let route := sim.route e.flow
    let dstHost := if e.kind = .ack then route.srcHost else route.dstHost
    let key := if e.kind = .ack then route.revKey else route.fwdKey
    m.enqueue sim (policy.select m.stats.eventsProcessed.toNat node key
        (sim.routes.candidates node dstHost) m.now.toNat)
      ⟨e.b, e.c, e.bytes, e.kind, 0⟩

def dispatch (m : Memory) (e : EventRecord) : Option Memory :=
  match e.type with
  | .inject => m.onInject sim e
  | .txComplete => m.onTxComplete sim e
  | .arrive => m.onArrive sim policy e
  | .timeout => m.onTimeout sim e

/-- One turn of the hot loop, its event taken from the heap. -/
def turn (m : Memory) (e : EventRecord) (queue : EventHeap) : Option Memory :=
  ({ m with queue := queue, now := e.timeNs }.modifyStats fun st =>
    { st with eventsProcessed := st.eventsProcessed + 1 }).dispatch sim policy e

/-- The hot loop, for at most `n` turns; `none` when a handler leaves its arrays. -/
def runFor : Nat → Memory → Option Memory
  | 0, m => some m
  | n + 1, m =>
    match m.queue.pop with
    | none => some m
    | some (e, queue) => (m.turn sim policy e queue).bind (runFor n)

/-- The turn of `end_run`'s loop for one flow. -/
def countFlow (st : StatsRecord) (r : ResultRow) : StatsRecord :=
  let st := if r.complete then { st with flowsComplete := st.flowsComplete + 1 }
    else { st with flowsIncomplete := st.flowsIncomplete + 1 }
  if r.failed then { st with flowsFailed := st.flowsFailed + 1 } else st

def endRun (m : Memory) : Memory :=
  m.modifyStats fun st => { m.results.toList.foldl countFlow st with virtualEndNs := m.now }

/-- `Fabric::reset_state` on one port. -/
def resetPort (p : PortRecord) : PortRecord where
  busy := false
  inFlight := default
  queue := BoundedFifo.init p.queue.capacity
  packetsSent := 0
  bytesSent := 0
  packetsDropped := 0
  bytesDropped := 0

/-- The turn of `begin_run`'s loop for one flow. -/
def beginFlow (m : Memory) (f : FlowId) : Option Memory := do
  let m ← m.modifyTx f fun _ => {}
  let m ← m.modifyResult f fun _ => { startNs := .ofNat (sim.spec f).startNs }
  if (sim.spec f).dependsOn = none then
    return m.push (.inject (.ofNat (sim.spec f).startNs) f)
  else return m

def beginRun (m : Memory) : Option Memory :=
  (List.range sim.flowCount).foldlM (beginFlow sim)
    { m with
      queue := {}
      now := 0
      ports := m.ports.map resetPort
      pktState := m.pktState.map fun _ => 0
      pktAttempt := m.pktAttempt.map fun _ => 0
      stats := {} }

end Memory

end FabricSim
