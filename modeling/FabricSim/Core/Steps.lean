import FabricSim.Core.Simulation

/-!
# What one step can do

Every invariant of a run is proved from this module and not from the handlers'
bodies. It says three things.

* Which fields an operation leaves alone: putting a packet on a port never
  touches the senders' tables, and schedules nothing but a `txComplete`.
* How to reason about the sending loop (`trySend_rule`): an invariant of its two
  sending turns, and what each of its three exits establishes.
* That every endpoint handler is a sequence of small operations on one flow
  (`Micro`), so that what all of them preserve, a handler preserves.

`Reachable.invariant` is the induction over a run.
-/

namespace FabricSim

namespace State

variable {sim : Simulation} {s : State}

/-! ## Frames -/

section Frames

variable (s) (p : PortId) (pkt : Packet)

@[simp] theorem drop_queue : (s.drop p pkt).queue = s.queue := by
  unfold drop; cases pkt.kind <;> rfl
@[simp] theorem drop_now : (s.drop p pkt).now = s.now := by
  unfold drop; cases pkt.kind <;> rfl
@[simp] theorem drop_tx : (s.drop p pkt).tx = s.tx := by
  unfold drop; cases pkt.kind <;> rfl
@[simp] theorem drop_pkt : (s.drop p pkt).pkt = s.pkt := by
  unfold drop; cases pkt.kind <;> rfl
@[simp] theorem drop_pktAttempt : (s.drop p pkt).pktAttempt = s.pktAttempt := by
  unfold drop; cases pkt.kind <;> rfl
@[simp] theorem drop_retxRing : (s.drop p pkt).retxRing = s.retxRing := by
  unfold drop; cases pkt.kind <;> rfl
@[simp] theorem drop_wrapped : (s.drop p pkt).wrapped = s.wrapped := by
  unfold drop; cases pkt.kind <;> rfl
@[simp] theorem drop_serial : (s.drop p pkt).serial = s.serial := by
  unfold drop; cases pkt.kind <;> rfl
@[simp] theorem drop_trace : (s.drop p pkt).trace = s.trace := by
  unfold drop; cases pkt.kind <;> rfl
@[simp] theorem drop_port : (s.drop p pkt).port = Function.update s.port p
    { s.port p with
      packetsDropped := (s.port p).packetsDropped + 1
      bytesDropped := (s.port p).bytesDropped + pkt.bytes } := by
  unfold drop; cases pkt.kind <;> rfl

/-- A drop is charged to the packet's flow, and changes nothing else there. -/
theorem drop_result (f : FlowId) : ∃ n, (s.drop p pkt).result f =
    { s.result f with packetsDropped := n } := by
  unfold drop
  cases pkt.kind with
  | ack => exact ⟨_, rfl⟩
  | data =>
    by_cases hf : f = pkt.flow
    · subst hf
      exact ⟨_, Function.update_self ..⟩
    · exact ⟨_, Function.update_of_ne hf ..⟩

/-- The three outcomes of offering a packet to a port. -/
theorem enqueue_cases (sim : Simulation) :
    ((s.port p).queue.count = (s.port p).queue.capacity ∧
      s.enqueue sim p pkt = (s.log (.offered s.now p pkt false)).drop p pkt) ∨
    ∃ queue, (s.port p).queue.tryPush pkt = some queue ∧
      (((s.port p).busy = true ∧ s.enqueue sim p pkt =
        (s.log (.offered s.now p pkt true)).modifyPort p fun ps => { ps with queue := queue }) ∨
      ((s.port p).busy = false ∧ s.enqueue sim p pkt =
        ((s.log (.offered s.now p pkt true)).modifyPort p fun ps =>
          { ps with queue := queue }).startTx sim p)) := by
  unfold enqueue
  cases hq : (s.port p).queue.tryPush pkt with
  | none => exact Or.inl ⟨(BoundedFifo.tryPush_eq_none_iff _ _).mp hq, rfl⟩
  | some queue =>
    refine Or.inr ⟨queue, rfl, ?_⟩
    cases hb : (s.port p).busy with
    | true => exact Or.inl ⟨rfl, rfl⟩
    | false => exact Or.inr ⟨rfl, rfl⟩

variable (sim)

@[simp] theorem enqueue_now : (s.enqueue sim p pkt).now = s.now := by
  rcases enqueue_cases s p pkt sim with ⟨-, h⟩ | ⟨q, -, ⟨-, h⟩ | ⟨-, h⟩⟩ <;> rw [h] <;> simp
@[simp] theorem enqueue_tx : (s.enqueue sim p pkt).tx = s.tx := by
  rcases enqueue_cases s p pkt sim with ⟨-, h⟩ | ⟨q, -, ⟨-, h⟩ | ⟨-, h⟩⟩ <;> rw [h] <;> simp
@[simp] theorem enqueue_pkt : (s.enqueue sim p pkt).pkt = s.pkt := by
  rcases enqueue_cases s p pkt sim with ⟨-, h⟩ | ⟨q, -, ⟨-, h⟩ | ⟨-, h⟩⟩ <;> rw [h] <;> simp
@[simp] theorem enqueue_pktAttempt : (s.enqueue sim p pkt).pktAttempt = s.pktAttempt := by
  rcases enqueue_cases s p pkt sim with ⟨-, h⟩ | ⟨q, -, ⟨-, h⟩ | ⟨-, h⟩⟩ <;> rw [h] <;> simp
@[simp] theorem enqueue_retxRing : (s.enqueue sim p pkt).retxRing = s.retxRing := by
  rcases enqueue_cases s p pkt sim with ⟨-, h⟩ | ⟨q, -, ⟨-, h⟩ | ⟨-, h⟩⟩ <;> rw [h] <;> simp
@[simp] theorem enqueue_serial : (s.enqueue sim p pkt).serial = s.serial := by
  rcases enqueue_cases s p pkt sim with ⟨-, h⟩ | ⟨q, -, ⟨-, h⟩ | ⟨-, h⟩⟩ <;> rw [h] <;> simp

theorem enqueue_result (f : FlowId) : ∃ n, (s.enqueue sim p pkt).result f =
    { s.result f with packetsDropped := n } := by
  rcases enqueue_cases s p pkt sim with ⟨-, h⟩ | ⟨q, -, ⟨-, h⟩ | ⟨-, h⟩⟩ <;> rw [h]
  · exact drop_result _ p pkt f
  · exact ⟨_, rfl⟩
  · exact ⟨_, rfl⟩

theorem enqueue_trace : ∃ room, (s.enqueue sim p pkt).trace =
    .offered s.now p pkt room :: s.trace := by
  rcases enqueue_cases s p pkt sim with ⟨-, h⟩ | ⟨q, -, ⟨-, h⟩ | ⟨-, h⟩⟩ <;> rw [h]
  · exact ⟨false, by simp⟩
  · exact ⟨true, by simp⟩
  · exact ⟨true, by simp⟩

/-- Offering a packet schedules at most a `txComplete`. -/
theorem enqueue_queue : (s.enqueue sim p pkt).queue = s.queue ∨
    ∃ t, (s.enqueue sim p pkt).queue = s.queue.push t (.txComplete p) := by
  rcases enqueue_cases s p pkt sim with ⟨-, h⟩ | ⟨q, -, ⟨-, h⟩ | ⟨-, h⟩⟩ <;> rw [h]
  · exact Or.inl (by simp)
  · exact Or.inl (by simp)
  · exact Or.inr ⟨_, startTx_queue ..⟩

theorem mem_agenda_enqueue {e : Event} (he : ∀ p, e.body ≠ .txComplete p) :
    e ∈ (s.enqueue sim p pkt).queue.agenda ↔ e ∈ s.queue.agenda := by
  rcases enqueue_queue sim s p pkt with h | ⟨t, h⟩ <;> rw [h]
  rw [EventQueue.mem_agenda_push]
  constructor
  · rintro (rfl | h)
    · exact absurd rfl (he p)
    · exact h
  · exact Or.inr

end Frames

/-- After its hand-over a port goes idle or starts on its next packet. -/
theorem onTxComplete_cases (sim : Simulation) (s : State) (p : PortId) :
    (s.port p).queue.empty = true ∧
      s.onTxComplete sim p = (s.sendOff sim p).modifyPort p (fun ps => { ps with busy := false }) ∨
    (s.port p).queue.empty = false ∧ s.onTxComplete sim p = (s.sendOff sim p).startTx sim p := by
  have hq : ((s.sendOff sim p).port p).queue = (s.port p).queue := by simp
  unfold onTxComplete
  rw [hq]
  cases h : (s.port p).queue.empty with
  | true => exact Or.inl ⟨rfl, rfl⟩
  | false => exact Or.inr ⟨rfl, rfl⟩

/-! ## One transmission -/

section Transmission

variable (s) (f : FlowId) (idx : Nat)

theorem countRetx_cases : s.countRetx f idx = s ∨
    s.countRetx f idx =
      (s.modifyStats fun st => { st with packetsRetransmitted := st.packetsRetransmitted + 1 }).modifyResult
        f fun r => { r with packetsRetransmitted := u32 (r.packetsRetransmitted + 1) } := by
  unfold countRetx
  split
  · exact Or.inr rfl
  · exact Or.inl rfl

@[simp] theorem countRetx_queue : (s.countRetx f idx).queue = s.queue := by
  unfold countRetx; split <;> rfl
@[simp] theorem countRetx_now : (s.countRetx f idx).now = s.now := by
  unfold countRetx; split <;> rfl
@[simp] theorem countRetx_port : (s.countRetx f idx).port = s.port := by
  unfold countRetx; split <;> rfl
@[simp] theorem countRetx_tx : (s.countRetx f idx).tx = s.tx := by
  unfold countRetx; split <;> rfl
@[simp] theorem countRetx_pkt : (s.countRetx f idx).pkt = s.pkt := by
  unfold countRetx; split <;> rfl
@[simp] theorem countRetx_pktAttempt : (s.countRetx f idx).pktAttempt = s.pktAttempt := by
  unfold countRetx; split <;> rfl
@[simp] theorem countRetx_retxRing : (s.countRetx f idx).retxRing = s.retxRing := by
  unfold countRetx; split <;> rfl
@[simp] theorem countRetx_wrapped : (s.countRetx f idx).wrapped = s.wrapped := by
  unfold countRetx; split <;> rfl
@[simp] theorem countRetx_serial : (s.countRetx f idx).serial = s.serial := by
  unfold countRetx; split <;> rfl
@[simp] theorem countRetx_trace : (s.countRetx f idx).trace = s.trace := by
  unfold countRetx; split <;> rfl

variable (sim)

@[simp] theorem markSent_queue : (s.markSent sim f idx).queue = s.queue := by simp [markSent]
@[simp] theorem markSent_now : (s.markSent sim f idx).now = s.now := by simp [markSent]
@[simp] theorem markSent_port : (s.markSent sim f idx).port = s.port := by simp [markSent]
@[simp] theorem markSent_pktAttempt : (s.markSent sim f idx).pktAttempt = s.pktAttempt := by
  simp [markSent]
@[simp] theorem markSent_retxRing : (s.markSent sim f idx).retxRing = s.retxRing := by
  simp [markSent]
@[simp] theorem markSent_trace : (s.markSent sim f idx).trace = s.trace := by simp [markSent]
@[simp] theorem markSent_serial : (s.markSent sim f idx).serial = s.serial + 1 := by simp [markSent]
@[simp] theorem markSent_wrapped : (s.markSent sim f idx).wrapped =
    (s.wrapped || decide (2 ^ 64 ≤ s.now + sim.periodNs f)) := by
  simp [markSent]
@[simp] theorem markSent_tx : (s.markSent sim f idx).tx = Function.update s.tx f
    { s.tx f with
      inFlight := (s.tx f).inFlight + 1, nextSendNs := u64 (s.now + sim.periodNs f) } := by
  simp [markSent]
@[simp] theorem markSent_pkt : (s.markSent sim f idx).pkt = Function.update s.pkt f
    (Function.update (s.pkt f) idx { s.pkt f idx with inFlight := true }) := by
  simp [markSent]

@[simp] theorem sendPacket_now : (s.sendPacket sim f idx).now = s.now := by simp [sendPacket]
@[simp] theorem sendPacket_pktAttempt :
    (s.sendPacket sim f idx).pktAttempt = s.pktAttempt := by
  simp [sendPacket]
@[simp] theorem sendPacket_retxRing : (s.sendPacket sim f idx).retxRing = s.retxRing := by
  simp [sendPacket]
@[simp] theorem sendPacket_serial : (s.sendPacket sim f idx).serial = s.serial + 1 := by
  simp [sendPacket]
@[simp] theorem sendPacket_tx : (s.sendPacket sim f idx).tx = Function.update s.tx f
    { s.tx f with
      inFlight := (s.tx f).inFlight + 1, nextSendNs := u64 (s.now + sim.periodNs f) } := by
  simp [sendPacket]
@[simp] theorem sendPacket_pkt : (s.sendPacket sim f idx).pkt = Function.update s.pkt f
    (Function.update (s.pkt f) idx { s.pkt f idx with inFlight := true }) := by
  simp [sendPacket]

theorem sendPacket_trace : ∃ room, (s.sendPacket sim f idx).trace =
    .offered s.now (sim.route f).srcNic (dataPacket sim s f idx) room ::
      .emitted s.now (dataPacket sim s f idx) :: s.trace := by
  unfold sendPacket
  obtain ⟨room, h⟩ := enqueue_trace sim (((s.markSent sim f idx).pushAfter sim.transport.rtoNs
    (.timeout f idx (s.pktAttempt f idx))).log (.emitted s.now (dataPacket sim s f idx)))
    (sim.route f).srcNic (dataPacket sim s f idx)
  exact ⟨room, by simpa using h⟩

theorem mem_agenda_sendPacket {e : Event} (he : ∀ p, e.body ≠ .txComplete p) :
    e ∈ (s.sendPacket sim f idx).queue.agenda ↔
      e = ⟨u64 (s.now + sim.transport.rtoNs), s.queue.nextSeq,
        .timeout f idx (s.pktAttempt f idx)⟩ ∨ e ∈ s.queue.agenda := by
  unfold sendPacket
  rw [mem_agenda_enqueue _ _ _ _ he]
  simp

end Transmission

/-! ## The sending loop -/

/-- Reasoning about `sendLoop`: `P` holds whenever the loop turns, `Q` where it
stops. -/
theorem sendLoop_rule {f : FlowId} {P Q : State → Prop}
    (hclosed : ∀ s, P s → sim.window f ≤ (s.tx f).inFlight → Q s)
    (hwait : ∀ s, P s → (s.tx f).inFlight < sim.window f → s.now < (s.tx f).nextSendNs →
      Q (s.waitTurn f))
    (hdone : ∀ s head count, P s → (s.tx f).inFlight < sim.window f →
      s.nextRetx sim f = (none, head, count) → sim.packetsTotal f ≤ (s.tx f).nextSeq →
      Q (s.drainRetx f head count))
    (hresend : ∀ s idx head count, P s → (s.tx f).inFlight < sim.window f →
      (s.tx f).nextSendNs ≤ s.now → s.nextRetx sim f = (some idx, head, count) →
      P ((s.drainRetx f head count).sendPacket sim f idx))
    (hfresh : ∀ s head count, P s → (s.tx f).inFlight < sim.window f →
      (s.tx f).nextSendNs ≤ s.now → s.nextRetx sim f = (none, head, count) →
      (s.tx f).nextSeq < sim.packetsTotal f →
      P (((s.drainRetx f head count).takeSeq f).sendPacket sim f (s.tx f).nextSeq)) :
    ∀ (fuel : Nat) (s : State), sim.window f ≤ (s.tx f).inFlight + fuel → P s →
      Q (sendLoop sim f fuel s) := by
  intro fuel
  induction fuel with
  | zero => intro s hfuel hP; exact hclosed s hP hfuel
  | succ fuel ih =>
    intro s hfuel hP
    unfold sendLoop
    split
    · next hopen =>
      split
      · next hgate => exact hwait s hP hopen hgate
      · next hgate =>
        have hgate := not_lt.mp hgate
        split
        · next idx head count hr =>
          refine ih _ ?_ (hresend s idx head count hP hopen hgate hr)
          simp only [sendPacket_tx, drainRetx_tx, Function.update_self]
          omega
        · next head count hr =>
          split
          · next hall => exact hdone s head count hP hopen hr hall
          · next hleft =>
            refine ih _ ?_ (hfresh s head count hP hopen hgate hr (not_le.mp hleft))
            simp only [sendPacket_tx, takeSeq_tx, drainRetx_tx, Function.update_self]
            omega
    · next hclosed' => exact hclosed s hP (not_lt.mp hclosed')

/-- Reasoning about `trySend`, as `sendLoop_rule`. -/
theorem trySend_rule {f : FlowId} {P Q : State → Prop}
    (hclosed : ∀ s, P s → sim.window f ≤ (s.tx f).inFlight → Q s)
    (hwait : ∀ s, P s → (s.tx f).inFlight < sim.window f → s.now < (s.tx f).nextSendNs →
      Q (s.waitTurn f))
    (hdone : ∀ s head count, P s → (s.tx f).inFlight < sim.window f →
      s.nextRetx sim f = (none, head, count) → sim.packetsTotal f ≤ (s.tx f).nextSeq →
      Q (s.drainRetx f head count))
    (hresend : ∀ s idx head count, P s → (s.tx f).inFlight < sim.window f →
      (s.tx f).nextSendNs ≤ s.now → s.nextRetx sim f = (some idx, head, count) →
      P ((s.drainRetx f head count).sendPacket sim f idx))
    (hfresh : ∀ s head count, P s → (s.tx f).inFlight < sim.window f →
      (s.tx f).nextSendNs ≤ s.now → s.nextRetx sim f = (none, head, count) →
      (s.tx f).nextSeq < sim.packetsTotal f →
      P (((s.drainRetx f head count).takeSeq f).sendPacket sim f (s.tx f).nextSeq))
    {s : State} (hfailed : (s.tx f).failed = true → Q s) (h : P s) : Q (s.trySend sim f) := by
  unfold trySend
  split
  · next hf => exact hfailed hf
  · exact sendLoop_rule hclosed hwait hdone hresend hfresh _ s (by omega) h

/-! ## Handlers as sequences of small operations -/

/-- One small operation of an endpoint handler of flow `f`. The side conditions
keep what the operation may not do: touch a result's loss and retransmission
counters, or schedule a wake-up in the past. -/
inductive Micro (sim : Simulation) (f : FlowId) : State → State → Prop where
  | send (s : State) (idx : Nat) : Micro sim f s (s.sendPacket sim f idx)
  | ack (s : State) (idx attempt : Nat) : Micro sim f s (s.sendAck sim f idx attempt)
  | tx (s : State) (g : FlowTx → FlowTx) : Micro sim f s (s.modifyTx f g)
  | pkt (s : State) (idx : Nat) (g : PktState → PktState) : Micro sim f s (s.modifyPkt f idx g)
  | result (s : State) (g : FlowResult → FlowResult)
      (hg : ∀ r, (g r).packetsDropped = r.packetsDropped ∧
        (g r).packetsRetransmitted = r.packetsRetransmitted) :
      Micro sim f s (s.modifyResult f g)
  | attempt (s : State) (idx : Nat) : Micro sim f s (s.nextAttempt f idx)
  | ring (s : State) (slot idx : Nat) : Micro sim f s (s.setRing f slot idx)
  | wake (s : State) (t : Nat) (ht : s.now ≤ t) : Micro sim f s (s.pushAt t (.inject f))
  | release (s : State) (d : FlowId) (hd : d ∈ sim.dependents f) :
      Micro sim f s (releaseFlow f s d)

/-- A sequence of small operations. -/
def Micros (sim : Simulation) (f : FlowId) : State → State → Prop :=
  Relation.ReflTransGen (Micro sim f)

variable {f : FlowId}

theorem Micros.refl : Micros sim f s s := Relation.ReflTransGen.refl

theorem Micros.then {s₁ s₂ s₃ : State} (h₁ : Micros sim f s₁ s₂) (h₂ : Micros sim f s₂ s₃) :
    Micros sim f s₁ s₃ :=
  Relation.ReflTransGen.trans h₁ h₂

theorem Micro.one {s₁ s₂ : State} (h : Micro sim f s₁ s₂) : Micros sim f s₁ s₂ :=
  Relation.ReflTransGen.single h

/-- What every small operation preserves, a sequence preserves. -/
theorem Micros.preserve {P : State → Prop} (hP : ∀ s s', Micro sim f s s' → P s → P s')
    {s s' : State} (h : Micros sim f s s') (hs : P s) : P s' := by
  induction h with
  | refl => exact hs
  | tail _ hstep ih => exact hP _ _ hstep ih

theorem waitTurn_micros {s : State} {f : FlowId} (h : s.now < (s.tx f).nextSendNs) :
    Micros sim f s (s.waitTurn f) := by
  unfold waitTurn
  split
  · exact Micros.refl
  · have hgate : (s.modifyTx f fun tx => { tx with sendScheduled := true }).now ≤
        (s.tx f).nextSendNs := h.le
    exact (Micro.tx s _).one.then (Micro.wake _ _ hgate).one

theorem trySend_micros (s : State) (f : FlowId) : Micros sim f s (s.trySend sim f) := by
  refine trySend_rule (P := Micros sim f s) (Q := Micros sim f s) ?_ ?_ ?_ ?_ ?_ ?_ Micros.refl
  · exact fun _ h _ => h
  · exact fun s' h _ hgate => h.then (waitTurn_micros hgate)
  · exact fun s' _ _ h _ _ _ => h.then (Micro.tx s' _).one
  · exact fun s' _ _ _ h _ _ _ => (h.then (Micro.tx s' _).one).then (Micro.send _ _).one
  · exact fun s' _ _ h _ _ _ _ =>
      ((h.then (Micro.tx s' _).one).then (Micro.tx _ _).one).then (Micro.send _ _).one
  · exact fun _ => Micros.refl

theorem land_micros (s : State) (f : FlowId) (idx : Nat) : Micros sim f s (s.land f idx) := by
  unfold land
  split
  · exact (Micro.pkt s idx _).one.then (Micro.tx _ _).one
  · exact Micros.refl

theorem onInject_micros (s : State) (f : FlowId) : Micros sim f s (s.onInject sim f) :=
  (Micro.tx s _).one.then (trySend_micros _ f)

theorem onAck_micros (s : State) (f : FlowId) (idx : Nat) :
    Micros sim f s (s.onAck sim f idx) := by
  unfold onAck
  split
  · exact Micros.refl
  · exact (((Micro.pkt s idx _).one.then (Micro.tx _ _).one).then (land_micros _ f idx)).then
      (trySend_micros _ f)

theorem onTimeout_micros (s : State) (f : FlowId) (idx attempt : Nat) :
    Micros sim f s (s.onTimeout sim f idx attempt) := by
  unfold onTimeout
  split
  · exact Micros.refl
  · split
    · exact Micros.refl
    · split
      · exact Micros.refl
      · split
        · exact ((land_micros s f idx).then (Micro.tx _ _).one).then
            (Micro.result _ (fun r => { r with failed := true }) fun _ => ⟨rfl, rfl⟩).one
        · exact (((((land_micros s f idx).then (Micro.attempt _ idx).one).then
            (Micro.ring _ _ idx).one)).then (Micro.tx _ _).one).then (trySend_micros _ f)

theorem completeFlow_micros (s : State) (f : FlowId) :
    Micros sim f s (s.completeFlow sim f) := by
  have hfold : ∀ (l : List FlowId), (∀ d ∈ l, d ∈ sim.dependents f) → ∀ s₀ : State,
      Micros sim f s₀ (l.foldl (releaseFlow f) s₀) := by
    intro l
    induction l with
    | nil => intro _ s₀; exact Micros.refl
    | cons d l ih =>
      intro hl s₀
      rw [List.foldl_cons]
      exact (Micro.release s₀ d (hl d (List.mem_cons_self ..))).one.then
        (ih (fun x hx => hl x (List.mem_cons_of_mem _ hx)) _)
  exact (Micro.result s (fun r => { r with finishNs := s.now, complete := true })
    fun _ => ⟨rfl, rfl⟩).one.then (hfold _ (fun _ h => h) _)

theorem deliver_micros (s : State) (f : FlowId) (idx bytes : Nat) :
    Micros sim f s (s.deliver sim f idx bytes) := by
  unfold deliver
  have h₁ : Micros sim f s _ := (Micro.pkt s idx fun st => { st with delivered := true }).one.then
    (Micro.result _ (fun r =>
      { r with
        packetsDelivered := r.packetsDelivered + 1, deliveredBytes := r.deliveredBytes + bytes })
      fun _ => ⟨rfl, rfl⟩).one
  dsimp only
  split
  · exact h₁.then (completeFlow_micros _ f)
  · exact h₁

/-- The statistics of one data arrival. -/
def countDelivered (s : State) (bytes : Nat) : State :=
  s.modifyStats fun st => { st with bytesDelivered := st.bytesDelivered + bytes }

/-- The statistics of one ack arrival. -/
def countAckDelivered (s : State) (bytes : Nat) : State :=
  s.modifyStats fun st => { st with ackBytesDelivered := st.ackBytesDelivered + bytes }

theorem onDataArrival_micros (s : State) (f : FlowId) (idx bytes attempt : Nat) :
    Micros sim f (s.countDelivered bytes) (s.onDataArrival sim f idx bytes attempt) := by
  unfold onDataArrival
  refine Micros.then ?_ (Micro.ack _ idx attempt).one
  split
  · exact Micros.refl
  · exact deliver_micros _ f idx bytes

/-! ## Arrivals -/

variable {policy : RoutingPolicy} {p : PortId} {pkt : Packet}

theorem onArrive_data (hhost : (sim.fabric.node (sim.fabric.port p).peerNode).isHost = true)
    (hk : pkt.kind = .data) :
    s.onArrive sim policy p pkt =
      s.onDataArrival sim pkt.flow pkt.index pkt.bytes pkt.tag.attempt := by
  unfold onArrive
  rw [if_pos hhost, hk]

theorem onArrive_ack (hhost : (sim.fabric.node (sim.fabric.port p).peerNode).isHost = true)
    (hk : pkt.kind = .ack) :
    s.onArrive sim policy p pkt =
      (s.countAckDelivered pkt.bytes).onAck sim pkt.flow pkt.index := by
  unfold onArrive
  rw [if_pos hhost, hk]
  rfl

/-- The port a switch forwards a packet to. -/
def nextPort (sim : Simulation) (policy : RoutingPolicy) (s : State) (p : PortId) (pkt : Packet) :
    PortId :=
  policy.select s.stats.eventsProcessed (sim.fabric.port p).peerNode (routeOf sim pkt).2
    (sim.routes.candidates (sim.fabric.port p).peerNode (routeOf sim pkt).1) s.now

theorem onArrive_switch (hsw : (sim.fabric.node (sim.fabric.port p).peerNode).isHost = false) :
    s.onArrive sim policy p pkt =
      s.enqueue sim (nextPort sim policy s p pkt) (forwarded p pkt) := by
  unfold onArrive
  rw [if_neg (by simp [hsw])]
  rfl

/-- Policies that forward alike run alike. -/
theorem runFor_congr {policy' : RoutingPolicy}
    (h : ∀ s p pkt, nextPort sim policy s p pkt = nextPort sim policy' s p pkt) (n : Nat) (s : State) :
    s.runFor sim policy n = s.runFor sim policy' n := by
  have hdispatch : ∀ (s : State) b, s.dispatch sim policy b = s.dispatch sim policy' b := by
    intro s b
    cases b with
    | arrive p pkt =>
      show s.onArrive sim policy p pkt = s.onArrive sim policy' p pkt
      by_cases hhost : (sim.fabric.node (sim.fabric.port p).peerNode).isHost = true
      · unfold onArrive
        rw [if_pos hhost, if_pos hhost]
      · have hsw := Bool.eq_false_iff.mpr hhost
        rw [onArrive_switch hsw, onArrive_switch hsw, h]
    | _ => rfl
  have hstep : ∀ s : State, s.step sim policy = s.step sim policy' := by
    intro s
    unfold step
    split
    · rfl
    · rw [hdispatch]
  induction n generalizing s with
  | zero => rfl
  | succ n ih =>
    unfold runFor
    rw [hstep]
    split
    · rfl
    · exact ih _

end State

namespace Simulation

variable {sim : Simulation} {policy : RoutingPolicy}

theorem step_eq_some_iff {s s' : State} : s.step sim policy = some s' ↔
    ∃ e queue, s.queue.pop = some (e, queue) ∧
      s' = (s.advance e queue).dispatch sim policy e.body := by
  unfold State.step
  cases h : s.queue.pop with
  | none => simp
  | some r =>
    obtain ⟨e, queue⟩ := r
    constructor
    · intro heq
      exact ⟨e, queue, rfl, (Option.some.inj heq).symm⟩
    · rintro ⟨e', queue', heq, rfl⟩
      obtain ⟨rfl, rfl⟩ := Prod.mk.inj (Option.some.inj heq)
      rfl

theorem Reachable.begin (leftover : State) : sim.Reachable policy (sim.beginRun leftover) :=
  ⟨leftover, Relation.ReflTransGen.refl⟩

theorem Reachable.next {s s' : State} (h : sim.Reachable policy s) (hs : sim.Step policy s s') :
    sim.Reachable policy s' := by
  obtain ⟨leftover, hrun⟩ := h
  exact ⟨leftover, hrun.tail hs⟩

/-- Running for a while from a reachable state. -/
theorem Reachable.runFor (n : Nat) : ∀ {s : State}, sim.Reachable policy s →
    sim.Reachable policy (s.runFor sim policy n) := by
  induction n with
  | zero => exact fun h => h
  | succ n ih =>
    intro s h
    unfold State.runFor
    split
    · exact h
    · next s' hs => exact ih (h.next hs)

/-- The induction over a run. -/
theorem Reachable.invariant {P : State → Prop} (hbegin : ∀ leftover, P (sim.beginRun leftover))
    (hstep : ∀ s e queue, sim.Reachable policy s → P s → s.queue.pop = some (e, queue) →
      P ((s.advance e queue).dispatch sim policy e.body))
    {s : State} (h : sim.Reachable policy s) : P s := by
  obtain ⟨leftover, hrun⟩ := h
  induction hrun with
  | refl => exact hbegin leftover
  | tail hr hs ih =>
    obtain ⟨e, queue, hpop, rfl⟩ := step_eq_some_iff.mp hs
    exact hstep _ e queue ⟨leftover, hr⟩ ih hpop

end Simulation

end FabricSim
