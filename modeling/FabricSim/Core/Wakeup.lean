import FabricSim.Core.Layout
import FabricSim.Core.Pair
import FabricSim.Core.Receiver

/-!
# No lost wake-up

A flow with work left must always have something in the schedule that will come
back to it. `Timed` is the part that holds of every flow: a raised
`sendScheduled` flag stands for a pending `inject`, and each packet in flight
has its own pending timer. `Awake` adds the part that holds once a flow is
released: a flow with nothing scheduled has failed, is waiting on a full
window, or has nothing left to send.

Each handler works on one flow. For that flow the sending loop re-establishes
`Awake` from `Timed` on all of its exits (`Timed.trySend`); every other flow sees
no change that matters to it (`Calm`). When the queue has drained nothing is
pending, so no packet can be in flight and the window is open: the flow is done.
-/

namespace FabricSim

open State

/-- An event of this kind is in the schedule. -/
def State.Pending (s : State) (b : EventBody) : Prop := ∃ e ∈ s.queue.agenda, e.body = b

/-- The flow may send: it waited on nothing, or was released. -/
def Released (sim : Simulation) (s : State) (f : FlowId) : Prop :=
  (sim.spec f).dependsOn = none ∨ ∃ t g, .released t g f ∈ s.trace

/-- What the schedule owes the sender of flow `f`. -/
structure Timed (s : State) (f : FlowId) : Prop where
  scheduled : (s.tx f).sendScheduled = true → s.Pending (.inject f)
  timers : (s.tx f).failed = false → ∀ idx, (s.pkt f idx).inFlight = true →
    s.Pending (.timeout f idx (s.pktAttempt f idx))

/-- A released flow that has not failed waits for an event, for room in its
window, or for nothing. -/
structure Awake (sim : Simulation) (s : State) (f : FlowId) : Prop extends Timed s f where
  busy : Released sim s f → (s.tx f).failed = true ∨ s.Pending (.inject f) ∨
    sim.window f ≤ (s.tx f).inFlight ∨
    (sim.packetsTotal f ≤ (s.tx f).nextSeq ∧ (s.tx f).retxCount = 0)

/-! ## The schedule grows -/

namespace State.Pending

variable {sim : Simulation} {s : State} {b : EventBody}

theorem push (h : s.Pending b) (t : Nat) (b' : EventBody) : (s.pushAt t b').Pending b := by
  obtain ⟨e, he, hb⟩ := h
  exact ⟨e, EventQueue.mem_agenda_push.mpr (Or.inr he), hb⟩

theorem of_push (s : State) (t : Nat) (b : EventBody) : (s.pushAt t b).Pending b :=
  ⟨_, EventQueue.mem_agenda_push.mpr (Or.inl rfl), rfl⟩

theorem enqueue (h : s.Pending b) (p : PortId) (pkt : Packet) :
    (s.enqueue sim p pkt).Pending b := by
  obtain ⟨e, he, hb⟩ := h
  rcases enqueue_queue sim s p pkt with hq | ⟨t, hq⟩
  · exact ⟨e, by rw [hq]; exact he, hb⟩
  · exact ⟨e, by rw [hq]; exact EventQueue.mem_agenda_push.mpr (Or.inr he), hb⟩

theorem sendPacket (h : s.Pending b) (f : FlowId) (idx : Nat) :
    (s.sendPacket sim f idx).Pending b := by
  unfold State.sendPacket
  refine Pending.enqueue ?_ _ _
  obtain ⟨e, he, hb⟩ := h
  exact ⟨e, by simp [he], hb⟩

theorem of_sendPacket (s : State) (f : FlowId) (idx : Nat) :
    (s.sendPacket sim f idx).Pending (.timeout f idx (s.pktAttempt f idx)) :=
  ⟨_, (mem_agenda_sendPacket sim s f idx (by simp)).mpr (Or.inl rfl), rfl⟩

/-- Taking an event leaves the others. -/
theorem advance {e : Event} {queue : EventQueue} (h : s.Pending b)
    (hpop : s.queue.pop = some (e, queue)) (hne : e.body ≠ b) : (s.advance e queue).Pending b := by
  obtain ⟨e', he, hb⟩ := h
  rw [EventQueue.agenda_of_pop hpop] at he
  rcases List.mem_cons.mp he with rfl | he
  · exact absurd hb hne
  · exact ⟨e', he, hb⟩

end State.Pending

/-! ## Flows a step does not concern -/

/-- Nothing that `Awake` says of flow `f` gets worse from `s` to `s'`. -/
structure Calm (sim : Simulation) (s s' : State) (f : FlowId) : Prop where
  books : (s'.tx f).books = (s.tx f).books
  flag : (s'.tx f).sendScheduled = (s.tx f).sendScheduled
  air : ∀ idx, (s'.pkt f idx).inFlight = (s.pkt f idx).inFlight
  attempt : s'.pktAttempt f = s.pktAttempt f
  pending : ∀ b, s.Pending b → (b = .inject f ∨ ∃ idx a, b = .timeout f idx a) → s'.Pending b
  released : Released sim s' f → Released sim s f ∨ s'.Pending (.inject f)

namespace Calm

variable {sim : Simulation} {policy : RoutingPolicy} {s s' : State} {f : FlowId}

theorem refl (s : State) (f : FlowId) : Calm sim s s f :=
  ⟨rfl, rfl, fun _ => rfl, rfl, fun _ h _ => h, Or.inl⟩

theorem trans {s₁ s₂ s₃ : State} (h₁ : Calm sim s₁ s₂ f) (h₂ : Calm sim s₂ s₃ f) :
    Calm sim s₁ s₃ f where
  books := h₂.books.trans h₁.books
  flag := h₂.flag.trans h₁.flag
  air := fun idx => (h₂.air idx).trans (h₁.air idx)
  attempt := h₂.attempt.trans h₁.attempt
  pending := fun b h hb => h₂.pending b (h₁.pending b h hb) hb
  released := by
    intro h
    rcases h₂.released h with h | h
    · rcases h₁.released h with h | h
      · exact Or.inl h
      · exact Or.inr (h₂.pending _ h (Or.inl rfl))
    · exact Or.inr h

/-- A step on other tables, whose new history releases nobody. -/
theorem of_eq (htx : s'.tx f = s.tx f) (hpkt : ∀ idx, (s'.pkt f idx).inFlight = (s.pkt f idx).inFlight)
    (hatt : s'.pktAttempt f = s.pktAttempt f) (hq : ∀ b, s.Pending b → s'.Pending b)
    (htr : ∀ t g, .released t g f ∈ s'.trace → .released t g f ∈ s.trace) : Calm sim s s' f where
  books := by rw [htx]
  flag := by rw [htx]
  air := hpkt
  attempt := hatt
  pending := fun b h _ => hq b h
  released := by
    rintro (h | ⟨t, g, h⟩)
    · exact Or.inl (Or.inl h)
    · exact Or.inl (Or.inr ⟨t, g, htr t g h⟩)

theorem enqueue (s : State) (p : PortId) (pkt : Packet) (f : FlowId) :
    Calm sim s (s.enqueue sim p pkt) f := by
  refine of_eq (by simp) (fun _ => by simp) (by simp) (fun b h => h.enqueue p pkt) ?_
  intro t g h
  obtain ⟨room, htr⟩ := enqueue_trace sim s p pkt
  rw [htr] at h
  simpa using h

theorem sendAck (s : State) (g : FlowId) (idx a : Nat) (f : FlowId) :
    Calm sim s (s.sendAck sim g idx a) f := by
  unfold State.sendAck
  refine Calm.trans ?_ (Calm.enqueue _ _ _ f)
  exact of_eq rfl (fun _ => rfl) rfl (fun _ h => h) fun t g h => by simpa using h

theorem sendPacket (s : State) {g : FlowId} (idx : Nat) (hf : f ≠ g) :
    Calm sim s (s.sendPacket sim g idx) f := by
  refine of_eq ?_ ?_ (by simp) (fun b h => h.sendPacket g idx) ?_
  · simp [Function.update_of_ne hf]
  · intro i
    simp [Function.update_of_ne hf]
  · intro t d h
    obtain ⟨room, htr⟩ := sendPacket_trace sim s g idx
    rw [htr] at h
    simpa using h

/-- A release wakes its flow. -/
theorem releaseFlow (s : State) (g d : FlowId) (f : FlowId) :
    Calm sim s (State.releaseFlow g s d) f := by
  have htx : (State.releaseFlow g s d).tx f =
      if f = d then { s.tx f with nextSendNs := s.now } else s.tx f := by
    by_cases hf : f = d
    · subst hf
      simp
    · simp [hf]
  refine ⟨?_, ?_, fun _ => rfl, rfl, ?_, ?_⟩
  · rw [htx]
    split
    · exact FlowTx.books_nextSend _ _
    · rfl
  · rw [htx]
    split <;> rfl
  · rintro b ⟨e, he, hb⟩ -
    exact ⟨e, by simp [he], hb⟩
  · rintro (h | ⟨t, g', h⟩)
    · exact Or.inl (Or.inl h)
    · rw [releaseFlow_trace] at h
      rcases List.mem_cons.mp h with h | h
      · obtain ⟨-, -, rfl⟩ : t = s.now ∧ g' = g ∧ f = d := by simpa using h
        exact Or.inr (Pending.of_push _ _ _)
      · exact Or.inl (Or.inr ⟨t, g', h⟩)

/-- Operations on another flow. -/
theorem micro {g : FlowId} (hf : f ≠ g) (h : Micro sim g s s') : Calm sim s s' f := by
  cases h with
  | send idx => exact sendPacket s idx hf
  | ack idx a => exact sendAck s g idx a f
  | tx u =>
    exact of_eq (by simp [Function.update_of_ne hf]) (fun _ => rfl) rfl (fun _ h => h) fun _ _ h => h
  | pkt idx u =>
    exact of_eq rfl (fun _ => by simp [Function.update_of_ne hf]) rfl (fun _ h => h) fun _ _ h => h
  | result u _ => exact of_eq rfl (fun _ => rfl) rfl (fun _ h => h) fun _ _ h => h
  | attempt idx =>
    exact of_eq rfl (fun _ => rfl) (by simp [Function.update_of_ne hf]) (fun _ h => h) fun _ _ h => h
  | ring slot idx => exact of_eq rfl (fun _ => rfl) rfl (fun _ h => h) fun _ _ h => h
  | wake t _ => exact of_eq rfl (fun _ => rfl) rfl (fun _ h => h.push _ _) fun _ _ h => h
  | release d _ => exact releaseFlow s g d f

theorem micros {g : FlowId} (hf : f ≠ g) (h : Micros sim g s s') : Calm sim s s' f :=
  h.preserve (P := fun s' => Calm sim s s' f) (fun _ _ hm hc => hc.trans (micro hf hm))
    (Calm.refl s f)

theorem completeFlow (s : State) (g f : FlowId) : Calm sim s (s.completeFlow sim g) f := by
  have hfold : ∀ (l : List FlowId) (s : State), Calm sim s (l.foldl (State.releaseFlow g) s) f := by
    intro l
    induction l with
    | nil => exact fun s => Calm.refl s f
    | cons d l ih => exact fun s => (releaseFlow s g d f).trans (ih _)
  have hdone : Calm sim s (s.modifyResult g fun r =>
      { r with finishNs := s.now, complete := true }) f :=
    of_eq rfl (fun _ => rfl) rfl (fun _ h => h) fun _ _ h => h
  exact hdone.trans (hfold _ _)

theorem deliver (s : State) (g : FlowId) (idx bytes : Nat) (f : FlowId) :
    Calm sim s (s.deliver sim g idx bytes) f := by
  have hbits : Calm sim s ((s.modifyPkt g idx fun st => { st with delivered := true }).modifyResult g
      fun r => { r with
        packetsDelivered := r.packetsDelivered + 1, deliveredBytes := r.deliveredBytes + bytes }) f := by
    refine of_eq rfl (fun i => ?_) rfl (fun _ h => h) fun _ _ h => h
    by_cases hf : f = g
    · subst hf
      by_cases hi : i = idx
      · subst hi; simp
      · simp [Function.update_of_ne hi]
    · simp [Function.update_of_ne hf]
  unfold State.deliver
  dsimp only
  split
  · exact hbits.trans (completeFlow _ g f)
  · exact hbits

theorem onDataArrival (s : State) (g : FlowId) (idx bytes a : Nat) (f : FlowId) :
    Calm sim s (s.onDataArrival sim g idx bytes a) f := by
  unfold State.onDataArrival
  have hcount : Calm sim s (s.countDelivered bytes) f :=
    of_eq rfl (fun _ => rfl) rfl (fun _ h => h) fun _ _ h => h
  refine Calm.trans ?_ (sendAck _ g idx a f)
  split
  · exact hcount
  · exact hcount.trans (deliver _ g idx bytes f)

theorem onTxComplete (s : State) (p : PortId) (f : FlowId) :
    Calm sim s (s.onTxComplete sim p) f := by
  rcases onTxComplete_cases sim s p with ⟨-, h⟩ | ⟨-, h⟩ <;> rw [h]
  · refine of_eq rfl (fun _ => rfl) rfl ?_ fun _ _ h => h
    rintro b ⟨e, he, hb⟩
    exact ⟨e, by simp [he], hb⟩
  · refine of_eq rfl (fun _ => rfl) rfl ?_ fun _ _ h => h
    rintro b ⟨e, he, hb⟩
    exact ⟨e, by simp [he], hb⟩

/-- Taking an event that is no wake-up of `f`. -/
theorem advance {e : Event} {queue : EventQueue} (hpop : s.queue.pop = some (e, queue))
    (hinj : e.body ≠ .inject f) (htmo : ∀ idx a, e.body ≠ .timeout f idx a) :
    Calm sim s (s.advance e queue) f := by
  refine ⟨rfl, rfl, fun _ => rfl, rfl, ?_, ?_⟩
  · rintro b h (rfl | ⟨idx, a, rfl⟩)
    · exact h.advance hpop hinj
    · exact h.advance hpop (htmo idx a)
  · rintro (h | ⟨t, g, h⟩)
    · exact Or.inl (Or.inl h)
    · exact Or.inl (Or.inr ⟨t, g, by simpa using h⟩)

end Calm

/-! ## The flow a step works on -/

namespace Timed

variable {sim : Simulation} {s s' : State} {f : FlowId}

/-- Fewer packets in flight, nothing taken from the schedule. -/
theorem mono (h : Timed s f) (hflag : (s'.tx f).sendScheduled = (s.tx f).sendScheduled)
    (hfail : (s'.tx f).failed = (s.tx f).failed)
    (hair : ∀ idx, (s'.pkt f idx).inFlight = true → (s.pkt f idx).inFlight = true)
    (hatt : s'.pktAttempt f = s.pktAttempt f) (hq : ∀ b, s.Pending b → s'.Pending b) :
    Timed s' f where
  scheduled := by
    rw [hflag]
    exact fun hs => hq _ (h.scheduled hs)
  timers := by
    rw [hfail, hatt]
    exact fun hf idx hi => hq _ (h.timers hf idx (hair idx hi))

theorem calm (h : Timed s f) (hc : Calm sim s s' f) : Timed s' f where
  scheduled := by
    rw [hc.flag]
    exact fun hs => hc.pending _ (h.scheduled hs) (Or.inl rfl)
  timers := by
    rw [FlowTx.failed_of_books hc.books, hc.attempt]
    intro hf idx hi
    rw [hc.air] at hi
    exact hc.pending _ (h.timers hf idx hi) (Or.inr ⟨_, _, rfl⟩)

theorem drain (h : Timed s f) (head count : Nat) : Timed (s.drainRetx f head count) f :=
  h.mono (by simp) (by simp) (fun _ hi => hi) rfl fun _ hb => hb

theorem takeSeq (h : Timed s f) : Timed (s.takeSeq f) f :=
  h.mono (by simp) (by simp) (fun _ hi => hi) rfl fun _ hb => hb

/-- A transmission starts its own timer. -/
theorem sendPacket (h : Timed s f) (idx : Nat) : Timed (s.sendPacket sim f idx) f where
  scheduled := by
    intro hs
    exact (h.scheduled (by simpa using hs)).sendPacket f idx
  timers := by
    intro hf i hi
    rw [sendPacket_pktAttempt]
    by_cases hii : i = idx
    · subst hii
      exact Pending.of_sendPacket s f i
    · refine (h.timers (by simpa using hf) i ?_).sendPacket f idx
      simpa [Function.update_of_ne hii] using hi

/-- The wait for the pacing gate ends with a pending wake-up. -/
theorem waitTurn (h : Timed s f) : Timed (s.waitTurn f) f ∧ (s.waitTurn f).Pending (.inject f) := by
  unfold State.waitTurn
  split
  · next hflag => exact ⟨h, h.scheduled hflag⟩
  · have hpend := Pending.of_push (s.modifyTx f fun tx => { tx with sendScheduled := true })
      (s.tx f).nextSendNs (.inject f)
    refine ⟨⟨fun _ => hpend, ?_⟩, hpend⟩
    intro hf idx hi
    obtain ⟨e, he, hb⟩ := h.timers (by simpa using hf) idx hi
    exact ⟨e, by simp [he], hb⟩

theorem land (h : Timed s f) (idx : Nat) : Timed (s.land f idx) f := by
  unfold State.land
  split
  · refine h.mono (by simp) (by simp) (fun i hi => ?_) rfl fun _ hb => hb
    by_cases hii : i = idx
    · subst hii
      exact absurd hi (by simp)
    · simpa [Function.update_of_ne hii] using hi
  · exact h

theorem popRetx_none {window : Nat} {ring : Nat → Nat} {acked : Nat → Bool} {head' count' : Nat} :
    ∀ {head count : Nat}, popRetx window ring acked head count = (none, head', count') →
      count' = 0 := by
  intro head count
  induction count generalizing head with
  | zero =>
    intro h
    obtain ⟨-, rfl⟩ : head = head' ∧ 0 = count' := by simpa [popRetx] using h
    rfl
  | succ count ih =>
    intro h
    unfold popRetx at h
    dsimp only at h
    split at h
    · exact ih h
    · exact absurd h (by simp)

/-- On each exit of the sending loop the flow is awake. -/
theorem trySend (h : Timed s f) : Awake sim (s.trySend sim f) f := by
  refine trySend_rule (P := fun s => Timed s f) (Q := fun s => Awake sim s f) ?_ ?_ ?_ ?_ ?_ ?_ h
  · exact fun s h hclosed => ⟨h, fun _ => Or.inr (Or.inr (Or.inl hclosed))⟩
  · intro s h _ _
    obtain ⟨ht, hp⟩ := h.waitTurn
    exact ⟨ht, fun _ => Or.inr (Or.inl hp)⟩
  · intro s head count h _ hr hall
    refine ⟨h.drain head count, fun _ => Or.inr (Or.inr (Or.inr ⟨?_, ?_⟩))⟩
    · simpa using hall
    · simpa using popRetx_none hr
  · exact fun s idx head count h _ _ _ => (h.drain head count).sendPacket idx
  · exact fun s head count h _ _ _ _ => (h.drain head count).takeSeq.sendPacket _
  · exact fun hf => ⟨h, fun _ => Or.inl hf⟩

end Timed

namespace Awake

variable {sim : Simulation} {policy : RoutingPolicy} {s s' : State} {f : FlowId}

theorem calm (h : Awake sim s f) (hc : Calm sim s s' f) : Awake sim s' f where
  toTimed := h.toTimed.calm hc
  busy := by
    have hbusy : Released sim s f → (s'.tx f).failed = true ∨ s'.Pending (.inject f) ∨
        sim.window f ≤ (s'.tx f).inFlight ∨
        (sim.packetsTotal f ≤ (s'.tx f).nextSeq ∧ (s'.tx f).retxCount = 0) := by
      intro hrel
      have hb := hc.books
      simp only [FlowTx.books, FlowTx.mk.injEq] at hb
      obtain ⟨h1, h2, -, -, h3, -, -, h4⟩ := hb
      rw [h1, h2, h3, h4]
      rcases h.busy hrel with hf | hp | hw | hd
      · exact Or.inl hf
      · exact Or.inr (Or.inl (hc.pending _ hp (Or.inl rfl)))
      · exact Or.inr (Or.inr (Or.inl hw))
      · exact Or.inr (Or.inr (Or.inr hd))
    intro hrel
    rcases hc.released hrel with hrel | hp
    · exact hbusy hrel
    · exact Or.inr (Or.inl hp)

theorem onAck (h : Awake sim s f) (idx : Nat) : Awake sim (s.onAck sim f idx) f := by
  unfold State.onAck
  split
  · exact h
  · refine Timed.trySend (Timed.land ?_ idx)
    refine h.toTimed.mono (by simp) (by simp) (fun i hi => ?_) rfl fun _ hb => hb
    by_cases hii : i = idx
    · subst hii
      simpa using hi
    · simpa [Function.update_of_ne hii] using hi

/-- The timer of the flow itself: whatever it was owed for is settled. -/
theorem onTimeout (h : Awake sim s f) {idx a : Nat} {e : Event} {queue : EventQueue}
    (hpop : s.queue.pop = some (e, queue)) (hb : e.body = .timeout f idx a)
    (hsettled : (s.pkt f idx).acked = true → (s.pkt f idx).inFlight = false) :
    Awake sim ((s.advance e queue).onTimeout sim f idx a) f := by
  have hsched : (s.tx f).sendScheduled = true → (s.advance e queue).Pending (.inject f) :=
    fun hs => (h.scheduled hs).advance hpop (by rw [hb]; simp)
  have hother : ∀ i, (i ≠ idx ∨ s.pktAttempt f idx ≠ a) → (s.tx f).failed = false →
      (s.pkt f i).inFlight = true →
      (s.advance e queue).Pending (.timeout f i (s.pktAttempt f i)) := by
    intro i hne hf hi
    refine (h.timers hf i hi).advance hpop ?_
    rw [hb]
    intro heq
    obtain ⟨rfl, rfl⟩ : idx = i ∧ a = s.pktAttempt f i := by simpa using heq
    rcases hne with hne | hne <;> exact hne rfl
  have hbusy : Released sim (s.advance e queue) f → (s.tx f).failed = true ∨
      (s.advance e queue).Pending (.inject f) ∨ sim.window f ≤ (s.tx f).inFlight ∨
      (sim.packetsTotal f ≤ (s.tx f).nextSeq ∧ (s.tx f).retxCount = 0) := by
    intro hrel
    have hrel : Released sim s f := by
      rcases hrel with hrel | ⟨t, g, hrel⟩
      · exact Or.inl hrel
      · exact Or.inr ⟨t, g, by simpa using hrel⟩
    rcases h.busy hrel with hf | hp | hw | hd
    · exact Or.inl hf
    · exact Or.inr (Or.inl (hp.advance hpop (by rw [hb]; simp)))
    · exact Or.inr (Or.inr (Or.inl hw))
    · exact Or.inr (Or.inr (Or.inr hd))
  unfold State.onTimeout
  split
  · next hacked =>
    -- an acked packet is not in flight, so this timer was owed to nobody
    refine ⟨⟨hsched, fun hf i hi => ?_⟩, hbusy⟩
    refine hother i (Or.inl ?_) hf hi
    rintro rfl
    exact absurd ((hsettled hacked).symm.trans hi) (by simp)
  · split
    · next hstale => exact ⟨⟨hsched, fun hf i hi => hother i (Or.inr hstale) hf hi⟩, hbusy⟩
    · split
      · next hfail =>
        exact ⟨⟨hsched, fun hf => absurd hfail (by simpa using hf)⟩, fun _ => Or.inl hfail⟩
      · next hfail =>
        have hf : (s.tx f).failed = false := by simpa using hfail
        -- once landed, only the other packets need their timers
        have hland : ∀ i, ((((s.advance e queue).land f idx).pkt f i).inFlight = true) →
            i ≠ idx ∧ (s.pkt f i).inFlight = true := by
          intro i hi
          unfold State.land at hi
          split at hi
          · by_cases hii : i = idx
            · subst hii
              exact absurd hi (by simp)
            · exact ⟨hii, by simpa [Function.update_of_ne hii] using hi⟩
          · next hdown =>
            refine ⟨?_, hi⟩
            rintro rfl
            exact hdown hi
        have hflag : (((s.advance e queue).land f idx).tx f).sendScheduled =
            (s.tx f).sendScheduled := by
          unfold State.land
          split <;> simp
        have hpend : ∀ b, (s.advance e queue).Pending b →
            ((s.advance e queue).land f idx).Pending b := by
          unfold State.land
          split <;> exact fun _ h => h
        split
        · refine ⟨⟨fun hs => ?_, fun hff => absurd hff (by simp)⟩, fun _ => Or.inl (by simp)⟩
          have hs : (((s.advance e queue).land f idx).tx f).sendScheduled = true := by
            simpa using hs
          exact hpend _ (hsched (hflag ▸ hs))
        · refine Timed.trySend ⟨fun hs => ?_, fun _ i hi => ?_⟩
          · have hs : (((s.advance e queue).land f idx).tx f).sendScheduled = true := by
              simpa using hs
            exact hpend _ (hsched (hflag ▸ hs))
          · obtain ⟨hne, hi⟩ := hland i hi
            have hatt : (((s.advance e queue).land f idx).requeue sim f idx).pktAttempt f i =
                s.pktAttempt f i := by
              have : ((s.advance e queue).land f idx).pktAttempt = s.pktAttempt := by
                unfold State.land
                split <;> rfl
              simp [this, hne]
            rw [hatt]
            exact hpend _ (hother i (Or.inl hne) hf hi)

theorem step (h : Awake sim s f) (hr : sim.Reachable policy s) {e : Event} {queue : EventQueue}
    (hpop : s.queue.pop = some (e, queue)) :
    Awake sim ((s.advance e queue).dispatch sim policy e.body) f := by
  cases hb : e.body with
  | txComplete p =>
    exact (h.calm (Calm.advance hpop (by rw [hb]; simp) (by rw [hb]; simp))).calm
      (Calm.onTxComplete _ p f)
  | arrive p pkt =>
    have hadv : Awake sim (s.advance e queue) f :=
      h.calm (Calm.advance hpop (by rw [hb]; simp) (by rw [hb]; simp))
    show Awake sim ((s.advance e queue).onArrive sim policy p pkt) f
    cases hh : (sim.fabric.node (sim.fabric.port p).peerNode).isHost with
    | false =>
      rw [onArrive_switch hh]
      exact hadv.calm (Calm.enqueue _ _ _ f)
    | true =>
      cases hk : pkt.kind with
      | data =>
        rw [onArrive_data hh hk]
        exact hadv.calm (Calm.onDataArrival _ _ _ _ _ f)
      | ack =>
        rw [onArrive_ack hh hk]
        have hcount : Awake sim ((s.advance e queue).countAckDelivered pkt.bytes) f :=
          hadv.calm (Calm.of_eq rfl (fun _ => rfl) rfl (fun _ h => h) fun _ _ h => h)
        by_cases hf : f = pkt.flow
        · subst hf
          exact hcount.onAck pkt.index
        · exact hcount.calm (Calm.micros hf (onAck_micros _ _ _))
  | inject g =>
    by_cases hf : f = g
    · subst hf
      refine Timed.trySend ⟨fun hs => absurd hs (by simp), fun hff i hi => ?_⟩
      exact (h.timers (by simpa using hff) i hi).advance hpop (by rw [hb]; simp)
    · refine (h.calm (Calm.advance hpop ?_ (by rw [hb]; simp))).calm
        (Calm.micros hf (onInject_micros _ g))
      rw [hb]
      exact fun heq => hf (by simpa using heq.symm)
  | timeout g idx a =>
    by_cases hf : f = g
    · subst hf
      exact h.onTimeout hpop hb fun hacked => ((hr.books.ledger f).settled idx hacked).1
    · refine (h.calm (Calm.advance hpop (by rw [hb]; simp) fun i a' => ?_)).calm
        (Calm.micros hf (onTimeout_micros _ g idx a))
      rw [hb]
      exact fun heq => hf (by simpa using (EventBody.timeout.inj heq).1.symm)

theorem begin (leftover : State) (hf : f < sim.flowCount) :
    Awake sim (sim.beginRun leftover) f where
  scheduled := fun h => absurd h (by simp [Simulation.beginRun])
  timers := fun _ idx h => absurd h (by simp [Simulation.beginRun])
  busy := by
    rintro (h | ⟨t, g, h⟩)
    · exact Or.inr (Or.inl (Simulation.inject_mem_beginRun leftover hf h))
    · exact absurd h List.not_mem_nil

end Awake

theorem Simulation.Reachable.awake {sim : Simulation} {policy : RoutingPolicy} {s : State}
    (h : sim.Reachable policy s) {f : FlowId} (hf : f < sim.flowCount) : Awake sim s f :=
  Simulation.Reachable.invariant (P := fun s => Awake sim s f) (fun leftover => Awake.begin leftover hf)
    (fun _ _ _ hr hs hpop => hs.step hr hpop) h

/-! ## A drained run -/

theorem State.Drained.not_pending {s : State} (h : s.Drained)
    (b : EventBody) : ¬ s.Pending b := by
  rintro ⟨e, he, -⟩
  rw [EventQueue.agenda_of_empty h] at he
  exact absurd he List.not_mem_nil

/-- A sender that was released and did not fail has everything acked. -/
structure Settled (sim : Simulation) (s : State) (f : FlowId) : Prop where
  acked : (s.tx f).ackedCount = sim.packetsTotal f
  inFlight : (s.tx f).inFlight = 0
  retx : (s.tx f).retxCount = 0

theorem Awake.settled {sim : Simulation} {s : State} {f : FlowId} (h : Awake sim s f)
    (hl : Ledger (sim.window f) (sim.packetsTotal f) (s.tx f) (s.pkt f) (s.retxRing f))
    (hd : s.Drained) (hrel : Released sim s f) (hf : (s.tx f).failed = false) :
    Settled sim s f ∧ ∀ idx, idx < sim.packetsTotal f → (s.pkt f idx).delivered = true := by
  have hair : ∀ idx, (s.pkt f idx).inFlight ≠ true :=
    fun idx hi => hd.not_pending _ (h.timers hf idx hi)
  have hnone : (s.tx f).inFlight = 0 := by
    rw [hl.inFlight_eq]
    exact Nat.count_of_forall_not fun idx _ => hair idx
  obtain ⟨hseq, hretx⟩ : sim.packetsTotal f ≤ (s.tx f).nextSeq ∧ (s.tx f).retxCount = 0 := by
    have hpos : 0 < sim.window f := (sim.spec f).window_pos
    rcases h.busy hrel with hb | hb | hb | hb
    · rw [hf] at hb
      exact absurd hb (by simp)
    · exact absurd hb (hd.not_pending _)
    · omega
    · exact hb
  have hacked : ∀ idx, idx < sim.packetsTotal f → (s.pkt f idx).acked = true := by
    intro idx hidx
    rcases hl.covered hf idx (lt_of_lt_of_le hidx hseq) with hk | hk | hk
    · exact hk
    · exact absurd hk (hair idx)
    · have hempty : waiting (sim.window f) (s.tx f) (s.retxRing f) = [] := by
        unfold waiting
        rw [hretx]
        rfl
      rw [hempty] at hk
      exact absurd hk List.not_mem_nil
  refine ⟨⟨?_, hnone, hretx⟩, fun idx hidx => (hl.settled idx (hacked idx hidx)).2⟩
  rw [hl.acked_eq, Nat.count_of_forall hacked]

end FabricSim
