import FabricSim.Core.Emission
import FabricSim.Core.Sender

/-!
# Attempts and timers

`attempts` are the attempt numbers of the transmissions of one packet so far,
latest first. They rise along the run: a transmission takes the packet's current
attempt, which only a live timer raises, and a packet that waits in the ring has
not used its own yet (`Attempts.unused`). Since the counter stays below the
transport's limit, no packet is sent more often than that.

Timers are counted from their creation (`created`): dispatched or still in the
schedule. Each transmission makes one and nothing else does.
-/

namespace FabricSim

open State

/-- The attempt number, if the emission is a transmission of the packet. -/
def attemptOf (f : FlowId) (idx : Nat) (a : Nat × Packet) : Option Nat :=
  if a.2.kind = .data ∧ a.2.flow = f ∧ a.2.index = idx then some a.2.attempt else none

/-- The attempts at a packet so far, latest first. -/
def State.attempts (s : State) (f : FlowId) (idx : Nat) : List Nat :=
  s.emissions.filterMap (attemptOf f idx)

/-- The history records the dispatch of such an event. -/
def Obs.dispatches (P : EventBody → Bool) : Obs → Bool
  | .dispatched e => P e.body
  | _ => false

/-- How many such events were ever scheduled. -/
def State.created (s : State) (P : EventBody → Bool) : Nat :=
  s.trace.countP (Obs.dispatches P) + s.queue.agenda.countP fun e => P e.body

/-- A timer for a packet and attempt that `K` selects. -/
def timerOf (K : FlowId → Nat → Nat → Bool) : EventBody → Bool
  | .timeout f idx a => K f idx a
  | _ => false

/-- A transmission that `K` selects. -/
def sentOf (K : FlowId → Nat → Nat → Bool) (a : Nat × Packet) : Bool :=
  a.2.kind = .data && K a.2.flow a.2.index a.2.attempt

namespace State

variable {sim : Simulation} {policy : RoutingPolicy} {s s' : State} {f g : FlowId}

/-! ## Transmissions -/

theorem attempts_sendPacket (sim : Simulation) (s : State) (f : FlowId) (idx : Nat) (g : FlowId)
    (i : Nat) : (s.sendPacket sim f idx).attempts g i =
      if g = f ∧ i = idx then s.pktAttempt f idx :: s.attempts g i else s.attempts g i := by
  unfold attempts
  rw [emissions_sendPacket]
  by_cases h : g = f ∧ i = idx
  · obtain ⟨rfl, rfl⟩ := h
    rw [if_pos ⟨rfl, rfl⟩]
    exact List.filterMap_cons_some (if_pos ⟨rfl, rfl, rfl⟩)
  · rw [if_neg h]
    refine List.filterMap_cons_none (if_neg fun hx => h ?_)
    obtain ⟨-, hf, hi⟩ := hx
    exact ⟨hf.symm, hi.symm⟩

/-- An ack is no transmission of the packet. -/
theorem attempts_sendAck (sim : Simulation) (s : State) (f : FlowId) (idx a : Nat) (g : FlowId)
    (i : Nat) : (s.sendAck sim f idx a).attempts g i = s.attempts g i := by
  unfold attempts
  rw [emissions_sendAck]
  exact List.filterMap_cons_none (if_neg fun hx => absurd hx.1 (by simp [ackPacket]))

theorem attempts_congr (h : s'.emissions = s.emissions) (idx : Nat) :
    s'.attempts f idx = s.attempts f idx := by
  unfold attempts
  rw [h]

/-- Only data emitted for an index has attempts at it. -/
theorem attempts_eq_nil {idx : Nat}
    (h : ∀ t x, .emitted t x ∈ s.trace → x.kind = .data → x.flow = f → x.index ≠ idx) :
    s.attempts f idx = [] := by
  unfold attempts
  rw [List.filterMap_eq_nil_iff]
  rintro ⟨t, x⟩ ha
  exact if_neg fun hx => h t x (mem_emissions.mp ha) hx.1 hx.2.1 hx.2.2

/-- `s'` has the attempts of flow `f` that `s` has, and the same packets to
send. -/
structure SameAttempts (sim : Simulation) (s s' : State) (f : FlowId) : Prop where
  history : ∀ idx, s'.attempts f idx = s.attempts f idx
  number : s'.pktAttempt f = s.pktAttempt f
  ring : waiting (sim.window f) (s'.tx f) (s'.retxRing f) =
    waiting (sim.window f) (s.tx f) (s.retxRing f)
  seq : (s'.tx f).nextSeq = (s.tx f).nextSeq

namespace SameAttempts

theorem refl (s : State) : SameAttempts sim s s f := ⟨fun _ => rfl, rfl, rfl, rfl⟩

theorem trans {s₁ s₂ s₃ : State} (h₁ : SameAttempts sim s₁ s₂ f) (h₂ : SameAttempts sim s₂ s₃ f) :
    SameAttempts sim s₁ s₃ f :=
  ⟨fun i => (h₂.history i).trans (h₁.history i), h₂.number.trans h₁.number,
    h₂.ring.trans h₁.ring, h₂.seq.trans h₁.seq⟩

theorem waiting_of_books {window : Nat} {tx tx' : FlowTx} (ring : Nat → Nat)
    (h : tx'.books = tx.books) : waiting window tx' ring = waiting window tx ring := by
  have hhead : tx'.retxHead = tx.retxHead := by
    have : tx'.books.retxHead = tx.books.retxHead := by rw [h]
    exact this
  have hcount : tx'.retxCount = tx.retxCount := by
    have : tx'.books.retxCount = tx.books.retxCount := by rw [h]
    exact this
  unfold waiting
  rw [hhead, hcount]

/-- A step that emits nothing and leaves the flow's ring alone. -/
theorem of_eq (hem : s'.emissions = s.emissions) (hatt : s'.pktAttempt f = s.pktAttempt f)
    (hring : s'.retxRing f = s.retxRing f) (htx : (s'.tx f).books = (s.tx f).books) :
    SameAttempts sim s s' f where
  history := attempts_congr hem
  number := hatt
  ring := by
    rw [hring]
    exact waiting_of_books _ htx
  seq := FlowTx.nextSeq_of_books htx

theorem enqueue (s : State) (p : PortId) (x : Packet) :
    SameAttempts sim s (s.enqueue sim p x) f :=
  of_eq (emissions_enqueue sim s p x) (by simp) (by simp) (by simp)

theorem sendAck (s : State) (g : FlowId) (idx a : Nat) :
    SameAttempts sim s (s.sendAck sim g idx a) f := by
  refine ⟨attempts_sendAck sim s g idx a f, ?_, ?_, ?_⟩ <;> simp [State.sendAck]

theorem releaseFlow (s : State) (g d : FlowId) :
    SameAttempts sim s (State.releaseFlow g s d) f := by
  refine of_eq (emissions_releaseFlow s g d) rfl rfl ?_
  rw [releaseFlow_tx]
  by_cases hf : f = d
  · subst hf
    rw [Function.update_self]
    exact FlowTx.books_nextSend _ _
  · rw [Function.update_of_ne hf]

/-- Operations on another flow. -/
theorem micros (hf : f ≠ g) (h : Micros sim g s s') : SameAttempts sim s s' f := by
  refine h.preserve (P := fun s' => SameAttempts sim s s' f) (fun s₁ s₂ hm hc => hc.trans ?_)
    (refl s)
  cases hm with
  | send idx =>
    refine ⟨fun i => ?_, by simp, ?_, ?_⟩
    · rw [attempts_sendPacket, if_neg fun hx => hf hx.1]
    · simp [Function.update_of_ne hf]
    · simp [Function.update_of_ne hf]
  | ack idx a => exact sendAck s₁ g idx a
  | tx u => exact of_eq rfl rfl rfl (by simp [Function.update_of_ne hf])
  | pkt idx u => exact of_eq rfl rfl rfl rfl
  | result u _ => exact of_eq rfl rfl rfl rfl
  | attempt idx => exact of_eq rfl (by simp [Function.update_of_ne hf]) rfl rfl
  | ring slot idx => exact of_eq rfl rfl (by simp [Function.update_of_ne hf]) rfl
  | wake t _ => exact of_eq rfl rfl rfl rfl
  | release d _ => exact releaseFlow s₁ g d

theorem completeFlow (s : State) (g : FlowId) : SameAttempts sim s (s.completeFlow sim g) f := by
  have hfold : ∀ (l : List FlowId) (s : State),
      SameAttempts sim s (l.foldl (State.releaseFlow g) s) f := by
    intro l
    induction l with
    | nil => exact fun s => refl s
    | cons d l ih => exact fun s => (releaseFlow s g d).trans (ih _)
  have hdone : SameAttempts sim s (s.modifyResult g fun r =>
      { r with finishNs := s.now, complete := true }) f := of_eq rfl rfl rfl rfl
  exact hdone.trans (hfold _ _)

theorem onDataArrival (s : State) (g : FlowId) (idx bytes a : Nat) :
    SameAttempts sim s (s.onDataArrival sim g idx bytes a) f := by
  have hcount : SameAttempts sim s (s.countDelivered bytes) f := of_eq rfl rfl rfl rfl
  unfold State.onDataArrival
  refine SameAttempts.trans ?_ (sendAck _ g idx a)
  split
  · exact hcount
  · refine hcount.trans ?_
    unfold State.deliver
    dsimp only
    split
    · refine SameAttempts.trans ?_ (completeFlow _ g)
      exact of_eq rfl rfl rfl rfl
    · exact of_eq rfl rfl rfl rfl

theorem onTxComplete (s : State) (p : PortId) : SameAttempts sim s (s.onTxComplete sim p) f := by
  have hem := emissions_onTxComplete sim s p
  rcases onTxComplete_cases sim s p with ⟨-, h⟩ | ⟨-, h⟩
  · exact of_eq hem (by rw [h]; rfl) (by rw [h]; rfl) (by rw [h]; rfl)
  · exact of_eq hem (by rw [h]; rfl) (by rw [h]; rfl) (by rw [h]; rfl)

theorem land (s : State) (g : FlowId) (idx : Nat) : SameAttempts sim s (s.land g idx) f := by
  unfold State.land
  split
  · refine ⟨fun _ => rfl, rfl, ?_, ?_⟩
    all_goals
      by_cases hf : f = g
      · subst hf
        simp [waiting]
      · simp [Function.update_of_ne hf]
  · exact refl s

end SameAttempts

end State

/-! ## No attempt is used twice -/

structure Attempts (sim : Simulation) (s : State) (f : FlowId) : Prop where
  rising : ∀ idx, (s.attempts f idx).Pairwise fun a b => b < a
  le : ∀ idx, ∀ a ∈ s.attempts f idx, a ≤ s.pktAttempt f idx
  unused : ∀ idx ∈ waiting (sim.window f) (s.tx f) (s.retxRing f),
    s.pktAttempt f idx ∉ s.attempts f idx
  lt_max : ∀ idx, s.pktAttempt f idx < sim.transport.maxAttempts
  sent : ∀ idx, idx < (s.tx f).nextSeq → s.attempts f idx ≠ []

namespace Attempts

variable {sim : Simulation} {policy : RoutingPolicy} {s s' : State} {f : FlowId}

theorem congr (h : Attempts sim s f) (hs : SameAttempts sim s s' f) : Attempts sim s' f := by
  refine ⟨fun idx => ?_, fun idx => ?_, fun idx => ?_, fun idx => ?_, fun idx => ?_⟩
  · rw [hs.history]
    exact h.rising idx
  · rw [hs.history, hs.number]
    exact h.le idx
  · rw [hs.ring, hs.history, hs.number]
    exact h.unused idx
  · rw [hs.number]
    exact h.lt_max idx
  · rw [hs.history, hs.seq]
    exact h.sent idx

/-- No packet is sent more than `maxAttempts` times. -/
theorem length_le (h : Attempts sim s f) (idx : Nat) :
    (s.attempts f idx).length ≤ sim.transport.maxAttempts := by
  have hnodup : (s.attempts f idx).Nodup := (h.rising idx).imp fun hlt => hlt.ne'
  have hsub : s.attempts f idx ⊆ List.range sim.transport.maxAttempts := by
    intro a ha
    exact List.mem_range.mpr ((h.le idx a ha).trans_lt (h.lt_max idx))
  have hle := (hnodup.subperm hsub).length_le
  rwa [List.length_range] at hle

/-- A transmission uses the packet's attempt, which nobody has used. -/
theorem sendPacket (h : Attempts sim s f) {idx : Nat} {s₀ : State}
    (hem : s₀.emissions = s.emissions) (hatt : s₀.pktAttempt = s.pktAttempt)
    (hnew : s.pktAttempt f idx ∉ s.attempts f idx)
    (hring : ∀ i ∈ waiting (sim.window f) (s₀.tx f) (s₀.retxRing f),
      i ≠ idx ∧ i ∈ waiting (sim.window f) (s.tx f) (s.retxRing f))
    (hseq : ∀ i, i < (s₀.tx f).nextSeq → i = idx ∨ i < (s.tx f).nextSeq) :
    Attempts sim (s₀.sendPacket sim f idx) f := by
  have hself : (s₀.sendPacket sim f idx).attempts f idx =
      s.pktAttempt f idx :: s.attempts f idx := by
    rw [attempts_sendPacket, if_pos ⟨rfl, rfl⟩, hatt, attempts_congr hem]
  have hother : ∀ i, i ≠ idx → (s₀.sendPacket sim f idx).attempts f i = s.attempts f i := by
    intro i hi
    rw [attempts_sendPacket, if_neg fun hx => hi hx.2, attempts_congr hem]
  refine ⟨fun i => ?_, fun i a ha => ?_, fun i hi => ?_, fun i => ?_, fun i hi => ?_⟩
  · by_cases hi : i = idx
    · subst hi
      rw [hself, List.pairwise_cons]
      refine ⟨fun a ha => lt_of_le_of_ne (h.le i a ha) fun heq => ?_, h.rising i⟩
      exact hnew (heq ▸ ha)
    · rw [hother i hi]
      exact h.rising i
  · rw [sendPacket_pktAttempt, hatt]
    by_cases hi : i = idx
    · subst hi
      rw [hself] at ha
      rcases List.mem_cons.mp ha with rfl | ha
      · exact le_rfl
      · exact h.le i a ha
    · rw [hother i hi] at ha
      exact h.le i a ha
  · have htx : waiting (sim.window f) ((s₀.sendPacket sim f idx).tx f)
        ((s₀.sendPacket sim f idx).retxRing f) =
        waiting (sim.window f) (s₀.tx f) (s₀.retxRing f) := by
      simp [waiting]
    rw [htx] at hi
    obtain ⟨hne, hold⟩ := hring i hi
    rw [sendPacket_pktAttempt, hatt, hother i hne]
    exact h.unused i hold
  · rw [sendPacket_pktAttempt, hatt]
    exact h.lt_max i
  · by_cases hii : i = idx
    · subst hii
      rw [hself]
      exact List.cons_ne_nil _ _
    · rw [hother i hii]
      refine h.sent i ((hseq i ?_).resolve_left hii)
      simpa using hi

/-- The ring gives out a packet that has not used its attempt. -/
theorem resend (h : Attempts sim s f) (hb : Books sim s) {idx head count : Nat}
    (hr : s.nextRetx sim f = (some idx, head, count)) :
    Attempts sim ((s.drainRetx f head count).sendPacket sim f idx) f := by
  obtain ⟨-, -, skipped, -, hview, -, -⟩ :=
    Ledger.popRetx_spec (hb.ledger f).head_lt (hb.ledger f).waiting_le hr
  have hview : waiting (sim.window f) (s.tx f) (s.retxRing f) =
      skipped ++ [idx] ++ Ring.view (s.retxRing f) (sim.window f) head count := hview
  have hnodup := (hb.ledger f).ring_nodup
  rw [hview] at hnodup
  refine h.sendPacket rfl rfl (h.unused idx ?_) (fun i hi => ?_) fun i hi => Or.inr (by simpa using hi)
  · rw [hview]
    simp
  · have hi : i ∈ Ring.view (s.retxRing f) (sim.window f) head count := by
      simpa [waiting] using hi
    rw [hview]
    refine ⟨fun heq => ?_, List.mem_append_right _ hi⟩
    exact (List.disjoint_of_nodup_append hnodup) (by simp) (heq ▸ hi)

/-- A packet sent for the first time has no attempts. -/
theorem fresh (h : Attempts sim s f) (hb : Books sim s) {head count : Nat}
    (hr : s.nextRetx sim f = (none, head, count)) :
    Attempts sim (((s.drainRetx f head count).takeSeq f).sendPacket sim f (s.tx f).nextSeq) f := by
  obtain ⟨-, hzero⟩ := (hb.ledger f).drain hr
  have hnone : s.attempts f (s.tx f).nextSeq = [] := by
    refine attempts_eq_nil fun t x ht hk hf => ?_
    have hlt := hb.data t x ht hk
    rw [hf] at hlt
    exact hlt.ne
  refine h.sendPacket rfl rfl (by rw [hnone]; exact List.not_mem_nil) (fun i hi => ?_)
    fun i hi => ?_
  · have hi : i ∈ Ring.view (s.retxRing f) (sim.window f) head count := by
      simpa [waiting] using hi
    rw [hzero] at hi
    exact absurd hi List.not_mem_nil
  · have hi : i < (s.tx f).nextSeq + 1 := by simpa using hi
    omega

theorem drain (h : Attempts sim s f) (hb : Books sim s) {head count : Nat}
    (hr : s.nextRetx sim f = (none, head, count)) :
    Attempts sim (s.drainRetx f head count) f := by
  obtain ⟨-, hzero⟩ := (hb.ledger f).drain hr
  refine ⟨h.rising, h.le, fun i hi => ?_, h.lt_max, fun i hi => h.sent i (by simpa using hi)⟩
  have hi : i ∈ Ring.view (s.retxRing f) (sim.window f) head count := by
    simpa [waiting] using hi
  rw [hzero] at hi
  exact absurd hi List.not_mem_nil

theorem trySend (h : Attempts sim s f) (hb : Books sim s) : Attempts sim (s.trySend sim f) f := by
  refine trySend_rule (P := fun s => Attempts sim s f ∧ Books sim s)
    (Q := fun s => Attempts sim s f) (fun _ h _ => h.1) ?_ ?_ ?_ ?_ (fun _ => h) ⟨h, hb⟩
  · intro s h _ _
    unfold State.waitTurn
    split
    · exact h.1
    · refine h.1.congr (SameAttempts.of_eq rfl rfl rfl ?_)
      simp only [pushAt_tx, modifyTx_tx, Function.update_self]
      exact FlowTx.books_scheduled _ _
  · exact fun s head count h _ hr _ => h.1.drain h.2 hr
  · exact fun s idx head count h _ _ hr => ⟨h.1.resend h.2 hr, h.2.resend hr⟩
  · exact fun s head count h hopen _ hr hleft => ⟨h.1.fresh h.2 hr, h.2.fresh hopen hr hleft⟩

/-- A live timer moves the packet on to its next attempt. -/
theorem requeue (h : Attempts sim s f) (hb : Books sim s) {idx : Nat}
    (hair : (s.pkt f idx).inFlight = true)
    (hmore : s.pktAttempt f idx + 1 < sim.transport.maxAttempts) :
    Attempts sim ((s.land f idx).requeue sim f idx) f := by
  have hland : Attempts sim (s.land f idx) f := h.congr (SameAttempts.land s f idx)
  have hatt : (s.land f idx).pktAttempt = s.pktAttempt := by
    unfold State.land
    split <;> rfl
  have hnumber : ((s.land f idx).requeue sim f idx).pktAttempt f =
      Function.update (s.pktAttempt f) idx (s.pktAttempt f idx + 1) := by
    simp [hatt]
  have hhistory : ∀ i, ((s.land f idx).requeue sim f idx).attempts f i = s.attempts f i :=
    (SameAttempts.land s f idx : SameAttempts sim s _ f).history
  -- the ring gains the packet at its tail
  have hring : waiting (sim.window f) (((s.land f idx).requeue sim f idx).tx f)
      (((s.land f idx).requeue sim f idx).retxRing f) =
      waiting (sim.window f) (s.tx f) (s.retxRing f) ++ [idx] := by
    obtain ⟨hslots, hpos⟩ := (hb.ledger f).toSlots.land hair
    have hroom := (hb.ledger f).room
    have hview : Ring.view (Function.update (s.retxRing f)
        (Ring.slot (sim.window f) (s.tx f).retxHead (s.tx f).retxCount) idx)
        (sim.window f) (s.tx f).retxHead ((s.tx f).retxCount + 1) =
        Ring.view (s.retxRing f) (sim.window f) (s.tx f).retxHead (s.tx f).retxCount ++ [idx] :=
      Ring.view_update _ (by omega) idx
    unfold State.land
    rw [if_pos hair]
    simpa [waiting, retxTail] using hview
  refine ⟨fun i => ?_, fun i a ha => ?_, fun i hi => ?_, fun i => ?_, fun i hi => ?_⟩
  · rw [hhistory]
    exact h.rising i
  · rw [hhistory] at ha
    rw [hnumber]
    by_cases hi : i = idx
    · subst hi
      rw [Function.update_self]
      exact Nat.le_succ_of_le (h.le i a ha)
    · rw [Function.update_of_ne hi]
      exact h.le i a ha
  · rw [hhistory, hnumber]
    by_cases hii : i = idx
    · subst hii
      rw [Function.update_self]
      exact fun hmem => absurd (h.le i _ hmem) (by omega)
    · rw [Function.update_of_ne hii]
      rw [hring] at hi
      rcases List.mem_append.mp hi with hi | hi
      · exact h.unused i hi
      · exact absurd (List.mem_singleton.mp hi) hii
  · rw [hnumber]
    by_cases hi : i = idx
    · subst hi
      rw [Function.update_self]
      exact hmore
    · rw [Function.update_of_ne hi]
      exact h.lt_max i
  · rw [hhistory]
    have hseq := (SameAttempts.land s f idx : SameAttempts sim s _ f).seq
    refine h.sent i ?_
    rw [← hseq]
    simpa using hi

theorem onTimeout (h : Attempts sim s f) (hb : Books sim s) {idx a : Nat}
    (hlive : Live s f idx a) : Attempts sim (s.onTimeout sim f idx a) f := by
  unfold State.onTimeout
  split
  · exact h
  · next hacked =>
    split
    · exact h
    · next hatt =>
      split
      · exact h
      · next hfail =>
        have hair := hlive.inFlight (by omega) (by simpa using hacked) (by simpa using hfail)
        split
        · refine (h.congr (SameAttempts.land s f idx)).congr ⟨fun _ => rfl, rfl, ?_, ?_⟩
          · simp [waiting]
          · simp
        · next hmore => exact (h.requeue hb hair (not_le.mp hmore)).trySend (hb.requeue f idx hair)

theorem onAck (h : Attempts sim s f) (hb : Books sim s) {idx : Nat}
    (hdel : (s.pkt f idx).delivered = true) : Attempts sim (s.onAck sim f idx) f := by
  unfold State.onAck
  split
  · exact h
  · next hnot =>
    refine Attempts.trySend ?_ (hb.ackLanded f idx (by simpa using hnot) hdel)
    refine Attempts.congr ?_ (SameAttempts.land _ f idx)
    refine h.congr ⟨fun _ => rfl, rfl, ?_, ?_⟩
    · simp [waiting]
    · simp

theorem step (h : ∀ f, Attempts sim s f) (hr : sim.Reachable policy s) {e : Event}
    {queue : EventQueue} (hpop : s.queue.pop = some (e, queue)) (f : FlowId) :
    Attempts sim ((s.advance e queue).dispatch sim policy e.body) f := by
  have hb := hr.books.advance hpop
  have hadv : ∀ f, Attempts sim (s.advance e queue) f := fun f =>
    (h f).congr (SameAttempts.of_eq (emissions_advance e queue) rfl rfl rfl)
  cases hbody : e.body with
  | txComplete p => exact (hadv f).congr (SameAttempts.onTxComplete _ p)
  | inject g =>
    show Attempts sim ((s.advance e queue).onInject sim g) f
    by_cases hf : f = g
    · subst hf
      refine Attempts.trySend ((hadv f).congr (SameAttempts.of_eq rfl rfl rfl ?_)) (hb.woken f)
      simp only [modifyTx_tx, Function.update_self]
      exact FlowTx.books_scheduled _ _
    · exact (hadv f).congr (SameAttempts.micros hf (onInject_micros _ g))
  | timeout g idx a =>
    show Attempts sim ((s.advance e queue).onTimeout sim g idx a) f
    by_cases hf : f = g
    · subst hf
      have he : e ∈ s.queue.agenda := by
        rw [EventQueue.agenda_of_pop hpop]
        exact List.mem_cons_self ..
      obtain ⟨h1, h2, h3⟩ := hr.books.timer e he f idx a hbody
      exact (hadv f).onTimeout hb ⟨h1, h2, h3⟩
    · exact (hadv f).congr (SameAttempts.micros hf (onTimeout_micros _ g idx a))
  | arrive p x =>
    show Attempts sim ((s.advance e queue).onArrive sim policy p x) f
    cases hh : (sim.fabric.node (sim.fabric.port p).peerNode).isHost with
    | false =>
      rw [onArrive_switch hh]
      exact (hadv f).congr (SameAttempts.enqueue _ _ _)
    | true =>
      cases hk : x.kind with
      | data =>
        rw [onArrive_data hh hk]
        exact (hadv f).congr (SameAttempts.onDataArrival _ _ _ _ _)
      | ack =>
        rw [onArrive_ack hh hk]
        have hcount : Attempts sim ((s.advance e queue).countAckDelivered x.bytes) f :=
          (hadv f).congr (SameAttempts.of_eq rfl rfl rfl rfl)
        by_cases hf : f = x.flow
        · subst hf
          have hdel := (hr.books.arrived hr (mem_onLink_of_arrive hpop hbody)).2 hk
          refine hcount.onAck ?_ hdel
          exact hb.congr (fun _ => rfl) rfl rfl rfl (fun _ he _ _ _ _ => he) fun _ _ hx => hx
        · exact hcount.congr (SameAttempts.micros hf (onAck_micros _ x.flow x.index))

theorem begin (ht : sim.transport.Accepted) (leftover : State) (f : FlowId) :
    Attempts sim (sim.beginRun leftover) f where
  rising := fun _ => List.Pairwise.nil
  le := fun _ _ ha => absurd ha List.not_mem_nil
  unused := fun _ hi => absurd hi List.not_mem_nil
  lt_max := fun _ => ht.attempts_pos
  sent := fun _ hi => absurd hi (Nat.not_lt_zero _)

end Attempts

theorem Simulation.Reachable.attempts {sim : Simulation} {policy : RoutingPolicy} {s : State}
    (h : sim.Reachable policy s) (ht : sim.transport.Accepted) (f : FlowId) :
    Attempts sim s f :=
  Simulation.Reachable.invariant (P := fun s => ∀ f, Attempts sim s f) (Attempts.begin ht)
    (fun _ _ _ hr hs hpop => Attempts.step hs hr hpop) h f

/-! ## Timers -/

namespace State

variable {sim : Simulation} {policy : RoutingPolicy} {s s' : State} {f : FlowId}
  {P : EventBody → Bool}

theorem countP_push (q : EventQueue) (t : Nat) (b : EventBody) (P : EventBody → Bool) :
    ((q.push t b).agenda.countP fun e => P e.body) =
      (q.agenda.countP fun e => P e.body) + if P b then 1 else 0 := by
  rw [EventQueue.agenda_push, (Agenda.insert_perm Event.key _ _).countP_eq, List.countP_cons]

theorem created_congr (hq : s'.queue = s.queue) (htr : s'.trace = s.trace) :
    s'.created P = s.created P := by
  unfold created
  rw [hq, htr]

theorem created_pushAt (s : State) (t : Nat) (b : EventBody) (P : EventBody → Bool) :
    (s.pushAt t b).created P = s.created P + if P b then 1 else 0 := by
  unfold created
  rw [pushAt_queue, countP_push]
  exact (Nat.add_assoc ..).symm

theorem created_pushAfter (s : State) (delay : Nat) (b : EventBody) (P : EventBody → Bool) :
    (s.pushAfter delay b).created P = s.created P + if P b then 1 else 0 := by
  have hnote : (s.noteTime (s.now + delay)).created P = s.created P := created_congr rfl rfl
  unfold pushAfter
  rw [created_pushAt, hnote]

/-- An entry of the history that is no dispatch. -/
theorem created_log {o : Obs} (hq : s'.queue = s.queue) (htr : s'.trace = o :: s.trace)
    (ho : o.dispatches P = false) : s'.created P = s.created P := by
  unfold created
  rw [hq, htr, List.countP_cons_of_neg (by simp [ho])]

/-- Ports schedule their completions only. -/
theorem created_enqueue (s : State) (p : PortId) (x : Packet) (hP : ∀ q, P (.txComplete q) = false) :
    (s.enqueue sim p x).created P = s.created P := by
  obtain ⟨room, htr⟩ := enqueue_trace sim s p x
  unfold created
  rw [htr, List.countP_cons_of_neg (by simp [Obs.dispatches])]
  rcases enqueue_queue sim s p x with h | ⟨t, h⟩ <;> rw [h]
  rw [countP_push, hP]
  rfl

/-- A dispatched event was created before. -/
theorem created_advance {e : Event} {queue : EventQueue} (hpop : s.queue.pop = some (e, queue)) :
    (s.advance e queue).created P = s.created P := by
  unfold created
  rw [advance_trace, advance_queue, EventQueue.agenda_of_pop hpop, List.countP_cons,
    List.countP_cons]
  show _ + (if P e.body = true then 1 else 0) + _ = _
  omega

/-- A transmission creates its timer. -/
theorem created_sendPacket (s : State) (f : FlowId) (idx : Nat)
    (hP : ∀ q, P (.txComplete q) = false) : (s.sendPacket sim f idx).created P =
      s.created P + if P (.timeout f idx (s.pktAttempt f idx)) then 1 else 0 := by
  have hmark : (s.markSent sim f idx).created P = s.created P :=
    created_congr (markSent_queue ..) (markSent_trace ..)
  have hlog : ∀ (s : State) (t : Nat) (x : Packet),
      (s.log (.emitted t x)).created P = s.created P := fun _ _ _ => created_log rfl rfl rfl
  unfold sendPacket
  rw [created_enqueue _ _ _ hP, hlog, created_pushAfter, hmark]

theorem created_sendAck (s : State) (f : FlowId) (idx a : Nat)
    (hP : ∀ q, P (.txComplete q) = false) : (s.sendAck sim f idx a).created P = s.created P := by
  unfold sendAck
  rw [created_enqueue _ _ _ hP]
  exact created_log rfl rfl rfl

theorem created_releaseFlow (s : State) (g d : FlowId) : (releaseFlow g s d).created P =
    s.created P + if P (.inject d) then 1 else 0 := by
  unfold releaseFlow
  rw [created_pushAt]
  congr 1

theorem created_onTxComplete (s : State) (p : PortId) (hP : ∀ q, P (.txComplete q) = false)
    (hP' : ∀ q x, P (.arrive q x) = false) : (s.onTxComplete sim p).created P = s.created P := by
  have hoff : (s.sendOff sim p).created P = s.created P := by
    unfold sendOff
    dsimp only
    rw [created_pushAfter, hP']
    exact created_congr rfl rfl
  rcases onTxComplete_cases sim s p with ⟨-, h⟩ | ⟨-, h⟩
  · rw [h]
    exact (created_congr rfl rfl).trans hoff
  · rw [h]
    unfold startTx
    dsimp only
    rw [created_pushAfter, hP]
    exact (created_congr rfl rfl).trans hoff

/-- Every timer belongs to one transmission, of the same attempt. -/
def Timers (s : State) : Prop :=
  ∀ K, s.created (timerOf K) = s.emissions.countP (sentOf K)

namespace Timers

theorem congr (h : Timers s) (hcr : ∀ K, s'.created (timerOf K) = s.created (timerOf K))
    (hem : s'.emissions = s.emissions) : Timers s' := by
  intro K
  rw [hcr, hem]
  exact h K

theorem micro (h : Timers s) (hm : Micro sim f s s') : Timers s' := by
  cases hm with
  | send idx =>
    intro K
    rw [created_sendPacket _ _ _ fun _ => rfl, emissions_sendPacket, h K, List.countP_cons]
    rfl
  | ack idx a =>
    intro K
    rw [created_sendAck _ _ _ _ fun _ => rfl, emissions_sendAck,
      List.countP_cons_of_neg (by simp [sentOf, ackPacket])]
    exact h K
  | tx u => exact h
  | pkt idx u => exact h
  | result u _ => exact h
  | attempt idx => exact h
  | ring slot idx => exact h
  | wake t _ => exact h.congr (fun K => created_pushAt s t _ _) rfl
  | release d _ => exact h.congr (fun K => created_releaseFlow s f d) (emissions_releaseFlow s f d)

theorem step (h : Timers s) {e : Event} {queue : EventQueue}
    (hpop : s.queue.pop = some (e, queue)) :
    Timers ((s.advance e queue).dispatch sim policy e.body) := by
  have hadv : Timers (s.advance e queue) :=
    h.congr (fun _ => created_advance hpop) (emissions_advance e queue)
  rcases dispatch_cases sim policy (s.advance e queue) e.body with
    ⟨p, -, heq⟩ | ⟨p, x, -, -, heq⟩ | ⟨g, s₁, -, -, htr, -, hq, -, -, -, hm, -⟩
  · rw [heq]
    exact hadv.congr (fun _ => created_onTxComplete _ p (fun _ => rfl) fun _ _ => rfl)
      (emissions_onTxComplete sim _ p)
  · rw [heq]
    exact hadv.congr (fun _ => created_enqueue _ _ _ fun _ => rfl) (emissions_enqueue sim _ _ _)
  · refine hm.preserve (P := Timers) (fun _ _ hm h => h.micro hm) ?_
    refine hadv.congr (fun _ => created_congr hq htr) ?_
    unfold emissions
    rw [htr]

end Timers

end State

theorem Simulation.Reachable.timers {sim : Simulation} {policy : RoutingPolicy} {s : State}
    (h : sim.Reachable policy s) : Timers s := by
  refine Simulation.Reachable.invariant (P := Timers) (fun leftover K => ?_)
    (fun _ _ _ _ h hpop => h.step hpop) h
  show 0 + _ = 0
  rw [Nat.zero_add, List.countP_eq_zero]
  intro e he
  obtain ⟨g, -, -, hb, -⟩ := Simulation.mem_agenda_beginRun leftover he
  rw [hb]
  simp [timerOf]

end FabricSim
