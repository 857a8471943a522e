import FabricSim.Core.Ledger
import FabricSim.Core.Run

/-!
# Sender bookkeeping over a whole run

`Books` is the invariant of a state between two dispatches: every sender's
`Ledger`, plus what ties the ledgers to the rest of the state. A pending timer
that is neither stale nor settled belongs to a packet in flight (`Live`); data
was only emitted for indices already handed out, and acks only for packets the
receiver has.

The proof is one lemma per operation of a handler (`Books.resend`,
`Books.fresh`, `Books.land`, ...), each an instance of `Books.update`: a change
to one flow's tables is checked on that flow.
-/

namespace FabricSim

/-- A timer of flow `f`, packet `idx`: if it is of the current attempt, on a
packet not acked of a flow not failed, the packet is in flight. -/
structure Live (s : State) (f : FlowId) (idx attempt : Nat) : Prop where
  sent : idx < (s.tx f).nextSeq
  attempt_le : attempt ≤ s.pktAttempt f idx
  inFlight : attempt = s.pktAttempt f idx → (s.pkt f idx).acked = false →
    (s.tx f).failed = false → (s.pkt f idx).inFlight = true

structure Books (sim : Simulation) (s : State) : Prop where
  ledger : ∀ f, Ledger (sim.window f) (sim.packetsTotal f) (s.tx f) (s.pkt f) (s.retxRing f)
  timer : ∀ e ∈ s.queue.agenda, ∀ f idx a, e.body = .timeout f idx a → Live s f idx a
  data : ∀ t x, .emitted t x ∈ s.trace → x.kind = .data → x.index < (s.tx x.flow).nextSeq
  ack : ∀ t x, .emitted t x ∈ s.trace → x.kind = .ack →
    (s.pkt x.flow x.index).delivered = true

namespace Books

open State

variable {sim : Simulation} {policy : RoutingPolicy} {s s' : State} {f : FlowId}

/-- A step that only touches flow `f`'s tables is checked on flow `f`. -/
theorem update (h : Books sim s) (f : FlowId)
    (hother : ∀ g, g ≠ f → (s'.tx g).books = (s.tx g).books ∧ s'.pkt g = s.pkt g ∧
      s'.pktAttempt g = s.pktAttempt g ∧ s'.retxRing g = s.retxRing g)
    (hledger : Ledger (sim.window f) (sim.packetsTotal f) (s'.tx f) (s'.pkt f) (s'.retxRing f))
    (hseq : (s.tx f).nextSeq ≤ (s'.tx f).nextSeq)
    (hdel : ∀ i, (s.pkt f i).delivered = true → (s'.pkt f i).delivered = true)
    (htimer : ∀ e ∈ s'.queue.agenda, ∀ g idx a, e.body = .timeout g idx a →
      (g = f ∧ Live s' f idx a) ∨ (g ≠ f ∧ e ∈ s.queue.agenda))
    (hem : ∀ t x, .emitted t x ∈ s'.trace → .emitted t x ∈ s.trace ∨
      (x.flow = f ∧ (x.kind = .data → x.index < (s'.tx f).nextSeq) ∧
        (x.kind = .ack → (s'.pkt f x.index).delivered = true))) : Books sim s' where
  ledger := by
    intro g
    by_cases hg : g = f
    · exact hg ▸ hledger
    · obtain ⟨htx, hpkt, -, hring⟩ := hother g hg
      rw [hpkt, hring]
      exact (h.ledger g).congr htx
  timer := by
    intro e he g idx a hb
    rcases htimer e he g idx a hb with ⟨rfl, hlive⟩ | ⟨hg, he⟩
    · exact hlive
    · obtain ⟨htx, hpkt, hatt, -⟩ := hother g hg
      have hseq : (s'.tx g).nextSeq = (s.tx g).nextSeq := FlowTx.nextSeq_of_books htx
      have hfail : (s'.tx g).failed = (s.tx g).failed := FlowTx.failed_of_books htx
      obtain ⟨h1, h2, h3⟩ := h.timer e he g idx a hb
      refine ⟨?_, ?_, ?_⟩
      · rw [hseq]; exact h1
      · rw [hatt]; exact h2
      · rw [hatt, hpkt, hfail]; exact h3
  data := by
    intro t x hx hk
    rcases hem t x hx with hx | ⟨hf, hd, -⟩
    · by_cases hg : x.flow = f
      · have := h.data t x hx hk
        rw [hg] at this ⊢
        omega
      · have hseq : (s'.tx x.flow).nextSeq = (s.tx x.flow).nextSeq :=
          FlowTx.nextSeq_of_books (hother x.flow hg).1
        rw [hseq]
        exact h.data t x hx hk
    · rw [hf]
      exact hd hk
  ack := by
    intro t x hx hk
    rcases hem t x hx with hx | ⟨hf, -, ha⟩
    · by_cases hg : x.flow = f
      · have := h.ack t x hx hk
        rw [hg] at this ⊢
        exact hdel _ this
      · rw [(hother x.flow hg).2.1]
        exact h.ack t x hx hk
    · rw [hf]
      exact ha hk

/-- A step that touches no table. -/
theorem congr (h : Books sim s) (htx : ∀ f, (s'.tx f).books = (s.tx f).books)
    (hpkt : s'.pkt = s.pkt) (hatt : s'.pktAttempt = s.pktAttempt) (hring : s'.retxRing = s.retxRing)
    (hq : ∀ e ∈ s'.queue.agenda, ∀ f idx a, e.body = .timeout f idx a → e ∈ s.queue.agenda)
    (hem : ∀ t x, .emitted t x ∈ s'.trace → .emitted t x ∈ s.trace) : Books sim s' where
  ledger := by
    intro f
    rw [hpkt, hring]
    exact (h.ledger f).congr (htx f)
  timer := by
    intro e he f idx a hb
    have hseq : (s'.tx f).nextSeq = (s.tx f).nextSeq := FlowTx.nextSeq_of_books (htx f)
    have hfail : (s'.tx f).failed = (s.tx f).failed := FlowTx.failed_of_books (htx f)
    obtain ⟨h1, h2, h3⟩ := h.timer e (hq e he f idx a hb) f idx a hb
    refine ⟨?_, ?_, ?_⟩
    · rw [hseq]; exact h1
    · rw [hatt]; exact h2
    · rw [hatt, hpkt, hfail]; exact h3
  data := by
    intro t x hx hk
    have hseq : (s'.tx x.flow).nextSeq = (s.tx x.flow).nextSeq :=
      FlowTx.nextSeq_of_books (htx x.flow)
    rw [hseq]
    exact h.data t x (hem t x hx) hk
  ack := by
    intro t x hx hk
    rw [hpkt]
    exact h.ack t x (hem t x hx) hk

/-- A timer of the flow being changed, if it was there before. -/
theorem old_timer (h : Books sim s) (hq : ∀ e ∈ s'.queue.agenda, ∀ g idx a,
      e.body = .timeout g idx a → e ∈ s.queue.agenda)
    (hlive : ∀ idx a, Live s f idx a → Live s' f idx a) :
    ∀ e ∈ s'.queue.agenda, ∀ g idx a, e.body = .timeout g idx a →
      (g = f ∧ Live s' f idx a) ∨ (g ≠ f ∧ e ∈ s.queue.agenda) := by
  intro e he g idx a hb
  have he := hq e he g idx a hb
  by_cases hg : g = f
  · subst hg
    exact Or.inl ⟨rfl, hlive idx a (h.timer e he g idx a hb)⟩
  · exact Or.inr ⟨hg, he⟩

/-! ## The sending loop -/

/-- Both sending turns: the ledger step is given, the timer and the packet are
the ones `send_packet` makes. -/
theorem sendPacket (h : Books sim s) {s₀ : State} {idx : Nat}
    (hq : s₀.queue = s.queue) (htr : s₀.trace = s.trace)
    (hother : ∀ g, g ≠ f → (s₀.tx g).books = (s.tx g).books)
    (hpkt : s₀.pkt = s.pkt) (hatt : s₀.pktAttempt = s.pktAttempt) (hring : s₀.retxRing = s.retxRing)
    (hseq : (s.tx f).nextSeq ≤ (s₀.tx f).nextSeq) (hfail : (s₀.tx f).failed = (s.tx f).failed)
    (hidx : idx < (s₀.tx f).nextSeq)
    (hledger : Ledger (sim.window f) (sim.packetsTotal f)
      { s₀.tx f with inFlight := (s₀.tx f).inFlight + 1 }
      (Function.update (s.pkt f) idx { s.pkt f idx with inFlight := true }) (s.retxRing f)) :
    Books sim (s₀.sendPacket sim f idx) := by
  have htx' : (s₀.sendPacket sim f idx).tx f = { s₀.tx f with
      inFlight := (s₀.tx f).inFlight + 1, nextSendNs := u64 (s₀.now + sim.periodNs f) } := by
    simp
  have hpkt' : (s₀.sendPacket sim f idx).pkt f =
      Function.update (s.pkt f) idx { s.pkt f idx with inFlight := true } := by
    simp [hpkt]
  refine h.update f ?_ ?_ ?_ ?_ ?_ ?_
  · intro g hg
    simp only [sendPacket_tx, sendPacket_pkt, sendPacket_pktAttempt, sendPacket_retxRing,
      Function.update_of_ne hg]
    exact ⟨hother g hg, congrFun hpkt g, congrFun hatt g, congrFun hring g⟩
  · rw [htx', hpkt', sendPacket_retxRing, hring]
    exact hledger.congr (FlowTx.books_nextSend
      { s₀.tx f with inFlight := (s₀.tx f).inFlight + 1 } _)
  · rw [htx']
    exact hseq
  · intro i hi
    rw [hpkt']
    by_cases hii : i = idx
    · subst hii
      rw [Function.update_self]
      exact hi
    · rw [Function.update_of_ne hii]
      exact hi
  · intro e he g j a hb
    rw [mem_agenda_sendPacket _ _ _ _ (by rw [hb]; simp), hq] at he
    rcases he with rfl | he
    · obtain ⟨rfl, rfl, rfl⟩ : f = g ∧ idx = j ∧ s₀.pktAttempt f idx = a := by simpa using hb
      refine Or.inl ⟨rfl, ?_, ?_, ?_⟩
      · rw [htx']; exact hidx
      · rw [sendPacket_pktAttempt]
      · intro _ _ _
        rw [hpkt']
        simp
    · by_cases hg : g = f
      · subst hg
        obtain ⟨h1, h2, h3⟩ := h.timer e he g j a hb
        refine Or.inl ⟨rfl, ?_, ?_, ?_⟩
        · rw [htx']; exact lt_of_lt_of_le h1 hseq
        · rw [sendPacket_pktAttempt, hatt]; exact h2
        · rw [sendPacket_pktAttempt, hatt, hpkt', htx']
          intro ha hacked hf
          by_cases hj : j = idx
          · subst hj; simp
          · rw [Function.update_of_ne hj] at hacked ⊢
            exact h3 ha hacked (hfail ▸ hf)
      · exact Or.inr ⟨hg, he⟩
  · intro t x hx
    obtain ⟨room, htrace⟩ := sendPacket_trace sim s₀ f idx
    rw [htrace, htr] at hx
    rcases List.mem_cons.mp hx with hx | hx
    · exact absurd hx (by simp)
    · rcases List.mem_cons.mp hx with hx | hx
      · obtain ⟨-, rfl⟩ : t = s₀.now ∧ x = dataPacket sim s₀ f idx := by simpa using hx
        refine Or.inr ⟨rfl, fun _ => ?_, fun hk => absurd hk (by simp [dataPacket])⟩
        rw [htx']
        exact hidx
      · exact Or.inl hx

/-- The ring holds packets already sent. -/
theorem resend_lt (h : Books sim s) {idx head count : Nat}
    (hr : s.nextRetx sim f = (some idx, head, count)) : idx < (s.tx f).nextSeq := by
  obtain ⟨-, -, skipped, -, hview, -, -⟩ :=
    Ledger.popRetx_spec (h.ledger f).head_lt (h.ledger f).waiting_le hr
  have hmem : idx ∈ waiting (sim.window f) (s.tx f) (s.retxRing f) := by
    unfold waiting
    rw [hview]
    simp
  exact ((h.ledger f).ring_mem idx hmem).1

theorem resend (h : Books sim s) {idx head count : Nat}
    (hr : s.nextRetx sim f = (some idx, head, count)) :
    Books sim ((s.drainRetx f head count).sendPacket sim f idx) := by
  refine h.sendPacket rfl rfl ?_ rfl rfl rfl (by simp) (by simp) ?_ ?_
  · intro g hg
    simp [Function.update_of_ne hg]
  · simpa using h.resend_lt hr
  · simpa using (h.ledger f).resend hr

theorem fresh (h : Books sim s) {head count : Nat} (hopen : (s.tx f).inFlight < sim.window f)
    (hr : s.nextRetx sim f = (none, head, count))
    (hleft : (s.tx f).nextSeq < sim.packetsTotal f) :
    Books sim (((s.drainRetx f head count).takeSeq f).sendPacket sim f (s.tx f).nextSeq) := by
  refine h.sendPacket rfl rfl ?_ rfl rfl rfl (by simp) (by simp) (by simp) ?_
  · intro g hg
    simp [Function.update_of_ne hg]
  · simpa using (h.ledger f).fresh hr hopen hleft

theorem drain (h : Books sim s) {head count : Nat}
    (hr : s.nextRetx sim f = (none, head, count)) : Books sim (s.drainRetx f head count) := by
  refine h.update f ?_ ?_ (by simp) (fun _ hi => hi) (h.old_timer (fun _ he _ _ _ _ => he) ?_)
    (fun _ _ hx => Or.inl hx)
  · intro g hg
    simp [Function.update_of_ne hg]
  · simpa using ((h.ledger f).drain hr).1
  · intro idx a hl
    exact ⟨by simpa using hl.sent, hl.attempt_le, fun h1 h2 h3 => hl.inFlight h1 h2 (by simpa using h3)⟩

theorem waitTurn (h : Books sim s) (f : FlowId) : Books sim (s.waitTurn f) := by
  unfold State.waitTurn
  split
  · exact h
  · refine h.congr ?_ rfl rfl rfl ?_ (fun _ _ hx => hx)
    · intro g
      by_cases hg : g = f
      · subst hg
        simp [FlowTx.books]
      · simp [Function.update_of_ne hg]
    · intro e he g idx a hb
      simp only [pushAt_queue, modifyTx_queue, EventQueue.mem_agenda_push] at he
      rcases he with rfl | he
      · exact absurd hb (by simp)
      · exact he

/-- A wake-up takes the flag down. -/
theorem woken (h : Books sim s) (f : FlowId) :
    Books sim (s.modifyTx f fun tx => { tx with sendScheduled := false }) := by
  refine h.congr ?_ rfl rfl rfl (fun _ he _ _ _ _ => he) fun _ _ hx => hx
  intro g
  by_cases hg : g = f
  · subst hg
    simp only [modifyTx_tx, Function.update_self]
    exact FlowTx.books_scheduled _ _
  · simp [Function.update_of_ne hg]

theorem trySend (h : Books sim s) (f : FlowId) : Books sim (s.trySend sim f) :=
  trySend_rule (P := Books sim) (Q := Books sim) (fun _ h _ => h) (fun _ h _ _ => h.waitTurn f)
    (fun _ _ _ h _ hr _ => h.drain hr) (fun _ _ _ _ h _ _ hr => h.resend hr)
    (fun _ _ _ h hopen _ hr hleft => h.fresh hopen hr hleft) (fun _ => h) h

/-! ## Acks and timers -/

/-- A change to flow `f`'s tables alone that sends nothing. -/
theorem tables (h : Books sim s) (f : FlowId) (hq : s'.queue = s.queue) (htr : s'.trace = s.trace)
    (hother : ∀ g, g ≠ f → (s'.tx g).books = (s.tx g).books ∧ s'.pkt g = s.pkt g ∧
      s'.pktAttempt g = s.pktAttempt g ∧ s'.retxRing g = s.retxRing g)
    (hledger : Ledger (sim.window f) (sim.packetsTotal f) (s'.tx f) (s'.pkt f) (s'.retxRing f))
    (hseq : (s'.tx f).nextSeq = (s.tx f).nextSeq)
    (hdel : ∀ i, (s.pkt f i).delivered = true → (s'.pkt f i).delivered = true)
    (hlive : ∀ idx a, Live s f idx a → Live s' f idx a) : Books sim s' :=
  h.update f hother hledger hseq.ge hdel
    (h.old_timer (fun e he g idx a _ => by rw [hq] at he; exact he) hlive)
    (fun t x hx => Or.inl (by rw [htr] at hx; exact hx))

theorem ackLanded (h : Books sim s) (f : FlowId) (idx : Nat)
    (hnot : (s.pkt f idx).acked = false) (hdel : (s.pkt f idx).delivered = true) :
    Books sim (((s.modifyPkt f idx fun st => { st with acked := true }).modifyTx f fun tx =>
      { tx with ackedCount := tx.ackedCount + 1 }).land f idx) := by
  have hidx : idx < (s.tx f).nextSeq := by
    by_contra hge
    rw [(h.ledger f).untouched idx (not_lt.mp hge)] at hdel
    exact absurd hdel (by simp)
  unfold State.land
  simp only [modifyTx_pkt, modifyPkt_pkt, Function.update_self]
  by_cases hair : (s.pkt f idx).inFlight = true
  · rw [if_pos hair]
    refine h.tables f rfl rfl ?_ ?_ (by simp) ?_ ?_
    · intro g hg
      simp [Function.update_of_ne hg]
    · simpa using (h.ledger f).ackInFlight hair hdel
    · intro i hi
      by_cases hii : i = idx
      · subst hii; simpa using hi
      · simpa [Function.update_of_ne hii] using hi
    · rintro j a ⟨h1, h2, h3⟩
      refine ⟨by simpa using h1, h2, ?_⟩
      intro ha hacked hfail
      by_cases hj : j = idx
      · subst hj; simp at hacked
      · simp only [modifyTx_pkt, modifyPkt_pkt, Function.update_self,
          Function.update_of_ne hj] at hacked ⊢
        exact h3 ha hacked (by simpa using hfail)
  · rw [if_neg hair]
    refine h.tables f rfl rfl ?_ ?_ (by simp) ?_ ?_
    · intro g hg
      simp [Function.update_of_ne hg]
    · simpa using (h.ledger f).ackLate hidx hnot (by simpa using hair) hdel
    · intro i hi
      by_cases hii : i = idx
      · subst hii; simpa using hi
      · simpa [Function.update_of_ne hii] using hi
    · rintro j a ⟨h1, h2, h3⟩
      refine ⟨by simpa using h1, h2, ?_⟩
      intro ha hacked hfail
      by_cases hj : j = idx
      · subst hj; simp at hacked
      · simp only [modifyTx_pkt, modifyPkt_pkt, Function.update_self,
          Function.update_of_ne hj] at hacked ⊢
        exact h3 ha hacked (by simpa using hfail)

theorem onAck (h : Books sim s) (f : FlowId) (idx : Nat)
    (hdel : (s.pkt f idx).delivered = true) : Books sim (s.onAck sim f idx) := by
  unfold State.onAck
  split
  · exact h
  · next hnot => exact (h.ackLanded f idx (by simpa using hnot) hdel).trySend f

theorem giveUp (h : Books sim s) (f : FlowId) (idx : Nat)
    (hair : (s.pkt f idx).inFlight = true) : Books sim ((s.land f idx).giveUp f) := by
  unfold State.land
  rw [if_pos hair]
  refine h.tables f rfl rfl ?_ ?_ (by simp) ?_ ?_
  · intro g hg
    simp [Function.update_of_ne hg]
  · simpa using (h.ledger f).giveUp hair
  · intro i hi
    by_cases hii : i = idx
    · subst hii; simpa using hi
    · simpa [Function.update_of_ne hii] using hi
  · rintro j a ⟨h1, h2, -⟩
    exact ⟨by simpa using h1, h2, fun _ _ hf => absurd hf (by simp)⟩

theorem requeue (h : Books sim s) (f : FlowId) (idx : Nat)
    (hair : (s.pkt f idx).inFlight = true) : Books sim ((s.land f idx).requeue sim f idx) := by
  unfold State.land
  rw [if_pos hair]
  refine h.tables f rfl rfl ?_ ?_ (by simp) ?_ ?_
  · intro g hg
    simp [Function.update_of_ne hg]
  · simpa [retxTail] using (h.ledger f).timeout hair
  · intro i hi
    by_cases hii : i = idx
    · subst hii; simpa using hi
    · simpa [Function.update_of_ne hii] using hi
  · rintro j a ⟨h1, h2, h3⟩
    by_cases hj : j = idx
    · -- the timers of the old attempts are stale now
      subst hj
      refine ⟨by simpa using h1, ?_, ?_⟩
      · simp only [requeue_pktAttempt, modifyTx_pktAttempt, modifyPkt_pktAttempt,
          Function.update_self]
        omega
      · simp only [requeue_pktAttempt, modifyTx_pktAttempt, modifyPkt_pktAttempt,
          Function.update_self]
        intro ha
        omega
    · refine ⟨by simpa using h1, ?_, ?_⟩
      · simpa [Function.update_of_ne hj] using h2
      · simpa [Function.update_of_ne hj] using h3

theorem onTimeout (h : Books sim s) {f : FlowId} {idx attempt : Nat}
    (hlive : Live s f idx attempt) : Books sim (s.onTimeout sim f idx attempt) := by
  unfold State.onTimeout
  split
  · exact h
  · next hacked =>
    split
    · exact h
    · next hatt =>
      split
      · exact h
      · next hfail =>
        have hair := hlive.inFlight (by omega) (by simpa using hacked) (by simpa using hfail)
        split
        · exact h.giveUp f idx hair
        · exact (h.requeue f idx hair).trySend f

/-! ## The receiver -/

theorem releaseFlow (h : Books sim s) (g d : FlowId) : Books sim (State.releaseFlow g s d) := by
  refine h.congr ?_ rfl rfl rfl ?_ ?_
  · intro f
    by_cases hf : f = d
    · subst hf
      simp only [releaseFlow_tx, Function.update_self]
      exact FlowTx.books_nextSend _ _
    · simp [Function.update_of_ne hf]
  · intro e he f idx a hb
    simp only [releaseFlow_queue, EventQueue.mem_agenda_push] at he
    rcases he with rfl | he
    · exact absurd hb (by simp)
    · exact he
  · intro t x hx
    simpa using hx

theorem completeFlow (h : Books sim s) (f : FlowId) : Books sim (s.completeFlow sim f) := by
  unfold State.completeFlow
  have hfold : ∀ (l : List FlowId) (s₀ : State), Books sim s₀ →
      Books sim (l.foldl (State.releaseFlow f) s₀) := by
    intro l
    induction l with
    | nil => exact fun _ h => h
    | cons d l ih => exact fun s₀ h => ih _ (h.releaseFlow f d)
  exact hfold _ _ (h.congr (fun _ => rfl) rfl rfl rfl (fun _ he _ _ _ _ => he) fun _ _ hx => hx)

/-- The delivered bit and the receiver's counters. -/
theorem recorded (h : Books sim s) {f : FlowId} {idx : Nat} (bytes : Nat)
    (hidx : idx < (s.tx f).nextSeq) : Books sim
      ((s.modifyPkt f idx fun st => { st with delivered := true }).modifyResult f fun r =>
        { r with
          packetsDelivered := r.packetsDelivered + 1, deliveredBytes := r.deliveredBytes + bytes }) := by
  refine h.tables f rfl rfl ?_ ?_ rfl ?_ ?_
  · intro g hg
    simp [Function.update_of_ne hg]
  · simpa using (h.ledger f).deliver hidx
  · intro i hi
    by_cases hii : i = idx
    · subst hii; simp
    · simpa [Function.update_of_ne hii] using hi
  · rintro j a ⟨h1, h2, h3⟩
    refine ⟨h1, h2, ?_⟩
    by_cases hj : j = idx
    · subst hj; simpa using h3
    · simpa [Function.update_of_ne hj] using h3

theorem deliver (h : Books sim s) {f : FlowId} {idx : Nat} (bytes : Nat)
    (hidx : idx < (s.tx f).nextSeq) : Books sim (s.deliver sim f idx bytes) := by
  unfold State.deliver
  dsimp only
  split
  · exact (h.recorded bytes hidx).completeFlow f
  · exact h.recorded bytes hidx

theorem delivered_completeFlow (s : State) (f : FlowId) : (s.completeFlow sim f).pkt = s.pkt := by
  have hfold : ∀ (l : List FlowId) (s₀ : State),
      (l.foldl (State.releaseFlow f) s₀).pkt = s₀.pkt := by
    intro l
    induction l with
    | nil => exact fun _ => rfl
    | cons d l ih => exact fun s₀ => ih _
  exact hfold _ _

theorem delivered_deliver (s : State) (f : FlowId) (idx bytes : Nat) :
    ((s.deliver sim f idx bytes).pkt f idx).delivered = true := by
  unfold State.deliver
  dsimp only
  split
  · rw [delivered_completeFlow]
    simp
  · simp

theorem sendAck (h : Books sim s) {f : FlowId} {idx : Nat} (attempt : Nat)
    (hdel : (s.pkt f idx).delivered = true) : Books sim (s.sendAck sim f idx attempt) := by
  unfold State.sendAck
  refine h.update f (fun g _ => by simp) (by simpa using h.ledger f) (by simp) (fun i hi => by simpa using hi)
    (h.old_timer ?_ ?_) ?_
  · intro e he g j a hb
    rw [mem_agenda_enqueue _ _ _ _ (by rw [hb]; simp)] at he
    exact he
  · rintro j a ⟨h1, h2, h3⟩
    exact ⟨by simpa using h1, by simpa using h2, by simpa using h3⟩
  · intro t x hx
    obtain ⟨room, htrace⟩ := enqueue_trace sim (((s.modifyStats fun st =>
      { st with ackBytesInjected := st.ackBytesInjected + sim.transport.ackBytes }).nextSerial).log
        (.emitted s.now (ackPacket sim s f idx attempt))) (sim.route f).dstNic
          (ackPacket sim s f idx attempt)
    rw [htrace] at hx
    rcases List.mem_cons.mp hx with hx | hx
    · exact absurd hx (by simp)
    · rcases List.mem_cons.mp hx with hx | hx
      · obtain ⟨-, rfl⟩ : t = s.now ∧ x = ackPacket sim s f idx attempt := by simpa using hx
        refine Or.inr ⟨rfl, fun hk => absurd hk (by simp [ackPacket]), fun _ => ?_⟩
        simpa [ackPacket] using hdel
      · exact Or.inl hx

theorem onDataArrival (h : Books sim s) {f : FlowId} {idx : Nat} (bytes attempt : Nat)
    (hidx : idx < (s.tx f).nextSeq) : Books sim (s.onDataArrival sim f idx bytes attempt) := by
  have h₁ : Books sim (s.countDelivered bytes) :=
    h.congr (fun _ => rfl) rfl rfl rfl (fun _ he _ _ _ _ => he) fun _ _ hx => hx
  unfold State.onDataArrival
  show Books sim (State.sendAck sim (if ((s.countDelivered bytes).pkt f idx).delivered = true
    then s.countDelivered bytes else (s.countDelivered bytes).deliver sim f idx bytes) f idx attempt)
  split
  · next hdel => exact h₁.sendAck attempt hdel
  · exact (h₁.deliver bytes hidx).sendAck attempt (delivered_deliver _ _ _ _)

/-! ## The network -/

theorem enqueue (h : Books sim s) (p : PortId) (pkt : Packet) :
    Books sim (s.enqueue sim p pkt) := by
  refine h.congr (fun _ => by simp) (by simp) (by simp) (by simp) ?_ ?_
  · intro e he f idx a hb
    rwa [mem_agenda_enqueue _ _ _ _ (by rw [hb]; simp)] at he
  · intro t x hx
    obtain ⟨room, htrace⟩ := enqueue_trace sim s p pkt
    rw [htrace] at hx
    simpa using hx

theorem onTxComplete (h : Books sim s) (p : PortId) : Books sim (s.onTxComplete sim p) := by
  rcases onTxComplete_cases sim s p with ⟨-, heq⟩ | ⟨-, heq⟩ <;> rw [heq]
  · refine h.congr (fun _ => rfl) rfl rfl rfl ?_ (fun _ _ hx => hx)
    intro e he f idx a hb
    simp only [modifyPort_queue, sendOff_queue, EventQueue.mem_agenda_push] at he
    rcases he with rfl | he
    · exact absurd hb (by simp)
    · exact he
  · refine h.congr (fun _ => rfl) rfl rfl rfl ?_ (fun _ _ hx => hx)
    intro e he f idx a hb
    simp only [startTx_queue, sendOff_queue, EventQueue.mem_agenda_push] at he
    rcases he with rfl | rfl | he
    · exact absurd hb (by simp)
    · exact absurd hb (by simp)
    · exact he

theorem advance (h : Books sim s) {e : Event} {queue : EventQueue}
    (hpop : s.queue.pop = some (e, queue)) : Books sim (s.advance e queue) := by
  refine h.congr (fun _ => rfl) rfl rfl rfl ?_ ?_
  · intro e' he _ _ _ _
    rw [EventQueue.agenda_of_pop hpop]
    exact List.mem_cons_of_mem _ he
  · intro t x hx
    simpa using hx

theorem begin (sim : Simulation) (leftover : State) : Books sim (sim.beginRun leftover) where
  ledger := fun f => Ledger.init (sim.spec f).window_pos _ _
  timer := by
    intro e he f idx a hb
    obtain ⟨g, -, -, hb', -⟩ := Simulation.mem_agenda_beginRun leftover he
    rw [hb'] at hb
    exact absurd hb (by simp)
  data := fun _ _ hx => absurd hx List.not_mem_nil
  ack := fun _ _ hx => absurd hx List.not_mem_nil

/-- The facts about the packet of an arrival that the handlers rely on. -/
theorem arrived (h : Books sim s) (hr : sim.Reachable policy s) {p : PortId} {x : Packet}
    (hx : x ∈ s.onLink p) : (x.kind = .data → x.index < (s.tx x.flow).nextSeq) ∧
      (x.kind = .ack → (s.pkt x.flow x.index).delivered = true) := by
  obtain ⟨t, x₀, ht, hcore⟩ := hr.genuine p x hx
  obtain ⟨hf, hi, -, hk, -, -⟩ := Packet.core_inj hcore
  have hd := h.data t x₀ ht
  have ha := h.ack t x₀ ht
  rw [hf, hi, hk] at hd
  rw [hf, hi, hk] at ha
  exact ⟨hd, ha⟩

theorem step (h : Books sim s) (hr : sim.Reachable policy s) {e : Event} {queue : EventQueue}
    (hpop : s.queue.pop = some (e, queue)) :
    Books sim ((s.advance e queue).dispatch sim policy e.body) := by
  have hadv := h.advance hpop
  cases hb : e.body with
  | inject f => exact (hadv.woken f).trySend f
  | txComplete p => exact hadv.onTxComplete p
  | timeout f idx a =>
    have he : e ∈ s.queue.agenda := by
      rw [EventQueue.agenda_of_pop hpop]
      exact List.mem_cons_self ..
    obtain ⟨h1, h2, h3⟩ := h.timer e he f idx a hb
    exact hadv.onTimeout ⟨h1, h2, h3⟩
  | arrive p pkt =>
    obtain ⟨hdata, hack⟩ := h.arrived hr (mem_onLink_of_arrive hpop hb)
    show Books sim ((s.advance e queue).onArrive sim policy p pkt)
    cases hh : (sim.fabric.node (sim.fabric.port p).peerNode).isHost with
    | false =>
      rw [onArrive_switch hh]
      exact hadv.enqueue _ _
    | true =>
      cases hk : pkt.kind with
      | data =>
        rw [onArrive_data hh hk]
        exact hadv.onDataArrival _ _ (hdata hk)
      | ack =>
        rw [onArrive_ack hh hk]
        have hcount : Books sim ((s.advance e queue).countAckDelivered pkt.bytes) :=
          hadv.congr (fun _ => rfl) rfl rfl rfl (fun _ he _ _ _ _ => he) fun _ _ hx => hx
        exact hcount.onAck _ _ (hack hk)

end Books

theorem Simulation.Reachable.books {sim : Simulation} {policy : RoutingPolicy} {s : State}
    (h : sim.Reachable policy s) : Books sim s :=
  Simulation.Reachable.invariant (P := Books sim) (Books.begin sim)
    (fun _ _ _ hr hs hpop => hs.step hr hpop) h

end FabricSim
