import FabricSim.Core.Journey
import FabricSim.Core.Wakeup

/-!
# The pacing gate

A sender never runs ahead of its schedule: packet `idx` of a flow is not sent, not
even for the first time, before `idx` periods have passed since the flow started.
The gate carries the argument. Each transmission moves it one period on from
now, and it was not ahead of now, so it is always at least as many periods after
the start as there are packets sent. What a flow waits for makes the start
itself well defined: before the release nothing of it is scheduled or sent.
-/

namespace FabricSim

open State

structure Paced (sim : Simulation) (s : State) (f : FlowId) : Prop where
  begun : 0 < (s.tx f).nextSeq → (s.result f).startNs ≤ s.now
  gate : 0 < (s.tx f).nextSeq →
    (s.result f).startNs + (s.tx f).nextSeq * sim.periodNs f ≤ (s.tx f).nextSendNs
  wake : ∀ e ∈ s.queue.agenda, e.body = .inject f → (s.result f).startNs ≤ e.time
  asleep : ∀ d, (sim.spec f).dependsOn = some d → (s.result d).complete = false →
    (s.tx f).nextSeq = 0 ∧ ¬ s.Pending (.inject f)
  sent : ∀ a ∈ s.emissions, a.2.flow = f → a.2.kind = .data →
    (s.result f).startNs + a.2.index * sim.periodNs f ≤ a.1

/-- The flow has started, so it was released. -/
structure Started (sim : Simulation) (s : State) (f : FlowId) : Prop where
  time : (s.result f).startNs ≤ s.now
  released : ∀ d, (sim.spec f).dependsOn = some d → (s.result d).complete = true

/-! ## What endpoint operations leave of a result -/

namespace State

variable {sim : Simulation} {s : State}

theorem enqueue_start (p : PortId) (x : Packet) (f : FlowId) :
    ((s.enqueue sim p x).result f).startNs = (s.result f).startNs := by
  obtain ⟨n, h⟩ := enqueue_result sim s p x f
  rw [h]

theorem SameRecord.complete {s' : State} (h : SameRecord s s') (f : FlowId) :
    (s'.result f).complete = (s.result f).complete :=
  (FlowResult.outcome_inj (h.outcome f)).2.2.2.1

theorem sendPacket_start (f : FlowId) (idx : Nat) (g : FlowId) :
    ((s.sendPacket sim f idx).result g).startNs = (s.result g).startNs := by
  unfold sendPacket
  rw [enqueue_start]
  show ((s.markSent sim f idx).result g).startNs = _
  unfold markSent
  simp only [nextSerial_result, noteTime_result, modifyTx_result, modifyStats_result,
    modifyPkt_result]
  rcases countRetx_cases s f idx with h | h <;> rw [h]
  by_cases hg : g = f
  · subst hg
    simp
  · simp [hg]

end State

namespace Paced

variable {sim : Simulation} {policy : RoutingPolicy} {s s' : State} {f g : FlowId}

/-- A step the flow's schedule does not notice. -/
theorem congr (h : Paced sim s f) (hnow : s.now ≤ s'.now)
    (hseq : (s'.tx f).nextSeq = (s.tx f).nextSeq)
    (hgate : (s'.tx f).nextSendNs = (s.tx f).nextSendNs)
    (hstart : (s'.result f).startNs = (s.result f).startNs)
    (hcomplete : ∀ d, (sim.spec f).dependsOn = some d →
      (s'.result d).complete = false → (s.result d).complete = false)
    (hq : ∀ e ∈ s'.queue.agenda, e.body = .inject f → e ∈ s.queue.agenda)
    (hem : ∀ a ∈ s'.emissions, a.2.flow = f → a.2.kind = .data → a ∈ s.emissions) :
    Paced sim s' f where
  begun := by
    rw [hseq, hstart]
    exact fun hpos => (h.begun hpos).trans hnow
  gate := by
    rw [hseq, hstart, hgate]
    exact h.gate
  wake := by
    rw [hstart]
    exact fun e he hb => h.wake e (hq e he hb) hb
  asleep := by
    intro d hd hc
    obtain ⟨h1, h2⟩ := h.asleep d hd (hcomplete d hd hc)
    rw [hseq]
    exact ⟨h1, fun ⟨e, he, hb⟩ => h2 ⟨e, hq e he hb, hb⟩⟩
  sent := by
    rw [hstart]
    exact fun a ha hf hk => h.sent a (hem a ha hf hk) hf hk

/-- Something sent or scheduled means the flow was released. -/
theorem released (h : Paced sim s f) (hup : 0 < (s.tx f).nextSeq ∨ s.Pending (.inject f)) :
    ∀ d, (sim.spec f).dependsOn = some d → (s.result d).complete = true := by
  intro d hd
  by_contra hc
  obtain ⟨h1, h2⟩ := h.asleep d hd (by simpa using hc)
  rcases hup with hup | hup
  · omega
  · exact h2 hup

theorem started (h : Paced sim s f) (hpos : 0 < (s.tx f).nextSeq) : Started sim s f :=
  ⟨h.begun hpos, h.released (Or.inl hpos)⟩

/-- One transmission of a packet that is due. -/
theorem sendPacket (h : Paced sim s f) {s₀ : State} {idx : Nat} (hup : Started sim s f)
    (hnow : s₀.now = s.now) (hgate : (s.tx f).nextSendNs ≤ s.now)
    (hidx : (s.result f).startNs + idx * sim.periodNs f ≤ s.now)
    (hseq : (s₀.tx f).nextSeq ≤ (s.tx f).nextSeq + 1)
    (hres : s₀.result = s.result) (hq : s₀.queue = s.queue) (hem : s₀.emissions = s.emissions)
    (hw : s.now + sim.periodNs f < 2 ^ 64) : Paced sim (s₀.sendPacket sim f idx) f := by
  have hstart : ((s₀.sendPacket sim f idx).result f).startNs = (s.result f).startNs := by
    rw [sendPacket_start, hres]
  have hcomplete : ∀ d, ((s₀.sendPacket sim f idx).result d).complete = (s.result d).complete := by
    intro d
    rw [(sameRecord_sendPacket s₀ f idx).complete, hres]
  have hdue : (s.result f).startNs + (s.tx f).nextSeq * sim.periodNs f ≤ s.now := by
    rcases Nat.eq_zero_or_pos (s.tx f).nextSeq with hzero | hpos
    · rw [hzero, Nat.zero_mul]
      exact hup.time
    · exact (h.gate hpos).trans hgate
  refine ⟨fun _ => ?_, fun _ => ?_, ?_, ?_, ?_⟩
  · rw [hstart, sendPacket_now, hnow]
    exact hup.time
  · have hmul := Nat.mul_le_mul_right (sim.periodNs f) hseq
    rw [Nat.succ_mul] at hmul
    rw [hstart, sendPacket_tx, Function.update_self, hnow, u64_of_lt hw]
    dsimp only
    omega
  · intro e he hb
    rw [mem_agenda_sendPacket sim s₀ f idx (by rw [hb]; simp)] at he
    rw [hstart]
    rcases he with rfl | he
    · exact absurd hb (by simp)
    · exact h.wake e (hq ▸ he) hb
  · intro d hd hc
    rw [hcomplete] at hc
    exact absurd ((hup.released d hd).symm.trans hc) (by simp)
  · intro a ha hf hk
    rw [emissions_sendPacket, hem] at ha
    rw [hstart]
    rcases List.mem_cons.mp ha with rfl | ha
    · show _ ≤ s₀.now
      rw [hnow]
      exact hidx
    · exact h.sent a ha hf hk

/-- Another flow's transmission. -/
theorem sendPacket_other (h : Paced sim s f) (hne : f ≠ g) (idx : Nat) {s₀ : State}
    (hnow : s₀.now = s.now) (htx : s₀.tx f = s.tx f) (hres : s₀.result = s.result)
    (hq : s₀.queue = s.queue) (hem : s₀.emissions = s.emissions) :
    Paced sim (s₀.sendPacket sim g idx) f := by
  refine h.congr ?_ ?_ ?_ ?_ ?_ ?_ ?_
  · rw [sendPacket_now, hnow]
  · rw [sendPacket_tx, Function.update_of_ne hne, htx]
  · rw [sendPacket_tx, Function.update_of_ne hne, htx]
  · rw [sendPacket_start, hres]
  · intro d _ hc
    rwa [(sameRecord_sendPacket s₀ g idx).complete, hres] at hc
  · intro e he hb
    rw [mem_agenda_sendPacket sim s₀ g idx (by rw [hb]; simp), hq] at he
    rcases he with rfl | he
    · exact absurd hb (by simp)
    · exact he
  · intro a ha hf _
    rw [emissions_sendPacket, hem] at ha
    rcases List.mem_cons.mp ha with rfl | ha
    · exact absurd hf (Ne.symm hne)
    · exact ha

theorem waitTurn (h : ∀ f, Paced sim s f) (hup : Started sim s g)
    (hgate : s.now < (s.tx g).nextSendNs) (f : FlowId) : Paced sim (s.waitTurn g) f := by
  unfold State.waitTurn
  split
  · exact h f
  · by_cases hf : f = g
    · subst hf
      refine ⟨?_, ?_, ?_, ?_, (h f).sent⟩
      · simpa using (h f).begun
      · simpa using (h f).gate
      · intro e he hb
        rcases EventQueue.mem_agenda_push.mp he with rfl | he
        · exact hup.time.trans hgate.le
        · exact (h f).wake e he hb
      · intro d hd hc
        exact absurd ((hup.released d hd).symm.trans hc) (by simp)
    · refine (h f).congr le_rfl (by simp [hf]) (by simp [hf]) rfl (fun _ _ hc => hc) ?_
        (fun a ha _ _ => ha)
      intro e he hb
      rcases EventQueue.mem_agenda_push.mp he with rfl | he
      · exact absurd hb (by simpa using Ne.symm hf)
      · exact he

/-- The sending loop keeps to the schedule of its flow, and to every other. -/
theorem trySend (h : ∀ f, Paced sim s f) (hc : s.Coherent) (hb : Books sim s)
    (hup : Started sim s g) (hw : (s.trySend sim g).wrapped = false) :
    ∀ f, Paced sim (s.trySend sim g) f := by
  refine trySend_rule
    (P := fun s => s.Coherent ∧ Books sim s ∧
      (s.wrapped = false → (∀ f, Paced sim s f) ∧ Started sim s g))
    (Q := fun s => s.wrapped = false → ∀ f, Paced sim s f)
    ?_ ?_ ?_ ?_ ?_ (fun _ _ => h) ⟨hc, hb, fun _ => ⟨h, hup⟩⟩ hw
  · exact fun s h _ hw => (h.2.2 hw).1
  · intro s h _ hgate hw
    have hw : s.wrapped = false := by
      unfold State.waitTurn at hw
      split at hw <;> exact hw
    exact waitTurn (h.2.2 hw).1 (h.2.2 hw).2 hgate
  · intro s head count h _ _ _ hw f
    refine ((h.2.2 hw).1 f).congr le_rfl ?_ ?_ rfl (fun _ _ hc => hc) (fun _ he _ => he)
      (fun _ ha _ _ => ha)
    · by_cases hf : f = g
      · subst hf; simp
      · simp [hf]
    · by_cases hf : f = g
      · subst hf; simp
      · simp [hf]
  · rintro s idx head count ⟨hc, hb, h⟩ _ hgate hr
    have hc' : (s.drainRetx g head count).Coherent :=
      NetEq.coherent (s := s) ⟨rfl, fun _ => rfl, fun _ => rfl⟩ hc
    have hsend : Micro sim g _ _ := Micro.send (s.drainRetx g head count) idx
    refine ⟨hsend.coherent hc', hb.resend hr, fun hw => ?_⟩
    obtain ⟨hw₀, hperiod, -⟩ := sendPacket_unwrapped hc' hw
    obtain ⟨hp, hup⟩ := h hw₀
    have hlt := hb.resend_lt hr
    have hdue : (s.result g).startNs + idx * sim.periodNs g ≤ s.now := by
      have hgate' := (hp g).gate (by omega)
      have := Nat.mul_le_mul_right (sim.periodNs g) hlt.le
      omega
    refine ⟨fun f => ?_, ?_⟩
    · by_cases hf : f = g
      · subst hf
        exact (hp f).sendPacket hup rfl hgate hdue (by simp) rfl rfl rfl hperiod
      · exact (hp f).sendPacket_other hf idx rfl (by simp [hf]) rfl rfl rfl
    · constructor
      · rw [sendPacket_start, sendPacket_now]
        exact hup.time
      · intro d hd
        rw [(sameRecord_sendPacket _ g idx).complete]
        exact hup.released d hd
  · rintro s head count ⟨hc, hb, h⟩ hopen hgate hr hleft
    have hc' : ((s.drainRetx g head count).takeSeq g).Coherent :=
      NetEq.coherent (s := s) ⟨rfl, fun _ => rfl, fun _ => rfl⟩ hc
    have hsend : Micro sim g _ _ :=
      Micro.send ((s.drainRetx g head count).takeSeq g) (s.tx g).nextSeq
    refine ⟨hsend.coherent hc', hb.fresh hopen hr hleft, fun hw => ?_⟩
    obtain ⟨hw₀, hperiod, -⟩ := sendPacket_unwrapped hc' hw
    obtain ⟨hp, hup⟩ := h hw₀
    have hdue : (s.result g).startNs + (s.tx g).nextSeq * sim.periodNs g ≤ s.now := by
      rcases Nat.eq_zero_or_pos (s.tx g).nextSeq with hzero | hpos
      · rw [hzero, Nat.zero_mul]
        exact hup.time
      · exact ((hp g).gate hpos).trans hgate
    refine ⟨fun f => ?_, ?_⟩
    · by_cases hf : f = g
      · subst hf
        exact (hp f).sendPacket hup rfl hgate hdue (by simp) rfl rfl rfl hperiod
      · exact (hp f).sendPacket_other hf _ rfl (by simp [hf]) rfl rfl rfl
    · constructor
      · rw [sendPacket_start, sendPacket_now]
        exact hup.time
      · intro d hd
        rw [(sameRecord_sendPacket _ g _).complete]
        exact hup.released d hd

/-! ## Releases -/

/-- A flow starts when it is released: nothing of it was sent before, and what is
scheduled is not in the past. -/
theorem releaseFlow (h : ∀ f, Paced sim s f) (hfuture : ∀ e ∈ s.queue.agenda, s.now ≤ e.time)
    {d : FlowId} (hseq : (s.tx d).nextSeq = 0)
    (hnone : ∀ a ∈ s.emissions, a.2.flow = d → a.2.kind = .data → False)
    (hdone : ∀ c, (sim.spec d).dependsOn = some c → (s.result c).complete = true) (f : FlowId) :
    Paced sim (State.releaseFlow g s d) f := by
  have hem : (State.releaseFlow g s d).emissions = s.emissions := by
    unfold State.emissions
    rw [releaseFlow_trace]
    exact List.filterMap_cons_none rfl
  have hcomplete : ∀ c, ((State.releaseFlow g s d).result c).complete = (s.result c).complete :=
    fun c => (sameRecord_releaseFlow s g d).complete c
  by_cases hf : f = d
  · subst hf
    refine ⟨?_, ?_, ?_, ?_, ?_⟩
    · simp [hseq]
    · simp [hseq]
    · intro e he hb
      rw [releaseFlow_result, Function.update_self]
      rw [releaseFlow_queue, EventQueue.mem_agenda_push] at he
      rcases he with rfl | he
      · exact le_rfl
      · exact hfuture e he
    · intro c hc hnot
      rw [hcomplete] at hnot
      exact absurd ((hdone c hc).symm.trans hnot) (by simp)
    · intro a ha hfa hk
      exact (hnone a (hem ▸ ha) hfa hk).elim
  · refine (h f).congr le_rfl (by simp [hf]) (by simp [hf]) (by simp [hf]) ?_ ?_ ?_
    · intro c _ hnot
      rwa [hcomplete] at hnot
    · intro e he hb
      rw [releaseFlow_queue, EventQueue.mem_agenda_push] at he
      rcases he with rfl | he
      · exact absurd hb (by simpa using Ne.symm hf)
      · exact he
    · rw [hem]
      exact fun a ha _ _ => ha

/-- The completion of a flow: its dependents were asleep until now. -/
theorem completeFlow (h : ∀ f, Paced sim s f) (hb : Books sim s)
    (hfuture : ∀ e ∈ s.queue.agenda, s.now ≤ e.time) (hnew : (s.result g).complete = false) :
    ∀ f, Paced sim (s.completeFlow sim g) f := by
  have hdep : ∀ d ∈ sim.dependents g, (sim.spec d).dependsOn = some g :=
    fun d hd => ((Simulation.mem_dependents sim).mp hd).2
  have hseq : ∀ d ∈ sim.dependents g, (s.tx d).nextSeq = 0 :=
    fun d hd => ((h d).asleep g (hdep d hd) hnew).1
  -- while the dependents are released, those still to come stay untouched
  have hfold : ∀ (l : List FlowId) (s₀ : State), (∀ d ∈ l, d ∈ sim.dependents g) →
      (∀ f, Paced sim s₀ f) → (∀ e ∈ s₀.queue.agenda, s₀.now ≤ e.time) →
      (∀ d ∈ l, (s₀.tx d).nextSeq = 0) → s₀.emissions = s.emissions →
      (s₀.result g).complete = true → ∀ f, Paced sim (l.foldl (State.releaseFlow g) s₀) f := by
    intro l
    induction l with
    | nil => exact fun _ _ h _ _ _ _ => h
    | cons d l ih =>
      intro s₀ hl h₀ hfut hzero hem hdone
      rw [List.foldl_cons]
      refine ih _ (fun c hc => hl c (List.mem_cons_of_mem _ hc)) ?_ ?_ ?_ ?_ ?_
      · refine fun f => releaseFlow h₀ hfut (hzero d (List.mem_cons_self ..)) ?_ ?_ f
        · intro a ha hf hk
          rw [hem] at ha
          have := hb.data a.1 a.2 (mem_emissions.mp ha) hk
          rw [hf, hseq d (hl d (List.mem_cons_self ..))] at this
          exact Nat.not_lt_zero _ this
        · intro c hc
          rw [hdep d (hl d (List.mem_cons_self ..))] at hc
          obtain rfl := Option.some.inj hc
          exact hdone
      · intro e he
        rw [releaseFlow_queue, EventQueue.mem_agenda_push] at he
        rcases he with rfl | he
        · exact le_rfl
        · exact hfut e he
      · intro c hc
        have hz := hzero c (List.mem_cons_of_mem _ hc)
        by_cases hcd : c = d
        · subst hcd
          simpa using hz
        · simpa [hcd] using hz
      · unfold State.emissions at hem ⊢
        rw [releaseFlow_trace, ← hem]
        exact List.filterMap_cons_none rfl
      · rw [(sameRecord_releaseFlow s₀ g d).complete]
        exact hdone
  unfold State.completeFlow
  refine hfold _ _ (fun _ hd => hd) (fun f => ?_) hfuture hseq rfl (by simp)
  refine (h f).congr le_rfl rfl rfl ?_ ?_ (fun _ he _ => he) (fun _ ha _ _ => ha)
  · by_cases hf : f = g
    · subst hf; simp
    · simp [hf]
  · intro d _ hc
    by_cases hd : d = g
    · subst hd
      exact absurd hc (by simp)
    · simpa [hd] using hc

/-! ## One turn of the hot loop -/

theorem enqueue (h : Paced sim s f) (p : PortId) (x : Packet) :
    Paced sim (s.enqueue sim p x) f := by
  refine h.congr (by rw [enqueue_now]) (by rw [enqueue_tx]) (by rw [enqueue_tx])
    (enqueue_start p x f) ?_ ?_ ?_
  · intro d _ hc
    rwa [(sameRecord_enqueue s p x).complete] at hc
  · intro e he hb
    rwa [mem_agenda_enqueue _ _ _ _ (by rw [hb]; simp)] at he
  · rw [emissions_enqueue]
    exact fun _ ha _ _ => ha

theorem sendAck (h : Paced sim s f) (g : FlowId) (idx a : Nat) :
    Paced sim (s.sendAck sim g idx a) f := by
  unfold State.sendAck
  apply Paced.enqueue
  refine h.congr le_rfl rfl rfl rfl (fun _ _ hc => hc) (fun _ he _ => he) ?_
  intro y hy _ hk
  rcases List.mem_cons.mp hy with rfl | hy
  · exact absurd hk (by simp [ackPacket])
  · exact hy

theorem onTxComplete (h : Paced sim s f) (p : PortId) : Paced sim (s.onTxComplete sim p) f := by
  have hem := emissions_onTxComplete sim s p
  revert hem
  rcases onTxComplete_cases sim s p with ⟨-, heq⟩ | ⟨-, heq⟩ <;> rw [heq] <;> intro hem
  · refine h.congr le_rfl rfl rfl rfl (fun _ _ hc => hc) ?_ (by rw [hem]; exact fun _ ha _ _ => ha)
    intro e he hb
    simp only [modifyPort_queue, sendOff_queue, EventQueue.mem_agenda_push] at he
    rcases he with rfl | he
    · exact absurd hb (by simp)
    · exact he
  · refine h.congr le_rfl rfl rfl rfl (fun _ _ hc => hc) ?_ (by rw [hem]; exact fun _ ha _ _ => ha)
    intro e he hb
    simp only [startTx_queue, sendOff_queue, EventQueue.mem_agenda_push] at he
    rcases he with rfl | rfl | he
    · exact absurd hb (by simp)
    · exact absurd hb (by simp)
    · exact he

theorem advance (h : Paced sim s f) (ht : s.OnTime sim) {e : Event} {queue : EventQueue}
    (hpop : s.queue.pop = some (e, queue)) : Paced sim (s.advance e queue) f := by
  have he : e ∈ s.queue.agenda := by
    rw [EventQueue.agenda_of_pop hpop]
    exact List.mem_cons_self ..
  refine h.congr (ht.future e he) rfl rfl rfl (fun _ _ hc => hc) ?_ ?_
  · intro e' he' _
    rw [EventQueue.agenda_of_pop hpop]
    exact List.mem_cons_of_mem _ he'
  · rw [emissions_advance]
    exact fun _ ha _ _ => ha

/-- A change of the sender's tables that leaves gate and sequence alone. -/
theorem tables (h : Paced sim s f) (hnow : s'.now = s.now)
    (htx : ∀ f, (s'.tx f).nextSeq = (s.tx f).nextSeq ∧ (s'.tx f).nextSendNs = (s.tx f).nextSendNs)
    (hres : ∀ f, (s'.result f).startNs = (s.result f).startNs ∧
      (s'.result f).complete = (s.result f).complete)
    (hq : s'.queue = s.queue) (htr : s'.trace = s.trace) : Paced sim s' f := by
  refine h.congr hnow.ge (htx f).1 (htx f).2 (hres f).1 ?_ ?_ ?_
  · intro d _ hc
    rwa [(hres d).2] at hc
  · rw [hq]
    exact fun _ he _ => he
  · unfold State.emissions
    rw [htr]
    exact fun _ ha _ _ => ha

theorem deliver (h : ∀ f, Paced sim s f) (hb : Books sim s) (hrecv : Receiver sim s g)
    (hfuture : ∀ e ∈ s.queue.agenda, s.now ≤ e.time) {idx : Nat} (bytes : Nat)
    (hidx : idx < (s.tx g).nextSeq) (hnew : (s.pkt g idx).delivered = false) :
    ∀ f, Paced sim (s.deliver sim g idx bytes) f := by
  have hlt : idx < sim.packetsTotal g := lt_of_lt_of_le hidx (hb.ledger g).seq_le
  have hbits : ∀ f, Paced sim ((s.modifyPkt g idx fun st =>
      { st with delivered := true }).modifyResult g fun r =>
      { r with
        packetsDelivered := r.packetsDelivered + 1, deliveredBytes := r.deliveredBytes + bytes }) f := by
    refine fun f => (h f).tables rfl (fun _ => ⟨rfl, rfl⟩) (fun c => ?_) rfl rfl
    by_cases hc : c = g
    · subst hc; simp
    · simp [hc]
  unfold State.deliver
  dsimp only
  split
  · refine completeFlow hbits (hb.recorded bytes hidx) hfuture ?_
    -- one packet was still missing, so the flow was not complete
    have hcount := hrecv.count_deliver hlt hnew
    have hle := Nat.count_le (p := fun i => (Function.update (s.pkt g) idx
      { s.pkt g idx with delivered := true } i).delivered = true) (n := sim.packetsTotal g)
    rw [modifyResult_result, Function.update_self]
    by_contra hc
    have := (hrecv.complete_iff (by omega)).mp (by simpa using hc)
    omega
  · exact hbits

theorem onAck (h : ∀ f, Paced sim s f) (hc : s.Coherent) (hb : Books sim s) {idx : Nat}
    (hdel : (s.pkt g idx).delivered = true) (hpos : 0 < (s.tx g).nextSeq)
    (hw : (s.onAck sim g idx).wrapped = false) : ∀ f, Paced sim (s.onAck sim g idx) f := by
  unfold State.onAck at hw ⊢
  split
  · exact h
  · next hnot =>
    rw [if_neg hnot] at hw
    have hland : ∀ f, Paced sim (((s.modifyPkt g idx fun st =>
        { st with acked := true }).modifyTx g fun tx =>
        { tx with ackedCount := tx.ackedCount + 1 }).land g idx) f := by
      intro f
      unfold State.land
      split
      · refine (h f).tables rfl (fun c => ?_) (fun _ => ⟨rfl, rfl⟩) rfl rfl
        by_cases hc : c = g
        · subst hc; simp
        · simp [hc]
      · refine (h f).tables rfl (fun c => ?_) (fun _ => ⟨rfl, rfl⟩) rfl rfl
        by_cases hc : c = g
        · subst hc; simp
        · simp [hc]
    have hnet : NetEq s (((s.modifyPkt g idx fun st =>
        { st with acked := true }).modifyTx g fun tx =>
        { tx with ackedCount := tx.ackedCount + 1 }).land g idx) := by
      unfold State.land
      split <;> exact ⟨rfl, fun _ => rfl, fun _ => rfl⟩
    refine trySend hland (hnet.coherent hc) (hb.ackLanded g idx (by simpa using hnot) hdel)
      ((hland g).started ?_) hw
    unfold State.land
    split <;> simpa using hpos

theorem onTimeout (h : ∀ f, Paced sim s f) (hc : s.Coherent) (hb : Books sim s) {idx a : Nat}
    (hlive : Live s g idx a) (hw : (s.onTimeout sim g idx a).wrapped = false) :
    ∀ f, Paced sim (s.onTimeout sim g idx a) f := by
  have hland : ∀ f, Paced sim (s.land g idx) f := by
    intro f
    unfold State.land
    split
    · refine (h f).tables rfl (fun c => ?_) (fun _ => ⟨rfl, rfl⟩) rfl rfl
      by_cases hc : c = g
      · subst hc; simp
      · simp [hc]
    · exact h f
  have hnet : NetEq s (s.land g idx) := by
    unfold State.land
    split <;> exact ⟨rfl, fun _ => rfl, fun _ => rfl⟩
  have hpos : 0 < ((s.land g idx).tx g).nextSeq := by
    have := hlive.sent
    unfold State.land
    split
    · simp
      omega
    · omega
  unfold State.onTimeout at hw ⊢
  split
  · exact h
  · next hacked =>
    rw [if_neg hacked] at hw
    split
    · exact h
    · next hatt =>
      rw [if_neg hatt] at hw
      split
      · exact h
      · next hfail =>
        rw [if_neg hfail] at hw
        have hair := hlive.inFlight (by omega) (by simpa using hacked) (by simpa using hfail)
        split
        · refine fun f => (hland f).tables rfl (fun c => ?_) (fun c => ?_) rfl rfl
          · by_cases hc : c = g
            · subst hc; simp
            · simp [hc]
          · by_cases hc : c = g
            · subst hc; simp
            · simp [hc]
        · next hlast =>
          rw [if_neg hlast] at hw
          have hring : ∀ f, Paced sim ((s.land g idx).requeue sim g idx) f := by
            refine fun f => (hland f).tables rfl (fun c => ?_) (fun _ => ⟨rfl, rfl⟩) rfl rfl
            by_cases hc : c = g
            · subst hc; simp
            · simp [hc]
          refine trySend hring ?_ (hb.requeue g idx hair) ((hring g).started (by simpa using hpos)) hw
          exact NetEq.coherent (s := s.land g idx) ⟨rfl, fun _ => rfl, fun _ => rfl⟩
            (hnet.coherent hc)

theorem step (h : ∀ f, Paced sim s f) (hs : sim.Reachable policy s) {e : Event}
    {queue : EventQueue} (hpop : s.queue.pop = some (e, queue))
    (hw : ((s.advance e queue).dispatch sim policy e.body).wrapped = false) :
    ∀ f, Paced sim ((s.advance e queue).dispatch sim policy e.body) f := by
  have ht := hs.onTime (step_unwrapped hs.coherent hpop hw)
  have hadv : ∀ f, Paced sim (s.advance e queue) f := fun f => (h f).advance ht hpop
  have hbooks := hs.books.advance hpop
  have he : e ∈ s.queue.agenda := by
    rw [EventQueue.agenda_of_pop hpop]
    exact List.mem_cons_self ..
  cases hb : e.body with
  | txComplete p => exact fun f => (hadv f).onTxComplete p
  | inject g =>
    have hc : (s.advance e queue).Coherent := hs.coherent.advance hpop (by rw [hb]; simp)
    rw [hb] at hw
    refine trySend ?_ ?_ (hbooks.woken g) ?_ hw
    · refine fun f => (hadv f).tables rfl (fun c => ?_) (fun _ => ⟨rfl, rfl⟩) rfl rfl
      by_cases hc : c = g
      · subst hc; simp
      · simp [hc]
    · exact NetEq.coherent (s := s.advance e queue) ⟨rfl, fun _ => rfl, fun _ => rfl⟩ hc
    · exact ⟨(h g).wake e he hb, (h g).released (Or.inr ⟨e, he, hb⟩)⟩
  | timeout g idx a =>
    have hc : (s.advance e queue).Coherent := hs.coherent.advance hpop (by rw [hb]; simp)
    obtain ⟨h1, h2, h3⟩ := hs.books.timer e he g idx a hb
    rw [hb] at hw
    exact onTimeout hadv hc hbooks ⟨h1, h2, h3⟩ hw
  | arrive p x =>
    have hc : (s.advance e queue).Coherent := hs.coherent.advance hpop (by rw [hb]; simp)
    obtain ⟨hdata, hack⟩ := hs.books.arrived hs (mem_onLink_of_arrive hpop hb)
    rw [hb] at hw
    change ((s.advance e queue).onArrive sim policy p x).wrapped = false at hw
    show ∀ f, Paced sim ((s.advance e queue).onArrive sim policy p x) f
    cases hh : (sim.fabric.node (sim.fabric.port p).peerNode).isHost with
    | false =>
      rw [onArrive_switch hh]
      exact fun f => (hadv f).enqueue _ _
    | true =>
      cases hk : x.kind with
      | data =>
        rw [onArrive_data hh hk]
        unfold State.onDataArrival
        have hcount : ∀ f, Paced sim ((s.advance e queue).countDelivered x.bytes) f :=
          fun f => (hadv f).tables rfl (fun _ => ⟨rfl, rfl⟩) (fun _ => ⟨rfl, rfl⟩) rfl rfl
        refine fun f => Paced.sendAck ?_ _ _ _
        split
        · exact hcount f
        · next hnew =>
          have hbooks' : Books sim ((s.advance e queue).countDelivered x.bytes) :=
            hbooks.congr (fun _ => rfl) rfl rfl rfl (fun _ he _ _ _ _ => he) fun _ _ hx => hx
          have hrecv : Receiver sim ((s.advance e queue).countDelivered x.bytes) x.flow :=
            (hs.receiver x.flow).congr ⟨fun _ => rfl, fun _ _ => rfl, fun _ => rfl⟩
              fun _ ho => List.mem_cons_of_mem _ ho
          exact deliver hcount hbooks' hrecv (ht.advance hpop).2.future x.bytes (hdata hk)
            (by simpa [countDelivered] using hnew) f
      | ack =>
        rw [onArrive_ack hh hk] at hw ⊢
        have hcount : ∀ f, Paced sim ((s.advance e queue).countAckDelivered x.bytes) f :=
          fun f => (hadv f).tables rfl (fun _ => ⟨rfl, rfl⟩) (fun _ => ⟨rfl, rfl⟩) rfl rfl
        have hbooks' : Books sim ((s.advance e queue).countAckDelivered x.bytes) :=
          hbooks.congr (fun _ => rfl) rfl rfl rfl (fun _ he _ _ _ _ => he) fun _ _ hx => hx
        have hpos : 0 < (s.tx x.flow).nextSeq := by
          by_contra hzero
          have hdel := hack hk
          rw [(hs.books.ledger x.flow).untouched x.index (by omega)] at hdel
          exact absurd hdel (by simp)
        exact onAck hcount ((netEq_countAckDelivered _ _).coherent hc) hbooks' (hack hk) hpos hw

theorem begin (sim : Simulation) (leftover : State) (f : FlowId) :
    Paced sim (sim.beginRun leftover) f where
  begun := fun hpos => absurd hpos (Nat.lt_irrefl 0)
  gate := fun hpos => absurd hpos (Nat.lt_irrefl 0)
  wake := by
    intro e he hb
    obtain ⟨g, -, -, hb', htime⟩ := Simulation.mem_agenda_beginRun leftover he
    obtain rfl : g = f := by simpa using hb'.symm.trans hb
    exact htime.ge
  asleep := by
    rintro d hd -
    refine ⟨rfl, ?_⟩
    rintro ⟨e, he, hb⟩
    obtain ⟨g, -, hnone, hb', -⟩ := Simulation.mem_agenda_beginRun leftover he
    obtain rfl : g = f := by simpa using hb'.symm.trans hb
    exact absurd (hnone.symm.trans hd) (by simp)
  sent := fun _ ha => absurd ha List.not_mem_nil

end Paced

theorem Simulation.Reachable.paced {sim : Simulation} {policy : RoutingPolicy} {s : State}
    (h : sim.Reachable policy s) (hw : s.wrapped = false) (f : FlowId) : Paced sim s f := by
  refine Simulation.Reachable.invariant (P := fun s => s.wrapped = false → ∀ f, Paced sim s f)
    (fun leftover _ => Paced.begin sim leftover) ?_ h hw f
  exact fun s e queue hs ih hpop hw' =>
    Paced.step (ih (step_unwrapped hs.coherent hpop hw')) hs hpop hw'

end FabricSim
