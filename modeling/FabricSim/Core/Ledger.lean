import FabricSim.Lib.Ring
import FabricSim.Core.Simulation
import Mathlib.Order.Interval.Finset.Nat
import Mathlib.Data.Nat.Count

/-!
# One sender's ledger

The sender's counters, the per-packet bits and the retransmission ring describe
one partition of the indices below `nextSeq`: acked, in flight, or waiting in
the ring. `Ledger` is that statement, and each operation the sender performs on
the ledger is a lemma here. None of them mentions the simulator's state, so the
arithmetic is done once.
-/

namespace FabricSim

theorem count_congr_below {p q : Nat → Prop} [DecidablePred p] [DecidablePred q] {n : Nat}
    (h : ∀ i, i < n → (q i ↔ p i)) : Nat.count q n = Nat.count p n := by
  induction n with
  | zero => rfl
  | succ n ih =>
    rw [Nat.count_succ, Nat.count_succ, ih fun i hi => h i (Nat.lt_succ_of_lt hi)]
    simp only [h n (Nat.lt_succ_self n)]

/-- A predicate that gains one point below `n` counts one more. -/
theorem count_of_gain {p q : Nat → Prop} [DecidablePred p] [DecidablePred q] {n idx : Nat}
    (hidx : idx < n) (hoff : ∀ i, i ≠ idx → (q i ↔ p i)) (hp : ¬ p idx) (hq : q idx) :
    Nat.count q n = Nat.count p n + 1 := by
  induction n with
  | zero => exact absurd hidx (Nat.not_lt_zero _)
  | succ n ih =>
    rw [Nat.count_succ, Nat.count_succ]
    rcases Nat.lt_succ_iff_lt_or_eq.mp hidx with hlt | rfl
    · rw [ih hlt]
      simp only [hoff n (by omega)]
      omega
    · rw [count_congr_below fun i hi => hoff i (by omega), if_pos hq, if_neg hp]

/-- At least `w` of them: one lies `w` before the end. -/
theorem exists_of_le_count {p : Nat → Prop} [DecidablePred p] {n w : Nat} (hpos : 0 < w)
    (h : w ≤ Nat.count p n) : ∃ i, i + w ≤ n ∧ p i := by
  by_contra hnone
  have hle := Nat.count_le (p := p) (n := n)
  have hnot : Nat.count p (n - w + 1) = 0 := by
    refine Nat.count_of_forall_not fun i hi hp => hnone ⟨i, by omega, hp⟩
  have hsplit := Nat.count_add p (n - w + 1) (w - 1)
  have hrest := Nat.count_le (p := fun j => p (n - w + 1 + j)) (n := w - 1)
  rw [show n - w + 1 + (w - 1) = n by omega, hnot] at hsplit
  omega

/-- The packets waiting in the ring, next to go first. -/
def waiting (window : Nat) (tx : FlowTx) (ring : Nat → Nat) : List Nat :=
  Ring.view ring window tx.retxHead tx.retxCount

/-- The books of one sender, `window` slots and `total` packets, but for the
claim that no sent packet is forgotten. -/
structure Slots (window total : Nat) (tx : FlowTx) (pkt : Nat → PktState) (ring : Nat → Nat) :
    Prop where
  head_lt : tx.retxHead < window
  room : tx.inFlight + tx.retxCount ≤ window
  inFlight_eq : tx.inFlight = Nat.count (fun i => (pkt i).inFlight = true) total
  acked_eq : tx.ackedCount = Nat.count (fun i => (pkt i).acked = true) total
  seq_le : tx.nextSeq ≤ total
  settled : ∀ i, (pkt i).acked = true → (pkt i).inFlight = false ∧ (pkt i).delivered = true
  untouched : ∀ i, tx.nextSeq ≤ i → pkt i = {}
  ring_nodup : (waiting window tx ring).Nodup
  ring_mem : ∀ i ∈ waiting window tx ring, i < tx.nextSeq ∧ (pkt i).inFlight = false

/-- Packet `i` is in one of the three places a sent packet can be. -/
def Kept (window : Nat) (tx : FlowTx) (pkt : Nat → PktState) (ring : Nat → Nat) (i : Nat) : Prop :=
  (pkt i).acked = true ∨ (pkt i).inFlight = true ∨ i ∈ waiting window tx ring

/-- The books of one sender. -/
structure Ledger (window total : Nat) (tx : FlowTx) (pkt : Nat → PktState) (ring : Nat → Nat) :
    Prop extends Slots window total tx pkt ring where
  covered : tx.failed = false → ∀ i, i < tx.nextSeq → Kept window tx pkt ring i

/-- The part of the sender's record the books speak of. -/
def FlowTx.books (tx : FlowTx) : FlowTx := { tx with nextSendNs := 0, sendScheduled := false }

theorem FlowTx.books_nextSend (tx : FlowTx) (t : Nat) :
    ({ tx with nextSendNs := t } : FlowTx).books = tx.books := rfl

theorem FlowTx.books_scheduled (tx : FlowTx) (b : Bool) :
    ({ tx with sendScheduled := b } : FlowTx).books = tx.books := rfl

theorem FlowTx.nextSeq_of_books {tx tx' : FlowTx} (h : tx'.books = tx.books) :
    tx'.nextSeq = tx.nextSeq := by
  have : tx'.books.nextSeq = tx.books.nextSeq := by rw [h]
  exact this

theorem FlowTx.failed_of_books {tx tx' : FlowTx} (h : tx'.books = tx.books) :
    tx'.failed = tx.failed := by
  have : tx'.books.failed = tx.books.failed := by rw [h]
  exact this

namespace Ledger

variable {window total : Nat} {tx tx' : FlowTx} {pkt : Nat → PktState} {ring : Nat → Nat}

theorem congr (h : Ledger window total tx pkt ring) (htx : tx'.books = tx.books) :
    Ledger window total tx' pkt ring := by
  obtain ⟨seq, fl, ac, hd, ct, sn, ss, fd⟩ := tx
  obtain ⟨seq', fl', ac', hd', ct', sn', ss', fd'⟩ := tx'
  simp only [FlowTx.books, FlowTx.mk.injEq] at htx
  obtain ⟨rfl, rfl, rfl, rfl, rfl, -, -, rfl⟩ := htx
  exact ⟨⟨h.head_lt, h.room, h.inFlight_eq, h.acked_eq, h.seq_le, h.settled, h.untouched,
    h.ring_nodup, h.ring_mem⟩, h.covered⟩

/-- What was never sent is not in flight. -/
theorem inFlight_below (h : Ledger window total tx pkt ring) :
    tx.inFlight = Nat.count (fun i => (pkt i).inFlight = true) tx.nextSeq := by
  obtain ⟨m, hm⟩ := Nat.exists_eq_add_of_le h.seq_le
  have hnone : Nat.count (fun i => (pkt (tx.nextSeq + i)).inFlight = true) m = 0 := by
    refine Nat.count_of_forall_not fun i _ hi => ?_
    rw [h.untouched _ (Nat.le_add_right _ i)] at hi
    exact absurd hi (by simp)
  rw [h.inFlight_eq, hm, Nat.count_add, hnone, Nat.add_zero]

/-- A window holds all the packets not acked. -/
theorem exists_acked (h : Ledger window total tx pkt ring) (hfail : tx.failed = false) {k : Nat}
    (hk : k < tx.nextSeq) (hw : window ≤ k) :
    ∃ j, k - window ≤ j ∧ j ≤ k ∧ (pkt j).acked = true := by
  by_contra hnone
  -- a window and one more would be in flight or in the ring
  have hkept : ∀ j ∈ Finset.Icc (k - window) k, j ∈ (Finset.range tx.nextSeq).filter
      (fun i => (pkt i).inFlight = true) ∪ (waiting window tx ring).toFinset := by
    intro j hj
    obtain ⟨hlo, hhi⟩ := Finset.mem_Icc.mp hj
    have hlt : j < tx.nextSeq := by omega
    rw [Finset.mem_union, Finset.mem_filter, Finset.mem_range, List.mem_toFinset]
    rcases h.covered hfail j hlt with hj | hj | hj
    · exact absurd ⟨j, hlo, hhi, hj⟩ hnone
    · exact Or.inl ⟨hlt, hj⟩
    · exact Or.inr hj
  have hcard := (Finset.card_le_card hkept).trans (Finset.card_union_le _ _)
  rw [Nat.card_Icc, ← Nat.count_eq_card_filter_range, ← h.inFlight_below] at hcard
  have hring := List.toFinset_card_le (waiting window tx ring)
  have hroom := h.room
  unfold waiting at hring hcard
  rw [Ring.length_view] at hring
  omega

/-- The initial books. -/
theorem init (hw : 0 < window) (total : Nat) (ring : Nat → Nat) :
    Ledger window total {} (fun _ => {}) ring where
  head_lt := hw
  room := Nat.zero_le _
  inFlight_eq := by
    symm
    rw [Nat.count_iff_forall_not]
    simp
  acked_eq := by
    symm
    rw [Nat.count_iff_forall_not]
    simp
  seq_le := Nat.zero_le _
  settled := by simp
  untouched := fun _ _ => rfl
  ring_nodup := List.nodup_nil
  ring_mem := fun _ hi => absurd hi List.not_mem_nil
  covered := fun _ i hi => absurd hi (Nat.not_lt_zero _)

/-- What `popRetx` returns: the entries before the one it takes are acked, and
the ring keeps the entries after it. -/
theorem popRetx_spec {acked : Nat → Bool} :
    ∀ {count head : Nat}, head < window → count ≤ window →
      ∀ {r : Option Nat} {head' count' : Nat},
        State.popRetx window ring acked head count = (r, head', count') →
        head' < window ∧ count' ≤ count ∧
          ∃ skipped, (∀ i ∈ skipped, acked i = true) ∧
            Ring.view ring window head count =
              skipped ++ r.toList ++ Ring.view ring window head' count' ∧
            (r = none → count' = 0) ∧ ∀ idx ∈ r, acked idx = false ∧ count' < count := by
  intro count
  induction count with
  | zero =>
    intro head hh _ r head' count' hr
    obtain ⟨rfl, rfl, rfl⟩ : none = r ∧ head = head' ∧ 0 = count' := by
      simpa [State.popRetx] using hr
    exact ⟨hh, le_rfl, [], by simp, rfl, fun _ => rfl, by simp⟩
  | succ count ih =>
    intro head hh hc r head' count' hr
    unfold State.popRetx at hr
    dsimp only at hr
    rw [Ring.view_succ ring hh (by omega)]
    split at hr
    · next hacked =>
      obtain ⟨h1, h2, skipped, h3, h4, h5, h6⟩ := ih (Ring.next_lt hh) (by omega) hr
      refine ⟨h1, by omega, ring head :: skipped, ?_, by rw [h4]; rfl, h5, ?_⟩
      · intro i hi
        rcases List.mem_cons.mp hi with rfl | hi
        · exact hacked
        · exact h3 i hi
      · intro idx hidx
        exact ⟨(h6 idx hidx).1, by have := (h6 idx hidx).2; omega⟩
    · next hacked =>
      obtain ⟨rfl, rfl, rfl⟩ : some (ring head) = r ∧ Ring.next window head = head' ∧
          count = count' := by simpa using hr
      refine ⟨Ring.next_lt hh, by omega, [], by simp, rfl, by simp, ?_⟩
      rintro idx ⟨⟩
      exact ⟨by simpa using hacked, Nat.lt_succ_self _⟩

end Ledger

namespace Slots

variable {window total : Nat} {tx : FlowTx} {pkt : Nat → PktState} {ring : Nat → Nat}
  {r : Option Nat} {head count : Nat}

theorem waiting_le (h : Slots window total tx pkt ring) : tx.retxCount ≤ window := by
  have := h.room
  omega

/-- Entries leave the ring at its head. -/
theorem drain (h : Slots window total tx pkt ring)
    (hr : State.popRetx window ring (fun i => (pkt i).acked) tx.retxHead tx.retxCount =
      (r, head, count)) :
    Slots window total { tx with retxHead := head, retxCount := count } pkt ring := by
  obtain ⟨hhead, hcount, skipped, -, hview, -⟩ := Ledger.popRetx_spec h.head_lt h.waiting_le hr
  have hsub : (Ring.view ring window head count).Sublist (waiting window tx ring) := by
    unfold waiting
    rw [hview]
    exact List.sublist_append_right _ _
  refine ⟨hhead, ?_, h.inFlight_eq, h.acked_eq, h.seq_le, h.settled, h.untouched,
    h.ring_nodup.sublist hsub, fun i hi => h.ring_mem i (hsub.subset hi)⟩
  have := h.room
  show tx.inFlight + count ≤ window
  omega

/-- A packet enters the flight. -/
theorem takeOff (h : Slots window total tx pkt ring) (idx : Nat) (hidx : idx < tx.nextSeq)
    (hopen : tx.inFlight + tx.retxCount < window) (hair : (pkt idx).inFlight = false)
    (hnot : (pkt idx).acked = false) (hring : idx ∉ waiting window tx ring) :
    Slots window total { tx with inFlight := tx.inFlight + 1 }
      (Function.update pkt idx { pkt idx with inFlight := true }) ring where
  head_lt := h.head_lt
  room := by
    show tx.inFlight + 1 + tx.retxCount ≤ window
    omega
  inFlight_eq := by
    show tx.inFlight + 1 = _
    rw [h.inFlight_eq]
    symm
    refine count_of_gain (lt_of_lt_of_le hidx h.seq_le) (fun i hi => ?_) (by simp [hair]) (by simp)
    rw [Function.update_of_ne hi]
  acked_eq := by
    show tx.ackedCount = _
    rw [h.acked_eq]
    symm
    refine count_congr_below fun i _ => ?_
    by_cases hi : i = idx
    · subst hi; simp
    · rw [Function.update_of_ne hi]
  seq_le := h.seq_le
  settled := by
    intro i
    by_cases hi : i = idx
    · subst hi
      simp [hnot]
    · rw [Function.update_of_ne hi]
      exact h.settled i
  untouched := by
    intro i hi
    have hi : tx.nextSeq ≤ i := hi
    rw [Function.update_of_ne (by omega)]
    exact h.untouched i hi
  ring_nodup := h.ring_nodup
  ring_mem := by
    intro i hi
    have hne : i ≠ idx := fun e => hring (e ▸ hi)
    rw [Function.update_of_ne hne]
    exact h.ring_mem i hi

/-- The next fresh index is handed out. -/
theorem takeSeq (h : Slots window total tx pkt ring) (hleft : tx.nextSeq < total) :
    Slots window total { tx with nextSeq := tx.nextSeq + 1 } pkt ring where
  head_lt := h.head_lt
  room := h.room
  inFlight_eq := h.inFlight_eq
  acked_eq := h.acked_eq
  seq_le := hleft
  settled := h.settled
  untouched := by
    intro i hi
    have hi : tx.nextSeq + 1 ≤ i := hi
    exact h.untouched i (by omega)
  ring_nodup := h.ring_nodup
  ring_mem := by
    intro i hi
    obtain ⟨h1, h2⟩ := h.ring_mem i hi
    exact ⟨Nat.lt_succ_of_lt h1, h2⟩

/-- A packet leaves the flight. -/
theorem land {idx : Nat} (h : Slots window total tx pkt ring) (hair : (pkt idx).inFlight = true) :
    Slots window total { tx with inFlight := tx.inFlight - 1 }
      (Function.update pkt idx { pkt idx with inFlight := false }) ring ∧ 0 < tx.inFlight := by
  have hidx : idx < tx.nextSeq := by
    by_contra hge
    rw [h.untouched idx (not_lt.mp hge)] at hair
    exact absurd hair (by simp)
  have hcount : Nat.count (fun i => (pkt i).inFlight = true) total = Nat.count (fun i =>
      (Function.update pkt idx { pkt idx with inFlight := false } i).inFlight = true) total + 1 := by
    refine count_of_gain (lt_of_lt_of_le hidx h.seq_le) (fun i hi => ?_) (by simp) hair
    rw [Function.update_of_ne hi]
  have hpos : 0 < tx.inFlight := by
    rw [h.inFlight_eq, hcount]
    exact Nat.succ_pos _
  refine ⟨⟨h.head_lt, ?_, ?_, ?_, h.seq_le, ?_, ?_, h.ring_nodup, ?_⟩, hpos⟩
  · have := h.room
    show tx.inFlight - 1 + tx.retxCount ≤ window
    omega
  · show tx.inFlight - 1 = _
    rw [h.inFlight_eq, hcount, Nat.add_sub_cancel]
  · show tx.ackedCount = _
    rw [h.acked_eq]
    symm
    refine count_congr_below fun i _ => ?_
    by_cases hi : i = idx
    · subst hi; simp
    · rw [Function.update_of_ne hi]
  · intro i
    by_cases hi : i = idx
    · subst hi
      intro hacked
      simp only [Function.update_self] at hacked ⊢
      exact ⟨trivial, (h.settled i hacked).2⟩
    · rw [Function.update_of_ne hi]
      exact h.settled i
  · intro i hi
    have hi : tx.nextSeq ≤ i := hi
    rw [Function.update_of_ne (by omega)]
    exact h.untouched i hi
  · intro i hi
    by_cases he : i = idx
    · subst he
      exact ⟨(h.ring_mem i hi).1, by simp⟩
    · rw [Function.update_of_ne he]
      exact h.ring_mem i hi

/-- A delivered packet is acked, in or out of flight. -/
theorem ack (h : Slots window total tx pkt ring) (idx : Nat) (hidx : idx < tx.nextSeq)
    (hnot : (pkt idx).acked = false) (hair : (pkt idx).inFlight = false)
    (hdel : (pkt idx).delivered = true) :
    Slots window total { tx with ackedCount := tx.ackedCount + 1 }
      (Function.update pkt idx { pkt idx with acked := true }) ring where
  head_lt := h.head_lt
  room := h.room
  inFlight_eq := by
    show tx.inFlight = _
    rw [h.inFlight_eq]
    symm
    refine count_congr_below fun i _ => ?_
    by_cases hi : i = idx
    · subst hi; simp
    · rw [Function.update_of_ne hi]
  acked_eq := by
    show tx.ackedCount + 1 = _
    rw [h.acked_eq]
    symm
    refine count_of_gain (lt_of_lt_of_le hidx h.seq_le) (fun i hi => ?_) (by simp [hnot]) (by simp)
    rw [Function.update_of_ne hi]
  seq_le := h.seq_le
  settled := by
    intro i
    by_cases hi : i = idx
    · subst hi
      simp [hair, hdel]
    · rw [Function.update_of_ne hi]
      exact h.settled i
  untouched := by
    intro i hi
    have hi : tx.nextSeq ≤ i := hi
    rw [Function.update_of_ne (by omega)]
    exact h.untouched i hi
  ring_nodup := h.ring_nodup
  ring_mem := by
    intro i hi
    by_cases he : i = idx
    · subst he
      exact ⟨(h.ring_mem i hi).1, by simp [hair]⟩
    · rw [Function.update_of_ne he]
      exact h.ring_mem i hi

/-- A packet outside the flight joins the ring's tail. -/
theorem requeue (h : Slots window total tx pkt ring) (idx : Nat) (hidx : idx < tx.nextSeq)
    (hair : (pkt idx).inFlight = false) (hring : idx ∉ waiting window tx ring)
    (hopen : tx.inFlight + tx.retxCount < window) :
    Slots window total { tx with retxCount := tx.retxCount + 1 } pkt
      (Function.update ring (Ring.slot window tx.retxHead tx.retxCount) idx) ∧
    waiting window { tx with retxCount := tx.retxCount + 1 }
      (Function.update ring (Ring.slot window tx.retxHead tx.retxCount) idx)
        = waiting window tx ring ++ [idx] := by
  have hview : waiting window { tx with retxCount := tx.retxCount + 1 }
      (Function.update ring (Ring.slot window tx.retxHead tx.retxCount) idx)
        = waiting window tx ring ++ [idx] :=
    Ring.view_update ring (by omega) idx
  refine ⟨⟨h.head_lt, ?_, h.inFlight_eq, h.acked_eq, h.seq_le, h.settled, h.untouched, ?_, ?_⟩,
    hview⟩
  · show tx.inFlight + (tx.retxCount + 1) ≤ window
    omega
  · rw [hview]
    exact List.Nodup.append h.ring_nodup (List.nodup_singleton _)
      (List.disjoint_singleton.mpr hring)
  · rw [hview]
    intro i hi
    rcases List.mem_append.mp hi with hi | hi
    · exact h.ring_mem i hi
    · obtain rfl := List.mem_singleton.mp hi
      exact ⟨hidx, hair⟩

end Slots

namespace Ledger

variable {window total : Nat} {tx : FlowTx} {pkt : Nat → PktState} {ring : Nat → Nat}
  {head count : Nat}

/-- One turn of the sending loop that retransmits. -/
theorem resend {idx : Nat} (h : Ledger window total tx pkt ring)
    (hr : State.popRetx window ring (fun i => (pkt i).acked) tx.retxHead tx.retxCount =
      (some idx, head, count)) :
    Ledger window total
      { tx with retxHead := head, retxCount := count, inFlight := tx.inFlight + 1 }
      (Function.update pkt idx { pkt idx with inFlight := true }) ring := by
  obtain ⟨hhead, hcount, skipped, hskip, hview, -, hidx⟩ :=
    popRetx_spec h.head_lt h.waiting_le hr
  obtain ⟨hacked, hless⟩ := hidx idx rfl
  have hview : waiting window tx ring = skipped ++ [idx] ++ Ring.view ring window head count := hview
  have hmem : idx ∈ waiting window tx ring := by rw [hview]; simp
  have hnot : idx ∉ Ring.view ring window head count := by
    have hn := h.ring_nodup
    rw [hview] at hn
    intro hin
    exact (List.disjoint_of_nodup_append hn) (by simp) hin
  have hslots := (h.toSlots.drain hr).takeOff idx (h.ring_mem idx hmem).1
    (by have := h.room; show tx.inFlight + count < window; omega) (h.ring_mem idx hmem).2 hacked hnot
  refine ⟨hslots, fun hf i hi => ?_⟩
  unfold Kept
  by_cases he : i = idx
  · subst he
    exact Or.inr (Or.inl (by simp))
  · rw [Function.update_of_ne he]
    rcases h.covered hf i hi with hk | hk | hk
    · exact Or.inl hk
    · exact Or.inr (Or.inl hk)
    · rw [hview] at hk
      rcases List.mem_append.mp hk with hk | hk
      · rcases List.mem_append.mp hk with hk | hk
        · exact Or.inl (hskip i hk)
        · exact absurd (List.mem_singleton.mp hk) he
      · exact Or.inr (Or.inr hk)

/-- The ring holds nothing but acked packets, which go. -/
theorem drain (h : Ledger window total tx pkt ring)
    (hr : State.popRetx window ring (fun i => (pkt i).acked) tx.retxHead tx.retxCount =
      (none, head, count)) :
    Ledger window total { tx with retxHead := head, retxCount := count } pkt ring ∧ count = 0 := by
  obtain ⟨hhead, hcount, skipped, hskip, hview, hzero, -⟩ :=
    popRetx_spec h.head_lt h.waiting_le hr
  obtain rfl := hzero rfl
  refine ⟨⟨h.toSlots.drain hr, fun hf i hi => ?_⟩, rfl⟩
  rcases h.covered hf i hi with hk | hk | hk
  · exact Or.inl hk
  · exact Or.inr (Or.inl hk)
  · unfold waiting at hk
    rw [hview] at hk
    simp only [Option.toList_none, List.append_nil, Ring.view_zero] at hk
    exact Or.inl (hskip i hk)

/-- One turn of the sending loop that sends a packet for the first time. -/
theorem fresh (h : Ledger window total tx pkt ring)
    (hr : State.popRetx window ring (fun i => (pkt i).acked) tx.retxHead tx.retxCount =
      (none, head, count))
    (hopen : tx.inFlight < window) (hleft : tx.nextSeq < total) :
    Ledger window total
      { tx with
        retxHead := head, retxCount := count, nextSeq := tx.nextSeq + 1
        inFlight := tx.inFlight + 1 }
      (Function.update pkt tx.nextSeq { pkt tx.nextSeq with inFlight := true }) ring := by
  obtain ⟨hd, rfl⟩ := h.drain hr
  have hun := h.untouched tx.nextSeq le_rfl
  have hslots := (hd.toSlots.takeSeq hleft).takeOff tx.nextSeq
    (Nat.lt_succ_self _) hopen (by rw [hun]) (by rw [hun]) List.not_mem_nil
  refine ⟨hslots, fun hf i hi => ?_⟩
  unfold Kept
  by_cases he : i = tx.nextSeq
  · subst he
    exact Or.inr (Or.inl (by simp))
  · rw [Function.update_of_ne he]
    have hi : i < tx.nextSeq + 1 := hi
    exact hd.covered hf i (by show i < tx.nextSeq; omega)

/-- An ack for a packet in flight. -/
theorem ackInFlight {idx : Nat} (h : Ledger window total tx pkt ring)
    (hair : (pkt idx).inFlight = true) (hdel : (pkt idx).delivered = true) :
    Ledger window total
      { tx with ackedCount := tx.ackedCount + 1, inFlight := tx.inFlight - 1 }
      (Function.update pkt idx { pkt idx with acked := true, inFlight := false }) ring := by
  have hidx : idx < tx.nextSeq := by
    by_contra hge
    rw [h.untouched idx (not_lt.mp hge)] at hair
    exact absurd hair (by simp)
  have hnot : (pkt idx).acked = false := by
    by_contra hne
    rw [(h.settled idx (by simpa using hne)).1] at hair
    exact absurd hair (by simp)
  have hslots := ((h.toSlots.land hair).1.ack idx hidx (by simp [hnot]) (by simp)
    (by simp [hdel]))
  rw [Function.update_self, Function.update_idem] at hslots
  refine ⟨hslots, fun hf i hi => ?_⟩
  unfold Kept
  by_cases he : i = idx
  · subst he
    exact Or.inl (by simp)
  · rw [Function.update_of_ne he]
    exact h.covered hf i hi

/-- A late ack: the packet is no longer in flight. -/
theorem ackLate {idx : Nat} (h : Ledger window total tx pkt ring) (hidx : idx < tx.nextSeq)
    (hnot : (pkt idx).acked = false) (hair : (pkt idx).inFlight = false)
    (hdel : (pkt idx).delivered = true) :
    Ledger window total { tx with ackedCount := tx.ackedCount + 1 }
      (Function.update pkt idx { pkt idx with acked := true }) ring := by
  refine ⟨h.toSlots.ack idx hidx hnot hair hdel, fun hf i hi => ?_⟩
  unfold Kept
  by_cases he : i = idx
  · subst he
    exact Or.inl (by simp)
  · rw [Function.update_of_ne he]
    exact h.covered hf i hi

/-- A timer that fires for a packet in flight moves it to the ring. -/
theorem timeout {idx : Nat} (h : Ledger window total tx pkt ring)
    (hair : (pkt idx).inFlight = true) :
    Ledger window total
      { tx with inFlight := tx.inFlight - 1, retxCount := tx.retxCount + 1 }
      (Function.update pkt idx { pkt idx with inFlight := false })
      (Function.update ring (Ring.slot window tx.retxHead tx.retxCount) idx) := by
  have hidx : idx < tx.nextSeq := by
    by_contra hge
    rw [h.untouched idx (not_lt.mp hge)] at hair
    exact absurd hair (by simp)
  have hring : idx ∉ waiting window tx ring := by
    intro hin
    rw [(h.ring_mem idx hin).2] at hair
    exact absurd hair (by simp)
  obtain ⟨hland, hpos⟩ := h.toSlots.land hair
  obtain ⟨hslots, hview⟩ := hland.requeue idx hidx (by simp) hring
    (by have := h.room; show tx.inFlight - 1 + tx.retxCount < window; omega)
  refine ⟨hslots, fun hf i hi => ?_⟩
  unfold Kept
  have hview : waiting window { tx with inFlight := tx.inFlight - 1, retxCount := tx.retxCount + 1 }
      (Function.update ring (Ring.slot window tx.retxHead tx.retxCount) idx) =
        waiting window tx ring ++ [idx] := hview
  rw [hview]
  by_cases he : i = idx
  · exact Or.inr (Or.inr (List.mem_append_right _ (List.mem_singleton.mpr he)))
  · rw [Function.update_of_ne he]
    rcases h.covered hf i hi with hk | hk | hk
    · exact Or.inl hk
    · exact Or.inr (Or.inl hk)
    · exact Or.inr (Or.inr (List.mem_append_left _ hk))

/-- A timer that fires for the last allowed attempt fails the flow. -/
theorem giveUp {idx : Nat} (h : Ledger window total tx pkt ring)
    (hair : (pkt idx).inFlight = true) :
    Ledger window total { tx with inFlight := tx.inFlight - 1, failed := true }
      (Function.update pkt idx { pkt idx with inFlight := false }) ring := by
  obtain ⟨hs, -⟩ := h.toSlots.land hair
  exact ⟨⟨hs.head_lt, hs.room, hs.inFlight_eq, hs.acked_eq, hs.seq_le, hs.settled, hs.untouched,
    hs.ring_nodup, hs.ring_mem⟩, fun hf => absurd hf (by simp)⟩

/-- The receiver gets a packet the sender has sent. -/
theorem deliver {idx : Nat} (h : Ledger window total tx pkt ring) (hidx : idx < tx.nextSeq) :
    Ledger window total tx (Function.update pkt idx { pkt idx with delivered := true }) ring := by
  have hsame : ∀ i, (Function.update pkt idx { pkt idx with delivered := true } i).inFlight =
      (pkt i).inFlight ∧ (Function.update pkt idx { pkt idx with delivered := true } i).acked =
      (pkt i).acked := by
    intro i
    by_cases hi : i = idx
    · subst hi; simp
    · rw [Function.update_of_ne hi]
      exact ⟨rfl, rfl⟩
  refine ⟨⟨h.head_lt, h.room, ?_, ?_, h.seq_le, ?_, ?_, h.ring_nodup, ?_⟩, ?_⟩
  · simp only [hsame]
    exact h.inFlight_eq
  · simp only [hsame]
    exact h.acked_eq
  · intro i hacked
    rw [(hsame i).2] at hacked
    rw [(hsame i).1]
    refine ⟨(h.settled i hacked).1, ?_⟩
    by_cases hi : i = idx
    · subst hi; simp
    · rw [Function.update_of_ne hi]
      exact (h.settled i hacked).2
  · intro i hi
    rw [Function.update_of_ne (by omega)]
    exact h.untouched i hi
  · intro i hi
    rw [(hsame i).1]
    exact h.ring_mem i hi
  · intro hf i hi
    unfold Kept
    rw [(hsame i).1, (hsame i).2]
    exact h.covered hf i hi

end Ledger

end FabricSim
