import FabricSim.Core.Delivery
import FabricSim.Core.Layout
import Mathlib.Algebra.Order.BigOperators.Group.Finset

/-!
# Receiver-side completion is exact

The counters of a flow are those of its set of arrived packets: how many there
are, how many bytes they carry, and whether they are all of them. Sizes of
packets are positive and add up to the size of the flow, so the bytes alone
decide completion. A complete flow stays as it is (`Tally.settled`).
-/

namespace FabricSim

open State

namespace Tally

variable {sim : Simulation} {policy : RoutingPolicy} {s s' : State} {f : FlowId}

theorem arrivedSet_subset (h : Tally sim s f) :
    s.arrivedSet sim f ⊆ Finset.range (sim.packetsTotal f) :=
  fun idx hidx => Finset.mem_range.mpr (h.range idx hidx)

/-- The number of marked packets is the number of arrived ones. -/
theorem card (h : Tally sim s f) (hrecv : Receiver sim s f) :
    (s.result f).packetsDelivered = (s.arrivedSet sim f).card := by
  rw [hrecv.count, Nat.count_eq_card_filter_range]
  congr 1
  ext idx
  rw [Finset.mem_filter, Finset.mem_range, h.bits]
  exact ⟨fun hidx => hidx.2, fun hidx => ⟨h.range idx hidx, hidx⟩⟩

theorem complete_iff (h : Tally sim s f) (hrecv : Receiver sim s f)
    (hpos : 0 < sim.packetsTotal f) :
    (s.result f).complete = true ↔ s.arrivedSet sim f = Finset.range (sim.packetsTotal f) := by
  rw [hrecv.complete_iff hpos, h.card hrecv]
  constructor
  · intro hcard
    refine Finset.eq_of_subset_of_card_le h.arrivedSet_subset ?_
    rw [Finset.card_range, hcard]
  · intro heq
    rw [heq, Finset.card_range]

/-- All of a complete flow's packets are marked. -/
theorem marked (h : Tally sim s f) (hc : (s.result f).complete = true) {idx : Nat}
    (hidx : idx < sim.packetsTotal f) : (s.pkt f idx).delivered = true := by
  obtain ⟨later, i, earlier, hl, -, hall⟩ := h.finish hc
  refine (h.bits idx).mpr (List.mem_toFinset.mpr ?_)
  rw [hl, List.map_append, List.map_cons]
  refine List.mem_append_right _ ?_
  rcases hall idx hidx with rfl | hmem
  · exact List.mem_cons_self ..
  · exact List.mem_cons_of_mem _ hmem

/-- What a complete flow has on record stays: whatever still arrives is a
duplicate. -/
theorem settled (hs : sim.Reachable policy s) (hc : (s.result f).complete = true)
    (hstep : sim.Step policy s s') :
    (s'.result f).complete = true ∧ (s'.result f).finishNs = (s.result f).finishNs ∧
      (s'.result f).deliveredBytes = (s.result f).deliveredBytes := by
  obtain ⟨e, queue, hpop, rfl⟩ := Simulation.step_eq_some_iff.mp hstep
  rcases dispatch_tally sim policy (s.advance e queue) e.body with ⟨p, x, hb, hh, hk⟩ | ⟨hsame, -⟩
  · have ha := onArrive_arrival hs hpop hb hh hk
    have hseq := (hs.books.arrived hs (mem_onLink_of_arrive hpop hb)).1 hk
    have hidx : x.index < sim.packetsTotal x.flow :=
      lt_of_lt_of_le hseq (hs.books.ledger x.flow).seq_le
    have hdup : f = x.flow → (s.pkt x.flow x.index).delivered = true := by
      rintro rfl
      exact (hs.tally x.flow).marked hc hidx
    refine ⟨?_, ?_, ?_⟩
    · rcases ha.finish f with ⟨hcs, -⟩ | ⟨hf, hd, -⟩
      · exact hcs.trans hc
      · exact absurd (hdup hf) (by simp [hd])
    · rcases ha.finish f with ⟨-, hfs⟩ | ⟨hf, hd, -⟩
      · exact hfs
      · exact absurd (hdup hf) (by simp [hd])
    · rw [ha.bytes, if_neg]
      rintro ⟨hf, hd⟩
      exact absurd (hdup hf) (by simp [hd])
  · exact ⟨(hsame.complete f).trans hc, hsame.finish f, hsame.bytes f⟩

theorem settled_run (hs : sim.Reachable policy s) (hc : (s.result f).complete = true)
    (hrun : Relation.ReflTransGen (sim.Step policy) s s') :
    (s'.result f).complete = true ∧ (s'.result f).finishNs = (s.result f).finishNs ∧
      (s'.result f).deliveredBytes = (s.result f).deliveredBytes := by
  suffices h : sim.Reachable policy s' ∧ (s'.result f).complete = true ∧
      (s'.result f).finishNs = (s.result f).finishNs ∧
      (s'.result f).deliveredBytes = (s.result f).deliveredBytes from h.2
  induction hrun with
  | refl => exact ⟨hs, hc, rfl, rfl⟩
  | tail _ hstep ih =>
    obtain ⟨hs₁, hc₁, hfin, hbytes⟩ := ih
    obtain ⟨hc₂, hfin₂, hbytes₂⟩ := settled hs₁ hc₁ hstep
    exact ⟨hs₁.next hstep, hc₂, hfin₂.trans hfin, hbytes₂.trans hbytes⟩

/-- The bytes alone decide completion: every packet that is missing is missed. -/
theorem bytes_eq_size_iff (h : Tally sim s f) (hmtu : 0 < (sim.spec f).mtuBytes)
    (htotal : sim.packetsTotal f = (sim.spec f).packetsExact) :
    (s.result f).deliveredBytes ≤ (sim.spec f).sizeBytes ∧
      ((s.result f).deliveredBytes = (sim.spec f).sizeBytes ↔
        s.arrivedSet sim f = Finset.range (sim.packetsTotal f)) := by
  have hsub := h.arrivedSet_subset
  rw [htotal] at hsub ⊢
  have hsize := FlowSpec.sum_packetBytes hmtu
  rw [h.bytes]
  refine ⟨hsize ▸ Finset.sum_le_sum_of_subset hsub, fun heq => ?_, fun heq => heq ▸ hsize⟩
  by_contra hne
  obtain ⟨idx, hidx, hmiss⟩ := Finset.exists_of_ssubset (Finset.ssubset_iff_subset_ne.mpr ⟨hsub, hne⟩)
  have hlt := Finset.sum_lt_sum_of_subset hsub hidx hmiss
    (FlowSpec.packetBytes_pos hmtu (Finset.mem_range.mp hidx)) fun _ _ _ => Nat.zero_le _
  rw [hsize, heq] at hlt
  exact absurd hlt (lt_irrefl _)

end Tally

/-- In every reachable state of every run, for every flow whose packet count was
computed without truncation: the record is that of the set of arrived packets,
completion is the set being full and the bytes being the flow's size, a complete
flow has the time of the arrival that filled the set and keeps its record
whatever comes, and the acks are the arrivals, one for one. -/
theorem receiver_exact (sim : Simulation) (policy : RoutingPolicy) {s : State}
    (hs : sim.Reachable policy s) {f : FlowId} (hf : f < sim.flowCount)
    (hn : (sim.spec f).packetsExact < 2 ^ 32) :
    (s.result f).packetsDelivered = (s.arrivedSet sim f).card ∧
      (s.result f).deliveredBytes =
        ∑ idx ∈ s.arrivedSet sim f, (sim.spec f).packetBytes idx ∧
      (s.result f).deliveredBytes ≤ (sim.spec f).sizeBytes ∧
      ((s.result f).complete = true ↔
        s.arrivedSet sim f = Finset.range (sim.packetsTotal f)) ∧
      ((s.result f).complete = true ↔ (s.result f).deliveredBytes = (sim.spec f).sizeBytes) ∧
      ((s.result f).complete = true →
        FilledAt (s.deliveries sim f) (sim.packetsTotal f) (s.result f).finishNs ∧
        ∀ s', Relation.ReflTransGen (sim.Step policy) s s' →
          (s'.result f).complete = true ∧ (s'.result f).finishNs = (s.result f).finishNs ∧
            (s'.result f).deliveredBytes = (s.result f).deliveredBytes) ∧
      s.acks f = s.deliveries sim f := by
  have hacc := sim.spec_accepted hf
  have htotal : sim.packetsTotal f = (sim.spec f).packetsExact :=
    FlowSpec.packetsTotal_eq hacc.mtu_pos hacc.mtu_le hn
  have hpos : 0 < sim.packetsTotal f :=
    htotal ▸ FlowSpec.packetsExact_pos hacc.mtu_pos hacc.size_pos
  have h := hs.tally f
  have hrecv := hs.receiver f
  obtain ⟨hle, hsize⟩ := h.bytes_eq_size_iff hacc.mtu_pos htotal
  have hcomplete := h.complete_iff hrecv hpos
  refine ⟨h.card hrecv, h.bytes, hle, hcomplete, hcomplete.trans hsize.symm, fun hc => ?_, h.acks⟩
  exact ⟨h.finish hc, fun s' hrun => Tally.settled_run hs hc hrun⟩

/-- Two hosts on a leaf, after the whole run: both packets, 3000 bytes. -/
theorem receiver_exact_pair :
    Pair.last.acks 0 = Pair.last.deliveries Pair.simulation 0 ∧
      (Pair.last.result 0).deliveredBytes = (Pair.simulation.spec 0).sizeBytes ∧
      Pair.last.arrivedSet Pair.simulation 0 = Finset.range (Pair.simulation.packetsTotal 0) := by
  obtain ⟨-, -, -, hset, hsize, -, hacks⟩ := receiver_exact Pair.simulation StaticFirstPolicy
    (s := Pair.last) ((Simulation.Reachable.begin _).runFor 100) (f := 0) (by decide) (by decide)
  exact ⟨hacks, hsize.mp Pair.last_complete, hset.mp Pair.last_complete⟩

end FabricSim
