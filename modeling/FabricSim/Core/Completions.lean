import FabricSim.Core.Injects

/-!
# The order in which flows complete

A turn of the loop completes at most one flow (`completes`), so the completions of a run
are a list: each flow once, and a flow only after the one it waits for. This is all a
workload built from dependencies can rely on, whatever the policy, the losses and the
times, wrapped or not.
-/

namespace FabricSim

open State

namespace Simulation

/-- The flows that completed in a run up to `s`, first to last. -/
inductive Completions (sim : Simulation) (policy : RoutingPolicy) : List FlowId → State → Prop where
  | begin (leftover : State) : Completions sim policy [] (sim.beginRun leftover)
  | quiet {log : List FlowId} {s s' : State} (h : Completions sim policy log s)
      (hstep : sim.Step policy s s')
      (hsame : ∀ f, (s'.result f).complete = (s.result f).complete) : Completions sim policy log s'
  | finish {log : List FlowId} {s s' : State} (h : Completions sim policy log s)
      (hstep : sim.Step policy s s') (f : FlowId) (hold : (s.result f).complete = false)
      (hnew : ∀ g, (s'.result g).complete = if g = f then true else (s.result g).complete) :
      Completions sim policy (log ++ [f]) s'

variable {sim : Simulation} {policy : RoutingPolicy} {s s' : State} {f d : FlowId}

/-- A turn completes at most one flow. -/
theorem Reachable.completes (hs : sim.Reachable policy s) (hstep : sim.Step policy s s') :
    (∀ f, (s'.result f).complete = (s.result f).complete) ∨
      ∃ f, f < sim.flowCount ∧ (s.result f).complete = false ∧
        ∀ g, (s'.result g).complete = if g = f then true else (s.result g).complete := by
  obtain ⟨e, queue, hpop, rfl⟩ := step_eq_some_iff.mp hstep
  rcases dispatch_tally sim policy (s.advance e queue) e.body with ⟨p, x, hb, hh, hk⟩ | ⟨hsame, -⟩
  · have harrival := Tally.onArrive_arrival hs hpop hb hh hk
    have hothers : ∀ g, g ≠ x.flow → (((s.advance e queue).dispatch sim policy e.body).result
        g).complete = (s.result g).complete := by
      intro g hg
      rcases harrival.finish g with ⟨hc, -⟩ | ⟨hgx, -⟩
      · exact hc
      · exact absurd hgx hg
    by_cases hx : (((s.advance e queue).dispatch sim policy e.body).result x.flow).complete =
        (s.result x.flow).complete
    · left
      intro g
      by_cases hg : g = x.flow
      · rw [hg, hx]
      · exact hothers g hg
    · right
      have hold : (s.result x.flow).complete = false := by
        by_contra hc
        have hc : (s.result x.flow).complete = true := by simpa using hc
        exact hx ((Tally.settled hs hc hstep).1.trans hc.symm)
      refine ⟨x.flow, hs.flow_lt (mem_onLink_of_arrive hpop hb), hold, fun g => ?_⟩
      split
      · next hg =>
        rw [hold] at hx
        rw [hg]
        simpa using hx
      · next hg => exact hothers g hg
  · exact Or.inl hsame.complete

/-- A flow that waits for one that is not complete has sent nothing. -/
theorem Reachable.unsent (hs : sim.Reachable policy s) (ht : sim.transport.Accepted)
    (hd : (sim.spec f).dependsOn = some d) (hold : (s.result d).complete = false) :
    s.transmissions f = 0 ∧ (s.result f).complete = false := by
  have hinj := hs.injects ht f
  have hsent : s.transmissions f = 0 := (hinj.regular.early (hinj.asleep d hd hold).1).2
  refine ⟨hsent, ?_⟩
  -- a complete flow has some packet marked, and only a packet handed out is
  by_contra hc
  have hc : (s.result f).complete = true := by simpa using hc
  have hmark : ∃ idx, (s.pkt f idx).delivered = true := by
    obtain ⟨later, idx, earlier, hlog, -, -⟩ := (hs.tally f).finish hc
    refine ⟨idx, ((hs.tally f).bits idx).mpr (List.mem_toFinset.mpr ?_)⟩
    rw [hlog, List.map_append, List.map_cons]
    exact List.mem_append_right _ (List.mem_cons_self ..)
  obtain ⟨idx, hmark⟩ := hmark
  have hseq : idx < (s.tx f).nextSeq := by
    by_contra hge
    rw [(hs.books.ledger f).untouched idx (not_lt.mp hge)] at hmark
    exact absurd hmark (by simp)
  have hpos : 0 < s.transmissions f := transmissions_pos ((hs.attempts ht f).sent idx hseq)
  omega

/-- A complete flow waited for one that is complete. -/
theorem Reachable.complete_dependsOn (hs : sim.Reachable policy s) (ht : sim.transport.Accepted)
    (hd : (sim.spec f).dependsOn = some d) (hc : (s.result f).complete = true) :
    (s.result d).complete = true := by
  by_contra hold
  have hnot := (hs.unsent ht hd (by simpa using hold)).2
  rw [hc] at hnot
  exact absurd hnot (by simp)

namespace Completions

variable {log : List FlowId}

theorem reachable (h : sim.Completions policy log s) : sim.Reachable policy s := by
  induction h with
  | begin leftover => exact Reachable.begin leftover
  | quiet _ hstep _ ih => exact ih.next hstep
  | finish _ hstep _ _ _ ih => exact ih.next hstep

/-- A run that goes on completes more flows, and the list goes on with it. -/
theorem extend (h : sim.Completions policy log s)
    (hrun : Relation.ReflTransGen (sim.Step policy) s s') :
    ∃ later, sim.Completions policy (log ++ later) s' := by
  induction hrun with
  | refl =>
    refine ⟨[], ?_⟩
    rw [List.append_nil]
    exact h
  | tail _ hstep ih =>
    obtain ⟨later, ih⟩ := ih
    rcases ih.reachable.completes hstep with hsame | ⟨f, -, hold, hnew⟩
    · exact ⟨later, ih.quiet hstep hsame⟩
    · refine ⟨later ++ [f], ?_⟩
      rw [← List.append_assoc]
      exact ih.finish hstep f hold hnew

theorem mem_iff (h : sim.Completions policy log s) (f : FlowId) :
    f ∈ log ↔ (s.result f).complete = true := by
  induction h with
  | begin leftover => simp [beginRun]
  | quiet _ _ hsame ih => rw [ih, hsame]
  | finish _ _ g _ hnew ih =>
    rw [List.mem_append, List.mem_singleton, ih, hnew]
    by_cases hf : f = g <;> simp [hf]

theorem nodup (h : sim.Completions policy log s) : log.Nodup := by
  induction h with
  | begin leftover => exact List.nodup_nil
  | quiet _ _ _ ih => exact ih
  | finish hrun _ f hold _ ih =>
    rw [List.nodup_append]
    refine ⟨ih, List.nodup_singleton f, ?_⟩
    rintro g hg _ hf rfl
    rw [List.mem_singleton.mp hf, hrun.mem_iff, hold] at hg
    exact absurd hg (by simp)

theorem lt_flowCount (h : sim.Completions policy log s) (hf : f ∈ log) : f < sim.flowCount := by
  induction h with
  | begin leftover => exact absurd hf List.not_mem_nil
  | quiet _ _ _ ih => exact ih hf
  | finish hrun hstep g hold hnew ih =>
    rcases List.mem_append.mp hf with hf | hf
    · exact ih hf
    · obtain rfl := List.mem_singleton.mp hf
      rcases hrun.reachable.completes hstep with hsame | ⟨g, hlt, -, hg⟩
      · have := hnew f
        rw [if_pos rfl, hsame, hold] at this
        exact absurd this (by simp)
      · have := hg f
        rw [hnew f, if_pos rfl] at this
        by_cases hfg : f = g
        · rwa [hfg]
        · rw [if_neg hfg, hold] at this
          exact absurd this (by simp)

end Completions

/-- Every reachable state comes with the list of its completions. -/
theorem Reachable.completions (hs : sim.Reachable policy s) :
    ∃ log, sim.Completions policy log s := by
  obtain ⟨leftover, hrun⟩ := hs
  exact (Completions.begin leftover).extend hrun

end Simulation

end FabricSim
