import FabricSim.Core.Simulation

/-!
# The dependents table

`build_dependents` is a counting sort of the flows by the flow they wait on.
`dependents_eq` reads its result back: the dependents of `f` are the flows that
name `f`, in flow order.
-/

namespace FabricSim.Simulation

variable (sim : Simulation)

/-- The counting pass counts the dependents. -/
theorem dependentCount_eq : sim.dependentCount = Csr.rowLength sim.dependencies := by
  have hfold : ∀ (l : List (FlowId × FlowId)) (c : FlowId → Nat) (f : FlowId),
      l.foldl (fun c di => Function.update c di.1 (c di.1 + 1)) c f = c f + Csr.rowLength l f := by
    intro l
    induction l with
    | nil => intro c f; rfl
    | cons di l ih =>
      intro c f
      have hrow : Csr.rowLength (di :: l) f = (if di.1 = f then 1 else 0) + Csr.rowLength l f := by
        unfold Csr.rowLength
        rw [← List.singleton_append, Csr.row_append, List.length_append, Csr.row_singleton]
        split <;> rfl
      rw [List.foldl_cons, ih, hrow, Function.update_apply]
      by_cases hf : f = di.1
      · rw [if_pos hf, if_pos hf.symm, hf, Nat.add_assoc]
      · rw [if_neg hf, if_neg (Ne.symm hf), Nat.zero_add]
  funext f
  unfold dependentCount
  rw [hfold, Nat.zero_add]

theorem dependents_eq_row (f : FlowId) : sim.dependents f = Csr.row sim.dependencies f := by
  have hfill := Csr.fill_row sim.dependencies (fun _ => (0 : FlowId)) f
  have hoff : sim.dependentsOffset = Csr.prefixSum (Csr.rowLength sim.dependencies) := by
    unfold dependentsOffset
    rw [dependentCount_eq]
  have hlen : sim.dependentsOffset (f + 1) - sim.dependentsOffset f =
      Csr.rowLength sim.dependencies f := by
    rw [hoff]
    show Csr.prefixSum _ f + _ - _ = _
    omega
  unfold dependents dependentsArray
  rw [hlen, hoff]
  exact hfill

theorem dependents_eq (f : FlowId) : sim.dependents f =
    (List.range sim.flowCount).filter fun d => (sim.spec d).dependsOn == some f := by
  rw [dependents_eq_row]
  unfold Csr.row dependencies
  induction List.range sim.flowCount with
  | nil => rfl
  | cons i l ih =>
    rw [List.filterMap_cons, List.filter_cons]
    cases hd : (sim.spec i).dependsOn with
    | none => simpa [hd] using ih
    | some d =>
      by_cases hdf : d = f
      · simpa [hdf] using ih
      · simpa [hdf] using ih

theorem mem_dependents {f d : FlowId} :
    d ∈ sim.dependents f ↔ d < sim.flowCount ∧ (sim.spec d).dependsOn = some f := by
  rw [dependents_eq, List.mem_filter, List.mem_range, beq_iff_eq]

theorem nodup_dependents (f : FlowId) : (sim.dependents f).Nodup := by
  rw [dependents_eq]
  exact List.nodup_range.filter _

/-- The spec of a flow added is one of the accepted ones. -/
theorem spec_accepted {f : FlowId} (hf : f < sim.flowCount) :
    (sim.spec f).Accepted sim.fabric f := by
  unfold spec
  rw [List.getD_eq_getElem _ _ hf]
  exact sim.accepted f hf

end FabricSim.Simulation
