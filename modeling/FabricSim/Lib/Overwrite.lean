import Mathlib.Data.List.Induction

/-!
# A loop whose later items overwrite what earlier ones set

The loop goes over a list and may stop with an error. An item either sets an observation
of the state or leaves it alone, so after the loop the observation is what the last item
that set it said (`obs_of_foldlM`).
-/

namespace Overwrite

variable {α β γ σ ε : Type*} {step : σ → α → Except ε σ}

theorem foldlM_concat {items : List α} {item : α} {s t : σ}
    (h : (items ++ [item]).foldlM step s = .ok t) :
    ∃ mid, items.foldlM step s = .ok mid ∧ step mid item = .ok t := by
  rw [List.foldlM_append] at h
  cases hmid : items.foldlM step s with
  | error e =>
    rw [hmid] at h
    nomatch h
  | ok mid =>
    rw [hmid] at h
    refine ⟨mid, rfl, ?_⟩
    change (step mid item >>= pure) = .ok t at h
    rw [bind_pure] at h
    exact h

/-- A loop that ends has stepped over every item. -/
theorem stepped_of_foldlM {items : List α} {s t : σ} (h : items.foldlM step s = .ok t)
    {item : α} (hitem : item ∈ items) : ∃ mid next, step mid item = .ok next := by
  induction items using List.reverseRecOn generalizing t with
  | nil => exact absurd hitem List.not_mem_nil
  | append_singleton items last ih =>
    obtain ⟨mid, hbefore, hlast⟩ := foldlM_concat h
    rw [List.mem_append, List.mem_singleton] at hitem
    obtain hitem | rfl := hitem
    · exact ih hbefore hitem
    · exact ⟨mid, t, hlast⟩

theorem obs_of_foldlM {obs : σ → β} {told : α → Option γ} {set : γ → β}
    (hstep : ∀ s item t, step s item = .ok t → obs t = (told item).elim (obs s) set)
    {items : List α} {s t : σ} (h : items.foldlM step s = .ok t) :
    obs t = (items.filterMap told).getLast?.elim (obs s) set := by
  induction items using List.reverseRecOn generalizing t with
  | nil =>
    obtain rfl := Except.ok.inj h
    rfl
  | append_singleton items last ih =>
    obtain ⟨mid, hbefore, hlast⟩ := foldlM_concat h
    rw [hstep mid last t hlast, ih hbefore, List.filterMap_append, List.getLast?_append]
    cases htold : told last with
    | none =>
      rw [List.filterMap_cons_none htold]
      rfl
    | some v =>
      rw [List.filterMap_cons_some htold]
      rfl

end Overwrite
