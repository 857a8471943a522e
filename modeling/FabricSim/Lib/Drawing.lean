import Mathlib.Data.List.Forall2

/-!
# Draws in a row

A draw takes a parameter and a source, and gives a value and what is left of the source, or
nothing. `each` draws once for every parameter. What holds of one draw holds of each
(`each_forall₂`), a source that is good for one draw more than it has to be is good for all
(`isSome_each`), and two sources that are drawn from in turn give what each of them gives
alone (`each_both`).
-/

namespace Drawing

variable {ι α β σ τ : Type*}

/-- One draw for each parameter, in order, from what the one before left. -/
def each (draw : ι → σ → Option (α × σ)) : List ι → σ → Option (List α × σ)
  | [], s => some ([], s)
  | i :: is, s =>
    (draw i s).bind fun r => (each draw is r.2).map fun rs => (r.1 :: rs.1, rs.2)

/-- A draw from each of two sources. -/
def both (draw : ι → σ → Option (α × σ)) (draw' : ι → τ → Option (β × τ)) (i : ι) (st : σ × τ) :
    Option ((α × β) × (σ × τ)) :=
  (draw i st.1).bind fun r => (draw' i st.2).map fun r' => ((r.1, r'.1), (r.2, r'.2))

variable {draw : ι → σ → Option (α × σ)} {draw' : ι → τ → Option (β × τ)}

theorem each_cons (i : ι) (is : List ι) (s : σ) : each draw (i :: is) s =
    (draw i s).bind fun r => (each draw is r.2).map fun rs => (r.1 :: rs.1, rs.2) := rfl

theorem each_cons_eq_some {i : ι} {is : List ι} {s s' : σ} {vs : List α} :
    each draw (i :: is) s = some (vs, s') ↔
      ∃ v s₁ ws, draw i s = some (v, s₁) ∧ each draw is s₁ = some (ws, s') ∧ vs = v :: ws := by
  rw [each_cons, Option.bind_eq_some_iff]
  constructor
  · intro ⟨r, hr, hrest⟩
    obtain ⟨rs, hrs, heq⟩ := Option.map_eq_some_iff.mp hrest
    obtain ⟨rfl, rfl⟩ := Prod.mk.inj heq
    exact ⟨r.1, r.2, rs.1, hr, hrs, rfl⟩
  · intro ⟨v, s₁, ws, hv, hws, heq⟩
    refine ⟨(v, s₁), hv, ?_⟩
    dsimp only
    rw [hws, heq]
    rfl

/-- What every draw says of its value. -/
theorem each_forall₂ {R : ι → α → Prop} (hR : ∀ i s v s', draw i s = some (v, s') → R i v) :
    ∀ {is : List ι} {s s' : σ} {vs : List α}, each draw is s = some (vs, s') →
      List.Forall₂ R is vs := by
  intro is
  induction is with
  | nil =>
    intro s s' vs h
    obtain ⟨rfl, -⟩ := Prod.mk.inj (Option.some.inj h)
    exact List.Forall₂.nil
  | cons i is ih =>
    intro s s' vs h
    obtain ⟨v, s₁, ws, hv, hws, rfl⟩ := each_cons_eq_some.mp h
    exact List.Forall₂.cons (hR i s v s₁ hv) (ih hws)

theorem length_each {is : List ι} {s s' : σ} {vs : List α} (h : each draw is s = some (vs, s')) :
    vs.length = is.length :=
  (each_forall₂ (R := fun _ _ => True) (fun _ _ _ _ _ => trivial) h).length_eq.symm

/-- A source that can do one draw and be as good for the others as it has to be. -/
theorem isSome_each {Good : Nat → σ → Prop}
    (hgood : ∀ i s k, Good (k + 1) s → ∃ v s', draw i s = some (v, s') ∧ Good k s') :
    ∀ {is : List ι} {s : σ}, Good is.length s → (each draw is s).isSome := by
  intro is
  induction is with
  | nil => exact fun _ => rfl
  | cons i is ih =>
    intro s h
    obtain ⟨v, s₁, hv, h₁⟩ := hgood i s is.length h
    obtain ⟨r, hr⟩ := Option.isSome_iff_exists.mp (ih h₁)
    rw [Option.isSome_iff_exists]
    exact ⟨(v :: r.1, r.2), each_cons_eq_some.mpr ⟨v, s₁, r.1, hv, hr, rfl⟩⟩

/-- The first draws do not depend on how many more there are. -/
theorem each_prefix : ∀ {is js : List ι} {s t : σ} {ws : List α}, is <+: js →
    each draw js s = some (ws, t) → ∃ vs s', each draw is s = some (vs, s') ∧ vs <+: ws := by
  intro is
  induction is with
  | nil => exact fun _ _ => ⟨[], _, rfl, List.nil_prefix⟩
  | cons i is ih =>
    intro js s t ws hpre hw
    obtain ⟨rest, rfl⟩ := hpre
    obtain ⟨v, s₁, ws, hdraw, hws, rfl⟩ := each_cons_eq_some.mp hw
    obtain ⟨vs, s', hvs, hle⟩ := ih (List.prefix_append is rest) hws
    exact ⟨v :: vs, s', each_cons_eq_some.mpr ⟨v, s₁, vs, hdraw, hvs, rfl⟩,
      List.cons_prefix_cons.mpr ⟨rfl, hle⟩⟩

/-- Two sources, drawn from in turn, do not disturb each other. -/
theorem each_both (draw : ι → σ → Option (α × σ)) (draw' : ι → τ → Option (β × τ)) :
    ∀ (is : List ι) (s : σ) (t : τ), each (both draw draw') is (s, t) =
      (each draw is s).bind fun r => (each draw' is t).map fun r' =>
        (r.1.zip r'.1, (r.2, r'.2)) := by
  intro is
  induction is with
  | nil => exact fun _ _ => rfl
  | cons i is ih =>
    intro s t
    rw [each_cons, each_cons, each_cons]
    unfold both
    cases draw i s with
    | none => rfl
    | some r =>
      simp only [Option.bind_some]
      cases draw' i t with
      | none =>
        -- the first source may still fail, and the second fails in any case
        cases each draw is r.2 with
        | none => rfl
        | some rs => rfl
      | some r' =>
        simp only [Option.map_some, Option.bind_some]
        change Option.map _ (each (both draw draw') is (r.2, r'.2)) = _
        rw [ih]
        cases each draw is r.2 with
        | none => rfl
        | some rs =>
          simp only [Option.map_some, Option.bind_some]
          cases each draw' is r'.2 with
          | none => rfl
          | some rs' => rfl

end Drawing
