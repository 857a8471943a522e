import Mathlib.Algebra.BigOperators.Group.List.Basic
import Mathlib.Algebra.Order.Ring.Nat

/-!
# A first-come first-served server

One server works through a list of jobs in order. `finish` lists when each job
ends if the server is free from time `t` on, `drain` is when the last one does.
A job joining the end of the list changes no earlier finishing time
(`finish_concat`), and a bound on the single service time bounds the whole
backlog (`drain_le`).

`serve` is the same server given when each job came: a job starts when it is
there and the server is free, so the `n`-th of them ends at
`max (its arrival) (the end before it)` plus its service time, which is what
`serve_concat` says of the last one. `freeAfter` is the end of the last.

Equal jobs leave at least a service time apart (`spaced_serve`), and those that come so
far apart do not wait for each other (`serve_spaced`): past the first of a row of equal
servers, a stream only moves on.
-/

namespace FifoServer

variable {α : Type} (service : α → Nat)

/-- When each job ends. -/
def finish (t : Nat) : List α → List (Nat × α)
  | [] => []
  | x :: l => (t + service x, x) :: finish (t + service x) l

/-- When the server is free again. -/
def drain (t : Nat) (l : List α) : Nat := t + (l.map service).sum

@[simp] theorem drain_nil (t : Nat) : drain service t [] = t := rfl

@[simp] theorem drain_cons (t : Nat) (x : α) (l : List α) :
    drain service t (x :: l) = drain service (t + service x) l := by
  unfold drain
  rw [List.map_cons, List.sum_cons, Nat.add_assoc]

theorem le_drain (t : Nat) (l : List α) : t ≤ drain service t l := Nat.le_add_right _ _

theorem finish_concat (t : Nat) (l : List α) (x : α) :
    finish service t (l ++ [x]) = finish service t l ++ [(drain service t l + service x, x)] := by
  induction l generalizing t with
  | nil => rfl
  | cons y l ih =>
    rw [List.cons_append, drain_cons]
    show (_, y) :: finish service _ (l ++ [x]) = _
    rw [ih]
    rfl

theorem map_snd_finish (t : Nat) (l : List α) : (finish service t l).map Prod.snd = l := by
  induction l generalizing t with
  | nil => rfl
  | cons x l ih => exact congrArg (List.cons x) (ih _)

theorem le_of_mem_finish {t : Nat} {l : List α} {d : Nat × α} (h : d ∈ finish service t l) :
    t + service d.2 ≤ d.1 ∧ d.1 ≤ drain service t l := by
  induction l generalizing t with
  | nil => exact absurd h List.not_mem_nil
  | cons x l ih =>
    rw [drain_cons]
    rcases List.mem_cons.mp h with rfl | h
    · exact ⟨le_rfl, le_drain service _ l⟩
    · obtain ⟨h1, h2⟩ := ih h
      exact ⟨by omega, h2⟩

/-- The server is free when the last job ends. -/
theorem foldl_finish (t : Nat) (l : List α) :
    (finish service t l).foldl (fun _ d => d.1) t = drain service t l := by
  induction l generalizing t with
  | nil => rfl
  | cons x l ih =>
    rw [drain_cons]
    exact ih _

variable {service}

theorem drain_le {bound : Nat} {l : List α} (h : ∀ x ∈ l, service x ≤ bound) (t : Nat) :
    drain service t l ≤ t + l.length * bound := by
  induction l generalizing t with
  | nil => exact Nat.le_add_right _ _
  | cons x l ih =>
    have hx := h x (List.mem_cons_self ..)
    have hl := ih (fun y hy => h y (List.mem_cons_of_mem _ hy)) (t + service x)
    rw [drain_cons, List.length_cons, Nat.succ_mul]
    omega

/-! ## Jobs with arrival times -/

variable (service)

/-- When each job ends that came at the given time. -/
def serve (t : Nat) : List (Nat × α) → List (Nat × α)
  | [] => []
  | (a, x) :: l => (max a t + service x, x) :: serve (max a t + service x) l

/-- When the last job ends. -/
def freeAfter (t : Nat) : List (Nat × α) → Nat
  | [] => t
  | (a, x) :: l => freeAfter (max a t + service x) l

theorem serve_concat (t : Nat) (l : List (Nat × α)) (a : Nat) (x : α) :
    serve service t (l ++ [(a, x)]) =
      serve service t l ++ [(max a (freeAfter service t l) + service x, x)] := by
  induction l generalizing t with
  | nil => rfl
  | cons y l ih => exact congrArg (List.cons _) (ih _)

theorem freeAfter_concat (t : Nat) (l : List (Nat × α)) (a : Nat) (x : α) :
    freeAfter service t (l ++ [(a, x)]) = max a (freeAfter service t l) + service x := by
  induction l generalizing t with
  | nil => rfl
  | cons y l ih => exact ih _

/-- Those who come later change nothing for those before them. -/
theorem serve_append (t : Nat) (l l' : List (Nat × α)) :
    serve service t (l ++ l') = serve service t l ++ serve service (freeAfter service t l) l' := by
  induction l generalizing t with
  | nil => rfl
  | cons y l ih => exact congrArg (List.cons _) (ih _)

theorem length_serve (t : Nat) (l : List (Nat × α)) : (serve service t l).length = l.length := by
  induction l generalizing t with
  | nil => rfl
  | cons y l ih => exact congrArg Nat.succ (ih _)

theorem map_snd_serve (t : Nat) (l : List (Nat × α)) :
    (serve service t l).map Prod.snd = l.map Prod.snd := by
  induction l generalizing t with
  | nil => rfl
  | cons y l ih => exact congrArg (List.cons y.2) (ih _)

theorem le_freeAfter {t : Nat} {l : List (Nat × α)} :
    t ≤ freeAfter service t l ∧ ∀ d ∈ serve service t l, d.1 ≤ freeAfter service t l := by
  induction l generalizing t with
  | nil => exact ⟨le_rfl, fun _ hd => absurd hd List.not_mem_nil⟩
  | cons y l ih =>
    obtain ⟨hstart, hrest⟩ := ih (t := max y.1 t + service y.2)
    refine ⟨((le_max_right _ _).trans (Nat.le_add_right _ _)).trans hstart, fun d hd => ?_⟩
    rcases List.mem_cons.mp hd with rfl | hd
    · exact hstart
    · exact hrest d hd

/-! ## Equal jobs -/

/-- Times in order, at least `gap` apart. -/
def Spaced (gap : Nat) (l : List Nat) : Prop := l.Pairwise fun a b => a + gap ≤ b

theorem Spaced.mono {gap gap' : Nat} {l : List Nat} (h : Spaced gap l) (hle : gap' ≤ gap) :
    Spaced gap' l :=
  h.imp fun hab => (Nat.add_le_add_left hle _).trans hab

theorem Spaced.shift {gap : Nat} {l : List Nat} (h : Spaced gap l) (d : Nat) :
    Spaced gap (l.map fun t => t + d) :=
  h.map _ fun a b hab => by omega

theorem Spaced.concat {gap t : Nat} {l : List Nat} (h : Spaced gap l)
    (hlast : ∀ a ∈ l, a + gap ≤ t) : Spaced gap (l ++ [t]) := by
  refine List.pairwise_append.mpr ⟨h, List.pairwise_singleton _ _, fun a ha b hb => ?_⟩
  obtain rfl := List.mem_singleton.mp hb
  exact hlast a ha

variable {service}

theorem spaced_serve {gap t : Nat} {l : List (Nat × α)} (hs : ∀ a ∈ l, service a.2 = gap) :
    Spaced gap ((serve service t l).map Prod.fst) ∧ ∀ d ∈ serve service t l, t + gap ≤ d.1 := by
  induction l generalizing t with
  | nil => exact ⟨List.Pairwise.nil, fun _ hd => absurd hd List.not_mem_nil⟩
  | cons y l ih =>
    obtain ⟨hspaced, hlate⟩ := ih (t := max y.1 t + service y.2)
      fun a ha => hs a (List.mem_cons_of_mem _ ha)
    have hy := hs y (List.mem_cons_self ..)
    refine ⟨List.pairwise_cons.mpr ⟨fun c hc => ?_, hspaced⟩, fun d hd => ?_⟩
    · obtain ⟨d, hd, rfl⟩ := List.mem_map.mp hc
      exact hlate d hd
    · rcases List.mem_cons.mp hd with rfl | hd
      · show t + gap ≤ max y.1 t + service y.2
        omega
      · have := hlate d hd
        omega

/-- Jobs that come at least a service time apart start when they come. -/
theorem serve_spaced {gap t : Nat} {l : List (Nat × α)} (hs : ∀ a ∈ l, service a.2 = gap)
    (hl : Spaced gap (l.map Prod.fst)) (ht : ∀ a ∈ l, t ≤ a.1) :
    serve service t l = l.map fun a => (a.1 + gap, a.2) := by
  induction l generalizing t with
  | nil => rfl
  | cons y l ih =>
    obtain ⟨hfirst, hrest⟩ := List.pairwise_cons.mp hl
    have hstart : max y.1 t + service y.2 = y.1 + gap := by
      rw [max_eq_left (ht y (List.mem_cons_self ..)), hs y (List.mem_cons_self ..)]
    show (max y.1 t + service y.2, y.2) :: serve service (max y.1 t + service y.2) l = _
    rw [hstart, ih (fun a ha => hs a (List.mem_cons_of_mem _ ha)) hrest fun a ha => ?_]
    · rfl
    · exact hfirst a.1 (List.mem_map_of_mem ha)

/-- Of jobs that came far apart none is left, or only the one that is done by now. -/
theorem Spaced.length_le_one {gap now : Nat} {l : List Nat} (h : Spaced gap l) (hpos : 0 < gap)
    (hl : ∀ a ∈ l, a = now) : l.length ≤ 1 := by
  match l with
  | [] => exact Nat.zero_le _
  | [a] => exact le_rfl
  | a :: b :: l =>
    have hab := (List.pairwise_cons.mp h).1 b (List.mem_cons_self ..)
    rw [hl a (List.mem_cons_self ..), hl b (List.mem_cons_of_mem _ (List.mem_cons_self ..))] at hab
    omega

end FifoServer
